import Mathlib.Data.Finset.Dedup
import Mathlib.Data.List.Induction
import Mathlib.Order.Defs.LinearOrder

/-!
# Uses of keys

A list of uses tells which key was used when, each use later than the ones before it. `last` is when a
key was used last, and `since` are the other keys that have been used after an instant: their number is
the rank of a key in the order of recency.
-/

/-- Keys with the instants of their use. -/
abbrev Uses (κ τ : Type*) := List (κ × τ)

namespace Uses

variable {κ τ : Type*} [DecidableEq κ]

/-- When the key was used last. -/
def last (uses : Uses κ τ) (key : κ) : Option τ :=
  ((uses.filter fun use => use.1 = key).getLast?).map Prod.snd

@[simp] theorem last_nil (key : κ) : last ([] : Uses κ τ) key = none := rfl

@[simp] theorem last_concat_self (uses : Uses κ τ) (key : κ) (t : τ) :
    last (uses ++ [(key, t)]) key = some t := by
  simp [last]

theorem last_concat_of_ne (uses : Uses κ τ) {key key' : κ} (h : key' ≠ key) (t : τ) :
    last (uses ++ [(key, t)]) key' = last uses key' := by
  simp [last, Ne.symm h]

theorem mem_of_last {uses : Uses κ τ} {key : κ} {t : τ} (h : last uses key = some t) :
    (key, t) ∈ uses := by
  obtain ⟨⟨key', t'⟩, hlast, rfl⟩ := Option.map_eq_some_iff.mp h
  obtain ⟨hmem, hkey⟩ := List.mem_filter.mp (List.mem_of_mem_getLast? hlast)
  obtain rfl : key' = key := of_decide_eq_true hkey
  exact hmem

variable [LinearOrder τ]

/-- The other keys that have been used after an instant. -/
def since (uses : Uses κ τ) (key : κ) (t : τ) : Finset κ :=
  ((uses.filter fun use => t < use.2 ∧ use.1 ≠ key).map Prod.fst).toFinset

theorem mem_since {uses : Uses κ τ} {key key' : κ} {t : τ} :
    key' ∈ since uses key t ↔ key' ≠ key ∧ ∃ t', t < t' ∧ (key', t') ∈ uses := by
  simp only [since, List.mem_toFinset, List.mem_map, List.mem_filter, decide_eq_true_eq, Prod.exists]
  constructor
  · rintro ⟨k, t', ⟨hmem, hlt, hne⟩, rfl⟩
    exact ⟨hne, t', hlt, hmem⟩
  · rintro ⟨hne, t', hlt, hmem⟩
    exact ⟨key', t', ⟨hmem, hlt, hne⟩, rfl⟩

theorem since_subset_concat (uses : Uses κ τ) (use : κ × τ) (key : κ) (t : τ) :
    since uses key t ⊆ since (uses ++ [use]) key t := by
  intro key' h
  obtain ⟨hne, t', hlt, hmem⟩ := mem_since.mp h
  exact mem_since.mpr ⟨hne, t', hlt, List.mem_append_left _ hmem⟩

theorem mem_since_concat {uses : Uses κ τ} {used key key' : κ} {now t : τ}
    (h : key' ∈ since (uses ++ [(used, now)]) key t) : key' = used ∨ key' ∈ since uses key t := by
  obtain ⟨hne, t', hlt, hmem⟩ := mem_since.mp h
  rcases List.mem_append.mp hmem with hmem | hmem
  · exact Or.inr (mem_since.mpr ⟨hne, t', hlt, hmem⟩)
  · exact Or.inl (Prod.mk.inj (List.mem_singleton.mp hmem)).1

/-! ### Uses in the order of time -/

variable {uses : Uses κ τ}

theorem le_last (hsorted : uses.Pairwise fun use use' => use.2 < use'.2) {key : κ} {t : τ}
    (hmem : (key, t) ∈ uses) : ∃ t', last uses key = some t' ∧ t ≤ t' := by
  induction uses using List.reverseRecOn with
  | nil => cases hmem
  | append_singleton uses use ih =>
    obtain ⟨used, now⟩ := use
    obtain ⟨hfront, -, hbehind⟩ := List.pairwise_append.mp hsorted
    rcases List.mem_append.mp hmem with hbefore | hnow
    · by_cases hkey : key = used
      · subst hkey
        exact ⟨now, last_concat_self uses key now,
          (hbehind (key, t) hbefore _ (List.mem_singleton_self _)).le⟩
      · rw [last_concat_of_ne uses hkey]
        exact ih hfront hbefore
    · obtain ⟨rfl, rfl⟩ := Prod.mk.inj (List.mem_singleton.mp hnow)
      exact ⟨t, last_concat_self uses key t, le_refl t⟩

omit [DecidableEq κ] in
theorem key_eq (hsorted : uses.Pairwise fun use use' => use.2 < use'.2) {key key' : κ} {t : τ}
    (hmem : (key, t) ∈ uses) (hmem' : (key', t) ∈ uses) : key = key' := by
  have hnodup : (uses.map Prod.snd).Nodup :=
    List.pairwise_map.mpr (hsorted.imp fun h => h.ne)
  exact congrArg Prod.fst (List.inj_on_of_nodup_map hnodup hmem hmem' rfl)

end Uses
