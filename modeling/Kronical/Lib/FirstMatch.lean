import Mathlib.Data.List.Basic
import Mathlib.Data.List.Nodup

/-!
# Changing the first match

`update p f l` changes the first element of a list that has `p`, and gives out what it was. If elements
have keys that differ, the element with a key is its first match, and the others stay (`mem_update_iff`).
-/

namespace FirstMatch

variable {α κ : Type*}

/-- The first element that has `p`, and the list with that element changed. -/
def update (p : α → Bool) (f : α → α) : List α → Option (α × List α)
  | [] => none
  | a :: l => if p a then some (a, f a :: l) else (update p f l).map fun (b, l) => (b, a :: l)

theorem fst_update (p : α → Bool) (f : α → α) (l : List α) : (update p f l).map Prod.fst = l.find? p := by
  induction l with
  | nil => rfl
  | cons a l ih =>
    unfold update
    cases ha : p a with
    | true => rw [if_pos rfl, List.find?_cons_of_pos ha, Option.map_some]
    | false =>
      rw [if_neg Bool.false_ne_true, List.find?_cons_of_neg (by simp [ha]), ← ih, Option.map_map]
      rfl

theorem update_eq_some {p : α → Bool} {f : α → α} {l l' : List α} {a : α}
    (h : update p f l = some (a, l')) :
    ∃ before after, l = before ++ a :: after ∧ l' = before ++ f a :: after := by
  induction l generalizing l' with
  | nil => cases h
  | cons b l ih =>
    unfold update at h
    split_ifs at h with hb
    · obtain ⟨rfl, rfl⟩ := Prod.mk.inj (Option.some.inj h)
      exact ⟨[], l, rfl, rfl⟩
    · obtain ⟨⟨a', rest⟩, hrest, heq⟩ := Option.map_eq_some_iff.mp h
      obtain ⟨rfl, rfl⟩ := Prod.mk.inj heq
      obtain ⟨before, after, rfl, rfl⟩ := ih hrest
      exact ⟨b :: before, after, rfl, rfl⟩

section Keys

variable {key : α → κ} {f : α → α} {l l' before after : List α} {a : α}

/-- The changed element, and the others. -/
theorem mem_update_iff (hkeys : ((before ++ a :: after).map key).Nodup) {b : α} :
    b ∈ before ++ f a :: after ↔ b = f a ∨ b ∈ before ++ a :: after ∧ key b ≠ key a := by
  rw [List.map_append, List.map_cons] at hkeys
  have hbefore : ∀ c ∈ before, key c ≠ key a := by
    intro c hc h
    exact (List.nodup_append.mp hkeys).2.2 _ (List.mem_map_of_mem hc) _ List.mem_cons_self h
  have hafter : ∀ c ∈ after, key c ≠ key a := by
    intro c hc h
    exact (List.nodup_cons.mp (List.nodup_append.mp hkeys).2.1).1 (h ▸ List.mem_map_of_mem hc)
  simp only [List.mem_append, List.mem_cons]
  constructor
  · rintro (hb | rfl | hb)
    · exact Or.inr ⟨Or.inl hb, hbefore b hb⟩
    · exact Or.inl rfl
    · exact Or.inr ⟨Or.inr (Or.inr hb), hafter b hb⟩
  · rintro (rfl | ⟨hb | rfl | hb, hne⟩)
    · exact Or.inr (Or.inl rfl)
    · exact Or.inl hb
    · exact absurd rfl hne
    · exact Or.inr (Or.inr hb)

theorem map_key_update (hkey : key (f a) = key a) :
    (before ++ f a :: after).map key = (before ++ a :: after).map key := by
  rw [List.map_append, List.map_append, List.map_cons, List.map_cons, hkey]

theorem nodup_map_concat (hkeys : (l.map key).Nodup) (hnew : ∀ b ∈ l, key b ≠ key a) :
    ((l ++ [a]).map key).Nodup := by
  rw [List.map_append, List.map_singleton]
  refine List.nodup_append.mpr ⟨hkeys, List.nodup_singleton _, ?_⟩
  intro k hk k' hk'
  obtain ⟨b, hb, rfl⟩ := List.mem_map.mp hk
  rw [List.mem_singleton.mp hk']
  exact hnew b hb

end Keys

end FirstMatch
