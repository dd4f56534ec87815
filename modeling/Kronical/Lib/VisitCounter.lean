import Mathlib.Data.List.Infix
import Mathlib.Data.List.Nodup
import Kronical.Lib.Transducer

/-!
# Numbering within visits

A stream of keys is numbered visit by visit: a key that follows itself gets the next number, up to a
limit and then none, and any other key starts a new visit at zero. Key and number together are unique
exactly if no key is visited twice (`nodup_iff`). The key that the counter starts with is special: its
zero has not been given out, so a stream that begins with it may come back to it for one more number.
-/

namespace VisitCounter

variable {κ : Type*} [DecidableEq κ]

/-- The state is the last key and its number. -/
def count (limit : Nat) : Transducer (κ × Nat) κ (κ × Nat)
  | (last, seq), key =>
    if key = last then
      if limit ≤ seq then ((last, seq), []) else ((last, seq + 1), [(key, seq + 1)])
    else ((key, 0), [(key, 0)])

/-- The keys of the visits that start behind `last`. -/
def visits : κ → List κ → List κ
  | _, [] => []
  | last, key :: keys => if key = last then visits last keys else key :: visits key keys

variable {limit seq : Nat} {last key : κ} {keys : List κ}

theorem count_again_of_lt (h : seq < limit) :
    count limit (last, seq) last = ((last, seq + 1), [(last, seq + 1)]) := by
  simp [count, h]

theorem count_again_of_le (h : limit ≤ seq) : count limit (last, seq) last = ((last, seq), []) := by
  simp [count, h]

theorem count_other (h : key ≠ last) : count limit (last, seq) key = ((key, 0), [(key, 0)]) := by
  simp [count, h]

theorem mem_bounds {given : κ × Nat} (hseq : seq ≤ limit)
    (h : given ∈ ((count limit).run (last, seq) keys).2) : given.1 ∈ keys ∧ given.2 ≤ limit := by
  induction keys generalizing last seq with
  | nil => cases h
  | cons k keys ih =>
    rw [Transducer.run_cons_snd] at h
    by_cases hk : k = last
    · subst hk
      by_cases hfull : limit ≤ seq
      · rw [count_again_of_le hfull] at h
        exact (ih hseq h).imp_left (List.mem_cons_of_mem _)
      · rw [count_again_of_lt (Nat.not_le.mp hfull)] at h
        rcases List.mem_cons.mp h with rfl | hlater
        · exact ⟨List.mem_cons_self, Nat.not_le.mp hfull⟩
        · exact (ih (Nat.not_le.mp hfull) hlater).imp_left (List.mem_cons_of_mem _)
    · rw [count_other hk] at h
      rcases List.mem_cons.mp h with rfl | hlater
      · exact ⟨List.mem_cons_self, Nat.zero_le _⟩
      · exact (ih (Nat.zero_le _) hlater).imp_left (List.mem_cons_of_mem _)

theorem mem_visits_or {n : Nat} (h : (key, n) ∈ ((count limit).run (last, seq) keys).2) :
    key ∈ visits last keys ∨ key = last ∧ seq < n := by
  induction keys generalizing last seq with
  | nil => cases h
  | cons k keys ih =>
    rw [Transducer.run_cons_snd] at h
    rw [visits]
    by_cases hk : k = last
    · subst hk
      rw [if_pos rfl]
      by_cases hfull : limit ≤ seq
      · rw [count_again_of_le hfull] at h
        exact ih h
      · rw [count_again_of_lt (Nat.not_le.mp hfull)] at h
        rcases List.mem_cons.mp h with hnow | hlater
        · obtain ⟨rfl, rfl⟩ := Prod.mk.inj hnow
          exact .inr ⟨rfl, Nat.lt_succ_self _⟩
        · exact (ih hlater).imp_right fun hsame => ⟨hsame.1, Nat.lt_of_succ_lt hsame.2⟩
    · rw [if_neg hk]
      rw [count_other hk] at h
      refine .inl ?_
      rcases List.mem_cons.mp h with hnow | hlater
      · obtain ⟨rfl, -⟩ := Prod.mk.inj hnow
        exact List.mem_cons_self
      · rcases ih hlater with hvisit | ⟨rfl, -⟩
        · exact List.mem_cons_of_mem _ hvisit
        · exact List.mem_cons_self

theorem zeros_eq (limit seq : Nat) (last : κ) (keys : List κ) :
    (((count limit).run (last, seq) keys).2.filter (·.2 = 0)).map Prod.fst =
      visits last keys := by
  induction keys generalizing last seq with
  | nil => rfl
  | cons k keys ih =>
    rw [Transducer.run_cons_snd, visits]
    by_cases hk : k = last
    · subst hk
      rw [if_pos rfl]
      by_cases hfull : limit ≤ seq
      · rw [count_again_of_le hfull]
        exact ih seq k
      · rw [count_again_of_lt (Nat.not_le.mp hfull)]
        simpa using ih (seq + 1) k
    · rw [if_neg hk, count_other hk]
      simpa using ih 0 k

theorem visits_nodup (h : ((count limit).run (last, seq) keys).2.Nodup) : (visits last keys).Nodup := by
  rw [← zeros_eq limit seq]
  refine List.Nodup.map_on (fun a ha b hb hfst => ?_) (h.filter _)
  have hazero := (List.mem_filter.mp ha).2
  have hbzero := (List.mem_filter.mp hb).2
  simp only [decide_eq_true_eq] at hazero hbzero
  exact Prod.ext hfst (hazero.trans hbzero.symm)

theorem nodup_of_visits (hlast : last ∉ visits last keys) (hvisits : (visits last keys).Nodup) :
    ((count limit).run (last, seq) keys).2.Nodup := by
  induction keys generalizing last seq with
  | nil => exact .nil
  | cons k keys ih =>
    rw [Transducer.run_cons_snd]
    rw [visits] at hlast hvisits
    by_cases hk : k = last
    · subst hk
      rw [if_pos rfl] at hlast hvisits
      by_cases hfull : limit ≤ seq
      · rw [count_again_of_le hfull]
        exact ih hlast hvisits
      · rw [count_again_of_lt (Nat.not_le.mp hfull)]
        refine List.nodup_cons.mpr ⟨fun hagain => ?_, ih hlast hvisits⟩
        exact (mem_visits_or hagain).elim hlast fun hsame => Nat.lt_irrefl _ hsame.2
    · rw [if_neg hk] at hvisits
      obtain ⟨hfirst, hrest⟩ := List.nodup_cons.mp hvisits
      rw [count_other hk]
      refine List.nodup_cons.mpr ⟨fun hagain => ?_, ih hfirst hrest⟩
      exact (mem_visits_or hagain).elim hfirst fun hsame => Nat.lt_irrefl _ hsame.2

theorem nodup_visit_iff (hkey : key ≠ last) :
    ((count limit).run (last, seq) (key :: keys)).2.Nodup ↔ (visits last (key :: keys)).Nodup := by
  refine ⟨visits_nodup, fun hvisits => ?_⟩
  rw [visits, if_neg hkey] at hvisits
  obtain ⟨hfirst, hrest⟩ := List.nodup_cons.mp hvisits
  rw [Transducer.run_cons_snd, count_other hkey]
  refine List.nodup_cons.mpr ⟨fun hagain => ?_, nodup_of_visits hfirst hrest⟩
  exact (mem_visits_or hagain).elim hfirst fun hsame => Nat.lt_irrefl _ hsame.2

/-! ### The key that the counter starts with -/

theorem twice_of_mem {n : Nat} (h : (key, n + 1) ∈ ((count limit).run (last, seq) keys).2) :
    last = key ∧ keys.head? = some key ∨ [key, key] <:+: keys := by
  induction keys generalizing last seq with
  | nil => cases h
  | cons k keys ih =>
    rw [Transducer.run_cons_snd] at h
    by_cases hk : k = last
    · subst hk
      by_cases hsame : k = key
      · exact .inl ⟨hsame, by rw [hsame]; rfl⟩
      · have hlater : ∃ seq', (key, n + 1) ∈ ((count limit).run (k, seq') keys).2 := by
          by_cases hfull : limit ≤ seq
          · rw [count_again_of_le hfull] at h
            exact ⟨_, h⟩
          · rw [count_again_of_lt (Nat.not_le.mp hfull)] at h
            refine ⟨_, (List.mem_cons.mp h).resolve_left fun hnow => ?_⟩
            exact hsame (Prod.mk.inj hnow).1.symm
        obtain ⟨seq', hlater⟩ := hlater
        exact .inr (List.infix_cons ((ih hlater).resolve_left fun hhead => hsame hhead.1))
    · rw [count_other hk] at h
      have hlater := (List.mem_cons.mp h).resolve_left fun hnow => by cases (Prod.mk.inj hnow).2
      rcases ih hlater with ⟨rfl, hhead⟩ | hinfix
      · obtain ⟨rest, rfl⟩ := List.head?_eq_some_iff.mp hhead
        exact .inr (List.prefix_append [k, k] rest).isInfix
      · exact .inr (List.infix_cons hinfix)

theorem mem_of_twice (hlimit : 0 < limit) (hfresh : last = key → seq = 0)
    (h : last = key ∧ keys.head? = some key ∨ [key, key] <:+: keys) :
    (key, 1) ∈ ((count limit).run (last, seq) keys).2 := by
  induction keys generalizing last seq with
  | nil => simp at h
  | cons k keys ih =>
    rw [Transducer.run_cons_snd]
    rw [List.head?_cons, Option.some.injEq, List.infix_cons_iff] at h
    by_cases hk : k = last
    · subst hk
      by_cases hsame : k = key
      · rw [hfresh hsame, count_again_of_lt hlimit, hsame]
        exact List.mem_append_left _ List.mem_cons_self
      · have hinfix : [key, key] <:+: keys := by
          rcases h with ⟨hhead, -⟩ | hprefix | hinfix
          · exact absurd hhead hsame
          · exact absurd (List.cons_prefix_cons.mp hprefix).1.symm hsame
          · exact hinfix
        by_cases hfull : limit ≤ seq
        · rw [count_again_of_le hfull]
          exact ih (fun hhead => absurd hhead hsame) (.inr hinfix)
        · rw [count_again_of_lt (Nat.not_le.mp hfull)]
          exact List.mem_append_right _ (ih (fun hhead => absurd hhead hsame) (.inr hinfix))
    · rw [count_other hk]
      refine List.mem_append_right _ (ih (fun _ => rfl) ?_)
      rcases h with ⟨rfl, hhead⟩ | hprefix | hinfix
      · exact absurd hhead hk
      · obtain ⟨rfl, hrest⟩ := List.cons_prefix_cons.mp hprefix
        obtain ⟨rest, rfl⟩ := hrest
        exact .inl ⟨rfl, rfl⟩
      · exact .inr hinfix

theorem run_dropWhile (limit seq : Nat) (last : κ) (keys : List κ) :
    ∃ first seq', ((count limit).run (last, seq) keys).2 =
      first ++ ((count limit).run (last, seq') (keys.dropWhile (· = last))).2 ∧
    visits last keys = visits last (keys.dropWhile (· = last)) ∧ first.Nodup ∧
    (∀ given ∈ first, given.1 = last ∧ seq < given.2 ∧ keys.head? = some last) ∧
    (seq < limit → keys.head? = some last → (last, seq + 1) ∈ first) := by
  induction keys generalizing seq with
  | nil => exact ⟨[], seq, rfl, rfl, .nil, nofun, nofun⟩
  | cons k keys ih =>
    by_cases hk : k = last
    · subst hk
      rw [Transducer.run_cons_snd, visits, if_pos rfl, List.dropWhile_cons_of_pos (by simp)]
      by_cases hfull : limit ≤ seq
      · rw [count_again_of_le hfull]
        obtain ⟨first, seq', hrun, hvisits, hnodup, habove, -⟩ := ih seq
        refine ⟨first, seq', hrun, hvisits, hnodup, fun given hgiven => ?_,
          fun hlt => absurd hfull hlt.not_ge⟩
        exact ⟨(habove given hgiven).1, (habove given hgiven).2.1, rfl⟩
      · rw [count_again_of_lt (Nat.not_le.mp hfull)]
        obtain ⟨first, seq', hrun, hvisits, hnodup, habove, -⟩ := ih (seq + 1)
        refine ⟨(k, seq + 1) :: first, seq', by rw [hrun]; rfl, hvisits, ?_, ?_,
          fun _ _ => List.mem_cons_self⟩
        · exact List.nodup_cons.mpr ⟨fun hagain => Nat.lt_irrefl _ (habove _ hagain).2.1, hnodup⟩
        · refine List.forall_mem_cons.mpr ⟨⟨rfl, Nat.lt_succ_self _, rfl⟩, fun given hgiven => ?_⟩
          exact ⟨(habove given hgiven).1, Nat.lt_of_succ_lt (habove given hgiven).2.1, rfl⟩
    · rw [List.dropWhile_cons_of_neg (by simpa using hk)]
      refine ⟨[], seq, rfl, rfl, .nil, nofun, fun _ hhead => ?_⟩
      exact absurd (Option.some.inj hhead) hk

/-- No key is visited twice; only to the key `start`, if the stream begins with it, it may come back for
one key. -/
def NeverReturns (start : κ) (keys : List κ) : Prop :=
  (visits start keys).Nodup ∧
    (keys.head? = some start → ¬ [start, start] <:+: keys.dropWhile (· = start))

instance (start : κ) (keys : List κ) : Decidable (NeverReturns start keys) :=
  inferInstanceAs (Decidable (_ ∧ (_ → _)))

/-- Over any stream of keys, key and number together are unique exactly if the stream never returns. -/
theorem nodup_iff (hlimit : 0 < limit) (start : κ) (keys : List κ) :
    ((count limit).run (start, 0) keys).2.Nodup ↔ NeverReturns start keys := by
  obtain ⟨first, seq, hrun, hvisits, hnodup, habove, hone⟩ :=
    run_dropWhile limit 0 start keys
  -- What is left behind the first visit starts with a visit of its own.
  obtain ⟨hrest, htwice, hone'⟩ :
      (((count limit).run (start, seq) (keys.dropWhile (· = start))).2.Nodup ↔
        (visits start (keys.dropWhile (· = start))).Nodup) ∧
      (∀ n, (start, n + 1) ∈ ((count limit).run (start, seq) (keys.dropWhile (· = start))).2 →
        [start, start] <:+: keys.dropWhile (· = start)) ∧
      ([start, start] <:+: keys.dropWhile (· = start) →
        (start, 1) ∈ ((count limit).run (start, seq) (keys.dropWhile (· = start))).2) := by
    cases hdrop : keys.dropWhile (· = start) with
    | nil => exact ⟨iff_of_true .nil .nil, nofun, fun h => absurd h (by simp)⟩
    | cons k rest =>
      have hk : k ≠ start := by
        intro hk
        have hhead := List.head?_dropWhile_not (· = start) keys
        rw [hdrop] at hhead
        simp [hk] at hhead
      refine ⟨nodup_visit_iff hk, fun n hn => ?_, fun htwo => ?_⟩
      · exact (twice_of_mem hn).resolve_left fun hhead => hk (Option.some.inj hhead.2)
      · rw [Transducer.run_cons_snd, count_other hk]
        refine List.mem_append_right _ (mem_of_twice hlimit (fun _ => rfl) (.inr ?_))
        refine (List.infix_cons_iff.mp htwo).resolve_left fun hprefix => ?_
        exact hk (List.cons_prefix_cons.mp hprefix).1.symm
  rw [NeverReturns, hrun, hvisits, List.nodup_append, hrest, and_iff_right hnodup]
  refine and_congr_right fun _ => ⟨fun hapart hhead htwo => ?_, fun honce a ha b hb hab => ?_⟩
  · exact hapart _ (hone hlimit hhead) _ (hone' htwo) rfl
  · obtain ⟨hkey, hnumber, hhead⟩ := habove a ha
    obtain ⟨n, hn⟩ : ∃ n, a.2 = n + 1 := ⟨a.2 - 1, by omega⟩
    have ha' : a = (start, n + 1) := Prod.ext hkey hn
    rw [← hab, ha'] at hb
    exact honce hhead (htwice n hb)

end VisitCounter
