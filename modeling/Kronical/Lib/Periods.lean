import Mathlib.Order.Lattice
import Kronical.Lib.Runs

/-!
# Periods in order

A period is a pair of a start and an end. In an ordered list no period ends before it starts, and each one
has ended when the next one starts. Its `hull` goes from the first start to the last end, and what is free
inside the hull lies between two neighbours (`Ordered.exists_link`). `mergeFrom` joins neighbours that are
near to each other: it makes the hulls of the maximal runs of near neighbours (`Ordered.merge_eq`).
-/

namespace Periods

variable {α : Type*} [LinearOrder α]

structure Ordered (l : List (α × α)) : Prop where
  le : ∀ p ∈ l, p.1 ≤ p.2
  apart : l.Pairwise fun p q => p.2 ≤ q.1

/-- From the first start to the latest end. -/
def hull : List (α × α) → Option (α × α)
  | [] => none
  | p :: l => some (p.1, l.foldl (fun last q => max last q.2) p.2)

theorem hull_concat {l : List (α × α)} {h : α × α} (hl : hull l = some h) (q : α × α) :
    hull (l ++ [q]) = some (h.1, max h.2 q.2) := by
  cases l with
  | nil => cases hl
  | cons p l =>
    obtain rfl := Option.some.inj hl
    rw [List.cons_append, hull, List.foldl_append]
    rfl

theorem hull_append {l l' : List (α × α)} {h h' : α × α} (hl : hull l = some h) (hl' : hull l' = some h') :
    hull (l ++ l') = some (h.1, max h.2 h'.2) := by
  induction l' using List.reverseRecOn generalizing h' with
  | nil => cases hl'
  | append_singleton l' q ih =>
    rw [← List.append_assoc]
    cases hfront : hull l' with
    | none =>
      obtain rfl : l' = [] := by
        cases l' with
        | nil => rfl
        | cons _ _ => cases hfront
      obtain rfl := Option.some.inj hl'
      rw [List.append_nil]
      exact hull_concat hl q
    | some front =>
      rw [hull_concat hfront] at hl'
      obtain rfl := Option.some.inj hl'
      rw [hull_concat (ih hfront), max_assoc]

theorem hull_isSome {l : List (α × α)} (hne : l ≠ []) : ∃ h, hull l = some h := by
  obtain ⟨p, l, rfl⟩ := List.exists_cons_of_ne_nil hne
  exact ⟨_, rfl⟩

theorem hull_first {l : List (α × α)} {h : α × α} (hh : hull l = some h) : ∀ p ∈ l.head?, h.1 = p.1 := by
  cases l with
  | nil => cases hh
  | cons p l =>
    obtain rfl := Option.some.inj hh
    rintro _ ⟨⟩
    rfl

theorem hull_flatten {runs : List (List (α × α))} (hne : ∀ run ∈ runs, run ≠ []) :
    hull runs.flatten = hull (runs.filterMap hull) := by
  induction runs using List.reverseRecOn with
  | nil => rfl
  | append_singleton runs run ih =>
    obtain ⟨hne, hlast⟩ := List.forall_mem_append.mp hne
    obtain ⟨h, hh⟩ := hull_isSome (hlast run (by simp))
    rw [List.flatten_append, List.flatten_singleton, List.filterMap_append, List.filterMap_cons_some hh,
      List.filterMap_nil]
    cases runs with
    | nil =>
      rw [List.flatten_nil, List.nil_append, hh]
      rfl
    | cons first runs =>
      have hfirst : (first :: runs).flatten ≠ [] := by
        rw [List.flatten_cons]
        exact List.append_ne_nil_of_left_ne_nil (hne first (by simp)) _
      obtain ⟨front, hfront⟩ := hull_isSome hfirst
      rw [hull_append hfront hh]
      exact (hull_concat (ih hne ▸ hfront) h).symm

namespace Ordered

variable {l l' : List (α × α)} {p q h : α × α}

theorem sublist (hl : Ordered l) (hsub : l'.Sublist l) : Ordered l' :=
  ⟨fun p hp => hl.le p (hsub.subset hp), hl.apart.sublist hsub⟩

theorem hull_last (hl : Ordered (l ++ [q])) (hh : hull (l ++ [q]) = some h) : h.2 = q.2 := by
  induction l using List.reverseRecOn generalizing q h with
  | nil => exact Option.some.inj hh ▸ rfl
  | append_singleton l p ih =>
    obtain ⟨first, hfirst⟩ : ∃ first, hull (l ++ [p]) = some first := by
      cases l <;> exact ⟨_, rfl⟩
    rw [hull_concat hfirst] at hh
    obtain rfl := Option.some.inj hh
    have hlast := ih (hl.sublist (List.sublist_append_left _ _)) hfirst
    have hle : p.2 ≤ q.1 := (List.pairwise_append.mp hl.apart).2.2 p (by simp) q (by simp)
    exact max_eq_right (hlast ▸ hle.trans (hl.le q (by simp)))

theorem hull_getLast (hl : Ordered l) (hh : hull l = some h) : ∀ p ∈ l.getLast?, h.2 = p.2 := by
  intro p hp
  obtain ⟨front, rfl⟩ := List.getLast?_eq_some_iff.mp hp
  exact hl.hull_last hh

theorem mem_hull (hl : Ordered l) (hh : hull l = some h) (hp : p ∈ l) : h.1 ≤ p.1 ∧ p.2 ≤ h.2 := by
  induction l using List.reverseRecOn generalizing h with
  | nil => cases hp
  | append_singleton l q ih =>
    have hlast := hl.hull_last hh
    have hq := hl.le q (by simp)
    cases hfirst : hull l with
    | none =>
      have hnil : l = [] := by
        cases l with
        | nil => rfl
        | cons _ _ => cases hfirst
      subst hnil
      obtain rfl := List.mem_singleton.mp hp
      obtain rfl := Option.some.inj hh
      exact ⟨le_rfl, le_rfl⟩
    | some first =>
      rw [hull_concat hfirst] at hh
      obtain rfl := Option.some.inj hh
      have hrest := hl.sublist (List.sublist_append_left _ _)
      rcases List.mem_append.mp hp with hmem | hmem
      · obtain ⟨hlow, hhigh⟩ := ih hrest hfirst hmem
        exact ⟨hlow, hhigh.trans (le_max_left _ _)⟩
      · obtain rfl := List.mem_singleton.mp hmem
        refine ⟨?_, le_max_right _ _⟩
        cases l with
        | nil => cases hfirst
        | cons p' l =>
          obtain rfl := Option.some.inj hfirst
          exact (hl.le p' (by simp)).trans ((List.pairwise_append.mp hl.apart).2.2 p' (by simp) p (by simp))

theorem hull_le (hl : Ordered l) (hh : hull l = some h) : h.1 ≤ h.2 := by
  cases l with
  | nil => cases hh
  | cons p l =>
    obtain ⟨hlow, hhigh⟩ := hl.mem_hull hh List.mem_cons_self
    exact hlow.trans ((hl.le p List.mem_cons_self).trans hhigh)

/-- What is free inside the hull lies between two neighbours. -/
theorem exists_link (hl : Ordered l) (hh : hull l = some h) {a b : α} (ha : h.1 ≤ a) (hab : a < b)
    (hb : b ≤ h.2) (hfree : ∀ p ∈ l, p.2 ≤ a ∨ b ≤ p.1) :
    ∃ p q, [p, q] <:+: l ∧ p.2 ≤ a ∧ b ≤ q.1 := by
  induction l generalizing h with
  | nil => cases hh
  | cons p l ih =>
    obtain ⟨hp, hrest⟩ := List.forall_mem_cons.mp hfree
    obtain rfl := Option.some.inj hh
    have hpa : p.2 ≤ a := hp.resolve_right fun hbp => absurd (hab.trans_le hbp) (not_lt_of_ge ha)
    cases l with
    | nil => exact absurd (hab.trans_le hb) (not_lt_of_ge hpa)
    | cons q l =>
      rcases (List.forall_mem_cons.mp hrest).1 with hqa | hbq
      · have hordered := hl.sublist (List.sublist_cons_self _ _)
        have hq : q.1 ≤ q.2 := hl.le q (by simp)
        have hpq : p.2 ≤ q.2 := ((List.pairwise_cons.mp hl.apart).1 q (by simp)).trans hq
        have hend : b ≤ l.foldl (fun last q => max last q.2) q.2 := by
          have hmax : max p.2 q.2 = q.2 := max_eq_right hpq
          rw [← hmax]
          exact hb
        obtain ⟨p', q', hpair, hlink⟩ := ih hordered rfl (hq.trans hqa) hend hrest
        exact ⟨p', q', hpair.trans (List.suffix_cons _ _).isInfix, hlink⟩
      · exact ⟨p, q, ⟨[], l, rfl⟩, hpa, hbq⟩

theorem within (hl : Ordered l) (hh : hull l = some h) {a b : α} (ha : a < h.2) (hb : h.1 < b)
    (hfree : ∀ p ∈ l, p.2 ≤ a ∨ b ≤ p.1) : h.1 ≤ a ∧ b ≤ h.2 := by
  constructor
  · cases l with
    | nil => cases hh
    | cons p l =>
      obtain rfl := Option.some.inj hh
      have hp := (hfree p (by simp)).resolve_right (not_le_of_gt hb)
      exact (hl.le p (by simp)).trans hp
  · cases l using List.reverseRecOn with
    | nil => cases hh
    | append_singleton l q =>
      rw [hl.hull_last hh] at ha ⊢
      have hq := (hfree q (by simp)).resolve_left (not_le_of_gt ha)
      exact hq.trans (hl.le q (by simp))

theorem filterMap_hull {groups : List (List (α × α))} (hl : Ordered groups.flatten) :
    Ordered (groups.filterMap hull) := by
  have hgroup : ∀ group ∈ groups, Ordered group := fun group hmem =>
    hl.sublist (List.sublist_flatten_of_mem hmem)
  refine ⟨?_, ?_⟩
  · intro h hmem
    obtain ⟨group, hmem, hh⟩ := List.mem_filterMap.mp hmem
    exact (hgroup group hmem).hull_le hh
  · refine List.pairwise_filterMap.mpr ((List.pairwise_flatten.mp hl.apart).2.imp_of_mem ?_)
    intro group group' hmem hmem' hapart h hh h' hh'
    have hne : group ≠ [] := fun hnil => by
      rw [hnil] at hh
      cases hh
    have hne' : group' ≠ [] := fun hnil => by
      rw [hnil] at hh'
      cases hh'
    rw [(hgroup _ hmem).hull_getLast hh _ (List.getLast?_eq_some_getLast hne),
      hull_first hh' _ (List.head?_eq_some_head hne')]
    exact hapart _ (List.getLast_mem hne) _ (List.head_mem hne')

theorem isChain_of_hulls {R : α → α → Prop} {runs : List (List (α × α))} (hl : Ordered runs.flatten)
    (hne : ∀ run ∈ runs, run ≠ []) (hchain : (runs.filterMap hull).IsChain fun p q => R p.2 q.1) :
    runs.IsChain fun run run' => ∀ p ∈ run.getLast?, ∀ q ∈ run'.head?, R p.2 q.1 := by
  induction runs with
  | nil => exact .nil
  | cons run runs ih =>
    obtain ⟨hrun, hne⟩ := List.forall_mem_cons.mp hne
    obtain ⟨h, hh⟩ := hull_isSome hrun
    rw [List.filterMap_cons_some hh] at hchain
    rw [List.flatten_cons] at hl
    have hrest := ih (hl.sublist (List.sublist_append_right _ _)) hne hchain.of_cons
    cases runs with
    | nil => exact List.isChain_singleton _
    | cons run' runs =>
      obtain ⟨h', hh'⟩ := hull_isSome (hne run' (by simp))
      rw [List.filterMap_cons_some hh'] at hchain
      refine List.isChain_cons_cons.mpr ⟨fun p hp q hq => ?_, hrest⟩
      have hnear := (List.isChain_cons_cons.mp hchain).1
      rwa [(hl.sublist (List.sublist_append_left run _)).hull_getLast hh p hp, hull_first hh' q hq] at hnear

end Ordered

/-! ### Merging -/

/-- Periods are joined to the last one as long as they are near to it. -/
def mergeFrom (near : α → α → Bool) : α × α → List (α × α) → List (α × α)
  | last, [] => [last]
  | last, p :: rest =>
    if near last.2 p.1 then mergeFrom near (last.1, max last.2 p.2) rest
    else last :: mergeFrom near p rest

def merge (near : α → α → Bool) : List (α × α) → List (α × α)
  | [] => []
  | p :: rest => mergeFrom near p rest

/-- The runs of near periods. -/
def groups (near : α → α → Bool) (l : List (α × α)) : List (List (α × α)) :=
  l.splitBy fun p q => near p.2 q.1

variable {near : α → α → Bool}

theorem Ordered.mergeFrom_eq {front rest : List (α × α)} {q last : α × α}
    (hl : Ordered (front ++ [q] ++ rest)) (hlast : hull (front ++ [q]) = some last)
    (hchain : (front ++ [q]).IsChain fun p q => near p.2 q.1 = true) :
    ∃ runs, Runs.Maximal (fun p q : α × α => near p.2 q.1 = true) (front ++ [q] ++ rest) runs ∧
      mergeFrom near last rest = runs.filterMap hull := by
  induction rest generalizing front q last with
  | nil =>
    refine ⟨[front ++ [q]], ⟨by simp, by simp, by simpa using hchain, List.isChain_singleton _⟩, ?_⟩
    rw [List.filterMap_cons_some hlast]
    rfl
  | cons p rest ih =>
    have hend := (hl.sublist (List.sublist_append_left _ _)).hull_last hlast
    rw [mergeFrom, hend]
    cases hnear : near q.2 p.1 with
    | true =>
      rw [if_pos rfl, ← hend]
      have hopen := hull_concat hlast p
      have hregroup : front ++ [q] ++ p :: rest = front ++ [q] ++ [p] ++ rest := by simp
      rw [hregroup] at hl ⊢
      refine ih hl hopen (List.isChain_append.mpr ⟨hchain, List.isChain_singleton _, ?_⟩)
      intro x hx y hy
      rw [List.getLast?_concat] at hx
      cases hx
      cases hy
      exact hnear
    | false =>
      rw [if_neg Bool.false_ne_true]
      have hrest : Ordered ([] ++ [p] ++ rest) := hl.sublist (List.sublist_append_right _ _)
      obtain ⟨runs, hruns, hmerge⟩ := ih hrest rfl (List.isChain_singleton _)
      rw [List.foldl_nil] at hmerge
      refine ⟨(front ++ [q]) :: runs, hruns.cons (by simp) hchain ?_, ?_⟩
      · intro x hx y hy
        rw [List.getLast?_concat] at hx
        cases hx
        cases hy
        rw [hnear]
        exact Bool.false_ne_true
      · rw [hmerge, List.filterMap_cons_some hlast]

/-- Merging makes the hulls of the runs of near periods. -/
theorem Ordered.merge_eq {l : List (α × α)} (hl : Ordered l) :
    merge near l = (groups near l).filterMap hull := by
  cases l with
  | nil => rfl
  | cons p rest =>
    have hopen : Ordered ([] ++ [p] ++ rest) := hl
    obtain ⟨runs, hruns, hmerge⟩ := hopen.mergeFrom_eq rfl (List.isChain_singleton _)
    have hgroups : runs = groups near (p :: rest) := hruns.eq_splitBy fun _ _ => Iff.rfl
    rw [merge, ← hgroups]
    exact hmerge

theorem Ordered.merged {l : List (α × α)} (hl : Ordered l) (near : α → α → Bool) :
    Ordered ((groups near l).filterMap hull) ∧
      ((groups near l).filterMap hull).IsChain fun p q => near p.2 q.1 = false := by
  have hmaximal := Runs.maximal_splitBy (fun p q : α × α => (Iff.rfl : near p.2 q.1 = true ↔ _)) l
  have hordered : Ordered (groups near l).flatten := by
    rw [groups, hmaximal.flatten]
    exact hl
  refine ⟨hordered.filterMap_hull, ?_⟩
  obtain ⟨-, hnonempty, -, hapart⟩ := hmaximal
  change Ordered (List.flatten (List.splitBy _ l)) at hordered
  rw [groups]
  generalize l.splitBy (fun p q => near p.2 q.1) = runs at hnonempty hapart hordered ⊢
  induction runs with
  | nil => exact .nil
  | cons run runs ih =>
    obtain ⟨hne, hnonempty⟩ := List.forall_mem_cons.mp hnonempty
    obtain ⟨h, hh⟩ := hull_isSome hne
    rw [List.flatten_cons] at hordered
    have hchain := ih hnonempty hapart.of_cons (hordered.sublist (List.sublist_append_right _ _))
    cases runs with
    | nil =>
      rw [List.filterMap_cons_some hh]
      exact List.isChain_singleton _
    | cons run' runs =>
      obtain ⟨hne', -⟩ := List.forall_mem_cons.mp hnonempty
      obtain ⟨h', hh'⟩ := hull_isSome hne'
      rw [List.filterMap_cons_some hh'] at hchain
      rw [List.filterMap_cons_some hh, List.filterMap_cons_some hh']
      refine List.isChain_cons_cons.mpr ⟨?_, hchain⟩
      have hfar := (List.isChain_cons_cons.mp hapart).1 _ (List.getLast?_eq_some_getLast hne) _
        (List.head?_eq_some_head hne')
      have hrun := hordered.sublist (List.sublist_append_left run _)
      have hlast := hrun.hull_getLast hh _ (List.getLast?_eq_some_getLast hne)
      have hfirst := hull_first hh' _ (List.head?_eq_some_head hne')
      rw [hlast, hfirst]
      exact Bool.eq_false_iff.mpr hfar

/-- A shorter gap is a gap between periods that are near all the more. -/
def Monotone (near : α → α → Bool) : Prop :=
  ∀ a a' b b', a ≤ a' → a' ≤ b' → b' ≤ b → near a b = true → near a' b' = true

theorem Ordered.far {blocks : List (α × α)} (hl : Ordered blocks) (hnear : Monotone near)
    (hchain : blocks.IsChain fun p q => near p.2 q.1 = false) :
    ∀ p ∈ blocks, ∀ q ∈ blocks, p = q ∨ (p.2 ≤ q.1 ∧ near p.2 q.1 = false) ∨
      q.2 ≤ p.1 ∧ near q.2 p.1 = false := by
  have htrans : blocks.Pairwise fun p q => p.2 ≤ q.1 ∧ near p.2 q.1 = false := by
    induction blocks with
    | nil => exact .nil
    | cons p blocks ih =>
      have hrest := ih (hl.sublist (List.sublist_cons_self _ _)) hchain.of_cons
      refine List.pairwise_cons.mpr ⟨fun q hq => ⟨(List.pairwise_cons.mp hl.apart).1 q hq, ?_⟩, hrest⟩
      cases blocks with
      | nil => cases hq
      | cons next blocks =>
        have hfar := (List.isChain_cons_cons.mp hchain).1
        rcases List.mem_cons.mp hq with rfl | hq
        · exact hfar
        · by_contra hq'
          have hnext := (List.pairwise_cons.mp hl.apart).1 next (by simp)
          have hle := ((List.pairwise_cons.mp hrest).1 q hq).1
          have hclose := hnear p.2 p.2 q.1 next.1 le_rfl hnext ((hl.le next (by simp)).trans hle)
            ((Bool.not_eq_false _).mp hq')
          rw [hfar] at hclose
          cases hclose
  intro p hp q hq
  refine List.Pairwise.forall_of_forall_of_flip (R := fun p q => p = q ∨
    (p.2 ≤ q.1 ∧ near p.2 q.1 = false) ∨ q.2 ≤ p.1 ∧ near q.2 p.1 = false) ?_ ?_ ?_ hp hq
  · exact fun _ _ => Or.inl rfl
  · exact htrans.imp fun h => Or.inr (Or.inl h)
  · exact htrans.imp fun h => Or.inr (Or.inr h)

theorem Ordered.exists_block {blocks l : List (α × α)} {h : α × α} (hnear : Monotone near)
    (hrefl : ∀ a, near a a = true) (hblocks : Ordered blocks)
    (hchain : blocks.IsChain fun p q => near p.2 q.1 = false) (hl : Ordered l)
    (hin : ∀ p ∈ l, ∃ block ∈ blocks, block.1 ≤ p.1 ∧ p.2 ≤ block.2)
    (hlinked : l.IsChain fun p q => (p.2 ≤ q.1 → near p.2 q.1 = true) ∨
      ∃ block ∈ blocks, block.1 ≤ p.1 ∧ q.2 ≤ block.2) (hh : hull l = some h) :
    ∃ block ∈ blocks, block.1 ≤ h.1 ∧ h.2 ≤ block.2 := by
  induction l using List.reverseRecOn generalizing h with
  | nil => cases hh
  | append_singleton l q ih =>
    obtain ⟨block', hblock', hlow', hhigh'⟩ := hin q (by simp)
    cases l using List.reverseRecOn with
    | nil =>
      obtain rfl := Option.some.inj hh
      exact ⟨block', hblock', hlow', hhigh'⟩
    | append_singleton l p =>
      obtain ⟨first, hfirst⟩ := hull_isSome (List.append_ne_nil_of_right_ne_nil l (List.cons_ne_nil p []))
      have hfront := hl.sublist (List.sublist_append_left (l ++ [p]) [q])
      obtain ⟨hfrontLinked, -, hlink⟩ := List.isChain_append.mp hlinked
      obtain ⟨block, hblock, hlow, hhigh⟩ := ih hfront (fun p' hp' => hin p' (List.mem_append_left _ hp'))
        hfrontLinked hfirst
      have hlast := hfront.hull_last hfirst
      have hfirstLow := (hfront.mem_hull hfirst (p := p) (by simp)).1
      have hspan := hfront.hull_le hfirst
      have hp : p.1 ≤ p.2 := hl.le p (by simp)
      have hpq : p.2 ≤ q.1 := (List.pairwise_append.mp hl.apart).2.2 p (by simp) q (by simp)
      have hq : q.1 ≤ q.2 := hl.le q (by simp)
      rw [hull_concat hfirst] at hh
      obtain rfl := Option.some.inj hh
      -- Two blocks that touch are near to each other.
      have htouch : ∀ a b, a ≤ b → near a b = false → b ≤ a → False := by
        intro a b hab hfar hba
        obtain rfl := le_antisymm hab hba
        rw [hrefl a] at hfar
        cases hfar
      rcases hlink p List.getLast?_concat q rfl with hclose | ⟨shared, hshared, hsharedLow, hsharedHigh⟩
      · rcases hblocks.far hnear hchain block hblock block' hblock' with rfl | ⟨hle, hfar⟩ | ⟨hle, hfar⟩
        · exact ⟨block, hblock, hlow, max_le hhigh hhigh'⟩
        · have hnot := hnear p.2 block.2 q.1 block'.1 (hlast ▸ hhigh) hle hlow' (hclose hpq)
          rw [hfar] at hnot
          cases hnot
        · exact (htouch _ _ hle hfar
            ((hlow.trans hspan).trans (hlast.le.trans ((hpq.trans hq).trans hhigh')))).elim
      · rcases hblocks.far hnear hchain block hblock shared hshared with rfl | ⟨hle, hfar⟩ | ⟨hle, hfar⟩
        · exact ⟨block, hblock, hlow, max_le hhigh hsharedHigh⟩
        · exact (htouch _ _ hle hfar (hsharedLow.trans (hp.trans (hlast ▸ hhigh)))).elim
        · exact (htouch _ _ hle hfar
            ((hlow.trans hfirstLow).trans (hp.trans (hpq.trans (hq.trans hsharedHigh))))).elim

end Periods
