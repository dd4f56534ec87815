import Mathlib.Algebra.Order.Group.Defs
import Mathlib.Data.List.Chain
import Mathlib.Data.List.Sort
import Mathlib.Data.List.SplitBy
import Mathlib.Logic.Relation

/-!
# Sorting by a key, latest first

A stable sort by a key, from the largest key to the smallest, and what depends on the order of the list
that is sorted: not where the sorted list is cut at wide gaps (`clusters_perm`), and its first elements
only where the cut falls between equal keys.
-/

namespace Recency

variable {α τ : Type*} [LinearOrder τ] (key : α → τ)

/-- `sort_by(|a, b| b.cmp(&a))` by the key: stable, the largest key first. -/
def sortDesc (l : List α) : List α := l.insertionSort fun a b => key b ≤ key a

/-- The keys do not increase. -/
def Sorted (l : List α) : Prop := l.Pairwise fun a b => key b ≤ key a

theorem sortDesc_perm (l : List α) : (sortDesc key l).Perm l := List.perm_insertionSort _ l

theorem sortDesc_sorted (l : List α) : Sorted key (sortDesc key l) := by
  have : Std.Total fun a b : α => key b ≤ key a := ⟨fun a b => le_total (key b) (key a)⟩
  have : IsTrans α fun a b : α => key b ≤ key a := ⟨fun a b c h h' => h'.trans h⟩
  exact List.pairwise_insertionSort _ l

theorem filter_sortDesc (l : List α) (p : α → Bool) {k : τ} (hp : ∀ a ∈ l, p a = true → key a = k) :
    (sortDesc key l).filter p = l.filter p := by
  have : Std.Total fun a b : α => key b ≤ key a := ⟨fun a b => le_total (key b) (key a)⟩
  have : IsTrans α fun a b : α => key b ≤ key a := ⟨fun a b c h h' => h'.trans h⟩
  have hties : (l.filter p).Pairwise fun a b => key b ≤ key a :=
    List.pairwise_of_forall_mem_list fun a ha b hb => by
      obtain ⟨ha, hpa⟩ := List.mem_filter.mp ha
      obtain ⟨hb, hpb⟩ := List.mem_filter.mp hb
      rw [hp a ha hpa, hp b hb hpb]
  have hsub := (List.sublist_insertionSort hties List.filter_sublist).filter p
  rw [List.filter_filter] at hsub
  simp only [Bool.and_self] at hsub
  exact (hsub.eq_of_length_le (((sortDesc_perm key l).filter p).length_eq.le)).symm

theorem map_sortDesc_perm {l l' : List α} (h : l.Perm l') :
    (sortDesc key l).map key = (sortDesc key l').map key := by
  have hsorted : ∀ l : List α, ((sortDesc key l).map key).Pairwise (· ≥ ·) := fun l =>
    List.pairwise_map.mpr (sortDesc_sorted key l)
  refine List.Perm.eq_of_pairwise' (hsorted l) (hsorted l') ?_
  exact (((sortDesc_perm key l).trans h).trans (sortDesc_perm key l').symm).map key

/-! ### The first elements -/

theorem map_sortDesc {β : Type*} (f : β → α) (l : List β) :
    (sortDesc (fun b => key (f b)) l).map f = sortDesc key (l.map f) :=
  List.map_insertionSort _ _ f l fun _ _ _ _ => Iff.rfl

variable {key}

theorem mem_take_of_countP_le {s : List α} (hs : Sorted key s) {a : α} (ha : a ∈ s) {n : Nat}
    (h : s.countP (fun b => key a ≤ key b) ≤ n) : a ∈ s.take n := by
  have hsplit : s.take n ++ s.drop n = s := List.take_append_drop n s
  rw [← hsplit] at ha
  refine (List.mem_append.mp ha).resolve_right fun hdrop => ?_
  have hlater : ∀ b ∈ s.take n, decide (key a ≤ key b) = true := fun b hb =>
    decide_eq_true ((List.pairwise_append.mp (hsplit.symm ▸ hs)).2.2 b hb a hdrop)
  have hpos : 0 < (s.drop n).countP (fun b => key a ≤ key b) :=
    List.countP_pos_iff.mpr ⟨a, hdrop, decide_eq_true le_rfl⟩
  have hfull : (s.take n).length = n := by
    have hlength := List.length_pos_of_mem hdrop
    rw [List.length_drop] at hlength
    rw [List.length_take]
    omega
  rw [← hsplit, List.countP_append, List.countP_eq_length.mpr hlater, hfull] at h
  omega

theorem countP_lt_of_mem_take {s : List α} (hs : Sorted key s) {a : α} {n : Nat} (ha : a ∈ s.take n) :
    s.countP (fun b => key a < key b) < n := by
  have hsplit : s.take n ++ s.drop n = s := List.take_append_drop n s
  have hrest : (s.drop n).countP (fun b => key a < key b) = 0 := by
    refine List.countP_eq_zero.mpr fun b hb => ?_
    have hle : key b ≤ key a := (List.pairwise_append.mp (hsplit.symm ▸ hs)).2.2 a ha b hb
    simpa using hle
  have hfirst : (s.take n).countP (fun b => key a < key b) < (s.take n).length := by
    refine lt_of_le_of_ne List.countP_le_length fun heq => ?_
    have hself := List.countP_eq_length.mp heq a ha
    simp at hself
  rw [← hsplit, List.countP_append, hrest]
  have hlength : (s.take n).length ≤ n := List.length_take_le n s
  omega

theorem filter_take_eq {s : List α} (hs : Sorted key s) (k : τ) (n : Nat) :
    (s.take n).filter (fun b => key b = k) =
      (s.filter fun b => key b = k).take (n - s.countP fun b => k < key b) := by
  induction s generalizing n with
  | nil => simp
  | cons a s ih =>
    obtain ⟨ha, hs⟩ := List.pairwise_cons.mp hs
    cases n with
    | zero => simp
    | succ n =>
      rw [List.take_succ_cons, List.filter_cons, List.filter_cons, List.countP_cons, ih hs]
      rcases lt_trichotomy (key a) k with h | h | h
      · have hnone : s.filter (fun b => key b = k) = [] :=
          List.filter_eq_nil_iff.mpr fun b hb => by simpa using ((ha b hb).trans_lt h).ne
        simp [h.ne, hnone]
      · have hzero : s.countP (fun b => k < key b) = 0 :=
          List.countP_eq_zero.mpr fun b hb => by simpa using h ▸ ha b hb
        simp [h, hzero]
      · have hcount : n + 1 - (s.countP (fun b => k < key b) + 1) =
            n - s.countP (fun b => k < key b) := by omega
        simp [h, h.ne', hcount]

theorem countP_le_eq (k : τ) (l : List α) :
    l.countP (fun b => k ≤ key b) = l.countP (fun b => k < key b) + l.countP fun b => key b = k := by
  induction l with
  | nil => rfl
  | cons a l ih =>
    rw [List.countP_cons, List.countP_cons, List.countP_cons, ih]
    rcases lt_trichotomy k (key a) with h | h | h
    · simp only [h, h.le, h.ne', decide_true, decide_false, if_true, Bool.false_eq_true, if_false]
      omega
    · simp only [h, le_refl, lt_irrefl, decide_true, decide_false, if_true, Bool.false_eq_true, if_false]
      omega
    · simp only [not_le.mpr h, not_lt.mpr h.le, h.ne, decide_false, Bool.false_eq_true, if_false]
      omega

theorem exists_notMem_take_reverse {l : List α} (hnodup : l.Nodup) {k : τ} {n : Nat}
    (hlow : l.countP (fun b => k < key b) < n)
    (hhigh : n < l.countP (fun b => k < key b) + l.countP fun b => key b = k) :
    ∃ a ∈ l, a ∈ (sortDesc key l).take n ∧ a ∉ (sortDesc key l.reverse).take n := by
  have hties : ∀ l : List α, (sortDesc key l).filter (fun b => key b = k) =
      l.filter fun b => key b = k := fun l =>
    filter_sortDesc key l _ fun b _ hb => of_decide_eq_true hb
  have hcount : ∀ l : List α, (sortDesc key l).countP (fun b => k < key b) =
      l.countP fun b => k < key b := fun l => (sortDesc_perm key l).countP_eq _
  have hfirst := filter_take_eq (sortDesc_sorted key l) k n
  have hback := filter_take_eq (sortDesc_sorted key l.reverse) k n
  rw [hties, hcount] at hfirst hback
  rw [List.filter_reverse, List.countP_reverse] at hback
  rw [List.countP_eq_length_filter (p := fun b => key b = k)] at hhigh
  have htiesNodup : (l.filter fun b => key b = k).Nodup := hnodup.filter _
  generalize hrest : n - l.countP (fun b => k < key b) = r at hfirst hback
  cases hall : l.filter (fun b => key b = k) with
  | nil =>
    rw [hall] at hhigh
    simp only [List.length_nil] at hhigh
    omega
  | cons a ties =>
    rw [hall] at hfirst hback hhigh htiesNodup
    have ha : a ∈ l ∧ key a = k := by
      have hmem : a ∈ l.filter fun b => key b = k := hall ▸ List.mem_cons_self
      simpa using hmem
    refine ⟨a, ha.1, ?_, fun hmem => ?_⟩
    · have hmem : a ∈ ((sortDesc key l).take n).filter fun b => key b = k := by
        rw [hfirst, show r = r - 1 + 1 by omega, List.take_succ_cons]
        exact List.mem_cons_self
      exact (List.mem_filter.mp hmem).1
    · -- From behind, `a` is the last of its key.
      have hlast : a ∈ (ties.reverse ++ [a]).take r := by
        rw [← List.reverse_cons, ← hback]
        exact List.mem_filter.mpr ⟨hmem, decide_eq_true ha.2⟩
      have hshort : r ≤ ties.reverse.length := by
        rw [List.length_cons] at hhigh
        rw [List.length_reverse]
        omega
      rw [List.take_append_of_le_length hshort] at hlast
      exact (List.nodup_cons.mp htiesNodup).1 (List.mem_reverse.mp (List.mem_of_mem_take hlast))

theorem Sorted.le_head {s : List α} (hs : Sorted key s) (hne : s ≠ []) {a : α} (ha : a ∈ s) :
    key a ≤ key (s.head hne) := by
  cases s with
  | nil => cases ha
  | cons b s =>
    rcases List.mem_cons.mp ha with rfl | ha
    · exact le_rfl
    · exact (List.pairwise_cons.mp hs).1 a ha

theorem Sorted.getLast_le {s : List α} (hs : Sorted key s) (hne : s ≠ []) {a : α} (ha : a ∈ s) :
    key (s.getLast hne) ≤ key a := by
  rw [← List.dropLast_append_getLast hne] at ha hs
  rcases List.mem_append.mp ha with ha | ha
  · exact (List.pairwise_append.mp hs).2.2 a ha _ (List.mem_singleton_self _)
  · rw [List.mem_singleton.mp ha]

/-! ### Clusters -/

section Clusters

variable [AddCommGroup τ] [IsOrderedAddMonoid τ]

/-- The step from one element to the next is at most `gap` wide. -/
def near (key : α → τ) (gap : τ) (a b : α) : Bool := key a - key b ≤ gap

variable {gap : τ}

theorem pairwise_splitBy {s : List α} (hs : Sorted key s) :
    (s.splitBy (near key gap)).Pairwise fun c c' => ∀ a ∈ c, ∀ b ∈ c', gap < key a - key b := by
  have hsorted : Sorted key (s.splitBy (near key gap)).flatten := by rwa [List.flatten_splitBy]
  have hcut := List.isChain_getLast_head_splitBy (near key gap) s
  have hne := List.nil_notMem_splitBy (near key gap) s
  generalize s.splitBy (near key gap) = clusters at hsorted hcut hne
  induction clusters with
  | nil => exact List.Pairwise.nil
  | cons c clusters ih =>
    rw [List.flatten_cons] at hsorted
    obtain ⟨hc, hrest, -⟩ := List.pairwise_append.mp hsorted
    refine List.pairwise_cons.mpr ⟨?_, ih hrest hcut.of_cons (fun h => hne (List.mem_cons_of_mem _ h))⟩
    intro c' hc' a ha b hb
    cases clusters with
    | nil => cases hc'
    | cons next clusters =>
      obtain ⟨hlast, hhead, hwide⟩ := (List.isChain_cons_cons.mp hcut).1
      -- From `a` down to the end of its cluster, over the gap, and from there down to `b`.
      have hfirst : key (c.getLast hlast) ≤ key a := Sorted.getLast_le hc hlast ha
      have hsecond : key b ≤ key (next.head hhead) := by
        have hflat : (next :: clusters).flatten ≠ [] := by simp [hhead]
        have hle := Sorted.le_head hrest hflat (List.mem_flatten.mpr ⟨c', hc', hb⟩)
        rwa [List.head_flatten_eq_head_head hflat (by exact hhead)] at hle
      have hgap : gap < key (c.getLast hlast) - key (next.head hhead) :=
        not_le.mp (of_decide_eq_false hwide)
      exact hgap.trans_le (sub_le_sub hfirst hsecond)

theorem apart_of_ne {s : List α} (hs : Sorted key s) {c c' : List α}
    (hc : c ∈ s.splitBy (near key gap)) (hc' : c' ∈ s.splitBy (near key gap)) (hne : c ≠ c') {a b : α}
    (ha : a ∈ c) (hb : b ∈ c') : gap < key a - key b ∨ gap < key b - key a := by
  have hsymm : (s.splitBy (near key gap)).Pairwise fun c c' =>
      ∀ a ∈ c, ∀ b ∈ c', gap < key a - key b ∨ gap < key b - key a :=
    (pairwise_splitBy hs).imp fun h a ha b hb => Or.inl (h a ha b hb)
  have : Std.Symm fun c c' : List α =>
      ∀ a ∈ c, ∀ b ∈ c', gap < key a - key b ∨ gap < key b - key a :=
    ⟨fun c c' h b hb a ha => (h a ha b hb).symm⟩
  exact hsymm.forall hc hc' hne a ha b hb

theorem cluster_eq_filter (hgap : 0 ≤ gap) {s : List α} (hs : Sorted key s) {c : List α}
    (hc : c ∈ s.splitBy (near key gap)) : c = s.filter (fun a => key a ∈ c.map key) := by
  have hpairs : (s.splitBy (near key gap)).Pairwise fun c c' => ∀ a ∈ c, ∀ b ∈ c', gap < key a - key b :=
    pairwise_splitBy hs
  have hflatten := List.flatten_splitBy (near key gap) s
  generalize s.splitBy (near key gap) = clusters at hpairs hflatten hc
  obtain ⟨front, back, rfl⟩ := List.append_of_mem hc
  obtain ⟨-, hback, hfront⟩ := List.pairwise_append.mp hpairs
  have hnone : ∀ others : List (List α),
      (∀ c' ∈ others, ∀ b ∈ c', ∀ a ∈ c, gap < key a - key b ∨ gap < key b - key a) →
      others.flatten.filter (fun b => key b ∈ c.map key) = [] := by
    intro others hothers
    refine List.filter_eq_nil_iff.mpr fun b hb hkey => ?_
    obtain ⟨c', hc', hb⟩ := List.mem_flatten.mp hb
    obtain ⟨a, ha, hab⟩ := List.mem_map.mp (of_decide_eq_true hkey)
    rcases hothers c' hc' b hb a ha with h | h
    · exact absurd (hgap.trans_lt h) (by rw [hab, sub_self]; exact lt_irrefl 0)
    · exact absurd (hgap.trans_lt h) (by rw [hab, sub_self]; exact lt_irrefl 0)
  have hall : c.filter (fun b => key b ∈ c.map key) = c :=
    List.filter_eq_self.mpr fun a ha => decide_eq_true (List.mem_map_of_mem ha)
  rw [← hflatten, List.flatten_append, List.flatten_cons, List.filter_append, List.filter_append, hall,
    hnone front fun c' hc' b hb a ha => Or.inr (hfront c' hc' c List.mem_cons_self b hb a ha),
    hnone back fun c' hc' b hb a ha =>
      Or.inl ((List.pairwise_cons.mp hback).1 c' hc' a ha b hb),
    List.nil_append, List.append_nil]

theorem splitBy_map {β : Type*} (f : α → β) (r : β → β → Bool) (s : List α) :
    (s.splitBy fun a b => r (f a) (f b)).map (List.map f) = (s.map f).splitBy r := by
  symm
  rw [List.splitBy_eq_iff]
  refine ⟨?_, ?_, ?_, ?_⟩
  · rw [← List.map_flatten, List.flatten_splitBy]
  · intro h
    obtain ⟨c, hc, hnil⟩ := List.mem_map.mp h
    exact List.ne_nil_of_mem_splitBy hc (List.map_eq_nil_iff.mp hnil)
  · intro c hc
    obtain ⟨c', hc', rfl⟩ := List.mem_map.mp hc
    rw [List.isChain_map]
    exact List.isChain_of_mem_splitBy hc'
  · refine (List.isChain_map _).mpr ((List.isChain_getLast_head_splitBy _ s).imp ?_)
    rintro c c' ⟨hlast, hhead, hr⟩
    refine ⟨by simpa using hlast, by simpa using hhead, ?_⟩
    rw [List.getLast_map, List.head_map]
    exact hr

/-- The clusters of a list, sorted, have the same elements in whatever order the list is. -/
theorem clusters_perm (hgap : 0 ≤ gap) {l l' : List α} (h : l.Perm l') :
    List.Forall₂ List.Perm ((sortDesc key l).splitBy (near key gap))
      ((sortDesc key l').splitBy (near key gap)) := by
  have hfilter : ∀ l : List α, (sortDesc key l).splitBy (near key gap) =
      (((sortDesc key l).map key).splitBy fun x y => x - y ≤ gap).map
        fun keys => (sortDesc key l).filter fun a => key a ∈ keys := by
    intro l
    rw [← splitBy_map key, List.map_map]
    exact (List.map_id _).symm.trans (List.map_congr_left fun c hc =>
      cluster_eq_filter hgap (sortDesc_sorted key l) hc)
  rw [hfilter l, hfilter l', map_sortDesc_perm key h]
  rw [List.forall₂_map_left_iff, List.forall₂_map_right_iff, List.forall₂_same]
  intro keys _
  exact (((sortDesc_perm key l).trans h).trans (sortDesc_perm key l').symm).filter _

theorem exists_near_of_two_le (hgap : 0 ≤ gap) {s : List α} (hs : Sorted key s) (hnodup : s.Nodup)
    {c : List α} (hc : c ∈ s.splitBy (near key gap)) {a : α} (ha : a ∈ c) (hlength : 2 ≤ c.length) :
    ∃ b ∈ c, b ≠ a ∧ key a - key b ≤ gap ∧ key b - key a ≤ gap := by
  have hsub : c.Sublist s := by
    rw [← List.flatten_splitBy (near key gap) s]
    exact List.sublist_flatten_of_mem hc
  have hchain := List.isChain_of_mem_splitBy hc
  have hsorted : Sorted key c := List.Pairwise.sublist hsub hs
  have hcNodup := hnodup.sublist hsub
  obtain ⟨front, back, rfl⟩ := List.append_of_mem ha
  cases back with
  | cons b back =>
    -- The next element of the cluster.
    obtain ⟨-, hchain, -⟩ := List.isChain_append.mp hchain
    have hnear : key a - key b ≤ gap := of_decide_eq_true (List.isChain_cons_cons.mp hchain).1
    have hle : key b ≤ key a := by
      have hrest := (List.pairwise_append.mp hsorted).2.1
      exact (List.pairwise_cons.mp hrest).1 b List.mem_cons_self
    refine ⟨b, by simp, ?_, hnear, (sub_nonpos.mpr hle).trans hgap⟩
    rintro rfl
    exact absurd hcNodup (by simp [List.nodup_append])
  | nil =>
    -- The last element of the cluster has one before it.
    rcases List.eq_nil_or_concat' front with rfl | ⟨front, b, rfl⟩
    · simp at hlength
    have hnear : key b - key a ≤ gap := by
      have hlink := (List.isChain_append.mp hchain).2.2 b (by simp) a (by simp)
      exact of_decide_eq_true hlink
    have hle : key a ≤ key b := (List.pairwise_append.mp hsorted).2.2 b (by simp) a (by simp)
    refine ⟨b, by simp, ?_, (sub_nonpos.mpr hle).trans hgap, hnear⟩
    rintro rfl
    exact absurd hcNodup (by simp [List.nodup_append])

theorem two_le_length_iff (hgap : 0 ≤ gap) {s : List α} (hs : Sorted key s) (hnodup : s.Nodup)
    {c : List α} (hc : c ∈ s.splitBy (near key gap)) {a : α} (ha : a ∈ c) :
    2 ≤ c.length ↔ ∃ b ∈ s, b ≠ a ∧ key a - key b ≤ gap ∧ key b - key a ≤ gap := by
  constructor
  · intro hlength
    obtain ⟨b, hb, hnear⟩ := exists_near_of_two_le hgap hs hnodup hc ha hlength
    refine ⟨b, ?_, hnear⟩
    rw [← List.flatten_splitBy (near key gap) s]
    exact List.mem_flatten.mpr ⟨c, hc, hb⟩
  · rintro ⟨b, hb, hne, hab, hba⟩
    by_contra hlength
    rw [← List.flatten_splitBy (near key gap) s] at hb
    obtain ⟨c', hc', hb⟩ := List.mem_flatten.mp hb
    have hother : c ≠ c' := by
      rintro rfl
      match c, ha, hb with
      | [x], ha, hb =>
        exact hne ((List.mem_singleton.mp hb).trans (List.mem_singleton.mp ha).symm)
      | x :: y :: c, _, _ => exact hlength (by simp)
    rcases apart_of_ne hs hc hc' hother ha hb with h | h
    · exact absurd hab (not_le.mpr h)
    · exact absurd hba (not_le.mpr h)

/-! ### Clusters as components -/

/-- Both are in the list, and at most `gap` apart. -/
def Linked (key : α → τ) (gap : τ) (s : List α) (a b : α) : Prop :=
  a ∈ s ∧ b ∈ s ∧ key a - key b ≤ gap ∧ key b - key a ≤ gap

omit [IsOrderedAddMonoid τ] in
theorem Linked.symm {s : List α} {a b : α} (h : Linked key gap s a b) : Linked key gap s b a :=
  ⟨h.2.1, h.1, h.2.2.2, h.2.2.1⟩

theorem linked_head (hgap : 0 ≤ gap) {s : List α} (hs : Sorted key s) {c : List α}
    (hc : c ∈ s.splitBy (near key gap)) (hne : c ≠ []) {a : α} (ha : a ∈ c) :
    Relation.ReflTransGen (Linked key gap s) (c.head hne) a := by
  have hsub : c.Sublist s := by
    rw [← List.flatten_splitBy (near key gap) s]
    exact List.sublist_flatten_of_mem hc
  have hsorted : c.Pairwise fun a b => key b ≤ key a := List.Pairwise.sublist hsub hs
  have hmem : c.Pairwise fun a b => a ∈ s ∧ b ∈ s :=
    List.pairwise_of_forall_mem_list fun a ha b hb => ⟨hsub.subset ha, hsub.subset hb⟩
  have hchain : c.IsChain (Linked key gap s) := by
    have hnear : c.IsChain (near key gap · ·) := List.isChain_of_mem_splitBy hc
    have hboth := List.isChain_iff_getElem.mp (hsorted.and hmem).isChain
    refine List.isChain_iff_getElem.mpr fun i hi => ?_
    obtain ⟨hle, hx, hy⟩ := hboth i hi
    exact ⟨hx, hy, of_decide_eq_true (List.isChain_iff_getElem.mp hnear i hi),
      (sub_nonpos.mpr hle).trans hgap⟩
  exact List.IsChain.induction (Relation.ReflTransGen (Linked key gap s) (c.head hne) ·) c hchain
    (fun _ _ hlink h => h.tail hlink) (fun _ => .refl) a ha

theorem mem_cluster_iff (hgap : 0 ≤ gap) {s : List α} (hs : Sorted key s) {c : List α}
    (hc : c ∈ s.splitBy (near key gap)) {a : α} (ha : a ∈ c) (b : α) :
    b ∈ c ↔ Relation.ReflTransGen (Linked key gap s) a b := by
  constructor
  · intro hb
    have hne := List.ne_nil_of_mem ha
    have hback := linked_head hgap hs hc hne ha
    have hsymm : Std.Symm (Linked key gap s) := ⟨fun _ _ h => h.symm⟩
    exact (symm hback).trans (linked_head hgap hs hc hne hb)
  · intro h
    induction h with
    | refl => exact ha
    | @tail x y _ hlink hx =>
      obtain ⟨-, hy, hxy, hyx⟩ := hlink
      rw [← List.flatten_splitBy (near key gap) s] at hy
      obtain ⟨c', hc', hy⟩ := List.mem_flatten.mp hy
      by_contra hnot
      have hother : c ≠ c' := by
        rintro rfl
        exact hnot hy
      rcases apart_of_ne hs hc hc' hother hx hy with h | h
      · exact absurd hxy (not_le.mpr h)
      · exact absurd hyx (not_le.mpr h)

end Clusters

end Recency
