import Kronical.Pipeline.Represented

/-!
# App groups

What is folded over the members of an app group does not depend on their order, except for the member that
stands for the group: the first of those that were used longest. The members are sorted by when they were
last seen, so this is the latest one, and if two of them were last seen at one time, the order decides
(`rep_of_sorted`).
-/

namespace Kronical

/-! ### What is folded -/

theorem saturatingAdd_right_comm (t a b : Nat) :
    saturatingAdd (saturatingAdd t a) b = saturatingAdd (saturatingAdd t b) a := by
  unfold saturatingAdd
  omega

section Folded

variable (members : List AggregatedActivity) (s : GroupFold)

theorem foldl_total : (members.foldl GroupFold.add s).total =
    members.foldl (fun t agg => saturatingAdd t agg.totalDurationSeconds) s.total :=
  (List.foldl_hom GroupFold.total fun _ _ => rfl).symm

theorem foldl_firstSeen : (members.foldl GroupFold.add s).firstSeen =
    members.foldl (fun t agg => min t agg.firstSeen) s.firstSeen :=
  (List.foldl_hom GroupFold.firstSeen fun s agg => (Folds.ite_eq_min s.firstSeen agg.firstSeen).symm).symm

theorem foldl_lastSeen : (members.foldl GroupFold.add s).lastSeen =
    members.foldl (fun t agg => max t agg.lastSeen) s.lastSeen :=
  (List.foldl_hom GroupFold.lastSeen fun s agg => (Folds.ite_eq_max s.lastSeen agg.lastSeen).symm).symm

end Folded

section Perm

variable {members members' : List AggregatedActivity} (h : members.Perm members') (s : GroupFold)

include h

theorem total_perm : (members.foldl GroupFold.add s).total = (members'.foldl GroupFold.add s).total := by
  rw [foldl_total, foldl_total]
  exact h.foldl_eq' (fun a _ b _ t => saturatingAdd_right_comm t _ _) _

theorem firstSeen_perm :
    (members.foldl GroupFold.add s).firstSeen = (members'.foldl GroupFold.add s).firstSeen := by
  rw [foldl_firstSeen, foldl_firstSeen]
  exact Folds.min_perm _ h _

theorem lastSeen_perm :
    (members.foldl GroupFold.add s).lastSeen = (members'.foldl GroupFold.add s).lastSeen := by
  rw [foldl_lastSeen, foldl_lastSeen]
  exact Folds.max_perm _ h _

theorem groupItem_windows_perm (clock : GroupClock) (name : String) :
    (groupItem clock name members).windows = (groupItem clock name members').windows := by
  simp only [groupItem, total_perm h, firstSeen_perm h, lastSeen_perm h, h.length_eq]

end Perm

/-! ### The member that stands for a group -/

/-- The first of the apps that were used longest. -/
def IsFirstLongest (members : List AggregatedActivity) (agg : AggregatedActivity) : Prop :=
  0 < agg.totalDurationSeconds ∧ ∃ front back, members = front ++ agg :: back ∧
    (∀ other ∈ front, other.totalDurationSeconds < agg.totalDurationSeconds) ∧
    ∀ other ∈ back, other.totalDurationSeconds ≤ agg.totalDurationSeconds

theorem IsFirstLongest.le {members : List AggregatedActivity} {agg other : AggregatedActivity}
    (h : IsFirstLongest members agg) (hother : other ∈ members) :
    other.totalDurationSeconds ≤ agg.totalDurationSeconds := by
  obtain ⟨-, front, back, rfl, hfront, hback⟩ := h
  simp only [List.mem_append, List.mem_cons] at hother
  rcases hother with hother | rfl | hother
  · exact (hfront other hother).le
  · exact le_rfl
  · exact hback other hother

/-- No app was used at all, or the fold has found the first one that was used longest. -/
def FoundLongest (folded : GroupFold) (members : List AggregatedActivity) : Prop :=
  (folded.maxDur = 0 ∧ folded.repPid = 0 ∧ folded.repStart = 0 ∧
      ∀ agg ∈ members, agg.totalDurationSeconds = 0) ∨
    ∃ agg, IsFirstLongest members agg ∧ folded.maxDur = agg.totalDurationSeconds ∧
      folded.repPid = agg.pid ∧ folded.repStart = agg.processStartTime

namespace FoundLongest

variable {folded : GroupFold} {members : List AggregatedActivity}

theorem le_maxDur (h : FoundLongest folded members) {agg : AggregatedActivity} (hagg : agg ∈ members) :
    agg.totalDurationSeconds ≤ folded.maxDur := by
  rcases h with ⟨-, -, -, hzero⟩ | ⟨longest, hfirst, hmax, -⟩
  · rw [hzero agg hagg]
    omega
  · rw [hmax]
    exact hfirst.le hagg

theorem add (h : FoundLongest folded members) (agg : AggregatedActivity) :
    FoundLongest (folded.add agg) (members ++ [agg]) := by
  by_cases hlonger : folded.maxDur < agg.totalDurationSeconds
  · -- The app was used longer than all before it.
    right
    refine ⟨agg, ⟨by omega, members, [], rfl, fun other hother => ?_, by simp⟩, ?_, ?_, ?_⟩
    · exact (h.le_maxDur hother).trans_lt hlonger
    · simp only [GroupFold.add]
      omega
    · simp only [GroupFold.add, if_pos hlonger]
    · simp only [GroupFold.add, if_pos hlonger]
  · have hmax : max folded.maxDur agg.totalDurationSeconds = folded.maxDur := by omega
    simp only [FoundLongest, GroupFold.add, if_neg hlonger, hmax]
    rcases h with ⟨hnone, hpid, hstart, hzero⟩ | ⟨longest, ⟨hpos, front, back, rfl, hfront, hback⟩, hlongest, hrep⟩
    · left
      refine ⟨hnone, hpid, hstart, fun other hother => ?_⟩
      rcases List.mem_append.mp hother with hother | hother
      · exact hzero other hother
      · rw [List.mem_singleton.mp hother]
        omega
    · right
      refine ⟨longest, ⟨hpos, front, back ++ [agg], by simp, hfront, fun other hother => ?_⟩, hlongest, hrep⟩
      rcases List.mem_append.mp hother with hother | hother
      · exact hback other hother
      · rw [List.mem_singleton.mp hother]
        omega

theorem foldl (clock : GroupClock) (members : List AggregatedActivity) :
    FoundLongest (members.foldl GroupFold.add (.new clock)) members := by
  induction members using List.reverseRecOn with
  | nil => exact Or.inl ⟨rfl, rfl, rfl, by simp⟩
  | append_singleton members agg ih =>
    rw [List.foldl_append]
    exact ih.add agg

end FoundLongest

/-- The app was used longest, and last seen latest of those that were used as long. -/
def IsLatestLongest (members : List AggregatedActivity) (agg : AggregatedActivity) : Prop :=
  0 < agg.totalDurationSeconds ∧ ∀ other ∈ members,
    other.totalDurationSeconds ≤ agg.totalDurationSeconds ∧
      (other.totalDurationSeconds = agg.totalDurationSeconds → other.lastSeen ≤ agg.lastSeen)

instance (members : List AggregatedActivity) (agg : AggregatedActivity) :
    Decidable (IsLatestLongest members agg) := inferInstanceAs (Decidable (_ ∧ ∀ other ∈ _, _ ∧ (_ → _)))

theorem isLatestLongest_congr {members members' : List AggregatedActivity} (h : members.Perm members')
    (agg : AggregatedActivity) : IsLatestLongest members agg ↔ IsLatestLongest members' agg := by
  simp only [IsLatestLongest, h.mem_iff]

/-- The members that could stand for the group. -/
def candidates (members : List AggregatedActivity) : List AggregatedActivity :=
  members.filter (IsLatestLongest members ·)

/-- Of members in the order in which they were last seen, the first candidate stands for the group. -/
theorem rep_of_sorted {members : List AggregatedActivity}
    (hsorted : Recency.Sorted AggregatedActivity.lastSeen members) (clock : GroupClock) (name : String) :
    ((groupItem clock name members).pid, (groupItem clock name members).processStartTime) =
      ((candidates members).head?.map fun agg => (agg.pid, agg.processStartTime)).getD (0, 0) := by
  show ((members.foldl GroupFold.add (.new clock)).repPid,
    (members.foldl GroupFold.add (.new clock)).repStart) = _
  rcases FoundLongest.foldl clock members with ⟨-, hpid, hstart, hzero⟩ | ⟨agg, ⟨hpos, hfirst⟩, -, hpid, hstart⟩
  · have hnone : candidates members = [] := List.filter_eq_nil_iff.mpr fun agg hagg => by
      have := hzero agg hagg
      simp [IsLatestLongest, this]
    rw [hpid, hstart, hnone]
    rfl
  · obtain ⟨front, back, rfl, hfront, hback⟩ := hfirst
    have hlatest : IsLatestLongest (front ++ agg :: back) agg := by
      refine ⟨hpos, fun other hother => ?_⟩
      simp only [List.mem_append, List.mem_cons] at hother
      rcases hother with hother | rfl | hother
      · have := hfront other hother
        exact ⟨this.le, fun heq => absurd heq this.ne⟩
      · exact ⟨le_rfl, fun _ => le_rfl⟩
      · have hrest := (List.pairwise_append.mp hsorted).2.1
        exact ⟨hback other hother, fun _ => (List.pairwise_cons.mp hrest).1 other hother⟩
    have hnone : front.filter (IsLatestLongest (front ++ agg :: back) ·) = [] :=
      List.filter_eq_nil_iff.mpr fun other hother => by
        have := hfront other hother
        have hle := fun h : IsLatestLongest (front ++ agg :: back) other => (h.2 agg (by simp)).1
        simpa using fun h => absurd (hle h) (not_le.mpr this)
    rw [hpid, hstart, candidates, List.filter_append, hnone, List.nil_append, List.filter_cons,
      if_pos (decide_eq_true hlatest)]
    rfl

/-! ### Candidates in any order -/

theorem candidates_perm {members members' : List AggregatedActivity} (h : members.Perm members') :
    (candidates members).Perm (candidates members') := by
  refine (h.filter _).trans (List.Perm.of_eq (List.filter_congr fun agg _ => ?_))
  rw [decide_eq_decide]
  exact isLatestLongest_congr h agg

theorem candidates_reverse (members : List AggregatedActivity) :
    candidates members.reverse = (candidates members).reverse := by
  rw [candidates, List.filter_reverse, candidates]
  refine congrArg List.reverse (List.filter_congr fun agg _ => ?_)
  rw [decide_eq_decide]
  exact isLatestLongest_congr (List.reverse_perm members) agg

theorem lastSeen_candidates {members : List AggregatedActivity} {agg other : AggregatedActivity}
    (h : agg ∈ candidates members) (h' : other ∈ candidates members) : agg.lastSeen = other.lastSeen := by
  obtain ⟨hagg, hlatest⟩ := List.mem_filter.mp h
  obtain ⟨hother, hlatest'⟩ := List.mem_filter.mp h'
  obtain ⟨-, hmost⟩ := of_decide_eq_true hlatest
  obtain ⟨-, hmost'⟩ := of_decide_eq_true hlatest'
  have htotal := le_antisymm (hmost' agg hagg).1 (hmost other hother).1
  exact le_antisymm ((hmost' agg hagg).2 htotal) ((hmost other hother).2 htotal.symm)

theorem candidates_sortDesc (thresholds : AppThresholds) (apps : List AggregatedActivity) (name : String) :
    candidates (shortOf thresholds (Recency.sortDesc AggregatedActivity.lastSeen apps) name) =
      candidates (shortOf thresholds apps name) := by
  have hperm : (shortOf thresholds (Recency.sortDesc AggregatedActivity.lastSeen apps) name).Perm
      (shortOf thresholds apps name) := ((Recency.sortDesc_perm _ _).filter _).filter _
  have hsame : candidates (shortOf thresholds (Recency.sortDesc AggregatedActivity.lastSeen apps) name) =
      (shortOf thresholds (Recency.sortDesc AggregatedActivity.lastSeen apps) name).filter
        (IsLatestLongest (shortOf thresholds apps name) ·) :=
    List.filter_congr fun agg _ => decide_eq_decide.mpr (isLatestLongest_congr hperm agg)
  obtain ⟨latest, hlatest⟩ : ∃ latest, ∀ agg ∈ candidates (shortOf thresholds apps name),
      agg.lastSeen = latest := by
    cases hnone : candidates (shortOf thresholds apps name) with
    | nil => exact ⟨0, by simp⟩
    | cons first rest =>
      refine ⟨first.lastSeen, fun agg hagg => ?_⟩
      rw [← hnone] at hagg
      exact lastSeen_candidates hagg (hnone ▸ List.mem_cons_self)
  have hfilter : ∀ apps' : List AggregatedActivity,
      (shortOf thresholds apps' name).filter (IsLatestLongest (shortOf thresholds apps name) ·) =
        apps'.filter fun agg => decide (IsLatestLongest (shortOf thresholds apps name) agg) &&
          decide (agg.appName = name) && thresholds.isShort agg := by
    intro apps'
    generalize shortOf thresholds apps name = members
    rw [shortOf, List.filter_filter, List.filter_filter]
  rw [hsame, hfilter, candidates, hfilter]
  refine Recency.filter_sortDesc _ apps _ (k := latest) fun agg hagg hp => hlatest agg ?_
  rw [candidates, hfilter]
  exact List.mem_filter.mpr ⟨hagg, hp⟩

/-- At most one member could stand for the group. -/
def OneCandidate (members : List AggregatedActivity) : Prop :=
  ∀ agg ∈ candidates members, ∀ other ∈ candidates members, agg = other

instance (members : List AggregatedActivity) : Decidable (OneCandidate members) :=
  inferInstanceAs (Decidable (∀ agg ∈ _, ∀ other ∈ _, _))

theorem oneCandidate_congr {members members' : List AggregatedActivity} (h : members.Perm members') :
    OneCandidate members ↔ OneCandidate members' := by
  simp only [OneCandidate, (candidates_perm h).mem_iff]

theorem head?_candidates {members members' : List AggregatedActivity} (h : members.Perm members')
    (hone : OneCandidate members) : (candidates members).head? = (candidates members').head? := by
  have hperm := candidates_perm h
  cases hfirst : (candidates members').head? with
  | none =>
    rw [List.head?_eq_none_iff] at hfirst ⊢
    rw [hfirst] at hperm
    exact hperm.eq_nil
  | some agg =>
    have hagg := hperm.mem_iff.mpr (List.mem_of_mem_head? hfirst)
    obtain ⟨other, hother⟩ := Option.isSome_iff_exists.mp
      (List.isSome_head?.mpr (List.ne_nil_of_mem hagg))
    rw [hother, hone other (List.mem_of_mem_head? hother) agg hagg]

end Kronical
