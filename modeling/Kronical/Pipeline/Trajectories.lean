import Kronical.Pipeline.Coverage

/-!
# Mouse trajectories

The trajectories of a batch are those of the maximal paths of its movements that have three or more of
them: a path goes on while at most 200 whole milliseconds pass, the mouse moves by 5 pixels or more and is
moved or dragged as before (`trajectories_long_runs`). Each tells the ids of its path, and where and when
it starts and ends.
-/

namespace Kronical

namespace MouseTrajectoryCompressor

/-- The second movement continues the path of the first one, after a gap that is close. -/
def Continues (close : Int → Prop) (e e' : MouseEvent) : Prop :=
  close (e'.timestamp - e.timestamp) ∧ 5 ^ 2 ≤ calculateDistanceSq e.position e'.position ∧
    e.kind = e'.kind

/-- What a trajectory tells of its path. -/
structure Describes (path : List MouseEvent) (trajectory : CompactMouseTrajectory) : Prop where
  links : trajectory.rawEventIds = some ⟨defaultRawEventTable, path.map (·.eventId)⟩
  kind : ∀ e ∈ path, e.kind = trajectory.eventType
  start : path.head?.map (fun e => (e.timestamp, e.position)) =
    some (trajectory.startTime, trajectory.startPosition)
  finish : path.getLast?.map (fun e => (e.timestamp, e.position)) =
    some (trajectory.endTime, trajectory.endPosition)

/-- The trajectories describe those of the paths into which the movements fall that are long. -/
def CutsAt (close : Int → Prop) (events : List RawEvent) (trajectories : List CompactMouseTrajectory) :
    Prop :=
  ∃ paths, Runs.Maximal (Continues close) (extractMouseEvents events) paths ∧
    List.Forall₂ Describes (paths.filter fun path => 3 ≤ path.length) trajectories

theorem joined_new_iff (e e' : MouseEvent) :
    MouseTrajectoryCompressor.new.joined e e' = true ↔
      Continues (fun gap => numMilliseconds gap ≤ 200) e e' := by
  simp only [joined, Bool.and_eq_true, decide_eq_true_eq, and_assoc]
  rfl

theorem kind_eq {close : Int → Prop} {path : List MouseEvent} (h : path.IsChain (Continues close))
    {last : MouseEvent} (hlast : last ∈ path.getLast?) : ∀ e ∈ path, e.kind = last.kind := by
  have hsame : (path.map (·.kind)).IsChain (· = ·) := by
    rw [List.isChain_map]
    exact h.imp fun _ _ h => h.2.2
  have hpairs := List.isChain_iff_pairwise.mp hsame
  obtain ⟨front, rfl⟩ := List.getLast?_eq_some_iff.mp hlast
  rw [List.map_append, List.pairwise_append] at hpairs
  intro e he
  rcases List.mem_append.mp he with he | he
  · exact hpairs.2.2 _ (List.mem_map_of_mem he) _ (List.mem_map_of_mem (List.mem_singleton_self last))
  · rw [List.mem_singleton.mp he]

theorem describes_trajectoryOf (self : MouseTrajectoryCompressor) {close : Int → Prop}
    {path : List MouseEvent} (hlong : 3 ≤ path.length) (h : path.IsChain (Continues close)) :
    ∃ trajectory, self.trajectoryOf path = [trajectory] ∧ Describes path trajectory := by
  match path, hlong with
  | first :: second :: third :: rest, _ =>
    have hlast : (third :: rest).getLast? = some ((third :: rest).getLast (List.cons_ne_nil _ _)) :=
      List.getLast?_eq_some_getLast _
    refine ⟨self.buildTrajectory first (second :: third :: rest)
      ((third :: rest).getLast (List.cons_ne_nil _ _)).kind, ?_, ?_⟩
    · rw [trajectoryOf, List.getLast?_cons_cons, List.getLast?_cons_cons, hlast]
      rfl
    · have hend : (first :: second :: third :: rest).getLast? = (third :: rest).getLast? := by
        rw [List.getLast?_cons_cons, List.getLast?_cons_cons]
      refine ⟨rfl, kind_eq h (hend.trans hlast), rfl, ?_⟩
      show _ = some (((second :: third :: rest).getLast?.getD first).timestamp,
        ((second :: third :: rest).getLast?.getD first).position)
      rw [hend, List.getLast?_cons_cons, hlast]
      rfl

end MouseTrajectoryCompressor

open MouseTrajectoryCompressor in
/-- The trajectories of a batch are those of its maximal paths of three movements or more. -/
theorem trajectories_long_runs (events : List RawEvent) :
    CutsAt (fun gap => numMilliseconds gap ≤ 200) events
      (MouseTrajectoryCompressor.new.compress events) := by
  have hpaths := Runs.maximal_splitBy joined_new_iff (extractMouseEvents events)
  refine ⟨_, hpaths, ?_⟩
  rw [compress_longPaths, longPaths]
  refine Runs.forall₂_flatMap fun path hmem => ?_
  obtain ⟨hpath, hlong⟩ := List.mem_filter.mp hmem
  exact describes_trajectoryOf _ (of_decide_eq_true hlong) (hpaths.chain path hpath)

/-- Three movements to the right, the last one 200.5 ms after the second one. -/
def lateMovement : List RawEvent :=
  [(0, 1, 0), (100000000, 2, 10), (300500000, 3, 20)].map fun (timestamp, eventId, x) =>
    .mouseInput timestamp eventId ⟨⟨x, 0⟩, none, none, some .moved, none, none, none, none⟩

open MouseTrajectoryCompressor in
/-- The three movements make one path, although the last one comes half a millisecond too late. -/
theorem trajectory_gap_truncated :
    ¬ CutsAt (fun gap => gap ≤ 200 * 1000000) lateMovement
      (MouseTrajectoryCompressor.new.compress lateMovement) := by
  rintro ⟨paths, hpaths, hall⟩
  have hcut : paths = (extractMouseEvents lateMovement).splitBy fun e e' =>
      (e'.timestamp - e.timestamp ≤ 200 * 1000000 : Bool) &&
        (5 ^ 2 ≤ calculateDistanceSq e.position e'.position : Bool) && (e.kind = e'.kind : Bool) :=
    hpaths.eq_splitBy fun e e' => by simp [Continues, and_assoc]
  have hshort : (paths.filter fun path => 3 ≤ path.length) = [] := by
    rw [hcut]
    decide +kernel
  rw [hshort] at hall
  have hone : (MouseTrajectoryCompressor.new.compress lateMovement).length = 1 := by decide +kernel
  rw [List.forall₂_nil_left_iff.mp hall] at hone
  cases hone

end Kronical
