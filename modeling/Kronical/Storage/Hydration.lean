import Kronical.Pipeline.Publish
import Kronical.Storage.Backend

/-!
# Hydrated transitions

The snapshot stage starts from the transitions the backend returns, the newest first, and takes them
over in that order, as if they happened one after the other. So the oldest one ends up as the last
transition and in front of the ring: with two or more of them the order is wrong
(`hydrated_newest_first_iff`).
-/

namespace Kronical

namespace SnapshotStage

/-- The stored transitions as the stage takes them over. -/
def hydrated (runId : Option String) (transitions : List Transition) : List Transition :=
  transitions.map (attachRunId (.new runId))

theorem hydrate_foldl (self : SnapshotStage) (transitions : List Transition) :
    let hydrated := transitions.map (attachRunId self.bus)
    (transitions.foldl hydrate self).bus.transitions =
        hydrated.foldl (Ring.push 64) self.bus.transitions ∧
      (transitions.foldl hydrate self).lastTransition = hydrated.getLast?.or self.lastTransition ∧
      (transitions.foldl hydrate self).currentState =
        (hydrated.getLast?.map (·.toState)).getD self.currentState := by
  intro hydrated
  induction transitions generalizing self with
  | nil => exact ⟨rfl, rfl, rfl⟩
  | cons t ts ih =>
    obtain ⟨hring, hlast, hstate⟩ := ih (self.hydrate t)
    have hrunId : attachRunId (self.hydrate t).bus = attachRunId self.bus := attachRunId_congr rfl
    rw [hrunId] at hring hlast hstate
    rw [List.foldl_cons, hring, hlast, hstate]
    refine ⟨rfl, ?_, ?_⟩
    · show _ = (attachRunId self.bus t :: ts.map (attachRunId self.bus)).getLast?.or _
      rw [List.getLast?_cons]
      cases (ts.map (attachRunId self.bus)).getLast? <;> rfl
    · show _ = ((attachRunId self.bus t :: ts.map (attachRunId self.bus)).getLast?.map _).getD _
      rw [List.getLast?_cons]
      cases (ts.map (attachRunId self.bus)).getLast? <;> rfl

theorem new_spec (runId : Option String) (retentionMinutes : Nat) (records : List ActivityRecord)
    (transitions : List Transition) (now : DateTime) :
    let stage := new (.new runId) retentionMinutes records transitions now
    stage.bus.transitions = (hydrated runId transitions).foldl (Ring.push 64) [] ∧
      stage.lastTransition = (hydrated runId transitions).getLast? ∧
      stage.currentState =
        ((hydrated runId transitions).getLast?.map (·.toState)).getD .inactive := by
  intro stage
  obtain ⟨hring, hlast, hstate⟩ := hydrate_foldl
    { bus := .new runId, counts := .default, recentRecords := records, currentState := .inactive,
      currentFocus := none, lastTransition := none, stateHist := [],
      retention := minutes retentionMinutes, pollMs := 0, shutdownRequested := false,
      hintsComplete := false, storageShutdownSent := false, stopped := false } transitions
  rw [Option.or_none] at hlast
  exact ⟨hring, hlast, hstate⟩

end SnapshotStage

/-- Transitions in the order of their times, the newest first. -/
def newestFirst (transitions : List Transition) : List Transition :=
  transitions.insertionSort fun t u => u.atTime ≤ t.atTime

theorem newestFirst_of_sorted {transitions : List Transition}
    (h : transitions.Pairwise fun t u => u.atTime < t.atTime) :
    newestFirst transitions = transitions :=
  (h.imp fun hlt => hlt.le).insertionSort_eq

theorem head?_ne_getLast? {transitions : List Transition}
    (h : transitions.Pairwise fun t u => u.atTime < t.atTime) (hlength : 1 < transitions.length) :
    transitions.head? ≠ transitions.getLast? := by
  match transitions, hlength with
  | t :: u :: rest, _ =>
    intro heq
    rw [List.head?_cons, List.getLast?_cons_cons, List.getLast?_eq_some_getLast (by simp)] at heq
    have hbefore := (List.pairwise_cons.mp h).1 _ (List.getLast_mem (List.cons_ne_nil u rest))
    rw [← Option.some.inj heq] at hbefore
    exact lt_irrefl _ hbefore

/-- For stored transitions at different instants and either backend: behind the hydration the last
transition is the newest one of those fetched, and the bus lists them the newest first also behind
any further ones, if and only if at most one is fetched. -/
theorem hydrated_newest_first_iff (toRfc3339 : DateTime → String) (backend : Backend)
    (rows : List Transition)
    (hrows : backend = .sqlite → Backend.Chronological toRfc3339 (rows.map (·.atTime)))
    (hdistinct : rows.Pairwise fun t u => t.atTime ≠ u.atTime) (since : DateTime)
    (runId : Option String) (limit retentionMinutes : Nat) (records : List ActivityRecord)
    (now : DateTime) :
    let fetched := backend.fetchRecentTransitions toRfc3339 rows since runId limit
    let hydrated := SnapshotStage.hydrated runId fetched
    let stage := SnapshotStage.new (.new runId) retentionMinutes records fetched now
    (stage.lastTransition = (newestFirst hydrated).head? ∧
        ∀ (live : List Transition) (k : Nat),
          (live.foldl SnapshotBus.pushTransition stage.bus).recentTransitions k =
            (live.reverse ++ newestFirst hydrated).take (min k 64)) ↔
      limit ≤ 1 ∨ rows.countP (backend.transitionMatches toRfc3339 since runId) ≤ 1 := by
  intro fetched hydrated stage
  have hlength : hydrated.length =
      min limit (rows.countP (backend.transitionMatches toRfc3339 since runId)) :=
    (List.length_map ..).trans (backend.length_fetchRecentTransitions ..)
  have hsorted : hydrated.Pairwise fun t u => u.atTime < t.atTime := by
    refine List.pairwise_map.mpr ?_
    simpa using Backend.fetchRecentTransitions_sorted hrows hdistinct since runId limit
  obtain ⟨hring, hlast, -⟩ := SnapshotStage.new_spec runId retentionMinutes records fetched now
  rw [newestFirst_of_sorted hsorted, show stage.lastTransition = _ from hlast]
  constructor
  · rintro ⟨hnewest, -⟩
    by_contra hmany
    push Not at hmany
    refine head?_ne_getLast? hsorted ?_ hnewest.symm
    rw [hlength]
    omega
  · intro hfew
    have hone : hydrated.length ≤ 1 := by
      rw [hlength]
      omega
    have hend : hydrated.reverse = hydrated ∧ hydrated.getLast? = hydrated.head? ∧
        hydrated.foldl (Ring.push 64) [] = hydrated := by
      generalize hydrated = ts at hone
      match ts, hone with
      | [], _ => exact ⟨rfl, rfl, rfl⟩
      | [t], _ => exact ⟨rfl, rfl, rfl⟩
    refine ⟨hend.2.1, fun live k => ?_⟩
    have htransitions : stage.bus.transitions = hydrated := hring.trans hend.2.2
    rw [SnapshotBus.recentTransitions_pushAll stage.bus (by rw [htransitions]; omega),
      htransitions, hend.1, List.take_take]

/-- The start of the epoch and the second after it, as RFC 3339 texts. -/
def firstSeconds (t : DateTime) : String :=
  if t < 1000000000 then "1970-01-01T00:00:00+00:00" else "1970-01-01T00:00:01+00:00"

/-- One stored transition is hydrated as the last one. -/
theorem hydrated_one :
    (SnapshotStage.new (.new none) 60 [] (Backend.sqlite.fetchRecentTransitions firstSeconds
      [⟨.inactive, .active, 1000000000, none, none⟩] 0 none 32) 0).lastTransition =
        some ⟨.inactive, .active, 1000000000, none, none⟩ :=
  ((hydrated_newest_first_iff firstSeconds .sqlite [⟨.inactive, .active, 1000000000, none, none⟩]
    (by decide) (by decide) 0 none 32 60 [] 0).mpr (.inr (by decide))).1.trans (by decide)

/-- Of two stored transitions the older one is hydrated as the last one. -/
theorem hydrated_two :
    ¬ (let fetched := Backend.duckdb.fetchRecentTransitions firstSeconds
        [⟨.inactive, .active, 1, none, none⟩, ⟨.active, .passive, 2, none, none⟩] 0 none 32
      let hydrated := SnapshotStage.hydrated none fetched
      let stage := SnapshotStage.new (.new none) 60 [] fetched 0
      stage.lastTransition = (newestFirst hydrated).head? ∧
        ∀ (live : List Transition) (k : Nat),
          (live.foldl SnapshotBus.pushTransition stage.bus).recentTransitions k =
            (live.reverse ++ newestFirst hydrated).take (min k 64)) := by
  rintro ⟨h, -⟩
  revert h
  decide

end Kronical
