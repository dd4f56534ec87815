import Kronical.Coordinator.MainThread

/-!
# Where the main thread stops

Left to itself, without an event or a tick from outside and without a step of the servers' threads, the daemon
takes finitely many steps: each call of the main thread brings it nearer to its return, and between two calls
the stages come to rest. Then it has returned, or it waits for one of three things: the end of a server that
was not ready in time, an interrupt, or the end of a server that serves (`main_thread_rests`).
-/

namespace Kronical

/-- `spawn_pipeline` has returned before this point. -/
def MainPoint.hasSpawned : MainPoint → Bool
  | .spawnStages _ => false
  | point =>
    match point.result with
    | some (.server _) => false
    | _ => true

/-- An upper bound on the calls that the main thread still makes. -/
def MainPoint.rank : MainPoint → Nat
  | .removeStale .grpc => 30
  | .spawnServer .grpc => 29
  | .awaitReady .grpc => 28
  | .removeStale .http => 27
  | .spawnServer .http => 26
  | .awaitReady .http => 25
  | .spawnStages left => 18 + left.length
  | .buildFocusHook => 17
  | .setupShutdownHandler => 16
  | .runUiohook => 15
  | .runFocusHook => 14
  | .joinServer _ => 14
  | .dropGuard left _ => left.length + 1
  | .returned _ => 0

namespace MainThread

variable {cfg : PipelineConfig} {s t : MainThread}

/-- The calls still to be made, and the ingest stage while it runs. -/
def ahead (self : MainThread) : Nat :=
  self.point.rank + if (self.config .ingest).current.stopped then 0 else 1

theorem Orderly.joining (h : s.Orderly cfg) {left : List Cleanup} {result : Option MainError}
    (hpoint : s.point = .dropGuard left result) {stage : Stage} (hmem : .joinStage stage ∈ s.guard.drop) :
    s.spawned = pipelineOrder ∧ s.point.hasSpawned = true ∧ ∃ before after,
      s.guard.drop = before ++ .joinStage .ingest :: after ∧
        ∀ task ∈ before, ∀ stage, task ≠ .joinStage stage := by
  obtain ⟨hguard, -, -, -, hspawned⟩ := hpoint ▸ h.here
  rw [hguard] at hmem ⊢
  rw [hpoint]
  rcases result with _ | ⟨_ | _⟩ | _ | _ | _ | _ | _
  case some.server.grpc | some.server.http | some.pipeline =>
    simp [MainPoint.result, CoordinatorShutdownGuard.before, CoordinatorShutdownGuard.new,
      CoordinatorShutdownGuard.drop] at hmem
  case some.focusHook => exact ⟨hspawned, rfl, [], _, rfl, by simp⟩
  case some.shutdownHandler | some.uiohook => exact ⟨hspawned, rfl, [.stopFocusHook], _, rfl, by simp⟩
  case some.runFocusHook | none =>
    exact ⟨hspawned, rfl, [.stopUiohook, .stopFocusHook], _, rfl, by simp⟩

theorem joins_done {stages after done left : List Cleanup} {server : Server}
    (hstages : ∀ task ∈ stages, ∀ server, task ≠ .joinServer server)
    (h : stages ++ after = done ++ .joinServer server :: left) : stages ⊆ done := by
  rcases List.append_eq_append_iff.mp h with ⟨between, rfl, -⟩ | ⟨between, rfl, hsplit⟩
  · exact List.subset_append_left _ _
  · cases between with
    | nil => simp
    | cons task between =>
      exact absurd (List.cons.inj hsplit).1.symm (hstages task (by simp) server)

theorem Orderly.serving (h : s.Orderly cfg) {server : Server} {left : List Cleanup} {result : Option MainError}
    (hpoint : s.point = .dropGuard (.joinServer server :: left) result) :
    (s.servers server).signalled = true ∧ (result = some .pipeline ∨ s.SessionEnded cfg) := by
  obtain ⟨hguard, -, hservers, -, -⟩ := hpoint ▸ h.here
  obtain ⟨done, hdrop, hdone⟩ := h.behind _ (by rw [hpoint]; rfl)
  have hended : s.guard.pipelineHandles = pipelineOrder → s.SessionEnded cfg := by
    intro hhandles
    refine (h.session_ended fun stage hstage => hdone (.joinStage stage) ?_).2
    rw [CoordinatorShutdownGuard.drop, List.append_assoc] at hdrop
    refine joins_done ?_ hdrop (List.mem_append_right _ ?_)
    · intro task hmem server
      simp only [List.mem_append, List.mem_map] at hmem
      rcases hmem with (hmem | hmem) | ⟨stage, -, rfl⟩
      · split_ifs at hmem <;> simp_all
      · split_ifs at hmem <;> simp_all
      · simp
    · simp [hhandles, hstage]
  rw [hguard] at hdrop hended
  rcases result with _ | ⟨_ | _⟩ | _ | _ | _ | _ | _
  case some.server.grpc | some.server.http =>
    have hmem := hdrop ▸ List.mem_append_right done (List.mem_cons_self (a := Cleanup.joinServer server) (l := left))
    simp [MainPoint.result, CoordinatorShutdownGuard.before, CoordinatorShutdownGuard.new,
      CoordinatorShutdownGuard.drop] at hmem
  case some.pipeline => exact ⟨hservers server, .inl rfl⟩
  all_goals exact ⟨hservers server, .inr (hended rfl)⟩

end MainThread

end Kronical
