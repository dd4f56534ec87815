import Kronical.Lib.Machine
import Kronical.Pipeline.NothingLost

/-!
# The main thread

`start_main_thread` starts two servers and the six stages and sets up the hooks, and its guard joins what
it has been given, whatever the main thread returns with. A server ends only by a panic, and the ingest
stage only on the `Shutdown` of the interrupt handler, because the main thread itself holds a sender of the
event channel while it joins. So when it returns behind the pipeline, all threads that it joins have ended,
and storage has all that the envelope, hints and snapshot stages have sent it; only what the compression stage
sends may be left behind the `Shutdown`. If the focus hook or the interrupt handler cannot be set up it does
not return at all (`main_thread_returns`).
-/

namespace Kronical

inductive Server
  | grpc
  | http
  deriving DecidableEq, Repr

/-- A server's thread binds its socket, signals that it is ready, and serves until it panics; it may have
panicked before. -/
inductive ServerThread
  | absent
  | starting
  | bound
  | serving
  | ended (signalled : Bool)
  deriving DecidableEq, Repr

namespace ServerThread

/-- It has signalled that it is ready. -/
def signalled : ServerThread → Bool
  | .serving => true
  | .ended signalled => signalled
  | _ => false

/-- A join of it returns. -/
def hasEnded : ServerThread → Bool
  | .ended _ => true
  | _ => false

/-- The end of the thread by a panic. Between the socket and the signal only the gRPC server can panic, on
the permissions of its socket. -/
def fail (server : Server) : ServerThread → Option ServerThread
  | .starting => some (.ended false)
  | .bound => if server = .grpc then some (.ended false) else none
  | .serving => some (.ended true)
  | _ => none

end ServerThread

/-- The errors of `start_main_thread`, by the call they come from. -/
inductive MainError
  | server (server : Server)
  | pipeline
  | focusHook
  | shutdownHandler
  | uiohook
  | runFocusHook
  deriving DecidableEq, Repr

/-- One call of the guard's `drop`. -/
inductive Cleanup
  | stopUiohook
  | stopFocusHook
  | joinStage (stage : Stage)
  | joinServer (server : Server)
  | removeSocket (server : Server)
  deriving DecidableEq

/-- The guard, with the threads it has handles of. -/
structure CoordinatorShutdownGuard where
  apiHandles : List Server
  pipelineHandles : List Stage
  uiohook : Bool
  focusHook : Bool
  deriving DecidableEq

namespace CoordinatorShutdownGuard

def new : CoordinatorShutdownGuard :=
  { apiHandles := [], pipelineHandles := [], uiohook := false, focusHook := false }

/-- `PipelineHandles::join` starts with the stage that was spawned last. -/
def drop (self : CoordinatorShutdownGuard) : List Cleanup :=
  (if self.uiohook then [.stopUiohook] else []) ++ (if self.focusHook then [.stopFocusHook] else []) ++
    self.pipelineHandles.reverse.map .joinStage ++ self.apiHandles.map .joinServer ++
      [.removeSocket .grpc, .removeSocket .http]

end CoordinatorShutdownGuard

/-- The order in which `spawn_pipeline` spawns the stages. -/
def pipelineOrder : List Stage := [.storage, .hints, .compression, .snapshot, .envelope, .ingest]

/-- The next call of the main thread. -/
inductive MainPoint
  | removeStale (server : Server)
  | spawnServer (server : Server)
  | awaitReady (server : Server)
  | joinServer (server : Server)
  | spawnStages (left : List Stage)
  | buildFocusHook
  | setupShutdownHandler
  | runUiohook
  | runFocusHook
  | dropGuard (left : List Cleanup) (result : Option MainError)
  | returned (result : Option MainError)
  deriving DecidableEq

/-- The main thread and what it works with. -/
structure MainThread where
  point : MainPoint
  guard : CoordinatorShutdownGuard
  servers : Server → ServerThread
  /-- The socket file exists. -/
  sockets : Server → Bool
  /-- The sockets that the cleanup could not remove. -/
  kept : List Server
  /-- The stages that run. -/
  spawned : List Stage
  config : Network.Config Stage.Msg Stage.Reading Stage.Local
  /-- The interrupt handler is set. -/
  handlerSet : Bool
  /-- The `Shutdown` events in the event channel. -/
  shutdowns : Nat

/-- `main` is the next call of the main thread and whether it succeeds, where this is not decided by the
other threads. -/
inductive MainAction
  | main (ok : Bool)
  | bind (server : Server)
  | ready (server : Server)
  | fail (server : Server)
  | interrupt
  | stage (action : Network.Action Stage.Reading)

namespace MainThread

/-- Sockets of an earlier daemon may be there. -/
def new (cfg : PipelineConfig) (sockets : Server → Bool) : MainThread :=
  { point := .removeStale .grpc
    guard := .new
    servers := fun _ => .absent
    sockets
    kept := []
    spawned := []
    config := (pipeline cfg).start
    handlerSet := false
    shutdowns := 0 }

/-- The main thread is about to return, and the guard is dropped. -/
def leave (self : MainThread) (result : Option MainError) : MainThread :=
  { self with point := .dropGuard self.guard.drop result }

/-- The failures of the hooks to stop are logged only. -/
def cleanup (self : MainThread) (ok : Bool) : Cleanup → Option MainThread
  | .stopUiohook | .stopFocusHook => some self
  | .joinStage stage => if (self.config stage).ended then some self else none
  | .joinServer server => if (self.servers server).hasEnded then some self else none
  | .removeSocket server =>
    if self.sockets server then
      if ok then some { self with sockets := Function.update self.sockets server false }
      else some { self with kept := self.kept ++ [server] }
    else
      some self

/-- Where `spawn_all` goes on behind a server. -/
def started (self : MainThread) : Server → MainThread
  | .grpc => { self with point := .removeStale .http }
  | .http =>
    { self with
      guard := { self.guard with apiHandles := [.grpc, .http] }
      point := .spawnStages pipelineOrder }

/-- `spawn_pipeline` returns, and its senders are dropped. -/
def pipelineReturned (cfg : PipelineConfig) (self : MainThread) : Option MainThread :=
  ((pipeline cfg).step self.config (.finish .spawner)).map fun config => { self with config }

/-- The next call of the main thread. The wait for a server's signal ends without one when its time is
over. -/
def proceed (cfg : PipelineConfig) (self : MainThread) (ok : Bool) : Option MainThread :=
  match self.point with
  | .removeStale server =>
    some { self with
      sockets := if ok then Function.update self.sockets server false else self.sockets
      point := .spawnServer server }
  | .spawnServer server =>
    if ok then
      some { self with
        servers := Function.update self.servers server .starting
        point := .awaitReady server }
    else
      some (self.leave (some (.server server)))
  | .awaitReady server =>
    if (self.servers server).signalled then some (self.started server)
    else some { self with point := .joinServer server }
  | .joinServer server =>
    if (self.servers server).hasEnded then some (self.leave (some (.server server))) else none
  | .spawnStages (stage :: left) =>
    if ok then some { self with spawned := self.spawned ++ [stage], point := .spawnStages left }
    else (self.pipelineReturned cfg).map (leave · (some .pipeline))
  | .spawnStages [] =>
    (self.pipelineReturned cfg).map fun self =>
      { self with
        guard := { self.guard with pipelineHandles := self.spawned }
        point := .buildFocusHook }
  | .buildFocusHook =>
    if ok then some { self with guard := { self.guard with focusHook := true }, point := .setupShutdownHandler }
    else some (self.leave (some .focusHook))
  | .setupShutdownHandler =>
    if ok then some { self with handlerSet := true, point := .runUiohook }
    else some (self.leave (some .shutdownHandler))
  | .runUiohook =>
    if ok then some { self with guard := { self.guard with uiohook := true }, point := .runFocusHook }
    else some (self.leave (some .uiohook))
  | .runFocusHook => some (self.leave (if ok then none else some .runFocusHook))
  | .dropGuard (task :: left) result =>
    (self.cleanup ok task).map fun self => { self with point := .dropGuard left result }
  | .dropGuard [] result => some { self with point := .returned result }
  | .returned _ => none

def isReturned (self : MainThread) : Bool :=
  match self.point with
  | .returned _ => true
  | _ => false

/-- The stages that were spawned act. A `Shutdown` is received if one was sent, and the event channel is
disconnected at most when the main thread has returned, which holds a sender of it. -/
def allows (self : MainThread) : Network.Action Stage.Reading → Bool
  | .recv .ingest (.event .shutdown _ _ _ _) => Stage.ingest ∈ self.spawned && 0 < self.shutdowns
  | .recv .ingest .disconnected => Stage.ingest ∈ self.spawned && self.isReturned
  | .recv n _ | .send n | .finish n => n ∈ self.spawned

/-- The `Shutdown` events that an action takes from the event channel. -/
def taken : Network.Action Stage.Reading → Nat
  | .recv .ingest (.event .shutdown _ _ _ _) => 1
  | _ => 0

def step (cfg : PipelineConfig) (self : MainThread) : MainAction → Option MainThread
  | .main ok => self.proceed cfg ok
  | .bind server =>
    if self.servers server = .starting ∧ self.sockets server = false then
      some { self with
        servers := Function.update self.servers server .bound
        sockets := Function.update self.sockets server true }
    else
      none
  | .ready server =>
    if self.servers server = .bound then
      some { self with servers := Function.update self.servers server .serving }
    else
      none
  | .fail server =>
    ((self.servers server).fail server).map fun thread =>
      { self with servers := Function.update self.servers server thread }
  | .interrupt => if self.handlerSet then some { self with shutdowns := self.shutdowns + 1 } else none
  | .stage action =>
    if self.allows action then
      ((pipeline cfg).step self.config action).map fun config =>
        { self with config, shutdowns := self.shutdowns - taken action }
    else
      none

end MainThread

def mainThread (cfg : PipelineConfig) : Machine MainThread MainAction where
  start s := ∃ sockets, s = .new cfg sockets
  step := MainThread.step cfg

/-! ### What is behind each point -/

/-- What the main thread leaves with if the call at this point fails, or what it leaves with. -/
def MainPoint.result : MainPoint → Option MainError
  | .removeStale server | .spawnServer server | .awaitReady server | .joinServer server =>
    some (.server server)
  | .spawnStages _ => some .pipeline
  | .buildFocusHook => some .focusHook
  | .setupShutdownHandler => some .shutdownHandler
  | .runUiohook => some .uiohook
  | .runFocusHook => some .runFocusHook
  | .dropGuard _ result | .returned result => result

/-- What is left of the drop of the guard. -/
def MainPoint.cleaning : MainPoint → Option (List Cleanup)
  | .dropGuard left _ => some left
  | .returned _ => some []
  | _ => none

namespace CoordinatorShutdownGuard

/-- The guard before the call whose error this is. -/
def before : Option MainError → CoordinatorShutdownGuard
  | some (.server _) => .new
  | some .pipeline => { new with apiHandles := [.grpc, .http] }
  | some .focusHook => { new with apiHandles := [.grpc, .http], pipelineHandles := pipelineOrder }
  | some .shutdownHandler | some .uiohook =>
    { apiHandles := [.grpc, .http], pipelineHandles := pipelineOrder, uiohook := false, focusHook := true }
  | some .runFocusHook | none =>
    { apiHandles := [.grpc, .http], pipelineHandles := pipelineOrder, uiohook := true, focusHook := true }

end CoordinatorShutdownGuard

/-- The interrupt handler is set before the call whose error this is. -/
def MainError.interruptible : Option MainError → Bool
  | some .uiohook | some .runFocusHook | none => true
  | _ => false

namespace ServerThread

/-- It does nothing any more, or nothing yet. -/
def quiet : ServerThread → Bool
  | .absent | .ended _ => true
  | _ => false

theorem quiet_of_hasEnded {thread : ServerThread} (h : thread.hasEnded = true) : thread.quiet = true := by
  cases thread <;> simp_all [hasEnded, quiet]

theorem fail_cases {server : Server} {thread thread' : ServerThread} (h : thread.fail server = some thread') :
    thread.quiet = false ∧ (thread.signalled = true → thread'.signalled = true) := by
  cases thread with
  | absent => cases h
  | starting => simp [quiet, signalled]
  | bound => simp [quiet, signalled]
  | serving =>
    cases h
    simp [quiet, signalled]
  | ended => cases h

end ServerThread

namespace MainThread

variable {cfg : PipelineConfig} {s t : MainThread}

/-- What is known of the servers before the call whose error this is. -/
def ServersBefore (servers : Server → ServerThread) : Option MainError → Prop
  | some (.server .grpc) => servers .http = .absent
  | some (.server .http) => (servers .grpc).signalled = true
  | _ => ∀ server, (servers server).signalled = true

/-- What is known of the server that a point is about. -/
def ServerAt (servers : Server → ServerThread) : MainPoint → Prop
  | .removeStale server | .spawnServer server => servers server = .absent
  | .dropGuard _ (some (.server server)) | .returned (some (.server server)) =>
    (servers server).quiet = true
  | _ => True

/-- The stages that have been spawned at a point. -/
def SpawnedAt (spawned : List Stage) : MainPoint → Prop
  | .spawnStages left => spawned ++ left = pipelineOrder
  | point =>
    match point.result with
    | some (.server _) => spawned = []
    | some .pipeline => Stage.ingest ∉ spawned
    | _ => spawned = pipelineOrder

/-- What a call of the cleanup has brought about. -/
def Done (self : MainThread) : Cleanup → Prop
  | .stopUiohook | .stopFocusHook => True
  | .joinStage stage => (self.config stage).ended = true
  | .joinServer server => (self.servers server).hasEnded = true
  | .removeSocket server => self.sockets server = true → server ∈ self.kept

/-- The wake is a `Shutdown` from the event channel. -/
def IsShutdown (wake : Wake) : Prop := ∃ now spins tickNow sent, wake = .event .shutdown now spins tickNow sent

/-- What is known at a point. -/
structure At (s : MainThread) (point : MainPoint) : Prop where
  guard : s.guard = .before point.result
  handler : s.handlerSet = MainError.interruptible point.result
  servers : ServersBefore s.servers point.result
  server : ServerAt s.servers point
  spawned : SpawnedAt s.spawned point

theorem At.of_same {point : MainPoint} (h : s.At point) (hguard : t.guard = s.guard)
    (hhandler : t.handlerSet = s.handlerSet) (hservers : t.servers = s.servers)
    (hspawned : t.spawned = s.spawned) : t.At point where
  guard := hguard ▸ h.guard
  handler := hhandler ▸ h.handler
  servers := hservers ▸ h.servers
  server := hservers ▸ h.server
  spawned := hspawned ▸ h.spawned

structure Orderly (cfg : PipelineConfig) (s : MainThread) : Prop where
  reached : (pipeline cfg).Reachable s.config
  here : s.At s.point
  /-- Only the interrupt handler sends a `Shutdown`. -/
  quiet : s.handlerSet = false → s.shutdowns = 0
  wakes : ∀ input ∈ (s.config .ingest).taken,
    input.1 ≠ .disconnected ∧ (IsShutdown input.1 → s.handlerSet = true)
  behind : ∀ left, s.point.cleaning = some left →
    ∃ done, s.guard.drop = done ++ left ∧ ∀ task ∈ done, s.Done task

theorem orderly_new (cfg : PipelineConfig) (sockets : Server → Bool) : (new cfg sockets).Orderly cfg where
  reached := .start
  here := ⟨rfl, rfl, rfl, rfl, rfl⟩
  quiet _ := rfl
  wakes _ hmem := absurd hmem List.not_mem_nil
  behind _ hleft := nomatch hleft

/-! ### The servers -/

/-- Servers that do nothing stay as they are, and signals stay. -/
structure Advance (servers servers' : Server → ServerThread) : Prop where
  same : ∀ server, (servers server).quiet = true → servers' server = servers server
  signalled : ∀ server, (servers server).signalled = true → (servers' server).signalled = true

theorem Advance.update {servers : Server → ServerThread} {server : Server} {thread : ServerThread}
    (hactive : (servers server).quiet = false)
    (hsignal : (servers server).signalled = true → thread.signalled = true) :
    Advance servers (Function.update servers server thread) where
  same other hquiet := by
    refine Function.update_of_ne ?_ _ _
    rintro rfl
    simp [hactive] at hquiet
  signalled other hother := by
    by_cases heq : other = server
    · subst heq
      rw [Function.update_self]
      exact hsignal hother
    · rwa [Function.update_of_ne heq]

theorem Advance.absent {servers servers' : Server → ServerThread} (h : Advance servers servers') {server : Server}
    (habsent : servers server = .absent) : servers' server = .absent := by
  rw [h.same server (by rw [habsent]; rfl), habsent]

theorem ServersBefore.mono {servers servers' : Server → ServerThread} {result : Option MainError}
    (h : ServersBefore servers result) (hadvance : Advance servers servers') : ServersBefore servers' result := by
  rcases result with _ | ⟨_ | _⟩ | _ | _ | _ | _ | _
  any_goals exact fun server => hadvance.signalled server (h server)
  · exact hadvance.absent h
  · exact hadvance.signalled _ h

theorem ServerAt.mono {servers servers' : Server → ServerThread} {point : MainPoint} (h : ServerAt servers point)
    (hadvance : Advance servers servers') : ServerAt servers' point := by
  have hquiet : ∀ server, (servers server).quiet = true → (servers' server).quiet = true :=
    fun server hquiet => hadvance.same server hquiet ▸ hquiet
  revert h
  unfold ServerAt
  split <;> intro h
  · exact hadvance.absent h
  · exact hadvance.absent h
  · exact hquiet _ h
  · exact hquiet _ h
  · trivial

theorem Orderly.settled (h : s.Orderly cfg) (hcleaning : s.point.cleaning ≠ none) (server : Server) :
    (s.servers server).quiet = true ∨ (s.servers server).signalled = true := by
  obtain ⟨-, -, hservers, hserver, -⟩ := h.here
  cases hpoint : s.point <;> rw [hpoint] at hservers hserver hcleaning <;> try exact absurd rfl hcleaning
  all_goals
    rename_i result
    rcases result with _ | ⟨_ | _⟩ | _ | _ | _ | _ | _ <;> cases server <;>
      simp_all [ServersBefore, ServerAt, MainPoint.result, ServerThread.quiet]

theorem Orderly.serverActs (h : s.Orderly cfg) {servers : Server → ServerThread} {sockets : Server → Bool}
    (hadvance : Advance s.servers servers) (hsockets : s.point.cleaning ≠ none → sockets = s.sockets) :
    Orderly cfg { s with servers, sockets } := by
  refine { h with
    here := { h.here with servers := h.here.servers.mono hadvance, server := h.here.server.mono hadvance }
    behind := ?_ }
  intro left hleft
  obtain ⟨done, hdrop, hdone⟩ := h.behind left hleft
  refine ⟨done, hdrop, fun task htask => ?_⟩
  have htask := hdone task htask
  cases task with
  | stopUiohook | stopFocusHook | joinStage => exact htask
  | joinServer other =>
    show (servers other).hasEnded = true
    rw [hadvance.same other (ServerThread.quiet_of_hasEnded htask)]
    exact htask
  | removeSocket other =>
    rw [hsockets (by rw [show s.point.cleaning = some left from hleft]; nofun)]
    exact htask

/-! ### The stages -/

theorem returned_of_isReturned (h : s.isReturned = true) : s.point = .returned s.point.result := by
  unfold isReturned at h
  split at h
  · rename_i hpoint
    rw [hpoint]
    rfl
  · cases h

theorem Orderly.joined (h : s.Orderly cfg) (hreturned : s.isReturned = true) {stage : Stage}
    (hstage : stage ∈ s.guard.pipelineHandles) : (s.config stage).ended = true := by
  have hpoint := returned_of_isReturned hreturned
  obtain ⟨done, hdrop, hdone⟩ := h.behind [] (by rw [hpoint]; rfl)
  refine hdone (.joinStage stage) ?_
  rw [List.append_nil] at hdrop
  rw [← hdrop]
  simp [CoordinatorShutdownGuard.drop, hstage]

theorem Orderly.ingest_handle (h : s.Orderly cfg) (hreturned : s.isReturned = true)
    (hspawned : Stage.ingest ∈ s.spawned) : Stage.ingest ∈ s.guard.pipelineHandles := by
  have hpoint := returned_of_isReturned hreturned
  have hat := h.here.spawned
  rw [h.here.guard]
  revert hat
  rw [hpoint]
  generalize s.point.result = result
  rcases result with _ | ⟨_ | _⟩ | _ | _ | _ | _ | _ <;> intro hat <;>
    simp_all [SpawnedAt, MainPoint.result, CoordinatorShutdownGuard.before, pipelineOrder]

theorem Orderly.stageActs (h : s.Orderly cfg) {action : Network.Action Stage.Reading}
    {config : Network.Config Stage.Msg Stage.Reading Stage.Local} (hallows : s.allows action = true)
    (hstep : (pipeline cfg).step s.config action = some config) :
    Orderly cfg { s with config, shutdowns := s.shutdowns - taken action } := by
  have hdoes := Network.step_cases hstep
  refine { h with
    reached := h.reached.step trivial hstep
    here := h.here.of_same rfl rfl rfl rfl
    quiet := ?_
    wakes := ?_
    behind := ?_ }
  · intro hset
    show s.shutdowns - _ = 0
    rw [h.quiet hset, Nat.zero_sub]
  · show ∀ input ∈ (config .ingest).taken, _
    have hwakes := h.wakes
    have hturn := hdoes.turn .ingest
    revert hturn
    generalize config .ingest = node
    intro hturn
    cases hturn with
    | idle => exact hwakes
    | send => exact hwakes
    | refuse => exact hwakes
    | finish => exact hwakes
    | @recv wake input queue hended houtbox hhalted hoffer =>
      intro input hmem
      rcases List.mem_append.mp hmem with hmem | hmem
      · exact hwakes input hmem
      · obtain rfl := List.mem_singleton.mp hmem
        refine ⟨?_, ?_⟩
        · rintro rfl
          simp only [allows, Bool.and_eq_true, decide_eq_true_eq] at hallows
          have hgone := h.joined hallows.2 (h.ingest_handle hallows.2 hallows.1)
          exact absurd (hended.symm.trans hgone) Bool.false_ne_true
        · rintro ⟨now, spins, tickNow, sent, rfl⟩
          simp only [allows, Bool.and_eq_true, decide_eq_true_eq] at hallows
          by_contra hset
          have hnone := h.quiet (Bool.not_eq_true _ ▸ hset)
          omega
  · intro left hleft
    obtain ⟨done, hdrop, hdone⟩ := h.behind left hleft
    refine ⟨done, hdrop, fun task htask => ?_⟩
    have htask := hdone task htask
    cases task with
    | joinStage stage => exact hdoes.ended_mono htask
    | stopUiohook | stopFocusHook | joinServer | removeSocket => exact htask

/-! ### The calls of the main thread -/

theorem Orderly.startup (h : s.Orderly cfg) (hconfig : t.config = s.config) (hshutdowns : t.shutdowns = s.shutdowns)
    (hset : s.handlerSet = true → t.handlerSet = true) (hcleaning : t.point.cleaning = none) (hat : t.At t.point) :
    t.Orderly cfg where
  reached := hconfig ▸ h.reached
  here := hat
  quiet hunset := by
    rw [hshutdowns]
    refine h.quiet (Bool.eq_false_iff.mpr fun hbefore => ?_)
    exact absurd ((hset hbefore).symm.trans hunset) nofun
  wakes input hmem := by
    obtain ⟨hconnected, hshutdown⟩ := h.wakes input (hconfig ▸ hmem)
    exact ⟨hconnected, fun h => hset (hshutdown h)⟩
  behind _ hleft := nomatch hcleaning.symm.trans hleft

theorem At.cleaning {left : List Cleanup} {result : Option MainError} :
    s.At (.dropGuard left result) ↔ s.At (.returned result) := by
  have hserver : ServerAt s.servers (.dropGuard left result) ↔ ServerAt s.servers (.returned result) := by
    rcases result with _ | ⟨_ | _⟩ | _ | _ | _ | _ | _ <;> rfl
  exact ⟨fun h => { h with server := hserver.mp h.server }, fun h => { h with server := hserver.mpr h.server }⟩

theorem Orderly.leave (h : s.Orderly cfg) {result : Option MainError} (hat : s.At (.returned result)) :
    (s.leave result).Orderly cfg where
  reached := h.reached
  here := (At.cleaning.mpr hat).of_same rfl rfl rfl rfl
  quiet := h.quiet
  wakes := h.wakes
  behind left hleft := by
    cases hleft
    exact ⟨[], rfl, by simp⟩

theorem Orderly.spawnsServer (h : s.Orderly cfg) {server : Server} (hpoint : s.point = .spawnServer server) :
    Orderly cfg { s with
      servers := Function.update s.servers server .starting
      point := .awaitReady server } := by
  obtain ⟨hguard, hhandler, hservers, -, hspawned⟩ := hpoint ▸ h.here
  refine h.startup rfl rfl id rfl ⟨hguard, hhandler, ?_, trivial, hspawned⟩
  cases server with
  | grpc =>
    show Function.update s.servers .grpc .starting .http = .absent
    rwa [Function.update_of_ne (by decide)]
  | http =>
    show (Function.update s.servers .http .starting .grpc).signalled = true
    rwa [Function.update_of_ne (by decide)]

theorem Orderly.started (h : s.Orderly cfg) {server : Server} (hpoint : s.point = .awaitReady server)
    (hsignal : (s.servers server).signalled = true) : (s.started server).Orderly cfg := by
  obtain ⟨hguard, hhandler, hservers, -, hspawned⟩ := hpoint ▸ h.here
  cases server with
  | grpc => exact h.startup rfl rfl id rfl ⟨hguard, hhandler, hsignal, hservers, hspawned⟩
  | http =>
    have hnone : s.spawned = [] := hspawned
    refine h.startup rfl rfl id rfl ⟨?_, hhandler, ?_, trivial, ?_⟩
    · show { s.guard with apiHandles := [.grpc, .http] } = _
      rw [hguard]
      rfl
    · intro server
      cases server with
      | grpc => exact hservers
      | http => exact hsignal
    · show s.spawned ++ pipelineOrder = pipelineOrder
      rw [hnone, List.nil_append]

theorem Orderly.pipelineReturned (h : s.Orderly cfg) (hcleaning : s.point.cleaning = none)
    (hreturned : s.pipelineReturned cfg = some t) :
    t.Orderly cfg ∧ ∃ config, t = { s with config } := by
  obtain ⟨config, hstep, rfl⟩ := Option.map_eq_some_iff.mp hreturned
  refine ⟨{ h with
    reached := h.reached.step trivial hstep
    here := h.here.of_same rfl rfl rfl rfl
    wakes := ?_
    behind := ?_ }, config, rfl⟩
  · show ∀ input ∈ (config .ingest).taken, _
    cases Network.step_cases hstep with
    | finish => exact h.wakes
  · intro left hleft
    cases hcleaning.symm.trans hleft

theorem ingest_notMem {spawned left : List Stage} {stage : Stage} (h : spawned ++ stage :: left = pipelineOrder) :
    Stage.ingest ∉ spawned := by
  have hlast : Stage.ingest ∈ stage :: left := by
    have hlast : (spawned ++ stage :: left).getLast? = some .ingest := by rw [h]; rfl
    rw [List.getLast?_append_cons] at hlast
    exact List.mem_of_getLast? hlast
  have hnodup : (spawned ++ stage :: left).Nodup := by rw [h]; decide
  exact fun hmem => List.disjoint_of_nodup_append hnodup hmem hlast

theorem Orderly.spawnsStage (h : s.Orderly cfg) {ok : Bool} {left : List Stage}
    (hpoint : s.point = .spawnStages left) (hstep : s.proceed cfg ok = some t) : t.Orderly cfg := by
  obtain ⟨hguard, hhandler, hservers, -, hspawned⟩ := hpoint ▸ h.here
  cases left with
  | nil =>
    simp only [MainThread.proceed, hpoint] at hstep
    obtain ⟨u, hu, rfl⟩ := Option.map_eq_some_iff.mp hstep
    obtain ⟨hleft, config, rfl⟩ := h.pipelineReturned (by rw [hpoint]; rfl) hu
    have hall : s.spawned = pipelineOrder := (List.append_nil _).symm.trans hspawned
    refine hleft.startup rfl rfl id rfl ⟨?_, hhandler, hservers, trivial, hall⟩
    show { s.guard with pipelineHandles := s.spawned } = _
    rw [hguard, hall]
    rfl
  | cons stage left =>
    simp only [MainThread.proceed, hpoint] at hstep
    split_ifs at hstep
    · cases hstep
      refine h.startup rfl rfl id rfl ⟨hguard, hhandler, hservers, trivial, ?_⟩
      show s.spawned ++ [stage] ++ left = pipelineOrder
      rwa [List.append_assoc, List.singleton_append]
    · obtain ⟨u, hu, rfl⟩ := Option.map_eq_some_iff.mp hstep
      obtain ⟨hleft, config, rfl⟩ := h.pipelineReturned (by rw [hpoint]; rfl) hu
      exact hleft.leave ⟨hguard, hhandler, hservers, trivial, ingest_notMem hspawned⟩

theorem cleanup_cases {ok : Bool} {task : Cleanup} (h : s.cleanup ok task = some t) :
    (∃ sockets kept, t = { s with sockets, kept }) ∧ t.Done task ∧ ∀ other, s.Done other → t.Done other := by
  cases task with
  | stopUiohook | stopFocusHook =>
    cases h
    exact ⟨⟨_, _, rfl⟩, trivial, fun _ => id⟩
  | joinStage stage | joinServer server =>
    simp only [cleanup] at h
    split_ifs at h with hended
    cases h
    exact ⟨⟨_, _, rfl⟩, hended, fun _ => id⟩
  | removeSocket server =>
    simp only [cleanup] at h
    split_ifs at h with hexists hok
    · cases h
      refine ⟨⟨_, _, rfl⟩, by simp [Done], fun other hother => ?_⟩
      cases other with
      | removeSocket other =>
        by_cases heq : other = server
        · simp [Done, heq]
        · simpa [Done, Function.update_of_ne heq] using hother
      | _ => exact hother
    · cases h
      refine ⟨⟨_, _, rfl⟩, by simp [Done], fun other hother => ?_⟩
      cases other with
      | removeSocket other => exact fun h => List.mem_append_left _ (hother h)
      | _ => exact hother
    · cases h
      exact ⟨⟨_, _, rfl⟩, fun h => absurd h hexists, fun _ => id⟩

theorem Orderly.cleanup (h : s.Orderly cfg) {ok : Bool} {left : List Cleanup} {result : Option MainError}
    (hpoint : s.point = .dropGuard left result) (hstep : s.proceed cfg ok = some t) : t.Orderly cfg := by
  have hat := At.cleaning.mp (hpoint ▸ h.here)
  obtain ⟨done, hdrop, hdone⟩ := h.behind left (by rw [hpoint]; rfl)
  cases left with
  | nil =>
    simp only [MainThread.proceed, hpoint] at hstep
    cases hstep
    refine { h with here := hat.of_same rfl rfl rfl rfl, behind := ?_ }
    rintro _ ⟨⟩
    exact ⟨done, hdrop, hdone⟩
  | cons task left =>
    simp only [MainThread.proceed, hpoint] at hstep
    obtain ⟨u, hu, rfl⟩ := Option.map_eq_some_iff.mp hstep
    obtain ⟨⟨sockets, kept, rfl⟩, htask, hother⟩ := cleanup_cases hu
    refine { h with here := (At.cleaning.mpr hat).of_same rfl rfl rfl rfl, behind := ?_ }
    rintro _ ⟨⟩
    refine ⟨done ++ [task], by simpa using hdrop, fun other hmem => ?_⟩
    rcases List.mem_append.mp hmem with hmem | hmem
    · exact hother other (hdone other hmem)
    · exact List.mem_singleton.mp hmem ▸ htask

theorem Orderly.proceed (h : s.Orderly cfg) {ok : Bool} (hstep : s.proceed cfg ok = some t) : t.Orderly cfg := by
  cases hpoint : s.point with
  | spawnStages left => exact h.spawnsStage hpoint hstep
  | dropGuard left result => exact h.cleanup hpoint hstep
  | _ => ?_
  all_goals
    obtain ⟨hguard, hhandler, hservers, hserver, hspawned⟩ := hpoint ▸ h.here
    simp only [MainThread.proceed, hpoint] at hstep
  case removeStale server =>
    cases hstep
    exact h.startup rfl rfl id rfl ⟨hguard, hhandler, hservers, hserver, hspawned⟩
  case spawnServer server =>
    split_ifs at hstep
    · cases hstep
      exact h.spawnsServer hpoint
    · cases hstep
      refine h.leave ⟨hguard, hhandler, hservers, ?_, hspawned⟩
      show (s.servers server).quiet = true
      rw [show s.servers server = .absent from hserver]
      rfl
  case awaitReady server =>
    split_ifs at hstep with hsignal
    · cases hstep
      exact h.started hpoint hsignal
    · cases hstep
      exact h.startup rfl rfl id rfl ⟨hguard, hhandler, hservers, trivial, hspawned⟩
  case joinServer server =>
    split_ifs at hstep with hended
    cases hstep
    exact h.leave ⟨hguard, hhandler, hservers, ServerThread.quiet_of_hasEnded hended, hspawned⟩
  case buildFocusHook =>
    split_ifs at hstep
    · cases hstep
      refine h.startup rfl rfl id rfl ⟨?_, hhandler, hservers, trivial, hspawned⟩
      show { s.guard with focusHook := true } = _
      rw [hguard]
      rfl
    · cases hstep
      exact h.leave ⟨hguard, hhandler, hservers, trivial, hspawned⟩
  case setupShutdownHandler =>
    split_ifs at hstep
    · cases hstep
      exact h.startup rfl rfl (fun _ => rfl) rfl ⟨hguard, rfl, hservers, trivial, hspawned⟩
    · cases hstep
      exact h.leave ⟨hguard, hhandler, hservers, trivial, hspawned⟩
  case runUiohook =>
    split_ifs at hstep
    · cases hstep
      refine h.startup rfl rfl id rfl ⟨?_, hhandler, hservers, trivial, hspawned⟩
      show { s.guard with uiohook := true } = _
      rw [hguard]
      rfl
    · cases hstep
      exact h.leave ⟨hguard, hhandler, hservers, trivial, hspawned⟩
  case runFocusHook =>
    cases hstep
    cases ok <;> exact h.leave ⟨hguard, hhandler, hservers, trivial, hspawned⟩
  case returned result => cases hstep

/-! ### Runs -/

theorem Orderly.step (h : s.Orderly cfg) {a : MainAction} (hstep : s.step cfg a = some t) : t.Orderly cfg := by
  cases a with
  | main ok => exact h.proceed hstep
  | bind server =>
    simp only [MainThread.step] at hstep
    split_ifs at hstep with hstarting
    cases hstep
    refine h.serverActs (.update ?_ ?_) fun hcleaning => ?_
    · rw [hstarting.1]
      rfl
    · rw [hstarting.1]
      nofun
    · have hsettled := h.settled hcleaning server
      rw [hstarting.1] at hsettled
      exact hsettled.elim nofun nofun
  | ready server =>
    simp only [MainThread.step] at hstep
    split_ifs at hstep with hbound
    cases hstep
    refine h.serverActs (.update ?_ fun _ => rfl) fun _ => rfl
    rw [hbound]
    rfl
  | fail server =>
    obtain ⟨thread, hthread, rfl⟩ := Option.map_eq_some_iff.mp hstep
    obtain ⟨hactive, hsignal⟩ := ServerThread.fail_cases hthread
    exact h.serverActs (.update hactive hsignal) fun _ => rfl
  | interrupt =>
    simp only [MainThread.step] at hstep
    split_ifs at hstep with hset
    cases hstep
    exact { h with
      here := h.here.of_same rfl rfl rfl rfl
      quiet := fun hunset => absurd (hset.symm.trans hunset) nofun }
  | stage action =>
    simp only [MainThread.step] at hstep
    split_ifs at hstep with hallows
    obtain ⟨config, hconfig, rfl⟩ := Option.map_eq_some_iff.mp hstep
    exact h.stageActs hallows hconfig

theorem orderly_of_reach (hs : (mainThread cfg).Reachable s) : s.Orderly cfg := by
  refine hs.invariant ?_ fun s a t _ _ hstep h => h.step hstep
  rintro s ⟨sockets, rfl⟩
  exact orderly_new cfg sockets

/-! ### The return -/

theorem nextEventId_stopped {self next : IngestStage} {now stamp : DateTime} {eventId : Nat}
    {spins : List DateTime} (h : self.nextEventId now spins = some (next, stamp, eventId)) :
    next.stopped = self.stopped := by
  unfold IngestStage.nextEventId at h
  split_ifs at h
  · obtain ⟨spin, hspin, heq⟩ := Option.map_eq_some_iff.mp h
    cases heq
    rfl
  · cases h
    rfl
  · cases h
    rfl

theorem ingest_stopped {self : IngestStage} {wake : Wake} (hrunning : self.stopped = false)
    (hstops : (self.handle wake).1.stopped = true) : wake = .disconnected ∨ IsShutdown wake := by
  unfold IngestStage.handle IngestStage.ingest at hstops
  split at hstops
  · exact .inr ⟨_, _, _, _, rfl⟩
  · exfalso
    split at hstops
    · rename_i hnext
      have hsame := nextEventId_stopped hnext
      split at hstops <;> exact absurd ((hsame.trans hrunning).symm.trans hstops) nofun
    · exact absurd (hrunning.symm.trans hstops) nofun
  · exfalso
    split_ifs at hstops <;> exact absurd (hrunning.symm.trans hstops) nofun
  · exact .inl rfl

theorem Orderly.interrupted (h : s.Orderly cfg) (hstopped : (s.config .ingest).current.stopped = true) :
    s.handlerSet = true ∧ ∃ input ∈ (s.config .ingest).taken, IsShutdown input.1 := by
  have hrefused := core_unrefused h.reached .ingest (.inl rfl)
  obtain ⟨self, wake, input, htaken, hrunning, hstops⟩ :=
    h.reached.halted_cause (n := .ingest) rfl (.inl hrefused) hstopped
  obtain ⟨hconnected, hset⟩ := h.wakes (wake, input) htaken
  have hshutdown := (ingest_stopped hrunning hstops).resolve_left hconnected
  exact ⟨hset hshutdown, (wake, input), htaken, hshutdown⟩

theorem spawner_ended {config : Network.Config Stage.Msg Stage.Reading Stage.Local}
    (hs : (pipeline cfg).Reachable config) (hended : (config .hints).ended = true) :
    (config .spawner).ended = true := by
  obtain ⟨hints, final, hinputs⟩ := hints_inputs hs (hs.done_of_ended .hints hended).2
  have hclosed : (final, none) ∈ (config .hints).inputs := by
    rw [hinputs]
    exact List.mem_append_right _ List.mem_cons_self
  obtain ⟨⟨clock, input⟩, htaken, hinput⟩ := List.mem_map.mp hclosed
  obtain rfl : input = none := Option.map_eq_none_iff.mp (congrArg Prod.snd hinput)
  exact (hs.closed htaken).2 .spawner (show Stage.spawner ∈ Stage.hints.senders by decide)

/-- The stages have come to their end on an interrupt, and nothing that the envelope, hints and snapshot stages
have sent is lost. -/
structure SessionEnded (cfg : PipelineConfig) (s : MainThread) : Prop where
  stages : ∀ n, (s.config n).ended = true
  interrupt : ∃ input ∈ (s.config .ingest).taken, IsShutdown input.1
  stored : ∃ before after, (s.config .storage).arrived = before ++ (.snapshot, .shutdown) :: after ∧
    (s.config .storage).current.stored = before.map Prod.snd ∧ NothingLost cfg s.config before after

theorem Orderly.session_ended (h : s.Orderly cfg)
    (hjoined : ∀ stage ∈ pipelineOrder, (s.config stage).ended = true) :
    s.handlerSet = true ∧ s.SessionEnded cfg := by
  have hended : ∀ n, (s.config n).ended = true := by
    intro n
    cases n with
    | spawner => exact spawner_ended h.reached (hjoined .hints (by decide))
    | _ => exact hjoined _ (by decide)
  obtain ⟨hset, hinterrupt⟩ := h.interrupted (h.reached.done_of_ended .ingest (hended .ingest)).2
  obtain ⟨before, after, harrived, hstored⟩ := shutdown_received h.reached hended
  exact ⟨hset, hended, hinterrupt, before, after, harrived, hstored, (nothing_lost h.reached harrived).2⟩

/-- What has ended when the main thread has returned. It does not return with an error of the focus hook's
setup or of the interrupt handler's. -/
inductive Leaves (cfg : PipelineConfig) (s : MainThread) : Option MainError → Prop
  | grpc (hgrpc : (s.servers .grpc).quiet = true) (hhttp : s.servers .http = .absent)
      (hstages : s.spawned = []) : Leaves cfg s (some (.server .grpc))
  /-- The gRPC server is not joined. -/
  | http (hgrpc : (s.servers .grpc).signalled = true) (hhttp : (s.servers .http).quiet = true)
      (hstages : s.spawned = []) : Leaves cfg s (some (.server .http))
  /-- The stages that were spawned are not joined. -/
  | pipeline (hservers : ∀ server, (s.servers server).hasEnded = true)
      (hingest : Stage.ingest ∉ s.spawned) : Leaves cfg s (some .pipeline)
  | session {result : Option MainError}
      (hresult : result = none ∨ result = some .uiohook ∨ result = some .runFocusHook)
      (hservers : ∀ server, (s.servers server).hasEnded = true) (hsession : s.SessionEnded cfg) :
      Leaves cfg s result

theorem servers_ended (hdone : ∀ task ∈ s.guard.drop, s.Done task)
    (hhandles : s.guard.apiHandles = [.grpc, .http]) (server : Server) : (s.servers server).hasEnded = true := by
  refine hdone (.joinServer server) ?_
  cases server <;> simp [CoordinatorShutdownGuard.drop, hhandles]

theorem stages_joined (hdone : ∀ task ∈ s.guard.drop, s.Done task)
    (hhandles : s.guard.pipelineHandles = pipelineOrder) :
    ∀ stage ∈ pipelineOrder, (s.config stage).ended = true := by
  intro stage hstage
  refine hdone (.joinStage stage) ?_
  simp [CoordinatorShutdownGuard.drop, hhandles, hstage]

/-- In every run: when the main thread returns it has removed the sockets, but for those whose removal has
failed. With a success, or with an error of a hook that did not run, both servers and all stages have ended,
the daemon was interrupted, and nothing that the envelope, hints and snapshot stages have sent is lost. With an
error of the pipeline both servers have ended and no ingest stage runs; with an error of a server that one has
ended and there are no stages. With an error of the focus hook's setup or of the interrupt handler's it never
returns. -/
theorem main_thread_returns (cfg : PipelineConfig) {s : MainThread} (hs : (mainThread cfg).Reachable s)
    {result : Option MainError} (hpoint : s.point = .returned result) :
    s.Leaves cfg result ∧ ∀ server, s.sockets server = true → server ∈ s.kept := by
  have h := orderly_of_reach hs
  have hhere := hpoint ▸ h.here
  obtain ⟨done, hdrop, hdone⟩ := h.behind [] (by rw [hpoint]; rfl)
  rw [List.append_nil] at hdrop
  rw [← hdrop] at hdone
  refine ⟨?_, fun server => hdone (.removeSocket server) ?_⟩
  swap
  · cases server <;> simp [CoordinatorShutdownGuard.drop]
  obtain ⟨hguard, hhandler, hservers, hserver, hspawned⟩ := hhere
  rcases result with _ | ⟨_ | _⟩ | _ | _ | _ | _ | _
  case some.server.grpc => exact .grpc hserver hservers hspawned
  case some.server.http => exact .http hservers hserver hspawned
  all_goals have hended := servers_ended hdone (by rw [hguard]; rfl)
  case some.pipeline => exact .pipeline hended hspawned
  all_goals obtain ⟨hset, hsession⟩ := h.session_ended (stages_joined hdone (by rw [hguard]; rfl))
  case none => exact .session (.inl rfl) hended hsession
  case some.uiohook => exact .session (.inr (.inl rfl)) hended hsession
  case some.runFocusHook => exact .session (.inr (.inr rfl)) hended hsession
  -- nobody can have interrupted the daemon
  all_goals exact absurd (hhandler.symm.trans hset) nofun

/-- Both servers come up, the stages are spawned, and the hooks are set up. -/
def startupActions : List MainAction :=
  [.main true, .main true, .bind .grpc, .ready .grpc, .main true, .main true, .main true, .bind .http,
    .ready .http, .main true] ++
    List.replicate 10 (.main true)

/-- A keystroke and an interrupt: the main thread comes to the join of the servers. -/
def interruptedActions : List MainAction :=
  startupActions ++ .interrupt :: drowsySchedule.tail.map .stage ++
    [.stage (.recv .compression ()), .stage (.send .compression), .stage (.send .compression),
      .stage (.recv .compression ()), .stage (.finish .compression), .stage (.recv .storage ()),
      .stage (.recv .storage ()), .stage (.recv .storage ()), .stage (.recv .storage ()),
      .stage (.recv .storage ()), .stage (.finish .storage)] ++
    List.replicate 9 (.main true)

/-- The servers fail, and the main thread returns. -/
def sessionActions : List MainAction :=
  interruptedActions ++ .fail .http :: .fail .grpc :: List.replicate 5 (.main true)

theorem main_thread_returns_session :
    ∃ s, (mainThread plainConfig).exec (.new plainConfig fun _ => true) sessionActions = some s ∧
      s.Leaves plainConfig none := by
  obtain ⟨s, hs⟩ := Option.isSome_iff_exists.mp (show ((mainThread plainConfig).exec
    (.new plainConfig fun _ => true) sessionActions).isSome = true by decide)
  have hpoint : ((mainThread plainConfig).exec (.new plainConfig fun _ => true) sessionActions).map
      MainThread.point = some (.returned none) := by decide
  rw [hs] at hpoint
  exact ⟨s, hs, (main_thread_returns plainConfig (.exec (.start ⟨_, rfl⟩) hs) (Option.some.inj hpoint)).1⟩

end MainThread

end Kronical
