import Kronical.Kronictl.Selection
import Kronical.Workspace.RunIdFile

/-!
# Starting and stopping the daemon

`kronictl start`, `stop` and `restart`, one after another, with daemons that exit or are killed and other
programs that come and go in between. `kronictl` only spawns `kronid` and returns: whether a daemon comes of
it is decided later, and a second start that is quicker spawns a second one. But a user who waits for what was
spawned is safe, since `kronictl` looks for a running daemon before it spawns one: unlike with daemons that are
started beside each other, the run id file names the run of the daemon in every state, and restarts stay in
this run (`kronictl_keeps_run`). A daemon that is gone leaves nothing behind that would keep the next one from
starting, unless it was killed and its pid belongs to another process by then (`starts_after_exit`).
-/

namespace Kronical

/-! ### The commands -/

/-- `read_pid_file`; `none` is an error. -/
def PidFiles.readPid (self : PidFiles) : Option (Option Nat) :=
  if self.pidFile.isNone then some none else self.filePid.map some

def PidFiles.removePid (self : PidFiles) : PidFiles := { self with pidFile := none }

/-- A `kronid` that has been spawned: its pid and its `--run`. -/
structure SpawnedKronid where
  pid : Nat
  run : Option String
  deriving DecidableEq, Repr

/-- A workspace, and the `kronid`s that have been spawned in it and have come neither to run nor to their
end. -/
structure KronictlWorkspace extends RunWorkspace where
  starting : List SpawnedKronid
  deriving DecidableEq, Repr

/-- A command of the `kronictl` with the pid `me`: whether what it sends a SIGTERM to is `gone` when it looks
again, and the pid of the `kronid` it spawns, if that succeeds. Or the start of a `kronid` that was spawned,
with the UUID that it draws and what fails in it; or a daemon exits by itself, or other programs come and
go. -/
inductive KronictlAction
  | start (me : Nat) (run : Option String) (spawned : Option Nat)
  | stop (me : Nat) (gone : Bool)
  | restart (me : Nat) (run : Option String) (gone : Bool) (spawned : Option Nat)
  | kronid (i : Nat) (uuid : Uuid) (failure : Option StartFailure)
  | exit (i : Nat) (how : KronidExit)
  | others (pids : List Nat)
  deriving DecidableEq, Repr

/-- All but a start, and a restart with a run id. -/
def KronictlAction.keepsRun : KronictlAction → Bool
  | .start .. | .restart _ (some _) _ _ => false
  | .restart _ none _ _ | .stop .. | .kronid .. | .exit .. | .others _ => true

/-- `parse_run_id` of `--run`; `none` is an error. -/
def parseRunOption (run : Option String) : Option (Option String) :=
  match run with
  | some id => (parseRunId id).map some
  | none => some none

namespace KronictlWorkspace

def isProcessRunning (self : KronictlWorkspace) (me pid : Nat) : Bool :=
  self.starting.any (·.pid = pid) || self.toRunWorkspace.isProcessRunning me pid

/-- The process with this pid does not handle SIGTERM. -/
def terminate (self : KronictlWorkspace) (pid : Nat) : KronictlWorkspace :=
  { self with
    daemons := self.daemons.filter fun daemon => daemon.pid ≠ pid
    others := self.others.filter (· ≠ pid)
    starting := self.starting.filter fun kronid => kronid.pid ≠ pid }

def removePid (self : KronictlWorkspace) : KronictlWorkspace :=
  { self with files := self.files.removePid }

def spawnKronid (self : KronictlWorkspace) (run : Option String) (spawned : Option Nat) :
    KronictlWorkspace :=
  match spawned with
  | some pid => { self with starting := self.starting ++ [{ pid, run }] }
  | none => self

def stopDaemon (self : KronictlWorkspace) (me : Nat) (gone : Bool) : KronictlWorkspace :=
  match self.files.readPid with
  | some (some pid) =>
    if self.isProcessRunning me pid then
      let self := if gone then self.terminate pid else self
      if self.isProcessRunning me pid then self else self.removePid
    else self.removePid
  | _ => self

def startDaemon (self : KronictlWorkspace) (me : Nat) (run : Option String) (spawned : Option Nat) :
    KronictlWorkspace :=
  match self.files.readPid with
  | some (some existingPid) =>
    if self.isProcessRunning me existingPid then self
    else self.removePid.spawnKronid run spawned
  | some none => self.spawnKronid run spawned
  | none => self

def restartDaemon (self : KronictlWorkspace) (me : Nat) (run : Option String) (gone : Bool)
    (spawned : Option Nat) : KronictlWorkspace :=
  -- With a stale pid of its own `kronictl` terminates itself.
  if self.files.readPid = some (some me) then self
  else
    let self := self.stopDaemon me gone
    match run with
    | some id => self.startDaemon me (some id) spawned
    | none =>
      match loadPreviousRunId self.runIdFile with
      | some run => self.startDaemon me run spawned
      | none => self

/-- What still starts is a running process, too. -/
def seen (self : KronictlWorkspace) : RunWorkspace :=
  { self.toRunWorkspace with others := self.others ++ self.starting.map (·.pid) }

/-- `run` of a `kronid` that was spawned, in one step. -/
def runKronid (self : KronictlWorkspace) (kronid : SpawnedKronid) (uuid : Uuid)
    (failure : Option StartFailure) : KronictlWorkspace :=
  let workspace := self.seen.run kronid.pid kronid.run uuid failure
  { self with files := workspace.files, runIdFile := workspace.runIdFile, daemons := workspace.daemons }

/-- The pid is not in use. -/
def Fresh (self : KronictlWorkspace) (pid : Nat) : Prop :=
  pid < 2 ^ 32 ∧ pid ∉ self.others ∧ (∀ daemon ∈ self.daemons, daemon.pid ≠ pid) ∧
    ∀ kronid ∈ self.starting, kronid.pid ≠ pid

instance (self : KronictlWorkspace) (pid : Nat) : Decidable (self.Fresh pid) :=
  inferInstanceAs (Decidable (_ ∧ _ ∧ _ ∧ _))

/-- The command and what it spawns have pids of their own. -/
def Distinct (self : KronictlWorkspace) (me : Nat) (spawned : Option Nat) : Prop :=
  self.Fresh me ∧ ∀ pid ∈ spawned, self.Fresh pid ∧ pid ≠ me

instance (self : KronictlWorkspace) (me : Nat) (spawned : Option Nat) :
    Decidable (self.Distinct me spawned) := inferInstanceAs (Decidable (_ ∧ _))

/-- The daemons and the other programs change. -/
def follow (self : KronictlWorkspace) (action : RunAction) : Option KronictlWorkspace :=
  (self.step action).map fun workspace => { self with toRunWorkspace := workspace }

def kronictl (self : KronictlWorkspace) : KronictlAction → Option KronictlWorkspace
  | .start me run spawned =>
    if self.Distinct me spawned then
      match parseRunOption run with
      | some run => some (self.startDaemon me run spawned)
      | none => some self
    else none
  | .stop me gone => if self.Fresh me then some (self.stopDaemon me gone) else none
  | .restart me run gone spawned =>
    if self.Distinct me spawned then
      match parseRunOption run with
      | some run => some (self.restartDaemon me run gone spawned)
      | none => some self
    else none
  | .kronid i uuid failure => do
    let kronid ← self.starting[i]?
    some ({ self with starting := self.starting.eraseIdx i }.runKronid kronid uuid failure)
  | .exit i how => self.follow (.exit i how)
  | .others pids =>
    if ∀ kronid ∈ self.starting, kronid.pid ∉ pids then self.follow (.others pids) else none

/-- A command is given when what the ones before it have spawned has come to run or to its end. -/
def Waits (self : KronictlWorkspace) : KronictlAction → Prop
  | .start .. | .stop .. | .restart .. => self.starting = []
  | .kronid .. | .exit .. | .others _ => True

instance (self : KronictlWorkspace) : ∀ action, Decidable (self.Waits action)
  | .start .. | .stop .. | .restart .. => inferInstanceAs (Decidable (self.starting = []))
  | .kronid .. | .exit .. | .others _ => .isTrue trivial

end KronictlWorkspace

/-- The paths lead to inodes. -/
def PidFiles.Valid (self : PidFiles) : Prop :=
  (∀ file ∈ self.pidFile, file < self.contents.length) ∧ ∀ file ∈ self.tmp, file < self.contents.length

namespace KronictlWorkspace

/-- At the start no daemon runs and none was spawned. -/
def lifecycle : Machine KronictlWorkspace KronictlAction where
  start := fun s : KronictlWorkspace => s.daemons = [] ∧ s.starting = [] ∧ s.files.Valid
  step := kronictl

variable {s t : KronictlWorkspace}

/-! ### One command -/

theorem readPid_of_filePid {files : PidFiles} {pid : Nat} (h : files.filePid = some pid) :
    files.readPid = some (some pid) := by
  have hsome : files.pidFile ≠ none := by
    intro hnone
    simp [PidFiles.filePid, PidFiles.readPidFile, hnone] at h
  simp [PidFiles.readPid, hsome, h]

theorem isProcessRunning_of_mem {daemon : KronidDaemon} (h : daemon ∈ s.daemons) (me : Nat) :
    s.isProcessRunning me daemon.pid = true := by
  have hany : s.daemons.any (·.pid = daemon.pid) = true := List.any_eq_true.mpr ⟨daemon, h, by simp⟩
  simp [isProcessRunning, RunWorkspace.isProcessRunning, hany]

theorem stopDaemon_cases (h : s.Single) (hwaits : s.starting = []) (me : Nat) (gone : Bool) :
    (s.stopDaemon me gone).runIdFile = s.runIdFile ∧ (s.stopDaemon me gone).starting = [] ∧
      ((s.stopDaemon me gone).daemons = [] ∨
        (s.stopDaemon me gone).daemons = s.daemons ∧ (s.stopDaemon me gone).files = s.files) := by
  obtain hnone | ⟨daemon, hdaemons, hpid⟩ := h
  · unfold KronictlWorkspace.stopDaemon
    split
    · cases gone <;> dsimp only <;> split_ifs <;> simp [terminate, removePid, hnone, hwaits]
    · exact ⟨rfl, hwaits, .inl hnone⟩
  · have hrunning := isProcessRunning_of_mem (hdaemons ▸ List.mem_singleton_self daemon) me
    simp only [KronictlWorkspace.stopDaemon, readPid_of_filePid hpid, hrunning, if_true]
    cases gone
    · simp [hrunning, hwaits]
    · have hterminated : (s.terminate daemon.pid).daemons = [] := by simp [terminate, hdaemons]
      have hstarting : (s.terminate daemon.pid).starting = [] := by simp [terminate, hwaits]
      simp only [if_true]
      split_ifs
      · exact ⟨rfl, hstarting, .inl hterminated⟩
      · exact ⟨rfl, hstarting, .inl hterminated⟩

theorem startDaemon_of_daemon {daemon : KronidDaemon} (h : s.Single) (hdaemon : daemon ∈ s.daemons)
    (me : Nat) (run : Option String) (spawned : Option Nat) : s.startDaemon me run spawned = s := by
  obtain ⟨-, hpid⟩ := h.owner hdaemon
  simp [startDaemon, readPid_of_filePid hpid, isProcessRunning_of_mem hdaemon]

theorem spawnKronid_spawned (hwaits : s.starting = []) (run : Option String) (spawned : Option Nat) :
    (s.spawnKronid run spawned).toRunWorkspace = s.toRunWorkspace ∧
      ((s.spawnKronid run spawned).starting = [] ∨
        ∃ pid, (s.spawnKronid run spawned).starting = [⟨pid, run⟩]) := by
  cases spawned with
  | none => exact ⟨rfl, .inl hwaits⟩
  | some pid => exact ⟨rfl, .inr ⟨pid, by rw [spawnKronid, hwaits, List.nil_append]⟩⟩

theorem startDaemon_cases (h : s.Single) (hwaits : s.starting = []) (me : Nat) (run : Option String)
    (spawned : Option Nat) :
    s.startDaemon me run spawned = s ∨
      (s.startDaemon me run spawned).daemons = [] ∧
        (s.startDaemon me run spawned).runIdFile = s.runIdFile ∧
        ((s.startDaemon me run spawned).starting = [] ∨
          ∃ pid, (s.startDaemon me run spawned).starting = [⟨pid, run⟩]) := by
  obtain hnone | ⟨daemon, hdaemons, -⟩ := id h
  · have hspawn : ∀ files, ({ s with files }.spawnKronid run spawned).daemons = [] ∧
        ({ s with files }.spawnKronid run spawned).runIdFile = s.runIdFile ∧
        (({ s with files }.spawnKronid run spawned).starting = [] ∨
          ∃ pid, ({ s with files }.spawnKronid run spawned).starting = [⟨pid, run⟩]) := by
      intro files
      obtain ⟨hsame, hstarting⟩ := spawnKronid_spawned (s := { s with files }) hwaits run spawned
      rw [hsame]
      exact ⟨hnone, rfl, hstarting⟩
    unfold KronictlWorkspace.startDaemon
    split
    · split_ifs
      · exact .inl rfl
      · exact .inr (hspawn _)
    · exact .inr (hspawn _)
    · exact .inl rfl
  · exact .inl (startDaemon_of_daemon h (hdaemons ▸ List.mem_singleton_self daemon) ..)

/-! ### The start of a `kronid` -/

theorem run_runIdFile (workspace : RunWorkspace) (pid : Nat) (run : Option String) (uuid : Uuid)
    (failure : Option StartFailure) :
    (workspace.run pid run uuid failure).runIdFile = workspace.runIdFile ∨
      ∃ runId ∈ runIdOf run uuid, (workspace.run pid run uuid failure).runIdFile = some runId := by
  unfold RunWorkspace.run
  cases hid : runIdOf run uuid with
  | none => exact .inl rfl
  | some runId =>
    dsimp only
    split_ifs
    · exact .inl rfl
    all_goals exact .inr ⟨runId, rfl, rfl⟩

/-- How a start ends that is not beside a daemon: without one, or with the one that was spawned. In the run
id file is what was there, or the run id of what was spawned. -/
inductive StartOutcome (s : KronictlWorkspace) (kronid : SpawnedKronid) (uuid : Uuid) :
    KronictlWorkspace → Prop
  | failed {next : KronictlWorkspace} (hdaemons : next.daemons = [])
      (hfile : next.runIdFile = s.runIdFile ∨
        ∃ runId ∈ runIdOf kronid.run uuid, next.runIdFile = some runId) : StartOutcome s kronid uuid next
  | started {next : KronictlWorkspace} {runId : String} (hid : runIdOf kronid.run uuid = some runId)
      (hdaemons : next.daemons = [⟨kronid.pid, runId⟩]) (hpid : next.files.filePid = some kronid.pid)
      (hfile : next.runIdFile = some runId) : StartOutcome s kronid uuid next

theorem runKronid_outcome (hnone : s.daemons = []) (kronid : SpawnedKronid) (uuid : Uuid)
    (failure : Option StartFailure) :
    StartOutcome s kronid uuid (s.runKronid kronid uuid failure) := by
  obtain hdaemons | ⟨runId, hid, hdaemons, hpid, hfile⟩ :=
    RunWorkspace.run_of_no_daemon (s := s.seen) kronid.pid kronid.run uuid failure hnone
  · exact .failed hdaemons (run_runIdFile _ kronid.pid kronid.run uuid failure)
  · exact .started hid hdaemons hpid hfile

/-! ### What the commands keep -/

/-- At most one daemon runs, it owns the pid file, the run id file names its run, and only one `kronid` is on
its way, and no more than in its stead. -/
structure Orderly (s : KronictlWorkspace) : Prop where
  single : s.Single
  named : ∀ daemon ∈ s.daemons, s.runIdFile = some daemon.runId
  runIds : s.RunIds
  starting : s.starting = [] ∨ s.daemons = [] ∧ ∃ kronid, s.starting = [kronid]

theorem Orderly.of_no_daemon (h : s.daemons = [])
    (hstarting : s.starting = [] ∨ ∃ kronid, s.starting = [kronid]) : s.Orderly where
  single := .inl h
  named := by simp [h]
  runIds := by simp [RunWorkspace.RunIds, h]
  starting := hstarting.imp_right fun hstarting => ⟨h, hstarting⟩

theorem Orderly.startDaemon (h : s.Orderly) (hwaits : s.starting = []) (me : Nat) (run : Option String)
    (spawned : Option Nat) : (s.startDaemon me run spawned).Orderly := by
  obtain hsame | ⟨hdaemons, -, hstarting⟩ := startDaemon_cases h.single hwaits me run spawned
  · rw [hsame]
    exact h
  · exact .of_no_daemon hdaemons (hstarting.imp_right fun ⟨pid, hpid⟩ => ⟨_, hpid⟩)

theorem Orderly.stopDaemon (h : s.Orderly) (hwaits : s.starting = []) (me : Nat) (gone : Bool) :
    (s.stopDaemon me gone).Orderly := by
  obtain ⟨hfile, hstarting, hnone | ⟨hdaemons, hfiles⟩⟩ := stopDaemon_cases h.single hwaits me gone
  · exact .of_no_daemon hnone (.inl hstarting)
  · refine ⟨?_, ?_, ?_, .inl hstarting⟩
    · rw [RunWorkspace.Single, hdaemons, hfiles]
      exact h.single
    · rw [hdaemons, hfile]
      exact h.named
    · rw [RunWorkspace.RunIds, hdaemons]
      exact h.runIds

theorem Orderly.restartDaemon (h : s.Orderly) (hwaits : s.starting = []) (me : Nat) (run : Option String)
    (gone : Bool) (spawned : Option Nat) : (s.restartDaemon me run gone spawned).Orderly := by
  have hstopped := h.stopDaemon hwaits me gone
  obtain ⟨-, hstarting, -⟩ := stopDaemon_cases h.single hwaits me gone
  unfold KronictlWorkspace.restartDaemon
  split_ifs
  · exact h
  · dsimp only
    split
    · exact hstopped.startDaemon hstarting ..
    · split
      · exact hstopped.startDaemon hstarting ..
      · exact hstopped

/-- The `kronid` that starts is the only one, and no daemon runs. -/
theorem Orderly.kronid (h : s.Orderly) {i : Nat} {kronid : SpawnedKronid}
    (hkronid : s.starting[i]? = some kronid) :
    s.starting = [kronid] ∧ s.starting.eraseIdx i = [] ∧ s.daemons = [] := by
  obtain hnone | ⟨hdaemons, only, honly⟩ := h.starting
  · simp [hnone] at hkronid
  · rw [honly] at hkronid ⊢
    obtain ⟨hlt, heq⟩ := List.getElem?_eq_some_iff.mp hkronid
    obtain rfl : i = 0 := by simpa using hlt
    obtain rfl : only = kronid := heq
    exact ⟨rfl, rfl, hdaemons⟩

theorem Orderly.runKronid (h : s.Orderly) {i : Nat} {kronid : SpawnedKronid}
    (hkronid : s.starting[i]? = some kronid) (uuid : Uuid) (failure : Option StartFailure) :
    ({ s with starting := s.starting.eraseIdx i }.runKronid kronid uuid failure).Orderly := by
  obtain ⟨-, hstarting, hnone⟩ := h.kronid hkronid
  cases runKronid_outcome (s := { s with starting := s.starting.eraseIdx i }) hnone kronid uuid failure with
  | failed hdaemons => exact .of_no_daemon hdaemons (.inl hstarting)
  | started hid hdaemons hpid hfile =>
    refine ⟨.inr ⟨_, hdaemons, hpid⟩, ?_, ?_, .inl hstarting⟩
    · simp [hdaemons, hfile]
    · rintro daemon hdaemon
      rw [hdaemons, List.mem_singleton] at hdaemon
      exact hdaemon ▸ RunWorkspace.encodeUuid_of_runIdOf hid

theorem Orderly.exit (h : s.Orderly) {i : Nat} {daemon : KronidDaemon} (hdaemon : s.daemons[i]? = some daemon)
    (how : KronidExit) :
    { s with files := s.cleanup daemon.pid how, daemons := s.daemons.eraseIdx i }.Orderly :=
  .of_no_daemon (h.single.exit hdaemon rfl) (h.starting.imp_right And.right)

theorem kronictl_cases {a : KronictlAction} (h : s.kronictl a = some t) :
    (∃ me run spawned, a = .start me run spawned ∧
        (t = s ∨ ∃ parsed ∈ parseRunOption run, t = s.startDaemon me parsed spawned)) ∨
      (∃ me gone, a = .stop me gone ∧ t = s.stopDaemon me gone) ∨
      (∃ me run gone spawned, a = .restart me run gone spawned ∧
        (t = s ∨ ∃ parsed ∈ parseRunOption run, t = s.restartDaemon me parsed gone spawned)) ∨
      (∃ i uuid failure kronid, a = .kronid i uuid failure ∧ s.starting[i]? = some kronid ∧
        t = { s with starting := s.starting.eraseIdx i }.runKronid kronid uuid failure) ∨
      (∃ i how daemon, a = .exit i how ∧ s.daemons[i]? = some daemon ∧
        t = { s with files := s.cleanup daemon.pid how, daemons := s.daemons.eraseIdx i }) ∨
      ∃ pids, a = .others pids ∧ t = { s with others := pids } := by
  cases a with
  | start me run spawned =>
    refine .inl ⟨me, run, spawned, rfl, ?_⟩
    simp only [kronictl] at h
    split_ifs at h
    cases hparsed : parseRunOption run <;> simp_all
  | stop me gone =>
    simp only [kronictl] at h
    split_ifs at h
    exact .inr (.inl ⟨me, gone, rfl, (Option.some.inj h).symm⟩)
  | restart me run gone spawned =>
    refine .inr (.inr (.inl ⟨me, run, gone, spawned, rfl, ?_⟩))
    simp only [kronictl] at h
    split_ifs at h
    cases hparsed : parseRunOption run <;> simp_all
  | kronid i uuid failure =>
    obtain ⟨kronid, hkronid, h⟩ := Option.bind_eq_some_iff.mp h
    exact .inr (.inr (.inr (.inl ⟨i, uuid, failure, kronid, rfl, hkronid, (Option.some.inj h).symm⟩)))
  | exit i how =>
    obtain ⟨workspace, hexit, rfl⟩ := Option.map_eq_some_iff.mp h
    obtain ⟨daemon, hdaemon, hexit⟩ := Option.bind_eq_some_iff.mp hexit
    obtain rfl := Option.some.inj hexit
    exact .inr (.inr (.inr (.inr (.inl ⟨i, how, daemon, rfl, hdaemon, rfl⟩))))
  | others pids =>
    simp only [kronictl] at h
    split_ifs at h
    obtain ⟨workspace, hothers, rfl⟩ := Option.map_eq_some_iff.mp h
    simp only [RunWorkspace.step] at hothers
    split_ifs at hothers
    obtain rfl := Option.some.inj hothers
    exact .inr (.inr (.inr (.inr (.inr ⟨pids, rfl, rfl⟩))))

theorem Orderly.kronictl {a : KronictlAction} (h : s.Orderly) (hwaits : s.Waits a)
    (hstep : s.kronictl a = some t) : t.Orderly := by
  obtain ⟨me, run, spawned, rfl, rfl | ⟨parsed, -, rfl⟩⟩ | ⟨me, gone, rfl, rfl⟩ |
    ⟨me, run, gone, spawned, rfl, rfl | ⟨parsed, -, rfl⟩⟩ | ⟨i, uuid, failure, kronid, -, hkronid, rfl⟩ |
    ⟨i, how, daemon, -, hdaemon, rfl⟩ | ⟨pids, -, rfl⟩ := kronictl_cases hstep
  · exact h
  · exact h.startDaemon hwaits ..
  · exact h.stopDaemon hwaits me gone
  · exact h
  · exact h.restartDaemon hwaits ..
  · exact h.runKronid hkronid uuid failure
  · exact h.exit hdaemon how
  · exact ⟨h.single, h.named, h.runIds, h.starting⟩

theorem orderly_of_reach (hs : lifecycle.Reach Waits s) : s.Orderly := by
  refine hs.invariant ?_ ?_
  · exact fun s hstart => .of_no_daemon hstart.1 (.inl hstart.2.1)
  · exact fun s a t _ hwaits hstep h => h.kronictl hwaits hstep

theorem Orderly.starting_of_daemon (h : s.Orderly) {daemon : KronidDaemon} (hdaemon : daemon ∈ s.daemons) :
    s.starting = [] := by
  obtain hnone | ⟨hdaemons, -⟩ := h.starting
  · exact hnone
  · simp [hdaemons] at hdaemon

/-! ### The run -/

/-- The run id file names this run, and a daemon that runs or starts belongs to it. -/
def InRun (s : KronictlWorkspace) (runId : String) : Prop :=
  loadPreviousRunId s.runIdFile = some (some runId) ∧ (∀ daemon ∈ s.daemons, daemon.runId = runId) ∧
    ∀ kronid ∈ s.starting, kronid.run = some runId

theorem InRun.of_daemon (h : s.Orderly) {daemon : KronidDaemon} (hdaemon : daemon ∈ s.daemons) :
    s.InRun daemon.runId := by
  obtain ⟨uuid, hid⟩ := h.runIds daemon hdaemon
  refine ⟨?_, ?_, ?_⟩
  · rw [h.named daemon hdaemon, hid, RunWorkspace.loadPreviousRunId_encodeUuid]
  · intro other hother
    have hsame := (h.named other hother).symm.trans (h.named daemon hdaemon)
    exact Option.some.inj hsame
  · simp [h.starting_of_daemon hdaemon]

theorem encodeUuid_of_loadPreviousRunId {file : Option String} {runId : String}
    (h : loadPreviousRunId file = some (some runId)) : ∃ uuid, runId = encodeUuid uuid := by
  unfold loadPreviousRunId at h
  split at h
  · simp at h
  · dsimp only at h
    split_ifs at h
    · simp at h
    · obtain ⟨id, hid, heq⟩ := Option.map_eq_some_iff.mp h
      obtain rfl := Option.some.inj heq
      exact encodeUuid_of_parseRunId hid

theorem InRun.stopDaemon {runId : String} (h : s.InRun runId) (hsingle : s.Single)
    (hwaits : s.starting = []) (me : Nat) (gone : Bool) : (s.stopDaemon me gone).InRun runId := by
  obtain ⟨hfile, hstarting, hdaemons⟩ := stopDaemon_cases hsingle hwaits me gone
  refine ⟨hfile ▸ h.1, ?_, by simp [hstarting]⟩
  obtain hnone | ⟨hsame, -⟩ := hdaemons
  · simp [hnone]
  · rw [hsame]
    exact h.2.1

theorem InRun.startDaemon {runId : String} (h : s.InRun runId) (hsingle : s.Single)
    (hwaits : s.starting = []) (me : Nat) (spawned : Option Nat) :
    (s.startDaemon me (some runId) spawned).InRun runId := by
  obtain hsame | ⟨hdaemons, hfile, hstarting⟩ := startDaemon_cases hsingle hwaits me (some runId) spawned
  · rw [hsame]
    exact h
  · refine ⟨hfile ▸ h.1, by simp [hdaemons], ?_⟩
    obtain hnone | ⟨pid, hpid⟩ := hstarting
    · simp [hnone]
    · simp [hpid]

theorem InRun.restartDaemon {runId : String} (h : s.InRun runId) (hs : s.Orderly)
    (hwaits : s.starting = []) (me : Nat) (gone : Bool) (spawned : Option Nat) :
    (s.restartDaemon me none gone spawned).InRun runId := by
  have hrun := h.stopDaemon hs.single hwaits me gone
  obtain ⟨-, hstarting, -⟩ := stopDaemon_cases hs.single hwaits me gone
  unfold KronictlWorkspace.restartDaemon
  split_ifs
  · exact h
  · simp only [hrun.1]
    exact hrun.startDaemon (hs.stopDaemon hwaits me gone).single hstarting ..

theorem InRun.runKronid {runId : String} {kronid : SpawnedKronid} {uuid : Uuid} (h : s.InRun runId)
    (hrun : kronid.run = some runId) (hstarting : t.starting = []) (houtcome : StartOutcome s kronid uuid t) :
    t.InRun runId := by
  obtain ⟨uuid', rfl⟩ := encodeUuid_of_loadPreviousRunId h.1
  have hwritten : ∀ {id}, runIdOf kronid.run uuid = some id → id = encodeUuid uuid' := by
    intro id hid
    rw [hrun, runIdOf, parseRunId_encodeUuid] at hid
    exact (Option.some.inj hid).symm
  cases houtcome with
  | failed hdaemons hfile =>
    refine ⟨?_, by simp [hdaemons], by simp [hstarting]⟩
    obtain hsame | ⟨id, hid, hfile⟩ := hfile
    · rw [hsame]
      exact h.1
    · rw [hfile, hwritten hid, RunWorkspace.loadPreviousRunId_encodeUuid]
  | started hid hdaemons hpid hfile =>
    refine ⟨?_, ?_, by simp [hstarting]⟩
    · rw [hfile, hwritten hid, RunWorkspace.loadPreviousRunId_encodeUuid]
    · simp [hdaemons, hwritten hid]

theorem InRun.kronictl {runId : String} {a : KronictlAction} (h : s.InRun runId) (hs : s.Orderly)
    (hwaits : s.Waits a) (ha : a.keepsRun = true) (hstep : s.kronictl a = some t) : t.InRun runId := by
  obtain ⟨me, run, spawned, rfl, -⟩ | ⟨me, gone, rfl, rfl⟩ |
    ⟨me, run, gone, spawned, rfl, rfl | ⟨parsed, hparsed, rfl⟩⟩ |
    ⟨i, uuid, failure, kronid, -, hkronid, rfl⟩ | ⟨i, how, daemon, -, -, rfl⟩ | ⟨pids, -, rfl⟩ :=
    kronictl_cases hstep
  · exact absurd ha Bool.false_ne_true
  · exact h.stopDaemon hs.single hwaits me gone
  · exact h
  · cases run with
    | none =>
      obtain rfl := Option.some.inj hparsed
      exact h.restartDaemon hs hwaits me gone spawned
    | some id => exact absurd ha Bool.false_ne_true
  · obtain ⟨-, hstarting, hnone⟩ := hs.kronid hkronid
    have hbefore : { s with starting := s.starting.eraseIdx i }.InRun runId :=
      ⟨h.1, h.2.1, by simp [hstarting]⟩
    exact hbefore.runKronid (h.2.2 kronid (List.mem_of_getElem? hkronid)) hstarting
      (runKronid_outcome (s := { s with starting := s.starting.eraseIdx i }) hnone kronid uuid failure)
  · exact ⟨h.1, fun other hother => h.2.1 other (List.mem_of_mem_eraseIdx hother), h.2.2⟩
  · exact h

theorem InRun.exec {runId : String} {as : List KronictlAction} (h : s.InRun runId) (hs : s.Orderly)
    (has : ∀ a ∈ as, a.keepsRun = true) (hexec : lifecycle.execWithin Waits s as = some t) :
    t.InRun runId := by
  induction as generalizing s with
  | nil => exact Option.some.inj hexec ▸ h
  | cons a as ih =>
    unfold Machine.execWithin at hexec
    split_ifs at hexec with hwaits
    obtain ⟨u, hstep, hrest⟩ := Option.bind_eq_some_iff.mp hexec
    exact ih (h.kronictl hs hwaits (has a List.mem_cons_self) hstep) (hs.kronictl hwaits hstep)
      (fun b hb => has b (List.mem_cons_of_mem a hb)) hrest

/-- Whatever is done with `kronictl`, if each command waits for what was spawned before: at most one daemon
runs, which owns the pid file and whose run the run id file names, and a start beside it changes nothing.
Restarts stay in its run, however often the daemon is stopped or dies in between: every daemon that runs later
has its run id. -/
theorem kronictl_keeps_run (hs : lifecycle.Reach Waits s) {daemon : KronidDaemon}
    (hdaemon : daemon ∈ s.daemons) :
    s.daemons = [daemon] ∧ s.files.filePid = some daemon.pid ∧ s.runIdFile = some daemon.runId ∧
      s.starting = [] ∧ (∀ me run spawned, ∀ t ∈ lifecycle.step s (.start me run spawned), t = s) ∧
      ∀ as t, (∀ a ∈ as, a.keepsRun = true) → lifecycle.execWithin Waits s as = some t →
        loadPreviousRunId t.runIdFile = some (some daemon.runId) ∧
          ∀ later ∈ t.daemons, later.runId = daemon.runId := by
  have horderly := orderly_of_reach hs
  obtain ⟨hdaemons, hpid⟩ := horderly.single.owner hdaemon
  refine ⟨hdaemons, hpid, horderly.named daemon hdaemon, horderly.starting_of_daemon hdaemon, ?_, ?_⟩
  · intro me run spawned t hstep
    replace hstep : s.kronictl (.start me run spawned) = some t := hstep
    obtain ⟨_, _, _, -, rfl | ⟨parsed, -, rfl⟩⟩ | ⟨_, _, h, -⟩ | ⟨_, _, _, _, h, -⟩ | ⟨_, _, _, _, h, -⟩ |
      ⟨_, _, _, h, -⟩ | ⟨_, h, -⟩ := kronictl_cases hstep
    · rfl
    · exact startDaemon_of_daemon horderly.single hdaemon _ _ _
    all_goals exact absurd h nofun
  · intro as t has hexec
    obtain ⟨hfile, hlater, -⟩ := (InRun.of_daemon horderly hdaemon).exec horderly has hexec
    exact ⟨hfile, hlater⟩

/-- A workspace without any files. -/
def blank : KronictlWorkspace := { RunWorkspace.blank with starting := [] }

theorem blank_lifecycle : lifecycle.start blank := ⟨rfl, rfl, fun _ => nofun, fun _ => nofun⟩

/-- The first daemon of a workspace. -/
def firstStart : List KronictlAction := [.start 100 none (some 11), .kronid 0 RunWorkspace.firstUuid none]

/-- The daemon is stopped, and the workspace started again. -/
def secondStart : List KronictlAction :=
  [.stop 101 true, .restart 102 none false (some 12), .kronid 0 RunWorkspace.secondUuid none]

theorem kronictl_keeps_run_twice :
    ∃ s t, lifecycle.execWithin Waits blank firstStart = some s ∧
      lifecycle.execWithin Waits s secondStart = some t ∧ t.daemons.map (·.pid) = [12] ∧
      ∀ daemon ∈ t.daemons, daemon.runId = "AAAAAAAAQACAAAAAAAAAAA" := by
  obtain ⟨s, hs, hdaemon⟩ : ∃ s, lifecycle.execWithin Waits blank firstStart = some s ∧
      ⟨11, "AAAAAAAAQACAAAAAAAAAAA"⟩ ∈ s.daemons := ⟨_, rfl, by decide⟩
  obtain ⟨t, ht, hpids⟩ : ∃ t, lifecycle.execWithin Waits s secondStart = some t ∧
      t.daemons.map (·.pid) = [12] := by
    obtain rfl := Option.some.inj hs
    exact ⟨_, rfl, by decide⟩
  have hreach := Machine.Reach.execWithin (.start blank_lifecycle) hs
  exact ⟨s, t, hs, ht, hpids, ((kronictl_keeps_run hreach hdaemon).2.2.2.2.2 _ t (by decide) ht).2⟩

/-- Without waiting: a second `kronid` is spawned beside the first, and leaves its run id. -/
example : ∃ t, lifecycle.exec blank
      [.start 100 none (some 11), .start 101 none (some 12), .kronid 0 RunWorkspace.firstUuid none,
        .kronid 0 RunWorkspace.secondUuid none] = some t ∧
    t.daemons = [⟨11, "AAAAAAAAQACAAAAAAAAAAA"⟩] ∧ t.runIdFile = some "////////T/+//////////w" :=
  ⟨_, rfl, by decide, by decide⟩

/-! ### After an exit -/

theorem settle_of_no_pidFile {me pid : Nat} {running : Nat → Bool} {files : PidFiles} (hvalid : files.Valid)
    (hnone : files.pidFile = none) (hpid : pid < 2 ^ 32) :
    ∃ files', KronidOp.settle me pid running 12 files .pidExists = (files', .run) := by
  obtain ⟨-, htmp⟩ := hvalid
  have hparse : parsePid (toString pid) = some pid := by
    rw [parsePid, trim_of_no_whitespace fun c hc => (digit_ne (isDigit_of_mem_toString hc)).1,
      parseU32_toString hpid]
  obtain ⟨pidFile, tmp, lock, contents⟩ := files
  obtain rfl : pidFile = none := hnone
  cases lock <;> cases tmp <;>
    simp_all [KronidOp.settle, KronidOp.perform, PidFiles.openTmp, PidFiles.write, PidFiles.filePid,
      PidFiles.readPidFile, overwrite, List.getElem?_modify, List.getElem?_set]

theorem valid_perform {me pid : Nat} {running : Nat → Bool} {files files' : PidFiles} {op op' : KronidOp}
    (hvalid : files.Valid) (h : op.perform me pid running files = some (files', op')) : files'.Valid := by
  obtain ⟨hpid, htmp⟩ := hvalid
  cases op with
  | openTmp =>
    obtain ⟨rfl, -⟩ : files.openTmp.1 = files' ∧ _ := by simpa [KronidOp.perform] using h
    unfold PidFiles.openTmp
    cases hfile : files.tmp with
    | none =>
      refine ⟨fun file hmem => ?_, ?_⟩
      · have hlt := hpid file hmem
        rw [List.length_append]
        exact Nat.lt_add_right _ hlt
      · simp
    | some file => exact ⟨by simpa using hpid, by simpa [hfile] using htmp⟩
  | writeTmp file =>
    obtain ⟨rfl, -⟩ : files.write file (toString pid) = files' ∧ _ := by simpa [KronidOp.perform] using h
    exact ⟨by simpa [PidFiles.write] using hpid, by simpa [PidFiles.write] using htmp⟩
  | _ =>
    simp only [KronidOp.perform] at h
    grind [PidFiles.Valid]

theorem valid_settle {me pid : Nat} {running : Nat → Bool} (fuel : Nat) {files : PidFiles} {op : KronidOp}
    (hvalid : files.Valid) : (KronidOp.settle me pid running fuel files op).1.Valid := by
  induction fuel generalizing files op with
  | zero => exact hvalid
  | succ fuel ih =>
    unfold KronidOp.settle
    cases hop : op.perform me pid running files with
    | none => exact hvalid
    | some next => exact ih (valid_perform hvalid hop)

theorem valid_run {workspace : RunWorkspace} (hvalid : workspace.files.Valid) (pid : Nat)
    (run : Option String) (uuid : Uuid) (failure : Option StartFailure) :
    (workspace.run pid run uuid failure).files.Valid := by
  unfold RunWorkspace.run
  split
  · exact hvalid
  · dsimp only
    split_ifs
    · exact hvalid
    · exact hvalid
    all_goals exact valid_settle _ hvalid

theorem valid_removePid {files : PidFiles} (hvalid : files.Valid) : files.removePid.Valid :=
  ⟨fun _ h => absurd h nofun, hvalid.2⟩

theorem valid_startDaemon (hvalid : s.files.Valid) (me : Nat) (run : Option String)
    (spawned : Option Nat) : (s.startDaemon me run spawned).files.Valid := by
  have hspawn : ∀ {s : KronictlWorkspace}, s.files.Valid → (s.spawnKronid run spawned).files.Valid := by
    intro s hfiles
    cases spawned <;> exact hfiles
  unfold startDaemon
  split
  · split_ifs
    · exact hvalid
    · exact hspawn (valid_removePid hvalid)
  · exact hspawn hvalid
  · exact hvalid

theorem valid_stopDaemon (hvalid : s.files.Valid) (me : Nat) (gone : Bool) :
    (s.stopDaemon me gone).files.Valid := by
  unfold KronictlWorkspace.stopDaemon
  split
  · cases gone
    all_goals
      simp only [if_true, Bool.false_eq_true, if_false]
      split_ifs
      · exact hvalid
      all_goals exact valid_removePid hvalid
  · exact hvalid

theorem valid_cleanup {workspace : RunWorkspace} (hvalid : workspace.files.Valid) (pid : Nat)
    (how : KronidExit) : (workspace.cleanup pid how).Valid := by
  cases how with
  | ok | error => exact valid_settle _ hvalid
  | killed => exact hvalid

theorem valid_kronictl {a : KronictlAction} (hvalid : s.files.Valid) (hstep : s.kronictl a = some t) :
    t.files.Valid := by
  obtain ⟨me, run, spawned, -, rfl | ⟨parsed, -, rfl⟩⟩ | ⟨me, gone, -, rfl⟩ |
    ⟨me, run, gone, spawned, -, rfl | ⟨parsed, -, rfl⟩⟩ | ⟨i, uuid, failure, kronid, -, -, rfl⟩ |
    ⟨i, how, daemon, -, -, rfl⟩ | ⟨pids, -, rfl⟩ := kronictl_cases hstep
  · exact hvalid
  · exact valid_startDaemon hvalid ..
  · exact valid_stopDaemon hvalid ..
  · exact hvalid
  · have hstopped := valid_stopDaemon hvalid me gone
    unfold restartDaemon
    split_ifs
    · exact hvalid
    · dsimp only
      split
      · exact valid_startDaemon hstopped ..
      · split
        · exact valid_startDaemon hstopped ..
        · exact hstopped
  · have hseen : { s with starting := s.starting.eraseIdx i }.seen.files.Valid := hvalid
    exact valid_run hseen ..
  · exact valid_cleanup hvalid ..
  · exact hvalid

theorem valid_of_reach (hs : lifecycle.Reach Waits s) : s.files.Valid := by
  refine hs.invariant (I := fun s => s.files.Valid) ?_ ?_
  · exact fun s hstart => hstart.2.2
  · exact fun s a t _ _ hstep h => valid_kronictl h hstep

theorem cleanup_pidFile {workspace : RunWorkspace} {pid : Nat}
    (hpid : workspace.files.filePid = some pid) :
    (workspace.cleanup pid .ok).pidFile = none ∧ (workspace.cleanup pid .error).pidFile = none := by
  have hsome : workspace.files.pidFile.isSome = true := by
    cases hfile : workspace.files.pidFile with
    | none => simp [PidFiles.filePid, PidFiles.readPidFile, hfile] at hpid
    | some file => rfl
  constructor
  · simp [RunWorkspace.cleanup, KronidOp.settle, KronidOp.ahead, KronidOp.perform, hsome, hpid]
  · simp [RunWorkspace.cleanup, KronidOp.settle, KronidOp.ahead, KronidOp.perform, hpid]

theorem runIdOf_parsed {run parsed : Option String} (h : parseRunOption run = some parsed) (uuid : Uuid) :
    runIdOf parsed uuid = runIdOf run uuid := by
  cases run with
  | none =>
    obtain rfl := Option.some.inj h
    rfl
  | some id =>
    obtain ⟨parsed, hparsed, rfl⟩ := Option.map_eq_some_iff.mp h
    obtain ⟨uuid', rfl⟩ := encodeUuid_of_parseRunId hparsed
    rw [runIdOf, runIdOf, parseRunId_encodeUuid, hparsed]

theorem parseRunOption_of_runIdOf {run : Option String} {uuid : Uuid} {runId : String}
    (h : runIdOf run uuid = some runId) : ∃ parsed, parseRunOption run = some parsed := by
  cases run with
  | none => exact ⟨none, rfl⟩
  | some id => exact ⟨some runId, congrArg (Option.map some) h⟩

theorem run_of_no_pidFile {workspace : RunWorkspace} (hnone : workspace.daemons = [])
    (hvalid : workspace.files.Valid) (hpidFile : workspace.files.pidFile = none) {pid : Nat}
    (hpid : pid < 2 ^ 32) {run : Option String} {uuid : Uuid} {runId : String}
    (hrun : runIdOf run uuid = some runId) :
    (workspace.run pid run uuid none).daemons = [⟨pid, runId⟩] := by
  obtain ⟨written, hwritten⟩ : ∃ written,
      { workspace with runIdFile := some runId }.writePidFile pid = (written, .run) :=
    settle_of_no_pidFile hvalid hpidFile hpid
  obtain ⟨files, runIdFile, daemons, others⟩ := workspace
  obtain rfl : daemons = [] := hnone
  simp [RunWorkspace.run, hrun, hwritten]

theorem comes_to_run (hnone : s.daemons = []) (hvalid : s.files.Valid) (hpidFile : s.files.pidFile = none)
    {kronid : SpawnedKronid} (hstarting : s.starting = [kronid]) (hpid : kronid.pid < 2 ^ 32) {uuid : Uuid}
    {runId : String} (hrun : runIdOf kronid.run uuid = some runId) {pids : List Nat}
    (hexec : lifecycle.exec s [.others pids, .kronid 0 uuid none] = some t) :
    t.daemons = [⟨kronid.pid, runId⟩] := by
  simp only [Machine.exec, lifecycle, Option.bind_eq_some_iff, Option.some.injEq] at hexec
  obtain ⟨s₁, hothers, _, hkronid, rfl⟩ := hexec
  obtain rfl : s₁ = { s with others := pids } := by
    simpa using kronictl_cases hothers
  obtain ⟨first, hfirst, hkronid⟩ := Option.bind_eq_some_iff.mp hkronid
  obtain rfl := Option.some.inj hkronid
  obtain rfl : first = kronid := by simpa [hstarting, eq_comm] using hfirst
  have hseen : ({ s with others := pids, starting := s.starting.eraseIdx 0 } : KronictlWorkspace).seen.daemons =
      [] := hnone
  exact run_of_no_pidFile hseen hvalid hpidFile hpid hrun

/-- A daemon has exited, other programs have come and gone, and `kronictl start` is called: a `kronid` is
spawned, which comes to run unless something fails in its start, except when the daemon before was killed and
its pid belongs to another process by now. -/
theorem starts_after_exit (hs : lifecycle.Reach Waits s) {daemon : KronidDaemon} (hdaemon : daemon ∈ s.daemons)
    {how : KronidExit} {pids : List Nat} {me : Nat} {run : Option String} {pid : Nat} (uuid : Uuid)
    {runId : String} (hrun : runIdOf run uuid = some runId)
    (hexec : lifecycle.exec s [.exit 0 how, .others pids, .start me run (some pid)] = some t) :
    t.daemons = [] ∧ (t.starting = [] ↔ how = .killed ∧ (daemon.pid ∈ pids ∨ me = daemon.pid)) ∧
      (t.starting ≠ [] → t.starting.map (·.pid) = [pid] ∧
        ∀ later u, lifecycle.exec t [.others later, .kronid 0 uuid none] = some u →
          u.daemons = [⟨pid, runId⟩]) := by
  have horderly := orderly_of_reach hs
  obtain ⟨hdaemons, hpid⟩ := horderly.single.owner hdaemon
  have hwaits := horderly.starting_of_daemon hdaemon
  have hvalid := valid_of_reach hs
  simp only [Machine.exec, lifecycle, Option.bind_eq_some_iff, Option.some.injEq] at hexec
  obtain ⟨s₁, hexit, s₂, hothers, t', hstart, rfl⟩ := hexec
  have hvalid₂ := valid_kronictl (valid_kronictl hvalid hexit) hothers
  obtain ⟨parsed, hparsed⟩ := parseRunOption_of_runIdOf hrun
  rw [← runIdOf_parsed hparsed] at hrun
  have hs₁ : s₁ = { s with files := s.cleanup daemon.pid how, daemons := [] } := by
    simpa [hdaemons] using kronictl_cases hexit
  have hs₂ : s₂ = { s₁ with others := pids } := by
    simpa using kronictl_cases hothers
  have hnone : s₂.daemons = [] := by rw [hs₂, hs₁]
  have hstarting : s₂.starting = [] := by rw [hs₂, hs₁, hwaits]
  have hfiles : s₂.files = s.cleanup daemon.pid how := by rw [hs₂, hs₁]
  simp only [kronictl] at hstart
  split_ifs at hstart with hdistinct
  have hfresh : pid < 2 ^ 32 := (hdistinct.2 pid rfl).1.1
  simp only [hparsed, Option.some.injEq] at hstart
  subst hstart
  have hspawned : ∀ {files : PidFiles}, files.Valid → files.pidFile = none →
      (({ s₂ with files } : KronictlWorkspace).spawnKronid parsed (some pid)).starting.map (·.pid) = [pid] ∧
        ∀ later u, lifecycle.exec (({ s₂ with files } : KronictlWorkspace).spawnKronid parsed (some pid))
          [.others later, .kronid 0 uuid none] = some u → u.daemons = [⟨pid, runId⟩] := by
    intro files hfilesValid hpidFile
    obtain ⟨after, hafter, hstarting'⟩ : ∃ after : KronictlWorkspace,
        { s₂ with files }.spawnKronid parsed (some pid) = after ∧ after.starting = [⟨pid, parsed⟩] := by
      refine ⟨_, rfl, ?_⟩
      rw [spawnKronid, hstarting, List.nil_append]
    have hdaemons' : after.daemons = [] := hafter ▸ hnone
    have hvalid' : after.files.Valid := hafter ▸ hfilesValid
    have hpidFile' : after.files.pidFile = none := hafter ▸ hpidFile
    rw [hafter, hstarting']
    exact ⟨rfl, fun later u hu => comes_to_run hdaemons' hvalid' hpidFile' hstarting' hfresh hrun hu⟩
  by_cases hkilled : how = .killed
  · subst hkilled
    have hread : s₂.files.readPid = some (some daemon.pid) := by
      rw [hfiles]
      exact readPid_of_filePid hpid
    have hrunning : s₂.isProcessRunning me daemon.pid = true ↔ daemon.pid ∈ pids ∨ me = daemon.pid := by
      simp [isProcessRunning, RunWorkspace.isProcessRunning, hs₂, hs₁, hwaits]
    by_cases htaken : daemon.pid ∈ pids ∨ me = daemon.pid
    · have hsame : s₂.startDaemon me parsed (some pid) = s₂ := by
        simp [startDaemon, hread, hrunning.mpr htaken]
      rw [hsame]
      exact ⟨hnone, iff_of_true hstarting ⟨rfl, htaken⟩, fun hne => absurd hstarting hne⟩
    · have hstopped : s₂.isProcessRunning me daemon.pid = false :=
        Bool.eq_false_iff.mpr fun h => htaken (hrunning.mp h)
      have hstart : s₂.startDaemon me parsed (some pid) = s₂.removePid.spawnKronid parsed (some pid) := by
        simp [startDaemon, hread, hstopped]
      have hgood := hspawned (valid_removePid hvalid₂) rfl
      rw [hstart]
      exact ⟨hnone, iff_of_false (by simp [spawnKronid]) fun h => htaken h.2, fun _ => hgood⟩
  · have hpidFile : s₂.files.pidFile = none := by
      rw [hfiles]
      cases how with
      | ok => exact (cleanup_pidFile hpid).1
      | error => exact (cleanup_pidFile hpid).2
      | killed => exact absurd rfl hkilled
    have hread : s₂.files.readPid = some none := by simp [PidFiles.readPid, hpidFile]
    have hstart : s₂.startDaemon me parsed (some pid) = s₂.spawnKronid parsed (some pid) := by
      rw [startDaemon, hread]
    have hgood := hspawned hvalid₂ hpidFile
    rw [hstart]
    exact ⟨hnone, iff_of_false (by simp [spawnKronid]) fun h => hkilled h.1, fun _ => hgood⟩

/-- The daemon is killed, and the next one starts. -/
theorem starts_after_exit_killed :
    ∃ s t u, lifecycle.execWithin Waits blank firstStart = some s ∧
      lifecycle.exec s [.exit 0 .killed, .others [], .start 101 none (some 12)] = some t ∧
      lifecycle.exec t [.others [13], .kronid 0 RunWorkspace.secondUuid none] = some u ∧
      u.daemons = [⟨12, encodeUuid RunWorkspace.secondUuid⟩] := by
  obtain ⟨s, hs, hdaemon⟩ : ∃ s, lifecycle.execWithin Waits blank firstStart = some s ∧
      ⟨11, "AAAAAAAAQACAAAAAAAAAAA"⟩ ∈ s.daemons := ⟨_, rfl, by decide⟩
  obtain ⟨t, ht⟩ : ∃ t, lifecycle.exec s
      [.exit 0 .killed, .others [], .start 101 none (some 12)] = some t := by
    obtain rfl := Option.some.inj hs
    exact ⟨_, rfl⟩
  obtain ⟨u, hu⟩ : ∃ u, lifecycle.exec t [.others [13], .kronid 0 RunWorkspace.secondUuid none] = some u := by
    obtain rfl := Option.some.inj hs
    obtain rfl := Option.some.inj ht
    exact ⟨_, rfl⟩
  have hreach := Machine.Reach.execWithin (.start blank_lifecycle) hs
  obtain ⟨-, hrefused, hspawned⟩ := starts_after_exit hreach hdaemon RunWorkspace.secondUuid rfl ht
  have hne : t.starting ≠ [] := fun hnone => by simpa using (hrefused.mp hnone).2
  exact ⟨s, t, u, hs, ht, hu, (hspawned hne).2 _ u hu⟩

end KronictlWorkspace

end Kronical
