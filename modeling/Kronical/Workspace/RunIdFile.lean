import Kronical.Lib.Machine
import Kronical.Workspace.PidFile
import Kronical.Workspace.RunId

/-!
# The run id file

Daemons are started in a workspace one after another and exit. A start writes its run id into the run id
file first and looks for a running daemon afterwards: when there is one, the start fails, but its run id
stays (`failed_start_renames_run`). The file names the run of the daemon that owns the pid file as long
as nobody is started beside it but with its own run id (`names_run_iff_resumes`).
-/

namespace Kronical

structure KronidDaemon where
  pid : Nat
  runId : String
  deriving DecidableEq, Repr

structure RunWorkspace where
  files : PidFiles
  /-- What is in the run id file, if it is there. -/
  runIdFile : Option String
  /-- The daemons that run. -/
  daemons : List KronidDaemon
  /-- The pids of the other programs that are running. -/
  others : List Nat
  deriving DecidableEq, Repr

/-- What fails in a start before it comes to the pid file: the workspace directory, or the configuration
that names it, or the logging. -/
inductive StartFailure
  | workspaceDir
  | logging
  deriving DecidableEq, Repr

/-- How a daemon exits: without an error, with one, or killed. -/
inductive KronidExit
  | ok
  | error
  | killed
  deriving DecidableEq, Repr

inductive RunAction
  | start (pid : Nat) (run : Option String) (uuid : Uuid) (failure : Option StartFailure)
  | exit (i : Nat) (how : KronidExit)
  | others (pids : List Nat)
  deriving DecidableEq, Repr

/-- The run id of a process that is started with `--run` or without. -/
def runIdOf (run : Option String) (uuid : Uuid) : Option String :=
  match run with
  | some id => parseRunId id
  | none => some (encodeUuid uuid)

/-- `load_previous_run_id`; `none` is an error. -/
def loadPreviousRunId (runIdFile : Option String) : Option (Option String) :=
  match runIdFile with
  | none => some none
  | some raw =>
    let trimmed := trim raw
    if trimmed.isEmpty then some none else (parseRunId (String.ofList trimmed)).map some

namespace RunWorkspace

/-- `is_process_running`, for the process `me`. -/
def isProcessRunning (self : RunWorkspace) (me pid : Nat) : Bool :=
  self.others.contains pid || self.daemons.any (·.pid = pid) || me = pid

/-- `write_pid_file` and `verify_pid_file`. -/
def writePidFile (self : RunWorkspace) (pid : Nat) : PidFiles × KronidOp :=
  KronidOp.settle pid pid (self.isProcessRunning pid) (KronidOp.ahead .pidExists) self.files .pidExists

/-- `run` up to `verify_pid_file`. -/
def run (self : RunWorkspace) (pid : Nat) (run : Option String) (uuid : Uuid)
    (failure : Option StartFailure) : RunWorkspace :=
  match runIdOf run uuid with
  | none => self
  | some runId =>
    if failure = some .workspaceDir then self
    else
      let self := { self with runIdFile := some runId }
      if failure = some .logging then self
      else
        let (files, op) := self.writePidFile pid
        { self with
          files := files
          daemons := if op = .run then self.daemons ++ [{ pid := pid, runId := runId }]
            else self.daemons }

/-- What a daemon does to the files when it exits. -/
def cleanup (self : RunWorkspace) (pid : Nat) : KronidExit → PidFiles
  | .ok => (KronidOp.settle pid pid (self.isProcessRunning pid) (KronidOp.ahead .cleanupExists)
      self.files .cleanupExists).1
  | .error => (KronidOp.settle pid pid (self.isProcessRunning pid) (KronidOp.ahead .guardRead)
      self.files .guardRead).1
  | .killed => self.files

def step (self : RunWorkspace) : RunAction → Option RunWorkspace
  | .start pid run uuid failure =>
    if pid < 2 ^ 32 ∧ pid ∉ self.others ∧ ∀ daemon ∈ self.daemons, daemon.pid ≠ pid then
      some (self.run pid run uuid failure)
    else none
  | .exit i how => do
    let daemon ← self.daemons[i]?
    some { self with files := self.cleanup daemon.pid how, daemons := self.daemons.eraseIdx i }
  | .others pids =>
    if ∀ daemon ∈ self.daemons, daemon.pid ∉ pids then some { self with others := pids } else none

/-- At the start no daemon runs, whatever there is in the workspace. -/
def machine : Machine RunWorkspace RunAction where
  start := fun s : RunWorkspace => s.daemons = []
  step := step

/-- The run id file names the run of the daemon that owns the pid file. -/
def NamesRun (self : RunWorkspace) : Prop :=
  ∀ daemon ∈ self.daemons, self.files.filePid = some daemon.pid → self.runIdFile = some daemon.runId

/-- A start that comes to the run id file while a daemon owns the pid file has its run id. -/
def Resumes (self : RunWorkspace) : RunAction → Prop
  | .start _ run uuid failure => failure ≠ some .workspaceDir → ∀ runId ∈ runIdOf run uuid,
      ∀ daemon ∈ self.daemons, self.files.filePid = some daemon.pid → runId = daemon.runId
  | _ => True

instance (self : RunWorkspace) : ∀ a, Decidable (self.Resumes a)
  | .start _ run uuid failure => inferInstanceAs (Decidable (failure ≠ some .workspaceDir →
      ∀ runId ∈ runIdOf run uuid, ∀ daemon ∈ self.daemons,
        self.files.filePid = some daemon.pid → runId = daemon.runId))
  | .exit _ _ | .others _ => .isTrue trivial

/-- At most one daemon runs, and it owns the pid file. -/
def Single (self : RunWorkspace) : Prop :=
  self.daemons = [] ∨ ∃ daemon, self.daemons = [daemon] ∧ self.files.filePid = some daemon.pid

variable {s t : RunWorkspace}

/-! ### The run id file and its reader -/

theorem loadPreviousRunId_encodeUuid (uuid : Uuid) :
    loadPreviousRunId (some (encodeUuid uuid)) = some (some (encodeUuid uuid)) := by
  have hne : (encodeUuid uuid).toList ≠ [] := encodeUuid_ne_nil uuid
  have htrim : trim (encodeUuid uuid) = (encodeUuid uuid).toList := by
    refine trim_of_no_whitespace fun c hc => ?_
    have hall : alphabetStandard.all (!isWhitespace ·) = true := by decide
    have hno := List.all_eq_true.mp hall c (mem_alphabet_of_mem_encodeUuid hc)
    simpa using hno
  simp [loadPreviousRunId, htrim, hne, parseRunId_encodeUuid]

/-- Daemons have run ids of UUIDs. -/
def RunIds (self : RunWorkspace) : Prop := ∀ daemon ∈ self.daemons, ∃ uuid, daemon.runId = encodeUuid uuid

/-! ### Starts -/

theorem writePidFile_of_owner {pid : Nat} {daemon : KronidDaemon} (hdaemon : daemon ∈ s.daemons)
    (hpid : s.files.filePid = some daemon.pid) : s.writePidFile pid = (s.files, .ended) := by
  have hrunning : s.isProcessRunning pid daemon.pid = true := by
    have : s.daemons.any (·.pid = daemon.pid) = true :=
      List.any_eq_true.mpr ⟨daemon, hdaemon, by simp⟩
    simp [isProcessRunning, this]
  exact KronidOp.settle_of_running hpid hrunning (by decide)

theorem run_of_owner {pid : Nat} {run : Option String} {uuid : Uuid} {failure : Option StartFailure}
    {daemon : KronidDaemon} (hdaemon : daemon ∈ s.daemons) (hpid : s.files.filePid = some daemon.pid) :
    s.run pid run uuid failure =
      if failure = some .workspaceDir then s
      else { s with runIdFile := (runIdOf run uuid).or s.runIdFile } := by
  have hwrite (runIdFile : Option String) :
      { s with runIdFile := runIdFile }.writePidFile pid = (s.files, .ended) :=
    writePidFile_of_owner hdaemon hpid
  unfold RunWorkspace.run
  cases hid : runIdOf run uuid with
  | none => simp
  | some runId =>
    by_cases hdir : failure = some .workspaceDir
    · simp [hdir]
    · by_cases hlogging : failure = some .logging
      · simp [hlogging]
      · simp [hdir, hlogging, hwrite]

theorem run_of_no_daemon (pid : Nat) (run : Option String) (uuid : Uuid)
    (failure : Option StartFailure) (hnone : s.daemons = []) :
    (s.run pid run uuid failure).daemons = [] ∨
      ∃ runId ∈ runIdOf run uuid,
        (s.run pid run uuid failure).daemons = [⟨pid, runId⟩] ∧
        (s.run pid run uuid failure).files.filePid = some pid ∧
        (s.run pid run uuid failure).runIdFile = some runId := by
  unfold RunWorkspace.run
  cases hid : runIdOf run uuid with
  | none => exact .inl hnone
  | some runId =>
    dsimp only
    split_ifs with hdir hlogging hrun
    · exact .inl hnone
    · exact .inl hnone
    · refine .inr ⟨runId, rfl, by simp [hnone], ?_, rfl⟩
      have hpidExists : KronidOp.pidExists ≠ .run := nofun
      exact KronidOp.settle_run hpidExists (Prod.ext rfl hrun)
    · exact .inl hnone

/-! ### Runs -/

theorem step_cases {a : RunAction} (h : s.step a = some t) :
    (∃ pid run uuid failure, a = .start pid run uuid failure ∧ t = s.run pid run uuid failure) ∨
      (∃ i how daemon, a = .exit i how ∧ s.daemons[i]? = some daemon ∧
        t.daemons = s.daemons.eraseIdx i) ∨
      ∃ pids, a = .others pids ∧ t = { s with others := pids } := by
  cases a with
  | start pid run uuid failure =>
    simp only [step] at h
    split_ifs at h
    exact .inl ⟨pid, run, uuid, failure, rfl, (Option.some.inj h).symm⟩
  | exit i how =>
    obtain ⟨daemon, hdaemon, h⟩ := Option.bind_eq_some_iff.mp h
    obtain rfl := Option.some.inj h
    exact .inr (.inl ⟨i, how, daemon, rfl, hdaemon, rfl⟩)
  | others pids =>
    simp only [step] at h
    split_ifs at h
    exact .inr (.inr ⟨pids, rfl, (Option.some.inj h).symm⟩)

theorem Single.owner {daemon : KronidDaemon} (h : s.Single) (hdaemon : daemon ∈ s.daemons) :
    s.daemons = [daemon] ∧ s.files.filePid = some daemon.pid := by
  obtain hnone | ⟨_, hdaemons, hpid⟩ := h
  · simp [hnone] at hdaemon
  · rw [hdaemons] at hdaemon
    obtain rfl := List.mem_singleton.mp hdaemon
    exact ⟨hdaemons, hpid⟩

theorem Single.exit {i : Nat} {daemon : KronidDaemon} (h : s.Single) (hi : s.daemons[i]? = some daemon)
    (ht : t.daemons = s.daemons.eraseIdx i) : t.daemons = [] := by
  obtain ⟨hdaemons, _⟩ := h.owner (List.mem_of_getElem? hi)
  rw [hdaemons] at hi ht
  obtain ⟨hlt, _⟩ := List.getElem?_eq_some_iff.mp hi
  obtain rfl : i = 0 := by simpa using hlt
  exact ht

/-- How a step ends in a workspace with at most one daemon: without a daemon, with one that was started,
with the one that was there, or with that one and the run id of a start that failed. -/
inductive Outcome (s : RunWorkspace) : RunAction → RunWorkspace → Prop
  | empty {a t} (hdaemons : t.daemons = []) : Outcome s a t
  | started {pid run uuid failure runId t} (hid : runIdOf run uuid = some runId)
      (hdaemons : t.daemons = [⟨pid, runId⟩]) (hpid : t.files.filePid = some pid)
      (hfile : t.runIdFile = some runId) : Outcome s (.start pid run uuid failure) t
  | kept {a t owner} (howner : s.daemons = [owner]) (hpid : s.files.filePid = some owner.pid)
      (hdaemons : t.daemons = s.daemons) (hfiles : t.files = s.files)
      (hfile : t.runIdFile = s.runIdFile) : Outcome s a t
  | refused {pid run uuid failure runId t owner} (howner : s.daemons = [owner])
      (hpid : s.files.filePid = some owner.pid) (hdir : failure ≠ some .workspaceDir)
      (hid : runIdOf run uuid = some runId) (hdaemons : t.daemons = s.daemons)
      (hfiles : t.files = s.files) (hfile : t.runIdFile = some runId) :
      Outcome s (.start pid run uuid failure) t

theorem Single.outcome {a : RunAction} (h : s.Single) (hstep : s.step a = some t) :
    Outcome s a t := by
  obtain ⟨pid, run, uuid, failure, rfl, rfl⟩ | ⟨i, _, daemon, _, hi, ht⟩ | ⟨pids, _, rfl⟩ :=
    step_cases hstep
  · obtain hnone | ⟨owner, howner, hpid⟩ := h
    · obtain hnone' | ⟨runId, hid, hdaemons, hpid, hfile⟩ :=
        run_of_no_daemon pid run uuid failure hnone
      · exact .empty hnone'
      · exact .started hid hdaemons hpid hfile
    · have hmem : owner ∈ s.daemons := by simp [howner]
      rw [run_of_owner hmem hpid]
      split_ifs with hdir
      · exact .kept howner hpid rfl rfl rfl
      · cases hid : runIdOf run uuid with
        | none => exact .kept howner hpid rfl rfl rfl
        | some runId => exact .refused howner hpid hdir hid rfl rfl rfl
  · exact .empty (h.exit hi ht)
  · obtain hnone | ⟨owner, howner, hpid⟩ := h
    · exact .empty hnone
    · exact .kept howner hpid rfl rfl rfl

theorem Single.step {a : RunAction} (h : s.Single) (hstep : s.step a = some t) : t.Single := by
  cases h.outcome hstep with
  | empty hdaemons => exact .inl hdaemons
  | started _ hdaemons hpid _ => exact .inr ⟨_, hdaemons, hpid⟩
  | kept howner hpid hdaemons hfiles _ => exact .inr ⟨_, hdaemons.trans howner, hfiles ▸ hpid⟩
  | refused howner hpid _ _ hdaemons hfiles _ =>
    exact .inr ⟨_, hdaemons.trans howner, hfiles ▸ hpid⟩

theorem single_of_reach (hs : machine.Reachable s) : s.Single :=
  hs.invariant (fun _ hstart => .inl hstart) fun _ _ _ _ _ hstep h => h.step hstep

theorem encodeUuid_of_runIdOf {run : Option String} {uuid : Uuid} {runId : String}
    (h : runIdOf run uuid = some runId) : ∃ uuid, runId = encodeUuid uuid := by
  cases run with
  | none => exact ⟨uuid, (Option.some.inj h).symm⟩
  | some id => exact encodeUuid_of_parseRunId h

theorem NamesRun.step {a : RunAction} (hsingle : s.Single) (hresumes : s.Resumes a)
    (hstep : s.step a = some t) (h : s.NamesRun) : t.NamesRun := by
  intro daemon hdaemon hpid'
  cases hsingle.outcome hstep with
  | empty hdaemons => simp [hdaemons] at hdaemon
  | started _ hdaemons _ hfile =>
    -- The daemon that was started has written its run id.
    rw [hdaemons] at hdaemon
    obtain rfl := List.mem_singleton.mp hdaemon
    exact hfile
  | kept _ _ hdaemons hfiles hfile =>
    rw [hdaemons] at hdaemon
    rw [hfiles] at hpid'
    exact hfile.trans (h daemon hdaemon hpid')
  | @refused _ _ _ _ runId _ _ _ _ hdir hid hdaemons hfiles hfile =>
    -- The start that failed has written the run id that was there.
    rw [hdaemons] at hdaemon
    rw [hfiles] at hpid'
    rw [hfile, hresumes hdir runId hid daemon hdaemon hpid']

theorem not_namesRun_of_not_resumes {a : RunAction} (hstep : s.step a = some t)
    (hresumes : ¬ s.Resumes a) : ¬ t.NamesRun := by
  obtain ⟨pid, run, uuid, failure, rfl, rfl⟩ | ⟨_, _, _, rfl, _⟩ | ⟨_, rfl, _⟩ := step_cases hstep
  · simp only [Resumes, not_forall] at hresumes
    obtain ⟨hdir, runId, hid, daemon, hdaemon, hpid, hne⟩ := hresumes
    intro h
    rw [run_of_owner hdaemon hpid, if_neg hdir] at h
    have hfile := h daemon hdaemon hpid
    rw [Option.mem_def.mp hid] at hfile
    exact hne (Option.some.inj hfile)
  · exact absurd trivial hresumes
  · exact absurd trivial hresumes

theorem namesRun_of_resumes (hs : machine.Reach Resumes s) : s.NamesRun := by
  refine hs.invariant ?_ ?_
  · intro s hstart daemon hdaemon
    simp [show s.daemons = [] from hstart] at hdaemon
  · intro s a t hs hresumes hstep h
    exact h.step (single_of_reach hs.reachable) hresumes hstep

/-- In a run in which nobody is started beside the owner of the pid file but with its run id, the run id
file names the run of that owner in every state; and it does not after a start with another run id. -/
theorem names_run_iff_resumes (s : RunWorkspace) :
    (machine.Reach Resumes s → s.NamesRun) ∧
      ∀ a t, machine.step s a = some t → ¬ s.Resumes a → ¬ t.NamesRun :=
  ⟨namesRun_of_resumes, fun _ _ hstep hresumes => not_namesRun_of_not_resumes hstep hresumes⟩

/-- A workspace without any files. -/
def blank : RunWorkspace := { files := .empty, runIdFile := none, daemons := [], others := [] }

theorem blank_start : machine.start blank := rfl

/-- Two random UUIDs (version 4). -/
def firstUuid : Uuid := ⟨List.replicate 6 0 ++ [0x40, 0, 0x80] ++ List.replicate 7 0, rfl⟩

def secondUuid : Uuid := ⟨List.replicate 6 255 ++ [0x4f, 255, 0xbf] ++ List.replicate 7 255, rfl⟩

/-- A second start beside a running daemon has its run id. -/
theorem names_run_iff_resumes_twice :
    ∃ s, machine.execWithin Resumes blank
        [.start 11 none firstUuid none, .start 12 (some "AAAAAAAAQACAAAAAAAAAAA==") secondUuid none] = some s ∧
      s.daemons = [⟨11, "AAAAAAAAQACAAAAAAAAAAA"⟩] ∧ s.NamesRun := by
  obtain ⟨s, hs, hdaemons⟩ : ∃ s, machine.execWithin Resumes blank
        [.start 11 none firstUuid none, .start 12 (some "AAAAAAAAQACAAAAAAAAAAA==") secondUuid none] =
          some s ∧
      s.daemons = [⟨11, "AAAAAAAAQACAAAAAAAAAAA"⟩] := ⟨_, rfl, by decide⟩
  exact ⟨s, hs, hdaemons, (names_run_iff_resumes s).1 (Machine.Reach.execWithin (.start blank_start) hs)⟩

/-- The second start fails, since the first daemon runs, and has written its run id. -/
theorem failed_start_renames_run : ∃ s, machine.Reachable s ∧ ¬ s.NamesRun := by
  obtain ⟨s, hs, hdaemons, hpid, hfile⟩ : ∃ s, machine.exec blank
        [.start 11 none firstUuid none, .start 12 none secondUuid none] = some s ∧
      s.daemons = [⟨11, "AAAAAAAAQACAAAAAAAAAAA"⟩] ∧ s.files.filePid = some 11 ∧
      s.runIdFile = some "////////T/+//////////w" := ⟨_, rfl, by decide, by decide, by decide⟩
  refine ⟨s, Machine.Reachable.exec (.start blank_start) hs, fun h => ?_⟩
  have := h _ (by rw [hdaemons]; exact List.mem_singleton.mpr rfl) hpid
  simp [hfile] at this

end RunWorkspace

end Kronical
