import Kronical.Lib.Machine
import Kronical.Workspace.PidFile

/-!
# One daemon in a workspace

Processes that start, run and stop in one workspace, one file operation at a time. A process that finds
the lock file but no pid file takes the lock for a leftover and removes it, though its creator may be
about to write its pid: then two processes run (`two_owners`). As long as nobody removes the lock of a
process that relies on it, at most one does (`one_owner_of_careful`).
-/

namespace Kronical

structure KronidProcess where
  pid : Nat
  op : KronidOp
  deriving DecidableEq, Repr

structure Workspace where
  files : PidFiles
  /-- The processes started so far. -/
  processes : List KronidProcess
  /-- The pids of the other programs that are running. -/
  others : List Nat
  deriving DecidableEq, Repr

/-- A process is started, makes its next step or has to stop, with an error or without; or other
programs come and go. -/
inductive WorkspaceAction
  | spawn (pid : Nat)
  | perform (i : Nat)
  | stop (i : Nat) (error : Bool)
  | others (pids : List Nat)
  deriving DecidableEq, Repr

namespace Workspace

/-- `is_process_running`. -/
def isProcessRunning (self : Workspace) (pid : Nat) : Bool :=
  self.others.contains pid || self.processes.any fun process => process.op ≠ .ended ∧ process.pid = pid

def step (self : Workspace) : WorkspaceAction → Option Workspace
  | .spawn pid =>
    if pid < 2 ^ 32 ∧ self.isProcessRunning pid = false then
      some { self with processes := self.processes ++ [{ pid := pid, op := .pidExists }] }
    else none
  | .perform i => do
    let process ← self.processes[i]?
    let (files, op) ← process.op.perform i process.pid self.isProcessRunning self.files
    some { self with files := files, processes := self.processes.set i { process with op := op } }
  | .stop i error => do
    let process ← self.processes[i]?
    if process.op = .run then
      let op := if error then .guardRead else .cleanupExists
      some { self with processes := self.processes.set i { process with op := op } }
    else none
  | .others pids =>
    if ∀ process ∈ self.processes, process.op ≠ .ended → process.pid ∉ pids then
      some { self with others := pids }
    else none

/-- At the start no process has created the lock file, if there is one. -/
def machine : Machine Workspace WorkspaceAction where
  start := fun (s : Workspace) => s.processes = [] ∧ ∀ i, s.files.lock ≠ some (some i)
  step := step

/-- At most one process has been told that the pid file is its own. -/
def OneOwner (self : Workspace) : Prop :=
  ∀ (i j : Nat) (p q : KronidProcess), self.processes[i]? = some p → self.processes[j]? = some q →
    p.op.owns = true → q.op.owns = true → i = j

/-- The process that has created the lock file there is, if it relies on it. -/
def holder (self : Workspace) : Option Nat := do
  let i ← self.files.lock.join
  let process ← self.processes[i]?
  if process.op.relies then some i else none

/-- Nobody removes the lock file that another process relies on. -/
def Careful (self : Workspace) : WorkspaceAction → Prop
  | .perform i => ∀ process ∈ self.processes[i]?, process.op.removesLock = true →
      self.holder = none ∨ self.holder = some i
  | _ => True

instance (self : Workspace) : ∀ a, Decidable (self.Careful a)
  | .perform i => inferInstanceAs (Decidable (∀ process ∈ self.processes[i]?,
      process.op.removesLock = true → self.holder = none ∨ self.holder = some i))
  | .spawn _ | .stop _ _ | .others _ => .isTrue trivial

/-- Whoever relies on the lock file has created the one there is. -/
def Locked (self : Workspace) : Prop :=
  ∀ (i : Nat) (process : KronidProcess), self.processes[i]? = some process → process.op.relies = true →
    self.files.lock = some (some i)

variable {s t : Workspace}

theorem step_cases {a : WorkspaceAction} (h : s.step a = some t) :
    (∃ i process op, s.processes[i]? = some process ∧ a = .perform i ∧
      process.op.perform i process.pid s.isProcessRunning s.files = some (t.files, op) ∧
      t.processes = s.processes.set i { process with op := op }) ∨
    (∃ i process op, s.processes[i]? = some process ∧ process.op = .run ∧ op.owns = true ∧
      t.files = s.files ∧ t.processes = s.processes.set i { process with op := op }) ∨
    (∃ process, process.op = .pidExists ∧ t.files = s.files ∧
      t.processes = s.processes ++ [process]) ∨
    (t.files = s.files ∧ t.processes = s.processes) := by
  cases a with
  | spawn pid =>
    simp only [step] at h
    split_ifs at h
    obtain rfl := Option.some.inj h
    exact .inr (.inr (.inl ⟨_, rfl, rfl, rfl⟩))
  | perform i =>
    simp only [step] at h
    obtain ⟨process, hprocess, h⟩ := Option.bind_eq_some_iff.mp h
    obtain ⟨⟨files, op⟩, hop, h⟩ := Option.bind_eq_some_iff.mp h
    obtain rfl := Option.some.inj h
    exact .inl ⟨i, process, op, hprocess, rfl, hop, rfl⟩
  | stop i error =>
    simp only [step] at h
    obtain ⟨process, hprocess, h⟩ := Option.bind_eq_some_iff.mp h
    split_ifs at h with hrun
    all_goals
      obtain rfl := Option.some.inj h
      exact .inr (.inl ⟨i, process, _, hprocess, hrun, rfl, rfl, rfl⟩)
  | others pids =>
    simp only [step] at h
    split_ifs at h
    obtain rfl := Option.some.inj h
    exact .inr (.inr (.inr ⟨rfl, rfl⟩))

theorem getElem?_set_op {processes : List KronidProcess} {i k : Nat} {process q : KronidProcess}
    {op : KronidOp} (hq : (processes.set i { process with op := op })[k]? = some q) :
    k = i ∧ q.op = op ∨ k ≠ i ∧ processes[k]? = some q := by
  by_cases hk : k = i
  · subst hk
    rw [List.getElem?_set] at hq
    grind
  · rw [List.getElem?_set_ne (Ne.symm hk)] at hq
    exact .inr ⟨hk, hq⟩

theorem holder_of_relies {i : Nat} {process : KronidProcess} (h : s.Locked)
    (hprocess : s.processes[i]? = some process) (hrelies : process.op.relies = true) :
    s.holder = some i := by
  have hlock := h i process hprocess hrelies
  simp [holder, hlock, hprocess, hrelies]

theorem Locked.perform {i : Nat} {process : KronidProcess} {op : KronidOp} (h : s.Locked)
    (hcareful : s.Careful (.perform i)) (hprocess : s.processes[i]? = some process)
    (hop : process.op.perform i process.pid s.isProcessRunning s.files = some (t.files, op))
    (ht : t.processes = s.processes.set i { process with op := op }) : t.Locked := by
  intro k q hq hrelies
  obtain ⟨hlock, hkept⟩ | ⟨hnone, hsome⟩ | ⟨hremoves, _, hended⟩ := KronidOp.perform_lock hop
  · -- The lock file stays, and whoever relies on it did so before.
    rw [hlock]
    obtain ⟨rfl, rfl⟩ | ⟨_, hq⟩ := getElem?_set_op (ht ▸ hq)
    · exact h k process hprocess (hkept hrelies)
    · exact h k q hq hrelies
  · -- There was no lock file, so nobody relied on it.
    obtain ⟨rfl, rfl⟩ | ⟨_, hq⟩ := getElem?_set_op (ht ▸ hq)
    · exact hsome
    · have := h k q hq hrelies
      simp [hnone] at this
  · -- Only the process itself relied on the lock file it removes.
    obtain ⟨rfl, rfl⟩ | ⟨hk, hq⟩ := getElem?_set_op (ht ▸ hq)
    · simp [hended] at hrelies
    · have hholder := holder_of_relies h hq hrelies
      have := hcareful process hprocess hremoves
      grind

theorem Locked.step {a : WorkspaceAction} (h : s.Locked) (hcareful : s.Careful a)
    (hstep : s.step a = some t) : t.Locked := by
  obtain ⟨i, process, op, hprocess, rfl, hop, ht⟩ | ⟨i, process, op, hprocess, hrun, _, hfiles, ht⟩ |
    ⟨process, hnew, hfiles, ht⟩ | ⟨hfiles, ht⟩ := step_cases hstep
  · exact h.perform hcareful hprocess hop ht
  · intro k q hq hrelies
    rw [hfiles]
    obtain ⟨rfl, rfl⟩ | ⟨_, hq⟩ := getElem?_set_op (ht ▸ hq)
    · exact h k process hprocess (by rw [hrun]; rfl)
    · exact h k q hq hrelies
  · intro k q hq hrelies
    rw [hfiles]
    rw [ht, List.getElem?_append] at hq
    split_ifs at hq with hk
    · exact h k q hq hrelies
    · obtain ⟨_, rfl⟩ := List.getElem?_eq_some_iff.mp hq
      simp [hnew, KronidOp.relies, KronidOp.owns] at hrelies
  · intro k q hq hrelies
    rw [hfiles]
    exact h k q (ht ▸ hq) hrelies

theorem locked_of_careful (hs : machine.Reach Careful s) : s.Locked := by
  refine hs.invariant ?_ ?_
  · intro s ⟨hprocesses, _⟩ k q hq
    simp [hprocesses] at hq
  · intro s a t _ hcareful hstep h
    exact h.step hcareful hstep

theorem Locked.oneOwner (h : s.Locked) : s.OneOwner := by
  intro i j p q hp hq hpowns hqowns
  have hi := h i p hp (KronidOp.relies_of_owns hpowns)
  have hj := h j q hq (KronidOp.relies_of_owns hqowns)
  rw [hi] at hj
  simpa using hj

/-- In a run in which nobody removes the lock file that another process relies on, at most one process
owns the workspace. -/
theorem one_owner_of_careful (hs : machine.Reach Careful s) : s.OneOwner :=
  (locked_of_careful hs).oneOwner

/-- A workspace without any files. -/
def blank : Workspace := { files := .empty, processes := [], others := [] }

theorem blank_start : machine.start blank := ⟨rfl, fun _ => nofun⟩

/-- The second process comes when the first one has its pid file: it gives up. -/
theorem one_owner_of_careful_late :
    ∃ s, machine.execWithin Careful blank
        ([.spawn 11] ++ List.replicate 7 (.perform 0) ++ [.spawn 12] ++ List.replicate 3 (.perform 1)) =
          some s ∧
      s.processes = [⟨11, .run⟩, ⟨12, .ended⟩] ∧ s.OneOwner := by
  obtain ⟨s, hs, hrun⟩ : ∃ s, machine.execWithin Careful blank
      ([.spawn 11] ++ List.replicate 7 (.perform 0) ++ [.spawn 12] ++ List.replicate 3 (.perform 1)) =
        some s ∧
      s.processes = [⟨11, .run⟩, ⟨12, .ended⟩] := ⟨_, rfl, by decide⟩
  exact ⟨s, hs, hrun, one_owner_of_careful (Machine.Reach.execWithin (.start blank_start) hs)⟩

/-- Two processes run: the second one has removed the lock of the first one, which had not written its
pid yet. -/
theorem two_owners : ∃ s, machine.Reachable s ∧ ¬ s.OneOwner := by
  obtain ⟨s, hs, hrun⟩ : ∃ s, machine.exec blank
      ([.spawn 11] ++ List.replicate 3 (.perform 0) ++ [.spawn 12] ++ List.replicate 8 (.perform 1) ++
        List.replicate 4 (.perform 0)) = some s ∧
      s.processes = [⟨11, .run⟩, ⟨12, .run⟩] := ⟨_, rfl, by decide⟩
  refine ⟨s, Machine.Reachable.exec (.start blank_start) hs, fun h => ?_⟩
  have := h 0 1 ⟨11, .run⟩ ⟨12, .run⟩ (by simp [hrun]) (by simp [hrun]) rfl rfl
  contradiction

end Workspace

end Kronical
