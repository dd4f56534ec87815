import Mathlib.Data.List.Basic
import Kronical.Core.Text

/-!
# The pid file

A process that starts looks for the pid file of another one, takes a lock file, writes its pid into a
temporary file, renames it to the pid file and reads it back; when it ends it takes both files away
again. Each of these operations is one step here, so that others may come in between.

A path leads to an inode: a process that has a file open writes to it wherever it was renamed to.
-/

namespace Kronical

/-! ### Pids in files -/

/-- `content.trim().parse::<u32>()`. A file that is not UTF-8 is no pid either. -/
def parsePid (content : String) : Option Nat := parseU32 (trim content)

/-- What is in a file after `text` was written to its beginning. -/
def overwrite (text old : String) : String :=
  text ++ String.ofList (old.toList.drop text.length)

/-! ### The files -/

structure PidFiles where
  /-- The inode that the path of the pid file leads to. -/
  pidFile : Option Nat
  /-- The inode that the path of the temporary file leads to. -/
  tmp : Option Nat
  /-- The lock file, by the process that created it, or by nobody if it was left over. -/
  lock : Option (Option Nat)
  /-- The contents of the inodes. -/
  contents : List String
  deriving DecidableEq, Repr

namespace PidFiles

/-- None of the files is there. -/
def empty : PidFiles := { pidFile := none, tmp := none, lock := none, contents := [] }

/-- `fs::read_to_string` of the pid file. -/
def readPidFile (self : PidFiles) : Option String := self.pidFile.bind (self.contents[·]?)

/-- The pid in the pid file. -/
def filePid (self : PidFiles) : Option Nat := self.readPidFile.bind parsePid

/-- The temporary file opened to be written from its beginning, and its inode. -/
def openTmp (self : PidFiles) : PidFiles × Nat :=
  match self.tmp with
  | some file => ({ self with contents := self.contents.set file "" }, file)
  | none =>
    ({ self with tmp := some self.contents.length, contents := self.contents ++ [""] },
      self.contents.length)

def write (self : PidFiles) (file : Nat) (text : String) : PidFiles :=
  { self with contents := self.contents.modify file (overwrite text) }

@[simp, grind =] theorem openTmp_lock (files : PidFiles) : files.openTmp.1.lock = files.lock := by
  unfold openTmp
  cases files.tmp <;> rfl

@[simp, grind =] theorem write_lock (files : PidFiles) (file : Nat) (text : String) :
    (files.write file text).lock = files.lock := rfl

end PidFiles

/-! ### One process -/

/-- The next operation of a process: in `write_pid_file`, in `verify_pid_file` and after its `Ok`, and
in `cleanup_pid_file` and the drop of the guard. -/
inductive KronidOp
  | pidExists
  | readPid
  | isRunning (existingPid : Nat)
  | removePid
  | lockExists
  | removeLock
  | createLock
  | openTmp
  | writeTmp (file : Nat)
  | renameTmp
  | undoLock
  | undoTmp
  | verifyPid
  | run
  | cleanupExists
  | cleanupRead
  | cleanupRemove
  | guardRead
  | guardRemove
  | unlock
  | ended
  deriving DecidableEq, Repr

namespace KronidOp

/-- The operation of the process `me` with the pid `pid`, and the one after it. A process that runs
waits for its end, and one that has ended does nothing. -/
def perform (me pid : Nat) (running : Nat → Bool) (files : PidFiles) :
    KronidOp → Option (PidFiles × KronidOp)
  | pidExists => some (files, if files.pidFile.isSome then readPid else lockExists)
  | readPid =>
    match files.readPidFile with
    | some content =>
      match parsePid content with
      | some existingPid => some (files, isRunning existingPid)
      | none => some (files, removePid)
    | none => some (files, removePid)
  | isRunning existingPid => some (files, if running existingPid then ended else removePid)
  | removePid => some ({ files with pidFile := none }, removeLock)
  | lockExists => some (files, if files.lock.isSome then removeLock else createLock)
  | removeLock => some ({ files with lock := none }, createLock)
  | createLock =>
    if files.lock.isSome then some (files, ended)
    else some ({ files with lock := some (some me) }, openTmp)
  | openTmp => some (files.openTmp.1, writeTmp files.openTmp.2)
  | writeTmp file => some (files.write file (toString pid), renameTmp)
  | renameTmp =>
    match files.tmp with
    | some file => some ({ files with pidFile := some file, tmp := none }, verifyPid)
    | none => some (files, undoLock)
  | undoLock => some ({ files with lock := none }, undoTmp)
  | undoTmp => some ({ files with tmp := none }, ended)
  | verifyPid => some (files, if files.filePid = some pid then run else ended)
  | run => none
  | cleanupExists => some (files, if files.pidFile.isSome then cleanupRead else unlock)
  | cleanupRead => some (files, if files.filePid = some pid then cleanupRemove else guardRead)
  | cleanupRemove =>
    if files.pidFile.isSome then some ({ files with pidFile := none }, unlock)
    else some (files, guardRead)
  | guardRead => some (files, if files.filePid = some pid then guardRemove else unlock)
  | guardRemove => some ({ files with pidFile := none }, unlock)
  | unlock => some ({ files with lock := none }, ended)
  | ended => none

/-- `verify_pid_file` has returned `Ok`, and the lock is not given up yet. -/
def owns : KronidOp → Bool
  | run | cleanupExists | cleanupRead | cleanupRemove | guardRead | guardRemove | unlock => true
  | _ => false

/-- The process relies on the lock file it has created. -/
def relies : KronidOp → Bool
  | openTmp | writeTmp _ | renameTmp | verifyPid => true
  | op => op.owns

theorem relies_of_owns {op : KronidOp} (h : op.owns = true) : op.relies = true := by
  cases op <;> first | exact h | rfl

/-- The operation removes whatever lock file there is. -/
def removesLock : KronidOp → Bool
  | removeLock | undoLock | unlock => true
  | _ => false

theorem perform_lock {me pid : Nat} {running : Nat → Bool} {files files' : PidFiles} {op op' : KronidOp}
    (h : op.perform me pid running files = some (files', op')) :
    files'.lock = files.lock ∧ (op'.relies = true → op.relies = true) ∨
      files.lock = none ∧ files'.lock = some (some me) ∨
      op.removesLock = true ∧ files'.lock = none ∧ op'.relies = false := by
  cases op with
  | createLock =>
    simp only [perform] at h
    split_ifs at h with hlock
    · obtain ⟨rfl, rfl⟩ : files = files' ∧ ended = op' := by simpa using h
      exact .inl ⟨rfl, fun hrelies => hrelies⟩
    · obtain ⟨rfl, rfl⟩ : _ = files' ∧ openTmp = op' := by simpa using h
      exact .inr (.inl ⟨by simpa using hlock, rfl⟩)
  | removeLock | undoLock | unlock =>
    obtain ⟨rfl, rfl⟩ : _ = files' ∧ _ = op' := by simpa [perform] using h
    exact .inr (.inr ⟨rfl, rfl, rfl⟩)
  | _ =>
    left
    simp only [perform] at h
    grind [relies, owns]

/-! ### A process that nobody interferes with -/

/-- How many operations are ahead at most. -/
def ahead : KronidOp → Nat
  | pidExists => 12
  | readPid => 11
  | isRunning _ => 10
  | removePid => 9
  | lockExists => 9
  | removeLock => 8
  | createLock => 7
  | openTmp => 6
  | writeTmp _ => 5
  | renameTmp => 4
  | undoLock => 3
  | undoTmp => 2
  | verifyPid => 1
  | run => 0
  | cleanupExists => 6
  | cleanupRead => 5
  | cleanupRemove => 4
  | guardRead => 3
  | guardRemove => 2
  | unlock => 1
  | ended => 0

theorem perform_ahead {me pid : Nat} {running : Nat → Bool} {files files' : PidFiles}
    {op op' : KronidOp} (h : op.perform me pid running files = some (files', op')) :
    op'.ahead < op.ahead := by
  cases op <;> simp only [perform] at h <;> grind [ahead]

/-- The process performs its operations, at most `fuel` of them, until it runs or has ended; there are no
more than `ahead` (`settle_settled`). -/
def settle (me pid : Nat) (running : Nat → Bool) : Nat → PidFiles → KronidOp → PidFiles × KronidOp
  | 0, files, op => (files, op)
  | fuel + 1, files, op =>
    match op.perform me pid running files with
    | some (files, op) => settle me pid running fuel files op
    | none => (files, op)

theorem perform_eq_none {me pid : Nat} {running : Nat → Bool} {files : PidFiles} {op : KronidOp} :
    op.perform me pid running files = none ↔ op = run ∨ op = ended := by
  cases op <;> simp only [perform] <;> grind

theorem settle_settled {me pid : Nat} {running : Nat → Bool} {fuel : Nat} {files : PidFiles}
    {op : KronidOp} (h : op.ahead ≤ fuel) :
    (settle me pid running fuel files op).2 = run ∨ (settle me pid running fuel files op).2 = ended := by
  induction fuel generalizing files op with
  | zero =>
    cases op <;> simp only [ahead] at h <;> simp_all [settle]
  | succ fuel ih =>
    unfold settle
    cases hop : op.perform me pid running files with
    | none => exact perform_eq_none.mp hop
    | some next =>
      have := perform_ahead hop
      exact ih (by omega)

theorem perform_run {me pid : Nat} {running : Nat → Bool} {files files' : PidFiles} {op : KronidOp}
    (h : op.perform me pid running files = some (files', run)) : files'.filePid = some pid := by
  cases op <;> simp only [perform] at h <;> grind

theorem settle_run {me pid : Nat} {running : Nat → Bool} {fuel : Nat} {files files' : PidFiles}
    {op : KronidOp} (hop : op ≠ run) (h : settle me pid running fuel files op = (files', run)) :
    files'.filePid = some pid := by
  induction fuel generalizing files op with
  | zero => exact absurd (congrArg Prod.snd h) hop
  | succ fuel ih =>
    unfold settle at h
    cases hnext : op.perform me pid running files with
    | none =>
      rw [hnext] at h
      exact absurd (congrArg Prod.snd h) hop
    | some next =>
      obtain ⟨files₁, op₁⟩ := next
      rw [hnext] at h
      by_cases hrun : op₁ = run
      · subst hrun
        have hstays : settle me pid running fuel files₁ run = (files₁, run) := by
          cases fuel <;> rfl
        obtain rfl : files₁ = files' := congrArg Prod.fst (hstays.symm.trans h)
        exact perform_run hnext
      · exact ih hrun h

theorem settle_of_running {me pid existingPid : Nat} {running : Nat → Bool} {fuel : Nat}
    {files : PidFiles} (hpid : files.filePid = some existingPid) (hrunning : running existingPid = true)
    (hfuel : 3 ≤ fuel) : settle me pid running fuel files pidExists = (files, ended) := by
  obtain ⟨fuel, rfl⟩ := Nat.exists_eq_add_of_le' hfuel
  obtain ⟨content, hcontent, hparse⟩ := Option.bind_eq_some_iff.mp hpid
  have hexists : files.pidFile.isSome = true := by
    obtain ⟨file, hfile, _⟩ := Option.bind_eq_some_iff.mp hcontent
    simp [hfile]
  have hended : settle me pid running fuel files ended = (files, ended) := by
    cases fuel <;> rfl
  simp [settle, perform, hexists, hcontent, hparse, hrunning, hended]

end KronidOp

end Kronical
