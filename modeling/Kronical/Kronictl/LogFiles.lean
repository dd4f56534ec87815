import Mathlib.Data.List.Sort
import Kronical.Kronictl.Selection

/-!
# The labels of log files

`kronictl log list` labels the files of the log directory with their positions in the order of their times, or
with negative ones, and `show` takes such labels. The order is that of the times and then of the paths, so it
does not depend on the order in which the directory is read; and what is written later comes behind. So a label
selects the file it was printed for, a positive one also after newer files have come
(`labels_select`).
-/

namespace Kronical

variable {Path : Type} [LinearOrder Path]

/-! ### The directory and its listing -/

structure LogMetadata where
  isFile : Bool
  /-- In nanoseconds of the Unix epoch, if there is a time. -/
  modified : Option Int
  len : Nat
  deriving DecidableEq, Repr

structure LogEntry (Path : Type) where
  index : Nat
  path : Path
  modified : Int
  size : Nat
  deriving DecidableEq, Repr

/-- An entry of a directory: its metadata, if they can be read, and its path, if it can be made canonical. -/
structure DirEntry (Path : Type) where
  metadata : Option LogMetadata
  rawPath : Path
  canonical : Option Path
  deriving DecidableEq, Repr

namespace DirEntry

def path (self : DirEntry Path) : Path := self.canonical.getD self.rawPath

/-- What `collect_log_entries` pushes for an entry. -/
def logEntry (self : DirEntry Path) : Option (LogEntry Path) :=
  match self.metadata with
  | some metadata =>
    if metadata.isFile then
      some { index := 0, path := self.path, modified := metadata.modified.getD 0, size := metadata.len }
    else none
  | none => none

end DirEntry

/-- A directory as it is read: no regular file is in it twice. -/
structure LogDir (Path : Type) [LinearOrder Path] where
  entries : List (DirEntry Path)
  distinct : ((entries.filterMap DirEntry.logEntry).map LogEntry.path).Nodup
  length_lt : entries.length < 2 ^ 63

namespace LogEntry

/-- The comparison of `collect_log_entries` does not say `Greater`. -/
def Before (a b : LogEntry Path) : Prop := a.modified < b.modified ∨ a.modified = b.modified ∧ a.path ≤ b.path

instance : DecidableRel fun a b : LogEntry Path => Before a b := fun _ _ => inferInstanceAs (Decidable (_ ∨ _))

end LogEntry

namespace LogDir

def files (self : LogDir Path) : List (LogEntry Path) := self.entries.filterMap DirEntry.logEntry

def collectLogEntries (self : LogDir Path) : List (LogEntry Path) :=
  (self.files.insertionSort LogEntry.Before).mapIdx fun idx entry => { entry with index := idx }

/-- The `raw_index` of the lines of `list_logs`, and what they are about. -/
def listLogs (self : LogDir Path) (reverse : Bool) : List (Int × LogEntry Path) :=
  if reverse then self.collectLogEntries.reverse.mapIdx fun position entry => (-((position : Int) + 1), entry)
  else self.collectLogEntries.map fun entry => ((entry.index : Int), entry)

/-- The head of a file that `show_logs` prints. -/
structure Shown (Path : Type) where
  index : Nat
  negIndex : Int
  path : Path
  deriving DecidableEq, Repr

def negIndex (index len : Nat) : Int := index - len

theorem length_collectLogEntries_lt (self : LogDir Path) : self.collectLogEntries.length < 2 ^ 63 := by
  rw [collectLogEntries, List.length_mapIdx, List.length_insertionSort]
  exact (List.length_filterMap_le _ _).trans_lt self.length_lt

def len (self : LogDir Path) : VecLen := ⟨self.collectLogEntries.length, self.length_collectLogEntries_lt⟩

/-- The files of a selection, as they are printed. Without a pager. -/
def showLogs (self : LogDir Path) (selection : String) : Except String (List (Shown Path)) := do
  let selected ← parseSelection selection self.len
  .ok <| (selected.filterMap (self.collectLogEntries[·]?)).map fun entry =>
    { index := entry.index, negIndex := negIndex entry.index self.len.1, path := entry.path }

/-- `{:>4}`. -/
def labelText (rawIndex : Int) : List Char := List.leftpad 4 ' ' (toString rawIndex).toList

variable {dir now : LogDir Path}

/-! ### The order of the files -/

theorem before_trans {a b c : LogEntry Path} (hab : a.Before b) (hbc : b.Before c) : a.Before c := by
  rcases hab with hab | ⟨hab, hpath⟩ <;> rcases hbc with hbc | ⟨hbc, hpath'⟩
  · exact .inl (hab.trans hbc)
  · exact .inl (hbc ▸ hab)
  · exact .inl (hab ▸ hbc)
  · exact .inr ⟨hab.trans hbc, hpath.trans hpath'⟩

theorem before_total (a b : LogEntry Path) : a.Before b ∨ b.Before a := by
  rcases lt_trichotomy a.modified b.modified with h | h | h
  · exact .inl (.inl h)
  · exact (le_total a.path b.path).imp (fun hpath => .inr ⟨h, hpath⟩) fun hpath => .inr ⟨h.symm, hpath⟩
  · exact .inr (.inl h)

theorem path_eq_of_before {a b : LogEntry Path} (hab : a.Before b) (hba : b.Before a) : a.path = b.path := by
  rcases hab with hab | ⟨hab, hpath⟩ <;> rcases hba with hba | ⟨hba, hpath'⟩
  · exact absurd hab hba.not_gt
  · exact absurd hba.symm hab.ne
  · exact absurd hab.symm hba.ne
  · exact hpath.antisymm hpath'

theorem sorted_files (files : List (LogEntry Path)) :
    (files.insertionSort LogEntry.Before).Pairwise LogEntry.Before :=
  haveI : IsTrans (LogEntry Path) LogEntry.Before := ⟨fun _ _ _ => before_trans⟩
  haveI : Std.Total fun a b : LogEntry Path => LogEntry.Before a b := ⟨before_total⟩
  List.pairwise_insertionSort _ _

/-- The directory is read again, in whatever order; what has come since is later than all that was there. -/
structure Follows (now dir : LogDir Path) (later : List (LogEntry Path)) : Prop where
  perm : now.files.Perm (dir.files ++ later)
  newer : ∀ old ∈ dir.files, ∀ new ∈ later, old.Before new

theorem Follows.collectLogEntries {later : List (LogEntry Path)} (h : now.Follows dir later) :
    ∃ behind, now.collectLogEntries = dir.collectLogEntries ++ behind ∧ behind.length = later.length := by
  have hsort : now.files.insertionSort LogEntry.Before =
      dir.files.insertionSort LogEntry.Before ++ later.insertionSort LogEntry.Before := by
    refine List.Perm.eq_of_pairwise ?_ (sorted_files now.files) ?_ ?_
    · -- Files that are neither before the other are one, since their paths are different.
      intro a b ha hb hab hba
      have hdistinct : (now.files.map LogEntry.path).Nodup := now.distinct
      have hmem : b ∈ now.files := by
        refine h.perm.mem_iff.mpr ?_
        simpa using hb
      exact List.inj_on_of_nodup_map hdistinct ((List.mem_insertionSort _).mp ha) hmem
        (path_eq_of_before hab hba)
    · refine List.pairwise_append.mpr ⟨sorted_files _, sorted_files _, fun old hold new hnew => ?_⟩
      exact h.newer old ((List.mem_insertionSort _).mp hold) new ((List.mem_insertionSort _).mp hnew)
    · refine (List.perm_insertionSort _ _).trans (h.perm.trans ?_)
      exact ((List.perm_insertionSort _ _).append (List.perm_insertionSort _ _)).symm
  rw [LogDir.collectLogEntries, hsort, List.mapIdx_append]
  exact ⟨_, rfl, by simp⟩

/-! ### The labels -/

theorem getElem?_collectLogEntries {idx : Nat} {entry : LogEntry Path}
    (h : dir.collectLogEntries[idx]? = some entry) : entry.index = idx := by
  rw [LogDir.collectLogEntries, List.getElem?_mapIdx] at h
  obtain ⟨file, -, rfl⟩ := Option.map_eq_some_iff.mp h
  rfl

theorem spells_labelText (rawIndex : Int) : Spells rawIndex (labelText rawIndex) := by
  have h := (.decimal : Spells rawIndex _).spaced
    (List.replicate (4 - (toString rawIndex).toList.length) ' ') []
    (fun c hc => (List.mem_replicate.mp hc).2 ▸ by decide) nofun
  rwa [List.append_nil] at h

theorem showLogs_spelled {i : LogIndex now.len} {text : List Char} (h : Spells i.1 text)
    {entry : LogEntry Path} (hentry : now.collectLogEntries[i.position]? = some entry) :
    now.showLogs (String.ofList text) =
      .ok [{ index := entry.index, negIndex := negIndex entry.index now.len.1, path := entry.path }] := by
  have hitem : List.Forall₂ SelectionItem.Spelled [SelectionItem.index i] [text] := .cons (.index h) .nil
  have hparse : parseSelection (String.ofList text) now.len = .ok [i.position] := by
    have hsplit : text.splitOn ',' = [text] := by
      have hone : (List.intercalate [','] [text]).splitOn ',' = [text] :=
        List.splitOn_intercalate ',' (fun _ ht => List.mem_singleton.mp ht ▸ h.comma_not_mem) (List.cons_ne_nil _ _)
      simpa using hone
    rw [parseSelection, if_neg (pos_of_spelled hitem (List.cons_ne_nil _ _)).ne', String.toList_ofList, hsplit,
      foldlM_selectToken hitem]
    rfl
  rw [showLogs, hparse]
  show Except.ok (([i.position].filterMap (now.collectLogEntries[·]?)).map _) = _
  rw [List.filterMap_cons_some hentry]
  rfl

theorem listLogs_map (dir : LogDir Path) (reverse : Bool) :
    (dir.listLogs reverse).map Prod.snd =
      if reverse then dir.collectLogEntries.reverse else dir.collectLogEntries := by
  unfold listLogs
  split_ifs
  · refine List.ext_getElem? fun i => ?_
    rw [List.getElem?_map, List.getElem?_mapIdx, Option.map_map]
    exact Option.map_id'
  · simp [Function.comp_def]

theorem mem_listLogs {reverse : Bool} {line : Int × LogEntry Path} (h : line ∈ dir.listLogs reverse) :
    ∃ idx, dir.collectLogEntries[idx]? = some line.2 ∧ idx < dir.len.1 ∧
      line.1 = if reverse then (idx : Int) - dir.len.1 else idx := by
  unfold listLogs at h
  split_ifs at h with hreverse
  · obtain ⟨position, hposition⟩ := List.mem_iff_getElem?.mp h
    rw [List.getElem?_mapIdx] at hposition
    obtain ⟨entry, hentry, rfl⟩ := Option.map_eq_some_iff.mp hposition
    obtain ⟨hlt, -⟩ := List.getElem?_eq_some_iff.mp hentry
    rw [List.length_reverse] at hlt
    rw [List.getElem?_reverse hlt] at hentry
    have hlen : dir.len.1 = dir.collectLogEntries.length := rfl
    refine ⟨_, hentry, by omega, ?_⟩
    rw [if_pos hreverse]
    dsimp only
    omega
  · obtain ⟨entry, hentry, rfl⟩ := List.mem_map.mp h
    obtain ⟨idx, hidx⟩ := List.mem_iff_getElem?.mp hentry
    obtain ⟨hlt, -⟩ := List.getElem?_eq_some_iff.mp hidx
    refine ⟨idx, hidx, hlt, ?_⟩
    rw [if_neg hreverse, getElem?_collectLogEntries hidx]

/-- Each file of the directory has one line, and the label of the line selects it, in whatever order the
directory is read again: a positive label also after newer files have come, a negative one as long as none
has. -/
theorem labels_select {later : List (LogEntry Path)} (h : now.Follows dir later) (reverse : Bool)
    (hreverse : reverse = true → later = []) :
    ((dir.listLogs reverse).map fun line => line.2.path).Perm (dir.files.map LogEntry.path) ∧
      ∀ line ∈ dir.listLogs reverse,
        now.showLogs (String.ofList (labelText line.1)) =
          .ok [{ index := line.2.index, negIndex := negIndex line.2.index now.len.1, path := line.2.path }] := by
  constructor
  · have hpaths : (dir.listLogs reverse).map (fun line => line.2.path) =
        ((dir.listLogs reverse).map Prod.snd).map LogEntry.path := by
      rw [List.map_map]
      rfl
    have hfiles : (dir.collectLogEntries.map LogEntry.path).Perm (dir.files.map LogEntry.path) := by
      have hindexed : dir.collectLogEntries.map LogEntry.path =
          (dir.files.insertionSort LogEntry.Before).map LogEntry.path :=
        List.ext_getElem? fun i => by simp [collectLogEntries, Function.comp_def]
      rw [hindexed]
      exact (List.perm_insertionSort _ _).map _
    rw [hpaths, listLogs_map]
    split_ifs
    · exact ((List.reverse_perm _).map _).trans hfiles
    · exact hfiles
  · intro line hline
    obtain ⟨idx, hentry, hlt, hlabel⟩ := mem_listLogs hline
    obtain ⟨behind, hnow, hbehind⟩ := h.collectLogEntries
    have hlen : now.len.1 = dir.len.1 + later.length := by
      show now.collectLogEntries.length = _
      rw [hnow, List.length_append, hbehind]
      rfl
    have hfound : now.collectLogEntries[idx]? = some line.2 := by
      rw [hnow, List.getElem?_append_left hlt]
      exact hentry
    have hspells := spells_labelText line.1
    have hrange : -(now.len.1 : Int) ≤ line.1 ∧ line.1 < now.len.1 := by
      rw [hlabel]
      split_ifs <;> omega
    have hposition : LogIndex.position (⟨line.1, hrange⟩ : LogIndex now.len) = idx := by
      show (if 0 ≤ line.1 then line.1.toNat else (now.len.1 + line.1).toNat) = idx
      cases reverse with
      | true =>
        rw [hreverse rfl, List.length_nil] at hlen
        rw [if_pos rfl] at hlabel
        split_ifs <;> omega
      | false =>
        rw [if_neg Bool.false_ne_true] at hlabel
        split_ifs <;> omega
    exact showLogs_spelled (i := ⟨line.1, hrange⟩) hspells (hposition.symm ▸ hfound)

/-- Two logs of the days before, read in the wrong order, and a link to one of them. -/
def twoLogs : LogDir Nat where
  entries := [⟨some ⟨true, some 20, 5⟩, 7, none⟩, ⟨some ⟨false, some 15, 1⟩, 9, some 8⟩,
    ⟨some ⟨true, some 10, 3⟩, 8, none⟩]
  distinct := by decide
  length_lt := by decide

/-- And the one of today. -/
def threeLogs : LogDir Nat where
  entries := [⟨some ⟨true, some 30, 1⟩, 4, none⟩, ⟨some ⟨true, some 10, 3⟩, 8, none⟩,
    ⟨some ⟨true, some 20, 5⟩, 7, none⟩]
  distinct := by decide
  length_lt := by decide

theorem labels_select_three :
    threeLogs.showLogs (String.ofList (labelText 1)) =
      .ok [{ index := 1, negIndex := negIndex 1 threeLogs.len.1, path := 7 }] := by
  have hfollows : threeLogs.Follows twoLogs [⟨0, 4, 30, 1⟩] := by
    refine ⟨by decide, by decide⟩
  have hline : ((1 : Int), (⟨1, 7, 20, 5⟩ : LogEntry Nat)) ∈ twoLogs.listLogs false := by decide
  have hshown := (labels_select hfollows false nofun).2 _ hline
  exact hshown

end LogDir

end Kronical
