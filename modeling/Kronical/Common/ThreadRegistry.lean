import Kronical.Lib.FirstMatch
import Kronical.Lib.Machine

/-!
# The thread registry

The registry keeps a record for every thread that was spawned under a name, and `spawn` takes over a
record of its name whose join handle is gone. It is gone as soon as a `join` has begun, while the handle
that is joined still exists: then a second handle gets the same id, the first one's `join` and `drop`
mark the second one's record, and its own `join` does not wait (`handles_own_threads_iff_patient`).
-/

namespace Kronical

inductive ThreadStatus
  | reserved
  | running
  | joining
  | joined
  | detached
  | panicked
  deriving DecidableEq, Repr

/-- A `JoinHandle` is the number of its thread. -/
structure ThreadRecord where
  id : Nat
  name : String
  status : ThreadStatus
  handle : Option Nat
  deriving DecidableEq, Repr

namespace ThreadRecord

/-- What `spawn` makes of a slot that it takes over. -/
def occupy (thread : Nat) (self : ThreadRecord) : ThreadRecord :=
  { self with status := .running, handle := some thread }

/-- What the first lock section of `join` makes of its record. -/
def beginJoin (self : ThreadRecord) : ThreadRecord := { self with status := .joining, handle := none }

/-- What the second lock section of `join` makes of its record. -/
def endJoin (ok : Bool) (self : ThreadRecord) : ThreadRecord :=
  { self with status := if ok then .joined else .panicked }

/-- What `drop` makes of its record. -/
def detach (self : ThreadRecord) : ThreadRecord :=
  { self with
    status := if self.handle.isSome then .detached else self.status
    handle := none }

end ThreadRecord

/-- Where the owner of a handle is: it holds it, or its `join` waits for the thread it has found, has been
waiting, or is about to drop the handle. -/
inductive JoinCall
  | held
  | waiting (handle : Option Nat)
  | waited (ok : Bool)
  | leaving (ok : Bool)
  deriving DecidableEq, Repr

/-- The call waits for this thread, and goes on with its result. -/
def JoinCall.IsFor (results : List (Option Bool)) (thread : Nat) : JoinCall → Prop
  | .held => True
  | .waiting handle => handle = some thread
  | .waited ok | .leaving ok => results[thread]? = some (some ok)

theorem JoinCall.IsFor.mono {results results' : List (Option Bool)} {thread : Nat} {call : JoinCall}
    (h : call.IsFor results thread)
    (hkept : ∀ ok, results[thread]? = some (some ok) → results'[thread]? = some (some ok)) :
    call.IsFor results' thread := by
  cases call with
  | held => trivial
  | waiting handle => exact h
  | waited ok | leaving ok => exact hkept ok h

structure ThreadHandle where
  id : Nat
  name : String
  /-- The thread that the handle's own `spawn` has started. -/
  thread : Nat
  call : JoinCall
  deriving DecidableEq, Repr

/-- A registry, with the handles that exist and what the threads have returned. -/
structure ThreadRegistry where
  nextId : Nat
  records : List ThreadRecord
  handles : List ThreadHandle
  /-- For each thread whether it panicked, if it has ended. -/
  results : List (Option Bool)
  deriving DecidableEq, Repr

/-- `spawn` and `drop` have one lock section, `join` has two, with the wait between them; a handle is
named by its thread. -/
inductive ThreadAction
  | reserveSlots (names : List String)
  | spawn (name : String)
  | finish (thread : Nat) (ok : Bool)
  | beginJoin (thread : Nat)
  | wait (thread : Nat)
  | endJoin (thread : Nat)
  | drop (thread : Nat)
  deriving DecidableEq, Repr

namespace ThreadRegistry

def new : ThreadRegistry := { nextId := 0, records := [], handles := [], results := [] }

def reserveSlot (self : ThreadRegistry) (name : String) : ThreadRegistry :=
  if self.records.any (·.name = name) then self
  else { self with
    nextId := self.nextId + 1
    records := self.records ++ [⟨self.nextId, name, .reserved, none⟩] }

def reserveSlots (self : ThreadRegistry) (names : List String) : ThreadRegistry :=
  names.foldl reserveSlot self

/-- The slot that a thread under this name would take over. -/
def isFree (name : String) (record : ThreadRecord) : Bool := record.name = name ∧ record.handle = none

/-- The lock section of `spawn`. The thread runs before it, but nobody can tell: an end in between is one
right after. -/
def spawn (self : ThreadRegistry) (name : String) : ThreadRegistry :=
  let thread := self.results.length
  let results := self.results ++ [none]
  match FirstMatch.update (isFree name) (ThreadRecord.occupy thread) self.records with
  | some (record, records) =>
    { self with
      records := records
      handles := self.handles ++ [⟨record.id, name, thread, .held⟩]
      results := results }
  | none =>
    { nextId := self.nextId + 1
      records := self.records ++ [⟨self.nextId, name, .running, some thread⟩]
      handles := self.handles ++ [⟨self.nextId, name, thread, .held⟩]
      results := results }

def findHandle (self : ThreadRegistry) (thread : Nat) : Option ThreadHandle :=
  self.handles.find? (·.thread = thread)

def setCall (self : ThreadRegistry) (thread : Nat) (call : JoinCall) : ThreadRegistry :=
  { self with handles := self.handles.map fun handle =>
      if handle.thread = thread then { handle with call := call } else handle }

/-- The record with this id, and the registry with that record changed. -/
def changeRecord (self : ThreadRegistry) (id : Nat) (change : ThreadRecord → ThreadRecord) :
    Option ThreadRecord × ThreadRegistry :=
  match FirstMatch.update (·.id = id) change self.records with
  | some (record, records) => (some record, { self with records := records })
  | none => (none, self)

/-- The first lock section of `join`. -/
def beginJoin (self : ThreadRegistry) (handle : ThreadHandle) : ThreadRegistry :=
  let (record, next) := self.changeRecord handle.id ThreadRecord.beginJoin
  next.setCall handle.thread (.waiting (record.bind (·.handle)))

/-- The second lock section of `join`. -/
def endJoin (self : ThreadRegistry) (handle : ThreadHandle) (ok : Bool) : ThreadRegistry :=
  let (_, next) := self.changeRecord handle.id (ThreadRecord.endJoin ok)
  next.setCall handle.thread (.leaving ok)

/-- `ThreadHandle::drop`. -/
def dropHandle (self : ThreadRegistry) (handle : ThreadHandle) : ThreadRegistry :=
  let (_, next) := self.changeRecord handle.id ThreadRecord.detach
  { next with handles := next.handles.filter (·.thread ≠ handle.thread) }

def step (self : ThreadRegistry) : ThreadAction → Option ThreadRegistry
  | .reserveSlots names => some (self.reserveSlots names)
  | .spawn name => some (self.spawn name)
  | .finish thread ok =>
    if self.results[thread]? = some none then
      some { self with results := self.results.set thread (some ok) }
    else none
  | .beginJoin thread => do
    let handle ← self.findHandle thread
    if handle.call = .held then some (self.beginJoin handle) else none
  | .wait thread => do
    let handle ← self.findHandle thread
    match handle.call with
    | .waiting none => some (self.setCall thread (.waited true))
    | .waiting (some joined) => do
      -- The wait ends when the thread has.
      let ok ← (self.results[joined]?).join
      some (self.setCall thread (.waited ok))
    | _ => none
  | .endJoin thread => do
    let handle ← self.findHandle thread
    match handle.call with
    | .waited ok => some (self.endJoin handle ok)
    | _ => none
  | .drop thread => do
    let handle ← self.findHandle thread
    match handle.call with
    | .held | .leaving _ => some (self.dropHandle handle)
    | _ => none

def machine : Machine ThreadRegistry ThreadAction := ⟨(· = .new), step⟩

/-! ### The claim -/

/-- No two handles that exist have the same id. -/
def UniqueIds (self : ThreadRegistry) : Prop := (self.handles.map (·.id)).Nodup

instance (s : ThreadRegistry) : Decidable s.UniqueIds := inferInstanceAs (Decidable (List.Nodup _))

/-- A `join` waits for the thread of its own handle, and goes on with that thread's result. -/
def WaitsForOwn (self : ThreadRegistry) : Prop :=
  ∀ handle ∈ self.handles, handle.call.IsFor self.results handle.thread

/-- The action marks no record in which the thread of another handle is stored. -/
def MarksOwn (self : ThreadRegistry) : ThreadAction → Prop
  | .endJoin thread | .drop thread =>
    ∀ handle ∈ self.findHandle thread, ∀ record ∈ self.records, record.id = handle.id →
      ∀ stored ∈ record.handle, stored = handle.thread
  | _ => True

structure Sound (s : ThreadRegistry) : Prop where
  unique : s.UniqueIds
  waits : s.WaitsForOwn
  marks : ∀ a, s.MarksOwn a

/-- Nothing is spawned under a name as long as the first free slot of that name belongs to a handle that
exists, whose `join` is under way. -/
def Patient (self : ThreadRegistry) : ThreadAction → Prop
  | .spawn name => ∀ record ∈ self.records.find? (isFree name), ∀ handle ∈ self.handles,
      handle.id ≠ record.id
  | _ => True

instance (s : ThreadRegistry) : DecidablePred s.Patient
  | .spawn name => inferInstanceAs (Decidable (∀ record ∈ s.records.find? (isFree name),
      ∀ handle ∈ s.handles, handle.id ≠ record.id))
  | .reserveSlots _ | .finish .. | .beginJoin _ | .wait _ | .endJoin _ | .drop _ =>
    inferInstanceAs (Decidable True)

/-! ### Slots and their handles -/

/-- The join handle that is stored in the record of the handle. -/
def stored (handle : ThreadHandle) : Option Nat :=
  if handle.call = .held then some handle.thread else none

/-- Handles and records match: each handle has a record of its own, which stores its thread until its
`join` begins. -/
structure Coherent (s : ThreadRegistry) : Prop where
  ids : (s.records.map (·.id)).Nodup
  fresh : ∀ record ∈ s.records, record.id < s.nextId
  threads : ∀ handle ∈ s.handles, handle.thread < s.results.length
  keys : (s.handles.map (·.thread)).Nodup
  unique : s.UniqueIds
  slot : ∀ handle ∈ s.handles, ∃ record ∈ s.records, record.id = handle.id ∧
    record.handle = stored handle
  owner : ∀ record ∈ s.records, ∀ thread ∈ record.handle, ∃ handle ∈ s.handles,
    handle.id = record.id ∧ handle.thread = thread
  waits : s.WaitsForOwn

variable {s t : ThreadRegistry}

theorem coherent_new : Coherent new where
  ids := List.nodup_nil
  fresh := nofun
  threads := nofun
  keys := List.nodup_nil
  unique := List.nodup_nil
  slot := nofun
  owner := nofun
  waits := nofun

theorem Coherent.handle_eq (h : s.Coherent) {handle handle' : ThreadHandle} (hmem : handle ∈ s.handles)
    (hmem' : handle' ∈ s.handles) (hid : handle.id = handle'.id) : handle = handle' :=
  List.inj_on_of_nodup_map h.unique hmem hmem' hid

theorem Coherent.record_eq (h : s.Coherent) {record record' : ThreadRecord} (hmem : record ∈ s.records)
    (hmem' : record' ∈ s.records) (hid : record.id = record'.id) : record = record' :=
  List.inj_on_of_nodup_map h.ids hmem hmem' hid

theorem Coherent.marksOwn (h : s.Coherent) (a : ThreadAction) : s.MarksOwn a := by
  have hown : ∀ thread, ∀ handle ∈ s.findHandle thread, ∀ record ∈ s.records, record.id = handle.id →
      ∀ stored ∈ record.handle, stored = handle.thread := by
    intro thread handle hfind record hrecord hid stored hstored
    obtain ⟨owner, howner, hownerId, rfl⟩ := h.owner record hrecord stored hstored
    have hmem := List.mem_of_find?_eq_some hfind
    rw [h.handle_eq howner hmem (hownerId.trans hid)]
  cases a with
  | endJoin thread => exact hown thread
  | drop thread => exact hown thread
  | reserveSlots | spawn | finish | beginJoin | wait => trivial

theorem Coherent.sound (h : s.Coherent) : s.Sound := ⟨h.unique, h.waits, h.marksOwn⟩

/-! ### Steps -/

theorem Coherent.append_fresh (h : s.Coherent) {record : ThreadRecord} (hid : record.id = s.nextId) :
    ((s.records ++ [record]).map (·.id)).Nodup ∧
      ∀ r ∈ s.records ++ [record], r.id < s.nextId + 1 := by
  constructor
  · exact FirstMatch.nodup_map_concat h.ids fun r hr => hid ▸ Nat.ne_of_lt (h.fresh r hr)
  · refine List.forall_mem_append.mpr ⟨fun r hr => Nat.lt_succ_of_lt (h.fresh r hr), ?_⟩
    exact List.forall_mem_singleton.mpr (hid ▸ Nat.lt_succ_self _)

theorem Coherent.reserveSlot (h : s.Coherent) (name : String) : (s.reserveSlot name).Coherent := by
  unfold ThreadRegistry.reserveSlot
  split_ifs
  · exact h
  refine ⟨(h.append_fresh rfl).1, (h.append_fresh rfl).2, h.threads, h.keys, h.unique, ?_, ?_, h.waits⟩
  · intro handle hhandle
    obtain ⟨record, hrecord, hslot⟩ := h.slot handle hhandle
    exact ⟨record, List.mem_append_left _ hrecord, hslot⟩
  · intro record hrecord thread hthread
    rcases List.mem_append.mp hrecord with hrecord | hrecord
    · exact h.owner record hrecord thread hthread
    · rw [List.mem_singleton.mp hrecord] at hthread
      cases hthread

theorem Coherent.reserveSlots (h : s.Coherent) (names : List String) :
    (s.reserveSlots names).Coherent := by
  induction names generalizing s with
  | nil => exact h
  | cons name names ih => exact ih (h.reserveSlot name)

theorem Coherent.start (h : s.Coherent) {id nextId : Nat} {records : List ThreadRecord} (name : String)
    (hids : (records.map (·.id)).Nodup) (hfresh : ∀ record ∈ records, record.id < nextId)
    (hnone : ∀ handle ∈ s.handles, handle.id ≠ id)
    (hslot : ∃ record ∈ records, record.id = id ∧ record.handle = some s.results.length)
    (hkept : ∀ record ∈ s.records, record.id ≠ id → record ∈ records)
    (hothers : ∀ record ∈ records, record.id = id ∨ record ∈ s.records) :
    Coherent { nextId := nextId, records := records
               handles := s.handles ++ [⟨id, name, s.results.length, .held⟩]
               results := s.results ++ [none] } := by
  refine ⟨hids, hfresh, ?_, ?_, ?_, ?_, ?_, ?_⟩
  · intro handle hhandle
    rw [List.length_append, List.length_singleton]
    rcases List.mem_append.mp hhandle with hhandle | hhandle
    · exact Nat.lt_succ_of_lt (h.threads handle hhandle)
    · rw [List.mem_singleton.mp hhandle]
      exact Nat.lt_succ_self _
  · exact FirstMatch.nodup_map_concat h.keys fun handle hhandle =>
      Nat.ne_of_lt (h.threads handle hhandle)
  · exact FirstMatch.nodup_map_concat h.unique hnone
  · intro handle hhandle
    rcases List.mem_append.mp hhandle with hhandle | hhandle
    · obtain ⟨record, hrecord, hid, hstored⟩ := h.slot handle hhandle
      exact ⟨record, hkept record hrecord (hid ▸ hnone handle hhandle), hid, hstored⟩
    · rw [List.mem_singleton.mp hhandle]
      exact hslot
  · intro record hrecord thread hthread
    by_cases hid : record.id = id
    · obtain ⟨record', hrecord', hid', hstored⟩ := hslot
      obtain rfl : record = record' :=
        List.inj_on_of_nodup_map hids hrecord hrecord' (hid.trans hid'.symm)
      rw [hstored] at hthread
      refine ⟨_, List.mem_append_right _ (List.mem_singleton_self _), hid.symm, ?_⟩
      exact Option.some.inj hthread
    · have hold := (hothers record hrecord).resolve_left hid
      obtain ⟨handle, hhandle, hmatch⟩ := h.owner record hold thread hthread
      exact ⟨handle, List.mem_append_left _ hhandle, hmatch⟩
  · intro handle hhandle
    rcases List.mem_append.mp hhandle with hhandle | hhandle
    · refine (h.waits handle hhandle).mono fun ok hok => ?_
      rw [List.getElem?_append_left (h.threads handle hhandle), hok]
    · rw [List.mem_singleton.mp hhandle]
      trivial

theorem Coherent.spawn (h : s.Coherent) {name : String} (hpatient : s.Patient (.spawn name)) :
    (s.spawn name).Coherent := by
  unfold ThreadRegistry.spawn
  dsimp only
  have hfind := FirstMatch.fst_update (isFree name) (ThreadRecord.occupy s.results.length) s.records
  rcases hupdate : FirstMatch.update (isFree name) (ThreadRecord.occupy s.results.length) s.records with
    _ | ⟨record, records⟩
  · refine h.start name (h.append_fresh rfl).1 (h.append_fresh rfl).2 ?_ ?_ ?_ ?_
    · intro handle hhandle hid
      obtain ⟨record, hrecord, hrecordId, -⟩ := h.slot handle hhandle
      exact Nat.ne_of_lt (h.fresh record hrecord) (hrecordId.trans hid)
    · exact ⟨_, List.mem_append_right _ (List.mem_singleton_self _), rfl, rfl⟩
    · exact fun record hrecord _ => List.mem_append_left _ hrecord
    · intro record hrecord
      rcases List.mem_append.mp hrecord with hrecord | hrecord
      · exact Or.inr hrecord
      · rw [List.mem_singleton.mp hrecord]
        exact Or.inl rfl
  · rw [hupdate, Option.map_some] at hfind
    obtain ⟨before, after, hsplit, rfl⟩ := FirstMatch.update_eq_some hupdate
    have hids := h.ids
    rw [hsplit] at hids
    have hmem : record ∈ s.records := List.mem_of_find?_eq_some hfind.symm
    have hchanged : ∀ {record'}, record' ∈ before ++ record.occupy s.results.length :: after ↔
        record' = record.occupy s.results.length ∨ record' ∈ s.records ∧ record'.id ≠ record.id := by
      intro record'
      rw [hsplit]
      exact FirstMatch.mem_update_iff (f := ThreadRecord.occupy s.results.length) hids
    refine h.start name ?_ ?_ (hpatient record hfind.symm) ?_ ?_ ?_
    · rw [FirstMatch.map_key_update (f := ThreadRecord.occupy s.results.length) rfl]
      exact hids
    · intro record' hrecord'
      rcases hchanged.mp hrecord' with rfl | ⟨hold, -⟩
      · exact h.fresh record hmem
      · exact h.fresh record' hold
    · exact ⟨_, hchanged.mpr (Or.inl rfl), rfl, rfl⟩
    · exact fun record' hrecord' hid => hchanged.mpr (Or.inr ⟨hrecord', hid⟩)
    · intro record' hrecord'
      rcases hchanged.mp hrecord' with rfl | ⟨hold, -⟩
      · exact Or.inl rfl
      · exact Or.inr hold

theorem Coherent.release (h : s.Coherent) {handle : ThreadHandle} (hmem : handle ∈ s.handles)
    {records : List ThreadRecord} {handles : List ThreadHandle} {released : ThreadRecord}
    (hids : (records.map (·.id)).Nodup)
    (hrecords : ∀ record, record ∈ records ↔
      record = released ∨ record ∈ s.records ∧ record.id ≠ handle.id)
    (hreleased : released.id = handle.id ∧ released.handle = none)
    (hkeys : (handles.map (·.thread)).Sublist (s.handles.map (·.thread)))
    (hunique : (handles.map (·.id)).Sublist (s.handles.map (·.id)))
    (hhandles : ∀ handle' ∈ handles, handle' ∈ s.handles ∧ handle'.id ≠ handle.id ∨
      ∃ call, handle' = { handle with call := call } ∧ call ≠ .held ∧
        call.IsFor s.results handle.thread)
    (hothers : ∀ handle' ∈ s.handles, handle'.id ≠ handle.id → handle' ∈ handles) :
    Coherent { s with records := records, handles := handles } := by
  obtain ⟨slot, hslot, hslotId, -⟩ := h.slot handle hmem
  refine ⟨hids, ?_, ?_, h.keys.sublist hkeys, h.unique.sublist hunique, ?_, ?_, ?_⟩
  · intro record hrecord
    rcases (hrecords record).mp hrecord with rfl | ⟨hold, -⟩
    · rw [hreleased.1, ← hslotId]
      exact h.fresh slot hslot
    · exact h.fresh record hold
  · intro handle' hhandle'
    rcases hhandles handle' hhandle' with ⟨hold, -⟩ | ⟨call, rfl, -⟩
    · exact h.threads handle' hold
    · exact h.threads handle hmem
  · intro handle' hhandle'
    rcases hhandles handle' hhandle' with ⟨hold, hne⟩ | ⟨call, rfl, hcall, -⟩
    · obtain ⟨record, hrecord, hid, hstored⟩ := h.slot handle' hold
      exact ⟨record, (hrecords record).mpr (Or.inr ⟨hrecord, hid ▸ hne⟩), hid, hstored⟩
    · refine ⟨released, (hrecords released).mpr (Or.inl rfl), hreleased.1, ?_⟩
      rw [hreleased.2]
      exact (if_neg hcall).symm
  · intro record hrecord thread hthread
    rcases (hrecords record).mp hrecord with rfl | ⟨hold, hne⟩
    · rw [hreleased.2] at hthread
      cases hthread
    · obtain ⟨owner, howner, hid, hown⟩ := h.owner record hold thread hthread
      exact ⟨owner, hothers owner howner (hid ▸ hne), hid, hown⟩
  · intro handle' hhandle'
    rcases hhandles handle' hhandle' with ⟨hold, -⟩ | ⟨call, rfl, -, hwaits⟩
    · exact h.waits handle' hold
    · exact hwaits

theorem Coherent.changeRecord (h : s.Coherent) {handle : ThreadHandle} (hmem : handle ∈ s.handles)
    {change : ThreadRecord → ThreadRecord} (hchange : ∀ record, (change record).id = record.id) :
    ∃ record records, s.changeRecord handle.id change = (some record, { s with records := records }) ∧
      record.id = handle.id ∧ record.handle = stored handle ∧ (records.map (·.id)).Nodup ∧
      ∀ record', record' ∈ records ↔
        record' = change record ∨ record' ∈ s.records ∧ record'.id ≠ handle.id := by
  obtain ⟨slot, hslot, hslotId, hstored⟩ := h.slot handle hmem
  have hfind := FirstMatch.fst_update (fun record : ThreadRecord => record.id = handle.id) change
    s.records
  rcases hupdate : FirstMatch.update (fun record : ThreadRecord => record.id = handle.id) change
    s.records with _ | ⟨record, records⟩
  · rw [hupdate, Option.map_none, eq_comm, List.find?_eq_none] at hfind
    exact absurd (decide_eq_true hslotId) (hfind slot hslot)
  · rw [hupdate, Option.map_some] at hfind
    have hid : record.id = handle.id := of_decide_eq_true (List.find?_some
      (p := fun record : ThreadRecord => decide (record.id = handle.id)) hfind.symm)
    obtain rfl := h.record_eq (List.mem_of_find?_eq_some hfind.symm) hslot (hid.trans hslotId.symm)
    obtain ⟨before, after, hsplit, rfl⟩ := FirstMatch.update_eq_some hupdate
    have hids := h.ids
    rw [hsplit] at hids
    refine ⟨record, before ++ change record :: after, ?_, hid, hstored, ?_, ?_⟩
    · rw [ThreadRegistry.changeRecord, hupdate]
    · rw [FirstMatch.map_key_update (f := change) (hchange record)]
      exact hids
    · intro record'
      rw [hsplit, ← hid]
      exact FirstMatch.mem_update_iff (f := change) hids

theorem Coherent.setCall (h : s.Coherent) {handle : ThreadHandle} (hmem : handle ∈ s.handles)
    {records : List ThreadRecord} {released : ThreadRecord} {call : JoinCall}
    (hids : (records.map (·.id)).Nodup)
    (hrecords : ∀ record, record ∈ records ↔
      record = released ∨ record ∈ s.records ∧ record.id ≠ handle.id)
    (hreleased : released.id = handle.id ∧ released.handle = none) (hcall : call ≠ .held)
    (hwaits : call.IsFor s.results handle.thread) :
    (ThreadRegistry.setCall { s with records := records } handle.thread call).Coherent := by
  have hsame : ∀ handle' ∈ s.handles, handle'.thread = handle.thread ↔ handle' = handle := by
    intro handle' hmem'
    exact ⟨fun hthread => List.inj_on_of_nodup_map h.keys hmem' hmem hthread, fun heq => heq ▸ rfl⟩
  have hthreads : (s.handles.map fun handle' => if handle'.thread = handle.thread then
      { handle' with call := call } else handle').map (·.thread) = s.handles.map (·.thread) := by
    rw [List.map_map]
    exact List.map_congr_left fun handle' _ => by simp only [Function.comp]; split_ifs <;> rfl
  have hids' : (s.handles.map fun handle' => if handle'.thread = handle.thread then
      { handle' with call := call } else handle').map (·.id) = s.handles.map (·.id) := by
    rw [List.map_map]
    exact List.map_congr_left fun handle' _ => by simp only [Function.comp]; split_ifs <;> rfl
  refine h.release hmem hids hrecords hreleased (hthreads ▸ List.Sublist.refl _)
    (hids' ▸ List.Sublist.refl _) ?_ ?_
  · intro handle' hhandle'
    obtain ⟨old, hold, rfl⟩ := List.mem_map.mp hhandle'
    split_ifs with hthread
    · obtain rfl := (hsame old hold).mp hthread
      exact Or.inr ⟨call, rfl, hcall, hwaits⟩
    · exact Or.inl ⟨hold, fun hid => hthread ((hsame old hold).mpr (h.handle_eq hold hmem hid))⟩
  · intro handle' hmem' hne
    refine List.mem_map.mpr ⟨handle', hmem', if_neg fun hthread => hne ?_⟩
    rw [(hsame handle' hmem').mp hthread]

theorem Coherent.beginJoin (h : s.Coherent) {handle : ThreadHandle} (hmem : handle ∈ s.handles)
    (hcall : handle.call = .held) : (s.beginJoin handle).Coherent := by
  obtain ⟨record, records, hchange, hid, hstored, hids, hrecords⟩ :=
    h.changeRecord hmem (fun _ => rfl : ∀ record, (ThreadRecord.beginJoin record).id = record.id)
  rw [stored, if_pos hcall] at hstored
  unfold ThreadRegistry.beginJoin
  rw [hchange]
  refine h.setCall hmem hids hrecords ⟨hid, rfl⟩ nofun ?_
  exact hstored

theorem Coherent.endJoin (h : s.Coherent) {handle : ThreadHandle} (hmem : handle ∈ s.handles) {ok : Bool}
    (hcall : handle.call = .waited ok) : (s.endJoin handle ok).Coherent := by
  obtain ⟨record, records, hchange, hid, hstored, hids, hrecords⟩ :=
    h.changeRecord hmem (fun _ => rfl : ∀ record, (ThreadRecord.endJoin ok record).id = record.id)
  rw [stored, if_neg (by simp [hcall])] at hstored
  have hwaits := h.waits handle hmem
  rw [hcall] at hwaits
  unfold ThreadRegistry.endJoin
  rw [hchange]
  exact h.setCall hmem hids hrecords ⟨hid, hstored⟩ nofun hwaits

theorem Coherent.waited (h : s.Coherent) {handle : ThreadHandle} (hmem : handle ∈ s.handles)
    {ok : Bool} (hcall : handle.call ≠ .held)
    (hresult : s.results[handle.thread]? = some (some ok)) :
    (s.setCall handle.thread (.waited ok)).Coherent := by
  obtain ⟨record, hrecord, hid, hstored⟩ := h.slot handle hmem
  rw [stored, if_neg hcall] at hstored
  have hsame : ∀ record', record' ∈ s.records ↔
      record' = record ∨ record' ∈ s.records ∧ record'.id ≠ handle.id := by
    intro record'
    constructor
    · intro hrecord'
      by_cases hid' : record'.id = handle.id
      · exact Or.inl (h.record_eq hrecord' hrecord (hid'.trans hid.symm))
      · exact Or.inr ⟨hrecord', hid'⟩
    · rintro (rfl | ⟨hrecord', -⟩)
      · exact hrecord
      · exact hrecord'
  exact h.setCall hmem h.ids hsame ⟨hid, hstored⟩ nofun hresult

theorem Coherent.dropHandle (h : s.Coherent) {handle : ThreadHandle} (hmem : handle ∈ s.handles) :
    (s.dropHandle handle).Coherent := by
  obtain ⟨record, records, hchange, hid, hstored, hids, hrecords⟩ :=
    h.changeRecord hmem (fun _ => rfl : ∀ record, (ThreadRecord.detach record).id = record.id)
  unfold ThreadRegistry.dropHandle
  rw [hchange]
  refine h.release hmem hids hrecords ⟨hid, rfl⟩ (List.filter_sublist.map _)
    (List.filter_sublist.map _) ?_ ?_
  · intro handle' hhandle'
    obtain ⟨hold, hthread⟩ := List.mem_filter.mp hhandle'
    refine Or.inl ⟨hold, fun hid' => of_decide_eq_true hthread ?_⟩
    rw [h.handle_eq hold hmem hid']
  · intro handle' hmem' hne
    refine List.mem_filter.mpr ⟨hmem', decide_eq_true fun hthread => hne ?_⟩
    rw [List.inj_on_of_nodup_map h.keys hmem' hmem hthread]

theorem Coherent.finish (h : s.Coherent) {thread : Nat} {ok : Bool}
    (hrunning : s.results[thread]? = some none) :
    Coherent { s with results := s.results.set thread (some ok) } := by
  refine ⟨h.ids, h.fresh, ?_, h.keys, h.unique, h.slot, h.owner, ?_⟩
  · intro handle hhandle
    rw [List.length_set]
    exact h.threads handle hhandle
  · intro handle hhandle
    refine (h.waits handle hhandle).mono fun ok' hok => ?_
    rw [List.getElem?_set_ne, hok]
    rintro rfl
    rw [hrunning] at hok
    cases hok

theorem Coherent.step (h : s.Coherent) {a : ThreadAction} (hpatient : s.Patient a)
    (hstep : s.step a = some t) : t.Coherent := by
  cases a with
  | reserveSlots names =>
    obtain rfl := Option.some.inj hstep
    exact h.reserveSlots names
  | spawn name =>
    obtain rfl := Option.some.inj hstep
    exact h.spawn hpatient
  | finish thread ok =>
    simp only [ThreadRegistry.step] at hstep
    split_ifs at hstep with hrunning
    obtain rfl := Option.some.inj hstep
    exact h.finish hrunning
  | beginJoin thread =>
    obtain ⟨handle, hfind, hstep⟩ := Option.bind_eq_some_iff.mp hstep
    split_ifs at hstep with hcall
    obtain rfl := Option.some.inj hstep
    exact h.beginJoin (List.mem_of_find?_eq_some hfind) hcall
  | wait thread =>
    obtain ⟨handle, hfind, hstep⟩ := Option.bind_eq_some_iff.mp hstep
    obtain rfl : handle.thread = thread := of_decide_eq_true (List.find?_some
      (p := fun handle : ThreadHandle => decide (handle.thread = thread)) hfind)
    have hmem := List.mem_of_find?_eq_some hfind
    have hwaits := h.waits handle hmem
    cases hcall : handle.call with
    | waiting joined =>
      simp only [hcall] at hwaits hstep
      obtain rfl : joined = some handle.thread := hwaits
      obtain ⟨ok, hok, hstep⟩ := Option.bind_eq_some_iff.mp hstep
      obtain rfl := Option.some.inj hstep
      exact h.waited hmem (by simp [hcall]) (Option.join_eq_some_iff.mp hok)
    | held | waited | leaving =>
      simp only [hcall] at hstep
      cases hstep
  | endJoin thread =>
    obtain ⟨handle, hfind, hstep⟩ := Option.bind_eq_some_iff.mp hstep
    split at hstep
    · rename_i ok hcall
      obtain rfl := Option.some.inj hstep
      exact h.endJoin (List.mem_of_find?_eq_some hfind) hcall
    · cases hstep
  | drop thread =>
    obtain ⟨handle, hfind, hstep⟩ := Option.bind_eq_some_iff.mp hstep
    split at hstep
    · obtain rfl := Option.some.inj hstep
      exact h.dropHandle (List.mem_of_find?_eq_some hfind)
    · obtain rfl := Option.some.inj hstep
      exact h.dropHandle (List.mem_of_find?_eq_some hfind)
    · cases hstep

theorem coherent_of_patient (hs : machine.Reach Patient s) : s.Coherent := by
  refine hs.invariant ?_ ?_
  · rintro s rfl
    exact coherent_new
  · intro s a t _ hpatient hstep h
    exact h.step hpatient hstep

theorem not_unique_of_not_patient {a : ThreadAction} (hstep : s.step a = some t)
    (hpatient : ¬ s.Patient a) : ¬ t.UniqueIds := by
  cases a with
  | spawn name =>
    obtain rfl := Option.some.inj hstep
    simp only [Patient, not_forall, not_not] at hpatient
    obtain ⟨record, hfind, handle, hmem, hid⟩ := hpatient
    have hfirst := FirstMatch.fst_update (isFree name) (ThreadRecord.occupy s.results.length) s.records
    rw [Option.mem_def.mp hfind] at hfirst
    obtain ⟨⟨record', records⟩, hupdate, rfl⟩ := Option.map_eq_some_iff.mp hfirst
    unfold ThreadRegistry.spawn UniqueIds
    dsimp only
    rw [hupdate, List.map_append, List.map_singleton]
    intro hnodup
    exact (List.nodup_append.mp hnodup).2.2 _ (List.mem_map_of_mem hmem) _
      (List.mem_singleton_self _) hid
  | reserveSlots | finish | beginJoin | wait | endJoin | drop => exact absurd trivial hpatient

/-- In a run in which nothing is spawned under the name of a thread whose `join` is under way, handles have
ids of their own, every `join` waits for its own thread, and no record is marked for another one's
handle; and two handles have the same id after any other spawn. -/
theorem handles_own_threads_iff_patient (s : ThreadRegistry) :
    (machine.Reach Patient s → s.Sound) ∧
      ∀ a t, machine.step s a = some t → ¬ s.Patient a → ¬ t.Sound :=
  ⟨fun hs => (coherent_of_patient hs).sound,
    fun _ _ hstep hpatient hsound => not_unique_of_not_patient hstep hpatient hsound.unique⟩

/-- A thread is joined, and its slot taken over once its handle is gone. -/
def slotReused : List ThreadAction :=
  [.spawn "worker", .finish 0 true, .beginJoin 0, .wait 0, .endJoin 0, .drop 0, .spawn "worker"]

theorem handles_own_threads_slot_reused :
    ∃ s, machine.execWithin Patient new slotReused = some s ∧
      s.handles = [⟨0, "worker", 1, .held⟩] ∧ s.Sound :=
  ⟨(machine.execWithin Patient new slotReused).get (by decide), by decide, by decide,
    (handles_own_threads_iff_patient _).1 (Machine.Reach.execWithin (.start rfl)
      (Option.some_get (by decide)).symm)⟩

/-- The slot is taken over while the first thread is being joined, which then ends. -/
def slotTaken : List ThreadAction :=
  [.spawn "worker", .beginJoin 0, .spawn "worker", .finish 0 true, .wait 0]

/-- Then both handles have the id 0, the end of the first one's `join` marks the second thread's record,
and after its drop the `join` of the second handle waits for no thread. -/
theorem slot_taken_while_joining :
    ∃ s t, machine.exec new slotTaken = some s ∧ ¬ s.UniqueIds ∧ ¬ s.MarksOwn (.endJoin 0) ∧
      machine.exec s [.endJoin 0, .drop 0, .beginJoin 1] = some t ∧ ¬ t.WaitsForOwn := by
  refine ⟨(machine.exec new slotTaken).get (by decide), (machine.exec new (slotTaken ++
    [.endJoin 0, .drop 0, .beginJoin 1])).get (by decide), by decide, by decide, ?_, by decide, ?_⟩
  · intro hmarks
    exact absurd (hmarks ⟨0, "worker", 0, .waited true⟩ (by decide)
      ⟨0, "worker", .running, some 1⟩ (by decide) rfl 1 rfl) (by decide)
  · intro hwaits
    exact absurd (hwaits ⟨0, "worker", 1, .waiting none⟩ (by decide)) nofun

end ThreadRegistry

end Kronical
