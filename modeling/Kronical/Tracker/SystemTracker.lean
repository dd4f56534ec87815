import Mathlib.Data.PNat.Defs
import Kronical.Lib.Machine
import Kronical.Storage.SystemMetrics

/-!
# The system tracker

The tracker samples its process in a loop and keeps the samples in `metrics_buffer` until an insertion
succeeds. It inserts when a batch is full, before it acknowledges a flush or answers a query, and at its
end. The model stops between any two of these, and whatever comes from outside is part of an action.
-/

namespace Kronical

/-- What the system reports of the process, and when. -/
structure ProcessReading where
  cpuPercent : UInt64
  memoryBytes : UInt64
  diskIo : UInt64
  time : DateTime
  deriving DecidableEq, Repr

/-- `collect_system_metrics`: the sample, and the new `last_disk_io`. -/
def collectSystemMetrics (lastDiskIo : UInt64) (reading : ProcessReading) : SystemMetrics × UInt64 :=
  let diskIoDelta := if reading.diskIo ≥ lastDiskIo then reading.diskIo - lastDiskIo else reading.diskIo
  (⟨reading.time, reading.cpuPercent, reading.memoryBytes, diskIoDelta⟩, reading.diskIo)

inductive MetricsQuery
  | byLimit (pid : UInt32) (limit : Nat)
  | byRange (pid : UInt32) (start «end» : DateTime)
  deriving DecidableEq, Repr

/-- What the tracker sends: acknowledgements, and answers to queries. -/
inductive TrackerReply
  | ack (flush : Nat)
  | rows (query : Nat) (result : Except String (List SystemMetrics))

/-- Where the tracker is: before its first sample, in the loop over `control_rx`, at the sample of the
iteration, at the two insertions behind it, in the loop over `query_rx`, at the test of `running`, at the
last insertion, or gone. -/
inductive TrackerPoint
  | start
  | control
  | sample
  | batch
  | acks
  | queries
  | test
  | final
  | done
  deriving DecidableEq, Repr

structure SystemTracker where
  point : TrackerPoint
  /-- The samples inserted so far. -/
  store : List SystemMetrics
  metricsBuffer : List SystemMetrics
  lastDiskIo : UInt64
  batchCount : Nat
  running : Bool
  pendingFlushAcks : List Nat
  replies : List TrackerReply
  /-- The samples collected so far. -/
  collected : List SystemMetrics

/-- What happens at a program point: a message or none, a reading or none, an insertion that succeeds or
not. A query is answered with what the store finds. -/
inductive TrackerAction
  | stop
  | flush (ack : Nat)
  | noControl (disconnected : Bool)
  | sample (reading : Option ProcessReading)
  | insert (ok : Bool)
  | query (id : Nat) (query : MetricsQuery) (ok : Bool) (found : Except String (List SystemMetrics))
  | noQuery
  | test

/-- The insertion that comes with the action succeeds. -/
def TrackerAction.Inserts : TrackerAction → Prop
  | .insert ok | .query _ _ ok _ => ok = true
  | _ => False

namespace SystemTracker

def new : SystemTracker :=
  { point := .start, store := [], metricsBuffer := [], lastDiskIo := 0, batchCount := 0, running := true,
    pendingFlushAcks := [], replies := [], collected := [] }

/-- A sample that has been taken is pushed and counted. -/
def push (self : SystemTracker) (reading : ProcessReading) : SystemTracker :=
  let (metrics, lastDiskIo) := collectSystemMetrics self.lastDiskIo reading
  { self with
    metricsBuffer := self.metricsBuffer ++ [metrics]
    lastDiskIo := lastDiskIo
    batchCount := self.batchCount + 1
    collected := self.collected ++ [metrics] }

/-- `insert_metrics_batch` of the buffer, which is cleared if that succeeds. -/
def insertMetricsBatch (self : SystemTracker) (ok : Bool) : SystemTracker :=
  if ok then { self with store := self.store ++ self.metricsBuffer, metricsBuffer := [] } else self

def flushBuffer (self : SystemTracker) (ok : Bool) : SystemTracker :=
  if self.metricsBuffer = [] then self else self.insertMetricsBatch ok

/-- The result of a query, from the rows that the store has found. -/
def answer (query : MetricsQuery) (found : Except String (List SystemMetrics)) :
    Except String (List SystemMetrics) :=
  match query, found with
  | .byLimit .., .ok rows => .ok rows.reverse
  | _, found => found

def step (batchSize : ℕ+) (self : SystemTracker) : TrackerAction → Option SystemTracker
  | .sample reading =>
    match self.point, reading with
    | .start, some reading => some { self.push reading with point := .control }
    | .start, none => some { self with point := .control }
    | .sample, some reading => some { self.push reading with point := .batch }
    | .sample, none => some { self with point := .acks }
    | _, _ => none
  | .stop => if self.point = .control then some { self with running := false } else none
  | .flush ack =>
    if self.point = .control then
      some { self with pendingFlushAcks := self.pendingFlushAcks ++ [ack] }
    else none
  | .noControl disconnected =>
    if self.point = .control then
      some { self with point := .sample, running := self.running && !disconnected }
    else none
  | .insert ok =>
    match self.point with
    | .batch =>
      if self.batchCount % batchSize = 0 then some { self.insertMetricsBatch ok with point := .acks }
      else some { self with point := .acks }
    | .acks =>
      if self.pendingFlushAcks = [] then some { self with point := .queries }
      else some { self.flushBuffer ok with
        point := .queries
        pendingFlushAcks := []
        replies := self.replies ++ self.pendingFlushAcks.map .ack }
    | .final =>
      -- The buffer is not cleared here.
      if self.metricsBuffer ≠ [] ∧ ok then
        some { self with point := .done, store := self.store ++ self.metricsBuffer }
      else some { self with point := .done }
    | _ => none
  | .query id query ok found =>
    if self.point = .queries then
      some { self.flushBuffer ok with replies := self.replies ++ [.rows id (answer query found)] }
    else none
  | .noQuery => if self.point = .queries then some { self with point := .test } else none
  | .test =>
    if self.point = .test then some { self with point := if self.running then .control else .final }
    else none

def machine (batchSize : ℕ+) : Machine SystemTracker TrackerAction := ⟨(· = .new), step batchSize⟩

/-! ### Every sample is accounted for -/

/-- Inserted, or in the buffer. -/
def Accounted (self : SystemTracker) : Prop := self.store ++ self.metricsBuffer = self.collected

variable {s t : SystemTracker} {batchSize : ℕ+}

theorem Accounted.push (h : s.Accounted) (reading : ProcessReading) : (s.push reading).Accounted := by
  show s.store ++ (s.metricsBuffer ++ [_]) = s.collected ++ [_]
  rw [← List.append_assoc, h]

theorem Accounted.insertMetricsBatch (h : s.Accounted) (ok : Bool) :
    (s.insertMetricsBatch ok).Accounted := by
  cases ok with
  | false => exact h
  | true => exact (List.append_nil _).trans h

theorem Accounted.flushBuffer (h : s.Accounted) (ok : Bool) : (s.flushBuffer ok).Accounted := by
  unfold SystemTracker.flushBuffer
  split_ifs
  · exact h
  · exact h.insertMetricsBatch ok

theorem metricsBuffer_flushBuffer {ok : Bool} (h : ok = true ∨ s.metricsBuffer = []) :
    (s.flushBuffer ok).metricsBuffer = [] := by
  unfold SystemTracker.flushBuffer
  split_ifs with hempty
  · exact hempty
  · rw [h.resolve_right hempty]
    rfl

theorem Accounted.store_eq (h : s.Accounted) (hempty : s.metricsBuffer = []) : s.store = s.collected := by
  rw [← h, hempty, List.append_nil]

/-- What a step keeps: after the last insertion the buffer may hold samples that are in the store. -/
def Settled (self : SystemTracker) : Prop :=
  self.Accounted ∨ self.point = .done ∧ self.store = self.collected

theorem Accounted.step (h : s.Accounted) {a : TrackerAction} (hstep : s.step batchSize a = some t) :
    t.Settled := by
  cases a with
  | sample reading =>
    simp only [SystemTracker.step] at hstep
    split at hstep
    · obtain rfl := Option.some.inj hstep
      exact Or.inl (h.push _)
    · obtain rfl := Option.some.inj hstep
      exact Or.inl h
    · obtain rfl := Option.some.inj hstep
      exact Or.inl (h.push _)
    · obtain rfl := Option.some.inj hstep
      exact Or.inl h
    · cases hstep
  | insert ok =>
    simp only [SystemTracker.step] at hstep
    split at hstep
    · split_ifs at hstep <;> obtain rfl := Option.some.inj hstep
      · exact Or.inl (h.insertMetricsBatch ok)
      · exact Or.inl h
    · split_ifs at hstep <;> obtain rfl := Option.some.inj hstep
      · exact Or.inl h
      · exact Or.inl (h.flushBuffer ok)
    · split_ifs at hstep <;> obtain rfl := Option.some.inj hstep
      · exact Or.inr ⟨rfl, h⟩
      · exact Or.inl h
    · cases hstep
  | query id query ok found =>
    simp only [SystemTracker.step] at hstep
    split_ifs at hstep
    obtain rfl := Option.some.inj hstep
    exact Or.inl (h.flushBuffer ok)
  | stop | flush | noControl | noQuery | test =>
    simp only [SystemTracker.step] at hstep
    split_ifs at hstep <;> obtain rfl := Option.some.inj hstep <;> exact Or.inl h

theorem step_done (h : s.point = .done) (a : TrackerAction) : s.step batchSize a = none := by
  cases a with
  | sample reading => cases reading <;> simp [step, h]
  | insert | stop | flush | noControl | query | noQuery | test => simp [step, h]

theorem settled_of_reachable (hs : (machine batchSize).Reachable s) : s.Settled := by
  refine hs.invariant ?_ ?_
  · rintro _ rfl
    exact Or.inl rfl
  · intro s a t _ _ hstep h
    rcases h with h | ⟨hdone, -⟩
    · exact h.step hstep
    · cases (step_done hdone a).symm.trans hstep

theorem accounted_of_reachable (hs : (machine batchSize).Reachable s) (h : s.point ≠ .done) :
    s.Accounted :=
  (settled_of_reachable hs).resolve_right fun hdone => h hdone.1

theorem Accounted.store_of_replied (h : s.Accounted) {a : TrackerAction}
    (hstep : s.step batchSize a = some t) (hreplies : t.replies ≠ s.replies)
    (hflushed : a.Inserts ∨ s.metricsBuffer = []) : t.store = t.collected := by
  cases a with
  | insert ok =>
    simp only [SystemTracker.step] at hstep
    split at hstep
    · split_ifs at hstep <;> obtain rfl := Option.some.inj hstep
      · exact absurd (by cases ok <;> rfl) hreplies
      · exact absurd rfl hreplies
    · split_ifs at hstep <;> obtain rfl := Option.some.inj hstep
      · exact absurd rfl hreplies
      · exact (h.flushBuffer ok).store_eq (metricsBuffer_flushBuffer hflushed)
    · split_ifs at hstep <;> obtain rfl := Option.some.inj hstep <;> exact absurd rfl hreplies
    · cases hstep
  | query id query ok found =>
    simp only [SystemTracker.step] at hstep
    split_ifs at hstep
    obtain rfl := Option.some.inj hstep
    exact (h.flushBuffer ok).store_eq (metricsBuffer_flushBuffer hflushed)
  | sample reading =>
    simp only [SystemTracker.step] at hstep
    split at hstep <;> simp only [Option.some.injEq, reduceCtorEq] at hstep <;> subst hstep <;>
      exact absurd rfl hreplies
  | stop | flush | noControl | noQuery | test =>
    simp only [SystemTracker.step] at hstep
    split_ifs at hstep <;> obtain rfl := Option.some.inj hstep <;> exact absurd rfl hreplies

/-- In every run, for every batch size: at every point of the loop the samples in the store, followed by
those in the buffer, are the samples collected so far, and a reply that comes behind a flush that
succeeded, or had nothing to do, is sent with all of them in the store. -/
theorem every_sample_accounted (batchSize : ℕ+) (s : SystemTracker)
    (hs : (machine batchSize).Reachable s) :
    (s.point ≠ .done → s.store ++ s.metricsBuffer = s.collected) ∧
      ∀ a t, (machine batchSize).step s a = some t → t.replies ≠ s.replies →
        a.Inserts ∨ s.metricsBuffer = [] → t.store = t.collected := by
  refine ⟨accounted_of_reachable hs, fun a t hstep hreplies hflushed => ?_⟩
  refine (accounted_of_reachable hs fun hdone => ?_).store_of_replied hstep hreplies hflushed
  cases (step_done hdone a).symm.trans hstep

/-- A flush is requested, and the batch of two samples before it cannot be inserted. -/
def flushAfterFailure : SystemTracker :=
  ((machine 2).exec new [.sample (some ⟨0, 1, 10, 0⟩), .flush 0, .noControl false,
    .sample (some ⟨0, 2, 15, 1⟩), .insert false]).get rfl

theorem every_sample_accounted_flush :
    flushAfterFailure.store ++ flushAfterFailure.metricsBuffer = flushAfterFailure.collected ∧
      ∃ t, (machine 2).step flushAfterFailure (.insert true) = some t ∧ t.collected.length = 2 ∧
        t.store = t.collected := by
  have hs : (machine 2).Reachable flushAfterFailure :=
    Machine.Reachable.exec (.start rfl) (Option.some_get rfl).symm
  obtain ⟨haccounted, hreplied⟩ := every_sample_accounted 2 flushAfterFailure hs
  exact ⟨haccounted nofun, _, rfl, rfl, hreplied (.insert true) _ rfl (List.cons_ne_nil _ _) (Or.inl rfl)⟩

end SystemTracker

end Kronical
