import Kronical.Pipeline.Downstream
import Kronical.Pipeline.LockCoherence

/-!
# Raw input at the login window

The compression stage looks for input signals between a `LockStart` and a `LockEnd` of a batch and
does not store their raw events. The lock deriver has removed these signals before, so it never finds
one (`suppress_lockWord`), and every raw event of every batch is stored (`storedRawEvents_eq`), also
the input given at the login window.
-/

namespace Kronical

/-! ### Nothing is ever suppressed -/

theorem suppressStep_lockWord {locked : Bool} {envs : List EventEnvelope} (h : LockWord locked envs)
    {s : List Nat × Bool} (hs : s.2 = true → locked = true) :
    (envs.foldl suppressStep s).1 = s.1 := by
  induction envs generalizing locked s with
  | nil => rfl
  | cons env envs ih =>
    have hstep : (suppressStep s env).1 = s.1 ∧
        ((suppressStep s env).2 = true → (lockMark env).getD locked = true) := by
      have hhead := h.1
      unfold suppressStep
      cases hkind : env.kind with
      | hint kind => exact ⟨rfl, by rwa [lockMark, hkind]⟩
      | signal kind =>
        rw [lockMark, hkind] at hhead ⊢
        cases kind with
        | lockStart => exact ⟨rfl, fun _ => rfl⟩
        | lockEnd => exact ⟨rfl, fun h => h⟩
        | keyboardInput | mouseInput =>
          -- an input signal while locked is no focus hint
          have hopen : s.2 = false := by
            by_contra hlocal
            have hlocked := hs (by simpa using hlocal)
            cases hhead hlocked
          simp [hopen]
        | appChanged | windowChanged | activityPulse => exact ⟨rfl, hs⟩
    rw [List.foldl_cons, ih h.2 hstep.2, hstep.1]

theorem suppress_lockWord {locked : Bool} {envs : List EventEnvelope} (h : LockWord locked envs) :
    suppress envs = [] :=
  suppressStep_lockWord h fun hfalse => absurd hfalse Bool.false_ne_true

theorem forwardRawEvents_events {envelopes : List EventEnvelope} (h : suppress envelopes = [])
    (events : List RawEvent) :
    (sentTo .storage (forwardRawEvents envelopes events)).filterMap asRawEvent = events := by
  have hall : events.filter (shouldStore (suppress envelopes)) = events := by
    rw [h]
    exact List.filter_eq_self.mpr fun e _ => by cases e <;> rfl
  rw [forwardRawEvents, hall]
  induction events with
  | nil => rfl
  | cons e events ih =>
    rw [List.map_cons, sentTo_cons_self, List.filterMap_cons_some (f := asRawEvent) (b := e) rfl, ih]
    exact List.filter_eq_self.mpr fun e _ => by rw [h]; cases e <;> rfl

theorem forwardCompactEvents_events (compactEvents : List CompactEvent) :
    (sentTo .storage (forwardCompactEvents compactEvents)).filterMap asRawEvent = [] := by
  unfold forwardCompactEvents
  split_ifs <;> rfl

theorem CompressionStage.handle_events {self : CompressionStage} (hself : self.persistRawEvents = true)
    (batch : RawBatch) {envelopes : List EventEnvelope} (h : suppress envelopes = []) :
    (sentTo .storage (self.handle (some (.process batch envelopes))).2).filterMap asRawEvent =
        batch.events ∧
      (self.handle (some (.process batch envelopes))).1.persistRawEvents = true := by
  unfold handle
  dsimp only
  by_cases hempty : batch.isEmpty
  · rw [if_pos hempty]
    exact ⟨(List.isEmpty_iff.mp hempty).symm, hself⟩
  · rw [if_neg hempty]
    refine ⟨?_, hself⟩
    rw [if_pos hself, sentTo_append, List.filterMap_append, CompressionEngine.compressEvents_raw,
      forwardRawEvents_events h, forwardCompactEvents_events, List.append_nil]

/-! ### What is stored of a stream -/

/-- The commands the compression stage receives for some batches. -/
def compressionCommands (envelope : EnvelopeStage) (batches : List RawBatch) :
    List CompressionCommand :=
  sentTo .compression
    (EnvelopeStage.loop.run envelope (batches.map fun batch => some (.batch batch))).2

/-- The raw events the compression stage sends to storage for some batches. -/
def storedRawEvents (envelope : EnvelopeStage) (compression : CompressionStage)
    (batches : List RawBatch) : List RawEvent :=
  (sentTo .storage (CompressionStage.loop.run compression
    ((compressionCommands envelope batches).map some)).2).filterMap asRawEvent

/-- All raw events of all batches are stored, in order. -/
theorem storedRawEvents_eq {envelope : EnvelopeStage} (henvelope : envelope.LockCoherent)
    {compression : CompressionStage} (hcompression : compression.persistRawEvents = true)
    (batches : List RawBatch) :
    storedRawEvents envelope compression batches = batches.flatMap (·.events) := by
  induction batches generalizing envelope compression with
  | nil => rfl
  | cons batch batches ih =>
    obtain ⟨hnext, hword, -⟩ := henvelope.derived (some (.batch batch))
    have hmoved : (envelope.loop (some (.batch batch))).1.LockCoherent := by
      rw [EnvelopeStage.loop, EnvelopeStage.handle_eq]
      exact hnext
    have hcommands : compressionCommands envelope (batch :: batches) =
        (if batch.isEmpty then [] else [.process batch (envelope.envelopesOf batch).2]) ++
          compressionCommands (envelope.loop (some (.batch batch))).1 batches := by
      rw [compressionCommands, List.map_cons, Transducer.run_cons_snd, sentTo_append,
        EnvelopeStage.loop, EnvelopeStage.handle_compression]
      rfl
    rw [storedRawEvents, hcommands, List.flatMap_cons]
    by_cases hempty : batch.isEmpty
    · rw [if_pos hempty, List.nil_append, List.isEmpty_iff.mp hempty, List.nil_append]
      exact ih hmoved hcompression
    · obtain ⟨hevents, hpersist⟩ :=
        CompressionStage.handle_events hcompression batch (suppress_lockWord hword)
      rw [if_neg hempty, List.cons_append, List.nil_append, List.map_cons, Transducer.run_cons_snd,
        sentTo_append, List.filterMap_append]
      exact congrArg₂ (· ++ ·) hevents (ih hmoved hpersist)

/-- Input while the login window is focused: behind a focus change to it and before the next one to
another app. -/
def lockedStep : Transducer Bool RawEvent RawEvent
  | _, .windowFocusChange _ _ focusInfo => (eqIgnoreAsciiCase focusInfo.appName "loginwindow", [])
  | locked, e => (locked, if locked then [e] else [])

def lockedInput (stream : List RawEvent) : List RawEvent := (lockedStep.run false stream).2

theorem mem_of_lockedStep {locked : Bool} {stream : List RawEvent} {e : RawEvent}
    (h : e ∈ (lockedStep.run locked stream).2) : e ∈ stream := by
  obtain ⟨was, i, hi, he⟩ := Transducer.mem_run h
  have heq : e = i := by
    cases i <;> cases was <;> simp [lockedStep] at he <;> exact he
  exact heq ▸ hi

/-- With raw events persisted, no input given at the login window is stored if and only if there is
none in the stream. -/
theorem no_locked_input_stored_iff (startedAt : DateTime) (grace idle maxStrings : Nat)
    (batches : List RawBatch) :
    (∀ e ∈ lockedInput (batches.flatMap (·.events)),
        e ∉ storedRawEvents (.new startedAt grace idle) (.new maxStrings true) batches) ↔
      lockedInput (batches.flatMap (·.events)) = [] := by
  rw [storedRawEvents_eq (EnvelopeStage.lockCoherent_new startedAt grace idle) rfl]
  constructor
  · intro hnone
    refine List.eq_nil_iff_forall_not_mem.mpr fun e he => ?_
    exact hnone e he (mem_of_lockedStep he)
  · intro hempty e he
    rw [hempty] at he
    cases he

/-- A keystroke at the login window is stored, also when it comes with the lock in one batch. -/
theorem keystroke_at_login_stored :
    ¬ ∀ e ∈ lockedInput ([⟨[.windowFocusChange 1 1 (.sample "loginwindow" "" 1),
          .keyboardInput 2 2 ⟨none, none, []⟩], .timeout⟩].flatMap RawBatch.events),
        e ∉ storedRawEvents (.new 0 30 300) (.new 100 true)
          [⟨[.windowFocusChange 1 1 (.sample "loginwindow" "" 1),
            .keyboardInput 2 2 ⟨none, none, []⟩], .timeout⟩] := by
  decide

end Kronical
