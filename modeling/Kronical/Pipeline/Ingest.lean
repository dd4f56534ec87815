import Kronical.Pipeline.Types

/-!
# The ingest stage

The stage stamps every event it receives with the clock and an id, collects events until its ticker
fires, and keeps the envelope stage informed of the time: a `Tick` follows every accepted event and
every flushed batch, and an idle one every half second.

The `select!` picks among the event channel and the ticker as it likes, and what it picks, with the
clock readings the stage then takes, is one `Wake`.
-/

namespace Kronical

def eventIdSeqBits : Nat := 12

def eventIdSeqMask : Nat := 2 ^ eventIdSeqBits - 1

/-- `now.timestamp_millis() as u64`. -/
def nowMs (now : DateTime) : Nat := asU64 (timestampMillis now)

/-- The idle tick interval, in nanoseconds. -/
def idleTickInterval : Int := 500000000

/-- What a turn of the ingest loop picks, and the readings of the clocks it then takes: `now` and the
`spins` while an id is generated, `tickNow` for a tick (wall clock), `woken` for the elapsed idle time
and `sent` after a tick (monotonic clock). -/
inductive Wake
  | event (event : KronicalEvent) (now : DateTime) (spins : List DateTime) (tickNow : DateTime)
      (sent : Int)
  | ticker (woken : Int) (tickNow : DateTime) (sent : Int)
  | disconnected
  deriving DecidableEq, Repr

structure IngestStage where
  pending : List RawEvent
  lastEventMs : Nat
  eventSeq : Nat
  lastIdleTick : Int
  /-- The loop was left. -/
  stopped : Bool
  deriving DecidableEq, Repr

namespace IngestStage

def new (started : Int) : IngestStage :=
  { pending := [], lastEventMs := 0, eventSeq := 0, lastIdleTick := started, stopped := false }

/-- The instant and the id of the next event. When the ids of a millisecond are used up the clock is
read until it shows another one; `none` if no reading does. -/
def nextEventId (self : IngestStage) (now : DateTime) (spins : List DateTime) :
    Option (IngestStage × DateTime × Nat) :=
  if nowMs now = self.lastEventMs then
    if eventIdSeqMask ≤ self.eventSeq then
      (spins.find? fun spin => nowMs spin ≠ self.lastEventMs).map fun spin =>
        ({ self with lastEventMs := nowMs spin, eventSeq := 0 }, spin,
          (nowMs spin * 2 ^ eventIdSeqBits % 2 ^ 64) ||| 0)
    else
      some ({ self with eventSeq := self.eventSeq + 1 }, now,
        (nowMs now * 2 ^ eventIdSeqBits % 2 ^ 64) ||| (self.eventSeq + 1))
  else
    some ({ self with lastEventMs := nowMs now, eventSeq := 0 }, now,
      (nowMs now * 2 ^ eventIdSeqBits % 2 ^ 64) ||| 0)

def convertKronidToRaw (now : DateTime) (eventId : Nat) : KronicalEvent → Option RawEvent
  | .keyboardInput => some (.keyboardInput now eventId ⟨none, none, []⟩)
  | .mouseInput x y button clicks kind =>
    some (.mouseInput now eventId
      { position := ⟨x, y⟩, button, clickCount := if clicks > 0 then some clicks else none,
        eventType := some kind, wheelAmount := none, wheelRotation := none, wheelAxis := none,
        wheelScrollType := none })
  | .mouseWheel clicks x y scrollType amount rotation axis =>
    some (.mouseInput now eventId
      { position := ⟨x, y⟩, button := none, clickCount := some clicks, eventType := none,
        wheelAmount := some amount, wheelRotation := some rotation, wheelAxis := axis,
        wheelScrollType := some scrollType })
  | .windowFocusChange focusInfo => some (.windowFocusChange now eventId focusInfo)
  | .shutdown => none

/-- The pending events as a batch command, if there are any. -/
def flush (self : IngestStage) (reason : FlushReason) : List DeriveCommand :=
  if self.pending.isEmpty then [] else [.batch ⟨self.pending, reason⟩]

/-- One turn of the stage's loop, as the commands it sends. -/
def ingest : Transducer IngestStage Wake DeriveCommand
  | self, .event .shutdown _ _ _ _ =>
    ({ self with pending := [], stopped := true }, self.flush .shutdown ++ [.shutdown])
  | self, .event event now spins tickNow sent =>
    match self.nextEventId now spins with
    | some (next, stamp, eventId) =>
      match convertKronidToRaw stamp eventId event with
      | some raw =>
        ({ next with pending := next.pending ++ [raw], lastIdleTick := sent }, [.tick tickNow])
      | none => (next, [])
    -- The loop that waits for another millisecond is still running: the turn is not over.
    | none => (self, [])
  | self, .ticker woken tickNow sent =>
    if self.pending.isEmpty then
      if idleTickInterval ≤ woken - self.lastIdleTick then
        ({ self with lastIdleTick := sent }, [.tick tickNow])
      else
        (self, [])
    else
      ({ self with pending := [], lastIdleTick := sent }, self.flush .timeout ++ [.tick tickNow])
  | self, .disconnected => ({ self with stopped := true }, [])

/-- One turn of the stage's loop. -/
def handle (self : IngestStage) (wake : Wake) : IngestStage × List Packet :=
  ((ingest self wake).1, (ingest self wake).2.map fun cmd => ⟨.envelope, cmd⟩)

/-- The stage ends with its first failed send; only one of `Shutdown` is ignored, and the loop is
left behind it anyway. -/
def refuse (self : IngestStage) (_ : Packet) (_ : List Packet) : IngestStage × List Packet :=
  ({ self with stopped := true }, [])

end IngestStage

/-! ### What a turn does -/

/-- The readings of the wall clock a turn of the ingest loop takes, in order. -/
def Wake.readings : Wake → List DateTime
  | .event .shutdown _ _ _ _ => []
  | .event _ now spins tickNow _ => now :: spins ++ [tickNow]
  | .ticker _ tickNow _ => [tickNow]
  | .disconnected => []

namespace IngestStage

/-- The event a turn adds to the pending ones, and the reading its tick carries. -/
def accepted (self : IngestStage) : Wake → Option (RawEvent × DateTime)
  | .event event now spins tickNow _ =>
    (self.nextEventId now spins).bind fun next =>
      (convertKronidToRaw next.2.1 next.2.2 event).map fun raw => (raw, tickNow)
  | .ticker .. | .disconnected => none

theorem nextEventId_spec {self next : IngestStage} {now stamp : DateTime} {eventId : Nat}
    {spins : List DateTime} (h : self.nextEventId now spins = some (next, stamp, eventId)) :
    next.pending = self.pending ∧ stamp ∈ now :: spins := by
  unfold nextEventId at h
  split_ifs at h
  · obtain ⟨spin, hspin, heq⟩ := Option.map_eq_some_iff.mp h
    cases heq
    exact ⟨rfl, List.mem_cons_of_mem _ (List.mem_of_find?_eq_some hspin)⟩
  · cases h
    exact ⟨rfl, List.mem_cons_self⟩
  · cases h
    exact ⟨rfl, List.mem_cons_self⟩

theorem convertKronidToRaw_timestamp {event : KronicalEvent} {now : DateTime} {eventId : Nat}
    {raw : RawEvent} (h : convertKronidToRaw now eventId event = some raw) :
    raw.timestamp = now := by
  cases event <;> cases h <;> rfl

/-- What a turn of the ingest loop can do: accept an event and tick, nothing, or flush and tick or end. -/
inductive Turns (self : IngestStage) (wake : Wake) : List RawEvent → List DeriveCommand → Prop
  | accept {raw now} (haccepted : self.accepted wake = some (raw, now)) :
      Turns self wake (self.pending ++ [raw]) [.tick now]
  | idle (haccepted : self.accepted wake = none) : Turns self wake self.pending []
  | flush {reason last} (haccepted : self.accepted wake = none)
      (hlast : last = .shutdown ∨ ∃ now ∈ wake.readings, last = .tick now) :
      Turns self wake [] (self.flush reason ++ [last])

theorem ingest_turns (self : IngestStage) (wake : Wake) :
    self.Turns wake (ingest self wake).1.pending (ingest self wake).2 := by
  rcases hstep : ingest self wake with ⟨next, out⟩
  unfold ingest at hstep
  split at hstep
  · obtain ⟨rfl, rfl⟩ := Prod.mk.inj hstep
    refine .flush ?_ (.inl rfl)
    exact Option.bind_eq_none_iff.mpr fun _ _ => rfl
  · rename_i event now spins tickNow sent hevent
    split at hstep
    · rename_i stage stamp eventId hnext
      have hpending : stage.pending = self.pending := (nextEventId_spec hnext).1
      split at hstep
      · rename_i raw hraw
        obtain ⟨rfl, rfl⟩ := Prod.mk.inj hstep
        rw [hpending]
        refine .accept ?_
        simp [accepted, hnext, hraw]
      · rename_i hraw
        obtain ⟨rfl, rfl⟩ := Prod.mk.inj hstep
        rw [hpending]
        refine .idle ?_
        simp [accepted, hnext, hraw]
    · rename_i hnext
      obtain ⟨rfl, rfl⟩ := Prod.mk.inj hstep
      refine .idle ?_
      simp [accepted, hnext]
  · rename_i woken tickNow sent
    have htick : ∃ now ∈ (Wake.ticker woken tickNow sent).readings,
        DeriveCommand.tick tickNow = .tick now := ⟨tickNow, List.mem_cons_self, rfl⟩
    split_ifs at hstep with hempty hdue
    · obtain ⟨rfl, rfl⟩ := Prod.mk.inj hstep
      have hnone : self.pending = [] := List.isEmpty_iff.mp hempty
      show self.Turns _ self.pending [_]
      rw [hnone]
      have hflush : self.Turns _ [] (self.flush .timeout ++ [.tick tickNow]) :=
        .flush rfl (.inr htick)
      rwa [flush, if_pos hempty] at hflush
    · obtain ⟨rfl, rfl⟩ := Prod.mk.inj hstep
      exact .idle rfl
    · obtain ⟨rfl, rfl⟩ := Prod.mk.inj hstep
      exact .flush rfl (.inr htick)
  · obtain ⟨rfl, rfl⟩ := Prod.mk.inj hstep
    exact .idle rfl

theorem ingest_ticker {self : IngestStage} (h : self.pending ≠ []) (woken : Int)
    (tickNow : DateTime) (sent : Int) :
    (ingest self (.ticker woken tickNow sent)).2 = self.flush .timeout ++ [.tick tickNow] := by
  simp [ingest, h]

theorem accepted_readings {self : IngestStage} {wake : Wake} {raw : RawEvent} {now : DateTime}
    (haccepted : self.accepted wake = some (raw, now)) :
    ∃ earlier, wake.readings = earlier ++ [now] ∧ raw.timestamp ∈ earlier := by
  match wake with
  | .event event first spins tickNow sent =>
    obtain ⟨⟨stage, stamp, eventId⟩, hnext, hraw⟩ := Option.bind_eq_some_iff.mp haccepted
    obtain ⟨_, hconvert, heq⟩ := Option.map_eq_some_iff.mp hraw
    cases heq
    refine ⟨first :: spins, ?_, ?_⟩
    · cases event with
      | shutdown => cases hconvert
      | keyboardInput | mouseInput | mouseWheel | windowFocusChange => rfl
    · rw [convertKronidToRaw_timestamp hconvert]
      exact (nextEventId_spec hnext).2
  | .ticker .. | .disconnected => cases haccepted

end IngestStage

end Kronical
