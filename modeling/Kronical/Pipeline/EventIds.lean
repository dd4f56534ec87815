import Mathlib.Data.List.TakeWhile
import Kronical.Lib.VisitCounter
import Kronical.Pipeline.Ingest

/-!
# The ids of events

An event id packs the millisecond of the event's instant with a number, which counts the events of the
current visit of the clock to that millisecond: `next_event_id` is a `VisitCounter` over the readings it
takes (`nextEventId_counts`). So the ids are unique exactly if the clock never comes back to a millisecond
that it has left (`event_ids_unique_iff`).
-/

namespace Kronical

namespace IngestStage

open VisitCounter (count NeverReturns)

/-! ### Calls of `next_event_id` -/

/-- Successive calls, each with its first reading of the clock and those of its loop, as the instants and
the ids they return. -/
def nextEventIds : Transducer IngestStage (DateTime × List DateTime) (DateTime × Nat) :=
  fun self call =>
    match self.nextEventId call.1 call.2 with
    | some (next, stamped) => (next, [stamped])
    | none => (self, [])

/-- The call's loop, if it has one, reaches another millisecond. -/
def Returns (self : IngestStage) (call : DateTime × List DateTime) : Prop :=
  (self.nextEventId call.1 call.2).isSome = true

instance (self : IngestStage) (call : DateTime × List DateTime) : Decidable (self.Returns call) :=
  inferInstanceAs (Decidable (_ = true))

/-- The readings that a call takes: the first one and, if the ids of its millisecond are used up, those
up to another millisecond. -/
def taken (self : IngestStage) (call : DateTime × List DateTime) : List DateTime :=
  if nowMs call.1 = self.lastEventMs ∧ eventIdSeqMask ≤ self.eventSeq then
    call.1 :: (call.2.takeWhile (nowMs · = self.lastEventMs) ++
      (call.2.find? (nowMs · ≠ self.lastEventMs)).toList)
  else
    [call.1]

/-- Successive calls as the readings they take. -/
def readings : Transducer IngestStage (DateTime × List DateTime) DateTime :=
  fun self call => ((nextEventIds self call).1, self.taken call)

/-- The id of a millisecond and a number. -/
def idOf (given : Nat × Nat) : Nat := (given.1 * 2 ^ eventIdSeqBits % 2 ^ 64) ||| given.2

/-- The counter that a stage holds. -/
def counter (self : IngestStage) : Nat × Nat := (self.lastEventMs, self.eventSeq)

/-! ### The counter behind them -/

theorem count_spent {limit last seq : Nat} (h : limit ≤ seq) {spins : List DateTime}
    (hspins : ∀ t ∈ spins, nowMs t = last) :
    (count limit).run (last, seq) (spins.map nowMs) = ((last, seq), []) := by
  induction spins with
  | nil => rfl
  | cons t spins ih =>
    obtain ⟨ht, hspins⟩ := List.forall_mem_cons.mp hspins
    rw [List.map_cons, Transducer.run_cons, ht, VisitCounter.count_again_of_le h, ih hspins]
    rfl

/-- A call that returns counts the readings it takes, and its id packs the number it is given. -/
theorem nextEventId_counts {self next : IngestStage} {call : DateTime × List DateTime}
    {stamp : DateTime} {eventId : Nat}
    (h : self.nextEventId call.1 call.2 = some (next, stamp, eventId)) :
    ∃ given, (count eventIdSeqMask).run self.counter ((self.taken call).map nowMs) =
        (next.counter, [given]) ∧ given.1 = nowMs stamp ∧ eventId = idOf given := by
  unfold nextEventId at h
  unfold taken
  by_cases hms : nowMs call.1 = self.lastEventMs
  · rw [if_pos hms] at h
    by_cases hspent : eventIdSeqMask ≤ self.eventSeq
    · rw [if_pos hspent] at h
      obtain ⟨spin, hspin, heq⟩ := Option.map_eq_some_iff.mp h
      cases heq
      refine ⟨(nowMs stamp, 0), ?_, rfl, rfl⟩
      have hother : nowMs stamp ≠ self.lastEventMs := by simpa using List.find?_some hspin
      have hsame : ∀ t ∈ call.1 :: call.2.takeWhile (nowMs · = self.lastEventMs),
          nowMs t = self.lastEventMs := by
        refine List.forall_mem_cons.mpr ⟨hms, fun t ht => ?_⟩
        have htaken := List.mem_takeWhile_imp ht
        exact of_decide_eq_true htaken
      rw [if_pos ⟨hms, hspent⟩, hspin, ← List.cons_append, List.map_append, Transducer.run_append,
        counter, count_spent hspent hsame]
      show (count eventIdSeqMask).run (self.lastEventMs, self.eventSeq) [nowMs stamp] = _
      rw [Transducer.run_cons, VisitCounter.count_other hother]
      rfl
    · rw [if_neg hspent] at h
      cases h
      refine ⟨(nowMs call.1, self.eventSeq + 1), ?_, rfl, rfl⟩
      rw [if_neg fun hboth => hspent hboth.2]
      show (count eventIdSeqMask).run self.counter [nowMs call.1] = _
      rw [Transducer.run_cons, counter, hms, VisitCounter.count_again_of_lt (Nat.not_le.mp hspent)]
      rfl
  · rw [if_neg hms] at h
    cases h
    refine ⟨(nowMs call.1, 0), ?_, rfl, rfl⟩
    rw [if_neg fun hboth => hms hboth.1]
    show (count eventIdSeqMask).run self.counter [nowMs call.1] = _
    rw [Transducer.run_cons, counter, VisitCounter.count_other hms]
    rfl

theorem nextEventIds_count {self : IngestStage} {calls : List (DateTime × List DateTime)}
    (hreturns : nextEventIds.Along Returns self calls) :
    (nextEventIds.run self calls).2.map (fun stamped => (nowMs stamped.1, stamped.2)) =
      ((count eventIdSeqMask).run self.counter ((readings.run self calls).2.map nowMs)).2.map
        fun given => (given.1, idOf given) := by
  induction calls generalizing self with
  | nil => rfl
  | cons call calls ih =>
    obtain ⟨hcall, hrest⟩ := hreturns
    obtain ⟨⟨next, stamp, eventId⟩, hnext⟩ := Option.isSome_iff_exists.mp hcall
    obtain ⟨given, hcount, hms, hid⟩ := nextEventId_counts hnext
    have hstep : nextEventIds self call = (next, [(stamp, eventId)]) := by
      rw [nextEventIds, hnext]
    rw [hstep] at hrest
    rw [Transducer.run_cons_snd, Transducer.run_cons_snd, List.map_append, List.map_append,
      Transducer.run_append, readings, hcount, hstep, List.map_append]
    dsimp only
    rw [ih hrest, List.map_singleton, List.map_singleton, hms, hid]

/-! ### Packing -/

/-- A millisecond and a number that a 64-bit id has room for. -/
def Fits (given : Nat × Nat) : Prop := given.1 < 2 ^ 51 ∧ given.2 ≤ eventIdSeqMask

theorem eventIdSeqMask_pos : 0 < eventIdSeqMask := by decide

theorem idOf_eq {given : Nat × Nat} (h : Fits given) : idOf given = given.1 * 2 ^ 12 + given.2 := by
  obtain ⟨hms, hnumber⟩ := h
  have hlow : given.2 < 2 ^ 12 := Nat.lt_succ_of_le hnumber
  have hroom : given.1 * 2 ^ 12 < 2 ^ 64 := by omega
  show (given.1 * 2 ^ 12 % 2 ^ 64) ||| given.2 = _
  rw [Nat.mod_eq_of_lt hroom, Nat.mul_comm]
  exact (Nat.two_pow_add_eq_or_of_lt hlow given.1).symm

theorem idOf_shiftRight {given : Nat × Nat} (h : Fits given) : idOf given >>> 12 = given.1 := by
  have hlow : given.2 < 2 ^ 12 := Nat.lt_succ_of_le h.2
  rw [idOf_eq h, Nat.shiftRight_eq_div_pow]
  omega

theorem idOf_injective {given given' : Nat × Nat} (h : Fits given) (h' : Fits given')
    (heq : idOf given = idOf given') : given = given' := by
  have hms : given.1 = given'.1 := by rw [← idOf_shiftRight h, heq, idOf_shiftRight h']
  rw [idOf_eq h, idOf_eq h', hms] at heq
  exact Prod.ext hms (Nat.add_left_cancel heq)

end IngestStage

open IngestStage VisitCounter in
/-- For every sequence of calls of `next_event_id` whose loops reach another millisecond, with
milliseconds below 2^51: the ids are pairwise distinct, and the upper part of each is the millisecond of
the instant that is returned with it, exactly if the readings never come back to a millisecond that they
have left. -/
theorem event_ids_unique_iff (started : Int) (calls : List (DateTime × List DateTime))
    (hreturns : nextEventIds.Along Returns (.new started) calls)
    (hms : ∀ t ∈ (readings.run (.new started) calls).2, nowMs t < 2 ^ 51) :
    (((nextEventIds.run (.new started) calls).2.map Prod.snd).Nodup ∧
        ∀ stamped ∈ (nextEventIds.run (.new started) calls).2,
          stamped.2 >>> eventIdSeqBits = nowMs stamped.1) ↔
      NeverReturns 0 ((readings.run (.new started) calls).2.map nowMs) := by
  have hcount := nextEventIds_count hreturns
  have hfits : ∀ given ∈ ((count eventIdSeqMask).run (0, 0)
      ((readings.run (.new started) calls).2.map nowMs)).2, Fits given := by
    intro given hgiven
    obtain ⟨hmem, hlimit⟩ := mem_bounds (Nat.zero_le _) hgiven
    obtain ⟨t, ht, hgt⟩ := List.mem_map.mp hmem
    exact ⟨hgt ▸ hms t ht, hlimit⟩
  have hupper : ∀ stamped ∈ (nextEventIds.run (.new started) calls).2,
      stamped.2 >>> eventIdSeqBits = nowMs stamped.1 := by
    intro stamped hstamped
    have hmem := List.mem_map_of_mem (f := fun s : DateTime × Nat => (nowMs s.1, s.2)) hstamped
    rw [hcount] at hmem
    obtain ⟨given, hgiven, heq⟩ := List.mem_map.mp hmem
    obtain ⟨hgivenMs, hgivenId⟩ := Prod.mk.inj heq
    rw [← hgivenId, ← hgivenMs]
    exact idOf_shiftRight (hfits given hgiven)
  have hids : (nextEventIds.run (.new started) calls).2.map Prod.snd =
      ((count eventIdSeqMask).run (0, 0)
        ((readings.run (.new started) calls).2.map nowMs)).2.map idOf := by
    have hsnd := congrArg (List.map Prod.snd) hcount
    rwa [List.map_map, List.map_map] at hsnd
  rw [and_iff_left hupper, hids, ← nodup_iff eventIdSeqMask_pos]
  constructor
  · intro hnodup
    exact hnodup.of_map
  · intro hnodup
    exact List.Nodup.map_on
      (fun g hg g' hg' heq => idOf_injective (hfits g hg) (hfits g' hg') heq) hnodup

open IngestStage VisitCounter in
/-- Two events in one millisecond and one in the next. -/
theorem event_ids_unique_forward :
    ((nextEventIds.run (.new 0) [(5000000, []), (5000001, []), (6000000, [])]).2.map Prod.snd).Nodup :=
  ((event_ids_unique_iff 0 [(5000000, []), (5000001, []), (6000000, [])] (by decide)
    (by decide)).mpr (by decide)).1

open IngestStage in
/-- The clock is set back by a millisecond, and comes back: the first and the third event share an id. -/
theorem event_id_returns :
    ¬ (((nextEventIds.run (.new 0) [(5000000, []), (4000000, []), (5000000, [])]).2.map
          Prod.snd).Nodup ∧
      ∀ stamped ∈ (nextEventIds.run (.new 0) [(5000000, []), (4000000, []), (5000000, [])]).2,
        stamped.2 >>> eventIdSeqBits = nowMs stamped.1) := by
  decide

end Kronical
