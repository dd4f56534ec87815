import Kronical.Pipeline.Coverage

/-!
# Every compressible event reaches a compact event

Each kind of compact event is made by a compressor of its own, and over a whole batch the compact events
of a kind point to the raw events of that kind, each once (`Coverage`). So each of these is in exactly
one compact event as soon as its compressor is asked at all: the scroll compressor is not if the batch has
a single wheel event, while the other two take a single event of theirs (`compressible_reached_iff`).
-/

namespace Kronical

/-- The kinds of compact events that every raw event of the kind should reach. -/
inductive CompactKind
  | scroll
  | keyboard
  | focus
  deriving DecidableEq, Repr

def CompactEvent.isKind : CompactEvent → CompactKind → Bool
  | .scroll _, .scroll => true
  | .keyboard _, .keyboard => true
  | .focus _, .focus => true
  | _, _ => false

/-- The event has all three fields of a wheel. -/
def MouseEventData.isWheel (data : MouseEventData) : Bool :=
  data.wheelAmount.isSome && data.wheelRotation.isSome && data.wheelAxis.isSome

/-- The kind of compact event that should stand for a raw event. -/
def RawEvent.compactKind : RawEvent → Option CompactKind
  | .keyboardInput .. => some .keyboard
  | .windowFocusChange .. => some .focus
  | .mouseInput _ _ data => if data.isWheel then some .scroll else none

/-- The ids of the raw events of a kind. -/
def idsOf (kind : CompactKind) (events : List RawEvent) : List Nat :=
  (events.filter (·.compactKind = some kind)).map (·.eventId)

/-- The link points to the event. -/
def pointsTo (id : Nat) (link : Option RawEventPointer) : Bool := link.any fun p => id ∈ p.ids

theorem Linked.countP {links : List (Option RawEventPointer)} {ids : List Nat} (h : Linked links ids)
    (hids : ids.Nodup) (id : Nat) : links.countP (pointsTo id) = ids.count id := by
  obtain ⟨groups, rfl, hperm⟩ := h
  rw [← hperm.count_eq]
  replace hids := hperm.nodup_iff.mpr hids
  clear hperm
  induction groups with
  | nil => rfl
  | cons group groups ih =>
    obtain ⟨hgroup, hrest, -⟩ := List.nodup_append.mp hids
    have hpoints : pointsTo id (some ⟨defaultRawEventTable, group⟩) = decide (id ∈ group) := rfl
    rw [List.map_cons, List.countP_cons, ih hrest, List.flatten_cons, List.count_append, hpoints,
      Nat.add_comm]
    by_cases hmem : id ∈ group
    · rw [List.count_eq_one_of_mem hgroup hmem, decide_eq_true hmem, if_pos rfl]
    · rw [List.count_eq_zero_of_not_mem hmem, decide_eq_false hmem]
      rfl

/-! ### The ids of a kind -/

theorem filterMap_ids {κ : Type} {kind : CompactKind} {extract : RawEvent → Option κ} {id : κ → Nat}
    (h : ∀ e, (extract e).map id = if e.compactKind = some kind then some e.eventId else none)
    (events : List RawEvent) : (events.filterMap extract).map id = idsOf kind events := by
  induction events with
  | nil => rfl
  | cons e events ih =>
    have he := h e
    rw [List.filterMap_cons, idsOf, List.filter_cons]
    by_cases hkind : e.compactKind = some kind
    · rw [if_pos hkind] at he
      obtain ⟨k, hk, hid⟩ := Option.map_eq_some_iff.mp he
      rw [hk, if_pos (decide_eq_true hkind), List.map_cons, List.map_cons, ih, hid]
      rfl
    · rw [if_neg hkind] at he
      rw [Option.map_eq_none_iff.mp he, if_neg (by simpa using hkind), ih]
      rfl

theorem extractScrollEvents_ids (events : List RawEvent) :
    (ScrollCompressor.extractScrollEvents events).map (·.eventId) = idsOf .scroll events := by
  refine filterMap_ids (fun e => ?_) events
  cases e with
  | keyboardInput => rfl
  | windowFocusChange => rfl
  | mouseInput timestamp eventId data =>
    cases hamount : data.wheelAmount <;> cases hrotation : data.wheelRotation <;>
      cases haxis : data.wheelAxis <;>
      simp [RawEvent.compactKind, RawEvent.eventId, MouseEventData.isWheel, hamount, hrotation, haxis]

theorem compactKind_mouseInput {timestamp : DateTime} {eventId : Nat} {data : MouseEventData}
    {kind : CompactKind} (hkind : kind ≠ .scroll) :
    (RawEvent.mouseInput timestamp eventId data).compactKind ≠ some kind := by
  show (if data.isWheel then some CompactKind.scroll else none) ≠ some kind
  split_ifs
  · exact fun h => hkind (Option.some.inj h).symm
  · exact nofun

theorem extractKeyboardEvents_ids (events : List RawEvent) :
    (KeyboardActivityCompressor.extractKeyboardEvents events).map (·.1) = idsOf .keyboard events := by
  refine filterMap_ids (fun e => ?_) events
  cases e with
  | keyboardInput => rfl
  | windowFocusChange => rfl
  | mouseInput => exact (if_neg (compactKind_mouseInput (by decide))).symm

theorem focusIds_eq (events : List RawEvent) :
    FocusEventProcessor.focusIds events = idsOf .focus events := by
  rw [← List.map_id (FocusEventProcessor.focusIds events)]
  refine filterMap_ids (fun e => ?_) events
  cases e with
  | keyboardInput => rfl
  | windowFocusChange => rfl
  | mouseInput => exact (if_neg (compactKind_mouseInput (by decide))).symm

/-! ### What a batch is compressed to -/

namespace CompressionEngine

/-- The raw events of a kind that compact events of the kind point to. -/
def reachedIds (kind : CompactKind) (events : List RawEvent) : List Nat :=
  if kind = .scroll ∧ ¬ 1 < (ScrollCompressor.extractScrollEvents events).length then []
  else idsOf kind events

/-- How many compact events of a kind point to an event. -/
def reaching (self : CompressionEngine) (events : List RawEvent) (kind : CompactKind) (id : Nat) : Nat :=
  (self.compressEvents events).2.2.countP fun c => c.isKind kind && pointsTo id c.rawEventIds

theorem reaching_eq (self : CompressionEngine) {events : List RawEvent}
    (hids : (events.map (·.eventId)).Nodup) (kind : CompactKind) (id : Nat) :
    self.reaching events kind id = (reachedIds kind events).count id := by
  have hkind : (idsOf kind events).Nodup := hids.sublist (List.filter_sublist.map _)
  unfold reaching
  by_cases hempty : events.isEmpty
  · rw [List.isEmpty_iff.mp hempty]
    cases kind <;> rfl
  · rw [compressEvents, if_neg hempty, keyboards_eq, focused_eq]
    simp only [List.countP_append, List.countP_map]
    cases kind with
    | scroll =>
      have hlinks := self.scrollCompressor.compress_links events
      rw [extractScrollEvents_ids] at hlinks
      have hcount := hlinks.countP hkind id
      rw [List.countP_map] at hcount
      by_cases hlong : 1 < (ScrollCompressor.extractScrollEvents events).length
      · have hasked : ScrollCompressor.canCompress events = true := decide_eq_true hlong
        have hreached : reachedIds .scroll events = idsOf .scroll events := if_neg fun h => h.2 hlong
        rw [if_pos hasked, hreached]
        simpa [CompactEvent.isKind, CompactEvent.rawEventIds, Function.comp_def] using hcount
      · have hasked : ScrollCompressor.canCompress events = false := decide_eq_false hlong
        have hreached : reachedIds .scroll events = [] := if_pos ⟨rfl, hlong⟩
        rw [if_neg (by simp [hasked]), hreached]
        simp [CompactEvent.isKind, Function.comp_def]
    | keyboard =>
      have hlinks := self.keyboardCompressor.compress_links events
      rw [extractKeyboardEvents_ids] at hlinks
      have hcount := hlinks.countP hkind id
      rw [List.countP_map] at hcount
      simpa [reachedIds, CompactEvent.isKind, CompactEvent.rawEventIds, Function.comp_def] using hcount
    | focus =>
      have hlinks := self.focusProcessor.compress_links events
      rw [focusIds_eq] at hlinks
      have hcount := hlinks.countP hkind id
      rw [List.countP_map] at hcount
      simpa [reachedIds, CompactEvent.isKind, CompactEvent.rawEventIds, Function.comp_def] using hcount

end CompressionEngine

open CompressionEngine in
/-- For every batch of events with distinct ids: each keystroke, each focus change and each wheel event is
pointed to by exactly one compact event of its kind, exactly if the batch has not a single wheel event. -/
theorem compressible_reached_iff (self : CompressionEngine) (events : List RawEvent)
    (hids : (events.map (·.eventId)).Nodup) :
    (∀ e ∈ events, ∀ kind ∈ e.compactKind, self.reaching events kind e.eventId = 1) ↔
      (ScrollCompressor.extractScrollEvents events).length ≠ 1 := by
  have hmem : ∀ e ∈ events, ∀ kind ∈ e.compactKind, e.eventId ∈ idsOf kind events :=
    fun e he kind hkind => List.mem_map_of_mem (List.mem_filter.mpr ⟨he, decide_eq_true hkind⟩)
  have hnodup : ∀ kind, (idsOf kind events).Nodup := fun kind =>
    hids.sublist (List.filter_sublist.map _)
  constructor
  · intro hreached hone
    obtain ⟨wheel, hwheel⟩ := List.length_eq_one_iff.mp hone
    have hscrolls := extractScrollEvents_ids events
    rw [hwheel, List.map_singleton] at hscrolls
    obtain ⟨e, he, -⟩ := List.mem_map.mp (hscrolls ▸ List.mem_singleton_self wheel.eventId)
    obtain ⟨he, hkind⟩ := List.mem_filter.mp he
    have hcount := hreached e he .scroll (of_decide_eq_true hkind)
    rw [self.reaching_eq hids, reachedIds, if_pos ⟨rfl, by omega⟩] at hcount
    cases hcount
  · intro hlength e he kind hkind
    rw [self.reaching_eq hids, reachedIds]
    split_ifs with hsparse
    · -- Without two wheel events there is none.
      have hnone : ScrollCompressor.extractScrollEvents events = [] :=
        List.length_eq_zero_iff.mp (by omega)
      have hscrolls := extractScrollEvents_ids events
      rw [hnone, List.map_nil, ← hsparse.1] at hscrolls
      exact absurd (hscrolls ▸ hmem e he kind hkind) List.not_mem_nil
    · exact List.count_eq_one_of_mem (hnodup kind) (hmem e he kind hkind)

/-- A wheel event, for examples. -/
def wheelEvent (timestamp : DateTime) (eventId : Nat) : RawEvent :=
  .mouseInput timestamp eventId
    { position := ⟨0, 0⟩, button := none, clickCount := none, eventType := none, wheelAmount := some 3,
      wheelRotation := some 1, wheelAxis := some .vertical, wheelScrollType := none }

open CompressionEngine in
/-- Two turns of the wheel. -/
theorem compressible_reached_twice :
    (ScrollCompressor.extractScrollEvents [wheelEvent 0 1, wheelEvent 200000000 2]).length = 2 ∧
      ∀ e ∈ [wheelEvent 0 1, wheelEvent 200000000 2], ∀ kind ∈ e.compactKind,
        (withFocusCap 4096).reaching [wheelEvent 0 1, wheelEvent 200000000 2] kind e.eventId = 1 :=
  ⟨by decide, (compressible_reached_iff (withFocusCap 4096) [wheelEvent 0 1, wheelEvent 200000000 2]
    (by decide)).mpr (by decide)⟩

open CompressionEngine in
/-- A single turn of the wheel reaches no compact event. -/
theorem single_wheel_event_unreached :
    ¬ ∀ e ∈ [wheelEvent 0 1], ∀ kind ∈ e.compactKind,
      (withFocusCap 4096).reaching [wheelEvent 0 1] kind e.eventId = 1 := by
  intro h
  have hnone : (withFocusCap 4096).reaching [wheelEvent 0 1] .scroll (wheelEvent 0 1).eventId = 0 := by
    decide
  exact Nat.zero_ne_one (hnone.symm.trans (h _ List.mem_cons_self .scroll rfl))

end Kronical
