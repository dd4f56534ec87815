import Kronical.Core.Records

/-!
# Records tile the session

Whenever a record is open it shows the builder's state and focus (`Consistent`): a hint changes either
of them only while it closes one record and opens the next one. So a record shows what the builder
showed from the hint that opened it up to the hint that closed it (`opened_since`).

The instants of the emitted records, one after the other, are all the readings the builder took of the
clock (`emitted_instants`); if those never decrease, no record ends before it starts or after the next
one starts.
-/

namespace Kronical

namespace RecordBuilder

/-! ### Readings of the clock -/

/-- `finalize_current` reads the clock if a record is open. -/
def closing (self : RecordBuilder) (now : DateTime) : List DateTime :=
  if self.currentRecord.isSome then [now] else []

/-- The readings taken for each hint: a hint that opens a record reads the clock for it, and before
that for the record it closes. -/
def readings : Transducer RecordBuilder (EventEnvelope × HintClock) DateTime := fun self hint =>
  let next := (self.onHint hint.1 hint.2).1
  (next,
    if next.nextRecordId = self.nextRecordId then []
    else self.closing hint.2.closed ++ [hint.2.opened])

/-- All readings of a session that is finalized at `final`. -/
def sessionReadings (self : RecordBuilder) (hints : List (EventEnvelope × HintClock))
    (final : DateTime) : List DateTime :=
  (readings.run self hints).2 ++ (readings.run self hints).1.closing final

/-- All records of a session that is finalized at `final`. -/
def emitted (self : RecordBuilder) (hints : List (EventEnvelope × HintClock)) (final : DateTime) :
    List ActivityRecord :=
  (consume.run self hints).2 ++ ((consume.run self hints).1.finalizeAll final).2.toList

/-! ### The open record -/

/-- An open record shows the builder's state and focus and has not ended. -/
def Consistent (self : RecordBuilder) : Prop :=
  ∀ current ∈ self.currentRecord, current.state = self.currentState ∧
    current.focusInfo = self.currentFocus ∧ current.endTime = none

theorem consistent_of_none {self : RecordBuilder} (h : self.currentRecord = none) :
    self.Consistent := by
  intro current hcurrent
  rw [h] at hcurrent
  cases hcurrent

theorem consistent_startNewCurrent (self : RecordBuilder) (now : DateTime) :
    (self.startNewCurrent now).Consistent := by
  intro current hcurrent
  rw [← Option.some.inj hcurrent]
  exact ⟨rfl, rfl, rfl⟩

theorem consistent_consume (self : RecordBuilder) (hint : EventEnvelope × HintClock)
    (hself : self.Consistent) : (consume self hint).1.Consistent := by
  show (self.onHint hint.1 hint.2).1.Consistent
  rcases self.onHint_cases hint.1 hint.2 with hsame | ⟨state, focus, hopened⟩
  · rw [hsame]
    exact hself
  · rw [hopened]
    exact consistent_startNewCurrent _ _

/-- The open record was opened by some hint, at its reading of the clock, and is open since then. -/
theorem opened_since {self : RecordBuilder} (hself : self.currentRecord = none)
    (hints : List (EventEnvelope × HintClock)) {current : ActivityRecord}
    (hcurrent : (consume.run self hints).1.currentRecord = some current) :
    ∃ before opener between, hints = before ++ opener :: between ∧
      current.startTime = opener.2.opened ∧
      ∀ part, part <+: between →
        (consume.run self (before ++ opener :: part)).1.currentRecord = some current := by
  induction hints using List.reverseRecOn with
  | nil =>
    rw [Transducer.run_nil, hself] at hcurrent
    cases hcurrent
  | append_singleton hints hint ih =>
    have hlast : ∀ part, part <+: [] →
        (consume.run self (hints ++ hint :: part)).1.currentRecord = some current := by
      intro part hpart
      rw [List.prefix_nil.mp hpart]
      exact hcurrent
    rw [Transducer.run_concat] at hcurrent
    change ((consume.run self hints).1.onHint hint.1 hint.2).1.currentRecord = some current at hcurrent
    rcases (consume.run self hints).1.onHint_cases hint.1 hint.2 with hsame | ⟨state, focus, hopened⟩
    · rw [hsame] at hcurrent
      obtain ⟨before, opener, between, hsplit, hstart, hopen⟩ := ih hcurrent
      refine ⟨before, opener, between ++ [hint], by simp [hsplit], hstart, fun part hpart => ?_⟩
      rcases List.prefix_concat_iff.mp hpart with rfl | hshort
      · rw [← List.cons_append, ← List.append_assoc, ← hsplit]
        exact hlast [] List.prefix_rfl
      · exact hopen part hshort
    · rw [hopened] at hcurrent
      refine ⟨hints, hint, [], rfl, ?_, hlast⟩
      rw [← Option.some.inj hcurrent]

/-! ### Times -/

/-- The instants of a record. -/
def instants (record : ActivityRecord) : List DateTime := record.startTime :: record.endTime.toList

/-- The instants of the emitted records are the readings of the clock, behind the start of the record
that was open before. -/
theorem emitted_instants {self : RecordBuilder} (hself : self.Consistent)
    (hints : List (EventEnvelope × HintClock)) (final : DateTime) :
    (self.emitted hints final).flatMap instants =
      self.currentRecord.toList.map (·.startTime) ++ self.sessionReadings hints final := by
  induction hints generalizing self with
  | nil =>
    obtain ⟨state, _ | current, focus, next⟩ := self
    · rfl
    · rfl
  | cons hint hints ih =>
    have hnext := ih (consistent_consume self hint hself)
    have hemitted : self.emitted (hint :: hints) final =
        (self.onHint hint.1 hint.2).2.toList ++
          (self.onHint hint.1 hint.2).1.emitted hints final := by
      rw [emitted, Transducer.run_cons, List.append_assoc]
      rfl
    have hreadings : self.sessionReadings (hint :: hints) final =
        (readings self hint).2 ++ (self.onHint hint.1 hint.2).1.sessionReadings hints final := by
      rw [sessionReadings, Transducer.run_cons, List.append_assoc]
      rfl
    rw [hemitted, hreadings, List.flatMap_append]
    change (RecordBuilder.emitted _ _ _).flatMap instants = _ at hnext
    rw [show (consume self hint).1 = (self.onHint hint.1 hint.2).1 from rfl] at hnext
    rw [hnext, readings]
    rcases self.onHint_cases hint.1 hint.2 with hsame | ⟨state, focus, hopened⟩
    · rw [hsame]
      simp
    · rw [hopened]
      have hcount : self.nextRecordId + 1 ≠ self.nextRecordId := by omega
      unfold closing
      cases hcurrent : self.currentRecord with
      | none => simp [startNewCurrent]
      | some current => simp [startNewCurrent, instants]

theorem ordered_of_instants {records : List ActivityRecord}
    (hended : ∀ record ∈ records, record.endTime.isSome)
    (hinstants : (records.flatMap instants).Pairwise (· ≤ ·)) :
    (∀ record ∈ records, ∃ ended ∈ record.endTime, record.startTime ≤ ended) ∧
      records.IsChain fun record next => ∃ ended ∈ record.endTime, ended ≤ next.startTime := by
  induction records with
  | nil => exact ⟨by simp, List.isChain_nil⟩
  | cons record records ih =>
    obtain ⟨ended, hend⟩ := Option.isSome_iff_exists.mp (hended record List.mem_cons_self)
    rw [List.flatMap_cons, List.pairwise_append] at hinstants
    obtain ⟨hown, hrest, hcross⟩ := hinstants
    obtain ⟨hall, hchain⟩ := ih (fun r hr => hended r (List.mem_cons_of_mem _ hr)) hrest
    rw [instants, hend] at hown hcross
    refine ⟨?_, ?_⟩
    · intro r hr
      rcases List.mem_cons.mp hr with rfl | hr
      · exact ⟨ended, hend, by simpa using hown⟩
      · exact hall r hr
    · refine List.isChain_cons.mpr ⟨fun next hnext => ⟨ended, hend, ?_⟩, hchain⟩
      refine hcross ended (by simp) next.startTime (List.mem_flatMap.mpr ⟨next, ?_, ?_⟩)
      · exact List.mem_of_mem_head? hnext
      · exact List.mem_cons_self

/-! ### The session -/

theorem onHint_closes {self : RecordBuilder} {env : EventEnvelope} {clock : HintClock}
    {record : ActivityRecord} (h : record ∈ (self.onHint env clock).2) :
    ∃ current ∈ self.currentRecord, record = { current with endTime := some clock.closed } := by
  rcases self.onHint_cases env clock with hsame | ⟨state, focus, hopened⟩
  · rw [hsame] at h
    cases h
  · rw [hopened] at h
    obtain ⟨current, hcurrent, hrecord⟩ := Option.map_eq_some_iff.mp h
    exact ⟨current, hcurrent, hrecord.symm⟩

/-- The hint behind a record's open time closes it, or the end of the session does. -/
def Closes (self : RecordBuilder) (rest : List (EventEnvelope × HintClock)) (final : DateTime)
    (record : ActivityRecord) : Prop :=
  match rest with
  | closer :: _ => record ∈ (self.onHint closer.1 closer.2).2
  | [] => record ∈ (self.finalizeAll final).2

theorem emitted_closed {self : RecordBuilder} {hints : List (EventEnvelope × HintClock)}
    {final : DateTime} {record : ActivityRecord} (h : record ∈ self.emitted hints final) :
    ∃ before rest, hints = before ++ rest ∧ (consume.run self before).1.Closes rest final record ∧
      ∃ current ∈ (consume.run self before).1.currentRecord, ∃ ended,
        record = { current with endTime := some ended } := by
  rcases List.mem_append.mp h with hrun | hend
  · obtain ⟨before, closer, after, hsplit, hmem⟩ := Transducer.mem_run_split hrun
    have hclosed : record ∈ ((consume.run self before).1.onHint closer.1 closer.2).2 :=
      Option.mem_toList.mp hmem
    obtain ⟨current, hcurrent, hrecord⟩ := onHint_closes hclosed
    exact ⟨before, closer :: after, hsplit, hclosed, current, hcurrent, _, hrecord⟩
  · have hclosed := Option.mem_toList.mp hend
    obtain ⟨current, hcurrent, hrecord⟩ := Option.map_eq_some_iff.mp hclosed
    exact ⟨hints, [], (List.append_nil hints).symm, hclosed, current, hcurrent, final, hrecord.symm⟩

end RecordBuilder

open RecordBuilder in
/-- For every session of a builder that has just been started, with readings of the clock that never
decrease: the ids of the emitted records follow each other from `nextRecordId` on and up to the
builder's next one; every record ends at or after its start, and at or before the start of the next
one; and a record shows the builder's state and focus as they were at every point from the hint that
opened it until just before the hint, or the end of the session, that closed it. -/
theorem records_tile (initialState : ActivityState) (nextRecordId : Nat)
    (hints : List (EventEnvelope × HintClock)) (final : DateTime)
    (hclock : ((withNextRecordId initialState nextRecordId).sessionReadings hints final).Pairwise
      (· ≤ ·)) :
    let builder := withNextRecordId initialState nextRecordId
    let records := builder.emitted hints final
    (records.map (·.recordId) = List.range' nextRecordId records.length ∧
        (consume.run builder hints).1.nextRecordId = nextRecordId + records.length) ∧
      (∀ record ∈ records, ∃ ended ∈ record.endTime, record.startTime ≤ ended) ∧
      (records.IsChain fun record next => ∃ ended ∈ record.endTime, ended ≤ next.startTime) ∧
      ∀ record ∈ records, ∃ before opener between rest,
        hints = before ++ opener :: (between ++ rest) ∧ record.startTime = opener.2.opened ∧
        (consume.run builder (before ++ opener :: between)).1.Closes rest final record ∧
        ∀ part, part <+: between →
          let shown := (consume.run builder (before ++ opener :: part)).1
          shown.currentRecord = some { record with endTime := none } ∧
            shown.currentState = record.state ∧ shown.currentFocus = record.focusInfo := by
  intro builder records
  have hfresh : builder.currentRecord = none := rfl
  have hconsistent : builder.Consistent := consistent_of_none hfresh
  have hended : ∀ record ∈ records, record.endTime.isSome := by
    intro record hrecord
    obtain ⟨before, rest, -, -, current, -, ended, rfl⟩ := emitted_closed hrecord
    rfl
  have hinstants := emitted_instants hconsistent hints final
  rw [hfresh, Option.toList_none, List.map_nil, List.nil_append] at hinstants
  obtain ⟨hordered, hchain⟩ := ordered_of_instants hended (hinstants ▸ hclock)
  refine ⟨?_, hordered, hchain, ?_⟩
  · obtain ⟨n, hnext, hids⟩ := builder.consume_ids hints
    have hmap : records.map (·.recordId) = List.range' nextRecordId n := by
      have hlast := (consume.run builder hints).1.finalizeCurrent_id final
      show (List.map _ (_ ++ _)) = _
      rw [List.map_append]
      exact (congrArg _ hlast).trans hids
    have hlength := congrArg List.length hmap
    rw [List.length_map, List.length_range'] at hlength
    rw [hlength]
    exact ⟨hmap, hnext⟩
  · intro record hrecord
    obtain ⟨closedAfter, rest, hsplit, hcloses, current, hcurrent, ended, hshown⟩ :=
      emitted_closed hrecord
    obtain ⟨before, opener, between, hbefore, hstart, hopen⟩ :=
      opened_since hfresh closedAfter hcurrent
    refine ⟨before, opener, between, rest, by simp [hsplit, hbefore], by rw [hshown, hstart], ?_, ?_⟩
    · rw [← hbefore]
      exact hcloses
    · intro part hpart shown
      have hpartOpen : shown.currentRecord = some current := hopen part hpart
      have hpartConsistent : shown.Consistent :=
        Transducer.run_state consistent_consume (before ++ opener :: part) hconsistent
      obtain ⟨hstate, hfocus, hend⟩ := hpartConsistent current hpartOpen
      rw [hshown, hpartOpen]
      refine ⟨?_, hstate.symm, hfocus.symm⟩
      rw [← hend]

/-- A focus, an ignored title and a state change, closed by the end of the session. -/
theorem records_tile_of_focus :
    ((RecordBuilder.withNextRecordId .inactive 7).emitted
      [(EventEnvelope.ofHook 1 1 (.hint .focusChanged) (.focus (.sample "Editor" "a" 1)), ⟨1, 1⟩),
        (EventEnvelope.ofHook 2 2 (.hint .titleChanged) (.title 2 "b"), ⟨2, 2⟩),
        (EventEnvelope.ofDerived 3 3 (.hint .stateChanged) (.state .inactive .active), ⟨3, 4⟩)]
      5).map (·.recordId) = [7, 8] :=
  (records_tile .inactive 7
    [(EventEnvelope.ofHook 1 1 (.hint .focusChanged) (.focus (.sample "Editor" "a" 1)), ⟨1, 1⟩),
      (EventEnvelope.ofHook 2 2 (.hint .titleChanged) (.title 2 "b"), ⟨2, 2⟩),
      (EventEnvelope.ofDerived 3 3 (.hint .stateChanged) (.state .inactive .active), ⟨3, 4⟩)]
    5 (by decide)).1.1.trans (by decide)

end Kronical
