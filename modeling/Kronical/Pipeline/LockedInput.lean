import Kronical.Pipeline.LockCoherence
import Kronical.Pipeline.Suppression

/-!
# Input at the login window leaves no trace in derived data

A keystroke or a mouse event at the login window changes neither the adapter nor the lock deriver and
becomes no envelope (`observe_lockedInput`), so a batch is observed like the batch without this input
(`observe_run_unlocked`), and the state engine never hears of it. What a command makes the stage send
to storage and to the hints stage, and its updates, can be read off the trace of the command alone;
so two streams that are the same without the input at the login window are the same for all that is
derived from them (`locked_input_unseen`).
-/

namespace Kronical

/-! ### Streams without the input at the login window -/

/-- An event, unless it is input while the login window is focused. -/
def unlockedStep : Transducer Bool RawEvent RawEvent
  | _, .windowFocusChange timestamp eventId focusInfo =>
    (eqIgnoreAsciiCase focusInfo.appName "loginwindow",
      [.windowFocusChange timestamp eventId focusInfo])
  | locked, e => (locked, if locked then [] else [e])

/-- A command with the input at the login window taken out of its batch. -/
def withoutLockedInput : Transducer Bool DeriveCommand DeriveCommand
  | locked, .batch batch =>
    ((unlockedStep.run locked batch.events).1,
      [.batch { batch with events := (unlockedStep.run locked batch.events).2 }])
  | locked, cmd => (locked, [cmd])

/-! ### Observing them -/

/-- Input at the login window is not observed at all. -/
theorem observe_lockedInput {s : EventAdapter × LockDeriver} (hs : LockAgree s)
    (hlock : s.1.onLogin = true) {e : RawEvent} (he : e.isInput = true) : observe s e = (s, []) := by
  obtain ⟨adapter, ⟨locked⟩⟩ := s
  have hlocked : locked = true := Eq.trans hs hlock
  subst hlocked
  cases e with
  | keyboardInput => rfl
  | mouseInput => rfl
  | windowFocusChange => cases he

/-- Events are observed as they are without the input at the login window, and the stream tells
when that is focused. -/
theorem observe_run_unlocked {s : EventAdapter × LockDeriver} (hs : LockAgree s)
    (events : List RawEvent) :
    observe.run s (unlockedStep.run s.2.locked events).2 = observe.run s events ∧
      (unlockedStep.run s.2.locked events).1 = (observe.run s events).1.2.locked := by
  induction events generalizing s with
  | nil => exact ⟨rfl, rfl⟩
  | cons e events ih =>
    have hnext := (observe_spec hs e).1
    have hstep : unlockedStep s.2.locked e =
        ((observe s e).1.2.locked, if s.2.locked && e.isInput then [] else [e]) := by
      cases e with
      | windowFocusChange t id focus =>
        have hlogin : focus.isLogin = (observe s (.windowFocusChange t id focus)).1.2.locked :=
          Eq.symm hnext
        rw [RawEvent.isInput, Bool.and_false, ← hlogin]
        rfl
      | keyboardInput t id data =>
        have hinput : (observe s (.keyboardInput t id data)).1.2.locked = s.2.locked :=
          Eq.trans hnext hs.symm
        rw [RawEvent.isInput, Bool.and_true, hinput]
        rfl
      | mouseInput t id data =>
        have hinput : (observe s (.mouseInput t id data)).1.2.locked = s.2.locked :=
          Eq.trans hnext hs.symm
        rw [RawEvent.isInput, Bool.and_true, hinput]
        rfl
    obtain ⟨hrun, hlocked⟩ := ih hnext
    rw [Transducer.run_cons_fst, Transducer.run_cons_fst, Transducer.run_cons_snd, hstep]
    refine ⟨?_, hlocked⟩
    by_cases hhidden : (s.2.locked && e.isInput) = true
    · obtain ⟨hlock, hinput⟩ := Bool.and_eq_true_iff.mp hhidden
      have hunseen := observe_lockedInput hs (hs.symm.trans hlock) hinput
      rw [if_pos hhidden, List.nil_append, hunseen, Transducer.run_cons, hunseen]
      rw [hunseen] at hrun
      exact hrun
    · rw [if_neg hhidden, List.cons_append, List.nil_append, Transducer.run_cons, hrun]
      rfl

namespace EnvelopeStage

theorem trace_unlocked {self : EnvelopeStage} (hself : self.LockCoherent) (batch : RawBatch) :
    self.trace (some (.batch
        { batch with events := (unlockedStep.run self.lockDeriver.locked batch.events).2 })) =
      self.trace (some (.batch batch)) := by
  obtain ⟨hrun, -⟩ := observe_run_unlocked hself.agree batch.events
  rw [derive_adaptBatch, derive_adaptBatch] at hrun
  have htraced : ∀ other : RawBatch,
      self.trace (some (.batch other)) =
        ({ self with
            adapter := (self.adapter.adaptBatch other.events).1
            lockDeriver := (self.lockDeriver.derive (self.adapter.adaptBatch other.events).2).1
            stateDeriver := (expand.run self.stateDeriver
              (self.lockDeriver.derive (self.adapter.adaptBatch other.events).2).2).1 },
          (expand.run self.stateDeriver
            (self.lockDeriver.derive (self.adapter.adaptBatch other.events).2).2).2) := by
    intro other
    obtain ⟨_ | ⟨e, events⟩, reason⟩ := other
    · rfl
    · rfl
  rw [htraced, htraced]
  dsimp only at hrun ⊢
  obtain ⟨hstate, henvelopes⟩ := Prod.mk.inj hrun
  obtain ⟨hadapter, hderiver⟩ := Prod.mk.inj hstate
  rw [hadapter, hderiver, henvelopes]

/-! ### What is seen of a command -/

/-- What the stage sends to storage and to the hints stage, and its updates. -/
def seen (packets : List Packet) :
    List StorageCommand × List EventEnvelope × List SnapshotUpdate :=
  (sentTo .storage packets, sentTo .hints packets, updatesOf packets)

theorem seen_append (packets packets' : List Packet) :
    seen (packets ++ packets') =
      ((seen packets).1 ++ (seen packets').1, (seen packets).2.1 ++ (seen packets').2.1,
        (seen packets).2.2 ++ (seen packets').2.2) := by
  simp [seen]

theorem seen_closing (self : EnvelopeStage) (cmd : Option DeriveCommand) :
    seen (self.closing cmd) = seen (closeUpdate (collect.run .default (self.trace cmd).2).1) := by
  have hprocess : ∀ batch envelopes packets,
      seen (⟨.compression, .process batch envelopes⟩ :: packets) = seen packets := by
    intro batch envelopes packets
    rfl
  match cmd with
  | some (.batch ⟨[], reason⟩) => rfl
  | some (.batch ⟨e :: events, reason⟩) => exact hprocess ..
  | some (.tick now) =>
    unfold closing
    dsimp only
    by_cases hempty : (self.trace (some (.tick now))).2.isEmpty = true
    · rw [if_pos hempty, List.isEmpty_iff.mp hempty]
      rfl
    · rw [if_neg hempty]
  | some .shutdown => rfl
  | none => rfl

theorem seen_handle {self other : EnvelopeStage} {cmd cmd' : Option DeriveCommand}
    (h : (self.trace cmd).2 = (other.trace cmd').2) :
    seen (self.handle cmd).2 = seen (other.handle cmd').2 := by
  rw [handle_eq, handle_eq, seen_append, seen_append, seen_closing, seen_closing, h]

theorem seen_run_unlocked {self : EnvelopeStage} (hself : self.LockCoherent)
    (cmds : List DeriveCommand) :
    seen (loop.run self
        ((withoutLockedInput.run self.lockDeriver.locked cmds).2.map some)).2 =
      seen (loop.run self (cmds.map some)).2 := by
  induction cmds generalizing self with
  | nil => rfl
  | cons cmd cmds ih =>
    obtain ⟨other, hstep, hlocked, htrace⟩ : ∃ other,
        (withoutLockedInput self.lockDeriver.locked cmd).2 = [other] ∧
        (withoutLockedInput self.lockDeriver.locked cmd).1 =
          (self.trace (some cmd)).1.lockDeriver.locked ∧
        self.trace (some other) = self.trace (some cmd) := by
      match cmd with
      | .batch batch =>
        refine ⟨_, rfl, ?_, self.trace_unlocked hself batch⟩
        obtain ⟨-, hafter⟩ := observe_run_unlocked hself.agree batch.events
        rw [derive_adaptBatch] at hafter
        obtain ⟨_ | ⟨e, events⟩, reason⟩ := batch
        · rfl
        · exact hafter
      | .tick now => exact ⟨.tick now, rfl, rfl, rfl⟩
      | .shutdown => exact ⟨.shutdown, rfl, rfl, rfl⟩
    have hnext : ∀ cmd, (self.loop cmd).1 = (self.trace cmd).1 := fun cmd =>
      congrArg Prod.fst (self.handle_eq cmd)
    have hseen : seen (self.loop (some other)).2 = seen (self.loop (some cmd)).2 :=
      seen_handle (congrArg Prod.snd htrace)
    have hrest : seen (loop.run (self.trace (some cmd)).1 ((withoutLockedInput.run
        (self.trace (some cmd)).1.lockDeriver.locked cmds).2.map some)).2 =
          seen (loop.run (self.trace (some cmd)).1 (cmds.map some)).2 :=
      ih (hself.derived (some cmd)).1
    rw [Transducer.run_cons_snd, hstep, List.map_append, List.map_cons, List.map_cons, List.map_nil,
      List.cons_append, List.nil_append, Transducer.run_cons_snd, Transducer.run_cons_snd,
      seen_append, seen_append, hseen, hnext, hnext, htrace, hlocked, hrest]

end EnvelopeStage

open EnvelopeStage in
/-- For every two command streams that are the same without the input at the login window: the stage
sends the same to storage, the same hints to the hints stage and the same updates; and a record
builder that handles the hints at the same readings of the clock emits the same records. -/
theorem locked_input_unseen (startedAt : DateTime) (grace idle : Nat)
    (cmds cmds' : List DeriveCommand)
    (hsame : (withoutLockedInput.run false cmds).2 = (withoutLockedInput.run false cmds').2) :
    let sent := fun cmds : List DeriveCommand =>
      (EnvelopeStage.loop.run (.new startedAt grace idle) (cmds.map some)).2
    sentTo .storage (sent cmds) = sentTo .storage (sent cmds') ∧
      sentTo .hints (sent cmds) = sentTo .hints (sent cmds') ∧
      updatesOf (sent cmds) = updatesOf (sent cmds') ∧
      ∀ (builder : RecordBuilder) (clock : Nat → RecordBuilder.HintClock),
        RecordBuilder.consume.run builder (RecordBuilder.timed clock (sentTo .hints (sent cmds))) =
          RecordBuilder.consume.run builder
            (RecordBuilder.timed clock (sentTo .hints (sent cmds'))) := by
  intro sent
  have hnew := lockCoherent_new startedAt grace idle
  have hseen : seen (sent cmds) = seen (sent cmds') := by
    have hleft := seen_run_unlocked hnew cmds
    have hright := seen_run_unlocked hnew cmds'
    change seen (loop.run _ ((withoutLockedInput.run false cmds).2.map some)).2 = _ at hleft
    change seen (loop.run _ ((withoutLockedInput.run false cmds').2.map some)).2 = _ at hright
    rw [← hleft, ← hright, hsame]
  obtain ⟨hstorage, hrest⟩ := Prod.mk.inj hseen
  obtain ⟨hhints, hupdates⟩ := Prod.mk.inj hrest
  refine ⟨hstorage, hhints, hupdates, fun builder clock => ?_⟩
  rw [hhints]

/-- A password typed at the login window is not seen in the hints. -/
theorem password_unseen :
    sentTo .hints (EnvelopeStage.loop.run (.new 0 5 30)
        (([.batch ⟨[.windowFocusChange 1 1 (.sample "loginwindow" "" 1),
            .keyboardInput 2 2 ⟨none, none, []⟩], .timeout⟩,
          .batch ⟨[.keyboardInput 3 3 ⟨none, none, []⟩], .timeout⟩, .tick 4] :
          List DeriveCommand).map some)).2 =
      sentTo .hints (EnvelopeStage.loop.run (.new 0 5 30)
        (([.batch ⟨[.windowFocusChange 1 1 (.sample "loginwindow" "" 1)], .timeout⟩,
          .batch ⟨[], .timeout⟩, .tick 4] : List DeriveCommand).map some)).2 :=
  (locked_input_unseen 0 5 30
    [.batch ⟨[.windowFocusChange 1 1 (.sample "loginwindow" "" 1),
      .keyboardInput 2 2 ⟨none, none, []⟩], .timeout⟩,
      .batch ⟨[.keyboardInput 3 3 ⟨none, none, []⟩], .timeout⟩, .tick 4]
    [.batch ⟨[.windowFocusChange 1 1 (.sample "loginwindow" "" 1)], .timeout⟩,
      .batch ⟨[], .timeout⟩, .tick 4] (by decide)).2.1

end Kronical
