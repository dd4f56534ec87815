import Kronical.Pipeline.LockCoherence

/-!
# The record builder follows the adapter's focus

The adapter replaces its last focus with every focus event; the builder only sees the hints that the
differences make, and of these none but the focus hints while the machine is locked. `Tracks` says how
far the two agree. One raw event keeps it (`observe_tracks`), since what the adapter does not report
changes none of the five fields, and a title that is lost during a lock is made up for by the focus
hint that ends the lock.
-/

namespace Kronical

/-! ### The builder's focus -/

namespace RecordBuilder

/-- The builder's focus behind a hint. -/
def focusBehind (focus : Option WindowFocusInfo) (env : EventEnvelope) : Option WindowFocusInfo :=
  match env.kind, env.payload with
  | .hint .focusChanged, .focus f => some f
  | .hint .titleChanged, .title windowId title =>
    focus.map fun f => if f.windowId = windowId then f.setTitle title else f
  | _, _ => focus

theorem onHint_currentFocus (self : RecordBuilder) (env : EventEnvelope) (clock : HintClock) :
    (self.onHint env clock).1.currentFocus = focusBehind self.currentFocus env := by
  obtain ⟨id, t, source, kind, payload, derived, polling, sensitive⟩ := env
  rcases kind with kind | kind
  · cases payload <;> rfl
  · cases kind <;> cases payload <;> try rfl
    case stateChanged.state _ next =>
      show (self.transitionTo next clock).1.currentFocus = self.currentFocus
      unfold transitionTo
      split_ifs <;> rfl
    case titleChanged.title windowId title =>
      show (self.applyTitleChange windowId title clock).1.currentFocus =
        self.currentFocus.map fun f => if f.windowId = windowId then f.setTitle title else f
      unfold applyTitleChange
      cases hfocus : self.currentFocus with
      | none => simp [hfocus]
      | some f =>
        by_cases hwindow : f.windowId = windowId
        · simp [hwindow, hfocus, startNewCurrent, finalizeCurrent]
        · simp [hwindow, hfocus]

theorem consume_currentFocus (self : RecordBuilder) (hints : List (EventEnvelope × HintClock)) :
    (consume.run self hints).1.currentFocus =
      (hints.map Prod.fst).foldl focusBehind self.currentFocus := by
  induction hints generalizing self with
  | nil => rfl
  | cons hint hints ih =>
    rw [Transducer.run_cons_fst, ih, List.map_cons, List.foldl_cons, ← onHint_currentFocus]
    rfl

theorem focusBehind_signal {env : EventEnvelope} (h : env.isHint = false)
    (focus : Option WindowFocusInfo) : focusBehind focus env = focus := by
  unfold EventEnvelope.isHint at h
  unfold focusBehind
  split <;> simp_all

end RecordBuilder

open RecordBuilder (focusBehind focusBehind_signal)

theorem foldl_stateHint (tr : Option StateTransition) (id : Nat) (now : DateTime)
    (kind : Option SignalKind) (focus : Option WindowFocusInfo) :
    (((tr.map (StateDeriver.stateHint id now)).toList.map fun hint => (hint, kind)).map
      Prod.fst).foldl focusBehind focus = focus := by
  cases tr <;> rfl

theorem foldl_hintOf (xs : List Traced) (focus : Option WindowFocusInfo) :
    (xs.filterMap hintOf).foldl focusBehind focus = (xs.map Prod.fst).foldl focusBehind focus := by
  induction xs generalizing focus with
  | nil => rfl
  | cons x xs ih =>
    rw [List.map_cons, List.foldl_cons, ← ih]
    by_cases hhint : x.1.isHint = true
    · have hof : hintOf x = some x.1 := if_pos hhint
      rw [List.filterMap_cons_some hof, List.foldl_cons]
    · have hof : hintOf x = none := if_neg hhint
      have hsignal : x.1.isHint = false := by simpa using hhint
      rw [List.filterMap_cons_none hof, focusBehind_signal hsignal]

theorem foldl_expand (deriver : StateDeriver) (envs : List EventEnvelope)
    (focus : Option WindowFocusInfo) :
    (((expand.run deriver envs).2).map Prod.fst).foldl focusBehind focus =
      envs.foldl focusBehind focus := by
  induction envs generalizing deriver focus with
  | nil => rfl
  | cons env envs ih =>
    rw [Transducer.run_cons_snd, List.map_append, List.foldl_append, ih, List.foldl_cons]
    refine congrArg (fun focus => envs.foldl focusBehind focus) ?_
    unfold expand
    split
    · rfl
    · exact foldl_stateHint ..

/-! ### Agreement -/

theorem WindowFocusInfo.SameWindow.refl (focus : WindowFocusInfo) : focus.SameWindow focus :=
  ⟨rfl, rfl, rfl, rfl⟩

theorem WindowFocusInfo.SameWindow.trans {a b c : WindowFocusInfo} (h : a.SameWindow b)
    (h' : b.SameWindow c) : a.SameWindow c :=
  ⟨h.pid.trans h'.pid, h.processStartTime.trans h'.processStartTime, h.appName.trans h'.appName,
    h.windowId.trans h'.windowId⟩

/-- Both are absent, or both show the same window, and the same title unless the machine is locked. -/
def Tracks (locked : Bool) (seen shown : Option WindowFocusInfo) : Prop :=
  match seen, shown with
  | none, none => True
  | some seen, some shown =>
    shown.SameWindow seen ∧ (locked = false → shown.windowTitle = seen.windowTitle)
  | _, _ => False

theorem Tracks.of_some {locked : Bool} {seen : WindowFocusInfo} {shown : Option WindowFocusInfo}
    (h : Tracks locked (some seen) shown) :
    ∃ f, shown = some f ∧ f.SameWindow seen ∧ (locked = false → f.windowTitle = seen.windowTitle) := by
  cases shown with
  | none => exact h.elim
  | some f => exact ⟨f, rfl, h⟩

theorem foldl_focusSwitch (deriver : LockDeriver) {kind : SignalKind}
    (hkind : kind = .appChanged ∨ kind = .windowChanged) (id : Nat) (t : DateTime)
    (current : WindowFocusInfo) (focus : Option WindowFocusInfo) :
    (deriver.derive (EventAdapter.focusSwitch kind id t current)).2.foldl focusBehind focus =
      some current := by
  rw [derive_focusSwitch deriver hkind]
  cases deriver.locked <;> cases current.isLogin <;> rfl

theorem foldl_input (deriver : LockDeriver) {env : EventEnvelope}
    (hkind : env.kind = .signal .keyboardInput ∨ env.kind = .signal .mouseInput)
    (shown : Option WindowFocusInfo) :
    (deriver.derive [env]).1.locked = deriver.locked ∧
      (deriver.derive [env]).2.foldl focusBehind shown = shown := by
  have hsignal : env.isHint = false := by
    rcases hkind with hkind | hkind <;> simp [EventEnvelope.isHint, hkind]
  cases hlocked : deriver.locked <;> rcases hkind with hkind | hkind <;>
    simp [LockDeriver.derive, Transducer.run_cons, LockDeriver.deriveEvent, hkind, hlocked,
      focusBehind_signal hsignal]

theorem derive_titleChange (deriver : LockDeriver) (id : Nat) (t : DateTime)
    (focus : WindowFocusInfo) :
    deriver.derive [EventAdapter.titleChange id t focus] =
      (deriver, if deriver.locked then [] else [EventAdapter.titleChange id t focus]) := by
  cases hlocked : deriver.locked <;>
    simp [LockDeriver.derive, Transducer.run_cons, LockDeriver.deriveEvent, EventAdapter.titleChange,
      hlocked]

/-- One raw event keeps the builder on the adapter's track. -/
theorem observe_tracks {s : EventAdapter × LockDeriver} (hs : LockAgree s) (e : RawEvent)
    {shown : Option WindowFocusInfo} (h : Tracks s.2.locked s.1.lastFocus shown) :
    Tracks (observe s e).1.2.locked (observe s e).1.1.lastFocus
      ((observe s e).2.foldl focusBehind shown) := by
  obtain ⟨adapter, deriver⟩ := s
  rw [observe_fst, observe_snd]
  cases e with
  | keyboardInput t id data =>
    obtain ⟨hlocked, hfocus⟩ := foldl_input deriver
      (show (EventEnvelope.ofHook id t _ (.keyboard data)).kind = _ ∨ _ from .inl rfl) shown
    show Tracks (deriver.derive [_]).1.locked adapter.lastFocus ((deriver.derive [_]).2.foldl _ _)
    rw [hlocked, hfocus]
    exact h
  | mouseInput t id data =>
    obtain ⟨hlocked, hfocus⟩ := foldl_input deriver
      (show (EventEnvelope.ofHook id t _ (.mouse data)).kind = _ ∨ _ from .inr rfl) shown
    show Tracks (deriver.derive [_]).1.locked adapter.lastFocus ((deriver.derive [_]).2.foldl _ _)
    rw [hlocked, hfocus]
    exact h
  | windowFocusChange t id focus =>
    show Tracks (deriver.derive (adapter.adaptFocus t id focus)).1.locked (some focus)
      ((deriver.derive (adapter.adaptFocus t id focus)).2.foldl focusBehind shown)
    rcases adaptFocus_cases adapter t id focus with ⟨kind, hkind, hout⟩ | ⟨was, hlast, hsame, hout⟩
    · have hkind' : kind = .appChanged ∨ kind = .windowChanged := hkind.imp_right And.left
      rw [hout, foldl_focusSwitch deriver hkind']
      exact ⟨.refl focus, fun _ => rfl⟩
    · rw [show (adapter, deriver).1.lastFocus = some was from hlast] at h
      obtain ⟨f, rfl, hwindow, htitle⟩ := h.of_some
      have hsameWindow : f.SameWindow focus := hwindow.trans hsame
      rcases hout with hout | ⟨hkept, hout⟩
      · rw [hout, derive_titleChange]
        cases hlocked : deriver.locked with
        | true =>
          exact ⟨hsameWindow, fun hopen => absurd hopen (by decide)⟩
        | false =>
          have hretitled : focusBehind (some f) (EventAdapter.titleChange id t focus) =
              some (f.setTitle focus.windowTitle) := by
            show some (if f.windowId = focus.windowId then _ else _) = _
            rw [if_pos hsameWindow.windowId]
          rw [if_neg Bool.false_ne_true, List.foldl_cons, List.foldl_nil, hretitled]
          exact ⟨⟨hsameWindow.pid, hsameWindow.processStartTime, hsameWindow.appName,
            hsameWindow.windowId⟩, fun _ => rfl⟩
      · rw [hout]
        exact ⟨hsameWindow, fun hopen => (htitle hopen).trans hkept⟩

theorem observe_run_tracks {s : EventAdapter × LockDeriver} (hs : LockAgree s)
    (events : List RawEvent) {shown : Option WindowFocusInfo}
    (h : Tracks s.2.locked s.1.lastFocus shown) :
    Tracks (observe.run s events).1.2.locked (observe.run s events).1.1.lastFocus
      ((observe.run s events).2.foldl focusBehind shown) := by
  induction events generalizing s shown with
  | nil => exact h
  | cons e events ih =>
    rw [Transducer.run_cons, List.foldl_append]
    exact ih (observe_spec hs e).1 (observe_tracks hs e h)

theorem adaptBatch_lastFocus (adapter : EventAdapter) (events : List RawEvent) :
    (adapter.adaptBatch events).1.lastFocus = none ↔
      adapter.lastFocus = none ∧ ∀ e ∈ events, e.isInput = true := by
  induction events generalizing adapter with
  | nil => simp [EventAdapter.adaptBatch]
  | cons e events ih =>
    rw [EventAdapter.adaptBatch, Transducer.run_cons_fst, ← EventAdapter.adaptBatch, ih]
    cases e with
    | keyboardInput | mouseInput => simp [EventAdapter.adaptEvent, RawEvent.isInput]
    | windowFocusChange => simp [EventAdapter.adaptEvent, RawEvent.isInput]

namespace EnvelopeStage

/-- No command of the list brings a focus event. -/
def FocusFree (cmds : List (Option DeriveCommand)) : Prop :=
  ∀ batch, some (.batch batch) ∈ cmds → ∀ e ∈ batch.events, e.isInput = true

theorem trace_run_lastFocus (self : EnvelopeStage) (cmds : List (Option DeriveCommand)) :
    (trace.run self cmds).1.adapter.lastFocus = none ↔
      self.adapter.lastFocus = none ∧ FocusFree cmds := by
  induction cmds generalizing self with
  | nil => simp [FocusFree]
  | cons cmd cmds ih =>
    have hcmd : (self.trace cmd).1.adapter.lastFocus = none ↔
        self.adapter.lastFocus = none ∧ FocusFree [cmd] := by
      match cmd with
      | some (.batch ⟨[], reason⟩) => simp [trace, RawBatch.isEmpty, FocusFree]
      | some (.batch ⟨e :: events, reason⟩) =>
        have hbatch := adaptBatch_lastFocus self.adapter (e :: events)
        have hfree : FocusFree [some (.batch ⟨e :: events, reason⟩)] ↔
            ∀ e' ∈ e :: events, e'.isInput = true := by
          simp [FocusFree]
        rw [hfree]
        exact hbatch
      | some (.tick now) => simp [trace, FocusFree]
      | some .shutdown => simp [trace, FocusFree]
      | none => simp [trace, FocusFree]
    have hsplit : FocusFree (cmd :: cmds) ↔ FocusFree [cmd] ∧ FocusFree cmds := by
      unfold FocusFree
      constructor
      · intro h
        exact ⟨fun batch hmem => h batch (List.mem_cons.mpr (.inl (List.mem_singleton.mp hmem))),
          fun batch hmem => h batch (List.mem_cons_of_mem _ hmem)⟩
      · rintro ⟨hhead, htail⟩ batch hmem
        rcases List.mem_cons.mp hmem with heq | hmem
        · exact hhead batch (List.mem_singleton.mpr heq)
        · exact htail batch hmem
    rw [Transducer.run_cons_fst, ih, hcmd, hsplit, and_assoc]

theorem trace_tracks {self : EnvelopeStage} (hself : self.LockCoherent)
    (cmd : Option DeriveCommand) {shown : Option WindowFocusInfo}
    (h : Tracks self.lockDeriver.locked self.adapter.lastFocus shown) :
    Tracks (self.trace cmd).1.lockDeriver.locked (self.trace cmd).1.adapter.lastFocus
      (((self.trace cmd).2.map Prod.fst).foldl focusBehind shown) := by
  match cmd with
  | some (.batch ⟨[], reason⟩) => exact h
  | some (.batch ⟨e :: events, reason⟩) =>
    have hrun := observe_run_tracks hself.agree (e :: events) h
    rw [derive_adaptBatch] at hrun
    show Tracks _ _ (((expand.run self.stateDeriver _).2.map Prod.fst).foldl focusBehind shown)
    rw [foldl_expand]
    exact hrun
  | some (.tick now) =>
    have hticked := foldl_stateHint (self.stateDeriver.engine.onTick now).2
      (asU64 (timestampMillis now)) now none shown
    show Tracks self.lockDeriver.locked self.adapter.lastFocus (List.foldl focusBehind shown _)
    rw [← hticked] at h
    exact h
  | some .shutdown => exact h
  | none => exact h

theorem trace_run_tracks {self : EnvelopeStage} (hself : self.LockCoherent)
    (cmds : List (Option DeriveCommand)) {shown : Option WindowFocusInfo}
    (h : Tracks self.lockDeriver.locked self.adapter.lastFocus shown) :
    Tracks (trace.run self cmds).1.lockDeriver.locked (trace.run self cmds).1.adapter.lastFocus
      (((trace.run self cmds).2.map Prod.fst).foldl focusBehind shown) := by
  induction cmds generalizing self shown with
  | nil => exact h
  | cons cmd cmds ih =>
    rw [Transducer.run_cons, List.map_append, List.foldl_append]
    exact ih (hself.derived cmd).1 (self.trace_tracks hself cmd h)

end EnvelopeStage

/-- After any batches and ticks a record builder that has handled every hint sent tracks the
adapter's last focus: neither has one, which is so as long as there was no focus event, or they agree
on the process, the app and the window, and unless the lock deriver is locked on the title too. -/
theorem builder_tracks_focus (startedAt : DateTime) (grace idle : Nat) (cmds : List DeriveCommand)
    (nextRecordId : Nat) (clock : Nat → RecordBuilder.HintClock) :
    let finished := EnvelopeStage.loop.run (.new startedAt grace idle) (cmds.map some)
    let builder := (RecordBuilder.consume.run (.withNextRecordId .inactive nextRecordId)
      (RecordBuilder.timed clock (sentTo .hints finished.2))).1
    Tracks finished.1.lockDeriver.locked finished.1.adapter.lastFocus builder.currentFocus ∧
      (finished.1.adapter.lastFocus = none ↔ EnvelopeStage.FocusFree (cmds.map some)) := by
  intro finished builder
  obtain ⟨hstate, hhints, -⟩ := (EnvelopeStage.new startedAt grace idle).loop_run (cmds.map some)
  have hnew : Tracks false none none := trivial
  have hrun := EnvelopeStage.trace_run_tracks (EnvelopeStage.lockCoherent_new startedAt grace idle)
    (cmds.map some) hnew
  have hbuilder : builder.currentFocus = (sentTo .hints finished.2).foldl focusBehind none := by
    rw [RecordBuilder.consume_currentFocus, RecordBuilder.timed_map_fst]
    rfl
  rw [hbuilder, show finished.1 = _ from hstate, show sentTo .hints finished.2 = _ from hhints,
    foldl_hintOf]
  refine ⟨hrun, ?_⟩
  rw [EnvelopeStage.trace_run_lastFocus]
  exact and_iff_right rfl

end Kronical
