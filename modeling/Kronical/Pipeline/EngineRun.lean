import Kronical.Pipeline.Transitions

/-!
# The engine's run is what is stored, published and recorded

The signals of the derived envelopes and the ticks are the engine's stimuli, and the transitions of
the stage's trace are those the engine returned for them (`stimuli_run`). No other envelope carries a
state, since the adapter and the lock deriver never make one. The record builder changes its state
with exactly the state hints as long as they form a path from its own state (`changes_eq`).
-/

namespace Kronical

/-- When and between which states a transition takes place. -/
def Transition.move (t : Transition) : DateTime × StateTransition :=
  (t.atTime, { fromState := t.fromState, toState := t.toState })

/-! ### The stimuli of the engine -/

/-- A signal envelope as a stimulus of the engine. -/
def asStimulus (env : EventEnvelope) : Option DefaultStateEngine.Stimulus :=
  if env.isSignal then some (.signal env) else none

theorem transitionOf_plain {env : EventEnvelope} (h : env.isPlain = true)
    (kind : Option SignalKind) : transitionOf (env, kind) = none := by
  obtain ⟨id, t, source, envKind, payload, derived, polling, sensitive⟩ := env
  cases payload with
  | state fromState toState => cases h
  | keyboard | mouse | focus | lock | title | none => rfl

theorem filterMap_stateHints (id : Nat) (now : DateTime) (tr : Option StateTransition)
    (kind : Option SignalKind) :
    ((((tr.map (StateDeriver.stateHint id now)).toList.map fun hint => (hint, kind)).filterMap
      transitionOf).map (·.move)) = tr.toList.map (now, ·) := by
  cases tr <;> rfl

theorem expand_react (deriver : StateDeriver) {envs : List EventEnvelope}
    (hplain : ∀ env ∈ envs, env.isPlain = true) :
    (expand.run deriver envs).1.engine =
        (DefaultStateEngine.react.run deriver.engine (envs.filterMap asStimulus)).1 ∧
      ((expand.run deriver envs).2.filterMap transitionOf).map (·.move) =
        (DefaultStateEngine.react.run deriver.engine (envs.filterMap asStimulus)).2 := by
  induction envs generalizing deriver with
  | nil => exact ⟨rfl, rfl⟩
  | cons env envs ih =>
    have henv := transitionOf_plain (hplain env List.mem_cons_self)
    have hrest := fun deriver => ih deriver fun e he => hplain e (List.mem_cons_of_mem _ he)
    rw [Transducer.run_cons, List.filterMap_append, List.map_append]
    cases hkind : env.kind with
    | hint kind =>
      have hstimulus : asStimulus env = none := by simp [asStimulus, EventEnvelope.isSignal, hkind]
      have hexpand : expand deriver env = (deriver, [(env, none)]) := by simp [expand, hkind]
      rw [hexpand, List.filterMap_cons_none hstimulus, List.filterMap_cons_none (henv none)]
      exact hrest deriver
    | signal kind =>
      have hstimulus : asStimulus env = some (.signal env) := by
        simp [asStimulus, EventEnvelope.isSignal, hkind]
      have hexpand : expand deriver env = ((deriver.onSignal env).1,
          (env, some kind) :: (deriver.onSignal env).2.toList.map fun hint => (hint, some kind)) := by
        simp [expand, hkind]
      rw [hexpand, List.filterMap_cons_some hstimulus, List.filterMap_cons_none (henv _),
        Transducer.run_cons]
      obtain ⟨hengine, hmoves⟩ := hrest (deriver.onSignal env).1
      refine ⟨hengine, congrArg₂ (· ++ ·) ?_ hmoves⟩
      exact filterMap_stateHints _ _ _ _

namespace EnvelopeStage

abbrev engine (self : EnvelopeStage) : DefaultStateEngine := self.stateDeriver.engine

/-- What a command has the engine handle. -/
def stimuliOf (self : EnvelopeStage) : Option DeriveCommand → List DefaultStateEngine.Stimulus
  | some (.batch batch) => (self.envelopesOf batch).2.filterMap asStimulus
  | some (.tick now) => [.tick now]
  | some .shutdown => []
  | none => []

/-- The stimuli over a run of the stage. -/
def stimuli : Transducer EnvelopeStage (Option DeriveCommand) DefaultStateEngine.Stimulus :=
  fun self cmd => ((self.trace cmd).1, self.stimuliOf cmd)

theorem envelopesOf_plain (self : EnvelopeStage) (batch : RawBatch) :
    ∀ env ∈ (self.envelopesOf batch).2, env.isPlain = true :=
  derive_plain self.adapter self.lockDeriver batch.events

theorem trace_react (self : EnvelopeStage) (cmd : Option DeriveCommand) :
    (self.trace cmd).1.engine =
        (DefaultStateEngine.react.run self.engine (self.stimuliOf cmd)).1 ∧
      ((self.trace cmd).2.filterMap transitionOf).map (·.move) =
        (DefaultStateEngine.react.run self.engine (self.stimuliOf cmd)).2 := by
  match cmd with
  | some (.batch ⟨[], reason⟩) => exact ⟨rfl, rfl⟩
  | some (.batch ⟨e :: events, reason⟩) =>
    exact expand_react self.stateDeriver (self.envelopesOf_plain ⟨e :: events, reason⟩)
  | some (.tick now) =>
    refine ⟨rfl, ?_⟩
    change _ = (self.engine.onTick now).2.toList.map (now, ·) ++ []
    rw [List.append_nil]
    exact filterMap_stateHints _ _ _ _
  | some .shutdown => exact ⟨rfl, rfl⟩
  | none => exact ⟨rfl, rfl⟩

/-- Over any commands, the trace reports the transitions the engine returned for its stimuli. -/
theorem stimuli_run (self : EnvelopeStage) (cmds : List (Option DeriveCommand)) :
    (trace.run self cmds).1.engine =
        (DefaultStateEngine.react.run self.engine (stimuli.run self cmds).2).1 ∧
      ((trace.run self cmds).2.filterMap transitionOf).map (·.move) =
        (DefaultStateEngine.react.run self.engine (stimuli.run self cmds).2).2 := by
  induction cmds generalizing self with
  | nil => exact ⟨rfl, rfl⟩
  | cons cmd cmds ih =>
    obtain ⟨hengine, hmoves⟩ := self.trace_react cmd
    obtain ⟨hrest, hmoves'⟩ := ih (self.trace cmd).1
    rw [hengine] at hrest hmoves'
    rw [Transducer.run_cons, Transducer.run_cons_snd stimuli, Transducer.run_append,
      List.filterMap_append, List.map_append, hmoves]
    exact ⟨hrest, congrArg _ hmoves'⟩

theorem loop_run (self : EnvelopeStage) (cmds : List (Option DeriveCommand)) :
    (loop.run self cmds).1 = (trace.run self cmds).1 ∧
      sentTo .hints (loop.run self cmds).2 = (trace.run self cmds).2.filterMap hintOf ∧
      (updatesOf (loop.run self cmds).2).filterMap (·.transition) =
        (trace.run self cmds).2.filterMap transitionOf ∧
      ∀ u ∈ updatesOf (loop.run self cmds).2, u.Paired := by
  induction cmds generalizing self with
  | nil => exact ⟨rfl, rfl, rfl, by simp [updatesOf]⟩
  | cons cmd cmds ih =>
    have hnext : (self.loop cmd).1 = (self.trace cmd).1 := congrArg Prod.fst (self.handle_eq cmd)
    have hcmdHints : sentTo .hints (self.loop cmd).2 = _ := self.handle_hints cmd
    obtain ⟨hstate, hhints, htransitions, hpaired⟩ := ih (self.trace cmd).1
    obtain ⟨hcmd, hcmdPaired⟩ := self.handle_transitions cmd
    change (updatesOf (self.loop cmd).2).filterMap _ = _ at hcmd
    rw [Transducer.run_cons, Transducer.run_cons, hnext, sentTo_append, updatesOf_append,
      List.filterMap_append, List.filterMap_append, List.filterMap_append, hcmdHints, hcmd, hhints,
      htransitions]
    refine ⟨hstate, rfl, rfl, fun u hu => ?_⟩
    rcases List.mem_append.mp hu with hu | hu
    · exact hcmdPaired u hu
    · exact hpaired u hu

/-! ### The record builder's view -/

theorem traced_cases (self : EnvelopeStage) (cmd : Option DeriveCommand) :
    ∀ x ∈ (self.trace cmd).2,
      x.1.isPlain = true ∨ ∃ id now tr, x.1 = StateDeriver.stateHint id now tr := by
  have hhint : ∀ (id : Nat) (now : DateTime) (tr : Option StateTransition)
      (kind : Option SignalKind), ∀ x ∈ (tr.map (StateDeriver.stateHint id now)).toList.map
        fun hint => (hint, kind), ∃ id now tr, x.1 = StateDeriver.stateHint id now tr := by
    intro id now tr kind x hx
    cases tr with
    | none => cases hx
    | some tr => exact ⟨id, now, tr, by rw [List.mem_singleton.mp hx]⟩
  intro x hx
  match cmd, hx with
  | some (.batch ⟨[], reason⟩), hx => cases hx
  | some (.batch ⟨e :: events, reason⟩), hx =>
    change x ∈ (expand.run _ (self.envelopesOf ⟨e :: events, reason⟩).2).2 at hx
    obtain ⟨deriver, env, henv, hmem⟩ := Transducer.mem_run hx
    have hplain := self.envelopesOf_plain ⟨e :: events, reason⟩ env henv
    unfold expand at hmem
    split at hmem
    · rw [List.mem_singleton.mp hmem]
      exact .inl hplain
    · rcases List.mem_cons.mp hmem with rfl | hmem
      · exact .inl hplain
      · exact .inr (hhint _ _ _ _ x hmem)
  | some (.tick now), hx => exact .inr (hhint _ _ _ _ x hx)
  | some .shutdown, hx => cases hx
  | none, hx => cases hx

theorem stateChange_of_traced {x : Traced}
    (h : x.1.isPlain = true ∨ ∃ id now tr, x.1 = StateDeriver.stateHint id now tr) :
    ((hintOf x).bind fun hint =>
        (RecordBuilder.stateChange hint).map fun tr => (hint.timestamp, tr)) =
      (transitionOf x).map (·.move) := by
  obtain ⟨env, kind⟩ := x
  rcases h with hplain | ⟨id, now, tr, rfl⟩
  · rw [transitionOf_plain hplain]
    have hchange : RecordBuilder.stateChange env = none := by
      unfold RecordBuilder.stateChange
      split
      · rename_i a b _ hpayload
        rw [EventEnvelope.isPlain, hpayload] at hplain
        cases hplain
      · rfl
    cases hhint : hintOf (env, kind) with
    | none => rfl
    | some hint =>
      have heq : hint = env := by
        unfold hintOf at hhint
        split_ifs at hhint
        exact (Option.some.inj hhint).symm
      rw [heq, Option.bind_some, hchange]
      rfl
  · rfl

theorem stateChange_run (self : EnvelopeStage) (cmds : List (Option DeriveCommand)) :
    (sentTo .hints (loop.run self cmds).2).filterMap
        (fun hint => (RecordBuilder.stateChange hint).map fun tr => (hint.timestamp, tr)) =
      (DefaultStateEngine.react.run self.engine (stimuli.run self cmds).2).2 := by
  have htraced : ∀ x ∈ (trace.run self cmds).2,
      x.1.isPlain = true ∨ ∃ id now tr, x.1 = StateDeriver.stateHint id now tr := by
    intro x hx
    obtain ⟨stage, cmd, -, hmem⟩ := Transducer.mem_run hx
    exact stage.traced_cases cmd x hmem
  rw [(self.loop_run cmds).2.1, ← (self.stimuli_run cmds).2, List.filterMap_filterMap,
    List.map_filterMap]
  exact List.filterMap_congr fun x hx => stateChange_of_traced (htraced x hx)

theorem builder_run (self : EnvelopeStage) (hself : self.engine.Coherent)
    (cmds : List (Option DeriveCommand)) (builder : RecordBuilder)
    (hbuilder : builder.currentState = self.engine.current) (clock : Nat → RecordBuilder.HintClock) :
    (RecordBuilder.changes.run builder
        (RecordBuilder.timed clock (sentTo .hints (loop.run self cmds).2))).2 =
        (sentTo .hints (loop.run self cmds).2).filterMap
          (fun hint => (RecordBuilder.stateChange hint).map (hint, ·)) ∧
      (RecordBuilder.consume.run builder
        (RecordBuilder.timed clock (sentTo .hints (loop.run self cmds).2))).1.currentState =
        (loop.run self cmds).1.engine.current := by
  have hhints : ((RecordBuilder.timed clock (sentTo .hints (loop.run self cmds).2)).map
      Prod.fst).filterMap RecordBuilder.stateChange =
        (DefaultStateEngine.react.run self.engine (stimuli.run self cmds).2).2.map (·.2) := by
    rw [RecordBuilder.timed_map_fst, ← stateChange_run, List.map_filterMap]
    refine List.filterMap_congr fun hint _ => ?_
    cases RecordBuilder.stateChange hint <;> rfl
  have hpath := DefaultStateEngine.react_path hself (stimuli.run self cmds).2
  rw [← (self.stimuli_run cmds).1, ← (self.loop_run cmds).1, ← hbuilder] at hpath
  have hchanges := RecordBuilder.changes_eq builder
    (RecordBuilder.timed clock (sentTo .hints (loop.run self cmds).2))
    (by rw [hhints]; exact MovePath.map_iff.mpr hpath) ?_
  · rwa [RecordBuilder.timed_map_fst] at hchanges
  · rw [hhints]
    intro tr htr
    obtain ⟨move, hmove, rfl⟩ := List.mem_map.mp htr
    exact DefaultStateEngine.react_ne hself _ move hmove

end EnvelopeStage

/-! ### One run, three readers -/

/-- For every run of the envelope stage and every order in which its updates reach the snapshot
stage among other messages: the transitions stored are those the engine returned, in order, and they
are what is pushed on the bus; the first one leaves `Inactive`, each leaves where the one before it
led, and none is a loop; and a record builder that handles the hints sent changes its state with
exactly the state hints, from and to what the engine returned. -/
theorem stored_transitions_eq_engine_run (startedAt : DateTime) (grace idle : Nat)
    (cmds : List DeriveCommand) (snapshot : SnapshotStage)
    (received : List (DateTime × Option SnapshotMessage)) (nextRecordId : Nat)
    (clock : Nat → RecordBuilder.HintClock)
    (hreceived : received.filterMap SnapshotStage.updateOf =
      updatesOf (EnvelopeStage.loop.run (.new startedAt grace idle) (cmds.map some)).2) :
    let envelope := EnvelopeStage.new startedAt grace idle
    let hints := sentTo .hints (EnvelopeStage.loop.run envelope (cmds.map some)).2
    let returned := (DefaultStateEngine.react.run envelope.engine
      (EnvelopeStage.stimuli.run envelope (cmds.map some)).2).2
    let finished := SnapshotStage.loop.run snapshot received
    let stored := transitionsOf finished.2
    let changes := (RecordBuilder.changes.run (.withNextRecordId .inactive nextRecordId)
      (RecordBuilder.timed clock hints)).2
    stored.map (·.move) = returned ∧
      finished.1.bus.transitions = stored.foldl (Ring.push 64) snapshot.bus.transitions ∧
      (∀ t ∈ stored.head?, t.fromState = .inactive) ∧
      (stored.IsChain fun t u => u.fromState = t.toState) ∧
      (∀ t ∈ stored, t.fromState ≠ t.toState) ∧
      changes = hints.filterMap
        (fun hint => (RecordBuilder.stateChange hint).map (hint, ·)) ∧
      changes.map (fun change => (change.1.timestamp, change.2)) = returned := by
  intro envelope hints returned finished stored changes
  obtain ⟨hstored, hpushed⟩ := snapshot.loop_transitions received
  have hmoves : stored.map (·.move) = returned := by
    rw [show stored = _ from hstored, hreceived, (envelope.loop_run (cmds.map some)).2.2.1,
      List.map_map]
    have hmove : (fun t : Transition => t.move) ∘ SnapshotStage.attachRunId snapshot.bus =
        fun t => t.move := by
      funext t
      simp [Transition.move]
    rw [hmove]
    exact (envelope.stimuli_run (cmds.map some)).2
  have hcoherent := DefaultStateEngine.coherent_new startedAt (asI64 grace) (asI64 idle)
  have hpath : MovePath (·.2.fromState) (·.2.toState) ActivityState.inactive returned _ :=
    DefaultStateEngine.react_path hcoherent _
  have hchanges : changes = _ := (envelope.builder_run hcoherent (cmds.map some)
    (.withNextRecordId .inactive nextRecordId) rfl clock).1
  refine ⟨hmoves, hpushed, ?_, ?_, ?_, hchanges, ?_⟩
  · intro t ht
    refine hpath.head_src t.move ?_
    rw [← hmoves, List.head?_map, Option.mem_def.mp ht]
    rfl
  · have hchain := hpath.isChain
    rw [← hmoves] at hchain
    exact (List.isChain_map _).mp hchain
  · intro t ht
    exact DefaultStateEngine.react_ne hcoherent _ t.move (hmoves ▸ List.mem_map_of_mem ht)
  · rw [hchanges, List.map_filterMap,
      show returned = _ from (envelope.stateChange_run (cmds.map some)).symm]
    refine List.filterMap_congr fun hint _ => ?_
    cases RecordBuilder.stateChange hint <;> rfl

/-- A keystroke and a tick past the grace period. -/
def keystrokeThenTick : List DeriveCommand :=
  [.batch ⟨[.keyboardInput 1000000000 1 ⟨none, none, []⟩], .timeout⟩, .tick 10000000000]

/-- The two transitions of a keystroke and a later tick, stored around a publication. -/
theorem stored_transitions_of_keystroke :
    (transitionsOf (SnapshotStage.loop.run (.new (.new none) 60 [] [] 0)
      ((0, some .publish) ::
        (updatesOf (EnvelopeStage.loop.run (.new 0 5 30) (keystrokeThenTick.map some)).2).map
          fun update => (0, some (.update update)))).2).map (·.move) =
      [(1000000000, ⟨.inactive, .active⟩), (10000000000, ⟨.active, .passive⟩)] :=
  (stored_transitions_eq_engine_run 0 5 30 keystrokeThenTick (.new (.new none) 60 [] [] 0) _ 0
    (fun _ => ⟨0, 0⟩) (by decide)).1.trans (by decide)

end Kronical
