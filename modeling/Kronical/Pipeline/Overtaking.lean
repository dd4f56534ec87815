import Kronical.Pipeline.EngineRun
import Kronical.Pipeline.Ingest

/-!
# Ticks that overtake events

The ingest stage stamps an event when it receives it, but hands it on with a batch; the tick it sends
behind every accepted event is stamped later and handled first. A transition that such a tick causes
is put out of order by the events it has overtaken if they make the engine move in turn
(`transitions_in_order_iff_timely`).
-/

namespace Kronical

/-! ### The engine -/

namespace DefaultStateEngine

/-- The state a signal puts the unlocked engine in. -/
def awake (self : DefaultStateEngine) : ActivityState :=
  if 0 ≤ self.activeGraceSecs then .active
  else if 0 ≤ self.idleThresholdSecs then .passive
  else .inactive

theorem compute_touched {self : DefaultStateEngine} (hlocked : self.locked = false)
    (now : DateTime) : { self with lastSignalTime := now }.compute now = self.awake := by
  unfold compute awake
  rw [if_neg (by simp [hlocked]), Int.sub_self]
  rfl

/-- The signal would make the engine, unlocked and in this state, move. -/
def Stirs (self : DefaultStateEngine) (state : ActivityState) (env : EventEnvelope) : Prop :=
  env.isSignal = true ∧ env.kind ≠ .signal .lockEnd ∧
    (state ≠ self.awake ∨ env.kind = .signal .lockStart)

instance (self : DefaultStateEngine) (state : ActivityState) (env : EventEnvelope) :
    Decidable (self.Stirs state env) :=
  inferInstanceAs (Decidable (_ ∧ _ ∧ _))

theorem onSignal_touch {self : DefaultStateEngine} (hlocked : self.locked = false)
    {env : EventEnvelope} (hsignal : env.isSignal = true) (hstart : env.kind ≠ .signal .lockStart)
    (hend : env.kind ≠ .signal .lockEnd) (now : DateTime) :
    self.onSignal env now = { self with lastSignalTime := now }.settle self.awake := by
  unfold onSignal
  split
  · rename_i h
    exact absurd h hstart
  · rename_i h
    exact absurd h hend
  · rw [if_neg (by simp [hlocked])]
    exact congrArg ({ self with lastSignalTime := now }.settle ·) (compute_touched hlocked now)
  · rename_i h
    simp [EventEnvelope.isSignal, h] at hsignal

theorem react_signal {self : DefaultStateEngine} (hlocked : self.locked = false) {env : EventEnvelope}
    (hsignal : env.isSignal = true) :
    (self.Stirs self.current env ∧ ∃ tr, (react self (.signal env)).2 = [(env.timestamp, tr)]) ∨
      (¬ self.Stirs self.current env ∧ (react self (.signal env)).2 = [] ∧
        (react self (.signal env)).1.locked = false ∧
        (react self (.signal env)).1.current = self.current ∧
        (react self (.signal env)).1.awake = self.awake) := by
  unfold Stirs
  by_cases hstart : env.kind = .signal .lockStart
  · refine .inl ⟨⟨hsignal, by simp [hstart], .inr hstart⟩,
      { fromState := self.current, toState := .locked }, ?_⟩
    simp [react, onSignal, hstart, hlocked]
  by_cases hend : env.kind = .signal .lockEnd
  · refine .inr ⟨fun h => h.2.1 hend, ?_⟩
    simp [react, onSignal, hend, hlocked]
  have htouch := onSignal_touch hlocked hsignal hstart hend env.timestamp
  by_cases hawake : self.awake = self.current
  · refine .inr ⟨fun h => h.2.2.elim (fun hne => hne hawake.symm) hstart, ?_⟩
    have hstay : self.onSignal env env.timestamp =
        ({ self with lastSignalTime := env.timestamp }, none) :=
      htouch.trans (if_neg (not_not.mpr hawake))
    rw [react, hstay]
    exact ⟨rfl, hlocked, rfl, rfl⟩
  · refine .inl ⟨⟨hsignal, hend, .inl (Ne.symm hawake)⟩,
      { fromState := self.current, toState := self.awake }, ?_⟩
    simp [react, htouch, settle, hawake]

/-- The instants of signals that do not go back. -/
abbrev InOrder (envs : List EventEnvelope) : Prop :=
  envs.Pairwise fun env later => env.timestamp ≤ later.timestamp

theorem react_in_order {self : DefaultStateEngine} {floor : DateTime} {envs : List EventEnvelope}
    (henvs : InOrder envs) (hsignals : ∀ env ∈ envs, env.isSignal = true)
    (hquiet : ∀ env ∈ envs, env.timestamp < floor →
      self.locked = false ∧ ¬ self.Stirs self.current env) :
    let moves := (react.run self (envs.map .signal)).2
    moves.Pairwise (fun move later => move.1 ≤ later.1) ∧ ∀ move ∈ moves, floor ≤ move.1 := by
  intro moves
  induction envs generalizing self with
  | nil => exact ⟨.nil, fun _ h => absurd h List.not_mem_nil⟩
  | cons env rest ih =>
    obtain ⟨hfirst, hrest⟩ := List.pairwise_cons.mp henvs
    obtain ⟨hsignal, hsignals⟩ := List.forall_mem_cons.mp hsignals
    by_cases htime : env.timestamp < floor
    · obtain ⟨hlocked, hcalm⟩ := hquiet env List.mem_cons_self htime
      rcases react_signal hlocked hsignal with ⟨hstirs, -⟩ | ⟨-, hout, hlocked', hcurrent, hawake⟩
      · exact absurd hstirs hcalm
      · have hmoves : moves = (react.run (react self (.signal env)).1 (rest.map .signal)).2 := by
          show _ ++ _ = _
          rw [hout]
          rfl
        rw [hmoves]
        refine ih hrest hsignals fun later hlater hbefore => ⟨hlocked', ?_⟩
        rw [hcurrent, Stirs, hawake]
        exact (hquiet later (List.mem_cons_of_mem _ hlater) hbefore).2
    · -- From here on no signal is stamped before the floor.
      have hall : ∀ later ∈ env :: rest, floor ≤ later.timestamp := by
        intro later hlater
        rcases List.mem_cons.mp hlater with rfl | hlater
        · exact Int.not_lt.mp htime
        · exact Int.le_trans (Int.not_lt.mp htime) (hfirst later hlater)
      refine ⟨Transducer.run_sorted react_time ?_ self, fun move hmove => ?_⟩
      · exact List.pairwise_map.mpr henvs
      · obtain ⟨engine, stimulus, hstimulus, hmove⟩ := Transducer.mem_run hmove
        obtain ⟨later, hlater, rfl⟩ := List.mem_map.mp hstimulus
        rw [react_time engine _ move hmove]
        exact hall later hlater

theorem react_before {self : DefaultStateEngine} (hlocked : self.locked = false) {now : DateTime}
    {envs : List EventEnvelope} (henvs : InOrder envs) (hsignals : ∀ env ∈ envs, env.isSignal = true)
    {env : EventEnvelope} (hmem : env ∈ envs) (htime : env.timestamp < now)
    (hstirs : self.Stirs self.current env) :
    ∃ move ∈ (react.run self (envs.map .signal)).2, move.1 < now := by
  induction envs generalizing self with
  | nil => exact absurd hmem List.not_mem_nil
  | cons first rest ih =>
    obtain ⟨hfirst, hrest⟩ := List.pairwise_cons.mp henvs
    obtain ⟨hsignal, hsignals⟩ := List.forall_mem_cons.mp hsignals
    rcases react_signal hlocked hsignal with
      ⟨-, tr, hout⟩ | ⟨hcalm, hout, hlocked', hcurrent, hawake⟩
    · refine ⟨(first.timestamp, tr), List.mem_append_left _ (hout ▸ List.mem_cons_self), ?_⟩
      rcases List.mem_cons.mp hmem with rfl | hmem
      · exact htime
      · exact Int.lt_of_le_of_lt (hfirst env hmem) htime
    · have hlater : env ∈ rest := by
        refine (List.mem_cons.mp hmem).resolve_left ?_
        rintro rfl
        exact hcalm hstirs
      rw [Stirs, ← hawake, ← hcurrent] at hstirs
      obtain ⟨move, hmove, hbefore⟩ := ih hlocked' hrest hsignals hlater hstirs
      exact ⟨move, List.mem_append_right _ hmove, hbefore⟩

end DefaultStateEngine

/-! ### What the ingest stage sends -/

/-- The latest reading behind a turn that started at `now`. -/
def Wake.latest (now : DateTime) (wake : Wake) : DateTime :=
  (now :: wake.readings).getLast (List.cons_ne_nil _ _)

theorem Wake.le_latest {now : DateTime} {wake : Wake}
    (hclock : (now :: wake.readings).Pairwise (· ≤ ·)) :
    ∀ t ∈ now :: wake.readings, t ≤ wake.latest now :=
  fun _ ht => hclock.rel_getLast ht

theorem Wake.latest_le {now : DateTime} {wake : Wake} {later : List DateTime}
    (hclock : (now :: (wake.readings ++ later)).Pairwise (· ≤ ·)) :
    (now :: wake.readings).Pairwise (· ≤ ·) ∧ (wake.latest now :: later).Pairwise (· ≤ ·) := by
  rw [← List.cons_append, List.pairwise_append] at hclock
  obtain ⟨hturn, hlater, hbetween⟩ := hclock
  exact ⟨hturn, List.pairwise_cons.mpr ⟨hbetween _ (List.getLast_mem _), hlater⟩⟩

/-- The pending events are stamped in order, and none after `now`. -/
structure Stamped (pending : List RawEvent) (now : DateTime) : Prop where
  sorted : pending.Pairwise fun e later => e.timestamp ≤ later.timestamp
  past : ∀ e ∈ pending, e.timestamp ≤ now

theorem Stamped.turn {self : IngestStage} {wake : Wake} {now : DateTime} {pending : List RawEvent}
    {out : List DeriveCommand} (h : Stamped self.pending now)
    (hclock : (now :: wake.readings).Pairwise (· ≤ ·)) (hturns : self.Turns wake pending out) :
    Stamped pending (wake.latest now) := by
  have hpast : ∀ e ∈ self.pending, e.timestamp ≤ wake.latest now := fun e he =>
    Int.le_trans (h.past e he) (Wake.le_latest hclock now List.mem_cons_self)
  cases hturns with
  | @accept raw tickNow haccepted =>
    obtain ⟨earlier, hreadings, hstamp⟩ := IngestStage.accepted_readings haccepted
    have hread : raw.timestamp ∈ wake.readings := hreadings ▸ List.mem_append_left _ hstamp
    refine ⟨List.pairwise_append.mpr ⟨h.sorted, List.pairwise_singleton _ _, ?_⟩, ?_⟩
    · intro e he later hlater
      rw [List.mem_singleton.mp hlater]
      exact Int.le_trans (h.past e he) ((List.pairwise_cons.mp hclock).1 _ hread)
    · intro e he
      rcases List.mem_append.mp he with he | he
      · exact hpast e he
      · rw [List.mem_singleton.mp he]
        exact Wake.le_latest hclock _ (List.mem_cons_of_mem _ hread)
  | idle => exact ⟨h.sorted, hpast⟩
  | flush => exact ⟨.nil, fun _ h => absurd h List.not_mem_nil⟩

/-! ### What the envelope stage makes of it -/

/-- The moves of the engine among what is sent, in order. -/
def movesOf (packets : List Packet) : List (DateTime × StateTransition) :=
  ((updatesOf packets).filterMap (·.transition)).map (·.move)

@[simp] theorem movesOf_append (packets packets' : List Packet) :
    movesOf (packets ++ packets') = movesOf packets ++ movesOf packets' := by
  rw [movesOf, updatesOf_append, List.filterMap_append, List.map_append, movesOf, movesOf]

namespace DefaultStateEngine

theorem onTick_cases (self : DefaultStateEngine) (now : DateTime) :
    (self.onTick now = (self, none) ∧ (self.locked = true ∨ self.compute now = self.current)) ∨
      self.locked = false ∧ self.compute now ≠ self.current ∧
        self.onTick now = ({ self with current := self.compute now },
          some { fromState := self.current, toState := self.compute now }) := by
  unfold onTick settle
  by_cases hlocked : self.locked = true
  · rw [if_pos hlocked]
    exact .inl ⟨rfl, .inl hlocked⟩
  · rw [if_neg hlocked]
    by_cases hmoves : self.compute now ≠ self.current
    · rw [if_pos hmoves]
      exact .inr ⟨Bool.not_eq_true _ ▸ hlocked, hmoves, rfl⟩
    · rw [if_neg hmoves]
      exact .inl ⟨rfl, .inr (not_not.mp hmoves)⟩

end DefaultStateEngine

namespace EnvelopeStage

theorem handle_moves (self : EnvelopeStage) (cmd : Option DeriveCommand) :
    (self.handle cmd).1.engine =
        (DefaultStateEngine.react.run self.engine (self.stimuliOf cmd)).1 ∧
      movesOf (self.handle cmd).2 =
        (DefaultStateEngine.react.run self.engine (self.stimuliOf cmd)).2 := by
  obtain ⟨hengine, hmoves⟩ := self.trace_react cmd
  rw [← hengine, ← hmoves, movesOf, (self.handle_transitions cmd).1]
  exact ⟨congrArg (fun next => next.1.engine) (self.handle_eq cmd), rfl⟩

theorem handle_tick (self : EnvelopeStage) (now : DateTime) :
    (self.handle (some (.tick now))).1 =
        { self with stateDeriver := ⟨(self.engine.onTick now).1⟩ } ∧
      movesOf (self.handle (some (.tick now))).2 =
        (self.engine.onTick now).2.toList.map (now, ·) := by
  refine ⟨congrArg Prod.fst (self.handle_eq (some (.tick now))), ?_⟩
  rw [(self.handle_moves (some (.tick now))).2]
  exact List.append_nil _

/-- The envelopes that pending events will become. -/
def upcoming (self : EnvelopeStage) (pending : List RawEvent) : List EventEnvelope :=
  (self.envelopesOf ⟨pending, .timeout⟩).2

theorem upcoming_eq (self : EnvelopeStage) (pending : List RawEvent) :
    self.upcoming pending = (observe.run (self.adapter, self.lockDeriver) pending).2 := by
  rw [derive_adaptBatch]
  rfl

theorem upcoming_concat (self : EnvelopeStage) (pending : List RawEvent) (raw : RawEvent) :
    ∃ envs, self.upcoming (pending ++ [raw]) = self.upcoming pending ++ envs ∧
      ∀ env ∈ envs, env.timestamp = raw.timestamp := by
  rw [upcoming_eq, upcoming_eq, Transducer.run_concat]
  exact ⟨_, rfl, observe_time _ raw⟩

/-- The signals of the pending events, in order. -/
def upcomingSignals (self : EnvelopeStage) (pending : List RawEvent) : List EventEnvelope :=
  (self.upcoming pending).filter (·.isSignal)

theorem stimuliOf_batch (self : EnvelopeStage) (batch : RawBatch) :
    self.stimuliOf (some (.batch batch)) = (self.upcomingSignals batch.events).map .signal := by
  show (self.upcoming batch.events).filterMap asStimulus = _
  rw [upcomingSignals, ← List.filterMap_eq_filter, List.map_filterMap]
  refine List.filterMap_congr fun env _ => ?_
  unfold asStimulus
  split_ifs with hsignal <;> simp [Option.guard, hsignal]

/-- The tick makes the engine move, and events it has overtaken would make it move in turn. -/
def Overtakes (self : EnvelopeStage) (pending : List RawEvent) (now : DateTime) : Prop :=
  self.engine.locked = false ∧ self.engine.compute now ≠ self.engine.current ∧
    ∃ env ∈ self.upcoming pending, env.timestamp < now ∧
      self.engine.Stirs (self.engine.compute now) env

instance (self : EnvelopeStage) (pending : List RawEvent) (now : DateTime) :
    Decidable (self.Overtakes pending now) :=
  inferInstanceAs (Decidable (_ ∧ _ ∧ _))

/-- The stage over the commands it receives. -/
def receive : Transducer EnvelopeStage DeriveCommand Packet := fun self cmd => self.handle (some cmd)

end EnvelopeStage

/-! ### Both stages -/

/-- The ingest stage feeding the envelope stage. -/
def ingestAndDerive : Transducer (IngestStage × EnvelopeStage) Wake Packet :=
  IngestStage.ingest.comp EnvelopeStage.receive

/-- The tick a turn sends behind an accepted event does not put a transition out of order. -/
def Timely (s : IngestStage × EnvelopeStage) (wake : Wake) : Prop :=
  ∀ accepted ∈ s.1.accepted wake, ¬ s.2.Overtakes (s.1.pending ++ [accepted.1]) accepted.2

instance (s : IngestStage × EnvelopeStage) (wake : Wake) : Decidable (Timely s wake) :=
  inferInstanceAs (Decidable (∀ accepted ∈ s.1.accepted wake, _))

theorem EnvelopeStage.upcoming_inOrder (self : EnvelopeStage) {pending : List RawEvent}
    {now : DateTime} (h : Stamped pending now) :
    DefaultStateEngine.InOrder (self.upcomingSignals pending) ∧
      ∀ env ∈ self.upcomingSignals pending, env.isSignal = true ∧ env.timestamp ≤ now := by
  rw [upcomingSignals, upcoming_eq]
  refine ⟨(Transducer.run_sorted observe_time h.sorted _).filter _, fun env hmem => ?_⟩
  obtain ⟨hobserved, hsignal⟩ := List.mem_filter.mp hmem
  obtain ⟨state, e, he, hobserve⟩ := Transducer.mem_run hobserved
  refine ⟨hsignal, ?_⟩
  rw [observe_time state e env hobserve]
  exact h.past e he

/-- At `now` no pending event that is stamped before `floor` will make the engine move. -/
structure Calm (s : IngestStage × EnvelopeStage) (floor now : DateTime) : Prop where
  stamped : Stamped s.1.pending now
  floor_le : floor ≤ now
  quiet : ∀ env ∈ s.2.upcoming s.1.pending, env.timestamp < floor →
    s.2.engine.locked = false ∧ ¬ s.2.engine.Stirs s.2.engine.current env

theorem flush_moves (s : IngestStage × EnvelopeStage) (reason : FlushReason) :
    movesOf (EnvelopeStage.receive.run s.2 (s.1.flush reason)).2 =
      (DefaultStateEngine.react.run s.2.engine
        ((s.2.upcomingSignals s.1.pending).map .signal)).2 := by
  unfold IngestStage.flush
  split_ifs with hempty
  · rw [List.isEmpty_iff.mp hempty]
    rfl
  · rw [Transducer.run_cons_snd, Transducer.run_nil, List.append_nil, EnvelopeStage.receive,
      (s.2.handle_moves _).2, s.2.stimuliOf_batch]

theorem Calm.flush {s : IngestStage × EnvelopeStage} {floor now : DateTime} (h : Calm s floor now)
    (reason : FlushReason) :
    let moves := movesOf (EnvelopeStage.receive.run s.2 (s.1.flush reason)).2
    moves.Pairwise (fun move later => move.1 ≤ later.1) ∧
      ∀ move ∈ moves, floor ≤ move.1 ∧ move.1 ≤ now := by
  intro moves
  have hmoves : moves = _ := flush_moves s reason
  obtain ⟨hsignals, hpast⟩ := s.2.upcoming_inOrder h.stamped
  have hquiet : ∀ env ∈ s.2.upcomingSignals s.1.pending, env.timestamp < floor →
      s.2.engine.locked = false ∧ ¬ s.2.engine.Stirs s.2.engine.current env :=
    fun env henv => h.quiet env (List.mem_of_mem_filter henv)
  obtain ⟨hsorted, hfloor⟩ := DefaultStateEngine.react_in_order hsignals
    (fun env henv => (hpast env henv).1) hquiet
  rw [hmoves]
  refine ⟨hsorted, fun move hmove => ⟨hfloor move hmove, ?_⟩⟩
  obtain ⟨engine, stimulus, hstimulus, hmove⟩ := Transducer.mem_run hmove
  obtain ⟨env, henv, rfl⟩ := List.mem_map.mp hstimulus
  rw [DefaultStateEngine.react_time engine _ move hmove]
  exact (hpast env henv).2

theorem Calm.accept {s : IngestStage × EnvelopeStage} {floor now latest tickNow : DateTime}
    (h : Calm s floor now) {next : IngestStage} {raw : RawEvent}
    (hpending : next.pending = s.1.pending ++ [raw]) (hstamped : Stamped (s.1.pending ++ [raw]) latest)
    (hraw : floor ≤ raw.timestamp) (hfloor : floor ≤ tickNow) (htick : tickNow ≤ latest)
    (htimely : ¬ s.2.Overtakes (s.1.pending ++ [raw]) tickNow) :
    let answer := s.2.handle (some (.tick tickNow))
    (movesOf answer.2 = [] ∧ Calm (next, answer.1) floor latest) ∨
      ∃ tr, movesOf answer.2 = [(tickNow, tr)] ∧ Calm (next, answer.1) tickNow latest := by
  intro answer
  obtain ⟨hnext, hmoves⟩ := s.2.handle_tick tickNow
  rcases s.2.engine.onTick_cases tickNow with ⟨hstay, -⟩ | ⟨hlocked, hne, hgo⟩
  · rw [hstay] at hnext hmoves
    refine .inl ⟨hmoves, hpending ▸ hstamped, Int.le_trans hfloor htick, ?_⟩
    rw [show answer.1 = s.2 from hnext, hpending]
    intro env henv hbefore
    obtain ⟨envs, hconcat, htime⟩ := s.2.upcoming_concat s.1.pending raw
    rw [hconcat] at henv
    rcases List.mem_append.mp henv with henv | henv
    · exact h.quiet env henv hbefore
    · rw [htime env henv] at hbefore
      exact absurd hraw (Int.not_le.mpr hbefore)
  · rw [hgo] at hnext hmoves
    refine .inr ⟨_, hmoves, hpending ▸ hstamped, htick, ?_⟩
    rw [show answer.1 = _ from hnext, hpending]
    intro env henv hbefore
    exact ⟨hlocked, fun hstirs => htimely ⟨hlocked, hne, env, henv, hbefore, hstirs⟩⟩

theorem EnvelopeStage.last_moves (self : EnvelopeStage) {wake : Wake} {now : DateTime}
    (hclock : (now :: wake.readings).Pairwise (· ≤ ·)) {last : DeriveCommand}
    (hlast : last = .shutdown ∨ ∃ tickNow ∈ wake.readings, last = .tick tickNow) :
    let moves := movesOf (self.handle (some last)).2
    moves.Pairwise (fun move later => move.1 ≤ later.1) ∧
      ∀ move ∈ moves, now ≤ move.1 ∧ move.1 ≤ wake.latest now := by
  intro moves
  rcases hlast with rfl | ⟨tickNow, hread, rfl⟩
  · have hnone : moves = [] := (self.handle_moves (some .shutdown)).2
    rw [hnone]
    exact ⟨.nil, fun _ h => absurd h List.not_mem_nil⟩
  · have hsent : moves = _ := (self.handle_tick tickNow).2
    rw [hsent]
    cases (self.engine.onTick tickNow).2 with
    | none => exact ⟨.nil, fun _ h => absurd h List.not_mem_nil⟩
    | some tr =>
      refine ⟨List.pairwise_singleton _ _, fun move hmove => ?_⟩
      rw [List.mem_singleton.mp hmove]
      exact ⟨(List.pairwise_cons.mp hclock).1 _ hread,
        Wake.le_latest hclock _ (List.mem_cons_of_mem _ hread)⟩

theorem Calm.turn {s : IngestStage × EnvelopeStage} {floor now : DateTime} (h : Calm s floor now)
    {wake : Wake} (hclock : (now :: wake.readings).Pairwise (· ≤ ·)) (htimely : Timely s wake) :
    let moves := movesOf (ingestAndDerive s wake).2
    moves.Pairwise (fun move later => move.1 ≤ later.1) ∧ (∀ move ∈ moves, floor ≤ move.1) ∧
      ∃ floor', floor ≤ floor' ∧ (∀ move ∈ moves, move.1 ≤ floor') ∧
        Calm (ingestAndDerive s wake).1 floor' (wake.latest now) := by
  have hturns := IngestStage.ingest_turns s.1 wake
  have hstamped := h.stamped.turn hclock hturns
  have hlatest := Wake.le_latest hclock
  rcases hstep : IngestStage.ingest s.1 wake with ⟨next, out⟩
  have hboth : ingestAndDerive s wake =
      ((next, (EnvelopeStage.receive.run s.2 out).1), (EnvelopeStage.receive.run s.2 out).2) := by
    unfold ingestAndDerive Transducer.comp
    rw [hstep]
  rw [hstep] at hturns hstamped
  rw [hboth]
  intro moves
  dsimp only at hturns hstamped
  generalize hpending : next.pending = pending at hturns hstamped
  cases hturns with
  | @accept raw tickNow haccepted =>
    obtain ⟨earlier, hreadings, hstamp⟩ := IngestStage.accepted_readings haccepted
    have hread : tickNow ∈ wake.readings := hreadings ▸ List.mem_append_right _ List.mem_cons_self
    have hafter : now ≤ raw.timestamp :=
      (List.pairwise_cons.mp hclock).1 _ (hreadings ▸ List.mem_append_left _ hstamp)
    have hfloor : floor ≤ tickNow :=
      Int.le_trans h.floor_le ((List.pairwise_cons.mp hclock).1 _ hread)
    have hsent : moves = movesOf (s.2.handle (some (.tick tickNow))).2 := by
      show movesOf ((s.2.handle (some (.tick tickNow))).2 ++ []) = _
      rw [List.append_nil]
    have hbound := hlatest tickNow (List.mem_cons_of_mem _ hread)
    rw [hsent]
    rcases h.accept hpending hstamped (Int.le_trans h.floor_le hafter) hfloor hbound
      (htimely (raw, tickNow) haccepted) with ⟨hnone, hcalm⟩ | ⟨tr, hone, hcalm⟩
    · rw [hnone]
      exact ⟨.nil, fun _ h => absurd h List.not_mem_nil, floor, Int.le_refl _,
        fun _ h => absurd h List.not_mem_nil, hcalm⟩
    · rw [hone]
      refine ⟨List.pairwise_singleton _ _, fun move hmove => ?_, tickNow, hfloor,
        fun move hmove => ?_, hcalm⟩
      · rw [List.mem_singleton.mp hmove]
        exact hfloor
      · rw [List.mem_singleton.mp hmove]
  | idle haccepted =>
    refine ⟨.nil, fun _ h => absurd h List.not_mem_nil, floor, Int.le_refl _,
      fun _ h => absurd h List.not_mem_nil, ?_⟩
    refine ⟨hpending ▸ hstamped, Int.le_trans h.floor_le (hlatest now List.mem_cons_self), ?_⟩
    rw [hpending]
    exact h.quiet
  | @flush reason last haccepted hlast =>
    obtain ⟨hsorted, hwithin⟩ := h.flush reason
    have hsent : moves = movesOf (EnvelopeStage.receive.run s.2 (s.1.flush reason)).2 ++
        movesOf ((EnvelopeStage.receive.run s.2 (s.1.flush reason)).1.handle (some last)).2 := by
      show movesOf (EnvelopeStage.receive.run s.2 (s.1.flush reason ++ [last])).2 = _
      rw [Transducer.run_concat, movesOf_append]
      rfl
    obtain ⟨hlastSorted, hlastWithin⟩ :=
      (EnvelopeStage.receive.run s.2 (s.1.flush reason)).1.last_moves hclock hlast
    rw [hsent]
    refine ⟨List.pairwise_append.mpr ⟨hsorted, hlastSorted, fun move hmove later hlater => ?_⟩,
      fun move hmove => ?_, wake.latest now, ?_, fun move hmove => ?_, ?_⟩
    · exact Int.le_trans (hwithin move hmove).2 (hlastWithin later hlater).1
    · rcases List.mem_append.mp hmove with hmove | hmove
      · exact (hwithin move hmove).1
      · exact Int.le_trans h.floor_le (hlastWithin move hmove).1
    · exact Int.le_trans h.floor_le (hlatest now List.mem_cons_self)
    · rcases List.mem_append.mp hmove with hmove | hmove
      · exact Int.le_trans (hwithin move hmove).2 (hlatest now List.mem_cons_self)
      · exact (hlastWithin move hmove).2
    · refine ⟨hpending ▸ hstamped, Int.le_refl _, ?_⟩
      rw [hpending]
      exact fun _ h => absurd h List.not_mem_nil

/-- If all turns are timely the engine moves in order. -/
theorem Calm.run {s : IngestStage × EnvelopeStage} {floor now : DateTime} (h : Calm s floor now)
    {wakes : List Wake} (hclock : (now :: wakes.flatMap Wake.readings).Pairwise (· ≤ ·))
    (htimely : ingestAndDerive.Along Timely s wakes) :
    let moves := movesOf (ingestAndDerive.run s wakes).2
    moves.Pairwise (fun move later => move.1 ≤ later.1) ∧ ∀ move ∈ moves, floor ≤ move.1 := by
  intro moves
  induction wakes generalizing s floor now with
  | nil => exact ⟨.nil, fun _ h => absurd h List.not_mem_nil⟩
  | cons wake wakes ih =>
    obtain ⟨hturn, hlater⟩ := Wake.latest_le hclock
    obtain ⟨hsorted, hfloor, floor', hle, hbelow, hcalm⟩ := h.turn hturn htimely.1
    obtain ⟨hrest, habove⟩ := ih hcalm hlater htimely.2
    have hmoves : moves = movesOf (ingestAndDerive s wake).2 ++
        movesOf (ingestAndDerive.run (ingestAndDerive s wake).1 wakes).2 := movesOf_append _ _
    rw [hmoves]
    refine ⟨List.pairwise_append.mpr ⟨hsorted, hrest, fun move hmove later hlater => ?_⟩, ?_⟩
    · exact Int.le_trans (hbelow move hmove) (habove later hlater)
    · intro move hmove
      rcases List.mem_append.mp hmove with hmove | hmove
      · exact hfloor move hmove
      · exact Int.le_trans hle (habove move hmove)

/-- Whatever the turns, the pending events stay stamped in order. -/
theorem Stamped.run {s : IngestStage × EnvelopeStage} {now : DateTime} (h : Stamped s.1.pending now)
    {wakes : List Wake} {later : List DateTime}
    (hclock : (now :: (wakes.flatMap Wake.readings ++ later)).Pairwise (· ≤ ·)) :
    ∃ now', (now' :: later).Pairwise (· ≤ ·) ∧
      Stamped (ingestAndDerive.run s wakes).1.1.pending now' := by
  induction wakes generalizing s now with
  | nil => exact ⟨now, hclock, h⟩
  | cons wake wakes ih =>
    rw [List.flatMap_cons, List.append_assoc] at hclock
    obtain ⟨hturn, hrest⟩ := Wake.latest_le hclock
    exact ih (h.turn hturn (IngestStage.ingest_turns s.1 wake)) hrest

theorem out_of_order {s : IngestStage × EnvelopeStage} {now : DateTime} (h : Stamped s.1.pending now)
    {wake : Wake} (hclock : (now :: wake.readings).Pairwise (· ≤ ·)) (htimely : ¬ Timely s wake)
    (woken : Int) (tickNow : DateTime) (sent : Int) :
    ¬ (movesOf (ingestAndDerive.run s [wake, .ticker woken tickNow sent]).2).Pairwise
      fun move later => move.1 ≤ later.1 := by
  intro hsorted
  unfold Timely at htimely
  push Not at htimely
  obtain ⟨⟨raw, overtaking⟩, haccepted, hovertakes⟩ := htimely
  obtain ⟨hlocked, hne, env, henv, hbefore, hstirs⟩ := hovertakes
  have hturns := IngestStage.ingest_turns s.1 wake
  have hstamped := h.turn hclock hturns
  rcases hstep : IngestStage.ingest s.1 wake with ⟨next, out⟩
  rw [hstep] at hturns hstamped
  obtain ⟨hpending, rfl⟩ : next.pending = s.1.pending ++ [raw] ∧ out = [.tick overtaking] := by
    dsimp only at hturns
    generalize next.pending = pending at hturns
    cases hturns with
    | accept hsame =>
      obtain ⟨rfl, rfl⟩ := Prod.mk.inj (Option.some.inj (hsame.symm.trans haccepted))
      exact ⟨rfl, rfl⟩
    | idle hnone => cases hnone.symm.trans haccepted
    | flush hnone => cases hnone.symm.trans haccepted
  let answer := s.2.handle (some (.tick overtaking))
  obtain ⟨hnext, hmoves⟩ := s.2.handle_tick overtaking
  obtain ⟨-, -, hgo⟩ := (s.2.engine.onTick_cases overtaking).resolve_left fun hstay =>
    hstay.2.elim (fun h => Bool.false_ne_true (hlocked.symm.trans h)) hne
  rw [hgo] at hnext hmoves
  -- The flush that follows has the engine handle what was overtaken.
  have hflush := IngestStage.ingest_ticker (show next.pending ≠ [] by simp [hpending]) woken tickNow
    sent
  have hboth : ingestAndDerive s wake = ((next, answer.1), answer.2 ++ []) := by
    unfold ingestAndDerive Transducer.comp
    rw [hstep]
    rfl
  have hrun : movesOf (ingestAndDerive.run s [wake, .ticker woken tickNow sent]).2 =
      movesOf answer.2 ++ (movesOf (EnvelopeStage.receive.run answer.1 (next.flush .timeout)).2 ++
        movesOf ((EnvelopeStage.receive.run answer.1 (next.flush .timeout)).1.handle
          (some (.tick tickNow))).2) := by
    rw [Transducer.run_cons_snd, Transducer.run_cons_snd, Transducer.run_nil, hboth, List.append_nil,
      List.append_nil, movesOf_append, ← movesOf_append (EnvelopeStage.receive.run _ _).2]
    show _ ++ movesOf (EnvelopeStage.receive.run answer.1
      (IngestStage.ingest next (.ticker woken tickNow sent)).2).2 = _
    rw [hflush, Transducer.run_concat]
    rfl
  rw [hrun, show movesOf answer.2 = _ from hmoves] at hsorted
  obtain ⟨hsignals, hkinds⟩ := answer.1.upcoming_inOrder hstamped
  have hlocked' : answer.1.engine.locked = false := by
    rw [show answer.1 = _ from hnext]
    exact hlocked
  have hstirs' : answer.1.engine.Stirs answer.1.engine.current env := by
    rw [show answer.1 = _ from hnext]
    exact hstirs
  have henv' : env ∈ answer.1.upcomingSignals next.pending := by
    rw [show answer.1 = _ from hnext, hpending]
    exact List.mem_filter.mpr ⟨henv, hstirs.1⟩
  obtain ⟨move, hmove, hearly⟩ := DefaultStateEngine.react_before hlocked' hsignals
    (fun env henv => (hkinds env henv).1) henv' hbefore hstirs'
  rw [← flush_moves (next, answer.1) .timeout] at hmove
  have horder := (List.pairwise_append.mp hsorted).2.2 _ List.mem_cons_self move
    (List.mem_append_left _ hmove)
  exact absurd horder (Int.not_le.mpr hearly)

/-- On every run of the ingest stage and the envelope stage whose clock does not go back and whose
turns are all timely, the transitions are in order; and behind every turn that is not, they are not
once the ticker fires. -/
theorem transitions_in_order_iff_timely (started : Int) (startedAt : DateTime) (grace idle : Nat) :
    let start := (IngestStage.new started, EnvelopeStage.new startedAt grace idle)
    let transitions := fun wakes : List Wake =>
      (updatesOf (ingestAndDerive.run start wakes).2).filterMap (·.transition)
    (∀ wakes, (wakes.flatMap Wake.readings).Pairwise (· ≤ ·) →
        ingestAndDerive.Along Timely start wakes →
        (transitions wakes).Pairwise fun t later => t.atTime ≤ later.atTime) ∧
      ∀ wakes wake woken tickNow sent,
        ((wakes ++ [wake]).flatMap Wake.readings).Pairwise (· ≤ ·) →
        ¬ Timely (ingestAndDerive.run start wakes).1 wake →
        ¬ (transitions (wakes ++ [wake, .ticker woken tickNow sent])).Pairwise
          fun t later => t.atTime ≤ later.atTime := by
  intro start transitions
  have hmoves : ∀ wakes, (transitions wakes).Pairwise (fun t later => t.atTime ≤ later.atTime) ↔
      (movesOf (ingestAndDerive.run start wakes).2).Pairwise
        fun move later => move.1 ≤ later.1 := by
    intro wakes
    rw [movesOf, List.pairwise_map]
    rfl
  have hstart : ∀ readings : List DateTime, readings.Pairwise (· ≤ ·) →
      ∃ now, (now :: readings).Pairwise (· ≤ ·) := by
    intro readings hclock
    cases readings with
    | nil => exact ⟨0, List.pairwise_singleton _ _⟩
    | cons first rest =>
      refine ⟨first, List.pairwise_cons.mpr ⟨fun t ht => ?_, hclock⟩⟩
      rcases List.mem_cons.mp ht with rfl | ht
      · exact Int.le_refl _
      · exact (List.pairwise_cons.mp hclock).1 t ht
  have hstamped : ∀ now, Stamped start.1.pending now := fun now =>
    ⟨.nil, fun _ h => absurd h List.not_mem_nil⟩
  refine ⟨fun wakes hclock htimely => ?_, fun wakes wake woken tickNow sent hclock htimely => ?_⟩
  · obtain ⟨now, hnow⟩ := hstart _ hclock
    have hcalm : Calm start now now :=
      ⟨hstamped now, Int.le_refl _, fun _ h => absurd h List.not_mem_nil⟩
    exact (hmoves wakes).mpr (hcalm.run hnow htimely).1
  · rw [List.flatMap_append] at hclock
    obtain ⟨now, hnow⟩ := hstart _ hclock
    obtain ⟨now', hlater, hpending⟩ := (hstamped now).run hnow
    rw [hmoves, Transducer.run_append, movesOf_append]
    intro hsorted
    refine out_of_order hpending ?_ htimely woken tickNow sent (List.pairwise_append.mp hsorted).2.1
    simpa using hlater

/-- A keystroke a second after the start, an idle tick, and another keystroke at `now`. -/
def twoKeystrokes (idleTick now tickNow : DateTime) : List Wake :=
  [.event .keyboardInput 1000000000 [] 1000000001 0, .ticker 0 1050000000 0,
    .ticker 500000000 idleTick 500000000, .event .keyboardInput now [] tickNow 500000000,
    .ticker 0 (tickNow + 50000000) 0]

/-- If an idle tick has found the user passive, the next keystroke comes after that. -/
theorem keystroke_after_idle_tick :
    ((updatesOf (ingestAndDerive.run (.new 0, .new 0 30 300)
      (twoKeystrokes 32100000000 32200000000 32200000001)).2).filterMap (·.transition)).Pairwise
        fun t later => t.atTime ≤ later.atTime :=
  (transitions_in_order_iff_timely 0 0 30 300).1 _ (by decide) (by decide)

/-- If the keystroke's own tick finds the user passive, the keystroke comes before that. -/
theorem keystroke_before_own_tick :
    ¬ ∀ wakes, (wakes.flatMap Wake.readings).Pairwise (· ≤ ·) →
      ((updatesOf (ingestAndDerive.run (.new 0, .new 0 30 300) wakes).2).filterMap
        (·.transition)).Pairwise fun t later => t.atTime ≤ later.atTime := by
  intro h
  have hrun := h (twoKeystrokes 31700000000 32200000000 32200000001) (by decide)
  revert hrun
  decide

end Kronical
