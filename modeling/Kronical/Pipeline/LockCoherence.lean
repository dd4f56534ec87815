import Mathlib.Data.List.TFAE
import Mathlib.Tactic.TFAE
import Kronical.Pipeline.EngineRun

/-!
# One lock, five copies

The adapter's last focus, the lock deriver's flag, the engine's flag, the engine's state and the
record builder's state all say whether the machine is locked. Between commands they agree
(`lock_coherent`): the first two because every focus reaches both of them (`LockAgree`), the engine
because it follows the same `LockStart`s and `LockEnd`s that the deriver puts out
(`react_run_locked`), and the builder because it follows the engine.

What the deriver puts out is a `LockWord`: the marks alternate and nothing but focus hints stands
between a `LockStart` and its `LockEnd`.
-/

namespace Kronical

/-! ### Lock words -/

/-- Whether an envelope starts or ends a lock. -/
def lockMark (env : EventEnvelope) : Option Bool :=
  match env.kind with
  | .signal .lockStart => some true
  | .signal .lockEnd => some false
  | _ => none

/-- The lock after some envelopes. -/
def lockAfter (locked : Bool) (envs : List EventEnvelope) : Bool :=
  envs.foldl (fun locked env => (lockMark env).getD locked) locked

/-- Every mark turns the lock over, and while it is on only focus hints come without one. -/
def LockWord : Bool → List EventEnvelope → Prop
  | _, [] => True
  | locked, env :: envs =>
    (match lockMark env with
      | some mark => mark = !locked
      | none => locked = true → env.kind = .hint .focusChanged) ∧
      LockWord ((lockMark env).getD locked) envs

theorem LockWord.append {locked : Bool} {envs envs' : List EventEnvelope}
    (h : LockWord locked envs) (h' : LockWord (lockAfter locked envs) envs') :
    LockWord locked (envs ++ envs') := by
  induction envs generalizing locked with
  | nil => exact h'
  | cons env envs ih => exact ⟨h.1, ih h.2 h'⟩

theorem lockAfter_append (locked : Bool) (envs envs' : List EventEnvelope) :
    lockAfter locked (envs ++ envs') = lockAfter (lockAfter locked envs) envs' :=
  List.foldl_append

theorem LockWord.marks {locked : Bool} {envs : List EventEnvelope} (h : LockWord locked envs) :
    MovePath (!·) id locked (envs.filterMap lockMark) (lockAfter locked envs) := by
  induction envs generalizing locked with
  | nil => rfl
  | cons env envs ih =>
    have hrest := ih h.2
    cases hmark : lockMark env with
    | none =>
      rw [hmark] at hrest
      rw [List.filterMap_cons_none hmark]
      rwa [lockAfter, List.foldl_cons, hmark]
    | some mark =>
      have hturn : mark = !locked := by
        have hhead := h.1
        rwa [hmark] at hhead
      rw [hmark] at hrest
      rw [List.filterMap_cons_some hmark, lockAfter, List.foldl_cons, hmark]
      refine ⟨?_, hrest⟩
      rw [hturn]
      exact Bool.not_not locked

theorem LockWord.between {between after : List EventEnvelope} (h : LockWord true (between ++ after))
    (hlast : ∀ env ∈ between, env.kind ≠ .signal .lockEnd) :
    ∀ env ∈ between, env.kind = .hint .focusChanged := by
  induction between with
  | nil => simp
  | cons env between ih =>
    have hend := hlast env List.mem_cons_self
    have hfocus : lockMark env = none ∧ env.kind = .hint .focusChanged := by
      have hhead := h.1
      cases hmark : lockMark env with
      | none =>
        rw [hmark] at hhead
        exact ⟨rfl, hhead rfl⟩
      | some mark =>
        rw [hmark] at hhead
        unfold lockMark at hmark
        split at hmark
        · cases hmark
          cases hhead
        · rename_i hkind
          exact absurd hkind hend
        · cases hmark
    intro e he
    rcases List.mem_cons.mp he with rfl | he
    · exact hfocus.2
    · have hrest := h.2
      rw [hfocus.1] at hrest
      exact ih hrest (fun e he => hlast e (List.mem_cons_of_mem _ he)) e he

theorem LockWord.of_append {locked : Bool} {envs envs' : List EventEnvelope}
    (h : LockWord locked (envs ++ envs')) : LockWord (lockAfter locked envs) envs' := by
  induction envs generalizing locked with
  | nil => exact h
  | cons env envs ih => exact ih h.2

/-! ### The deriver puts out lock words -/

theorem observe_lockWord {s : EventAdapter × LockDeriver} (hs : LockAgree s) (e : RawEvent) :
    LockWord s.2.locked (observe s e).2 ∧
      lockAfter s.2.locked (observe s e).2 = (observe s e).1.2.locked := by
  obtain ⟨hnext, hobserved⟩ := observe_spec hs e
  rw [LockAgree] at hnext hs
  rw [hnext, hs, observe_fst]
  generalize (observe s e).2 = out at hobserved
  cases hobserved with
  | keyboard t id data hlock => rw [hlock]; exact ⟨⟨nofun, trivial⟩, hlock.symm⟩
  | mouse t id data hlock => rw [hlock]; exact ⟨⟨nofun, trivial⟩, hlock.symm⟩
  | hidden e hlock hinput =>
    refine ⟨trivial, ?_⟩
    cases e with
    | keyboardInput => rfl
    | mouseInput => rfl
    | windowFocusChange => cases hinput
  | lock t id focus hlock hfocus =>
    rw [hlock]
    exact ⟨⟨rfl, fun _ => rfl, trivial⟩, hfocus.symm⟩
  | relock t id focus hlock hfocus =>
    rw [hlock]
    exact ⟨⟨fun _ => rfl, trivial⟩, hfocus.symm⟩
  | unlock t id focus hlock hfocus =>
    rw [hlock]
    exact ⟨⟨rfl, nofun, nofun, nofun, trivial⟩, hfocus.symm⟩
  | switch t id focus kind hlock hfocus hkind =>
    rw [hlock]
    rcases hkind with rfl | rfl <;> exact ⟨⟨nofun, nofun, nofun, trivial⟩, hfocus.symm⟩
  | retitle t id focus was hlock hfocus hlast hwindow =>
    rw [hlock]
    exact ⟨⟨nofun, trivial⟩, hfocus.symm⟩
  | same t id focus was hlast hlogin hwindow htitle =>
    refine ⟨trivial, ?_⟩
    change s.1.onLogin = focus.isLogin
    rw [EventAdapter.onLogin, hlast, ← hlogin]
    rfl

theorem observe_run_lockWord {s : EventAdapter × LockDeriver} (hs : LockAgree s)
    (raw : List RawEvent) :
    LockAgree (observe.run s raw).1 ∧ LockWord s.2.locked (observe.run s raw).2 ∧
      lockAfter s.2.locked (observe.run s raw).2 = (observe.run s raw).1.2.locked := by
  induction raw generalizing s with
  | nil => exact ⟨hs, trivial, rfl⟩
  | cons e raw ih =>
    obtain ⟨hword, hafter⟩ := observe_lockWord hs e
    obtain ⟨hagree, hwords, hafters⟩ := ih (observe_spec hs e).1
    rw [Transducer.run_cons, lockAfter_append, hafter]
    exact ⟨hagree, hword.append (hafter ▸ hwords), hafters⟩

/-! ### The engine follows the marks -/

theorem react_locked (engine : DefaultStateEngine) (env : EventEnvelope) (henv : env.isSignal = true) :
    (DefaultStateEngine.react engine (.signal env)).1.locked =
      (lockMark env).getD engine.locked := by
  have hsettle : ∀ (self : DefaultStateEngine) next, (self.settle next).1.locked = self.locked := by
    intro self next
    unfold DefaultStateEngine.settle
    split_ifs <;> rfl
  change (engine.onSignal env env.timestamp).1.locked = _
  unfold DefaultStateEngine.onSignal lockMark
  rcases hkind : env.kind with kind | kind
  · cases kind <;> dsimp only <;> split_ifs with hlocked
    all_goals first
      | rfl
      | exact hsettle _ _
      | simpa using hlocked
  · rw [EventEnvelope.isSignal, hkind] at henv
    cases henv

theorem react_run_locked (engine : DefaultStateEngine) (envs : List EventEnvelope) :
    (DefaultStateEngine.react.run engine (envs.filterMap asStimulus)).1.locked =
      lockAfter engine.locked envs := by
  induction envs generalizing engine with
  | nil => rfl
  | cons env envs ih =>
    rw [lockAfter, List.foldl_cons, ← lockAfter]
    by_cases henv : env.isSignal = true
    · have hstimulus : asStimulus env = some (.signal env) := if_pos henv
      rw [List.filterMap_cons_some hstimulus, Transducer.run_cons_fst, ih,
        react_locked engine env henv]
    · have hstimulus : asStimulus env = none := if_neg henv
      have hmark : lockMark env = none := by
        unfold lockMark
        unfold EventEnvelope.isSignal at henv
        split <;> simp_all
      rw [List.filterMap_cons_none hstimulus, ih, hmark]
      rfl

theorem onTick_locked (engine : DefaultStateEngine) (now : DateTime) :
    (engine.onTick now).1.locked = engine.locked := by
  unfold DefaultStateEngine.onTick DefaultStateEngine.settle
  split_ifs <;> rfl

/-! ### The stage -/

namespace EnvelopeStage

/-- The adapter, the lock deriver and the engine agree about the lock. -/
structure LockCoherent (stage : EnvelopeStage) : Prop where
  agree : LockAgree (stage.adapter, stage.lockDeriver)
  engine : stage.engine.locked = stage.lockDeriver.locked
  coherent : stage.engine.Coherent

theorem lockCoherent_new (startedAt : DateTime) (grace idle : Nat) :
    (new startedAt grace idle).LockCoherent :=
  ⟨rfl, rfl, DefaultStateEngine.coherent_new ..⟩

/-- What the lock deriver puts out for a command. -/
def derived : Transducer EnvelopeStage (Option DeriveCommand) EventEnvelope := fun self cmd =>
  ((self.trace cmd).1,
    match cmd with
    | some (.batch batch) => (self.envelopesOf batch).2
    | _ => [])

theorem LockCoherent.derived {self : EnvelopeStage} (hself : self.LockCoherent)
    (cmd : Option DeriveCommand) :
    (self.derived cmd).1.LockCoherent ∧ LockWord self.lockDeriver.locked (self.derived cmd).2 ∧
      lockAfter self.lockDeriver.locked (self.derived cmd).2 =
        (self.derived cmd).1.lockDeriver.locked := by
  have hcoherent : (self.trace cmd).1.engine.Coherent := by
    rw [(self.trace_react cmd).1]
    exact Transducer.run_state DefaultStateEngine.coherent_react _ hself.coherent
  match cmd with
  | some (.batch ⟨[], reason⟩) => exact ⟨hself, trivial, rfl⟩
  | some (.batch ⟨e :: events, reason⟩) =>
    have hrun := derive_adaptBatch self.adapter self.lockDeriver (e :: events)
    obtain ⟨hagree, hword, hafter⟩ := observe_run_lockWord hself.agree (e :: events)
    rw [hrun] at hagree hword hafter
    refine ⟨⟨hagree, ?_, hcoherent⟩, hword, hafter⟩
    have hengine := congrArg DefaultStateEngine.locked
      (self.trace_react (some (.batch ⟨e :: events, reason⟩))).1
    rw [stimuliOf, react_run_locked, hself.engine] at hengine
    exact hengine.trans hafter
  | some (.tick now) =>
    refine ⟨⟨hself.agree, ?_, hcoherent⟩, trivial, rfl⟩
    exact (onTick_locked self.engine now).trans hself.engine
  | some .shutdown => exact ⟨⟨hself.agree, hself.engine, hcoherent⟩, trivial, rfl⟩
  | none => exact ⟨⟨hself.agree, hself.engine, hcoherent⟩, trivial, rfl⟩

theorem LockCoherent.derived_run {self : EnvelopeStage} (hself : self.LockCoherent)
    (cmds : List (Option DeriveCommand)) :
    (trace.run self cmds).1.LockCoherent ∧
      LockWord self.lockDeriver.locked (EnvelopeStage.derived.run self cmds).2 := by
  induction cmds generalizing self with
  | nil => exact ⟨hself, trivial⟩
  | cons cmd cmds ih =>
    obtain ⟨hnext, hword, hafter⟩ := hself.derived cmd
    obtain ⟨hlast, hwords⟩ := ih hnext
    exact ⟨hlast, hword.append (hafter ▸ hwords)⟩

end EnvelopeStage

/-! ### The agreement of all five -/

/-- After any batches and ticks the adapter's last focus is the login window if and only if the lock
deriver is locked, the engine is locked, the engine is in state `Locked`, and a record builder that
has handled every hint sent is in state `Locked`. What the lock deriver has put out until then starts
and ends locks in turn, beginning with a start, and between a start and the next end it only holds
focus hints. -/
theorem lock_coherent (startedAt : DateTime) (grace idle : Nat) (cmds : List DeriveCommand)
    (nextRecordId : Nat) (clock : Nat → RecordBuilder.HintClock) :
    let envelope := EnvelopeStage.new startedAt grace idle
    let finished := EnvelopeStage.loop.run envelope (cmds.map some)
    let builder := (RecordBuilder.consume.run (.withNextRecordId .inactive nextRecordId)
      (RecordBuilder.timed clock (sentTo .hints finished.2))).1
    let output := (EnvelopeStage.derived.run envelope (cmds.map some)).2
    [∃ focus, finished.1.adapter.lastFocus = some focus ∧
        eqIgnoreAsciiCase focus.appName "loginwindow" = true,
      finished.1.lockDeriver.locked = true,
      finished.1.stateDeriver.engine.locked = true,
      finished.1.stateDeriver.engine.current = .locked,
      builder.currentState = .locked].TFAE ∧
      (∀ mark ∈ (output.filterMap lockMark).head?, mark = true) ∧
      (output.filterMap lockMark).IsChain (· ≠ ·) ∧
      ∀ before start between after, output = before ++ start :: (between ++ after) →
        start.kind = .signal .lockStart → (∀ env ∈ between, env.kind ≠ .signal .lockEnd) →
        ∀ env ∈ between, env.kind = .hint .focusChanged := by
  intro envelope finished builder output
  have hnew := EnvelopeStage.lockCoherent_new startedAt grace idle
  obtain ⟨hlast, hword⟩ := hnew.derived_run (cmds.map some)
  change LockWord false output at hword
  rw [← (envelope.loop_run (cmds.map some)).1] at hlast
  have hbuilder : builder.currentState = finished.1.engine.current :=
    (envelope.builder_run hnew.coherent (cmds.map some) (.withNextRecordId .inactive nextRecordId)
      rfl clock).2
  have hmarks := hword.marks
  refine ⟨?_, ?_, ?_, ?_⟩
  · tfae_have 1 ↔ 2 := by
      rw [show finished.1.lockDeriver.locked = _ from hlast.agree]
      exact (Option.any_eq_true ..).symm
    tfae_have 3 ↔ 2 := by rw [show finished.1.stateDeriver.engine.locked = _ from hlast.engine]
    tfae_have 4 ↔ 3 := hlast.coherent
    tfae_have 5 ↔ 4 := by rw [hbuilder]
    tfae_finish
  · intro mark hmark
    have hhead := hmarks.head_src mark hmark
    exact (Bool.not_eq_false' ..).mp hhead
  · refine hmarks.isChain.imp fun mark mark' hturn => ?_
    rintro rfl
    exact Bool.not_ne_self mark hturn
  · intro before start between after houtput hstart hend
    rw [houtput] at hword
    have hrest := hword.of_append.2
    have hmark : lockMark start = some true := by rw [lockMark, hstart]
    rw [hmark] at hrest
    exact hrest.between hend

/-- A keystroke at the login window leaves the record builder locked, as the deriver is. -/
theorem lock_coherent_at_login :
    (RecordBuilder.consume.run (.withNextRecordId .inactive 0)
      (RecordBuilder.timed (fun _ => ⟨0, 0⟩) (sentTo .hints (EnvelopeStage.loop.run (.new 0 5 30)
        ([DeriveCommand.batch ⟨[.windowFocusChange 1 1 (.sample "LoginWindow" "" 1),
          .keyboardInput 2 2 ⟨none, none, []⟩], .timeout⟩, .tick 3].map some)).2))).1.currentState =
      .locked :=
  ((lock_coherent 0 5 30 [.batch ⟨[.windowFocusChange 1 1 (.sample "LoginWindow" "" 1),
    .keyboardInput 2 2 ⟨none, none, []⟩], .timeout⟩, .tick 3] 0 fun _ => ⟨0, 0⟩).1.out 1 4).mp
    (by decide)

end Kronical
