import Mathlib.Order.Basic
import Kronical.Core.Engine
import Kronical.Lib.Transducer

/-!
# Ticks and the level of activity

Signals raise the activity state and ticks lower it, as far as the engine has seen a signal: from the
first one on the state is what `compute` said at some earlier instant, and later instants only lower
that (`ticks_of_settled`). A new engine is `Inactive`, but takes the instant of its start for that of a
signal, so a tick soon after the start raises it (`ticks_never_raise_iff`).
-/

namespace Kronical

/-- The transition leads to a more active state. -/
def StateTransition.Raises (tr : StateTransition) : Prop :=
  tr.fromState = .inactive ∧ (tr.toState = .passive ∨ tr.toState = .active) ∨
    tr.fromState = .passive ∧ tr.toState = .active
  deriving Decidable

namespace DefaultStateEngine

/-- A call of the engine, at its own instant. -/
inductive Call
  | onSignal (event : EventEnvelope) (now : DateTime)
  | onTick (now : DateTime)
  deriving DecidableEq, Repr

namespace Call

def now : Call → DateTime
  | .onSignal _ now => now
  | .onTick now => now

/-- A signal that an unlocked engine takes notice of: any but `LockEnd`. -/
def wakes : Call → Bool
  | .onSignal event _ =>
    match event.kind with
    | .signal .lockEnd => false
    | .signal _ => true
    | .hint _ => false
  | .onTick _ => false

end Call

/-- A call, and the transition it returned if it was `on_tick`. -/
def ticked : Transducer DefaultStateEngine Call StateTransition
  | self, .onSignal event now => ((self.onSignal event now).1, [])
  | self, .onTick now => ((self.onTick now).1, (self.onTick now).2.toList)

/-! ### An engine that has seen a signal -/

/-- At no instant from `since` on would a tick raise the state. -/
def Settled (self : DefaultStateEngine) (since : DateTime) : Prop :=
  self.locked = false → ∀ now, since ≤ now →
    ¬ StateTransition.Raises { fromState := self.current, toState := self.compute now }

theorem Settled.mono {self : DefaultStateEngine} {since later : DateTime} (h : self.Settled since)
    (hle : since ≤ later) : self.Settled later :=
  fun hunlocked now hnow => h hunlocked now (hle.trans hnow)

theorem compute_falls (self : DefaultStateEngine) {now later : DateTime} (hle : now ≤ later) :
    ¬ StateTransition.Raises { fromState := self.compute now, toState := self.compute later } := by
  have helapsed : numSeconds (now - self.lastSignalTime) ≤ numSeconds (later - self.lastSignalTime) :=
    numSeconds_mono (Int.sub_le_sub_right hle _)
  cases hlocked : self.locked with
  | true => simp [compute, hlocked, StateTransition.Raises]
  | false =>
    simp only [compute, hlocked, Bool.false_eq_true, if_false]
    split_ifs <;> simp [StateTransition.Raises]
    all_goals omega

theorem settled_compute (self : DefaultStateEngine) (now : DateTime) :
    ({ self with current := self.compute now } : DefaultStateEngine).Settled now :=
  fun _ _ hlater => self.compute_falls hlater

theorem settle_compute_fst (self : DefaultStateEngine) (now : DateTime) :
    (self.settle (self.compute now)).1 = { self with current := self.compute now } := by
  unfold settle
  split_ifs with hne
  · rfl
  · rw [Ne, not_not] at hne
    rw [hne]

theorem onTick_snd {self : DefaultStateEngine} {now : DateTime} {tr : StateTransition}
    (h : tr ∈ (self.onTick now).2) :
    self.locked = false ∧ self.compute now ≠ self.current ∧
      tr = { fromState := self.current, toState := self.compute now } := by
  unfold onTick settle at h
  split_ifs at h with hlocked hne
  · cases h
  · exact ⟨by simpa using hlocked, hne, (Option.mem_some_iff.mp h).symm⟩
  · cases h

theorem Settled.call {self : DefaultStateEngine} {since : DateTime} (h : self.Settled since)
    (call : Call) (hnow : since ≤ call.now) : (ticked self call).1.Settled call.now := by
  have hstay := h.mono hnow
  cases call with
  | onTick now =>
    show (self.onTick now).1.Settled now
    unfold onTick
    split_ifs
    · exact hstay
    · rw [settle_compute_fst]
      exact self.settled_compute now
  | onSignal event now =>
    show (self.onSignal event now).1.Settled now
    unfold onSignal
    split
    · split_ifs with hlocked
      · exact hstay
      · exact fun hunlocked => absurd hunlocked nofun
    · split_ifs
      · exact hstay
      · exact ({ self with locked := false } : DefaultStateEngine).settled_compute now
    · split_ifs
      · exact hstay
      · rw [settle_compute_fst]
        exact ({ self with lastSignalTime := now } : DefaultStateEngine).settled_compute now
    · exact hstay

theorem settled_of_wakes {self : DefaultStateEngine} (hunlocked : self.locked = false) {call : Call}
    (hwakes : call.wakes = true) : (ticked self call).1.Settled call.now := by
  cases call with
  | onTick now => cases hwakes
  | onSignal event now =>
    show (self.onSignal event now).1.Settled now
    unfold onSignal
    split
    · rw [if_neg (by simp [hunlocked])]
      exact fun hopen => absurd hopen nofun
    · rename_i hkind
      simp [Call.wakes, hkind] at hwakes
    · rw [if_neg (by simp [hunlocked]), settle_compute_fst]
      exact ({ self with lastSignalTime := now } : DefaultStateEngine).settled_compute now
    · rename_i hkind
      simp [Call.wakes, hkind] at hwakes

/-- No tick raises a settled engine. -/
theorem ticks_of_settled {self : DefaultStateEngine} {since : DateTime} (h : self.Settled since)
    {calls : List Call} (htimes : (calls.map (·.now)).Pairwise (· ≤ ·))
    (hsince : ∀ call ∈ calls, since ≤ call.now) :
    ∀ tr ∈ (ticked.run self calls).2, ¬ tr.Raises := by
  induction calls generalizing self since with
  | nil => simp
  | cons call calls ih =>
    obtain ⟨hfirst, hrest⟩ := List.pairwise_cons.mp htimes
    intro tr htr
    rcases List.mem_append.mp htr with htr | htr
    · cases call with
      | onSignal => cases htr
      | onTick now =>
        obtain ⟨hunlocked, -, rfl⟩ := onTick_snd (Option.mem_toList.mp htr)
        exact h hunlocked now (hsince _ List.mem_cons_self)
    · exact ih (h.call call (hsince _ List.mem_cons_self)) hrest
        (fun later hlater => hfirst _ (List.mem_map_of_mem hlater)) tr htr

/-! ### A new engine -/

/-- By `now` a new engine is past both of its limits. -/
def Idle (start : DateTime) (grace idle : Int) (now : DateTime) : Prop :=
  grace < numSeconds (now - start) ∧ idle < numSeconds (now - start)

instance (start : DateTime) (grace idle : Int) (now : DateTime) : Decidable (Idle start grace idle now) :=
  inferInstanceAs (Decidable (_ ∧ _))

/-- Every tick before the first waking signal finds the new engine past both of its limits. -/
def QuietStart (start : DateTime) (grace idle : Int) (calls : List Call) : Prop :=
  ∀ before now after, calls = before ++ .onTick now :: after → (∀ call ∈ before, call.wakes = false) →
    Idle start grace idle now

theorem quietStart_tick {start now : DateTime} {grace idle : Int} {calls : List Call} :
    QuietStart start grace idle (.onTick now :: calls) ↔
      Idle start grace idle now ∧ QuietStart start grace idle calls := by
  constructor
  · intro h
    refine ⟨h [] now calls rfl (by simp), fun before later after hsplit hasleep => ?_⟩
    exact h (.onTick now :: before) later after (by rw [hsplit, List.cons_append])
      (List.forall_mem_cons.mpr ⟨rfl, hasleep⟩)
  · rintro ⟨hnow, hrest⟩ before later after hsplit hasleep
    rcases List.cons_eq_append_iff.mp hsplit with ⟨rfl, hhead⟩ | ⟨front, rfl, htail⟩
    · cases hhead
      exact hnow
    · exact hrest front later after htail (List.forall_mem_cons.mp hasleep).2

theorem quietStart_signal {start now : DateTime} {grace idle : Int} {event : EventEnvelope}
    {calls : List Call} :
    QuietStart start grace idle (.onSignal event now :: calls) ↔
      ((Call.onSignal event now).wakes = false → QuietStart start grace idle calls) := by
  constructor
  · intro h hcall before later after hsplit hasleep
    exact h (.onSignal event now :: before) later after (by rw [hsplit, List.cons_append])
      (List.forall_mem_cons.mpr ⟨hcall, hasleep⟩)
  · intro h before later after hsplit hasleep
    rcases List.cons_eq_append_iff.mp hsplit with ⟨rfl, hhead⟩ | ⟨front, rfl, htail⟩
    · cases hhead
    · obtain ⟨hcall, hfront⟩ := List.forall_mem_cons.mp hasleep
      exact h hcall front later after htail hfront

theorem compute_new_eq_inactive_iff {start now : DateTime} {grace idle : Int} :
    (new start grace idle).compute now = .inactive ↔ Idle start grace idle now := by
  show (if numSeconds (now - start) ≤ grace then ActivityState.active
    else if numSeconds (now - start) ≤ idle then .passive else .inactive) = .inactive ↔ _
  by_cases hgrace : numSeconds (now - start) ≤ grace
  · rw [if_pos hgrace]
    exact iff_of_false nofun fun h => h.1.not_ge hgrace
  · rw [if_neg hgrace]
    by_cases hlimit : numSeconds (now - start) ≤ idle
    · rw [if_pos hlimit]
      exact iff_of_false nofun fun h => h.2.not_ge hlimit
    · rw [if_neg hlimit]
      exact iff_of_true rfl ⟨Int.not_le.mp hgrace, Int.not_le.mp hlimit⟩

theorem onTick_new_of_idle {start now : DateTime} {grace idle : Int} (h : Idle start grace idle now) :
    (new start grace idle).onTick now = (new start grace idle, none) := by
  show (new start grace idle).settle ((new start grace idle).compute now) = _
  rw [compute_new_eq_inactive_iff.mpr h]
  rfl

theorem onTick_new_raises {start now : DateTime} {grace idle : Int}
    (h : ¬ Idle start grace idle now) :
    ∃ tr ∈ ((new start grace idle).onTick now).2, tr.Raises := by
  have hcompute : (new start grace idle).compute now ≠ (new start grace idle).current :=
    fun heq => h (compute_new_eq_inactive_iff.mp heq)
  have hlocked : (new start grace idle).compute now ≠ .locked := by
    rw [Ne, compute_eq_locked_iff]
    simp [new]
  refine ⟨{ fromState := .inactive, toState := (new start grace idle).compute now }, ?_, ?_⟩
  · show _ ∈ ((new start grace idle).settle ((new start grace idle).compute now)).2
    unfold settle
    rw [if_pos hcompute]
    rfl
  · cases hstate : (new start grace idle).compute now with
    | active => exact .inl ⟨rfl, .inr rfl⟩
    | passive => exact .inl ⟨rfl, .inl rfl⟩
    | inactive => exact absurd hstate hcompute
    | locked => exact absurd hstate hlocked

theorem onSignal_of_asleep {self : DefaultStateEngine} (hunlocked : self.locked = false)
    {event : EventEnvelope} {now : DateTime} (h : (Call.onSignal event now).wakes = false) :
    (self.onSignal event now).1 = self := by
  unfold onSignal
  split
  · rename_i hkind
    simp [Call.wakes, hkind] at h
  · rw [if_pos (by simp [hunlocked])]
  · rename_i hend hstart hkind
    simp [Call.wakes, hkind] at h
  · rfl

end DefaultStateEngine

open DefaultStateEngine in
/-- In every run of a new engine, over calls at instants that never decrease, no tick returns a
transition to a more active state, exactly if every tick before the first signal that the engine takes
notice of comes when both limits have passed since the engine's start. -/
theorem ticks_never_raise_iff (start : DateTime) (grace idle : Int) (calls : List Call)
    (htimes : (calls.map (·.now)).Pairwise (· ≤ ·)) :
    (∀ tr ∈ (ticked.run (new start grace idle) calls).2, ¬ tr.Raises) ↔
      QuietStart start grace idle calls := by
  induction calls with
  | nil => simp [QuietStart]
  | cons call calls ih =>
    obtain ⟨hfirst, hrest⟩ := List.pairwise_cons.mp htimes
    rw [Transducer.run_cons_snd]
    cases call with
    | onTick now =>
      rw [quietStart_tick]
      by_cases hnow : Idle start grace idle now
      · have hstep : ticked (new start grace idle) (.onTick now) = (new start grace idle, []) := by
          simp only [ticked]
          rw [onTick_new_of_idle hnow]
          rfl
        rw [hstep, List.nil_append, ih hrest]
        exact (and_iff_right hnow).symm
      · obtain ⟨tr, htr, hraises⟩ := onTick_new_raises hnow
        refine iff_of_false (fun h => ?_) (fun h => hnow h.1)
        exact h tr (List.mem_append_left _ (Option.mem_toList.mpr htr)) hraises
    | onSignal event now =>
      rw [quietStart_signal]
      show (∀ tr ∈ (ticked.run ((new start grace idle).onSignal event now).1 calls).2, _) ↔ _
      cases hwakes : (Call.onSignal event now).wakes with
      | true =>
        refine iff_of_true ?_ nofun
        exact ticks_of_settled (settled_of_wakes rfl hwakes) hrest
          fun later hlater => hfirst _ (List.mem_map_of_mem hlater)
      | false =>
        rw [onSignal_of_asleep rfl hwakes, ih hrest]
        exact ⟨fun h _ => h, fun h => h rfl⟩

/-- A keystroke before the first tick, for examples. -/
def typingCalls : List DefaultStateEngine.Call :=
  [.onSignal (.ofHook 1 1000000000 (.signal .keyboardInput) .none) 1000000000, .onTick 8000000000]

open DefaultStateEngine in
theorem quietStart_typing : QuietStart 0 5 30 typingCalls := by
  intro before now after hsplit hasleep
  rcases List.cons_eq_append_iff.mp hsplit with ⟨rfl, hhead⟩ | ⟨front, rfl, -⟩
  · cases hhead
  · exact absurd (hasleep _ List.mem_cons_self) (by decide)

open DefaultStateEngine in
/-- After a keystroke, a tick that comes late lowers the level. -/
theorem ticks_never_raise_typing :
    (ticked.run (new 0 5 30) typingCalls).2.length = 1 ∧
      ∀ tr ∈ (ticked.run (new 0 5 30) typingCalls).2, ¬ tr.Raises :=
  ⟨by decide, (ticks_never_raise_iff 0 5 30 typingCalls (by decide)).mpr quietStart_typing⟩

open DefaultStateEngine in
/-- The first tick, a second after the start: the engine reports activity without any signal. -/
theorem first_tick_raises :
    ¬ ∀ tr ∈ (ticked.run (new 0 5 30) [.onTick 1000000000]).2, ¬ tr.Raises := by
  decide

end Kronical
