import Kronical.Core.Event
import Kronical.Lib.Transducer

/-!
# From raw events to locked envelopes

`EventAdapter` turns raw events into envelopes by comparing every focus with the last one, and
`LockDeriver` replaces what happens at the login window by `LockStart` and `LockEnd`. Both loops are
transducers over one event (`adaptEvent`, `deriveEvent`) that the batch functions run over a list.

`Observed` states what one raw event can look like behind both of them, given whether the machine
was locked before; `observe_spec` proves it of the code from any state in which the adapter and the
deriver agree about the lock, and the later modules only use it.
-/

namespace Kronical

/-! ### The adapter -/

structure EventAdapter where
  lastFocus : Option WindowFocusInfo
  deriving DecidableEq, Repr

namespace EventAdapter

def new : EventAdapter := ⟨none⟩

/-- The signal of a changed app or window. -/
abbrev changed (kind : SignalKind) (eventId : Nat) (now : DateTime) (current : WindowFocusInfo) :
    EventEnvelope :=
  .ofHook eventId now (.signal kind) (.focus current)

abbrev focusChanged (eventId : Nat) (now : DateTime) (current : WindowFocusInfo) : EventEnvelope :=
  .ofHook eventId now (.hint .focusChanged) (.focus current)

abbrev activityPulse (eventId : Nat) (now : DateTime) : EventEnvelope :=
  .ofHook eventId now (.signal .activityPulse) .none

/-- The app or window changed: the signal, the focus hint and, away from the login window, a
pulse. -/
def focusSwitch (kind : SignalKind) (eventId : Nat) (now : DateTime) (current : WindowFocusInfo) :
    List EventEnvelope :=
  [changed kind eventId now current, focusChanged eventId now current] ++
    if current.isLogin then [] else [activityPulse eventId now]

/-- Only the title of the focused window changed. -/
def titleChange (eventId : Nat) (now : DateTime) (current : WindowFocusInfo) : EventEnvelope :=
  { id := eventId, timestamp := now, source := .polling, kind := .hint .titleChanged,
    payload := .title current.windowId current.windowTitle,
    derived := false, polling := true, sensitive := false }

/-- What a focus event is adapted to. -/
def adaptFocus (self : EventAdapter) (now : DateTime) (eventId : Nat) (current : WindowFocusInfo) :
    List EventEnvelope :=
  match self.lastFocus with
  | some last =>
    if last.pid ≠ current.pid ∨ last.processStartTime ≠ current.processStartTime ∨
        last.appName ≠ current.appName then
      focusSwitch .appChanged eventId now current
    else if last.windowId ≠ current.windowId then
      focusSwitch .windowChanged eventId now current
    else if last.windowTitle ≠ current.windowTitle then
      [titleChange eventId now current]
    else
      []
  | none => focusSwitch .appChanged eventId now current

/-- One turn of the loop of `adapt_batch`. -/
def adaptEvent : Transducer EventAdapter RawEvent EventEnvelope
  | self, .keyboardInput timestamp eventId data =>
    (self, [.ofHook eventId timestamp (.signal .keyboardInput) (.keyboard data)])
  | self, .mouseInput timestamp eventId data =>
    (self, [.ofHook eventId timestamp (.signal .mouseInput) (.mouse data)])
  | self, .windowFocusChange timestamp eventId focusInfo =>
    (⟨some focusInfo⟩, self.adaptFocus timestamp eventId focusInfo)

def adaptBatch (self : EventAdapter) (raw : List RawEvent) : EventAdapter × List EventEnvelope :=
  adaptEvent.run self raw

/-- The last focus was the login window. -/
def onLogin (self : EventAdapter) : Bool := self.lastFocus.any (·.isLogin)

@[simp] theorem onLogin_new : new.onLogin = false := rfl

@[simp] theorem onLogin_some (focus : WindowFocusInfo) :
    (EventAdapter.mk (some focus)).onLogin = focus.isLogin := rfl

end EventAdapter

/-! ### The lock deriver -/

structure LockDeriver where
  locked : Bool
  deriving DecidableEq, Repr

namespace LockDeriver

def new : LockDeriver := ⟨false⟩

def lockStart (e : EventEnvelope) : EventEnvelope :=
  .ofDerived e.id e.timestamp (.signal .lockStart) (.lock "loginwindow")

def lockEnd (e : EventEnvelope) : EventEnvelope :=
  .ofDerived e.id e.timestamp (.signal .lockEnd) (.lock "unlock")

def isLogin : EventPayload → Bool
  | .focus focus => focus.isLogin
  | _ => false

/-- One turn of the loop of `derive`. -/
def deriveEvent : Transducer LockDeriver EventEnvelope EventEnvelope := fun self e =>
  match e.kind with
  | .signal .appChanged | .signal .windowChanged =>
    if isLogin e.payload then
      (⟨true⟩, if self.locked then [] else [lockStart e])
    else if self.locked then
      (⟨false⟩, [lockEnd e, e])
    else
      (self, [e])
  | .signal .lockStart => (⟨true⟩, [e])
  | .signal .lockEnd => (⟨false⟩, [e])
  | .signal _ => (self, if self.locked then [] else [e])
  | .hint kind => (self, if self.locked && kind ≠ .focusChanged then [] else [e])

def derive (self : LockDeriver) (input : List EventEnvelope) : LockDeriver × List EventEnvelope :=
  deriveEvent.run self input

end LockDeriver

/-! ### Both together -/

/-- The adapter feeding the lock deriver. -/
def observe : Transducer (EventAdapter × LockDeriver) RawEvent EventEnvelope :=
  EventAdapter.adaptEvent.comp LockDeriver.deriveEvent

theorem derive_adaptBatch (adapter : EventAdapter) (deriver : LockDeriver) (raw : List RawEvent) :
    observe.run (adapter, deriver) raw =
      (((adapter.adaptBatch raw).1, (deriver.derive (adapter.adaptBatch raw).2).1),
        (deriver.derive (adapter.adaptBatch raw).2).2) :=
  Transducer.run_comp _ _ _ _ _

/-- The adapter and the deriver agree about the lock. -/
def LockAgree (s : EventAdapter × LockDeriver) : Prop := s.2.locked = s.1.onLogin

open EventAdapter LockDeriver in
/-- What a raw event looks like behind the adapter and the deriver: the envelopes it becomes, by
what was focused before it. -/
inductive Observed (last : EventAdapter) : RawEvent → List EventEnvelope → Prop
  | keyboard (t id data) : last.onLogin = false →
      Observed last (.keyboardInput t id data)
        [.ofHook id t (.signal .keyboardInput) (.keyboard data)]
  | mouse (t id data) : last.onLogin = false →
      Observed last (.mouseInput t id data) [.ofHook id t (.signal .mouseInput) (.mouse data)]
  | hidden (e) : last.onLogin = true → e.isInput = true → Observed last e []
  | lock (t id focus) : last.onLogin = false → focus.isLogin = true →
      Observed last (.windowFocusChange t id focus)
        [lockStart (changed .appChanged id t focus), focusChanged id t focus]
  | relock (t id focus) : last.onLogin = true → focus.isLogin = true →
      Observed last (.windowFocusChange t id focus) [focusChanged id t focus]
  | unlock (t id focus) : last.onLogin = true → focus.isLogin = false →
      Observed last (.windowFocusChange t id focus)
        [lockEnd (changed .appChanged id t focus), changed .appChanged id t focus,
          focusChanged id t focus, activityPulse id t]
  | switch (t id focus kind) : last.onLogin = false → focus.isLogin = false →
      kind = .appChanged ∨ kind = .windowChanged →
      Observed last (.windowFocusChange t id focus)
        [changed kind id t focus, focusChanged id t focus, activityPulse id t]
  | retitle (t id focus was) : last.onLogin = false → focus.isLogin = false →
      last.lastFocus = some was → was.windowId = focus.windowId →
      Observed last (.windowFocusChange t id focus) [titleChange id t focus]
  | same (t id focus was) : last.lastFocus = some was → was.isLogin = focus.isLogin →
      was.windowId = focus.windowId →
      (last.onLogin = false → was.windowTitle = focus.windowTitle) →
      Observed last (.windowFocusChange t id focus) []

theorem derive_focusSwitch (deriver : LockDeriver) {kind : SignalKind}
    (hkind : kind = .appChanged ∨ kind = .windowChanged) (id : Nat) (t : DateTime)
    (focus : WindowFocusInfo) :
    deriver.derive (EventAdapter.focusSwitch kind id t focus) =
      (⟨focus.isLogin⟩,
        match deriver.locked, focus.isLogin with
        | false, true => [LockDeriver.lockStart (EventAdapter.changed kind id t focus),
            EventAdapter.focusChanged id t focus]
        | true, true => [EventAdapter.focusChanged id t focus]
        | true, false => [LockDeriver.lockEnd (EventAdapter.changed kind id t focus),
            EventAdapter.changed kind id t focus, EventAdapter.focusChanged id t focus,
            EventAdapter.activityPulse id t]
        | false, false => [EventAdapter.changed kind id t focus,
            EventAdapter.focusChanged id t focus, EventAdapter.activityPulse id t]) := by
  obtain ⟨locked⟩ := deriver
  rcases hkind with rfl | rfl <;> cases hlogin : focus.isLogin <;> cases locked <;>
    simp [LockDeriver.derive, EventAdapter.focusSwitch, LockDeriver.deriveEvent, hlogin,
      LockDeriver.isLogin, EventEnvelope.ofHook, Transducer.run_cons]

theorem observe_snd (s : EventAdapter × LockDeriver) (e : RawEvent) :
    (observe s e).2 = (s.2.derive (EventAdapter.adaptEvent s.1 e).2).2 := rfl

theorem observe_fst (s : EventAdapter × LockDeriver) (e : RawEvent) :
    (observe s e).1 =
      ((EventAdapter.adaptEvent s.1 e).1, (s.2.derive (EventAdapter.adaptEvent s.1 e).2).1) := rfl

/-- The same window of the same process, maybe under another title. -/
structure WindowFocusInfo.SameWindow (was focus : WindowFocusInfo) : Prop where
  pid : was.pid = focus.pid
  processStartTime : was.processStartTime = focus.processStartTime
  appName : was.appName = focus.appName
  windowId : was.windowId = focus.windowId

theorem WindowFocusInfo.SameWindow.isLogin {was focus : WindowFocusInfo}
    (h : was.SameWindow focus) : was.isLogin = focus.isLogin := by
  rw [WindowFocusInfo.isLogin, WindowFocusInfo.isLogin, h.appName]

theorem adaptFocus_cases (adapter : EventAdapter) (t : DateTime) (id : Nat)
    (focus : WindowFocusInfo) :
    (∃ kind, (kind = .appChanged ∨ kind = .windowChanged ∧ adapter.onLogin = focus.isLogin) ∧
      adapter.adaptFocus t id focus = EventAdapter.focusSwitch kind id t focus) ∨
    (∃ was, adapter.lastFocus = some was ∧ was.SameWindow focus ∧
      (adapter.adaptFocus t id focus = [EventAdapter.titleChange id t focus] ∨
        was.windowTitle = focus.windowTitle ∧ adapter.adaptFocus t id focus = [])) := by
  obtain ⟨_ | was⟩ := adapter
  · exact .inl ⟨.appChanged, .inl rfl, rfl⟩
  · simp only [EventAdapter.adaptFocus]
    split_ifs with happ hwindow htitle
    · exact .inl ⟨.appChanged, .inl rfl, rfl⟩
    · refine .inl ⟨.windowChanged, .inr ⟨rfl, ?_⟩, rfl⟩
      push Not at happ
      simp [WindowFocusInfo.isLogin, happ]
    · push Not at happ hwindow
      exact .inr ⟨was, rfl, ⟨happ.1, happ.2.1, happ.2.2, hwindow⟩, .inl rfl⟩
    · push Not at happ hwindow htitle
      exact .inr ⟨was, rfl, ⟨happ.1, happ.2.1, happ.2.2, hwindow⟩, .inr ⟨htitle, rfl⟩⟩

/-- One raw event keeps the adapter and the deriver in agreement and becomes what `Observed` says. -/
theorem observe_spec {s : EventAdapter × LockDeriver} (hs : LockAgree s) (e : RawEvent) :
    LockAgree (observe s e).1 ∧ Observed s.1 e (observe s e).2 := by
  obtain ⟨adapter, ⟨locked⟩⟩ := s
  change locked = adapter.onLogin at hs
  subst hs
  rw [observe_fst, observe_snd]
  cases e with
  | keyboardInput t id data =>
    cases hlock : adapter.onLogin
    · exact ⟨hlock.symm, .keyboard t id data hlock⟩
    · exact ⟨hlock.symm, .hidden _ hlock rfl⟩
  | mouseInput t id data =>
    cases hlock : adapter.onLogin
    · exact ⟨hlock.symm, .mouse t id data hlock⟩
    · exact ⟨hlock.symm, .hidden _ hlock rfl⟩
  | windowFocusChange t id focus =>
    change _ = focus.isLogin ∧ Observed _ _ (LockDeriver.derive _ (adapter.adaptFocus t id focus)).2
    simp only [EventAdapter.adaptEvent]
    rcases adaptFocus_cases adapter t id focus with
      ⟨kind, hkind, hout⟩ | ⟨was, hlast, hsame, hout⟩
    · have hkind' : kind = .appChanged ∨ kind = .windowChanged := hkind.imp_right And.left
      rw [hout, derive_focusSwitch _ hkind']
      refine ⟨rfl, ?_⟩
      cases hlock : adapter.onLogin <;> cases hfocus : focus.isLogin
      · exact .switch t id focus kind hlock hfocus hkind'
      · obtain rfl : kind = .appChanged := hkind.resolve_right fun h => by simp_all
        exact .lock t id focus hlock hfocus
      · obtain rfl : kind = .appChanged := hkind.resolve_right fun h => by simp_all
        exact .unlock t id focus hlock hfocus
      · exact .relock t id focus hlock hfocus
    · have hlock : adapter.onLogin = focus.isLogin := by
        rw [EventAdapter.onLogin, hlast, Option.any_some, hsame.isLogin]
      rcases hout with hout | ⟨htitle, hout⟩ <;> rw [hout]
      · refine ⟨hlock, ?_⟩
        cases hfocus : focus.isLogin <;> rw [hfocus] at hlock
        · rw [hlock]
          exact .retitle t id focus was hlock hfocus hlast hsame.windowId
        · rw [hlock]
          exact .same t id focus was hlast hsame.isLogin hsame.windowId (by simp [hlock])
      · exact ⟨hlock, .same t id focus was hlast hsame.isLogin hsame.windowId fun _ => htitle⟩

/-! ### Neither makes a state hint -/

theorem adaptEvent_plain (adapter : EventAdapter) (e : RawEvent) :
    (EventAdapter.adaptEvent adapter e).2.all (·.isPlain) = true := by
  have hswitch : ∀ kind t id focus,
      (EventAdapter.focusSwitch kind t id focus).all (·.isPlain) = true := by
    intro kind t id focus
    unfold EventAdapter.focusSwitch
    split_ifs <;> rfl
  cases e with
  | keyboardInput => rfl
  | mouseInput => rfl
  | windowFocusChange t id focus =>
    change (adapter.adaptFocus t id focus).all (·.isPlain) = true
    unfold EventAdapter.adaptFocus
    split
    · split_ifs
      · exact hswitch ..
      · exact hswitch ..
      · rfl
      · rfl
    · exact hswitch ..

theorem deriveEvent_plain (deriver : LockDeriver) {env : EventEnvelope} (h : env.isPlain = true) :
    (LockDeriver.deriveEvent deriver env).2.all (·.isPlain) = true := by
  have hone : [env].all (·.isPlain) = true := by simpa using h
  unfold LockDeriver.deriveEvent
  split
  all_goals try split_ifs
  all_goals first
    | rfl
    | exact hone

theorem derive_plain (adapter : EventAdapter) (deriver : LockDeriver) (raw : List RawEvent) :
    ∀ env ∈ (deriver.derive (adapter.adaptBatch raw).2).2, env.isPlain = true := by
  intro env hmem
  obtain ⟨_, adapted, hadapted, hderived⟩ := Transducer.mem_run hmem
  obtain ⟨_, e, -, he⟩ := Transducer.mem_run hadapted
  have hplain := List.all_eq_true.mp (adaptEvent_plain _ e) adapted he
  exact List.all_eq_true.mp (deriveEvent_plain _ hplain) env hderived

/-! ### Both keep the instant -/

theorem adaptEvent_time (adapter : EventAdapter) (e : RawEvent) :
    ∀ env ∈ (EventAdapter.adaptEvent adapter e).2, env.timestamp = e.timestamp := by
  have hswitch : ∀ kind t id focus, ∀ env ∈ EventAdapter.focusSwitch kind id t focus,
      env.timestamp = t := by
    intro kind t id focus
    unfold EventAdapter.focusSwitch
    split_ifs <;> simp [EventEnvelope.ofHook]
  cases e with
  | keyboardInput => simp [EventAdapter.adaptEvent, EventEnvelope.ofHook, RawEvent.timestamp]
  | mouseInput => simp [EventAdapter.adaptEvent, EventEnvelope.ofHook, RawEvent.timestamp]
  | windowFocusChange t id focus =>
    change ∀ env ∈ adapter.adaptFocus t id focus, env.timestamp = t
    rcases adaptFocus_cases adapter t id focus with ⟨kind, -, hout⟩ | ⟨was, -, -, hout | ⟨-, hout⟩⟩
    · rw [hout]
      exact hswitch kind t id focus
    · simp [hout, EventAdapter.titleChange]
    · simp [hout]

theorem deriveEvent_time (deriver : LockDeriver) (e : EventEnvelope) :
    ∀ env ∈ (LockDeriver.deriveEvent deriver e).2, env.timestamp = e.timestamp := by
  unfold LockDeriver.deriveEvent
  split
  all_goals try split_ifs
  all_goals simp [LockDeriver.lockStart, LockDeriver.lockEnd, EventEnvelope.ofDerived]

theorem observe_time (s : EventAdapter × LockDeriver) (e : RawEvent) :
    ∀ env ∈ (observe s e).2, env.timestamp = e.timestamp := by
  intro env hmem
  rw [observe_snd] at hmem
  obtain ⟨_, adapted, hadapted, hderived⟩ := Transducer.mem_run hmem
  rw [deriveEvent_time _ adapted env hderived, adaptEvent_time _ e adapted hadapted]

end Kronical
