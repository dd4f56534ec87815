import Kronical.Core.Event
import Kronical.Lib.LruCache

/-!
# The title caches of the focus worker

The worker keeps the last title of each app twice: in the strong cache once a focus with it has been
emitted, and for two seconds in the weak cache as soon as a title has been seen. Both are asked before
a title is attributed to an app: `validateTitleWithWeak` at once, `reconcileWindowTitle` while it is not
yet clear which app a title belongs to.

Asking changes the caches too. `Consulted` bounds how much, and `validate_spec` and `reconcile_spec` say
what an answer means for the strong cache: a title is only accepted for an app that holds it already, or
if no other app holds it.
-/

namespace Kronical

/-- `LOGINWINDOW_WINDOW_ID`, which is `u32::MAX`. -/
def loginwindowWindowId : Nat := 4294967295

/-- `UNKNOWN_WINDOW_TITLE`. -/
def unknownWindowTitle : String := "-"

/-- `eq_ignore_ascii_case(LOGINWINDOW_APP)`. -/
def isLoginwindow (appName : String) : Bool := eqIgnoreAsciiCase appName "loginwindow"

/-- The last title of an app and the window it belongs to. -/
abbrev TitleCache := LruCache String (String × Nat)

namespace TitleCache

def titleMatchesApp (appName title : String) (cache : TitleCache) (tick : Tick) : Bool × TitleCache :=
  let cached := cache.getCloned appName tick
  ((cached.1.map fun (cachedTitle, _) => cachedTitle == title).getD false, cached.2)

def titleMatchesOtherApp (appName title : String) (cache : TitleCache) (tick : Tick) :
    Bool × TitleCache :=
  cache.anyEntryMatches (fun key (cachedTitle, _) => key != appName && cachedTitle == title) tick

/-- `record_weak_title`, and with the state's own fields `record_last_app_window`. -/
def record (appName title : String) (windowId : Nat) (cache : TitleCache) (tick : Tick) : TitleCache :=
  if appName ≠ "" ∧ title ≠ "" ∧ title ≠ unknownWindowTitle then
    cache.put appName (title, windowId) tick
  else cache

/-- The title lies in the cache under the app. -/
def Holds (cache : TitleCache) (appName title : String) : Prop :=
  ∃ windowId, cache.peek appName = some (title, windowId)

/-- The cache gives the title out for the app. -/
def GivesOut (cache : TitleCache) (appName title : String) (now : Instant) : Prop :=
  ∃ windowId, cache.live appName now = some (title, windowId)

variable {cache : TitleCache} {appName title : String} {tick : Tick}

theorem GivesOut.holds {now : Instant} (h : cache.GivesOut appName title now) :
    cache.Holds appName title := by
  obtain ⟨windowId, hlive⟩ := h
  exact ⟨windowId, LruCache.peek_of_live hlive⟩

theorem givesOut_iff_holds (httl : cache.ttl = none) {now : Instant} :
    cache.GivesOut appName title now ↔ cache.Holds appName title := by
  unfold GivesOut Holds
  simp only [LruCache.live_eq_peek httl]

theorem holds_congr {after : TitleCache} (h : after.Alike cache) :
    after.Holds appName title ↔ cache.Holds appName title := by
  unfold Holds
  rw [h.peek]

theorem titleMatchesApp_fst :
    (titleMatchesApp appName title cache tick).1 = true ↔ cache.GivesOut appName title tick.now := by
  unfold titleMatchesApp GivesOut
  dsimp only
  rw [LruCache.getCloned_fst]
  rcases cache.live appName tick.now with _ | ⟨cachedTitle, windowId⟩ <;> simp

theorem titleMatchesOtherApp_fst :
    (titleMatchesOtherApp appName title cache tick).1 = true ↔
      ∃ other, other ≠ appName ∧ cache.GivesOut other title tick.now := by
  unfold titleMatchesOtherApp GivesOut
  rw [LruCache.anyEntryMatches_fst]
  simp only [Bool.and_eq_true, bne_iff_ne, beq_iff_eq, Prod.exists]
  constructor
  · rintro ⟨other, _, windowId, hlive, hother, rfl⟩
    exact ⟨other, hother, windowId, hlive⟩
  · rintro ⟨other, hother, windowId, hlive⟩
    exact ⟨other, title, windowId, hlive, hother, rfl⟩

@[simp] theorem record_ttl (windowId : Nat) :
    (record appName title windowId cache tick).ttl = cache.ttl := by
  unfold record
  split_ifs
  · exact LruCache.put_ttl _ _ _ _
  · rfl

theorem holds_record {windowId : Nat} {other held : String}
    (h : (record appName title windowId cache tick).Holds other held) :
    (other = appName ∧ held = title ∧ title ≠ unknownWindowTitle) ∨ cache.Holds other held := by
  unfold record at h
  split_ifs at h with hrecord
  · obtain ⟨id, hpeek⟩ := h
    rcases LruCache.put_peek hpeek with ⟨rfl, heq⟩ | ⟨-, hpeek⟩
    · exact .inl ⟨rfl, congrArg Prod.fst heq, hrecord.2.2⟩
    · exact .inr ⟨id, hpeek⟩
  · exact .inr h

end TitleCache

/-- The caches `last_app_window` and `weak_app_window`. -/
structure TitleCaches where
  lastAppWindow : TitleCache
  weakAppWindow : TitleCache

namespace TitleCaches

open TitleCache (titleMatchesApp titleMatchesOtherApp)

def validateTitleWithWeak (appName title : String) (caches : TitleCaches) (clock : Nat → Tick) :
    String × TitleCaches :=
  if title = "" ∨ title = unknownWindowTitle then (title, caches)
  else
    let own := titleMatchesApp appName title caches.lastAppWindow (clock 0)
    if own.1 then (title, { caches with lastAppWindow := own.2 })
    else
      let other := titleMatchesOtherApp appName title own.2 (clock 1)
      if other.1 then (unknownWindowTitle, { caches with lastAppWindow := other.2 })
      else
        let otherWeak := titleMatchesOtherApp appName title caches.weakAppWindow (clock 2)
        if otherWeak.1 then (unknownWindowTitle, ⟨other.2, otherWeak.2⟩)
        else
          -- whether the weak cache has it for the app itself no longer matters
          let ownWeak := titleMatchesApp appName title otherWeak.2 (clock 3)
          (title, ⟨other.2, ownWeak.2⟩)

inductive ReconcileSource
  | pending
  | cached
  deriving DecidableEq, Repr

inductive ReconcileDecision
  | accept (title : String) (source : ReconcileSource)
  | hold (title : String)
  deriving DecidableEq, Repr

/-- The title a decision comes with. -/
def ReconcileDecision.title : ReconcileDecision → String
  | .accept title _ => title
  | .hold title => title

/-- Whether one of the caches has the title for the app that was there before; the weak cache is only
asked if the strong one has it not. -/
def titleMatchesPrevious (lastApp : Option String) (title : String) (caches : TitleCaches)
    (clock : Nat → Tick) : Bool × TitleCaches :=
  match lastApp with
  | none => (false, caches)
  | some prevApp =>
    let strong := titleMatchesApp prevApp title caches.lastAppWindow (clock 0)
    if strong.1 then (true, { caches with lastAppWindow := strong.2 })
    else
      let weak := titleMatchesApp prevApp title caches.weakAppWindow (clock 1)
      (weak.1, ⟨strong.2, weak.2⟩)

def reconcileWindowTitle (appName pending : String) (caches : TitleCaches) (lastApp : Option String)
    (clock : Nat → Tick) : ReconcileDecision × TitleCaches :=
  if isLoginwindow appName ∧ pending = "Login" then (.accept pending .pending, caches)
  else
    let previous := titleMatchesPrevious lastApp pending caches clock
    if previous.1 then (.accept unknownWindowTitle .cached, previous.2)
    else
      let own := titleMatchesApp appName pending previous.2.lastAppWindow (clock 2)
      if own.1 then (.accept pending .pending, { previous.2 with lastAppWindow := own.2 })
      else
        let other := titleMatchesOtherApp appName pending own.2 (clock 3)
        if other.1 then
          (.accept unknownWindowTitle .cached, { previous.2 with lastAppWindow := other.2 })
        else
          let otherWeak := titleMatchesOtherApp appName pending previous.2.weakAppWindow (clock 4)
          if otherWeak.1 then (.accept unknownWindowTitle .cached, ⟨other.2, otherWeak.2⟩)
          else
            let ownWeak := titleMatchesApp appName pending otherWeak.2 (clock 5)
            if ownWeak.1 then (.accept pending .pending, ⟨other.2, ownWeak.2⟩)
            else (.hold pending, ⟨other.2, ownWeak.2⟩)

/-! ### What an answer means -/

/-- Asking the caches changes no entry of the strong one and drops entries of the weak one at most. -/
structure Consulted (after before : TitleCaches) : Prop where
  strong : after.lastAppWindow.Alike before.lastAppWindow
  weak : after.weakAppWindow.Shrinks before.weakAppWindow

theorem Consulted.refl (caches : TitleCaches) : caches.Consulted caches := ⟨.refl _, .refl _⟩

/-- The title may be attributed to the app: the cache has it for this app, or for no other. -/
def Attributable (strong : TitleCache) (appName title : String) : Prop :=
  strong.Holds appName title ∨ ∀ other, other ≠ appName → ¬ strong.Holds other title

variable {caches : TitleCaches} (httl : caches.lastAppWindow.ttl = none) (appName title : String)
  (clock : Nat → Tick)

include httl

theorem own_alike (tick : Tick) :
    (titleMatchesApp appName title caches.lastAppWindow tick).2.Alike caches.lastAppWindow :=
  LruCache.getCloned_alike httl _ _

theorem other_alike (own other : Tick) :
    (titleMatchesOtherApp appName title
      (titleMatchesApp appName title caches.lastAppWindow own).2 other).2.Alike
        caches.lastAppWindow := by
  have hown := own_alike httl appName title own
  exact (LruCache.anyEntryMatches_alike (hown.ttl.trans httl) _ _).trans hown

theorem own_fst (tick : Tick) :
    (titleMatchesApp appName title caches.lastAppWindow tick).1 = true ↔
      caches.lastAppWindow.Holds appName title := by
  rw [TitleCache.titleMatchesApp_fst, TitleCache.givesOut_iff_holds httl]

theorem other_fst (own other : Tick) :
    (titleMatchesOtherApp appName title
      (titleMatchesApp appName title caches.lastAppWindow own).2 other).1 = true ↔
        ∃ app, app ≠ appName ∧ caches.lastAppWindow.Holds app title := by
  have hown := own_alike httl appName title own
  rw [TitleCache.titleMatchesOtherApp_fst]
  simp only [TitleCache.givesOut_iff_holds (hown.ttl.trans httl), TitleCache.holds_congr hown]

theorem validate_spec :
    let answer := caches.validateTitleWithWeak appName title clock
    answer.2.Consulted caches ∧
      (answer.1 = "" ∨ answer.1 = unknownWindowTitle ∨
        (answer.1 = title ∧ Attributable caches.lastAppWindow appName title)) := by
  have hown := own_alike httl appName title (clock 0)
  have hother := other_alike httl appName title (clock 0) (clock 1)
  unfold validateTitleWithWeak
  dsimp only
  split_ifs with hblank h1 h2 h3
  · exact ⟨.refl caches, hblank.imp_right .inl⟩
  · exact ⟨⟨hown, .refl _⟩, .inr (.inr ⟨rfl, .inl ((own_fst httl _ _ _).mp h1)⟩)⟩
  · exact ⟨⟨hother, .refl _⟩, .inr (.inl rfl)⟩
  · exact ⟨⟨hother, LruCache.anyEntryMatches_shrinks _ _ _⟩, .inr (.inl rfl)⟩
  · refine ⟨⟨hother, ?_⟩, .inr (.inr ⟨rfl, .inr fun app happ hholds => ?_⟩)⟩
    · exact (LruCache.getCloned_shrinks _ _ _).trans (LruCache.anyEntryMatches_shrinks _ _ _)
    · exact h2 ((other_fst httl _ _ _ _).mpr ⟨app, happ, hholds⟩)

theorem previous_consulted (lastApp : Option String) :
    (caches.titleMatchesPrevious lastApp title clock).2.Consulted caches := by
  unfold titleMatchesPrevious
  cases lastApp with
  | none => exact .refl caches
  | some prevApp =>
    dsimp only
    have hstrong := own_alike httl prevApp title (clock 0)
    split_ifs
    · exact ⟨hstrong, .refl _⟩
    · exact ⟨hstrong, LruCache.getCloned_shrinks _ _ _⟩

theorem reconcile_spec (lastApp : Option String) :
    let answer := caches.reconcileWindowTitle appName title lastApp clock
    answer.2.Consulted caches ∧
      (answer.1.title = unknownWindowTitle ∨
        (answer.1.title = title ∧ (isLoginwindow appName ∧ title = "Login" ∨
          Attributable caches.lastAppWindow appName title))) := by
  have hprevious := previous_consulted httl title clock lastApp
  have httl' := hprevious.strong.ttl.trans httl
  have hown := (own_alike httl' appName title (clock 2)).trans hprevious.strong
  have hother := (other_alike httl' appName title (clock 2) (clock 3)).trans hprevious.strong
  have hfst := other_fst httl' appName title (clock 2) (clock 3)
  simp only [TitleCache.holds_congr hprevious.strong] at hfst
  unfold reconcileWindowTitle
  dsimp only
  split_ifs with hlogin h1 h2 h3 h4 h5
  · exact ⟨.refl caches, .inr ⟨rfl, .inl hlogin⟩⟩
  · exact ⟨hprevious, .inl rfl⟩
  · rw [own_fst httl', TitleCache.holds_congr hprevious.strong] at h2
    exact ⟨⟨hown, hprevious.weak⟩, .inr ⟨rfl, .inr (.inl h2)⟩⟩
  · exact ⟨⟨hother, hprevious.weak⟩, .inl rfl⟩
  · exact ⟨⟨hother, (LruCache.anyEntryMatches_shrinks _ _ _).trans hprevious.weak⟩, .inl rfl⟩
  all_goals
    refine ⟨⟨hother, ((LruCache.getCloned_shrinks _ _ _).trans
      (LruCache.anyEntryMatches_shrinks _ _ _)).trans hprevious.weak⟩, .inr ⟨rfl, .inr (.inr ?_)⟩⟩
    exact fun app happ hholds => h3 (hfst.mpr ⟨app, happ, hholds⟩)

end TitleCaches

end Kronical
