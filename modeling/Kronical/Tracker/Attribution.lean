import Kronical.Tracker.FocusWorker

/-!
# A title belongs to one app

`Distinct` says that the strong cache has no title for two apps, other than loginwindow's "Login", and
`Attributed` that the state's title would not break this if the cache took it over. A title only gets
into the state through `validate_spec` or `reconcile_spec`, and the cache only takes the title that is
emitted (`emit_sends`). So every handler keeps both, and a focus is only emitted with a title that no
other app has.
-/

namespace Kronical

/-- The one title that two apps may share, if one of them is loginwindow. -/
def SharedLogin (app other title : String) : Prop :=
  title = "Login" ∧ (isLoginwindow app ∨ isLoginwindow other)

namespace TitleCache

/-- No two apps have the same title. -/
structure Distinct (cache : TitleCache) : Prop where
  ttl : cache.ttl = none
  shared : ∀ {app other title}, other ≠ app → cache.Holds app title → cache.Holds other title →
    SharedLogin app other title

/-- If another app has the title, it is loginwindow's. -/
def Fits (cache : TitleCache) (app title : String) : Prop :=
  ∀ other, other ≠ app → cache.Holds other title → SharedLogin app other title

theorem Distinct.alike {cache after : TitleCache} (h : cache.Distinct) (hafter : after.Alike cache) :
    after.Distinct where
  ttl := hafter.ttl.trans h.ttl
  shared hother happ hheld :=
    h.shared hother ((holds_congr hafter).mp happ) ((holds_congr hafter).mp hheld)

theorem Fits.alike {cache after : TitleCache} {app title : String} (h : cache.Fits app title)
    (hafter : after.Alike cache) : after.Fits app title :=
  fun other hother hheld => h other hother ((holds_congr hafter).mp hheld)

theorem Distinct.fits {cache : TitleCache} (h : cache.Distinct) {app title : String}
    (hattr : TitleCaches.Attributable cache app title) : cache.Fits app title := by
  intro other hother hheld
  rcases hattr with hown | hnone
  · exact h.shared hother hown hheld
  · exact absurd hheld (hnone other hother)

theorem Fits.record {cache : TitleCache} {app title : String} (h : cache.Fits app title)
    (windowId : Nat) (tick : Tick) :
    (TitleCache.record app title windowId cache tick).Fits app title := by
  intro other hother hheld
  rcases holds_record hheld with ⟨heq, -, -⟩ | hold
  · exact absurd heq hother
  · exact h other hother hold

theorem Distinct.record {cache : TitleCache} (h : cache.Distinct) {app title : String}
    (hfits : title ≠ unknownWindowTitle → cache.Fits app title) (windowId : Nat) (tick : Tick) :
    (TitleCache.record app title windowId cache tick).Distinct where
  ttl := (record_ttl _).trans h.ttl
  shared {a b held} hother ha hb := by
    rcases holds_record ha with ⟨rfl, rfl, htitle⟩ | ha' <;>
      rcases holds_record hb with ⟨rfl, hb', hb''⟩ | hb'
    · exact absurd rfl hother
    · exact hfits htitle b hother hb'
    · subst hb'
      obtain ⟨hlogin, happ⟩ := hfits hb'' a hother.symm ha'
      exact ⟨hlogin, happ.symm⟩
    · exact h.shared hother ha' hb'

end TitleCache

namespace FocusWorker

variable {caps : FocusCacheCaps} {w : FocusWorker} {before : TitleCache}

/-- Since `before` the strong cache has only been consulted; the weak one forgets after two seconds. -/
structure Asked (before : TitleCache) (caches : TitleCaches) : Prop where
  alike : caches.lastAppWindow.Alike before
  forgets : caches.weakAppWindow.ttl = some (fromSecs 2)

/-- The caches have only been consulted since `before`, which the state's title fits. -/
structure Attributed (before : TitleCache) (w : FocusWorker) : Prop where
  asked : Asked before w.caches
  fits : w.state.windowTitle ≠ "" → w.state.windowTitle ≠ unknownWindowTitle →
    before.Fits w.state.appName w.state.windowTitle

theorem Attributed.congr {after : FocusWorker} (h : w.Attributed before)
    (hcaches : after.caches.lastAppWindow = w.caches.lastAppWindow)
    (hweak : after.caches.weakAppWindow.ttl = w.caches.weakAppWindow.ttl)
    (happ : after.state.appName = w.state.appName)
    (htitle : after.state.windowTitle = w.state.windowTitle) : after.Attributed before := by
  refine ⟨⟨?_, hweak.trans h.asked.forgets⟩, ?_⟩
  · rw [hcaches]
    exact h.asked.alike
  · rw [happ, htitle]
    exact h.fits

theorem Attributed.untitled (h : Asked before w.caches) (htitle : w.state.windowTitle = "") :
    w.Attributed before := ⟨h, fun hne => absurd htitle hne⟩

theorem Attributed.substituteOwnId (h : w.Attributed before) : w.substituteOwnId.Attributed before :=
  h.congr rfl rfl rfl rfl

/-- A focus of another app with the same title would be loginwindow's. -/
def Emits (cache : TitleCache) (focus : WindowFocusInfo) : Prop :=
  focus.windowTitle ≠ unknownWindowTitle → cache.Fits focus.appName focus.windowTitle

/-- What is emitted fits the strong cache before and after, and the titles stay apart. -/
def Sends (before : TitleCache) (r : FocusWorker × List WindowFocusInfo) : Prop :=
  ∃ after : TitleCache, after.Distinct ∧ r.1.Attributed after ∧
    ∀ focus ∈ r.2, Emits before focus ∧ Emits after focus

theorem emits_loginwindowFocus (cache : TitleCache) (now : DateTime) :
    Emits cache (loginwindowFocus now) := by
  have hlogin : isLoginwindow "loginwindow" = true := by decide
  exact fun _ _ _ _ => ⟨rfl, .inl hlogin⟩

/-! ### How a title gets into the state -/

section Titles

variable (hbefore : before.Distinct)

include hbefore

theorem takeTitle_attributed (h : Asked before w.caches) (title : String) (windowId : Nat)
    (clock : Nat → Tick) : (w.takeTitle title windowId clock).Attributed before := by
  obtain ⟨hconsulted, hanswer⟩ := @TitleCaches.validate_spec
    (w.recordWeakTitle title windowId (clock 0)).caches (h.alike.ttl.trans hbefore.ttl)
    w.state.appName title (clockFrom clock 1)
  have hforgets := hconsulted.weak.ttl.trans ((TitleCache.record_ttl _).trans h.forgets)
  refine ⟨⟨hconsulted.strong.trans h.alike, hforgets⟩, fun hne hunknown => ?_⟩
  rcases hanswer with hempty | hplaceholder | ⟨heq, hattr⟩
  · exact absurd hempty hne
  · exact absurd hplaceholder hunknown
  · have hfits := (hbefore.alike h.alike).fits hattr
    rw [← heq] at hfits
    exact hfits.alike h.alike.symm

theorem reconcile_asked (h : Asked before w.caches) (pending : String) (clock : Nat → Tick) :
    Asked before (w.reconcile pending clock).2.caches := by
  obtain ⟨hconsulted, -⟩ := TitleCaches.reconcile_spec (h.alike.ttl.trans hbefore.ttl) w.state.appName
    pending clock w.lastAppBeforeChange
  exact ⟨hconsulted.strong.trans h.alike, hconsulted.weak.ttl.trans h.forgets⟩

theorem reconcile_attributed (h : Asked before w.caches) (pending : String) (clock : Nat → Tick) :
    ((w.reconcile pending clock).2.setTitle (w.reconcile pending clock).1.title).Attributed before := by
  obtain ⟨-, hanswer⟩ := TitleCaches.reconcile_spec (h.alike.ttl.trans hbefore.ttl) w.state.appName
    pending clock w.lastAppBeforeChange
  refine ⟨reconcile_asked hbefore h pending clock, fun _ hunknown => ?_⟩
  rcases hanswer with hplaceholder | ⟨heq, ⟨hlogin, hpending⟩ | hattr⟩
  · exact absurd hplaceholder hunknown
  · exact fun _ _ _ => ⟨heq.trans hpending, .inl hlogin⟩
  · have hfits := (hbefore.alike h.alike).fits hattr
    rw [← heq] at hfits
    exact hfits.alike h.alike.symm

theorem emit_sends (h : w.Attributed before) (hemit : w.state.canEmit caps = true) (tick : Tick) :
    Sends before (w.emit tick) := by
  have htitle : w.state.windowTitle ≠ "" := by
    simp only [FocusState.canEmit, decide_eq_true_eq] at hemit
    exact hemit.2.1
  have halike := h.asked.alike
  have hfits := h.fits htitle
  have hrecord (hunknown : w.state.windowTitle ≠ unknownWindowTitle) :
      (w.emit tick).1.caches.lastAppWindow.Fits w.state.appName w.state.windowTitle :=
    ((hfits hunknown).alike halike).record _ _
  refine ⟨(w.emit tick).1.caches.lastAppWindow, ?_,
    ⟨⟨.refl _, h.asked.forgets⟩, fun _ => hrecord⟩, ?_⟩
  · exact (hbefore.alike halike).record (fun hunknown => (hfits hunknown).alike halike) _ _
  · intro focus hfocus
    rw [List.mem_singleton.mp hfocus]
    exact ⟨hfits, hrecord⟩

/-! ### The handlers -/

theorem flushTitle_attributed (h : w.Attributed before) (clock : Nat → Tick) :
    (w.flushTitle clock).Attributed before := by
  unfold flushTitle
  split
  · exact reconcile_attributed hbefore (w := w.takePending) h.asked _ clock
  · exact h

theorem flush_sends (h : w.Attributed before) (clock : Nat → Tick) :
    Sends before (w.flushIfOpen caps clock) := by
  have htitled : (w.flushTitle clock).substituteOwnId.Attributed before :=
    (flushTitle_attributed hbefore h clock).substituteOwnId
  have hquiet {v : FocusWorker} (hv : v.Attributed before) : Sends before (v, []) :=
    ⟨before, hbefore, hv, nofun⟩
  unfold flushIfOpen flush emitIfPossible
  split_ifs with hopen hany hemit
  · exact emit_sends hbefore htitled hemit _
  · exact hquiet htitled
  · exact hquiet h
  · exact hquiet h

omit hbefore in
theorem settleWindowChange_attributed (h : w.Attributed before) (tick : Tick) :
    (w.settleWindowChange tick).Attributed before := by
  unfold settleWindowChange
  split_ifs <;> exact h.congr rfl rfl rfl rfl

omit hbefore in
theorem keepPending_attributed (h : w.Attributed before) (title : String) (tick : Tick) :
    (w.keepPending title tick).Attributed before :=
  h.congr rfl (TitleCache.record_ttl _) rfl rfl

theorem followDecision_attributed (h : w.Attributed before)
    {decision : TitleCaches.ReconcileDecision}
    (hdecision : (w.setTitle decision.title).Attributed before) (clock : Nat → Tick) :
    (w.followDecision decision clock).Quiet (Attributed before) := by
  unfold followDecision
  cases decision with
  | accept title source =>
    have haccepted : ((w.acceptTitle title (clock 8)).stopReconciling).Attributed before :=
      hdecision.congr rfl (TitleCache.record_ttl _) rfl rfl
    exact ⟨settleWindowChange_attributed haccepted _, rfl⟩
  | hold title =>
    dsimp only
    split_ifs
    · have htaken := takeTitle_attributed hbefore h.asked title w.state.windowId (clockFrom clock 8)
      have hstopped : ((w.takeTitle title w.state.windowId
          (clockFrom clock 8)).stopReconciling).Attributed before := htaken.congr rfl rfl rfl rfl
      exact ⟨settleWindowChange_attributed hstopped _, rfl⟩
    · exact keepPending_attributed h _ _

theorem onWindowChange_attributed (h : w.Attributed before) (windowTitle : String)
    (clock : Nat → Tick) : (w.onWindowChange windowTitle clock).Quiet (Attributed before) := by
  unfold onWindowChange
  split_ifs
  · exact ⟨h, rfl⟩
  · exact keepPending_attributed h _ _
  · exact followDecision_attributed hbefore
      ⟨reconcile_asked hbefore h.asked windowTitle (clockFrom clock 2), h.fits⟩
      (reconcile_attributed hbefore h.asked windowTitle (clockFrom clock 2)) clock
  · exact ⟨settleWindowChange_attributed (takeTitle_attributed hbefore h.asked _ _ _) _, rfl⟩

theorem enterWindow_attributed (h : Asked before w.caches) (info : ActiveWindowInfo)
    (clock : Nat → Tick) : (w.enterWindow info clock).Attributed before :=
  (takeTitle_attributed hbefore h info.title info.windowId clock).congr rfl rfl rfl rfl

omit hbefore in
theorem scheduleIfComplete_attributed (h : w.Attributed before) (tick : Tick) :
    (w.scheduleIfComplete tick).Attributed before := by
  unfold scheduleIfComplete
  split_ifs
  · exact h.congr rfl rfl rfl rfl
  · exact h

theorem onAppChangeInfo_attributed (h : w.Attributed before) (info : ActiveWindowInfo)
    (input : Input) : (w.onAppChangeInfo info input).Quiet (Attributed before) := by
  unfold onAppChangeInfo
  split_ifs
  · exact h
  · refine ⟨scheduleIfComplete_attributed (w := restartWindow _ _) ?_ _, rfl⟩
    refine (enterWindow_attributed hbefore ?_ info (clockFrom input.clock 2)).congr rfl rfl rfl rfl
    rw [enterProcess_caches, unlockFor_caches]
    exact h.asked

theorem onWindowChangeInfo_attributed (h : w.Attributed before) (info : ActiveWindowInfo)
    (input : Input) : (w.onWindowChangeInfo info input).Quiet (Attributed before) := by
  unfold onWindowChangeInfo
  split_ifs
  · exact h
  · refine ⟨scheduleIfComplete_attributed (enterWindow_attributed hbefore ?_ info _) _, rfl⟩
    rw [enterOtherProcess_caches]
    exact h.asked

theorem recover_attributed (h : w.Attributed before) (info : ActiveWindowInfo) (input : Input) :
    (w.recover info input).Attributed before := by
  unfold recover
  split_ifs
  · refine (takeTitle_attributed hbefore ?_ info.title info.windowId (clockFrom input.clock 2)).congr
      rfl rfl rfl rfl
    rw [enterProcess_caches]
    exact h.asked
  · exact h

theorem reconcilePoll_attributed (h : w.Attributed before) (info : ActiveWindowInfo) (input : Input) :
    (w.reconcilePoll info input).Attributed before := by
  unfold reconcilePoll
  split_ifs
  · refine (enterWindow_attributed hbefore ?_ info (clockFrom input.clock 10)).congr rfl rfl rfl rfl
    rw [enterProcess_caches]
    exact h.asked
  · exact h

theorem followTitle_attributed (h : Asked before w.caches) (info : ActiveWindowInfo)
    (input : Input) : (w.followTitle info input).Attributed before := by
  refine scheduleIfComplete_attributed (w := setWindowId _ _) ?_ _
  refine (takeTitle_attributed hbefore ?_ info.title info.windowId (clockFrom input.clock 19)).congr
    rfl rfl rfl rfl
  rw [enterTitleApp_caches]
  exact h

theorem pollTitle_attributed (h : w.Attributed before) (info : ActiveWindowInfo) (input : Input) :
    (w.pollTitle info input).Attributed before := by
  unfold pollTitle
  dsimp only
  split_ifs
  · have hlooked : (w.setLastTitles (w.lastTitles.getCloned info.windowId (input.clock 16)).2).caches =
        w.caches := rfl
    exact (followTitle_attributed hbefore (hlooked ▸ h.asked) info input).congr rfl rfl rfl rfl
  · exact h.congr rfl rfl rfl rfl

theorem onPoll_attributed (h : w.Attributed before) (info : ActiveWindowInfo) (input : Input) :
    (w.onPoll info input).Quiet (Attributed before) := by
  unfold onPoll
  split_ifs
  · exact h
  · exact ⟨pollTitle_attributed hbefore (reconcilePoll_attributed hbefore
      (recover_attributed hbefore h _ _) _ _) _ _, rfl⟩

/-! ### The end of an iteration -/

theorem applyDecision_attributed (h : Asked before w.caches)
    {decision : TitleCaches.ReconcileDecision}
    (hdecision : (w.setTitle decision.title).Attributed before) (clock : Nat → Tick) :
    (w.applyDecision decision clock).Attributed before := by
  cases decision with
  | accept title source => exact hdecision.congr rfl (TitleCache.record_ttl _) rfl rfl
  | hold title => exact takeTitle_attributed hbefore h title _ _

theorem applyPending_attributed (h : w.Attributed before) (clock : Nat → Tick) :
    (w.applyPending clock).Attributed before := by
  unfold applyPending
  split
  · rename_i title _
    have hdecided := applyDecision_attributed hbefore
      (reconcile_asked hbefore (w := w.takePending) h.asked title (clockFrom clock 31))
      (reconcile_attributed hbefore (w := w.takePending) h.asked title (clockFrom clock 31)) clock
    exact hdecided.substituteOwnId.congr rfl rfl rfl rfl
  · exact h

theorem coalesce_attributed (h : w.Attributed before) (clock : Nat → Tick) :
    (w.coalesce caps clock).Attributed before := by
  have happlied := applyPending_attributed hbefore h clock
  unfold coalesce scheduleIfPossible
  split_ifs
  · exact happlied.congr rfl rfl rfl rfl
  · exact happlied.congr rfl rfl rfl rfl
  · exact h

theorem emitScheduled_sends (h : w.Attributed before) (clock : Nat → Tick) :
    Sends before (w.emitScheduled caps clock) := by
  unfold emitScheduled
  split_ifs with hdue
  · obtain ⟨after, hafter, hattr, hsent⟩ := emit_sends hbefore h hdue.2 (clock 44)
    exact ⟨after, hafter, hattr.congr rfl rfl rfl rfl, hsent⟩
  · exact ⟨before, hbefore, h, nofun⟩

/-! ### One iteration -/

/-- How a handler leaves the titles: it emits no more than loginwindow's focus, or it has just entered
an app without a title. -/
def Handled (before : TitleCache) : Flow → Prop
  | .proceed v out =>
    (v.Attributed before ∧ ∀ focus ∈ out, ∀ cache, Emits cache focus) ∨
      (Sends before (v, out) ∧ v.state.windowTitle = "" ∧ v.pendingWindowTitle = none)
  | .skip v => v.Attributed before
  | .stop => True

theorem onAppChange_handled (h : w.Attributed before) (pid : Int) (appName : String) (input : Input) :
    Handled before (w.onAppChange caps pid appName input) := by
  unfold onAppChange
  split_ifs
  · exact .inl ⟨h, nofun⟩
  · obtain ⟨after, hafter, hattr, hsent⟩ := @flush_sends caps w.noteLastApp _ hbefore
      (h.congr rfl rfl rfl rfl) input.clock
    refine .inr ⟨⟨after, hafter, .untitled ?_ rfl, hsent⟩, rfl, enterApp_pendingWindowTitle _ _ _⟩
    rw [enterApp_caches]
    exact hattr.asked

omit hbefore in
theorem onPollError_handled (h : w.Attributed before) (errText : String) (input : Input) :
    Handled before (w.onPollError errText input) := by
  unfold onPollError
  split_ifs with hlock hlogin
  · refine .inl ⟨h.congr rfl rfl rfl rfl, fun focus hfocus cache => ?_⟩
    rw [List.mem_singleton.mp hfocus]
    exact emits_loginwindowFocus cache _
  · exact .inl ⟨h.congr rfl rfl rfl rfl, nofun⟩
  · exact .inl ⟨h, nofun⟩

omit hbefore in
theorem Flow.Quiet.handled {flow : Flow} (h : flow.Quiet (Attributed before)) :
    Handled before flow := by
  cases flow with
  | proceed v out =>
    obtain ⟨hattr, rfl⟩ := h
    exact .inl ⟨hattr, nofun⟩
  | skip v => exact h
  | stop => trivial

theorem onTimeout_handled (h : w.Attributed before) (poll : Except String ActiveWindowInfo)
    (input : Input) : Handled before (w.onTimeout poll input) := by
  unfold onTimeout
  split_ifs
  · exact h
  · cases poll with
    | ok info => exact (onPoll_attributed hbefore h info input).handled
    | error errText => exact onPollError_handled h errText input

theorem handle_handled (h : w.Attributed before) (input : Input) :
    Handled before (w.handle caps input) := by
  unfold handle
  split
  · exact onAppChange_handled hbefore h _ _ input
  · exact (onWindowChange_attributed hbefore h _ _).handled
  · exact (onAppChangeInfo_attributed hbefore h _ input).handled
  · exact (onWindowChangeInfo_attributed hbefore h _ input).handled
  · trivial
  · exact onTimeout_handled hbefore h _ input
  · trivial

omit hbefore in
theorem emitScheduled_untitled (htitle : w.state.windowTitle = "") (hpending : w.pendingWindowTitle = none)
    (clock : Nat → Tick) :
    ((w.coalesce caps clock).emitScheduled caps clock) = (w.coalesce caps clock, []) := by
  have hcoalesced : (w.coalesce caps clock).state = w.state := by
    unfold coalesce scheduleIfPossible applyPending
    rw [hpending]
    split_ifs <;> rfl
  have hemit : (w.coalesce caps clock).state.canEmit caps = false := by
    simp [hcoalesced, FocusState.canEmit, htitle]
  simp [emitScheduled, hemit]

theorem iteration_sends (h : w.Attributed before) {input : Input}
    {r : FocusWorker × List WindowFocusInfo} (hr : w.iteration caps input = some r) :
    Sends before r := by
  have hhandled := @handle_handled caps w _ hbefore h input
  unfold iteration at hr
  split_ifs at hr
  split at hr
  · rename_i v out hflow
    rw [hflow] at hhandled
    obtain rfl := Option.some.inj hr
    rcases hhandled with ⟨hattr, hout⟩ | ⟨⟨after, hafter, hattr, hsent⟩, htitle, hpending⟩
    · obtain ⟨after, hafter, hattr', hsent⟩ := @emitScheduled_sends caps _ _ hbefore
        (coalesce_attributed hbefore hattr input.clock) input.clock
      refine ⟨after, hafter, hattr', fun focus hfocus => ?_⟩
      rcases List.mem_append.mp hfocus with hfocus | hfocus
      · exact ⟨hout focus hfocus _, hout focus hfocus _⟩
      · exact hsent focus hfocus
    · rw [emitScheduled_untitled htitle hpending, List.append_nil]
      exact ⟨after, hafter, coalesce_attributed hafter hattr input.clock, hsent⟩
  · rename_i v hflow
    rw [hflow] at hhandled
    obtain rfl := Option.some.inj hr
    exact ⟨before, hbefore, hhandled, nofun⟩
  · nomatch hr

end Titles

/-! ### Runs -/

theorem reachable_attributed (hw : (machine caps).Reachable w) :
    w.caches.lastAppWindow.Distinct ∧ w.Attributed w.caches.lastAppWindow := by
  refine Machine.Reach.invariant
    (I := fun w => w.caches.lastAppWindow.Distinct ∧ w.Attributed w.caches.lastAppWindow) ?_ ?_ hw
  · rintro _ ⟨now, rfl⟩
    refine ⟨⟨rfl, fun _ hheld => ?_⟩, .untitled ⟨.refl _, rfl⟩ rfl⟩
    obtain ⟨windowId, hpeek⟩ := hheld
    simp [new, LruCache.peek, LruCache.withCapacity] at hpeek
  · rintro v input v' - - hstep ⟨hdistinct, hattr⟩
    obtain ⟨r, hr, rfl⟩ := Option.map_eq_some_iff.mp hstep
    obtain ⟨after, hafter, hattr', -⟩ := iteration_sends hdistinct hattr hr
    have halike := hattr'.asked.alike
    exact ⟨hafter.alike halike, ⟨.refl _, hattr'.asked.forgets⟩, fun hne hunknown =>
      (hattr'.fits hne hunknown).alike halike⟩

/-- Two apps never have the same title in the strong cache, unless it is "Login" and one of them is
loginwindow; and a focus never has a title that the strong cache has for another app, neither before
nor after the iteration that emits it, with the same exception. -/
theorem title_of_one_app (caps : FocusCacheCaps) (w : FocusWorker) (hw : (machine caps).Reachable w) :
    (∀ app other title, other ≠ app → w.caches.lastAppWindow.Holds app title →
      w.caches.lastAppWindow.Holds other title →
        title = "Login" ∧ (isLoginwindow app ∨ isLoginwindow other)) ∧
    ∀ input w' out, w.iteration caps input = some (w', out) →
      ∀ focus ∈ out, focus.windowTitle ≠ unknownWindowTitle → ∀ other, other ≠ focus.appName →
        w.caches.lastAppWindow.Holds other focus.windowTitle ∨
          w'.caches.lastAppWindow.Holds other focus.windowTitle →
            focus.windowTitle = "Login" ∧ (isLoginwindow focus.appName ∨ isLoginwindow other) := by
  obtain ⟨hdistinct, hattr⟩ := reachable_attributed hw
  refine ⟨fun app other title => hdistinct.shared, ?_⟩
  intro input w' out hiteration focus hfocus hunknown other hother hheld
  obtain ⟨after, -, hattr', hsent⟩ := iteration_sends hdistinct hattr hiteration
  obtain ⟨hbefore, hafter⟩ := hsent focus hfocus
  rcases hheld with hheld | hheld
  · exact hbefore hunknown other hother hheld
  · exact hafter hunknown other hother ((TitleCache.holds_congr hattr'.asked.alike).mp hheld)

/-- A run in which two windows called "Inbox" of different apps come one after the other. -/
theorem title_of_one_app_inbox :
    ∃ w, (machine .sample).exec (new .sample 0)
        [.sample 0 (.msg (.appChangeInfo ⟨"Inbox", "Mail", 1, 5⟩)),
          .sample 200 (.msg (.appChangeInfo ⟨"Inbox", "News", 2, 6⟩))] = some w ∧
      w.caches.lastAppWindow.Holds "Mail" "Inbox" ∧ w.state.appName = "News" ∧
      ∀ input w' out, w.iteration .sample input = some (w', out) →
        ∀ focus ∈ out, focus.windowTitle ≠ unknownWindowTitle → ∀ other, other ≠ focus.appName →
          w.caches.lastAppWindow.Holds other focus.windowTitle ∨
            w'.caches.lastAppWindow.Holds other focus.windowTitle →
              focus.windowTitle = "Login" ∧ (isLoginwindow focus.appName ∨ isLoginwindow other) := by
  have hrun : (((machine .sample).exec (new .sample 0)
      [.sample 0 (.msg (.appChangeInfo ⟨"Inbox", "Mail", 1, 5⟩)),
        .sample 200 (.msg (.appChangeInfo ⟨"Inbox", "News", 2, 6⟩))]).map fun w =>
          (w.caches.lastAppWindow.peek "Mail", w.state.appName)) = some (some ("Inbox", 5), "News") := by
    decide
  obtain ⟨w, hw, hfinal⟩ := Option.map_eq_some_iff.mp hrun
  obtain ⟨hmail, happ⟩ := Prod.mk.inj hfinal
  have hreach : (machine .sample).Reachable w := Machine.Reachable.exec (.start ⟨0, rfl⟩) hw
  exact ⟨w, hw, ⟨5, hmail⟩, happ, (title_of_one_app .sample w hreach).2⟩

end FocusWorker

end Kronical
