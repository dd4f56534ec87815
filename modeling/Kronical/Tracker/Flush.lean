import Kronical.Tracker.Attribution

/-!
# The flush of a pending title

When another app gets the focus inside the coalesce window, the title that is pending for the app that
is left is reconciled one last time. By then the app has been noted as the one before the change, so the
reconciliation takes a title that a cache has for this very app for one that belongs to a previous app.
-/

namespace Kronical

namespace TitleCaches

variable {caches : TitleCaches} {appName title : String}

theorem previous_fst (httl : caches.lastAppWindow.ttl = none) (clock : Nat → Tick) :
    (caches.titleMatchesPrevious (some appName) title clock).1 = true ↔
      caches.lastAppWindow.Holds appName title ∨
        caches.weakAppWindow.GivesOut appName title (clock 1).now := by
  have hstrong := own_fst httl appName title (clock 0)
  unfold titleMatchesPrevious
  dsimp only
  split_ifs with h
  · simp [hstrong.mp h]
  · rw [TitleCache.titleMatchesApp_fst, or_iff_right (hstrong.not.mp h)]

theorem previous_weak_other {other : String} (hother : other ≠ appName) (clock : Nat → Tick)
    (now : Instant) :
    (caches.titleMatchesPrevious (some appName) title clock).2.weakAppWindow.GivesOut other title now ↔
      caches.weakAppWindow.GivesOut other title now := by
  unfold titleMatchesPrevious
  dsimp only
  split_ifs
  · rfl
  · show TitleCache.GivesOut (LruCache.getCloned _ _ _).2 _ _ _ ↔ _
    unfold TitleCache.GivesOut
    rw [LruCache.live_getCloned_of_ne _ hother]

theorem reconcile_previous_iff (httl : caches.lastAppWindow.ttl = none)
    (htitle : title ≠ unknownWindowTitle) (clock : Nat → Tick)
    (hstrong : ∀ other, other ≠ appName → ¬ caches.lastAppWindow.Holds other title)
    (hweak : ∀ other, other ≠ appName →
      ¬ caches.weakAppWindow.GivesOut other title (clock 4).now) :
    (caches.reconcileWindowTitle appName title (some appName) clock).1.title = title ↔
      (isLoginwindow appName ∧ title = "Login") ∨
        ¬ (caches.lastAppWindow.Holds appName title ∨
          caches.weakAppWindow.GivesOut appName title (clock 1).now) := by
  have hprevious := previous_consulted httl title clock (some appName)
  have httl' := hprevious.strong.ttl.trans httl
  have hfst := @previous_fst _ appName title httl clock
  unfold reconcileWindowTitle
  dsimp only
  split_ifs with hlogin h1 h2 h3 h4 h5
  · exact iff_of_true rfl (.inl hlogin)
  · refine iff_of_false htitle.symm ?_
    rw [or_iff_right hlogin, not_not]
    exact hfst.mp h1
  · exact iff_of_true rfl (.inr (hfst.not.mp h1))
  · -- no other app has the title in the strong cache
    obtain ⟨other, hother, hheld⟩ := (other_fst httl' appName title _ _).mp h3
    exact absurd ((TitleCache.holds_congr hprevious.strong).mp hheld) (hstrong other hother)
  · -- nor in the weak one
    obtain ⟨other, hother, hgiven⟩ := TitleCache.titleMatchesOtherApp_fst.mp h4
    exact absurd ((previous_weak_other hother clock _).mp hgiven) (hweak other hother)
  · exact iff_of_true rfl (.inr (hfst.not.mp h1))
  · exact iff_of_true rfl (.inr (hfst.not.mp h1))

end TitleCaches

namespace FocusWorker

variable {caps : FocusCacheCaps} {w : FocusWorker}

/-- The state of the app that is left, with its pending title. -/
def flushedState (w : FocusWorker) (title : String) : FocusState :=
  { w.state with
    windowTitle := title
    windowId := substituteWindowId w.state.appName w.state.windowId }

theorem canEmit_flushedState {title title' : String} (htitle : title ≠ "") (htitle' : title' ≠ "") :
    (w.flushedState title).canEmit caps = (w.flushedState title').canEmit caps := by
  simp [FocusState.canEmit, flushedState, htitle, htitle']

/-- The title that the flush decides on. -/
def decidedTitle (w : FocusWorker) (title : String) (clock : Nat → Tick) : String :=
  (w.caches.reconcileWindowTitle w.state.appName title (some w.state.appName) clock).1.title

theorem decidedTitle_ne_empty (httl : w.caches.lastAppWindow.ttl = none) {title : String}
    (htitle : title ≠ "") (clock : Nat → Tick) : w.decidedTitle title clock ≠ "" := by
  unfold decidedTitle
  rcases (TitleCaches.reconcile_spec httl w.state.appName title clock (some w.state.appName)).2 with
    hplaceholder | ⟨heq, -⟩
  · rw [hplaceholder]
    decide
  · rwa [heq]

theorem flushTitle_state {title : String} (hname : w.state.appName ≠ "")
    (hpending : w.pendingWindowTitle = some title) (clock : Nat → Tick) :
    (w.noteLastApp.flushTitle clock).substituteOwnId.state =
      w.flushedState (w.decidedTitle title clock) := by
  have hnoted : w.noteLastApp.lastAppBeforeChange = some w.state.appName := if_pos hname
  have hpending' : w.noteLastApp.pendingWindowTitle = some title := hpending
  unfold flushTitle decidedTitle
  rw [hpending', ← hnoted]
  rfl

theorem flush_out {title : String} (httl : w.caches.lastAppWindow.ttl = none)
    (hopen : w.coalesceUntil.isSome) (hpending : w.pendingWindowTitle = some title)
    (htitle : title ≠ "") (hemit : (w.flushedState title).canEmit caps = true)
    (clock : Nat → Tick) :
    (w.noteLastApp.flushIfOpen caps clock).2 =
      [(w.flushedState (w.decidedTitle title clock)).toWindowFocusInfo] := by
  have hname : w.state.appName ≠ "" := by
    simp only [FocusState.canEmit, decide_eq_true_eq] at hemit
    exact hemit.1
  have hstate := flushTitle_state hname hpending clock
  have hopen' : w.noteLastApp.coalesceUntil.isSome := hopen
  have hpending' : w.noteLastApp.pendingWindowTitle.isSome := by
    show w.pendingWindowTitle.isSome
    rw [hpending]
    rfl
  have hpossible : (w.noteLastApp.flushTitle clock).substituteOwnId.state.canEmit caps = true := by
    rw [hstate, canEmit_flushedState (decidedTitle_ne_empty httl htitle clock) htitle]
    exact hemit
  unfold flushIfOpen flush emitIfPossible
  rw [if_pos hopen', if_pos (.inl hpending'), if_pos hpossible, ← hstate]
  rfl

theorem iteration_appChange {input : Input} {pid : Int} {appName : String}
    {r : FocusWorker × List WindowFocusInfo} (happ : w.state.appName ≠ appName)
    (hinput : input.received = .msg (.appChange pid appName))
    (hr : w.iteration caps input = some r) : r.2 = (w.noteLastApp.flushIfOpen caps input.clock).2 := by
  have hhandle : w.handle caps input = .proceed
      ((w.noteLastApp.flushIfOpen caps input.clock).1.enterApp caps pid appName input)
      (w.noteLastApp.flushIfOpen caps input.clock).2 := by
    rw [handle_appChange hinput]
    unfold onAppChange
    exact if_neg fun h => happ h.1
  unfold iteration at hr
  rw [hhandle] at hr
  split_ifs at hr
  obtain rfl := Option.some.inj hr
  show _ ++ _ = _
  rw [emitScheduled_untitled (enterApp_windowTitle _ _ _) (enterApp_pendingWindowTitle _ _ _),
    List.append_nil]

/-- A title recorded for the app, at most `span` before. -/
def RecordedWithin (cache : TitleCache) (appName title : String) (span : Nat) (now : Instant) : Prop :=
  ∃ windowId recordedAt, cache.map.lookup appName = some ((title, windowId), recordedAt) ∧
    now - recordedAt ≤ span

/-- Inside the coalesce window, with a pending title that no other app has, a change to another app
emits the app that is left with this title just if it is the login window's or no cache has it for the
app. With a record of the last two seconds it never does, but for the login window. -/
theorem flush_keeps_pending_iff (caps : FocusCacheCaps) (w : FocusWorker)
    (hw : (machine caps).Reachable w) (input : Input) (deadline : Instant) (pid : Int)
    (appName title : String) (htitle : title ≠ "") (hunknown : title ≠ unknownWindowTitle)
    (hpending : w.pendingWindowTitle = some title) (hdeadline : w.coalesceUntil = some deadline)
    (hstrong : ∀ other, other ≠ w.state.appName → ¬ w.caches.lastAppWindow.Holds other title)
    (hweak : ∀ other, other ≠ w.state.appName →
      ∀ place, ¬ w.caches.weakAppWindow.GivesOut other title (input.clock place).now)
    (happ : appName ≠ w.state.appName) (hemit : (w.flushedState title).canEmit caps = true)
    (hinput : input.received = .msg (.appChange pid appName)) (r : FocusWorker × List WindowFocusInfo)
    (hr : w.iteration caps input = some r) :
    ((∃ focus ∈ r.2, focus.appName = w.state.appName ∧ focus.windowTitle = title) ↔
      (isLoginwindow w.state.appName ∧ title = "Login") ∨
        ¬ (w.caches.lastAppWindow.Holds w.state.appName title ∨
          w.caches.weakAppWindow.GivesOut w.state.appName title (input.clock 1).now)) ∧
    (RecordedWithin w.caches.weakAppWindow w.state.appName title (fromSecs 2) (input.clock 1).now →
      ((∃ focus ∈ r.2, focus.appName = w.state.appName ∧ focus.windowTitle = title) ↔
        isLoginwindow w.state.appName ∧ title = "Login")) := by
  have httl := (reachable_attributed hw).1.ttl
  have hout : r.2 = [(w.flushedState (w.decidedTitle title input.clock)).toWindowFocusInfo] := by
    rw [iteration_appChange happ.symm hinput hr]
    exact flush_out httl (by rw [hdeadline]; rfl) hpending htitle hemit input.clock
  have hemitted : (∃ focus ∈ r.2, focus.appName = w.state.appName ∧ focus.windowTitle = title) ↔
      w.decidedTitle title input.clock = title := by
    rw [hout]
    constructor
    · rintro ⟨focus, hfocus, -, heq⟩
      rwa [List.mem_singleton.mp hfocus] at heq
    · intro heq
      exact ⟨_, List.mem_singleton_self _, rfl, heq⟩
  have hiff := TitleCaches.reconcile_previous_iff httl hunknown input.clock hstrong
    (fun other hother => hweak other hother 4)
  refine ⟨hemitted.trans hiff, fun ⟨windowId, recordedAt, hlookup, hage⟩ => ?_⟩
  rw [hemitted]
  refine hiff.trans (or_iff_left ?_)
  have hgiven : w.caches.weakAppWindow.GivesOut w.state.appName title (input.clock 1).now := by
    refine ⟨windowId, LruCache.live_eq_some.mpr ⟨recordedAt, hlookup, ?_⟩⟩
    unfold LruCache.expired
    rw [(reachable_attributed hw).2.asked.forgets]
    simpa using hage
  exact fun h => h (.inr hgiven)

theorem holds_mem_keys {cache : TitleCache} {app held : String} (h : cache.Holds app held) :
    app ∈ cache.map.keys := by
  obtain ⟨windowId, hpeek⟩ := h
  obtain ⟨lastUse, hlookup⟩ := LruCache.peek_eq_some.mp hpeek
  exact AList.mem_keys.mp (AList.lookup_isSome.mp (by rw [hlookup]; rfl))

/-- An app with a title that arrives 10 ms after it, inside the coalesce window. -/
def pendingRun (appName title : String) : List Input :=
  [.sample 0 (.msg (.appChange 1 appName)), .sample 10 (.msg (.windowChange title))]

/-- What the examples look at: the pending title, the coalesce window, the app, the records of the
caches, and whether the state can be emitted with a title. -/
structure Glance where
  pending : Option String
  deadline : Option Instant
  app : String
  recorded : Option ((String × Nat) × Instant)
  strong : List String
  weak : List String
  possible : Bool
  deriving DecidableEq

def glance (w : FocusWorker) (title : String) : Glance :=
  { pending := w.pendingWindowTitle, deadline := w.coalesceUntil, app := w.state.appName,
    recorded := w.caches.weakAppWindow.map.lookup w.state.appName,
    strong := w.caches.lastAppWindow.map.keys, weak := w.caches.weakAppWindow.map.keys,
    possible := (w.flushedState title).canEmit .sample }

/-- Editor's title is pending when Mail gets the focus; Editor is emitted without it. -/
theorem flush_loses_pending :
    ¬ ∀ caps w, (machine caps).Reachable w → ∀ (input : Input) (deadline : Instant) (pid : Int)
      (appName title : String), title ≠ "" → title ≠ unknownWindowTitle →
      w.pendingWindowTitle = some title → w.coalesceUntil = some deadline →
      (input.clock 0).now < deadline →
      RecordedWithin w.caches.weakAppWindow w.state.appName title (fromSecs 2) (input.clock 1).now →
      (∀ other, other ≠ w.state.appName → ¬ w.caches.lastAppWindow.Holds other title ∧
        ¬ w.caches.weakAppWindow.Holds other title) →
      appName ≠ w.state.appName → (w.flushedState title).canEmit caps = true →
      input.received = .msg (.appChange pid appName) →
      ∀ r, w.iteration caps input = some r →
        ∃ focus ∈ r.2, focus.appName = w.state.appName ∧ focus.windowTitle = title := by
  intro hclaim
  have hrun : ((machine .sample).exec (new .sample 0) (pendingRun "Editor" "notes.txt")).map (fun w =>
      (w.glance "notes.txt",
        (w.iteration .sample (.sample 20 (.msg (.appChange 2 "Mail")))).map fun r =>
          r.2.map fun focus => (focus.appName, focus.windowTitle))) =
      some (⟨some "notes.txt", some 100000000, "Editor", some (("notes.txt", 0), 10000000), [],
        ["Editor"], true⟩, some [("Editor", "-")]) := by
    decide
  obtain ⟨w, hw, hfinal⟩ := Option.map_eq_some_iff.mp hrun
  obtain ⟨hglance, hout⟩ := Prod.mk.inj hfinal
  obtain ⟨hpending, hdeadline, happ, hrecorded, hstrong, hweak, hemit⟩ := Glance.mk.inj hglance
  obtain ⟨r, hr, hfocus⟩ := Option.map_eq_some_iff.mp hout
  have hreach : (machine .sample).Reachable w := Machine.Reachable.exec (.start ⟨0, rfl⟩) hw
  obtain ⟨focus, hmem, -, htitle⟩ := hclaim .sample w hreach (.sample 20 (.msg (.appChange 2 "Mail")))
    100000000 2 "Mail" "notes.txt" (by decide) (by decide) hpending hdeadline (by decide)
    ⟨0, 10000000, hrecorded, by decide⟩
    (fun other hother => by
      constructor <;> intro hheld
      · simpa [hstrong] using holds_mem_keys hheld
      · have hkey := holds_mem_keys hheld
        rw [hweak, List.mem_singleton, ← happ] at hkey
        exact hother hkey)
    (by rw [happ]; decide) hemit rfl r hr
  have hmem' : (focus.appName, focus.windowTitle) ∈
      r.2.map fun focus => (focus.appName, focus.windowTitle) := List.mem_map_of_mem hmem
  rw [hfocus, List.mem_singleton, htitle] at hmem'
  exact absurd (Prod.mk.inj hmem').2 (by decide)

/-- The login window's title gets through. -/
theorem flush_keeps_login :
    ∃ w r, (machine .sample).exec (new .sample 0) (pendingRun "loginwindow" "Login") = some w ∧
      w.iteration .sample (.sample 20 (.msg (.appChange 2 "Mail"))) = some r ∧
      ∃ focus ∈ r.2, focus.appName = w.state.appName ∧ focus.windowTitle = "Login" := by
  have hrun : ((machine .sample).exec (new .sample 0) (pendingRun "loginwindow" "Login")).map (fun w =>
      (w.glance "Login", (w.iteration .sample (.sample 20 (.msg (.appChange 2 "Mail")))).isSome)) =
      some (⟨some "Login", some 100000000, "loginwindow",
        some (("Login", loginwindowWindowId), 10000000), [], ["loginwindow"], true⟩, true) := by
    decide
  obtain ⟨w, hw, hfinal⟩ := Option.map_eq_some_iff.mp hrun
  obtain ⟨hglance, hsome⟩ := Prod.mk.inj hfinal
  obtain ⟨hpending, hdeadline, happ, -, hstrong, hweak, hemit⟩ := Glance.mk.inj hglance
  obtain ⟨r, hr⟩ := Option.isSome_iff_exists.mp hsome
  have hreach : (machine .sample).Reachable w := Machine.Reachable.exec (.start ⟨0, rfl⟩) hw
  have hkeep := flush_keeps_pending_iff .sample w hreach (.sample 20 (.msg (.appChange 2 "Mail")))
    100000000 2 "Mail" "Login" (by decide) (by decide) hpending hdeadline
    (fun other _ hheld => by simpa [hstrong] using holds_mem_keys hheld)
    (fun other hother place hgiven => by
      have hkey := holds_mem_keys hgiven.holds
      rw [hweak, List.mem_singleton, ← happ] at hkey
      exact hother hkey)
    (by rw [happ]; decide) hemit rfl r hr
  exact ⟨w, r, hw, hr, hkeep.1.mpr (.inl ⟨by rw [happ]; decide, rfl⟩)⟩

end FocusWorker

end Kronical
