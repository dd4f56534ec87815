import Kronical.Tracker.FocusWorker

/-!
# Overdue work

A pending title is to be applied once the coalesce window is over, and a focus to be emitted once the
scheduled instant has come. Both are looked after at the end of an iteration (`ends_clear`), which six
`continue`s skip. `Prompt` says when they do so without leaving work behind: an iteration that ignores
what it has received must have nothing to do, and a title must not be kept for a window that is over.
-/

namespace Kronical.FocusWorker

variable (caps : FocusCacheCaps)

/-- The coalesce window is over at this instant. -/
def windowOver (w : FocusWorker) (now : Instant) : Bool :=
  w.coalesceUntil.any fun deadline => deadline ≤ now

/-- A focus should have been emitted by this instant. -/
def EmitDue (w : FocusWorker) (now : Instant) : Prop :=
  w.scheduledEmitAt.any (fun due => due ≤ now) ∧ w.state.canEmit caps

/-- Work that should have been done: a pending title by the one instant, a focus by the other. -/
def Overdue (w : FocusWorker) (titleBy emitBy : Instant) : Prop :=
  (w.pendingWindowTitle.isSome ∧ w.windowOver titleBy) ∨ w.EmitDue caps emitBy

instance (w : FocusWorker) (now : Instant) : Decidable (w.EmitDue caps now) :=
  inferInstanceAs (Decidable (_ ∧ _))

instance (w : FocusWorker) (titleBy emitBy : Instant) : Decidable (w.Overdue caps titleBy emitBy) :=
  inferInstanceAs (Decidable (_ ∨ _))

/-- When an iteration last looks at the clock for the pending title and for the scheduled focus: at its
end, or if it skips that, when it begins. -/
def lookedAt (w : FocusWorker) (input : Input) : Instant × Instant :=
  match w.handle caps input with
  | .skip _ => ((input.clock 0).now, (input.clock 0).now)
  | _ => ((input.clock 30).now, (input.clock 43).now)

/-- The iteration does not end with overdue work. -/
def EndsClear (w : FocusWorker) (input : Input) : Prop :=
  ∀ r, w.iteration caps input = some r →
    ¬ r.1.Overdue caps (w.lookedAt caps input).1 (w.lookedAt caps input).2

/-- What the worker ignores it ignores only if it has nothing to do, and it keeps a title only for a
coalesce window that is still open, with no focus to be emitted. -/
def Prompt (w : FocusWorker) (input : Input) : Prop :=
  input.shouldStop = false →
    match input.received with
    | .msg (.windowChange title) =>
      title ≠ "" → w.state.windowTitle ≠ title → w.reconcileActive →
        if w.coalesceUntil.any fun deadline => (input.clock 0).now < deadline then
          ¬ w.EmitDue caps (input.clock 0).now
        else w.coalesceUntil.isSome →
          ∀ kept, (w.reconcile title (clockFrom input.clock 2)).1 ≠ .hold kept
    | .msg (.appChangeInfo info) | .msg (.windowChangeInfo info) =>
      w.isForeign info → ¬ w.Overdue caps (input.clock 0).now (input.clock 0).now
    | .timeout poll =>
      (input.pollValue = 0 ∨ ∃ info, poll = .ok info ∧ w.isForeign info) →
        ¬ w.Overdue caps (input.clock 0).now (input.clock 0).now
    | _ => True

variable {caps} {w : FocusWorker} {input : Input}

/-! ### The end of an iteration -/

theorem coalesce_not_over (clock : Nat → Tick) :
    (w.coalesce caps clock).windowOver (clock 30).now = false := by
  unfold coalesce scheduleIfPossible
  split_ifs with hover
  · rfl
  · rfl
  · simpa [windowOver] using hover

/-- The end of an iteration leaves nothing behind. -/
theorem ends_clear (clock : Nat → Tick) :
    ¬ ((w.coalesce caps clock).emitScheduled caps clock).1.Overdue caps (clock 30).now
      (clock 43).now := by
  have hover := @coalesce_not_over caps w clock
  have hclosed : ((w.coalesce caps clock).emitScheduled caps clock).1.windowOver (clock 30).now =
      false := by
    unfold emitScheduled
    split_ifs <;> exact hover
  rintro (⟨-, h⟩ | h)
  · rw [hclosed] at h
    nomatch h
  · unfold emitScheduled at h
    split_ifs at h with hdue
    · nomatch h.1
    · exact hdue h

theorem endsClear_of_proceed {v : FocusWorker} {out : List WindowFocusInfo}
    (h : w.handle caps input = .proceed v out) : w.EndsClear caps input := by
  intro r hr
  unfold iteration at hr
  unfold lookedAt
  rw [h] at hr ⊢
  split_ifs at hr
  obtain rfl := Option.some.inj hr
  exact ends_clear input.clock

theorem endsClear_of_stop (h : w.handle caps input = .stop) : w.EndsClear caps input := by
  intro r hr
  unfold iteration at hr
  rw [h] at hr
  split_ifs at hr

theorem endsClear_iff_of_skip {v : FocusWorker} (hrun : input.shouldStop = false)
    (h : w.handle caps input = .skip v) :
    w.EndsClear caps input ↔ ¬ v.Overdue caps (input.clock 0).now (input.clock 0).now := by
  have hiteration : w.iteration caps input = some (v, []) := by
    unfold iteration
    rw [h, hrun]
    rfl
  unfold EndsClear lookedAt
  rw [hiteration, h]
  simp

/-! ### The handlers that may skip it -/

theorem windowOver_of_open {now : Instant}
    (h : w.coalesceUntil.any fun deadline => now < deadline) : w.windowOver now = false := by
  unfold windowOver
  cases hdeadline : w.coalesceUntil with
  | none => rfl
  | some deadline =>
    rw [hdeadline] at h
    simpa using h

theorem windowOver_of_not_open {now : Instant} (hsome : w.coalesceUntil.isSome)
    (h : ¬ w.coalesceUntil.any fun deadline => now < deadline) : w.windowOver now = true := by
  unfold windowOver
  cases hdeadline : w.coalesceUntil with
  | none =>
    rw [hdeadline] at hsome
    nomatch hsome
  | some deadline =>
    rw [hdeadline] at h
    simpa using h

theorem reconcile_coalesceUntil (pending : String) (clock : Nat → Tick) :
    (w.reconcile pending clock).2.coalesceUntil = w.coalesceUntil := rfl

theorem onWindowChange_clear {title : String} (hrun : input.shouldStop = false)
    (hinput : input.received = .msg (.windowChange title)) :
    w.EndsClear caps input ↔
      (title ≠ "" → w.state.windowTitle ≠ title → w.reconcileActive →
        if w.coalesceUntil.any fun deadline => (input.clock 0).now < deadline then
          ¬ w.EmitDue caps (input.clock 0).now
        else w.coalesceUntil.isSome →
          ∀ kept, (w.reconcile title (clockFrom input.clock 2)).1 ≠ .hold kept) := by
  have hhandle : w.handle caps input = w.onWindowChange title input.clock :=
    handle_windowChange hinput
  unfold onWindowChange at hhandle
  split_ifs at hhandle with hsame hactive hopen
  · refine iff_of_true (endsClear_of_proceed hhandle) fun hne hne' => ?_
    exact absurd hsame (not_or.mpr ⟨hne, hne'⟩)
  · -- the window is still open when the iteration looks at the clock
    obtain ⟨hne, hne'⟩ := not_or.mp hsame
    have hover : (w.keepPending title (input.clock 1)).windowOver (input.clock 0).now = false :=
      windowOver_of_open hopen
    have hdue : (w.keepPending title (input.clock 1)).Overdue caps (input.clock 0).now
        (input.clock 0).now ↔ w.EmitDue caps (input.clock 0).now := by
      unfold Overdue
      rw [hover]
      exact or_iff_right fun h => nomatch h.2
    rw [endsClear_iff_of_skip hrun hhandle, if_pos hopen, hdue]
    exact ⟨fun h _ _ _ => h, fun h => h hne hne' hactive⟩
  · -- the window is over, or there is none
    obtain ⟨hne, hne'⟩ := not_or.mp hsame
    rw [if_neg hopen]
    simp only [ne_eq, hne, not_false_eq_true, hne', hactive, forall_const]
    unfold followDecision at hhandle
    dsimp only at hhandle
    cases hdecision : (w.reconcile title (clockFrom input.clock 2)).1 with
    | accept accepted source =>
      rw [hdecision] at hhandle
      exact iff_of_true (endsClear_of_proceed hhandle) fun _ _ => nofun
    | hold kept =>
      rw [hdecision, reconcile_coalesceUntil] at hhandle
      split_ifs at hhandle with hnone
      · refine iff_of_true (endsClear_of_proceed hhandle) fun hsome => ?_
        rw [Option.isNone_iff_eq_none.mp hnone] at hsome
        nomatch hsome
      · have hsome : w.coalesceUntil.isSome := by simpa [Option.isSome_iff_ne_none] using hnone
        refine iff_of_false ?_ fun h => h hsome kept rfl
        rw [endsClear_iff_of_skip hrun hhandle, not_not]
        exact .inl ⟨rfl, windowOver_of_not_open hsome hopen⟩
  · exact iff_of_true (endsClear_of_proceed hhandle) fun _ _ h => absurd h hactive

theorem foreign_clear {info : ActiveWindowInfo} {flow : Flow} (hrun : input.shouldStop = false)
    (hhandle : w.handle caps input = if w.isForeign info then .skip w else flow)
    (hflow : ∃ v out, flow = .proceed v out) :
    w.EndsClear caps input ↔
      (w.isForeign info → ¬ w.Overdue caps (input.clock 0).now (input.clock 0).now) := by
  split_ifs at hhandle with hforeign
  · rw [endsClear_iff_of_skip hrun hhandle]
    exact ⟨fun h _ => h, fun h => h hforeign⟩
  · obtain ⟨v, out, rfl⟩ := hflow
    exact iff_of_true (endsClear_of_proceed hhandle) fun h => absurd h hforeign

theorem timeout_clear {poll : Except String ActiveWindowInfo} (hrun : input.shouldStop = false)
    (hinput : input.received = .timeout poll) :
    w.EndsClear caps input ↔
      ((input.pollValue = 0 ∨ ∃ info, poll = .ok info ∧ w.isForeign info) →
        ¬ w.Overdue caps (input.clock 0).now (input.clock 0).now) := by
  have hhandle : w.handle caps input = w.onTimeout poll input := handle_timeout hinput
  unfold onTimeout at hhandle
  by_cases hsuspended : input.pollValue = 0
  · rw [if_pos hsuspended] at hhandle
    rw [endsClear_iff_of_skip hrun hhandle]
    exact ⟨fun h _ => h, fun h => h (.inl hsuspended)⟩
  · rw [if_neg hsuspended] at hhandle
    rw [or_iff_right hsuspended]
    cases poll with
    | ok info =>
      rw [foreign_clear hrun hhandle ⟨_, _, rfl⟩]
      exact ⟨fun h ⟨_, heq, hforeign⟩ => h (Except.ok.inj heq ▸ hforeign), fun h hforeign =>
        h ⟨info, rfl, hforeign⟩⟩
    | error errText =>
      refine iff_of_true ?_ fun ⟨_, heq, _⟩ => nomatch heq
      dsimp only at hhandle
      unfold onPollError at hhandle
      split_ifs at hhandle <;> exact endsClear_of_proceed hhandle

theorem onAppChange_clear (pid : Int) (appName : String)
    (hinput : input.received = .msg (.appChange pid appName)) : w.EndsClear caps input := by
  have hhandle : w.handle caps input = w.onAppChange caps pid appName input :=
    handle_appChange hinput
  unfold onAppChange at hhandle
  split_ifs at hhandle <;> exact endsClear_of_proceed hhandle

theorem endsClear_iff_prompt (w : FocusWorker) (input : Input) :
    w.EndsClear caps input ↔ w.Prompt caps input := by
  unfold Prompt
  cases hrun : input.shouldStop with
  | true =>
    refine iff_of_true ?_ nofun
    intro r hr
    unfold iteration at hr
    rw [hrun] at hr
    nomatch hr
  | false =>
    simp only [forall_const]
    split
    · rename_i title hinput
      exact onWindowChange_clear hrun hinput
    · rename_i info hinput
      exact foreign_clear hrun (handle_appChangeInfo hinput) ⟨_, _, rfl⟩
    · rename_i info hinput
      exact foreign_clear hrun (handle_windowChangeInfo hinput) ⟨_, _, rfl⟩
    · rename_i poll hinput
      exact timeout_clear hrun hinput
    · rename_i hwindow happInfo hwindowInfo htimeout
      refine iff_of_true ?_ trivial
      cases hinput : input.received with
      | msg m =>
        cases m with
        | appChange pid appName => exact onAppChange_clear pid appName hinput
        | windowChange title => exact absurd hinput (hwindow title)
        | appChangeInfo info => exact absurd hinput (happInfo info)
        | windowChangeInfo info => exact absurd hinput (hwindowInfo info)
        | stop => exact endsClear_of_stop (handle_stop (.inl hinput))
      | timeout poll => exact absurd hinput (htimeout poll)
      | disconnected => exact endsClear_of_stop (handle_stop (.inr hinput))

/-- The iterations of a run end without overdue work just if each of them is prompt. -/
theorem no_overdue_work_iff (caps : FocusCacheCaps) (now : DateTime) (inputs : List Input) :
    (machine caps).Along (EndsClear caps) (new caps now) inputs ↔
      (machine caps).Along (Prompt caps) (new caps now) inputs :=
  Machine.along_congr (I := fun _ => True) (fun w input _ => endsClear_iff_prompt w input)
    (fun _ _ _ _ _ => trivial) trivial inputs

/-- Two seconds without a message while polls are suspended. -/
def suspendedTimeout : Input := { Input.sample 2010 (.timeout (.error "")) with pollValue := 0 }

/-- Editor's second title is to be emitted at 110 ms; two seconds later it has not been. -/
theorem suspended_leaves_focus :
    ∃ w, (machine .sample).exec (new .sample 0)
        [.sample 0 (.msg (.appChangeInfo ⟨"notes.txt", "Editor", 1, 5⟩)),
          .sample 10 (.msg (.windowChange "todo.txt"))] = some w ∧
      ¬ w.EndsClear .sample suspendedTimeout := by
  have hrun : ((machine .sample).exec (new .sample 0)
      [.sample 0 (.msg (.appChangeInfo ⟨"notes.txt", "Editor", 1, 5⟩)),
        .sample 10 (.msg (.windowChange "todo.txt"))]).map (fun w =>
          (w.iteration .sample suspendedTimeout).any fun r =>
            r.1.Overdue .sample (w.lookedAt .sample suspendedTimeout).1
              (w.lookedAt .sample suspendedTimeout).2) = some true := by
    decide
  obtain ⟨w, hw, hany⟩ := Option.map_eq_some_iff.mp hrun
  refine ⟨w, hw, fun hclear => ?_⟩
  obtain ⟨r, hr, hoverdue⟩ := (Option.any_eq_true _ _).mp hany
  exact hclear r hr (of_decide_eq_true hoverdue)

end Kronical.FocusWorker
