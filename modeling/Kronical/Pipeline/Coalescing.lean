import Kronical.Pipeline.LockCoherence

/-!
# Coalesced updates

The updates sent for a batch are compared with one update for each envelope of its trace. What the
snapshot stage would hold if the pending update were applied at once follows the stage that applies
every envelope's own update, up to the focus (`Follows`): counters, state and transitions always
agree. The focus does not: an update applies its focus before its title whatever came first, so a
title noted before a focus of the same window overwrites that focus's own title. `staleTitle` says
when that is so at the end of a batch, and the two ways agree exactly when it is not
(`coalesced_eq_each_iff`).
-/

namespace Kronical

/-! ### Applying updates -/

namespace SnapshotStage

def applyAll (self : SnapshotStage) (updates : List SnapshotUpdate) : SnapshotStage :=
  updates.foldl (fun stage update => (stage.applyUpdate update).1) self

theorem applyAll_append (self : SnapshotStage) (updates updates' : List SnapshotUpdate) :
    self.applyAll (updates ++ updates') = (self.applyAll updates).applyAll updates' :=
  List.foldl_append

/-- An update for every envelope. -/
def applyEach (self : SnapshotStage) (xs : List Traced) : SnapshotStage :=
  self.applyAll (xs.map (note .default))

theorem applyUpdate_default (self : SnapshotStage) : (self.applyUpdate .default).1 = self := by
  unfold applyUpdate
  dsimp only [SnapshotUpdate.default]
  rw [satAdd_zero, satAdd_zero]
  rfl

theorem applyUpdate_of_isEmpty (self : SnapshotStage) {update : SnapshotUpdate}
    (h : update.isEmpty = true) : (self.applyUpdate update).1 = self := by
  have hdefault : update = .default := by
    obtain ⟨hints, signals, focus, title, transition, state⟩ := update
    simpa [SnapshotUpdate.isEmpty, SnapshotUpdate.default, and_assoc] using h
  rw [hdefault, applyUpdate_default]

theorem applyUpdate_note (self : SnapshotStage) {update : SnapshotUpdate} (hupdate : update.Settled)
    (x : Traced) :
    (self.applyUpdate (note update x)).1 =
      { ((self.applyUpdate update).1.applyUpdate (note .default x)).1 with
        currentFocus := focusAfter (note update x) self.currentFocus } := by
  obtain ⟨hints, signals, focus, title, transition, state⟩ := update
  obtain ⟨rfl, rfl⟩ : transition = none ∧ state = none := hupdate
  obtain ⟨⟨id, t, source, kind, payload, derived, polling, sensitive⟩, signalKind⟩ := x
  cases kind <;> cases payload <;>
    simp [note, SnapshotUpdate.count, EventEnvelope.isHint, applyFocusUpdate, applyStateUpdateHint,
      reported, applyUpdate, SnapshotUpdate.default, satAdd_satAdd, satAdd_zero, attachRunId]

end SnapshotStage


/-! ### The window of a title -/

/-- The window in front after an envelope. -/
def windowAfter (window : Option Nat) (env : EventEnvelope) : Option Nat :=
  match env.payload with
  | .focus focus => some focus.windowId
  | _ => window

/-- Every title is one of the window in front. -/
def Windowed : Option Nat → List EventEnvelope → Prop
  | _, [] => True
  | window, env :: envs =>
    (∀ windowId title, env.payload = .title windowId title → window = some windowId) ∧
      Windowed (windowAfter window env) envs

theorem Windowed.append {window : Option Nat} {envs envs' : List EventEnvelope}
    (h : Windowed window envs) (h' : Windowed (envs.foldl windowAfter window) envs') :
    Windowed window (envs ++ envs') := by
  induction envs generalizing window with
  | nil => exact h'
  | cons env envs ih => exact ⟨h.1, ih h.2 h'⟩

/-- The window the adapter has seen last. -/
def EventAdapter.window (self : EventAdapter) : Option Nat := self.lastFocus.map (·.windowId)

theorem observe_windowed {s : EventAdapter × LockDeriver} (hs : LockAgree s) (e : RawEvent) :
    Windowed s.1.window (observe s e).2 ∧
      (observe s e).2.foldl windowAfter s.1.window = (observe s e).1.1.window := by
  have hobserved := (observe_spec hs e).2
  rw [observe_fst]
  generalize (observe s e).2 = out at hobserved
  cases hobserved with
  | keyboard | mouse => exact ⟨⟨nofun, trivial⟩, rfl⟩
  | hidden e hlock hinput =>
    refine ⟨trivial, ?_⟩
    cases e with
    | keyboardInput => rfl
    | mouseInput => rfl
    | windowFocusChange => cases hinput
  | lock | switch | relock | unlock => exact ⟨by repeat' first | constructor | nofun, rfl⟩
  | retitle t id focus was hlock hfocus hlast hwindow =>
    have hback : s.1.window = some focus.windowId := by
      rw [EventAdapter.window, hlast, ← hwindow]
      rfl
    refine ⟨⟨fun windowId title htitle => ?_, trivial⟩, hback⟩
    cases htitle
    exact hback
  | same t id focus was hlast hlogin hwindow htitle =>
    refine ⟨trivial, ?_⟩
    change s.1.window = some focus.windowId
    rw [EventAdapter.window, hlast, ← hwindow]
    rfl

theorem observe_run_windowed {s : EventAdapter × LockDeriver} (hs : LockAgree s)
    (raw : List RawEvent) : Windowed s.1.window (observe.run s raw).2 := by
  induction raw generalizing s with
  | nil => trivial
  | cons e raw ih =>
    obtain ⟨hword, hafter⟩ := observe_windowed hs e
    rw [Transducer.run_cons_snd]
    refine hword.append ?_
    rw [hafter]
    exact ih (observe_spec hs e).1

theorem expand_windowed (deriver : StateDeriver) {window : Option Nat} {envs : List EventEnvelope}
    (h : Windowed window envs) : Windowed window ((expand.run deriver envs).2.map Prod.fst) := by
  induction envs generalizing deriver window with
  | nil => trivial
  | cons env envs ih =>
    rw [Transducer.run_cons_snd, List.map_append]
    have hstep : (expand deriver env).2.map Prod.fst = [env] ∨
        ∃ id now tr, (expand deriver env).2.map Prod.fst = [env, StateDeriver.stateHint id now tr] := by
      unfold expand
      split
      · exact .inl rfl
      · cases hanswer : (deriver.onSignal env).2 with
        | none => exact .inl rfl
        | some hint =>
          obtain ⟨tr, -, rfl⟩ := Option.map_eq_some_iff.mp hanswer
          exact .inr ⟨_, _, tr, rfl⟩
    rcases hstep with hstep | ⟨id, now, tr, hstep⟩
    · rw [hstep]
      exact ⟨h.1, ih _ h.2⟩
    · rw [hstep]
      exact ⟨h.1, nofun, ih _ h.2⟩

/-! ### Stale titles -/

/-- The title pending in the update, and whether it has overwritten the title of a later focus. -/
def staleStep (s : Option (Nat × String) × Bool) (x : Traced) : Option (Nat × String) × Bool :=
  match x.1.payload with
  | .focus focus =>
    (s.1, s.1.any fun pending => pending.1 = focus.windowId ∧ pending.2 ≠ focus.windowTitle)
  | .title windowId title => (some (windowId, title), false)
  | .state _ _ => (none, s.2)
  | _ => s

/-- At the end of some envelopes, the focus has a title that was noted before that focus. -/
def staleTitle (xs : List Traced) : Bool := (xs.foldl staleStep (none, false)).2

namespace SnapshotStage

/-- What a snapshot stage shows and counts, without the focus. -/
def SameBut (stage next : SnapshotStage) : Prop :=
  stage = { next with currentFocus := stage.currentFocus }

/-- The pending update applied to `stage` against `each`, the stage that applies every envelope's own
update: they agree up to the focus, and on the focus up to a stale title. -/
structure Follows (stage : SnapshotStage) (update : SnapshotUpdate) (each : SnapshotStage)
    (window : Option Nat) (s : Option (Nat × String) × Bool) : Prop where
  settled : update.Settled
  pending : update.focusTitle = s.1
  rest : (stage.applyUpdate update).1.SameBut each
  front : ∀ focus ∈ update.focus, window = some focus.windowId
  titled : ∀ pending ∈ update.focusTitle, update.focus = none → window = some pending.1
  fresh : s.2 = false → focusAfter update stage.currentFocus = each.currentFocus
  stale : s.2 = true → ∃ focus title, each.currentFocus = some focus ∧
    focusAfter update stage.currentFocus = some (focus.setTitle title) ∧
    title ≠ focus.windowTitle ∧ window = some focus.windowId

theorem applyUpdate_focus (self : SnapshotStage) (update : SnapshotUpdate) :
    (self.applyUpdate update).1.currentFocus = focusAfter update self.currentFocus := by
  unfold applyUpdate
  cases update.transition <;> rfl

theorem retitle_of_eq {focus : WindowFocusInfo} {windowId : Nat} (h : focus.windowId = windowId)
    (title : String) : retitle focus windowId title = focus.setTitle title := if_pos h

theorem retitle_retitle (focus : WindowFocusInfo) (windowId : Nat) (title next : String) :
    retitle (retitle focus windowId title) windowId next = retitle focus windowId next := by
  unfold retitle
  by_cases h : focus.windowId = windowId
  · rw [if_pos h, if_pos h, if_pos (show (focus.setTitle title).windowId = windowId from h),
      WindowFocusInfo.setTitle_setTitle]
  · rw [if_neg h, if_neg h]

theorem focusAfter_note (update : SnapshotUpdate) (x : Traced) (focus : Option WindowFocusInfo) :
    focusAfter (note update x) focus =
      match x.1.payload with
      | .focus next => focusAfter { update with focus := some next } none
      | .title windowId title => (update.focus.or focus).map (retitle · windowId title)
      | _ => focusAfter update focus := by
  obtain ⟨hints, signals, uf, ut, transition, state⟩ := update
  obtain ⟨⟨id, t, source, kind, payload, derived, polling, sensitive⟩, signalKind⟩ := x
  cases kind <;> cases payload <;> cases ut <;> rfl

theorem focusAfter_refocused (update : SnapshotUpdate) (next : WindowFocusInfo) :
    if update.focusTitle.any (fun pending =>
        pending.1 = next.windowId ∧ pending.2 ≠ next.windowTitle) then
      ∃ title, title ≠ next.windowTitle ∧
        focusAfter { update with focus := some next } none = some (next.setTitle title)
    else focusAfter { update with focus := some next } none = some next := by
  obtain ⟨hints, signals, uf, ut, transition, state⟩ := update
  rcases ut with _ | ⟨windowId, title⟩
  · rfl
  · have hfocus : ∀ u : SnapshotUpdate, u.focusTitle = some (windowId, title) →
        focusAfter { u with focus := some next } none = some (retitle next windowId title) := by
      intro u hu
      rw [focusAfter, show ({ u with focus := some next } : SnapshotUpdate).focusTitle = _ from hu]
      rfl
    rw [hfocus _ rfl, retitle]
    by_cases hwindow : next.windowId = windowId
    · rw [if_pos hwindow]
      by_cases htitle : title = next.windowTitle
      · rw [(WindowFocusInfo.setTitle_eq_self_iff next title).mpr htitle]
        simp [htitle]
      · rw [if_pos (by simp [hwindow, htitle])]
        exact ⟨title, htitle, rfl⟩
    · rw [if_neg hwindow]
      simp [Ne.symm hwindow]

theorem note_fields (update : SnapshotUpdate) (x : Traced) :
    (note update x).focus =
        (match x.1.payload with | .focus next => some next | _ => update.focus) ∧
      (note update x).focusTitle =
        match x.1.payload with
        | .title windowId title => some (windowId, title)
        | _ => update.focusTitle := by
  obtain ⟨hints, signals, uf, ut, transition, state⟩ := update
  obtain ⟨⟨id, t, source, kind, payload, derived, polling, sensitive⟩, signalKind⟩ := x
  cases kind <;> cases payload <;> exact ⟨rfl, rfl⟩

theorem SameBut.applyUpdate {stage next : SnapshotStage} (h : stage.SameBut next)
    (update : SnapshotUpdate) :
    (stage.applyUpdate update).1.SameBut (next.applyUpdate update).1 := by
  rw [SameBut] at h
  rw [h]
  unfold SameBut SnapshotStage.applyUpdate
  cases update.transition <;> rfl

theorem transitionOf_eq_none {x : Traced}
    (h : ∀ fromState toState, x.1.payload ≠ .state fromState toState) : transitionOf x = none := by
  unfold transitionOf reported
  split
  · rename_i fromState toState hpayload
    exact absurd hpayload (h fromState toState)
  · rfl

theorem retitle_pending {update : SnapshotUpdate} {window : Option Nat}
    (hfront : ∀ focus ∈ update.focus, window = some focus.windowId)
    (htitled : ∀ pending ∈ update.focusTitle, update.focus = none → window = some pending.1)
    {windowId : Nat} (hwindow : window = some windowId) (focus : Option WindowFocusInfo)
    (title : String) :
    (update.focus.or focus).map (retitle · windowId title) =
      (focusAfter update focus).map (retitle · windowId title) := by
  unfold focusAfter
  split
  · rename_i w t hpending
    rw [Option.map_map]
    by_cases hw : w = windowId
    · refine congrArg (Option.map · _) (funext fun f => ?_)
      rw [hw]
      exact (retitle_retitle f windowId t title).symm
    · cases hfocus : update.focus with
      | none =>
        have hback := htitled (w, t) hpending hfocus
        exact absurd (Option.some.inj (hback.symm.trans hwindow)) hw
      | some f =>
        have hid : f.windowId = windowId := Option.some.inj ((hfront f hfocus).symm.trans hwindow)
        have hkeep : retitle f w t = f := if_neg (hid ▸ Ne.symm hw)
        show some (retitle f windowId title) = some (retitle (retitle f w t) windowId title)
        rw [hkeep]
  · rfl

theorem Follows.rest_note {stage each : SnapshotStage} {update : SnapshotUpdate}
    {window : Option Nat} {s : Option (Nat × String) × Bool}
    (h : stage.Follows update each window s) (x : Traced) :
    (stage.applyUpdate (note update x)).1.SameBut (each.applyUpdate (note .default x)).1 := by
  have hsame := h.rest.applyUpdate (note .default x)
  rw [applyUpdate_note stage h.settled]
  rw [SameBut] at hsame ⊢
  rw [hsame]

theorem applyUpdate_note_focus (each : SnapshotStage) (x : Traced) :
    (each.applyUpdate (note .default x)).1.currentFocus =
      match x.1.payload with
      | .focus next => some next
      | .title windowId title => each.currentFocus.map (retitle · windowId title)
      | _ => each.currentFocus := by
  rw [applyUpdate_focus, focusAfter_note]
  cases x.1.payload <;> rfl

theorem Follows.note_other {stage each : SnapshotStage} {update : SnapshotUpdate}
    {window : Option Nat} {s : Option (Nat × String) × Bool}
    (h : stage.Follows update each window s) {x : Traced} (hx : transitionOf x = none)
    (hfocus : (note update x).focus = update.focus)
    (htitle : (note update x).focusTitle = update.focusTitle)
    (hstage : focusAfter (note update x) stage.currentFocus = focusAfter update stage.currentFocus)
    (heach : (each.applyUpdate (note .default x)).1.currentFocus = each.currentFocus) :
    stage.Follows (note update x) (each.applyUpdate (note .default x)).1 window s := by
  constructor
  · exact note_of_none h.settled hx
  · exact htitle.trans h.pending
  · exact h.rest_note x
  · exact fun focus hmem => h.front focus (hfocus ▸ hmem)
  · exact fun pending hmem hno => h.titled pending (htitle ▸ hmem) (hfocus ▸ hno)
  · exact fun hs => hstage.trans ((h.fresh hs).trans heach.symm)
  · intro hs
    obtain ⟨focus, title, hback, hfront, hne, hwin⟩ := h.stale hs
    exact ⟨focus, title, heach.trans hback, hstage.trans hfront, hne, hwin⟩

theorem Follows.note_focus {stage each : SnapshotStage} {update : SnapshotUpdate}
    {window : Option Nat} {s : Option (Nat × String) × Bool}
    (h : stage.Follows update each window s) {x : Traced} {next : WindowFocusInfo}
    (hx : x.1.payload = .focus next) :
    stage.Follows (note update x) (each.applyUpdate (note .default x)).1 (some next.windowId)
      (s.1, s.1.any fun pending =>
        pending.1 = next.windowId ∧ pending.2 ≠ next.windowTitle) := by
  have hnone : transitionOf x = none := transitionOf_eq_none (by simp [hx])
  obtain ⟨hfocus, htitle⟩ := note_fields update x
  have hstage := focusAfter_note update x stage.currentFocus
  have heach := applyUpdate_note_focus each x
  have hrefocused := focusAfter_refocused update next
  rw [hx] at hfocus htitle hstage heach
  constructor
  · exact note_of_none h.settled hnone
  · exact htitle.trans h.pending
  · exact h.rest_note x
  · intro focus hmem
    rw [hfocus] at hmem
    rw [Option.mem_some.mp hmem]
  · intro pending _ hno
    rw [hfocus] at hno
    cases hno
  · intro hs
    rw [if_neg (by rw [h.pending]; simpa using hs)] at hrefocused
    exact hstage.trans (hrefocused.trans heach.symm)
  · intro hs
    rw [if_pos (by rw [h.pending]; simpa using hs)] at hrefocused
    obtain ⟨title, hne, hfront⟩ := hrefocused
    exact ⟨next, title, heach, hstage.trans hfront, hne, rfl⟩

theorem Follows.note_title {stage each : SnapshotStage} {update : SnapshotUpdate}
    {window : Option Nat} {s : Option (Nat × String) × Bool}
    (h : stage.Follows update each window s) {x : Traced} {windowId : Nat} {title : String}
    (hx : x.1.payload = .title windowId title) (hwindow : window = some windowId) :
    stage.Follows (note update x) (each.applyUpdate (note .default x)).1 window
      (some (windowId, title), false) := by
  have hnone : transitionOf x = none := transitionOf_eq_none (by simp [hx])
  obtain ⟨hfocus, htitle⟩ := note_fields update x
  have hstage := focusAfter_note update x stage.currentFocus
  have heach := applyUpdate_note_focus each x
  rw [hx] at hfocus htitle hstage heach
  dsimp only at hfocus htitle hstage heach
  constructor
  · exact note_of_none h.settled hnone
  · exact htitle
  · exact h.rest_note x
  · exact fun focus hmem => h.front focus (hfocus ▸ hmem)
  · intro pending hmem _
    rw [htitle] at hmem
    rw [← Option.mem_some.mp hmem]
    exact hwindow
  · intro _
    rw [hstage, heach, retitle_pending h.front h.titled hwindow]
    cases hs : s.2 with
    | false => rw [h.fresh hs]
    | true =>
      obtain ⟨focus, last, hback, hfront, -, hwin⟩ := h.stale hs
      have hid : focus.windowId = windowId := Option.some.inj (hwin.symm.trans hwindow)
      have hretitled : (focus.setTitle last).windowId = windowId := hid
      rw [hback, hfront, Option.map_some, Option.map_some, retitle_of_eq hid,
        retitle_of_eq hretitled, WindowFocusInfo.setTitle_setTitle]
  · nofun

theorem Follows.flush_state {stage each : SnapshotStage} {update : SnapshotUpdate}
    {window : Option Nat} {s : Option (Nat × String) × Bool}
    (h : stage.Follows update each window s) {x : Traced} {fromState toState : ActivityState}
    (hx : x.1.payload = .state fromState toState) :
    (stage.applyUpdate (note update x)).1.Follows .default (each.applyUpdate (note .default x)).1
      window (none, s.2) := by
  have hstage : focusAfter SnapshotUpdate.default
      (stage.applyUpdate (note update x)).1.currentFocus =
        focusAfter update stage.currentFocus := by
    have hnoted := focusAfter_note update x stage.currentFocus
    rw [hx] at hnoted
    exact (applyUpdate_focus ..).trans hnoted
  have heach := applyUpdate_note_focus each x
  rw [hx] at heach
  constructor
  · exact SnapshotUpdate.settled_default
  · rfl
  · rw [applyUpdate_default]
    exact h.rest_note x
  · nofun
  · nofun
  · exact fun hs => hstage.trans ((h.fresh hs).trans heach.symm)
  · intro hs
    obtain ⟨focus, title, hback, hfront, hne, hwin⟩ := h.stale hs
    exact ⟨focus, title, heach.trans hback, hstage.trans hfront, hne, hwin⟩

/-- One envelope, noted in the pending update and applied on its own. -/
theorem Follows.collect {stage each : SnapshotStage} {update : SnapshotUpdate} {window : Option Nat}
    {s : Option (Nat × String) × Bool} (h : stage.Follows update each window s) (x : Traced)
    (hx : ∀ windowId title, x.1.payload = .title windowId title → window = some windowId) :
    (stage.applyAll (updatesOf (collect update x).2)).Follows (collect update x).1
      (each.applyUpdate (note .default x)).1 (windowAfter window x.1) (staleStep s x) := by
  unfold windowAfter staleStep
  cases hpayload : x.1.payload with
  | state fromState toState =>
    have hsome : transitionOf x = some
        { fromState, toState, atTime := x.1.timestamp, bySignal := transitionReason x.1 x.2,
          runId := none } := by
      unfold transitionOf reported
      rw [hpayload]
    obtain ⟨hnext, hsent⟩ := collect_of_some update hsome
    rw [hnext, hsent]
    exact h.flush_state hpayload
  | focus next =>
    obtain ⟨hnext, hsent⟩ := collect_of_none h.settled (x := x) (transitionOf_eq_none (by simp [hpayload]))
    rw [hnext, hsent]
    exact h.note_focus hpayload
  | title windowId title =>
    obtain ⟨hnext, hsent⟩ := collect_of_none h.settled (x := x) (transitionOf_eq_none (by simp [hpayload]))
    rw [hnext, hsent]
    exact h.note_title hpayload (hx windowId title hpayload)
  | keyboard | mouse | lock | none =>
    have hnone : transitionOf x = none := transitionOf_eq_none (by simp [hpayload])
    obtain ⟨hnext, hsent⟩ := collect_of_none h.settled hnone
    obtain ⟨hfocus, htitle⟩ := note_fields update x
    have hstage := focusAfter_note update x stage.currentFocus
    have heach := applyUpdate_note_focus each x
    rw [hnext, hsent]
    rw [hpayload] at hfocus htitle hstage heach
    exact h.note_other hnone hfocus htitle hstage heach

theorem applyEach_cons (self : SnapshotStage) (x : Traced) (xs : List Traced) :
    self.applyEach (x :: xs) = (self.applyUpdate (note .default x)).1.applyEach xs := rfl

/-- The envelopes of a trace, noted in the pending update and applied one by one. -/
theorem Follows.run {stage each : SnapshotStage} {update : SnapshotUpdate} {window : Option Nat}
    {s : Option (Nat × String) × Bool} (h : stage.Follows update each window s) (xs : List Traced)
    (hxs : Windowed window (xs.map Prod.fst)) :
    (stage.applyAll (updatesOf (Kronical.collect.run update xs).2)).Follows
      (Kronical.collect.run update xs).1 (each.applyEach xs)
      ((xs.map Prod.fst).foldl windowAfter window) (xs.foldl staleStep s) := by
  induction xs generalizing stage each update window s with
  | nil => exact h
  | cons x xs ih =>
    have hnext := ih (h.collect x hxs.1) hxs.2
    rw [Transducer.run_cons_snd, updatesOf_append, applyAll_append, applyEach_cons]
    exact hnext

theorem follows_default (stage : SnapshotStage) (window : Option Nat) :
    stage.Follows .default stage window (none, false) := by
  constructor
  · exact SnapshotUpdate.settled_default
  · rfl
  · rw [SameBut, applyUpdate_default]
  · nofun
  · nofun
  · exact fun _ => rfl
  · nofun

theorem Follows.focus_eq_iff {stage each : SnapshotStage} {update : SnapshotUpdate}
    {window : Option Nat} {s : Option (Nat × String) × Bool}
    (h : stage.Follows update each window s) :
    (stage.applyUpdate update).1.currentFocus = each.currentFocus ↔ s.2 = false := by
  rw [applyUpdate_focus]
  constructor
  · intro heq
    by_contra hs
    obtain ⟨focus, title, hback, hfront, hne, -⟩ := h.stale (by simpa using hs)
    rw [hback, hfront] at heq
    exact hne ((WindowFocusInfo.setTitle_eq_self_iff focus title).mp (Option.some.inj heq))
  · exact h.fresh

end SnapshotStage

/-! ### Batches -/

namespace EnvelopeStage

theorem windowed_trace {self : EnvelopeStage} (hself : self.LockCoherent) (batch : RawBatch) :
    Windowed self.adapter.window ((self.trace (some (.batch batch))).2.map Prod.fst) := by
  unfold trace
  dsimp only
  by_cases hempty : batch.isEmpty
  · rw [if_pos hempty]
    trivial
  · rw [if_neg hempty]
    refine expand_windowed _ ?_
    have hrun := observe_run_windowed hself.agree batch.events
    rwa [derive_adaptBatch] at hrun

theorem applyAll_handle (self : EnvelopeStage) (batch : RawBatch) (stage : SnapshotStage) :
    stage.applyAll (updatesOf (self.handle (some (.batch batch))).2) =
      ((stage.applyAll
        (updatesOf (collect.run .default (self.trace (some (.batch batch))).2).2)).applyUpdate
          (collect.run .default (self.trace (some (.batch batch))).2).1).1 := by
  rw [handle_eq, updatesOf_append, SnapshotStage.applyAll_append]
  unfold closing
  dsimp only
  by_cases hempty : batch.isEmpty
  · have htrace : (self.trace (some (.batch batch))).2 = [] := by
      simp only [trace, if_pos hempty]
    rw [if_pos hempty, htrace]
    exact (SnapshotStage.applyUpdate_default stage).symm
  · rw [if_neg hempty]
    unfold closeUpdate
    split_ifs with hupdate
    · exact (SnapshotStage.applyUpdate_of_isEmpty _ hupdate).symm
    · rfl

end EnvelopeStage

/-- For every batch after any commands, and every snapshot stage: applying the updates sent for the
batch gives the same focus, state, last transition and counts as applying one update for each of its
envelopes and state hints, if and only if the batch leaves no stale title. -/
theorem coalesced_eq_each_iff (startedAt : DateTime) (grace idle : Nat)
    (earlier : List DeriveCommand) (batch : RawBatch) (stage : SnapshotStage) :
    let envelope := (EnvelopeStage.loop.run (.new startedAt grace idle) (earlier.map some)).1
    let traced := (envelope.trace (some (.batch batch))).2
    let coalesced := stage.applyAll (updatesOf (envelope.handle (some (.batch batch))).2)
    let each := stage.applyEach traced
    (coalesced.currentFocus = each.currentFocus ∧ coalesced.currentState = each.currentState ∧
        coalesced.lastTransition = each.lastTransition ∧ coalesced.counts = each.counts) ↔
      staleTitle traced = false := by
  intro envelope traced coalesced each
  have henvelope : envelope.LockCoherent := by
    have hnew := EnvelopeStage.lockCoherent_new startedAt grace idle
    rw [show envelope = _ from (EnvelopeStage.loop_run _ (earlier.map some)).1]
    exact (hnew.derived_run (earlier.map some)).1
  have hfollows := (SnapshotStage.follows_default stage envelope.adapter.window).run traced
    (envelope.windowed_trace henvelope batch)
  have hfocus := hfollows.focus_eq_iff
  have hrest := hfollows.rest
  rw [← envelope.applyAll_handle batch stage] at hfocus hrest
  change coalesced.SameBut each at hrest
  rw [SnapshotStage.SameBut] at hrest
  constructor
  · exact fun h => hfocus.mp h.1
  · intro hstale
    refine ⟨hfocus.mpr hstale, ?_, ?_, ?_⟩
    · rw [hrest]
    · rw [hrest]
    · rw [hrest]

/-- In one batch the window in front is retitled, another app comes to the front, and the window is
back with a third title: the published focus then has the second one. -/
theorem stale_title_published :
    ¬ (let envelope := (EnvelopeStage.loop.run (.new 0 30 300)
          ([DeriveCommand.batch ⟨[.windowFocusChange 1 1 (.sample "Editor" "a" 1)], .timeout⟩].map
            some)).1
      let batch : RawBatch := ⟨[.windowFocusChange 2 2 (.sample "Editor" "b" 1),
        .windowFocusChange 3 3 (.sample "Browser" "x" 2),
        .windowFocusChange 4 4 (.sample "Editor" "c" 1)], .timeout⟩
      let stage := SnapshotStage.new (.new none) 60 [] [] 0
      let coalesced := stage.applyAll (updatesOf (envelope.handle (some (.batch batch))).2)
      let each := stage.applyEach (envelope.trace (some (.batch batch))).2
      coalesced.currentFocus = each.currentFocus ∧ coalesced.currentState = each.currentState ∧
        coalesced.lastTransition = each.lastTransition ∧ coalesced.counts = each.counts) := by
  decide

end Kronical
