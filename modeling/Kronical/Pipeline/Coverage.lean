import Kronical.Pipeline.MaximalRuns

/-!
# Which raw events a compact event points to

Every compact event points to raw events of its batch. Over a whole batch these are all focus changes
and all keystrokes, the wheel events if there are at least two, and the movements on paths of at least
three, each of them pointed to once (`compressEvents_links`).
-/

namespace Kronical

def CompactEvent.rawEventIds : CompactEvent → Option RawEventPointer
  | .scroll s => s.rawEventIds
  | .mouseTrajectory t => t.rawEventIds
  | .keyboard k => k.rawEventIds
  | .focus f => f.rawEventIds

/-- The links point to the default table, and to these events, each once. -/
def Linked (links : List (Option RawEventPointer)) (ids : List Nat) : Prop :=
  ∃ groups : List (List Nat), links = groups.map (fun group => some ⟨defaultRawEventTable, group⟩) ∧
    groups.flatten.Perm ids

theorem linked_nil : Linked [] [] := ⟨[], rfl, .refl _⟩

theorem Linked.append {links links' : List (Option RawEventPointer)} {ids ids' : List Nat}
    (h : Linked links ids) (h' : Linked links' ids') : Linked (links ++ links') (ids ++ ids') := by
  obtain ⟨groups, rfl, hids⟩ := h
  obtain ⟨groups', rfl, hids'⟩ := h'
  refine ⟨groups ++ groups', List.map_append.symm, ?_⟩
  rw [List.flatten_append]
  exact hids.append hids'

theorem Linked.perm {links : List (Option RawEventPointer)} {ids ids' : List Nat}
    (h : Linked links ids) (hperm : ids.Perm ids') : Linked links ids' := by
  obtain ⟨groups, hlinks, hids⟩ := h
  exact ⟨groups, hlinks, hids.trans hperm⟩

theorem Linked.mem_iff {links : List (Option RawEventPointer)} {ids : List Nat} (h : Linked links ids)
    (id : Nat) :
    (∃ ids, some ⟨defaultRawEventTable, ids⟩ ∈ links ∧ id ∈ ids) ↔ id ∈ ids := by
  obtain ⟨groups, rfl, hids⟩ := h
  rw [← hids.mem_iff, List.mem_flatten]
  constructor
  · rintro ⟨group, hmem, hid⟩
    obtain ⟨group', hgroup', heq⟩ := List.mem_map.mp hmem
    have hsame : group' = group := (RawEventPointer.mk.inj (Option.some.inj heq)).2
    exact ⟨group', hgroup', hsame ▸ hid⟩
  · rintro ⟨group, hgroup, hid⟩
    exact ⟨group, List.mem_map.mpr ⟨group, hgroup, rfl⟩, hid⟩

theorem linked_runs {ι κ : Type} {close : List ι → List κ} {link : κ → Option RawEventPointer}
    {eventId : ι → Nat} (runs : List (List ι))
    (h : ∀ run ∈ runs,
      (close run).map link = [some ⟨defaultRawEventTable, run.map eventId⟩]) :
    Linked ((runs.flatMap close).map link) (runs.flatten.map eventId) := by
  induction runs with
  | nil => exact linked_nil
  | cons run runs ih =>
    rw [List.flatMap_cons, List.map_append, List.flatten_cons, List.map_append,
      h run List.mem_cons_self]
    refine .append ⟨[run.map eventId], rfl, ?_⟩ (ih fun run hmem => h run (List.mem_cons_of_mem _ hmem))
    rw [List.flatten_singleton]

/-! ### The compressors -/

namespace ScrollCompressor

theorem extendSequence_link {sequence : CompactScrollSequence} {ids : List Nat}
    (h : sequence.rawEventIds = some ⟨defaultRawEventTable, ids⟩) (burst : List ScrollEvent) :
    (burst.foldl extendSequence sequence).rawEventIds =
      some ⟨defaultRawEventTable, ids ++ burst.map (·.eventId)⟩ := by
  induction burst generalizing sequence ids with
  | nil => rw [List.foldl_nil, List.map_nil, List.append_nil, h]
  | cons e burst ih =>
    have hstep : (extendSequence sequence e).rawEventIds =
        some ⟨defaultRawEventTable, ids ++ [e.eventId]⟩ := by
      rw [extendSequence, h]
    rw [List.foldl_cons, ih hstep, List.append_assoc]
    rfl

theorem compress_links (self : ScrollCompressor) (events : List RawEvent) :
    Linked ((self.compress events).map (·.rawEventIds))
      ((extractScrollEvents events).map (·.eventId)) := by
  have hlinks : Linked ((self.compress events).map (·.rawEventIds))
      (((extractScrollEvents events).splitBy self.joined).flatten.map (·.eventId)) := by
    rw [compress_eq]
    refine linked_runs _ fun burst hburst => ?_
    cases burst with
    | nil => exact absurd rfl (List.ne_nil_of_mem_splitBy hburst)
    | cons e burst =>
      have hopen : (openSequence e).rawEventIds = some ⟨defaultRawEventTable, [e.eventId]⟩ := rfl
      rw [sequenceOf, List.map_singleton, extendSequence_link hopen]
      rfl
  rwa [List.flatten_splitBy] at hlinks

end ScrollCompressor

namespace MouseTrajectoryCompressor

/-- The movements on maximal paths of at least three. -/
def longPaths (self : MouseTrajectoryCompressor) (events : List RawEvent) : List (List MouseEvent) :=
  ((extractMouseEvents events).splitBy self.joined).filter fun path => 2 < path.length

theorem compress_longPaths (self : MouseTrajectoryCompressor) (events : List RawEvent) :
    self.compress events = (self.longPaths events).flatMap self.trajectoryOf := by
  rw [compress_eq, longPaths]
  induction (extractMouseEvents events).splitBy self.joined with
  | nil => rfl
  | cons path paths ih =>
    by_cases hlong : 2 < path.length
    · rw [List.filter_cons_of_pos (by simpa using hlong), List.flatMap_cons, List.flatMap_cons, ih]
    · rw [List.filter_cons_of_neg (by simpa using hlong), List.flatMap_cons, ih,
        self.trajectoryOf_eq_nil (by omega), List.nil_append]

theorem compress_links (self : MouseTrajectoryCompressor) (events : List RawEvent) :
    Linked ((self.compress events).map (·.rawEventIds))
      ((self.longPaths events).flatten.map (·.eventId)) := by
  rw [compress_longPaths]
  refine linked_runs _ fun path hpath => ?_
  obtain ⟨-, hlong⟩ := List.mem_filter.mp hpath
  match path with
  | first :: second :: third :: rest =>
    obtain ⟨last, hlast⟩ : ∃ last, (first :: second :: third :: rest).getLast? = some last :=
      ⟨_, List.getLast?_eq_some_getLast (List.cons_ne_nil _ _)⟩
    rw [trajectoryOf, hlast]
    rfl
  | [] => cases hlong
  | [_] => cases hlong
  | [_, _] => cases hlong

end MouseTrajectoryCompressor

namespace KeyboardActivityCompressor

theorem compress_links (self : KeyboardActivityCompressor) (events : List RawEvent) :
    Linked ((self.compress events).map (·.rawEventIds))
      ((extractKeyboardEvents events).map (·.1)) := by
  have hlinks : Linked ((self.compress events).map (·.rawEventIds))
      (((sortedKeys events).splitBy self.joined).flatten.map (·.1)) := by
    rw [compress_eq]
    refine linked_runs _ fun burst hburst => ?_
    cases burst with
    | nil => exact absurd rfl (List.ne_nil_of_mem_splitBy hburst)
    | cons key burst =>
      obtain ⟨last, hlast⟩ : ∃ last, (key :: burst).getLast? = some last :=
        ⟨_, List.getLast?_eq_some_getLast (List.cons_ne_nil _ _)⟩
      rw [activityOf, hlast]
      rfl
  rw [List.flatten_splitBy] at hlinks
  exact hlinks.perm ((List.perm_insertionSort _ _).map _)

end KeyboardActivityCompressor

namespace FocusEventProcessor

def focusIds (events : List RawEvent) : List Nat :=
  events.filterMap fun
    | .windowFocusChange _ eventId _ => some eventId
    | _ => none

theorem compress_links (self : FocusEventProcessor) (events : List RawEvent) :
    Linked ((self.compress events).2.map (·.rawEventIds)) (focusIds events) := by
  unfold compress focusIds
  induction events generalizing self with
  | nil => exact linked_nil
  | cons e events ih =>
    rw [Transducer.run_cons_snd, List.map_append]
    cases e with
    | windowFocusChange timestamp eventId focusInfo =>
      exact .append ⟨[[eventId]], rfl, .refl _⟩ (ih _)
    | keyboardInput => exact ih _
    | mouseInput => exact ih _

end FocusEventProcessor

/-! ### The engine -/

/-- The raw events of a batch that its compact events stand for. -/
def coveredIds (events : List RawEvent) : List Nat :=
  (if 1 < (ScrollCompressor.extractScrollEvents events).length then
    (ScrollCompressor.extractScrollEvents events).map (·.eventId) else []) ++
  (MouseTrajectoryCompressor.new.longPaths events).flatten.map (·.eventId) ++
  (KeyboardActivityCompressor.extractKeyboardEvents events).map (·.1) ++
  FocusEventProcessor.focusIds events

namespace CompressionEngine

theorem trajectories_eq (self : MouseTrajectoryCompressor) (events : List RawEvent) :
    (if MouseTrajectoryCompressor.canCompress events then self.compress events else []) =
      self.compress events := by
  unfold MouseTrajectoryCompressor.canCompress MouseTrajectoryCompressor.compress
  by_cases hlong : 2 < (MouseTrajectoryCompressor.extractMouseEvents events).length
  · rw [if_pos (by simpa using hlong)]
  · rw [if_neg (by simpa using hlong)]
    dsimp only
    rw [if_pos (by omega)]

theorem keyboards_eq (self : KeyboardActivityCompressor) (events : List RawEvent) :
    (if KeyboardActivityCompressor.canCompress events then self.compress events else []) =
      self.compress events := by
  by_cases hkeys : KeyboardActivityCompressor.canCompress events
  · rw [if_pos hkeys]
  · have hnone : KeyboardActivityCompressor.extractKeyboardEvents events = [] := by
      refine List.filterMap_eq_nil_iff.mpr fun e he => ?_
      cases e with
      | keyboardInput => exact absurd (List.any_eq_true.mpr ⟨_, he, rfl⟩) hkeys
      | mouseInput => rfl
      | windowFocusChange => rfl
    rw [if_neg hkeys, KeyboardActivityCompressor.compress, hnone]
    rfl

theorem focused_eq (self : FocusEventProcessor) (events : List RawEvent) :
    (if FocusEventProcessor.canCompress events then self.compress events else (self, [])) =
      self.compress events := by
  by_cases hfocus : FocusEventProcessor.canCompress events
  · rw [if_pos hfocus]
  · rw [if_neg hfocus]
    unfold FocusEventProcessor.canCompress at hfocus
    unfold FocusEventProcessor.compress
    induction events with
    | nil => rfl
    | cons e events ih =>
      rw [List.any_cons, Bool.or_eq_true, not_or] at hfocus
      rw [Transducer.run_cons]
      cases e with
      | windowFocusChange => exact absurd rfl hfocus.1
      | keyboardInput => exact ih hfocus.2
      | mouseInput => exact ih hfocus.2

/-- The compact events of a batch point to the events they cover. -/
theorem compressEvents_links {self : CompressionEngine} (hmouse : self.mouseCompressor = .new)
    (events : List RawEvent) :
    Linked ((self.compressEvents events).2.2.map (·.rawEventIds)) (coveredIds events) := by
  by_cases hempty : events.isEmpty
  · rw [compressEvents, if_pos hempty, List.isEmpty_iff.mp hempty]
    exact linked_nil
  · rw [compressEvents, if_neg hempty, trajectories_eq, keyboards_eq, focused_eq]
    simp only [List.map_append, List.map_map]
    have hscroll : Linked
        ((if ScrollCompressor.canCompress events then self.scrollCompressor.compress events
          else []).map (·.rawEventIds))
        (if 1 < (ScrollCompressor.extractScrollEvents events).length then
          (ScrollCompressor.extractScrollEvents events).map (·.eventId) else []) := by
      unfold ScrollCompressor.canCompress
      by_cases hlong : 1 < (ScrollCompressor.extractScrollEvents events).length
      · rw [if_pos (by simpa using hlong), if_pos hlong]
        exact self.scrollCompressor.compress_links events
      · rw [if_neg (by simpa using hlong), if_neg hlong]
        exact linked_nil
    have hmoves := self.mouseCompressor.compress_links events
    rw [hmouse] at hmoves ⊢
    exact ((hscroll.append hmoves).append (self.keyboardCompressor.compress_links events)).append
      (self.focusProcessor.compress_links events)

end CompressionEngine

end Kronical
