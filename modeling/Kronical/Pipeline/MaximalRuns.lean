import Kronical.Lib.Runs
import Kronical.Pipeline.Compressor

/-!
# The runs behind compact events

Three of the compressors keep a run of events open as long as the next one is joined to the last one,
and sum each run up when it ends. So each of them cuts its events into maximal runs and makes its
compact events of these (`compress_eq`, one for each compressor).
-/

namespace Kronical

namespace ScrollCompressor

/-- The second wheel event continues the burst of the first one. -/
def joined (self : ScrollCompressor) (e e' : ScrollEvent) : Bool :=
  inferScrollDirection e.signedAmount e.axis = inferScrollDirection e'.signedAmount e'.axis &&
    numMilliseconds (e'.timestamp - e.timestamp) < self.maxGapMs

/-- A whole burst as one sequence. -/
def sequenceOf : List ScrollEvent → List CompactScrollSequence
  | [] => []
  | e :: burst => [burst.foldl extendSequence (openSequence e)]

/-- The open sequence stands for the burst. -/
def Holds (current : Option CompactScrollSequence) (burst : List ScrollEvent) : Prop :=
  ∃ sequence, current = some sequence ∧ sequenceOf burst = [sequence] ∧ ∀ last ∈ burst.getLast?,
    sequence.direction = inferScrollDirection last.signedAmount last.axis ∧
      sequence.endTime = last.timestamp

theorem holds_open (e : ScrollEvent) : Holds (some (openSequence e)) [e] := by
  refine ⟨openSequence e, rfl, rfl, ?_⟩
  intro last hlast
  cases hlast
  exact ⟨rfl, rfl⟩

theorem sequenceOf_concat {burst : List ScrollEvent} {sequence : CompactScrollSequence}
    (h : sequenceOf burst = [sequence]) (e : ScrollEvent) :
    sequenceOf (burst ++ [e]) = [extendSequence sequence e] := by
  cases burst with
  | nil => cases h
  | cons first burst =>
    rw [List.cons_append, sequenceOf, List.foldl_append]
    exact congrArg (fun sequence => [extendSequence sequence e]) (List.cons.inj h).1

theorem collects (self : ScrollCompressor) :
    Transducer.Collects self.compressStep self.joined sequenceOf Holds where
  extend {s front last e} hs hjoined := by
    obtain ⟨sequence, rfl, hsequence, hlast⟩ := hs
    obtain ⟨hdirection, hend⟩ := hlast last List.getLast?_concat
    simp only [joined, Bool.and_eq_true, decide_eq_true_eq] at hjoined
    have hstep : self.compressStep (some sequence) e = (some (extendSequence sequence e), []) := by
      rw [compressStep, hdirection, hend, if_pos hjoined]
    rw [hstep]
    refine ⟨rfl, _, rfl, sequenceOf_concat hsequence e, ?_⟩
    intro last' hlast'
    rw [List.getLast?_concat] at hlast'
    cases hlast'
    exact ⟨hdirection.trans hjoined.1, rfl⟩
  restart {s front last e} hs hapart := by
    obtain ⟨sequence, rfl, hsequence, hlast⟩ := hs
    obtain ⟨hdirection, hend⟩ := hlast last List.getLast?_concat
    have hjoined : ¬ (inferScrollDirection last.signedAmount last.axis =
        inferScrollDirection e.signedAmount e.axis ∧
          numMilliseconds (e.timestamp - last.timestamp) < self.maxGapMs) := by
      simpa [joined] using hapart
    have hstep : self.compressStep (some sequence) e = (some (openSequence e), [sequence]) := by
      rw [compressStep, hdirection, hend, if_neg hjoined]
    rw [hstep, hsequence]
    exact ⟨rfl, holds_open e⟩

/-- The sequences of a batch are those of the maximal bursts of its wheel events. -/
theorem compress_eq (self : ScrollCompressor) (events : List RawEvent) :
    self.compress events = ((extractScrollEvents events).splitBy self.joined).flatMap sequenceOf := by
  unfold compress
  cases extractScrollEvents events with
  | nil => rfl
  | cons e wheel =>
    obtain ⟨burst, ⟨sequence, hcurrent, hsequence, -⟩, hruns⟩ :=
      self.collects.run_cons (holds_open e) wheel
    rw [hruns, hsequence]
    show (self.compressStep.run (some (openSequence e)) wheel).2 ++
      (self.compressStep.run (some (openSequence e)) wheel).1.toList = _
    rw [hcurrent]
    rfl

end ScrollCompressor

namespace MouseTrajectoryCompressor

/-- The second movement continues the path of the first one. -/
def joined (self : MouseTrajectoryCompressor) (e e' : MouseEvent) : Bool :=
  numMilliseconds (e'.timestamp - e.timestamp) ≤ self.maxGapMs &&
    self.minDistanceSq ≤ calculateDistanceSq e.position e'.position && e.kind = e'.kind

/-- A whole path as one trajectory, if it is long enough. -/
def trajectoryOf (self : MouseTrajectoryCompressor) (path : List MouseEvent) :
    List CompactMouseTrajectory :=
  self.finalizePath path (path.getLast?.map (·.kind))

/-- The open path, with the kind of its last movement. -/
def Holds (current : List MouseEvent × Option MouseTrajectoryType) (path : List MouseEvent) : Prop :=
  current = (path, path.getLast?.map (·.kind))

theorem collects (self : MouseTrajectoryCompressor) :
    Transducer.Collects self.compressStep self.joined self.trajectoryOf Holds where
  extend {s front last e} hs hjoined := by
    subst hs
    simp only [joined, Bool.and_eq_true, decide_eq_true_eq] at hjoined
    have hcut : ¬ (numMilliseconds (e.timestamp - last.timestamp) > self.maxGapMs ∨
        calculateDistanceSq last.position e.position < self.minDistanceSq ∨
        (some last.kind).any (· ≠ e.kind) = true) := by
      simp only [Option.any_some, decide_eq_true_eq, not_or, not_lt, not_not]
      exact ⟨hjoined.1.1, hjoined.1.2, hjoined.2⟩
    simp only [compressStep, List.getLast?_concat, Option.map_some]
    rw [if_neg hcut]
    exact ⟨rfl, by simp [Holds]⟩
  restart {s front last e} hs hapart := by
    subst hs
    have hcut : numMilliseconds (e.timestamp - last.timestamp) > self.maxGapMs ∨
        calculateDistanceSq last.position e.position < self.minDistanceSq ∨
        (some last.kind).any (· ≠ e.kind) = true := by
      by_contra hjoined
      simp only [Option.any_some, decide_eq_true_eq, not_or, not_lt, not_not] at hjoined
      simp [joined, hjoined.1, hjoined.2.1, hjoined.2.2] at hapart
    simp only [compressStep, List.getLast?_concat, Option.map_some]
    rw [if_pos hcut]
    exact ⟨by simp [trajectoryOf], rfl⟩

theorem trajectoryOf_eq_nil (self : MouseTrajectoryCompressor) {path : List MouseEvent}
    (h : path.length < 3) : self.trajectoryOf path = [] := by
  match path with
  | [] => rfl
  | [_] => rfl
  | [_, _] => rfl
  | _ :: _ :: _ :: _ =>
    simp only [List.length_cons] at h
    omega

/-- The trajectories of a batch are those of the maximal paths of its movements. -/
theorem compress_eq (self : MouseTrajectoryCompressor) (events : List RawEvent) :
    self.compress events =
      ((extractMouseEvents events).splitBy self.joined).flatMap self.trajectoryOf := by
  unfold compress
  cases hmoves : extractMouseEvents events with
  | nil => rfl
  | cons e moves =>
    dsimp only
    by_cases hshort : (e :: moves).length < 3
    · rw [if_pos hshort, eq_comm, List.flatMap_eq_nil_iff]
      intro path hpath
      refine self.trajectoryOf_eq_nil (lt_of_le_of_lt ?_ hshort)
      have hsub : path.Sublist ((e :: moves).splitBy self.joined).flatten :=
        List.sublist_flatten_of_mem hpath
      rw [List.flatten_splitBy] at hsub
      exact hsub.length_le
    · obtain ⟨path, hcurrent, hruns⟩ :=
        self.collects.run_cons (s := ([e], some e.kind)) (i := e) rfl moves
      rw [if_neg hshort, hruns]
      show (self.compressStep.run ([e], some e.kind) moves).2 ++
        self.finalizePath (self.compressStep.run ([e], some e.kind) moves).1.1
          (self.compressStep.run ([e], some e.kind) moves).1.2 = _
      rw [hcurrent]
      rfl

end MouseTrajectoryCompressor

namespace KeyboardActivityCompressor

/-- The second keystroke continues the burst of the first one. -/
def joined (self : KeyboardActivityCompressor) (key key' : Nat × DateTime) : Bool :=
  numMilliseconds (key'.2 - key.2) ≤ self.maxGapMs

/-- A whole burst as one activity. -/
def activityOf (burst : List (Nat × DateTime)) : List CompactKeyboardActivity :=
  match burst.head?, burst.getLast? with
  | some first, some last => [flush { ids := burst.map (·.1), start := first.2, finish := last.2 }]
  | _, _ => []

/-- The open group stands for the burst. -/
def Holds (group : Group) (burst : List (Nat × DateTime)) : Prop :=
  group.ids = burst.map (·.1) ∧ burst.head?.map (·.2) = some group.start ∧
    burst.getLast?.map (·.2) = some group.finish

theorem Holds.activityOf {group : Group} {burst : List (Nat × DateTime)} (h : Holds group burst) :
    activityOf burst = [flush group] := by
  obtain ⟨hids, hstart, hfinish⟩ := h
  obtain ⟨first, hfirst, hstart⟩ := Option.map_eq_some_iff.mp hstart
  obtain ⟨last, hlast, hfinish⟩ := Option.map_eq_some_iff.mp hfinish
  rw [KeyboardActivityCompressor.activityOf, hfirst, hlast]
  show [flush { ids := burst.map (·.1), start := first.2, finish := last.2 }] = _
  rw [← hids, hstart, hfinish]

theorem collects (self : KeyboardActivityCompressor) :
    Transducer.Collects self.compressStep self.joined activityOf Holds where
  extend {group front last key} hs hjoined := by
    obtain ⟨hids, hstart, hfinish⟩ := hs
    rw [List.getLast?_concat] at hfinish
    have hgap : numMilliseconds (key.2 - group.finish) ≤ self.maxGapMs := by
      rw [← Option.some.inj hfinish]
      simpa [joined] using hjoined
    simp only [compressStep]
    rw [if_pos hgap]
    refine ⟨rfl, ?_, ?_, ?_⟩
    · simp [hids]
    · rw [← hstart]
      cases front <;> rfl
    · rw [List.getLast?_concat]
      rfl
  restart {group front last key} hs hapart := by
    obtain ⟨-, -, hfinish⟩ := id hs
    rw [List.getLast?_concat] at hfinish
    have hgap : ¬ numMilliseconds (key.2 - group.finish) ≤ self.maxGapMs := by
      rw [← Option.some.inj hfinish]
      simpa [joined] using hapart
    simp only [compressStep]
    rw [if_neg hgap, hs.activityOf]
    exact ⟨rfl, rfl, rfl, rfl⟩

/-- The keystrokes of a batch by their instants. -/
def sortedKeys (events : List RawEvent) : List (Nat × DateTime) :=
  (extractKeyboardEvents events).insertionSort fun key key' => key.2 ≤ key'.2

/-- The activities of a batch are those of the maximal bursts of its keystrokes. -/
theorem compress_eq (self : KeyboardActivityCompressor) (events : List RawEvent) :
    self.compress events = ((sortedKeys events).splitBy self.joined).flatMap activityOf := by
  unfold compress sortedKeys
  cases (extractKeyboardEvents events).insertionSort fun key key' => key.2 ≤ key'.2 with
  | nil => rfl
  | cons key keys =>
    obtain ⟨burst, hgroup, hruns⟩ := self.collects.run_cons
      (s := { ids := [key.1], start := key.2, finish := key.2 }) ⟨rfl, rfl, rfl⟩ keys
    rw [hruns, hgroup.activityOf]

end KeyboardActivityCompressor

end Kronical
