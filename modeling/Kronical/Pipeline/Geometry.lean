import Kronical.Pipeline.Ingest
import Kronical.Pipeline.SplitPoints

/-!
# The integers of the trajectory geometry

The hook's coordinates have 16 bits, and the distances are computed from them in `i32` before they become
floating-point numbers. The cross product of two positions comes within 32768 of overflowing: each of its
factors lies between `-2 ^ 15` and `2 ^ 15 - 1`, so that one of the two products is at most `2 ^ 30` and the
other one at least `-2 ^ 30 + 2 ^ 15`. Hence the whole compression runs in checked arithmetic as it does on
unbounded integers (`geometry_never_overflows`).
-/

namespace Kronical

/-! ### The hook -/

/-- An event of the input hook, with its kind, button, scroll type and axis as they are converted. -/
inductive UiohookEvent where
  | keyboard
  | mouse (x y : Int16) (button : Option MouseButton) (clicks : Nat) (kind : MouseEventKind)
  | wheel (clicks : Nat) (x y : Int16) (scrollType : WheelScrollType) (amount : Nat) (rotation : Int)
      (axis : Option WheelAxis)
  | hookEnabled
  | hookDisabled
  deriving DecidableEq, Repr

/-- What `handle_event` sends. -/
def handleEvent : UiohookEvent → Option KronicalEvent
  | .keyboard => some .keyboardInput
  | .mouse x y button clicks kind => some (.mouseInput x.toInt y.toInt button clicks kind)
  | .wheel clicks x y scrollType amount rotation axis =>
    some (.mouseWheel clicks x.toInt y.toInt scrollType amount rotation axis)
  | .hookEnabled | .hookDisabled => none

/-- What the two hooks report, when it is stamped and with which id. -/
abbrev HookInput := (UiohookEvent ⊕ WindowFocusInfo) × DateTime × Nat

/-- The event of an input, as it is pending. -/
def HookInput.raw : HookInput → Option RawEvent
  | (.inl event, now, eventId) => (handleEvent event).bind (IngestStage.convertKronidToRaw now eventId)
  | (.inr focusInfo, now, eventId) => IngestStage.convertKronidToRaw now eventId (.windowFocusChange focusInfo)

/-- The coordinates have 16 bits. -/
def FitsHook (p : MousePosition) : Prop :=
  (-2 ^ 15 ≤ p.x ∧ p.x < 2 ^ 15) ∧ -2 ^ 15 ≤ p.y ∧ p.y < 2 ^ 15

namespace MouseTrajectoryCompressor

/-! ### Checked arithmetic -/

def i32 (n : Int) : Except Fault Int := if -2 ^ 31 ≤ n ∧ n < 2 ^ 31 then .ok n else .error .overflow

/-- `calculate_distance`; what is squared and added up are floating-point numbers. -/
def checkedDistanceSq (p1 p2 : MousePosition) : Except Fault Int := do
  let dx ← i32 (p2.x - p1.x)
  let dy ← i32 (p2.y - p1.y)
  .ok (dx * dx + dy * dy)

/-- `perpendicular_distance`; the numerator and the denominator are floating-point numbers. -/
def checkedPerpendicularSq (point lineStart lineEnd : MousePosition) : Except Fault Rat := do
  let a ← i32 (lineEnd.y - lineStart.y)
  let b ← i32 (lineStart.x - lineEnd.x)
  let forward ← i32 (lineEnd.x * lineStart.y)
  let backward ← i32 (lineStart.x * lineEnd.y)
  let c ← i32 (forward - backward)
  let numerator := a * point.x + b * point.y + c
  let denominatorSq := a * a + b * b
  .ok (if denominatorSq = 0 then 0 else (numerator * numerator : Int) / (denominatorSq : Rat))

/-- The squares of the distances that `calculate_path_distance` adds up. -/
def checkedPathDistance (positions : List MousePosition) : Except Fault (List Int) :=
  (Polyline.legs positions).mapM fun leg => checkedDistanceSq leg.1 leg.2

/-- The squares of the distances and the times of which `calculate_max_velocity` makes velocities. -/
def checkedMaxVelocity (path : List (DateTime × MousePosition)) : Except Fault (List (Int × Int)) :=
  (Polyline.legs path).mapM fun leg => do
    let distanceSq ← checkedDistanceSq leg.1.2 leg.2.2
    .ok (distanceSq, max (numMilliseconds (leg.2.1 - leg.1.1)) 1)

variable (self : MouseTrajectoryCompressor)

/-- The total distance and the highest velocity are computed too, but no field of the model keeps them. -/
def buildTrajectoryChecked (first : MouseEvent) (rest : List MouseEvent) (kind : MouseTrajectoryType) :
    Except Fault CompactMouseTrajectory := do
  let path := first :: rest
  let positions := path.map (·.position)
  let simplifiedPath ← douglasPeuckerIndexed checkedPerpendicularSq self.douglasPeuckerEpsilonSq
    positions.length positions
  let _ ← checkedPathDistance positions
  let _ ← checkedMaxVelocity (path.map fun e => (e.timestamp, e.position))
  .ok { self.buildTrajectory first rest kind with simplifiedPath }

def finalizePathChecked (path : List MouseEvent) (kind : Option MouseTrajectoryType) :
    Except Fault (List CompactMouseTrajectory) :=
  match path, kind with
  | first :: second :: third :: rest, some kind => do
    let trajectory ← self.buildTrajectoryChecked first (second :: third :: rest) kind
    .ok [trajectory]
  | _, _ => .ok []

/-- One turn of the loop of `compress`. -/
def compressStepChecked (current : List MouseEvent × Option MouseTrajectoryType) (e : MouseEvent) :
    Except Fault ((List MouseEvent × Option MouseTrajectoryType) × List CompactMouseTrajectory) :=
  match current.1.getLast? with
  | some last => do
    let distanceSq ← checkedDistanceSq last.position e.position
    if numMilliseconds (e.timestamp - last.timestamp) > self.maxGapMs ∨
        distanceSq < self.minDistanceSq ∨ current.2.any (· ≠ e.kind) then do
      let finished ← self.finalizePathChecked current.1 current.2
      .ok (([e], some e.kind), finished)
    else
      .ok ((current.1 ++ [e], some e.kind), [])
  | none => .ok (([e], some e.kind), [])

def compressChecked (events : List RawEvent) : Except Fault (List CompactMouseTrajectory) :=
  let mouseEvents := extractMouseEvents events
  if mouseEvents.length < 3 then
    .ok []
  else do
    let (current, trajectories) ← Transducer.tryRun self.compressStepChecked ([], none) mouseEvents
    let finished ← self.finalizePathChecked current.1 current.2
    .ok (trajectories ++ finished)

/-! ### What fits -/

theorem i32_of_fits {n : Int} (h : -2 ^ 31 ≤ n ∧ n < 2 ^ 31) : i32 n = .ok n := if_pos h

theorem mul_bounds {m n : Int} (hm : -2 ^ 15 ≤ m ∧ m < 2 ^ 15) (hn : -2 ^ 15 ≤ n ∧ n < 2 ^ 15) :
    -(2 ^ 30 - 2 ^ 15) ≤ m * n ∧ m * n ≤ 2 ^ 30 := by
  constructor <;> nlinarith

theorem perpendicular_operands_fit {p q : MousePosition} (hp : FitsHook p) (hq : FitsHook q) :
    ∀ n ∈ [q.y - p.y, p.x - q.x, q.x * p.y, p.x * q.y, q.x * p.y - p.x * q.y],
      -2 ^ 31 ≤ n ∧ n < 2 ^ 31 := by
  have hforward := mul_bounds hq.1 hp.2
  have hbackward := mul_bounds hp.1 hq.2
  obtain ⟨⟨_, _⟩, _, _⟩ := hp
  obtain ⟨⟨_, _⟩, _, _⟩ := hq
  simp only [List.forall_mem_cons, List.not_mem_nil, false_imp_iff, implies_true, and_true]
  omega

/-- The largest cross product of two positions. -/
example : i32 (-2 ^ 15 * -2 ^ 15 - -2 ^ 15 * (2 ^ 15 - 1)) = .ok 2147450880 := rfl

theorem checkedDistanceSq_eq {p1 p2 : MousePosition} (h1 : FitsHook p1) (h2 : FitsHook p2) :
    checkedDistanceSq p1 p2 = .ok (calculateDistanceSq p1 p2) := by
  obtain ⟨⟨_, _⟩, _, _⟩ := h1
  obtain ⟨⟨_, _⟩, _, _⟩ := h2
  rw [checkedDistanceSq, i32_of_fits (by omega), i32_of_fits (by omega)]
  rfl

theorem checkedPerpendicularSq_eq (point : MousePosition) {lineStart lineEnd : MousePosition}
    (hstart : FitsHook lineStart) (hend : FitsHook lineEnd) :
    checkedPerpendicularSq point lineStart lineEnd =
      .ok (perpendicularDistanceSq point lineStart lineEnd) := by
  have hfit := perpendicular_operands_fit hstart hend
  simp only [List.forall_mem_cons, List.not_mem_nil, false_imp_iff, implies_true, and_true] at hfit
  obtain ⟨ha, hb, hforward, hbackward, hc⟩ := hfit
  rw [checkedPerpendicularSq, i32_of_fits ha, i32_of_fits hb, i32_of_fits hforward,
    i32_of_fits hbackward]
  dsimp only [bind, Except.bind]
  rw [i32_of_fits hc]
  rfl

theorem exists_mapM_ok {α β : Type} {f : α → Except Fault β} {l : List α}
    (h : ∀ a ∈ l, ∃ b, f a = .ok b) : ∃ bs, l.mapM f = .ok bs := by
  induction l with
  | nil => exact ⟨[], rfl⟩
  | cons a l ih =>
    obtain ⟨b, hb⟩ := h a List.mem_cons_self
    obtain ⟨bs, hbs⟩ := ih fun a ha => h a (List.mem_cons_of_mem _ ha)
    refine ⟨b :: bs, ?_⟩
    rw [List.mapM_cons, hb, hbs]
    rfl

theorem mem_of_mem_legs {α : Type} {points : List α} {leg : α × α} (h : leg ∈ Polyline.legs points) :
    leg.1 ∈ points ∧ leg.2 ∈ points := by
  obtain ⟨hfirst, hsecond⟩ := List.of_mem_zip h
  exact ⟨hfirst, List.mem_of_mem_tail hsecond⟩

theorem checkedPathDistance_ok {positions : List MousePosition} (h : ∀ p ∈ positions, FitsHook p) :
    ∃ distances, checkedPathDistance positions = .ok distances := by
  refine exists_mapM_ok fun leg hleg => ?_
  obtain ⟨hfirst, hsecond⟩ := mem_of_mem_legs hleg
  exact ⟨_, checkedDistanceSq_eq (h _ hfirst) (h _ hsecond)⟩

theorem checkedMaxVelocity_ok {path : List (DateTime × MousePosition)} (h : ∀ e ∈ path, FitsHook e.2) :
    ∃ velocities, checkedMaxVelocity path = .ok velocities := by
  refine exists_mapM_ok fun leg hleg => ?_
  obtain ⟨hfirst, hsecond⟩ := mem_of_mem_legs hleg
  rw [checkedDistanceSq_eq (h _ hfirst) (h _ hsecond)]
  exact ⟨_, rfl⟩

/-! ### The run -/

section

variable {self : MouseTrajectoryCompressor} (hepsilon : 0 ≤ self.douglasPeuckerEpsilonSq)

include hepsilon

theorem buildTrajectoryChecked_eq {first : MouseEvent} {rest : List MouseEvent}
    {kind : MouseTrajectoryType} (h : ∀ e ∈ first :: rest, FitsHook e.position) :
    self.buildTrajectoryChecked first rest kind = .ok (self.buildTrajectory first rest kind) := by
  have hpositions : ∀ p ∈ (first :: rest).map (·.position), FitsHook p := by
    intro p hp
    obtain ⟨e, he, rfl⟩ := List.mem_map.mp hp
    exact h e he
  have hcomputes : Computes checkedPerpendicularSq ((first :: rest).map (·.position))
      perpendicularDistanceSq := fun p _ lineStart hstart lineEnd hend =>
    checkedPerpendicularSq_eq p (hpositions lineStart hstart) (hpositions lineEnd hend)
  obtain ⟨hsimplified, -⟩ := simplifiedPath_spec kind hepsilon hcomputes
  obtain ⟨distances, hdistances⟩ := checkedPathDistance_ok hpositions
  have hstamped : ∀ e ∈ (first :: rest).map fun e => (e.timestamp, e.position), FitsHook e.2 := by
    intro stamped hstamped
    obtain ⟨e, he, rfl⟩ := List.mem_map.mp hstamped
    exact h e he
  obtain ⟨velocities, hvelocities⟩ := checkedMaxVelocity_ok hstamped
  rw [buildTrajectoryChecked]
  dsimp only [bind, Except.bind]
  rw [hsimplified, hdistances, hvelocities]

theorem finalizePathChecked_eq {path : List MouseEvent} {kind : Option MouseTrajectoryType}
    (h : ∀ e ∈ path, FitsHook e.position) :
    self.finalizePathChecked path kind = .ok (self.finalizePath path kind) := by
  match path, kind with
  | first :: second :: third :: rest, some kind =>
    rw [finalizePathChecked, buildTrajectoryChecked_eq hepsilon h]
    rfl
  | [], _ | [_], _ | [_, _], _ | _ :: _ :: _ :: _, none => rfl

theorem compressStepChecked_eq {current : List MouseEvent × Option MouseTrajectoryType} {e : MouseEvent}
    (h : ∀ e ∈ current.1, FitsHook e.position) (he : FitsHook e.position) :
    self.compressStepChecked current e = .ok (self.compressStep current e) ∧
      ∀ e' ∈ (self.compressStep current e).1.1, FitsHook e'.position := by
  obtain ⟨path, kind⟩ := current
  rw [compressStepChecked, compressStep]
  cases hlast : path.getLast? with
  | none => exact ⟨rfl, fun e' he' => List.mem_singleton.mp he' ▸ he⟩
  | some last =>
    dsimp only [bind, Except.bind]
    rw [checkedDistanceSq_eq (h last (List.mem_of_getLast? hlast)) he]
    dsimp only
    split_ifs with hbreak
    · rw [finalizePathChecked_eq hepsilon h]
      exact ⟨rfl, fun e' he' => List.mem_singleton.mp he' ▸ he⟩
    · refine ⟨rfl, fun e' he' => ?_⟩
      rcases List.mem_append.mp he' with he' | he'
      · exact h e' he'
      · exact List.mem_singleton.mp he' ▸ he

theorem compressChecked_eq {events : List RawEvent}
    (h : ∀ e ∈ extractMouseEvents events, FitsHook e.position) :
    self.compressChecked events = .ok (self.compress events) := by
  rw [compressChecked, compress]
  dsimp only
  split_ifs with hfew
  · rfl
  · obtain ⟨hrun, hfinal⟩ := Transducer.tryRun_eq (s := ([], none))
      (I := fun current : List MouseEvent × Option MouseTrajectoryType =>
        ∀ e ∈ current.1, FitsHook e.position)
      (fun _ e he hcurrent => compressStepChecked_eq hepsilon hcurrent (h e he)) nofun
    rw [hrun]
    dsimp only [bind, Except.bind]
    rw [finalizePathChecked_eq hepsilon hfinal]

end

theorem fits_toInt (x : Int16) : -2 ^ 15 ≤ x.toInt ∧ x.toInt < 2 ^ 15 :=
  ⟨x.le_toInt, x.toInt_lt⟩

theorem fitsHook_of_raw (inputs : List HookInput) :
    ∀ e ∈ extractMouseEvents (inputs.filterMap HookInput.raw), FitsHook e.position := by
  intro e he
  obtain ⟨raw, hraw, he⟩ := List.mem_filterMap.mp he
  obtain ⟨⟨report, now, eventId⟩, -, hinput⟩ := List.mem_filterMap.mp hraw
  rcases report with (_ | ⟨x, y, button, clicks, kind⟩ | _ | _ | _) | focusInfo
  case inl.mouse =>
    cases hinput
    dsimp only at he
    cases kind <;> cases he <;> exact ⟨fits_toInt x, fits_toInt y⟩
  -- Nothing else is a movement.
  all_goals cases hinput <;> cases he

/-- For every batch of what the hooks report: none of the `i32` operations of the two distances overflows,
whatever positions of its mouse events they are applied to, and the compression runs in checked arithmetic
as it does on integers. -/
theorem geometry_never_overflows (inputs : List HookInput) :
    (∀ p ∈ (extractMouseEvents (inputs.filterMap HookInput.raw)).map (·.position),
      ∀ lineStart ∈ (extractMouseEvents (inputs.filterMap HookInput.raw)).map (·.position),
      ∀ lineEnd ∈ (extractMouseEvents (inputs.filterMap HookInput.raw)).map (·.position),
        checkedDistanceSq lineStart lineEnd = .ok (calculateDistanceSq lineStart lineEnd) ∧
          checkedPerpendicularSq p lineStart lineEnd =
            .ok (perpendicularDistanceSq p lineStart lineEnd)) ∧
      new.compressChecked (inputs.filterMap HookInput.raw) =
        .ok (new.compress (inputs.filterMap HookInput.raw)) := by
  have hfits := fitsHook_of_raw inputs
  refine ⟨?_, compressChecked_eq (by decide) hfits⟩
  intro p _ lineStart hstart lineEnd hend
  obtain ⟨e, he, rfl⟩ := List.mem_map.mp hstart
  obtain ⟨e', he', rfl⟩ := List.mem_map.mp hend
  exact ⟨checkedDistanceSq_eq (hfits e he) (hfits e' he'),
    checkedPerpendicularSq_eq p (hfits e he) (hfits e' he')⟩

end MouseTrajectoryCompressor

end Kronical
