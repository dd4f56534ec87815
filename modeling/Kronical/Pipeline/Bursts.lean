import Kronical.Lib.Folds
import Kronical.Lib.Recency
import Kronical.Pipeline.Coverage

/-!
# Scroll and typing bursts

The compact events of both compressors are those of the maximal bursts of their events, and each sums its
burst up: a scroll sequence goes on while the direction stays and less than 500 ms pass
(`scrolls_maximal_bursts`), a typing activity while at most the compressor's gap of whole milliseconds
passes (`typing_maximal_bursts`).
-/

namespace Kronical

/-- The raw events that a compact event points to. -/
def linkedIds (link : Option RawEventPointer) : List Nat := (link.map (·.ids)).getD []

theorem flatMap_linkedIds {ι κ : Type} {runs : List (List ι)} {out : List κ}
    {link : κ → Option RawEventPointer} {eventId : ι → Nat}
    (h : List.Forall₂ (fun run k => link k = some ⟨defaultRawEventTable, run.map eventId⟩) runs out) :
    (out.flatMap fun k => linkedIds (link k)) = runs.flatten.map eventId := by
  induction h with
  | nil => rfl
  | cons hlink _ ih =>
    rw [List.flatMap_cons, ih, hlink, List.flatten_cons, List.map_append]
    rfl

/-! ### Scrolling -/

/-- The range of an `i32`. -/
def FitsI32 (n : Int) : Prop := -2 ^ 31 ≤ n ∧ n < 2 ^ 31

theorem asI32_of_fits {n : Int} (h : FitsI32 n) : asI32 n = n := by
  obtain ⟨hlow, hhigh⟩ := h
  exact Int.bmod_eq_of_le (by omega) (by omega)

namespace ScrollCompressor

/-- What a sequence tells of its burst. The count is a `u32`, a total the exact sum if that fits. -/
structure SumsUp (burst : List ScrollEvent) (sequence : CompactScrollSequence) : Prop where
  links : sequence.rawEventIds = some ⟨defaultRawEventTable, burst.map (·.eventId)⟩
  direction : ∀ e ∈ burst, inferScrollDirection e.signedAmount e.axis = sequence.direction
  start : burst.head?.map (·.timestamp) = some sequence.startTime
  finish : burst.getLast?.map (·.timestamp) = some sequence.endTime
  count : sequence.scrollCount = burst.length % 2 ^ 32
  amount : FitsI32 (burst.map (·.signedAmount)).sum →
    sequence.totalAmount = (burst.map (·.signedAmount)).sum
  rotation : FitsI32 (burst.map (·.rotation)).sum →
    sequence.totalRotation = (burst.map (·.rotation)).sum

theorem total_eq (total : CompactScrollSequence → Int) (part : ScrollEvent → Int)
    (hopen : ∀ e, total (openSequence e) = part e)
    (hextend : ∀ sequence e, total (extendSequence sequence e) = asI32 (total sequence + part e))
    (e : ScrollEvent) (burst : List ScrollEvent)
    (hfits : FitsI32 ((e :: burst).map part).sum) :
    total (burst.foldl extendSequence (openSequence e)) = ((e :: burst).map part).sum := by
  have hfold : burst.foldl (fun t e => asI32 (t + part e)) (total (openSequence e)) =
      total (burst.foldl extendSequence (openSequence e)) :=
    List.foldl_hom total fun sequence e => (hextend sequence e).symm
  rw [List.map_cons, List.sum_cons] at hfits ⊢
  rw [← hfold, hopen]
  exact Folds.bmod_wrapping_eq (asI32_of_fits hfits)

theorem foldl_extendSequence (burst : List ScrollEvent) (sequence : CompactScrollSequence) :
    (burst.foldl extendSequence sequence).startTime = sequence.startTime ∧
      (burst.foldl extendSequence sequence).direction = sequence.direction := by
  induction burst generalizing sequence with
  | nil => exact ⟨rfl, rfl⟩
  | cons e burst ih => exact ih (extendSequence sequence e)

theorem endTime_foldl (e : ScrollEvent) (burst : List ScrollEvent) :
    (e :: burst).getLast?.map (·.timestamp) =
      some (burst.foldl extendSequence (openSequence e)).endTime := by
  rcases List.eq_nil_or_concat' burst with rfl | ⟨front, last, rfl⟩
  · rfl
  · rw [← List.cons_append, List.getLast?_concat, List.foldl_append]
    rfl

theorem scrollCount_foldl (e : ScrollEvent) (burst : List ScrollEvent) :
    (burst.foldl extendSequence (openSequence e)).scrollCount = (e :: burst).length % 2 ^ 32 := by
  induction burst using List.reverseRecOn with
  | nil => rfl
  | append_singleton burst e' ih =>
    rw [List.foldl_append, List.length_cons, List.length_append]
    show ((burst.foldl extendSequence (openSequence e)).scrollCount + 1) % 2 ^ 32 = _
    rw [ih, Nat.mod_add_mod]
    rfl

/-- The second wheel event continues the burst of the first one. -/
def Continues (e e' : ScrollEvent) : Prop :=
  inferScrollDirection e.signedAmount e.axis = inferScrollDirection e'.signedAmount e'.axis ∧
    numMilliseconds (e'.timestamp - e.timestamp) < 500

theorem direction_eq {e : ScrollEvent} {burst : List ScrollEvent}
    (h : (e :: burst).IsChain Continues) :
    ∀ e' ∈ e :: burst, inferScrollDirection e'.signedAmount e'.axis =
      inferScrollDirection e.signedAmount e.axis := by
  have hsame : ((e :: burst).map fun e => inferScrollDirection e.signedAmount e.axis).IsChain
      (· = ·) := by
    rw [List.isChain_map]
    exact h.imp fun _ _ h => h.1
  have hpairs := List.isChain_iff_pairwise.mp hsame
  intro e' hmem
  rcases List.mem_cons.mp hmem with rfl | hmem
  · rfl
  · exact (List.rel_of_pairwise_cons hpairs (List.mem_map_of_mem hmem)).symm

theorem sums_up {burst : List ScrollEvent} (hne : burst ≠ []) (h : burst.IsChain Continues) :
    ∃ sequence, sequenceOf burst = [sequence] ∧ SumsUp burst sequence := by
  obtain ⟨e, burst, rfl⟩ := List.exists_cons_of_ne_nil hne
  obtain ⟨hstart, hdirection⟩ := foldl_extendSequence burst (openSequence e)
  have hlink : (openSequence e).rawEventIds = some ⟨defaultRawEventTable, [e.eventId]⟩ := rfl
  refine ⟨_, rfl, ?_, ?_, ?_, endTime_foldl e burst, scrollCount_foldl e burst, ?_, ?_⟩
  · exact extendSequence_link hlink burst
  · rw [hdirection]
    exact direction_eq h
  · rw [hstart]
    rfl
  · apply total_eq (·.totalAmount) (·.signedAmount) <;> intros <;> rfl
  · apply total_eq (·.totalRotation) (·.rotation) <;> intros <;> rfl

end ScrollCompressor

open ScrollCompressor in
/-- Scroll sequences are those of the maximal bursts of wheel events, and link to all of them in order. -/
theorem scrolls_maximal_bursts (events : List RawEvent) :
    ((ScrollCompressor.new.compress events).flatMap fun sequence => linkedIds sequence.rawEventIds) =
        (extractScrollEvents events).map (·.eventId) ∧
      ∃ bursts, Runs.Maximal Continues (extractScrollEvents events) bursts ∧
        List.Forall₂ SumsUp bursts (ScrollCompressor.new.compress events) := by
  have hbursts : Runs.Maximal Continues (extractScrollEvents events)
      ((extractScrollEvents events).splitBy ScrollCompressor.new.joined) :=
    Runs.maximal_splitBy (fun e e' => by
      rw [joined, Bool.and_eq_true, decide_eq_true_eq, decide_eq_true_eq]
      rfl) _
  have hsums : List.Forall₂ SumsUp
      ((extractScrollEvents events).splitBy ScrollCompressor.new.joined)
      (ScrollCompressor.new.compress events) := by
    rw [compress_eq]
    exact Runs.forall₂_flatMap fun burst hmem =>
      sums_up (hbursts.nonempty burst hmem) (hbursts.chain burst hmem)
  refine ⟨?_, _, hbursts, hsums⟩
  rw [flatMap_linkedIds (hsums.imp fun _ _ h => h.links), hbursts.flatten]

/-! ### Typing -/

namespace KeyboardActivityCompressor

/-- The keys by their instants, those of one instant in the order they had. -/
structure InTimeOrder (keys keys' : List (Nat × DateTime)) : Prop where
  perm : keys'.Perm keys
  sorted : keys'.Pairwise fun key key' => key.2 ≤ key'.2
  ties : ∀ t, keys'.filter (fun key => key.2 = t) = keys.filter fun key => key.2 = t

/-- What an activity tells of its burst. -/
structure SumsUp (burst : List (Nat × DateTime)) (activity : CompactKeyboardActivity) : Prop where
  links : activity.rawEventIds = some ⟨defaultRawEventTable, burst.map (·.1)⟩
  count : activity.keystrokes = burst.length % 2 ^ 32
  start : IsLeast {t | ∃ key ∈ burst, t = key.2} activity.startTime
  finish : IsGreatest {t | ∃ key ∈ burst, t = key.2} activity.endTime

/-- The activities sum up the bursts into which the keystrokes fall, in the order of time, where the gap
between two of them is not close. -/
def CutsAt (close : Int → Prop) (events : List RawEvent) (activities : List CompactKeyboardActivity) :
    Prop :=
  ∃ keys bursts, InTimeOrder (extractKeyboardEvents events) keys ∧
    Runs.Maximal (fun key key' => close (key'.2 - key.2)) keys bursts ∧
    List.Forall₂ SumsUp bursts activities

theorem inTimeOrder_sortedKeys (events : List RawEvent) :
    InTimeOrder (extractKeyboardEvents events) (sortedKeys events) where
  perm := List.perm_insertionSort _ _
  sorted := Recency.sortDesc_sorted (fun key : Nat × DateTime => OrderDual.toDual key.2) _
  ties t := Recency.filter_sortDesc (fun key : Nat × DateTime => OrderDual.toDual key.2) _
    (fun key => key.2 = t) (k := OrderDual.toDual t) fun _ _ h => of_decide_eq_true h

theorem sums_up {burst : List (Nat × DateTime)} (hne : burst ≠ [])
    (hsorted : burst.Pairwise fun key key' => key.2 ≤ key'.2) :
    ∃ activity, activityOf burst = [activity] ∧ SumsUp burst activity := by
  have hhead := List.head?_eq_some_head hne
  have hlast := List.getLast?_eq_some_getLast hne
  refine ⟨flush ⟨burst.map (·.1), (burst.head hne).2, (burst.getLast hne).2⟩,
    by rw [activityOf, hhead, hlast], ?_, ?_, ?_, ?_⟩
  · obtain ⟨key, burst, rfl⟩ := List.exists_cons_of_ne_nil hne
    rfl
  · show (burst.map (·.1)).length % 2 ^ 32 = _
    rw [List.length_map]
  · refine ⟨⟨_, List.head_mem hne, rfl⟩, ?_⟩
    rintro t ⟨key, hkey, rfl⟩
    obtain ⟨first, rest, rfl⟩ := List.exists_cons_of_ne_nil hne
    rcases List.mem_cons.mp hkey with rfl | hkey
    · exact le_refl _
    · exact List.rel_of_pairwise_cons hsorted hkey
  · refine ⟨⟨_, List.getLast_mem hne, rfl⟩, ?_⟩
    rintro t ⟨key, hkey, rfl⟩
    rw [← List.dropLast_append_getLast hne] at hsorted hkey
    rcases List.mem_append.mp hkey with hkey | hkey
    · exact (List.pairwise_append.mp hsorted).2.2 key hkey _ (List.mem_singleton_self _)
    · rw [List.mem_singleton.mp hkey]
      exact le_refl _

end KeyboardActivityCompressor

open KeyboardActivityCompressor in
/-- Typing activities are those of the maximal bursts of keystrokes, in the order of time, whose gaps are
at most the compressor's in whole milliseconds. -/
theorem typing_maximal_bursts (self : KeyboardActivityCompressor) (events : List RawEvent) :
    CutsAt (fun gap => numMilliseconds gap ≤ self.maxGapMs) events (self.compress events) := by
  have hkeys := inTimeOrder_sortedKeys events
  have hbursts : Runs.Maximal (fun key key' => numMilliseconds (key'.2 - key.2) ≤ self.maxGapMs)
      (sortedKeys events) ((sortedKeys events).splitBy self.joined) :=
    Runs.maximal_splitBy (fun key key' => by simp [joined]) _
  refine ⟨_, _, hkeys, hbursts, ?_⟩
  rw [compress_eq]
  refine Runs.forall₂_flatMap fun burst hmem => ?_
  have hsub : burst.Sublist (sortedKeys events) := by
    rw [← hbursts.flatten]
    exact List.sublist_flatten_of_mem hmem
  exact KeyboardActivityCompressor.sums_up (hbursts.nonempty burst hmem) (hkeys.sorted.sublist hsub)

open KeyboardActivityCompressor in
/-- Two keystrokes that are half a millisecond more than the gap apart are one burst. -/
theorem typing_gap_truncated :
    ¬ CutsAt (fun gap => gap ≤ 30000 * 1000000)
      [.keyboardInput 0 1 ⟨none, none, []⟩, .keyboardInput 30000500000 2 ⟨none, none, []⟩]
      (KeyboardActivityCompressor.new.compress
        [.keyboardInput 0 1 ⟨none, none, []⟩, .keyboardInput 30000500000 2 ⟨none, none, []⟩]) := by
  rintro ⟨keys, bursts, hkeys, hbursts, hsums⟩
  have hone : KeyboardActivityCompressor.new.compress
      [.keyboardInput 0 1 ⟨none, none, []⟩, .keyboardInput 30000500000 2 ⟨none, none, []⟩] =
        [flush ⟨[1, 2], 0, 30000500000⟩] := by
    decide +kernel
  rw [hone] at hsums
  obtain ⟨burst, rest, -, hrest, rfl⟩ := List.forall₂_cons_right_iff.mp hsums
  obtain rfl := List.forall₂_nil_right_iff.mp hrest
  -- The only burst holds both keystrokes, and so their gap.
  obtain rfl : burst = keys := by simpa using hbursts.flatten
  have hchain := hbursts.chain burst List.mem_cons_self
  obtain ⟨key, key', rfl⟩ := List.length_eq_two.mp hkeys.perm.length_eq
  have hmem : (1, 0) ∈ [key, key'] := hkeys.perm.mem_iff.mpr (by decide)
  have hmem' : (2, 30000500000) ∈ [key, key'] := hkeys.perm.mem_iff.mpr (by decide)
  have hsorted := List.rel_of_pairwise_cons hkeys.sorted List.mem_cons_self
  have hgap : key'.2 - key.2 ≤ 30000 * 1000000 := by simpa using hchain
  simp only [List.mem_cons, List.not_mem_nil, or_false] at hmem hmem'
  have hapart : ∀ t t' : Int, t ≤ t' → t' - t ≤ 30000 * 1000000 → 0 = t ∨ 0 = t' →
      30000500000 = t ∨ 30000500000 = t' → False := by
    omega
  exact hapart key.2 key'.2 hsorted hgap (hmem.imp (congrArg Prod.snd) (congrArg Prod.snd))
    (hmem'.imp (congrArg Prod.snd) (congrArg Prod.snd))

end Kronical
