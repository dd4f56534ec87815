import Mathlib.Data.List.Basic
import Kronical.Pipeline.Compressor

/-!
# The ids of interned strings

The interner of the focus processor gives a string its position in the table as its id, and starts a new
table, with ids from zero on, when the old one is full. Within one table an id stands for one string
(`ids_of_table_unambiguous`), but an id from before a new table may stand for another string after it,
even inside one compact event.
-/

namespace Kronical

/-! ### The interner -/

namespace StringInterner

/-- The string starts a new table. -/
def clears (self : StringInterner) (s : String) : Prop :=
  self.lookup.lookup s = none ∧ self.maxStrings ≤ self.strings.length

instance (self : StringInterner) (s : String) : Decidable (self.clears s) :=
  inferInstanceAs (Decidable (_ ∧ _))

/-- The lookup knows exactly the strings of the table, under their positions. -/
def Consistent (self : StringInterner) : Prop :=
  ∀ s, self.lookup.lookup s =
    if s ∈ self.strings then some (self.strings.idxOf s % 2 ^ 16) else none

theorem consistent_withCap (maxStrings : Nat) : (withCap maxStrings).Consistent := fun _ => rfl

/-- A string that is not in the table is added at its end. -/
def add (self : StringInterner) (s : String) : StringInterner :=
  { self with
    strings := self.strings ++ [s]
    lookup := (s, self.strings.length % 2 ^ 16) :: self.lookup }

theorem Consistent.add {self : StringInterner} (h : self.Consistent) {s : String}
    (hs : s ∉ self.strings) : (self.add s).Consistent := by
  intro t
  show List.lookup t ((s, self.strings.length % 2 ^ 16) :: self.lookup) =
    if t ∈ self.strings ++ [s] then some ((self.strings ++ [s]).idxOf t % 2 ^ 16) else none
  by_cases hts : t = s
  · subst hts
    rw [List.lookup_cons_self, if_pos (List.mem_append_right _ List.mem_cons_self),
      List.idxOf_append_of_notMem hs, List.idxOf_cons_self, Nat.add_zero]
  · rw [List.lookup_cons, beq_false_of_ne hts]
    show self.lookup.lookup t = _
    rw [h t]
    by_cases hmem : t ∈ self.strings
    · rw [if_pos hmem, if_pos (List.mem_append_left _ hmem), List.idxOf_append_of_mem hmem]
    · have hnew : t ∉ self.strings ++ [s] := by simp [hmem, hts]
      rw [if_neg hmem, if_neg hnew]

/-- The interner that a string which is not found is added to. -/
def cleared (self : StringInterner) : StringInterner :=
  if self.maxStrings ≤ self.strings.length then { self with strings := [], lookup := [] } else self

theorem intern_of_some {self : StringInterner} {s : String} {id : Nat}
    (h : self.lookup.lookup s = some id) : self.intern s = (self, id) := by
  rw [intern, h]

theorem intern_of_none {self : StringInterner} {s : String} (h : self.lookup.lookup s = none) :
    self.intern s = (self.cleared.add s, self.cleared.strings.length % 2 ^ 16) := by
  rw [intern, h]
  rfl

theorem Consistent.cleared {self : StringInterner} (h : self.Consistent) : self.cleared.Consistent := by
  unfold StringInterner.cleared
  split_ifs
  · exact fun _ => rfl
  · exact h

end StringInterner

/-! ### What is assigned in a call -/

/-- A string with the id it is given, the number of tables started before in the call, and the size of
the table then. -/
structure Assigned where
  string : String
  id : Nat
  table : Nat
  size : Nat
  deriving DecidableEq, Repr

/-- The interner and the number of tables that it has started, over the strings it is asked for. -/
def assign : Transducer (StringInterner × Nat) String Assigned :=
  fun (self, table) s =>
    let next := (self.intern s).1
    let table := if self.clears s then table + 1 else table
    ((next, table), [{ string := s, id := (self.intern s).2, table, size := next.strings.length }])

/-- The strings that the focus processor asks for, an app's name and its window's title in turn. -/
def namesOf (events : List RawEvent) : List String :=
  events.flatMap fun
    | .windowFocusChange _ _ focusInfo => [focusInfo.appName, focusInfo.windowTitle]
    | _ => []

namespace FocusEventProcessor

/-- The pairs of strings and ids that one call of `compress` assigns. -/
def assigned (self : FocusEventProcessor) (events : List RawEvent) : List Assigned :=
  (assign.run (self.stringInterner, 0) (namesOf events)).2

end FocusEventProcessor

theorem assign_run_intern (self : FocusEventProcessor) (table : Nat) (events : List RawEvent) :
    let step := assign.run (self.stringInterner, table) (namesOf events)
    step.2.map (·.string) = namesOf events ∧
      step.1.1 = (self.compress events).1.stringInterner ∧
      step.2.map (·.id) = (self.compress events).2.flatMap fun f => [f.appNameId, f.windowTitleId] := by
  induction events generalizing self table with
  | nil => exact ⟨rfl, rfl, rfl⟩
  | cons e events ih =>
    cases e with
    | keyboardInput => exact ih self table
    | mouseInput => exact ih self table
    | windowFocusChange timestamp eventId focusInfo =>
      obtain ⟨hstrings, hinterner, hids⟩ := ih
        ⟨((self.stringInterner.intern focusInfo.appName).1.intern focusInfo.windowTitle).1⟩
        (assign (assign (self.stringInterner, table) focusInfo.appName).1 focusInfo.windowTitle).1.2
      refine ⟨?_, hinterner, ?_⟩
      · exact congrArg (focusInfo.appName :: focusInfo.windowTitle :: ·) hstrings
      · exact congrArg ((self.stringInterner.intern focusInfo.appName).2 ::
          ((self.stringInterner.intern focusInfo.appName).1.intern focusInfo.windowTitle).2 :: ·) hids

/-! ### One table -/

/-- The string was given its position in the table as its id. -/
def InTable (strings : List String) (a : Assigned) : Prop :=
  a.string ∈ strings ∧ strings.idxOf a.string < a.size ∧
    a.id = strings.idxOf a.string % 2 ^ 16

theorem InTable.append {strings : List String} {a : Assigned} (h : InTable strings a) (s : String) :
    InTable (strings ++ [s]) a := by
  rw [InTable, List.idxOf_append_of_mem h.1]
  exact ⟨List.mem_append_left _ h.1, h.2⟩

theorem InTable.id_eq_iff {strings : List String} {a b : Assigned} (ha : InTable strings a)
    (hb : InTable strings b) (hasize : a.size ≤ 2 ^ 16) (hbsize : b.size ≤ 2 ^ 16) :
    a.id = b.id ↔ a.string = b.string := by
  obtain ⟨hamem, halt, haid⟩ := ha
  obtain ⟨-, hblt, hbid⟩ := hb
  rw [haid, hbid, Nat.mod_eq_of_lt (halt.trans_le hasize), Nat.mod_eq_of_lt (hblt.trans_le hbsize)]
  exact List.idxOf_inj hamem

/-- What has been assigned so far agrees with the interner: the pairs of its table do, and no two pairs
of one table are ambiguous. -/
structure Agrees (interner : StringInterner) (table : Nat) (assigned : List Assigned) : Prop where
  consistent : interner.Consistent
  past : ∀ a ∈ assigned, a.table ≤ table
  current : ∀ a ∈ assigned, a.table = table → InTable interner.strings a
  unambiguous : ∀ a ∈ assigned, ∀ b ∈ assigned, a.table = b.table → a.size ≤ 2 ^ 16 →
    b.size ≤ 2 ^ 16 → (a.id = b.id ↔ a.string = b.string)

theorem Agrees.concat {self next : StringInterner} {table table' : Nat} {assigned : List Assigned}
    (h : Agrees self table assigned) (hnext : next.Consistent) {a : Assigned} (htable : table ≤ table')
    (hkept : ∀ b ∈ assigned, b.table = table' → InTable next.strings b)
    (ha : InTable next.strings a) (hatable : a.table = table') :
    Agrees next table' (assigned ++ [a]) where
  consistent := hnext
  past := by
    intro b hb
    rcases List.mem_append.mp hb with hb | hb
    · exact (h.past b hb).trans htable
    · rw [List.mem_singleton.mp hb, hatable]
  current := by
    intro b hb hbtable
    rcases List.mem_append.mp hb with hb | hb
    · exact hkept b hb hbtable
    · rw [List.mem_singleton.mp hb]
      exact ha
  unambiguous := by
    intro b hb c hc hsame hbsize hcsize
    rcases List.mem_append.mp hb with hb | hb <;> rcases List.mem_append.mp hc with hc | hc
    · exact h.unambiguous b hb c hc hsame hbsize hcsize
    · rw [List.mem_singleton.mp hc] at hsame hcsize ⊢
      exact (hkept b hb (hsame.trans hatable)).id_eq_iff ha hbsize hcsize
    · rw [List.mem_singleton.mp hb] at hsame hbsize ⊢
      exact ha.id_eq_iff (hkept c hc (hsame.symm.trans hatable)) hbsize hcsize
    · rw [List.mem_singleton.mp hb, List.mem_singleton.mp hc]
      exact iff_of_true rfl rfl

theorem Agrees.assign {self : StringInterner} {table : Nat} {before : List Assigned}
    (h : Agrees self table before) (s : String) :
    Agrees (assign (self, table) s).1.1 (assign (self, table) s).1.2
      (before ++ (assign (self, table) s).2) := by
  have hs := h.consistent s
  by_cases hmem : s ∈ self.strings
  · -- The string is found.
    rw [if_pos hmem] at hs
    have hstay : ¬ self.clears s := fun hclears => by rw [hclears.1] at hs; cases hs
    have hintern := StringInterner.intern_of_some hs
    simp only [Kronical.assign, hintern, if_neg hstay]
    exact h.concat h.consistent le_rfl h.current ⟨hmem, List.idxOf_lt_length_of_mem hmem, rfl⟩ rfl
  · rw [if_neg hmem] at hs
    have hintern := StringInterner.intern_of_none hs
    by_cases hfull : self.maxStrings ≤ self.strings.length
    · -- A new table is started.
      have hclears : self.clears s := ⟨hs, hfull⟩
      have hcleared : self.cleared = { self with strings := [], lookup := [] } := if_pos hfull
      have hnext : (self.cleared.add s).Consistent :=
        h.consistent.cleared.add (by simp [hcleared])
      simp only [Kronical.assign, hintern, if_pos hclears]
      rw [hcleared] at hnext ⊢
      refine h.concat hnext (Nat.le_succ _) (fun b hb hbtable => ?_) ?_ rfl
      · have hpast := h.past b hb
        omega
      · simp [InTable, StringInterner.add]
    · have hstay : ¬ self.clears s := fun hclears => hfull hclears.2
      have hcleared : self.cleared = self := if_neg hfull
      simp only [Kronical.assign, hintern, if_neg hstay, hcleared]
      refine h.concat (h.consistent.add hmem) le_rfl
        (fun b hb hbtable => (h.current b hb hbtable).append s) ?_ rfl
      simp [InTable, StringInterner.add, List.idxOf_append_of_notMem hmem]

theorem Agrees.run {self : StringInterner} {table : Nat} {before : List Assigned}
    (h : Agrees self table before) (names : List String) :
    Agrees (Kronical.assign.run (self, table) names).1.1 (Kronical.assign.run (self, table) names).1.2
      (before ++ (Kronical.assign.run (self, table) names).2) := by
  induction names generalizing self table before with
  | nil => simpa using h
  | cons s names ih =>
    rw [Transducer.run_cons_fst, Transducer.run_cons_snd, ← List.append_assoc]
    exact ih (h.assign s)

theorem agrees_nil {interner : StringInterner} (h : interner.Consistent) (table : Nat) :
    Agrees interner table [] :=
  ⟨h, nofun, nofun, nofun⟩

namespace FocusEventProcessor

/-- The processor after any calls of `compress`. -/
def compressAll (self : FocusEventProcessor) (batches : List (List RawEvent)) : FocusEventProcessor :=
  batches.foldl (fun processor batch => (processor.compress batch).1) self

theorem consistent_compressAll {self : FocusEventProcessor} (h : self.stringInterner.Consistent)
    (batches : List (List RawEvent)) : (self.compressAll batches).stringInterner.Consistent := by
  induction batches generalizing self with
  | nil => exact h
  | cons batch batches ih =>
    refine ih ?_
    rw [← (assign_run_intern self 0 batch).2.1]
    exact ((agrees_nil h 0).run (namesOf batch)).consistent

end FocusEventProcessor

open FocusEventProcessor in
/-- For every capacity, every prior state of the interner and every batch: the pairs that the call
assigns are the names of its focus changes with the ids its compact events carry, and among the pairs of
one table, as long as it holds no more strings than there are ids, two ids are equal exactly if the
strings are. -/
theorem ids_of_table_unambiguous (maxStrings : Nat) (prior : List (List RawEvent))
    (events : List RawEvent) :
    let self := (withCap maxStrings).compressAll prior
    (self.assigned events).map (·.string) = namesOf events ∧
      (self.assigned events).map (·.id) =
        (self.compress events).2.flatMap (fun f => [f.appNameId, f.windowTitleId]) ∧
      ∀ a ∈ self.assigned events, ∀ b ∈ self.assigned events, a.table = b.table →
        a.size ≤ 2 ^ 16 → b.size ≤ 2 ^ 16 → (a.id = b.id ↔ a.string = b.string) := by
  intro self
  obtain ⟨hstrings, -, hids⟩ := assign_run_intern self 0 events
  have hconsistent : self.stringInterner.Consistent :=
    consistent_compressAll (StringInterner.consistent_withCap maxStrings) prior
  exact ⟨hstrings, hids, ((agrees_nil hconsistent 0).run (namesOf events)).unambiguous⟩

open FocusEventProcessor in
/-- With room for one string, the app's name and the window's title of one event get the same id. -/
theorem name_and_title_share_id :
    ¬ ∀ (maxStrings : Nat) (prior : List (List RawEvent)) (events : List RawEvent),
      ∀ a ∈ ((withCap maxStrings).compressAll prior).assigned events,
        ∀ b ∈ ((withCap maxStrings).compressAll prior).assigned events,
          a.id = b.id ↔ a.string = b.string := by
  intro h
  have hpair := h 1 [] [.windowFocusChange 0 1 (.sample "Editor" "a" 1)]
    ⟨"Editor", 0, 0, 1⟩ (by decide) ⟨"a", 0, 1, 1⟩ (by decide)
  exact absurd (hpair.mp rfl) (by decide)

end Kronical
