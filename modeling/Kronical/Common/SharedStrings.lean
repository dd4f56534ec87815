import Kronical.Lib.HashMap
import Kronical.Lib.Machine
import Kronical.Lib.RefHeap

/-!
# Shared strings

The focus worker's `StringInterner` maps each text to a weak reference to the string that it made for the
text, so that the focus infos that are alive share their texts. Before each use it forgets the strings that
have died, and all of them when that leaves too many; so it stays small whatever is kept alive, and what it
returns has the text that was asked for. As long as few strings live it forgets none of them, and no two
living strings have one text (`interned_shared`).
-/

namespace Kronical.Common

/-- The `Weak` of a text is the number of its allocation. -/
structure StringInterner where
  map : HashMap String Nat
  maxEntries : Nat

namespace StringInterner

def new : StringInterner := { map := ∅, maxEntries := 4096 }

def cleanupDeadReferences (self : StringInterner) (heap : RefHeap String) : StringInterner :=
  let map := self.map.retain fun _ weakRef => 0 < heap.strongCount weakRef
  if self.maxEntries ≤ map.size then { self with map := ∅ } else { self with map }

/-- The interner and the heap afterwards, and the `Arc` that is returned. -/
def intern (self : StringInterner) (heap : RefHeap String) (s : String) :
    StringInterner × RefHeap String × Nat :=
  let self := self.cleanupDeadReferences heap
  match (self.map.lookup s).bind heap.upgrade with
  | some (heap, arcString) => (self, heap, arcString)
  | none =>
    let self := if self.maxEntries ≤ self.map.size then self.cleanupDeadReferences heap else self
    let (heap, arcString) := heap.alloc s
    ({ self with map := self.map.insert s arcString }, heap, arcString)

end StringInterner

/-- An interner with the strings that it has made. -/
structure SharedStrings where
  heap : RefHeap String
  interner : StringInterner

namespace SharedStrings

/-- What is done to shared strings: one is interned, or a holder of an `Arc` clones or drops it. -/
inductive Action
  | intern (s : String)
  | clone (arc : Nat)
  | drop (arc : Nat)

/-- An `Arc` that is cloned or dropped is held by someone. -/
def step (self : SharedStrings) : Action → Option SharedStrings
  | .intern s =>
    let (interner, heap, _) := self.interner.intern self.heap s
    some { heap, interner }
  | .clone arc =>
    if 0 < self.heap.strongCount arc then some { self with heap := self.heap.clone arc } else none
  | .drop arc =>
    if 0 < self.heap.strongCount arc then some { self with heap := self.heap.release arc } else none

def sharing : Machine SharedStrings Action where
  start s := s = { heap := [], interner := .new }
  step := step

/-- A string is interned only while fewer of them live than the interner may hold. -/
def Roomy (s : SharedStrings) : Action → Prop
  | .intern _ => s.heap.live.card < s.interner.maxEntries
  | .clone _ | .drop _ => True

instance (s : SharedStrings) (a : Action) : Decidable (s.Roomy a) := by
  cases a <;> unfold Roomy <;> infer_instance

/-! ### Cleaning up -/

/-- The interner stays below its bound, and each text is mapped to an allocation of that text. -/
structure Sound (interner : StringInterner) (heap : RefHeap String) : Prop where
  bound : interner.map.size ≤ interner.maxEntries
  limit : interner.maxEntries = 4096
  mapped : ∀ s p, interner.map.lookup s = some p → heap.valueOf p = some s

variable {interner : StringInterner} {heap : RefHeap String}

theorem lookup_cleanup {s : String} {p : Nat}
    (h : (interner.cleanupDeadReferences heap).map.lookup s = some p) :
    interner.map.lookup s = some p ∧ 0 < heap.strongCount p := by
  unfold StringInterner.cleanupDeadReferences at h
  simp only at h
  split_ifs at h with hfull
  · exact absurd h (by simp)
  · obtain ⟨hlookup, hcount⟩ := HashMap.lookup_retain.mp h
    exact ⟨hlookup, by simpa using hcount⟩

@[simp]
theorem cleanup_maxEntries :
    (interner.cleanupDeadReferences heap).maxEntries = interner.maxEntries := by
  unfold StringInterner.cleanupDeadReferences
  simp only
  split_ifs <;> rfl

theorem cleanup_size (heap : RefHeap String) (hpos : 0 < interner.maxEntries) :
    (interner.cleanupDeadReferences heap).map.size < interner.maxEntries := by
  unfold StringInterner.cleanupDeadReferences
  simp only
  split_ifs with hfull
  · exact hpos
  · simpa using hfull

theorem Sound.size_retain_le (h : Sound interner heap) :
    (interner.map.retain fun _ weakRef => 0 < heap.strongCount weakRef).size ≤ heap.live.card := by
  rw [HashMap.size_eq]
  refine Finset.card_le_card_of_injOn (fun s => (interner.map.lookup s).getD 0) ?_ ?_
  · intro s hs
    obtain ⟨p, hp⟩ := Option.isSome_iff_exists.mp (AList.lookup_isSome.mpr (List.mem_toFinset.mp hs))
    obtain ⟨hlookup, hcount⟩ := HashMap.lookup_retain.mp hp
    simp only [hlookup, Option.getD_some]
    exact RefHeap.mem_live.mpr ⟨s, RefHeap.get_eq_some.mpr ⟨h.mapped s p hlookup, by simpa using hcount⟩⟩
  · intro s hs s' hs' heq
    obtain ⟨p, hp⟩ := Option.isSome_iff_exists.mp (AList.lookup_isSome.mpr (List.mem_toFinset.mp hs))
    obtain ⟨p', hp'⟩ := Option.isSome_iff_exists.mp (AList.lookup_isSome.mpr (List.mem_toFinset.mp hs'))
    have hlookup := (HashMap.lookup_retain.mp hp).1
    have hlookup' := (HashMap.lookup_retain.mp hp').1
    simp only [hlookup, hlookup', Option.getD_some] at heq
    have hvalue := h.mapped s p hlookup
    rw [heq, h.mapped s' p' hlookup'] at hvalue
    exact (Option.some.inj hvalue).symm

theorem Sound.lookup_cleanup_of_lt (h : Sound interner heap) (hfew : heap.live.card < interner.maxEntries)
    {s : String} {p : Nat} (hlookup : interner.map.lookup s = some p) (hcount : 0 < heap.strongCount p) :
    (interner.cleanupDeadReferences heap).map.lookup s = some p := by
  unfold StringInterner.cleanupDeadReferences
  simp only
  rw [if_neg (by have := h.size_retain_le; omega)]
  exact HashMap.lookup_retain.mpr ⟨hlookup, by simpa using hcount⟩

/-! ### Interning -/

theorem intern_cases (heap : RefHeap String) (hpos : 0 < interner.maxEntries) (s : String) :
    (∃ p, interner.map.lookup s = some p ∧ 0 < heap.strongCount p ∧
      interner.intern heap s = (interner.cleanupDeadReferences heap, heap.clone p, p)) ∨
    ((interner.cleanupDeadReferences heap).map.lookup s = none ∧
      interner.intern heap s =
        ({ interner.cleanupDeadReferences heap with
            map := (interner.cleanupDeadReferences heap).map.insert s heap.length },
          (heap.alloc s).1, heap.length)) := by
  have hroom := cleanup_size heap hpos
  unfold StringInterner.intern
  simp only
  cases hlookup : (interner.cleanupDeadReferences heap).map.lookup s with
  | none =>
    refine .inr ⟨rfl, ?_⟩
    rw [Option.bind_none, if_neg (by rw [cleanup_maxEntries]; omega)]
    rfl
  | some p =>
    obtain ⟨hmapped, hcount⟩ := lookup_cleanup hlookup
    refine .inl ⟨p, hmapped, hcount, ?_⟩
    simp [RefHeap.upgrade, hcount]

theorem intern_spec (h : Sound interner heap) (s : String) :
    let (interner', heap', arcString) := interner.intern heap s
    Sound interner' heap' ∧ ∀ p v, heap'.get p = some v ↔ heap.get p = some v ∨ p = arcString ∧ v = s := by
  have hpos : 0 < interner.maxEntries := by
    rw [h.limit]
    omega
  have hroom := cleanup_size heap hpos
  rcases intern_cases heap hpos s with ⟨p, hlookup, hcount, heq⟩ | ⟨-, heq⟩
  · simp only [heq]
    refine ⟨⟨?_, ?_, ?_⟩, fun q v => ?_⟩
    · simpa using hroom.le
    · simpa using h.limit
    · intro s p hp
      rw [RefHeap.valueOf_clone]
      exact h.mapped s p (lookup_cleanup hp).1
    · have hlive : heap.get p = some s := RefHeap.get_eq_some.mpr ⟨h.mapped s p hlookup, hcount⟩
      rw [RefHeap.get_clone hcount]
      refine ⟨.inl, ?_⟩
      rintro (hq | ⟨rfl, rfl⟩)
      · exact hq
      · exact hlive
  · simp only [heq]
    refine ⟨⟨?_, ?_, ?_⟩, fun p v => RefHeap.get_alloc.trans or_comm⟩
    · have hinsert := HashMap.size_insert_le (interner.cleanupDeadReferences heap).map s heap.length
      simp only [cleanup_maxEntries]
      omega
    · simpa using h.limit
    · intro s' p hp
      by_cases hs : s' = s
      · subst hs
        rw [AList.lookup_insert] at hp
        rw [← Option.some.inj hp]
        exact RefHeap.valueOf_alloc_self
      · rw [AList.lookup_insert_ne hs] at hp
        have hvalue := h.mapped s' p (lookup_cleanup hp).1
        rwa [RefHeap.valueOf_alloc_of_lt (RefHeap.lt_of_valueOf hvalue)]

/-! ### Runs -/

theorem step_cases {s t : SharedStrings} {a : Action} (h : sharing.step s a = some t) :
    (∃ text, a = .intern text ∧
      t = { heap := (s.interner.intern s.heap text).2.1, interner := (s.interner.intern s.heap text).1 }) ∨
    (∃ arc, 0 < s.heap.strongCount arc ∧ t = { s with heap := s.heap.clone arc }) ∨
    ∃ arc, t = { s with heap := s.heap.release arc } := by
  cases a with
  | intern text => exact .inl ⟨text, rfl, (Option.some.inj h).symm⟩
  | clone arc =>
    simp only [sharing, step] at h
    split_ifs at h with hcount
    exact .inr (.inl ⟨arc, hcount, (Option.some.inj h).symm⟩)
  | drop arc =>
    simp only [sharing, step] at h
    split_ifs at h
    exact .inr (.inr ⟨arc, (Option.some.inj h).symm⟩)

theorem sound_of_reach {ok : SharedStrings → Action → Prop} {s : SharedStrings} (hs : sharing.Reach ok s) :
    Sound s.interner s.heap := by
  refine hs.invariant (I := fun s => Sound s.interner s.heap) ?_ ?_
  · rintro s rfl
    exact ⟨by decide, rfl, fun s p hp => absurd hp (by simp [StringInterner.new])⟩
  · intro s a t _ _ hstep h
    obtain ⟨text, -, rfl⟩ | ⟨arc, -, rfl⟩ | ⟨arc, rfl⟩ := step_cases hstep
    · exact (intern_spec h text).1
    · exact ⟨h.bound, h.limit, fun s p hp => by simpa using h.mapped s p hp⟩
    · exact ⟨h.bound, h.limit, fun s p hp => by simpa using h.mapped s p hp⟩

/-- Every string that lives is the one that its text is mapped to. -/
def AllMapped (s : SharedStrings) : Prop :=
  ∀ p text, s.heap.get p = some text → s.interner.map.lookup text = some p

theorem AllMapped.intern {s : SharedStrings} (h : s.AllMapped) (hsound : Sound s.interner s.heap)
    (hfew : s.heap.live.card < s.interner.maxEntries) (text : String) :
    AllMapped { heap := (s.interner.intern s.heap text).2.1, interner := (s.interner.intern s.heap text).1 } := by
  have hkept : ∀ p v, s.heap.get p = some v →
      (s.interner.cleanupDeadReferences s.heap).map.lookup v = some p := fun p v hp =>
    hsound.lookup_cleanup_of_lt hfew (h p v hp) (RefHeap.get_eq_some.mp hp).2
  have hpos : 0 < s.interner.maxEntries := by omega
  rcases intern_cases s.heap hpos text with ⟨p, -, hcount, heq⟩ | ⟨hfresh, heq⟩
  · intro q v hq
    simp only [heq] at hq ⊢
    rw [RefHeap.get_clone hcount] at hq
    exact hkept q v hq
  · intro q v hq
    simp only [heq] at hq ⊢
    rcases RefHeap.get_alloc.mp hq with ⟨rfl, rfl⟩ | hq
    · exact AList.lookup_insert _
    · have hlookup := hkept q v hq
      have hne : v ≠ text := by
        rintro rfl
        exact absurd (hfresh.symm.trans hlookup) nofun
      rwa [AList.lookup_insert_ne hne]

theorem allMapped_of_reach {s : SharedStrings} (hs : sharing.Reach Roomy s) : s.AllMapped := by
  refine hs.invariant ?_ ?_
  · rintro s rfl p text hp
    exact absurd hp (by simp [RefHeap.get, RefHeap.strongCount])
  · intro s a t hreach hok hstep h
    obtain ⟨text, rfl, rfl⟩ | ⟨arc, hcount, rfl⟩ | ⟨arc, rfl⟩ := step_cases hstep
    · exact h.intern (sound_of_reach hreach) hok text
    · intro p v hp
      rw [RefHeap.get_clone hcount] at hp
      exact h p v hp
    · exact fun p v hp => h p v (RefHeap.get_of_release hp)

/-- However strings are interned and held, the interner has at most 4096 entries, and `intern` returns a
living string with the text, while nothing else comes to life or dies. As long as fewer than 4096 strings
live whenever one is interned, no two living strings have one text. -/
theorem interned_shared :
    (∀ s, sharing.Reachable s → s.interner.map.size ≤ 4096 ∧ ∀ text p v,
      (s.interner.intern s.heap text).2.1.get p = some v ↔
        s.heap.get p = some v ∨ p = (s.interner.intern s.heap text).2.2 ∧ v = text) ∧
    ∀ s, sharing.Reach Roomy s → ∀ p q text,
      s.heap.get p = some text → s.heap.get q = some text → p = q := by
  constructor
  · intro s hs
    have hsound := sound_of_reach hs
    exact ⟨hsound.limit ▸ hsound.bound, fun text => (intern_spec hsound text).2⟩
  · intro s hs p q text hp hq
    have hmapped := allMapped_of_reach hs
    exact Option.some.inj ((hmapped p text hp).symm.trans (hmapped q text hq))

/-- A title is interned twice and dropped, and interned twice again. -/
def retitled : List Action :=
  [.intern "Inbox", .intern "Safari", .intern "Inbox", .drop 0, .drop 0, .intern "Inbox", .intern "Inbox"]

/-- A title that has died is made again, and then shared again. -/
theorem interned_shared_retitled :
    ∃ s, sharing.execWithin Roomy { heap := [], interner := .new } retitled = some s ∧
      s.heap = [("Inbox", 0), ("Safari", 1), ("Inbox", 2)] ∧ s.interner.map.size ≤ 4096 ∧
      ∀ p, s.heap.get p = some "Inbox" → p = 2 := by
  obtain ⟨s, hs, hheap⟩ := Option.map_eq_some_iff.mp (show
    (sharing.execWithin Roomy { heap := [], interner := .new } retitled).map heap =
      some [("Inbox", 0), ("Safari", 1), ("Inbox", 2)] by decide +kernel)
  have hreach : sharing.Reach Roomy s := .execWithin (.start rfl) hs
  have hinbox : s.heap.get 2 = some "Inbox" := by
    rw [hheap]
    decide
  exact ⟨s, hs, hheap, (interned_shared.1 s hreach.reachable).1,
    fun p hp => interned_shared.2 s hreach p 2 "Inbox" hp hinbox⟩

end SharedStrings

end Kronical.Common
