import Kronical.Lib.HashMap

/-!
# Bounded caches

A cache keeps a value for each of at most `capacity` keys, together with the instant at which the key
was last used. A full cache gives up the key that was used least recently; among keys used at the same
instant the iteration order of the hash map decides. With a time to live, a value that has not been
used for longer is no longer given out. Instants are nanoseconds on a clock that does not go back.

`peek` is what lies in the cache under a key, of any age, and `live` is what the cache would give out.
The rules below say what each operation does to them.
-/

namespace Kronical

/-- An `Instant`. -/
abbrev Instant := Nat

/-- What a cache operation finds around it: the clock and the order in which the map is iterated. -/
structure Tick where
  now : Instant
  order : IterOrder

structure LruCache (κ ν : Type) where
  map : HashMap κ (ν × Instant)
  capacity : Nat
  ttl : Option Nat

namespace LruCache

variable {κ ν : Type} [DecidableEq κ]

def withCapacity (capacity : Nat) : LruCache κ ν :=
  { map := ∅, capacity := max capacity 1, ttl := none }

def withCapacityAndTtl (capacity ttl : Nat) : LruCache κ ν :=
  { map := ∅, capacity := max capacity 1, ttl := some ttl }

/-- `now.duration_since(ts) > ttl`; a duration never gets below zero. -/
def expired (self : LruCache κ ν) (now ts : Instant) : Bool :=
  match self.ttl with
  | some ttl => ttl < now - ts
  | none => false

/-- A value that is given out counts as used, and an expired one is dropped. -/
def getCloned (self : LruCache κ ν) (key : κ) (tick : Tick) : Option ν × LruCache κ ν :=
  match self.map.lookup key with
  | some (v, ts) =>
    if self.expired tick.now ts then (none, { self with map := self.map.erase key })
    else (some v, { self with map := self.map.insert key (v, tick.now) })
  | none => (none, self)

/-- `min_by_key` on the instants: of several minima the one that is iterated first. -/
def oldest (entries : List (κ × ν × Instant)) : Option (κ × ν × Instant) :=
  entries.foldl (fun best entry =>
    match best with
    | some least => if entry.2.2 < least.2.2 then some entry else some least
    | none => some entry) none

def evictIfNeeded (self : LruCache κ ν) (order : IterOrder) : LruCache κ ν :=
  if self.map.size ≤ self.capacity then self
  else
    match oldest (self.map.iter order) with
    | some (key, _) => { self with map := self.map.erase key }
    | none => self

def put (self : LruCache κ ν) (key : κ) (value : ν) (tick : Tick) : LruCache κ ν :=
  evictIfNeeded { self with map := self.map.insert key (value, tick.now) } tick.order

/-- A match ends the search; only a search without one drops the expired entries. -/
def anyEntryMatches (self : LruCache κ ν) (predicate : κ → ν → Bool) (tick : Tick) :
    Bool × LruCache κ ν :=
  if self.map.pairs.any fun (key, v, ts) => !self.expired tick.now ts && predicate key v then
    (true, self)
  else
    (false, { self with
      map := self.map.eraseAll ((self.map.pairs.filter fun (_, _, ts) => self.expired tick.now ts).map
        Prod.fst) })

/-! ### What lies in a cache -/

/-- What lies under a key, of any age. -/
def peek (self : LruCache κ ν) (key : κ) : Option ν := (self.map.lookup key).map Prod.fst

/-- What the cache would give out for a key. -/
def live (self : LruCache κ ν) (key : κ) (now : Instant) : Option ν :=
  ((self.map.lookup key).filter fun entry => !self.expired now entry.2).map Prod.fst

theorem live_eq_some {self : LruCache κ ν} {key : κ} {now : Instant} {v : ν} :
    self.live key now = some v ↔
      ∃ ts, self.map.lookup key = some (v, ts) ∧ self.expired now ts = false := by
  simp [live, Option.filter_eq_some_iff, and_assoc]

theorem peek_eq_some {self : LruCache κ ν} {key : κ} {v : ν} :
    self.peek key = some v ↔ ∃ ts, self.map.lookup key = some (v, ts) := by
  simp [peek]

theorem peek_of_live {self : LruCache κ ν} {key : κ} {now : Instant} {v : ν}
    (h : self.live key now = some v) : self.peek key = some v := by
  obtain ⟨ts, hlookup, -⟩ := live_eq_some.mp h
  exact peek_eq_some.mpr ⟨ts, hlookup⟩

theorem live_eq_peek {self : LruCache κ ν} (h : self.ttl = none) (key : κ) (now : Instant) :
    self.live key now = self.peek key := by
  ext v
  rw [live_eq_some, peek_eq_some]
  simp [expired, h]

/-- The cache has lost entries at most. -/
structure Shrinks (after before : LruCache κ ν) : Prop where
  ttl : after.ttl = before.ttl
  peek : ∀ {key v}, after.peek key = some v → before.peek key = some v

/-- The cache gives out the same: no entry has come or gone. -/
structure Alike (after before : LruCache κ ν) : Prop where
  ttl : after.ttl = before.ttl
  peek : ∀ key, after.peek key = before.peek key

theorem Shrinks.refl (self : LruCache κ ν) : self.Shrinks self := ⟨rfl, id⟩

theorem Shrinks.trans {a b c : LruCache κ ν} (h : a.Shrinks b) (h' : b.Shrinks c) : a.Shrinks c :=
  ⟨h.ttl.trans h'.ttl, fun hpeek => h'.peek (h.peek hpeek)⟩

theorem Alike.refl (self : LruCache κ ν) : self.Alike self := ⟨rfl, fun _ => rfl⟩

theorem Alike.trans {a b c : LruCache κ ν} (h : a.Alike b) (h' : b.Alike c) : a.Alike c :=
  ⟨h.ttl.trans h'.ttl, fun key => (h.peek key).trans (h'.peek key)⟩

theorem Alike.symm {a b : LruCache κ ν} (h : a.Alike b) : b.Alike a :=
  ⟨h.ttl.symm, fun key => (h.peek key).symm⟩

/-! ### What the operations do -/

theorem getCloned_fst (self : LruCache κ ν) (key : κ) (tick : Tick) :
    (self.getCloned key tick).1 = self.live key tick.now := by
  unfold getCloned live
  rcases h : self.map.lookup key with _ | ⟨v, ts⟩
  · rfl
  · by_cases hexpired : self.expired tick.now ts <;> simp [hexpired]

theorem getCloned_shrinks (self : LruCache κ ν) (key : κ) (tick : Tick) :
    (self.getCloned key tick).2.Shrinks self := by
  unfold getCloned
  rcases h : self.map.lookup key with _ | ⟨v, ts⟩
  · exact .refl self
  · by_cases hexpired : self.expired tick.now ts
    · refine ⟨by simp [hexpired], fun {key' v'} hpeek => ?_⟩
      simp only [hexpired, if_true] at hpeek
      by_cases hkey : key' = key
      · subst hkey
        simp [peek] at hpeek
      · simpa [peek, AList.lookup_erase_ne hkey] using hpeek
    · refine ⟨by simp [hexpired], fun {key' v'} hpeek => ?_⟩
      simp only [hexpired, Bool.false_eq_true, if_false] at hpeek
      by_cases hkey : key' = key
      · subst hkey
        simpa [peek, h] using hpeek
      · simpa [peek, AList.lookup_insert_ne hkey] using hpeek

theorem getCloned_alike {self : LruCache κ ν} (httl : self.ttl = none) (key : κ) (tick : Tick) :
    (self.getCloned key tick).2.Alike self := by
  unfold getCloned
  rcases h : self.map.lookup key with _ | ⟨v, ts⟩
  · exact .refl self
  · have hexpired : self.expired tick.now ts = false := by simp [expired, httl]
    refine ⟨by simp [hexpired], fun key' => ?_⟩
    simp only [hexpired, Bool.false_eq_true, if_false]
    by_cases hkey : key' = key
    · subst hkey
      simp [peek, h]
    · simp [peek, AList.lookup_insert_ne hkey]

theorem live_getCloned_of_ne (self : LruCache κ ν) {key key' : κ} (hkey : key' ≠ key) (tick : Tick)
    (now : Instant) : (self.getCloned key tick).2.live key' now = self.live key' now := by
  unfold getCloned
  rcases h : self.map.lookup key with _ | ⟨v, ts⟩
  · rfl
  · by_cases hexpired : self.expired tick.now ts
    · simp only [hexpired, if_true, live, AList.lookup_erase_ne hkey]
      rfl
    · simp only [hexpired, Bool.false_eq_true, if_false, live, AList.lookup_insert_ne hkey]
      rfl

theorem evictIfNeeded_shrinks (self : LruCache κ ν) (order : IterOrder) :
    (self.evictIfNeeded order).Shrinks self := by
  unfold evictIfNeeded
  split_ifs
  · exact .refl self
  · split
    · rename_i key _ _
      refine ⟨rfl, fun {key' v} hpeek => ?_⟩
      by_cases hkey : key' = key
      · subst hkey
        simp [peek] at hpeek
      · simpa [peek, AList.lookup_erase_ne hkey] using hpeek
    · exact .refl self

theorem put_ttl (self : LruCache κ ν) (key : κ) (value : ν) (tick : Tick) :
    (self.put key value tick).ttl = self.ttl := (evictIfNeeded_shrinks _ _).ttl

theorem put_peek {self : LruCache κ ν} {key key' : κ} {value v : ν} {tick : Tick}
    (h : (self.put key value tick).peek key' = some v) :
    (key' = key ∧ v = value) ∨ (key' ≠ key ∧ self.peek key' = some v) := by
  have hpeek := (evictIfNeeded_shrinks _ _).peek h
  by_cases hkey : key' = key
  · subst hkey
    left
    simpa [peek, eq_comm] using hpeek
  · right
    simpa [peek, AList.lookup_insert_ne hkey, hkey] using hpeek

theorem anyEntryMatches_fst {self : LruCache κ ν} {predicate : κ → ν → Bool} {tick : Tick} :
    (self.anyEntryMatches predicate tick).1 = true ↔
      ∃ key v, self.live key tick.now = some v ∧ predicate key v = true := by
  have hany : (self.anyEntryMatches predicate tick).1 =
      self.map.pairs.any fun (key, v, ts) => !self.expired tick.now ts && predicate key v := by
    unfold anyEntryMatches
    split_ifs with h <;> simp [h]
  rw [hany, List.any_eq_true]
  constructor
  · rintro ⟨⟨key, v, ts⟩, hmem, h⟩
    rw [Bool.and_eq_true, Bool.not_eq_true'] at h
    exact ⟨key, v, live_eq_some.mpr ⟨ts, HashMap.mem_pairs.mp hmem, h.1⟩, h.2⟩
  · rintro ⟨key, v, hlive, h⟩
    obtain ⟨ts, hlookup, hexpired⟩ := live_eq_some.mp hlive
    exact ⟨(key, v, ts), HashMap.mem_pairs.mpr hlookup, by simp [hexpired, h]⟩

theorem anyEntryMatches_shrinks (self : LruCache κ ν) (predicate : κ → ν → Bool) (tick : Tick) :
    (self.anyEntryMatches predicate tick).2.Shrinks self := by
  unfold anyEntryMatches
  split_ifs
  · exact .refl self
  · refine ⟨rfl, fun {key v} hpeek => ?_⟩
    obtain ⟨ts, hlookup⟩ := peek_eq_some.mp hpeek
    rw [HashMap.lookup_eraseAll] at hlookup
    split_ifs at hlookup
    exact peek_eq_some.mpr ⟨ts, hlookup⟩

theorem anyEntryMatches_alike {self : LruCache κ ν} (httl : self.ttl = none)
    (predicate : κ → ν → Bool) (tick : Tick) :
    (self.anyEntryMatches predicate tick).2.Alike self := by
  have hnone : (self.map.pairs.filter fun (_, _, ts) => self.expired tick.now ts) = [] :=
    List.filter_eq_nil_iff.mpr fun _ _ => by simp [expired, httl]
  unfold anyEntryMatches
  split_ifs
  · exact .refl self
  · rw [hnone]
    exact .refl self

end LruCache

end Kronical
