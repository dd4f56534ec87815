import Kronical.Lib.LruCache
import Kronical.Lib.Transducer
import Kronical.Lib.Uses

/-!
# The cache and the history of its uses

A key counts as used when it is put and when it is read with success. If the clock never shows the same
instant twice, a cache gives out the value that was put last for just those keys behind whose last use
fewer than `capacity` other keys have been used, if that use is no older than the time to live
(`lru_cache_refines`). What the cache has forgotten is either of too low a rank or expired
(`Tracks.lost`), and as long as a key is not expired the cache holds all keys that were used after it
(`Tracks.kept`).
-/

namespace Kronical

namespace LruCache

variable {κ ν : Type} [DecidableEq κ]

/-- A call of a method of the cache. -/
inductive CacheOp (κ ν : Type)
  | put (key : κ) (value : ν)
  | getCloned (key : κ)
  | anyEntryMatches (predicate : κ → ν → Bool)

def new (capacity : Nat) : Option Nat → LruCache κ ν
  | none => withCapacity capacity
  | some ttl => withCapacityAndTtl capacity ttl

/-- One call, and the use of a key that it makes. -/
def perform : Transducer (LruCache κ ν) (CacheOp κ ν × Tick) (κ × Instant)
  | self, (.put key value, tick) => (self.put key value tick, [(key, tick.now)])
  | self, (.getCloned key, tick) =>
    let (value, next) := self.getCloned key tick
    (next, if value.isSome then [(key, tick.now)] else [])
  | self, (.anyEntryMatches predicate, tick) => ((self.anyEntryMatches predicate tick).2, [])

/-- The value that the call puts for the key. -/
def putFor (key : κ) : CacheOp κ ν × Tick → Option ν
  | (.put key' value, _) => if key' = key then some value else none
  | _ => none

/-- The value that was put last for the key. -/
def latestPut (ops : List (CacheOp κ ν × Tick)) (key : κ) : Option ν :=
  (ops.filterMap (putFor key)).getLast?

theorem latestPut_concat (ops : List (CacheOp κ ν × Tick)) (op : CacheOp κ ν × Tick) (key : κ) :
    latestPut (ops ++ [op]) key = (putFor key op).or (latestPut ops key) := by
  unfold latestPut
  rw [List.filterMap_append, List.getLast?_append]
  cases h : putFor key op <;> simp [h]

/-! ### Expiry -/

omit [DecidableEq κ] in
theorem expired_mono {self : LruCache κ ν} {now now' ts ts' : Instant} (hnow : now ≤ now')
    (hts : ts' ≤ ts) (h : self.expired now ts = true) : self.expired now' ts' = true := by
  unfold expired at h ⊢
  split at h
  · rw [decide_eq_true_eq] at h ⊢
    exact h.trans_le ((Nat.sub_le_sub_right hnow ts).trans (Nat.sub_le_sub_left hts now'))
  · cases h

omit [DecidableEq κ] in
theorem expired_eq_false_iff {self : LruCache κ ν} {now ts : Instant} :
    self.expired now ts = false ↔ ∀ ttl ∈ self.ttl, now - ts ≤ ttl := by
  unfold expired
  cases self.ttl <;> simp

/-! ### The least entry -/

omit [DecidableEq κ] in
theorem oldest_spec {entries : List (κ × ν × Instant)} (hne : entries ≠ []) :
    ∃ least ∈ entries, oldest entries = some least ∧ ∀ entry ∈ entries, least.2.2 ≤ entry.2.2 := by
  induction entries using List.reverseRecOn with
  | nil => exact absurd rfl hne
  | append_singleton entries last ih =>
    rcases eq_or_ne entries [] with rfl | hne
    · refine ⟨last, List.mem_singleton_self last, rfl, ?_⟩
      intro entry hentry
      rw [List.mem_singleton.mp hentry]
    obtain ⟨least, hleast, holdest, hle⟩ := ih hne
    have hstep : oldest (entries ++ [last]) =
        if last.2.2 < least.2.2 then some last else some least := by
      unfold oldest at holdest ⊢
      rw [List.foldl_append, holdest]
      rfl
    rw [hstep]
    split_ifs with hless
    · refine ⟨last, List.mem_append_right _ (List.mem_singleton_self last), rfl, ?_⟩
      intro entry hentry
      rcases List.mem_append.mp hentry with hentry | hentry
      · exact hless.le.trans (hle entry hentry)
      · rw [List.mem_singleton.mp hentry]
    · refine ⟨least, List.mem_append_left _ hleast, rfl, ?_⟩
      intro entry hentry
      rcases List.mem_append.mp hentry with hentry | hentry
      · exact hle entry hentry
      · rw [List.mem_singleton.mp hentry]
        exact not_lt.mp hless

/-! ### What the cache knows of its history -/

/-- The cache at `now`, after these uses: what it holds is the latest value with the last use of its key,
and what it does not hold it would not have given out. -/
structure Tracks (latest : κ → Option ν) (uses : Uses κ Instant) (now : Instant) (cache : LruCache κ ν) :
    Prop where
  sorted : uses.Pairwise fun use use' => use.2 < use'.2
  past : ∀ use ∈ uses, use.2 < now
  found : ∀ {key value ts}, cache.map.lookup key = some (value, ts) →
    latest key = some value ∧ uses.last key = some ts
  kept : ∀ {key value ts}, cache.map.lookup key = some (value, ts) → cache.expired now ts = false →
    ∀ key' ∈ uses.since key ts, key' ∈ cache.map
  lost : ∀ {key ts}, uses.last key = some ts → key ∉ cache.map →
    cache.capacity ≤ (uses.since key ts).card ∨ cache.expired now ts = true

variable {latest latest' : κ → Option ν} {uses : Uses κ Instant} {now now' : Instant}
  {self after : LruCache κ ν}

theorem exists_lookup {key : κ} (h : key ∈ self.map) :
    ∃ value ts, self.map.lookup key = some (value, ts) := by
  obtain ⟨⟨value, ts⟩, hlookup⟩ := Option.isSome_iff_exists.mp (AList.lookup_isSome.mpr h)
  exact ⟨value, ts, hlookup⟩

theorem mem_of_lookup {key : κ} {entry : ν × Instant} (h : self.map.lookup key = some entry) :
    key ∈ self.map := AList.lookup_isSome.mp (by rw [h]; rfl)

theorem Tracks.lt_of_mem_since (h : self.Tracks latest uses now) {key key' : κ} {value : ν}
    {ts ts' : Instant} (hlookup : self.map.lookup key' = some (value, ts'))
    (hsince : key' ∈ uses.since key ts) : ts < ts' := by
  obtain ⟨-, t, hlt, hmem⟩ := Uses.mem_since.mp hsince
  obtain ⟨t', hlast, hle⟩ := Uses.le_last h.sorted hmem
  rw [(h.found hlookup).2] at hlast
  rw [Option.some.inj hlast]
  exact hlt.trans_le hle

/-- Nothing but expired entries is dropped, at the same instant or later. -/
theorem Tracks.drop (h : self.Tracks latest uses now) (hnow : now ≤ now')
    (hcapacity : after.capacity = self.capacity) (httl : after.ttl = self.ttl)
    (hsub : ∀ {key entry}, after.map.lookup key = some entry → self.map.lookup key = some entry)
    (hgone : ∀ {key value ts}, self.map.lookup key = some (value, ts) → key ∉ after.map →
      self.expired now' ts = true) : after.Tracks latest uses now' := by
  have hexpired : ∀ t ts, after.expired t ts = self.expired t ts := by
    intro t ts
    unfold expired
    rw [httl]
  refine ⟨h.sorted, fun use huse => (h.past use huse).trans_le hnow, fun hlookup =>
    h.found (hsub hlookup), ?_, ?_⟩
  · intro key value ts hlookup hlive key' hsince
    rw [hexpired] at hlive
    have hlive' : self.expired now ts = false :=
      Bool.eq_false_iff.mpr fun hold => by simp [expired_mono hnow (le_refl ts) hold] at hlive
    obtain ⟨value', ts', hlookup'⟩ := exists_lookup (h.kept (hsub hlookup) hlive' key' hsince)
    by_contra hnot
    -- The key that is dropped was used later, so `key` itself has expired.
    have hold := hgone hlookup' hnot
    have hlater := h.lt_of_mem_since hlookup' hsince
    rw [expired_mono (le_refl now') hlater.le hold] at hlive
    cases hlive
  · intro key ts hlast hnot
    rw [hcapacity, hexpired]
    by_cases hmem : key ∈ self.map
    · obtain ⟨value, ts', hlookup⟩ := exists_lookup hmem
      have hsame := (h.found hlookup).2
      rw [hlast] at hsame
      rw [Option.some.inj hsame]
      exact Or.inr (hgone hlookup hnot)
    · exact (h.lost hlast hmem).imp_right fun hold => expired_mono hnow (le_refl ts) hold

theorem Tracks.mono (h : self.Tracks latest uses now) (hnow : now ≤ now') :
    self.Tracks latest uses now' :=
  h.drop hnow rfl rfl id fun hlookup hnot => absurd (mem_of_lookup hlookup) hnot

theorem Tracks.touch (h : self.Tracks latest uses now) (hnow : now < now') {key : κ} {value : ν}
    (hlatest : latest' key = some value) (hother : ∀ key' ≠ key, latest' key' = latest key') :
    Tracks latest' (uses ++ [(key, now)]) now'
      { self with map := self.map.insert key (value, now) } where
  sorted := by
    refine List.pairwise_append.mpr ⟨h.sorted, List.pairwise_singleton _ _, ?_⟩
    intro use huse use' huse'
    rw [List.mem_singleton.mp huse']
    exact h.past use huse
  past use huse := by
    rcases List.mem_append.mp huse with huse | huse
    · exact (h.past use huse).trans hnow
    · rw [List.mem_singleton.mp huse]
      exact hnow
  found {key' value' ts} hlookup := by
    by_cases hkey : key' = key
    · subst hkey
      rw [AList.lookup_insert] at hlookup
      obtain ⟨rfl, rfl⟩ := Prod.mk.inj (Option.some.inj hlookup)
      exact ⟨hlatest, Uses.last_concat_self uses key' now⟩
    · rw [AList.lookup_insert_ne hkey] at hlookup
      rw [hother key' hkey, Uses.last_concat_of_ne uses hkey]
      exact h.found hlookup
  kept {key' value' ts} hlookup hlive k hsince := by
    refine (AList.mem_insert self.map).mpr ?_
    rcases Uses.mem_since_concat hsince with rfl | hbefore
    · exact Or.inl rfl
    by_cases hkey : key' = key
    · subst hkey
      rw [AList.lookup_insert] at hlookup
      obtain ⟨rfl, rfl⟩ := Prod.mk.inj (Option.some.inj hlookup)
      obtain ⟨-, t, hlt, huse⟩ := Uses.mem_since.mp hbefore
      exact absurd (h.past (k, t) huse) (lt_asymm hlt)
    · rw [AList.lookup_insert_ne hkey] at hlookup
      have hlive' : self.expired now ts = false := Bool.eq_false_iff.mpr fun hold => by
        have hold' : expired { self with map := self.map.insert key (value, now) } now' ts = true :=
          expired_mono hnow.le (le_refl ts) hold
        rw [hlive] at hold'
        cases hold'
      exact Or.inr (h.kept hlookup hlive' k hbefore)
  lost {key' ts} hlast hnot := by
    have hnot' : ¬ (key' = key ∨ key' ∈ self.map) := fun hmem =>
      hnot ((AList.mem_insert self.map).mpr hmem)
    rw [not_or] at hnot'
    rw [Uses.last_concat_of_ne uses hnot'.1] at hlast
    refine (h.lost hlast hnot'.2).imp ?_ ?_
    · intro hrank
      exact hrank.trans (Finset.card_le_card (Uses.since_subset_concat uses _ key' ts))
    · intro hold
      exact expired_mono hnow.le (le_refl ts) hold

theorem Tracks.evict (h : self.Tracks latest uses now) (order : IterOrder)
    (hsize : self.map.size ≤ self.capacity + 1) :
    (self.evictIfNeeded order).Tracks latest uses now ∧
      (self.evictIfNeeded order).map.size ≤ self.capacity := by
  unfold evictIfNeeded
  split_ifs with hfits
  · exact ⟨h, hfits⟩
  have hne : self.map.iter order ≠ [] := by
    intro hnil
    have hperm : (self.map.iter order).Perm self.map.pairs := HashMap.iter_perm
    rw [hnil] at hperm
    have hzero : self.map.size = 0 := hperm.length_eq.symm
    omega
  obtain ⟨⟨key, value, ts⟩, hmem, holdest, hle⟩ := oldest_spec hne
  have hlookup := HashMap.mem_iter.mp hmem
  have hleast : ∀ {key' value' ts'}, self.map.lookup key' = some (value', ts') → ts ≤ ts' :=
    fun hlookup' => hle _ (HashMap.mem_iter.mpr hlookup')
  rw [holdest]
  refine ⟨⟨h.sorted, h.past, ?_, ?_, ?_⟩, ?_⟩
  · intro key' value' ts' hlookup'
    by_cases hkey : key' = key
    · rw [hkey, AList.lookup_erase] at hlookup'
      cases hlookup'
    · rw [AList.lookup_erase_ne hkey] at hlookup'
      exact h.found hlookup'
  · intro key' value' ts' hlookup' hlive k hsince
    by_cases hkey : key' = key
    · rw [hkey, AList.lookup_erase] at hlookup'
      cases hlookup'
    rw [AList.lookup_erase_ne hkey] at hlookup'
    refine AList.mem_erase.mpr ⟨?_, h.kept hlookup' hlive k hsince⟩
    rintro rfl
    exact absurd (hleast hlookup') (not_le.mpr (h.lt_of_mem_since hlookup hsince))
  · intro key' ts' hlast hnot
    by_cases hkey : key' = key
    · subst hkey
      rw [(h.found hlookup).2] at hlast
      obtain rfl := Option.some.inj hlast
      left
      -- All other keys in the cache have been used since.
      have hsub : self.map.keys.toFinset.erase key' ⊆ uses.since key' ts := by
        intro k hk
        obtain ⟨hne', hk⟩ := Finset.mem_erase.mp hk
        obtain ⟨value', ts', hlookup'⟩ := exists_lookup (List.mem_toFinset.mp hk)
        have huse := Uses.mem_of_last (h.found hlookup').2
        refine Uses.mem_since.mpr ⟨hne', ts', lt_of_le_of_ne (hleast hlookup') ?_, huse⟩
        rintro rfl
        exact hne' (Uses.key_eq h.sorted huse (Uses.mem_of_last (h.found hlookup).2))
      have hcard := Finset.card_le_card hsub
      rw [Finset.card_erase_of_mem (List.mem_toFinset.mpr (mem_of_lookup hlookup)),
        ← HashMap.size_eq] at hcard
      show self.capacity ≤ _
      omega
    · exact h.lost hlast fun hmem => hnot (AList.mem_erase.mpr ⟨hkey, hmem⟩)
  · have hless := HashMap.size_erase_lt (mem_of_lookup hlookup)
    show HashMap.size (self.map.erase key) ≤ _
    omega

/-! ### Runs -/

theorem Shrinks.size_le (h : after.Shrinks self) : after.map.size ≤ self.map.size := by
  refine HashMap.size_mono fun key hmem => ?_
  obtain ⟨value, ts, hlookup⟩ := exists_lookup hmem
  obtain ⟨ts', hlookup'⟩ := peek_eq_some.mp (h.peek (peek_eq_some.mpr ⟨ts, hlookup⟩))
  exact mem_of_lookup hlookup'

theorem Tracks.getCloned (h : self.Tracks latest uses now) (hnow : now < now') (key : κ)
    (order : IterOrder) :
    Tracks latest (uses ++ if (self.getCloned key ⟨now, order⟩).1.isSome then [(key, now)] else []) now'
      (self.getCloned key ⟨now, order⟩).2 := by
  unfold LruCache.getCloned
  rcases hlookup : self.map.lookup key with _ | ⟨value, ts⟩
  · rw [if_neg (by simp), List.append_nil]
    exact h.mono hnow.le
  cases hexpired : self.expired now ts
  · simp only [hexpired, Bool.false_eq_true, if_false, Option.isSome_some, if_true]
    exact h.touch hnow (h.found hlookup).1 fun _ _ => rfl
  · simp only [hexpired, if_true, Option.isSome_none, Bool.false_eq_true, if_false, List.append_nil]
    refine h.drop hnow.le rfl rfl ?_ ?_
    · intro key' entry hlookup'
      by_cases hkey : key' = key
      · rw [hkey, AList.lookup_erase] at hlookup'
        cases hlookup'
      · rwa [AList.lookup_erase_ne hkey] at hlookup'
    · intro key' value' ts' hlookup' hnot
      by_cases hkey : key' = key
      · rw [hkey, hlookup] at hlookup'
        obtain ⟨rfl, rfl⟩ := Prod.mk.inj (Option.some.inj hlookup')
        exact expired_mono hnow.le (le_refl ts) hexpired
      · exact absurd (AList.mem_erase.mpr ⟨hkey, mem_of_lookup hlookup'⟩) hnot

theorem Tracks.anyEntryMatches (h : self.Tracks latest uses now) (hnow : now < now')
    (predicate : κ → ν → Bool) (order : IterOrder) :
    (self.anyEntryMatches predicate ⟨now, order⟩).2.Tracks latest uses now' := by
  unfold LruCache.anyEntryMatches
  split_ifs
  · exact h.mono hnow.le
  refine h.drop hnow.le rfl rfl ?_ ?_
  · intro key entry hlookup
    rw [HashMap.lookup_eraseAll] at hlookup
    split_ifs at hlookup
    exact hlookup
  · intro key value ts hlookup hnot
    have hgone : (self.map.eraseAll ((self.map.pairs.filter fun entry =>
        self.expired now entry.2.2).map Prod.fst)).lookup key = none := AList.lookup_eq_none.mpr hnot
    rw [HashMap.lookup_eraseAll, hlookup] at hgone
    split_ifs at hgone with hmem
    obtain ⟨⟨key', value', ts'⟩, hfilter, rfl⟩ := List.mem_map.mp hmem
    obtain ⟨hpair, hexpired⟩ := List.mem_filter.mp hfilter
    rw [HashMap.mem_pairs, hlookup] at hpair
    obtain ⟨rfl, rfl⟩ := Prod.mk.inj (Option.some.inj hpair)
    exact expired_mono hnow.le (le_refl ts) hexpired

theorem Tracks.put (h : self.Tracks latest uses now) (hnow : now < now')
    (hsize : self.map.size ≤ self.capacity) {key : κ} {value : ν} (order : IterOrder)
    (hlatest : latest' key = some value) (hother : ∀ key' ≠ key, latest' key' = latest key') :
    (self.put key value ⟨now, order⟩).Tracks latest' (uses ++ [(key, now)]) now' ∧
      (self.put key value ⟨now, order⟩).map.size ≤ self.capacity :=
  (h.touch hnow hlatest hother).evict order
    ((HashMap.size_insert_le self.map key (value, now)).trans (Nat.succ_le_succ hsize))

theorem evictIfNeeded_capacity (self : LruCache κ ν) (order : IterOrder) :
    (self.evictIfNeeded order).capacity = self.capacity := by
  unfold evictIfNeeded
  split_ifs
  · rfl
  · split <;> rfl

theorem perform_limits (self : LruCache κ ν) (op : CacheOp κ ν × Tick) :
    (perform self op).1.capacity = self.capacity ∧ (perform self op).1.ttl = self.ttl := by
  obtain ⟨_ | _ | _, tick⟩ := op
  · rename_i key value
    exact ⟨evictIfNeeded_capacity _ _, self.put_ttl key value tick⟩
  · rename_i key
    refine ⟨?_, (self.getCloned_shrinks key tick).ttl⟩
    show (self.getCloned key tick).2.capacity = _
    unfold LruCache.getCloned
    split
    · split_ifs <;> rfl
    · rfl
  · rename_i predicate
    refine ⟨?_, (self.anyEntryMatches_shrinks predicate tick).ttl⟩
    show (self.anyEntryMatches predicate tick).2.capacity = _
    unfold LruCache.anyEntryMatches
    split_ifs <;> rfl

theorem Tracks.perform {ops : List (CacheOp κ ν × Tick)} {op : CacheOp κ ν × Tick}
    (h : self.Tracks (latestPut ops) uses op.2.now) (hnow : op.2.now < now')
    (hsize : self.map.size ≤ self.capacity) :
    (LruCache.perform self op).1.Tracks (latestPut (ops ++ [op])) (uses ++ (LruCache.perform self op).2)
        now' ∧
      (LruCache.perform self op).1.map.size ≤ self.capacity := by
  have hsame : ∀ key, putFor key op = none → latestPut (ops ++ [op]) key = latestPut ops key := by
    intro key hnone
    rw [latestPut_concat, hnone, Option.none_or]
  obtain ⟨_ | _ | _, now, order⟩ := op
  · rename_i key value
    refine h.put hnow hsize order ?_ ?_
    · rw [latestPut_concat, putFor, if_pos rfl, Option.some_or]
    · intro key' hkey
      exact hsame key' (if_neg (Ne.symm hkey))
  · rename_i key
    rw [funext fun key' => hsame key' rfl]
    exact ⟨h.getCloned hnow key order, (self.getCloned_shrinks key ⟨now, order⟩).size_le.trans hsize⟩
  · rename_i predicate
    rw [funext fun key' => hsame key' rfl]
    refine ⟨?_, (self.anyEntryMatches_shrinks predicate ⟨now, order⟩).size_le.trans hsize⟩
    show Tracks _ (uses ++ []) _ _
    rw [List.append_nil]
    exact h.anyEntryMatches hnow predicate order

omit [DecidableEq κ] in
theorem new_limits (capacity : Nat) (ttl : Option Nat) :
    (new capacity ttl : LruCache κ ν).capacity = max capacity 1 ∧
      (new capacity ttl : LruCache κ ν).ttl = ttl ∧ (new capacity ttl : LruCache κ ν).map = ∅ := by
  cases ttl <;> exact ⟨rfl, rfl, rfl⟩

theorem run_limits (self : LruCache κ ν) (ops : List (CacheOp κ ν × Tick)) :
    (LruCache.perform.run self ops).1.capacity = self.capacity ∧
      (LruCache.perform.run self ops).1.ttl = self.ttl := by
  refine Transducer.run_state 
    (I := fun cache : LruCache κ ν => cache.capacity = self.capacity ∧ cache.ttl = self.ttl)
    ?_ ops ⟨rfl, rfl⟩
  intro cache op ⟨hcapacity, httl⟩
  exact ⟨(cache.perform_limits op).1.trans hcapacity, (cache.perform_limits op).2.trans httl⟩

theorem tracks_run (capacity : Nat) (ttl : Option Nat) (ops : List (CacheOp κ ν × Tick))
    (hclock : (ops.map (·.2.now)).Pairwise (· < ·)) {now : Instant} (hnow : ∀ op ∈ ops, op.2.now < now) :
    (LruCache.perform.run (new capacity ttl) ops).1.Tracks (latestPut ops)
        (LruCache.perform.run (new capacity ttl) ops).2 now ∧
      (LruCache.perform.run (new capacity ttl) ops).1.map.size ≤ max capacity 1 := by
  induction ops using List.reverseRecOn generalizing now with
  | nil =>
    obtain ⟨-, -, hmap⟩ := new_limits (κ := κ) (ν := ν) capacity ttl
    refine ⟨⟨List.Pairwise.nil, nofun, ?_, ?_, nofun⟩, ?_⟩
    · intro key value ts hlookup
      rw [Transducer.run_nil, hmap, AList.lookup_empty] at hlookup
      cases hlookup
    · intro key value ts hlookup
      rw [Transducer.run_nil, hmap, AList.lookup_empty] at hlookup
      cases hlookup
    · rw [Transducer.run_nil, hmap]
      exact Nat.zero_le _
  | append_singleton ops op ih =>
    rw [List.map_append, List.pairwise_append] at hclock
    obtain ⟨hbefore, -, hlast⟩ := hclock
    obtain ⟨htracks, hsize⟩ := ih hbefore fun earlier hearlier =>
      hlast _ (List.mem_map_of_mem hearlier) _ (List.mem_singleton_self _)
    have hcapacity := (run_limits (new capacity ttl) ops).1.trans (new_limits capacity ttl).1
    rw [← hcapacity] at hsize ⊢
    rw [Transducer.run_concat]
    exact htracks.perform (hnow op (List.mem_append_right _ (List.mem_singleton_self op))) hsize

/-- Fewer than the capacity of other keys have been used since the last use of the key, and that is no
older than the time to live. -/
def Recent (capacity : Nat) (ttl : Option Nat) (uses : Uses κ Instant) (key : κ) (now : Instant) : Prop :=
  ∃ ts, uses.last key = some ts ∧ (uses.since key ts).card < capacity ∧ ∀ d ∈ ttl, now - ts ≤ d

theorem Tracks.live_iff (h : self.Tracks latest uses now) (hsize : self.map.size ≤ self.capacity)
    (key : κ) (value : ν) :
    self.live key now = some value ↔
      latest key = some value ∧ Recent self.capacity self.ttl uses key now := by
  rw [live_eq_some]
  constructor
  · rintro ⟨ts, hlookup, hlive⟩
    obtain ⟨hlatest, hlast⟩ := h.found hlookup
    refine ⟨hlatest, ts, hlast, ?_, expired_eq_false_iff.mp hlive⟩
    -- The key and all that were used since fit into the cache.
    have hnot : key ∉ uses.since key ts := fun hmem => (Uses.mem_since.mp hmem).1 rfl
    have hcard : (insert key (uses.since key ts)).card ≤ self.map.size := by
      refine HashMap.card_le_size fun key' hkey' => ?_
      rcases Finset.mem_insert.mp hkey' with rfl | hsince
      · exact mem_of_lookup hlookup
      · exact h.kept hlookup hlive key' hsince
    rw [Finset.card_insert_of_notMem hnot] at hcard
    exact hcard.trans hsize
  · rintro ⟨hlatest, ts, hlast, hrank, hage⟩
    have hlive := expired_eq_false_iff.mpr hage
    have hmem : key ∈ self.map := by
      by_contra hnot
      rcases h.lost hlast hnot with hlow | hold
      · omega
      · rw [hlive] at hold
        cases hold
    obtain ⟨value', ts', hlookup⟩ := exists_lookup hmem
    obtain ⟨hlatest', hlast'⟩ := h.found hlookup
    rw [hlatest] at hlatest'
    rw [hlast] at hlast'
    obtain rfl := Option.some.inj hlatest'
    obtain rfl := Option.some.inj hlast'
    exact ⟨ts, hlookup, hlive⟩

end LruCache

open LruCache in
/-- For every capacity, time to live and sequence of calls whose clock never stands still: the cache holds
no more than its capacity, and gives out a value just if it is the one put last for a key that has been
used recently enough. -/
theorem lru_cache_refines {κ ν : Type} [DecidableEq κ] (capacity : Nat) (ttl : Option Nat)
    (ops : List (CacheOp κ ν × Tick)) (hclock : (ops.map (·.2.now)).Pairwise (· < ·)) :
    let cache := (LruCache.perform.run (LruCache.new capacity ttl) ops).1
    let uses := (LruCache.perform.run (LruCache.new capacity ttl) ops).2
    cache.map.size ≤ max capacity 1 ∧
      ∀ (key : κ) (value : ν) (tick : Tick), (∀ op ∈ ops, op.2.now < tick.now) →
        ((cache.getCloned key tick).1 = some value ↔
          latestPut ops key = some value ∧ Recent (max capacity 1) ttl uses key tick.now) := by
  intro cache uses
  have hcapacity : cache.capacity = max capacity 1 :=
    (run_limits (LruCache.new capacity ttl) ops).1.trans (new_limits capacity ttl).1
  have httl : cache.ttl = ttl :=
    (run_limits (LruCache.new capacity ttl) ops).2.trans (new_limits capacity ttl).2.1
  have hbound : ∃ now, ∀ op ∈ ops, op.2.now < now := by
    refine ⟨(ops.map (·.2.now)).sum + 1, fun op hop => Nat.lt_succ_of_le ?_⟩
    exact List.le_sum_of_mem (List.mem_map_of_mem hop)
  obtain ⟨later, hlater⟩ := hbound
  refine ⟨(tracks_run capacity ttl ops hclock hlater).2, ?_⟩
  intro key value tick hnow
  obtain ⟨htracks, hsize⟩ := tracks_run capacity ttl ops hclock hnow
  rw [getCloned_fst, ← httl, ← hcapacity]
  exact htracks.live_iff (hsize.trans_eq hcapacity.symm) key value

open LruCache in
/-- Two keys are put, the first one is read, and a third one is put. -/
def threeKeys : List (CacheOp String Nat × Tick) :=
  [(.put "a" 1, ⟨0, .ofEntries⟩), (.put "b" 2, ⟨1, .ofEntries⟩), (.getCloned "a", ⟨2, .ofEntries⟩),
    (.put "c" 3, ⟨3, .ofEntries⟩)]

open LruCache in
/-- The first key has been read since the second one was put, and is still there. -/
theorem lru_cache_refines_three :
    ((LruCache.perform.run (LruCache.new 2 none) threeKeys).1.getCloned "a" ⟨4, .ofEntries⟩).1 =
      some 1 :=
  ((lru_cache_refines 2 none threeKeys (by decide)).2 "a" 1 ⟨4, .ofEntries⟩ (by decide)).mpr
    ⟨by decide, 2, by decide +kernel, by decide +kernel, nofun⟩

end Kronical
