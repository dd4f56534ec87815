import Mathlib.Algebra.Order.BigOperators.Group.List
import Mathlib.Algebra.Order.Ring.Nat
import Mathlib.Data.Finset.Card
import Mathlib.Data.List.AList
import Mathlib.Data.List.Induction

/-!
# Hash maps

A hash map holds a value for each of finitely many keys, and is iterated in an order that nothing
specifies: an `IterOrder` is any way to permute the pairs. `gather` folds items into a value, `tally`
folds them into a map by their keys, which comes to gathering the items of each key (`lookup_tally`).
-/

/-- A map from keys to values. -/
abbrev HashMap (κ ν : Type*) := AList fun _ : κ => ν

namespace HashMap

variable {κ ν ι : Type*}

/-! ### Pairs -/

/-- The keys with their values, in the order of the entries. -/
def pairs (m : HashMap κ ν) : List (κ × ν) := m.entries.map fun e => (e.1, e.2)

/-- The number of keys. -/
def size (m : HashMap κ ν) : Nat := m.pairs.length

theorem keys_nodup (m : HashMap κ ν) : (m.pairs.map Prod.fst).Nodup := by
  rw [pairs, List.map_map]
  exact AList.keys_nodup m

theorem pairs_nodup (m : HashMap κ ν) : m.pairs.Nodup := m.keys_nodup.of_map

variable [DecidableEq κ]

theorem mem_pairs {m : HashMap κ ν} {k : κ} {v : ν} : (k, v) ∈ m.pairs ↔ m.lookup k = some v := by
  have hlookup : m.lookup k = some v ↔ (⟨k, v⟩ : Sigma fun _ : κ => ν) ∈ m.entries := AList.mem_lookup_iff
  rw [hlookup, pairs, List.mem_map]
  constructor
  · rintro ⟨⟨k', v'⟩, hmem, heq⟩
    obtain ⟨rfl, rfl⟩ := Prod.mk.inj heq
    exact hmem
  · intro hmem
    exact ⟨_, hmem, rfl⟩

theorem ext_lookup {m m' : HashMap κ ν} (h : ∀ k, m.lookup k = m'.lookup k) :
    m.pairs.Perm m'.pairs := by
  refine (List.perm_ext_iff_of_nodup m.pairs_nodup m'.pairs_nodup).mpr fun ⟨k, v⟩ => ?_
  rw [mem_pairs, mem_pairs, h]

theorem pairs_perm {m : HashMap κ ν} {l : List (κ × ν)} (hnodup : (l.map Prod.fst).Nodup)
    (h : ∀ k v, m.lookup k = some v ↔ (k, v) ∈ l) : m.pairs.Perm l := by
  refine (List.perm_ext_iff_of_nodup m.pairs_nodup hnodup.of_map).mpr fun ⟨k, v⟩ => ?_
  rw [mem_pairs, h]

/-! ### Updates -/

/-- `entry(k).or_insert(fresh)`, followed by an update of the value there. -/
def upsert (m : HashMap κ ν) (k : κ) (fresh : ν) (update : ν → ν) : HashMap κ ν :=
  m.insert k (update ((m.lookup k).getD fresh))

theorem lookup_upsert (m : HashMap κ ν) (k k' : κ) (fresh : ν) (update : ν → ν) :
    (m.upsert k fresh update).lookup k' =
      if k' = k then some (update ((m.lookup k).getD fresh)) else m.lookup k' := by
  split_ifs with h
  · rw [h]
    exact AList.lookup_insert m
  · exact AList.lookup_insert_ne h

/-- The map with a list of keys removed. -/
def eraseAll (m : HashMap κ ν) (ks : List κ) : HashMap κ ν := ks.foldl (fun m k => m.erase k) m

theorem lookup_eraseAll (m : HashMap κ ν) (ks : List κ) (k : κ) :
    (m.eraseAll ks).lookup k = if k ∈ ks then none else m.lookup k := by
  induction ks generalizing m with
  | nil => rfl
  | cons k' ks ih =>
    rw [eraseAll, List.foldl_cons]
    refine (ih (m.erase k')).trans ?_
    by_cases hks : k ∈ ks
    · rw [if_pos hks, if_pos (List.mem_cons_of_mem _ hks)]
    · by_cases hk : k = k'
      · rw [if_neg hks, if_pos (by simp [hk]), hk]
        exact AList.lookup_erase k' m
      · rw [if_neg hks, if_neg (by simp [hk, hks])]
        exact AList.lookup_erase_ne hk

theorem eraseAll_append (m : HashMap κ ν) (ks ks' : List κ) :
    m.eraseAll (ks ++ ks') = (m.eraseAll ks).eraseAll ks' := List.foldl_append

theorem pairs_eraseAll {m : HashMap κ ν} {rest gone : List (κ × ν)} (h : m.pairs.Perm (rest ++ gone))
    {ks : List κ} (hks : ∀ k, k ∈ ks ↔ k ∈ gone.map Prod.fst) : (m.eraseAll ks).pairs.Perm rest := by
  have hnodup : ((rest ++ gone).map Prod.fst).Nodup := (h.map _).nodup_iff.mp m.keys_nodup
  rw [List.map_append, List.nodup_append] at hnodup
  obtain ⟨hrest, -, hdisjoint⟩ := hnodup
  refine pairs_perm hrest fun k v => ?_
  rw [lookup_eraseAll]
  by_cases hk : k ∈ ks
  · rw [if_pos hk]
    exact iff_of_false nofun fun hmem =>
      hdisjoint k (List.mem_map_of_mem hmem) k ((hks k).mp hk) rfl
  · rw [if_neg hk, ← mem_pairs, h.mem_iff, List.mem_append]
    exact or_iff_left fun hmem => hk ((hks k).mpr (List.mem_map_of_mem hmem))

/-- `retain`: the map without the pairs that are not kept. -/
def retain (m : HashMap κ ν) (keep : κ → ν → Bool) : HashMap κ ν :=
  m.eraseAll ((m.pairs.filter fun kv => !keep kv.1 kv.2).map Prod.fst)

theorem lookup_retain {m : HashMap κ ν} {keep : κ → ν → Bool} {k : κ} {v : ν} :
    (m.retain keep).lookup k = some v ↔ m.lookup k = some v ∧ keep k v := by
  have hgone : k ∈ (m.pairs.filter fun kv => !keep kv.1 kv.2).map Prod.fst ↔
      ∃ v, m.lookup k = some v ∧ keep k v = false := by
    simp [mem_pairs]
  rw [retain, lookup_eraseAll]
  by_cases hk : k ∈ (m.pairs.filter fun kv => !keep kv.1 kv.2).map Prod.fst
  · obtain ⟨v', hv', hdead⟩ := hgone.mp hk
    rw [if_pos hk, hv']
    refine iff_of_false nofun ?_
    rintro ⟨heq, hkeep⟩
    rw [Option.some.inj heq] at hdead
    exact absurd (hdead.symm.trans hkeep) nofun
  · rw [if_neg hk]
    refine ⟨fun h => ⟨h, ?_⟩, And.left⟩
    by_contra hdead
    exact hk (hgone.mpr ⟨v, h, by simpa using hdead⟩)

/-- The map with a list of pairs inserted, one after the other. -/
def insertAll (m : HashMap κ ν) (l : List (κ × ν)) : HashMap κ ν :=
  l.foldl (fun m kv => m.insert kv.1 kv.2) m

theorem lookup_insertAll {l : List (κ × ν)} (hnodup : (l.map Prod.fst).Nodup) (k : κ) (v : ν) :
    (insertAll (∅ : HashMap κ ν) l).lookup k = some v ↔ (k, v) ∈ l := by
  induction l using List.reverseRecOn with
  | nil =>
    refine iff_of_false ?_ List.not_mem_nil
    rw [insertAll, List.foldl_nil, AList.lookup_empty]
    nofun
  | append_singleton l kv ih =>
    rw [List.map_append, List.nodup_append] at hnodup
    obtain ⟨hfront, -, hdisjoint⟩ := hnodup
    have hstep : insertAll (∅ : HashMap κ ν) (l ++ [kv]) =
        (insertAll (∅ : HashMap κ ν) l).insert kv.1 kv.2 := by
      rw [insertAll, List.foldl_append]
      rfl
    obtain ⟨k', v'⟩ := kv
    rw [hstep, List.mem_append, List.mem_singleton, Prod.mk.injEq]
    by_cases hk : k = k'
    · subst hk
      have hfresh : (k, v) ∉ l := fun h =>
        hdisjoint k (List.mem_map_of_mem h) k (by simp) rfl
      rw [AList.lookup_insert, or_iff_right hfresh, and_iff_right rfl, Option.some.injEq, eq_comm]
    · rw [AList.lookup_insert_ne hk, ih hfront, or_iff_left (fun h => hk h.1)]

theorem pairs_insertAll {l : List (κ × ν)} (hnodup : (l.map Prod.fst).Nodup) :
    (insertAll (∅ : HashMap κ ν) l).pairs.Perm l :=
  pairs_perm hnodup (lookup_insertAll hnodup)

theorem pairs_insertAll_of_fresh {m : HashMap κ ν} {l : List (κ × ν)} (hnodup : (l.map Prod.fst).Nodup)
    (hfresh : ∀ kv ∈ l, kv.1 ∉ m) : (m.insertAll l).pairs.Perm (m.pairs ++ l) := by
  induction l generalizing m with
  | nil => simp [insertAll]
  | cons kv l ih =>
    obtain ⟨hkv, hrest⟩ := List.nodup_cons.mp hnodup
    have hfirst : pairs (m.insert kv.1 kv.2) = kv :: m.pairs := by
      rw [pairs, AList.entries_insert_of_notMem (hfresh kv List.mem_cons_self)]
      rfl
    have hnext : ∀ kv' ∈ l, kv'.1 ∉ (m.insert kv.1 kv.2 : HashMap κ ν) := by
      intro kv' hmem hin
      rcases (AList.mem_insert m).mp hin with heq | hin
      · exact hkv (heq ▸ List.mem_map_of_mem hmem)
      · exact hfresh kv' (List.mem_cons_of_mem _ hmem) hin
    have hperm := ih hrest hnext
    rw [hfirst] at hperm
    exact hperm.trans List.perm_middle.symm

theorem mem_iff_pairs {m : HashMap κ ν} {k : κ} : k ∈ m ↔ ∃ v, (k, v) ∈ m.pairs := by
  simp only [mem_pairs]
  rw [← AList.lookup_isSome, Option.isSome_iff_exists]

/-! ### Sizes -/

theorem size_eq (m : HashMap κ ν) : m.size = m.keys.toFinset.card := by
  rw [List.toFinset_card_of_nodup (AList.keys_nodup m), size, pairs, List.length_map]
  exact (List.length_map _).symm

theorem card_le_size {m : HashMap κ ν} {ks : Finset κ} (h : ∀ k ∈ ks, k ∈ m) : ks.card ≤ m.size := by
  rw [size_eq]
  exact Finset.card_le_card fun k hk => List.mem_toFinset.mpr (h k hk)

theorem size_le_card {m : HashMap κ ν} {ks : Finset κ} (h : ∀ k ∈ m, k ∈ ks) : m.size ≤ ks.card := by
  rw [size_eq]
  exact Finset.card_le_card fun k hk => h k (List.mem_toFinset.mp hk)

theorem size_insert_le (m : HashMap κ ν) (k : κ) (v : ν) :
    HashMap.size (m.insert k v) ≤ m.size + 1 := by
  have hkeys : ∀ k' ∈ m.insert k v, k' ∈ insert k m.keys.toFinset := by
    intro k' hk'
    rw [Finset.mem_insert, List.mem_toFinset]
    exact (AList.mem_insert m).mp hk'
  refine (size_le_card hkeys).trans ?_
  rw [size_eq m]
  exact Finset.card_insert_le _ _

theorem size_mono {m m' : HashMap κ ν} (h : ∀ k ∈ m, k ∈ m') : m.size ≤ m'.size := by
  rw [size_eq m']
  exact size_le_card fun k hk => List.mem_toFinset.mpr (h k hk)

theorem size_erase_lt {m : HashMap κ ν} {k : κ} (h : k ∈ m) : HashMap.size (m.erase k) < m.size := by
  rw [size_eq, size_eq]
  refine Finset.card_lt_card (Finset.ssubset_iff_of_subset ?_ |>.mpr ⟨k, List.mem_toFinset.mpr h, ?_⟩)
  · intro k' hk'
    exact List.mem_toFinset.mpr (AList.mem_erase.mp (List.mem_toFinset.mp hk')).2
  · intro hk
    exact (AList.mem_erase.mp (List.mem_toFinset.mp hk)).1 rfl

/-! ### Gathering -/

section Gather

variable (fresh : ι → ν) (add : ν → ι → ν)

/-- The items added up, from what is fresh for the first one. -/
def gather : List ι → Option ν
  | [] => none
  | x :: xs => some ((x :: xs).foldl add (fresh x))

theorem gather_concat (xs : List ι) (x : ι) :
    gather fresh add (xs ++ [x]) = some (add ((gather fresh add xs).getD (fresh x)) x) := by
  cases xs with
  | nil => rfl
  | cons y ys =>
    rw [List.cons_append, gather, ← List.cons_append, List.foldl_append]
    rfl

theorem gather_eq_none {xs : List ι} : gather fresh add xs = none ↔ xs = [] := by
  cases xs with
  | nil => exact iff_of_true rfl rfl
  | cons x xs => exact iff_of_false nofun nofun

theorem gather_perm (hfresh : ∀ x y, add (add (fresh x) x) y = add (add (fresh y) y) x)
    (hadd : ∀ v x y, add (add v x) y = add (add v y) x) {xs ys : List ι} (h : xs.Perm ys) :
    gather fresh add xs = gather fresh add ys := by
  induction h with
  | nil => rfl
  | cons x h _ => exact congrArg some (h.foldl_eq' (fun x _ y _ v => hadd v x y) _)
  | swap x y l => exact congrArg some (congrArg (l.foldl add) (hfresh y x))
  | trans _ _ ih ih' => exact ih.trans ih'

theorem gather_congr {fresh' : ι → ν} {xs : List ι} (h : ∀ x ∈ xs, fresh x = fresh' x) :
    gather fresh add xs = gather fresh' add xs := by
  cases xs with
  | nil => rfl
  | cons x xs => rw [gather, gather, h x List.mem_cons_self]

theorem gather_append {μ : Type*} (f : ι → μ) (xs : List ι) :
    gather (fun _ => []) (fun ys x => ys ++ [f x]) xs = if xs = [] then none else some (xs.map f) := by
  induction xs using List.reverseRecOn with
  | nil => rfl
  | append_singleton xs x ih =>
    rw [gather_concat, ih, if_neg (List.concat_ne_nil x xs), List.map_append]
    split_ifs with h
    · rw [h]
      rfl
    · rfl

/-- The items by their keys, those of each key added up. -/
def tally (key : ι → κ) (items : List ι) : HashMap κ ν :=
  items.foldl (fun m x => m.upsert (key x) (fresh x) (add · x)) ∅

/-- Under each key a tally holds what the items of the key come to. -/
theorem lookup_tally (key : ι → κ) (items : List ι) (k : κ) :
    (tally fresh add key items).lookup k = gather fresh add (items.filter (key · = k)) := by
  induction items using List.reverseRecOn with
  | nil => exact AList.lookup_empty k
  | append_singleton items x ih =>
    have hstep : tally fresh add key (items ++ [x]) =
        (tally fresh add key items).upsert (key x) (fresh x) (add · x) := by
      rw [tally, List.foldl_append]
      rfl
    rw [hstep, lookup_upsert, List.filter_append]
    by_cases hk : k = key x
    · subst hk
      rw [if_pos rfl, ih, List.filter_singleton, decide_eq_true rfl, cond_true, gather_concat]
    · rw [if_neg hk, ih, List.filter_singleton, decide_eq_false (Ne.symm hk), cond_false,
        List.append_nil]

theorem mem_keys_tally {key : ι → κ} {items : List ι} {k : κ} :
    k ∈ (tally fresh add key items).pairs.map Prod.fst ↔ ∃ x ∈ items, key x = k := by
  have hsome : k ∈ (tally fresh add key items).pairs.map Prod.fst ↔
      (tally fresh add key items).lookup k ≠ none := by
    rw [Option.ne_none_iff_exists', List.mem_map]
    constructor
    · rintro ⟨⟨k', v⟩, hmem, rfl⟩
      exact ⟨v, mem_pairs.mp hmem⟩
    · rintro ⟨v, hv⟩
      exact ⟨(k, v), mem_pairs.mpr hv, rfl⟩
  rw [hsome, lookup_tally, Ne, gather_eq_none, List.filter_eq_nil_iff]
  simp

end Gather

theorem flatMap_filter_perm (key : ι → κ) {ks : List κ} (hks : ks.Nodup) (l : List ι) :
    (ks.flatMap fun k => l.filter (key · = k)).Perm (l.filter (key · ∈ ks)) := by
  induction ks with
  | nil => simp
  | cons k ks ih =>
    obtain ⟨hk, hks⟩ := List.nodup_cons.mp hks
    rw [List.flatMap_cons]
    refine ((ih hks).append_left _).trans ?_
    have hsplit := List.filter_append_perm (fun x => decide (key x = k))
      (l.filter fun x => key x ∈ k :: ks)
    have hfirst : (l.filter fun x => key x ∈ k :: ks).filter (fun x => key x = k) =
        l.filter (key · = k) := by
      rw [List.filter_filter]
      exact List.filter_congr fun x _ => by by_cases hx : key x = k <;> simp [hx]
    have hrest : (l.filter fun x => key x ∈ k :: ks).filter (fun x => !decide (key x = k)) =
        l.filter (key · ∈ ks) := by
      rw [List.filter_filter]
      exact List.filter_congr fun x _ => by by_cases hx : key x = k <;> simp [hx, hk]
    rwa [hfirst, hrest] at hsplit

theorem flatMap_eq_of_perm {α β : Type*} {f : α → List β} {l l' : List α} (h : l.Perm l')
    (hone : ∀ a ∈ l, ∀ b ∈ l, f a ≠ [] → f b ≠ [] → a = b) : l.flatMap f = l'.flatMap f := by
  induction h with
  | nil => rfl
  | cons x _ ih =>
    rw [List.flatMap_cons, List.flatMap_cons,
      ih fun a ha b hb => hone a (List.mem_cons_of_mem _ ha) b (List.mem_cons_of_mem _ hb)]
  | swap x y l =>
    simp only [List.flatMap_cons]
    by_cases hx : f x = []
    · rw [hx, List.nil_append]
      rfl
    · by_cases hy : f y = []
      · rw [hy, List.nil_append]
        rfl
      · rw [hone x (by simp) y (by simp) hx hy]
  | trans hfirst _ ih ih' =>
    refine (ih hone).trans (ih' fun a ha b hb => ?_)
    exact hone a (hfirst.mem_iff.mpr ha) b (hfirst.mem_iff.mpr hb)

theorem head?_flatMap {α β : Type*} {f : α → List β} {l : List α} {b : β}
    (h : (l.flatMap f).head? = some b) :
    ∃ a, (l.filter fun a => !(f a).isEmpty).head? = some a ∧ b ∈ f a := by
  induction l with
  | nil => cases h
  | cons a l ih =>
    rw [List.flatMap_cons] at h
    rw [List.filter_cons]
    by_cases ha : f a = []
    · rw [ha, List.nil_append] at h
      rw [if_neg (by simp [ha])]
      exact ih h
    · rw [List.head?_append_of_ne_nil _ ha] at h
      rw [if_pos (by simp [ha])]
      exact ⟨a, rfl, List.mem_of_mem_head? h⟩

theorem eq_singleton {α : Type*} {l : List α} (hnodup : l.Nodup) {a : α} (hhead : l.head? = some a)
    (hlast : l.getLast? = some a) : l = [a] := by
  match l with
  | [b] => exact congrArg (fun b => [b]) (Option.some.inj hhead)
  | b :: c :: l =>
    obtain rfl := Option.some.inj hhead
    rw [List.getLast?_cons_cons] at hlast
    exact absurd (List.mem_of_mem_getLast? hlast) (List.nodup_cons.mp hnodup).1

theorem sum_filter_eq (key : ι → κ) {ks : List κ} (hks : ks.Nodup) (f : ι → Nat) (l : List ι) :
    (ks.map fun k => ((l.filter (key · = k)).map f).sum).sum = ((l.filter (key · ∈ ks)).map f).sum := by
  rw [← ((flatMap_filter_perm key hks l).map f).sum_nat, List.map_flatMap, List.flatMap_def,
    List.sum_flatten, List.map_map]
  rfl

theorem sum_filter_le (key : ι → κ) {ks : List κ} (hks : ks.Nodup) (f : ι → Nat) (l : List ι) :
    (ks.map fun k => ((l.filter (key · = k)).map f).sum).sum ≤ (l.map f).sum := by
  rw [sum_filter_eq key hks]
  exact (List.filter_sublist.map f).sum_le_sum fun _ _ => Nat.zero_le _

end HashMap

/-! ### Iteration -/

/-- An order of iteration: a way to permute any list of pairs. -/
structure IterOrder where
  apply : {α : Type} → List α → List α
  perm : ∀ {α : Type} (l : List α), (apply l).Perm l

namespace IterOrder

instance : CoeFun IterOrder fun _ => {α : Type} → List α → List α := ⟨IterOrder.apply⟩

/-- The order of the entries. -/
def ofEntries : IterOrder := ⟨fun l => l, fun l => .refl l⟩

/-- The order of the entries from the last to the first. -/
def backwards : IterOrder := ⟨List.reverse, List.reverse_perm⟩

@[simp] theorem ofEntries_apply {α : Type} (l : List α) : ofEntries l = l := rfl

@[simp] theorem backwards_apply {α : Type} (l : List α) : backwards l = l.reverse := rfl

end IterOrder

namespace HashMap

/-- The pairs in the order in which they are iterated. -/
def iter {κ ν : Type} (m : HashMap κ ν) (order : IterOrder) : List (κ × ν) := order m.pairs

variable {κ ν : Type} {m : HashMap κ ν} {order : IterOrder}

theorem iter_perm : (m.iter order).Perm m.pairs := order.perm _

theorem iter_keys_nodup : ((m.iter order).map Prod.fst).Nodup :=
  (iter_perm.map Prod.fst).nodup_iff.mpr m.keys_nodup

theorem mem_iter [DecidableEq κ] {k : κ} {v : ν} : (k, v) ∈ m.iter order ↔ m.lookup k = some v :=
  iter_perm.mem_iff.trans mem_pairs

end HashMap
