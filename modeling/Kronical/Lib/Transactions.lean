import Kronical.Lib.HashMap

/-!
# Statements in transactions

A connection has a table and, while a transaction is open, what the transaction has made of it. A statement
that fails changes nothing, and a program stops at it with the transaction as it is. Rows are keyed:
`insertRow` refuses a key that is there, `replaceRow` overwrites it.
-/

/-- A table, and what an open transaction would make of it. -/
structure Connection (τ : Type) where
  committed : τ
  transaction : Option τ

namespace Connection

variable {τ ι : Type}

/-- A program that stops at the first statement that fails. -/
abbrev Program (τ : Type) : Type → Type := EStateM Unit (Connection τ)

/-- A statement; `fails` are the failures that the tables do not explain. -/
def statement (fails : Bool) (run : Connection τ → Option (Connection τ)) :
    Program τ Unit := fun conn =>
  match fails, run conn with
  | false, some next => .ok () next
  | _, _ => .error () conn

/-- There is no transaction within a transaction. -/
def beginTransaction (conn : Connection τ) : Option (Connection τ) :=
  match conn.transaction with
  | none => some { conn with transaction := some conn.committed }
  | some _ => none

/-- A change of the table, of its state in the open transaction if there is one. -/
def write (change : τ → Option τ) (conn : Connection τ) : Option (Connection τ) :=
  match conn.transaction with
  | some table => (change table).map fun changed => { conn with transaction := some changed }
  | none => (change conn.committed).map fun changed => { conn with committed := changed }

def commit (conn : Connection τ) : Option (Connection τ) :=
  conn.transaction.map fun table => ⟨table, none⟩

def rollback (conn : Connection τ) : Connection τ := ⟨conn.committed, none⟩

/-- What the connection reads: its own open transaction's table. -/
def seen (conn : Connection τ) : τ := conn.transaction.getD conn.committed

/-- A program that rolls its transaction back where it stops. -/
def rollingBack (program : Program τ Unit) : Program τ Unit := fun conn =>
  match program conn with
  | .ok () next => .ok () next
  | .error () next => .error () next.rollback

theorem rollingBack_ok {program : Program τ Unit} {conn next : Connection τ}
    (h : program.run conn = .ok () next) : (rollingBack program).run conn = .ok () next := by
  have hrun : program conn = .ok () next := h
  simp only [EStateM.run, rollingBack, hrun]

theorem rollingBack_error {program : Program τ Unit} {conn next : Connection τ}
    (h : program.run conn = .error () next) :
    (rollingBack program).run conn = .error () next.rollback := by
  have hrun : program conn = .error () next := h
  simp only [EStateM.run, rollingBack, hrun]

/-- One statement for each item, numbered from `n` on. -/
def writeAll (change : ι → τ → Option τ) (fails : Nat → Bool) : Nat → List ι → Program τ Unit
  | _, [] => pure ()
  | n, item :: items => do
    statement (fails n) (write (change item))
    writeAll change fails (n + 1) items

theorem run_writeAll (change : ι → τ → Option τ) (fails : Nat → Bool) (items : List ι) (n : Nat)
    (committed table : τ) :
    (∃ changed, items.foldlM (fun table item => change item table) table = some changed ∧
        (∀ i < items.length, fails (n + i) = false) ∧
        (writeAll change fails n items).run ⟨committed, some table⟩ = .ok () ⟨committed, some changed⟩) ∨
      ∃ changed, ¬ ((items.foldlM (fun table item => change item table) table).isSome ∧
          ∀ i < items.length, fails (n + i) = false) ∧
        (writeAll change fails n items).run ⟨committed, some table⟩ =
          .error () ⟨committed, some changed⟩ := by
  induction items generalizing n table with
  | nil => exact Or.inl ⟨table, rfl, fun i hi => absurd hi (Nat.not_lt_zero i), rfl⟩
  | cons item items ih =>
    simp only [writeAll, EStateM.run_bind, List.foldlM_cons, Option.bind_eq_bind]
    have hfirst : (∀ i < (item :: items).length, fails (n + i) = false) ↔
        fails n = false ∧ ∀ i < items.length, fails (n + 1 + i) = false := by
      constructor
      · intro h
        refine ⟨h 0 (Nat.succ_pos _), fun i hi => ?_⟩
        rw [Nat.add_right_comm, Nat.add_assoc]
        exact h (i + 1) (Nat.succ_lt_succ hi)
      · rintro ⟨h, hrest⟩ i hi
        cases i with
        | zero => exact h
        | succ i =>
          rw [← Nat.add_assoc, Nat.add_right_comm]
          exact hrest i (Nat.lt_of_succ_lt_succ hi)
    rw [hfirst]
    cases hfails : fails n with
    | true =>
      refine Or.inr ⟨table, fun h => ?_, rfl⟩
      cases h.2.1
    | false =>
      cases hchange : change item table with
      | none =>
        refine Or.inr ⟨table, fun h => ?_, ?_⟩
        · cases h.1
        · have hstatement : (statement false (write (change item))).run ⟨committed, some table⟩ =
              .error () ⟨committed, some table⟩ := by
            simp [EStateM.run, statement, write, hchange]
          rw [hstatement]
      | some next =>
        have hstatement : (statement false (write (change item))).run ⟨committed, some table⟩ =
            .ok () ⟨committed, some next⟩ := by
          simp [EStateM.run, statement, write, hchange]
        rw [hstatement, Option.bind_some]
        rcases ih (n + 1) next with ⟨changed, hchanged, hok, hrun⟩ | ⟨changed, hfailed, hrun⟩
        · exact Or.inl ⟨changed, hchanged, ⟨rfl, hok⟩, hrun⟩
        · exact Or.inr ⟨changed, fun h => hfailed ⟨h.1, h.2.2⟩, hrun⟩

/-! ### Keyed rows -/

section

variable {κ ν : Type} [DecidableEq κ]

/-- `INSERT` -/
def insertRow (row : κ × ν) (table : HashMap κ ν) : Option (HashMap κ ν) :=
  if row.1 ∈ table then none else some (table.insert row.1 row.2)

/-- `INSERT OR REPLACE` -/
def replaceRow (row : κ × ν) (table : HashMap κ ν) : Option (HashMap κ ν) :=
  some (table.insert row.1 row.2)

theorem foldlM_replaceRow (rows : List (κ × ν)) (table : HashMap κ ν) :
    rows.foldlM (fun table row => replaceRow row table) table =
      some (rows.foldl (fun table row => table.insert row.1 row.2) table) := by
  induction rows generalizing table with
  | nil => rfl
  | cons row rows ih => exact ih _

theorem foldlM_insertRow (rows : List (κ × ν)) (table : HashMap κ ν) :
    rows.foldlM (fun table row => insertRow row table) table =
      if (rows.map Prod.fst).Nodup ∧ ∀ row ∈ rows, row.1 ∉ table then
        some (rows.foldl (fun table row => table.insert row.1 row.2) table) else none := by
  induction rows generalizing table with
  | nil => simp
  | cons row rows ih =>
    rw [List.foldlM_cons, insertRow]
    by_cases hrow : row.1 ∈ table
    · rw [if_pos hrow, if_neg fun h => h.2 row List.mem_cons_self hrow]
      rfl
    · rw [if_neg hrow, List.foldl_cons, Option.bind_eq_bind, Option.bind_some, ih]
      congr 1
      simp only [List.map_cons, List.nodup_cons, List.mem_map, List.forall_mem_cons, AList.mem_insert,
        not_or, eq_iff_iff]
      constructor
      · rintro ⟨hnodup, hnew⟩
        refine ⟨⟨?_, hnodup⟩, hrow, fun row' hrow' => (hnew row' hrow').2⟩
        rintro ⟨row', hrow', hkey⟩
        exact (hnew row' hrow').1 hkey
      · rintro ⟨⟨hfirst, hnodup⟩, -, hnew⟩
        exact ⟨hnodup, fun row' hrow' => ⟨fun hkey => hfirst ⟨row', hrow', hkey⟩, hnew row' hrow'⟩⟩

theorem lookup_foldl_insert_iff (rows : List (κ × ν)) (table : HashMap κ ν) :
    (∀ row ∈ rows, (rows.foldl (fun table row => table.insert row.1 row.2) table).lookup row.1 =
      some row.2) ↔ ∀ row ∈ rows, ∀ row' ∈ rows, row.1 = row'.1 → row.2 = row'.2 := by
  constructor
  · intro h row hrow row' hrow' hkey
    have hlookup := h row hrow
    rw [hkey, h row' hrow'] at hlookup
    exact (Option.some.inj hlookup).symm
  · intro h
    induction rows using List.reverseRecOn with
    | nil => exact nofun
    | append_singleton rows last ih =>
      intro row hrow
      rw [List.foldl_append, List.foldl_cons, List.foldl_nil]
      by_cases hkey : row.1 = last.1
      · rw [hkey, AList.lookup_insert, h row hrow last (by simp) hkey]
      · rw [AList.lookup_insert_ne hkey]
        refine ih (fun row₁ h₁ row₂ h₂ => h row₁ (by simp [h₁]) row₂ (by simp [h₂])) row ?_
        rcases List.mem_append.mp hrow with hrow | hrow
        · exact hrow
        · exact absurd (congrArg Prod.fst (List.mem_singleton.mp hrow)) hkey

end

end Connection
