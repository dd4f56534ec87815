import Mathlib.Algebra.Group.Int.Defs
import Mathlib.Data.List.Nodup

/-!
# JSON values and codecs

A codec writes values of a type as JSON and reads them back: what it writes of a value that fits, it
reads as that value. The codec of a record reads each field by its name (`Codec.field_eq`); what a
missing field is read as belongs to the codec of the field.
-/

inductive Json
  | null
  | bool (value : Bool)
  | num (value : Int)
  | str (value : String)
  | arr (items : List Json)
  | obj (fields : List (String × Json))

namespace Json

/-! ### Text -/

/-- A character inside a string. -/
def escape (c : Char) : List Char :=
  if c = '"' then ['\\', '"']
  else if c = '\\' then ['\\', '\\']
  else if c.toNat = 0x08 then ['\\', 'b']
  else if c.toNat = 0x09 then ['\\', 't']
  else if c.toNat = 0x0A then ['\\', 'n']
  else if c.toNat = 0x0C then ['\\', 'f']
  else if c.toNat = 0x0D then ['\\', 'r']
  else if c.toNat < 0x20 then
    ['\\', 'u', '0', '0', Nat.digitChar (c.toNat / 16), Nat.digitChar (c.toNat % 16)]
  else [c]

def quote (s : String) : List Char := ['"'] ++ s.toList.flatMap escape ++ ['"']

mutual

/-- A compact way to write a value. -/
def render : Json → List Char
  | null => "null".toList
  | bool value => (toString value).toList
  | num value => (toString value).toList
  | str value => quote value
  | arr items => ['['] ++ renderItems items ++ [']']
  | obj fields => ['\x7b'] ++ renderFields fields ++ ['\x7d']

def renderItems : List Json → List Char
  | [] => []
  | [item] => item.render
  | item :: items => item.render ++ [','] ++ renderItems items

def renderFields : List (String × Json) → List Char
  | [] => []
  | [(name, value)] => quote name ++ [':'] ++ value.render
  | (name, value) :: fields => quote name ++ [':'] ++ value.render ++ [','] ++ renderFields fields

end

/-! ### Codecs -/

structure Codec (α : Type) where
  toJson : α → Json
  fromJson : Json → Option α
  /-- What a field that is not there is read as. -/
  missing : Option α
  Fits : α → Prop
  fromJson_toJson : ∀ a, Fits a → fromJson (toJson a) = some a

namespace Codec

variable {α β : Type}

def string : Codec String where
  toJson := str
  fromJson
    | str value => some value
    | _ => none
  missing := none
  Fits _ := True
  fromJson_toJson _ _ := rfl

def boolean : Codec Bool where
  toJson := bool
  fromJson
    | bool value => some value
    | _ => none
  missing := none
  Fits _ := True
  fromJson_toJson _ _ := rfl

/-- An unsigned number below a bound. -/
def unsigned (bound : Nat) : Codec Nat where
  toJson n := num n
  fromJson
    | num value => if 0 ≤ value ∧ value < bound then some value.toNat else none
    | _ => none
  missing := none
  Fits n := n < bound
  fromJson_toJson n hn := if_pos (by omega)

/-- A signed number of so many bits. -/
def signed (bits : Nat) : Codec Int where
  toJson := num
  fromJson
    | num value => if -2 ^ (bits - 1) ≤ value ∧ value < 2 ^ (bits - 1) then some value else none
    | _ => none
  missing := none
  Fits value := -2 ^ (bits - 1) ≤ value ∧ value < 2 ^ (bits - 1)
  fromJson_toJson _ hvalue := if_pos hvalue

/-- A value that may be absent, also as a missing field. -/
def option (codec : Codec α) (hnull : ∀ a, codec.toJson a ≠ null) : Codec (Option α) where
  toJson
    | some a => codec.toJson a
    | none => null
  fromJson
    | null => some none
    | json => (codec.fromJson json).map some
  missing := some none
  Fits a := ∀ b ∈ a, codec.Fits b
  fromJson_toJson a ha := by
    cases a with
    | none => rfl
    | some a =>
      dsimp only
      split
      · rename_i heq
        exact absurd heq (hnull a)
      · rw [codec.fromJson_toJson a (ha a rfl), Option.map_some]

def list (codec : Codec α) : Codec (List α) where
  toJson as := arr (as.map codec.toJson)
  fromJson
    | arr items => items.mapM codec.fromJson
    | _ => none
  missing := none
  Fits as := ∀ a ∈ as, codec.Fits a
  fromJson_toJson as has := by
    induction as with
    | nil => rfl
    | cons a as ih =>
      have ha := codec.fromJson_toJson a (has a (by simp))
      have has := ih fun b hb => has b (by simp [hb])
      simp only [List.map_cons, List.mapM_cons, ha, has]
      rfl

def pair (left : Codec α) (right : Codec β) : Codec (α × β) where
  toJson a := arr [left.toJson a.1, right.toJson a.2]
  fromJson
    | arr [a, b] => do return (← left.fromJson a, ← right.fromJson b)
    | _ => none
  missing := none
  Fits a := left.Fits a.1 ∧ right.Fits a.2
  fromJson_toJson a ha := by
    simp [left.fromJson_toJson a.1 ha.1, right.fromJson_toJson a.2 ha.2]

theorem fits_none {codec : Codec α} {hnull : ∀ a, codec.toJson a ≠ null} : (codec.option hnull).Fits none :=
  fun _ h => nomatch h

theorem fits_nil {codec : Codec α} : codec.list.Fits [] := fun _ h => nomatch h

/-- A missing field is read as `a`. -/
def orElse (codec : Codec α) (a : α) : Codec α := { codec with missing := some a }

@[simp] theorem orElse_toJson (codec : Codec α) (a : α) : (codec.orElse a).toJson = codec.toJson := rfl

/-- The field of an object; a field that is there twice is not read. -/
def field (codec : Codec α) (name : String) (fields : List (String × Json)) : Option α :=
  match fields.filter (·.1 = name) with
  | [] => codec.missing
  | [(_, value)] => codec.fromJson value
  | _ => none

theorem filter_name {name : String} {fields : List (String × Json)} {value : Json}
    (hnodup : (fields.map Prod.fst).Nodup) (hmem : (name, value) ∈ fields) :
    fields.filter (·.1 = name) = [(name, value)] := by
  induction fields with
  | nil => simp at hmem
  | cons head rest ih =>
    obtain ⟨hhead, hnodup⟩ := List.nodup_cons.mp hnodup
    obtain rfl | hmem := List.mem_cons.mp hmem
    · have hrest : rest.filter (·.1 = name) = [] := by
        refine List.filter_eq_nil_iff.mpr fun other hother => ?_
        have hne : other.1 ≠ name := by
          intro hsame
          exact hhead (List.mem_map.mpr ⟨other, hother, hsame⟩)
        simpa using hne
      simp [hrest]
    · have hne : head.1 ≠ name := by
        intro hsame
        exact hhead (List.mem_map.mpr ⟨_, hmem, hsame.symm⟩)
      simp [hne, ih hnodup hmem]

/-- A field that was written is read back. -/
theorem field_eq (codec : Codec α) (name : String) {fields : List (String × Json)} {a : α}
    (hfits : codec.Fits a) (hnodup : (fields.map Prod.fst).Nodup := by simp)
    (hmem : (name, codec.toJson a) ∈ fields := by simp) : codec.field name fields = some a := by
  rw [field, filter_name hnodup hmem]
  exact codec.fromJson_toJson a hfits

/-- A record, written as an object. -/
def record (write : α → List (String × Json)) (read : List (String × Json) → Option α) (fits : α → Prop)
    (h : ∀ a, fits a → read (write a) = some a) : Codec α where
  toJson a := obj (write a)
  fromJson
    | obj fields => read fields
    | _ => none
  missing := none
  Fits := fits
  fromJson_toJson := h

end Codec

end Json
