import Mathlib.Data.List.Nodup

/-!
# Base 64

The encoding of bytes in an alphabet of 64 characters, with or without the padding that makes its
length a multiple of four, and its inverse, which accepts no other bits behind the last byte than
zeros.
-/

structure Base64 where
  alphabet : List Char
  /-- Whether `encode` adds padding. -/
  encodePadding : Bool
  /-- Whether `decode` wants the padding to be there, and not to be there otherwise. -/
  decodePadding : Bool
  length_alphabet : alphabet.length = 64
  nodup_alphabet : alphabet.Nodup
  padding_not_mem : '=' ∉ alphabet

namespace Base64

/-! ### Symbols of six bits -/

/-- The symbols for bytes. -/
def split : List (BitVec 8) → List (BitVec 6)
  | a :: b :: c :: rest =>
    [.ofNat 6 (a.toNat / 4), .ofNat 6 (a.toNat * 16 + b.toNat / 16),
      .ofNat 6 (b.toNat * 4 + c.toNat / 64), .ofNat 6 c.toNat] ++ split rest
  | [a, b] =>
    [.ofNat 6 (a.toNat / 4), .ofNat 6 (a.toNat * 16 + b.toNat / 16), .ofNat 6 (b.toNat * 4)]
  | [a] => [.ofNat 6 (a.toNat / 4), .ofNat 6 (a.toNat * 16)]
  | [] => []

/-- The bytes for symbols, unless the last symbol has bits behind the last byte. -/
def join : List (BitVec 6) → Option (List (BitVec 8))
  | a :: b :: c :: d :: rest =>
    (join rest).map ([.ofNat 8 (a.toNat * 4 + b.toNat / 16), .ofNat 8 (b.toNat * 16 + c.toNat / 4),
      .ofNat 8 (c.toNat * 64 + d.toNat)] ++ ·)
  | [a, b, c] =>
    if c.toNat % 4 = 0 then
      some [.ofNat 8 (a.toNat * 4 + b.toNat / 16), .ofNat 8 (b.toNat * 16 + c.toNat / 4)]
    else none
  | [a, b] => if b.toNat % 16 = 0 then some [.ofNat 8 (a.toNat * 4 + b.toNat / 16)] else none
  | [_] => none
  | [] => some []

theorem join_split (bytes : List (BitVec 8)) : join (split bytes) = some bytes := by
  induction bytes using split.induct with
  | case1 a b c rest ih =>
    have ha := a.isLt
    have hb := b.isLt
    have hc := c.isLt
    simp only [split, List.cons_append, List.nil_append, join, ih, Option.map_some, Option.some.injEq,
      List.cons.injEq, and_true, BitVec.toNat_ofNat]
    refine ⟨?_, ?_, ?_⟩
    all_goals
      apply BitVec.eq_of_toNat_eq
      simp only [BitVec.toNat_ofNat]
      omega
  | case2 a b =>
    have ha := a.isLt
    have hb := b.isLt
    simp only [split, join, BitVec.toNat_ofNat]
    rw [if_pos (by omega)]
    simp only [Option.some.injEq, List.cons.injEq, and_true]
    refine ⟨?_, ?_⟩
    all_goals
      apply BitVec.eq_of_toNat_eq
      simp only [BitVec.toNat_ofNat]
      omega
  | case3 a =>
    have ha := a.isLt
    simp only [split, join, BitVec.toNat_ofNat]
    rw [if_pos (by omega)]
    simp only [Option.some.injEq, List.cons.injEq, and_true]
    apply BitVec.eq_of_toNat_eq
    simp only [BitVec.toNat_ofNat]
    omega
  | case4 => rfl

theorem length_split (bytes : List (BitVec 8)) :
    (split bytes).length = (bytes.length * 4 + 2) / 3 := by
  induction bytes using split.induct with
  | case1 a b c rest ih =>
    simp only [split, List.length_append, List.length_cons, List.length_nil, ih]
    omega
  | case2 | case3 | case4 => simp [split]

/-! ### Text -/

/-- The padding behind so many symbols. -/
def paddingOf (symbols : Nat) : List Char := List.replicate ((4 - symbols % 4) % 4) '='

variable (engine : Base64)

def symbol (value : BitVec 6) : Char :=
  engine.alphabet.get ⟨value.toNat, by have := engine.length_alphabet; omega⟩

def value (symbol : Char) : Option (BitVec 6) := (engine.alphabet.idxOf? symbol).map (BitVec.ofNat 6)

def encode (bytes : List (BitVec 8)) : String :=
  let symbols := (split bytes).map engine.symbol
  String.ofList (symbols ++ if engine.encodePadding then paddingOf symbols.length else [])

def decode (input : String) : Option (List (BitVec 8)) :=
  let symbols := input.toList.takeWhile (· ≠ '=')
  let padding := input.toList.dropWhile (· ≠ '=')
  if padding = if engine.decodePadding then paddingOf symbols.length else [] then
    (symbols.mapM engine.value).bind join
  else none

theorem symbol_mem (value : BitVec 6) : engine.symbol value ∈ engine.alphabet :=
  List.get_mem _ _

theorem symbol_ne_padding (value : BitVec 6) : engine.symbol value ≠ '=' := by
  intro h
  exact engine.padding_not_mem (h ▸ engine.symbol_mem value)

theorem value_symbol (value : BitVec 6) : engine.value (engine.symbol value) = some value := by
  have hlength : value.toNat < engine.alphabet.length := by
    rw [engine.length_alphabet]
    omega
  have hindex : engine.alphabet.idxOf? (engine.symbol value) = some value.toNat := by
    refine List.idxOf?_eq_some_iff.mpr ⟨hlength, rfl, fun j hj hsame => ?_⟩
    have hjlength : j < engine.alphabet.length := Nat.lt_trans hj hlength
    have hsame : engine.alphabet[j] = engine.alphabet[value.toNat] := hsame
    have := engine.nodup_alphabet.getElem_inj_iff.mp hsame
    omega
  rw [Base64.value, hindex, Option.map_some, BitVec.ofNat_toNat, BitVec.setWidth_eq]

theorem mapM_value (values : List (BitVec 6)) :
    (values.map engine.symbol).mapM engine.value = some values := by
  induction values with
  | nil => rfl
  | cons value values ih => simp [engine.value_symbol, ih]

theorem decode_append (symbols : List Char) (padding : Nat) (h : '=' ∉ symbols) :
    engine.decode (String.ofList (symbols ++ List.replicate padding '=')) =
      if List.replicate padding '=' = if engine.decodePadding then paddingOf symbols.length else [] then
        (symbols.mapM engine.value).bind join
      else none := by
  have hne : ∀ c ∈ symbols, decide (c ≠ '=') = true := by
    intro c hc
    exact decide_eq_true fun h' => h (h' ▸ hc)
  unfold decode
  rw [String.toList_ofList, List.takeWhile_append_of_pos hne, List.dropWhile_append_of_pos hne]
  simp

theorem decode_encode {other : Base64} (halphabet : other.alphabet = engine.alphabet)
    (hpadding : other.encodePadding = engine.decodePadding) (bytes : List (BitVec 8)) :
    engine.decode (other.encode bytes) = some bytes := by
  have hsymbol : other.symbol = engine.symbol := by
    funext value
    simp [symbol, halphabet]
  have hne : '=' ∉ (split bytes).map engine.symbol := by
    simp [engine.symbol_ne_padding]
  have hencode : other.encode bytes = String.ofList ((split bytes).map engine.symbol ++
      List.replicate (if engine.decodePadding then (4 - (split bytes).length % 4) % 4 else 0) '=') := by
    cases h : engine.decodePadding <;> simp [encode, hsymbol, hpadding, h, paddingOf]
  rw [hencode, engine.decode_append _ _ hne, if_pos, engine.mapM_value, Option.bind_some, join_split]
  cases engine.decodePadding <;> simp [paddingOf]

theorem decode_unpadded {other : Base64} (hpadding : other.encodePadding = false)
    (hdecode : engine.decodePadding = true) (bytes : List (BitVec 8))
    (hlength : (split bytes).length % 4 ≠ 0) : engine.decode (other.encode bytes) = none := by
  have hne : '=' ∉ (split bytes).map other.symbol := by
    simp [other.symbol_ne_padding]
  have hencode : other.encode bytes =
      String.ofList ((split bytes).map other.symbol ++ List.replicate 0 '=') := by
    simp [encode, hpadding]
  rw [hencode, engine.decode_append _ _ hne, if_neg]
  rw [if_pos hdecode, paddingOf, List.length_map, eq_comm, List.replicate_inj]
  omega

/-! ### Several alphabets -/

/-- Each symbol of the alphabet has the value that `meaning` gives it. -/
def Reads (meaning : Char → BitVec 6) : Prop := ∀ c value, engine.value c = some value → value = meaning c

theorem reads_of_zipIdx {meaning : Char → BitVec 6}
    (h : ∀ symbol ∈ engine.alphabet.zipIdx, BitVec.ofNat 6 symbol.2 = meaning symbol.1) :
    engine.Reads meaning := by
  intro c value hvalue
  obtain ⟨i, hi, rfl⟩ := Option.map_eq_some_iff.mp hvalue
  obtain ⟨hlength, hc, -⟩ := List.idxOf?_eq_some_iff.mp hi
  exact h (c, i) (List.mem_zipIdx_iff_getElem?.mpr (List.getElem?_eq_some_iff.mpr ⟨hlength, hc⟩))

theorem Reads.mapM {meaning : Char → BitVec 6} {engine : Base64} (h : engine.Reads meaning)
    {symbols : List Char} {values : List (BitVec 6)} (hvalues : symbols.mapM engine.value = some values) :
    symbols.map meaning = values := by
  induction symbols generalizing values with
  | nil => exact Option.some.inj hvalues
  | cons symbol symbols ih =>
    rw [List.mapM_cons] at hvalues
    obtain ⟨first, hfirst, hvalues⟩ := Option.bind_eq_some_iff.mp hvalues
    obtain ⟨rest, hrest, hvalues⟩ := Option.bind_eq_some_iff.mp hvalues
    obtain rfl := Option.some.inj hvalues
    rw [List.map_cons, ← h symbol first hfirst, ih hrest]

theorem Reads.join_of_decode {meaning : Char → BitVec 6} {engine : Base64} (h : engine.Reads meaning)
    {input : String} {bytes : List (BitVec 8)} (hdecode : engine.decode input = some bytes) :
    join ((input.toList.takeWhile (· ≠ '=')).map meaning) = some bytes := by
  unfold decode at hdecode
  dsimp only at hdecode
  split_ifs at hdecode
  all_goals
    obtain ⟨values, hvalues, hjoin⟩ := Option.bind_eq_some_iff.mp hdecode
    rw [h.mapM hvalues]
    exact hjoin

theorem encode_append_paddingOf {other : Base64} (halphabet : other.alphabet = engine.alphabet)
    (hpadding : other.encodePadding = false) (hengine : engine.encodePadding = true)
    (bytes : List (BitVec 8)) :
    other.encode bytes ++ String.ofList (paddingOf (other.encode bytes).length) = engine.encode bytes := by
  have hsymbol : other.symbol = engine.symbol := by
    funext value
    simp [symbol, halphabet]
  rw [← String.toList_inj]
  simp [encode, hpadding, hengine, hsymbol]

end Base64
