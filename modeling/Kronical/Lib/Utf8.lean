import Mathlib.Tactic.Common
import Kronical.Lib.Lines

/-!
# UTF-8

The bytes of characters, and the characters of bytes that are a text. A newline is one byte, which is no
part of another character, so the lines of a text can be told apart by its bytes (`lines_encode`).
-/

namespace Utf8

/-- The bytes of characters. -/
def encode (chars : List Char) : List UInt8 := chars.flatMap String.utf8EncodeChar

/-- The characters of bytes, unless they are no text. -/
def decode (bytes : List UInt8) : Option (List Char) := bytes.toByteArray.utf8Decode?.map Array.toList

def newline : UInt8 := 10

@[simp] theorem encode_nil : encode [] = [] := rfl

@[simp] theorem encode_append (left right : List Char) : encode (left ++ right) = encode left ++ encode right :=
  List.flatMap_append

theorem encode_mono {left right : List Char} (h : left <+: right) : encode left <+: encode right := by
  obtain ⟨rest, rfl⟩ := h
  exact ⟨encode rest, (encode_append left rest).symm⟩

theorem toByteArray_encode (chars : List Char) : (encode chars).toByteArray = chars.utf8Encode := rfl

@[simp] theorem decode_encode (chars : List Char) : decode (encode chars) = some chars := by
  rw [decode, toByteArray_encode, List.utf8Decode?_utf8Encode, Option.map_some]

theorem encode_of_decode {bytes : List UInt8} {chars : List Char} (h : decode bytes = some chars) :
    encode chars = bytes := by
  obtain ⟨decoded, hdecoded, rfl⟩ := Option.map_eq_some_iff.mp h
  obtain ⟨chars, hchars⟩ := ByteArray.isSome_utf8Decode?_iff.mp (Option.isSome_iff_exists.mpr ⟨_, hdecoded⟩)
  have hbytes : bytes = encode chars := by
    have h := congrArg (fun b : ByteArray => b.data.toList) hchars
    rw [← toByteArray_encode] at h
    simpa using h
  subst hbytes
  rw [toByteArray_encode, List.utf8Decode?_utf8Encode] at hdecoded
  obtain rfl := Option.some.inj hdecoded
  rfl

theorem newline_notMem_char {c : Char} (h : c ≠ '\n') : newline ∉ String.utf8EncodeChar c := by
  have hvalue : c.val.toNat ≠ 10 := fun heq => h (Char.ext (UInt32.toNat_inj.mp heq))
  have hbyte : ∀ n, newline = UInt8.ofNat n → n % 256 = 10 := fun n heq => by
    have hnat := congrArg UInt8.toNat heq
    rw [UInt8.toNat_ofNat'] at hnat
    exact hnat.symm
  unfold String.utf8EncodeChar
  intro hmem
  dsimp only at hmem
  split_ifs at hmem with h1 h2 h3
  all_goals
    simp only [List.mem_cons, List.not_mem_nil, or_false] at hmem
  · have := hbyte _ hmem
    omega
  · rcases hmem with hmem | hmem <;> have := hbyte _ hmem <;> omega
  · rcases hmem with hmem | hmem | hmem <;> have := hbyte _ hmem <;> omega
  · rcases hmem with hmem | hmem | hmem | hmem <;> have := hbyte _ hmem <;> omega

/-- The lines of a text, as bytes. -/
theorem lines_encode (chars : List Char) :
    Lines.lines newline (encode chars) = (Lines.lines '\n' chars).map encode := by
  induction chars with
  | nil => rfl
  | cons c chars ih =>
    by_cases hc : c = '\n'
    · subst hc
      show Lines.lines newline (newline :: encode chars) = _
      rw [Lines.lines_sep, Lines.lines_sep, ih]
      rfl
    · show Lines.lines newline (String.utf8EncodeChar c ++ encode chars) = _
      rw [Lines.lines_append_of_notMem (newline_notMem_char hc) String.utf8EncodeChar_ne_nil, ih, Lines.lines,
        if_neg hc]
      cases Lines.lines '\n' chars with
      | nil => simp [encode]
      | cons line more => simp [encode]

end Utf8
