import Mathlib.Algebra.Group.Int.Defs
import Mathlib.Algebra.Group.Nat.Defs

/-!
# Text

What the program does with texts and numbers in them: `str::trim`, `parse::<u32>`, `parse::<isize>` and
`to_string`.
-/

namespace Kronical

/-- `char::is_whitespace`. -/
def isWhitespace (c : Char) : Bool :=
  let n := c.toNat
  (9 ≤ n && n ≤ 13) || n = 0x20 || n = 0x85 || n = 0xA0 || n = 0x1680 || (0x2000 ≤ n && n ≤ 0x200A) ||
    n = 0x2028 || n = 0x2029 || n = 0x202F || n = 0x205F || n = 0x3000

/-- `str::trim`. -/
def trim (s : String) : List Char :=
  ((s.toList.dropWhile isWhitespace).reverse.dropWhile isWhitespace).reverse

theorem trim_of_no_whitespace {s : String} (h : ∀ c ∈ s.toList, isWhitespace c = false) :
    trim s = s.toList := by
  have hfront : s.toList.dropWhile isWhitespace = s.toList := by
    cases hs : s.toList with
    | nil => rfl
    | cons c rest => exact List.dropWhile_cons_of_neg (by simp [h c (by simp [hs])])
  have hback : s.toList.reverse.dropWhile isWhitespace = s.toList.reverse := by
    cases hs : s.toList.reverse with
    | nil => rfl
    | cons c rest =>
      have hc : c ∈ s.toList := List.mem_reverse.mp (by simp [hs])
      exact List.dropWhile_cons_of_neg (by simp [h c hc])
  rw [trim, hfront, hback, List.reverse_reverse]

/-- `str::parse::<u32>`. -/
def parseU32 (text : List Char) : Option Nat :=
  let digits := match text with
    | '+' :: digits => digits
    | digits => digits
  if digits.isEmpty || digits.any (!·.isDigit) then none
  else
    let value := Nat.ofDigitChars 10 digits 0
    if value < 2 ^ 32 then some value else none

theorem toList_toString (n : Nat) : (toString n).toList = Nat.toDigits 10 n := Nat.toList_repr

theorem isDigit_of_mem_toString {n : Nat} {c : Char} (h : c ∈ (toString n).toList) :
    c.isDigit = true := by
  rw [toList_toString] at h
  exact Nat.isDigit_of_mem_toDigits (by omega) (by omega) h

theorem toString_nat_injective {m n : Nat} (h : toString m = toString n) : m = n := by
  have hdigits : ∀ n : Nat, Nat.ofDigitChars 10 (toString n).toList 0 = n := fun n => by
    rw [toList_toString, Nat.ofDigitChars_ten_toDigits]
  rw [← hdigits m, h, hdigits]

theorem parseU32_toString {n : Nat} (h : n < 2 ^ 32) : parseU32 (toString n).toList = some n := by
  have htext := toList_toString n
  have hdigits : ∀ c ∈ Nat.toDigits 10 n, c.isDigit = true := fun c hc =>
    isDigit_of_mem_toString (htext ▸ hc)
  have hplus : ∀ digits, Nat.toDigits 10 n ≠ '+' :: digits := by
    intro digits heq
    exact absurd (hdigits '+' (by simp [heq])) (by decide)
  have hnumber : ¬ ((Nat.toDigits 10 n).isEmpty || (Nat.toDigits 10 n).any (!·.isDigit)) = true := by
    simpa [Nat.toDigits_ne_nil] using hdigits
  rw [htext]
  unfold parseU32
  split
  · rename_i digits heq
    exact absurd heq (hplus digits)
  · dsimp only
    rw [if_neg hnumber, Nat.ofDigitChars_ten_toDigits, if_pos h]

/-- A number without a sign. -/
def parseDigits (digits : List Char) : Option Nat :=
  if digits.isEmpty || digits.any (!·.isDigit) then none else some (Nat.ofDigitChars 10 digits 0)

/-- `str::parse::<isize>`. -/
def parseIsize (text : List Char) : Option Int :=
  match text with
  | '-' :: digits => (parseDigits digits).bind fun n => if n ≤ 2 ^ 63 then some (-n) else none
  | '+' :: digits => (parseDigits digits).bind fun n => if n < 2 ^ 63 then some n else none
  | digits => (parseDigits digits).bind fun n => if n < 2 ^ 63 then some n else none

theorem parseDigits_toString (n : Nat) : parseDigits (toString n).toList = some n := by
  have hdigits : ∀ c ∈ Nat.toDigits 10 n, c.isDigit = true := fun c hc =>
    isDigit_of_mem_toString (toList_toString n ▸ hc)
  have hnumber : ¬ ((Nat.toDigits 10 n).isEmpty || (Nat.toDigits 10 n).any (!·.isDigit)) = true := by
    simpa [Nat.toDigits_ne_nil] using hdigits
  rw [toList_toString, parseDigits, if_neg hnumber, Nat.ofDigitChars_ten_toDigits]

theorem toString_ne_nil (n : Nat) : (toString n).toList ≠ [] := by
  rw [toList_toString]
  exact Nat.toDigits_ne_nil

theorem toList_toString_int (i : Int) :
    (toString i).toList = if 0 ≤ i then (toString i.natAbs).toList else '-' :: (toString i.natAbs).toList := by
  cases i with
  | ofNat n => rfl
  | negSucc n => exact String.toList_append

theorem parseIsize_toString {i : Int} (hlow : -2 ^ 63 ≤ i) (hhigh : i < 2 ^ 63) :
    parseIsize (toString i).toList = some i := by
  rw [toList_toString_int]
  by_cases hi : 0 ≤ i
  · rw [if_pos hi]
    have hdigit : ∀ c ∈ (toString i.natAbs).toList, c.isDigit = true := fun c => isDigit_of_mem_toString
    unfold parseIsize
    split
    · rename_i digits heq
      exact absurd (hdigit '-' (heq ▸ List.mem_cons_self)) (by decide)
    · rename_i digits heq
      exact absurd (hdigit '+' (heq ▸ List.mem_cons_self)) (by decide)
    · rw [parseDigits_toString, Option.bind_some, if_pos (by omega)]
      exact congrArg some (Int.natAbs_of_nonneg hi)
  · have hvalue : -(i.natAbs : Int) = i := by omega
    rw [if_neg hi, parseIsize, parseDigits_toString, Option.bind_some, if_pos (by omega), hvalue]

end Kronical
