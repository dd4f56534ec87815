import Mathlib.Data.String.Basic

/-!
# Texts that are ordered like numbers

Texts are compared character by character. Numbers that are written with a fixed number of digits are
ordered like the numbers (`padded_lt`), and so are texts that start with them, as far as their starts
differ (`append_lt_append`). A fraction may also leave out its last digits, block by block, if they are zero
and what follows the fraction is below every digit (`trimmed_lt`).
-/

namespace OrderedText

/-! ### Texts with one start -/

section Append

variable {α : Type*} [LT α]

theorem append_lt_append {s t : List α} (hlength : s.length = t.length) (h : s < t) (s' t' : List α) :
    s ++ s' < t ++ t' := by
  induction s generalizing t with
  | nil =>
    obtain rfl := List.eq_nil_of_length_eq_zero hlength.symm
    exact absurd h (List.not_lt_nil [])
  | cons a s ih =>
    obtain ⟨b, t, rfl⟩ := List.exists_cons_of_length_eq_add_one hlength.symm
    rw [List.cons_append, List.cons_append, List.cons_lt_cons_iff]
    rcases List.cons_lt_cons_iff.mp h with hlt | ⟨rfl, hlt⟩
    · exact Or.inl hlt
    · exact Or.inr ⟨rfl, ih (Nat.succ.inj hlength) hlt⟩

theorem append_lt_of_or {s t s' t' : List α} (hlength : s.length = t.length)
    (h : s < t ∨ s = t ∧ s' < t') : s ++ s' < t ++ t' := by
  rcases h with h | ⟨rfl, h⟩
  · exact append_lt_append hlength h s' t'
  · exact List.append_left_lt h

end Append

/-! ### Fixed numbers of digits -/

/-- The last `w` decimal digits. -/
def padded : Nat → Nat → List Char
  | 0, _ => []
  | w + 1, n => padded w (n / 10) ++ [Nat.digitChar (n % 10)]

@[simp] theorem length_padded (w n : Nat) : (padded w n).length = w := by
  induction w generalizing n with
  | zero => rfl
  | succ w ih => rw [padded, List.length_append, ih, List.length_singleton]

theorem digitChar_lt {a b : Nat} (hlt : a < b) (hb : b < 10) : Nat.digitChar a < Nat.digitChar b := by
  have hdigits : ∀ b < 10, ∀ a < b, Nat.digitChar a < Nat.digitChar b := by decide
  exact hdigits b hb a hlt

theorem padded_lt {w n m : Nat} (hlt : n < m) (hm : m < 10 ^ w) : padded w n < padded w m := by
  induction w generalizing n m with
  | zero => omega
  | succ w ih =>
    rw [padded, padded]
    have hquot : m / 10 < 10 ^ w := by omega
    rcases Nat.lt_or_ge (n / 10) (m / 10) with h | h
    · exact append_lt_append (by simp) (ih h hquot) _ _
    · have hsame : n / 10 = m / 10 := by omega
      rw [hsame]
      exact List.append_left_lt (List.cons_lt_cons_iff.mpr
        (Or.inl (digitChar_lt (by omega) (by omega))))

theorem padded_add (v w n : Nat) : padded (v + w) n = padded v (n / 10 ^ w) ++ padded w (n % 10 ^ w) := by
  induction w generalizing n with
  | zero => simp [padded]
  | succ w ih =>
    have hquot : n % 10 ^ (w + 1) / 10 = n / 10 % 10 ^ w := by
      rw [Nat.pow_succ', Nat.mod_mul_right_div_self]
    have hlast : n % 10 ^ (w + 1) % 10 = n % 10 := by
      rw [Nat.pow_succ', Nat.mod_mul_right_mod]
    rw [← Nat.add_assoc, padded, ih, padded, hquot, hlast, Nat.div_div_eq_div_mul, ← Nat.pow_succ',
      List.append_assoc]

theorem padded_digit {w n : Nat} {c : Char} (h : c ∈ padded w n) : '0' ≤ c ∧ c ≤ '9' := by
  have hdigits : ∀ d < 10, '0' ≤ Nat.digitChar d ∧ Nat.digitChar d ≤ '9' := by decide
  induction w generalizing n with
  | zero => cases h
  | succ w ih =>
    rcases List.mem_append.mp h with h | h
    · exact ih h
    · rw [List.mem_singleton.mp h]
      exact hdigits _ (Nat.mod_lt n (by omega))

/-! ### Digits that are left out -/

/-- `k` blocks of `w` digits each; from where on all of them are zero they are left out. -/
def trimmed (w : Nat) : Nat → Nat → List Char
  | 0, _ => []
  | k + 1, n =>
    if n = 0 then [] else padded w (n / 10 ^ (w * k)) ++ trimmed w k (n % 10 ^ (w * k))

@[simp] theorem trimmed_zero (w k : Nat) : trimmed w k 0 = [] := by
  cases k with
  | zero => rfl
  | succ k => exact if_pos rfl

/-- Fractions are ordered like numbers, if what follows them is below every digit. -/
theorem trimmed_lt {stop : List Char} (hstop : ∀ c s, '0' ≤ c → stop < c :: s) {w k n m : Nat}
    (hlt : n < m) (hm : m < 10 ^ (w * k)) : trimmed w k n ++ stop < trimmed w k m ++ stop := by
  induction k generalizing n m with
  | zero => simp at hm; omega
  | succ k ih =>
    have hpos : 0 < 10 ^ (w * k) := Nat.pow_pos (by omega)
    have hquot : m / 10 ^ (w * k) < 10 ^ w := by
      rw [Nat.div_lt_iff_lt_mul hpos, ← Nat.pow_add]
      rwa [Nat.mul_succ, Nat.add_comm] at hm
    have hw : w ≠ 0 := by
      rintro rfl
      simp at hm
      omega
    rw [trimmed, trimmed, if_neg (show m ≠ 0 by omega)]
    split_ifs with hzero
    · -- All digits of the first are left out.
      obtain ⟨c, s, hfirst⟩ : ∃ c s, padded w (m / 10 ^ (w * k)) = c :: s :=
        List.exists_cons_of_ne_nil (by rw [ne_eq, ← List.length_eq_zero_iff, length_padded]; exact hw)
      rw [hfirst, List.nil_append, List.cons_append, List.cons_append]
      exact hstop c _ (padded_digit (hfirst ▸ List.mem_cons_self)).1
    · rw [List.append_assoc, List.append_assoc]
      rcases Nat.lt_or_ge (n / 10 ^ (w * k)) (m / 10 ^ (w * k)) with h | h
      · exact append_lt_append (by simp) (padded_lt h hquot) _ _
      · have hsame : n / 10 ^ (w * k) = m / 10 ^ (w * k) :=
          Nat.le_antisymm (Nat.div_le_div_right hlt.le) h
        have hn := Nat.div_add_mod n (10 ^ (w * k))
        have hm' := Nat.div_add_mod m (10 ^ (w * k))
        rw [hsame] at hn ⊢
        exact List.append_left_lt (ih (by omega) (Nat.mod_lt m hpos))

/-! ### Bytes -/

/-- The UTF-8 bytes of a text. -/
def bytes (s : String) : List UInt8 := s.toByteArray.data.toList

def IsAscii (s : List Char) : Prop := ∀ c ∈ s, c.toNat < 128

theorem IsAscii.append {s t : List Char} (hs : IsAscii s) (ht : IsAscii t) : IsAscii (s ++ t) :=
  fun c hc => (List.mem_append.mp hc).elim (hs c) (ht c)

theorem IsAscii.cons {c : Char} {s : List Char} (hc : c.toNat < 128) (hs : IsAscii s) : IsAscii (c :: s) :=
  List.forall_mem_cons.mpr ⟨hc, hs⟩

theorem isAscii_padded (w n : Nat) : IsAscii (padded w n) := by
  intro c hc
  have hle : c.toNat ≤ '9'.toNat := UInt32.le_iff_toNat_le.mp (padded_digit hc).2
  exact lt_of_le_of_lt hle (by decide)

theorem bytes_ofList {s : List Char} (hs : IsAscii s) :
    bytes (String.ofList s) = s.map fun c => UInt8.ofNat c.toNat := by
  have hencode : bytes (String.ofList s) = s.flatMap String.utf8EncodeChar := by
    simp [bytes, List.utf8Encode]
  rw [hencode]
  induction s with
  | nil => rfl
  | cons c s ih =>
    obtain ⟨hc, hs⟩ := List.forall_mem_cons.mp hs
    have hone : String.utf8EncodeChar c = [UInt8.ofNat c.toNat] :=
      if_pos (show c.val.toNat ≤ 0x7f from Nat.le_of_lt_succ hc)
    rw [List.flatMap_cons, hone, ih hs (by simp [bytes, List.utf8Encode]), List.map_cons]
    rfl

theorem map_lt_of_lt {s t : List Char} (hs : IsAscii s) (ht : IsAscii t) (h : s < t) :
    (s.map fun c => UInt8.ofNat c.toNat) < t.map fun c => UInt8.ofNat c.toNat := by
  induction s generalizing t with
  | nil =>
    cases t with
    | nil => exact absurd h (List.not_lt_nil [])
    | cons c t => exact List.nil_lt_cons _ _
  | cons a s ih =>
    cases t with
    | nil => exact absurd h (List.not_lt_nil _)
    | cons b t =>
      obtain ⟨ha, hs⟩ := List.forall_mem_cons.mp hs
      obtain ⟨hb, htail⟩ := List.forall_mem_cons.mp ht
      rw [List.map_cons, List.map_cons, List.cons_lt_cons_iff]
      rcases List.cons_lt_cons_iff.mp h with hlt | ⟨rfl, hlt⟩
      · left
        have hnat : a.toNat < b.toNat := UInt32.lt_iff_toNat_lt.mp hlt
        have hsize : (128 : Nat) ≤ UInt8.size := by decide
        rw [UInt8.lt_iff_toNat_lt, UInt8.toNat_ofNat_of_lt' (by omega),
          UInt8.toNat_ofNat_of_lt' (by omega)]
        exact hnat
      · exact Or.inr ⟨rfl, ih hs htail hlt⟩

end OrderedText
