import Mathlib.Data.List.Perm.Basic
import Kronical.Core.Text
import Kronical.Lib.Trimming

/-!
# Selections of log files

A selection lists indexes and ranges of indexes, and `-` is both the sign and the range separator. A
number may stand in parentheses; a `-` separates where no parenthesis is open and it is not the first
character. So every spelling of every list of items is read as those items (`parse_selection_exact`).
-/

namespace Kronical

/-- The length of a vector, which is at most `isize::MAX`. -/
abbrev VecLen := { len : Nat // len < 2 ^ 63 }

/-- `str::trim` of a part of a text. -/
def trimText (text : List Char) : List Char := Trimming.trim isWhitespace text

/-- The loop of `split_range`, with what is before `i`. The depth is an `i32`, and an argument of a command
is shorter than that. -/
def scanRange (before : List Char) (depth : Int) : List Char → Option (List Char × List Char)
  | [] => none
  | ch :: rest =>
    if ch = '(' then scanRange (before ++ [ch]) (depth + 1) rest
    else if ch = ')' then scanRange (before ++ [ch]) (depth - 1) rest
    else if ch = '-' ∧ depth = 0 ∧ before ≠ [] then some (trimText before, trimText rest)
    else scanRange (before ++ [ch]) depth rest

def splitRange (token : List Char) : Option (List Char × List Char) := scanRange [] 0 (trimText token)

theorem length_trimText_le (text : List Char) : (trimText text).length ≤ text.length :=
  (List.rdropWhile_prefix (p := isWhitespace) _).length_le.trans (List.dropWhile_suffix _).length_le

def trimWrappingParens (value : List Char) : List Char :=
  let trimmed := trimText value
  if trimmed.head? = some '(' ∧ trimmed.getLast? = some ')' ∧ 2 < trimmed.length then
    trimWrappingParens trimmed.tail.dropLast
  else trimmed
termination_by value.length
decreasing_by
  rename_i h
  have hlength : 2 < (trimText value).length := h.2.2
  have hle := length_trimText_le value
  show (trimText value).tail.dropLast.length < value.length
  rw [List.length_dropLast, List.length_tail]
  omega

def normalizeIndex (value : Int) (len : VecLen) : Except String Nat :=
  if 0 ≤ value then
    let idx := value.toNat
    if len.1 ≤ idx then .error s!"index {idx} out of range (0..{len.1 - 1})" else .ok idx
  else
    let idx := len.1 + value
    if idx < 0 then .error s!"index {value} out of range (available {len.1})" else .ok idx.toNat

def resolveIndex (token : List Char) (len : VecLen) : Except String Nat :=
  if len.1 = 0 then .error "no log files available"
  else
    let trimmed := trimWrappingParens (trimText token)
    match parseIsize trimmed with
    | none => .error s!"invalid index '{String.ofList trimmed}'"
    | some value => normalizeIndex value len

def pushUnique (vec : List Nat) (value : Nat) : List Nat := if value ∈ vec then vec else vec ++ [value]

/-- `start..=end`. -/
def inclusive (first last : Nat) : List Nat := List.range' first (last + 1 - first)

/-- What the loop of `parse_selection` does with a token. -/
def selectToken (len : VecLen) (result : List Nat) (token : List Char) : Except String (List Nat) :=
  match splitRange token with
  | some (left, right) => do
    let first ← resolveIndex left len
    let last ← resolveIndex right len
    if first ≤ last then .ok ((inclusive first last).foldl pushUnique result)
    else .ok ((inclusive last first).reverse.foldl pushUnique result)
  | none => do
    let idx ← resolveIndex token len
    .ok (pushUnique result idx)

def parseSelection (selection : String) (len : VecLen) : Except String (List Nat) :=
  if len.1 = 0 then .ok []
  else
    (((selection.toList.splitOn ',').map trimText).filter (!·.isEmpty)).foldlM (selectToken len) []

/-! ### Items and how they are spelled -/

/-- `[-len, len)`. -/
abbrev LogIndex (len : VecLen) := { i : Int // -len.1 ≤ i ∧ i < len.1 }

inductive SelectionItem (len : VecLen)
  | index (a : LogIndex len)
  | range (a b : LogIndex len)

/-- The position that an index stands for. -/
def LogIndex.position {len : VecLen} (i : LogIndex len) : Nat :=
  if 0 ≤ i.1 then i.1.toNat else (len.1 + i.1).toNat

def SelectionItem.expansion {len : VecLen} : SelectionItem len → List Nat
  | .index a => [a.position]
  | .range a b =>
    if a.position ≤ b.position then inclusive a.position b.position
    else (inclusive b.position a.position).reverse

/-- A number, in any number of parentheses, with spaces wherever they may be. -/
inductive Spells (number : Int) : List Char → Prop
  | decimal : Spells number (toString number).toList
  | spaced {text : List Char} (before after : List Char) (hbefore : ∀ c ∈ before, isWhitespace c = true)
      (hafter : ∀ c ∈ after, isWhitespace c = true) (h : Spells number text) :
      Spells number (before ++ text ++ after)
  | wrapped {text : List Char} (h : Spells number text) : Spells number ('(' :: text ++ [')'])

inductive SelectionItem.Spelled {len : VecLen} : SelectionItem len → List Char → Prop
  | index {a : LogIndex len} {text : List Char} (h : Spells a.1 text) : Spelled (.index a) text
  | range {a b : LogIndex len} {left right : List Char} (hleft : Spells a.1 left)
      (hright : Spells b.1 right) : Spelled (.range a b) (left ++ '-' :: right)

/-! ### Numbers in parentheses -/

variable {number : Int} {text : List Char}

theorem decimal_cases (number : Int) : ∃ digits, digits ≠ [] ∧ (∀ c ∈ digits, c.isDigit = true) ∧
    ((toString number).toList = digits ∨ (toString number).toList = '-' :: digits) := by
  refine ⟨(toString number.natAbs).toList, toString_ne_nil _, fun c => isDigit_of_mem_toString, ?_⟩
  rw [toList_toString_int]
  split_ifs
  · exact Or.inl rfl
  · exact Or.inr rfl

theorem digit_ne {c : Char} (h : c.isDigit = true) :
    isWhitespace c = false ∧ c ≠ '(' ∧ c ≠ ')' ∧ c ≠ '-' ∧ c ≠ ',' := by
  have hbounds : 48 ≤ c.toNat ∧ c.toNat ≤ 57 := by
    simp only [Char.isDigit, Bool.and_eq_true, decide_eq_true_eq] at h
    exact ⟨UInt32.le_iff_toNat_le.mp h.1, UInt32.le_iff_toNat_le.mp h.2⟩
  have hne : ∀ d : Char, d.toNat < 48 → c ≠ d := by
    rintro d hd rfl
    omega
  refine ⟨?_, hne _ (by decide), hne _ (by decide), hne _ (by decide), hne _ (by decide)⟩
  simp only [isWhitespace]
  grind

theorem space_ne {c : Char} (h : isWhitespace c = true) :
    c ≠ '(' ∧ c ≠ ')' ∧ c ≠ '-' ∧ c ≠ ',' := by
  refine ⟨?_, ?_, ?_, ?_⟩
  all_goals
    rintro rfl
    revert h
    decide

theorem decimal_ne {c : Char} (h : c ∈ (toString number).toList) :
    isWhitespace c = false ∧ c ≠ '(' ∧ c ≠ ')' ∧ c ≠ ',' := by
  obtain ⟨digits, -, hdigits, htext⟩ := decimal_cases number
  have hcases : c ∈ digits ∨ c = '-' := by
    rcases htext with htext | htext
    · exact Or.inl (htext ▸ h)
    · rw [htext] at h
      exact (List.mem_cons.mp h).symm
  rcases hcases with hdigit | rfl
  · obtain ⟨hspace, hopen, hclose, -, hcomma⟩ := digit_ne (hdigits c hdigit)
    exact ⟨hspace, hopen, hclose, hcomma⟩
  · decide

/-- A number, or something in parentheses. -/
def Tight (number : Int) (text : List Char) : Prop :=
  text = (toString number).toList ∨ ∃ inner, text = '(' :: inner ++ [')'] ∧ Spells number inner

theorem Spells.ne_nil (h : Spells number text) : text ≠ [] := by
  induction h with
  | decimal =>
    obtain ⟨digits, hne, -, htext | htext⟩ := decimal_cases number
    · exact htext ▸ hne
    · exact htext ▸ List.cons_ne_nil _ _
  | spaced before after _ _ _ ih => simp [ih]
  | wrapped _ _ => simp

theorem Tight.spells (h : Tight number text) : Spells number text := by
  rcases h with rfl | ⟨inner, rfl, hinner⟩
  · exact .decimal
  · exact .wrapped hinner

theorem Spells.tight (h : Spells number text) : ∃ before tight after, text = before ++ tight ++ after ∧
    (∀ c ∈ before, isWhitespace c = true) ∧ (∀ c ∈ after, isWhitespace c = true) ∧
    Tight number tight := by
  induction h with
  | decimal => exact ⟨[], _, [], by simp, nofun, nofun, Or.inl rfl⟩
  | spaced before after hbefore hafter _ ih =>
    obtain ⟨before', tight, after', rfl, hbefore', hafter', htight⟩ := ih
    refine ⟨before ++ before', tight, after' ++ after, by simp, ?_, ?_, htight⟩
    · exact fun c hc => (List.mem_append.mp hc).elim (hbefore c) (hbefore' c)
    · exact fun c hc => (List.mem_append.mp hc).elim (hafter' c) (hafter c)
  | wrapped h _ => exact ⟨[], _, [], by simp, nofun, nofun, Or.inr ⟨_, rfl, h⟩⟩

/-- No space is at either end. -/
def Bounded (text : List Char) : Prop :=
  (∃ c rest, text = c :: rest ∧ isWhitespace c = false) ∧
    ∃ rest c, text = rest ++ [c] ∧ isWhitespace c = false

theorem Tight.bounded (h : Tight number text) : Bounded text := by
  rcases h with rfl | ⟨inner, rfl, -⟩
  · have hne := (Spells.decimal : Spells number _).ne_nil
    constructor
    · obtain ⟨c, rest, htext⟩ := List.exists_cons_of_ne_nil hne
      exact ⟨c, rest, htext, (decimal_ne (htext ▸ List.mem_cons_self)).1⟩
    · refine ⟨_, _, (List.dropLast_append_getLast hne).symm, ?_⟩
      exact (decimal_ne (List.getLast_mem hne)).1
  · exact ⟨⟨'(', inner ++ [')'], rfl, by decide⟩, '(' :: inner, ')', rfl, by decide⟩

theorem Bounded.append {left right : List Char} (hleft : Bounded left) (hright : Bounded right)
    (middle : List Char) : Bounded (left ++ middle ++ right) := by
  obtain ⟨⟨c, rest, rfl, hc⟩, -⟩ := hleft
  obtain ⟨-, rest', c', rfl, hc'⟩ := hright
  exact ⟨⟨c, rest ++ middle ++ (rest' ++ [c']), by simp, hc⟩,
    c :: rest ++ middle ++ rest', c', by simp, hc'⟩

theorem Bounded.trim (h : Bounded text) (before after : List Char)
    (hbefore : ∀ c ∈ before, isWhitespace c = true) (hafter : ∀ c ∈ after, isWhitespace c = true) :
    trimText (before ++ text ++ after) = text := by
  obtain ⟨⟨first, restl, hfront, hfirst⟩, restr, last, hback, hlast⟩ := h
  rw [trimText, Trimming.trim_append _ hbefore hafter]
  refine Trimming.trim_of_ends ?_ ?_
  · rw [hfront]
    rintro c ⟨⟩
    exact hfirst
  · rw [hback, List.getLast?_concat]
    rintro c ⟨⟩
    exact hlast

theorem Bounded.trim_self (h : Bounded text) : trimText text = text := by
  have htrim := h.trim [] [] nofun nofun
  rwa [List.nil_append, List.append_nil] at htrim

theorem Spells.trimWrappingParens (h : Spells number text) :
    Kronical.trimWrappingParens text = (toString number).toList := by
  induction h with
  | decimal =>
    have htight : Tight number (toString number).toList := Or.inl rfl
    rw [Kronical.trimWrappingParens, htight.bounded.trim_self]
    rw [if_neg]
    rintro ⟨hopen, -⟩
    exact (decimal_ne (List.mem_of_head? hopen)).2.1 rfl
  | spaced before after hbefore hafter _ ih =>
    rw [Kronical.trimWrappingParens] at ih ⊢
    rw [trimText, Trimming.trim_append _ hbefore hafter]
    exact ih
  | wrapped h ih =>
    have htight : Tight number ('(' :: _ ++ [')']) := Or.inr ⟨_, rfl, h⟩
    have hlength := List.length_pos_of_ne_nil h.ne_nil
    rw [Kronical.trimWrappingParens, htight.bounded.trim_self]
    rw [if_pos ⟨rfl, List.getLast?_concat, by simp; omega⟩, List.cons_append, List.tail_cons,
      List.dropLast_concat]
    exact ih

/-! ### The separator of a range -/

theorem scanRange_pass {before rest : List Char} {depth : Int}
    (h : ∀ c ∈ text, c ≠ '(' ∧ c ≠ ')' ∧ (c = '-' → depth ≠ 0)) :
    scanRange before depth (text ++ rest) = scanRange (before ++ text) depth rest := by
  induction text generalizing before with
  | nil => rw [List.nil_append, List.append_nil]
  | cons c text ih =>
    obtain ⟨⟨hopen, hclose, hminus⟩, hrest⟩ := List.forall_mem_cons.mp h
    rw [List.cons_append, scanRange, if_neg hopen, if_neg hclose,
      if_neg fun hsplit => hminus hsplit.1 hsplit.2.1, ih hrest, List.append_assoc,
      List.singleton_append]

theorem Spells.scanRange (h : Spells number text) {before rest : List Char} {depth : Int}
    (hdepth : 0 < depth) :
    Kronical.scanRange before depth (text ++ rest) =
      Kronical.scanRange (before ++ text) depth rest := by
  induction h generalizing before rest depth with
  | decimal =>
    refine scanRange_pass fun c hc => ?_
    obtain ⟨-, hopen, hclose, -⟩ := decimal_ne hc
    exact ⟨hopen, hclose, fun _ => Int.ne_of_gt hdepth⟩
  | spaced front back hfront hback _ ih =>
    have hspaces : ∀ {spaces : List Char}, (∀ c ∈ spaces, isWhitespace c = true) →
        ∀ c ∈ spaces, c ≠ '(' ∧ c ≠ ')' ∧ (c = '-' → depth ≠ 0) := fun h c hc =>
      ⟨(space_ne (h c hc)).1, (space_ne (h c hc)).2.1, fun _ => Int.ne_of_gt hdepth⟩
    rw [List.append_assoc, List.append_assoc, scanRange_pass (hspaces hfront), ih hdepth,
      scanRange_pass (hspaces hback)]
    simp only [List.append_assoc]
  | wrapped _ ih =>
    rw [List.cons_append, List.cons_append, List.append_assoc, Kronical.scanRange, if_pos rfl,
      ih (by omega), List.singleton_append, Kronical.scanRange, if_neg (by decide), if_pos rfl,
      Int.add_sub_cancel]
    simp

theorem Tight.scanRange (h : Tight number text) (rest : List Char) :
    Kronical.scanRange [] 0 (text ++ rest) = Kronical.scanRange text 0 rest := by
  rcases h with rfl | ⟨inner, rfl, hinner⟩
  · obtain ⟨digits, -, hdigits, htext⟩ := decimal_cases number
    have hpass : ∀ c ∈ digits, c ≠ '(' ∧ c ≠ ')' ∧ (c = '-' → (0 : Int) ≠ 0) := by
      intro c hc
      obtain ⟨-, hopen, hclose, hminus, -⟩ := digit_ne (hdigits c hc)
      exact ⟨hopen, hclose, fun h => absurd h hminus⟩
    rcases htext with htext | htext
    · rw [htext, scanRange_pass hpass, List.nil_append]
    · rw [htext, List.cons_append, Kronical.scanRange, if_neg (by decide), if_neg (by decide),
        if_neg (by simp), scanRange_pass hpass]
      rfl
  · rw [List.cons_append, List.cons_append, List.append_assoc, Kronical.scanRange, if_pos rfl,
      hinner.scanRange (by decide), List.singleton_append, Kronical.scanRange, if_neg (by decide),
      if_pos rfl]
    rfl

theorem splitRange_index (h : Spells number text) : splitRange text = none := by
  obtain ⟨before, tight, after, rfl, hbefore, hafter, htight⟩ := h.tight
  have hscan := htight.scanRange []
  rw [List.append_nil] at hscan
  rw [splitRange, htight.bounded.trim _ _ hbefore hafter, hscan]
  rfl

theorem splitRange_range {a b : Int} {left right : List Char} (hleft : Spells a left)
    (hright : Spells b right) :
    ∃ left' right', splitRange (left ++ '-' :: right) = some (left', right') ∧
      Tight a left' ∧ Tight b right' := by
  obtain ⟨before, left', after, rfl, hbefore, hafter, hleft'⟩ := hleft.tight
  obtain ⟨before', right', after', rfl, hbefore', hafter', hright'⟩ := hright.tight
  refine ⟨left', right', ?_, hleft', hright'⟩
  have htext : before ++ left' ++ after ++ '-' :: (before' ++ right' ++ after') =
      before ++ (left' ++ (after ++ '-' :: before') ++ right') ++ after' := by simp
  have hpass : ∀ c ∈ after, c ≠ '(' ∧ c ≠ ')' ∧ (c = '-' → (0 : Int) ≠ 0) := by
    intro c hc
    obtain ⟨hopen, hclose, hminus, -⟩ := space_ne (hafter c hc)
    exact ⟨hopen, hclose, fun h => absurd h hminus⟩
  have hne : left' ++ after ≠ [] := by
    obtain ⟨⟨c, rest, rfl, -⟩, -⟩ := hleft'.bounded
    exact List.cons_ne_nil _ _
  have hfront := hleft'.bounded.trim [] _ nofun hafter
  have hback := hright'.bounded.trim _ [] hbefore' nofun
  rw [List.nil_append] at hfront
  rw [List.append_nil] at hback
  rw [splitRange, htext, (hleft'.bounded.append hright'.bounded _).trim _ _ hbefore hafter',
    List.append_assoc, hleft'.scanRange, List.append_assoc, scanRange_pass hpass, List.cons_append,
    Kronical.scanRange, if_neg (by decide), if_neg (by decide), if_pos ⟨rfl, rfl, hne⟩, hfront, hback]

/-! ### Tokens -/

variable {len : VecLen}

theorem LogIndex.position_lt (i : LogIndex len) : i.position < len.1 := by
  obtain ⟨hlow, hhigh⟩ := i.2
  unfold LogIndex.position
  split_ifs <;> omega

theorem normalizeIndex_eq (i : LogIndex len) : normalizeIndex i.1 len = .ok i.position := by
  obtain ⟨hlow, hhigh⟩ := i.2
  unfold normalizeIndex LogIndex.position
  by_cases hi : 0 ≤ i.1
  · rw [if_pos hi, if_pos hi]
    exact if_neg (by omega)
  · rw [if_neg hi, if_neg hi]
    exact if_neg (by omega)

theorem normalizeIndex_lt {value : Int} {idx : Nat} (h : normalizeIndex value len = .ok idx) :
    idx < len.1 := by
  unfold normalizeIndex at h
  split_ifs at h with hvalue
  · dsimp only at h
    split_ifs at h with hidx
    obtain rfl := Except.ok.inj h
    omega
  · dsimp only at h
    split_ifs at h with hidx
    obtain rfl := Except.ok.inj h
    omega

theorem resolveIndex_spells {i : LogIndex len} (h : Spells i.1 text) :
    resolveIndex text len = .ok i.position := by
  obtain ⟨before, tight, after, rfl, hbefore, hafter, htight⟩ := h.tight
  obtain ⟨hlow, hhigh⟩ := i.2
  have hlen := len.2
  have hparse : parseIsize (toString i.1).toList = some i.1 :=
    parseIsize_toString (by omega) (by omega)
  rw [resolveIndex, if_neg (by omega), htight.bounded.trim _ _ hbefore hafter,
    htight.spells.trimWrappingParens]
  dsimp only
  rw [hparse]
  exact normalizeIndex_eq i

theorem resolveIndex_lt {token : List Char} {idx : Nat} (h : resolveIndex token len = .ok idx) :
    idx < len.1 := by
  unfold resolveIndex at h
  split_ifs at h
  dsimp only at h
  split at h
  · cases h
  · exact normalizeIndex_lt h

theorem selectToken_spelled {item : SelectionItem len} (h : item.Spelled text) (result : List Nat) :
    selectToken len result text = .ok (item.expansion.foldl pushUnique result) := by
  cases h with
  | index h =>
    simp only [selectToken, splitRange_index h, resolveIndex_spells h]
    rfl
  | @range a b _ _ hleft hright =>
    obtain ⟨left', right', hsplit, hleft', hright'⟩ := splitRange_range hleft hright
    simp only [selectToken, hsplit, resolveIndex_spells hleft'.spells, resolveIndex_spells hright'.spells,
      SelectionItem.expansion]
    show (if a.position ≤ b.position then _ else _) = _
    split_ifs <;> rfl

theorem SelectionItem.Spelled.trim {item : SelectionItem len} (h : item.Spelled text) :
    item.Spelled (trimText text) ∧ Bounded (trimText text) := by
  cases h with
  | index h =>
    obtain ⟨before, tight, after, rfl, hbefore, hafter, htight⟩ := h.tight
    rw [htight.bounded.trim _ _ hbefore hafter]
    exact ⟨.index htight.spells, htight.bounded⟩
  | range hleft hright =>
    obtain ⟨before, left', after, rfl, hbefore, hafter, hleft'⟩ := hleft.tight
    obtain ⟨before', right', after', rfl, hbefore', hafter', hright'⟩ := hright.tight
    have hbounded := hleft'.bounded.append hright'.bounded (after ++ '-' :: before')
    have htext : before ++ left' ++ after ++ '-' :: (before' ++ right' ++ after') =
        before ++ (left' ++ (after ++ '-' :: before') ++ right') ++ after' := by simp
    rw [htext, hbounded.trim _ _ hbefore hafter']
    refine ⟨?_, hbounded⟩
    have hform : left' ++ (after ++ '-' :: before') ++ right' =
        ([] ++ left' ++ after) ++ '-' :: (before' ++ right' ++ []) := by simp
    rw [hform]
    exact .range (.spaced _ _ nofun hafter hleft'.spells) (.spaced _ _ hbefore' nofun hright'.spells)

theorem Spells.comma_not_mem (h : Spells number text) : ',' ∉ text := by
  induction h with
  | decimal => exact fun hc => (decimal_ne hc).2.2.2 rfl
  | spaced before after hbefore hafter _ ih =>
    have hspaces : ∀ {spaces : List Char}, (∀ c ∈ spaces, isWhitespace c = true) → ',' ∉ spaces :=
      fun h hc => (space_ne (h _ hc)).2.2.2 rfl
    simp [hspaces hbefore, hspaces hafter, ih]
  | wrapped _ ih => simp [ih]

theorem SelectionItem.Spelled.comma_not_mem {item : SelectionItem len} (h : item.Spelled text) :
    ',' ∉ text := by
  cases h with
  | index h => exact h.comma_not_mem
  | range hleft hright => simp [hleft.comma_not_mem, hright.comma_not_mem]

theorem comma_not_mem_of_spelled {items : List (SelectionItem len)} {texts : List (List Char)}
    (h : List.Forall₂ SelectionItem.Spelled items texts) (htext : text ∈ texts) : ',' ∉ text := by
  induction h with
  | nil => cases htext
  | cons hitem _ ih =>
    rcases List.mem_cons.mp htext with rfl | htext
    · exact hitem.comma_not_mem
    · exact ih htext

theorem pos_of_spelled {items : List (SelectionItem len)} {texts : List (List Char)}
    (h : List.Forall₂ SelectionItem.Spelled items texts) (hne : texts ≠ []) : 0 < len.1 := by
  cases h with
  | nil => exact absurd rfl hne
  | @cons item _ _ _ _ _ =>
    have hindex : ∀ i : LogIndex len, 0 < len.1 := fun i => Nat.zero_lt_of_lt i.position_lt
    cases item with
    | index a | range a b => exact hindex a

theorem foldlM_selectToken {items : List (SelectionItem len)} {texts : List (List Char)}
    (h : List.Forall₂ SelectionItem.Spelled items texts) (result : List Nat) :
    ((texts.map trimText).filter (!·.isEmpty)).foldlM (selectToken len) result =
      .ok ((items.flatMap SelectionItem.expansion).foldl pushUnique result) := by
  induction h generalizing result with
  | nil => rfl
  | @cons item text items texts hitem _ ih =>
    obtain ⟨hspelled, ⟨c, rest, htext, -⟩, -⟩ := hitem.trim
    rw [List.map_cons, List.filter_cons_of_pos (by simp [htext]), List.foldlM_cons,
      selectToken_spelled hspelled, List.flatMap_cons, List.foldl_append]
    exact ih _

theorem foldl_pushUnique (indexes : List Nat) : indexes.foldl pushUnique [] = indexes.eraseDups := by
  induction indexes using List.reverseRecOn with
  | nil => rfl
  | append_singleton indexes last ih =>
    rw [List.foldl_append, List.foldl_cons, List.foldl_nil, ih, List.eraseDups_append, pushUnique]
    by_cases hmem : last ∈ indexes
    · rw [if_pos (List.mem_eraseDups.mpr hmem)]
      simp [List.removeAll, hmem]
    · rw [if_neg fun h => hmem (List.mem_eraseDups.mp h)]
      simp [List.removeAll, hmem, List.eraseDups_cons]

/-! ### What is returned -/

/-- Distinct indexes of existing files. -/
def Selected (len : VecLen) (result : List Nat) : Prop := result.Nodup ∧ ∀ idx ∈ result, idx < len.1

theorem Selected.pushUnique {result : List Nat} (h : Selected len result) {idx : Nat}
    (hidx : idx < len.1) : Selected len (Kronical.pushUnique result idx) := by
  unfold Kronical.pushUnique
  split_ifs with hmem
  · exact h
  · refine ⟨List.nodup_append.mpr ⟨h.1, List.pairwise_singleton _ _, ?_⟩, ?_⟩
    · rintro a ha b hb rfl
      exact hmem (List.mem_singleton.mp hb ▸ ha)
    · intro a ha
      rcases List.mem_append.mp ha with ha | ha
      · exact h.2 a ha
      · exact List.mem_singleton.mp ha ▸ hidx

theorem Selected.foldl_pushUnique {result : List Nat} (h : Selected len result) {indexes : List Nat}
    (hindexes : ∀ idx ∈ indexes, idx < len.1) :
    Selected len (indexes.foldl Kronical.pushUnique result) := by
  induction indexes generalizing result with
  | nil => exact h
  | cons idx indexes ih =>
    obtain ⟨hidx, hrest⟩ := List.forall_mem_cons.mp hindexes
    exact ih (h.pushUnique hidx) hrest

theorem mem_inclusive_lt {first last idx : Nat} (h : idx ∈ inclusive first last) : idx ≤ last := by
  obtain ⟨hlow, hhigh⟩ := List.mem_range'_1.mp h
  omega

theorem Selected.selectToken {result next : List Nat} (h : Selected len result) {token : List Char}
    (hnext : Kronical.selectToken len result token = .ok next) : Selected len next := by
  unfold Kronical.selectToken at hnext
  split at hnext
  · rename_i left right _
    cases hleft : resolveIndex left len with
    | error e =>
      rw [hleft] at hnext
      cases hnext
    | ok first =>
      cases hright : resolveIndex right len with
      | error e =>
        rw [hleft, hright] at hnext
        cases hnext
      | ok last =>
        have hfirst := resolveIndex_lt hleft
        have hlast := resolveIndex_lt hright
        rw [hleft, hright] at hnext
        change (if first ≤ last then _ else _) = _ at hnext
        split_ifs at hnext
        · obtain rfl := Except.ok.inj hnext
          exact h.foldl_pushUnique fun idx hidx => Nat.lt_of_le_of_lt (mem_inclusive_lt hidx) hlast
        · obtain rfl := Except.ok.inj hnext
          exact h.foldl_pushUnique fun idx hidx =>
            Nat.lt_of_le_of_lt (mem_inclusive_lt (List.mem_reverse.mp hidx)) hfirst
  · cases hidx : resolveIndex token len with
    | error e =>
      rw [hidx] at hnext
      cases hnext
    | ok idx =>
      rw [hidx] at hnext
      obtain rfl := Except.ok.inj hnext
      exact h.pushUnique (resolveIndex_lt hidx)

theorem Selected.foldlM {result next : List Nat} (h : Selected len result) {tokens : List (List Char)}
    (hnext : tokens.foldlM (Kronical.selectToken len) result = .ok next) : Selected len next := by
  induction tokens generalizing result with
  | nil => exact Except.ok.inj hnext ▸ h
  | cons token tokens ih =>
    rw [List.foldlM_cons] at hnext
    cases htoken : Kronical.selectToken len result token with
    | error e =>
      rw [htoken] at hnext
      cases hnext
    | ok middle =>
      rw [htoken] at hnext
      exact ih (h.selectToken htoken) hnext

/-- However the items of a list are spelled, the selection of their texts, joined with commas, is what they
expand to without the later duplicates; and no selection gives an index twice or one that does not
exist. -/
theorem parse_selection_exact (len : VecLen) :
    (∀ (items : List (SelectionItem len)) (texts : List (List Char)),
      List.Forall₂ SelectionItem.Spelled items texts →
      parseSelection (String.ofList ([','].intercalate texts)) len =
        .ok (items.flatMap SelectionItem.expansion).eraseDups) ∧
    ∀ selection result, parseSelection selection len = .ok result →
      result.Nodup ∧ ∀ idx ∈ result, idx < len.1 := by
  constructor
  · intro items texts h
    rw [← foldl_pushUnique]
    by_cases hempty : texts = []
    · subst hempty
      obtain rfl := List.forall₂_nil_right_iff.mp h
      unfold parseSelection
      split_ifs <;> rfl
    · rw [parseSelection, if_neg (pos_of_spelled h hempty).ne', String.toList_ofList,
        List.splitOn_intercalate _ (fun text htext => comma_not_mem_of_spelled h htext) hempty]
      exact foldlM_selectToken h []
  · intro selection result h
    unfold parseSelection at h
    split_ifs at h
    · obtain rfl := Except.ok.inj h
      exact ⟨List.nodup_nil, nofun⟩
    · exact Selected.foldlM ⟨List.nodup_nil, nofun⟩ h

def fiveFiles : VecLen := ⟨5, by decide⟩

/-- The last three of five files, and the first. -/
def lastAndFirst : List (SelectionItem fiveFiles) :=
  [.range ⟨-3, by decide⟩ ⟨-1, by decide⟩, .index ⟨0, by decide⟩]

theorem parse_selection_exact_five :
    parseSelection (String.ofList ([','].intercalate ["-3--1".toList, " (0)".toList])) fiveFiles =
      .ok (lastAndFirst.flatMap SelectionItem.expansion).eraseDups ∧
    (lastAndFirst.flatMap SelectionItem.expansion).eraseDups = [2, 3, 4, 0] ∧ [2, 3, 4, 0].Nodup := by
  have hrange : "-3--1".toList = (toString (-3 : Int)).toList ++ '-' :: (toString (-1 : Int)).toList := by
    decide
  have hindex : " (0)".toList = [' '] ++ ('(' :: (toString (0 : Int)).toList ++ [')']) ++ [] := by decide
  have hspace : ∀ c ∈ [' '], isWhitespace c = true := by
    intro c hc
    rw [List.mem_singleton.mp hc]
    rfl
  have hspelled : List.Forall₂ SelectionItem.Spelled lastAndFirst ["-3--1".toList, " (0)".toList] := by
    rw [hrange, hindex]
    exact .cons (.range .decimal .decimal)
      (.cons (.index (.spaced _ _ hspace nofun (.wrapped .decimal))) .nil)
  have hparse := (parse_selection_exact fiveFiles).1 _ _ hspelled
  exact ⟨hparse, by decide, ((parse_selection_exact fiveFiles).2 _ _ hparse).1⟩

end Kronical
