import Mathlib.Data.List.Infix
import Mathlib.Tactic.Common

/-!
# Lines

What a reader gets that reads a stream piece by piece: everything up to the next separator and with it,
and at the end whatever is left. Where the stream breaks off, only the last piece differs from what it
would have been (`lines_prefix`).
-/

namespace Lines

variable {α : Type*} [DecidableEq α]

/-- The pieces of a stream, each with the separator behind it. -/
def lines (sep : α) : List α → List (List α)
  | [] => []
  | a :: rest =>
    if a = sep then [a] :: lines sep rest
    else
      match lines sep rest with
      | [] => [[a]]
      | line :: more => (a :: line) :: more

variable {sep : α}

@[simp] theorem lines_nil : lines sep [] = [] := rfl

@[simp] theorem lines_sep (rest : List α) : lines sep (sep :: rest) = [sep] :: lines sep rest :=
  if_pos rfl

theorem lines_line {line : List α} (h : sep ∉ line) (rest : List α) :
    lines sep (line ++ sep :: rest) = (line ++ [sep]) :: lines sep rest := by
  induction line with
  | nil => simp
  | cons a line ih =>
    have ha : a ≠ sep := fun heq => h (by simp [heq])
    have hline : sep ∉ line := fun hmem => h (by simp [hmem])
    rw [List.cons_append, lines, if_neg ha, ih hline]
    rfl

theorem lines_ne_nil {stream : List α} (h : stream ≠ []) : lines sep stream ≠ [] := by
  cases stream with
  | nil => exact absurd rfl h
  | cons a rest =>
    rw [lines]
    split_ifs
    · exact List.cons_ne_nil _ _
    · cases lines sep rest <;> exact List.cons_ne_nil _ _

theorem lines_append_of_notMem {front : List α} (h : sep ∉ front) (hne : front ≠ []) (rest : List α) :
    lines sep (front ++ rest) =
      match lines sep rest with
      | [] => [front]
      | line :: more => (front ++ line) :: more := by
  induction front with
  | nil => exact absurd rfl hne
  | cons a front ih =>
    have ha : a ≠ sep := fun heq => h (by simp [heq])
    have hfront : sep ∉ front := fun hmem => h (by simp [hmem])
    rw [List.cons_append, lines, if_neg ha]
    by_cases hnil : front = []
    · rw [hnil, List.nil_append]
      cases lines sep rest <;> rfl
    · rw [ih hfront hnil]
      cases lines sep rest <;> rfl

theorem lines_append_sep (front rest : List α) :
    lines sep (front ++ [sep] ++ rest) = lines sep (front ++ [sep]) ++ lines sep rest := by
  induction front with
  | nil => simp
  | cons a front ih =>
    have hne : lines sep (front ++ [sep]) ≠ [] := lines_ne_nil (by simp)
    rw [List.cons_append, List.cons_append, lines, lines, ih]
    split_ifs
    · rfl
    · obtain ⟨line, more, hmore⟩ := List.exists_cons_of_ne_nil hne
      rw [hmore]
      rfl

theorem lines_flatten (stream : List α) : (lines sep stream).flatten = stream := by
  induction stream with
  | nil => rfl
  | cons a stream ih =>
    rw [lines]
    split_ifs
    · rw [List.flatten_cons, ih]
      rfl
    · cases hlines : lines sep stream with
      | nil =>
        rw [hlines] at ih
        simp [← ih]
      | cons line more =>
        rw [hlines] at ih
        rw [← ih]
        rfl

theorem lines_flatMap {bodies : List (List α)} (h : ∀ body ∈ bodies, sep ∉ body) (rest : List α) :
    lines sep (bodies.flatMap (· ++ [sep]) ++ rest) = bodies.map (· ++ [sep]) ++ lines sep rest := by
  induction bodies with
  | nil => rfl
  | cons body bodies ih =>
    rw [List.flatMap_cons, List.append_assoc, List.append_assoc, List.singleton_append,
      lines_line (h body (by simp)), ih fun b hb => h b (by simp [hb])]
    rfl

/-- A stream that breaks off gives the lines that are complete in it, and at most one that is not. -/
theorem lines_prefix {received stream : List α} (h : received <+: stream) :
    ∃ whole part, lines sep received = whole ++ part ∧ whole <+: lines sep stream ∧
      ∀ line ∈ part, sep ∉ line := by
  induction received generalizing stream with
  | nil => exact ⟨[], [], rfl, List.nil_prefix, by simp⟩
  | cons a received ih =>
    obtain ⟨stream, rfl⟩ : ∃ rest, stream = a :: rest := by
      obtain ⟨rest, rfl⟩ := h
      exact ⟨received ++ rest, rfl⟩
    obtain ⟨whole, part, hreceived, hwhole, hpart⟩ := ih ((List.cons_prefix_cons.mp h).2)
    by_cases ha : a = sep
    · subst ha
      refine ⟨[a] :: whole, part, ?_, ?_, hpart⟩
      · rw [lines_sep, hreceived, List.cons_append]
      · rw [lines_sep]
        exact List.cons_prefix_cons.mpr ⟨rfl, hwhole⟩
    rw [lines, if_neg ha, lines, if_neg ha, hreceived]
    cases whole with
    | nil =>
      -- The line is not complete yet.
      refine ⟨[], _, rfl, List.nil_prefix, ?_⟩
      cases part with
      | nil => simpa using fun heq => ha heq.symm
      | cons line part =>
        intro line' hmem
        rcases List.mem_cons.mp hmem with rfl | hmem
        · have := hpart line (by simp)
          simp [this, Ne.symm ha]
        · exact hpart line' (by simp [hmem])
    | cons line whole =>
      obtain ⟨more, hmore⟩ := hwhole
      rw [← hmore]
      exact ⟨(a :: line) :: whole, part, rfl,
        List.cons_prefix_cons.mpr ⟨rfl, List.prefix_append _ _⟩, hpart⟩

end Lines
