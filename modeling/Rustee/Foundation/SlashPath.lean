/-
# Rustee.Foundation.SlashPath -- texts cut into segments by a separator

A path is read in two ways: as a text, where prefixes are stripped, and as the list of its
non-empty segments.  `render` writes segments back, each after one separator.  The two agree
on a path that starts with the separator and never repeats it: it is what its segments render
to, or that with one separator more (`rendered_form`), so a rendered prefix of the text is a
prefix of the segments (`segments_render_append`).
-/
import Mathlib.Data.List.Induction

namespace Rustee.Foundation

set_option autoImplicit false

section

variable {α : Type} (separator : α)

/-- Every segment after one separator. -/
def render (pieces : List (List α)) : List α := pieces.flatMap (separator :: ·)

/-- What `segments` can give: not empty, without the separator. -/
structure IsSegment (piece : List α) : Prop where
  nonempty : piece ≠ []
  unbroken : separator ∉ piece

/-- A text that continues a path: nothing, or something behind a separator. -/
def Continues (rest : List α) : Prop := rest = [] ∨ ∃ more, rest = separator :: more

/-- The separator twice in a row. -/
def Repeats (text : List α) : Prop := [separator, separator] <:+: text

variable {separator}

/-! ## Rendering -/

@[simp] theorem render_nil : render separator ([] : List (List α)) = [] := rfl

@[simp] theorem render_cons (piece : List α) (pieces : List (List α)) :
    render separator (piece :: pieces) = separator :: (piece ++ render separator pieces) := rfl

theorem render_append (front back : List (List α)) :
    render separator (front ++ back) = render separator front ++ render separator back :=
  List.flatMap_append

variable {pieces : List (List α)} {rest text piece : List α}

/-- Joined with separators between them, segments render after one more in front. -/
theorem cons_intercalate (nonempty : pieces ≠ []) :
    separator :: [separator].intercalate pieces = render separator pieces := by
  induction pieces with
  | nil => exact absurd rfl nonempty
  | cons piece rest ih =>
    cases rest with
    | nil => simp
    | cons next others => simp [List.intercalate_cons_cons, ← ih (List.cons_ne_nil next others)]

theorem continues_render_append (pieces : List (List α)) (continues : Continues separator rest) :
    Continues separator (render separator pieces ++ rest) := by
  cases pieces with
  | nil => exact continues
  | cons piece others => exact .inr ⟨_, rfl⟩

/-! ## Repeated separators -/

theorem repeats_cons_iff {first : α} : Repeats separator (first :: text) ↔
    (first = separator ∧ ∃ more, text = separator :: more) ∨ Repeats separator text := by
  rw [Repeats, List.infix_cons_iff]
  have atFront : [separator, separator] <+: first :: text ↔
      first = separator ∧ ∃ more, text = separator :: more := by
    cases text with
    | nil => simp
    | cons next rest => simp [List.cons_prefix_cons, eq_comm]
  rw [atFront]
  rfl

theorem repeats_append_iff (unbroken : separator ∉ piece) :
    Repeats separator (piece ++ rest) ↔ Repeats separator rest := by
  induction piece with
  | nil => rfl
  | cons first others ih =>
    rw [List.mem_cons, not_or] at unbroken
    rw [List.cons_append, repeats_cons_iff, ih unbroken.2]
    constructor
    · rintro (⟨same, -⟩ | repeated)
      · exact absurd same.symm unbroken.1
      · exact repeated
    · exact .inr

/-- A rendered prefix adds no repetition. -/
theorem repeats_render_append_iff (areSegments : ∀ piece ∈ pieces, IsSegment separator piece) :
    Repeats separator (render separator pieces ++ rest) ↔ Repeats separator rest := by
  induction pieces with
  | nil => rfl
  | cons piece others ih =>
    have isSegment := areSegments piece List.mem_cons_self
    have later := ih fun other member => areSegments other (List.mem_cons_of_mem piece member)
    rw [render_cons, List.cons_append, List.append_assoc, repeats_cons_iff,
      repeats_append_iff isSegment.unbroken, later]
    constructor
    · rintro (⟨-, more, starts⟩ | repeated)
      · cases piece with
        | nil => exact absurd rfl isSegment.nonempty
        | cons first letters =>
          rw [List.cons_append, List.cons.injEq] at starts
          exact absurd (starts.1 ▸ List.mem_cons_self) isSegment.unbroken
      · exact repeated
    · exact .inr

/-- Pieces that render without a repetition are segments, but for an empty one at the end. -/
theorem render_form (nonempty : pieces ≠ []) (once : ¬Repeats separator (render separator pieces)) :
    render separator pieces =
        render separator (pieces.filter fun piece => !piece.isEmpty) ∨
      render separator pieces =
        render separator (pieces.filter fun piece => !piece.isEmpty) ++ [separator] := by
  induction pieces with
  | nil => exact absurd rfl nonempty
  | cons piece rest ih =>
    cases rest with
    | nil =>
      cases piece with
      | nil => exact .inr rfl
      | cons first letters => exact .inl rfl
    | cons next others =>
      cases piece with
      | nil =>
        rw [render_cons, render_cons, List.nil_append, repeats_cons_iff, not_or] at once
        exact absurd ⟨rfl, _, rfl⟩ once.1
      | cons first letters =>
        have later : ¬Repeats separator (render separator (next :: others)) := by
          intro repeated
          refine once (List.IsInfix.trans repeated ?_)
          exact (List.suffix_append (separator :: first :: letters) _).isInfix
        have kept : ((first :: letters) :: next :: others).filter (fun piece => !piece.isEmpty) =
            (first :: letters) :: (next :: others).filter (fun piece => !piece.isEmpty) := rfl
        rw [kept, render_cons, render_cons (first :: letters)]
        rcases ih (List.cons_ne_nil next others) later with same | same
        · exact .inl (by rw [same])
        · exact .inr (by rw [same]; simp)

/-! ## Segments -/

variable [DecidableEq α]

instance (text : List α) : Decidable (Repeats separator text) :=
  inferInstanceAs (Decidable ([separator, separator] <:+: text))

variable (separator) in
/-- The non-empty pieces of a text. -/
def segments (text : List α) : List (List α) :=
  (text.splitOn separator).filter fun piece => !piece.isEmpty

@[simp] theorem segments_nil : segments separator [] = [] := by simp [segments]

/-- **Segments split at a separator.** -/
theorem segments_append_cons (front back : List α) :
    segments separator (front ++ separator :: back) =
      segments separator front ++ segments separator back := by
  rw [segments, List.splitOn_append_cons_self, List.filter_append]
  rfl

@[simp] theorem segments_cons (text : List α) :
    segments separator (separator :: text) = segments separator text := by
  simpa using segments_append_cons [] text

theorem segments_concat (text : List α) :
    segments separator (text ++ [separator]) = segments separator text := by
  simpa using segments_append_cons text []

/-- Separators at the ends belong to no segment. -/
theorem segments_dropWhile (text : List α) :
    segments separator (text.dropWhile fun c => c = separator) = segments separator text := by
  induction text with
  | nil => rfl
  | cons first rest ih =>
    by_cases same : first = separator
    · subst same
      simpa using ih
    · simp [same]

theorem segments_reverse_dropWhile (text : List α) :
    segments separator ((text.reverse.dropWhile fun c => c = separator).reverse) =
      segments separator text := by
  induction text using List.reverseRecOn with
  | nil => rfl
  | append_singleton front last ih =>
    by_cases same : last = separator
    · subst same
      simpa [segments_concat] using ih
    · simp [same]

theorem segments_of_isSegment (isSegment : IsSegment separator piece) :
    segments separator piece = [piece] := by
  rw [segments, List.splitOn_eq_singleton isSegment.unbroken]
  simp [isSegment.nonempty]

theorem not_mem_of_mem_splitOn (member : piece ∈ text.splitOn separator) :
    separator ∉ piece := by
  induction text generalizing piece with
  | nil =>
    rw [List.splitOn_nil, List.mem_singleton] at member
    simp [member]
  | cons first rest ih =>
    rw [List.splitOn_cons_eq_if_modifyHead] at member
    split at member
    · rcases List.mem_cons.1 member with rfl | member
      · simp
      · exact ih member
    · rename_i other
      obtain ⟨head, others, split⟩ :=
        List.exists_cons_of_ne_nil (List.splitOn_ne_nil separator rest)
      rw [split, List.modifyHead_cons] at member
      rcases List.mem_cons.1 member with rfl | member
      · have notHead := ih (split ▸ List.mem_cons_self)
        have different : separator ≠ first := by
          rintro rfl
          simp at other
        simp [different, notHead]
      · exact ih (split ▸ List.mem_cons_of_mem head member)

theorem mem_of_mem_splitOn (member : piece ∈ text.splitOn separator) {c : α} (inside : c ∈ piece) :
    c ∈ text := by
  induction text generalizing piece with
  | nil =>
    rw [List.splitOn_nil, List.mem_singleton] at member
    simp [member] at inside
  | cons first rest ih =>
    rw [List.splitOn_cons_eq_if_modifyHead] at member
    split at member
    · rcases List.mem_cons.1 member with rfl | member
      · cases inside
      · exact List.mem_cons_of_mem first (ih member inside)
    · obtain ⟨head, others, split⟩ :=
        List.exists_cons_of_ne_nil (List.splitOn_ne_nil separator rest)
      rw [split, List.modifyHead_cons] at member
      rcases List.mem_cons.1 member with rfl | member
      · rcases List.mem_cons.1 inside with rfl | inside
        · exact List.mem_cons_self
        · exact List.mem_cons_of_mem first (ih (split ▸ List.mem_cons_self) inside)
      · exact List.mem_cons_of_mem first
          (ih (split ▸ List.mem_cons_of_mem head member) inside)

theorem isSegment_of_mem_segments (member : piece ∈ segments separator text) :
    IsSegment separator piece := by
  obtain ⟨inPieces, nonempty⟩ := List.mem_filter.1 member
  exact ⟨by simpa using nonempty, not_mem_of_mem_splitOn inPieces⟩

theorem segments_append_continues (isSegment : IsSegment separator piece)
    (continues : Continues separator rest) :
    segments separator (piece ++ rest) = piece :: segments separator rest := by
  rcases continues with rfl | ⟨more, rfl⟩
  · simp [segments_of_isSegment isSegment]
  · simp [segments_append_cons, segments_of_isSegment isSegment]

/-- **A rendered prefix of a text is a prefix of its segments.** -/
theorem segments_render_append (areSegments : ∀ piece ∈ pieces, IsSegment separator piece)
    (continues : Continues separator rest) :
    segments separator (render separator pieces ++ rest) = pieces ++ segments separator rest := by
  induction pieces with
  | nil => rfl
  | cons piece others ih =>
    have later := ih fun other member => areSegments other (List.mem_cons_of_mem piece member)
    have first := areSegments piece List.mem_cons_self
    rw [render_cons, List.cons_append, segments_cons, List.append_assoc,
      segments_append_continues first (continues_render_append others continues), later]
    rfl

theorem segments_render (areSegments : ∀ piece ∈ pieces, IsSegment separator piece) :
    segments separator (render separator pieces) = pieces := by
  have whole := segments_render_append areSegments (.inl rfl : Continues separator [])
  simpa using whole

/-- **The form of a path** that starts with the separator and never repeats it. -/
theorem rendered_form (once : ¬Repeats separator (separator :: text)) :
    separator :: text = render separator (segments separator text) ∨
      separator :: text = render separator (segments separator text) ++ [separator] := by
  have pieces : separator :: text = render separator (text.splitOn separator) := by
    rw [← cons_intercalate (List.splitOn_ne_nil separator text), List.intercalate_splitOn]
  rw [pieces] at once ⊢
  exact render_form (List.splitOn_ne_nil separator text) once

end

end Rustee.Foundation
