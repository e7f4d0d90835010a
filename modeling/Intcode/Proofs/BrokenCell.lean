/-
This file shows when the carets of a reported cell fit under the row of its line. They do
unless there is a line break inside the cell, and then some of them stand behind the end
of the row.
-/

import Intcode.Proofs.Underline

namespace Intcode

namespace Text

/-- A character between others that are not blank is not removed from a text. -/
theorem trim_append_cons {left right : List Char} (character : Char)
    (before : ∃ other ∈ left, isBlank other = false)
    (after : ∃ other ∈ right, isBlank other = false) :
    trim (left ++ character :: right) = trimStart left ++ character :: trimEnd right := by
  have kept {text : List Char} (inked : ∃ other ∈ text, isBlank other = false) (rest : List Char) :
      (text ++ rest).dropWhile isBlank = text.dropWhile isBlank ++ rest := by
    have present : text.dropWhile isBlank ≠ [] := by
      rw [ne_eq, List.dropWhile_eq_nil_iff]
      intro blank
      obtain ⟨other, inside, inked⟩ := inked
      rw [blank other inside] at inked
      cases inked
    rw [List.dropWhile_append, if_neg (by simpa using present)]
  have finish : ∃ other ∈ right.reverse, isBlank other = false := by simpa using after
  rw [trim, trimStart, kept before, trimEnd, List.reverse_append, List.reverse_cons,
    List.append_assoc, kept finish]
  simp [trimStart, trimEnd]

/-- A trimmed text has characters that are not blank before and behind each blank one. -/
theorem Trims.inked_around {leading core trailing text left right : List Char} {blank : Char}
    (trims : Trims leading core trailing text) (cut : core = left ++ blank :: right)
    (isBlank : Text.isBlank blank) :
    (∃ other ∈ left, Text.isBlank other = false) ∧ ∃ other ∈ right, Text.isBlank other = false := by
  subst cut
  constructor
  · cases left with
    | nil =>
        have inked := trims.first blank rfl
        rw [isBlank] at inked
        cases inked
    | cons first left => exact ⟨first, List.mem_cons_self, trims.first first rfl⟩
  · rcases List.eq_nil_or_concat right with rfl | ⟨right, last, rfl⟩
    · have inked := trims.last blank (by simp)
      rw [isBlank] at inked
      cases inked
    · exact ⟨last, by simp, trims.last last (by simp [List.getLast?_cons])⟩

end Text

theorem Excerpt.newline_not_mem_number (excerpt : Excerpt) : '\n' ∉ excerpt.number.toList := by
  intro inside
  have isDigit := Nat.isDigit_of_mem_toDigits (by decide) (by decide)
    (Nat.toList_repr (n := excerpt.position.line + 1) ▸ inside)
  exact absurd isDigit (by decide)

namespace Span

variable {span : Span}

/-- A line break in a span ends the line that its excerpt shows. -/
theorem line_excerpt_of_broken {left right : List Char}
    (cut : span.inside = left ++ '\n' :: right) (oneLine : '\n' ∉ left) :
    ∃ returns, Text.Shown (Text.lastLine span.before ++ left) span.excerpt.line returns := by
  -- The section up to the break begins at the same place of the same source.
  let first : Span := ⟨span.path, span.before, left, '\n' :: right ++ span.after⟩
  have isSource : first.source = span.source := by
    simp [first, source, cut]
  have line : first.excerpt.line = span.excerpt.line := by
    rw [excerpt, excerpt, isSource]
    rfl
  obtain ⟨returns, isShown⟩ := first.line_excerpt oneLine
  refine ⟨returns, ?_⟩
  rw [line] at isShown
  simpa [first, Text.firstLine] using isShown

/-- A line is shown without line breaks. -/
theorem newline_not_mem_line (span : Span) : '\n' ∉ span.excerpt.line := by
  have unbroken {line returns : List Char} (clear : '\n' ∉ line)
      (isShown : Text.Shown line span.excerpt.line returns) : '\n' ∉ span.excerpt.line := by
    intro inside
    exact clear (isShown.cut ▸ List.mem_append_left returns inside)
  obtain ⟨_, _, around⟩ := Text.exists_lineAround span.before span.after
  by_cases broken : '\n' ∈ span.inside
  · obtain ⟨left, right, cut, oneLine⟩ := List.eq_append_cons_of_mem broken
    obtain ⟨returns, isShown⟩ := line_excerpt_of_broken cut oneLine
    exact unbroken (by simp [around.leftClear, oneLine]) isShown
  · obtain ⟨returns, isShown⟩ := span.line_excerpt broken
    exact unbroken (by simp [around.leftClear, broken, around.rightClear]) isShown

/-- The caret of a line break stands behind the end of the row. -/
theorem exists_caret_behind_row (broken : '\n' ∈ span.inside) :
    ∃ column ∈ span.excerpt.caretRow.toList.idxsOf '^',
      span.excerpt.sourceRow.toList[column]? = none := by
  obtain ⟨left, right, cut, oneLine⟩ := List.eq_append_cons_of_mem broken
  obtain ⟨returns, isShown⟩ := line_excerpt_of_broken cut oneLine
  have shorter := congrArg List.length isShown.cut
  have width : span.excerpt.width = left.length + (right.length + 1) := by
    show span.inside.length = _
    rw [cut, List.length_append, List.length_cons]
  let column := (span.excerpt.number ++ " | ").length + span.excerpt.position.column + left.length
  refine ⟨column, ?_, ?_⟩
  · rw [Excerpt.idxsOf_caretRow, List.mem_range'_1]
    omega
  · rw [List.getElem?_eq_none_iff, Excerpt.sourceRow_toList, List.length_append, String.length_toList]
    simp only [List.length_append] at shorter
    simp only [column, column_excerpt]
    omega

end Span

namespace Program

open Text (isBlank)

/-- A piece has a line break with characters that are not blank before and behind it. -/
def Broken (piece : List Char) : Prop :=
  ∃ left right, piece = left ++ '\n' :: right ∧
    (∃ character ∈ left, isBlank character = false) ∧
    ∃ character ∈ right, isBlank character = false

/-- Any other line break of a piece is removed with the blank characters around it. -/
theorem newline_mem_trim {piece : List Char} : '\n' ∈ Text.trim piece ↔ Broken piece := by
  constructor
  · intro inside
    obtain ⟨left, right, cut⟩ := List.append_of_mem inside
    have trims := Text.trims piece
    obtain ⟨⟨first, early, inked⟩, last, late, written⟩ := trims.inked_around cut (by decide)
    refine ⟨piece.takeWhile isBlank ++ left, right ++ Text.trailing piece, ?_,
      ⟨first, List.mem_append_right _ early, inked⟩, last, List.mem_append_left _ late, written⟩
    have whole := trims.cut
    rw [cut] at whole
    simpa using whole
  · rintro ⟨left, right, rfl, before, after⟩
    rw [Text.trim_append_cons '\n' before after]
    simp

/-- The excerpt of an error shows one row of the text. The carets stand under the characters of the
cell, or at the column of an empty one, if the first piece that spells no cell has no line break
between characters that are not blank. Otherwise the contents of the span have that line break, and
some caret stands behind the end of the row. -/
theorem carets_fit_unless_cell_is_broken {source : Source} {error : ParseError}
    (failed : parse source = .error error) :
    ∃ body before piece, Headed source.text.toList body ∧ FirstBad body before piece ∧
      let contents := error.span.contents
      let excerpt := error.span.excerpt
      let carets := excerpt.caretRow.toList.idxsOf '^'
      contents.toList = Text.trim piece ∧
      ('\n' ∈ contents.toList ↔ Broken piece) ∧
      '\n' ∉ excerpt.sourceRow.toList ∧
      (¬ Broken piece →
        (contents ≠ "" →
          carets.map (fun column => excerpt.sourceRow.toList[column]?) = contents.toList.map some) ∧
        (contents = "" → carets = [(excerpt.number ++ " | ").length + excerpt.position.column])) ∧
      (Broken piece → ∃ column ∈ carets, excerpt.sourceRow.toList[column]? = none) := by
  obtain ⟨body, before, piece, headed, bad, inside, -⟩ := exists_firstBad failed
  have broken : '\n' ∈ error.span.inside ↔ Broken piece := inside ▸ newline_mem_trim
  have contents : error.span.contents.toList = error.span.inside := String.toList_ofList
  have empty : error.span.contents = "" ↔ error.span.inside = [] := by
    rw [← contents, String.toList_eq_nil_iff]
  refine ⟨body, before, piece, headed, bad, contents.trans inside, contents ▸ broken, ?_, ?_, ?_⟩
  · rw [Excerpt.sourceRow_toList]
    simp [Excerpt.newline_not_mem_number, Span.newline_not_mem_line]
  · intro whole
    -- A trimmed cell does not end with a carriage return.
    have clear : Text.ClearOfReturns error.span.inside error.span.after := by
      intro ended
      rw [inside] at ended
      exact absurd ((Text.trims piece).last '\r' ended) (by decide)
    constructor
    · intro present
      rw [contents]
      exact error.span.over_carets (mt broken.mp whole) clear (mt empty.mpr present)
    · intro none
      rw [Span.column_excerpt]
      exact error.span.caret_of_empty (empty.mp none)
  · intro split
    exact Span.exists_caret_behind_row (broken.mpr split)

/-- Two numerals in two lines without a comma are reported as one cell, and a caret stands behind
the end of the first line. -/
theorem numerals_in_two_lines_overrun :
    ∃ error, parse (.unnamed "1\n2") = .error error ∧ '\n' ∈ error.span.contents.toList ∧
      ∃ column ∈ error.span.excerpt.caretRow.toList.idxsOf '^',
        error.span.excerpt.sourceRow.toList[column]? = none := by
  have failed : parse (.unnamed "1\n2") =
      .error ⟨.badCell .invalidDigit, ⟨"./source", [], ['1', '\n', '2'], []⟩⟩ := by
    decide +kernel
  obtain ⟨_, _, _, _, _, _, broken, _, _, overrun⟩ := carets_fit_unless_cell_is_broken failed
  have inside : '\n' ∈ (String.ofList ['1', '\n', '2']).toList := by decide
  exact ⟨_, failed, inside, overrun (broken.mp inside)⟩

end Program

end Intcode
