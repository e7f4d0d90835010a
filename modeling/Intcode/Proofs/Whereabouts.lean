/-
This file shows that a line and a column identify a place in a text. Positions have the
order of the byte offsets that they belong to, and a byte offset is found again from its
position and the lines of the text.
-/

import Intcode.Proofs.Underline

namespace Intcode

namespace Text

theorem byteLength_toList (text : String) : byteLength text.toList = text.utf8ByteSize := by
  have listed : ∀ characters, byteLength characters = (String.ofList characters).utf8ByteSize := by
    intro characters
    induction characters with
    | nil => rfl
    | cons character rest inductionHypothesis =>
        rw [byteLength, inductionHypothesis, String.ofList_cons, String.utf8ByteSize_append,
          String.utf8ByteSize_singleton]
  rw [listed, String.ofList_toList]

/-- What is found before a byte offset is the part of the text that has so many bytes. -/
theorem upTo?_eq_some {text before : List Char} {offset : Nat} :
    upTo? text offset = some before ↔ before <+: text ∧ byteLength before = offset := by
  constructor
  · intro found
    fun_induction upTo? text offset generalizing before with
    | case1 =>
        cases found
        exact ⟨List.nil_prefix, rfl⟩
    | case2 => cases found
    | case3 character rest offset _ fits inductionHypothesis =>
        obtain ⟨front, foundLater, rfl⟩ := Option.map_eq_some_iff.mp found
        obtain ⟨start, length⟩ := inductionHypothesis foundLater
        refine ⟨List.cons_prefix_cons.mpr ⟨rfl, start⟩, ?_⟩
        rw [byteLength, length]
        omega
    | case4 => cases found
  · rintro ⟨⟨after, rfl⟩, rfl⟩
    exact upTo?_byteLength before after

/-- Of two parts at the start of a text, the one with fewer bytes comes first. -/
theorem exists_append_of_byteLength_lt {text before longer : List Char} (first : before <+: text)
    (second : longer <+: text) (less : byteLength before < byteLength longer) :
    ∃ extra, extra ≠ [] ∧ longer = before ++ extra := by
  rcases List.prefix_or_prefix_of_prefix first second with ⟨extra, rfl⟩ | ⟨extra, rfl⟩
  · refine ⟨extra, ?_, rfl⟩
    rintro rfl
    simp at less
  · rw [byteLength_append] at less
    omega

/-- The byte offset where a line begins. All lines before it have a line end. -/
def lineStart (text : List Char) (number : Nat) : Nat :=
  (((text.splitOn '\n').take number).map fun line => byteLength line + 1).sum

/-- The lines of a text have its bytes, and one more if the last one is given a line end. -/
theorem sum_splitOn_newline (text : List Char) :
    ((text.splitOn '\n').map fun line => byteLength line + 1).sum = byteLength text + 1 := by
  induction text with
  | nil => rfl
  | cons character text inductionHypothesis =>
      rw [List.splitOn_cons_eq_if_modifyHead]
      by_cases newline : character = '\n'
      · have size : '\n'.utf8Size = 1 := rfl
        simp only [newline, beq_self_eq_true, ↓reduceIte, List.map_cons, List.sum_cons,
          inductionHypothesis, byteLength, size]
        omega
      · -- Any other character belongs to the first line.
        cases lines : text.splitOn '\n' with
        | nil => simp at lines
        | cons first others =>
            rw [lines] at inductionHypothesis
            simp only [List.map_cons, List.sum_cons] at inductionHypothesis
            simp only [beq_iff_eq, newline, ↓reduceIte, List.modifyHead_cons, List.map_cons,
              List.sum_cons, byteLength]
            omega

/-- A line begins where the lines above it end. -/
theorem LineAround.lineStart_eq {before after above left right below : List Char}
    (around : LineAround before after above left right below) :
    lineStart (before ++ after) (before.count '\n') = byteLength above := by
  rw [around.count_eq, around.cutBefore, List.append_assoc]
  rcases around.top with rfl | ⟨lines, rfl⟩
  · rfl
  · rw [lineStart, count_concat_newline, List.append_assoc, List.singleton_append,
      List.splitOn_append_cons_self, List.take_left, sum_splitOn_newline, byteLength_append]
    rfl

end Text

namespace Position

/-- A position is in an earlier line, or in the same line and further to the left. -/
def Before (first second : Position) : Prop :=
  first.line < second.line ∨ first.line = second.line ∧ first.column < second.column

theorem Before.trans {first second third : Position} (before : first.Before second)
    (later : second.Before third) : first.Before third := by
  unfold Before at *
  omega

theorem Before.asymm {first second : Position} (before : first.Before second) :
    ¬ second.Before first := by
  unfold Before at *
  omega

/-- A line end leads to the start of the next line, any other character to the next column. -/
theorem atEnd_concat (text : List Char) (character : Char) :
    atEnd (text ++ [character]) =
      if character = '\n' then ⟨(atEnd text).line + 1, 0⟩
      else ⟨(atEnd text).line, (atEnd text).column + 1⟩ := by
  by_cases newline : character = '\n' <;> simp [atEnd, newline]

theorem atEnd_before_concat (text : List Char) (character : Char) :
    (atEnd text).Before (atEnd (text ++ [character])) := by
  rw [atEnd_concat]
  by_cases newline : character = '\n'
  · rw [if_pos newline]
    exact .inl (Nat.lt_succ_self _)
  · rw [if_neg newline]
    exact .inr ⟨rfl, Nat.lt_succ_self _⟩

/-- Every character leads to a later position. -/
theorem atEnd_before_append (text : List Char) {extra : List Char} (present : extra ≠ []) :
    (atEnd text).Before (atEnd (text ++ extra)) := by
  induction extra generalizing text with
  | nil => exact absurd rfl present
  | cons character extra inductionHypothesis =>
      have step := atEnd_before_concat text character
      rcases extra with _ | ⟨next, extra⟩
      · exact step
      · have later := inductionHypothesis (text ++ [character]) (by simp)
        rw [List.append_assoc, List.singleton_append] at later
        exact step.trans later

end Position

namespace Source

variable (source : Source)

theorem position?_eq_some {offset : Nat} {position : Position} :
    source.position? offset = some position ↔
      ∃ before after, source.text.toList = before ++ after ∧ Text.byteLength before = offset ∧
        Position.atEnd before = position := by
  rw [position?, Option.map_eq_some_iff]
  constructor
  · rintro ⟨before, found, rfl⟩
    obtain ⟨⟨after, whole⟩, length⟩ := Text.upTo?_eq_some.mp found
    exact ⟨before, after, whole.symm, length, rfl⟩
  · rintro ⟨before, after, whole, length, rfl⟩
    exact ⟨before, Text.upTo?_eq_some.mpr ⟨⟨after, whole.symm⟩, length⟩, rfl⟩

/-- Positions belong to the byte offsets between characters. -/
theorem exists_position?_iff (offset : Nat) :
    (∃ position, source.position? offset = some position) ↔
      String.Pos.Raw.IsValid source.text ⟨offset⟩ := by
  rw [String.Pos.Raw.isValid_iff_exists_append]
  simp only [position?_eq_some]
  constructor
  · rintro ⟨_, before, after, whole, rfl, rfl⟩
    refine ⟨String.ofList before, String.ofList after, ?_, ?_⟩
    · rw [← String.ofList_append, ← whole, String.ofList_toList]
    · rw [String.rawEndPos, ← Text.byteLength_toList, String.toList_ofList]
  · rintro ⟨before, after, whole, place⟩
    refine ⟨_, before.toList, after.toList, ?_, ?_, rfl⟩
    · rw [whole, String.toList_append]
    · rw [Text.byteLength_toList]
      exact (congrArg String.Pos.Raw.byteIdx place).symm

section Order

variable {first second : Nat} {position other : Position}
  (found : source.position? first = some position)
  (foundOther : source.position? second = some other)

include found foundOther

/-- A later byte offset has a later position. -/
theorem before_of_lt (less : first < second) : position.Before other := by
  obtain ⟨before, after, whole, rfl, rfl⟩ := source.position?_eq_some.mp found
  obtain ⟨longer, rest, wholeOther, rfl, rfl⟩ := source.position?_eq_some.mp foundOther
  have start : before <+: source.text.toList := ⟨after, whole.symm⟩
  have startOther : longer <+: source.text.toList := ⟨rest, wholeOther.symm⟩
  obtain ⟨extra, present, rfl⟩ := Text.exists_append_of_byteLength_lt start startOther less
  exact Position.atEnd_before_append before present

theorem lt_iff_before : first < second ↔ position.Before other := by
  refine ⟨source.before_of_lt found foundOther, ?_⟩
  intro earlier
  rcases Nat.lt_trichotomy first second with less | rfl | more
  · exact less
  · rw [found, Option.some.injEq] at foundOther
    subst foundOther
    exact absurd earlier earlier.asymm
  · exact absurd (source.before_of_lt foundOther found more) earlier.asymm

end Order

/-- A position is in a line of the text, and its byte offset is found from there. -/
theorem exists_line_of_position? {offset : Nat} {position : Position}
    (found : source.position? offset = some position) :
    ∃ line, (source.text.toList.splitOn '\n')[position.line]? = some line ∧
      position.column ≤ line.length ∧
      offset = Text.lineStart source.text.toList position.line +
        Text.byteLength (line.take position.column) := by
  obtain ⟨before, after, whole, rfl, rfl⟩ := source.position?_eq_some.mp found
  obtain ⟨above, below, around⟩ := Text.exists_lineAround before after
  have line := around.getElem?_splitOn (List.not_mem_nil : '\n' ∉ [])
  rw [List.append_nil, List.append_nil] at line
  rw [whole, Position.atEnd_eq]
  refine ⟨Text.lastLine before ++ Text.firstLine after, line, by simp, ?_⟩
  rw [List.take_left, around.lineStart_eq, ← Text.byteLength_append, ← around.cutBefore]

end Source

namespace Span

/-- A span is made from a source and the place in bytes that it has there. -/
theorem ofBytes?_eq_some {source : Source} {offset length : Nat} {span : Span} :
    ofBytes? source offset length = some span ↔
      span.source = source ∧ span.start = offset ∧ span.length = length := by
  constructor
  · intro made
    simp only [ofBytes?, Option.bind_eq_bind, Option.bind_eq_some_iff] at made
    obtain ⟨before, foundBefore, inside, foundInside, cut⟩ := made
    cases cut
    obtain ⟨⟨rest, whole⟩, start⟩ := Text.upTo?_eq_some.mp foundBefore
    rw [← whole, List.drop_left] at foundInside
    obtain ⟨⟨after, rfl⟩, size⟩ := Text.upTo?_eq_some.mp foundInside
    rw [← List.append_assoc] at whole
    refine ⟨source_cut source _ _, ?_⟩
    rw [cut_eq whole.symm]
    exact ⟨start, size⟩
  · rintro ⟨rfl, rfl, rfl⟩
    exact span.ofBytes?_start_length

/-- The excerpt of a span shows a line of the text, and not what stands for a missing one. -/
theorem exists_line_of_excerpt (span : Span) :
    ∃ line returns,
      (span.source.text.toList.splitOn '\n')[span.excerpt.position.line]? = some line ∧
        Text.Shown line span.excerpt.line returns := by
  obtain ⟨line, found, -⟩ := span.source.exists_line_of_position? span.position?_start
  obtain ⟨returns, shown⟩ := Text.exists_shown (span.source.line span.position.line)
  have same : span.source.line span.position.line = line := by
    rw [Source.line, List.getD_eq_getElem?_getD, found, Option.getD_some]
  exact ⟨line, returns, found, same ▸ shown⟩

end Span

/-- All byte offsets between characters have positions, and no others. Positions have the order of
their byte offsets. The line of a position is a line of the text, and its column is in this line or
at its end, so that the byte offset is found from where the line begins. This is the line that the
excerpt of a span shows. -/
theorem positions_identify_places (source : Source) :
    (∀ offset, (∃ position, source.position? offset = some position) ↔
      String.Pos.Raw.IsValid source.text ⟨offset⟩) ∧
    (∀ first second position other, source.position? first = some position →
      source.position? second = some other → (first < second ↔ position.Before other)) ∧
    (∀ offset position, source.position? offset = some position →
      ∃ line, (source.text.toList.splitOn '\n')[position.line]? = some line ∧
        position.column ≤ line.length ∧
        offset = Text.lineStart source.text.toList position.line +
          Text.byteLength (line.take position.column)) ∧
    ∀ offset length span, Span.ofBytes? source offset length = some span →
      source.position? offset = some span.excerpt.position ∧
      ∃ line returns, (source.text.toList.splitOn '\n')[span.excerpt.position.line]? = some line ∧
        Text.Shown line span.excerpt.line returns := by
  refine ⟨source.exists_position?_iff, ?_, ?_, ?_⟩
  · intro first second position other found foundOther
    exact source.lt_iff_before found foundOther
  · intro offset position found
    exact source.exists_line_of_position? found
  · intro offset length span made
    obtain ⟨rfl, rfl, -⟩ := Span.ofBytes?_eq_some.mp made
    exact ⟨span.position?_start, span.exists_line_of_excerpt⟩

/-- The end of the first line comes before the start of the second, one byte further on. Three
characters behind that start the byte offset is nine, since one of them takes three bytes. -/
theorem positions_around_line_end_identify_places :
    let source := Source.unnamed "é,\n€\r,x"
    source.position? 3 = some ⟨0, 2⟩ ∧ source.position? 4 = some ⟨1, 0⟩ ∧
      Position.Before ⟨0, 2⟩ ⟨1, 0⟩ ∧ source.position? 9 = some ⟨1, 3⟩ ∧
      ∃ line, (source.text.toList.splitOn '\n')[1]? = some line ∧ 3 ≤ line.length ∧
        9 = Text.lineStart source.text.toList 1 + Text.byteLength (line.take 3) := by
  intro source
  have lineEnd : source.position? 3 = some ⟨0, 2⟩ := by decide +kernel
  have lineBegin : source.position? 4 = some ⟨1, 0⟩ := by decide +kernel
  have column : source.position? 9 = some ⟨1, 3⟩ := by decide +kernel
  obtain ⟨_, ordered, recovered, _⟩ := positions_identify_places source
  have before := (ordered 3 4 _ _ lineEnd lineBegin).mp (by decide)
  have place := recovered 9 _ column
  exact ⟨lineEnd, lineBegin, before, column, place⟩

end Intcode
