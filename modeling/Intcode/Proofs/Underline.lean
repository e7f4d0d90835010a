/-
This file shows that the carets of an excerpt stand under the contents of its span. The
line of the span is cut out of the text at the place of the span, and the rows begin with
a gutter of the same width.
-/

import Intcode.Proofs.BadCell

namespace Intcode

namespace Text

/-- The texts before and after a place, cut where the line of that place begins and ends. -/
structure LineAround (before after above left right below : List Char) : Prop where
  cutBefore : before = above ++ left
  cutAfter : after = right ++ below
  top : above = [] ∨ ∃ lines, above = lines ++ ['\n']
  leftClear : '\n' ∉ left
  rightClear : '\n' ∉ right
  bottom : below = [] ∨ ∃ lines, below = '\n' :: lines

/-- The line that a text begins with. -/
def firstLine (text : List Char) : List Char :=
  text.takeWhile (· != '\n')

/-- The line that a text ends with. -/
def lastLine (text : List Char) : List Char :=
  (firstLine text.reverse).reverse

theorem newline_not_mem_firstLine (text : List Char) : '\n' ∉ firstLine text := by
  intro inside
  have other := List.mem_takeWhile_imp inside
  simp at other

theorem exists_firstLine_append (text : List Char) :
    ∃ below, text = firstLine text ++ below ∧ (below = [] ∨ ∃ lines, below = '\n' :: lines) := by
  refine ⟨text.dropWhile (· != '\n'), List.takeWhile_append_dropWhile.symm, ?_⟩
  cases found : text.dropWhile (· != '\n') with
  | nil => exact .inl rfl
  | cons first lines =>
      have ended := List.head?_dropWhile_not (· != '\n') text
      rw [found] at ended
      have newline : first = '\n' := by simpa using ended
      exact .inr ⟨lines, by rw [newline]⟩

/-- Every place is in a line. -/
theorem exists_lineAround (before after : List Char) :
    ∃ above below, LineAround before after above (lastLine before) (firstLine after) below := by
  obtain ⟨rest, turned, top⟩ := exists_firstLine_append before.reverse
  obtain ⟨below, cut, bottom⟩ := exists_firstLine_append after
  have whole : before = rest.reverse ++ lastLine before := by
    have turnedBack := congrArg List.reverse turned
    rwa [List.reverse_reverse, List.reverse_append] at turnedBack
  refine ⟨rest.reverse, below, whole, cut, ?_, ?_, newline_not_mem_firstLine after, bottom⟩
  · rcases top with rfl | ⟨lines, rfl⟩
    · exact .inl rfl
    · exact .inr ⟨lines.reverse, List.reverse_cons⟩
  · intro inside
    exact newline_not_mem_firstLine before.reverse (List.mem_reverse.mp inside)

/-- A text has one line more than it has line ends. -/
theorem length_splitOn_newline (text : List Char) :
    (text.splitOn '\n').length = text.count '\n' + 1 := by
  induction text with
  | nil => rfl
  | cons character text inductionHypothesis =>
      rw [List.splitOn_cons_eq_if_modifyHead]
      by_cases newline : character = '\n'
      · simp [newline, inductionHypothesis]
      · simp [newline, inductionHypothesis]

theorem count_concat_newline (text : List Char) :
    (text ++ ['\n']).count '\n' = (text.splitOn '\n').length := by
  rw [List.count_append, length_splitOn_newline]
  rfl

section Lines

variable {before inside after above left right below : List Char}

/-- The line ends before a place are those of the lines above it. -/
theorem LineAround.count_eq (around : LineAround before after above left right below) :
    before.count '\n' = above.count '\n' := by
  rw [around.cutBefore, List.count_append, List.count_eq_zero.mpr around.leftClear]
  omega

/-- The line of a place is found by the line ends before the place. -/
theorem LineAround.getElem?_splitOn (around : LineAround before after above left right below)
    (oneLine : '\n' ∉ inside) :
    ((before ++ inside ++ after).splitOn '\n')[before.count '\n']? =
      some (left ++ inside ++ right) := by
  have free : '\n' ∉ left ++ inside ++ right := by
    simp [around.leftClear, oneLine, around.rightClear]
  -- The line is the first one of what is left when the lines above are taken away.
  have first : ((left ++ inside ++ right ++ below).splitOn '\n')[0]? =
      some (left ++ inside ++ right) := by
    rcases around.bottom with rfl | ⟨lines, rfl⟩
    · rw [List.append_nil, List.splitOn_eq_singleton free]
      rfl
    · rw [List.splitOn_append_cons_self_of_not_mem free]
      rfl
  have text : before ++ inside ++ after = above ++ (left ++ inside ++ right ++ below) := by
    simp [around.cutBefore, around.cutAfter]
  rw [around.count_eq, text]
  rcases around.top with rfl | ⟨lines, rfl⟩
  · exact first
  · rw [count_concat_newline, List.append_assoc, List.singleton_append,
      List.splitOn_append_cons_self, List.getElem?_append_right (Nat.le_refl _), Nat.sub_self]
    exact first

end Lines

/-- A line without the carriage returns at its end, and those carriage returns. -/
structure Shown (line shown returns : List Char) : Prop where
  cut : line = shown ++ returns
  returned : ∀ character ∈ returns, character = '\r'
  last : shown.getLast? ≠ some '\r'

theorem exists_shown (line : List Char) :
    ∃ returns, Shown line ((line.reverse.dropWhile (· == '\r')).reverse) returns := by
  refine ⟨(line.reverse.takeWhile (· == '\r')).reverse, ?_, ?_, ?_⟩
  · rw [← List.reverse_append, List.takeWhile_append_dropWhile, List.reverse_reverse]
  · intro character inside
    simpa using List.mem_takeWhile_imp (List.mem_reverse.mp inside)
  · rw [List.getLast?_reverse]
    intro found
    have other := List.head?_dropWhile_not (· == '\r') line.reverse
    rw [found] at other
    simp at other

/-- The contents of a span do not reach into the carriage returns at the end of its line. -/
def ClearOfReturns (inside after : List Char) : Prop :=
  inside.getLast? = some '\r' → ∃ character ∈ firstLine after, character ≠ '\r'

/-- Contents that do not reach into the carriage returns are shown as a whole. -/
theorem Shown.exists_append {left inside after shown returns : List Char}
    (isShown : Shown (left ++ inside ++ firstLine after) shown returns)
    (clear : ClearOfReturns inside after) (present : inside ≠ []) :
    ∃ right, shown = left ++ inside ++ right := by
  obtain ⟨right, longer, -⟩ | ⟨covered, shorter, ended⟩ :=
    List.append_eq_append_iff.mp isShown.cut
  · exact ⟨right, longer⟩
  · cases final : covered.getLast? with
    | none =>
        rw [List.getLast?_eq_none_iff] at final
        exact ⟨[], by rw [shorter, final, List.append_nil, List.append_nil]⟩
    | some character =>
        -- Then the contents end with a carriage return, and so does all that follows them.
        have isReturn : character = '\r' := by
          apply isShown.returned
          rw [ended]
          exact List.mem_append_left _ (List.mem_of_getLast? final)
        have last : inside.getLast? = some '\r' := by
          have whole := congrArg List.getLast? shorter
          rw [List.getLast?_append, List.getLast?_append, final, isReturn] at whole
          obtain ⟨other, found⟩ := Option.ne_none_iff_exists'.mp
            (mt List.getLast?_eq_none_iff.mp present)
          simpa [found] using whole
        obtain ⟨other, there, notReturn⟩ := clear last
        have returned := isShown.returned other (ended ▸ List.mem_append_right _ there)
        exact absurd returned notReturn

end Text

section Columns

/-- Characters that stand side by side are found in columns that follow each other. -/
theorem map_getElem?_range' (front inside rest : List Char) :
    (List.range' front.length inside.length).map (fun column => (front ++ inside ++ rest)[column]?) =
      inside.map some := by
  induction inside generalizing front with
  | nil => rfl
  | cons character inside inductionHypothesis =>
      have later := inductionHypothesis (front ++ [character])
      rw [List.length_append, List.length_singleton] at later
      rw [List.length_cons, List.range'_succ, List.map_cons, List.map_cons]
      congr 1
      · simp
      · simpa using later

theorem idxsOf_replicate (mark : Char) (start count : Nat) :
    (List.replicate count mark).idxsOf mark start = List.range' start count := by
  induction count generalizing start with
  | zero => rfl
  | succ count inductionHypothesis =>
      simp [List.replicate_succ, List.idxsOf_cons, inductionHypothesis, List.range'_succ]

end Columns

namespace Excerpt

variable (excerpt : Excerpt)

/-- The gutter of the row of carets is as wide as that of the source row. -/
theorem idxsOf_caretRow :
    excerpt.caretRow.toList.idxsOf '^' =
      List.range' ((excerpt.number ++ " | ").length + excerpt.position.column)
        (max excerpt.width 1) := by
  have front : ∀ count start, (List.replicate count ' ').idxsOf '^' start = [] := by
    intro count start
    rw [List.idxsOf_eq_nil_iff]
    intro character inside
    rw [List.eq_of_mem_replicate inside]
    rfl
  have bar : ∀ start, " | ".toList.idxsOf '^' start = [] := fun _ => rfl
  simp only [caretRow, padding, gutter, String.toList_append, String.toList_ofList,
    List.idxsOf_append, front, bar, idxsOf_replicate, List.nil_append, List.length_append,
    List.length_replicate, String.length_append, String.length_toList]
  congr 1
  omega

theorem sourceRow_toList :
    excerpt.sourceRow.toList = (excerpt.number ++ " | ").toList ++ excerpt.line := by
  simp [sourceRow]

end Excerpt

theorem Position.atEnd_eq (text : List Char) :
    atEnd text = ⟨text.count '\n', (Text.lastLine text).length⟩ := by
  simp [atEnd, Text.lastLine, Text.firstLine]

namespace Span

theorem position_eq (span : Span) :
    span.position = ⟨span.before.count '\n', (Text.lastLine span.before).length⟩ :=
  Position.atEnd_eq span.before

theorem number_excerpt (span : Span) :
    span.excerpt.number = toString (1 + span.before.count '\n') := by
  show toString (span.position.line + 1) = _
  rw [position_eq, Nat.add_comm]

theorem column_excerpt (span : Span) :
    span.excerpt.position.column = (Text.lastLine span.before).length := by
  show span.position.column = _
  rw [position_eq]

theorem placeRow_excerpt (span : Span) :
    span.excerpt.placeRow =
      "In " ++ span.path ++ ":" ++ toString (1 + span.before.count '\n') ++ ":" ++
        toString (1 + (Text.lastLine span.before).length) := by
  rw [Excerpt.placeRow, number_excerpt, column_excerpt, Nat.add_comm 1 (Text.lastLine _).length]
  rfl

/-- An excerpt shows the line of its span. -/
theorem line_excerpt (span : Span) (oneLine : '\n' ∉ span.inside) :
    ∃ returns, Text.Shown (Text.lastLine span.before ++ span.inside ++ Text.firstLine span.after)
      span.excerpt.line returns := by
  obtain ⟨above, below, around⟩ := Text.exists_lineAround span.before span.after
  have line : span.source.line span.position.line =
      Text.lastLine span.before ++ span.inside ++ Text.firstLine span.after := by
    rw [Source.line, source_toList, position_eq, List.getD_eq_getElem?_getD,
      around.getElem?_splitOn oneLine, Option.getD_some]
  obtain ⟨returns, isShown⟩ := Text.exists_shown (span.source.line span.position.line)
  exact ⟨returns, line ▸ isShown⟩

/-- The characters over the carets are the contents of the span. -/
theorem over_carets (span : Span) (oneLine : '\n' ∉ span.inside)
    (clear : Text.ClearOfReturns span.inside span.after) (present : span.inside ≠ []) :
    (span.excerpt.caretRow.toList.idxsOf '^').map (fun column => span.excerpt.sourceRow.toList[column]?) =
      span.inside.map some := by
  obtain ⟨returns, isShown⟩ := span.line_excerpt oneLine
  obtain ⟨rest, whole⟩ := isShown.exists_append clear present
  let front := (span.excerpt.number ++ " | ").toList ++ Text.lastLine span.before
  have row : span.excerpt.sourceRow.toList = front ++ span.inside ++ rest := by
    rw [Excerpt.sourceRow_toList, whole]
    simp [front]
  have width : max span.excerpt.width 1 = span.inside.length := by
    have positive := List.length_pos_iff.mpr present
    show max span.inside.length 1 = span.inside.length
    omega
  have start : (span.excerpt.number ++ " | ").length + span.excerpt.position.column =
      front.length := by
    rw [column_excerpt, List.length_append, String.length_toList]
  rw [Excerpt.idxsOf_caretRow, row, width, start]
  exact map_getElem?_range' front span.inside rest

theorem caret_of_empty (span : Span) (empty : span.inside = []) :
    span.excerpt.caretRow.toList.idxsOf '^' =
      [(span.excerpt.number ++ " | ").length + (Text.lastLine span.before).length] := by
  have width : span.excerpt.width = 0 := by
    show span.inside.length = 0
    rw [empty, List.length_nil]
  rw [Excerpt.idxsOf_caretRow, width, column_excerpt]
  rfl

end Span

/-- The excerpt of a span names the place where the span begins and shows its line, and the
characters over the carets are the contents of the span, or a single caret stands where the span is
empty. The notes of a diagnostic show the same rows, with their hints behind the carets. -/
theorem carets_stand_under_contents :
    (∀ (source : Source) (before inside after : List Char),
      source.text.toList = before ++ inside ++ after → '\n' ∉ inside →
      Text.ClearOfReturns inside after →
      ∃ span above left right below shown returns,
        Span.ofBytes? source (Text.byteLength before) (Text.byteLength inside) = some span ∧
        span.contents = String.ofList inside ∧
        Text.LineAround before after above left right below ∧
        Text.Shown (left ++ inside ++ right) shown returns ∧
        let excerpt := span.excerpt
        let number := toString (1 + before.count '\n')
        excerpt.render =
          excerpt.placeRow ++ "\n" ++ excerpt.emptyRow ++ "\n" ++ excerpt.sourceRow ++ "\n" ++
            excerpt.caretRow ++ "\n" ∧
        excerpt.placeRow =
          "In " ++ source.path ++ ":" ++ number ++ ":" ++ toString (1 + left.length) ∧
        excerpt.sourceRow = number ++ " | " ++ String.ofList shown ∧
        (inside ≠ [] →
          (excerpt.caretRow.toList.idxsOf '^').map (fun column => excerpt.sourceRow.toList[column]?) =
            inside.map some) ∧
        (inside = [] →
          excerpt.caretRow.toList.idxsOf '^' = [(number ++ " | ").length + left.length])) ∧
    (∀ (reason : String) (notes : List Note),
      (Diagnostic.mk reason notes).render =
        String.join (notes.map Note.render) ++ "Syntax Error: " ++ reason) ∧
    ∀ span : Span,
      let excerpt := span.excerpt
      (Note.mk span none).render = excerpt.render ∧
      ∀ hint, (Note.mk span (some hint)).render =
        excerpt.placeRow ++ "\n" ++ excerpt.emptyRow ++ "\n" ++ excerpt.sourceRow ++ "\n" ++
          excerpt.caretRow ++ " note: " ++ hint ++ "\n" := by
  refine ⟨?_, fun _ _ => rfl, ?_⟩
  · intro source before inside after whole oneLine clear
    let span : Span := ⟨source.path, before, inside, after⟩
    have isSource : span.source = source := by
      simp [span, Span.source, ← whole]
    have found : Span.ofBytes? source span.start span.length = some span := by
      rw [← isSource]
      exact span.ofBytes?_start_length
    obtain ⟨above, below, around⟩ := Text.exists_lineAround before after
    obtain ⟨returns, isShown⟩ := span.line_excerpt oneLine
    have number : span.excerpt.number = toString (1 + before.count '\n') := span.number_excerpt
    refine ⟨span, above, _, _, below, _, returns, found, rfl, around, isShown, ?_, ?_, ?_, ?_, ?_⟩
    · simp [Excerpt.render, Excerpt.renderWith]
    · exact span.placeRow_excerpt
    · rw [Excerpt.sourceRow, number]
    · exact span.over_carets oneLine clear
    · intro empty
      rw [← number]
      exact span.caret_of_empty empty
  · intro span
    refine ⟨rfl, ?_⟩
    intro hint
    simp [Note.render, Excerpt.renderWith, String.append_assoc]

/-- In the tenth line, two carets stand under the two characters behind a carriage return. -/
theorem carets_stand_under_tenth_line :
    let source := Source.unnamed "\n\n\n\n\n\n\n\n\nλ,\rxé,\r\r\n9"
    ∃ span, Span.ofBytes? source 13 3 = some span ∧ span.contents = "xé" ∧
      (span.excerpt.caretRow.toList.idxsOf '^').map
        (fun column => span.excerpt.sourceRow.toList[column]?) = [some 'x', some 'é'] := by
  intro source
  have start : Text.byteLength "\n\n\n\n\n\n\n\n\nλ,\r".toList = 13 := by decide
  have width : Text.byteLength "xé".toList = 3 := by decide
  obtain ⟨span, _, _, _, _, _, _, found, contents, _, _, _, _, _, carets, _⟩ :=
    carets_stand_under_contents.1 source "\n\n\n\n\n\n\n\n\nλ,\r".toList "xé".toList
      ",\r\r\n9".toList (by decide) (by decide) (by intro ended; cases ended)
  rw [start, width] at found
  exact ⟨span, found, contents, carets (by decide)⟩

end Intcode
