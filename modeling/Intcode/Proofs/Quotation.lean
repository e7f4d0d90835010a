/-
This file shows that a string is read as it was written, whichever of its written
forms is taken.
-/

import Intcode.Toml.Token

namespace Intcode.Toml

section Contents

variable {quote : Quote} {multiline : Bool} {character : Char}

theorem contents_plain (notMark : character ≠ quote.mark)
    (notEscape : character ≠ '\\' ∨ quote = .literal)
    (content : isContent character = true ∨ multiline = true ∧ character = '\n')
    (rest : List Char) :
    contents quote multiline .none (character :: rest) =
      (contents quote multiline .none rest).map fun (text, left) => (character :: text, left) := by
  have unescaped : (character == '\\' && quote == .basic) = false := by
    rcases notEscape with other | rfl
    · simp [other]
    · simp
  have kept : (isContent character || multiline && character == '\n') = true := by
    simpa using content
  rw [contents]
  · simp [notMark, unescaped, kept]
  all_goals simp

theorem isContent_of_not_isControl (printed : isControl character = false) :
    isContent character = true := by
  simp only [isControl, isContent, Bool.or_eq_false_iff, Bool.or_eq_true, Bool.and_eq_true,
    decide_eq_false_iff_not, decide_eq_true_eq, beq_eq_false_iff_ne, bne_iff_ne] at printed ⊢
  omega

theorem hexDigit?_upperHex : ∀ value < 16, hexDigit? (upperHex value) = some value := by
  decide

theorem scalar?_toNat (character : Char) : scalar? character.toNat = some character := by
  have valid : character.toNat.isValidChar := character.valid
  rw [scalar?, if_pos valid, Char.ofNat_toNat]

theorem toNat_of_isControl (control : isControl character = true) : character.toNat < 128 := by
  simp only [isControl, Bool.or_eq_true, decide_eq_true_eq, beq_iff_eq] at control
  omega

/-- A control character is read from its code point. -/
theorem contents_code (control : isControl character = true) (rest : List Char) :
    contents .basic multiline .none
        (['\\', 'u', '0', '0', upperHex (character.toNat / 16), upperHex (character.toNat % 16)] ++
          rest) =
      (contents .basic multiline .none rest).map fun (text, left) => (character :: text, left) := by
  have bound := toNat_of_isControl control
  have high := hexDigit?_upperHex (character.toNat / 16) (by omega)
  have low := hexDigit?_upperHex (character.toNat % 16) (by omega)
  have whole : 16 * (character.toNat / 16) + character.toNat % 16 = character.toNat :=
    Nat.div_add_mod _ _
  have zero : hexDigit? '0' = some 0 := by decide
  simp [contents, Quote.mark, escaped?, zero, high, low, whole, scalar?_toNat]

/-- A basic string gives back what has been escaped. -/
theorem contents_escape (kept : character = '\n' → multiline = true) (rest : List Char) :
    contents .basic multiline .none (escape character ++ rest) =
      (contents .basic multiline .none rest).map fun (text, left) => (character :: text, left) := by
  unfold escape
  split
  case h_3 => exact contents_plain (by decide) (.inl (by decide)) (.inr ⟨kept rfl, rfl⟩) rest
  case h_8 notQuote notBackslash =>
    split
    next control => exact contents_code control rest
    next printed =>
      have content := isContent_of_not_isControl (Bool.eq_false_iff.mpr printed)
      exact contents_plain notQuote (.inl notBackslash) (.inl content) rest
  all_goals
    simp [contents, Quote.mark, escaped?]

theorem contents_escapes (multiline : Bool) {text : List Char}
    (kept : '\n' ∈ text → multiline = true) (rest : List Char) :
    contents .basic multiline .none (text.flatMap escape ++ rest) =
      (contents .basic multiline .none rest).map fun (more, left) => (text ++ more, left) := by
  induction text with
  | nil => simp
  | cons character text inductionHypothesis =>
      have here : character = '\n' → multiline = true := by
        rintro rfl
        exact kept List.mem_cons_self
      rw [List.flatMap_cons, List.append_assoc, contents_escape here,
        inductionHypothesis fun inside => kept (List.mem_cons_of_mem _ inside), Option.map_map]
      rfl

/-- A single mark ends a string of one line. -/
theorem contents_mark (quote : Quote) (rest : List Char) :
    contents quote false .none (quote.mark :: rest) = some ([], rest) := by
  cases quote <;> simp [contents, Quote.mark]

/-- Three marks end a string of several lines. -/
theorem contents_marks (quote : Quote) (rest : List Char) :
    contents quote true .none (List.replicate 3 quote.mark ++ '\n' :: rest) =
      some ([], '\n' :: rest) := by
  cases quote <;> simp [contents, Quote.mark, closing?]

/-- An apostrophe that does not end a literal string belongs to it. -/
theorem contents_apostrophe {rest : List Char} (inner : closing? '\'' ('\'' :: rest) = none) :
    contents .literal true .none ('\'' :: rest) =
      (contents .literal true .none rest).map fun (text, left) => ('\'' :: text, left) := by
  rw [contents]
  · simp [Quote.mark, inner]
  all_goals simp

/-- Apostrophes inside a literal string do not end it, unless three stand together. -/
theorem closing?_eq_none {text : List Char} (present : text ≠ [])
    (apart : hasTripleApostrophe text = false) (last : text.getLast? ≠ some '\'')
    (rest : List Char) : closing? '\'' (text ++ rest) = none := by
  rcases text with _ | ⟨first, _ | ⟨second, _ | ⟨third, text⟩⟩⟩
  · contradiction
  · have other : first ≠ '\'' := by simpa using last
    simp [closing?, other]
  · have other : second ≠ '\'' := by simpa using last
    by_cases apostrophe : first = '\'' <;> simp [closing?, other, apostrophe]
  · have other : ¬ (first = '\'' ∧ second = '\'' ∧ third = '\'') := by
      rintro ⟨rfl, rfl, rfl⟩
      simp [hasTripleApostrophe] at apart
    by_cases one : first = '\'' <;> by_cases two : second = '\'' <;>
      by_cases three : third = '\'' <;> simp_all [closing?]

/-- A literal string gives back a text without its mark. -/
theorem contents_literal {text : List Char} (free : '\'' ∉ text)
    (content : ∀ character ∈ text, isContent character = true) (rest : List Char) :
    contents .literal false .none (text ++ '\'' :: rest) = some (text, rest) := by
  induction text with
  | nil => exact contents_mark .literal rest
  | cons character text inductionHypothesis =>
      have notMark : character ≠ Quote.literal.mark :=
        fun same => free (same ▸ List.mem_cons_self)
      have freeLater : '\'' ∉ text := fun inside => free (List.mem_cons_of_mem _ inside)
      obtain ⟨first, content⟩ := List.forall_mem_cons.mp content
      rw [List.cons_append, contents_plain notMark (.inr rfl) (.inl first),
        inductionHypothesis freeLater content]
      rfl

/-- So does one of several lines, if no three marks stand together and none stands at the end. -/
theorem contents_literal_lines {text : List Char} (apart : hasTripleApostrophe text = false)
    (last : text.getLast? ≠ some '\'')
    (content : ∀ character ∈ text, isContent character = true ∨ character = '\n')
    (rest : List Char) :
    contents .literal true .none (text ++ (List.replicate 3 '\'' ++ '\n' :: rest)) =
      some (text, '\n' :: rest) := by
  induction text with
  | nil => exact contents_marks .literal rest
  | cons character text inductionHypothesis =>
      have inner := closing?_eq_none (List.cons_ne_nil character text) apart last
        (List.replicate 3 '\'' ++ '\n' :: rest)
      obtain ⟨first, content⟩ := List.forall_mem_cons.mp content
      rw [hasTripleApostrophe, Bool.or_eq_false_iff] at apart
      have lastLater : text.getLast? ≠ some '\'' := by
        intro found
        rw [List.getLast?_cons, found] at last
        exact last rfl
      have later := inductionHypothesis apart.2 lastLater content
      by_cases mark : character = '\''
      · subst mark
        rw [List.cons_append] at inner ⊢
        rw [contents_apostrophe inner, later]
        rfl
      · have kept : isContent character = true ∨ true = true ∧ character = '\n' :=
          first.imp_right fun line => ⟨rfl, line⟩
        rw [List.cons_append, contents_plain mark (.inr rfl) kept, later]
        rfl

end Contents

/-- A text that a literal string can hold has no other characters than those that stand for
themselves, and line ends. -/
theorem content_of_isPlain {text : List Char} (plain : isPlain text = true) :
    (∀ character ∈ text, isContent character = true ∨ character = '\n') ∧
      hasTripleApostrophe text = false ∧ text.getLast? ≠ some '\'' := by
  simp only [isPlain, Bool.and_eq_true, List.all_eq_true, Bool.not_eq_true', bne_iff_ne] at plain
  obtain ⟨⟨clear, apart⟩, last⟩ := plain
  refine ⟨?_, apart, last⟩
  intro character inside
  have kind := clear character inside
  simp only [Bool.or_eq_true, Bool.not_eq_true', beq_iff_eq] at kind
  rcases kind with (printed | rfl) | line
  · exact .inl (isContent_of_not_isControl printed)
  · exact .inl (by decide)
  · exact .inr line

/-- The first mark of a string that starts with another character was its only one. -/
theorem readQuoted_of_head {quote : Quote} {input : List Char}
    (other : ∀ character ∈ input.head?, character ≠ quote.mark) :
    readQuoted quote input =
      (contents quote false .none input).map fun (text, left) => ⟨text, false, left⟩ := by
  rcases input with _ | ⟨first, _ | ⟨second, rest⟩⟩
  · rfl
  · rfl
  · have notMark : first ≠ quote.mark := other first rfl
    simp [readQuoted, notMark]

/-- A line end right after three marks does not count. -/
theorem readQuoted_lines (quote : Quote) (body : List Char) :
    readQuoted quote (quote.mark :: quote.mark :: '\n' :: body) =
      (contents quote true .none body).map fun (text, left) => ⟨text, true, left⟩ := by
  simp [readQuoted]

theorem readQuoted_marks (quote : Quote) {body : List Char} (noLine : body.head? ≠ some '\n') :
    readQuoted quote (quote.mark :: quote.mark :: body) =
      (contents quote true .none body).map fun (text, left) => ⟨text, true, left⟩ := by
  simp [readQuoted, noLine]

section Forms

variable {text : List Char}

theorem readQuoted_literal_lines (plain : isPlain text = true) (rest : List Char) :
    readQuoted .literal
        ('\'' :: '\'' :: '\n' :: (text ++ (List.replicate 3 '\'' ++ '\n' :: rest))) =
      some ⟨text, true, '\n' :: rest⟩ := by
  obtain ⟨content, apart, last⟩ := content_of_isPlain plain
  have isRead := readQuoted_lines .literal (text ++ (List.replicate 3 '\'' ++ '\n' :: rest))
  rwa [contents_literal_lines apart last content rest] at isRead

theorem readQuoted_literal_apostrophes (plain : isPlain text = true) (oneLine : '\n' ∉ text)
    (apostrophe : '\'' ∈ text) (rest : List Char) :
    readQuoted .literal ('\'' :: '\'' :: (text ++ (List.replicate 3 '\'' ++ '\n' :: rest))) =
      some ⟨text, true, '\n' :: rest⟩ := by
  obtain ⟨content, apart, last⟩ := content_of_isPlain plain
  have noLine : (text ++ (List.replicate 3 '\'' ++ '\n' :: rest)).head? ≠ some '\n' := by
    rcases text with _ | ⟨first, text⟩
    · cases apostrophe
    · rintro ⟨⟩
      exact oneLine List.mem_cons_self
  have isRead := readQuoted_marks .literal noLine
  rwa [contents_literal_lines apart last content rest] at isRead

theorem readQuoted_literal (plain : isPlain text = true) (oneLine : '\n' ∉ text)
    (free : '\'' ∉ text) (rest : List Char) :
    readQuoted .literal (text ++ '\'' :: '\n' :: rest) = some ⟨text, false, '\n' :: rest⟩ := by
  rcases text with _ | ⟨first, text⟩
  · rfl
  have content : ∀ character ∈ first :: text, isContent character = true := by
    intro character inside
    rcases (content_of_isPlain plain).1 character inside with content | rfl
    · exact content
    · exact absurd inside oneLine
  have other : first ≠ '\'' := fun same => free (same ▸ List.mem_cons_self)
  rw [readQuoted_of_head (by rintro _ ⟨⟩; exact other), contents_literal free content]
  rfl

theorem readQuoted_basic_lines (text rest : List Char) :
    readQuoted .basic
        ('"' :: '"' :: '\n' :: (text.flatMap escape ++ (List.replicate 3 '"' ++ '\n' :: rest))) =
      some ⟨text, true, '\n' :: rest⟩ := by
  have isRead :=
    readQuoted_lines .basic (text.flatMap escape ++ (List.replicate 3 '"' ++ '\n' :: rest))
  have ended := contents_marks .basic rest
  rw [contents_escapes true fun _ => rfl, Quote.mark] at isRead
  rw [Quote.mark] at ended
  rw [isRead, ended]
  simp

/-- An escaped character begins with no quotation mark. -/
theorem exists_escape_eq_cons (character : Char) :
    ∃ first more, escape character = first :: more ∧ first ≠ '"' := by
  unfold escape
  split
  case h_8 notQuote _ =>
    split
    next => exact ⟨_, _, rfl, by decide⟩
    next => exact ⟨_, _, rfl, notQuote⟩
  all_goals exact ⟨_, _, rfl, by decide⟩

theorem readQuoted_basic (oneLine : '\n' ∉ text) (present : text ≠ []) (rest : List Char) :
    readQuoted .basic (text.flatMap escape ++ '"' :: '\n' :: rest) =
      some ⟨text, false, '\n' :: rest⟩ := by
  have other : ∀ character ∈ (text.flatMap escape ++ '"' :: '\n' :: rest).head?,
      character ≠ Quote.basic.mark := by
    rcases text with _ | ⟨first, text⟩
    · contradiction
    obtain ⟨character, more, written, notQuote⟩ := exists_escape_eq_cons first
    rw [List.flatMap_cons, written]
    rintro _ ⟨⟩
    exact notQuote
  have ended := contents_mark .basic ('\n' :: rest)
  rw [Quote.mark] at ended
  rw [readQuoted_of_head other, contents_escapes false fun line => absurd line oneLine, ended]
  simp

end Forms

/-- A quoted string is a token. -/
theorem next_quoted {quote : Quote} {input rest text : List Char} {multiline : Bool}
    (isRead : readQuoted quote input = some ⟨text, multiline, rest⟩) :
    Token.next (quote.mark :: input) = some (.quoted (String.ofList text) multiline, rest) := by
  cases quote
  · exact congrArg (Option.map _) isRead
  · exact congrArg (Option.map _) isRead

/-- What has been written is read again. -/
theorem next_writeQuoted (text rest : List Char) :
    ∃ multiline, Token.next (writeQuoted text ++ '\n' :: rest) =
      some (.quoted (String.ofList text) multiline, '\n' :: rest) := by
  unfold writeQuoted
  dsimp only
  split
  next plain =>
    split
    next =>
      refine ⟨true, ?_⟩
      have isToken := next_quoted (readQuoted_literal_lines plain rest)
      simpa [Quote.mark] using isToken
    next oneLine =>
      rw [List.contains_iff_mem] at oneLine
      split
      next apostrophe =>
        rw [List.contains_iff_mem] at apostrophe
        refine ⟨true, ?_⟩
        have isToken := next_quoted (readQuoted_literal_apostrophes plain oneLine apostrophe rest)
        simpa [Quote.mark] using isToken
      next free =>
        rw [List.contains_iff_mem] at free
        refine ⟨false, ?_⟩
        have isToken := next_quoted (readQuoted_literal plain oneLine free rest)
        simpa [Quote.mark] using isToken
  next notPlain =>
    split
    next =>
      refine ⟨true, ?_⟩
      have isToken := next_quoted (readQuoted_basic_lines text rest)
      simpa [Quote.mark] using isToken
    next oneLine =>
      rw [List.contains_iff_mem] at oneLine
      have present : text ≠ [] := by
        rintro rfl
        exact notPlain rfl
      refine ⟨false, ?_⟩
      have isToken := next_quoted (readQuoted_basic oneLine present rest)
      simpa [Quote.mark] using isToken

section Written

/-- A text that can stand between apostrophes as it is, on one line or on several. -/
structure Plain (text : List Char) : Prop where
  printed : ∀ character ∈ text, isControl character = true → character = '\t' ∨ character = '\n'
  apart : ¬ ['\'', '\'', '\''] <:+: text
  last : ¬ ['\''] <:+ text

/-- The forms in which a text is written as a string. -/
inductive Written (text : List Char) : List Char → Prop where
  | literal (plain : Plain text) (oneLine : '\n' ∉ text) (free : '\'' ∉ text) :
      Written text (['\''] ++ text ++ ['\''])
  | literalMarks (plain : Plain text) (oneLine : '\n' ∉ text) (apostrophe : '\'' ∈ text) :
      Written text ("'''".toList ++ text ++ "'''".toList)
  | literalLines (plain : Plain text) (several : '\n' ∈ text) :
      Written text ("'''\n".toList ++ text ++ "'''".toList)
  | basic (escapes : ¬ Plain text) (oneLine : '\n' ∉ text) :
      Written text (['"'] ++ text.flatMap escape ++ ['"'])
  | basicLines (escapes : ¬ Plain text) (several : '\n' ∈ text) :
      Written text ("\"\"\"\n".toList ++ text.flatMap escape ++ "\"\"\"".toList)

theorem hasTripleApostrophe_iff (text : List Char) :
    hasTripleApostrophe text = true ↔ ['\'', '\'', '\''] <:+: text := by
  induction text with
  | nil => simp [hasTripleApostrophe]
  | cons character text inductionHypothesis =>
      rw [hasTripleApostrophe, Bool.or_eq_true, List.isPrefixOf_iff_prefix, inductionHypothesis,
        List.infix_cons_iff]

theorem isPlain_iff (text : List Char) : isPlain text = true ↔ Plain text := by
  have printed : (text.all fun character =>
      !isControl character || character == '\t' || character == '\n') = true ↔
      ∀ character ∈ text, isControl character = true → character = '\t' ∨ character = '\n' := by
    rw [List.all_eq_true]
    apply forall_congr'
    intro character
    cases isControl character <;> simp
  have apart : (!hasTripleApostrophe text) = true ↔ ¬ ['\'', '\'', '\''] <:+: text := by
    rw [← hasTripleApostrophe_iff, Bool.not_eq_true', Bool.not_eq_true]
  have last : (text.getLast? != some '\'') = true ↔ ¬ ['\''] <:+ text := by
    rw [bne_iff_ne, Ne, List.getLast?_eq_some_iff]
    simp [List.IsSuffix, eq_comm]
  rw [isPlain, Bool.and_eq_true, Bool.and_eq_true, printed, apart, last]
  constructor
  · intro ⟨⟨printed, apart⟩, last⟩
    exact ⟨printed, apart, last⟩
  · intro plain
    exact ⟨⟨plain.printed, plain.apart⟩, plain.last⟩

/-- Each text is written in one of the forms. -/
theorem written_writeQuoted (text : List Char) : Written text (writeQuoted text) := by
  unfold writeQuoted
  dsimp only
  simp only [List.contains_iff_mem]
  split
  next isPlain =>
    have plain := (isPlain_iff text).mp isPlain
    split
    next several => exact .literalLines plain several
    next oneLine =>
      split
      next apostrophe => exact .literalMarks plain oneLine apostrophe
      next free => exact .literal plain oneLine free
  next notPlain =>
    have escapes := mt (isPlain_iff text).mpr notPlain
    split
    next several => exact .basicLines escapes several
    next oneLine => exact .basic escapes oneLine

end Written

end Intcode.Toml
