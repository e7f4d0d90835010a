/-
This file shows where a text that can not be loaded has its problem. The span of the
problem is the first piece of the text that spells no cell, without the blank characters
around it.
-/

import Intcode.Proofs.Grammar

namespace Intcode

namespace Text

/-- The first characters of a text are found again by their length in bytes. -/
theorem upTo?_byteLength (before after : List Char) :
    upTo? (before ++ after) (byteLength before) = some before := by
  induction before with
  | nil => cases after <;> rfl
  | cons character before inductionHypothesis =>
      have size := character.utf8Size_pos
      have rest : byteLength (character :: before) - character.utf8Size = byteLength before := by
        rw [byteLength]
        omega
      rw [List.cons_append, upTo?, if_pos (by rw [byteLength]; omega), rest, inductionHypothesis,
        Option.map_some]
      rw [byteLength]
      omega

/-- A text is a core with blank characters around it, which neither begins nor ends with one. The
blank characters of a text without a core all come before it. -/
structure Trims (leading core trailing text : List Char) : Prop where
  cut : text = leading ++ core ++ trailing
  before : ∀ character ∈ leading, isBlank character
  after : ∀ character ∈ trailing, isBlank character
  first : ∀ character ∈ core.head?, isBlank character = false
  last : ∀ character ∈ core.getLast?, isBlank character = false
  empty : core = [] → trailing = []

/-- The blank characters that are removed from the end of a text. -/
def trailing (text : List Char) : List Char :=
  ((trimStart text).reverse.takeWhile isBlank).reverse

theorem trim_append_trailing (text : List Char) : trim text ++ trailing text = trimStart text := by
  rw [trim, trimEnd, trailing, ← List.reverse_append, List.takeWhile_append_dropWhile,
    List.reverse_reverse]

theorem isBlank_head_dropWhile {text : List Char} {character : Char}
    (head : character ∈ (text.dropWhile isBlank).head?) : isBlank character = false := by
  rw [← List.find?_not_eq_head?_dropWhile] at head
  simpa using List.find?_some head

theorem isBlank_of_mem_trailing {text : List Char} {character : Char}
    (inside : character ∈ trailing text) : isBlank character :=
  List.mem_takeWhile_imp (List.mem_reverse.mp inside)

theorem trims (text : List Char) :
    Trims (text.takeWhile isBlank) (trim text) (trailing text) text where
  cut := by
    rw [List.append_assoc, trim_append_trailing, trimStart, List.takeWhile_append_dropWhile]
  before _ inside := List.mem_takeWhile_imp inside
  after _ inside := isBlank_of_mem_trailing inside
  first character head := by
    have start : character ∈ (trimStart text).head? := by
      rw [← trim_append_trailing, List.head?_append, head, Option.some_or]
      rfl
    exact isBlank_head_dropWhile start
  last character final := by
    rw [trim, trimEnd, List.getLast?_reverse] at final
    exact isBlank_head_dropWhile final
  empty none := by
    have whole := trim_append_trailing text
    rw [none, List.nil_append] at whole
    cases found : trailing text with
    | nil => rfl
    | cons character rest =>
        have blank : isBlank character := isBlank_of_mem_trailing (found ▸ List.mem_cons_self)
        have head : character ∈ (trimStart text).head? := by
          rw [← whole, found]
          rfl
        rw [isBlank_head_dropWhile head] at blank
        cases blank

/-- Nothing is left of a text exactly if it has nothing but blank characters. -/
theorem trim_eq_nil {text : List Char} :
    trim text = [] ↔ ∀ character ∈ text, isBlank character := by
  constructor
  · intro none
    have trims := trims text
    have whole := trims.cut
    rw [none, trims.empty none, List.append_nil, List.append_nil] at whole
    rw [whole]
    exact trims.before
  · intro blank
    have padded : Padded [] text := ⟨text, [], by simp, blank, nofun⟩
    exact padded.trim_eq nofun

/-- The characters that are removed from the start of a text are counted by what is left. -/
theorem length_takeWhile_isBlank (text : List Char) :
    (text.takeWhile isBlank).length = text.length - (trimStart text).length := by
  have whole : (text.takeWhile isBlank ++ text.dropWhile isBlank).length = text.length := by
    rw [List.takeWhile_append_dropWhile]
  rw [List.length_append] at whole
  rw [trimStart]
  omega

end Text

namespace Span

theorem cut_eq {source : Source} {before inside after : List Char}
    (text : source.text.toList = before ++ inside ++ after) :
    cut source before.length inside.length = ⟨source.path, before, inside, after⟩ := by
  simp [cut, text]

theorem source_toList (span : Span) :
    span.source.text.toList = span.before ++ span.inside ++ span.after :=
  String.toList_ofList

/-- The ends of a span are ends of characters, so a span is found again by its place in bytes. -/
theorem ofBytes?_start_length (span : Span) :
    ofBytes? span.source span.start span.length = some span := by
  have before : Text.upTo? span.source.text.toList span.start = some span.before := by
    rw [source_toList, List.append_assoc]
    exact Text.upTo?_byteLength span.before (span.inside ++ span.after)
  have inside : Text.upTo? (span.source.text.toList.drop span.before.length) span.length =
      some span.inside := by
    rw [source_toList, List.append_assoc, List.drop_left]
    exact Text.upTo?_byteLength span.inside span.after
  simp only [ofBytes?, before, inside, Option.bind_eq_bind, Option.bind_some,
    cut_eq span.source_toList]
  rfl

theorem stop_le (span : Span) : span.stop ≤ Text.byteLength span.source.text.toList := by
  rw [source_toList, Text.byteLength_append, Text.byteLength_append]
  exact Nat.le_add_right _ _

theorem position?_start (span : Span) :
    span.source.position? span.start = some span.position := by
  rw [Source.position?, source_toList, List.append_assoc, start, Text.upTo?_byteLength]
  rfl

end Span

namespace Numeral

theorem readFrom_ne_empty (negative : Bool) (value : Int) (digits : List Char) :
    readFrom negative value digits ≠ .error .empty := by
  fun_induction readFrom negative value digits with
  | case3 value character rest digit _ _ inductionHypothesis => exact inductionHypothesis
  | case1 | case2 | case4 => nofun

theorem readDigits_ne_empty (negative : Bool) (digits : List Char) :
    readDigits negative digits ≠ .error .empty := by
  unfold readDigits
  split
  · nofun
  · exact readFrom_ne_empty negative 0 digits

/-- Only a text without characters is found empty. -/
theorem read_eq_empty {text : List Char} : read text = .error .empty ↔ text = [] := by
  constructor
  · intro isRead
    unfold read at isRead
    split at isRead
    next => rfl
    all_goals exact absurd isRead (readDigits_ne_empty _ _)
  · rintro rfl
    rfl

end Numeral

namespace Program

open Text (isBlank)

/-- The text of pieces, each with a comma behind it. -/
def pieceText (pieces : List (List Char)) : List Char :=
  pieces.flatMap (· ++ [','])

/-- A header comes before the body of a text. -/
theorem header_append_drop (text : List Char) :
    header text ++ text.drop (header text).length = text := by
  have whole := Text.splitAfter_flatten (· == '\n') text
  rw [← List.takeWhile_append_dropWhile (p := isHeaderLine)
    (l := Text.splitAfter (· == '\n') text), List.flatten_append] at whole
  exact List.prefix_iff_eq_append.mp ⟨_, whole⟩

theorem Headed.text_eq {text body : List Char} (headed : Headed text body) :
    text = header text ++ body := by
  rw [← headed.drop_header, header_append_drop]

/-- A piece comes behind the pieces before it and their commas. -/
theorem Separated.text_eq {body piece : List Char} {before after : List (List Char)}
    (separated : Separated body (before ++ piece :: after)) :
    ∃ rest, body = pieceText before ++ piece ++ rest := by
  induction before generalizing body with
  | nil =>
      cases separated with
      | last => exact ⟨[], by simp [pieceText]⟩
      | @piece _ rest => exact ⟨',' :: rest, by simp [pieceText]⟩
  | cons first before inductionHypothesis =>
      rw [List.cons_append] at separated
      generalize later : before ++ piece :: after = pieces at separated
      cases separated with
      | last => simp at later
      | piece _ separated =>
          obtain ⟨rest, rfl⟩ := inductionHypothesis (later ▸ separated)
          exact ⟨rest, by simp [pieceText]⟩

/-- The first piece of a body that spells no cell, and the pieces before it. -/
structure FirstBad (body : List Char) (before : List (List Char)) (piece : List Char) : Prop where
  cut : ∃ after, Separated body (before ++ piece :: after)
  spelled : ∀ earlier ∈ before, ∃ cell, Spells earlier cell
  unspelled : ¬ ∃ cell, Spells piece cell

/-- The problem of the first piece that spells no cell is the problem of all. -/
theorem parseCells_eq_error {source : Source} {skipped : Nat} {pieces : List (List Char)}
    {error : ParseError} (failed : parseCells source skipped pieces = .error error) :
    ∃ before piece after, pieces = before ++ piece :: after ∧
      (∀ earlier ∈ before, ∃ cell, Spells earlier cell) ∧
      parseCell source (skipped + (pieceText before).length) piece = .error error := by
  induction pieces generalizing skipped with
  | nil => cases failed
  | cons piece pieces inductionHypothesis =>
      rw [parseCells] at failed
      rcases bind_eq_error.mp failed with here | ⟨cell, spelled, later⟩
      · exact ⟨[], piece, pieces, rfl, by simp, here⟩
      rcases bind_eq_error.mp later with later | ⟨cells, _, collected⟩
      · obtain ⟨before, bad, after, rfl, good, here⟩ := inductionHypothesis later
        refine ⟨piece :: before, bad, after, rfl, ?_, ?_⟩
        · exact List.forall_mem_cons.mpr ⟨⟨cell, parseCell_eq_ok.mp spelled⟩, good⟩
        · have length : (pieceText (piece :: before)).length =
              piece.length + 1 + (pieceText before).length := by
            simp [pieceText]
            omega
          rw [length, ← Nat.add_assoc, ← Nat.add_assoc]
          exact here
      · cases collected

/-- A piece in a text is blank characters, its core, and blank characters. -/
theorem cut_core {text front piece rest : List Char} (cut : text = front ++ piece ++ rest) :
    text =
      (front ++ piece.takeWhile isBlank) ++ Text.trim piece ++ (Text.trailing piece ++ rest) := by
  rw [cut]
  nth_rewrite 1 [(Text.trims piece).cut]
  simp only [List.append_assoc]

/-- A piece is read as its core is, and a problem is the problem of the core. -/
theorem parseCell_eq {source : Source} {front piece rest : List Char}
    (text : source.text.toList = front ++ piece ++ rest) :
    parseCell source front.length piece =
      (Numeral.read (Text.trim piece)).mapError fun problem =>
        { problem := .badCell problem
          span :=
            { path := source.path
              before := front ++ piece.takeWhile isBlank
              inside := Text.trim piece
              after := Text.trailing piece ++ rest } } := by
  unfold parseCell
  dsimp only
  rw [← Text.length_takeWhile_isBlank, ← List.length_append, Span.cut_eq (cut_core text)]
  cases Numeral.read (Text.trim piece) <;> rfl

/-- A piece that spells no cell is reported with its core. -/
theorem parseCell_eq_error {source : Source} {front piece rest : List Char} {error : ParseError}
    (text : source.text.toList = front ++ piece ++ rest)
    (failed : parseCell source front.length piece = .error error) :
    (¬ ∃ cell, Spells piece cell) ∧
    ∃ problem, Numeral.read (Text.trim piece) = .error problem ∧
      error =
        { problem := .badCell problem
          span :=
            { path := source.path
              before := front ++ piece.takeWhile isBlank
              inside := Text.trim piece
              after := Text.trailing piece ++ rest } } := by
  constructor
  · rintro ⟨cell, spells⟩
    rw [parseCell_eq_ok.mpr spells] at failed
    cases failed
  rw [parseCell_eq text] at failed
  cases isRead : Numeral.read (Text.trim piece) with
  | ok cell =>
      rw [isRead] at failed
      cases failed
  | error problem =>
      rw [isRead] at failed
      cases failed
      exact ⟨problem, rfl, rfl⟩

namespace ParseError

/-- An error is reported with a reason and one note, which is about its span. -/
def Reports (error : ParseError) (reason : String) (hint : Option String) : Prop :=
  error.diagnostic = { reason := reason, notes := [{ span := error.span, hint := hint }] }

/-- An error says that a cell is no integer. -/
def ReportsForm (error : ParseError) (cell : String) : Prop :=
  error.Reports ("Expected an integer, found '" ++ cell ++ "'") none

/-- An error says that a cell is an integer that does not fit, and which ones do. -/
def ReportsRange (error : ParseError) (cell : String) : Prop :=
  error.Reports ("The integer '" ++ cell ++ "' does not fit in 64 bits")
    (some "cells range from -9223372036854775808 to 9223372036854775807")

section Texts

variable {error : ParseError}

theorem reports_reason_hint (error : ParseError) : error.Reports error.reason error.hint :=
  rfl

theorem reportsForm_of_problem (problem : error.problem = .badCell .invalidDigit) :
    error.ReportsForm error.span.contents := by
  have reported := error.reports_reason_hint
  rwa [reason, hint, problem] at reported

theorem reportsRange_of_problem (problem : error.problem = .badCell .outOfRange) :
    error.ReportsRange error.span.contents := by
  have bounds :
      "cells range from " ++ Cell.render Int64.minValue ++ " to " ++ Cell.render Int64.maxValue =
        "cells range from -9223372036854775808 to 9223372036854775807" := by
    decide +kernel
  have reported := error.reports_reason_hint
  simp only [reason, hint, problem, bounds] at reported
  exact reported

end Texts

end ParseError

/-- A text whose body has nothing but blank characters is reported where its header ends. -/
theorem parse_eq_error_of_blank {source : Source} {body : List Char} {error : ParseError}
    (headed : Headed source.text.toList body)
    (blank : ∀ character ∈ body, isBlank character) (failed : parse source = .error error) :
    error =
      { problem := .blankBody
        span := ⟨source.path, header source.text.toList, [], body⟩ } := by
  have whole : source.text.toList = header source.text.toList ++ [] ++ body := by
    rw [List.append_nil]
    exact headed.text_eq
  have place := Span.cut_eq whole
  unfold parse at failed
  dsimp only at failed
  rw [headed.drop_header, if_pos (List.all_eq_true.mpr blank), ← List.length_nil, place] at failed
  cases failed
  rfl

/-- Any other text is reported where the first piece of its body that spells no cell has its
core. -/
theorem parse_eq_error_of_not_blank {source : Source} {body : List Char} {error : ParseError}
    (headed : Headed source.text.toList body)
    (notBlank : ¬ ∀ character ∈ body, isBlank character) (failed : parse source = .error error) :
    ∃ before piece, FirstBad body before piece ∧
      ∃ problem rest, Numeral.read (Text.trim piece) = .error problem ∧
        error =
          { problem := .badCell problem
            span :=
              { path := source.path
                before := header source.text.toList ++ pieceText before ++ piece.takeWhile isBlank
                inside := Text.trim piece
                after := rest } } := by
  unfold parse at failed
  dsimp only at failed
  rw [headed.drop_header, if_neg (by rwa [List.all_eq_true])] at failed
  obtain ⟨before, piece, after, pieces, spelled, here⟩ := parseCells_eq_error failed
  have separated : Separated body (before ++ piece :: after) := pieces ▸ separated_splitOn body
  obtain ⟨rest, cut⟩ := separated.text_eq
  have whole : source.text.toList =
      (header source.text.toList ++ pieceText before) ++ piece ++ rest := by
    rw [List.append_assoc, List.append_assoc, ← List.append_assoc (pieceText before), ← cut]
    exact headed.text_eq
  rw [← List.length_append] at here
  obtain ⟨unspelled, problem, isRead, error_eq⟩ := parseCell_eq_error whole here
  exact ⟨before, piece, ⟨⟨after, separated⟩, spelled, unspelled⟩, problem, _, isRead, error_eq⟩

/-- The contents of an error's span are the core of the first piece that spells no cell, and its
problem is why that core is no numeral, unless there is nothing in it. -/
theorem exists_firstBad {source : Source} {error : ParseError}
    (failed : parse source = .error error) :
    ∃ body before piece, Headed source.text.toList body ∧ FirstBad body before piece ∧
      error.span.inside = Text.trim piece ∧
      (Text.trim piece ≠ [] →
        ∃ problem, error.problem = .badCell problem ∧
          Numeral.read (Text.trim piece) = .error problem) := by
  obtain ⟨body, headed⟩ := exists_headed source.text.toList
  by_cases blank : ∀ character ∈ body, isBlank character
  · have bad : FirstBad body [] body :=
      ⟨⟨[], .last (Text.comma_not_mem blank)⟩, nofun, fun ⟨_, spells⟩ => spells.not_blank blank⟩
    have empty : Text.trim body = [] := Text.trim_eq_nil.mpr blank
    refine ⟨body, [], body, headed, bad, ?_, fun present => absurd empty present⟩
    rw [parse_eq_error_of_blank headed blank failed, empty]
  · obtain ⟨before, piece, bad, problem, rest, isRead, rfl⟩ :=
      parse_eq_error_of_not_blank headed blank failed
    exact ⟨body, before, piece, headed, bad, rfl, fun _ => ⟨problem, rfl, isRead⟩⟩

/-- An error is about a section of the text that was read. -/
theorem source_of_parse_eq_error {source : Source} {error : ParseError}
    (failed : parse source = .error error) : error.span.source = source := by
  unfold parse at failed
  dsimp only at failed
  split at failed
  next =>
    cases failed
    exact Span.source_cut source _ _
  next =>
    obtain ⟨before, piece, _, _, _, here⟩ := parseCells_eq_error failed
    unfold parseCell at here
    dsimp only at here
    split at here
    next => cases here
    next =>
      cases here
      exact Span.source_cut source _ _

end Program

end Intcode
