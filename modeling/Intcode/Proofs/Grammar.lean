/-
This file states the grammar of program text: header lines, then numerals of cells with
commas between them and blank characters around them. A text is loaded if and only if it
has this form.
-/

import Intcode.Program.Parse
import Intcode.Proofs.Decimal
import Intcode.Proofs.Evaluation
import Mathlib.Data.List.TakeWhile

namespace Intcode

namespace Text

/-- A text with blank characters before and after it, or on one side, or on none. -/
def Padded (core text : List Char) : Prop :=
  ∃ before after, text = before ++ core ++ after ∧ (∀ character ∈ before, isBlank character) ∧
    ∀ character ∈ after, isBlank character

/-- Nothing but blank characters is removed from the ends of a text. -/
theorem padded_trim (text : List Char) : Padded (trim text) text := by
  refine ⟨text.takeWhile isBlank, ((trimStart text).reverse.takeWhile isBlank).reverse, ?_, ?_, ?_⟩
  · rw [List.append_assoc, trim, trimEnd, ← List.reverse_append, List.takeWhile_append_dropWhile,
      List.reverse_reverse, trimStart, List.takeWhile_append_dropWhile]
  · intro character inside
    exact List.mem_takeWhile_imp inside
  · intro character inside
    exact List.mem_takeWhile_imp (List.mem_reverse.mp inside)

/-- Blank characters around a text without any are removed. -/
theorem Padded.trim_eq {core text : List Char} (padded : Padded core text)
    (inked : ∀ character ∈ core, isBlank character = false) : trim text = core := by
  obtain ⟨before, after, rfl, leading, trailing⟩ := padded
  rcases core with _ | ⟨first, core⟩
  · have blank : (before ++ [] ++ after).dropWhile isBlank = [] := by
      rw [List.append_nil, List.dropWhile_append_of_pos leading]
      exact List.dropWhile_eq_nil_iff.mpr trailing
    rw [trim, trimStart, blank]
    rfl
  · have start : trimStart (before ++ first :: core ++ after) = first :: core ++ after := by
      rw [trimStart, List.append_assoc, List.dropWhile_append_of_pos leading, List.cons_append,
        List.dropWhile_cons_of_neg (by simp [inked first List.mem_cons_self])]
    obtain ⟨last, rest, turned⟩ : ∃ last rest, (first :: core).reverse = last :: rest :=
      List.exists_cons_of_ne_nil (by simp)
    have ink : isBlank last = false := by
      apply inked
      rw [← List.mem_reverse, turned]
      exact List.mem_cons_self
    have finish : ((first :: core).reverse).dropWhile isBlank = (first :: core).reverse := by
      rw [turned, List.dropWhile_cons_of_neg (by simp [ink])]
    rw [trim, start, trimEnd, List.reverse_append,
      List.dropWhile_append_of_pos (by simpa using trailing), finish, List.reverse_reverse]

/-- A comma is not blank. -/
theorem comma_not_mem {text : List Char} (blank : ∀ character ∈ text, isBlank character) :
    ',' ∉ text := by
  intro inside
  exact absurd (blank ',' inside) (by decide)

end Text

namespace Program

open Text (Padded isBlank)

/-- A line that belongs to a header, without its line feed. -/
structure HeaderLine (line : List Char) : Prop where
  marked : ['-', '-'] <+: line
  unbroken : '\n' ∉ line

/-- A text begins with header lines, as many as there are, and this is what follows them. -/
inductive Headed : List Char → List Char → Prop where
  | body {text : List Char} (plain : ¬ ['-', '-'] <+: text) : Headed text text
  | line {line rest body : List Char} (header : HeaderLine line) (later : Headed rest body) :
      Headed (line ++ '\n' :: rest) body
  | last {line : List Char} (header : HeaderLine line) : Headed line []

/-- A text is cut at its commas into these pieces. -/
inductive Separated : List Char → List (List Char) → Prop where
  | last {piece : List Char} (unbroken : ',' ∉ piece) : Separated piece [piece]
  | piece {piece rest : List Char} {pieces : List (List Char)} (unbroken : ',' ∉ piece)
      (later : Separated rest pieces) : Separated (piece ++ ',' :: rest) (piece :: pieces)

/-- A piece is the numeral of a cell with blank characters around it. -/
def Spells (piece : List Char) (cell : Cell) : Prop :=
  ∃ numeral, Padded numeral piece ∧ Numeral.Denotes numeral cell.toInt

/-- A text is the numerals of these cells with commas between them. -/
def Lists (body : List Char) (cells : List Cell) : Prop :=
  ∃ pieces, Separated body pieces ∧ List.Forall₂ Spells pieces cells

section Header

theorem HeaderLine.isHeaderLine {line : List Char} (header : HeaderLine line) (rest : List Char) :
    isHeaderLine (line ++ rest) = true := by
  rw [Program.isHeaderLine, List.isPrefixOf_iff_prefix]
  exact header.marked.trans (List.prefix_append line rest)

theorem HeaderLine.inside {line : List Char} (header : HeaderLine line) :
    ∀ character ∈ line, (character == '\n') = false := by
  intro character inside
  rw [beq_eq_false_iff_ne]
  rintro rfl
  exact header.unbroken inside

/-- A header has no lines but those that are marked. -/
theorem header_eq_nil {text : List Char} (plain : ¬ ['-', '-'] <+: text) : header text = [] := by
  have whole := Text.splitAfter_flatten (· == '\n') text
  unfold header
  cases cut : Text.splitAfter (· == '\n') text with
  | nil => rfl
  | cons line lines =>
      rw [cut, List.flatten_cons] at whole
      have unmarked : isHeaderLine line = false := by
        rw [Bool.eq_false_iff, ne_eq, isHeaderLine, List.isPrefixOf_iff_prefix]
        intro marked
        exact plain (marked.trans (whole ▸ List.prefix_append line lines.flatten))
      rw [List.takeWhile_cons_of_neg (by simp [unmarked])]
      rfl

theorem Headed.drop_header {text body : List Char} (headed : Headed text body) :
    text.drop (header text).length = body := by
  induction headed with
  | body plain => rw [header_eq_nil plain, List.length_nil, List.drop_zero]
  | @line line rest body marked _ inductionHypothesis =>
      have first : header (line ++ '\n' :: rest) = (line ++ ['\n']) ++ header rest := by
        unfold header
        rw [Text.splitAfter_ended marked.inside rfl,
          List.takeWhile_cons_of_pos (marked.isHeaderLine ['\n']), List.flatten_cons]
      have cut : line ++ '\n' :: rest = (line ++ ['\n']) ++ rest := by simp
      rw [first, cut, List.length_append, List.drop_length_add_append, inductionHypothesis]
  | @last line marked =>
      have present : line ≠ [] := by
        rintro rfl
        exact absurd marked.marked (by decide)
      have whole : header line = line := by
        have first := marked.isHeaderLine []
        rw [List.append_nil] at first
        unfold header
        rw [Text.splitAfter_unended marked.inside present, List.takeWhile_cons_of_pos first]
        simp
      rw [whole, List.drop_length]

/-- A text that is marked has a header line, which a line feed or the text's end ends. -/
theorem headerLine_of_marked {text : List Char} (marked : ['-', '-'] <+: text) :
    HeaderLine text ∨ ∃ line rest, text = line ++ '\n' :: rest ∧ HeaderLine line := by
  by_cases broken : '\n' ∈ text
  · obtain ⟨line, rest, rfl, unbroken⟩ := List.eq_append_cons_of_mem broken
    refine .inr ⟨line, rest, rfl, ?_, unbroken⟩
    -- The line feed is neither of the two hyphens.
    rcases line with _ | ⟨first, _ | ⟨second, line⟩⟩
    · simp at marked
    · simp at marked
    · simpa [List.cons_prefix_cons] using marked
  · exact .inl ⟨marked, broken⟩

/-- Every text has a body. -/
theorem exists_headed (text : List Char) : ∃ body, Headed text body := by
  by_cases marked : ['-', '-'] <+: text
  · rcases headerLine_of_marked marked with header | ⟨line, rest, cut, header⟩
    · exact ⟨[], .last header⟩
    · have shorter : rest.length < text.length := by
        rw [cut, List.length_append, List.length_cons]
        omega
      obtain ⟨body, later⟩ := exists_headed rest
      rw [cut]
      exact ⟨body, .line header later⟩
  · exact ⟨text, .body marked⟩
termination_by text.length
decreasing_by exact shorter

end Header

section Pieces

variable {body : List Char} {pieces : List (List Char)}

theorem Separated.splitOn (separated : Separated body pieces) : body.splitOn ',' = pieces := by
  induction separated with
  | last unbroken => exact List.splitOn_eq_singleton unbroken
  | piece unbroken _ inductionHypothesis =>
      rw [List.splitOn_append_cons_self_of_not_mem unbroken, inductionHypothesis]

theorem exists_separated (body : List Char) : ∃ pieces, Separated body pieces := by
  induction body with
  | nil => exact ⟨[[]], .last List.not_mem_nil⟩
  | cons character body inductionHypothesis =>
      obtain ⟨pieces, separated⟩ := inductionHypothesis
      by_cases comma : character = ','
      · subst comma
        exact ⟨[] :: pieces, .piece List.not_mem_nil separated⟩
      -- The character belongs to the first piece behind it.
      have outside {piece : List Char} (unbroken : ',' ∉ piece) : ',' ∉ character :: piece := by
        simp [Ne.symm comma, unbroken]
      cases separated with
      | last unbroken => exact ⟨[character :: body], .last (outside unbroken)⟩
      | piece unbroken later => exact ⟨_, .piece (outside unbroken) later⟩

theorem separated_splitOn (body : List Char) : Separated body (body.splitOn ',') := by
  obtain ⟨pieces, separated⟩ := exists_separated body
  rwa [separated.splitOn]

/-- There is one piece more than there are commas. -/
theorem Separated.length_eq (separated : Separated body pieces) :
    pieces.length = body.count ',' + 1 := by
  induction separated with
  | last unbroken => rw [List.count_eq_zero.mpr unbroken, List.length_singleton]
  | piece unbroken _ inductionHypothesis =>
      simp [List.count_eq_zero.mpr unbroken, inductionHypothesis]

end Pieces

section Spelling

variable {piece : List Char} {cell : Cell}

/-- A piece is read as the cell that it spells. -/
theorem read_trim_eq_ok : Numeral.read (Text.trim piece) = .ok cell ↔ Spells piece cell := by
  constructor
  · intro isRead
    exact ⟨Text.trim piece, Text.padded_trim piece, Numeral.read_eq_ok.mp isRead⟩
  · rintro ⟨numeral, padded, denotes⟩
    rw [padded.trim_eq fun _ inside => denotes.isBlank inside]
    exact Numeral.read_eq_ok.mpr denotes

/-- A piece without anything but blank characters spells nothing. -/
theorem Spells.not_blank (spells : Spells piece cell) : ¬ ∀ character ∈ piece, isBlank character := by
  obtain ⟨numeral, ⟨before, after, rfl, _, _⟩, denotes⟩ := spells
  intro blank
  obtain ⟨character, inside⟩ := List.exists_mem_of_ne_nil numeral denotes.present
  have ink := denotes.isBlank inside
  rw [blank character (by simp [inside])] at ink
  cases ink

/-- A piece has no blank characters between others. -/
theorem Spells.blank_outside {left right : List Char} {blank : Char}
    (spells : Spells (left ++ blank :: right) cell) (isBlank : Text.isBlank blank) :
    (∀ character ∈ left, Text.isBlank character) ∨ ∀ character ∈ right, Text.isBlank character := by
  obtain ⟨numeral, ⟨before, after, cut, leading, trailing⟩, denotes⟩ := spells
  rw [List.append_assoc, List.append_eq_append_iff] at cut
  rcases cut with ⟨rest, rfl, _⟩ | ⟨rest, rfl, cut⟩
  · exact .inl fun character inside => leading character (List.mem_append_left _ inside)
  rw [List.append_eq_append_iff] at cut
  right
  rcases cut with ⟨later, _, rfl⟩ | ⟨later, rfl, cut⟩
  · intro character inside
    exact trailing character (List.mem_append_right later (List.mem_cons_of_mem blank inside))
  · rcases later with _ | ⟨first, later⟩
    · rw [List.nil_append] at cut
      intro character inside
      exact trailing character (cut ▸ List.mem_cons_of_mem blank inside)
    · cases cut
      have ink := denotes.isBlank (List.mem_append_right rest List.mem_cons_self)
      rw [isBlank] at ink
      cases ink

/-- Two characters that are not both hyphens. -/
def Apart (first second : Char) : Prop :=
  first = '-' → second ≠ '-'

theorem apart_of_not_mem {text : List Char} (free : '-' ∉ text) : text.IsChain Apart := by
  rw [List.isChain_iff_forall_rel_of_append_cons_cons]
  rintro first second left right rfl rfl
  simp at free

theorem apart_of_denotes {numeral : List Char} {value : Int}
    (denotes : Numeral.Denotes numeral value) : numeral.IsChain Apart := by
  have free {text : List Char} (digits : Numeral.Digits text) : '-' ∉ text := by
    intro inside
    exact absurd (digits.all '-' inside) (by decide)
  cases denotes with
  | plain digits => exact apart_of_not_mem (free digits)
  | plus digits => exact apart_of_not_mem (by simp [free digits])
  | minus digits =>
      refine (apart_of_not_mem (free digits)).cons ?_
      rintro second head - rfl
      exact free digits (List.mem_of_mem_head? head)

/-- No two hyphens stand side by side in a piece that spells a cell. -/
theorem Spells.apart (spells : Spells piece cell) : piece.IsChain Apart := by
  obtain ⟨numeral, ⟨before, after, rfl, leading, trailing⟩, denotes⟩ := spells
  have free {text : List Char} (blank : ∀ character ∈ text, isBlank character) : '-' ∉ text := by
    intro inside
    exact absurd (blank '-' inside) (by decide)
  have start : (before ++ numeral).IsChain Apart := by
    refine (apart_of_not_mem (free leading)).append (apart_of_denotes denotes) ?_
    rintro first last second head rfl
    exact absurd (List.mem_of_mem_getLast? last) (free leading)
  refine start.append (apart_of_not_mem (free trailing)) ?_
  rintro first last second head - rfl
  exact free trailing (List.mem_of_mem_head? head)

end Spelling

section Listing

variable {body : List Char} {cells : List Cell}

theorem Lists.length_eq (lists : Lists body cells) : cells.length = body.count ',' + 1 := by
  obtain ⟨pieces, separated, spelled⟩ := lists
  rw [← spelled.length_eq, separated.length_eq]

/-- No two hyphens stand side by side in a text that lists cells. -/
theorem Lists.apart (lists : Lists body cells) : body.IsChain Apart := by
  obtain ⟨pieces, separated, spelled⟩ := lists
  induction separated generalizing cells with
  | last =>
      obtain ⟨cell, _, spells, _, _⟩ := List.forall₂_cons_left_iff.mp spelled
      exact spells.apart
  | piece _ _ inductionHypothesis =>
      obtain ⟨cell, cells, spells, later, _⟩ := List.forall₂_cons_left_iff.mp spelled
      refine spells.apart.append ((inductionHypothesis later).cons ?_) ?_
      · rintro second head ⟨⟩
      · rintro first last second head - rfl
        cases head

/-- Every piece of a text that lists cells spells one of them. -/
theorem Lists.spells {pieces : List (List Char)} {piece : List Char} (lists : Lists body cells)
    (separated : Separated body pieces) (inside : piece ∈ pieces) : ∃ cell, Spells piece cell := by
  obtain ⟨others, again, spelled⟩ := lists
  obtain rfl : others = pieces := again.splitOn.symm.trans separated.splitOn
  clear again separated
  induction spelled with
  | nil => cases inside
  | @cons first cell _ _ spells _ inductionHypothesis =>
      rcases List.mem_cons.mp inside with rfl | inside
      · exact ⟨cell, spells⟩
      · exact inductionHypothesis inside

/-- A text that lists cells is not blank. -/
theorem Lists.not_blank (lists : Lists body cells) : ¬ ∀ character ∈ body, isBlank character := by
  intro blank
  obtain ⟨cell, spells⟩ := lists.spells (.last (Text.comma_not_mem blank)) List.mem_cons_self
  exact spells.not_blank blank

/-- Some ways in which a body does not list cells: it is blank, or a piece of it is, or the one
behind a final comma, or a piece has blank characters between others, or a line that is marked comes
after one that is not. -/
inductive Malformed (body : List Char) : Prop where
  | blankBody (blank : ∀ character ∈ body, isBlank character)
  | blankPiece {pieces : List (List Char)} {piece : List Char} (separated : Separated body pieces)
      (inside : piece ∈ pieces) (blank : ∀ character ∈ piece, isBlank character)
  | finalComma {before blanks : List Char} (cut : body = before ++ ',' :: blanks)
      (blank : ∀ character ∈ blanks, isBlank character)
  | brokenPiece {pieces : List (List Char)} {left right : List Char} {character : Char}
      (separated : Separated body pieces) (inside : left ++ character :: right ∈ pieces)
      (blank : isBlank character) (before : ∃ other ∈ left, isBlank other = false)
      (after : ∃ other ∈ right, isBlank other = false)
  | lateHeader {before rest : List Char} (cut : body = before ++ '\n' :: '-' :: '-' :: rest)

theorem Lists.not_malformed (lists : Lists body cells) : ¬ Malformed body := by
  intro malformed
  cases malformed with
  | blankBody blank => exact lists.not_blank blank
  | blankPiece separated inside blank =>
      obtain ⟨cell, spells⟩ := lists.spells separated inside
      exact spells.not_blank blank
  | @finalComma before blanks cut blank =>
      have pieces : body.splitOn ',' = before.splitOn ',' ++ [blanks] := by
        rw [cut, List.splitOn_append_cons_self, List.splitOn_eq_singleton (Text.comma_not_mem blank)]
      have inside : blanks ∈ body.splitOn ',' := by simp [pieces]
      obtain ⟨cell, spells⟩ := lists.spells (separated_splitOn body) inside
      exact spells.not_blank blank
  | brokenPiece separated inside blank before after =>
      obtain ⟨cell, spells⟩ := lists.spells separated inside
      obtain ⟨first, early, inked⟩ := before
      obtain ⟨last, late, written⟩ := after
      rcases spells.blank_outside blank with leading | trailing
      · cases inked.symm.trans (leading first early)
      · cases written.symm.trans (trailing last late)
  | @lateHeader before rest cut =>
      have apart := lists.apart
      have split : body = (before ++ ['\n']) ++ '-' :: '-' :: rest := by simp [cut]
      rw [split, List.isChain_append_cons_cons] at apart
      exact apart.2.1 rfl rfl

end Listing

section Parsing

theorem parseCell_eq_ok {source : Source} {skipped : Nat} {piece : List Char} {cell : Cell} :
    parseCell source skipped piece = .ok cell ↔ Spells piece cell := by
  rw [← read_trim_eq_ok]
  unfold parseCell
  dsimp only
  cases Numeral.read (Text.trim piece) <;> simp

/-- Pieces are read one by one, and all of them have to spell a cell. -/
theorem parseCells_eq_ok {source : Source} {skipped : Nat} {pieces : List (List Char)}
    {cells : List Cell} :
    parseCells source skipped pieces = .ok cells ↔ List.Forall₂ Spells pieces cells := by
  induction pieces generalizing skipped cells with
  | nil =>
      rw [parseCells, Except.ok.injEq, List.forall₂_nil_left_iff, eq_comm]
  | cons piece pieces inductionHypothesis =>
      rw [parseCells, List.forall₂_cons_left_iff]
      constructor
      · intro parsed
        obtain ⟨cell, first, parsed⟩ := bind_eq_ok.mp parsed
        obtain ⟨rest, later, collected⟩ := bind_eq_ok.mp parsed
        cases collected
        exact ⟨cell, rest, parseCell_eq_ok.mp first, inductionHypothesis.mp later, rfl⟩
      · rintro ⟨cell, rest, first, later, rfl⟩
        rw [parseCell_eq_ok.mpr first, ok_bind, inductionHypothesis.mpr later]
        rfl

/-- A text is loaded if its body lists cells. -/
theorem parse_eq_ok {source : Source} {body : List Char} (headed : Headed source.text.toList body)
    {cells : List Cell} : parse source = .ok cells ↔ Lists body cells := by
  unfold parse
  dsimp only
  rw [headed.drop_header]
  split
  next blank =>
    rw [List.all_eq_true] at blank
    exact ⟨nofun, fun lists => absurd blank lists.not_blank⟩
  next =>
    rw [parseCells_eq_ok]
    constructor
    · intro spelled
      exact ⟨body.splitOn ',', separated_splitOn body, spelled⟩
    · rintro ⟨pieces, separated, spelled⟩
      rwa [separated.splitOn]

end Parsing

/-- A text is loaded if and only if its body, which is what follows its header lines, is the
numerals of cells with commas between them and blank characters around them. There is one cell more
than there are commas, and nothing malformed is loaded. -/
theorem parse_accepts_grammar (source : Source) :
    (∃ body, Headed source.text.toList body) ∧
    ∀ body, Headed source.text.toList body →
      (∀ cells, parse source = .ok cells ↔ Lists body cells) ∧
      (∀ cells, parse source = .ok cells → cells.length = body.count ',' + 1) ∧
      (Malformed body → ∀ cells, parse source ≠ .ok cells) := by
  refine ⟨exists_headed source.text.toList, ?_⟩
  intro body headed
  refine ⟨fun cells => parse_eq_ok headed, ?_, ?_⟩
  · intro cells parsed
    exact ((parse_eq_ok headed).mp parsed).length_eq
  · intro malformed cells parsed
    exact ((parse_eq_ok headed).mp parsed).not_malformed malformed

/-- A text with a header and two numerals is loaded, but not if another marked line follows. -/
theorem headed_numerals_accepted :
    parse (.unnamed "--x\n+1, -02\n") = .ok [1, -2] ∧
    ∀ cells, parse (.unnamed "--x\n+1, -02\n--y\n") ≠ .ok cells := by
  have header : HeaderLine ['-', '-', 'x'] := ⟨by decide, by decide⟩
  constructor
  · have headed : Headed (Source.unnamed "--x\n+1, -02\n").text.toList "+1, -02\n".toList :=
      .line header (.body (by decide))
    have first : Spells ['+', '1'] 1 :=
      ⟨['+', '1'], ⟨[], [], rfl, nofun, nofun⟩, .plus ⟨by decide, List.all_eq_true.mp rfl⟩⟩
    have second : Spells [' ', '-', '0', '2', '\n'] (-2) := by
      refine ⟨['-', '0', '2'], ⟨[' '], ['\n'], rfl, ?_, ?_⟩, .minus ⟨by decide, ?_⟩⟩
      all_goals exact List.all_eq_true.mp rfl
    have separated : Separated "+1, -02\n".toList [['+', '1'], [' ', '-', '0', '2', '\n']] := by
      change Separated (['+', '1'] ++ ',' :: [' ', '-', '0', '2', '\n']) _
      exact .piece (by decide) (.last (by decide))
    exact (((parse_accepts_grammar _).2 _ headed).1 _).mpr
      ⟨_, separated, .cons first (.cons second .nil)⟩
  · have headed : Headed (Source.unnamed "--x\n+1, -02\n--y\n").text.toList
        "+1, -02\n--y\n".toList :=
      .line header (.body (by decide))
    have late : "+1, -02\n--y\n".toList = "+1, -02".toList ++ '\n' :: '-' :: '-' :: ['y', '\n'] := by
      decide
    exact ((parse_accepts_grammar _).2 _ headed).2.2 (.lateHeader late)

end Program

end Intcode
