/-
This file shows that the manifest of a new package is read as it was written, whatever
the name of the package is.
-/

import Intcode.Manifest.Parse
import Intcode.Proofs.Quotation

namespace Intcode

namespace Toml

section Returns

theorem upperHex_ne_return : ∀ value < 16, upperHex value ≠ '\r' := by
  decide

theorem return_not_mem_escape (character : Char) : '\r' ∉ escape character := by
  unfold escape
  split
  case h_8 notReturn _ _ =>
    split
    next control =>
      have bound := toNat_of_isControl control
      have high := upperHex_ne_return (character.toNat / 16) (by omega)
      have low := upperHex_ne_return (character.toNat % 16) (by omega)
      simp [high.symm, low.symm]
    next => simpa using Ne.symm notReturn
  all_goals decide

/-- A written string has no carriage return in it. -/
theorem return_not_mem_writeQuoted (text : List Char) : '\r' ∉ writeQuoted text := by
  have escaped : '\r' ∉ text.flatMap escape := by
    simp [return_not_mem_escape]
  have kept (plain : isPlain text = true) : '\r' ∉ text := by
    intro inside
    rcases (content_of_isPlain plain).1 _ inside with content | line
    · exact absurd content (by decide)
    · exact absurd line (by decide)
  unfold writeQuoted
  dsimp only
  split
  next plain =>
    have free := kept plain
    split
    · simp [free]
    · split <;> simp [free]
  next => split <;> simpa using escaped

/-- A written string begins with its mark. -/
theorem exists_writeQuoted_eq_cons (text : List Char) :
    ∃ (quote : Quote) (rest : List Char), writeQuoted text = quote.mark :: rest := by
  unfold writeQuoted
  dsimp only
  split
  · split
    · exact ⟨.literal, _, rfl⟩
    · split
      · exact ⟨.literal, _, rfl⟩
      · exact ⟨.literal, _, rfl⟩
  · split
    · exact ⟨.basic, _, rfl⟩
    · exact ⟨.basic, _, rfl⟩

end Returns

namespace Token

theorem foldLineEnds_eq_self {text : List Char} (free : '\r' ∉ text) :
    foldLineEnds text = text := by
  fun_induction foldLineEnds text with
  | case1 => rfl
  | case2 => simp at free
  | case3 character rest _ inductionHypothesis =>
      rw [inductionHypothesis fun inside => free (List.mem_cons_of_mem _ inside)]

theorem all_of_next {input rest : List Char} {token : Token}
    (first : next input = some (token, rest)) : all input = (all rest).map (token :: ·) := by
  have present : input.isEmpty = false := by
    cases input with
    | nil => cases first
    | cons => rfl
  rw [all, present, if_neg (by decide)]
  split
  next none => cases none.symm.trans first
  next other more found =>
    cases found.symm.trans first
    rfl

/-- The first tokens of a text, as many as are asked for, and what follows them. -/
def several : Nat → List Char → Option (List Token × List Char)
  | 0, text => some ([], text)
  | count + 1, text => do
      let (token, rest) ← next text
      let (tokens, rest) ← several count rest
      return (token :: tokens, rest)

theorem all_of_several {count : Nat} {text rest : List Char} {tokens : List Token}
    (first : several count text = some (tokens, rest)) :
    all text = (all rest).map (tokens ++ ·) := by
  induction count generalizing text tokens with
  | zero =>
      cases first
      simp
  | succ count inductionHypothesis =>
      simp only [several, Option.bind_eq_bind, Option.bind_eq_some_iff, Option.pure_def,
        Option.some.injEq, Prod.mk.injEq] at first
      obtain ⟨⟨token, middle⟩, here, ⟨more, left⟩, later, rfl, rfl⟩ := first
      rw [all_of_next here, inductionHypothesis later, Option.map_map]
      rfl

/-- The tokens of a header of one key. -/
def heading (key : String) : List Token :=
  [.leftBracket, .bare key, .rightBracket, .newline]

/-- The tokens of a key and its value, which take a line. -/
def line (key : String) (item : List Token) : List Token :=
  [.bare key, .blanks true, .equals, .blanks true] ++ item ++ [.newline]

end Token

namespace Reader

open Token (heading line)

/-- The tokens are those of a value, which is read up to the end of its line. -/
def Denotes (tokens : List Token) (item : Value) : Prop :=
  ∀ entries key rest,
    (entry entries).run (line key tokens ++ rest) = some (entries ++ [(key, item)], rest)

theorem denotes_quoted (text : String) (multiline : Bool) :
    Denotes [.quoted text multiline] (.string text) :=
  fun _ _ _ => rfl

theorem denotes_empty : Denotes [.leftBracket, .rightBracket] (.array []) :=
  fun _ _ _ => rfl

theorem denotes_false : Denotes [.bare "false"] (.boolean false) :=
  fun _ _ _ => rfl

theorem document_run (tokens : List Token) :
    document.run tokens = (tables (tokens.length + 1) ⟨[], false, []⟩).run tokens :=
  rfl

section Tables

variable (bound : Nat) (table : Table) (key : String) (rest : List Token)

theorem tables_end : (tables (bound + 1) table).run [] = some ([table], []) :=
  rfl

theorem tables_newline :
    (tables (bound + 1) table).run (.newline :: rest) = (tables (bound + 1) table).run rest :=
  rfl

theorem tables_heading :
    (tables (bound + 1) table).run (heading key ++ rest) =
      ((tables bound ⟨[key], false, []⟩).run rest).map fun (document, left) =>
        (table :: document, left) := by
  change ((tables bound ⟨[key], false, []⟩).run rest).bind _ = _
  cases (tables bound ⟨[key], false, []⟩).run rest <;> rfl

theorem tables_line {tokens : List Token} {item : Value} (denotes : Denotes tokens item) :
    (tables (bound + 1) table).run (line key tokens ++ rest) =
      (tables bound { table with entries := table.entries ++ [(key, item)] }).run rest := by
  change ((entry table.entries).run (line key tokens ++ rest)).bind _ = _
  rw [denotes table.entries key rest]
  rfl

end Tables

end Reader

end Toml

namespace Manifest

open Toml Token

/-- The document of a new package's manifest. -/
def freshDocument (name : String) : Document :=
  [⟨[], false, []⟩,
    ⟨["package"], false,
      [("name", .string name), ("version", .string "0.0.0"), ("authors", .array [])]⟩,
    ⟨["run"], false,
      [("entrypoint", .string "main.ic"), ("input", .array []), ("dump", .boolean false)]⟩]

/-- The tokens that follow the name of the package. -/
def laterTokens : List Token :=
  line "version" [.quoted "0.0.0" false] ++ (line "authors" [.leftBracket, .rightBracket] ++
    (.newline :: (heading "run" ++ (line "entrypoint" [.quoted "main.ic" false] ++
      (line "input" [.leftBracket, .rightBracket] ++ line "dump" [.bare "false"])))))

/-- The tokens give the document, header by header and line by line. -/
theorem run_freshTokens (name : String) (multiline : Bool) :
    Reader.document.run
        (heading "package" ++ (line "name" [.quoted name multiline] ++ laterTokens)) =
      some (freshDocument name, []) := by
  have length :
      (heading "package" ++ (line "name" [.quoted name multiline] ++ laterTokens)).length = 47 :=
    rfl
  rw [Reader.document_run, length, Reader.tables_heading,
    Reader.tables_line _ _ _ _ (Reader.denotes_quoted name multiline)]
  unfold laterTokens
  rw [Reader.tables_line _ _ _ _ (Reader.denotes_quoted "0.0.0" false),
    Reader.tables_line _ _ _ _ Reader.denotes_empty, Reader.tables_newline, Reader.tables_heading,
    Reader.tables_line _ _ _ _ (Reader.denotes_quoted "main.ic" false),
    Reader.tables_line _ _ _ _ Reader.denotes_empty,
    ← List.append_nil (line "dump" _), Reader.tables_line _ _ _ _ Reader.denotes_false,
    Reader.tables_end]
  rfl

/-- The text that follows the name of the package. -/
def laterText : List Char :=
  ("version = '0.0.0'\nauthors = []\n\n[run]\nentrypoint = 'main.ic'\ninput = []\n" ++
    "dump = false\n").toList

theorem writeTable_cons (name key value : String) (entries : List (String × String)) :
    writeTable name ((key, value) :: entries) =
      ("[" ++ name ++ "]\n" ++ key ++ " = ") ++ value ++ ("\n" ++ writeLines entries) := by
  simp only [writeTable, writeLines, List.map_cons, String.join_cons, String.append_assoc]

/-- The keys of a new package behind its name. -/
def laterEntries : List (String × String) :=
  [("version", writeString "0.0.0"), ("authors", writeArray [])]

/-- The text of a new package's manifest is fixed but for the name. -/
theorem freshText_eq (name : String) :
    freshText name =
      "[package]\nname = " ++ String.ofList (writeQuoted name.toList) ++
        "\nversion = '0.0.0'\nauthors = []\n\n[run]\nentrypoint = 'main.ic'\ninput = []\n" ++
        "dump = false\n" := by
  have front : "[" ++ "package" ++ "]\n" ++ "name" ++ " = " = "[package]\nname = " := by
    decide +kernel
  have back :
      "\n" ++ writeLines laterEntries ++ "\n" ++ writeTable "run" RunSettings.standard.entries =
      "\nversion = '0.0.0'\nauthors = []\n\n[run]\nentrypoint = 'main.ic'\ninput = []\n" ++
        "dump = false\n" := by
    decide +kernel
  calc freshText name
    _ = writeTable "package" (("name", writeString name) :: laterEntries) ++ "\n" ++
          writeTable "run" RunSettings.standard.entries := rfl
    _ = ("[" ++ "package" ++ "]\n" ++ "name" ++ " = ") ++ writeString name ++
          ("\n" ++ writeLines laterEntries ++ "\n" ++
            writeTable "run" RunSettings.standard.entries) := by
      simp only [writeTable_cons, String.append_assoc]
    _ = _ := by rw [front, back, ← String.append_assoc, writeString]

theorem toList_framed (first second third : String) (middle : List Char) :
    (first ++ String.ofList middle ++ second ++ third).toList =
      first.toList ++ (middle ++ (second.toList ++ third.toList)) := by
  simp

theorem freshText_toList (name : String) :
    (freshText name).toList =
      "[package]\nname = ".toList ++ (writeQuoted name.toList ++ '\n' :: laterText) := by
  have later :
      "\nversion = '0.0.0'\nauthors = []\n\n[run]\nentrypoint = 'main.ic'\ninput = []\n".toList ++
        "dump = false\n".toList = '\n' :: laterText := by
    decide +kernel
  -- The literals are kept out of the unifier's sight, which would compare them letter by letter.
  calc (freshText name).toList
    _ = _ := congrArg String.toList (freshText_eq name)
    _ = _ := toList_framed _ _ _ _
    _ = _ := congrArg (fun rest => "[package]\nname = ".toList ++ (writeQuoted name.toList ++ rest))
        later

theorem tokens_freshText (name : String) :
    ∃ multiline, Token.ofDocument (freshText name).toList =
      some (heading "package" ++ (line "name" [.quoted name multiline] ++ laterTokens)) := by
  obtain ⟨multiline, isToken⟩ := next_writeQuoted name.toList laterText
  obtain ⟨quote, rest, written⟩ := exists_writeQuoted_eq_cons name.toList
  have free : '\r' ∉ (freshText name).toList := by
    have outside := return_not_mem_writeQuoted name.toList
    have later : '\r' ∉ laterText := by decide
    rw [freshText_toList]
    simp [outside, later]
  -- The mark of the name is what ends the blanks before it.
  have before : several 8
      ("[package]\nname = ".toList ++ (writeQuoted name.toList ++ '\n' :: laterText)) =
      some (heading "package" ++ [.bare "name", .blanks true, .equals, .blanks true],
        writeQuoted name.toList ++ '\n' :: laterText) := by
    rw [written]
    cases quote <;> rfl
  have after : all ('\n' :: laterText) = some (.newline :: laterTokens) := by decide +kernel
  refine ⟨multiline, ?_⟩
  unfold ofDocument
  have noMark : ((freshText name).toList.head? == some '\ufeff') = false := by
    rw [freshText_toList]
    rfl
  rw [noMark, if_neg (by decide), foldLineEnds_eq_self free, freshText_toList,
    all_of_several before, all_of_next isToken, after, String.ofList_toList]
  rfl

/-- The manifest of a new package is read as it was written. -/
theorem parse_freshText (name : String) : parse (freshText name) = .ok (fresh name) := by
  obtain ⟨multiline, tokens⟩ := tokens_freshText name
  have document : Document.parse? (freshText name).toList = some (freshDocument name) := by
    simp only [Document.parse?, tokens, Option.bind_eq_bind, Option.bind_some, run_freshTokens]
    rfl
  have isManifest : ofDocument? (freshDocument name) = some (fresh name) := rfl
  have valid : Version.isValid "0.0.0".toList = true := by decide +kernel
  simp only [parse, document, Option.bind_some, isManifest]
  exact if_pos valid

/-- Whatever the name of a new package is, the text of its manifest has the name in one of the
written forms of a string, and is read as a manifest with that name and nothing but defaults. -/
theorem fresh_manifest_reads_back (name : String) :
    ∃ quoted, Written name.toList quoted ∧
      freshText name =
        "[package]\nname = " ++ String.ofList quoted ++
          "\nversion = '0.0.0'\nauthors = []\n\n[run]\nentrypoint = 'main.ic'\ninput = []\n" ++
          "dump = false\n" ∧
      parse (freshText name) =
        .ok
          { package :=
              { name := name
                version := "0.0.0"
                authors := []
                readme := none
                license := none
                repository := none }
            run := { entrypoint := "main.ic", input := [], dump := false } } :=
  ⟨writeQuoted name.toList, written_writeQuoted name.toList, freshText_eq name,
    parse_freshText name⟩

end Manifest

end Intcode
