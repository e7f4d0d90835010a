/-
This file reads and writes quoted strings. A string is literal or basic, and takes one line
or, between triple marks, several.
-/

namespace Intcode.Toml

/-- The two kinds of quotation. Only a basic string has escapes. -/
inductive Quote where
  | literal
  | basic
deriving DecidableEq

def Quote.mark : Quote → Char
  | literal => '\''
  | basic => '"'

/-- The characters that stand for themselves in a string. -/
def isContent (character : Char) : Bool :=
  character == '\t' || (0x20 ≤ character.toNat && character.toNat != 0x7f)

def hexDigit? (character : Char) : Option Nat :=
  if character.isDigit then some (character.toNat - '0'.toNat)
  else if 'a' ≤ character ∧ character ≤ 'f' then some (character.toNat - 'a'.toNat + 10)
  else if 'A' ≤ character ∧ character ≤ 'F' then some (character.toNat - 'A'.toNat + 10)
  else none

/-- The character with a code point, unless that is a surrogate or too large. -/
def scalar? (value : Nat) : Option Char :=
  if value.isValidChar then some (Char.ofNat value) else none

/-- How far the reading of an escape has come. -/
inductive Escape where
  | none
  /-- After a backslash. -/
  | begun
  /-- Before the last digits of a code point. -/
  | digits (remaining value : Nat)
  /-- In the blanks between a backslash and the end of its line. -/
  | lineEnd
  /-- In the blanks and line ends that such a backslash removes. -/
  | margin
deriving DecidableEq

/-- The character that a letter stands for after a backslash. -/
def escaped? : Char → Option Char
  | 'b' => some '\x08'
  | 't' => some '\t'
  | 'n' => some '\n'
  | 'f' => some '\x0c'
  | 'r' => some '\r'
  | '"' => some '"'
  | '\\' => some '\\'
  | _ => none

def isMargin (character : Char) : Bool :=
  character == ' ' || character == '\t' || character == '\n'

/-- What follows the marks that close a string of several lines, and the one or two marks
more that belong to the string, if the text starts with three marks. -/
def closing? (mark : Char) (text : List Char) : Option (List Char × List Char) :=
  let run := (text.takeWhile (· == mark)).length
  if 3 ≤ run then
    some (List.replicate (min 2 (run - 3)) mark, text.drop (3 + min 2 (run - 3)))
  else
    none

/-- Reads the rest of a string, and what follows its closing marks. -/
def contents (quote : Quote) (multiline : Bool) :
    Escape → List Char → Option (List Char × List Char)
  | _, [] => none
  | .begun, character :: rest =>
      match escaped? character with
      | some value => (contents quote multiline .none rest).map fun (text, left) => (value :: text, left)
      | none =>
          if character == 'u' then contents quote multiline (.digits 4 0) rest
          else if character == 'U' then contents quote multiline (.digits 8 0) rest
          else if multiline && character == '\n' then contents quote multiline .margin rest
          else if multiline && isMargin character then contents quote multiline .lineEnd rest
          else none
  | .digits remaining value, character :: rest =>
      match hexDigit? character with
      | none => none
      | some digit =>
          if 1 < remaining then
            contents quote multiline (.digits (remaining - 1) (16 * value + digit)) rest
          else
            match scalar? (16 * value + digit) with
            | some scalar =>
                (contents quote multiline .none rest).map fun (text, left) => (scalar :: text, left)
            | none => none
  | .lineEnd, character :: rest =>
      if character == '\n' then contents quote multiline .margin rest
      else if isMargin character then contents quote multiline .lineEnd rest
      else none
  | state, character :: rest =>
      if state == .margin && isMargin character then
        contents quote multiline .margin rest
      else if character == quote.mark then
        if multiline then
          match closing? quote.mark (character :: rest) with
          | some closed => some closed
          | none =>
              (contents quote multiline .none rest).map fun (text, left) => (character :: text, left)
        else
          some ([], rest)
      else if character == '\\' && quote == .basic then
        contents quote multiline .begun rest
      else if isContent character || (multiline && character == '\n') then
        (contents quote multiline .none rest).map fun (text, left) => (character :: text, left)
      else
        none

/-- A string, whether it was between triple marks, and what follows it. -/
structure QuotedString where
  text : List Char
  multiline : Bool
  rest : List Char

/-- Reads a string after its first mark. A line end right after triple marks does not count. -/
def readQuoted (quote : Quote) (input : List Char) : Option QuotedString :=
  match input with
  | first :: second :: rest =>
      if first == quote.mark && second == quote.mark then
        let body := if rest.head? == some '\n' then rest.drop 1 else rest
        (contents quote true .none body).map fun (text, left) => ⟨text, true, left⟩
      else if first == quote.mark then
        some ⟨[], false, second :: rest⟩
      else
        (contents quote false .none input).map fun (text, left) => ⟨text, false, left⟩
  | _ => (contents quote false .none input).map fun (text, left) => ⟨text, false, left⟩

theorem contents_length {quote : Quote} {multiline : Bool} {state : Escape}
    {input text left : List Char}
    (read : contents quote multiline state input = some (text, left)) :
    left.length ≤ input.length := by
  fun_induction contents quote multiline state input generalizing text left <;>
    grind [closing?, Option.map_eq_some_iff]

theorem readQuoted_length {quote : Quote} {input : List Char} {result : QuotedString}
    (read : readQuoted quote input = some result) : result.rest.length ≤ input.length := by
  unfold readQuoted at read
  split at read
  · split at read
    · obtain ⟨⟨text, left⟩, body, rfl⟩ := Option.map_eq_some_iff.mp read
      have := contents_length body
      split at this <;> simp at this ⊢ <;> omega
    · split at read
      · cases read
        simp
      · obtain ⟨⟨text, left⟩, body, rfl⟩ := Option.map_eq_some_iff.mp read
        exact contents_length body
  · obtain ⟨⟨text, left⟩, body, rfl⟩ := Option.map_eq_some_iff.mp read
    exact contents_length body

/-- The characters with code points below U+0020, and U+007F. -/
def isControl (character : Char) : Bool :=
  character.toNat < 0x20 || character.toNat == 0x7f

/-- Whether three apostrophes stand together somewhere. -/
def hasTripleApostrophe : List Char → Bool
  | [] => false
  | character :: rest =>
      ['\'', '\'', '\''].isPrefixOf (character :: rest) || hasTripleApostrophe rest

/-- A text that a literal string can hold, so that no escape is needed. -/
def isPlain (text : List Char) : Bool :=
  text.all (fun character => !isControl character || character == '\t' || character == '\n') &&
    !hasTripleApostrophe text && text.getLast? != some '\''

def upperHex (value : Nat) : Char :=
  if value < 10 then Char.ofNat ('0'.toNat + value) else Char.ofNat ('A'.toNat + (value - 10))

/-- How a character is written in a basic string. Line ends are kept. -/
def escape (character : Char) : List Char :=
  match character with
  | '\x08' => ['\\', 'b']
  | '\t' => ['\\', 't']
  | '\n' => ['\n']
  | '\x0c' => ['\\', 'f']
  | '\r' => ['\\', 'r']
  | '"' => ['\\', '"']
  | '\\' => ['\\', '\\']
  | _ =>
      if isControl character then
        ['\\', 'u', '0', '0', upperHex (character.toNat / 16), upperHex (character.toNat % 16)]
      else
        [character]

/-- The written form of a string. It is literal where that is possible, and takes several lines
only if the string does, or holds an apostrophe. -/
def writeQuoted (text : List Char) : List Char :=
  let several := text.contains '\n'
  if isPlain text then
    if several then "'''\n".toList ++ text ++ "'''".toList
    else if text.contains '\'' then "'''".toList ++ text ++ "'''".toList
    else ['\''] ++ text ++ ['\'']
  else
    if several then "\"\"\"\n".toList ++ text.flatMap escape ++ "\"\"\"".toList
    else ['"'] ++ text.flatMap escape ++ ['"']

end Intcode.Toml
