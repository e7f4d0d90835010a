/-
This file cuts the text of a document into tokens.
-/

import Intcode.Toml.Quoted

namespace Intcode.Toml

inductive Token where
  /-- Spaces and tabs. It matters only whether they are a single space. -/
  | blanks (single : Bool)
  | newline
  | comment
  | equals
  | period
  | comma
  | colon
  | plus
  | leftBrace
  | rightBrace
  | leftBracket
  | rightBracket
  /-- Letters, digits, hyphens and underscores. -/
  | bare (text : String)
  | quoted (text : String) (multiline : Bool)
deriving DecidableEq

namespace Token

def isSpace (character : Char) : Bool :=
  character == ' ' || character == '\t'

def isBare (character : Char) : Bool :=
  character.isAlphanum || character == '-' || character == '_'

def isComment (character : Char) : Bool :=
  character == '\t' || 0x20 ≤ character.toNat

/-- A carriage return before a line feed does not count. -/
def foldLineEnds : List Char → List Char
  | [] => []
  | '\r' :: '\n' :: rest => '\n' :: foldLineEnds rest
  | character :: rest => character :: foldLineEnds rest

def quotedToken (quote : Quote) (input : List Char) : Option (Token × List Char) :=
  (readQuoted quote input).map fun string =>
    (.quoted (String.ofList string.text) string.multiline, string.rest)

/-- The first token of a text and what follows it. -/
def next : List Char → Option (Token × List Char)
  | [] => none
  | character :: rest =>
      match character with
      | '\n' => some (.newline, rest)
      | '#' => some (.comment, rest.dropWhile isComment)
      | '=' => some (.equals, rest)
      | '.' => some (.period, rest)
      | ',' => some (.comma, rest)
      | ':' => some (.colon, rest)
      | '+' => some (.plus, rest)
      | '\x7b' => some (.leftBrace, rest)
      | '\x7d' => some (.rightBrace, rest)
      | '[' => some (.leftBracket, rest)
      | ']' => some (.rightBracket, rest)
      | '\'' => quotedToken .literal rest
      | '"' => quotedToken .basic rest
      | _ =>
          if isSpace character then
            let more := rest.takeWhile isSpace
            some (.blanks (character == ' ' && more.isEmpty), rest.dropWhile isSpace)
          else if isBare character then
            some (.bare (String.ofList (character :: rest.takeWhile isBare)), rest.dropWhile isBare)
          else
            none

theorem length_dropWhile_le {Element : Type} (keep : Element → Bool) (elements : List Element) :
    (elements.dropWhile keep).length ≤ elements.length :=
  (List.dropWhile_sublist keep).length_le

theorem quotedToken_length {quote : Quote} {input rest : List Char} {token : Token}
    (read : quotedToken quote input = some (token, rest)) : rest.length ≤ input.length := by
  obtain ⟨string, found, same⟩ := Option.map_eq_some_iff.mp read
  cases same
  exact readQuoted_length found

/-- A token takes at least one character. -/
theorem next_length {input rest : List Char} {token : Token}
    (read : next input = some (token, rest)) : rest.length < input.length := by
  unfold next at read
  split at read
  · contradiction
  · next character after =>
      split at read
      case h_12 | h_13 => exact Nat.lt_succ_of_le (quotedToken_length read)
      case h_14 =>
        split at read
        · cases read
          exact Nat.lt_succ_of_le (length_dropWhile_le _ after)
        · split at read
          · cases read
            exact Nat.lt_succ_of_le (length_dropWhile_le _ after)
          · contradiction
      case h_2 =>
        cases read
        exact Nat.lt_succ_of_le (length_dropWhile_le _ after)
      all_goals
        cases read
        exact Nat.lt_succ_self _

/-- The tokens of a text, if it has no others. -/
def all (input : List Char) : Option (List Token) :=
  if input.isEmpty then
    some []
  else
    match _ : next input with
    | none => none
    | some (token, rest) => (all rest).map (token :: ·)
termination_by input.length
decreasing_by exact next_length (by assumption)

/-- The tokens of a document. A byte order mark at its beginning does not count. -/
def ofDocument (text : List Char) : Option (List Token) :=
  all (foldLineEnds (if text.head? == some '\ufeff' then text.drop 1 else text))

end Token

end Intcode.Toml
