/-
This file defines the values of a document and reads them from its tokens.
-/

import Intcode.Toml.Number
import Intcode.Toml.Token

namespace Intcode.Toml

/-- A value. Of numbers with a fraction and of dates only their presence is kept. -/
inductive Value where
  | string (text : String)
  | integer (value : Cell)
  | float
  | boolean (value : Bool)
  | datetime
  | array (items : List Value)
  /-- A table is open if dotted keys made it, and further ones may add to it. -/
  | table (opened : Bool) (entries : List (String × Value))

abbrev Entries := List (String × Value)

/-- Reads from the front of a list of tokens. -/
abbrev Reader := StateT (List Token) Option

namespace Reader

def token : Reader Token := do
  match ← get with
  | [] => failure
  | token :: rest =>
      set rest
      return token

/-- Passes the next token if it is the given one. -/
def accept (token : Token) : Reader Bool := do
  match ← get with
  | [] => return false
  | next :: rest =>
      if next = token then
        set rest
        return true
      else
        return false

def expect (token : Token) : Reader Unit := do
  unless ← accept token do failure

def skipBlanks : Reader Unit :=
  modify fun tokens =>
    match tokens with
    | .blanks _ :: rest => rest
    | _ => tokens

/-- Passes the end of a line, or nothing at the end of the document. -/
def lineEnd : Reader Unit := do
  match ← get with
  | [] => return
  | _ => expect .newline

/-- Passes a comment and the end of its line. -/
def acceptComment : Reader Bool := do
  if ← accept .comment then
    lineEnd
    return true
  else
    return false

def bare : Reader (List Char) := do
  match ← token with
  | .bare text => return text.toList
  | _ => failure

def key : Reader String := do
  match ← token with
  | .bare text => return text
  | .quoted text false => return text
  | _ => failure

/-- Reads the keys that follow a first one, each after a period. -/
def moreKeys : Nat → Reader (List String)
  | 0 => failure
  | bound + 1 => do
      skipBlanks
      if ← accept .period then
        skipBlanks
        let next ← key
        return next :: (← moreKeys bound)
      else
        return []

/-- Reads keys with periods between them. -/
def keys : Reader (String × List String) := do
  let first ← key
  let bound := (← get).length
  return (first, ← moreKeys (bound + 1))

/-- Passes the rest of a date or a time. Its numbers are not looked at. -/
def datetime (colonPassed : Bool) : Reader Value := do
  match ← get with
  | .blanks true :: .bare _ :: rest => set rest
  | _ => pure ()
  if colonPassed || (← accept .colon) then
    discard bare
    expect .colon
    discard bare
    if ← accept .period then discard bare
    if ← accept .plus then discard bare
    if ← accept .colon then discard bare
  return .datetime

/-- Reads the exponent that follows an `e`, whose own token may have ended there. -/
def exponent (text : List Char) : Reader Int := do
  let parsed ←
    match text with
    | [] => do
        discard (accept .plus)
        let digits ← bare
        pure ((readDigits 10 true .nothing false digits).map fun (digits, left) =>
          ((⟨false, digits⟩ : Digits), left))
    | _ => pure (readSigned true text)
  match parsed with
  | some (digits, []) => return digits.toInt
  | _ => failure

/-- Reads a number with a fraction or an exponent. -/
def float (text : List Char) (fraction : Option (List Char)) : Reader Value := do
  let some (integral, afterIntegral) := readSigned false text | failure
  let (decimals, left) ←
    match fraction with
    | none => pure ([], afterIntegral)
    | some fraction =>
        match afterIntegral, readDigits 10 true .nothing false fraction with
        | [], some (decimals, left) => pure (decimals, left)
        | _, _ => failure
  let power ←
    match left with
    | [] => pure 0
    | mark :: digits => if mark == 'e' || mark == 'E' then exponent digits else failure
  if isFinite (Digits.toNat 10 (integral.digits ++ decimals)) (power - decimals.length) then
    return .float
  else
    failure

/-- The numbers that are not finite, which are spelled out. -/
def specialFloats : List String :=
  ["inf", "-inf", "nan", "-nan"]

def ofOption {Result : Type} : Option Result → Reader Result
  | some result => pure result
  | none => failure

def number (text : List Char) : Reader Value := do
  match text with
  | '0' :: 'x' :: digits => return .integer (← ofOption (integerIn? 16 digits))
  | '0' :: 'o' :: digits => return .integer (← ofOption (integerIn? 8 digits))
  | '0' :: 'b' :: digits => return .integer (← ofOption (integerIn? 2 digits))
  | _ =>
      if text.contains 'e' || text.contains 'E' then
        float text none
      else if ← accept .period then
        float text (some (← bare))
      else if specialFloats.contains (String.ofList text) then
        return .float
      else
        return .integer (← ofOption (decimal? text))

/-- Whether two characters stand next to each other. -/
def adjacent (first second : Char) : List Char → Bool
  | left :: right :: rest => (left == first && right == second) || adjacent first second (right :: rest)
  | _ => false

/-- A hyphen that does not belong to an exponent marks a date, and so does a T. -/
def isDate (text : List Char) : Bool :=
  text.contains 'T' || text.contains 't' ||
    ((text.drop 1).contains '-' && !adjacent 'e' '-' text && !adjacent 'E' '-' text)

def numberOrDate (text : List Char) : Reader Value := do
  if isDate text then datetime false
  else if ← accept .colon then datetime true
  else number text

/-- The value that begins with a bare word. -/
def word (text : String) : Reader Value := do
  if text = "true" then return .boolean true
  else if text = "false" then return .boolean false
  else if text = "inf" ∨ text = "nan" then numberOrDate text.toList
  else
    match text.toList with
    | first :: _ => if first == '-' || first.isDigit then numberOrDate text.toList else failure
    | [] => failure

/-- Passes blanks, comments and line ends. -/
def skipLines : Nat → Reader Unit
  | 0 => failure
  | bound + 1 => do
      skipBlanks
      if ← accept .newline then skipLines bound
      else if ← acceptComment then skipLines bound

/-- Passes blanks, comments and line ends. -/
def skipAll : Reader Unit := do
  skipLines ((← get).length + 1)

end Reader

/-- Adds a value under a key. Each further key goes into the open table that the one before
names, which is made if it is missing. -/
def Entries.add (entries : Entries) (key : String) (value : Value) : List String → Option Entries
  | [] => some (entries ++ [(key, value)])
  | next :: more =>
      match entries.lookup key with
      | none => do
          let inner ← Entries.add [] next value more
          return entries ++ [(key, .table true inner)]
      | some (.table true inner) => do
          let changed ← Entries.add inner next value more
          return replaceFirst key (.table true changed) entries
      | some _ => none
where
  replaceFirst (key : String) (value : Value) : Entries → Entries
    | [] => []
    | entry :: rest =>
        if entry.1 = key then (key, value) :: rest else entry :: replaceFirst key value rest

namespace Reader

mutual

/-- Reads a value. The bound is more than the depth of the value and its items. -/
def value : Nat → Reader Value
  | 0 => failure
  | bound + 1 => do
      match ← token with
      | .quoted text _ => return .string text
      | .bare text => word text
      | .plus => number (← bare)
      | .leftBracket => return .array (← items bound)
      | .leftBrace =>
          skipBlanks
          if ← accept .rightBrace then return .table false [] else return .table false (← pairs bound [])
      | _ => failure

/-- Reads the items of an array up to its closing bracket. The last may have a comma after it. -/
def items : Nat → Reader (List Value)
  | 0 => failure
  | bound + 1 => do
      skipAll
      if ← accept .rightBracket then
        return []
      else
        let item ← value bound
        skipAll
        if ← accept .comma then
          return item :: (← items bound)
        else
          expect .rightBracket
          return [item]

/-- Reads the entries of an inline table up to its closing brace. -/
def pairs : Nat → Entries → Reader Entries
  | 0, _ => failure
  | bound + 1, entries => do
      let (key, more) ← keys
      skipBlanks
      expect .equals
      skipBlanks
      let item ← value bound
      let extended ← ofOption (entries.add key item more)
      skipBlanks
      if ← accept .rightBrace then
        return extended
      else
        expect .comma
        skipBlanks
        pairs bound extended

end

end Reader

end Intcode.Toml
