/-
This file writes texts in double quotes.
-/

namespace Intcode.Text

/-- How a character is written inside double quotes. -/
def quoteCharacter (character : Char) : List Char :=
  match character with
  | '\x00' => ['\\', '0']
  | '\t' => ['\\', 't']
  | '\n' => ['\\', 'n']
  | '\r' => ['\\', 'r']
  | '"' => ['\\', '"']
  | '\\' => ['\\', '\\']
  | _ =>
      if character.toNat < 0x20 ∨ character.toNat = 0x7f then
        ['\\', 'u', '\x7b'] ++ Nat.toDigits 16 character.toNat ++ ['\x7d']
      else
        [character]

def quote (text : List Char) : String :=
  String.ofList (['"'] ++ text.flatMap quoteCharacter ++ ['"'])

end Intcode.Text
