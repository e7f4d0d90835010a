/-
This file turns characters into bytes and back. Bytes are read strictly, or with
one replacement character for each longest ill-formed sequence that could have begun
a character.
-/

namespace Intcode.Text

/-- The bytes that a text takes. -/
def byteLength : List Char → Nat
  | [] => 0
  | character :: rest => character.utf8Size + byteLength rest

@[simp]
theorem byteLength_append (left right : List Char) :
    byteLength (left ++ right) = byteLength left + byteLength right := by
  induction left with
  | nil => simp [byteLength]
  | cons character rest inductionHypothesis =>
      simp [byteLength, inductionHypothesis, Nat.add_assoc]

/-- The characters before a byte offset, if a character ends or begins there. -/
def upTo? : List Char → Nat → Option (List Char)
  | _, 0 => some []
  | [], _ + 1 => none
  | character :: rest, offset =>
      if character.utf8Size ≤ offset then
        (upTo? rest (offset - character.utf8Size)).map (character :: ·)
      else
        none

def encode (text : String) : List UInt8 :=
  text.toUTF8.data.toList

/-- The text that the bytes encode, if they are well formed. -/
def decode? (bytes : List UInt8) : Option String :=
  String.fromUTF8? ⟨bytes.toArray⟩

@[simp]
theorem decode?_encode (text : String) : decode? (encode text) = some text := by
  simp only [decode?, encode, String.fromUTF8?, String.toUTF8, Array.toArray_toList]
  exact dif_pos text.isValidUTF8

/-- A character whose first bytes have been read. -/
structure Partway where
  remaining : Nat
  /-- The least byte that can come next. -/
  low : Nat
  /-- The greatest byte that can come next. -/
  high : Nat
  value : Nat

/-- What one more byte leads to. -/
inductive Progress where
  | character (value : Char)
  | partway (sequence : Partway)
  | refused

/-- The progress that a character's first byte makes. -/
def Progress.start (byte : UInt8) : Progress :=
  let value := byte.toNat
  if value < 0x80 then .character (Char.ofNat value)
  else if value < 0xc2 then .refused
  else if value < 0xe0 then .partway ⟨1, 0x80, 0xbf, value % 0x20⟩
  else if value = 0xe0 then .partway ⟨2, 0xa0, 0xbf, 0⟩
  else if value = 0xed then .partway ⟨2, 0x80, 0x9f, value % 0x10⟩
  else if value < 0xf0 then .partway ⟨2, 0x80, 0xbf, value % 0x10⟩
  else if value = 0xf0 then .partway ⟨3, 0x90, 0xbf, 0⟩
  else if value < 0xf4 then .partway ⟨3, 0x80, 0xbf, value % 0x8⟩
  else if value = 0xf4 then .partway ⟨3, 0x80, 0x8f, value % 0x8⟩
  else .refused

/-- The progress that a later byte makes. -/
def Partway.next (sequence : Partway) (byte : UInt8) : Progress :=
  if sequence.low ≤ byte.toNat ∧ byte.toNat ≤ sequence.high then
    let value := sequence.value * 0x40 + byte.toNat % 0x40
    if sequence.remaining ≤ 1 then .character (Char.ofNat value)
    else .partway ⟨sequence.remaining - 1, 0x80, 0xbf, value⟩
  else
    .refused

def replacement : Char := '\ufffd'

/-- Reads bytes after a character that may have been begun. A byte that can not continue it
is read again as a first byte. -/
def decodeFrom : Option Partway → List UInt8 → List Char
  | none, [] => []
  | some _, [] => [replacement]
  | none, byte :: rest =>
      match Progress.start byte with
      | .character value => value :: decodeFrom none rest
      | .partway sequence => decodeFrom (some sequence) rest
      | .refused => replacement :: decodeFrom none rest
  | some sequence, byte :: rest =>
      match sequence.next byte with
      | .character value => value :: decodeFrom none rest
      | .partway next => decodeFrom (some next) rest
      | .refused =>
          replacement ::
            match Progress.start byte with
            | .character value => value :: decodeFrom none rest
            | .partway next => decodeFrom (some next) rest
            | .refused => replacement :: decodeFrom none rest

/-- The text that the bytes encode, with replacements for what is ill formed. -/
def decodeLossy (bytes : List UInt8) : String :=
  String.ofList (decodeFrom none bytes)

end Intcode.Text
