/-
This file defines paths as they are written, without regard to what they name.
-/

import Intcode.Text.Utf8

namespace Intcode

/-- A part of a path between slashes. -/
abbrev Segment := List UInt8

namespace Segment

/-- The segment that stays where it is. -/
def dot : Segment := [0x2e]

/-- The segment that goes up. -/
def dotDot : Segment := [0x2e, 0x2e]

/-- Whether a segment says nothing, unless a relative path begins with it. -/
def isIdle (segment : Segment) : Bool :=
  segment == [] || segment == dot

end Segment

/-- A path keeps the segments between its slashes, empty ones too. -/
structure Path where
  absolute : Bool
  segments : List Segment
deriving DecidableEq

namespace Path

def slash : UInt8 := 0x2f

def segmentsOf (bytes : List UInt8) : List Segment :=
  if bytes.isEmpty then [] else bytes.splitOn slash

def ofBytes : List UInt8 → Path
  | [] => ⟨false, []⟩
  | first :: rest =>
      if first = slash then ⟨true, segmentsOf rest⟩ else ⟨false, segmentsOf (first :: rest)⟩

def ofString (text : String) : Path :=
  ofBytes (Text.encode text)

def toBytes (path : Path) : List UInt8 :=
  (if path.absolute then [slash] else []) ++ [slash].intercalate path.segments

/-- The text of a path, with replacements for what is not well-formed text. -/
def render (path : Path) : String :=
  Text.decodeLossy path.toBytes

/-- The segments without the idle ones at the end. -/
def dropIdle (segments : List Segment) : List Segment :=
  (segments.reverse.dropWhile Segment.isIdle).reverse

/-- The segments without the idle ones at the end. The first of a relative path is not idle. -/
def trimmed (absolute : Bool) (segments : List Segment) : List Segment :=
  if absolute then
    dropIdle segments
  else
    segments.take 1 ++ dropIdle (segments.drop 1)

theorem length_dropIdle (segments : List Segment) :
    (dropIdle segments).length ≤ segments.length := by
  have kept := (List.dropWhile_sublist Segment.isIdle (l := segments.reverse)).length_le
  simpa [dropIdle] using kept

theorem length_trimmed (absolute : Bool) (segments : List Segment) :
    (trimmed absolute segments).length ≤ segments.length := by
  have whole := length_dropIdle segments
  have tail := length_dropIdle (segments.drop 1)
  unfold trimmed
  split
  · exact whole
  · simp only [List.length_append, List.length_take, List.length_drop] at tail ⊢
    omega

/-- The path without its last segment. -/
def parent? (path : Path) : Option Path :=
  match trimmed path.absolute path.segments with
  | [] => none
  | first :: rest =>
      some { path with segments := trimmed path.absolute (first :: rest).dropLast }

/-- A parent has fewer segments. -/
theorem length_parent? {path parent : Path} (found : path.parent? = some parent) :
    parent.segments.length < path.segments.length := by
  have whole := length_trimmed path.absolute path.segments
  unfold parent? at found
  split at found
  · contradiction
  · next first rest cut =>
      cases found
      have shorter := length_trimmed path.absolute (first :: rest).dropLast
      rw [cut] at whole
      simp only [List.length_dropLast, List.length_cons] at shorter whole ⊢
      omega

/-- A path, its parent, the parent of that, and so on. -/
def ancestors (path : Path) : List Path :=
  match _ : path.parent? with
  | none => [path]
  | some parent => path :: parent.ancestors
termination_by path.segments.length
decreasing_by exact length_parent? (by assumption)

/-- The name of what the path leads to, if its last segment gives one. -/
def fileName? (path : Path) : Option Segment :=
  (trimmed path.absolute path.segments).getLast?.filter fun name =>
    name != Segment.dot && name != Segment.dotDot

/-- The path that leads on from the end of another. An absolute path leads to the same place
from everywhere. -/
def join (path next : Path) : Path :=
  if next.absolute then
    next
  else
    match path.segments with
    | [] => { path with segments := next.segments }
    | segments =>
        let before := if segments.getLast? = some [] then segments.dropLast else segments
        let after := if next.segments.isEmpty then [[]] else next.segments
        { path with segments := before ++ after }

end Path

end Intcode
