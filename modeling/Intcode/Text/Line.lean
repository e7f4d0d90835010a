/-
This file cuts texts into lines.
-/

namespace Intcode.Text

/-- The pieces of a list, each cut after an element that ends a piece. -/
def splitAfter {Element : Type} (isEnd : Element → Bool) : List Element → List (List Element)
  | [] => []
  | element :: rest =>
      if isEnd element then
        [element] :: splitAfter isEnd rest
      else
        match splitAfter isEnd rest with
        | [] => [[element]]
        | piece :: pieces => (element :: piece) :: pieces

/-- Cutting a list loses nothing. -/
theorem splitAfter_flatten {Element : Type} (isEnd : Element → Bool) (elements : List Element) :
    (splitAfter isEnd elements).flatten = elements := by
  induction elements with
  | nil => rfl
  | cons element rest inductionHypothesis =>
      rw [splitAfter]
      split
      · simp [inductionHypothesis]
      · split
        · next empty => simp_all
        · next piece pieces cut => simp_all

section Pieces

variable {Element : Type} {isEnd : Element → Bool} {piece : List Element}

/-- The first piece reaches up to the first element that ends one. -/
theorem splitAfter_ended {last : Element} (unended : ∀ element ∈ piece, isEnd element = false)
    (ends : isEnd last = true) (rest : List Element) :
    splitAfter isEnd (piece ++ last :: rest) = (piece ++ [last]) :: splitAfter isEnd rest := by
  induction piece with
  | nil => simp [splitAfter, ends]
  | cons element piece inductionHypothesis =>
      have later := inductionHypothesis fun other inside => unended other (List.mem_cons_of_mem _ inside)
      rw [List.cons_append, splitAfter, unended element List.mem_cons_self, later]
      rfl

theorem splitAfter_unended (unended : ∀ element ∈ piece, isEnd element = false)
    (present : piece ≠ []) : splitAfter isEnd piece = [piece] := by
  induction piece with
  | nil => exact absurd rfl present
  | cons element piece inductionHypothesis =>
      rw [splitAfter, unended element List.mem_cons_self]
      rcases piece with _ | ⟨second, piece⟩
      · rfl
      · have later := inductionHypothesis
          (fun other inside => unended other (List.mem_cons_of_mem _ inside)) (by simp)
        rw [later]
        rfl

end Pieces

/-- A line without its line feed, and without a carriage return before that. -/
def chomp (line : List Char) : List Char :=
  match line.reverse with
  | '\n' :: '\r' :: rest => rest.reverse
  | '\n' :: rest => rest.reverse
  | _ => line

/-- The lines of a text. A final piece without a line feed is a line if it is not empty. -/
def lines (text : List Char) : List (List Char) :=
  (splitAfter (· == '\n') text).map chomp

end Intcode.Text
