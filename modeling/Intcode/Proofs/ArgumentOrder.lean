/-
This file shows that the arguments of the command that runs programs arrive complete and
in order. What they say is a list of items, each said by a group of arguments, and the
groups may come in any order.
-/

import Intcode.Command.Arguments
import Intcode.Proofs.Decimal
import Intcode.Proofs.Evaluation

namespace Intcode

theorem Text.encode_ofList (text : List Char) :
    encode (String.ofList text) = text.flatMap String.utf8EncodeChar := by
  rw [encode, String.toUTF8_eq_toByteArray, String.toByteArray_ofList, List.utf8Encode,
    List.toList_data_toByteArray]

namespace Arguments

/-- A value is given by an option, in an argument of its own or in that of the option. -/
inductive Carries (value : Argument) : List Argument → Prop where
  | short : Carries value [Text.encode "-i", value]
  | shortJoined : Carries value [Text.encode "-i" ++ value]
  | shortEquals : Carries value [Text.encode "-i=" ++ value]
  | long : Carries value [Text.encode "--input", value]
  | longEquals : Carries value [Text.encode "--input=" ++ value]

/-- One thing that can be said to the command that runs programs. -/
inductive Item where
  | input (cell : Cell)
  | path (token : Argument)
  | stdin
  | dump
deriving DecidableEq

namespace Item

/-- The value that an item gives. -/
@[simp]
def cell? : Item → Option Cell
  | input cell => some cell
  | _ => none

/-- The path that an item names. -/
@[simp]
def token? : Item → Option Argument
  | path token => some token
  | _ => none

/-- An item is said by these arguments. Any numeral of a value will do, and a path is not empty and
does not begin with a hyphen. -/
inductive Said : Item → List Argument → Prop where
  | input {cell : Cell} {numeral : String} {group : List Argument}
      (denotes : Numeral.Denotes numeral.toList cell.toInt)
      (carries : Carries (Text.encode numeral) group) : Said (input cell) group
  | path {token : Argument} (present : token ≠ []) (plain : token.head? ≠ some hyphen) :
      Said (path token) [token]
  | stdin : Said stdin [Text.encode "--stdin"]
  | dump : Said dump [Text.encode "--dump"]

end Item

section Scanning

variable {draft : Draft} {rest : List Argument}

/-- What one argument leaves is what the others are added to. -/
theorem scan_cons {expected expectedNext : Expected} {next : Draft} {argument : Argument}
    (added : draft.add true expected argument = .ok (next, expectedNext)) :
    scan true draft expected (argument :: rest) = scan true next expectedNext rest := by
  rw [scan, added, ok_bind]

/-- A numeral begins with a byte that is no equals sign. -/
theorem encode_of_denotes {numeral : String} {value : Int}
    (denotes : Numeral.Denotes numeral.toList value) :
    ∃ first bytes, Text.encode numeral = first :: bytes ∧ first ≠ equalsSign := by
  obtain ⟨first, text, whole⟩ := List.exists_cons_of_ne_nil denotes.present
  have inside : first ∈ numeral.toList := whole ▸ List.mem_cons_self
  have small : first.val.toNat < 58 := by
    rcases denotes.character inside with rfl | rfl | isDigit
    · decide
    · decide
    · exact Nat.lt_succ_of_le (Text.toNat_of_isDigit isDigit).2
  have size : first.utf8Size = 1 := by
    rw [Char.utf8Size_eq_one_iff, UInt32.le_iff_toNat_le]
    exact Nat.le_trans small.le (by decide)
  refine ⟨first.val.toUInt8, text.flatMap String.utf8EncodeChar, ?_, ?_⟩
  · have again : numeral = String.ofList (first :: text) := by rw [← whole, String.ofList_toList]
    rw [again, Text.encode_ofList, List.flatMap_cons, String.utf8EncodeChar_eq_singleton size,
      List.singleton_append]
  · intro same
    have byte := congrArg UInt8.toNat same
    rw [UInt32.toNat_toUInt8] at byte
    have sign : equalsSign.toNat = 61 := rfl
    omega

/-- However a value is given, it is added behind the others. -/
theorem scan_carries {first : UInt8} {bytes : List UInt8} {group : List Argument}
    (plain : first ≠ equalsSign) (carries : Carries (first :: bytes) group) :
    scan true draft .anything (group ++ rest) =
      scan true { draft with inputs := draft.inputs ++ [first :: bytes] } .anything rest := by
  have bare : attached (first :: bytes) = first :: bytes := by
    rw [attached, List.dropWhile_cons_of_neg (by simpa using plain)]
  have joined {argument : Argument}
      (added : draft.add true .anything argument =
        .ok ({ draft with inputs := draft.inputs ++ [attached (first :: bytes)] }, .anything)) :
      scan true draft .anything ([argument] ++ rest) =
        scan true { draft with inputs := draft.inputs ++ [first :: bytes] } .anything rest := by
    rw [List.singleton_append, scan_cons added, bare]
  have apart {argument : Argument}
      (added : draft.add true .anything argument = .ok (draft, .value)) :
      scan true draft .anything ([argument, first :: bytes] ++ rest) =
        scan true { draft with inputs := draft.inputs ++ [first :: bytes] } .anything rest := by
    rw [List.cons_append, scan_cons added]
    exact scan_cons rfl
  -- The names of the options are fixed bytes, so what each of them adds can be computed.
  cases carries with
  | short => exact apart rfl
  | long => exact apart rfl
  | shortJoined => exact joined rfl
  | shortEquals => exact joined rfl
  | longEquals => exact joined rfl

/-- An argument that does not begin with a hyphen is a path. -/
theorem add_path {token : Argument} (present : token ≠ []) (plain : token.head? ≠ some hyphen)
    (free : draft.path = none) :
    draft.add true .anything token = .ok ({ draft with path := some token }, .anything) := by
  have added : draft.addPath token = .ok { draft with path := some token } := by
    rw [Draft.addPath, free]
  rcases token with _ | ⟨first, token⟩
  · exact absurd rfl present
  have other : first ≠ hyphen := fun same => plain (congrArg some same)
  unfold Draft.add
  dsimp only
  split
  next same => cases same; rw [if_neg (fun both => other both.1), if_neg other, added]; rfl
  next same => cases same; rw [if_neg (fun both => other both.1), if_neg other, added]; rfl
  next => rw [added]; rfl

end Scanning

/-- A draft has what these items say, and nothing else. -/
structure Draft.Records (draft : Draft) (items : List Item) : Prop where
  path : draft.path.toList = items.filterMap Item.token?
  inputs : List.Forall₂ (fun argument cell => inputOf argument = .ok cell) draft.inputs
    (items.filterMap Item.cell?)
  stdin : draft.stdin = items.count .stdin
  dump : draft.dump = items.count .dump

theorem inputOf_encode {numeral : String} {cell : Cell}
    (denotes : Numeral.Denotes numeral.toList cell.toInt) :
    inputOf (Text.encode numeral) = .ok cell := by
  rw [inputOf, Text.decode?_encode]
  dsimp only
  rw [Numeral.read_eq_ok.mpr denotes]
  rfl

/-- The arguments of one item add what it says. -/
theorem Draft.Records.scan_group {draft : Draft} {items : List Item} {item : Item}
    {group : List Argument} (records : draft.Records items) (said : item.Said group)
    (onePath : ((items ++ [item]).filterMap Item.token?).length ≤ 1) :
    ∃ next : Draft, next.Records (items ++ [item]) ∧
      ∀ rest, scan true draft .anything (group ++ rest) = scan true next .anything rest := by
  cases said with
  | input denotes carries =>
      obtain ⟨first, bytes, encoded, plain⟩ := encode_of_denotes denotes
      rw [encoded] at carries
      refine ⟨_, ⟨?_, ?_, ?_, ?_⟩, fun rest => scan_carries plain carries⟩
      · simpa [List.filterMap_cons] using records.path
      · rw [List.filterMap_append]
        refine List.rel_append records.inputs (.cons ?_ .nil)
        rw [← encoded]
        exact inputOf_encode denotes
      · simpa using records.stdin
      · simpa using records.dump
  | path present plain =>
      have free : draft.path = none := by
        rw [List.filterMap_append, ← records.path, List.length_append] at onePath
        cases found : draft.path with
        | none => rfl
        | some token => simp [found, Item.token?] at onePath
      refine ⟨_, ⟨?_, ?_, ?_, ?_⟩, fun rest => scan_cons (add_path present plain free)⟩
      · rw [List.filterMap_append, ← records.path, free]
        rfl
      · simpa [List.filterMap_cons] using records.inputs
      · simpa using records.stdin
      · simpa using records.dump
  | stdin =>
      refine ⟨{ draft with stdin := draft.stdin + 1 }, ⟨?_, ?_, ?_, ?_⟩, fun rest => scan_cons rfl⟩
      · simpa [List.filterMap_cons] using records.path
      · simpa [List.filterMap_cons] using records.inputs
      · simp [records.stdin]
      · simpa using records.dump
  | dump =>
      refine ⟨{ draft with dump := draft.dump + 1 }, ⟨?_, ?_, ?_, ?_⟩, fun rest => scan_cons rfl⟩
      · simpa [List.filterMap_cons] using records.path
      · simpa [List.filterMap_cons] using records.inputs
      · simpa using records.stdin
      · simp [records.dump]

/-- The arguments of many items add what all of them say, group by group. -/
theorem Draft.Records.scan_flatten {draft : Draft} {items later : List Item}
    {groups : List (List Argument)} (records : draft.Records items)
    (said : List.Forall₂ Item.Said later groups)
    (onePath : ((items ++ later).filterMap Item.token?).length ≤ 1) :
    ∃ final : Draft, final.Records (items ++ later) ∧
      scan true draft .anything groups.flatten = .ok final := by
  induction said generalizing draft items with
  | nil => exact ⟨draft, by simpa using records, rfl⟩
  | @cons item group later groups first _ inductionHypothesis =>
      rw [List.append_cons] at onePath ⊢
      have fewer : ((items ++ [item]).filterMap Item.token?).length ≤ 1 := by
        rw [List.filterMap_append, List.length_append] at onePath
        omega
      obtain ⟨next, recorded, scanned⟩ := records.scan_group first fewer
      obtain ⟨final, all, done⟩ := inductionHypothesis recorded onePath
      exact ⟨final, all, (scanned _).trans done⟩

/-- Values are read one by one. -/
theorem mapM_inputOf {arguments : List Argument} {cells : List Cell}
    (values : List.Forall₂ (fun argument cell => inputOf argument = .ok cell) arguments cells) :
    arguments.mapM inputOf = .ok cells := by
  induction values with
  | nil => rfl
  | cons first _ inductionHypothesis =>
      rw [List.mapM_cons, first, inductionHypothesis]
      rfl

/-- Items may be said in any order and in any way. The values arrive as a whole and in the order in
which they are said, the path is the one that is named or else the working directory, and each of
the two flags is set if it is said. -/
theorem inputs_arrive_in_order (workingDirectory : Path) {items : List Item}
    {groups : List (List Argument)} {cells : List Cell} {token : Option Argument}
    (said : List.Forall₂ Item.Said items groups)
    (inputs : items.filterMap Item.cell? = cells)
    (path : items.filterMap Item.token? = token.toList)
    (stdinOnce : items.count .stdin ≤ 1) (dumpOnce : items.count .dump ≤ 1) :
    parse workingDirectory (Text.encode "run" :: groups.flatten) =
      .ok (.run
        { path := pathOf workingDirectory (some (token.getD Segment.dot))
          input := cells
          stdin := decide (.stdin ∈ items)
          dump := decide (.dump ∈ items) }) := by
  have start : Draft.empty.Records [] := ⟨rfl, .nil, rfl, rfl⟩
  have onePath : (([] ++ items).filterMap Item.token?).length ≤ 1 := by
    rw [List.nil_append, path]
    cases token <;> simp
  obtain ⟨draft, records, scanned⟩ := start.scan_flatten said onePath
  rw [List.nil_append] at records
  have values : draft.inputs.mapM inputOf = .ok cells := mapM_inputOf (inputs ▸ records.inputs)
  have place : draft.path = token := by
    simpa using congrArg List.head? (records.path.trans path)
  have once {item : Item} (bound : items.count item ≤ 1) :
      decide (items.count item = 1) = decide (item ∈ items) := by
    rw [decide_eq_decide, ← List.one_le_count_iff]
    omega
  have named : pathOf workingDirectory (some (token.getD Segment.dot)) =
      pathOf workingDirectory token := by
    cases token <;> rfl
  have command : parse workingDirectory (Text.encode "run" :: groups.flatten) =
      runCommand workingDirectory groups.flatten := by
    rw [parse, if_neg (by decide), if_pos rfl]
  rw [command, runCommand, scanned, ok_bind, if_neg (by rw [records.stdin, records.dump]; omega), values,
    place, records.stdin, records.dump, once stdinOnce, once dumpOnce, named]
  rfl

/-- Two values before and behind a path, one of them negative, arrive with the flag between them. -/
theorem values_around_path_arrive_in_order :
    parse ⟨true, []⟩ (["run", "-i", "-5", "a.ic", "--dump", "--input=3"].map Text.encode) =
      .ok (.run { path := .ofString "a.ic", input := [-5, 3], stdin := false, dump := true }) := by
  have negative : Item.Said (.input (-5)) [Text.encode "-i", Text.encode (Cell.render (-5))] :=
    .input (Cell.render_denotes (-5)) .short
  have positive : Item.Said (.input 3) [Text.encode "--input=" ++ Text.encode (Cell.render 3)] :=
    .input (Cell.render_denotes 3) .longEquals
  have path : Item.Said (.path (Text.encode "a.ic")) [Text.encode "a.ic"] :=
    .path (by decide) (by decide)
  exact inputs_arrive_in_order ⟨true, []⟩ (.cons negative (.cons path (.cons .dump (.cons positive .nil))))
    rfl (rfl : _ = (some (Text.encode "a.ic")).toList) (by decide) (by decide)

end Arguments

end Intcode
