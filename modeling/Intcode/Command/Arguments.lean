/-
This file reads the arguments of the command line.
-/

import Intcode.Numeral
import Intcode.Path

namespace Intcode

/-- What a program is run with. -/
structure RunOptions where
  path : Path
  input : List Cell
  /-- Whether further values come from standard input. -/
  stdin : Bool
  dump : Bool
deriving DecidableEq

inductive Command where
  /-- Makes a package. -/
  | new (path : Path)
  /-- Runs a package or a program. -/
  | run (options : RunOptions)
deriving DecidableEq

/-- Why the arguments are no command. -/
inductive Refusal where
  | help
  | usage
deriving DecidableEq

namespace Arguments

abbrev Argument := List UInt8

def hyphen : UInt8 := 0x2d

def equalsSign : UInt8 := 0x3d

/-- What the arguments after a command's name have given so far. -/
structure Draft where
  path : Option Argument
  inputs : List Argument
  stdin : Nat
  dump : Nat

def Draft.empty : Draft :=
  { path := none, inputs := [], stdin := 0, dump := 0 }

/-- What the next argument can be. -/
inductive Expected where
  | anything
  /-- The value of an option, whatever it looks like. -/
  | value
  /-- A path, because the options have ended. -/
  | path

/-- The value that is written behind an option, which an equals sign may precede. -/
def attached (text : Argument) : Argument :=
  text.dropWhile (· == equalsSign)

/-- Takes an argument that is not an option. There is one path at most. -/
def Draft.addPath (draft : Draft) (argument : Argument) : Except Refusal Draft :=
  match draft.path with
  | none => .ok { draft with path := some argument }
  | some _ => .error .usage

/-- Takes an option by its name. Only the command that runs programs has options. -/
def Draft.addLong (runs : Bool) (draft : Draft) (argument : Argument) :
    Except Refusal (Draft × Expected) :=
  let bare := argument.dropWhile (· == hyphen)
  let name := bare.takeWhile (· != equalsSign)
  if name = Text.encode "help" then .error .help
  else if !runs then .error .usage
  else if name = Text.encode "input" then
    if bare.contains equalsSign then
      .ok ({ draft with inputs := draft.inputs ++ [attached (bare.drop name.length)] }, .anything)
    else
      .ok (draft, .value)
  else if name = Text.encode "stdin" then .ok ({ draft with stdin := draft.stdin + 1 }, .anything)
  else if name = Text.encode "dump" then .ok ({ draft with dump := draft.dump + 1 }, .anything)
  else .error .usage

/-- Takes an option by its letter, which follows one hyphen. -/
def Draft.addShort (runs : Bool) (draft : Draft) (letter : UInt8) (rest : Argument) :
    Except Refusal (Draft × Expected) :=
  if letter = 'h'.toUInt8 then .error .help
  else if runs ∧ letter = 'i'.toUInt8 then
    if rest.isEmpty then .ok (draft, .value)
    else .ok ({ draft with inputs := draft.inputs ++ [attached rest] }, .anything)
  else .error .usage

/-- Takes one argument. -/
def Draft.add (runs : Bool) (draft : Draft) (expected : Expected) (argument : Argument) :
    Except Refusal (Draft × Expected) :=
  match expected with
  | .value => .ok ({ draft with inputs := draft.inputs ++ [argument] }, .anything)
  | .path => (draft.addPath argument).map (·, .path)
  | .anything =>
      match argument with
      | [first, second] =>
          if first = hyphen ∧ second = hyphen then .ok (draft, .path)
          else if first = hyphen then draft.addShort runs second []
          else (draft.addPath argument).map (·, .anything)
      | first :: second :: rest =>
          if first = hyphen ∧ second = hyphen then draft.addLong runs argument
          else if first = hyphen then draft.addShort runs second rest
          else (draft.addPath argument).map (·, .anything)
      | _ => (draft.addPath argument).map (·, .anything)

/-- Takes all arguments. An option at the end may lack its value if it had one before. -/
def scan (runs : Bool) : Draft → Expected → List Argument → Except Refusal Draft
  | draft, .value, [] => if draft.inputs.isEmpty then .error .usage else .ok draft
  | draft, _, [] => .ok draft
  | draft, expected, argument :: rest => do
      let (next, expectedNext) ← draft.add runs expected argument
      scan runs next expectedNext rest

/-- A path that is a single dot, or none, stands for the working directory. -/
def pathOf (workingDirectory : Path) : Option Argument → Path
  | none => workingDirectory
  | some argument =>
      if argument = Segment.dot then workingDirectory else .ofBytes argument

def inputOf (argument : Argument) : Except Refusal Cell :=
  match Text.decode? argument with
  | none => .error .usage
  | some text => (Numeral.read text.toList).mapError fun _ => .usage

def newCommand (workingDirectory : Path) (arguments : List Argument) : Except Refusal Command := do
  let draft ← scan false .empty .anything arguments
  return .new (pathOf workingDirectory draft.path)

def runCommand (workingDirectory : Path) (arguments : List Argument) : Except Refusal Command := do
  let draft ← scan true .empty .anything arguments
  if 1 < draft.stdin ∨ 1 < draft.dump then
    throw .usage
  let input ← draft.inputs.mapM inputOf
  return .run
    { path := pathOf workingDirectory draft.path
      input := input
      stdin := draft.stdin = 1
      dump := draft.dump = 1 }

/-- The names that help can be asked about. -/
def commandNames : List Argument :=
  ["new", "run", "help"].map Text.encode

/-- Refuses what is not a command's name, by help if that is what it asks for. -/
def refuse (argument : Argument) (rest : List Argument) : Refusal :=
  if argument = Text.encode "help" then
    match rest with
    | [] => .help
    | [name] => if commandNames.contains name then .help else .usage
    | _ => .usage
  else
    match argument with
    | [_] | [] => .usage
    | first :: second :: _ =>
        if first = hyphen ∧ second = hyphen then
          let name := (argument.dropWhile (· == hyphen)).takeWhile (· != equalsSign)
          if name = Text.encode "help" then .help else .usage
        else if first = hyphen ∧ second = 'h'.toUInt8 then .help
        else .usage

/-- The command that the arguments after the program's name give. -/
def parse (workingDirectory : Path) : List Argument → Except Refusal Command
  | [] => .error .usage
  | name :: rest =>
      if name = Text.encode "new" then newCommand workingDirectory rest
      else if name = Text.encode "run" then runCommand workingDirectory rest
      else .error (refuse name rest)

end Arguments

end Intcode
