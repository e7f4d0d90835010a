/-
This file shows that making a package harms nothing. Whether it succeeds or fails, what was
there stays as it was, and what is added belongs to the package. Making the package again
changes nothing.
-/

import Intcode.Proofs.Scaffolding
import Intcode.Proofs.Search

namespace Intcode

namespace Scaffold

open FileSystem (Extends)

/-- What making a package can add: the directories that lead to its path, its manifest, the directory
of its sources and its program. -/
inductive Belongs (path : Path) (system : FileSystem) : Location → Entry → Prop where
  | directory {other : Path} {location : Location} (leads : other ∈ path.ancestors)
      (located : system.locate other = .ok location) : Belongs path system location .directory
  | manifest {name : String} {location : Location} (named : packageName path = .ok name)
      (located : system.locate (manifestPath path) = .ok location) :
      Belongs path system location (.file (Text.encode (Manifest.freshText name)))
  | sources {location : Location} (located : system.locate (sourcePath path) = .ok location) :
      Belongs path system location .directory
  | program {location : Location} (located : system.locate (programPath path) = .ok location) :
      Belongs path system location (.file (Text.encode programText))

/-- Nothing that was there is changed, and what is added belongs to the package. -/
structure Adds (path : Path) (later earlier : FileSystem) : Prop extends Extends later earlier where
  added : ∀ location entry, earlier.lookup location = none →
    later.lookup location = some entry → Belongs path later location entry

section Additions

variable {path : Path} {earlier middle later system created : FileSystem}
variable {location : Location} {entry : Entry}

/-- What belongs to the package does so in every file system that has more. -/
theorem Belongs.mono (belongs : Belongs path earlier location entry)
    (grown : Extends later earlier) : Belongs path later location entry := by
  cases belongs with
  | directory leads located => exact .directory leads (grown.locate located)
  | manifest named located => exact .manifest named (grown.locate located)
  | sources located => exact .sources (grown.locate located)
  | program located => exact .program (grown.locate located)

theorem Adds.refl (path : Path) (system : FileSystem) : Adds path system system where
  toExtends := .refl system
  added location entry absent found := by
    rw [absent] at found
    cases found

theorem Adds.trans (second : Adds path later middle) (first : Adds path middle earlier) :
    Adds path later earlier where
  toExtends := second.toExtends.trans first.toExtends
  added location entry absent found := by
    cases between : middle.lookup location with
    | none => exact second.added location entry between found
    | some other =>
        have same := second.kept location other between
        rw [found, Option.some.injEq] at same
        subst same
        exact (first.added location entry absent between).mono second.toExtends

theorem adds_put (vacant : system.lookup location = none)
    (belongs : Belongs path (system.put location entry) location entry) :
    Adds path (system.put location entry) system where
  toExtends := FileSystem.extends_put entry vacant
  added other found absent there := by
    rw [FileSystem.lookup_put (by simp [vacant])] at there
    split at there
    next same =>
      cases there
      rwa [same]
    next =>
      rw [absent] at there
      cases there

/-- A directory that is created belongs to the package if every place does that its path can have. -/
theorem adds_createDirectory {directory : Path}
    (belongs : ∀ location, created.locate directory = .ok location →
      Belongs path created location .directory)
    (done : system.createDirectory directory = .ok created) : Adds path created system := by
  obtain ⟨location, vacant, rfl, located⟩ := FileSystem.createDirectory_eq_ok done
  exact adds_put vacant (belongs location located)

/-- The directories on the way are added one by one, also if the last can not be. -/
theorem adds_createDirectories (system : FileSystem) (other : Path)
    (leads : other ∈ path.ancestors) : Adds path (system.createDirectories other).1 system := by
  have adds {system created : FileSystem} {other : Path} (leads : other ∈ path.ancestors)
      (done : system.createDirectory other = .ok created) : Adds path created system :=
    adds_createDirectory (fun _ located => .directory leads located) done
  fun_induction FileSystem.createDirectories system other with
  | case1 => exact .refl path system
  | case2 other _ created done => exact adds leads done
  | case3 => exact .refl path system
  | case4 other _ _ parent above prepared before inductionHypothesis =>
      have first := inductionHypothesis (Path.parent_mem_ancestors leads above)
      rwa [before] at first
  | case5 other _ _ parent above prepared before created done inductionHypothesis =>
      have first := inductionHypothesis (Path.parent_mem_ancestors leads above)
      rw [before] at first
      exact (adds leads done).trans first
  | case6 other _ _ parent above prepared before _ _ inductionHypothesis =>
      have first := inductionHypothesis (Path.parent_mem_ancestors leads above)
      rwa [before] at first
  | case7 => exact .refl path system

end Additions

/-- A step adds only what belongs to the package, whether it succeeds or fails. -/
def Careful {Result : Type} (path : Path) (step : Step Result) : Prop :=
  ∀ progress, Adds path (step.run.run progress).2.system progress.system

section Steps

variable {path : Path} {First Second : Type}

theorem Careful.bind {first : Step First} {rest : First → Step Second} (before : Careful path first)
    (after : ∀ value, Careful path (rest value)) : Careful path (first >>= rest) := by
  intro progress
  have start := before progress
  rw [run_bind]
  rcases ended : first.run.run progress with ⟨problem | value, middle⟩
  · rwa [ended] at start
  · rw [ended] at start
    exact (after value middle).trans start

theorem careful_report (path : Path) (tag : Tag) (message : String) :
    Careful path (report tag message) :=
  fun progress => .refl path progress.system

theorem careful_directory (path : Path) : Careful path (directory path) := by
  intro progress
  obtain ⟨above, first⟩ := path.ancestors_eq_cons
  have leads : path ∈ path.ancestors := by simp [first]
  rw [run_directory]
  exact adds_createDirectories progress.system path leads

theorem careful_file {file : Path} {text warning : String} {problem : Problem}
    (belongs : ∀ (system : FileSystem) location, system.locate file = .ok location →
      Belongs path system location (.file (Text.encode text))) :
    Careful path (Scaffold.file file text warning problem) := by
  intro progress
  rw [run_file]
  split
  next => exact .refl path progress.system
  next absent =>
    split
    next written done =>
      obtain ⟨location, located, vacant, rfl⟩ :=
        FileSystem.vacant_of_write (Bool.eq_false_iff.mpr absent) done
      have grown := FileSystem.extends_put (.file (Text.encode text)) vacant
      exact adds_put vacant (belongs _ location (grown.locate located))
    next => exact .refl path progress.system

theorem careful_sourceDirectory (path : Path) :
    Careful path (sourceDirectory (sourcePath path)) := by
  intro progress
  rw [run_sourceDirectory]
  split
  next => exact .refl path progress.system
  next =>
    split
    next created done => exact adds_createDirectory (fun _ => .sources) done
    next => exact .refl path progress.system

/-- Making a package adds only what belongs to it, at whichever step it may end. -/
theorem careful_package (path : Path) : Careful path (package path) := by
  intro progress
  unfold package
  rw [run_bind]
  cases named : packageName path with
  | error problem => exact .refl path progress.system
  | ok name =>
      refine Careful.bind (careful_directory path) (fun _ => ?_) progress
      refine Careful.bind (careful_file fun _ _ => .manifest named) fun _ => ?_
      refine Careful.bind (careful_sourceDirectory path) fun _ => ?_
      refine Careful.bind (careful_file fun _ _ => .program) fun _ => ?_
      exact careful_report path .finished _

end Steps

section Repetition

variable {path : Path} {name text : String}
variable {system prepared described housed after : FileSystem}

/-- The file of a step that succeeds is there afterwards. -/
theorem Filed.isFile (filed : Filed path text system after) : after.isFile path = true := by
  cases filed with
  | kept there => exact there
  | written absent done =>
      obtain ⟨location, located, vacant, rfl⟩ := FileSystem.vacant_of_write absent done
      have grown := FileSystem.extends_put (.file (Text.encode text)) vacant
      rw [FileSystem.isFile, FileSystem.entry?_of_locate (grown.locate located),
        FileSystem.lookup_put (by simp [vacant]), if_pos rfl]

/-- The reports of a package that was there already. -/
def repeated (name : String) : List Report :=
  [⟨.warning, "The manifest file (" ++ Manifest.fileName ++ ") has already been created"⟩,
    ⟨.warning, "The program (" ++ Manifest.sourceName ++ "/" ++ Manifest.entrypointName ++
      ") has already been created"⟩,
    ⟨.finished, "The package '" ++ name ++ "' was created successfully"⟩]

/-- Where all of a package is there, making it changes nothing. -/
theorem run_package_again (named : packageName path = .ok name)
    (directory : system.isDirectory path = true)
    (manifest : system.isFile (manifestPath path) = true)
    (sources : system.isDirectory (sourcePath path) = true)
    (program : system.isFile (programPath path) = true) :
    (package path).run.run ⟨system, []⟩ = (.ok (), ⟨system, repeated name⟩) := by
  have lifted : (liftM (packageName path) : Step String).run.run ⟨system, []⟩ =
      (.ok name, ⟨system, []⟩) := by
    rw [named]
    rfl
  have prepares : (Scaffold.directory path).run.run ⟨system, []⟩ = (.ok (), ⟨system, []⟩) := by
    rw [run_directory, FileSystem.createDirectories_of_isDirectory directory]
    rfl
  have warns {file : Path} (there : system.isFile file = true) (text warning : String)
      (problem : Problem) (reports : List Report) :
      (Scaffold.file file text warning problem).run.run ⟨system, reports⟩ =
        (.ok (), ⟨system, reports ++ [⟨.warning, warning⟩]⟩) := by
    rw [run_file, if_pos there]
  have houses (reports : List Report) :
      (sourceDirectory (sourcePath path)).run.run ⟨system, reports⟩ =
        (.ok (), ⟨system, reports⟩) := by
    rw [run_sourceDirectory, if_pos sources]
  refine bind_eq_ok.mpr ⟨name, _, lifted, ?_⟩
  refine bind_eq_ok.mpr ⟨(), _, prepares, ?_⟩
  refine bind_eq_ok.mpr ⟨(), _, warns manifest _ _ _ [], ?_⟩
  refine bind_eq_ok.mpr ⟨(), _, houses _, ?_⟩
  exact bind_eq_ok.mpr ⟨(), _, warns program _ _ _ _, rfl⟩

/-- A package that has been made is all there. -/
theorem Made.again (made : Made path name system prepared described housed after) :
    (package path).run.run ⟨after, []⟩ = (.ok (), ⟨after, repeated name⟩) := by
  have described := made.files.grown.trans made.houses.furnished.toExtends
  exact run_package_again made.named (made.grown.isDirectory made.isDirectory)
    (described.isFile made.describes.isFile)
    (made.files.grown.isDirectory made.houses.isDirectory) made.files.isFile

end Repetition

end Scaffold

namespace Command

theorem system_executeNew (system : FileSystem) (path : Path) :
    (executeNew system path).system =
      ((Scaffold.package path).run.run ⟨system, []⟩).2.system := by
  unfold executeNew
  rcases (Scaffold.package path).run.run ⟨system, []⟩ with ⟨_ | _, _⟩ <;> rfl

/-- Whether a package can be made or not, everything that was there is there afterwards with the
same contents, and what has been added belongs to the package. A package that has been made can be
made again, which only gives warnings and changes nothing. -/
theorem new_package_harms_nothing (system : FileSystem) (path : Path) :
    let after := (executeNew system path).system
    after.workingDirectory = system.workingDirectory ∧
    (∀ location entry, system.lookup location = some entry →
      after.lookup location = some entry) ∧
    (∀ location entry, system.lookup location = none → after.lookup location = some entry →
      Scaffold.Belongs path after location entry) ∧
    ((executeNew system path).succeeded = true →
      ∃ name, Scaffold.packageName path = .ok name ∧
        executeNew after path =
          { output := []
            reports := Scaffold.repeated name
            succeeded := true
            system := after }) := by
  intro after
  have adds : Scaffold.Adds path after system := by
    have careful := Scaffold.careful_package path ⟨system, []⟩
    rwa [← system_executeNew] at careful
  refine ⟨adds.workingDirectory, adds.kept, adds.added, ?_⟩
  intro succeeded
  obtain ⟨name, _, _, _, made⟩ := Scaffold.made_of_executeNew succeeded
  refine ⟨name, made.named, ?_⟩
  rw [executeNew, made.again]

/-- A program that is there is kept, and a package around it can be made twice. -/
theorem new_package_keeps_program :
    let system : FileSystem :=
      { entries :=
          [([Text.encode "w"], .directory),
           ([Text.encode "w", Text.encode "d"], .directory),
           ([Text.encode "w", Text.encode "d", Text.encode "src"], .directory),
           ([Text.encode "w", Text.encode "d", Text.encode "src", Text.encode "main.ic"],
            .file (Text.encode "99"))]
        workingDirectory := [Text.encode "w"] }
    let path := Path.ofString "x/../d"
    let after := (executeNew system path).system
    (executeNew system path).succeeded = true ∧
    after.lookup [Text.encode "w", Text.encode "d", Text.encode "src", Text.encode "main.ic"] =
      some (.file (Text.encode "99")) ∧
    (executeNew after path).succeeded = true ∧ (executeNew after path).system = after := by
  intro system path after
  have succeeded : (executeNew system path).succeeded = true := by decide +kernel
  obtain ⟨-, kept, -, again⟩ := new_package_harms_nothing system path
  obtain ⟨name, -, repeats⟩ := again succeeded
  refine ⟨succeeded, kept _ _ (by decide +kernel), ?_, ?_⟩
  · rw [repeats]
  · rw [repeats]

end Command

end Intcode
