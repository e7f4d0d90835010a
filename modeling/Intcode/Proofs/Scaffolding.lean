/-
This file shows what making a package does to the file system. Nothing that was there is
changed, and if nothing was in their places, the files of the package are as they were meant.
-/

import Intcode.Command.Execute
import Intcode.Proofs.FileTree

namespace Intcode

namespace Scaffold

open FileSystem (Extends Furnished Names)

section Steps

variable {First Second : Type} (progress : Progress)

/-- A step that fails ends everything, and what has been done stays done. -/
theorem run_bind (first : Step First) (rest : First → Step Second) :
    (first >>= rest).run.run progress =
      match first.run.run progress with
      | (.ok value, middle) => (rest value).run.run middle
      | (.error problem, middle) => (.error problem, middle) := by
  change ExceptT.bindCont rest (first.run.run progress).1 (first.run.run progress).2 = _
  rcases first.run.run progress with ⟨_ | _, _⟩ <;> rfl

theorem run_directory (path : Path) :
    (directory path).run.run progress =
      (if (progress.system.createDirectories path).2 then .ok () else .error .directoryRefused,
        { progress with system := (progress.system.createDirectories path).1 }) := by
  change (do
      setSystem (progress.system.createDirectories path).1
      unless (progress.system.createDirectories path).2 do throw Problem.directoryRefused :
        Step Unit).run.run progress = _
  cases (progress.system.createDirectories path).2 <;> rfl

theorem run_file (path : Path) (text warning : String) (problem : Problem) :
    (file path text warning problem).run.run progress =
      if progress.system.isFile path then
        (.ok (), { progress with reports := progress.reports ++ [⟨.warning, warning⟩] })
      else
        match progress.system.write path (Text.encode text) with
        | some written => (.ok (), { progress with system := written })
        | none => (.error problem, progress) := by
  change (if progress.system.isFile path then report .warning warning
    else
      match progress.system.write path (Text.encode text) with
      | some written => setSystem written
      | none => throw problem : Step Unit).run.run progress = _
  cases progress.system.isFile path
  · cases progress.system.write path (Text.encode text) <;> rfl
  · rfl

theorem run_sourceDirectory (path : Path) :
    (sourceDirectory path).run.run progress =
      if progress.system.isDirectory path then
        (.ok (), progress)
      else
        match progress.system.createDirectory path with
        | .ok created => (.ok (), { progress with system := created })
        | .error _ => (.error .sourceDirectoryRefused, progress) := by
  change (if progress.system.isDirectory path then pure ()
    else
      match progress.system.createDirectory path with
      | .ok created => setSystem created
      | .error _ => throw .sourceDirectoryRefused : Step Unit).run.run progress = _
  cases progress.system.isDirectory path
  · cases progress.system.createDirectory path <;> rfl
  · rfl

end Steps

/-- A file is at a path, because it was there before or because it has been written. -/
inductive Filed (path : Path) (text : String) : FileSystem → FileSystem → Prop where
  | kept {system : FileSystem} (there : system.isFile path = true) : Filed path text system system
  | written {system after : FileSystem} (absent : system.isFile path = false)
      (done : system.write path (Text.encode text) = some after) : Filed path text system after

/-- A directory is at a path, because it was there before or because it has been created. -/
inductive Housed (path : Path) : FileSystem → FileSystem → Prop where
  | kept {system : FileSystem} (there : system.isDirectory path = true) : Housed path system system
  | created {system after : FileSystem} (absent : system.isDirectory path = false)
      (done : system.createDirectory path = .ok after) : Housed path system after

/-- The file systems that a package goes through while it is made. -/
structure Made (path : Path) (name : String) (system prepared described housed after : FileSystem) :
    Prop where
  named : packageName path = .ok name
  prepares : system.createDirectories path = (prepared, true)
  describes : Filed (manifestPath path) (Manifest.freshText name) prepared described
  houses : Housed (sourcePath path) described housed
  files : Filed (programPath path) programText housed after

section Success

variable {First Second : Type} {progress after : Progress}

theorem bind_eq_ok {first : Step First} {rest : First → Step Second} {result : Second} :
    (first >>= rest).run.run progress = (.ok result, after) ↔
      ∃ value middle, first.run.run progress = (.ok value, middle) ∧
        (rest value).run.run middle = (.ok result, after) := by
  rw [run_bind]
  rcases first.run.run progress with ⟨problem | value, middle⟩
  · constructor
    · nofun
    · rintro ⟨_, _, ⟨⟩, _⟩
  · constructor
    · intro done
      exact ⟨value, middle, rfl, done⟩
    · rintro ⟨_, _, ⟨⟩, done⟩
      exact done

theorem filed_of_run {path : Path} {text warning : String} {problem : Problem} {result : Unit}
    (done : (file path text warning problem).run.run progress = (.ok result, after)) :
    Filed path text progress.system after.system := by
  rw [run_file] at done
  split at done
  next there =>
    cases done
    exact .kept there
  next absent =>
    split at done
    next written found =>
      cases done
      exact .written (Bool.eq_false_iff.mpr absent) found
    next => cases done

theorem housed_of_run {path : Path} {result : Unit}
    (done : (sourceDirectory path).run.run progress = (.ok result, after)) :
    Housed path progress.system after.system := by
  rw [run_sourceDirectory] at done
  split at done
  next there =>
    cases done
    exact .kept there
  next absent =>
    split at done
    next created found =>
      cases done
      exact .created (Bool.eq_false_iff.mpr absent) found
    next => cases done

theorem prepared_of_run {path : Path} {result : Unit}
    (done : (directory path).run.run progress = (.ok result, after)) :
    progress.system.createDirectories path = (after.system, true) := by
  rw [run_directory] at done
  rcases made : progress.system.createDirectories path with ⟨system, _ | _⟩
  · rw [made] at done
    cases done
  · rw [made] at done
    cases done
    rfl

theorem system_of_report {tag : Tag} {message : String} {result : Unit}
    (done : (report tag message).run.run progress = (.ok result, after)) :
    after.system = progress.system := by
  cases done
  rfl

/-- A package that has been made has gone through all steps. -/
theorem made_of_run {path : Path} (done : (package path).run.run progress = (.ok (), after)) :
    ∃ name prepared described housed,
      Made path name progress.system prepared described housed after.system := by
  obtain ⟨name, first, lifted, done⟩ := bind_eq_ok.mp done
  -- The name is worked out without a look at the file system.
  obtain ⟨named, rfl⟩ : packageName path = .ok name ∧ progress = first := Prod.mk.inj lifted
  obtain ⟨_, second, prepares, done⟩ := bind_eq_ok.mp done
  obtain ⟨_, third, describes, done⟩ := bind_eq_ok.mp done
  obtain ⟨_, fourth, houses, done⟩ := bind_eq_ok.mp done
  obtain ⟨_, fifth, files, reported⟩ := bind_eq_ok.mp done
  rw [system_of_report reported]
  exact ⟨name, second.system, third.system, fourth.system, named, prepared_of_run prepares,
    filed_of_run describes, housed_of_run houses, filed_of_run files⟩

theorem made_of_executeNew {system : FileSystem} {path : Path}
    (succeeded : (Command.executeNew system path).succeeded = true) :
    ∃ name prepared described housed,
      Made path name system prepared described housed (Command.executeNew system path).system := by
  unfold Command.executeNew at succeeded ⊢
  split at succeeded
  next progress done => exact made_of_run done
  next => cases succeeded

end Success

section Growth

variable {path : Path} {text name : String}
variable {system prepared described housed after : FileSystem}

/-- A file is written only where nothing was. -/
theorem Filed.grown (filed : Filed path text system after) : Extends after system := by
  cases filed with
  | kept => exact .refl system
  | written absent done =>
      obtain ⟨location, -, vacant, rfl⟩ := FileSystem.vacant_of_write absent done
      exact FileSystem.extends_put _ vacant

/-- A file that was not there has the given text, and no other file is added. -/
theorem Filed.entry (filed : Filed path text system after) {location : Location}
    (located : system.locate path = .ok location)
    (vacant : ∀ contents, system.lookup location ≠ some (.file contents)) :
    after.lookup location = some (.file (Text.encode text)) ∧
      ∀ other, other ≠ location → after.lookup other = system.lookup other := by
  cases filed with
  | kept there =>
      rw [FileSystem.isFile, FileSystem.entry?_of_locate located] at there
      split at there
      next contents found => exact absurd found (vacant contents)
      next => cases there
  | written absent done =>
      obtain ⟨place, found, noDirectory, rfl⟩ := FileSystem.write_eq_some done
      cases found.symm.trans located
      constructor
      · rw [FileSystem.lookup_put noDirectory, if_pos rfl]
      · intro other different
        rw [FileSystem.lookup_put noDirectory, if_neg different]

theorem Housed.furnished (housed : Housed path system after) : Furnished after system := by
  cases housed with
  | kept => exact .refl system
  | created _ done => exact FileSystem.furnished_createDirectory done

theorem Housed.isDirectory (housed : Housed path system after) : after.isDirectory path = true := by
  cases housed with
  | kept there => exact there
  | created _ done => exact FileSystem.isDirectory_of_createDirectory done

/-- A package that has a name is at a path that says something. -/
theorem segments_ne_nil (named : packageName path = .ok name) : path.segments ≠ [] := by
  intro empty
  have unnamed : path.fileName? = none := by
    simp [Path.fileName?, Path.trimmed, Path.dropIdle, empty]
  simp [packageName, unnamed] at named

variable (made : Made path name system prepared described housed after)
include made

theorem Made.furnished : Furnished prepared system := by
  have furnished := FileSystem.furnished_createDirectories system path
  rwa [made.prepares] at furnished

theorem Made.isDirectory : prepared.isDirectory path = true := by
  have done : (system.createDirectories path).2 = true := by rw [made.prepares]
  have directory :=
    FileSystem.isDirectory_of_createDirectories (.inr (segments_ne_nil made.named)) done
  rwa [made.prepares] at directory

theorem Made.grownHoused : Extends housed prepared :=
  made.houses.furnished.toExtends.trans made.describes.grown

/-- What was in the directory of the package is still there. -/
theorem Made.grown : Extends after prepared :=
  made.files.grown.trans made.grownHoused

end Growth

section Places

variable {path : Path} {system : FileSystem} {location : Location}

theorem names_manifest : Names (Text.encode Manifest.fileName) :=
  ⟨by decide, by decide, by decide⟩

theorem names_source : Names (Text.encode Manifest.sourceName) :=
  ⟨by decide, by decide, by decide⟩

theorem names_program : Names (Text.encode Manifest.entrypointName) :=
  ⟨by decide, by decide, by decide⟩

/-- The places that a package's manifest, sources and program have in its directory. -/
def manifestPlace (location : Location) : Location :=
  location ++ [Text.encode Manifest.fileName]

def sourcePlace (location : Location) : Location :=
  location ++ [Text.encode Manifest.sourceName]

def programPlace (location : Location) : Location :=
  sourcePlace location ++ [Text.encode Manifest.entrypointName]

theorem programPlace_ne (location : Location) : programPlace location ≠ manifestPlace location := by
  intro same
  have length := congrArg List.length same
  simp [programPlace, sourcePlace, manifestPlace] at length

theorem locate_manifestPath (located : system.locate path = .ok location)
    (directory : system.lookup location = some .directory) :
    system.locate (manifestPath path) = .ok (manifestPlace location) :=
  FileSystem.locate_join names_manifest located directory

theorem locate_sourcePath (located : system.locate path = .ok location)
    (directory : system.lookup location = some .directory) :
    system.locate (sourcePath path) = .ok (sourcePlace location) :=
  FileSystem.locate_join names_source located directory

theorem locate_programPath (located : system.locate path = .ok location)
    (directory : system.lookup location = some .directory)
    (sources : system.lookup (sourcePlace location) = some .directory) :
    system.locate (programPath path) = .ok (programPlace location) :=
  FileSystem.locate_join names_program (locate_sourcePath located directory) sources

end Places

/-- Nothing was before at the places that a package's manifest and program have afterwards. -/
def Vacant (before after : FileSystem) (path : Path) : Prop :=
  ∀ file ∈ [manifestPath path, programPath path], ∀ location,
    after.locate file = .ok location → before.lookup location = none

section Contents

variable {path : Path} {name : String}
variable {system prepared described housed after : FileSystem}

/-- A package is in a directory, from which its files are found once they can be written. -/
theorem Made.places (made : Made path name system prepared described housed after) :
    ∃ location, prepared.locate path = .ok location ∧
      prepared.lookup location = some .directory ∧
      prepared.locate (manifestPath path) = .ok (manifestPlace location) ∧
      housed.locate (programPath path) = .ok (programPlace location) := by
  obtain ⟨location, located, directory⟩ := FileSystem.isDirectory_iff.mp made.isDirectory
  have grown := made.grownHoused
  have locatedLater := grown.locate located
  have directoryLater := grown.kept _ _ directory
  have sources := made.houses.isDirectory
  rw [FileSystem.isDirectory, decide_eq_true_iff,
    FileSystem.entry?_of_locate (locate_sourcePath locatedLater directoryLater)] at sources
  exact ⟨location, located, directory, locate_manifestPath located directory,
    locate_programPath locatedLater directoryLater sources⟩

/-- A package whose places were vacant has the files that were meant for it. -/
theorem Made.contents (made : Made path name system prepared described housed after)
    (vacant : Vacant system after path) :
    after.isDirectory path = true ∧
    after.entry? (manifestPath path) = some (.file (Text.encode (Manifest.freshText name))) ∧
    after.entry? (programPath path) = some (.file (Text.encode programText)) := by
  obtain ⟨location, located, directory, manifestLocated, programLocated⟩ := made.places
  have grown := made.grown
  have later := made.files.grown
  have noManifest : system.lookup (manifestPlace location) = none :=
    vacant _ (by simp) _ (grown.locate manifestLocated)
  have noProgram : system.lookup (programPlace location) = none :=
    vacant _ (by simp) _ (later.locate programLocated)
  obtain ⟨manifest, others⟩ := made.describes.entry manifestLocated (by
    intro contents found
    cases noManifest.symm.trans (made.furnished.files _ contents found))
  obtain ⟨program, -⟩ := made.files.entry programLocated (by
    intro contents found
    have described := made.houses.furnished.files _ contents found
    rw [others _ (programPlace_ne location)] at described
    cases noProgram.symm.trans (made.furnished.files _ contents described))
  refine ⟨?_, ?_, ?_⟩
  · exact grown.isDirectory made.isDirectory
  · rw [FileSystem.entry?_of_locate (grown.locate manifestLocated)]
    exact (later.trans made.houses.furnished.toExtends).kept _ _ manifest
  · rw [FileSystem.entry?_of_locate (later.locate programLocated)]
    exact program

/-- In a tree, a path that does not go up leads to vacant places if it led to nothing there. -/
theorem Made.vacant (made : Made path name system prepared described housed after)
    (tree : system.IsTree) (down : Segment.dotDot ∉ path.segments)
    (noManifest : system.entry? (manifestPath path) = none)
    (noProgram : system.entry? (programPath path) = none) : Vacant system after path := by
  obtain ⟨location, located, directory, manifestLocated, programLocated⟩ := made.places
  -- Had there been anything, then the path would have led to its directory before.
  have locatedBefore (there : system.lookup location = some .directory) :
      system.locate path = .ok location :=
    tree.locate made.furnished.toExtends down there located
  intro file inside place found
  rw [List.mem_pair] at inside
  refine Option.eq_none_iff_forall_ne_some.mpr ?_
  rintro entry there
  rcases inside with rfl | rfl
  · cases found.symm.trans (made.grown.locate manifestLocated)
    have above := tree _ _ _ there
    have before := locate_manifestPath (locatedBefore above) above
    rw [FileSystem.entry?_of_locate before, there] at noManifest
    cases noManifest
  · cases found.symm.trans (made.files.grown.locate programLocated)
    have inner := tree _ _ _ there
    have above := tree _ _ _ inner
    have before := locate_programPath (locatedBefore above) above inner
    rw [FileSystem.entry?_of_locate before, there] at noProgram
    cases noProgram

end Contents

end Scaffold

end Intcode
