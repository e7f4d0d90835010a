/-
This file shows which manifest the search for one takes. It looks in a path, in the
parent of that, and so on, and takes the first manifest that it comes to, even one
that can not be used.
-/

import Intcode.Proofs.Invocation

namespace Intcode

namespace Path

/-- Parents lead from a path to another, and these are the paths on the way before it. -/
inductive Climbs : Path → List Path → Path → Prop where
  | here (path : Path) : Climbs path [] path
  | up {path parent last : Path} {passed : List Path} (above : path.parent? = some parent)
      (later : Climbs parent passed last) : Climbs path (path :: passed) last

variable {path parent last : Path} {passed : List Path}

theorem ancestors_of_parent (above : path.parent? = some parent) :
    path.ancestors = path :: parent.ancestors := by
  rw [ancestors]
  split
  next none => cases none.symm.trans above
  next other found =>
    cases found.symm.trans above
    rfl

theorem ancestors_of_top (top : path.parent? = none) : path.ancestors = [path] := by
  rw [ancestors]
  split
  next => rfl
  next other found => cases found.symm.trans top

/-- A path is the first of its ancestors. -/
theorem ancestors_eq_cons (path : Path) : ∃ above, path.ancestors = path :: above := by
  cases found : path.parent? with
  | none => exact ⟨[], ancestors_of_top found⟩
  | some parent => exact ⟨parent.ancestors, ancestors_of_parent found⟩

theorem Climbs.ancestors (climbs : Climbs path passed last) :
    path.ancestors = passed ++ last.ancestors := by
  induction climbs with
  | here => rfl
  | up above _ inductionHypothesis =>
      rw [ancestors_of_parent above, inductionHypothesis, List.cons_append]

/-- What holds of a path without a parent, and of a path if it holds of its parent, holds of every
path. -/
@[elab_as_elim]
theorem parentInduction {motive : Path → Prop}
    (top : ∀ path, path.parent? = none → motive path)
    (up : ∀ path parent, path.parent? = some parent → motive parent → motive path)
    (path : Path) : motive path := by
  cases found : path.parent? with
  | none => exact top path found
  | some parent =>
      have shorter := length_parent? found
      exact up path parent found (parentInduction top up parent)
termination_by path.segments.length

/-- The way up leads to each ancestor. -/
theorem climbs_of_mem_ancestors {path other : Path} (inside : other ∈ path.ancestors) :
    ∃ passed, Climbs path passed other := by
  induction path using parentInduction with
  | top path highest =>
      rw [ancestors_of_top highest, List.mem_singleton] at inside
      exact ⟨[], inside ▸ .here path⟩
  | up path parent above inductionHypothesis =>
      rw [ancestors_of_parent above] at inside
      rcases List.mem_cons.mp inside with rfl | inside
      · exact ⟨[], .here other⟩
      · obtain ⟨passed, climbs⟩ := inductionHypothesis inside
        exact ⟨path :: passed, .up above climbs⟩

theorem parent_mem_ancestors {path other parent : Path} (inside : other ∈ path.ancestors)
    (above : other.parent? = some parent) : parent ∈ path.ancestors := by
  obtain ⟨passed, climbs⟩ := climbs_of_mem_ancestors inside
  obtain ⟨higher, first⟩ := parent.ancestors_eq_cons
  rw [climbs.ancestors, ancestors_of_parent above, first]
  simp

/-- The way up comes to an end. -/
theorem exists_top (path : Path) : ∃ passed top, Climbs path passed top ∧ top.parent? = none := by
  induction path using parentInduction with
  | top path highest => exact ⟨[], path, .here path, highest⟩
  | up path parent above inductionHypothesis =>
      obtain ⟨passed, top, climbs, highest⟩ := inductionHypothesis
      exact ⟨path :: passed, top, .up above climbs, highest⟩

end Path

namespace Manifest

variable {system : FileSystem} {path directory : Path}

/-- Something has the name of a manifest in a directory, so that it can be opened. -/
def Present (system : FileSystem) (directory : Path) : Prop :=
  ∃ entry, system.entry? (inDirectory directory) = some entry

/-- The first directory on the way up in which something has the name of a manifest. -/
def Nearest (system : FileSystem) (path directory : Path) : Prop :=
  ∃ passed, path.Climbs passed directory ∧ (∀ other ∈ passed, ¬ Present system other) ∧
    Present system directory

/-- What is made of the thing with the name of a manifest in a directory. -/
inductive Holds (system : FileSystem) (directory : Path) : Except Problem Manifest → Prop where
  | directory (found : system.entry? (inDirectory directory) = some .directory) :
      Holds system directory (.error .unreadable)
  | notText {contents : List UInt8}
      (found : system.entry? (inDirectory directory) = some (.file contents))
      (illFormed : Text.decode? contents = none) : Holds system directory (.error .unreadable)
  | text {contents : List UInt8} {text : String}
      (found : system.entry? (inDirectory directory) = some (.file contents))
      (wellFormed : Text.decode? contents = some text) : Holds system directory (parse text)

theorem Present.isSome (present : Present system directory) :
    (system.entry? (inDirectory directory)).isSome = true :=
  Option.isSome_iff_exists.mpr present

/-- Whatever has the name of a manifest is read in one way. -/
theorem Present.holds (present : Present system directory) :
    Holds system directory (read system (inDirectory directory)) := by
  obtain ⟨contents | _, found⟩ := present
  · cases decoded : Text.decode? contents with
    | none =>
        have unread : read system (inDirectory directory) = .error .unreadable := by
          simp [read, FileSystem.readText?, found, decoded]
        exact unread ▸ .notText found decoded
    | some text =>
        have parsed : read system (inDirectory directory) = parse text := by
          simp [read, FileSystem.readText?, found, decoded]
        exact parsed ▸ .text found decoded
  · have unread : read system (inDirectory directory) = .error .unreadable := by
      simp [read, FileSystem.readText?, found]
    exact unread ▸ .directory found

theorem Holds.eq_read {outcome : Except Problem Manifest} (holds : Holds system directory outcome) :
    outcome = read system (inDirectory directory) := by
  cases holds with
  | directory found => simp [read, FileSystem.readText?, found]
  | notText found illFormed => simp [read, FileSystem.readText?, found, illFormed]
  | text found wellFormed => simp [read, FileSystem.readText?, found, wellFormed]

/-- Directories without a manifest are passed. -/
theorem searchIn_append {passed : List Path} (absent : ∀ other ∈ passed, ¬ Present system other)
    (rest : List Path) : searchIn system (passed ++ rest) = searchIn system rest := by
  induction passed with
  | nil => rfl
  | cons first passed inductionHypothesis =>
      obtain ⟨missing, absent⟩ := List.forall_mem_cons.mp absent
      rw [List.cons_append, searchIn, if_neg (mt Option.isSome_iff_exists.mp missing)]
      exact inductionHypothesis absent

theorem Nearest.present (nearest : Nearest system path directory) : Present system directory :=
  nearest.choose_spec.2.2

theorem Nearest.search_eq (nearest : Nearest system path directory) :
    search system path = (read system (inDirectory directory)).map (·, directory) := by
  obtain ⟨passed, climbs, absent, present⟩ := nearest
  obtain ⟨above, first⟩ := directory.ancestors_eq_cons
  rw [search, climbs.ancestors, searchIn_append absent, first, searchIn, if_pos present.isSome]

theorem search_eq_notFound
    (absent : ∀ passed directory, path.Climbs passed directory → ¬ Present system directory) :
    search system path = .error .notFound := by
  have missing : ∀ other ∈ path.ancestors, ¬ Present system other := by
    intro other inside
    obtain ⟨passed, climbs⟩ := Path.climbs_of_mem_ancestors inside
    exact absent passed other climbs
  have searched := searchIn_append missing []
  rwa [List.append_nil] at searched

/-- There is a nearest manifest, or there is none on the whole way up. -/
theorem nearest_or_absent (system : FileSystem) (path : Path) :
    (∃ directory, Nearest system path directory) ∨
      ∀ passed directory, path.Climbs passed directory → ¬ Present system directory := by
  induction path using Path.parentInduction with
  | top path highest =>
      by_cases present : Present system path
      · exact .inl ⟨path, [], .here path, nofun, present⟩
      · right
        rintro passed directory (_ | ⟨above, _⟩)
        · exact present
        · cases highest.symm.trans above
  | up path parent above inductionHypothesis =>
      by_cases present : Present system path
      · exact .inl ⟨path, [], .here path, nofun, present⟩
      rcases inductionHypothesis with ⟨directory, passed, climbs, absent, there⟩ | absent
      · exact .inl ⟨directory, path :: passed, .up above climbs,
          List.forall_mem_cons.mpr ⟨present, absent⟩, there⟩
      · right
        rintro passed directory (_ | ⟨other, later⟩)
        · exact present
        · cases above.symm.trans other
          exact absent _ directory later

/-- A search succeeds if the nearest manifest can be used. -/
theorem search_eq_ok {manifest : Manifest} {root : Path} :
    search system path = .ok (manifest, root) ↔
      Nearest system path root ∧ Holds system root (.ok manifest) := by
  constructor
  · intro found
    rcases nearest_or_absent system path with ⟨directory, nearest⟩ | absent
    · rw [nearest.search_eq] at found
      have holds := nearest.present.holds
      cases outcome : read system (inDirectory directory) with
      | error problem =>
          rw [outcome] at found
          cases found
      | ok manifest =>
          rw [outcome] at found holds
          cases found
          exact ⟨nearest, holds⟩
    · cases (search_eq_notFound absent).symm.trans found
  · rintro ⟨nearest, holds⟩
    rw [nearest.search_eq, ← holds.eq_read]
    rfl

/-- A directory is resolved as the search for a manifest goes. -/
theorem resolve_directory (directory : system.isDirectory path = true) (further : List Cell)
    (dump : Bool) :
    Task.resolve system path further dump =
      match search system path with
      | .ok (manifest, root) => .ok (Task.ofManifest manifest root further dump)
      | .error problem => .error (.noManifest problem) := by
  rewrite [Task.resolve, FileSystem.isFile_of_isDirectory directory, if_neg (by decide),
    if_pos directory]
  rfl

theorem resolve_eq_ok (directory : system.isDirectory path = true) {further : List Cell}
    {dump : Bool} {task : Task} :
    Task.resolve system path further dump = .ok task ↔
      ∃ root manifest, Nearest system path root ∧ Holds system root (.ok manifest) ∧
        task = Task.ofManifest manifest root further dump := by
  rw [resolve_directory directory]
  constructor
  · intro resolved
    cases searched : search system path with
    | error problem =>
        rw [searched] at resolved
        cases resolved
    | ok found =>
        rw [searched] at resolved
        cases resolved
        obtain ⟨nearest, holds⟩ := search_eq_ok.mp searched
        exact ⟨found.2, found.1, nearest, holds, rfl⟩
  · rintro ⟨root, manifest, nearest, holds, rfl⟩
    rw [search_eq_ok.mpr ⟨nearest, holds⟩]

/-- The search looks in a path, in its parent and so on, until there is no parent. It takes the
first manifest that it comes to, and fails if that one can not be read or used, or if it comes to
none. A directory is resolved by the search, and a file without it. -/
theorem search_takes_nearest (system : FileSystem) (path : Path) :
    (∃ passed top, path.Climbs passed top ∧ top.parent? = none) ∧
    (∀ directory, Nearest system path directory →
      (∃ outcome, Holds system directory outcome) ∧
      ∀ outcome, Holds system directory outcome →
        search system path = outcome.map (·, directory)) ∧
    ((∃ directory, Nearest system path directory) ∨
      (∀ passed directory, path.Climbs passed directory → ¬ Present system directory) ∧
        (search system path).mapError Problem.message =
          .error "The manifest file could not be found") ∧
    Problem.unreadable.message = "The manifest file could not be read" ∧
    ∀ further dump,
      (system.isDirectory path = true →
        (∀ task, Task.resolve system path further dump = .ok task ↔
          ∃ directory manifest, Nearest system path directory ∧
            Holds system directory (.ok manifest) ∧
            task =
              { file := (directory.join (.ofString "src")).join (.ofString manifest.run.entrypoint)
                input := manifest.run.input ++ further
                dump := dump || manifest.run.dump }) ∧
        ∀ problem, search system path = .error problem →
          (Task.resolve system path further dump).mapError Task.Problem.message =
            .error problem.message) ∧
      (system.isFile path = true →
        Task.resolve system path further dump = .ok ⟨path, further, dump⟩) ∧
      (system.isDirectory path = false → system.isFile path = false →
        (Task.resolve system path further dump).mapError Task.Problem.message =
          .error ("No program or package found at '" ++ path.render ++ "'")) := by
  refine ⟨path.exists_top, ?_, ?_, rfl, ?_⟩
  · intro directory nearest
    refine ⟨⟨_, nearest.present.holds⟩, ?_⟩
    intro outcome holds
    rw [nearest.search_eq, holds.eq_read]
  · rcases nearest_or_absent system path with nearest | absent
    · exact .inl nearest
    · refine .inr ⟨absent, ?_⟩
      rw [search_eq_notFound absent]
      rfl
  · intro further dump
    refine ⟨?_, Task.resolve_of_isFile further dump, ?_⟩
    · intro directory
      refine ⟨fun task => resolve_eq_ok directory, ?_⟩
      intro problem failed
      rw [resolve_directory directory, failed]
      rfl
    · intro noDirectory noFile
      simp only [Task.resolve, noDirectory, noFile, Bool.false_eq_true, if_false]
      rfl

/-- A package inside another one has a manifest that can not be used, and the outer one does not
stand in for it. -/
theorem broken_manifest_is_not_skipped :
    let outer := "[package]\nname='o'\nversion='1.0.0'\nauthors=[]"
    let system : FileSystem :=
      { entries :=
          [([Text.encode "o"], .directory),
           ([Text.encode "o", Text.encode "intcode.toml"], .file (Text.encode outer)),
           ([Text.encode "o", Text.encode "i"], .directory),
           ([Text.encode "o", Text.encode "i", Text.encode "intcode.toml"],
            .file (Text.encode "name")),
           ([Text.encode "o", Text.encode "i", Text.encode "src"], .directory)]
        workingDirectory := [] }
    let path := Path.ofString "o/i/src"
    Nearest system path (.ofString "o/i") ∧ search system path = .error .malformed ∧
      Task.resolve system path [] false = .error (.noManifest .malformed) ∧
      (Task.resolve system (.ofString "o") [] false).isOk = true := by
  intro outer system path
  have absent : ∀ other ∈ [path], ¬ Present system other := by
    rw [List.forall_mem_singleton]
    rintro ⟨entry, found⟩
    have missing : system.entry? (inDirectory path) = none := by decide +kernel
    cases missing.symm.trans found
  have there : system.entry? (inDirectory (.ofString "o/i")) =
      some (.file (Text.encode "name")) := by
    decide +kernel
  have nearest : Nearest system path (.ofString "o/i") :=
    ⟨[path], .up (by decide) (.here _), absent, _, there⟩
  have holds := Holds.text there (Text.decode?_encode "name")
  have malformed : parse "name" = .error .malformed := by decide +kernel
  have searched := ((search_takes_nearest system path).2.1 _ nearest).2 _ holds
  rw [malformed] at searched
  have directory : system.isDirectory path = true := by decide +kernel
  refine ⟨nearest, searched, ?_, by decide +kernel⟩
  rw [resolve_directory directory, searched]
  rfl

end Manifest

end Intcode
