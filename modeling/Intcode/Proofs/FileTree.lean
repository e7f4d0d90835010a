/-
This file shows what the operations on file systems do. What was there stays, and what
they add is the directories on the way to a path, or a file at its end.
-/

import Intcode.FileSystem
import Intcode.Proofs.Evaluation
import Mathlib.Data.List.TakeWhile

namespace Intcode.FileSystem

section Lookup

variable {system : FileSystem} {location other : Location} {entry : Entry}

theorem lookup_filter_ne (entries : List (Location × Entry)) (different : other ≠ location) :
    (entries.filter fun (place, _) => place != location).lookup other = entries.lookup other := by
  induction entries with
  | nil => rfl
  | cons first entries inductionHypothesis =>
      obtain ⟨place, entry⟩ := first
      by_cases removed : place = location
      · simp [removed, List.lookup_cons, inductionHypothesis, beq_false_of_ne different]
      · simp [removed, List.lookup_cons, inductionHypothesis]

/-- Only the entry that is put changes. The root can not be replaced. -/
theorem lookup_put (free : system.lookup location ≠ some .directory) (entry : Entry)
    (other : Location) :
    (system.put location entry).lookup other =
      if other = location then some entry else system.lookup other := by
  have below : location ≠ [] := by
    rintro rfl
    exact free rfl
  by_cases same : other = location
  · subst same
    simp [lookup, put, below]
  · have others := lookup_filter_ne system.entries same
    simp [lookup, put, same, List.lookup_cons, beq_false_of_ne same, others]

end Lookup

/-- Everything that one file system has is in another, with the same working directory. -/
structure Extends (later earlier : FileSystem) : Prop where
  workingDirectory : later.workingDirectory = earlier.workingDirectory
  kept : ∀ location entry, earlier.lookup location = some entry → later.lookup location = some entry

section Extends

variable {earlier middle later system : FileSystem}

theorem Extends.refl (system : FileSystem) : Extends system system :=
  ⟨rfl, fun _ _ found => found⟩

theorem Extends.trans (second : Extends later middle) (first : Extends middle earlier) :
    Extends later earlier where
  workingDirectory := second.workingDirectory.trans first.workingDirectory
  kept location entry found := second.kept location entry (first.kept location entry found)

/-- What is put where nothing was replaces nothing. -/
theorem extends_put {location : Location} (entry : Entry) (absent : system.lookup location = none) :
    Extends (system.put location entry) system where
  workingDirectory := rfl
  kept other found there := by
    have different : other ≠ location := by
      rintro rfl
      cases absent.symm.trans there
    rw [lookup_put (by simp [absent]) entry other, if_neg different, there]

/-- The place that one segment leads to from a directory. -/
def stepFrom (location : Location) (segment : Segment) : Except Obstacle Location :=
  if segment.isIdle then .ok location
  else if segment = Segment.dotDot then .ok location.dropLast
  else if nameLimit < segment.length then .error .nameTooLong
  else .ok (location ++ [segment])

theorem enter_eq_ok {location next : Location} {segment : Segment} :
    system.enter location segment = .ok next ↔
      system.lookup location = some .directory ∧ stepFrom location segment = .ok next := by
  unfold enter stepFrom
  cases system.lookup location with
  | none => simp
  | some entry => cases entry <;> simp

theorem Extends.enter (grown : Extends later earlier) {location next : Location}
    {segment : Segment} (entered : earlier.enter location segment = .ok next) :
    later.enter location segment = .ok next := by
  obtain ⟨directory, stepped⟩ := enter_eq_ok.mp entered
  exact enter_eq_ok.mpr ⟨grown.kept _ _ directory, stepped⟩

theorem Extends.walk (grown : Extends later earlier) {segments : List Segment}
    {start last : Location} (walked : segments.foldlM earlier.enter start = .ok last) :
    segments.foldlM later.enter start = .ok last := by
  induction segments generalizing start with
  | nil => exact walked
  | cons segment segments inductionHypothesis =>
      rw [List.foldlM_cons] at walked ⊢
      obtain ⟨next, entered, walked⟩ := bind_eq_ok.mp walked
      exact bind_eq_ok.mpr ⟨next, grown.enter entered, inductionHypothesis walked⟩

theorem Extends.follow (grown : Extends later earlier) {path : Path} {segments : List Segment}
    {location : Location} (followed : earlier.follow path segments = .ok location) :
    later.follow path segments = .ok location := by
  unfold FileSystem.follow at followed ⊢
  rw [grown.workingDirectory]
  exact grown.walk followed

/-- A path leads to the same place. -/
theorem Extends.locate (grown : Extends later earlier) {path : Path} {location : Location}
    (located : earlier.locate path = .ok location) : later.locate path = .ok location := by
  unfold FileSystem.locate at located ⊢
  split at located
  next present => rw [if_pos present, grown.follow located]
  next => cases located

theorem entry?_of_locate {path : Path} {location : Location}
    (located : system.locate path = .ok location) :
    system.entry? path = system.lookup location := by
  unfold entry?
  rw [located]

theorem entry?_eq_some {path : Path} {entry : Entry} :
    system.entry? path = some entry ↔
      ∃ location, system.locate path = .ok location ∧ system.lookup location = some entry := by
  unfold entry?
  cases system.locate path <;> simp

theorem isDirectory_iff {path : Path} :
    system.isDirectory path = true ↔
      ∃ location, system.locate path = .ok location ∧ system.lookup location = some .directory := by
  rw [← entry?_eq_some, isDirectory, decide_eq_true_iff]

theorem isFile_iff {path : Path} :
    system.isFile path = true ↔ ∃ contents, system.entry? path = some (.file contents) := by
  unfold isFile
  split
  next contents found => simp [found]
  next other => simpa using other

/-- A path leads to the same thing. -/
theorem Extends.entry? (grown : Extends later earlier) {path : Path} {entry : Entry}
    (found : earlier.entry? path = some entry) : later.entry? path = some entry := by
  obtain ⟨location, located, there⟩ := entry?_eq_some.mp found
  exact entry?_eq_some.mpr ⟨location, grown.locate located, grown.kept _ _ there⟩

theorem Extends.isFile (grown : Extends later earlier) {path : Path}
    (there : earlier.isFile path = true) : later.isFile path = true := by
  obtain ⟨contents, found⟩ := isFile_iff.mp there
  exact isFile_iff.mpr ⟨contents, grown.entry? found⟩

theorem Extends.isDirectory (grown : Extends later earlier) {path : Path}
    (there : earlier.isDirectory path = true) : later.isDirectory path = true := by
  rw [FileSystem.isDirectory, decide_eq_true_iff] at there ⊢
  exact grown.entry? there

end Extends

section Walks

variable {system : FileSystem} {path : Path} {location start : Location}

/-- A walk goes on where its first part ends. -/
theorem follow_append {first second : List Segment} :
    system.follow path (first ++ second) = .ok location ↔
      ∃ middle, system.follow path first = .ok middle ∧
        second.foldlM system.enter middle = .ok location := by
  unfold follow
  rw [List.foldlM_append, bind_eq_ok]

theorem walk_single {segment : Segment} :
    [segment].foldlM system.enter start = .ok location ↔
      system.enter start segment = .ok location := by
  rw [List.foldlM_cons, bind_eq_ok]
  simp [pure, Except.pure]

/-- Idle segments lead from a directory to itself. -/
theorem walk_idle {idle : List Segment} (directory : system.lookup location = some .directory)
    (stays : ∀ segment ∈ idle, segment.isIdle = true) :
    idle.foldlM system.enter location = .ok location := by
  induction idle with
  | nil => rfl
  | cons segment idle inductionHypothesis =>
      obtain ⟨first, stays⟩ := List.forall_mem_cons.mp stays
      have entered : system.enter location segment = .ok location :=
        enter_eq_ok.mpr ⟨directory, by simp [stepFrom, first]⟩
      rw [List.foldlM_cons, entered, ok_bind, inductionHypothesis stays]

/-- Idle segments lead nowhere else. -/
theorem eq_of_walk_idle {idle : List Segment} (stays : ∀ segment ∈ idle, segment.isIdle = true)
    (walked : idle.foldlM system.enter start = .ok location) : start = location := by
  induction idle with
  | nil =>
      cases walked
      rfl
  | cons segment idle inductionHypothesis =>
      obtain ⟨first, stays⟩ := List.forall_mem_cons.mp stays
      rw [List.foldlM_cons] at walked
      obtain ⟨next, entered, walked⟩ := bind_eq_ok.mp walked
      obtain ⟨-, stepped⟩ := enter_eq_ok.mp entered
      rw [stepFrom, if_pos first] at stepped
      cases stepped
      exact inductionHypothesis stays walked

/-- Paths that say something lead where their segments do. -/
theorem locate_eq_ok :
    system.locate path = .ok location ↔
      (path.absolute = true ∨ path.segments ≠ []) ∧
        system.follow path path.segments = .ok location := by
  unfold locate
  split
  next said => simp_all
  next unsaid => simp_all

end Walks

section Directories

variable {system created : FileSystem} {path : Path}

/-- Segments that are cut off at the end of a path, all of one kind. -/
theorem exists_append_trailing (trails : Segment → Bool) (segments : List Segment) :
    ∃ trailing, segments = (segments.reverse.dropWhile trails).reverse ++ trailing ∧
      ∀ segment ∈ trailing, trails segment = true := by
  refine ⟨(segments.reverse.takeWhile trails).reverse, ?_, ?_⟩
  · rw [← List.reverse_append, List.takeWhile_append_dropWhile, List.reverse_reverse]
  · intro segment inside
    exact List.mem_takeWhile_imp (List.mem_reverse.mp inside)

/-- A directory that is created was not there, and then its path leads to it. -/
theorem createDirectory_eq_ok (done : system.createDirectory path = .ok created) :
    ∃ location, system.lookup location = none ∧ created = system.put location .directory ∧
      created.locate path = .ok location := by
  obtain ⟨empty, whole, isEmpty⟩ := exists_append_trailing (· == []) path.segments
  unfold createDirectory at done
  dsimp only at done
  generalize (path.segments.reverse.dropWhile (· == [])).reverse = segments at whole done
  split at done
  next => cases done
  next last found =>
    obtain ⟨parent, followed, done⟩ := bind_eq_ok.mp done
    obtain ⟨location, entered, done⟩ := bind_eq_ok.mp done
    split at done
    next => cases done
    next absent =>
      cases done
      have vacant : system.lookup location = none := by
        simpa using (not_or.mp (not_or.mp absent).2).2
      have grown := extends_put .directory vacant
      have there : (system.put location .directory).lookup location = some .directory := by
        rw [lookup_put (by simp [vacant]), if_pos rfl]
      have cut : path.segments = segments.dropLast ++ [last] ++ empty := by
        rw [List.dropLast_append_getLast? last found, whole]
      refine ⟨location, vacant, rfl, locate_eq_ok.mpr ⟨.inr (by simp [cut]), ?_⟩⟩
      rw [cut]
      refine follow_append.mpr ⟨location, follow_append.mpr ⟨parent, ?_, ?_⟩, ?_⟩
      · exact grown.follow followed
      · exact walk_single.mpr (grown.enter entered)
      · exact walk_idle there fun segment inside => by rw [eq_of_beq (isEmpty segment inside)]; rfl

theorem isDirectory_of_createDirectory (done : system.createDirectory path = .ok created) :
    created.isDirectory path = true := by
  obtain ⟨location, vacant, rfl, located⟩ := createDirectory_eq_ok done
  refine isDirectory_iff.mpr ⟨location, located, ?_⟩
  rw [lookup_put (by simp [vacant]), if_pos rfl]

/-- What is added to a file system is directories. -/
structure Furnished (later earlier : FileSystem) : Prop extends Extends later earlier where
  files : ∀ location contents, later.lookup location = some (.file contents) →
    earlier.lookup location = some (.file contents)

theorem Furnished.refl (system : FileSystem) : Furnished system system :=
  ⟨.refl system, fun _ _ found => found⟩

theorem Furnished.trans {later middle earlier : FileSystem} (second : Furnished later middle)
    (first : Furnished middle earlier) : Furnished later earlier where
  toExtends := second.toExtends.trans first.toExtends
  files location contents found :=
    first.files location contents (second.files location contents found)

theorem furnished_put {location : Location} (absent : system.lookup location = none) :
    Furnished (system.put location .directory) system where
  toExtends := extends_put .directory absent
  files other contents found := by
    rw [lookup_put (by simp [absent])] at found
    split at found
    next => cases found
    next => exact found

theorem furnished_createDirectory (done : system.createDirectory path = .ok created) :
    Furnished created system := by
  obtain ⟨location, vacant, rfl, -⟩ := createDirectory_eq_ok done
  exact furnished_put vacant

/-- Only directories are added, also if the last of them can not be created. -/
theorem furnished_createDirectories (system : FileSystem) (path : Path) :
    Furnished (system.createDirectories path).1 system := by
  fun_induction createDirectories system path with
  | case1 => exact .refl system
  | case2 path _ created done => exact furnished_createDirectory done
  | case3 => exact .refl system
  | case4 path _ _ parent _ prepared before inductionHypothesis =>
      rwa [before] at inductionHypothesis
  | case5 path _ _ parent _ prepared before created done inductionHypothesis =>
      rw [before] at inductionHypothesis
      exact (furnished_createDirectory done).trans inductionHypothesis
  | case6 path _ _ parent _ prepared before _ _ inductionHypothesis =>
      rwa [before] at inductionHypothesis
  | case7 => exact .refl system

/-- If they can all be created, the path leads to a directory. -/
theorem isDirectory_of_createDirectories (said : path.absolute = true ∨ path.segments ≠ [])
    (done : (system.createDirectories path).2 = true) :
    (system.createDirectories path).1.isDirectory path = true := by
  revert done
  fun_cases createDirectories system path with
  | case1 empty =>
      rcases said with absolute | present
      · simp [absolute] at empty
      · simp [present] at empty
  | case2 _ created made => exact fun _ => isDirectory_of_createDirectory made
  | case3 => nofun
  | case4 => nofun
  | case5 _ _ parent _ prepared _ created made => exact fun _ => isDirectory_of_createDirectory made
  | case6 => exact id
  | case7 => exact id

/-- A directory that is there is not created again. -/
theorem createDirectory_of_isDirectory
    (said : path.absolute = true ∨ ∃ segment ∈ path.segments, segment ≠ [])
    (there : system.isDirectory path = true) : system.createDirectory path = .error .exists := by
  obtain ⟨location, located, directory⟩ := isDirectory_iff.mp there
  obtain ⟨-, walked⟩ := locate_eq_ok.mp located
  obtain ⟨empty, whole, isEmpty⟩ := exists_append_trailing (· == []) path.segments
  unfold createDirectory
  dsimp only
  generalize (path.segments.reverse.dropWhile (· == [])).reverse = segments at whole
  cases found : segments.getLast? with
  | none =>
      rw [List.getLast?_eq_none_iff.mp found, List.nil_append] at whole
      have absolute : path.absolute = true := by
        rcases said with absolute | ⟨segment, inside, present⟩
        · exact absolute
        · exact absurd (eq_of_beq (isEmpty segment (whole ▸ inside))) present
      simp [absolute]
  | some last =>
      rw [whole, ← List.dropLast_append_getLast? last found] at walked
      obtain ⟨next, walked, rested⟩ := follow_append.mp walked
      obtain ⟨parent, followed, entered⟩ := follow_append.mp walked
      have same : next = location :=
        eq_of_walk_idle (fun segment inside => by rw [eq_of_beq (isEmpty segment inside)]; rfl) rested
      have taken : (system.lookup next).isSome = true := by rw [same, directory]; rfl
      dsimp only
      rw [followed, ok_bind, walk_single.mp entered, ok_bind, if_pos (.inr (.inr taken))]

/-- Empty segments alone, which no text of a path gives, lead to the working directory. -/
theorem createDirectories_of_empty {segments : List Segment}
    (isEmpty : ∀ segment ∈ segments, segment = [])
    (there : system.isDirectory ⟨false, segments⟩ = true) :
    system.createDirectories ⟨false, segments⟩ = (system, true) := by
  have cut : segments.reverse.dropWhile (· == []) = [] := by
    rw [List.dropWhile_eq_nil_iff]
    intro segment inside
    rw [isEmpty segment (List.mem_reverse.mp inside)]
    rfl
  have missing : system.createDirectory ⟨false, segments⟩ = .error .missing := by
    unfold createDirectory
    dsimp only
    rw [cut]
    rfl
  cases segments with
  | nil =>
      rw [createDirectories]
      rfl
  | cons first rest =>
      have idle : Path.dropIdle rest = [] := by
        rw [Path.dropIdle, List.reverse_eq_nil_iff, List.dropWhile_eq_nil_iff]
        intro segment inside
        rw [isEmpty segment (List.mem_cons_of_mem _ (List.mem_reverse.mp inside))]
        rfl
      have alone : Path.trimmed false (first :: rest) = [first] := by simp [Path.trimmed, idle]
      have above : (Path.mk false (first :: rest)).parent? = some ⟨false, []⟩ := by
        unfold Path.parent?
        dsimp only
        rw [alone]
        rfl
      have prepared : system.createDirectories ⟨false, []⟩ = (system, true) := by
        rw [createDirectories]
        rfl
      rw [createDirectories, if_neg (by simp), missing]
      dsimp only
      split
      next top => cases top.symm.trans above
      next parent found =>
        cases found.symm.trans above
        rw [prepared]
        dsimp only
        rw [missing, there]

/-- Directories that are there are not created again. -/
theorem createDirectories_of_isDirectory (there : system.isDirectory path = true) :
    system.createDirectories path = (system, true) := by
  by_cases said : path.absolute = true ∨ ∃ segment ∈ path.segments, segment ≠ []
  · rw [createDirectories, createDirectory_of_isDirectory said there]
    simp [there]
  · obtain ⟨absolute, segments⟩ := path
    simp only [not_or, not_exists, not_and, not_not, Bool.not_eq_true] at said
    obtain ⟨rfl, isEmpty⟩ := said
    exact createDirectories_of_empty isEmpty there

end Directories

section Writing

variable {system written : FileSystem} {path : Path} {contents : List UInt8}

/-- A file is written where its path leads, unless a directory is there. -/
theorem write_eq_some (done : system.write path contents = some written) :
    ∃ location, system.locate path = .ok location ∧
      system.lookup location ≠ some .directory ∧
      written = system.put location (.file contents) := by
  unfold write at done
  split at done
  next last location _ located =>
    split at done
    next => cases done
    next free =>
      cases done
      exact ⟨location, located, by simp_all, rfl⟩
  next => cases done

/-- A file that was not there is written where nothing was. -/
theorem vacant_of_write (absent : system.isFile path = false)
    (done : system.write path contents = some written) :
    ∃ location, system.locate path = .ok location ∧ system.lookup location = none ∧
      written = system.put location (.file contents) := by
  obtain ⟨location, located, noDirectory, put⟩ := write_eq_some done
  refine ⟨location, located, ?_, put⟩
  rw [isFile, entry?_of_locate located] at absent
  cases found : system.lookup location with
  | none => rfl
  | some entry =>
      rw [found] at absent noDirectory
      cases entry with
      | file => cases absent
      | directory => exact absurd rfl noDirectory

end Writing

section Joining

variable {system : FileSystem} {path : Path} {location : Location} {name : Segment}

/-- A segment that goes on to something inside of a directory. -/
structure Names (name : Segment) : Prop where
  notIdle : name.isIdle = false
  notUp : name ≠ Segment.dotDot
  short : name.length ≤ nameLimit

theorem Names.stepFrom (names : Names name) (location : Location) :
    stepFrom location name = .ok (location ++ [name]) := by
  have short := names.short
  rw [FileSystem.stepFrom, names.notIdle, if_neg (by decide), if_neg names.notUp,
    if_neg (by omega)]

/-- A name is put behind the segments of a path, without an empty one at their end. -/
theorem exists_join_eq (path : Path) (name : Segment) :
    ∃ before idle, path.segments = before ++ idle ∧ (∀ segment ∈ idle, segment.isIdle = true) ∧
      path.join ⟨false, [name]⟩ = { path with segments := before ++ [name] } := by
  obtain ⟨absolute, segments⟩ := path
  cases segments with
  | nil => exact ⟨[], [], rfl, nofun, rfl⟩
  | cons first rest =>
      by_cases ended : (first :: rest).getLast? = some []
      · refine ⟨(first :: rest).dropLast, [[]], ?_, ?_, ?_⟩
        · exact (List.dropLast_append_getLast? [] ended).symm
        · exact List.forall_mem_singleton.mpr rfl
        · simp [Path.join, ended]
      · exact ⟨first :: rest, [], (List.append_nil _).symm, nofun, by simp [Path.join, ended]⟩

/-- The place that the segments of a path lead to. Those of the empty path lead nowhere else than to
the working directory. -/
def Leads (system : FileSystem) (path : Path) (location : Location) : Prop :=
  system.follow path path.segments = .ok location

theorem leads_of_locate (located : system.locate path = .ok location) :
    system.Leads path location :=
  (locate_eq_ok.mp located).2

/-- A name behind a path leads into the directory that the path leads to. -/
theorem locate_join_eq_ok (names : Names name) :
    system.locate (path.join ⟨false, [name]⟩) = .ok location ↔
      ∃ place, system.Leads path place ∧ system.lookup place = some .directory ∧
        location = place ++ [name] := by
  obtain ⟨before, idle, segments, stays, joined⟩ := exists_join_eq path name
  rw [joined, locate_eq_ok]
  constructor
  · intro ⟨_, followed⟩
    obtain ⟨place, followed, entered⟩ := follow_append.mp followed
    obtain ⟨directory, stepped⟩ := enter_eq_ok.mp (walk_single.mp entered)
    rw [names.stepFrom, Except.ok.injEq] at stepped
    refine ⟨place, ?_, directory, stepped.symm⟩
    unfold Leads
    rw [segments]
    exact follow_append.mpr ⟨place, followed, walk_idle directory stays⟩
  · intro ⟨place, leads, directory, same⟩
    unfold Leads at leads
    rw [segments] at leads
    obtain ⟨middle, followed, rested⟩ := follow_append.mp leads
    obtain rfl := eq_of_walk_idle stays rested
    subst same
    refine ⟨.inr (by simp), follow_append.mpr ⟨middle, followed, ?_⟩⟩
    exact walk_single.mpr (enter_eq_ok.mpr ⟨directory, names.stepFrom middle⟩)

theorem locate_join (names : Names name) (located : system.locate path = .ok location)
    (directory : system.lookup location = some .directory) :
    system.locate (path.join ⟨false, [name]⟩) = .ok (location ++ [name]) :=
  (locate_join_eq_ok names).mpr ⟨location, leads_of_locate located, directory, rfl⟩

end Joining

/-- Everything but the root is in a directory. -/
def IsTree (system : FileSystem) : Prop :=
  ∀ location name entry, system.lookup (location ++ [name]) = some entry →
    system.lookup location = some .directory

section Trees

variable {earlier later system : FileSystem} {path : Path} {location : Location}

/-- What is on the way to a directory is a directory. -/
theorem IsTree.lookup_of_prefix (tree : system.IsTree) {above : Location}
    (directory : system.lookup location = some .directory) (leads : above <+: location) :
    system.lookup above = some .directory := by
  obtain ⟨names, rfl⟩ := leads
  induction names using List.reverseRecOn with
  | nil => rwa [List.append_nil] at directory
  | append_singleton names name inductionHypothesis =>
      rw [← List.append_assoc] at directory
      exact inductionHypothesis (tree _ _ _ directory)

/-- A segment leads to the same place or into it, unless it goes up from below the root. -/
theorem prefix_of_stepFrom {start next : Location} {segment : Segment}
    (stepped : stepFrom start segment = .ok next) :
    start <+: next ↔ segment ≠ Segment.dotDot ∨ start = [] := by
  unfold stepFrom at stepped
  split at stepped
  next idle =>
    cases stepped
    have notUp : segment ≠ Segment.dotDot := by
      rintro rfl
      cases idle
    simp [notUp]
  next =>
    split at stepped
    next up =>
      cases stepped
      constructor
      · intro leads
        have shorter := leads.length_le
        rw [List.length_dropLast] at shorter
        exact .inr (List.length_eq_zero_iff.mp (by omega))
      · intro top
        have root : start = [] := top.resolve_left fun notUp => notUp up
        simp [root]
    next notUp =>
      split at stepped
      next => cases stepped
      next =>
        cases stepped
        simp [notUp]

/-- Without a segment that goes up, a walk leads further into the tree. -/
theorem prefix_of_enter {start next : Location} {segment : Segment}
    (down : segment ≠ Segment.dotDot) (entered : system.enter start segment = .ok next) :
    start <+: next :=
  (prefix_of_stepFrom (enter_eq_ok.mp entered).2).mpr (.inl down)

/-- A walk down the tree can be made wherever the directory that it leads to is. -/
theorem IsTree.walk (tree : earlier.IsTree) {segments : List Segment} {start : Location}
    (down : Segment.dotDot ∉ segments) (directory : earlier.lookup location = some .directory)
    (walked : segments.foldlM later.enter start = .ok location) :
    start <+: location ∧ segments.foldlM earlier.enter start = .ok location := by
  induction segments generalizing start with
  | nil =>
      cases walked
      exact ⟨List.prefix_rfl, rfl⟩
  | cons segment segments inductionHypothesis =>
      rw [List.foldlM_cons] at walked ⊢
      obtain ⟨next, entered, walked⟩ := bind_eq_ok.mp walked
      obtain ⟨leads, walkedToo⟩ :=
        inductionHypothesis (fun inside => down (List.mem_cons_of_mem _ inside)) walked
      have first : segment ≠ Segment.dotDot := fun same => down (same ▸ List.mem_cons_self)
      have leadsFirst := (prefix_of_enter first entered).trans leads
      have enteredToo : earlier.enter start segment = .ok next :=
        enter_eq_ok.mpr ⟨tree.lookup_of_prefix directory leadsFirst, (enter_eq_ok.mp entered).2⟩
      exact ⟨leadsFirst, bind_eq_ok.mpr ⟨next, enteredToo, walkedToo⟩⟩

/-- A path that does not go up led to a directory before, if the directory was there. -/
theorem IsTree.locate (tree : earlier.IsTree) (grown : Extends later earlier)
    (down : Segment.dotDot ∉ path.segments) (directory : earlier.lookup location = some .directory)
    (located : later.locate path = .ok location) : earlier.locate path = .ok location := by
  obtain ⟨said, followed⟩ := locate_eq_ok.mp located
  refine locate_eq_ok.mpr ⟨said, ?_⟩
  unfold follow at followed ⊢
  rw [grown.workingDirectory] at followed
  exact (tree.walk down directory followed).2

end Trees

end Intcode.FileSystem
