/-
This file shows where the search for a manifest goes in the tree of directories. It drops
one segment of the path after the other. A step from a path to its parent leads up, unless
the segment that it drops goes up itself: then the parent leads to a directory below.
-/

import Intcode.Proofs.FileTree
import Intcode.Proofs.Search

namespace Intcode

namespace Path

/-- The segment that the parent of a path is without. -/
def last? (path : Path) : Option Segment :=
  (trimmed path.absolute path.segments).getLast?

theorem exists_trimmed_append (absolute : Bool) (segments : List Segment) :
    ∃ idle, segments = trimmed absolute segments ++ idle ∧
      ∀ segment ∈ idle, segment.isIdle = true := by
  unfold trimmed
  split
  · exact FileSystem.exists_append_trailing Segment.isIdle segments
  · obtain ⟨idle, cut, stays⟩ :=
      FileSystem.exists_append_trailing Segment.isIdle (segments.drop 1)
    refine ⟨idle, ?_, stays⟩
    rw [List.append_assoc, dropIdle, ← cut, List.take_append_drop]

variable {path parent root : Path} {passed : List Path}

/-- A path goes on from its parent by its last segment, with idle ones around it. -/
theorem segments_of_parent (above : path.parent? = some parent) :
    ∃ last inner outer, path.last? = some last ∧ parent.absolute = path.absolute ∧
      path.segments = parent.segments ++ inner ++ [last] ++ outer ∧
      (∀ segment ∈ inner, segment.isIdle = true) ∧ ∀ segment ∈ outer, segment.isIdle = true := by
  obtain ⟨outer, cut, staysOuter⟩ := exists_trimmed_append path.absolute path.segments
  unfold parent? at above
  split at above
  next => cases above
  next first rest kept =>
    cases above
    obtain ⟨inner, cutInner, staysInner⟩ :=
      exists_trimmed_append path.absolute (first :: rest).dropLast
    obtain ⟨last, found⟩ := Option.ne_none_iff_exists'.mp
      (mt List.getLast?_eq_none_iff.mp (List.cons_ne_nil first rest))
    refine ⟨last, inner, outer, ?_, rfl, ?_, staysInner, staysOuter⟩
    · rw [last?, kept, found]
    · rw [← cutInner, List.dropLast_append_getLast? last found, ← kept, ← cut]

theorem mem_segments_of_last? {last : Segment} (ends : path.last? = some last) :
    last ∈ path.segments := by
  obtain ⟨idle, cut, -⟩ := exists_trimmed_append path.absolute path.segments
  rw [cut]
  exact List.mem_append_left idle (List.mem_of_getLast? ends)

/-- No path on the way up has a segment that the path below does not have. -/
theorem Climbs.mem_segments (climbs : Climbs path passed root) {other : Path} {segment : Segment}
    (inside : other ∈ passed) (has : segment ∈ other.segments) : segment ∈ path.segments := by
  induction climbs with
  | here => cases inside
  | up above _ inductionHypothesis =>
      rcases List.mem_cons.mp inside with rfl | inside
      · exact has
      · obtain ⟨last, inner, outer, -, -, cut, -⟩ := segments_of_parent above
        rw [cut]
        simp [inductionHypothesis inside]

end Path

namespace FileSystem

variable {system : FileSystem} {path parent root : Path} {passed : List Path}
variable {location above : Location}

/-- The place of a path is one segment behind the place of its parent. -/
theorem Leads.step_of_parent (leads : system.Leads path location) (isParent : path.parent? = some parent) :
    ∃ last above, path.last? = some last ∧ system.Leads parent above ∧
      stepFrom above last = .ok location := by
  obtain ⟨last, inner, outer, ends, same, cut, staysInner, staysOuter⟩ :=
    Path.segments_of_parent isParent
  unfold Leads at leads
  rw [cut] at leads
  obtain ⟨next, leads, rested⟩ := follow_append.mp leads
  obtain ⟨middle, leads, entered⟩ := follow_append.mp leads
  obtain ⟨above, leads, restedBefore⟩ := follow_append.mp leads
  obtain rfl := eq_of_walk_idle staysInner restedBefore
  obtain rfl := eq_of_walk_idle staysOuter rested
  refine ⟨last, above, ends, ?_, (enter_eq_ok.mp (walk_single.mp entered)).2⟩
  unfold Leads follow at *
  rwa [same]

theorem Leads.unique {other : Location} (leads : system.Leads path location)
    (again : system.Leads path other) : location = other :=
  Except.ok.inj (leads.symm.trans again)

/-- The last segment of a path goes up, and not from the root, where it leads nowhere else. -/
def EndsUp (system : FileSystem) (path : Path) : Prop :=
  path.last? = some Segment.dotDot ∧
    ∃ parent, path.parent? = some parent ∧ ¬ system.Leads parent []

/-- A step from a path to its parent leads up exactly if the segment that is dropped does not. -/
theorem Leads.prefix_iff (leads : system.Leads path location)
    (isParent : path.parent? = some parent) (leadsAbove : system.Leads parent above) :
    above <+: location ↔ ¬ system.EndsUp path := by
  obtain ⟨last, place, ends, leadsToo, stepped⟩ := leads.step_of_parent isParent
  obtain rfl := leadsAbove.unique leadsToo
  have root : above = [] ↔ system.Leads parent [] := by
    constructor
    · rintro rfl
      exact leadsAbove
    · exact leadsAbove.unique
  rw [prefix_of_stepFrom stepped, root]
  simp [EndsUp, ends, isParent, imp_iff_not_or]

/-- The way up leads to a directory above, if each of its steps leads up. -/
theorem Leads.climbs (leads : system.Leads path location) (climbs : path.Climbs passed root) :
    ∃ found, system.Leads root found ∧
      ((∀ other ∈ passed, ¬ system.EndsUp other) → found <+: location) := by
  induction climbs generalizing location with
  | here => exact ⟨location, leads, fun _ => List.prefix_rfl⟩
  | up isParent _ inductionHypothesis =>
      obtain ⟨last, above, -, leadsAbove, -⟩ := leads.step_of_parent isParent
      obtain ⟨found, leadsFound, upward⟩ := inductionHypothesis leadsAbove
      refine ⟨found, leadsFound, ?_⟩
      intro steps
      obtain ⟨first, steps⟩ := List.forall_mem_cons.mp steps
      have step := (leads.prefix_iff isParent leadsAbove).mpr first
      exact (upward steps).trans step

/-- The path that the working directory is known by. It does not go up. -/
structure IsHere (system : FileSystem) (path : Path) : Prop where
  located : system.locate path = .ok system.workingDirectory
  direct : Segment.dotDot ∉ path.segments

section Given

variable {workingPath : Path} {given : Option Arguments.Argument}

theorem pathOf_eq (workingPath : Path) (given : Option Arguments.Argument) :
    Arguments.pathOf workingPath given =
      if given.getD Segment.dot = Segment.dot then workingPath
      else .ofBytes (given.getD Segment.dot) := by
  cases given <;> rfl

theorem eq_workingDirectory_of_dot (located : system.locate (.ofBytes Segment.dot) = .ok location) :
    location = system.workingDirectory := by
  have walked : [Segment.dot].foldlM system.enter system.workingDirectory = .ok location :=
    leads_of_locate located
  have stays : ∀ segment ∈ [Segment.dot], segment.isIdle = true := by decide
  exact (eq_of_walk_idle stays walked).symm

/-- The path that an argument is taken for leads where the argument does. -/
theorem IsHere.locate_pathOf (here : system.IsHere workingPath)
    (located : system.locate (.ofBytes (given.getD Segment.dot)) = .ok location) :
    system.locate (Arguments.pathOf workingPath given) = .ok location := by
  rw [pathOf_eq]
  split
  next dot =>
    rw [dot] at located
    rw [eq_workingDirectory_of_dot located, here.located]
  next => exact located

theorem IsHere.dotDot_not_mem (here : system.IsHere workingPath)
    (direct : Segment.dotDot ∉ (Path.ofBytes (given.getD Segment.dot)).segments) :
    Segment.dotDot ∉ (Arguments.pathOf workingPath given).segments := by
  rw [pathOf_eq]
  split
  next => exact here.direct
  next => exact direct

end Given

end FileSystem

namespace Manifest

variable {system : FileSystem} {directory : Path}

/-- A manifest is in the place that its directory leads to. -/
theorem Present.locate (present : Present system directory) {place : Location}
    (leads : system.Leads directory place) :
    system.locate (inDirectory directory) = .ok (place ++ [Text.encode fileName]) := by
  obtain ⟨entry, found⟩ := present
  obtain ⟨location, located, -⟩ := FileSystem.entry?_eq_some.mp found
  have names : FileSystem.Names (Text.encode fileName) := ⟨by decide, by decide, by decide⟩
  obtain ⟨above, leadsAbove, -, same⟩ := (FileSystem.locate_join_eq_ok names).mp located
  rw [leads.unique leadsAbove, ← same]
  exact located

/-- The manifest that is used for a directory is in that directory or above it, if the search leaves
no path that ends with a segment which goes up. So it is if the path was given without such a
segment. Each step of the search leads up exactly if it leaves no such path. For the whole search
the condition is enough but not needed, since later steps may lead up far enough: from `/a/b/..` a
manifest in `/` is above, although the first step leads down. -/
theorem search_goes_upward {workingPath : Path} {given : Option Arguments.Argument}
    {place : Location} {further : List Cell} {dump : Bool} {task : Task}
    (here : system.IsHere workingPath)
    (denotes : system.locate (.ofBytes (given.getD Segment.dot)) = .ok place)
    (isDirectory : system.lookup place = some .directory)
    (resolved : Task.resolve system (Arguments.pathOf workingPath given) further dump = .ok task) :
    ∃ passed root manifest found,
      (Arguments.pathOf workingPath given).Climbs passed root ∧
      (∀ other ∈ passed, ¬ Present system other) ∧ Holds system root (.ok manifest) ∧
      task = Task.ofManifest manifest root further dump ∧
      system.locate (root.join (.ofString "intcode.toml")) =
        .ok (found ++ [Text.encode "intcode.toml"]) ∧
      ((∀ other ∈ passed, ¬ system.EndsUp other) → found <+: place) ∧
      (Segment.dotDot ∉ (Path.ofBytes (given.getD Segment.dot)).segments → found <+: place) ∧
      ∀ other ∈ passed, ∀ parent above below, other.parent? = some parent →
        system.Leads other below → system.Leads parent above →
        (above <+: below ↔ ¬ system.EndsUp other) := by
  have located := here.locate_pathOf denotes
  have directory := FileSystem.isDirectory_iff.mpr ⟨place, located, isDirectory⟩
  obtain ⟨root, manifest, ⟨passed, climbs, absent, present⟩, holds, isTask⟩ :=
    (resolve_eq_ok directory).mp resolved
  obtain ⟨found, leads, upward⟩ := (FileSystem.leads_of_locate located).climbs climbs
  refine ⟨passed, root, manifest, found, climbs, absent, holds, isTask, present.locate leads, upward,
    ?_, ?_⟩
  · intro direct
    apply upward
    intro other inside ⟨ends, _⟩
    have goesUp := climbs.mem_segments inside (Path.mem_segments_of_last? ends)
    exact here.dotDot_not_mem direct goesUp
  · intro other _ parent above below isParent leadsBelow leadsAbove
    exact leadsBelow.prefix_iff isParent leadsAbove

/-- From a directory inside of a package, the search comes to the package around it. -/
theorem search_goes_upward_from_inside :
    let text := "[package]\nname = 'p'\nversion = '0.0.0'\nauthors = []\n"
    let system : FileSystem :=
      { entries :=
          [([Text.encode "w"], .directory),
           ([Text.encode "w", Text.encode "p"], .directory),
           ([Text.encode "w", Text.encode "p", Text.encode "intcode.toml"],
            .file (Text.encode text)),
           ([Text.encode "w", Text.encode "p", Text.encode "a"], .directory)]
        workingDirectory := [Text.encode "w"] }
    let path := Arguments.pathOf (.ofString "/w") (some (Text.encode "./p//a/./"))
    system.IsHere (.ofString "/w") ∧
    Task.resolve system path [] false = .ok ⟨.ofString "./p/src/main.ic", [], false⟩ ∧
    ∃ (root : Path) (found : Location),
      system.locate (root.join (.ofString "intcode.toml")) =
        .ok (found ++ [Text.encode "intcode.toml"]) ∧
      found <+: [Text.encode "w", Text.encode "p", Text.encode "a"] := by
  intro text system path
  have here : system.IsHere (.ofString "/w") := ⟨by decide +kernel, by decide +kernel⟩
  have denotes : system.locate (.ofBytes ((some (Text.encode "./p//a/./")).getD Segment.dot)) =
      .ok [Text.encode "w", Text.encode "p", Text.encode "a"] := by decide +kernel
  have resolved : Task.resolve system path [] false =
      .ok ⟨.ofString "./p/src/main.ic", [], false⟩ := by decide +kernel
  obtain ⟨_, root, _, found, _, _, _, _, located, _, direct, _⟩ :=
    search_goes_upward here denotes (by decide +kernel) resolved
  exact ⟨here, resolved, root, found, located, direct (by decide +kernel)⟩

-- From the directory above the working directory, the search comes to the package below.
example :
    let text := "[package]\nname = 'p'\nversion = '0.0.0'\nauthors = []\n"
    let system : FileSystem :=
      { entries :=
          [([Text.encode "w"], .directory),
           ([Text.encode "w", Text.encode "intcode.toml"], .file (Text.encode text))]
        workingDirectory := [Text.encode "w"] }
    system.locate (.ofString "..") = .ok [] ∧
      Task.resolve system (.ofString "..") [] false = .ok ⟨.ofString "src/main.ic", [], false⟩ := by
  decide +kernel

end Manifest

end Intcode
