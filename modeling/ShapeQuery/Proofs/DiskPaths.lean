import ShapeQuery.Command.Disk
import ShapeQuery.Proofs.Splitting

/-!
Paths on a disk. A path leads to the same place as long as nothing is taken away: making directories
and writing files only add to a disk. The names inside a directory lead right below it.
-/
namespace ShapeQuery

namespace Command

/-- A name that a file or a directory can have: it is not empty, not a point or
two, has neither slash nor zero character, and is not too long. -/
structure ValidName (name : String) : Prop where
  plain : name ≠ "" ∧ name ≠ "." ∧ name ≠ ".."
  slash : '/' ∉ name.toList
  null : '\x00' ∉ name.toList
  short : name.utf8ByteSize ≤ maxNameBytes

instance (name : String) : Decidable (ValidName name) :=
  decidable_of_iff ((name ≠ "" ∧ name ≠ "." ∧ name ≠ "..") ∧ '/' ∉ name.toList ∧
    '\x00' ∉ name.toList ∧
      name.utf8ByteSize ≤ maxNameBytes)
    ⟨fun ⟨plain, slash, null, short⟩ => ⟨plain, slash, null, short⟩,
      fun ⟨plain, slash, null, short⟩ => ⟨plain, slash, null, short⟩⟩

def Location.Valid (location : Location) : Prop :=
  ∀ name ∈ location, ValidName name

namespace Disk

/-- A disk on which all names are valid. Making directories keeps it so, as no
directory can be made under another name. -/
def WellNamed (disk : Disk) : Prop :=
  ∀ location ∈ disk.current :: disk.files.map (·.1) ++ disk.directories, ∀ name ∈ location,
    ValidName name

instance (disk : Disk) : Decidable disk.WellNamed :=
  inferInstanceAs (Decidable (∀ location ∈ disk.current :: disk.files.map (·.1) ++ disk.directories,
    ∀ name ∈ location, ValidName name))

/-- Whatever is on one disk is also on the other, with the same kind, and the
command is run in the same directory. -/
structure Extends (disk other : Disk) : Prop where
  current : other.current = disk.current
  directory : ∀ location, disk.isDirectory location = true → other.isDirectory location = true
  file : ∀ location, (disk.file? location).isSome = true → (other.file? location).isSome = true

theorem Extends.refl (disk : Disk) : disk.Extends disk :=
  ⟨rfl, fun _ => id, fun _ => id⟩

theorem Extends.trans {first middle last : Disk} (before : first.Extends middle)
    (after : middle.Extends last) : first.Extends last where
  current := after.current.trans before.current
  directory location there := after.directory location (before.directory location there)
  file location there := after.file location (before.file location there)

theorem existsAt_of_isDirectory {disk : Disk} {location : Location}
    (there : disk.isDirectory location = true) : disk.existsAt location = true := by
  rw [existsAt, there, Bool.true_or]

/-! ### Following names -/

/-- What a step leads to does not depend on the path, which only the faults name. -/
theorem step_path {path : String} (other : String) {location next : Location} {name : String}
    (led : step path location name = .ok next) : step other location name = .ok next := by
  unfold step at led ⊢
  split
  · next still => rwa [if_pos still] at led
  · next still =>
    rw [if_neg still] at led
    split
    · next up => rwa [if_pos up] at led
    · next up =>
      rw [if_neg up] at led
      split
      · next long =>
        rw [if_pos long] at led
        cases led
      · next long => rwa [if_neg long] at led

/-- Names are followed one at a time, each from a directory. -/
theorem follow_cons {disk : Disk} {path name : String} {location final : Location}
    {rest : List String} :
    disk.follow path location (name :: rest) = .ok final ↔
      disk.isDirectory location = true ∧
        ∃ next, step path location name = .ok next ∧ disk.follow path next rest = .ok final := by
  constructor
  · intro led
    rw [follow] at led
    split at led
    · cases led
    · split at led
      · cases led
      · next directory =>
        refine ⟨by simpa using directory, ?_⟩
        split at led
        · next next stepped => exact ⟨next, stepped, led⟩
        · cases led
  · rintro ⟨directory, next, stepped, led⟩
    rw [follow, existsAt_of_isDirectory directory, directory, stepped]
    exact led

/-- Following two lists of names is following the second from where the first leads. -/
theorem follow_append {disk : Disk} {path : String} {location final : Location}
    {front back : List String} :
    disk.follow path location (front ++ back) = .ok final ↔
      ∃ middle, disk.follow path location front = .ok middle ∧
        disk.follow path middle back = .ok final := by
  induction front generalizing location with
  | nil =>
    constructor
    · exact fun led => ⟨location, rfl, led⟩
    · rintro ⟨middle, ⟨⟩, led⟩
      exact led
  | cons name front ih =>
    rw [List.cons_append, follow_cons]
    constructor
    · rintro ⟨directory, next, stepped, led⟩
      obtain ⟨middle, first, second⟩ := ih.mp led
      exact ⟨middle, follow_cons.mpr ⟨directory, next, stepped, first⟩, second⟩
    · rintro ⟨middle, led, second⟩
      obtain ⟨directory, next, stepped, first⟩ := follow_cons.mp led
      exact ⟨directory, next, stepped, ih.mpr ⟨middle, first, second⟩⟩

/-- Names lead to the same location on a disk that has more. -/
theorem Extends.follow {disk other : Disk} (more : disk.Extends other) {path : String}
    (path' : String) {location final : Location} {names : List String}
    (led : disk.follow path location names = .ok final) :
    other.follow path' location names = .ok final := by
  induction names generalizing location with
  | nil => exact led
  | cons name rest ih =>
    obtain ⟨directory, next, stepped, behind⟩ := follow_cons.mp led
    exact follow_cons.mpr ⟨more.directory location directory, next,
      step_path path' stepped, ih behind⟩

/-! ### Paths -/

theorem place_eq_ok {disk : Disk} {path : String} {final : Location} :
    disk.place path = .ok final ↔
      path ≠ "" ∧ '\x00' ∉ path.toList ∧
        disk.follow path (disk.origin path) (names path) = .ok final := by
  unfold place
  split
  · next empty =>
    subst empty
    exact iff_of_false (fun led => by cases led) fun led => led.1 rfl
  · next given =>
    split
    · next null =>
      rw [List.contains_iff_mem] at null
      exact iff_of_false (fun led => by cases led) fun led => led.2.1 null
    · next null =>
      rw [List.contains_iff_mem] at null
      exact ⟨fun led => ⟨given, null, led⟩, fun led => led.2.2⟩

theorem Extends.origin {disk other : Disk} (more : disk.Extends other) (path : String) :
    other.origin path = disk.origin path := by
  unfold Disk.origin
  rw [more.current]

/-- A path leads to the same location on a disk that has more. -/
theorem Extends.place {disk other : Disk} (more : disk.Extends other) {path : String}
    {final : Location} (led : disk.place path = .ok final) : other.place path = .ok final := by
  obtain ⟨given, null, led⟩ := place_eq_ok.mp led
  refine place_eq_ok.mpr ⟨given, null, ?_⟩
  rw [more.origin]
  exact more.follow path led

theorem valid_of_step {path name : String} {location final : Location} (valid : location.Valid)
    (slash : '/' ∉ name.toList) (null : '\x00' ∉ name.toList)
    (led : step path location name = .ok final) : final.Valid := by
  unfold step at led
  split at led
  · cases led
    exact valid
  · next still =>
    split at led
    · cases led
      exact fun name member => valid name (List.dropLast_subset _ member)
    · next up =>
      split at led
      · cases led
      · next short =>
        cases led
        refine List.forall_mem_append.mpr ⟨valid, List.forall_mem_singleton.mpr ?_⟩
        exact ⟨⟨fun same => still (.inl same), fun same => still (.inr same), up⟩, slash, null,
          Nat.le_of_not_lt short⟩

/-- Names that can be followed lead to a valid location, for a name that is not
valid leads nowhere. -/
theorem valid_of_follow {disk : Disk} {path : String} {location final : Location}
    {names : List String} (valid : location.Valid)
    (plain : ∀ name ∈ names, '/' ∉ name.toList ∧ '\x00' ∉ name.toList)
    (led : disk.follow path location names = .ok final) : final.Valid := by
  induction names generalizing location with
  | nil =>
    cases led
    exact valid
  | cons name rest ih =>
    obtain ⟨-, next, stepped, behind⟩ := follow_cons.mp led
    obtain ⟨⟨slash, null⟩, others⟩ := List.forall_mem_cons.mp plain
    exact ih (valid_of_step valid slash null stepped) others behind

/-- The names on a path have no slash, and the characters of the path. -/
theorem mem_names {path name : String} (member : name ∈ names path) :
    '/' ∉ name.toList ∧ ∀ c ∈ name.toList, c ∈ path.toList := by
  obtain ⟨piece, inside, rfl⟩ := List.mem_map.mp member
  rw [String.toList_ofList]
  exact ⟨Text.not_mem_of_mem_splitAt inside, fun _ => Text.mem_of_mem_splitAt inside⟩

theorem WellNamed.origin {disk : Disk} (named : disk.WellNamed) (path : String) :
    (disk.origin path).Valid := by
  unfold Disk.origin
  split
  · exact List.forall_mem_nil _
  · exact named disk.current List.mem_cons_self

/-- On a well-named disk every path leads to a valid location. -/
theorem valid_of_place {disk : Disk} (named : disk.WellNamed) {path : String} {final : Location}
    (led : disk.place path = .ok final) : final.Valid := by
  obtain ⟨-, null, led⟩ := place_eq_ok.mp led
  refine valid_of_follow (named.origin path) (fun name member => ?_) led
  obtain ⟨slash, inside⟩ := mem_names member
  exact ⟨slash, fun there => null (inside _ there)⟩

/-! ### Names in a directory -/

theorem names_plain {name : String} (slash : '/' ∉ name.toList) : names name = [name] := by
  rw [names, Text.splitAt_of_not_mem slash, List.map_singleton, String.ofList_toList]

theorem names_slash (front back : String) :
    names (front ++ "/" ++ back) = names front ++ names back := by
  unfold names
  rw [String.toList_append, String.toList_append, List.append_assoc,
    show "/".toList = ['/'] from rfl, List.singleton_append, Text.splitAt_append, List.map_append]

/-- A path with a slash at its end is another one with a slash behind it. -/
theorem eq_slash_of_getLast? {path : String} (last : path.toList.getLast? = some '/') :
    ∃ front, path = front ++ "/" := by
  obtain ⟨front, cut⟩ := List.getLast?_eq_some_iff.mp last
  refine ⟨String.ofList front, String.toList_injective ?_⟩
  rw [cut, String.toList_append, String.toList_ofList]
  rfl

/-- The names of a path inside a directory: those of the directory, without
what a slash at its end leaves, and the name. -/
theorem names_joinPath {directory : String} (given : directory ≠ "") {name : String}
    (slash : '/' ∉ name.toList) :
    ∃ front, names (joinPath directory name) = front ++ [name] ∧
      (names directory = front ∨ names directory = front ++ [""]) := by
  unfold joinPath
  split
  · next ended =>
    obtain ⟨front, rfl⟩ := eq_slash_of_getLast? (ended.resolve_left given)
    refine ⟨names front, ?_, .inr ?_⟩
    · rw [names_slash, names_plain slash]
    · have ended := names_slash front ""
      rwa [String.append_empty] at ended
  · exact ⟨names directory, by rw [names_slash, names_plain slash], .inl rfl⟩

/-- A name inside a directory is followed from where the directory is followed from. -/
theorem origin_joinPath (disk : Disk) {directory : String} (given : directory ≠ "")
    (name : String) : disk.origin (joinPath directory name) = disk.origin directory := by
  have filled : directory.toList ≠ [] := fun empty => given (String.toList_eq_nil_iff.mp empty)
  obtain ⟨c, rest, written⟩ := List.exists_cons_of_ne_nil filled
  have head : (joinPath directory name).toList.head? = directory.toList.head? := by
    unfold joinPath
    split
    · rw [String.toList_append, written, List.cons_append, List.head?_cons, List.head?_cons]
    · rw [String.append_assoc, String.toList_append, written, List.cons_append, List.head?_cons,
        List.head?_cons]
  unfold origin
  rw [head]

/-- A name of its own leads one step further, if it is not too long. -/
theorem step_plain {path name : String} {location next : Location}
    (plain : name ≠ "" ∧ name ≠ "." ∧ name ≠ "..") :
    step path location name = .ok next ↔
      name.utf8ByteSize ≤ maxNameBytes ∧ next = location ++ [name] := by
  unfold step
  rw [if_neg (not_or.mpr ⟨plain.1, plain.2.1⟩), if_neg plain.2.2]
  split
  · next long =>
    exact iff_of_false (fun led => by cases led) fun led => absurd long (Nat.not_lt.mpr led.1)
  · next short =>
    constructor
    · rintro ⟨⟩
      exact ⟨Nat.le_of_not_lt short, rfl⟩
    · rintro ⟨-, rfl⟩
      rfl

theorem follow_concat {disk : Disk} {path name : String} {location final : Location}
    {front : List String} :
    disk.follow path location (front ++ [name]) = .ok final ↔
      ∃ middle, disk.follow path location front = .ok middle ∧ disk.isDirectory middle = true ∧
        step path middle name = .ok final := by
  rw [follow_append]
  constructor
  · rintro ⟨middle, first, second⟩
    obtain ⟨directory, next, stepped, ⟨⟩⟩ := follow_cons.mp second
    exact ⟨middle, first, directory, stepped⟩
  · rintro ⟨middle, first, directory, stepped⟩
    exact ⟨middle, first, follow_cons.mpr ⟨directory, final, stepped, rfl⟩⟩

/-- An empty name at the end of a path asks for a directory and leads no further. -/
theorem follow_directory {disk : Disk} {path path' : String} {location middle : Location}
    {names front : List String} (cut : names = front ∨ names = front ++ [""]) :
    disk.follow path location names = .ok middle ∧ disk.isDirectory middle = true ↔
      disk.follow path' location front = .ok middle ∧ disk.isDirectory middle = true := by
  have same : ∀ path path', disk.follow path location front = .ok middle →
      disk.follow path' location front = .ok middle :=
    fun path path' => (Extends.refl disk).follow path'
  rcases cut with rfl | rfl
  · exact and_congr_left' ⟨same _ _, same _ _⟩
  · rw [follow_concat]
    constructor
    · rintro ⟨⟨middle, led, there, ⟨⟩⟩, -⟩
      exact ⟨same _ _ led, there⟩
    · rintro ⟨led, there⟩
      exact ⟨⟨middle, same _ _ led, there, rfl⟩, there⟩

theorem joinPath_ne_empty (directory : String) {name : String} (given : name ≠ "") :
    joinPath directory name ≠ "" := by
  intro empty
  unfold joinPath at empty
  split at empty
  · exact given (String.append_eq_empty_iff.mp empty).2
  · exact given (String.append_eq_empty_iff.mp empty).2

/-- A character other than the slash is missing in a path inside a directory
exactly if it is missing in the directory and in the name. -/
theorem not_mem_joinPath {directory name : String} {c : Char} (other : c ≠ '/') :
    c ∉ (joinPath directory name).toList ↔ c ∉ directory.toList ∧ c ∉ name.toList := by
  unfold joinPath
  split
  · rw [String.toList_append, List.mem_append, not_or]
  · simp [other]

/-- A path leads to a directory. The path may be absolute and may go up again,
so several paths can lead to one directory. -/
structure HasFolder (disk : Disk) (path : String) (folder : Location) : Prop where
  led : disk.place path = .ok folder
  there : disk.isDirectory folder = true

theorem HasFolder.given {disk : Disk} {path : String} {folder : Location}
    (has : disk.HasFolder path folder) : path ≠ "" :=
  (place_eq_ok.mp has.led).1

theorem Extends.hasFolder {disk other : Disk} (more : disk.Extends other) {path : String}
    {folder : Location} (has : disk.HasFolder path folder) : other.HasFolder path folder :=
  ⟨more.place has.led, more.directory folder has.there⟩

/-- A name of its own behind a directory leads right below it. -/
theorem place_joinPath {disk : Disk} {directory name : String} {final : Location}
    (given : directory ≠ "") (plain : name ≠ "" ∧ name ≠ "." ∧ name ≠ "..")
    (slash : '/' ∉ name.toList) :
    disk.place (joinPath directory name) = .ok final ↔
      ∃ folder, disk.HasFolder directory folder ∧ ValidName name ∧ final = folder ++ [name] := by
  obtain ⟨front, joined, cut⟩ := names_joinPath given slash
  rw [place_eq_ok, joined, follow_concat, not_mem_joinPath (by decide), origin_joinPath disk given]
  constructor
  · rintro ⟨-, ⟨without, null⟩, folder, led, there, stepped⟩
    obtain ⟨short, rfl⟩ := (step_plain plain).mp stepped
    obtain ⟨led, -⟩ := (follow_directory cut).mpr ⟨led, there⟩
    have has : disk.HasFolder directory folder := ⟨place_eq_ok.mpr ⟨given, without, led⟩, there⟩
    exact ⟨folder, has, ⟨plain, slash, null, short⟩, rfl⟩
  · rintro ⟨folder, ⟨led, there⟩, valid, rfl⟩
    obtain ⟨-, without, led⟩ := place_eq_ok.mp led
    obtain ⟨led, -⟩ := (follow_directory cut).mp ⟨led, there⟩
    refine ⟨joinPath_ne_empty directory plain.1, ⟨without, valid.null⟩, folder, led, there, ?_⟩
    exact (step_plain plain).mpr ⟨valid.short, rfl⟩

/-! ### What making directories adds -/

/-- Nothing but directories was added, with valid names if all names were valid. -/
def Grown (disk other : Disk) : Prop :=
  ∃ more, other = { disk with directories := disk.directories ++ more } ∧
    (disk.WellNamed → ∀ location ∈ more, ∀ name ∈ location, ValidName name)

theorem Grown.refl (disk : Disk) : disk.Grown disk :=
  ⟨[], by rw [List.append_nil], fun _ => List.forall_mem_nil _⟩

/-- Adding directories with valid names keeps a disk well-named. -/
theorem Grown.wellNamed {disk other : Disk} (grown : disk.Grown other) (named : disk.WellNamed) :
    other.WellNamed := by
  obtain ⟨more, rfl, valid⟩ := grown
  unfold WellNamed at named ⊢
  rw [← List.append_assoc]
  exact List.forall_mem_append.mpr ⟨named, valid named⟩

theorem Grown.trans {first middle last : Disk} (before : first.Grown middle)
    (after : middle.Grown last) : first.Grown last := by
  have between := before.wellNamed
  obtain ⟨some, rfl, valid⟩ := before
  obtain ⟨more, rfl, valid'⟩ := after
  refine ⟨some ++ more, by rw [List.append_assoc], fun named => ?_⟩
  exact List.forall_mem_append.mpr ⟨valid named, valid' (between named)⟩

theorem Grown.extends {disk other : Disk} (grown : disk.Grown other) : disk.Extends other := by
  obtain ⟨more, rfl, -⟩ := grown
  refine ⟨rfl, fun location there => ?_, fun location there => there⟩
  unfold isDirectory at there ⊢
  rw [Bool.or_eq_true, List.contains_iff_mem] at there ⊢
  exact there.imp_right (List.mem_append_left _)

theorem Grown.file? {disk other : Disk} (grown : disk.Grown other) (location : Location) :
    other.file? location = disk.file? location := by
  obtain ⟨more, rfl, -⟩ := grown
  rfl

theorem Grown.out {disk other : Disk} (grown : disk.Grown other) : other.out = disk.out := by
  obtain ⟨more, rfl, -⟩ := grown
  rfl

def leftBy : EStateM.Result FileFault Disk Unit → Disk
  | .ok _ disk => disk
  | .error _ disk => disk

/-- An action that adds nothing but directories. -/
def Grows (action : EStateM FileFault Disk Unit) : Prop :=
  ∀ disk : Disk, disk.Grown (leftBy (action disk))

/-- Two actions that add nothing but directories, one after the other. -/
theorem Grows.bind {action : EStateM FileFault Disk Unit}
    {next : Unit → EStateM FileFault Disk Unit} (first : Grows action)
    (second : ∀ result, Grows (next result)) : Grows (action >>= next) := by
  intro disk
  have grown := first disk
  simp only [Bind.bind, EStateM.bind]
  cases outcome : action disk with
  | ok result after =>
    rw [outcome] at grown
    exact grown.trans (second result after)
  | error fault after =>
    rw [outcome] at grown
    exact grown

/-- A failed action may be followed by another one; what it added stays. -/
theorem Grows.catch {action : EStateM FileFault Disk Unit}
    {handle : FileFault → EStateM FileFault Disk Unit} (first : Grows action)
    (second : ∀ fault, Grows (handle fault)) : Grows (tryCatch action handle) := by
  intro disk
  have grown := first disk
  simp only [tryCatch, tryCatchThe, MonadExceptOf.tryCatch, EStateM.tryCatch]
  cases outcome : action disk with
  | ok result after =>
    rw [outcome] at grown
    exact grown
  | error fault after =>
    rw [outcome] at grown
    exact grown.trans (second fault after)

theorem Grows.pure (result : Unit) : Grows (Pure.pure result) :=
  Grown.refl

theorem Grows.throw (fault : FileFault) : Grows (MonadExcept.throw fault) :=
  Grown.refl

theorem run_get (next : Disk → EStateM FileFault Disk Unit) (disk : Disk) :
    (get >>= next) disk = next disk disk := rfl

theorem makeDirectory_grows (path : String) : Grows (makeDirectory path) := by
  intro disk
  unfold makeDirectory
  rw [run_get]
  cases led : disk.place path with
  | error fault => exact .refl disk
  | ok location =>
    dsimp only
    split
    · exact .refl disk
    · exact ⟨[location], rfl, fun named => List.forall_mem_singleton.mpr (valid_of_place named led)⟩

theorem ensureDirectory_grows (path : String) : Grows (ensureDirectory path) := by
  intro disk
  unfold ensureDirectory
  rw [run_get]
  split
  · exact .refl disk
  · exact makeDirectory_grows path disk

/-- Making the directories for the parts of a path adds nothing else. Induction
on the parts, as one is made after those before it. -/
theorem makeParts_grows (parts : List PathPart) : Grows (makeParts parts) := by
  fun_induction makeParts parts with
  | case1 => exact .pure ()
  | case2 part => exact ensureDirectory_grows part.path
  | case3 part outer rest ih =>
    intro disk
    rw [run_get]
    split
    · exact ensureDirectory_grows part.path disk
    · refine Grows.bind (.catch ih fun fault => ?_) (fun _ => ?_) disk
      · cases fault with
        | alreadyExists path => exact .pure ()
        | _ => exact .throw _
      · split
        · exact .pure ()
        · exact ensureDirectory_grows part.path

/-- Whether or not all directories can be made, nothing but directories was added. -/
theorem makeDirectories_grown {path : String} {disk after : Disk} {result : Except FileFault Unit}
    (done : makeDirectories path disk = (result, after)) : disk.Grown after := by
  have grown := makeParts_grows (pathParts [] (names path)).reverse disk
  unfold makeDirectories EStateM.run at done
  split at done
  · cases done
    exact .refl disk
  · split at done
    · next outcome =>
      cases done
      rwa [outcome] at grown
    · next outcome =>
      cases done
      rwa [outcome] at grown

theorem given_of_makeDirectories {path : String} {disk after : Disk}
    (done : makeDirectories path disk = (.ok (), after)) : path ≠ "" := by
  rintro rfl
  cases done

/-! ### Directories that are there already -/

/-- Whether a path leads to a directory is decided by following it. -/
theorem isDirectoryPath_iff {disk : Disk} {path : String} :
    disk.isDirectoryPath path = true ↔ ∃ folder, disk.HasFolder path folder := by
  unfold isDirectoryPath
  cases led : disk.place path with
  | error fault =>
    refine iff_of_false (by simp) ?_
    rintro ⟨folder, has⟩
    cases led.symm.trans has.led
  | ok folder =>
    constructor
    · exact fun there => ⟨folder, led, there⟩
    · rintro ⟨other, has⟩
      cases led.symm.trans has.led
      exact has.there

theorem pathExists_of_isDirectoryPath {disk : Disk} {path : String}
    (there : disk.isDirectoryPath path = true) : disk.pathExists path = true := by
  obtain ⟨folder, has⟩ := isDirectoryPath_iff.mp there
  rw [pathExists, has.led]
  exact existsAt_of_isDirectory has.there

theorem ensureDirectory_there {disk : Disk} {path : String}
    (there : disk.isDirectoryPath path = true) : ensureDirectory path disk = .ok () disk := by
  unfold ensureDirectory
  rw [run_get, there]
  rfl

theorem makeParts_there {disk : Disk} {parts : List PathPart}
    (there : ∀ part ∈ parts, disk.isDirectoryPath part.path = true) :
    makeParts parts disk = .ok () disk := by
  cases parts with
  | nil => rfl
  | cons part rest =>
    have directory := there part List.mem_cons_self
    cases rest with
    | nil => exact ensureDirectory_there directory
    | cons outer rest =>
      have above := pathExists_of_isDirectoryPath (there outer (by simp))
      unfold makeParts
      rw [run_get, above, if_pos rfl]
      exact ensureDirectory_there directory

/-- Names that are put together with slashes are the names of what comes of it. -/
theorem names_intercalate {pieces : List String} (given : pieces ≠ [])
    (plain : ∀ piece ∈ pieces, '/' ∉ piece.toList) : names ("/".intercalate pieces) = pieces := by
  rw [names, Text.splitAt_intercalate rfl given plain, List.map_map]
  exact (List.map_congr_left fun piece _ => String.ofList_toList).trans (List.map_id pieces)

theorem mem_intercalate {pieces : List String} {c : Char} (other : c ≠ '/')
    (member : c ∈ ("/".intercalate pieces).toList) : ∃ piece ∈ pieces, c ∈ piece.toList := by
  induction pieces with
  | nil =>
    rw [String.intercalate_nil] at member
    cases member
  | cons piece rest ih =>
    cases rest with
    | nil =>
      rw [String.intercalate_singleton] at member
      exact ⟨piece, List.mem_cons_self, member⟩
    | cons next rest =>
      rw [String.intercalate_cons_cons, String.toList_append, String.toList_append, List.mem_append,
        List.mem_append] at member
      rcases member with (member | member) | member
      · exact ⟨piece, List.mem_cons_self, member⟩
      · exact absurd (List.mem_singleton.mp member) other
      · obtain ⟨found, inside, there⟩ := ih member
        exact ⟨found, List.mem_cons_of_mem _ inside, there⟩

theorem head?_slash_iff {path : String} :
    path.toList.head? = some '/' ↔ ∃ rest, rest ≠ [] ∧ names path = "" :: rest := by
  unfold names
  cases path.toList with
  | nil => simp [Text.splitAt]
  | cons c chars =>
    obtain ⟨piece, pieces, parts⟩ := Text.splitAt_eq_cons '/' chars
    by_cases slash : c = '/'
    · subst slash
      rw [Text.splitAt_cons_mark, parts]
      simp
    · rw [Text.splitAt_cons_other slash parts]
      simp [slash]

/-- A path and its part up to a name are followed from the same location. -/
theorem origin_of_names (disk : Disk) {path part name : String} {front rest : List String}
    (given : name ≠ "") (whole : names path = front ++ [name] ++ rest)
    (cut : names part = front ++ [name]) : disk.origin part = disk.origin path := by
  have same : part.toList.head? = some '/' ↔ path.toList.head? = some '/' := by
    rw [head?_slash_iff, head?_slash_iff, whole, cut]
    cases front with
    | nil => simp [given]
    | cons first front => simp
  unfold origin
  exact if_congr same rfl rfl

/-- The part of a path up to a name leads to a directory, if the path does. -/
theorem isDirectoryPath_part {disk : Disk} {path name : String} {front rest : List String}
    (there : disk.isDirectoryPath path = true) (given : name ≠ "")
    (whole : names path = front ++ [name] ++ rest) :
    disk.isDirectoryPath ("/".intercalate (front ++ [name])) = true := by
  obtain ⟨final, led, directory⟩ := isDirectoryPath_iff.mp there
  obtain ⟨-, null, led⟩ := place_eq_ok.mp led
  rw [whole] at led
  obtain ⟨middle, first, second⟩ := follow_append.mp led
  have between : disk.isDirectory middle = true := by
    cases rest with
    | nil =>
      cases second
      exact directory
    | cons next rest => exact (follow_cons.mp second).1
  have among : ∀ piece ∈ front ++ [name], piece ∈ names path := by
    rw [whole]
    exact fun piece => List.mem_append_left _
  have cut : names ("/".intercalate (front ++ [name])) = front ++ [name] :=
    names_intercalate (by simp) fun piece member => (mem_names (among piece member)).1
  refine isDirectoryPath_iff.mpr ⟨middle, place_eq_ok.mpr ⟨?_, ?_, ?_⟩, between⟩
  · intro empty
    have last := congrArg List.getLast? cut
    rw [empty, List.getLast?_concat] at last
    exact given (Option.some.inj last).symm
  · intro member
    obtain ⟨piece, inside, there⟩ := mem_intercalate (by decide) member
    exact null ((mem_names (among piece inside)).2 _ there)
  · rw [cut, origin_of_names disk given whole cut]
    exact (Extends.refl disk).follow _ first

/-- The parts of a path that leads to a directory lead to directories.
Induction on the names left. -/
theorem isDirectoryPath_of_mem_pathParts {disk : Disk} {path : String}
    (there : disk.isDirectoryPath path = true) {front rest : List String}
    (whole : names path = front ++ rest) {part : PathPart} (member : part ∈ pathParts front rest) :
    disk.isDirectoryPath part.path = true := by
  induction rest generalizing front with
  | nil => cases member
  | cons name rest ih =>
    rw [← List.singleton_append, ← List.append_assoc] at whole
    rw [pathParts] at member
    split at member
    · exact ih whole member
    · next given =>
      rcases List.mem_cons.mp member with rfl | member
      · exact isDirectoryPath_part there given whole
      · exact ih whole member

theorem HasFolder.isDirectoryPath {disk : Disk} {path : String} {folder : Location}
    (has : disk.HasFolder path folder) : disk.isDirectoryPath path = true :=
  isDirectoryPath_iff.mpr ⟨folder, has⟩

theorem makeDirectories_there {disk : Disk} {path : String}
    (there : disk.isDirectoryPath path = true) : makeDirectories path disk = (.ok (), disk) := by
  have made : makeParts (pathParts [] (names path)).reverse disk = .ok () disk :=
    makeParts_there fun part member =>
      isDirectoryPath_of_mem_pathParts there rfl (List.mem_reverse.mp member)
  obtain ⟨folder, has⟩ := isDirectoryPath_iff.mp there
  unfold makeDirectories EStateM.run
  rw [if_neg has.given, made]

/-! ### The directory of an output -/

theorem isDirectoryPath_of_slash {disk : Disk} {front : String} (given : front ≠ "")
    (there : disk.isDirectoryPath (front ++ "/") = true) : disk.isDirectoryPath front = true := by
  obtain ⟨final, led, directory⟩ := isDirectoryPath_iff.mp there
  obtain ⟨-, null, led⟩ := place_eq_ok.mp led
  have ended := names_slash front ""
  rw [String.append_empty] at ended
  rw [ended] at led
  have start : disk.origin (front ++ "/") = disk.origin front := by
    obtain ⟨c, rest, written⟩ :=
      List.exists_cons_of_ne_nil fun empty => given (String.toList_eq_nil_iff.mp empty)
    unfold origin
    rw [String.toList_append, written]
    rfl
  obtain ⟨led, -⟩ := (follow_directory (.inr rfl)).mp ⟨led, directory⟩
  rw [start] at led
  refine isDirectoryPath_iff.mpr ⟨final, place_eq_ok.mpr ⟨given, ?_, led⟩, directory⟩
  intro member
  rw [String.toList_append] at null
  exact null (List.mem_append_left _ member)

/-- Slashes at the end of a path do not matter for the directory that it leads to. -/
theorem isDirectoryPath_of_slashes {disk : Disk} {core : List Char} (given : core ≠ [])
    {count : Nat}
    (there : disk.isDirectoryPath (String.ofList (core ++ List.replicate count '/')) = true) :
    disk.isDirectoryPath (String.ofList core) = true := by
  induction count with
  | zero => rwa [List.replicate_zero, List.append_nil] at there
  | succ count ih =>
    rw [List.replicate_succ', ← List.append_assoc, String.ofList_append] at there
    refine ih (isDirectoryPath_of_slash ?_ there)
    intro empty
    have none := congrArg String.toList empty
    rw [String.toList_ofList] at none
    exact given (List.append_eq_nil_iff.mp none).1

theorem directoryOf_slash (front : String) {name : String} (slash : '/' ∉ name.toList) :
    directoryOf (front ++ "/" ++ name) = String.ofList
      (if (front.toList.reverse.dropWhile (· == '/')).isEmpty then front.toList ++ ['/']
      else (front.toList.reverse.dropWhile (· == '/')).reverse) := by
  have turned : (front ++ "/" ++ name).toList.reverse.dropWhile (· != '/') =
      '/' :: front.toList.reverse := by
    rw [String.toList_append, String.toList_append, List.reverse_append, List.reverse_append,
      List.dropWhile_append_of_pos, show "/".toList.reverse = ['/'] from rfl, List.singleton_append,
      List.dropWhile_cons_of_neg (by decide)]
    intro c member
    rw [bne_iff_ne]
    rintro rfl
    exact slash (List.mem_reverse.mp member)
  unfold directoryOf
  dsimp only
  rw [turned, List.dropWhile_cons_of_pos (by decide), List.reverse_cons, List.reverse_reverse]

/-- A path of slashes alone that is not empty has a slash at its end. -/
theorem getLast?_of_slashes {path : String} (given : path ≠ "")
    (slashes : path.toList.reverse.dropWhile (· == '/') = []) :
    path.toList.getLast? = some '/' := by
  obtain ⟨front, c, written⟩ :=
    (List.eq_nil_or_concat path.toList).resolve_left fun empty =>
      given (String.toList_eq_nil_iff.mp empty)
  have only := List.dropWhile_eq_nil_iff.mp slashes c (by simp [written])
  rw [written, List.concat_eq_append, List.getLast?_concat, eq_of_beq only]

/-- A path that leads to a directory still does so when all final slashes are
taken from it. -/
theorem isDirectoryPath_trimmed {disk : Disk} {path : String}
    (there : disk.isDirectoryPath path = true)
    (core : path.toList.reverse.dropWhile (· == '/') ≠ []) :
    disk.isDirectoryPath (String.ofList (path.toList.reverse.dropWhile (· == '/')).reverse) =
      true := by
  have slashes : path.toList.reverse.takeWhile (· == '/') =
      List.replicate (path.toList.reverse.takeWhile (· == '/')).length '/' := by
    refine List.eq_replicate_iff.mpr ⟨rfl, fun c member => ?_⟩
    have slash := List.mem_takeWhile_imp member
    exact eq_of_beq slash
  have whole := congrArg List.reverse
    (List.takeWhile_append_dropWhile (p := (· == '/')) (l := path.toList.reverse))
  rw [slashes, List.reverse_append, List.reverse_replicate, List.reverse_reverse] at whole
  rw [← String.ofList_toList (s := path), ← whole] at there
  exact isDirectoryPath_of_slashes (List.reverse_eq_nil_iff.not.mpr core) there

/-- The directory of a path inside a directory is that directory, with its
slashes taken away. -/
theorem isDirectoryPath_directoryOf {disk : Disk} {directory name : String}
    (there : disk.isDirectoryPath directory = true) (slash : '/' ∉ name.toList) :
    disk.isDirectoryPath (directoryOf (joinPath directory name)) = true := by
  obtain ⟨folder, has⟩ := isDirectoryPath_iff.mp there
  unfold joinPath
  split
  · next ended =>
    obtain ⟨front, rfl⟩ := eq_slash_of_getLast? (ended.resolve_left has.given)
    rw [directoryOf_slash front slash]
    split
    · rw [String.ofList_append, String.ofList_toList]
      exact there
    · next core =>
      rw [List.isEmpty_iff] at core
      refine isDirectoryPath_trimmed (isDirectoryPath_of_slash ?_ there) core
      rintro rfl
      exact core rfl
  · next last =>
    rw [directoryOf_slash directory slash]
    split
    · next slashes =>
      exact absurd (.inr (getLast?_of_slashes has.given (List.isEmpty_iff.mp slashes))) last
    · next core => exact isDirectoryPath_trimmed there (List.isEmpty_iff.not.mp core)

end Disk

end Command

end ShapeQuery
