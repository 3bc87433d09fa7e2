import ShapeQuery.Proofs.DiskPaths

/-!
Converting one schema file on a disk. What becomes of the file is told by a report: its
conversion, and the fate of the query, which may be refused by the parser, may find its
output closed to it, or may leave it empty because it cannot be encoded. A run says what a
list of reports has done to the disk.
-/
namespace ShapeQuery.Command

/-! ### Reports -/

/-- What the parser holds against a query, if it is asked. -/
def Tools.objection? (tools : Tools) (options : Options) (query : String) : Option String :=
  if options.check then tools.objection query else none

/-- What a file that is opened holds afterwards: the text, or nothing if it
cannot be encoded. -/
def Tools.left (tools : Tools) (text : String) : List UInt8 :=
  match tools.encode text with
  | .ok content => content
  | .error _ => []

/-- What became of the query of a schema file. A file may be opened and still
be left empty, as its text is encoded only then. -/
inductive Fate where
  /-- There was no query. -/
  | unmade
  /-- The parser of queries refused it. -/
  | rejected (objection : String)
  /-- The output could not be opened. -/
  | refused (fault : FileFault)
  /-- The output was opened, and so emptied, but the query could not be encoded. -/
  | emptied (fault : FileFault)
  | written (content : List UInt8)

namespace Fate

def failure? : Fate → Option String
  | .rejected objection => some (invalidQueryMessage objection)
  | .refused fault | .emptied fault => some fault.message
  | .unmade | .written _ => none

def content? : Fate → Option (List UInt8)
  | .unmade | .rejected _ | .refused _ => none
  | .emptied _ => some []
  | .written content => some content

def ofEncoding : Except FileFault (List UInt8) → Fate
  | .ok content => .written content
  | .error fault => .emptied fault

/-- What a fate says of the query: it was refused by the parser, or was not,
and could be encoded, or could not. -/
def Fits (tools : Tools) (options : Options) (query : String) : Fate → Prop
  | .unmade => False
  | .rejected objection => tools.objection? options query = some objection
  | .refused _ => tools.objection? options query = none
  | .emptied fault => tools.objection? options query = none ∧
    tools.encode (query ++ "\n") = .error fault
  | .written content => tools.objection? options query = none ∧
    tools.encode (query ++ "\n") = .ok content

/-- An output that was opened holds what its text leaves, whether or not that
could be encoded. -/
theorem content?_ofEncoding (tools : Tools) (text : String) :
    (ofEncoding (tools.encode text)).content? = some (tools.left text) := by
  unfold Tools.left
  cases tools.encode text with
  | ok content => rfl
  | error fault => rfl

theorem fits_ofEncoding {tools : Tools} {options : Options} {query : String}
    (unopposed : tools.objection? options query = none) :
    (ofEncoding (tools.encode (query ++ "\n"))).Fits tools options query := by
  cases encoded : tools.encode (query ++ "\n") with
  | ok content => exact ⟨unopposed, encoded⟩
  | error fault => exact ⟨unopposed, encoded⟩

section Fits

variable {tools : Tools} {options : Options} {query : String} {fate : Fate} {content : List UInt8}

/-- An output that was opened holds what its query leaves. -/
theorem Fits.content_eq (fits : fate.Fits tools options query)
    (left : fate.content? = some content) : content = tools.left (query ++ "\n") := by
  unfold Tools.left
  cases fate with
  | unmade | rejected | refused => cases left
  | emptied fault =>
    rw [fits.2]
    exact (Option.some.inj left).symm
  | written found =>
    rw [fits.2]
    exact (Option.some.inj left).symm

/-- A query without a failure was written, so its output was opened. -/
theorem Fits.content?_of_fine (fits : fate.Fits tools options query) (fine : fate.failure? = none) :
    ∃ content, fate.content? = some content := by
  cases fate with
  | unmade => cases fits
  | rejected | refused | emptied => cases fine
  | written content => exact ⟨content, rfl⟩

/-- An output that was opened for a query that failed has a text that cannot be
encoded. -/
theorem Fits.unencoded (fits : fate.Fits tools options query) (left : fate.content? = some content)
    (broken : fate.failure? ≠ none) : ∃ fault, tools.encode (query ++ "\n") = .error fault := by
  cases fate with
  | unmade | rejected | refused => cases left
  | emptied fault => exact ⟨fault, fits.2⟩
  | written content => exact absurd rfl broken

/-- Where the query was written, the output holds its bytes. -/
theorem Fits.encoded (fits : fate.Fits tools options query) (fine : fate.failure? = none) :
    tools.encode (query ++ "\n") = .ok (tools.left (query ++ "\n")) := by
  cases fate with
  | unmade => cases fits
  | rejected | refused | emptied => cases fine
  | written content => rw [Tools.left, fits.2]

end Fits

end Fate

/-- A schema file with its conversion and what became of the query. A run is
told by the reports of its files, in their order. -/
structure Report where
  name : String
  conversion : Conversion
  fate : Fate

namespace Report

def result (report : Report) : Except String String :=
  match report.conversion.query, report.fate.failure? with
  | .error message, _ => .error message
  | .ok _, some message => .error message
  | .ok query, none => .ok query

def succeeds (report : Report) : Bool :=
  report.result.isOk

def line (report : Report) : String :=
  match report.result with
  | .ok _ => "  OK  " ++ report.name ++ " -> " ++ outputName report.name ++ "\n"
  | .error message => "  FAIL " ++ report.name ++ ": " ++ message ++ "\n"

def opened (report : Report) : Bool :=
  report.conversion.query.isOk && report.fate.content?.isSome

/-- The output in a directory and what it holds, if it was opened. -/
def output? (folder : Location) (report : Report) : Option (Location × List UInt8) :=
  match report.conversion.query, report.fate.content? with
  | .ok _, some content => some (folder ++ [outputName report.name], content)
  | _, _ => none

/-- The output in a directory is as the report left it: it holds the query and
the end of a line, or it is empty if the query could not be encoded. -/
def HeldIn (report : Report) (tools : Tools) (disk : Disk) (folder : Location) : Prop :=
  ∀ query, report.conversion.query = .ok query → report.opened = true →
    disk.file? (folder ++ [outputName report.name]) = some (tools.left (query ++ "\n"))

theorem output?_eq_some {folder : Location} {report : Report} {output : Location × List UInt8} :
    report.output? folder = some output ↔ ∃ query content, report.conversion.query = .ok query ∧
      report.fate.content? = some content ∧
      (folder ++ [outputName report.name], content) = output := by
  unfold output?
  cases report.conversion.query with
  | error message => simp
  | ok query =>
    cases report.fate.content? with
    | none => simp
    | some content => simp

theorem opened_iff {report : Report} :
    report.opened = true ↔ ∃ query content, report.conversion.query = .ok query ∧
      report.fate.content? = some content := by
  unfold opened
  cases report.conversion.query with
  | error message => simp [Except.isOk, Except.toBool]
  | ok query => simp [Except.isOk, Except.toBool, Option.isSome_iff_exists]

theorem succeeds_iff {report : Report} :
    report.succeeds = true ↔ ∃ query, report.conversion.query = .ok query ∧
      report.fate.failure? = none := by
  unfold succeeds result
  cases report.conversion.query with
  | error message => simp [Except.isOk, Except.toBool]
  | ok query =>
    cases report.fate.failure? with
    | none => simp [Except.isOk, Except.toBool]
    | some message => simp [Except.isOk, Except.toBool]

section Fits

variable {tools : Tools} {options : Options} {report : Report}

theorem opened_of_succeeds
    (fits : ∀ query, report.conversion.query = .ok query → report.fate.Fits tools options query)
    (success : report.succeeds = true) : report.opened = true := by
  obtain ⟨query, found, fine⟩ := succeeds_iff.mp success
  obtain ⟨content, left⟩ := (fits query found).content?_of_fine fine
  exact opened_iff.mpr ⟨query, content, found, left⟩

/-- A file that fails changes its output only if the query cannot be encoded. -/
theorem unencoded_of_opened
    (fits : ∀ query, report.conversion.query = .ok query → report.fate.Fits tools options query)
    (opened : report.opened = true) (failed : report.succeeds = false) :
    ∃ query fault, report.conversion.query = .ok query ∧
      tools.encode (query ++ "\n") = .error fault := by
  obtain ⟨query, content, found, left⟩ := opened_iff.mp opened
  have broken : report.fate.failure? ≠ none := by
    intro fine
    rw [succeeds_iff.mpr ⟨query, found, fine⟩] at failed
    cases failed
  obtain ⟨fault, failing⟩ := (fits query found).unencoded left broken
  exact ⟨query, fault, found, failing⟩

end Fits

end Report

namespace Disk

/-- The schema text that a name in a directory stands for: the content of the
file, or the path of what is no file. -/
def schemaText (disk : Disk) (source : Location) (path name : String) : Except String (List Char) :=
  match disk.file? (source ++ [name]) with
  | none => .ok path.toList
  | some bytes =>
    match Text.decode bytes with
    | .ok text => .ok (Text.unifyLineEnds text)
    | .error fault => .error fault.message

/-- What the schema in a directory comes to, with fresh variables from a number on. -/
def conversion (disk : Disk) (options : Options) (source : Location) (name : String) (fresh : Nat) :
    Conversion :=
  match disk.schemaText source (joinPath options.inputDir name) name with
  | .error message => ⟨.error message, [], fresh⟩
  | .ok text => convertText (formatOf (joinPath options.inputDir name)) text options.form none fresh

def conversions (disk : Disk) (options : Options) (source : Location) (fresh : Nat) :
    List String → List Conversion
  | [] => []
  | name :: rest =>
    let first := disk.conversion options source name fresh
    first :: disk.conversions options source first.fresh rest

/-- The location that a path leads to, the root if it leads nowhere. -/
def folderOf (disk : Disk) (path : String) : Location :=
  match disk.place path with
  | .ok location => location
  | .error _ => []

theorem folderOf_eq {disk : Disk} {path : String} {location : Location}
    (led : disk.place path = .ok location) : disk.folderOf path = location := by
  rw [folderOf, led]

theorem name_inj {folder other : Location} {name name' : String}
    (same : folder ++ [name] = other ++ [name']) : name = name' :=
  List.singleton_inj.mp (List.append_inj_right' same rfl)

/-! ### One file -/

theorem run_bind {α β : Type} {action : StateM Disk α} {next : α → StateM Disk β}
    {disk after : Disk} {result : α} (done : action.run disk = (result, after)) :
    (action >>= next).run disk = (next result).run after := by
  rw [StateT.run_bind, done]
  rfl

variable {tools : Tools}

/-- Reading a schema finds what the disk has under its name and changes nothing. -/
theorem sourceText_run {disk : Disk} {options : Options} {source : Location} {name : String}
    (has : disk.HasFolder options.inputDir source) (valid : ValidName name) :
    (sourceText (host tools) (joinPath options.inputDir name)).run disk =
      (disk.schemaText source (joinPath options.inputDir name) name, disk) := by
  have null := (not_mem_joinPath (by decide)).mpr ⟨(place_eq_ok.mp has.led).2.1, valid.null⟩
  have led := (place_joinPath has.given valid.plain valid.slash).mpr ⟨source, has, valid, rfl⟩
  have read : ((host tools).readFile (joinPath options.inputDir name)).run disk =
      (disk.file? (source ++ [name]), disk) := by
    change (disk.readFile _, disk) = _
    rw [readFile, led]
  unfold sourceText schemaText
  rw [if_neg (by rwa [List.contains_iff_mem])]
  rw [run_bind read]
  cases disk.file? (source ++ [name]) with
  | none => rfl
  | some bytes =>
    dsimp only
    cases Text.decode bytes with
    | ok text => rfl
    | error fault => rfl

theorem err_run (disk : Disk) (text : String) :
    ((host tools).err text).run disk = ((), { disk with err := disk.err ++ text }) := rfl

theorem out_run (disk : Disk) (text : String) :
    ((host tools).out text).run disk = ((), { disk with out := disk.out ++ text }) := rfl

theorem objectionTo_run (disk : Disk) (options : Options) (query : String) :
    (objectionTo (host tools) options query).run disk = (tools.objection? options query, disk) := by
  unfold objectionTo Tools.objection?
  cases options.check with
  | true => rfl
  | false => rfl

/-- The log goes to the error stream, and nothing else changes. -/
theorem writeLog_run (verbose : Bool) (log : List LogLine) (disk : Disk) :
    ∃ text, (writeLog (host tools) verbose log).run disk =
      ((), { disk with err := disk.err ++ text }) := by
  unfold writeLog
  induction log generalizing disk with
  | nil => exact ⟨"", by rw [String.append_empty]; rfl⟩
  | cons line rest ih =>
    rw [List.forM_eq_forM, List.forM_cons]
    split
    · obtain ⟨text, done⟩ := ih { disk with err := disk.err ++ (line.text ++ "\n") }
      refine ⟨line.text ++ "\n" ++ text, ?_⟩
      rw [← String.append_assoc, run_bind (err_run disk _)]
      exact done
    · rw [pure_bind]
      exact ih disk

theorem lookup_filter_ne {place location : Location} (other : location ≠ place)
    (files : List (Location × List UInt8)) :
    (files.filter (·.1 != place)).lookup location = files.lookup location := by
  induction files with
  | nil => rfl
  | cons file rest ih =>
    by_cases same : file.1 = place
    · rw [List.filter_cons_of_neg (by simp [same]), ih]
      have apart : (location == file.1) = false := by simpa [same] using other
      rw [List.lookup_cons, apart]
    · rw [List.filter_cons_of_pos (by simp [same]), List.lookup_cons, List.lookup_cons, ih]

/-- A file that is put is found in its place, and every other file stays. -/
theorem file?_putFile (disk : Disk) (place location : Location) (content : List UInt8) :
    (disk.putFile place content).file? location =
      (([(place, content)] : List (Location × List UInt8)).lookup location).or
        (disk.file? location) := by
  unfold putFile file?
  rw [← List.singleton_append, List.lookup_append]
  by_cases same : location = place
  · subst same
    rw [List.lookup_cons, beq_self_eq_true]
    rfl
  · rw [lookup_filter_ne same]

/-- What trying to write an output does to a disk: the file is opened where its
path leads, or there is a fault and at most some directories are added. Where
the directory is there already, none is added, and only a name that cannot be
or a directory of that name keeps the file from being opened. -/
inductive Written (tools : Tools) (directory name text : String) (before : Disk) :
    Fate → Disk → Prop
  | opened {grown : Disk} {folder : Location} (more : before.Grown grown)
      (same : ∀ {folder}, before.HasFolder directory folder → grown = before)
      (has : grown.HasFolder directory folder) (valid : ValidName name)
      (free : grown.isDirectory (folder ++ [name]) = false) :
      Written tools directory name text before (.ofEncoding (tools.encode text))
        (grown.putFile (folder ++ [name]) (tools.left text))
  | refused {grown : Disk} {fault : FileFault} (more : before.Grown grown)
      (same : ∀ {folder}, before.HasFolder directory folder → grown = before ∧
        (ValidName name → before.isDirectory (folder ++ [name]) = true)) :
      Written tools directory name text before (.refused fault) grown

def writeResult (fate : Fate) : Except String Unit :=
  match fate.failure? with
  | none => .ok ()
  | some message => .error message

theorem isDirectoryPath_empty (disk : Disk) : disk.isDirectoryPath "" = false := rfl

/-- The directory that is made for an output; a path without one is in the
directory that the command is run in. -/
def outputDirectory (path : String) : String :=
  if directoryOf path = "" then "." else directoryOf path

/-- Where the directory of an output is there, none is made for it. -/
theorem outputDirectory_there {disk : Disk} {directory name : String} {folder : Location}
    (has : disk.HasFolder directory folder) (slash : '/' ∉ name.toList) :
    makeDirectories (outputDirectory (joinPath directory name)) disk = (.ok (), disk) := by
  have inner := isDirectoryPath_directoryOf has.isDirectoryPath slash
  have given : directoryOf (joinPath directory name) ≠ "" := by
    intro empty
    rw [empty, isDirectoryPath_empty] at inner
    cases inner
  unfold outputDirectory
  rw [if_neg given, makeDirectories_there inner]

theorem makeDirectories_run (disk : Disk) (path : String) :
    ((host tools).makeDirectories path).run disk = makeDirectories path disk := rfl

theorem writeFile_run (disk : Disk) (path text : String) :
    ((host tools).writeFile path text).run disk = writeFile tools path text disk := rfl

def encodingResult (tools : Tools) (text : String) : Except FileFault Unit :=
  match tools.encode text with
  | .ok _ => .ok ()
  | .error fault => .error fault

/-- A file is opened unless its path leads nowhere or to a directory. Its text
is encoded only after that. -/
theorem writeFile_joinPath (disk : Disk) {directory : String} (given : directory ≠ "")
    {name : String} (text : String) (plain : name ≠ "" ∧ name ≠ "." ∧ name ≠ "..")
    (slash : '/' ∉ name.toList) :
    (∃ fault, writeFile tools (joinPath directory name) text disk = (.error fault, disk) ∧
      ∀ {folder}, disk.HasFolder directory folder → ValidName name →
        disk.isDirectory (folder ++ [name]) = true) ∨
    ∃ folder, writeFile tools (joinPath directory name) text disk =
        (encodingResult tools text, disk.putFile (folder ++ [name]) (tools.left text)) ∧
      disk.HasFolder directory folder ∧ ValidName name ∧
      disk.isDirectory (folder ++ [name]) = false := by
  unfold writeFile
  cases led : disk.place (joinPath directory name) with
  | error fault =>
    refine .inl ⟨fault, rfl, fun has valid => ?_⟩
    rw [(place_joinPath given plain slash).mpr ⟨_, has, valid, rfl⟩] at led
    cases led
  | ok location =>
    obtain ⟨folder, has, valid, rfl⟩ := (place_joinPath given plain slash).mp led
    dsimp only
    split
    · next there =>
      refine .inl ⟨_, rfl, fun has' _ => ?_⟩
      cases has.led.symm.trans has'.led
      exact there
    · next free =>
      refine .inr ⟨folder, ?_, has, valid, Bool.eq_false_iff.mpr free⟩
      unfold encodingResult Tools.left
      cases tools.encode text with
      | ok content => rfl
      | error fault => rfl

/-- Writing a query makes the directories of its output and opens it, or comes
to a fault on the way. -/
theorem writeQuery_run (disk : Disk) {directory : String} (given : directory ≠ "") {name : String}
    (query : String) (plain : name ≠ "" ∧ name ≠ "." ∧ name ≠ "..") (slash : '/' ∉ name.toList) :
    ∃ fate after, (writeQuery (host tools) (joinPath directory name) query).run disk =
        (writeResult fate, after) ∧
      Written tools directory name (query ++ "\n") disk fate after := by
  obtain ⟨result, grown, made⟩ : ∃ result grown,
      makeDirectories (outputDirectory (joinPath directory name)) disk = (result, grown) :=
    ⟨_, _, (Prod.eta _).symm⟩
  have more := makeDirectories_grown made
  have same : ∀ {folder}, disk.HasFolder directory folder → result = .ok () ∧ grown = disk := by
    intro folder has
    cases made.symm.trans (outputDirectory_there has slash)
    exact ⟨rfl, rfl⟩
  unfold writeQuery
  dsimp only
  rw [← outputDirectory,
    run_bind ((makeDirectories_run disk (outputDirectory (joinPath directory name))).trans made)]
  cases result with
  | error fault =>
    refine ⟨.refused fault, grown, rfl, .refused more fun has => ?_⟩
    cases (same has).1
  | ok done =>
    dsimp only
    rcases writeFile_joinPath grown given (query ++ "\n") plain slash with
      ⟨fault, written, taken⟩ | ⟨folder, written, has, valid, free⟩
    · rw [run_bind ((writeFile_run grown _ _).trans written)]
      refine ⟨.refused fault, grown, rfl, .refused more fun has => ?_⟩
      obtain ⟨-, rfl⟩ := same has
      exact ⟨rfl, taken has⟩
    · rw [run_bind ((writeFile_run grown _ _).trans written)]
      refine ⟨_, _, ?_, .opened more (fun has => (same has).2) has valid free⟩
      unfold encodingResult
      cases tools.encode (query ++ "\n") with
      | ok content => rfl
      | error fault => rfl

theorem putFile_extends (disk : Disk) (location : Location) (content : List UInt8) :
    disk.Extends (disk.putFile location content) where
  current := rfl
  directory _ there := there
  file other there := by
    rw [file?_putFile, Option.isSome_or, there, Bool.or_true]

/-- What is a directory depends on the current location and the directories
alone, and not on files. -/
theorem isDirectory_congr {disk other : Disk} (current : other.current = disk.current)
    (same : other.directories = disk.directories) (location : Location) :
    other.isDirectory location = disk.isDirectory location := by
  unfold isDirectory
  rw [current, same]

end Disk

/-! ### Names of outputs -/

theorem toList_outputName (name : String) :
    (outputName name).toList = dropExtension name.toList ++ ['.', 'r', 'q'] := by
  unfold outputName
  rw [String.toList_append, String.toList_ofList]
  rfl

theorem mem_dropExtension {name : List Char} {c : Char} (member : c ∈ dropExtension name) :
    c ∈ name := by
  unfold dropExtension at member
  dsimp only at member
  split at member
  · exact member
  · next dot stem cut =>
    split at member
    · exact member
    · have inside : c ∈ name.reverse.drop (name.reverse.takeWhile (· != '.')).length := by
        rw [cut]
        exact List.mem_cons_of_mem _ (List.mem_reverse.mp member)
      exact List.mem_reverse.mp (List.mem_of_mem_drop inside)

/-- The name of an output is neither empty nor a point or two, for it has an
extension. -/
theorem outputName_plain (name : String) :
    outputName name ≠ "" ∧ outputName name ≠ "." ∧ outputName name ≠ ".." := by
  have long : 3 ≤ (outputName name).toList.length := by
    rw [toList_outputName, List.length_append]
    exact Nat.le_add_left 3 _
  refine ⟨?_, ?_, ?_⟩ <;> intro same <;> rw [same] at long <;> exact absurd long (by decide)

theorem not_mem_outputName {name : String} {c : Char} (without : c ∉ name.toList)
    (other : c ∉ ['.', 'r', 'q']) : c ∉ (outputName name).toList := by
  rw [toList_outputName, List.mem_append, not_or]
  exact ⟨fun member => without (mem_dropExtension member), other⟩

/-- The name of an output is valid exactly if it is not too long, where the
name of the schema is valid. -/
theorem ValidName.outputName {name : String} (valid : ValidName name) :
    ValidName (outputName name) ↔ (Command.outputName name).utf8ByteSize ≤ maxNameBytes := by
  constructor
  · exact fun valid => valid.short
  · intro short
    exact ⟨outputName_plain name, not_mem_outputName valid.slash (by decide),
      not_mem_outputName valid.null (by decide), short⟩

/-- An output is no schema: its name ends with another letter than those of the
extensions. -/
theorem isSchemaName_outputName (name : String) : isSchemaName (outputName name) = false := by
  obtain ⟨rest, turned⟩ : ∃ rest, (outputName name).toList.reverse.map Char.toLower =
      'q' :: rest := by
    rw [toList_outputName, List.reverse_append]
    exact ⟨_, rfl⟩
  unfold isSchemaName hasExtension
  rw [turned]
  rfl

/-! ### Runs -/

/-- What converting some files does to a disk: the outputs that are opened are
put into the output directory, one after the other, and no other file changes.
Where the output directory is there already no directory is added, and only a
name that is too long or a directory in the place of an output keeps it from
being opened. -/
structure Run (tools : Tools) (options : Options) (before after : Disk) (reports : List Report) :
    Prop where
  extend : before.Extends after
  fits : ∀ report ∈ reports, ∀ query, report.conversion.query = .ok query →
    report.fate.Fits tools options query
  placed : ∀ report ∈ reports, report.opened = true →
    ∃ folder, after.HasFolder options.outputDir folder
  file? : ∀ folder,
    (∀ report ∈ reports, report.opened = true → after.HasFolder options.outputDir folder) →
    ∀ location, after.file? location =
      ((reports.filterMap (Report.output? folder)).reverse.lookup location).or
        (before.file? location)
  there : ∀ folder, before.HasFolder options.outputDir folder →
    after.directories = before.directories ∧
    ∀ report ∈ reports, ∀ query, report.conversion.query = .ok query →
      tools.objection? options query = none →
      (report.opened = true ↔ (outputName report.name).utf8ByteSize ≤ maxNameBytes ∧
        before.isDirectory (folder ++ [outputName report.name]) = false)

namespace Run

variable {tools : Tools} {options : Options} {before middle after : Disk}

theorem quiet (current : after.current = before.current) (files : after.files = before.files)
    (directories : after.directories = before.directories) : Run tools options before after [] where
  extend := by
    refine ⟨current, fun location there => ?_, fun location there => ?_⟩
    · rwa [Disk.isDirectory_congr current directories]
    · rwa [Disk.file?, files]
  fits := List.forall_mem_nil _
  placed := List.forall_mem_nil _
  file? := by
    intro folder placed location
    rw [Disk.file?, files]
    rfl
  there _ _ := ⟨directories, List.forall_mem_nil _⟩

/-- Two runs one after the other are a run with the reports of both. -/
theorem append {first second : List Report} (start : Run tools options before middle first)
    (rest : Run tools options middle after second) :
    Run tools options before after (first ++ second) where
  extend := start.extend.trans rest.extend
  fits := List.forall_mem_append.mpr ⟨start.fits, rest.fits⟩
  placed := by
    refine List.forall_mem_append.mpr ⟨fun report member opened => ?_, rest.placed⟩
    obtain ⟨folder, has⟩ := start.placed report member opened
    exact ⟨folder, rest.extend.hasFolder has⟩
  file? := by
    intro folder placed location
    obtain ⟨placed, placedLater⟩ := List.forall_mem_append.mp placed
    have between : ∀ report ∈ first, report.opened = true →
        middle.HasFolder options.outputDir folder := by
      intro report member opened
      obtain ⟨found, has⟩ := start.placed report member opened
      cases (rest.extend.hasFolder has).led.symm.trans (placed report member opened).led
      exact has
    rw [rest.file? folder placedLater, start.file? folder between, List.filterMap_append,
      List.reverse_append, List.lookup_append, Option.or_assoc]
  there := by
    intro folder has
    obtain ⟨same, each⟩ := start.there folder has
    obtain ⟨same', each'⟩ := rest.there folder (start.extend.hasFolder has)
    refine ⟨same'.trans same, List.forall_mem_append.mpr ⟨each, ?_⟩⟩
    intro report member query found unopposed
    rw [each' report member query found unopposed, Disk.isDirectory_congr start.extend.current same]

theorem folder {reports : List Report} (run : Run tools options before after reports) :
    ∀ report ∈ reports, report.opened = true →
      after.HasFolder options.outputDir (after.folderOf options.outputDir) := by
  intro report member opened
  obtain ⟨folder, has⟩ := run.placed report member opened
  rw [Disk.folderOf_eq has.led]
  exact has

theorem schema {reports : List Report} (run : Run tools options before after reports)
    {name : String} (schema : isSchemaName name = true) (source : Location) :
    after.file? (source ++ [name]) = before.file? (source ++ [name]) := by
  rw [run.file? _ run.folder, List.lookup_eq_none_iff.mpr, Option.none_or]
  intro output member
  obtain ⟨report, -, found⟩ := List.mem_filterMap.mp (List.mem_reverse.mp member)
  obtain ⟨query, content, -, -, rfl⟩ := Report.output?_eq_some.mp found
  rw [bne_iff_ne]
  intro same
  rw [Disk.name_inj same, isSchemaName_outputName] at schema
  cases schema

/-- Where no output is opened, no file changes. Directories may have been added. -/
theorem unopened {report : Report} (closed : report.opened = false)
    (fits : ∀ query, report.conversion.query = .ok query → report.fate.Fits tools options query)
    (more : before.Grown after)
    (there : ∀ folder, before.HasFolder options.outputDir folder → after = before ∧
      ∀ query, report.conversion.query = .ok query → tools.objection? options query = none →
        ¬ ((outputName report.name).utf8ByteSize ≤ maxNameBytes ∧
          before.isDirectory (folder ++ [outputName report.name]) = false)) :
    Run tools options before after [report] where
  extend := more.extends
  fits := List.forall_mem_singleton.mpr fits
  placed := by
    refine List.forall_mem_singleton.mpr fun opened => ?_
    rw [closed] at opened
    cases opened
  file? := by
    intro folder _ location
    have nothing : report.output? folder = none := by
      rw [Option.eq_none_iff_forall_ne_some]
      intro output found
      obtain ⟨query, content, converted, left, -⟩ := Report.output?_eq_some.mp found
      rw [Report.opened_iff.mpr ⟨query, content, converted, left⟩] at closed
      cases closed
    rw [more.file?, List.filterMap_cons_none nothing]
    rfl
  there := by
    intro folder has
    obtain ⟨rfl, each⟩ := there folder has
    refine ⟨rfl, List.forall_mem_singleton.mpr fun query found unopposed => ?_⟩
    rw [closed]
    exact iff_of_false Bool.false_ne_true (each query found unopposed)

theorem failed {report : Report} {message : String}
    (failure : report.conversion.query = .error message) (disk : Disk) :
    Run tools options disk disk [report] := by
  have none : ∀ query, report.conversion.query ≠ .ok query := by
    intro query success
    cases failure.symm.trans success
  refine unopened ?_ (fun query success => absurd success (none query)) (.refl disk) ?_
  · rw [Report.opened, failure]
    rfl
  · exact fun folder has => ⟨rfl, fun query success => absurd success (none query)⟩

/-- A file whose query the parser refuses: nothing is written. -/
theorem rejected {report : Report} {query objection : String}
    (success : report.conversion.query = .ok query)
    (opposed : tools.objection? options query = some objection)
    (fate : report.fate = .rejected objection) (disk : Disk) :
    Run tools options disk disk [report] := by
  have only : ∀ other, report.conversion.query = .ok other → other = query := by
    intro other again
    cases success.symm.trans again
    rfl
  refine unopened ?_ (fun other again => ?_) (.refl disk) fun folder has => ⟨rfl, ?_⟩
  · rw [Report.opened, success, fate]
    rfl
  · rw [only other again, fate]
    exact opposed
  · intro other again unopposed
    rw [only other again, opposed] at unopposed
    cases unopposed

/-- A file that gives a query: its output is opened, or there is a fault. -/
theorem written {report : Report} (valid : ValidName report.name) {query : String}
    (success : report.conversion.query = .ok query)
    (unopposed : tools.objection? options query = none)
    (written : Disk.Written tools options.outputDir (outputName report.name) (query ++ "\n") before
      report.fate after) : Run tools options before after [report] := by
  have only : ∀ other, report.conversion.query = .ok other → other = query := by
    intro other again
    cases success.symm.trans again
    rfl
  generalize became : report.fate = fate at written
  cases written with
  | @opened grown folder more same has fits free =>
    have left : report.fate.content? = some (tools.left (query ++ "\n")) := by
      rw [became, Fate.content?_ofEncoding]
    have opened : report.opened = true := Report.opened_iff.mpr ⟨query, _, success, left⟩
    have further := grown.putFile_extends (folder ++ [outputName report.name])
      (tools.left (query ++ "\n"))
    refine ⟨more.extends.trans further, ?_, ?_, ?_, ?_⟩
    · refine List.forall_mem_singleton.mpr fun other again => ?_
      rw [only other again, became]
      exact Fate.fits_ofEncoding unopposed
    · exact List.forall_mem_singleton.mpr fun _ => ⟨folder, further.hasFolder has⟩
    · intro other placed location
      have there := placed report List.mem_cons_self opened
      cases (further.hasFolder has).led.symm.trans there.led
      rw [Disk.file?_putFile, more.file?,
        List.filterMap_cons_some (Report.output?_eq_some.mpr ⟨query, _, success, left, rfl⟩)]
      rfl
    · intro other there
      obtain rfl := same there
      cases has.led.symm.trans there.led
      refine ⟨rfl, List.forall_mem_singleton.mpr fun _ _ _ => ?_⟩
      exact iff_of_true opened ⟨fits.short, free⟩
  | @refused grown fault more same =>
    refine unopened ?_ (fun other again => ?_) more fun folder has => ?_
    · rw [Report.opened, became]
      exact Bool.and_false _
    · rw [only other again, became]
      exact unopposed
    · obtain ⟨rfl, taken⟩ := same has
      refine ⟨rfl, ?_⟩
      rintro - - - ⟨short, free⟩
      rw [taken (valid.outputName.mpr short)] at free
      cases free

/-- Where nothing is in the way of the outputs, the parser refuses nothing and
everything can be encoded, the files that succeed are those that give a
query. -/
theorem countP_succeeds {reports : List Report} (run : Run tools options before after reports)
    {folder : Location} (has : before.HasFolder options.outputDir folder)
    (unopposed : ∀ query, tools.objection? options query = none)
    (encodes : ∀ text, ∃ content, tools.encode text = .ok content)
    (free : ∀ report ∈ reports, (outputName report.name).utf8ByteSize ≤ maxNameBytes ∧
      before.isDirectory (folder ++ [outputName report.name]) = false) :
    reports.countP (·.succeeds) = (reports.map (·.conversion)).countP (·.query.isOk) := by
  rw [List.countP_map]
  refine List.countP_congr fun report member => ?_
  rw [Function.comp_apply]
  cases found : report.conversion.query with
  | ok query =>
    have opened := ((run.there folder has).2 report member query found (unopposed query)).mpr
      (free report member)
    refine iff_of_true ?_ rfl
    by_contra failed
    obtain ⟨other, fault, -, failing⟩ := Report.unencoded_of_opened (run.fits report member) opened
      (Bool.eq_false_iff.mpr failed)
    obtain ⟨content, encoded⟩ := encodes (other ++ "\n")
    cases failing.symm.trans encoded
  | error message =>
    refine iff_of_false (fun success => ?_) (by simp [Except.isOk, Except.toBool])
    obtain ⟨query, again, -⟩ := Report.succeeds_iff.mp success
    cases found.symm.trans again

end Run

namespace Disk

variable {tools : Tools}

theorem Written.out {directory name text : String} {before after : Disk} {fate : Fate}
    (written : Written tools directory name text before fate after) : after.out = before.out := by
  cases written with
  | opened more => exact more.out
  | refused more => exact more.out

/-- One file is read, converted and reported. Its query is checked and its
output written, if there is one. -/
theorem convertFile_run {disk : Disk} {options : Options} {source : Location} {name : String}
    (has : disk.HasFolder options.inputDir source) (given : options.outputDir ≠ "")
    (valid : ValidName name) (fresh : Nat) :
    ∃ (report : Report) (after : Disk),
      (convertFile (host tools) options (joinPath options.inputDir name) none
        (joinPath options.outputDir (outputName name)) none fresh).run disk =
        ((report.result, report.conversion.fresh), after) ∧
      report.name = name ∧ report.conversion = disk.conversion options source name fresh ∧
      Run tools options disk after [report] ∧ after.out = disk.out := by
  unfold convertFile
  rw [run_bind (sourceText_run has valid)]
  cases read : disk.schemaText source (joinPath options.inputDir name) name with
  | error message =>
    have conversion : disk.conversion options source name fresh = ⟨.error message, [], fresh⟩ := by
      rw [Disk.conversion, read]
    refine ⟨⟨name, disk.conversion options source name fresh, .unmade⟩, disk, ?_, rfl, rfl, ?_, rfl⟩
    · rw [Report.result, conversion]
      rfl
    · exact .failed (by rw [conversion]) disk
  | ok text =>
    have conversion : convertText (formatOf (joinPath options.inputDir name)) text options.form none
        fresh = disk.conversion options source name fresh := by
      rw [Disk.conversion, read]
    dsimp only [Option.getD_none]
    rw [conversion]
    obtain ⟨log, logged⟩ :=
      writeLog_run options.verbose (disk.conversion options source name fresh).log disk
    rw [run_bind logged]
    have start : Run tools options disk { disk with err := disk.err ++ log } [] :=
      .quiet rfl rfl rfl
    cases query : (disk.conversion options source name fresh).query with
    | error message =>
      refine ⟨⟨name, disk.conversion options source name fresh, .unmade⟩, _, ?_, rfl, rfl,
        start.append (.failed query _), rfl⟩
      rw [Report.result, query]
      rfl
    | ok found =>
      dsimp only
      rw [run_bind (objectionTo_run _ options found)]
      cases opposed : tools.objection? options found with
      | some objection =>
        refine ⟨⟨name, disk.conversion options source name fresh, .rejected objection⟩, _, ?_, rfl,
          rfl, start.append (.rejected query opposed rfl _), rfl⟩
        rw [Report.result, query]
        rfl
      | none =>
        obtain ⟨fate, after, wrote, written⟩ := writeQuery_run { disk with err := disk.err ++ log }
          given found (outputName_plain name) (not_mem_outputName valid.slash (by decide))
        dsimp only
        rw [if_neg (joinPath_ne_empty _ (outputName_plain name).1), run_bind wrote]
        refine ⟨⟨name, disk.conversion options source name fresh, fate⟩, after, ?_, rfl, rfl,
          start.append (.written valid query opposed written), written.out⟩
        unfold Report.result writeResult
        rw [query]
        cases fate.failure? with
        | none => rfl
        | some message => rfl

end Disk

end ShapeQuery.Command
