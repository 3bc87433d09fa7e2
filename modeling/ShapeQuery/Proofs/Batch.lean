import ShapeQuery.Proofs.Reports
import Mathlib.Data.List.Dedup

/-!
What a batch leaves on the disk. Every schema file is converted and reported once, in order of the
names, and nothing changes but the outputs that are opened. Names that differ only in their
extension have one output between them, which the last of them keeps. A query that cannot be encoded
is a failure that leaves an empty output.
-/
namespace ShapeQuery.Command

namespace Disk

variable {tools : Tools}

/-! ### Batches -/

/-- What files are converted to depends on the contents of these files only, so
it does not matter when the outputs are written. -/
theorem conversions_congr {disk other : Disk} (options : Options) {source : Location}
    {names : List String}
    (same : ∀ name ∈ names, other.file? (source ++ [name]) = disk.file? (source ++ [name]))
    (fresh : Nat) :
    other.conversions options source fresh names = disk.conversions options source fresh names := by
  induction names generalizing fresh with
  | nil => rfl
  | cons name rest ih =>
    obtain ⟨here, others⟩ := List.forall_mem_cons.mp same
    have first : other.conversion options source name fresh =
        disk.conversion options source name fresh := by
      rw [conversion, conversion, schemaText, schemaText, here]
    rw [conversions, conversions, first, ih others]

def tallyAfter (tally : Tally) (report : Report) : Tally :=
  if report.succeeds then { tally with converted := tally.converted + 1 }
  else { tally with failed := tally.failed + 1 }

/-- The loop goes on with the tally and the line of each report. -/
theorem convertEach_cons {options : Options} {name : String} {rest : List String} {tally : Tally}
    {fresh : Nat} {disk middle : Disk} {report : Report} (named : report.name = name)
    (ran : (convertFile (host tools) options (joinPath options.inputDir name) none
      (joinPath options.outputDir (outputName name)) none fresh).run disk =
      ((report.result, report.conversion.fresh), middle)) :
    (convertEach (host tools) options tally fresh (name :: rest)).run disk =
      (convertEach (host tools) options (tallyAfter tally report) report.conversion.fresh rest).run
        { middle with out := middle.out ++ report.line } := by
  subst named
  rw [convertEach, run_bind ran]
  unfold tallyAfter Report.line Report.succeeds
  cases report.result with
  | ok query =>
    dsimp only
    rw [run_bind (out_run middle _)]
    rfl
  | error message =>
    dsimp only
    rw [run_bind (out_run middle _)]
    rfl

theorem tallyAfter_count (tally : Tally) (report : Report) (reports : List Report) :
    (⟨(tallyAfter tally report).converted + reports.countP (·.succeeds),
      (tallyAfter tally report).failed + reports.countP (!·.succeeds)⟩ : Tally) =
      ⟨tally.converted + (report :: reports).countP (·.succeeds),
        tally.failed + (report :: reports).countP (!·.succeeds)⟩ := by
  unfold tallyAfter
  rw [List.countP_cons, List.countP_cons]
  cases report.succeeds with
  | true => simp; omega
  | false => simp; omega

/-- Several files are converted one after the other. Induction on the names;
what is written for one file leaves the schemas of the others as they are. -/
theorem convertEach_run {options : Options} {source : Location} {names : List String}
    (valid : ∀ name ∈ names, ValidName name) (schemas : ∀ name ∈ names, isSchemaName name = true)
    {disk : Disk} (has : disk.HasFolder options.inputDir source) (given : options.outputDir ≠ "")
    (tally : Tally) (fresh : Nat) :
    ∃ (reports : List Report) (after : Disk),
      (convertEach (host tools) options tally fresh names).run disk =
        (⟨tally.converted + reports.countP (·.succeeds),
          tally.failed + reports.countP (!·.succeeds)⟩, after) ∧
      reports.map (·.name) = names ∧
      reports.map (·.conversion) = disk.conversions options source fresh names ∧
      Run tools options disk after reports ∧
      after.out = disk.out ++ String.join (reports.map Report.line) := by
  induction names generalizing disk tally fresh with
  | nil =>
    refine ⟨[], disk, rfl, rfl, rfl, .quiet rfl rfl rfl, ?_⟩
    rw [List.map_nil, String.join_nil, String.append_empty]
  | cons name rest ih =>
    obtain ⟨validHere, validOthers⟩ := List.forall_mem_cons.mp valid
    obtain ⟨-, schemaOthers⟩ := List.forall_mem_cons.mp schemas
    obtain ⟨report, middle, ran, named, converted, run, out⟩ :=
      @convertFile_run tools _ _ _ _ has given validHere fresh
    have printed : Run tools options middle { middle with out := middle.out ++ report.line } [] :=
      .quiet rfl rfl rfl
    have step := run.append printed
    obtain ⟨reports, after, ranOthers, namedOthers, convertedOthers, runOthers, outOthers⟩ :=
      ih validOthers schemaOthers (step.extend.hasFolder has) (tallyAfter tally report)
        report.conversion.fresh
    rw [conversions_congr options fun name member => step.schema (schemaOthers name member) source,
      converted] at convertedOthers
    refine ⟨report :: reports, after, ?_, ?_, ?_, step.append runOthers, ?_⟩
    · rw [convertEach_cons named ran, ranOthers, tallyAfter_count]
    · rw [List.map_cons, named, namedOthers]
    · rw [List.map_cons, convertedOthers, converted, conversions]
    · rw [outOthers, List.map_cons, String.join_cons, out, String.append_assoc]

theorem WellNamed.locations {disk : Disk} (named : disk.WellNamed) :
    ∀ location ∈ disk.locations, location.Valid := by
  unfold Disk.locations
  rw [List.forall_mem_append]
  refine ⟨fun location member => named location (List.mem_cons_of_mem _ member), ?_⟩
  intro location member
  obtain ⟨length, -, rfl⟩ := List.mem_map.mp member
  exact fun name inside => named disk.current List.mem_cons_self name (List.mem_of_mem_take inside)

/-- A disk with valid names only has no other names in its directories, the one
that a batch goes through among them. -/
theorem WellNamed.entries {disk : Disk} (named : disk.WellNamed) {source : Location} {name : String}
    (member : name ∈ disk.entries source) : ValidName name := by
  obtain ⟨location, inside, found⟩ := List.mem_filterMap.mp (List.mem_eraseDups.mp member)
  split at found
  · exact named.locations location inside name (List.mem_of_getLast? found)
  · cases found

end Disk

/-- Every report is counted once, as converted or as failed. -/
theorem length_eq_counts (reports : List Report) :
    reports.countP (·.succeeds) + reports.countP (!·.succeeds) = reports.length := by
  rw [List.length_eq_countP_add_countP (·.succeeds)]
  simp

theorem length_schemaNames (names : List String) :
    (schemaNames names).length = names.countP isSchemaName := by
  unfold schemaNames
  rw [List.length_mergeSort, List.countP_eq_length_filter]

theorem mem_schemaNames {names : List String} {name : String} :
    name ∈ schemaNames names ↔ name ∈ names ∧ isSchemaName name = true := by
  unfold schemaNames
  rw [List.mem_mergeSort, List.mem_filter]

/-- A batch: the disk on which the directories were there, the directory with
the schemas and the names in it, the directory with the outputs, and the
reports. -/
structure Batch where
  made : Disk
  source : Location
  names : List String
  folder : Location
  reports : List Report

namespace Batch

def outputs (batch : Batch) : List String :=
  (batch.reports.filter (·.succeeds)).map (outputName ·.name)

def openedOutputs (batch : Batch) : List String :=
  (batch.reports.filter (·.opened)).map (outputName ·.name)

/-- The names of the files that were converted, without their extensions. -/
def stems (batch : Batch) : List (List Char) :=
  (batch.reports.filter (·.succeeds)).map (dropExtension ·.name.toList)

/-- Two files have the same output exactly if their names differ in nothing but
the extension. -/
theorem nodup_outputs_iff (batch : Batch) : batch.outputs.Nodup ↔ batch.stems.Nodup := by
  have extended : batch.outputs = batch.stems.map fun stem => String.ofList stem ++ ".rq" := by
    rw [outputs, stems, List.map_map]
    rfl
  have injective : Function.Injective fun stem : List Char => String.ofList stem ++ ".rq" := by
    intro stem other same
    have chars := congrArg String.toList same
    simp only [String.toList_append, String.toList_ofList] at chars
    exact List.append_cancel_right chars
  rw [extended, List.nodup_map_iff injective]

/-- What was listed, converted, refused and printed in a batch. The reports
stand in the order of the names, and each of them comes of the content of its
file. -/
structure Describes (batch : Batch) (tools : Tools) (options : Options) (fresh : Nat)
    (disk after : Disk) : Prop where
  made : Disk.makeDirectories options.outputDir disk = (.ok (), batch.made)
  source : batch.made.HasFolder options.inputDir batch.source
  names : batch.names = batch.made.entries batch.source
  reported : batch.reports.map (·.name) = schemaNames batch.names
  converted : batch.reports.map (·.conversion) =
    disk.conversions options batch.source fresh (schemaNames batch.names)
  printed : after.out = disk.out ++ String.join (batch.reports.map Report.line)
  /-- What became of a query agrees with what the parser says of it and with
  its encoding. -/
  fits : ∀ report ∈ batch.reports, ∀ query, report.conversion.query = .ok query →
    report.fate.Fits tools options query
  placed : ∀ report ∈ batch.reports, report.opened = true →
    after.HasFolder options.outputDir batch.folder
  /-- Where the output directory is there, only a name that is too long or a
  directory in its place keeps an output from being opened. -/
  opened : batch.made.HasFolder options.outputDir batch.folder →
    ∀ report ∈ batch.reports, ∀ query, report.conversion.query = .ok query →
      tools.objection? options query = none →
      (report.opened = true ↔ (outputName report.name).utf8ByteSize ≤ maxNameBytes ∧
        batch.made.isDirectory (batch.folder ++ [outputName report.name]) = false)
  file? : ∀ location, after.file? location =
    ((batch.reports.filterMap (Report.output? batch.folder)).reverse.lookup location).or
      (disk.file? location)

variable {batch : Batch} {tools : Tools} {options : Options} {fresh : Nat} {disk after : Disk}

/-- Of several outputs in one place the last one that was opened stays. -/
theorem Describes.last (described : batch.Describes tools options fresh disk after)
    {front back : List Report} {report : Report} (among : batch.reports = front ++ report :: back)
    (alone : ∀ later ∈ back, later.opened = true → outputName later.name ≠ outputName report.name) :
    report.HeldIn tools after batch.folder := by
  intro query converted opened
  have member : report ∈ batch.reports := by simp [among]
  obtain ⟨other, content, again, left⟩ := Report.opened_iff.mp opened
  have held := (described.fits report member query converted).content_eq left
  have behind : (back.filterMap (Report.output? batch.folder)).reverse.lookup
      (batch.folder ++ [outputName report.name]) = none := by
    rw [List.lookup_eq_none_iff]
    intro output inside
    obtain ⟨later, listed, found⟩ := List.mem_filterMap.mp (List.mem_reverse.mp inside)
    obtain ⟨query, content, converted, left, rfl⟩ := Report.output?_eq_some.mp found
    rw [bne_iff_ne]
    intro same
    exact alone later listed (Report.opened_iff.mpr ⟨query, content, converted, left⟩)
      (Disk.name_inj same).symm
  rw [described.file?, among, List.filterMap_append,
    List.filterMap_cons_some (Report.output?_eq_some.mpr ⟨query, content, converted, left, rfl⟩),
    List.reverse_append, List.reverse_cons, List.append_assoc, List.lookup_append, behind,
    Option.none_or, List.singleton_append, List.lookup_cons, beq_self_eq_true, ← held]
  rfl

/-- Where no two outputs are opened in one place, all of them stay. -/
theorem Describes.held (described : batch.Describes tools options fresh disk after)
    (distinct : batch.openedOutputs.Nodup) :
    ∀ report ∈ batch.reports, report.HeldIn tools after batch.folder := by
  intro report member query converted opened
  obtain ⟨front, back, among⟩ := List.append_of_mem member
  unfold openedOutputs at distinct
  rw [among, List.filter_append, List.filter_cons_of_pos opened, List.map_append,
    List.map_cons] at distinct
  have alone := (List.nodup_cons.mp (List.nodup_append.mp distinct).2.1).1
  refine described.last among (fun later inside touched same => alone ?_) query converted opened
  rw [← same]
  exact List.mem_map_of_mem (List.mem_filter.mpr ⟨inside, touched⟩)

/-- Nothing changes but at the outputs that are opened. -/
theorem Describes.changed (described : batch.Describes tools options fresh disk after)
    {location : Location} (change : after.file? location ≠ disk.file? location) :
    ∃ report ∈ batch.reports, report.opened = true ∧
      location = batch.folder ++ [outputName report.name] := by
  rw [described.file?] at change
  cases found : (batch.reports.filterMap (Report.output? batch.folder)).reverse.lookup location with
  | none =>
    rw [found, Option.none_or] at change
    exact absurd rfl change
  | some content =>
    obtain ⟨front, back, split, -⟩ := List.lookup_eq_some_iff.mp found
    have member : (location, content) ∈ batch.reports.filterMap (Report.output? batch.folder) := by
      rw [← List.mem_reverse, split]
      exact List.mem_append_right _ List.mem_cons_self
    obtain ⟨report, inside, output⟩ := List.mem_filterMap.mp member
    obtain ⟨query, content, converted, left, same⟩ := Report.output?_eq_some.mp output
    exact ⟨report, inside, Report.opened_iff.mpr ⟨query, content, converted, left⟩,
      (Prod.mk.inj same).1.symm⟩

/-- Where every text can be encoded, the outputs that are opened are those that
are written. -/
theorem Describes.openedOutputs_eq (described : batch.Describes tools options fresh disk after)
    (encodes : ∀ text, ∃ content, tools.encode text = .ok content) :
    batch.openedOutputs = batch.outputs := by
  unfold openedOutputs outputs
  refine congrArg _ (List.filter_congr fun report member => ?_)
  have fits := described.fits report member
  cases success : report.succeeds with
  | true => exact Report.opened_of_succeeds fits success
  | false =>
    rw [Bool.eq_false_iff]
    intro opened
    obtain ⟨query, fault, -, failing⟩ := Report.unencoded_of_opened fits opened success
    obtain ⟨content, encoded⟩ := encodes (query ++ "\n")
    cases failing.symm.trans encoded

structure Leaves (batch : Batch) (tools : Tools) (disk after : Disk) (tally : Tally) : Prop where
  converted : tally.converted = batch.outputs.length
  counted : tally.converted + tally.failed = batch.names.countP isSchemaName
  /-- A file that succeeds has its output opened, and its query can be encoded. -/
  succeeded : ∀ report ∈ batch.reports, report.succeeds = true → report.opened = true ∧
    ∃ query, report.conversion.query = .ok query ∧
      tools.encode (query ++ "\n") = .ok (tools.left (query ++ "\n"))
  /-- A file that fails has its output opened only if its query cannot be encoded. -/
  failed : ∀ report ∈ batch.reports, report.succeeds = false → report.opened = true →
    ∃ query fault, report.conversion.query = .ok query ∧
      tools.encode (query ++ "\n") = .error fault
  last : ∀ front report back, batch.reports = front ++ report :: back →
    (∀ later ∈ back, later.opened = true → outputName later.name ≠ outputName report.name) →
    report.HeldIn tools after batch.folder
  changed : ∀ location, after.file? location ≠ disk.file? location →
    ∃ report ∈ batch.reports, report.opened = true ∧
      location = batch.folder ++ [outputName report.name]
  distinct : batch.outputs.dedup.length = tally.converted ↔ batch.outputs.Nodup
  stems : batch.outputs.Nodup ↔ batch.stems.Nodup
  held : batch.openedOutputs.Nodup → ∀ report ∈ batch.reports,
    report.HeldIn tools after batch.folder
  encoded : (∀ text, ∃ content, tools.encode text = .ok content) →
    batch.openedOutputs = batch.outputs

end Batch

theorem Disk.listDirectory_eq_some {disk : Disk} {path : String} {names : List String}
    (listed : disk.listDirectory path = some names) :
    ∃ source, disk.HasFolder path source ∧ disk.entries source = names := by
  unfold Disk.listDirectory at listed
  split at listed
  · next source led =>
    split at listed
    · next there => exact ⟨source, ⟨led, there⟩, Option.some.inj listed⟩
    · cases listed
  · cases listed

/-- A batch that comes to a tally has a report for every schema file. -/
theorem convertBatch_describes {disk after : Disk} {tools : Tools} {options : Options} {fresh : Nat}
    {tally : Tally} (named : disk.WellNamed)
    (done : (convertBatch (Disk.host tools) options fresh).run disk = (.ok tally, after)) :
    ∃ batch : Batch, batch.Describes tools options fresh disk after ∧
      tally.converted = batch.reports.countP (·.succeeds) ∧
      tally.failed = batch.reports.countP (!·.succeeds) := by
  obtain ⟨result, made, making⟩ : ∃ result made,
      Disk.makeDirectories options.outputDir disk = (result, made) := ⟨_, _, (Prod.eta _).symm⟩
  have grown := Disk.makeDirectories_grown making
  unfold convertBatch at done
  rw [Disk.run_bind ((Disk.makeDirectories_run disk _).trans making)] at done
  cases result with
  | error fault => cases done
  | ok _ =>
    have given := Disk.given_of_makeDirectories making
    dsimp only at done
    have listing : ((Disk.host tools).listDirectory options.inputDir).run made =
        (made.listDirectory options.inputDir, made) := rfl
    rw [Disk.run_bind listing] at done
    cases listed : made.listDirectory options.inputDir with
    | none =>
      rw [listed] at done
      cases done
    | some names =>
      obtain ⟨source, has, rfl⟩ := Disk.listDirectory_eq_some listed
      obtain ⟨reports, final, ran, reported, converted, run, out⟩ :=
        @Disk.convertEach_run tools _ _ _
        (fun name member => (grown.wellNamed named).entries (mem_schemaNames.mp member).1)
        (fun name member => (mem_schemaNames.mp member).2) _ has given {} fresh
      rw [listed] at done
      dsimp only at done
      rw [Disk.run_bind ran] at done
      cases done
      rw [Disk.conversions_congr options fun name _ => grown.file? _] at converted
      rw [grown.out] at out
      refine ⟨⟨made, source, made.entries source, after.folderOf options.outputDir, reports⟩, ?_,
        Nat.zero_add _, Nat.zero_add _⟩
      exact {
        made := making
        source := has
        names := rfl
        reported := reported
        converted := converted
        printed := out
        fits := run.fits
        placed := run.folder
        opened := fun folder => (run.there _ folder).2
        file? := fun location => by rw [run.file? _ run.folder, grown.file?] }

/-- A batch on any disk, with any parser of queries and any encoding. Every
schema file is counted once, as converted or as failed. The output of a file
that is converted holds its query and the end of a line, unless a later file
with an output of the same name is converted or cannot be encoded: then the
last one stays. No other file changes, so a file that fails leaves a changed
output only if its query cannot be encoded, and then an empty one. There are as
many outputs as files converted exactly if no two of them have the same output,
that is the same name without its extension. -/
theorem convertBatch_outputs {disk after : Disk} {tools : Tools} {options : Options} {fresh : Nat}
    {tally : Tally} (named : disk.WellNamed)
    (done : (convertBatch (Disk.host tools) options fresh).run disk = (.ok tally, after)) :
    ∃ batch : Batch, batch.Describes tools options fresh disk after ∧
      batch.Leaves tools disk after tally := by
  obtain ⟨batch, described, converted, failed⟩ := convertBatch_describes named done
  have written : tally.converted = batch.outputs.length := by
    rw [converted, Batch.outputs, List.length_map, List.countP_eq_length_filter]
  refine ⟨batch, described, ?_⟩
  exact {
    converted := written
    counted := by
      rw [← length_schemaNames, ← described.reported, List.length_map, converted, failed,
        length_eq_counts]
    succeeded := by
      intro report member success
      obtain ⟨query, found, fine⟩ := Report.succeeds_iff.mp success
      exact ⟨Report.opened_of_succeeds (described.fits report member) success, query, found,
        (described.fits report member query found).encoded fine⟩
    failed := fun report member failure opened =>
      Report.unencoded_of_opened (described.fits report member) opened failure
    last := fun front report back => described.last
    changed := fun location => described.changed
    distinct := by
      rw [written]
      constructor
      · intro same
        rw [← List.dedup_eq_self]
        exact (List.dedup_sublist _).eq_of_length same
      · intro distinct
        rw [distinct.dedup]
    stems := batch.nodup_outputs_iff
    held := described.held
    encoded := described.openedOutputs_eq }

/-! ### Two schemas with one output -/

theorem decode_ascii {bytes : List UInt8} (plain : bytes.all (· < 0x80) = true) :
    Text.decode bytes = .ok (bytes.map fun byte => Char.ofNat byte.toNat) := by
  unfold Text.decode
  generalize 0 = offset
  induction bytes generalizing offset with
  | nil => rw [Text.decodeFrom, List.map_nil]
  | cons byte rest ih =>
    rw [List.all_cons, Bool.and_eq_true, decide_eq_true_eq] at plain
    obtain ⟨here, others⟩ := plain
    have single : Text.sequenceLength byte = some 1 := if_pos here
    rw [Text.decodeFrom, single]
    simp [ih others, Text.leadingBits]

/-- A disk with two schemas that have one output between them, and a text that
is no schema. -/
def sharedOutput : Disk where
  current := ["home"]
  files := [(["in", "a.shex"], "start=@<S> <S>[1]".toUTF8.data.toList),
    (["in", "a.shexc"], "start=@<S> <S>IRI".toUTF8.data.toList),
    (["in", "b.shex"], "?".toUTF8.data.toList)]
  directories := [["in"], ["out"]]

/-- The settings of a batch that asks, beside the current directory and below
the root. -/
def askingBatch : Options where
  form := some .ask
  inputDir := "../in"
  outputDir := "/out"
  check := true

theorem schemaNames_sharedOutput :
    schemaNames ["a.shex", "a.shexc", "b.shex"] = ["a.shex", "a.shexc", "b.shex"] := by
  unfold schemaNames
  rw [List.filter_eq_self.mpr (by decide)]
  exact List.mergeSort_of_pairwise (by decide)

theorem sharedOutput_text {name : String} (text : String)
    (there : sharedOutput.file? ["in", name] = some text.toUTF8.data.toList)
    (plain : text.toUTF8.data.toList.all (· < 0x80) = true) (path : String) :
    sharedOutput.schemaText ["in"] path name = .ok (Text.unifyLineEnds
      (text.toUTF8.data.toList.map fun byte => Char.ofNat byte.toNat)) := by
  unfold Disk.schemaText
  rw [List.singleton_append, there]
  dsimp only
  rw [decode_ascii plain]

/-- The schemas on it, in order of their names, and which of them give a query. -/
theorem sharedOutput_queries :
    (sharedOutput.conversions askingBatch ["in"] 0 ["a.shex", "a.shexc", "b.shex"]).map
      (·.query.isOk) =
      [true, true, false] := by
  have values := sharedOutput_text "start=@<S> <S>[1]"
    (show sharedOutput.file? ["in", "a.shex"] = _ from rfl)
    (by decide)
  have kind := sharedOutput_text "start=@<S> <S>IRI"
    (show sharedOutput.file? ["in", "a.shexc"] = _ from rfl)
    (by decide)
  have junk := sharedOutput_text "?" (show sharedOutput.file? ["in", "b.shex"] = _ from rfl)
    (by decide)
  simp only [Disk.conversions, Disk.conversion, values, kind, junk]
  rfl

theorem sharedOutput_tally :
    ∃ after, (convertBatch (Disk.host {}) askingBatch 0).run sharedOutput =
      (.ok ⟨2, 1⟩, after) := by
  have valid : ∀ name ∈ ["a.shex", "a.shexc", "b.shex"], ValidName name := by decide
  have source : sharedOutput.HasFolder askingBatch.inputDir ["in"] := ⟨rfl, rfl⟩
  have folder : sharedOutput.HasFolder askingBatch.outputDir ["out"] := ⟨rfl, rfl⟩
  obtain ⟨reports, after, ran, reported, converted, run, -⟩ :=
    @Disk.convertEach_run {} _ _ _ valid (by decide) _ source folder.given {} 0
  have free : ∀ report ∈ reports, (outputName report.name).utf8ByteSize ≤ maxNameBytes ∧
      sharedOutput.isDirectory (["out"] ++ [outputName report.name]) = false := by
    have each : ∀ name ∈ ["a.shex", "a.shexc", "b.shex"],
        (outputName name).utf8ByteSize ≤ maxNameBytes ∧
          sharedOutput.isDirectory (["out"] ++ [outputName name]) = false := by decide
    rw [← reported] at each
    exact fun report member => each report.name (List.mem_map_of_mem member)
  have two : reports.countP (·.succeeds) = 2 := by
    have queries := congrArg (List.countP id) sharedOutput_queries
    rw [← converted, List.countP_map] at queries
    rw [run.countP_succeeds folder (fun query => rfl) (fun text => ⟨_, rfl⟩) free]
    exact queries
  have one : reports.countP (!·.succeeds) = 1 := by
    have three := congrArg List.length reported
    rw [List.length_map, ← length_eq_counts, two] at three
    exact Nat.add_left_cancel three
  have listing : ((Disk.host {}).listDirectory askingBatch.inputDir).run sharedOutput =
      (some ["a.shex", "a.shexc", "b.shex"], sharedOutput) := rfl
  refine ⟨after, ?_⟩
  unfold convertBatch
  have making := (@Disk.makeDirectories_run {} _ _).trans
    (Disk.makeDirectories_there folder.isDirectoryPath)
  rw [Disk.run_bind making]
  dsimp only
  rw [Disk.run_bind listing]
  dsimp only
  rw [schemaNames_sharedOutput, Disk.run_bind ran, two, one]
  rfl

/-- Two of three schemas on the disk are converted into one output, so the
batch counts two conversions and leaves one query. -/
theorem convertBatch_outputs_shared :
    sharedOutput.WellNamed ∧
    ∃ after, (convertBatch (Disk.host {}) askingBatch 0).run sharedOutput = (.ok ⟨2, 1⟩, after) ∧
    ∃ batch : Batch, batch.Describes {} askingBatch 0 sharedOutput after ∧
      batch.Leaves {} sharedOutput after ⟨2, 1⟩ := by
  obtain ⟨after, done⟩ := sharedOutput_tally
  have named : sharedOutput.WellNamed := by decide
  exact ⟨named, after, done, convertBatch_outputs named done⟩

end ShapeQuery.Command
