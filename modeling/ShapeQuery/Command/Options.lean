import ShapeQuery.Query.Render
import ShapeQuery.Text.Digit
import ShapeQuery.Text.Quoted
import ShapeQuery.Text.Split
import ShapeQuery.Text.Upper

/-!
The command line. Long options may be cut short as long as they stay unambiguous, a value may follow
in the next argument or in the same one, and short options without values may be joined. The value
`--` stands for none and takes a setting back. Arguments that belong to no option are refused.
-/
namespace ShapeQuery.Command

inductive Setting where
  | help
  | input
  | output
  | form
  | uri
  | format
  | check
  | inputDir
  | outputDir
  | verbose
deriving DecidableEq, Repr

/-- An option: its names and whether it takes a value. -/
structure OptionSpec where
  setting : Setting
  names : List String
  takesValue : Bool
deriving DecidableEq, Repr

/-- The options, in the order of the help text. -/
def optionSpecs : List OptionSpec :=
  [⟨.help, ["-h", "--help"], false⟩, ⟨.input, ["--input", "-i"], true⟩,
    ⟨.output, ["--output", "-o"], true⟩, ⟨.form, ["--form", "-f"], true⟩,
    ⟨.uri, ["--uri", "-u"], true⟩, ⟨.format, ["--format"], true⟩, ⟨.check, ["--check"], false⟩,
    ⟨.inputDir, ["--input-dir"], true⟩, ⟨.outputDir, ["--output-dir"], true⟩,
    ⟨.verbose, ["--verbose", "-v"], false⟩]

def OptionSpec.title (spec : OptionSpec) : String :=
  "/".intercalate spec.names

def namedOptions : List (String × OptionSpec) :=
  optionSpecs.flatMap fun spec => spec.names.map fun name => (name, spec)

inductive UsageFault where
  | ambiguous (argument : String) (candidates : List String)
  | expectedValue (spec : OptionSpec)
  | ignoredValue (spec : OptionSpec) (value : String)
  | invalidChoice (spec : OptionSpec) (value : String) (choices : List String)
  | unrecognized (arguments : List String)
deriving DecidableEq, Repr

def UsageFault.message : UsageFault → String
  | .ambiguous argument candidates =>
    "ambiguous option: " ++ argument ++ " could match " ++ ", ".intercalate candidates
  | .expectedValue spec => "argument " ++ spec.title ++ ": expected one argument"
  | .ignoredValue spec value =>
    "argument " ++ spec.title ++ ": ignored explicit argument " ++ Text.quoted value
  | .invalidChoice spec value choices =>
    "argument " ++ spec.title ++ ": invalid choice: " ++ Text.quoted value ++ " (choose from " ++
      ", ".intercalate (choices.map Text.quoted) ++ ")"
  | .unrecognized arguments => "unrecognized arguments: " ++ " ".intercalate arguments

structure Found where
  spec : OptionSpec
  /-- Whether it was given by a short name. -/
  short : Bool
  /-- The text that follows in the same argument. -/
  attached : Option (List Char)

/-- What an argument is. Behind an argument `--` nothing is taken for an option
any more. -/
inductive Item where
  /-- The mark `--`, after which no argument is an option. -/
  | endOfOptions
  | word (text : String)
  | option (found : Found)
  /-- Something that looks like an option and is none. -/
  | unknown (text : String)

def looksNegative (text : List Char) : Bool :=
  match text with
  | '-' :: body =>
    let body := if body.getLast? = some '\n' then body.dropLast else body
    let whole := body.takeWhile Text.isDecimalDigit
    match body.drop whole.length with
    | [] => !whole.isEmpty
    | '.' :: fraction => !fraction.isEmpty && fraction.all Text.isDecimalDigit
    | _ => false
  | _ => false

def foundBy (name : String) (spec : OptionSpec) (attached : Option (List Char)) : Found :=
  { spec, short := name.length = 2, attached }

/-- The options that the start of a long argument could be cut short from. More
than one of them makes the argument ambiguous. -/
def longCandidates (text : List Char) : List (String × Found) :=
  let (name, value) := Text.cutFirst '=' text
  namedOptions.filterMap fun (full, spec) =>
    if name.isPrefixOf full.toList then some (full, foundBy full spec value) else none

/-- The short option that an argument starts with, the rest of which is
attached to it. -/
def shortCandidates (text : List Char) : List (String × Found) :=
  namedOptions.filterMap fun (full, spec) =>
    if full.toList = text.take 2 then some (full, foundBy full spec (some (text.drop 2))) else none

/-- An option whose full name, perhaps with a value behind an equals sign, is
the argument. -/
def exactOption? (argument : String) : Option Found :=
  match namedOptions.lookup argument with
  | some spec => some (foundBy argument spec none)
  | none =>
    match Text.cutFirst '=' argument.toList with
    | (name, some value) =>
      (namedOptions.lookup (String.ofList name)).map fun spec =>
        foundBy (String.ofList name) spec (some value)
    | (_, none) => none

/-- What an argument is, before any `--`. -/
def classify (argument : String) : Except UsageFault Item :=
  match argument.toList with
  | '-' :: next :: _ =>
    match exactOption? argument with
    | some found => .ok (.option found)
    | none =>
      let text := argument.toList
      match if next = '-' then longCandidates text else shortCandidates text with
      | [(_, found)] => .ok (.option found)
      | [] =>
        if looksNegative text || text.contains ' ' then .ok (.word argument)
        else .ok (.unknown argument)
      | candidates => .error (.ambiguous argument (candidates.map (·.1)))
  | _ => .ok (.word argument)

def classifyAll : List String → Except UsageFault (List Item)
  | [] => .ok []
  | argument :: rest =>
    if argument = "--" then .ok (.endOfOptions :: rest.map .word)
    else do
      let item ← classify argument
      let items ← classifyAll rest
      return item :: items

/-- A setting with the value given for it. -/
abbrev Given := OptionSpec × Option String

/-- What an argument with an option comes to: settings, and an option that
waits for the next argument. -/
structure Unpacked where
  given : List Given
  waiting : Option OptionSpec := none

/-- An option with nothing behind it in its argument, after other settings. -/
def Unpacked.last (done : List Given) (spec : OptionSpec) : Unpacked :=
  if spec.takesValue then { given := done, waiting := some spec }
  else { given := done ++ [(spec, none)] }

/-- Takes apart an option and the text behind it in its argument. The text is
the value of an option that takes one; behind a short option that takes none,
it starts with the letter of another one. `done` holds the settings so far. -/
def unpack (done : List Given) (spec : OptionSpec) (short : Bool) :
    List Char → Except UsageFault Unpacked
  | [] =>
    if spec.takesValue then .ok { given := done ++ [(spec, some "")] }
    else .error (.ignoredValue spec "")
  | c :: rest =>
    let value := String.ofList (c :: rest)
    if spec.takesValue then .ok { given := done ++ [(spec, some value)] }
    else if !short then .error (.ignoredValue spec value)
    else
      match namedOptions.lookup (String.ofList ['-', c]) with
      | none => .error (.ignoredValue spec value)
      | some next =>
        let done := done ++ [(spec, none)]
        if rest.isEmpty then .ok (.last done next) else unpack done next true rest

def Found.unpack (found : Found) : Except UsageFault Unpacked :=
  match found.attached with
  | some text => Command.unpack [] found.spec found.short text
  | none => .ok (.last [] found.spec)

inductive Format where
  | shexc
  | shexj
deriving DecidableEq, Repr

def Format.word : Format → String
  | .shexc => "shexc"
  | .shexj => "shexj"

/-- The settings of a run, with their defaults. The value `--` can take the
form back, and then there is none. -/
structure Options where
  input : String := ""
  output : String := ""
  /-- The form of the query, unless it was taken back. -/
  form : Option Form := some .construct
  uri : Option String := none
  format : Option Format := none
  check : Bool := false
  inputDir : String := ""
  outputDir : String := ""
  verbose : Bool := false

/-- Why the arguments do not lead to a run. -/
inductive Stop where
  | help
  | usage (fault : UsageFault)

/-- One of several choices, told by its word. -/
def choose {α : Type} (spec : OptionSpec) (choices : List α) (word : α → String) (value : String) :
    Except Stop α :=
  match choices.find? (word · = value) with
  | some choice => .ok choice
  | none => .error (.usage (.invalidChoice spec value (choices.map word)))

def chooseForm (spec : OptionSpec) (value : String) : Except Stop Form :=
  choose spec Form.all Form.word (String.ofList (Text.upper value.toList))

def chooseFormat (spec : OptionSpec) (value : String) : Except Stop Format :=
  choose spec [.shexc, .shexj] Format.word value

/-- Applies a setting; the value `--` takes it back. -/
def Options.apply (options : Options) (given : Given) : Except Stop Options :=
  let (spec, value) := given
  let value := value.filter (· != "--")
  match spec.setting with
  | .help => .error .help
  | .input => .ok { options with input := value.getD "" }
  | .output => .ok { options with output := value.getD "" }
  | .form => do return { options with form := ← value.mapM (chooseForm spec) }
  | .uri => .ok { options with uri := value }
  | .format => do return { options with format := ← value.mapM (chooseFormat spec) }
  | .check => .ok { options with check := true }
  | .inputDir => .ok { options with inputDir := value.getD "" }
  | .outputDir => .ok { options with outputDir := value.getD "" }
  | .verbose => .ok { options with verbose := true }

def Options.applyAll (options : Options) (given : List Given) : Except Stop Options :=
  given.foldlM Options.apply options

/-- Goes through the arguments. `extras` are those that belong to no option, in
reverse, and `waiting` is an option whose value has to come next, after the
settings before it. -/
def collect (options : Options) (extras : List String)
    (waiting : Option (List Given × OptionSpec)) : List Item → Except Stop Options
  | [] =>
    match waiting with
    | some (_, spec) => .error (.usage (.expectedValue spec))
    | none =>
      if extras.isEmpty then .ok options
      else .error (.usage (.unrecognized extras.reverse))
  | item :: rest =>
    match waiting, item with
    | some (given, spec), .word text => do
      let options ← options.applyAll (given ++ [(spec, some text)])
      collect options extras none rest
    | some (_, spec), _ => .error (.usage (.expectedValue spec))
    | none, .endOfOptions => collect options ("--" :: extras) none rest
    | none, .word text => collect options (text :: extras) none rest
    | none, .unknown text => collect options (text :: extras) none rest
    | none, .option found =>
      match found.unpack with
      | .error fault => .error (.usage fault)
      | .ok unpacked =>
        match unpacked.waiting with
        | some spec => collect options extras (some (unpacked.given, spec)) rest
        | none => do
          let options ← options.applyAll unpacked.given
          collect options extras none rest

def parseArguments (arguments : List String) : Except Stop Options :=
  match classifyAll arguments with
  | .error fault => .error (.usage fault)
  | .ok items => collect {} [] none items

end ShapeQuery.Command
