import SchemaDdl.Command

/-!
# Arguments

How a command is given on the command line: options of the program, the word for the command, and
the options of the command. An option is a flag, or has a value in the next word or behind an equals
sign.
-/

namespace SchemaDdl

/-- Why arguments name no command. -/
inductive UsageError where
  | unknownDialect (error : UnknownDialect)
  | unknownCommand (word : String)
  | noCommand
  | unexpected (word : String)
  | missingValue (option : String)
  | missingOption (option : String)
  | notANumber (option value : String)
deriving DecidableEq, Repr

def UsageError.message : UsageError → String
  | .unknownDialect error => error.message
  | .unknownCommand word => s!"unrecognized subcommand '{word}'"
  | .noCommand => "a subcommand is required but one was not provided"
  | .unexpected word => s!"unexpected argument '{word}' found"
  | .missingValue option => s!"a value is required for '{option}' but none was supplied"
  | .missingOption option => s!"the required argument '{option}' was not provided"
  | .notANumber option value => s!"invalid value '{value}' for '{option}': not a number"

/-- The options that may be given: the names of flags, and of options with a value. Short names
stand for long ones. -/
structure OptionNames where
  flags : List String := []
  valued : List String := []
  short : List (String × String) := []
deriving Repr

/-- The options that were given. -/
structure GivenOptions where
  flags : List String := []
  values : List (String × String) := []
deriving Repr, Inhabited

namespace GivenOptions

def has (given : GivenOptions) (flag : String) : Bool :=
  given.flags.contains flag

def value? (given : GivenOptions) (option : String) : Option String :=
  given.values.reverse.lookup option

def required (given : GivenOptions) (option : String) : Except UsageError String :=
  match given.value? option with
  | some value => .ok value
  | none => .error (.missingOption option)

end GivenOptions

namespace OptionNames

def splitWord (names : OptionNames) (word : String) : String × Option String :=
  let (option, value) := match Text.splitFirst '=' word.toList with
    | some (option, value) => (String.ofList option, some (String.ofList value))
    | none => (word, none)
  ((names.short.lookup option).getD option, value)

/-- What a word is among the arguments. -/
inductive WordKind where
  | flag (option : String)
  | withValue (option value : String)
  | beforeValue (option : String)
  | unknownOption
  | plain
deriving Repr

def kindOf (names : OptionNames) (word : String) : WordKind :=
  let (option, value) := names.splitWord word
  if names.valued.contains option then
    match value with
    | some value => .withValue option value
    | none => .beforeValue option
  else if names.flags.contains option && value.isNone then .flag option
  else if Text.startsWith word "-" then .unknownOption
  else .plain

/-- The options in front of the first word that is none, and the words from there on. -/
def read (names : OptionNames) (given : GivenOptions) :
    List String → Except UsageError (GivenOptions × List String)
  | [] => .ok (given, [])
  | word :: words =>
      match names.kindOf word with
      | .flag option => names.read { given with flags := given.flags ++ [option] } words
      | .withValue option value =>
          names.read { given with values := given.values ++ [(option, value)] } words
      | .beforeValue option =>
          match words with
          | [] => .error (.missingValue option)
          | value :: words =>
              names.read { given with values := given.values ++ [(option, value)] } words
      | .unknownOption => .error (.unexpected word)
      | .plain => .ok (given, word :: words)

def readAll (names : OptionNames) (words : List String) : Except UsageError GivenOptions := do
  let (given, rest) ← names.read {} words
  match rest with
  | [] => return given
  | word :: _ => .error (.unexpected word)

end OptionNames

namespace Command

def readValidate (words : List String) : Except UsageError Command := do
  let given ← OptionNames.readAll
    { flags := ["--strict", "--json", "--name-heuristics"]
      valued := ["--schema"]
      short := [("-s", "--schema")] } words
  let schema ← given.required "--schema"
  return .validate schema
    { strict := given.has "--strict", json := given.has "--json"
      nameHeuristics := given.has "--name-heuristics" }

def readGenerate (words : List String) : Except UsageError Command := do
  let given ← OptionNames.readAll
    { flags := ["--if-not-exists", "--identity", "--comments"]
      valued := ["--schema"]
      short := [("-s", "--schema")] } words
  let schema ← given.required "--schema"
  return .generate schema
    { ifNotExists := given.has "--if-not-exists", identityColumns := given.has "--identity"
      comments := given.has "--comments" }

def readBatch (given : GivenOptions) : Except UsageError Nat :=
  match given.value? "--batch" with
  | none => .ok 1
  | some text =>
      match text.toNat? with
      | some batch => .ok batch
      | none => .error (.notANumber "--batch" text)

def readDiff (words : List String) : Except UsageError Command := do
  let given ← OptionNames.readAll
    { flags := ["--allow-destructive", "--json"]
      valued := ["--from", "--to", "--record", "--batch"] } words
  let old ← given.required "--from"
  let new ← given.required "--to"
  let batch ← readBatch given
  return .diff old new
    { allowDestructive := given.has "--allow-destructive", json := given.has "--json"
      recordName := given.value? "--record", batch }

def readAdapt (words : List String) : Except UsageError Command := do
  let given ← OptionNames.readAll
    { valued := ["--input"], short := [("-i", "--input")] } words
  let input ← given.required "--input"
  return .adapt input

def ofWords : List String → Except UsageError Command
  | [] => .error .noCommand
  | "capabilities" :: words => (OptionNames.readAll {} words).map fun _ => .capabilities
  | "validate" :: words => readValidate words
  | "generate" :: words => readGenerate words
  | "diff" :: words => readDiff words
  | "rewrite" :: words => readAdapt words
  | word :: _ => .error (.unknownCommand word)

def ofArguments (defaultDialect : String) (words : List String) :
    Except UsageError (Dialect × Command) := do
  let (given, words) ← OptionNames.read
    { flags := ["--verbose"], valued := ["--dialect"]
      short := [("-d", "--dialect"), ("-v", "--verbose")] } {} words
  let dialect ←
    (Dialect.ofName ((given.value? "--dialect").getD defaultDialect)).mapError .unknownDialect
  let command ← ofWords words
  return (dialect, command)

def files : Command → List String
  | .capabilities => []
  | .validate file _ | .generate file _ | .adapt file => [file]
  | .diff old new _ => [old, new]

end Command

end SchemaDdl
