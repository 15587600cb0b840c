import Breadboard.Decimal.Numeral
import Breadboard.Assoc

/-!
# Command-line arguments

An argument list is options of the program, a subcommand, and the options of the subcommand with
one positional argument among them. A long option may be cut short as long as it stays
unambiguous, its value may follow an equals sign, and the value of a short option may follow at
once. Behind two hyphens everything is positional; two hyphens as an attached value withdraw the
option's value.
-/

namespace Breadboard

/-- An option: its spellings, the key of its value, and whether it takes a value. -/
structure OptionSpec where
  spellings : List String
  key : String
  takesValue : Bool
  choices : List String := []

/-- What an argument is to the options of one level. -/
inductive ArgumentRole where
  | positional (s : String)
  | separator
  | option (spec : OptionSpec) (spelling : String) (value : Option String)
  | unknown

/-- How reading arguments ends if it does not give a command. -/
inductive ArgumentError where
  | usage
  | help
  deriving DecidableEq, Repr

/-- The arguments of one level: values by key, the positional argument, and whether there was an
argument that nothing takes. -/
structure Arguments where
  values : List (String × String) := []
  positional : Option String := none
  excess : Bool := false

/-- What one argument asks for: options with their values, and the option whose value is to be the
next argument. -/
structure Demand where
  uses : List (OptionSpec × String)
  awaiting : Option OptionSpec := none

namespace Arguments

/-- The option that every level has. -/
def helpOption : OptionSpec := ⟨["-h", "--help"], "help", false, []⟩

/-- An argument cut at its first equals sign. -/
def cutAtEquals (s : String) : String × Option String :=
  match s.toList.span (· != '=') with
  | (_, []) => (s, none)
  | (name, _ :: value) => (String.ofList name, some (String.ofList value))

/-- The options with the spelling they are found by. -/
def spelled (specs : List OptionSpec) : List (String × OptionSpec) :=
  specs.flatMap fun spec => spec.spellings.map fun s => (s, spec)

/-- Whether an argument is written as a negative number. -/
def isNegativeNumber (s : String) : Bool :=
  match s.toList with
  | '-' :: cs =>
    match cs.dropWhile Text.isDecimal with
    | [] => !cs.isEmpty
    | '.' :: fraction => !fraction.isEmpty && fraction.all Text.isDecimal
    | _ => false
  | _ => false

/-- The options that an argument may be meant for when it is cut short or runs into its value. -/
def candidates (specs : List OptionSpec) (s : String) :
    List (OptionSpec × String × Option String) :=
  match s.toList with
  | '-' :: '-' :: _ =>
    let (name, value) := cutAtEquals s
    ((spelled specs).filter fun e => name.toList.isPrefixOf e.1.toList).map fun e =>
      (e.2, e.1, value)
  | dash :: letter :: rest =>
    (spelled specs).filterMap fun e =>
      if e.1.toList = [dash, letter] then some (e.2, e.1, some (String.ofList rest))
      else if s.toList.isPrefixOf e.1.toList then some (e.2, e.1, none)
      else none
  | _ => []

/-- The role of an argument in front of any separator. -/
def roleOf (specs : List OptionSpec) (s : String) : Except ArgumentError ArgumentRole :=
  if s.toList.head? ≠ some '-' ∨ s = "-" then .ok (.positional s)
  else if s = "--" then .ok .separator
  else
    match (spelled specs).lookup s with
    | some spec => .ok (.option spec s none)
    | none =>
      let (name, value) := cutAtEquals s
      match value, (spelled specs).lookup name with
      | some value, some spec => .ok (.option spec name (some value))
      | _, _ =>
        match candidates specs s with
        | [(spec, spelling, value)] => .ok (.option spec spelling value)
        | _ :: _ :: _ => .error .usage
        | [] =>
          if isNegativeNumber s || s.toList.contains ' ' then .ok (.positional s)
          else .ok .unknown

/-- The roles of arguments; behind the first separator all are positional. -/
def roles (specs : List OptionSpec) : List String → Except ArgumentError (List ArgumentRole)
  | [] => .ok []
  | s :: rest =>
    match roleOf specs s with
    | .error e => .error e
    | .ok .separator => .ok (.separator :: rest.map .positional)
    | .ok role =>
      match roles specs rest with
      | .error e => .error e
      | .ok more => .ok (role :: more)

/-- The value of a switch that is on. -/
def on : String := "yes"

/-- The value that withdraws the values in front of it. -/
def withdrawn : String := "--"

/-- The arguments with one more option. -/
def use (a : Arguments) (spec : OptionSpec) (value : String) : Except ArgumentError Arguments :=
  if spec.key = helpOption.key then .error .help
  else if spec.choices.isEmpty || value = withdrawn || spec.choices.contains value then
    .ok { a with values := Assoc.put spec.key value a.values }
  else .error .usage

/-- The arguments with more options, in order. -/
def useAll (a : Arguments) (uses : List (OptionSpec × String)) : Except ArgumentError Arguments :=
  uses.foldlM (fun a u => a.use u.1 u.2) a

/-- What options ask for that are written as one argument, from behind its hyphen: switches, and at
the end perhaps an option that takes the rest as its value. -/
def bundled (specs : List OptionSpec) : List Char → Except ArgumentError Demand
  | [] => .ok ⟨[], none⟩
  | c :: rest =>
    match (spelled specs).lookup (String.ofList ['-', c]) with
    | none => .error .usage
    | some spec =>
      if spec.takesValue then
        .ok (if rest.isEmpty then ⟨[], some spec⟩ else ⟨[(spec, String.ofList rest)], none⟩)
      else
        match bundled specs rest with
        | .error e => .error e
        | .ok d => .ok { d with uses := (spec, on) :: d.uses }

/-- What an option asks for, with the value that is attached to it. -/
def demand (specs : List OptionSpec) (spec : OptionSpec) (spelling : String) :
    (value : Option String) → Except ArgumentError Demand
  | none => .ok (if spec.takesValue then ⟨[], some spec⟩ else ⟨[(spec, on)], none⟩)
  | some value =>
    if spec.takesValue then .ok ⟨[(spec, value)], none⟩
    else if spelling.toList.take 2 = ['-', '-'] || value.isEmpty then .error .usage
    else
      match bundled specs value.toList with
      | .error e => .error e
      | .ok d => .ok { d with uses := (spec, on) :: d.uses }

/-- Reads roles into the arguments `a`. A separator counts as part of the positional argument in
front of it or behind it. The options of one argument are used once all of them are read. -/
def readRoles (specs : List OptionSpec) (a : Arguments) :
    List ArgumentRole → Except ArgumentError Arguments
  | [] => .ok a
  | .unknown :: rest => readRoles specs { a with excess := true } rest
  | .positional s :: rest =>
    match a.positional, rest with
    | some _, more => readRoles specs { a with excess := true } more
    | none, .separator :: more => readRoles specs { a with positional := some s } more
    | none, more => readRoles specs { a with positional := some s } more
  | .separator :: rest =>
    match a.positional, rest with
    | none, .positional s :: more => readRoles specs { a with positional := some s } more
    | _, _ => .error .usage
  | .option spec spelling value :: rest =>
    match demand specs spec spelling value with
    | .error e => .error e
    | .ok ⟨uses, none⟩ =>
      match a.useAll uses with
      | .error e => .error e
      | .ok a => readRoles specs a rest
    | .ok ⟨uses, some last⟩ =>
      match rest with
      | .positional s :: more =>
        match a.useAll (uses ++ [(last, s)]) with
        | .error e => .error e
        | .ok a => readRoles specs a more
      | _ => .error .usage

/-- The arguments of a subcommand. -/
def read (specs : List OptionSpec) (args : List String) : Except ArgumentError Arguments := do
  readRoles specs {} (← roles specs args)

/-- The options in front of the subcommand, the subcommand, and what follows it. Two hyphens are no
subcommand. -/
def readProgram (specs : List OptionSpec) (a : Arguments) : List String → List ArgumentRole →
    Except ArgumentError (Arguments × String × List String)
  | [], _ => .error .usage
  | _, [] => .error .usage
  | s :: rest, role :: more =>
    match role with
    | .unknown => readProgram specs { a with excess := true } rest more
    | .separator => .error .usage
    | .positional _ => .ok (a, s, rest)
    | .option spec spelling value =>
      match demand specs spec spelling value with
      | .error e => .error e
      | .ok ⟨uses, none⟩ =>
        match a.useAll uses with
        | .error e => .error e
        | .ok a => readProgram specs a rest more
      | .ok ⟨uses, some last⟩ =>
        match rest, more with
        | value :: rest, .positional _ :: more =>
          match a.useAll (uses ++ [(last, value)]) with
          | .error e => .error e
          | .ok a => readProgram specs a rest more
        | _, _ => .error .usage

/-- The value of an option, if it was given and not withdrawn. -/
def given? (a : Arguments) (key : String) : Option String :=
  (a.values.lookup key).filter (· != withdrawn)

/-- The value of an option, if it was given, not withdrawn, and is not empty. -/
def value? (a : Arguments) (key : String) : Option String :=
  (a.given? key).filter (! ·.isEmpty)

end Arguments

/-- The formats in which results are written. -/
inductive ResultFormat where
  | json
  | csv
  deriving DecidableEq, Repr

/-- What is to be done, with the file names it is to be done to. The deck of saved output has no
name if it was withdrawn. -/
inductive Job where
  | simulate (circuit : String) (format : ResultFormat) (output : Option String)
  | validate (circuit : String)
  | exportDeck (circuit : String) (output nodeMap : Option String)
  | decode (log : String) (deck nodeMap : Option String) (format : ResultFormat)
      (output : Option String)
  | batch (path : String) (format : ResultFormat) (directory : Option String) (failFast : Bool)
  deriving DecidableEq, Repr

/-- A job, the settings file, and whether details are logged. -/
structure Invocation where
  settings : Option String
  verbose : Bool
  job : Job
  deriving DecidableEq, Repr

namespace Invocation

/-- The options of the program. -/
def programOptions : List OptionSpec :=
  [Arguments.helpOption, ⟨["--settings"], "settings", true, []⟩,
    ⟨["--verbose", "-v"], "verbose", false, []⟩]

/-- The format option. -/
def formatOption : OptionSpec := ⟨["--format"], "format", true, ["json", "csv"]⟩

/-- The output option. -/
def outputOption : OptionSpec := ⟨["--output", "-o"], "output", true, []⟩

/-- The node map option. -/
def nodeMapOption : OptionSpec := ⟨["--node-map"], "node-map", true, []⟩

/-- The options of a subcommand. -/
def options? (subcommand : String) : Option (List OptionSpec) :=
  [("simulate", [Arguments.helpOption, formatOption, outputOption]),
    ("validate", [Arguments.helpOption]),
    ("export", [Arguments.helpOption, outputOption, nodeMapOption]),
    ("decode",
      [Arguments.helpOption, ⟨["--deck"], "deck", true, []⟩, nodeMapOption, formatOption,
        outputOption]),
    ("batch",
      [Arguments.helpOption, formatOption, ⟨["--output-dir"], "output-dir", true, []⟩,
        ⟨["--fail-fast"], "fail-fast", false, []⟩])].lookup subcommand

/-- The format asked for. -/
def formatOf (a : Arguments) : ResultFormat :=
  if a.values.lookup "format" = some "csv" then .csv else .json

/-- The job of a subcommand with its arguments. -/
def jobOf (subcommand : String) (a : Arguments) : Except ArgumentError Job :=
  match a.positional with
  | none => .error .usage
  | some path =>
    if subcommand = "simulate" then .ok (.simulate path (formatOf a) (a.value? "output"))
    else if subcommand = "validate" then .ok (.validate path)
    else if subcommand = "export" then
      .ok (.exportDeck path (a.value? "output") (a.value? "node-map"))
    else if subcommand = "decode" then
      if (a.values.lookup "deck").isNone then .error .usage
      else
        .ok (.decode path (a.given? "deck") (a.value? "node-map") (formatOf a) (a.value? "output"))
    else
      .ok (.batch path (formatOf a) (a.value? "output-dir")
        (a.values.lookup "fail-fast").isSome)

/-- Reads the arguments of the program. -/
def read (args : List String) : Except ArgumentError Invocation := do
  let roles ← Arguments.roles programOptions args
  let (program, subcommand, rest) ← Arguments.readProgram programOptions {} args roles
  match options? subcommand with
  | none => throw .usage
  | some specs =>
    let a ← Arguments.read specs rest
    if program.excess || a.excess then throw .usage
    return ⟨program.value? "settings", (program.values.lookup "verbose").isSome,
      ← jobOf subcommand a⟩

end Invocation

end Breadboard
