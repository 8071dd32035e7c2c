import AgentFlow.Command.Request

/-!
# Arguments

How the arguments of the program are read: options with their values, operands, and the request that
they make up.  `--` ends the options, a single `-` is an operand, and flags of one letter can be
written together.
-/

namespace AgentFlow.Command

structure OptionForm where
  long : String
  short : Option Char := none
  takesValue : Bool := false
  repeatable : Bool := false

inductive UsageFault where
  | noCommand
  | unknownCommand (name : String)
  | unknownOption (text : String)
  | repeatedOption (name : String)
  | missingValue (name : String)
  | needlessValue (name : String)
  | unknownValue (name value : String)
  | missingArgument (name : String)
  | needlessArgument (text : String)
  | conflict (name other : String)
  deriving DecidableEq

def UsageFault.message : UsageFault → String
  | noCommand => "a command is required"
  | unknownCommand name => "unrecognized command '" ++ name ++ "'"
  | unknownOption text => "unexpected option '" ++ text ++ "'"
  | repeatedOption name => "option '--" ++ name ++ "' cannot be used multiple times"
  | missingValue name => "a value is required for '--" ++ name ++ "'"
  | needlessValue name => "option '--" ++ name ++ "' takes no value"
  | unknownValue name value => "invalid value '" ++ value ++ "' for '--" ++ name ++ "'"
  | missingArgument name => "required argument <" ++ name ++ "> was not provided"
  | needlessArgument text => "unexpected argument '" ++ text ++ "'"
  | conflict name other => "'" ++ name ++ "' cannot be used with '" ++ other ++ "'"

/-! ## Options and operands -/

inductive Piece where
  | operand (text : String)
  | option (form : OptionForm) (value : Option String)
  | unknown (text : String)

def longPiece (forms : List OptionForm) (name : String) (value : Option String) : Piece :=
  match forms.find? (·.long == name) with
  | some form => .option form value
  | none => .unknown ("--" ++ name)

/-- The options in letters that are written together.  An option with a value takes all that
follows it. -/
def letterPieces (forms : List OptionForm) : List Char → List Piece
  | [] => []
  | c :: rest =>
    match forms.find? (·.short == some c) with
    | none => [.unknown ("-" ++ String.singleton c)]
    | some form =>
      if form.takesValue then
        [.option form
          (if rest.isEmpty then none
            else some (String.ofList (if rest.head? == some '=' then rest.drop 1 else rest)))]
      else .option form none :: letterPieces forms rest

def piecesOf (forms : List OptionForm) (argument : String) : List Piece :=
  match argument.toList with
  | '-' :: '-' :: name =>
    match Text.splitFirst ['='] name with
    | some (name, value) => [longPiece forms (String.ofList name) (some (String.ofList value))]
    | none => [longPiece forms (String.ofList name) none]
  | '-' :: c :: letters => letterPieces forms (c :: letters)
  | _ => [.operand argument]

def pieces (forms : List OptionForm) : List String → List Piece
  | [] => []
  | argument :: rest =>
    if argument == "--" then rest.map .operand else piecesOf forms argument ++ pieces forms rest

structure Given where
  operands : List String := []
  /-- The options by their long names, with their values. -/
  options : List (String × String) := []

namespace Given

def addOperand (text : String) (g : Given) : Given := { g with operands := text :: g.operands }

def addOption (form : OptionForm) (value : String) (g : Given) : Except UsageFault Given :=
  if !form.repeatable && g.options.any (·.1 == form.long) then .error (.repeatedOption form.long)
  else .ok { g with options := (form.long, value) :: g.options }

/-- What the parts of arguments state. -/
def ofPieces : List Piece → Except UsageFault Given
  | [] => .ok {}
  | .operand text :: rest => (ofPieces rest).map (addOperand text)
  | .unknown text :: _ => .error (.unknownOption text)
  | .option form (some value) :: rest =>
    if form.takesValue then do (← ofPieces rest).addOption form value
    else .error (.needlessValue form.long)
  | .option form none :: rest =>
    if form.takesValue then
      match rest with
      | .operand value :: rest => do (← ofPieces rest).addOption form value
      | _ => .error (.missingValue form.long)
    else do (← ofPieces rest).addOption form ""

variable (g : Given)

def has (name : String) : Bool := g.options.any (·.1 == name)

def values (name : String) : List String := (g.options.filter (·.1 == name)).map (·.2)

def value? (name : String) : Option String := (g.values name).head?

def choice? {α : Type} (name : String) (choices : List (String × α)) :
    Except UsageFault (Option α) :=
  match g.value? name with
  | none => .ok none
  | some value =>
    match choices.find? (·.1 == value) with
    | some (_, a) => .ok (some a)
    | none => .error (.unknownValue name value)

def operand? : Except UsageFault (Option String) :=
  match g.operands with
  | [] => .ok none
  | [text] => .ok (some text)
  | _ :: text :: _ => .error (.needlessArgument text)

def operand (name : String) : Except UsageFault String := do
  match ← g.operand? with
  | some text => .ok text
  | none => .error (.missingArgument name)

def noOperands : Except UsageFault Unit :=
  match g.operands with
  | [] => .ok ()
  | text :: _ => .error (.needlessArgument text)

def outputForm : Except UsageFault OutputForm := do
  .ok ((← g.choice? "format" [("text", .text), ("json", .json)]).getD .text)

def overrides : Except UsageFault Overrides := do
  let size ←
    match g.value? "complexity" with
    | none => .ok none
    | some value =>
      match SizePreference.parse? value with
      | some size => .ok (some size)
      | none => .error (.unknownValue "complexity" value)
  .ok { forcePattern := g.value? "force-pattern", size := size,
        disableFeatures := g.values "disable" }

/-- The requirement with the wishes of the user. -/
def inquiry : Except UsageFault Inquiry := do
  .ok { requirement := ← g.operand "REQUIREMENT", stage := g.value? "context",
        overrides := ← g.overrides }

end Given

/-! ## Commands -/

def sharedForms : List OptionForm :=
  [{ long := "verbose" }, { long := "quiet", short := some 'q' },
    { long := "help", short := some 'h' }]

def formatForm : OptionForm := { long := "format", short := some 'f', takesValue := true }

def inquiryForms : List OptionForm :=
  [{ long := "context", takesValue := true }, { long := "force-pattern", takesValue := true },
    { long := "complexity", takesValue := true },
    { long := "disable", takesValue := true, repeatable := true }]

/-- A command: its words, its options, and the request that it reads from what is given. -/
structure CommandForm where
  words : List String
  options : List OptionForm
  read : Given → Except UsageFault Request

def plain (read : Given → Except UsageFault Request) (g : Given) : Except UsageFault Request := do
  g.noOperands
  read g

def readGenerate (g : Given) : Except UsageFault Request := do
  let requirement ← g.operand?
  if requirement.isSome && g.has "spec" then .error (.conflict "--spec" "REQUIREMENT")
  else if requirement.isNone && !g.has "spec" then .error (.missingArgument "REQUIREMENT")
  else if !g.has "name" && !g.has "spec" then .error (.missingArgument "--name")
  else if g.has "update-baseline" && !g.has "baseline" then .error (.missingArgument "--baseline")
  else
    .ok (.generate {
      requirement := requirement
      name := g.value? "name"
      specFile := g.value? "spec"
      directory := g.value? "output"
      hybrid := g.has "hybrid"
      withoutFastApi := g.has "no-fastapi"
      dryRun := g.has "dry-run"
      check := g.has "validate"
      baseline := g.value? "baseline"
      updateBaseline := g.has "update-baseline" })

def readDetect (g : Given) : Except UsageFault Request := do
  let form ← g.choice? "format" [("console", .screen), ("json", .json), ("markdown", .document)]
  .ok (.detect {
    path := (← g.operand?).getD "."
    form := form.getD .screen
    output := g.value? "output"
    exclude := g.values "exclude" })

def readHandOver (g : Given) : Except UsageFault Request := do
  let inquiry ← g.inquiry
  match g.value? "project" with
  | some project => .ok (.handOver inquiry project (g.has "revise"))
  | none => .error (.missingArgument "--project")

def commandForms : List CommandForm :=
  [{ words := ["init"]
     options := [{ long := "force", short := some 'f' }]
     read := plain fun g => .ok (.setUp (g.has "force")) },
    { words := ["analyze"]
      options := formatForm :: inquiryForms
      read := fun g => do .ok (.analyze (← g.inquiry) (← g.outputForm)) },
    { words := ["generate"]
      options :=
        [{ long := "name", short := some 'n', takesValue := true },
          { long := "spec", takesValue := true },
          { long := "output", short := some 'o', takesValue := true }, { long := "hybrid" },
          { long := "no-fastapi" }, { long := "dry-run" }, { long := "validate" },
          { long := "baseline", takesValue := true }, { long := "update-baseline" }]
      read := readGenerate },
    { words := ["detect"]
      options :=
        [formatForm, { long := "output", short := some 'o', takesValue := true },
          { long := "exclude", takesValue := true, repeatable := true }]
      read := readDetect },
    { words := ["handoff"]
      options :=
        { long := "project", short := some 'p', takesValue := true } :: { long := "revise" } ::
          inquiryForms
      read := readHandOver },
    { words := ["status"]
      options := [formatForm]
      read := plain fun g => do .ok (.status (← g.outputForm)) },
    { words := ["config", "show"]
      options := [formatForm, { long := "global", short := some 'g' }]
      read := plain fun g => do
        let form ← g.outputForm
        .ok (if g.has "global" then .showGlobalSettings form else .showSettings form) },
    { words := ["config", "path"]
      options := []
      read := plain fun _ => .ok .showPaths },
    { words := ["config", "init"]
      options := [{ long := "global", short := some 'g' }, { long := "force" }]
      read := plain fun g =>
        .ok (if g.has "global" then .initializeGlobalSettings (g.has "force")
          else .initializeSettings (g.has "force")) }]

inductive Invocation where
  | request (r : Request)
  | help
  | version

/-- The lines that show how the program is used. -/
def usageLines : List String :=
  ["Usage: pocketforge <COMMAND> [OPTIONS]", "", "Commands:"] ++
    commandForms.map fun c =>
      "  " ++ " ".intercalate c.words ++
        String.join (c.options.map fun o =>
          " [--" ++ o.long ++ (if o.takesValue then " <VALUE>]" else "]"))

def versionLine : String := "pocketforge 0.1.0"

/-- The command that arguments start with, and the arguments behind its words. -/
def commandOf (arguments : List String) : Except UsageFault (CommandForm × List String) :=
  match commandForms.find? (fun c => c.words.isPrefixOf arguments) with
  | some c => .ok (c, arguments.drop c.words.length)
  | none =>
    match arguments with
    | [] => .error .noCommand
    | name :: _ => .error (.unknownCommand name)

def Invocation.read (arguments : List String) : Except UsageFault Invocation := do
  let shared (argument : String) : Bool := ["--verbose", "--quiet", "-q"].contains argument
  match arguments.dropWhile shared with
  | "--help" :: _ => .ok .help
  | "-h" :: _ => .ok .help
  | "--version" :: _ => .ok .version
  | "-V" :: _ => .ok .version
  | arguments =>
    let (c, rest) ← commandOf arguments
    let g ← Given.ofPieces (pieces (sharedForms ++ c.options) rest)
    if g.has "help" then .ok .help else .ok (.request (← c.read g))

end AgentFlow.Command
