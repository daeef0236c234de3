import DemandPaging.Config

/-!
# Options of the command

The arguments of the command are read in two steps. `items` says what they are: settings with their
values, switches, and file names. A setting's value is the rest of its argument or the argument that
follows; short switches may be joined; after `--` everything is a file name. `interpret` then takes the
items in order, and the first one that is wrong, or that asks for the version or for help, decides.
Only what concerns the arguments as a whole is looked at after the last one.
-/

namespace DemandPaging.CommandLine

/-- An option with a value. The value may stand in the same argument or be the next one. -/
inductive Setting where
  /-- The memory in megabytes. -/
  | memory
  /-- The page size in bytes. -/
  | pageSize
  /-- The replacement policy. -/
  | policy
  /-- The seed of the random policy. -/
  | seed
  /-- The order of the runnable queue. -/
  | queueOrder
  deriving DecidableEq, Repr

namespace Setting

/-- Every setting. -/
def all : List Setting := [memory, pageSize, policy, seed, queueOrder]

/-- The name of a setting. -/
def name : Setting → String
  | memory => "memory"
  | pageSize => "page-size"
  | policy => "policy"
  | seed => "seed"
  | queueOrder => "queue-order"

/-- The letter of a setting, if it has one. -/
def letter? : Setting → Option Char
  | memory => some 'm'
  | pageSize => some 'p'
  | _ => none

end Setting

/-- An option without a value. Two of them ask for a text instead of a simulation, and what
follows them is not looked at. -/
inductive Switch where
  /-- Every policy in turn. -/
  | all
  /-- A log of what happens. -/
  | verbose
  /-- The version and nothing else. -/
  | version
  /-- A list of the options and nothing else. -/
  | help
  deriving DecidableEq, Repr

namespace Switch

/-- Every switch. -/
def every : List Switch := [all, verbose, version, help]

/-- The name of a switch. -/
def name : Switch → String
  | all => "all"
  | verbose => "verbose"
  | version => "version"
  | help => "help"

/-- The letter of a switch, if it has one. -/
def letter? : Switch → Option Char
  | all => none
  | verbose => some 'v'
  | version => some 'V'
  | help => some 'h'

end Switch

/-- What is wrong with the arguments. The first thing that is wrong is the one that is reported.
-/
inductive UsageError where
  | unknownOption (text : String)
  | unexpectedValue (switch : Switch)
  | missingValue (setting : Setting)
  | invalidValue (setting : Setting) (value : String)
  | repeated (name : String)
  | emptyFileName
  | secondFile (fileName : String)
  | missingFile
  | allAndOne
  deriving DecidableEq, Repr

/-- The wording of each. -/
def UsageError.message : UsageError → String
  | unknownOption text => s!"unexpected argument '{text}'"
  | unexpectedValue switch => s!"--{switch.name} takes no value"
  | missingValue setting => s!"--{setting.name} needs a value"
  | invalidValue setting value => s!"invalid value '{value}' for --{setting.name}"
  | repeated name => s!"--{name} cannot be used more than once"
  | emptyFileName => "the name of the trace file is empty"
  | secondFile fileName => s!"unexpected argument '{fileName}'"
  | missingFile => "a trace file is required"
  | allAndOne => "--all cannot be used with --policy"

/-! ### What the arguments are -/

/-- A part of the arguments. -/
inductive Item where
  /-- A setting and its value. -/
  | setting (setting : Setting) (value : String)
  /-- A switch. -/
  | switch (switch : Switch)
  /-- The name of a file. -/
  | file (name : String)
  /-- Something wrong. -/
  | wrong (error : UsageError)
  deriving DecidableEq, Repr

/-- The options that a joined list of letters stands for, and the setting that still lacks its value. A
value in the same argument may follow an equals sign. -/
def letters : List Char → List Item × Option Setting
  | [] => ([], none)
  | c :: rest =>
    match Switch.every.find? (·.letter? = some c) with
    | some switch =>
      let (items, open?) := letters rest
      (.switch switch :: items, open?)
    | none =>
      match Setting.all.find? (·.letter? = some c), rest with
      | none, _ => ([.wrong (.unknownOption s!"-{c}")], none)
      -- the value is the next argument
      | some setting, [] => ([], some setting)
      | some setting, '=' :: value => ([.setting setting (.ofList value)], none)
      | some setting, value => ([.setting setting (.ofList value)], none)

/-- The option that a long argument stands for, and the setting that still lacks its value. -/
def long (text : List Char) : List Item × Option Setting :=
  let name := String.ofList (text.takeWhile (· ≠ '='))
  let value? := match text.dropWhile (· ≠ '=') with
    | [] => none
    | _ :: value => some (String.ofList value)
  match Switch.every.find? (·.name = name), Setting.all.find? (·.name = name), value? with
  | some switch, _, none => ([.switch switch], none)
  | some switch, _, some _ => ([.wrong (.unexpectedValue switch)], none)
  | none, some setting, none => ([], some setting)
  | none, some setting, some value => ([.setting setting value], none)
  | none, none, _ => ([.wrong (.unknownOption s!"--{name}")], none)

/-- The items of one argument, and the setting that still lacks its value. -/
def itemsOf (arg : String) : List Item × Option Setting :=
  match arg.toList with
  | '-' :: '-' :: text => long text
  | '-' :: c :: rest => letters (c :: rest)
  | _ => ([.file arg], none)

/-- Whether an argument cannot be the value of a setting before it. A dash alone can, since it
is no option. -/
def isOption (arg : String) : Bool :=
  match arg.toList with
  | '-' :: _ :: _ => true
  | _ => false

/-- The items of the arguments; `open?` is the setting before them that lacks its value. After
`--` options are no longer looked for. -/
def items (open? : Option Setting) : List String → List Item
  | [] =>
    match open? with
    | none => []
    | some setting => [.wrong (.missingValue setting)]
  | arg :: rest =>
    match open? with
    | some setting =>
      if isOption arg then [.wrong (.missingValue setting)]
      else .setting setting arg :: items none rest
    | none =>
      if arg = "--" then rest.map .file
      else (itemsOf arg).1 ++ items (itemsOf arg).2 rest

/-! ### What they ask for -/

/-- What has been given so far. What was not given is told apart from a default, since a second
time is an error and the default may be asked for by name. -/
structure Given where
  /-- The trace file. -/
  file? : Option String := none
  /-- The memory in megabytes. -/
  memory? : Option Nat := none
  /-- The page size. -/
  pageSize? : Option Nat := none
  /-- The policy. -/
  policy? : Option PolicyKind := none
  /-- The seed. -/
  seed? : Option Nat := none
  /-- The order of the runnable queue. -/
  queueOrder? : Option QueueOrder := none
  /-- Whether all policies are asked for. -/
  all : Bool := false
  /-- Whether a log is asked for. -/
  verbose : Bool := false
  deriving DecidableEq, Repr

/-- The order of the runnable queue that has a name. -/
def queueOrderNamed? : String → Option QueueOrder
  | "arrival" => some .arrival
  | "position" => some .tracePosition
  | _ => none

/-- The value of a setting that may be given once. A value that cannot be read is the error that
is reported, also when it is the second. -/
def once {α : Type} (setting : Setting) (before? : Option α) (read? : String → Option α)
    (value : String) : Except UsageError (Option α) :=
  match read? value, before? with
  | none, _ => .error (.invalidValue setting value)
  | some _, some _ => .error (.repeated setting.name)
  | some new, none => .ok (some new)

namespace Given

/-- Adds a setting. -/
def addSetting (g : Given) (setting : Setting) (value : String) : Except UsageError Given := do
  let number? (text : String) := Text.Numeral.read? text.toList
  match setting with
  | .memory => return { g with memory? := ← once setting g.memory? number? value }
  | .pageSize => return { g with pageSize? := ← once setting g.pageSize? number? value }
  | .policy => return { g with policy? := ← once setting g.policy? PolicyKind.ofName? value }
  | .seed => return { g with seed? := ← once setting g.seed? number? value }
  | .queueOrder => return { g with queueOrder? := ← once setting g.queueOrder? queueOrderNamed? value }

/-- Adds a file name. -/
def addFile (g : Given) (name : String) : Except UsageError Given :=
  if name.isEmpty then .error .emptyFileName
  else if g.file?.isSome then .error (.secondFile name)
  else .ok { g with file? := some name }

end Given

/-- A simulation that the command is asked for. -/
structure Options where
  /-- The trace file. -/
  file : String
  /-- The memory in megabytes. -/
  memory : Nat := Config.defaultMegabytes
  /-- The page size. -/
  pageSize : Nat := Config.defaultPageSize
  /-- The policies, in the order in which they are simulated. -/
  policies : List PolicyKind := [.lru]
  /-- The seed. -/
  seed : Nat := Config.defaultSeed
  /-- The order of the runnable queue. -/
  queueOrder : QueueOrder := .arrival
  /-- Whether a log is asked for. -/
  verbose : Bool := false
  deriving DecidableEq, Repr

/-- What the command is asked for. -/
inductive Request where
  /-- Its version. -/
  | version
  /-- A list of its options. -/
  | help
  /-- Simulations. -/
  | simulate (options : Options)
  deriving DecidableEq, Repr

/-- The simulations that have been asked for, with defaults for what was not given. Only here is
it asked whether there is a file, and whether one policy and all of them were asked for
together. -/
def Given.options (g : Given) : Except UsageError Options := do
  if g.all && g.policy?.isSome then throw .allAndOne
  match g.file? with
  | none => throw .missingFile
  | some file =>
    return {
      file
      memory := g.memory?.getD Config.defaultMegabytes
      pageSize := g.pageSize?.getD Config.defaultPageSize
      policies := if g.all then PolicyKind.all else [g.policy?.getD .lru]
      seed := g.seed?.getD Config.defaultSeed
      queueOrder := g.queueOrder?.getD .arrival
      verbose := g.verbose }

/-- What is asked for by the items that follow those already taken. They are taken in order, and
the first that is wrong, or asks for a text, decides. -/
def interpret (g : Given) : List Item → Except UsageError Request
  | [] => return .simulate (← g.options)
  | .wrong error :: _ => .error error
  | .switch .version :: _ => .ok .version
  | .switch .help :: _ => .ok .help
  | .switch .all :: rest =>
    if g.all then .error (.repeated Switch.all.name) else interpret { g with all := true } rest
  | .switch .verbose :: rest =>
    if g.verbose then .error (.repeated Switch.verbose.name)
    else interpret { g with verbose := true } rest
  | .setting setting value :: rest => do interpret (← g.addSetting setting value) rest
  | .file name :: rest => do interpret (← g.addFile name) rest

/-- What the arguments of the command ask for. -/
def Request.ofArguments (args : List String) : Except UsageError Request :=
  interpret {} (items none args)

end DemandPaging.CommandLine
