set_option autoImplicit false

/-! # Arguments of the command line

A command line is a command with its own arguments, and options before or after the command. An
option has a value, which stands behind it or is attached to it; the value may not look like an
option itself. An option may be given once before and once after the command, and the latter counts.
After `--` nothing is an option.

The arguments are read from left to right, and an option is judged only when something ends it: the
next option, the next plain argument, or the end. `Invocation.ofArguments` therefore reports the
first thing that is wrong in this order. -/

namespace FlatTables.CommandLine

/-! ## Options -/

inductive OptionName
  | dataDir
  | defaultDatabase
  | logLevel
  deriving DecidableEq, Repr

/-- The option of a long name. -/
def OptionName.ofLong? (name : String) : Option OptionName :=
  if name = "data-dir" then some dataDir
  else if name = "default-db" then some defaultDatabase
  else if name = "log-level" then some logLevel
  else none

/-- An option with a name for its value, as messages show it. -/
def OptionName.form : OptionName → String
  | dataDir => "--data-dir <PATH>"
  | defaultDatabase => "--default-db <NAME>"
  | logLevel => "--log-level <LEVEL>"

/-- Why a list of arguments gives nothing to do. -/
inductive ArgumentError
  /-- An option stands without its value. -/
  | missingValue (name : OptionName)
  /-- The arguments have no other form that is understood. -/
  | misuse
  /-- The arguments ask how the program is used. -/
  | helpWanted
  deriving DecidableEq

/-- What to show for an error, where `usage` explains the arguments. -/
def ArgumentError.message (usage : String) : ArgumentError → String
  | missingValue name =>
    "error: a value is required for '" ++ name.form ++ "' but none was supplied\n\n" ++
      "For more information, try '--help'.\n"
  | misuse | helpWanted => usage

/-- An argument that is an option. -/
inductive Flag
  /-- An option that takes the next argument as its value. -/
  | bare (name : OptionName)
  | whole (name : OptionName) (value : String)
  | help
  | unknown
  deriving DecidableEq

/-- What an argument is by itself. -/
inductive Shape
  | separator
  | plain
  | flag (flag : Flag)
  deriving DecidableEq

/-- The long option of a text that follows two dashes. -/
def Flag.ofLong (body : List Char) : Flag :=
  let name := String.ofList (body.takeWhile (· != '='))
  match OptionName.ofLong? name, body.dropWhile (· != '=') with
  | some name, [] => bare name
  | some name, _ :: value => whole name (String.ofList value)
  | none, rest => if name = "help" && rest.isEmpty then help else unknown

/-- The shape of an argument. A single dash is a plain one. -/
def Shape.of (arg : String) : Shape :=
  match arg.toList with
  | ['-', '-'] => separator
  | '-' :: '-' :: body => flag (.ofLong body)
  | ['-', 'd'] => flag (.bare .dataDir)
  | '-' :: 'd' :: '=' :: value => flag (.whole .dataDir (String.ofList value))
  | '-' :: 'd' :: value => flag (.whole .dataDir (String.ofList value))
  | '-' :: 'h' :: _ => flag .help
  | '-' :: _ :: _ => flag .unknown
  | _ => plain

/-- The options read so far on one side of the command: those with their values, and the latest one,
which has not been judged yet and may be waiting for its value. -/
structure Options where
  given : List (OptionName × String)
  latest : Option (OptionName × Option String)

namespace Options

/-- No options. -/
def none : Options := ⟨[], .none⟩

/-- The option that is waiting for its value. -/
def awaiting? (o : Options) : Option OptionName :=
  match o.latest with
  | some (name, .none) => some name
  | _ => .none

/-- One more option with its value; an option may be given once. -/
def put (given : List (OptionName × String)) (name : OptionName) (value : String) :
    Except ArgumentError (List (OptionName × String)) :=
  if (given.lookup name).isSome then .error .misuse else .ok ((name, value) :: given)

/-- The options, with the latest one judged. -/
def settle (o : Options) : Except ArgumentError (List (OptionName × String)) :=
  match o.latest with
  | .none => .ok o.given
  | some (name, .none) => .error (.missingValue name)
  | some (name, some value) => put o.given name value

/-- The options after one more. -/
def take (o : Options) : Flag → Except ArgumentError Options
  | .bare name => do
    let given ← o.settle
    .ok ⟨given, some (name, .none)⟩
  | .whole name value => do
    let given ← put (← o.settle) name value
    .ok ⟨given, .none⟩
  | .help => do
    let _ ← o.settle
    .error .helpWanted
  | .unknown => .error .misuse

/-- The options after the value of the one that was waiting. -/
def supply (o : Options) (name : OptionName) (value : String) : Options :=
  { o with latest := some (name, some value) }

end Options

/-! ## Commands -/

inductive CommandName
  | init
  | describe
  | clean
  | drop
  | alter
  deriving DecidableEq, Repr

/-- The command of a name. -/
def CommandName.ofText? (text : String) : Option CommandName :=
  if text = "init" then some init
  else if text = "describe" then some describe
  else if text = "clean" then some clean
  else if text = "drop" then some drop
  else if text = "alter" then some alter
  else none

/-- The greatest number of plain arguments of a command. -/
def CommandName.room : CommandName → Nat
  | init => 0
  | describe | clean | drop => 1
  | alter => 4

/-- What the program is asked to do. -/
inductive Request
  | init
  | describe (table : String)
  | clean (table : String)
  | drop (table : String)
  | alter (table alteration column : String) (type? : Option String)
  deriving DecidableEq

/-- The request of a command with its plain arguments. -/
def Request.of? : CommandName → List String → Option Request
  | .init, [] => some init
  | .describe, [table] => some (describe table)
  | .clean, [table] => some (clean table)
  | .drop, [table] => some (drop table)
  | .alter, [table, alteration, column] => some (alter table alteration column none)
  | .alter, [table, alteration, column, type] => some (alter table alteration column (some type))
  | _, _ => none

/-- The options and the plain arguments behind a command that has room for `room` more of the
latter. -/
def readBehind (room : Nat) (o : Options) :
    List String → Except ArgumentError (List (OptionName × String) × List String)
  | [] => do .ok (← o.settle, [])
  | arg :: rest =>
    match Shape.of arg with
    | .flag flag => do readBehind room (← o.take flag) rest
    | .separator =>
      if room = 0 && !rest.isEmpty then .error .misuse
      else do
        let given ← o.settle
        if rest.length ≤ room then .ok (given, rest) else .error .misuse
    | .plain =>
      match o.awaiting?, room with
      | some name, room => readBehind room (o.supply name arg) rest
      | none, 0 => .error .misuse
      | none, room + 1 => do
        let (given, plain) ← readBehind room ⟨← o.settle, none⟩ rest
        .ok (given, arg :: plain)

/-! ## Command lines -/

/-- A command line that was understood. -/
structure Invocation where
  request : Request
  dataDir : Option String
  defaultDatabase : Option String
  logLevel : Option String
  deriving DecidableEq

namespace Invocation

/-- The command line of a command with the arguments behind it and the options `o` before it. -/
def ofCommand (o : Options) (command : CommandName) (args : List String) :
    Except ArgumentError Invocation := do
  let (behind, plain) ← readBehind command.room .none args
  match Request.of? command plain with
  | none => .error .misuse
  | some request =>
    let before ← o.settle
    let value := fun name => (behind.lookup name).or (before.lookup name)
    .ok ⟨request, value .dataDir, value .defaultDatabase, value .logLevel⟩

/-- What a text says that stands in the place of the command. -/
def ofPlain (o : Options) (text : String) (args : List String) : Except ArgumentError Invocation :=
  match CommandName.ofText? text with
  | some command => ofCommand o command args
  | none =>
    if text = "help" && args.length ≤ 1 && args.all fun arg => (CommandName.ofText? arg).isSome
    then .error .helpWanted
    else .error .misuse

/-- The command line that the arguments behind the options `o` make up. -/
def readFrom (o : Options) : List String → Except ArgumentError Invocation
  | [] => do
    let _ ← o.settle
    .error .misuse
  | arg :: rest =>
    match Shape.of arg with
    | .flag flag => do readFrom (← o.take flag) rest
    | .separator =>
      if rest.isEmpty then do
        let _ ← o.settle
        .error .misuse
      else .error .misuse
    | .plain =>
      match o.awaiting? with
      | some name => readFrom (o.supply name arg) rest
      | none => ofPlain o arg rest

/-- The command line that a list of arguments makes up. -/
def ofArguments (args : List String) : Except ArgumentError Invocation := readFrom .none args

end Invocation

end FlatTables.CommandLine
