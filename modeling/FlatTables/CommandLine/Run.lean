import FlatTables.Command
import FlatTables.CommandLine.Arguments

set_option autoImplicit false

/-! # Running a command line

Every command first makes the store ready. A failure is a line of text and the status 2. -/

namespace FlatTables.CommandLine

/-- What a run of the program leaves behind besides files. -/
structure Output where
  status : Nat
  stdout : String
  stderr : String
  deriving DecidableEq

/-- The status of a run that failed. -/
def failureStatus : Nat := 2

/-- The configuration of an environment, with the overrides of a command line. -/
def Invocation.config (i : Invocation) (lookup : String → Option String) : Config :=
  let config := Config.ofEnvironment lookup
  { config with
    dataDir := (i.dataDir.map Path.mk).getD config.dataDir
    defaultDatabase := i.defaultDatabase.getD config.defaultDatabase }

/-- Carry out a request; the result is the text to print. -/
def Request.perform (store : Store) : Request → Action CommandError String
  | .init => return ""
  | .describe table => do
    let text ← Command.describe store table
    return text ++ "\n"
  | .clean table => do
    Command.clean store table
    return ""
  | .drop table => do
    Command.drop store table
    return ""
  | .alter table alteration column type? => do
    Command.alter store table alteration column type?
    return ""

/-- Make the store ready and carry out a request. -/
def Invocation.perform (i : Invocation) (lookup : String → Option String) :
    Action CommandError String := do
  let store ← Command.init (i.config lookup)
  i.request.perform store

/-- Run the program on arguments, with `usage` to show when they are not understood. -/
def run (usage : String) (lookup : String → Option String) (args : List String) (w : World) :
    Output × World :=
  match Invocation.ofArguments args with
  | .error .helpWanted => (⟨0, usage, ""⟩, w)
  | .error e => (⟨failureStatus, "", e.message usage⟩, w)
  | .ok invocation =>
    match invocation.perform lookup w with
    | (.ok text, w') => (⟨0, text, ""⟩, w')
    | (.error e, w') => (⟨failureStatus, "", e.message ++ "\n"⟩, w')

end FlatTables.CommandLine
