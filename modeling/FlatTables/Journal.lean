set_option autoImplicit false

/-! # Events

The library reports what it does as events: errors, results worth knowing, and details. -/

namespace FlatTables

inductive Level
  | error
  | info
  | debug
  deriving DecidableEq, Repr

def Level.name : Level → String
  | error => "ERROR"
  | info => "INFO"
  | debug => "DEBUG"

/-- The levels that a log filter lets through; a filter that is none lets through what `info`
does. -/
def Level.shownBy (filter : String) : Level → Bool
  | error => filter != "off"
  | info => filter != "off" && filter != "error" && filter != "warn"
  | debug => filter = "debug" || filter = "trace"

/-- Something that was reported. -/
structure Event where
  level : Level
  message : String
  deriving DecidableEq

/-- The line of an event in a journal. -/
def Event.line (e : Event) : String := e.level.name ++ " " ++ e.message

end FlatTables
