import FlatTables.Catalog.Basic
import FlatTables.File.Tree
import FlatTables.Journal

set_option autoImplicit false

/-! # The world and actions on it

A `World` is everything that outlives a call: the files, the catalogs that were opened, and the
events reported so far. An `Action` is a computation in a world that ends in a result or an error,
and leaves a world behind in both cases.

A file is written in steps. Opening it leaves it empty, or fails and leaves it as it was. Then its
bytes are handed over, and the system may take some of them and refuse the rest. Which attempts meet
such a fault is not known beforehand, so a world holds what becomes of the attempts to come. -/

namespace FlatTables

/-! ## Faults -/

/-- How the system stops taking the bytes of an open file. -/
structure Fault where
  /-- How many bytes it has taken. -/
  taken : Nat
  /-- Why it refuses the rest. -/
  cause : FileError
  /-- Where in the bytes those begin that a buffer still holds, and hands over once more when the
  file is closed. -/
  resumed : Nat
  /-- How many of these are taken then. -/
  again : Nat
  deriving DecidableEq

namespace Fault

/-- What a file holds of bytes that were handed over, if they met a fault or none. -/
def kept : Option Fault → List UInt8 → List UInt8
  | none, content => content
  | some fault, content => content.take fault.taken

/-- What a file holds of bytes that were handed over through a buffer and met a fault. -/
def keptByBuffer (fault : Fault) (content : List UInt8) : List UInt8 :=
  content.take fault.taken ++ (content.drop fault.resumed).take fault.again

end Fault

/-! ## Worlds -/

/-- The files, the open catalogs and the events. -/
structure World where
  files : FileTree
  /-- The number of catalogs opened so far. -/
  opened : Nat
  /-- The catalogs by the number under which each was opened. -/
  catalogs : Nat → Catalog
  /-- What was reported, latest first. -/
  events : List Event
  /-- What becomes of the next attempts to hand over bytes, one after the other. Those that come
  later meet no fault. -/
  faults : List (Option Fault)

namespace World

/-- A world with the given files, nothing opened, and no faults to come. -/
def ofFiles (files : FileTree) : World := ⟨files, 0, fun _ => ⟨⟨""⟩, .empty⟩, [], []⟩

theorem files_ofFiles (files : FileTree) : (ofFiles files).files = files := rfl

/-- The fault that the given bytes meet if they are handed over next. Where there are none to hand
over, none is met. -/
def fault? (w : World) (content : List UInt8) : Option Fault :=
  if content = [] then none else w.faults.head?.join

/-- What becomes of the attempts after the given bytes were handed over. -/
def laterFaults (w : World) (content : List UInt8) : List (Option Fault) :=
  if content = [] then w.faults else w.faults.tail

/-- The world `w` with another catalog under a number. -/
def setCatalog (w : World) (number : Nat) (catalog : Catalog) : World :=
  { w with catalogs := fun n => if n = number then catalog else w.catalogs n }

theorem catalogs_setCatalog (w : World) (number other : Nat) (catalog : Catalog) :
    (w.setCatalog number catalog).catalogs other =
      if other = number then catalog else w.catalogs other := rfl

/-- The world `w` with one more event. -/
def report (w : World) (event : Event) : World := { w with events := event :: w.events }

end World

/-- A computation in a world that ends in a result or an error. -/
def Action (ε α : Type) : Type := World → Except ε α × World

namespace Action

variable {ε ε' α β : Type}

/-- The result and the world after running an action. -/
def run (x : Action ε α) (w : World) : Except ε α × World := x w

/-- The action that changes nothing. -/
def pure (a : α) : Action ε α := fun w => (.ok a, w)

/-- The action that goes on with the result of `x`, and ends with its error. -/
def bind (x : Action ε α) (f : α → Action ε β) : Action ε β := fun w =>
  match x w with
  | (.ok a, w') => f a w'
  | (.error e, w') => (.error e, w')

instance : Monad (Action ε) where
  pure := pure
  bind := bind

theorem run_bind (x : Action ε α) (f : α → Action ε β) (w : World) :
    (x >>= f).run w =
      match x.run w with
      | (.ok a, w') => (f a).run w'
      | (.error e, w') => (.error e, w') := rfl

/-- The world as it is. -/
def world : Action ε World := fun w => (.ok w, w)

/-- Change the world. -/
def change (f : World → World) : Action ε Unit := fun w => (.ok (), f w)

/-- Report an event. -/
def emit (level : Level) (message : String) : Action ε Unit :=
  change fun w => w.report ⟨level, message⟩

/-- End with an error, without reporting it. -/
def throw (e : ε) : Action ε α := fun w => (.error e, w)

/-- End with an error after reporting its message. -/
def fail (message : ε → String) (e : ε) : Action ε α := fun w =>
  (.error e, w.report ⟨.error, message e⟩)

/-- The result of a computation that needs no world; its error is reported. -/
def ofExcept (message : ε → String) : Except ε α → Action ε α
  | .ok a => pure a
  | .error e => fail message e

/-- The result of a computation that needs no world; its error is not reported. -/
def unreported : Except ε α → Action ε α
  | .ok a => pure a
  | .error e => throw e

/-- The action `x` with its error turned into another kind, unreported. -/
def mapError (f : ε → ε') (x : Action ε α) : Action ε' α := fun w =>
  match x w with
  | (.ok a, w') => (.ok a, w')
  | (.error e, w') => (.error (f e), w')

/-- The action `x` with its error turned into another kind, and reported as that. -/
def raise (message : ε' → String) (f : ε → ε') (x : Action ε α) : Action ε' α := fun w =>
  match x w with
  | (.ok a, w') => (.ok a, w')
  | (.error e, w') => fail message (f e) w'

/-- The action `x`; if it ends with an error, the world is changed before the error is passed on. -/
def orElseUndo (x : Action ε α) (undo : World → World) : Action ε α := fun w =>
  match x w with
  | (.ok a, w') => (.ok a, w')
  | (.error e, w') => (.error e, undo w')

/-! ## Files -/

/-- Change the files by a step that the system does as a whole or refuses. -/
def changeFiles (message : ε → String) (wrap : FileError → ε)
    (f : FileTree → Except FileError FileTree) : Action ε Unit := fun w =>
  match f w.files with
  | .ok files => (.ok (), { w with files := files })
  | .error e => fail message (wrap e) w

/-- Open a file for writing. It is empty afterwards, whatever it held before. -/
def openFile (message : ε → String) (wrap : FileError → ε) (path : Path) : Action ε Unit :=
  changeFiles message wrap (·.write path [])

/-- Hand over bytes to an open file. The result is the fault that they meet, if any. -/
def handOver (content : List UInt8) : Action ε (Option Fault) := fun w =>
  (.ok (w.fault? content), { w with faults := w.laterFaults content })

/-- Let a file that is open hold the bytes that were taken. -/
def fill (path : Path) (content : List UInt8) : Action ε Unit :=
  change fun w => { w with files := (w.files.write path content).toOption.getD w.files }

/-- Replace the content of a file: open it and hand over the new content. If that meets a fault, the
file is left with what was taken by then. -/
def writeFile (message : ε → String) (wrap : FileError → ε) (path : Path) (content : List UInt8) :
    Action ε Unit := do
  openFile message wrap path
  let fault? ← handOver content
  fill path (Fault.kept fault? content)
  match fault? with
  | none => return ()
  | some fault => fail message (wrap fault.cause)

end Action

end FlatTables
