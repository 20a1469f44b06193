import FlatTables.Editing
import FlatTables.Session.Step

set_option autoImplicit false

/-! # Running a session

The state of a session is a world with names for stores and tables in it. A step that fails makes no
new names. It leaves the world as the failed operation left it, and a table that it was changing in
place as the change left it. -/

namespace FlatTables

/-- A world with names for some stores and tables, the latest first. -/
structure Session where
  world : World
  stores : List (String × Store)
  tables : List (String × Table)

namespace Session

/-- A session in a world, without names. -/
def start (world : World) : Session := ⟨world, [], []⟩

/-- A computation in a session. -/
abbrev Run (α : Type) := ExceptT StepError (StateM Session) α

/-! ## Names -/

def storeNamed (name : String) : Run Store := do
  match (← get).stores.lookup name with
  | some store => return store
  | none => throw .noHandle

def tableNamed (name : String) : Run Table := do
  match (← get).tables.lookup name with
  | some table => return table
  | none => throw .noHandle

def nameStore (name : String) (store : Store) : Run Unit :=
  modify fun s => { s with stores := (name, store) :: s.stores }

def nameTable (name : String) (table : Table) : Run Unit :=
  modify fun s => { s with tables := (name, table) :: s.tables }

/-! ## Doing things -/

/-- Run an action in the world of the session. -/
def act {ε α : Type} (wrap : ε → StepError) (action : Action ε α) : Run α := do
  let s ← get
  let (result, world) := action.run s.world
  set { s with world := world }
  MonadExcept.ofExcept (result.mapError wrap)

/-- The result of a computation without effects. -/
def check {ε α : Type} (wrap : ε → StepError) (result : Except ε α) : Run α :=
  MonadExcept.ofExcept (result.mapError wrap)

/-- Change the files; a change that the system refuses is none. -/
def changeFiles (f : FileTree → FileTree) : Run Answer := do
  modify fun s => { s with world := { s.world with files := f s.world.files } }
  return .nothing

def expression (json : Json) : Run Expression := check .expression (Expression.ofJson json)

def schemaOf (columns : ColumnSpec) : Run Schema := MonadExcept.ofExcept columns.schema

def typeNamed (name : String) : Run ColumnType := check .unknownType (ColumnType.ofName name)

/-! ## Steps -/

def file : FileStep → Run Answer
  | .write path content => changeFiles fun files => (files.write path content).toOption.getD files
  | .read path => do
    match ((← get).world.files.read path).toOption.bind Text.decode? with
    | some text => return .text text
    | none => return .nothing
  | .makeDirectory path => changeFiles fun files => (files.createDirectories path).2
  | .delete path => changeFiles fun files => (files.remove path).toOption.getD files
  | .deleteDirectory path =>
    changeFiles fun files => (files.removeDirectory path).toOption.getD files
  | .list => do return .texts (← get).world.files.listing
  | .readRows path columns => do
    let schema ← schemaOf columns
    return .rows (← act .storage (DataFile.readRows path schema))
  | .writeRows path rows => do
    act .storage (DataFile.writeRows path rows)
    return .nothing
  | .truncate path => do
    act .storage (DataFile.truncate path)
    return .nothing
  | .remove path => do
    act .storage (DataFile.remove path)
    return .nothing

/-- A step on the store called `name`. -/
def store (name : String) : StoreStep → Run Answer
  | .database database => do
    let store ← storeNamed name
    let location ← act .storage (store.database database)
    return .database database location (location.join (Config.dataFileName "t"))
  | .resolve id => do
    let config := (← storeNamed name).config
    let id := config.resolve id
    return .resolved id (config.tablePath id)
  | .ids => do
    let store ← storeNamed name
    return .texts (store.catalogIn (← get).world).entries.keys
  | .get id => do
    let store ← storeNamed name
    return .definition (← act .storage (store.definition (store.config.resolve id)))
  | .contains id => do
    let store ← storeNamed name
    return .flag ((store.catalogIn (← get).world).contains (store.config.resolve id))
  | .set id columns => do
    let schema ← schemaOf columns
    let store ← storeNamed name
    act .storage (store.register (store.config.resolve id) schema)
    return .nothing
  | .delete id => do
    let store ← storeNamed name
    return .definition (← act .storage (store.unregister (store.config.resolve id)))
  | .describe id => do
    let store ← storeNamed name
    return .text (← act .command (Command.describe store id))
  | .clean id => do
    let store ← storeNamed name
    act .command (Command.clean store id)
    return .nothing
  | .drop id => do
    let store ← storeNamed name
    act .command (Command.drop store id)
    return .nothing
  | .alter id alteration column type? => do
    let store ← storeNamed name
    act .command (Command.alter store id alteration column type?)
    return .nothing

/-- The table that a step makes. -/
def make : MakeStep → Run Table
  | .temporary id columns rows => do
    let schema ← schemaOf columns
    act .table (Operation.temporary id schema rows)
  | .create store id columns? rows? => do
    let schema? ← columns?.mapM schemaOf
    let store ← storeNamed store
    act .table (Operation.create store id schema? rows?)
  | .load store id => do
    let store ← storeNamed store
    act .table (Operation.load store id)
  | .combine operator table other => do
    let t ← tableNamed table
    let other ← tableNamed other
    act .table <| match operator with
      | .union => Operation.union t other
      | .intersect => Operation.intersect t other
      | .difference => Operation.difference t other
      | .product => Operation.product t other
  | .join kind table other condition => do
    let condition ← expression condition
    let t ← tableNamed table
    let other ← tableNamed other
    act .table <| match kind with
      | .inner => Operation.join t other condition
      | .left => Operation.leftJoin t other condition
      | .right => Operation.rightJoin t other condition
  | .select table condition => do
    let t ← tableNamed table
    let condition ← expression condition
    act .table (Operation.select t condition)
  | .extend table expression name? => do
    let e ← Session.expression expression
    let t ← tableNamed table
    act .table (Operation.extend t e name?)
  | .project table names => do
    let t ← tableNamed table
    act .table (Operation.project t names)
  | .rename table newName => do
    let t ← tableNamed table
    act .table (Operation.rename t newName)

/-- Change the table called `name` in place. The name stands for what the change leaves of the table,
also when it fails. -/
def change {α : Type} (name : String) (editing : Editing α) : Run α := do
  let t ← tableNamed name
  let s ← get
  let (result, t', world) := editing.run t s.world
  set { s with world := world }
  nameTable name t'
  check .table result

/-- A step that changes the table called `name`. An alteration and its type are read before the
table is looked up. -/
def edit (name : String) : EditStep → Run Answer
  | .append row => do
    change name (Editing.append row)
    return .nothing
  | .update index row => do
    change name (Editing.update index row)
    return .nothing
  | .delete index => do return .row (← change name (Editing.delete index))
  | .alter alteration column type? => do
    let alteration ← act .table (Operation.alteration alteration)
    let type? ← type?.mapM typeNamed
    change name (Editing.alter alteration column type?)
    return .nothing
  | .addColumn column type => do
    let _ ← tableNamed name
    let type ← typeNamed type
    change name (Editing.addColumn column type)
    return .nothing
  | .dropColumn column => do
    change name (Editing.dropColumn column)
    return .nothing
  | .modifyColumn column type => do
    let _ ← tableNamed name
    let type ← typeNamed type
    change name (Editing.modifyColumn column type)
    return .nothing
  | .clean => do
    change name Editing.clean
    return .nothing

/-- The usage text of a session, which does not show the real one. -/
def usageMark : String := "usage"

/-- Run the program by itself: nothing is left of it but the files. -/
def program (args : List String) (environment : List (String × String)) : Run Answer := do
  let s ← get
  let (output, world) :=
    CommandLine.run usageMark (fun name => environment.lookup name) args
      (World.ofFiles s.world.files)
  let _ ← changeFiles fun _ => world.files
  return .output output

/-- A step of any kind. -/
def step : Step → Run Answer
  | .file step => file step
  | .openStore handle config => do
    let opened ← act .storage (Store.load config)
    nameStore handle opened
    return .store opened (opened.catalogIn (← get).world).entries.keys
  | .init handle config => do
    nameStore handle (← act .command (Command.init config))
    return .nothing
  | .store name step => store name step
  | .make handle step => do
    let t ← make step
    nameTable handle t
    return .table t
  | .edit name step => edit name step
  | .read name index => do return .record ((← tableNamed name).record index)
  | .inspect name => do return .inspection (← tableNamed name)
  | .save name => do
    act .table (Operation.save (← tableNamed name))
    return .nothing
  | .drop name => do
    act .table (Operation.drop (← tableNamed name))
    return .nothing
  | .sameRows name other => do
    let t ← tableNamed name
    let other ← tableNamed other
    return .flag (Table.sameRows t.rows other.rows)
  | .program args environment => program args environment

/-- The answer to a step, and the session after it. -/
def advance (s : Session) (next : Step) : Except StepError Answer × Session :=
  (step next).run s

/-- Whether a failure ends the session: a row without a cell for a column of its table leaves
nothing to go on with. -/
def endsSession : StepError → Bool
  | .table (.shortRow _) => true
  | .command (.table (.shortRow _)) => true
  | _ => false

end Session

end FlatTables
