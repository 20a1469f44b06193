import FlatTables.CommandLine.Run

set_option autoImplicit false

/-! # The program

The program reads the data directory and what leads to it, runs its command line on that, and writes
back what has changed. -/

namespace FlatTables.Program

/-- What is shown when the command line is not understood. -/
def usage : String :=
  "Usage: flat-tables [OPTIONS] <COMMAND>\n\n" ++
  "Commands:\n" ++
  "  init                                      initialize the data directory and the catalog\n" ++
  "  describe <TABLE>                          print the definition of a table\n" ++
  "  clean <TABLE>                             remove every row of a table\n" ++
  "  drop <TABLE>                              delete a table and its catalog entry\n" ++
  "  alter <TABLE> <OPERATION> <COLUMN> [TYPE] add, drop or change the type of a column\n\n" ++
  "Options:\n" ++
  "  -d, --data-dir <PATH>    data directory\n" ++
  "  --default-db <NAME>      database of unqualified table names\n" ++
  "  --log-level <LEVEL>      log filter\n" ++
  "  -h, --help               print this text\n"

/-- The variable that names a log filter. -/
def logVariable : String := "RELCSV_LOG"

def variableNames : List String :=
  [Config.dataDirVariable, Config.defaultDatabaseVariable, Config.catalogFileVariable, logVariable]

/-- The variables of the environment that the program looks at. -/
def environment : IO (List (String × String)) :=
  variableNames.filterMapM fun name => do
    return (← IO.getEnv name).map fun value => (name, value)

/-- The absolute path of a location. -/
def pathOf (loc : Location) : String := "/" ++ "/".intercalate loc.reverse

/-- The location of a path, going by its text alone. -/
def locationOf (here : Location) (p : Path) : Location :=
  p.parts.foldl (fun loc part =>
    match part with
    | .here => loc
    | .up => loc.tail
    | .name name => name :: loc) (if p.isAbsolute then [] else here)

/-- Everything inside a directory. -/
partial def readInside (loc : Location) : IO (List (Location × Node)) := do
  let mut nodes : List (Location × Node) := []
  let directory := (← IO.currentDir) / pathOf loc
  for entry in ← directory.readDir do
    let inner := entry.fileName :: loc
    if ← entry.path.isDir then
      nodes := (inner, .directory) :: (← readInside inner) ++ nodes
    else
      nodes := (inner, .file (← IO.FS.readBinFile entry.path).data.toList) :: nodes
  return nodes

/-- What stands at a location and at those around it, as far as it exists. -/
def readAround (loc : Location) : IO (List (Location × Node)) := do
  let mut nodes : List (Location × Node) := []
  for depth in [0:loc.length] do
    let inner := loc.drop depth
    let path := (← IO.currentDir) / pathOf inner
    if ← path.isDir then nodes := (inner, .directory) :: nodes
    else
      try
        nodes := (inner, .file (← IO.FS.readBinFile path).data.toList) :: nodes
      catch _ => pure ()
  return nodes

/-- The files on which a configuration makes the program work. -/
def readFiles (config : Config) : IO FileTree := do
  let here := ((Path.mk (← IO.currentDir).toString).parts.filterMap fun part =>
    match part with
    | .name name => some name
    | _ => none).reverse
  let dataDir := locationOf here config.dataDir
  let around ← readAround dataDir
  let catalog ← readAround (locationOf here config.catalogPath)
  let above ← readAround here
  let inside ← if around.lookup dataDir = some .directory then readInside dataDir else pure []
  return ⟨above ++ around ++ catalog ++ inside, here, []⟩

/-- Change the files of the system from one tree to another. -/
def writeBack (before after : FileTree) : IO Unit := do
  for (loc, node) in before.nodes do
    if after.node? loc = none then
      match node with
      | .file _ => IO.FS.removeFile (pathOf loc)
      | .directory => IO.FS.removeDirAll (pathOf loc)
  for (loc, node) in after.nodes.reverse do
    if before.node? loc != some node then
      match node with
      | .directory => IO.FS.createDirAll (pathOf loc)
      | .file content => IO.FS.writeBinFile (pathOf loc) ⟨content.toArray⟩

end FlatTables.Program

open FlatTables

def main (args : List String) : IO UInt32 := do
  let environment ← Program.environment
  let lookup := fun name => environment.lookup name
  let invocation? := (CommandLine.Invocation.ofArguments args).toOption
  let config := (invocation?.map (·.config lookup)).getD Config.standard
  let files ← Program.readFiles config
  let (output, world) := CommandLine.run Program.usage lookup args (World.ofFiles files)
  Program.writeBack files world.files
  let filter := ((invocation?.bind (·.logLevel)).or (lookup Program.logVariable)).getD "info"
  for event in world.events.reverse do
    if event.level.shownBy filter then IO.eprintln event.line
  IO.print output.stdout
  IO.eprint output.stderr
  return UInt32.ofNat output.status
