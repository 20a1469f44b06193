import FlatTables.File.Path
import FlatTables.TableId

set_option autoImplicit false

/-! # Configuration

Where the tables and the catalog are, and to which database a bare table name belongs. Three
variables of the environment override the defaults. -/

namespace FlatTables

structure Config where
  /-- The directory that holds a directory for each database. -/
  dataDir : Path
  defaultDatabase : String
  /-- The file of the catalog, as seen from the data directory. -/
  catalogFile : String
  deriving DecidableEq

namespace Config

/-- The configuration without any overrides. -/
def standard : Config := ⟨⟨"data"⟩, "default", "catalog.json"⟩

def dataDirVariable : String := "RELCSV_DATA_DIR"

def defaultDatabaseVariable : String := "RELCSV_DEFAULT_DB"

def catalogFileVariable : String := "RELCSV_CATALOG"

/-- The standard configuration with the overrides of an environment. -/
def ofEnvironment (lookup : String → Option String) : Config where
  dataDir := ((lookup dataDirVariable).map Path.mk).getD standard.dataDir
  defaultDatabase := (lookup defaultDatabaseVariable).getD standard.defaultDatabase
  catalogFile := (lookup catalogFileVariable).getD standard.catalogFile

/-- The standard configuration for another data directory. -/
def withDataDir (dir : Path) : Config := { standard with dataDir := dir }

/-- The path of the catalog. -/
def catalogPath (c : Config) : Path := c.dataDir.join c.catalogFile

/-- The directory of a database. -/
def databasePath (c : Config) (database : String) : Path := c.dataDir.join database

/-- The name of the data file of a table. -/
def dataFileName (table : String) : String := table ++ ".csv"

/-- The data file of a table. -/
def tablePath (c : Config) (id : TableId) : Path :=
  (c.databasePath id.database).join (dataFileName id.name)

/-- The table that an identifier means. -/
def resolve (c : Config) (id : String) : TableId := TableId.parse id c.defaultDatabase

end Config

end FlatTables
