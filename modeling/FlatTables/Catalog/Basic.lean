import FlatTables.Dictionary
import FlatTables.File.Path
import FlatTables.Schema
import FlatTables.TableId

set_option autoImplicit false

/-! # The catalog

The catalog knows the schema of every saved table under its full name. It stands in one document,
which is written anew whenever an entry changes. -/

namespace FlatTables

/-- An entry of the catalog: the name and the columns of a table. -/
structure TableDefinition where
  name : String
  columns : Schema
  deriving DecidableEq

/-- The entries of a catalog, by full table name. -/
abbrev CatalogEntries := Dictionary TableDefinition

/-- A catalog that was opened, with the path of its document. -/
structure Catalog where
  path : Path
  entries : CatalogEntries

namespace Catalog

/-- Whether a table has an entry. -/
def contains (c : Catalog) (id : TableId) : Bool := c.entries.contains id.fullName

/-- The entry of a table. -/
def find? (c : Catalog) (id : TableId) : Option TableDefinition := c.entries.get? id.fullName

end Catalog

end FlatTables
