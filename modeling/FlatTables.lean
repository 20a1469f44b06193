import FlatTables.Main
import FlatTables.Session.Run
import FlatTables.Proofs.Algebra.Extension
import FlatTables.Proofs.Algebra.Join
import FlatTables.Proofs.Algebra.Multiplicity
import FlatTables.Proofs.Algebra.OuterJoin
import FlatTables.Proofs.Algebra.Pushdown
import FlatTables.Proofs.Algebra.Renaming
import FlatTables.Proofs.Algebra.Selection
import FlatTables.Proofs.Algebra.SetAlgebra
import FlatTables.Proofs.Algebra.Symmetry
import FlatTables.Proofs.Catalog.Grammar
import FlatTables.Proofs.Catalog.WriteThrough
import FlatTables.Proofs.Command.Removal
import FlatTables.Proofs.DataFile.Lines
import FlatTables.Proofs.Expression.Document
import FlatTables.Proofs.Expression.Exact
import FlatTables.Proofs.Expression.Failure
import FlatTables.Proofs.Expression.Grouping
import FlatTables.Proofs.Expression.Membership
import FlatTables.Proofs.Expression.Numbers
import FlatTables.Proofs.Integer.Numeral
import FlatTables.Proofs.Operation.Alter
import FlatTables.Proofs.Operation.Commuting
import FlatTables.Proofs.Operation.Conversion
import FlatTables.Proofs.Operation.FailedSave
import FlatTables.Proofs.Operation.Frame
import FlatTables.Proofs.Operation.FullName
import FlatTables.Proofs.Operation.InPlace
import FlatTables.Proofs.Operation.Nulls
import FlatTables.Proofs.Operation.Reachable
import FlatTables.Proofs.Operation.Removal
import FlatTables.Proofs.Operation.Reporting
import FlatTables.Proofs.Operation.SaveLoad
import FlatTables.Proofs.Operation.Undoing
import FlatTables.Proofs.Store.Paired
import FlatTables.Proofs.Store.Separate
import FlatTables.Proofs.Table.Converting
