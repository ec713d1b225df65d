import Pushdown.Catalog.Request
import Pushdown.Command.Run
import Pushdown.Filter
import Pushdown.Main
import Pushdown.Postgres.Introspection
import Pushdown.Postgres.Script
import Pushdown.Proofs.Catalog.Registration
import Pushdown.Proofs.Filter.RoundTrip
import Pushdown.Proofs.Pattern.Pieces
import Pushdown.Proofs.Sql.Condition
import Pushdown.Settings.Document
import Pushdown.Settings.Reader
import Pushdown.Proofs.Catalog.Listing
import Pushdown.Proofs.Postgres.Rows
import Pushdown.Proofs.Catalog.Statement
import Pushdown.Proofs.Command.Preview
import Pushdown.Proofs.Command.Address
import Pushdown.Proofs.Catalog.Exposure
import Pushdown.Proofs.Command.Limit
import Pushdown.Proofs.Filter.Declared
import Pushdown.Proofs.Catalog.FromClause
import Pushdown.Proofs.Catalog.RawQuery
import Pushdown.Proofs.Catalog.Building
import Pushdown.Proofs.Number.Rounding
import Pushdown.Proofs.Json.Number
import Pushdown.Proofs.Json.Null
import Pushdown.Proofs.Record.Line
import Pushdown.Proofs.Postgres.Nulls
import Pushdown.Proofs.Yaml.Scalar
import Pushdown.Proofs.Yaml.Flow
import Pushdown.Proofs.Settings.RoundTrip
import Pushdown.Proofs.Catalog.Credentials
import Pushdown.Proofs.Catalog.SchemaName
import Pushdown.Proofs.Outcome
import Pushdown.Proofs.Number.Whole
import Pushdown.Proofs.Filter.Spelling
import Pushdown.Proofs.Filter.Grammar
import Pushdown.Proofs.Filter.Operators
import Pushdown.Proofs.Time.Fraction
import Pushdown.Proofs.Time.Civil
import Pushdown.Proofs.Postgres.Temporal
import Pushdown.Proofs.Filter.Instant
import Pushdown.Proofs.Number.Literal
import Pushdown.Proofs.Postgres.Money
import Pushdown.Proofs.Postgres.Magnitude
import Pushdown.Proofs.Filter.Numeral
import Pushdown.Proofs.Postgres.Introspection
import Pushdown.Proofs.Pattern.Fault
import Pushdown.Proofs.VirtualTable.Synthesis
import Pushdown.Proofs.Predicate.Escaping
import Pushdown.Proofs.Record.History
import Pushdown.Proofs.Text.Hex
import Pushdown.Proofs.Postgres.Bytes
import Pushdown.Proofs.Command.Framing
import Pushdown.Proofs.Record.Extent
import Pushdown.Proofs.Record.Forms
import Pushdown.Proofs.Time.Printed
import Pushdown.Proofs.Postgres.Printed
