import Schemata.CommandLine.Request
import Schemata.CommandLine.Run
import Schemata.Ddl.Printer
import Schemata.Ddl.Statement
import Schemata.Disk
import Schemata.Edge.Assembly
import Schemata.Edge.Diagram
import Schemata.Edge.Links
import Schemata.Edge.Scan
import Schemata.Format.Basic
import Schemata.Format.BuildError
import Schemata.Format.Catalog
import Schemata.Format.Conversion
import Schemata.Format.Importer
import Schemata.Format.LineReader
import Schemata.Format.ParseError
import Schemata.Format.Report
import Schemata.Keyed
import Schemata.Main
import Schemata.Model.DataType
import Schemata.Model.Field
import Schemata.Model.Operation
import Schemata.Model.Schema
import Schemata.Model.Table
import Schemata.Notify.Audience
import Schemata.Notify.Delivery
import Schemata.Notify.Session
import Schemata.SaveFile.Assembly
import Schemata.SaveFile.Basic
import Schemata.SaveFile.Numbering
import Schemata.SaveFile.Printer
import Schemata.SaveFile.Reader
import Schemata.Text.Blank
import Schemata.Text.Case
import Schemata.Text.CaseTable
import Schemata.Text.Number
import Schemata.Text.Split
import Schemata.Xml.Document
import Schemata.Xml.Fault
import Schemata.Xml.Reader
import Schemata.Xml.Tag
import Schemata.Xml.Tree
import Schemata.Xml.Value
import Schemata.XmlDiagram.Relations
import Schemata.XmlDiagram.Tables
import Schemata.Proofs.Keyed
import Schemata.Proofs.Model.Steps
import Schemata.Proofs.Model.History
import Schemata.Proofs.Model.Layout
import Schemata.Proofs.Model.Bindings
import Schemata.Proofs.Edge.Connectors
import Schemata.Proofs.Edge.Resolution
import Schemata.Proofs.Edge.Run
import Schemata.Proofs.Format.LineReader
import Schemata.Proofs.SaveFile.Blocks
import Schemata.Proofs.SaveFile.Rows
import Schemata.Proofs.SaveFile.Outline
import Schemata.Proofs.SaveFile.Consistency
import Schemata.Proofs.SaveFile.Assembly
import Schemata.Proofs.SaveFile.Assembled
import Schemata.Proofs.Model.Selection
import Schemata.Proofs.SaveFile.Numbers
import Schemata.Proofs.SaveFile.Written
import Schemata.Proofs.SaveFile.Integrity
import Schemata.Proofs.SaveFile.Reachability
import Schemata.Proofs.SaveFile.RoundTrip
import Schemata.Proofs.SaveFile.Acceptance
import Schemata.Proofs.SaveFile.Description
import Schemata.Proofs.SaveFile.Representable
import Schemata.Proofs.SaveFile.Copies
import Schemata.Proofs.Format.Reachability
import Schemata.Proofs.Format.Canonical
import Schemata.Proofs.Model.Counting
import Schemata.Proofs.Ddl.Definition
import Schemata.Proofs.Ddl.Copies
import Schemata.Proofs.Notify.Runs
import Schemata.Proofs.Notify.Delivery
import Schemata.Proofs.Faults
import Schemata.Proofs.Notify.Session
import Schemata.Proofs.Model.Announcement
import Schemata.Proofs.SaveFile.Offences
import Schemata.Proofs.Format.Completeness
import Schemata.Proofs.XmlDiagram.Rules
import Schemata.Proofs.XmlDiagram.Tables
import Schemata.Proofs.XmlDiagram.Section
import Schemata.Proofs.Edge.Layout
import Schemata.Proofs.Edge.Scan
import Schemata.Proofs.Endings
import Schemata.Proofs.Format.Endings
import Schemata.Proofs.Model.Refusals
import Schemata.Proofs.Model.Naming
import Schemata.Proofs.Edge.Drawn
import Schemata.Proofs.Edge.Finding
import Schemata.Proofs.SaveFile.Reading
import Schemata.Proofs.SaveFile.Placing
import Schemata.Proofs.SaveFile.Finding
import Schemata.Proofs.SaveFile.Columns
import Schemata.Proofs.SaveFile.Keeping
import Schemata.Proofs.XmlDiagram.Finding
import Schemata.Proofs.Format.Names
import Schemata.Proofs.Disk
import Schemata.Proofs.CommandLine.Options
import Schemata.Proofs.CommandLine.Run
import Schemata.Proofs.CommandLine.Conversion
import Schemata.Proofs.Format.Importer
import Schemata.Proofs.Model.Relating
import Schemata.Proofs.XmlDiagram.References
import Schemata.Proofs.Edge.Assembly
import Schemata.Proofs.Edge.Depiction
import Schemata.Proofs.Ddl.Order
import Schemata.Proofs.Ddl.Items
import Schemata.Proofs.Legible
import Schemata.Proofs.Ddl.Legible
import Schemata.Proofs.Ddl.Outline
import Schemata.Proofs.Ddl.Closure
import Schemata.Proofs.SaveFile.FieldLines
import Schemata.Proofs.SaveFile.Sequence
import Schemata.Proofs.SaveFile.Reordering
import Schemata.Proofs.SaveFile.Gaps
import Schemata.Proofs.SaveFile.Repetition
import Schemata.Proofs.Format.Locality
import Schemata.Proofs.Edge.Locality
import Schemata.Proofs.Model.Footprint
import Schemata.Proofs.Notify.Nesting
import Schemata.Proofs.Notify.Termination
import Schemata.Proofs.Notify.Subscriptions
import Schemata.Proofs.Model.Moves
import Schemata.Proofs.Ddl.ConstraintNames
import Schemata.Proofs.Format.Lookup
import Schemata.Proofs.Format.Blocks
