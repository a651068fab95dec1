import FlatQuery.Text.Blank
import FlatQuery.Text.Quotation
import FlatQuery.Text.Utf8
import FlatQuery.Error
import FlatQuery.Token
import FlatQuery.Config
import FlatQuery.Query.Basic
import FlatQuery.Query.Clause
import FlatQuery.Query.Draft
import FlatQuery.Query.Reading
import FlatQuery.Query.Writing
import FlatQuery.Json
import FlatQuery.Query.Explain
import FlatQuery.Table.Basic
import FlatQuery.Table.Join
import FlatQuery.Table.Select
import FlatQuery.Table.Change
import FlatQuery.Csv.Record
import FlatQuery.Csv.Reading
import FlatQuery.Csv.Writing
import FlatQuery.Query.Answer
import FlatQuery.Disk
import FlatQuery.Database
import FlatQuery.Session
import FlatQuery.CommandLine
import FlatQuery.Main
import FlatQuery.Proofs.Text.Quotation
import FlatQuery.Proofs.Token
import FlatQuery.Proofs.Query.Clause
import FlatQuery.Proofs.Query.RoundTrip
import FlatQuery.Proofs.Csv.Record
import FlatQuery.Proofs.Csv.Text
import FlatQuery.Proofs.Table.Sheet
import FlatQuery.Proofs.Csv.Table
import FlatQuery.Proofs.Table.Change
import FlatQuery.Proofs.Disk
import FlatQuery.Proofs.Persistence
import FlatQuery.Proofs.Execution
import FlatQuery.Proofs.Frame
import FlatQuery.Proofs.Memory
import FlatQuery.Proofs.Simulation
import FlatQuery.Proofs.Csv.Header
import FlatQuery.Proofs.Table.Position
import FlatQuery.Proofs.Table.Revision
import FlatQuery.Proofs.Rewrite
import FlatQuery.Proofs.Repetition
import FlatQuery.Proofs.Retention
import FlatQuery.Proofs.Insertion
import FlatQuery.Proofs.Schema
import FlatQuery.Proofs.Query.Grammar
import FlatQuery.Proofs.Query.Acceptance
import FlatQuery.Proofs.Query.Draft
import FlatQuery.Proofs.Query.Rearrangement
import FlatQuery.Proofs.Session
import FlatQuery.Proofs.Independence
import FlatQuery.Proofs.Table.History
import FlatQuery.Proofs.Text.Run
import FlatQuery.Proofs.Token.Cut
import FlatQuery.Proofs.Token.Printing
import FlatQuery.Proofs.Table.Sorting
import FlatQuery.Proofs.Token.Items
import FlatQuery.Proofs.Query.Layout
import FlatQuery.Proofs.Query.Spelling
import FlatQuery.Proofs.Query.Elements
import FlatQuery.Proofs.Query.EmptyItem
import FlatQuery.Proofs.Query.Ordering
import FlatQuery.Proofs.Table.Selection
import FlatQuery.Proofs.Table.Join
import FlatQuery.Proofs.JoinedColumns
import FlatQuery.Proofs.Table.JoinedSelection
import FlatQuery.Proofs.Csv.Character
import FlatQuery.Proofs.Loading
import FlatQuery.Proofs.Table.JoinOrder
import FlatQuery.Proofs.Token.Stretch
