import TableShell.Command.Printer
import TableShell.Engine.Refusal
import TableShell.Main
import TableShell.Proofs.Field.Range
import TableShell.Proofs.Session.Frame
import TableShell.Proofs.Session.SimultaneousUpdate
import TableShell.Proofs.Table.CopyRange
import TableShell.Workbook.Lookup
import TableShell.Proofs.Session.RangeCopy
import TableShell.Proofs.Text.Lines
import TableShell.Proofs.Session.Lines
import TableShell.Proofs.Session.Dialogue
import TableShell.Proofs.Session.Script
import TableShell.Proofs.Session.Failures
import TableShell.Proofs.Store.Locality
import TableShell.Proofs.Session.Locality
import TableShell.Proofs.Session.Hush
import TableShell.Proofs.Program.Quiet
import TableShell.Proofs.Command.Line
import TableShell.Proofs.Chunk.Written
import TableShell.Proofs.Session.Undo
import TableShell.Proofs.Field.Grammar
import TableShell.Proofs.Session.CopiedKeys
import TableShell.Proofs.Session.Served
import TableShell.Proofs.DataFile.Load
import TableShell.Proofs.Chunk.Grammar
import TableShell.Proofs.Store.Places
import TableShell.Proofs.Store.Selection
import TableShell.Proofs.Session.Selection
import TableShell.Proofs.Store.RangeQuery
import TableShell.Proofs.Store.Scope
import TableShell.Proofs.Session.FileLists
import TableShell.Proofs.Session.Repetition
import TableShell.Proofs.Session.SingleUpdates
import TableShell.Proofs.Session.KeyColumn
import TableShell.Proofs.Command.Casing
import TableShell.Proofs.Session.Casing
import TableShell.Proofs.Session.LoneValue
import TableShell.Proofs.Session.FileNames
import TableShell.Proofs.Arguments.Items
import TableShell.Proofs.Arguments.Order
import TableShell.Proofs.Workbook.FirstFault
