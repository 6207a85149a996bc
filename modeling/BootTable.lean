import BootTable.Capability
import BootTable.CapabilityIndex
import BootTable.Command
import BootTable.Command.Arguments
import BootTable.Command.Report
import BootTable.Command.Usage
import BootTable.Component
import BootTable.DistinctList
import BootTable.Entry
import BootTable.Entry.Flags
import BootTable.FileReading
import BootTable.FileTree
import BootTable.FileTree.Fault
import BootTable.FileTree.Path
import BootTable.Generate
import BootTable.Importance
import BootTable.Log
import BootTable.Main
import BootTable.Number.Binary64
import BootTable.Number.Decimal
import BootTable.Phase
import BootTable.PhaseGraph
import BootTable.PhaseGraph.Cycle
import BootTable.PhaseGraph.Sort
import BootTable.Plan
import BootTable.Plan.Error
import BootTable.Record
import BootTable.Record.Draft
import BootTable.Record.Fault
import BootTable.Record.Schema
import BootTable.Registry
import BootTable.Registry.Error
import BootTable.Registry.Load
import BootTable.Registry.Rules
import BootTable.Routine
import BootTable.Source
import BootTable.Source.Edit
import BootTable.TableText
import BootTable.TableText.CString
import BootTable.TableText.Config
import BootTable.TableText.Declarations
import BootTable.Text.Padding
import BootTable.Text.Quoted
import BootTable.Text.Sorted
import BootTable.Text.Unprintable
import BootTable.Toml.Datetime
import BootTable.Toml.DatetimeTable
import BootTable.Toml.Decode
import BootTable.Toml.Document
import BootTable.Toml.Numeral
import BootTable.Toml.Quotation
import BootTable.Toml.Reader
import BootTable.Toml.Tree
import BootTable.Toml.Value
import BootTable.Proofs.FirstOfKind
import BootTable.Proofs.Registry.Members
import BootTable.Proofs.CapabilityIndex
import BootTable.Proofs.Registry.Marks
import BootTable.Proofs.Registry.Rules
import BootTable.Proofs.PhaseGraph.Edges
import BootTable.Proofs.PhaseGraph.Sorting
import BootTable.Proofs.PhaseGraph.Turns
import BootTable.Proofs.PhaseGraph.Unresolved
import BootTable.Proofs.PhaseGraph.Reach
import BootTable.Proofs.PhaseGraph.Cycle
import BootTable.Proofs.Plan.Schedulable
import BootTable.Proofs.Plan.Order
import BootTable.Proofs.Registry.Load
import BootTable.Proofs.Registry.Loadable
import BootTable.Proofs.Registry.Representation
import BootTable.Proofs.Generate
import BootTable.Proofs.PhaseGraph.Restriction
import BootTable.Proofs.PhaseGraph.Closure
import BootTable.Proofs.Plan.Stability
import BootTable.Proofs.PhaseGraph.Tables
import BootTable.Proofs.Generate.SourceOrder
import BootTable.Proofs.Entries
import BootTable.Proofs.Registry.FirstBreach
import BootTable.Proofs.Registry.CapabilityOrder
import BootTable.Proofs.PhaseGraph.Refusal
import BootTable.Proofs.CapabilityIndex.Listing
import BootTable.Proofs.Plan.Failure
import BootTable.Proofs.Plan.Warnings
import BootTable.Proofs.Routine
import BootTable.Proofs.Record.Kinds
import BootTable.Proofs.Record.Reading
import BootTable.Proofs.Record.Faults
import BootTable.Proofs.Text.Lines
import BootTable.Proofs.Text.Sorted
import BootTable.Proofs.TableText.Literal
import BootTable.Proofs.TableText.Rows
import BootTable.Proofs.TableText.Declarations
import BootTable.Proofs.TableText.Contents
import BootTable.Proofs.Entries.PhaseOrder
import BootTable.Proofs.Generate.ApNeeds
import BootTable.Proofs.Registry.Alike
import BootTable.Proofs.Record.Rearranged
import BootTable.Proofs.Generate.Rearranged
import BootTable.Proofs.Generate.Disabled
import BootTable.Proofs.FileTree
import BootTable.Proofs.FileReading
import BootTable.Proofs.Command.Arguments
import BootTable.Proofs.Command
import BootTable.Proofs.Generate.Routines
import BootTable.Proofs.Routine.Grammar
import BootTable.Proofs.PhaseGraph.Countdown
import BootTable.Proofs.Registry.Maps
