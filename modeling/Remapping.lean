import Remapping.Text.Basic
import Remapping.Text.Lines
import Remapping.Text.Blank
import Remapping.Text.Quoted
import Remapping.Descriptor.Rename
import Remapping.Descriptor.Grammar
import Remapping.Mapping.Remapper
import Remapping.Encoding
import Remapping.Layout.Yarn
import Remapping.Layout.Tiny
import Remapping.Value.Json
import Remapping.Record.Mapping
import Remapping.Files.Tree
import Remapping.Moment
import Remapping.Log.Basic
import Remapping.Mapping.Remap
import Remapping.Conversion.Output
import Remapping.Toml.Document
import Remapping.Settings.Load
import Remapping.Report.Document
import Remapping.Conversion.Stages
import Remapping.Console.Render
import Remapping.Report.Display
import Remapping.Log.Scope
import Remapping.Log.Timing
import Remapping.CommandLine.Run
import Remapping.Main
import Remapping.Proofs.Descriptor.Scanning
import Remapping.Proofs.Descriptor.Reading
import Remapping.Proofs.Descriptor.Renaming
import Remapping.Proofs.Descriptor.RenamedTypes
import Remapping.Proofs.Descriptor.Boundaries
import Remapping.Proofs.Descriptor.Faults
import Remapping.Proofs.Mapping.FirstRow
import Remapping.Proofs.Mapping.Notes
import Remapping.Proofs.Mapping.Runs
import Remapping.Proofs.Mapping.Remapping
import Remapping.Proofs.Text.Lines
import Remapping.Proofs.Text.Encodings
import Remapping.Proofs.Layout.Rows
import Remapping.Proofs.Layout.Tabular
import Remapping.Proofs.Layout.RoundTrip
import Remapping.Proofs.Conversion.Translation
import Remapping.Proofs.Conversion.Writing
import Remapping.Proofs.Conversion.Logging
import Remapping.Proofs.Conversion.Outcome
import Remapping.Proofs.Conversion.EndToEnd
import Remapping.Proofs.Mapping.RemappedDescriptors
import Remapping.Proofs.Mapping.References
import Remapping.Proofs.Mapping.Shown
import Remapping.Proofs.Mapping.RenamedTables
import Remapping.Proofs.Conversion.Reobfuscation
import Remapping.Proofs.Layout.SameRows
import Remapping.Proofs.Files.Shape
import Remapping.Proofs.Conversion.Destination
import Remapping.Proofs.Conversion.Determined
import Remapping.Proofs.Conversion.Interleaving
import Remapping.Proofs.Conversion.Progress
import Remapping.Proofs.Conversion.Accepted
import Remapping.Proofs.Conversion.Trace
import Remapping.Proofs.Conversion.Unresolved
import Remapping.Proofs.Conversion.Accounting
import Remapping.Proofs.Files.Rooted
import Remapping.Proofs.Conversion.Modes
import Remapping.Proofs.Mapping.Distinct
import Remapping.Proofs.Conversion.Obstacles
import Remapping.Proofs.Conversion.ReadBack
import Remapping.Proofs.Descriptor.Splicing
import Remapping.Proofs.Mapping.Agreement
import Remapping.Proofs.Files.Making
import Remapping.Proofs.Conversion.Unlogged
import Remapping.Proofs.CommandLine.Running
import Remapping.Proofs.CommandLine.Presentation
import Remapping.Proofs.CommandLine.Verdict
import Remapping.Proofs.Mapping.Shortcut
import Remapping.Proofs.Mapping.Diagnoses
import Remapping.Proofs.Mapping.Duplicates
import Remapping.Proofs.Conversion.Duplicates
import Remapping.Proofs.Descriptor.Tiling
import Remapping.Proofs.Descriptor.Consumers
import Remapping.Proofs.Descriptor.Locality
import Remapping.Proofs.Layout.Contributions
import Remapping.Proofs.Conversion.LineEnds
import Remapping.Proofs.Log.Lines
import Remapping.Proofs.Conversion.Events
import Remapping.Proofs.Conversion.Chronicle
