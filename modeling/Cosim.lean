import Cosim.Archive
import Cosim.Archive.Deflate
import Cosim.Archive.Entry
import Cosim.Archive.Zip
import Cosim.Case
import Cosim.Command.Line
import Cosim.Command.Options
import Cosim.Command.Run
import Cosim.Csv
import Cosim.Deploy.CallGraph
import Cosim.Deploy.Compile
import Cosim.Deploy.OspModel
import Cosim.Deploy.OspStructure
import Cosim.Deploy.Report
import Cosim.Deploy.Results
import Cosim.Deploy.SspDescription
import Cosim.Deploy.Statistics
import Cosim.Deploy.WatchPlan
import Cosim.Dictionary.Reader
import Cosim.Dictionary.Record
import Cosim.Dictionary.Value
import Cosim.Dictionary.Writer
import Cosim.Disk
import Cosim.Document.Field
import Cosim.Document.Form
import Cosim.Document.Name
import Cosim.Document.Token
import Cosim.Document.Writing
import Cosim.Entries
import Cosim.Failure
import Cosim.Fmu
import Cosim.Json.Number
import Cosim.Json.Reader
import Cosim.Json.Writer
import Cosim.Main
import Cosim.Model.Description
import Cosim.Model.Edit
import Cosim.Model.Start
import Cosim.Model.Unit
import Cosim.Model.Variable
import Cosim.Names
import Cosim.Number.Double
import Cosim.Number.Literal
import Cosim.Number.Notation
import Cosim.Number.Shortest
import Cosim.Osp.Import
import Cosim.Osp.Model
import Cosim.Osp.Structure
import Cosim.Path
import Cosim.Proofs.Deploy.Override
import Cosim.Proofs.Deploy.Reimport
import Cosim.Proofs.Deploy.Wiring
import Cosim.Proofs.Dictionary.Grammar
import Cosim.Proofs.Dictionary.Readable
import Cosim.Proofs.Dictionary.RoundTrip
import Cosim.Proofs.Dictionary.Word
import Cosim.Proofs.Disk
import Cosim.Proofs.Entries
import Cosim.Proofs.Fmu
import Cosim.Proofs.Model.Start
import Cosim.Proofs.Number.Notation
import Cosim.Proofs.Number.Rounding
import Cosim.Proofs.Number.Shortest
import Cosim.Proofs.Osp.Import
import Cosim.Proofs.Osp.Wiring
import Cosim.Proofs.Path
import Cosim.Proofs.System.Builder
import Cosim.Proofs.System.Built
import Cosim.Proofs.System.Component
import Cosim.Proofs.System.Entry
import Cosim.Script.Builtin
import Cosim.Script.Bytes
import Cosim.Script.Calculation
import Cosim.Script.Command
import Cosim.Script.Condition
import Cosim.Script.Evaluation
import Cosim.Script.Expansion
import Cosim.Script.Launcher
import Cosim.Script.Machine
import Cosim.Script.Pattern
import Cosim.Script.Printed
import Cosim.Script.Reader
import Cosim.Script.Signal
import Cosim.Script.Starter
import Cosim.Script.Starting
import Cosim.Script.System
import Cosim.Script.Utility
import Cosim.Script.Utility.Basic
import Cosim.Script.Utility.Expression
import Cosim.Script.Utility.Files
import Cosim.Script.Utility.Search
import Cosim.Script.Utility.Text
import Cosim.Script.Utility.Tree
import Cosim.Simulation
import Cosim.Span
import Cosim.Ssp.Description
import Cosim.System.Builder
import Cosim.System.Component
import Cosim.System.Connection
import Cosim.System.Connector
import Cosim.System.Entry
import Cosim.System.System
import Cosim.Text.Class
import Cosim.Text.Column
import Cosim.Text.Emoji
import Cosim.Text.Escaped
import Cosim.Text.Quoted
import Cosim.Text.Replace
import Cosim.Text.Rest
import Cosim.Text.Table
import Cosim.Text.Utf8
import Cosim.Text.Width
import Cosim.Timestamp
import Cosim.Tool.Program
import Cosim.Tool.Tool
import Cosim.Watch.Plan
import Cosim.Watch.ResultFile
import Cosim.Watch.Source
import Cosim.Watch.Statistics
import Cosim.Watch.Table
import Cosim.Watch.Watcher
import Cosim.Xml.Build
import Cosim.Xml.Entity
import Cosim.Xml.Layout
import Cosim.Xml.Markup
import Cosim.Xml.Render
import Cosim.Xml.Tag
import Cosim.Xml.Tree
import Cosim.Proofs.Xml.Entity
import Cosim.Proofs.Xml.Tag
import Cosim.Proofs.Xml.Scan
import Cosim.Proofs.Xml.Tidy
import Cosim.Proofs.Xml.RoundTrip
import Cosim.Proofs.Document.Token
import Cosim.Proofs.Document.Form
import Cosim.Proofs.Document.Writing
import Cosim.Proofs.Document.Field
import Cosim.Proofs.Osp.Structure
import Cosim.Proofs.Osp.Model
import Cosim.Proofs.Ssp.Description
import Cosim.Proofs.Document.RoundTrip
import Cosim.Proofs.FileName
import Cosim.Proofs.Files
import Cosim.Proofs.Deploy.Copying
import Cosim.Proofs.System.Opened
import Cosim.Proofs.Deploy.References
import Cosim.Proofs.Watch.Watching
import Cosim.Proofs.Osp.Connections
import Cosim.Proofs.Disk.Alike
import Cosim.Proofs.Deploy.Cleaning
import Cosim.Proofs.Deploy.Leftovers
import Cosim.Proofs.Deploy.Repeating
import Cosim.Proofs.Deploy.Recompile
import Cosim.Proofs.System.Turns
import Cosim.Proofs.System.Naming
import Cosim.Proofs.Tool.Proxies
import Cosim.Proofs.Tool.Scripts
import Cosim.Proofs.System.Forwarding
import Cosim.Proofs.Deploy.Integrity
import Cosim.Proofs.Deploy.InitialValues
import Cosim.Proofs.Archive.Edits
import Cosim.Proofs.Archive.Writing
import Cosim.Proofs.Step
import Cosim.Proofs.Deploy.Resolution
import Cosim.Proofs.Watch.Columns
import Cosim.Proofs.Xml.Parsed
import Cosim.Proofs.Xml.Edited
import Cosim.Proofs.Model.Editing
import Cosim.Proofs.Model.Rewriting
import Cosim.Proofs.Watch.Joining
import Cosim.Proofs.Path.Relative
import Cosim.Proofs.Osp.Library
import Cosim.Proofs.Dictionary.Layout
import Cosim.Proofs.Dictionary.Derivation
import Cosim.Proofs.Dictionary.Cutting
import Cosim.Proofs.Dictionary.Stopping
import Cosim.Proofs.Xml.Changing
import Cosim.Proofs.Model.Overriding
import Cosim.Proofs.Model.ReadingBack
import Cosim.Proofs.Model.Changes
import Cosim.Proofs.Fmu.Describing
import Cosim.Proofs.Fmu.Libraries
import Cosim.Proofs.Model.Renaming
import Cosim.Proofs.Fmu.Cloning
import Cosim.Proofs.Fmu.Abandoned
import Cosim.Proofs.Text
import Cosim.Proofs.Csv
import Cosim.Proofs.Watch.Discovery
import Cosim.Proofs.Watch.Summary
import Cosim.Proofs.Watch.Dumping
import Cosim.Proofs.Graph.Reading
import Cosim.Proofs.Graph.Drawing
import Cosim.Proofs.Watch.Selection
import Cosim.Proofs.Xml.Events
import Cosim.Proofs.Span
import Cosim.Proofs.Watch.Bounds
import Cosim.Proofs.Command.Watching
