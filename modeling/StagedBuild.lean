import StagedBuild.Action
import StagedBuild.Action.Disk
import StagedBuild.Archive.Copy
import StagedBuild.Archive.Corruption
import StagedBuild.Archive.Delivery
import StagedBuild.Archive.Directory
import StagedBuild.Archive.Extraction
import StagedBuild.Archive.Inflate
import StagedBuild.Archive.Member
import StagedBuild.Artifact.Coordinate
import StagedBuild.Artifact.Pom
import StagedBuild.Artifact.PublishedTool
import StagedBuild.Artifact.Resolver
import StagedBuild.Build.Stages
import StagedBuild.Build.Whole
import StagedBuild.CommandLine.Command
import StagedBuild.CommandLine.Grammar
import StagedBuild.CommandLine.LogLevel
import StagedBuild.CommandLine.Program
import StagedBuild.CommandLine.Report
import StagedBuild.Compiler.Discovery
import StagedBuild.Compiler.SearchPath
import StagedBuild.Compiler.Target
import StagedBuild.Digest
import StagedBuild.Executable
import StagedBuild.Fault
import StagedBuild.Fault.Archive
import StagedBuild.Fault.Build
import StagedBuild.Fault.Manifest
import StagedBuild.Fault.System
import StagedBuild.Fault.Transfer
import StagedBuild.Fault.Value
import StagedBuild.FileTree.Basic
import StagedBuild.FileTree.Changes
import StagedBuild.FileTree.Lookup
import StagedBuild.Intermediate.Linked
import StagedBuild.Intermediate.Stages
import StagedBuild.Json
import StagedBuild.Json.Printing
import StagedBuild.Json.Reading
import StagedBuild.Main
import StagedBuild.NativeLibrary.Assembly
import StagedBuild.NativeLibrary.Manifest
import StagedBuild.NativeLibrary.Source
import StagedBuild.Path
import StagedBuild.Plan
import StagedBuild.Pool
import StagedBuild.Proofs.Action.Alike
import StagedBuild.Proofs.Action.Below
import StagedBuild.Proofs.Action.Directories
import StagedBuild.Proofs.Action.Disk
import StagedBuild.Proofs.Action.Edits
import StagedBuild.Proofs.Action.Faults
import StagedBuild.Proofs.Action.Interrupts
import StagedBuild.Proofs.Action.Local
import StagedBuild.Proofs.Action.Perform
import StagedBuild.Proofs.Action.RemoveTree
import StagedBuild.Proofs.Action.Renaming
import StagedBuild.Proofs.Action.Spares
import StagedBuild.Proofs.Action.Steps
import StagedBuild.Proofs.Archive.Broken
import StagedBuild.Proofs.Archive.Completed
import StagedBuild.Proofs.Archive.Damage
import StagedBuild.Proofs.Archive.Fresh
import StagedBuild.Proofs.Archive.Keeps
import StagedBuild.Proofs.Archive.Local
import StagedBuild.Proofs.Artifact.Again
import StagedBuild.Proofs.Artifact.Caching
import StagedBuild.Proofs.Artifact.Confined
import StagedBuild.Proofs.Artifact.Declared
import StagedBuild.Proofs.Artifact.Interrupts
import StagedBuild.Proofs.Artifact.Lasting
import StagedBuild.Proofs.Artifact.Manifest
import StagedBuild.Proofs.Artifact.Placeholders
import StagedBuild.Proofs.Artifact.Search
import StagedBuild.Proofs.Artifact.Ways
import StagedBuild.Proofs.Build.Again
import StagedBuild.Proofs.Build.Agreement
import StagedBuild.Proofs.Build.Calls
import StagedBuild.Proofs.Build.Course
import StagedBuild.Proofs.Build.FailStop
import StagedBuild.Proofs.Build.FirstWord
import StagedBuild.Proofs.Build.Frame
import StagedBuild.Proofs.Build.Interrupts
import StagedBuild.Proofs.Build.LinkedObjects
import StagedBuild.Proofs.Build.ObjectPlaces
import StagedBuild.Proofs.Build.OrdinaryFaults
import StagedBuild.Proofs.Build.Origins
import StagedBuild.Proofs.Build.OutputTool
import StagedBuild.Proofs.Build.Places
import StagedBuild.Proofs.Build.Rebuild
import StagedBuild.Proofs.Build.Runs
import StagedBuild.Proofs.Build.Schedules
import StagedBuild.Proofs.Build.Sequence
import StagedBuild.Proofs.Build.Session
import StagedBuild.Proofs.Build.Settling
import StagedBuild.Proofs.Build.Writing
import StagedBuild.Proofs.CommandLine.Classpath
import StagedBuild.Proofs.CommandLine.Endings
import StagedBuild.Proofs.CommandLine.Exits
import StagedBuild.Proofs.Compiler.Environment
import StagedBuild.Proofs.Compiler.Probe
import StagedBuild.Proofs.Compiler.Search
import StagedBuild.Proofs.FileTree.Edits
import StagedBuild.Proofs.FileTree.Follow
import StagedBuild.Proofs.FileTree.Nodes
import StagedBuild.Proofs.Json.Documents
import StagedBuild.Proofs.Json.RoundTrip
import StagedBuild.Proofs.NativeLibrary.Alike
import StagedBuild.Proofs.NativeLibrary.Anew
import StagedBuild.Proofs.NativeLibrary.ArchiveFile
import StagedBuild.Proofs.NativeLibrary.Compiling
import StagedBuild.Proofs.NativeLibrary.Completion
import StagedBuild.Proofs.NativeLibrary.Filling
import StagedBuild.Proofs.NativeLibrary.Freshness
import StagedBuild.Proofs.NativeLibrary.Incremental
import StagedBuild.Proofs.NativeLibrary.Intact
import StagedBuild.Proofs.NativeLibrary.ManifestFile
import StagedBuild.Proofs.NativeLibrary.Objects
import StagedBuild.Proofs.NativeLibrary.Phases
import StagedBuild.Proofs.NativeLibrary.Preparation
import StagedBuild.Proofs.NativeLibrary.ReadBack
import StagedBuild.Proofs.NativeLibrary.Renewal
import StagedBuild.Proofs.NativeLibrary.Renewed
import StagedBuild.Proofs.NativeLibrary.Runs
import StagedBuild.Proofs.NativeLibrary.Scanned
import StagedBuild.Proofs.NativeLibrary.Selection
import StagedBuild.Proofs.NativeLibrary.Traced
import StagedBuild.Proofs.NativeLibrary.Trusted
import StagedBuild.Proofs.NativeLibrary.Understood
import StagedBuild.Proofs.NativeLibrary.Unpacked
import StagedBuild.Proofs.NativeLibrary.Unusable
import StagedBuild.Proofs.Path.Extension
import StagedBuild.Proofs.Path.Order
import StagedBuild.Proofs.Path.Text
import StagedBuild.Proofs.Pool.Barrier
import StagedBuild.Proofs.Pool.Calls
import StagedBuild.Proofs.Pool.Outputs
import StagedBuild.Proofs.Properties.Indentation
import StagedBuild.Proofs.Properties.Lines
import StagedBuild.Proofs.Transfer.Asking
import StagedBuild.Proofs.Transfer.Body
import StagedBuild.Proofs.Transfer.Delivery
import StagedBuild.Proofs.Transfer.Interrupts
import StagedBuild.Proofs.Transfer.Leftovers
import StagedBuild.Proofs.Transfer.Outcomes
import StagedBuild.Proofs.Transfer.Placing
import StagedBuild.Proofs.Transfer.Replacement
import StagedBuild.Proofs.Transfer.Replies
import StagedBuild.Proofs.Transfer.Temporary
import StagedBuild.Proofs.Units.Again
import StagedBuild.Proofs.Units.Calls
import StagedBuild.Proofs.Units.Exact
import StagedBuild.Proofs.Units.Found
import StagedBuild.Proofs.Units.Frame
import StagedBuild.Proofs.Units.History
import StagedBuild.Proofs.Units.Listing
import StagedBuild.Proofs.Units.ReadBack
import StagedBuild.Proofs.Units.Readable
import StagedBuild.Proofs.Units.Recording
import StagedBuild.Proofs.Units.Removal
import StagedBuild.Proofs.Units.Stale
import StagedBuild.Properties
import StagedBuild.Rehearsal.Intermediate
import StagedBuild.Rehearsal.Processes
import StagedBuild.Rehearsal.Reader
import StagedBuild.Rehearsal.Servers
import StagedBuild.Rehearsal.Shell.Programs
import StagedBuild.Rehearsal.Shell.Run
import StagedBuild.Rehearsal.Shell.Script
import StagedBuild.Rehearsal.System
import StagedBuild.Rehearsal.Tools
import StagedBuild.Setting
import StagedBuild.Surroundings
import StagedBuild.Text.Blank
import StagedBuild.Text.Encoded
import StagedBuild.Text.Encoding
import StagedBuild.Text.Lines
import StagedBuild.Text.Numeral
import StagedBuild.Text.Pieces
import StagedBuild.Text.Quoted
import StagedBuild.Text.UpperCase
import StagedBuild.Tool.Result
import StagedBuild.Tool.Run
import StagedBuild.Transfer.Address
import StagedBuild.Transfer.Download
import StagedBuild.Transfer.Host
import StagedBuild.Units.Compilation
import StagedBuild.Units.Generation
import StagedBuild.Units.Record
import StagedBuild.World
import StagedBuild.Xml.ContentModel
import StagedBuild.Xml.DocumentType
import StagedBuild.Xml.Element
import StagedBuild.Xml.Event
import StagedBuild.Xml.Reading
import StagedBuild.Xml.Value
