import ClassOrder.Analysis.Basic
import ClassOrder.ClassFile.References
import ClassOrder.ClassFile.Request
import ClassOrder.Console.Basic
import ClassOrder.FileSystem.Tree
import ClassOrder.Graph.Groups
import ClassOrder.Graph.Links
import ClassOrder.Main
import ClassOrder.Program.Crash
import ClassOrder.Program.Usage
import ClassOrder.Report
import ClassOrder.Settings.Basic
import ClassOrder.Settings.Validation
import ClassOrder.Proofs.FinishOrder
import ClassOrder.Proofs.Components
import ClassOrder.Proofs.Groups
import ClassOrder.Proofs.Report
import ClassOrder.Proofs.Analysis
import ClassOrder.Proofs.Grammar
import ClassOrder.Proofs.Reads
import ClassOrder.Proofs.Acceptance
import ClassOrder.Proofs.CodeUnits
import ClassOrder.Proofs.Utf8
import ClassOrder.Proofs.Tokens
import ClassOrder.Proofs.Recursion
import ClassOrder.Proofs.InPlace
import ClassOrder.Proofs.Layout
import ClassOrder.Proofs.WorkerPool
import ClassOrder.Proofs.Decoding
import ClassOrder.Proofs.Settings
import ClassOrder.Proofs.Endings
import ClassOrder.Proofs.Listing
import ClassOrder.Proofs.FileTree
import ClassOrder.Proofs.Candidates
import ClassOrder.Proofs.Additions
import ClassOrder.Proofs.Program
import ClassOrder.Proofs.DescriptorScan
import ClassOrder.Proofs.Signatures
import ClassOrder.Proofs.Descriptors
import ClassOrder.Proofs.Truncation
import ClassOrder.Proofs.Connections
import ClassOrder.Proofs.ArrayEntries
import ClassOrder.Proofs.Locations
import ClassOrder.Proofs.Ranks
import ClassOrder.Proofs.Renumbering
import ClassOrder.Proofs.Shadowing
import ClassOrder.Proofs.Strictness
import ClassOrder.Proofs.Requests
import ClassOrder.Proofs.Insertion
import ClassOrder.Proofs.Validation
import ClassOrder.Proofs.CurrentDirectory
import ClassOrder.Proofs.Reading
import ClassOrder.Proofs.Console
import ClassOrder.Proofs.LeavingOrder
import ClassOrder.Proofs.Floods
