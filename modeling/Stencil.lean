import Stencil.Text
import Stencil.Text.Blank
import Stencil.Text.Utf8
import Stencil.Text.Hidden
import Stencil.Text.Quoted
import Stencil.Markers
import Stencil.Delimiters
import Stencil.Delimiters.Ambiguity
import Stencil.Segment
import Stencil.Scanner
import Stencil.Literal
import Stencil.Instruction
import Stencil.Execution
import Stencil.Output
import Stencil.Decimal
import Stencil.Json
import Stencil.Json.Printer
import Stencil.Json.Mismatch
import Stencil.Json.Fault
import Stencil.Json.Reader.Basic
import Stencil.Json.Reader.Quoted
import Stencil.Json.Reader.Number
import Stencil.Json.Reader
import Stencil.Json.Skip
import Stencil.Delimiters.Document
import Stencil.Instruction.Document
import Stencil.Name
import Stencil.Template
import Stencil.Template.Artifact
import Stencil.Template.RustSource
import Stencil.Context
import Stencil.Delimiters.Overrides
import Stencil.Files
import Stencil.Files.FileSystem
import Stencil.Command.Log
import Stencil.Command.Failure
import Stencil.Command.Arguments
import Stencil.Command.Stages
import Stencil.Command
import Stencil.Main
import Stencil.Proofs.Results
import Stencil.Proofs.Name
import Stencil.Proofs.Text.FirstOccurrence
import Stencil.Proofs.Text.Quoted
import Stencil.Proofs.Scanner.Canonical
import Stencil.Proofs.Scanner.Cuts
import Stencil.Proofs.Scanner.Reconstruction
import Stencil.Proofs.Scanner.Runs
import Stencil.Proofs.Scanner.Appending
import Stencil.Proofs.Scanner.Markers
import Stencil.Proofs.Scanner.Local
import Stencil.Proofs.Text.Utf8
import Stencil.Proofs.Literal.Grammar
import Stencil.Proofs.Literal.Diagnosis
import Stencil.Proofs.Execution.Steps
import Stencil.Proofs.Execution.Projection
import Stencil.Proofs.Execution.Trace
import Stencil.Proofs.Execution.SinkFailure
import Stencil.Proofs.Execution.Compilation
import Stencil.Proofs.Output
import Stencil.Proofs.Context.Rendering
import Stencil.Proofs.Context.Markup
import Stencil.Proofs.Context.Paths
import Stencil.Proofs.Json.Quoted
import Stencil.Proofs.Text.CharLiteral
import Stencil.Proofs.Json.Reading
import Stencil.Proofs.Json.Spelling
import Stencil.Proofs.Json.RoundTrip
import Stencil.Proofs.Delimiters.Document
import Stencil.Proofs.Delimiters.Layers
import Stencil.Proofs.Delimiters.Ambiguity
import Stencil.Proofs.Template.Artifact
import Stencil.Proofs.Template.Recovery
import Stencil.Proofs.Template.RustSource
import Stencil.Proofs.Template.Lines
import Stencil.Proofs.Files.Places
import Stencil.Proofs.Files.Ancestry
import Stencil.Proofs.Files.Paths
import Stencil.Proofs.Files.Preservation
import Stencil.Proofs.Command.Effects
import Stencil.Proofs.Command.Stages
import Stencil.Proofs.Command.Artifacts
import Stencil.Proofs.Command.Confinement
import Stencil.Proofs.Command.Delivery
import Stencil.Proofs.Command.Configuration
import Stencil.Proofs.Command.Naming
