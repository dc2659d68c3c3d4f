import AmdBundle.Activity
import AmdBundle.Base64
import AmdBundle.Build
import AmdBundle.Bundle
import AmdBundle.CommandLine.Basic
import AmdBundle.CommandLine.Parse
import AmdBundle.CommandLine.Usage
import AmdBundle.Compilation.Basic
import AmdBundle.Compilation.Clock
import AmdBundle.Compilation.Lines
import AmdBundle.Compilation.Record
import AmdBundle.Compiler.Driver
import AmdBundle.Compiler.Emission
import AmdBundle.Compiler.Input
import AmdBundle.Compiler.Invocation
import AmdBundle.Compiler.ProjectFile
import AmdBundle.Decode.Basic
import AmdBundle.Decode.Choice
import AmdBundle.Decode.Mismatch
import AmdBundle.Decode.Record
import AmdBundle.Directive
import AmdBundle.Display.Color
import AmdBundle.Display.Duration
import AmdBundle.Display.LogFilter
import AmdBundle.Display.Size
import AmdBundle.Document
import AmdBundle.Error.Bundle
import AmdBundle.Error.Command
import AmdBundle.Error.System
import AmdBundle.FileTree.Access
import AmdBundle.FileTree.Basic
import AmdBundle.FileTree.Walk
import AmdBundle.Header
import AmdBundle.Host
import AmdBundle.Json.Basic
import AmdBundle.Json.Fault
import AmdBundle.Json.Frame
import AmdBundle.Json.Lexeme
import AmdBundle.Json.Mismatch
import AmdBundle.Json.Printer
import AmdBundle.Json.Reader
import AmdBundle.Json.Skip
import AmdBundle.Loader.Runtime
import AmdBundle.Loader.Wrap
import AmdBundle.Main
import AmdBundle.Number.Binary64
import AmdBundle.Number.Decimal
import AmdBundle.Number.Places
import AmdBundle.Number.Rounding
import AmdBundle.Number.Shortest
import AmdBundle.Options
import AmdBundle.Path.Basic
import AmdBundle.Path.Clean
import AmdBundle.Plan
import AmdBundle.Progress
import AmdBundle.Proofs.Header.Shape
import AmdBundle.Proofs.Outcome
import AmdBundle.Proofs.Text.Lines
import AmdBundle.RelaxedJson.Fault
import AmdBundle.RelaxedJson.Reader
import AmdBundle.RelaxedJson.Token
import AmdBundle.Resource.Folder
import AmdBundle.Resource.Fragment
import AmdBundle.Resource.Import
import AmdBundle.Resource.Stylesheet
import AmdBundle.ResourceKey
import AmdBundle.Settings.Basic
import AmdBundle.Settings.Check
import AmdBundle.Settings.Environment
import AmdBundle.Settings.Load
import AmdBundle.Settings.Names
import AmdBundle.Settings.Value
import AmdBundle.Shell.Command
import AmdBundle.Shell.Expansion
import AmdBundle.Shell.Format
import AmdBundle.Shell.Program
import AmdBundle.Shell.Reader
import AmdBundle.Shell.Run
import AmdBundle.Shell.Surroundings
import AmdBundle.Shell.Utility
import AmdBundle.Target
import AmdBundle.Text.Basic
import AmdBundle.Text.Classes
import AmdBundle.Text.Lines
import AmdBundle.Text.Quoted
import AmdBundle.Text.Utf8
import AmdBundle.Text.Visible
import AmdBundle.Watch.Debouncer
import AmdBundle.Watch.Provision
import AmdBundle.Writer
import AmdBundle.Proofs.Header.Reading
import AmdBundle.Proofs.Header.Scanning
import AmdBundle.Proofs.Header.Nesting
import AmdBundle.Proofs.Document.Splice
import AmdBundle.Proofs.Document.Reading
import AmdBundle.Proofs.Document.Tables
import AmdBundle.Proofs.Document.Knots
import AmdBundle.Proofs.Header.Bare
import AmdBundle.Proofs.Header.Outline
import AmdBundle.Proofs.Document.Relink
import AmdBundle.Proofs.Document.Remap
import AmdBundle.Proofs.Path.Clean
import AmdBundle.Proofs.FileTree.Walk
import AmdBundle.Proofs.FileTree.Write
import AmdBundle.Proofs.Stylesheet.Import
import AmdBundle.Proofs.Stylesheet.Order
import AmdBundle.Proofs.Stylesheet.Load
import AmdBundle.Proofs.Stylesheet.Inline
import AmdBundle.Proofs.Bundle.Failures
import AmdBundle.Proofs.Resource.Linking
import AmdBundle.Proofs.Json.Layout
import AmdBundle.Proofs.Json.RoundTrip
import AmdBundle.Proofs.Bundle.JsonResource
import AmdBundle.Proofs.Compiler.Driver
import AmdBundle.Proofs.Watch.Debouncer
import AmdBundle.Proofs.Compilation.Run
import AmdBundle.Proofs.Compilation.Accounts
import AmdBundle.Proofs.Compilation.Settled
import AmdBundle.Proofs.Bundle.Marked
import AmdBundle.Proofs.Bundle.Inert
import AmdBundle.Proofs.Bundle.Respelling
import AmdBundle.Proofs.Base64
import AmdBundle.Proofs.Resource.Values
import AmdBundle.Proofs.Bundle.FileResource
import AmdBundle.Proofs.Build.Writing
import AmdBundle.Proofs.Build.Scene
import AmdBundle.Proofs.Build.Feedback
import AmdBundle.Proofs.Build.LastEmission
import AmdBundle.Proofs.Settings.Table
import AmdBundle.Proofs.Settings.Record
import AmdBundle.Proofs.Settings.Fields
import AmdBundle.Proofs.Settings.Precedence
import AmdBundle.Proofs.Resource.Folder
import AmdBundle.Proofs.Bundle.Separators
import AmdBundle.Proofs.Loader.Templates
import AmdBundle.Proofs.Path.Stack
import AmdBundle.Proofs.Resource.Anchoring
import AmdBundle.Proofs.Build.Calls
import AmdBundle.Proofs.Stylesheet.Statements
import AmdBundle.Proofs.Json.Printing
import AmdBundle.Proofs.Json.Skip
import AmdBundle.Proofs.Json.Skipped
import AmdBundle.Proofs.Decode.ReadBack
import AmdBundle.Proofs.Decode.Steps
import AmdBundle.Proofs.Decode.Skip
import AmdBundle.Proofs.Decode.Yield
import AmdBundle.Proofs.Settings.RoundTrip
import AmdBundle.Proofs.Settings.Names
import AmdBundle.Proofs.FileTree.Spelled
import AmdBundle.Proofs.FileTree.Provision
import AmdBundle.Proofs.Plan.Output
import AmdBundle.Proofs.Compiler.Invocation
import AmdBundle.Proofs.Build.Frame
import AmdBundle.Proofs.FileTree.Canonical
import AmdBundle.Proofs.Plan.Agreement
import AmdBundle.Proofs.Resource.Sharing
import AmdBundle.Proofs.Settings.Words
import AmdBundle.Proofs.Display.Size
import AmdBundle.Proofs.CommandLine.Switches
