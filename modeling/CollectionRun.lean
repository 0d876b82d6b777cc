import CollectionRun.Main
import CollectionRun.Json.Writer
import CollectionRun.Pipeline.Scripted
import CollectionRun.Session
import CollectionRun.Proofs.Forwarding
import CollectionRun.Proofs.Template.Layout
import CollectionRun.Proofs.Template.Typing
import CollectionRun.Proofs.Config.Layering
import CollectionRun.Proofs.Flags
import CollectionRun.Proofs.RunOptions
import CollectionRun.Proofs.CommandLine.Collection
import CollectionRun.Proofs.Execution.Reported
import CollectionRun.Proofs.Pipeline.Advancing
import CollectionRun.Proofs.Pipeline.Calls
import CollectionRun.Proofs.Pipeline.Requirements
import CollectionRun.Proofs.Execution.Outcomes
import CollectionRun.Proofs.Execution.Tolerance
import CollectionRun.Proofs.Execution.Account
import CollectionRun.Proofs.Pipeline.Joining
import CollectionRun.Proofs.Template.Comments
import CollectionRun.Proofs.CommandLine.Loading
import CollectionRun.Proofs.CommandLine.ExitCode
import CollectionRun.Proofs.Session
import CollectionRun.Proofs.Template.Writing
import CollectionRun.Proofs.Template.Concatenation
import CollectionRun.Proofs.Json.StringLiteral
import CollectionRun.Proofs.Template.Embedding
import CollectionRun.Proofs.Template.Fitting
import CollectionRun.Proofs.Template.Locating
import CollectionRun.Proofs.Template.Dependence
import CollectionRun.Proofs.Text.Utf8
import CollectionRun.Proofs.Text.DecodedLines
import CollectionRun.Proofs.Printing
import CollectionRun.Proofs.Interleaving
import CollectionRun.Proofs.Interruption
import CollectionRun.Proofs.Config.Restating
import CollectionRun.Proofs.ReportPaths
import CollectionRun.Proofs.Template.Piping
import CollectionRun.Proofs.Pipeline.StageRecords
import CollectionRun.Proofs.Template.Parts
import CollectionRun.Proofs.Text.Pattern
import CollectionRun.Proofs.Template.ActionPattern
import CollectionRun.Proofs.Template.Quoting
