import GuardedConfig.Artifact
import GuardedConfig.CommandLine
import GuardedConfig.Directory
import GuardedConfig.Field.Argument
import GuardedConfig.Field.Body
import GuardedConfig.Json.Read
import GuardedConfig.Log
import GuardedConfig.Main
import GuardedConfig.Pattern.Read
import GuardedConfig.Plan
import GuardedConfig.Plan.Steps
import GuardedConfig.Registry
import GuardedConfig.Schema.Compile
import GuardedConfig.Settings
import GuardedConfig.Sql.Change
import GuardedConfig.Sql.Cursor
import GuardedConfig.Sql.Definition
import GuardedConfig.Sql.Eval
import GuardedConfig.Sql.Image
import GuardedConfig.Sql.Lexeme
import GuardedConfig.Sql.Query
import GuardedConfig.Sql.ReadExpr
import GuardedConfig.Sql.ReadStatement
import GuardedConfig.Sql.Reference
import GuardedConfig.Sql.Session
import GuardedConfig.Statement.Reader
import GuardedConfig.Store
import GuardedConfig.Text.Case
import GuardedConfig.Text.Script
import GuardedConfig.Token.Stream
import GuardedConfig.Trigger.Read
import GuardedConfig.Trigger.Run
import GuardedConfig.Proofs.Interpreter
import GuardedConfig.Proofs.Request
import GuardedConfig.Proofs.Savepoint
import GuardedConfig.Proofs.Atomicity
import GuardedConfig.Proofs.Reachable
import GuardedConfig.Proofs.Content
import GuardedConfig.Proofs.Layout
import GuardedConfig.Proofs.Cascade
import GuardedConfig.Proofs.Catalog
import GuardedConfig.Proofs.Commands
import GuardedConfig.Proofs.Installation
import GuardedConfig.Proofs.Invariants
import GuardedConfig.Proofs.Loading
import GuardedConfig.Proofs.Owners
import GuardedConfig.Proofs.Query
import GuardedConfig.Proofs.Fields
import GuardedConfig.Proofs.Frame
import GuardedConfig.Proofs.Effects
import GuardedConfig.Proofs.Results
import GuardedConfig.Proofs.Serving
import GuardedConfig.Proofs.RoundTrip
import GuardedConfig.Proofs.ConfigRows
import GuardedConfig.Proofs.Batches
import GuardedConfig.Proofs.Clashes
import GuardedConfig.Proofs.Commit
import GuardedConfig.Proofs.Grammar
import GuardedConfig.Proofs.Instances
import GuardedConfig.Proofs.Steady
import GuardedConfig.Proofs.InUse
import GuardedConfig.Proofs.Concatenation
import GuardedConfig.Proofs.Persistence
import GuardedConfig.Proofs.TokenStream
import GuardedConfig.Proofs.Trigger.Printing
import GuardedConfig.Proofs.History
import GuardedConfig.Proofs.Agreement
import GuardedConfig.Proofs.FailedLoad
import GuardedConfig.Proofs.LostTables
import GuardedConfig.Proofs.Rebinding
import GuardedConfig.Proofs.StructOrder
import GuardedConfig.Proofs.Nesting
import GuardedConfig.Proofs.Reinstallation
import GuardedConfig.Proofs.SharedInstances
import GuardedConfig.Proofs.Cache
import GuardedConfig.Proofs.KeptDatabase
import GuardedConfig.Proofs.Binding
import GuardedConfig.Proofs.Bodies
import GuardedConfig.Proofs.TriggerStatements
import GuardedConfig.Proofs.ListItems
import GuardedConfig.Proofs.Attachment
import GuardedConfig.Proofs.HostCalls
import GuardedConfig.Proofs.QuotedText
import GuardedConfig.Proofs.Hygiene
import GuardedConfig.Proofs.Comparisons
import GuardedConfig.Proofs.Scalars
import GuardedConfig.Proofs.TypeReferences
import GuardedConfig.Proofs.SourceFiles
import GuardedConfig.Proofs.DeclaredTables
import GuardedConfig.Proofs.BoundSteps
