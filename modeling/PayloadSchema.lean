import PayloadSchema.Command.Arguments
import PayloadSchema.Command.Generation
import PayloadSchema.Compile.Basic
import PayloadSchema.Compile.Context
import PayloadSchema.Descriptor.Basic
import PayloadSchema.Descriptor.Environment
import PayloadSchema.Dictionary
import PayloadSchema.Document
import PayloadSchema.Engine.Basic
import PayloadSchema.Engine.Settings
import PayloadSchema.Failure
import PayloadSchema.Files.Path
import PayloadSchema.Files.Saving
import PayloadSchema.Files.Search
import PayloadSchema.Files.Tree
import PayloadSchema.Handlers.Argument
import PayloadSchema.Handlers.Entry
import PayloadSchema.Handlers.Manifest
import PayloadSchema.Json.Draft
import PayloadSchema.Json.Value
import PayloadSchema.Json.Writer
import PayloadSchema.Live.Basic
import PayloadSchema.Main
import PayloadSchema.Metadata.Basic
import PayloadSchema.Metadata.Casing
import PayloadSchema.Metadata.Reader
import PayloadSchema.Metadata.Setting
import PayloadSchema.Modules.Imports
import PayloadSchema.Modules.Locator
import PayloadSchema.Modules.Path
import PayloadSchema.Number.Binary64
import PayloadSchema.Number.Decimal
import PayloadSchema.Number.Power
import PayloadSchema.Resolve.Asking
import PayloadSchema.Resolve.Build
import PayloadSchema.Resolve.Display
import PayloadSchema.Resolve.Lookup
import PayloadSchema.Resolve.Resolver
import PayloadSchema.Resolve.Scope
import PayloadSchema.Resolve.Walk
import PayloadSchema.Resolve.WellKnown
import PayloadSchema.Schema.Basic
import PayloadSchema.Schema.Decode
import PayloadSchema.Schema.Encode
import PayloadSchema.Source.Grammar.Attribute
import PayloadSchema.Source.Grammar.Basic
import PayloadSchema.Source.Grammar.Expression
import PayloadSchema.Source.Grammar.Item
import PayloadSchema.Source.Grammar.Pattern
import PayloadSchema.Source.Grammar.Statement
import PayloadSchema.Source.Grammar.Type
import PayloadSchema.Source.Lexer
import PayloadSchema.Source.Literal
import PayloadSchema.Source.Parser
import PayloadSchema.Source.Reading
import PayloadSchema.Source.Token
import PayloadSchema.Source.Tree
import PayloadSchema.Stored.File
import PayloadSchema.Stored.Format
import PayloadSchema.Stored.Store
import PayloadSchema.Text.Blank
import PayloadSchema.Text.CaseTable
import PayloadSchema.Text.Cut
import PayloadSchema.Text.Identifier
import PayloadSchema.Text.IdentifierTable
import PayloadSchema.Text.Letter
import PayloadSchema.Text.Match
import PayloadSchema.Text.Segments
import PayloadSchema.Yaml.Cursor
import PayloadSchema.Yaml.Document
import PayloadSchema.Yaml.Lexeme
import PayloadSchema.Yaml.Lexer
import PayloadSchema.Yaml.Node
import PayloadSchema.Yaml.Scalar
import PayloadSchema.Yaml.Token
import PayloadSchema.Yaml.Writer
import PayloadSchema.Proofs.Command.Generation
import PayloadSchema.Proofs.Compile.Calls
import PayloadSchema.Proofs.Compile.Discipline
import PayloadSchema.Proofs.Compile.Everywhere
import PayloadSchema.Proofs.Compile.Graph
import PayloadSchema.Proofs.Compile.Growth
import PayloadSchema.Proofs.Compile.Inlining
import PayloadSchema.Proofs.Compile.Keys
import PayloadSchema.Proofs.Compile.KeyWalk
import PayloadSchema.Proofs.Compile.Limits
import PayloadSchema.Proofs.Compile.Linked
import PayloadSchema.Proofs.Compile.Machine
import PayloadSchema.Proofs.Compile.Members
import PayloadSchema.Proofs.Compile.Names
import PayloadSchema.Proofs.Compile.Parts
import PayloadSchema.Proofs.Compile.Placeholders
import PayloadSchema.Proofs.Compile.Pointers
import PayloadSchema.Proofs.Compile.Repetition
import PayloadSchema.Proofs.Compile.Required
import PayloadSchema.Proofs.Compile.Sharing
import PayloadSchema.Proofs.Compile.Storage
import PayloadSchema.Proofs.Descriptor.Relation
import PayloadSchema.Proofs.Descriptor.Term
import PayloadSchema.Proofs.Dictionary
import PayloadSchema.Proofs.Document
import PayloadSchema.Proofs.Engine.Clearing
import PayloadSchema.Proofs.Engine.Requests
import PayloadSchema.Proofs.Engine.Stages
import PayloadSchema.Proofs.Files.Joining
import PayloadSchema.Proofs.Files.Spelling
import PayloadSchema.Proofs.Files.Writing
import PayloadSchema.Proofs.Json.Numbers
import PayloadSchema.Proofs.Json.Records
import PayloadSchema.Proofs.Json.Text
import PayloadSchema.Proofs.Json.Values
import PayloadSchema.Proofs.Live.Agreement
import PayloadSchema.Proofs.Live.Names
import PayloadSchema.Proofs.Live.Recognition
import PayloadSchema.Proofs.Metadata.Storage
import PayloadSchema.Proofs.Modules.Imports
import PayloadSchema.Proofs.Modules.Inverse
import PayloadSchema.Proofs.Modules.Relative
import PayloadSchema.Proofs.Resolve.Alike
import PayloadSchema.Proofs.Resolve.Chains
import PayloadSchema.Proofs.Resolve.Deferred
import PayloadSchema.Proofs.Resolve.Extraction
import PayloadSchema.Proofs.Resolve.Identity
import PayloadSchema.Proofs.Resolve.Memory
import PayloadSchema.Proofs.Resolve.Packages
import PayloadSchema.Proofs.Resolve.Precedence
import PayloadSchema.Proofs.Resolve.Searches
import PayloadSchema.Proofs.Resolve.Substitution
import PayloadSchema.Proofs.Resolve.Surface
import PayloadSchema.Proofs.Resolve.Twins
import PayloadSchema.Proofs.Schema.Everywhere
import PayloadSchema.Proofs.Schema.Storage
import PayloadSchema.Proofs.Stored.Rereading
import PayloadSchema.Proofs.Text.Segments
import PayloadSchema.Proofs.Resolve.Meaning
import PayloadSchema.Proofs.Resolve.Renaming
import PayloadSchema.Proofs.Resolve.RenamedImport
import PayloadSchema.Proofs.Resolve.ImportRenaming
import PayloadSchema.Proofs.Files.Layout
import PayloadSchema.Proofs.Resolve.RenamedWorkspace
import PayloadSchema.Proofs.Files.Trees
import PayloadSchema.Proofs.Files.Searching
import PayloadSchema.Proofs.Stored.Loading
import PayloadSchema.Proofs.Text.Ascii
import PayloadSchema.Proofs.Metadata.Casing
import PayloadSchema.Proofs.Metadata.Separators
import PayloadSchema.Proofs.Metadata.Variants
import PayloadSchema.Proofs.Source.Items
import PayloadSchema.Proofs.Metadata.Outcomes
import PayloadSchema.Proofs.Metadata.Namespaces
import PayloadSchema.Proofs.Metadata.Grouping
import PayloadSchema.Proofs.Metadata.Extras
import PayloadSchema.Proofs.Metadata.Words
import PayloadSchema.Proofs.Handlers.Argument
