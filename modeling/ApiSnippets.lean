import ApiSnippets.Body.Build
import ApiSnippets.Body.Leaf
import ApiSnippets.Body.Node
import ApiSnippets.Body.Root
import ApiSnippets.Calendar
import ApiSnippets.Code.Dialect
import ApiSnippets.Code.Expression
import ApiSnippets.Code.Imports
import ApiSnippets.Code.Language
import ApiSnippets.Code.Locals
import ApiSnippets.Code.Package
import ApiSnippets.Code.Scan
import ApiSnippets.Code.Statement
import ApiSnippets.Command.Arguments
import ApiSnippets.Command.Batch
import ApiSnippets.Command.Console
import ApiSnippets.Command.Ended
import ApiSnippets.Command.Generate
import ApiSnippets.Command.Invocation
import ApiSnippets.Command.Markup
import ApiSnippets.Command.Needs
import ApiSnippets.Command.Program
import ApiSnippets.Command.Settings
import ApiSnippets.Doc
import ApiSnippets.Entries
import ApiSnippets.Fault
import ApiSnippets.Files
import ApiSnippets.Json
import ApiSnippets.Json.Reader
import ApiSnippets.Json.Writer
import ApiSnippets.Main
import ApiSnippets.Naming
import ApiSnippets.Notice
import ApiSnippets.Number.Nearest
import ApiSnippets.Number.Power
import ApiSnippets.Number.Shortest
import ApiSnippets.Number.Text
import ApiSnippets.Registry
import ApiSnippets.Request.Annotations
import ApiSnippets.Request.Call
import ApiSnippets.Request.Http
import ApiSnippets.Request.Legacy
import ApiSnippets.Request.Method
import ApiSnippets.Request.Path
import ApiSnippets.Request.Query
import ApiSnippets.Request.Segment
import ApiSnippets.Request.Url
import ApiSnippets.Resolution.Classify
import ApiSnippets.Resolution.Details
import ApiSnippets.Resolution.Match
import ApiSnippets.Resolution.Request
import ApiSnippets.Resolution.Summary
import ApiSnippets.Scalar
import ApiSnippets.Schema.Address
import ApiSnippets.Schema.Cache
import ApiSnippets.Schema.Catalog
import ApiSnippets.Schema.Classify
import ApiSnippets.Schema.Descent
import ApiSnippets.Schema.Document
import ApiSnippets.Schema.Index
import ApiSnippets.Schema.Pointer
import ApiSnippets.Schema.Shape
import ApiSnippets.Schema.Source
import ApiSnippets.Schema.Tree
import ApiSnippets.Settings.Config
import ApiSnippets.Settings.Effective
import ApiSnippets.Settings.Setting
import ApiSnippets.Snippet
import ApiSnippets.Target.CSharp
import ApiSnippets.Target.CommandLine
import ApiSnippets.Target.Go
import ApiSnippets.Target.Java
import ApiSnippets.Target.Php
import ApiSnippets.Target.Python
import ApiSnippets.Target.TypeScript
import ApiSnippets.Text.Base64
import ApiSnippets.Text.Case
import ApiSnippets.Text.CaseTable
import ApiSnippets.Text.Charset
import ApiSnippets.Text.Class
import ApiSnippets.Text.ClassTable
import ApiSnippets.Text.Cut
import ApiSnippets.Text.LineBreak
import ApiSnippets.Text.Nesting
import ApiSnippets.Text.Percent
import ApiSnippets.Text.Quoted
import ApiSnippets.Text.Utf8
import ApiSnippets.Workspace
import ApiSnippets.Yaml.Content
import ApiSnippets.Yaml.Fault
import ApiSnippets.Yaml.Graph
import ApiSnippets.Yaml.Literal
import ApiSnippets.Yaml.Merge
import ApiSnippets.Yaml.Notation
import ApiSnippets.Yaml.Tag
import ApiSnippets.Yaml.Token
import ApiSnippets.Yaml.Value
import ApiSnippets.Proofs.Entries
import ApiSnippets.Proofs.Text.Cut
import ApiSnippets.Proofs.Outcome
import ApiSnippets.Proofs.Schema.Names
import ApiSnippets.Proofs.Schema.Inheritance
import ApiSnippets.Proofs.Schema.Lookups
import ApiSnippets.Proofs.Body.Mirrors
import ApiSnippets.Proofs.Body.Objects
import ApiSnippets.Proofs.Body.Sites
import ApiSnippets.Proofs.Body.Nodes
import ApiSnippets.Proofs.Body.Conformance
import ApiSnippets.Proofs.Request.Path
import ApiSnippets.Proofs.Request.Query
import ApiSnippets.Proofs.Resolution.OwnPath
import ApiSnippets.Proofs.Request.Call
import ApiSnippets.Proofs.Code.Locals
import ApiSnippets.Proofs.Code.Scope
import ApiSnippets.Proofs.Snippet
import ApiSnippets.Proofs.Resolution.Keys
import ApiSnippets.Proofs.Text.Brackets
import ApiSnippets.Proofs.Code.Layout
import ApiSnippets.Proofs.Naming
import ApiSnippets.Proofs.Number.Text
import ApiSnippets.Proofs.Code.Initializers
import ApiSnippets.Proofs.Code.Imports
import ApiSnippets.Proofs.Code.Lines
import ApiSnippets.Proofs.Target.Go
import ApiSnippets.Proofs.Target.Scopes
import ApiSnippets.Proofs.Number.Nearest
import ApiSnippets.Proofs.Body.Numbers
import ApiSnippets.Proofs.Code.Failures
import ApiSnippets.Proofs.Registry
import ApiSnippets.Proofs.Schema.Source
import ApiSnippets.Proofs.Text.Quoted
import ApiSnippets.Proofs.Text.Shell
import ApiSnippets.Proofs.Target.CommandLine
import ApiSnippets.Proofs.Code.Literals
import ApiSnippets.Proofs.Target.Literals
import ApiSnippets.Proofs.Schema.Flaws
import ApiSnippets.Proofs.Schema.Building
import ApiSnippets.Proofs.Files
import ApiSnippets.Proofs.Command.Console
import ApiSnippets.Proofs.Command.Batch
import ApiSnippets.Proofs.Body.OwnTypes
import ApiSnippets.Proofs.Body.FrameTypes
import ApiSnippets.Proofs.Target.TypeScript
import ApiSnippets.Proofs.Body.Alike
import ApiSnippets.Proofs.Code.Scan
import ApiSnippets.Proofs.Code.Alike
import ApiSnippets.Proofs.Target.Alike
import ApiSnippets.Proofs.Json
import ApiSnippets.Proofs.Settings.Config
import ApiSnippets.Proofs.Text.Case
import ApiSnippets.Proofs.Request.Token
import ApiSnippets.Proofs.Resolution.Calls
import ApiSnippets.Proofs.Resolution.Casts
import ApiSnippets.Proofs.Text.Fold
import ApiSnippets.Proofs.Request.Folded
import ApiSnippets.Proofs.Resolution.Letters
import ApiSnippets.Proofs.Resolution.Readings
import ApiSnippets.Proofs.Body.InlineObjects
import ApiSnippets.Proofs.Schema.Inline
import ApiSnippets.Proofs.Body.Namespaces
import ApiSnippets.Proofs.Text.Outside
import ApiSnippets.Proofs.Text.Tokens
import ApiSnippets.Proofs.Request.Options
import ApiSnippets.Proofs.Body.Enums
import ApiSnippets.Proofs.Recursion
import ApiSnippets.Proofs.Schema.Reading
import ApiSnippets.Proofs.Schema.Termination
import ApiSnippets.Proofs.Schema.Nearest
import ApiSnippets.Proofs.Schema.Folding
import ApiSnippets.Proofs.Body.Elements
import ApiSnippets.Proofs.Target.Integers
import ApiSnippets.Proofs.Request.Message
import ApiSnippets.Proofs.Json.Strings
import ApiSnippets.Proofs.Target.BodyOption
import ApiSnippets.Proofs.Recasing
import ApiSnippets.Proofs.Code.Package
import ApiSnippets.Proofs.Code.Casings
import ApiSnippets.Proofs.Code.Qualifiers
import ApiSnippets.Proofs.Code.Origins
import ApiSnippets.Proofs.Target.Mentions
import ApiSnippets.Proofs.Target.Packages
import ApiSnippets.Proofs.Request.Legacy
import ApiSnippets.Proofs.Text.Lowered
import ApiSnippets.Proofs.Json.Names
import ApiSnippets.Proofs.Settings.Setting
import ApiSnippets.Proofs.Settings.Effective
import ApiSnippets.Proofs.Command.Settings
import ApiSnippets.Proofs.Code.ImportOrder
import ApiSnippets.Proofs.Request.Segments
import ApiSnippets.Proofs.Schema.Pointer
import ApiSnippets.Proofs.Schema.Chains
import ApiSnippets.Proofs.Schema.Components
