import ApiGraph.Decimal.Binary64
import ApiGraph.Decimal.Power
import ApiGraph.Decimal.Shortest
import ApiGraph.Dictionary
import ApiGraph.Engine.Configuration
import ApiGraph.Engine.Configuration.Reader
import ApiGraph.Engine.Configuration.Writer
import ApiGraph.Engine.Draft
import ApiGraph.Engine.Operation
import ApiGraph.Engine.Resolvers
import ApiGraph.Generation.NamePool
import ApiGraph.Generation.Registry
import ApiGraph.Generation.RootFields
import ApiGraph.Generation.SchemaOf
import ApiGraph.Generation.Types
import ApiGraph.Generator.Failure
import ApiGraph.Generator.Session
import ApiGraph.Generator.Settings
import ApiGraph.Generator.Settings.Reader
import ApiGraph.Generator.Step
import ApiGraph.GraphQL.Name
import ApiGraph.GraphQL.Schema
import ApiGraph.GraphQL.Sdl.Document
import ApiGraph.GraphQL.Sdl.Printer
import ApiGraph.GraphQL.Sdl.Reader
import ApiGraph.GraphQL.Sdl.Token
import ApiGraph.GraphQL.TypeRef
import ApiGraph.GraphQL.Validation
import ApiGraph.Json.Number
import ApiGraph.Json.Printer
import ApiGraph.Json.Reader
import ApiGraph.Json.Tree
import ApiGraph.Json.Value
import ApiGraph.OpenApi.Components
import ApiGraph.OpenApi.Document
import ApiGraph.OpenApi.Document.Reader
import ApiGraph.OpenApi.Endpoint
import ApiGraph.OpenApi.Model
import ApiGraph.OpenApi.Problem
import ApiGraph.OpenApi.Schema
import ApiGraph.OpenApi.Shape
import ApiGraph.OpenApi.Text
import ApiGraph.Proofs.Dictionary
import ApiGraph.Proofs.Engine.ArgumentSlots
import ApiGraph.Proofs.Engine.AttributeShapes
import ApiGraph.Proofs.Engine.Binding
import ApiGraph.Proofs.Engine.Compilation
import ApiGraph.Proofs.Engine.Histories
import ApiGraph.Proofs.Engine.ReadBack
import ApiGraph.Proofs.Engine.Walks
import ApiGraph.Proofs.Generation.Arguments
import ApiGraph.Proofs.Generation.Building
import ApiGraph.Proofs.Generation.BuiltinNames
import ApiGraph.Proofs.Generation.Closed
import ApiGraph.Proofs.Generation.Collisions
import ApiGraph.Proofs.Generation.Coverage
import ApiGraph.Proofs.Generation.Cycles
import ApiGraph.Proofs.Generation.DerivedNames
import ApiGraph.Proofs.Generation.DuplicateFields
import ApiGraph.Proofs.Generation.Faults
import ApiGraph.Proofs.Generation.Fields
import ApiGraph.Proofs.Generation.ForeignNames
import ApiGraph.Proofs.Generation.Frame
import ApiGraph.Proofs.Generation.GivenNames
import ApiGraph.Proofs.Generation.Grants
import ApiGraph.Proofs.Generation.Growth
import ApiGraph.Proofs.Generation.InlineEnds
import ApiGraph.Proofs.Generation.Making
import ApiGraph.Proofs.Generation.Meaning
import ApiGraph.Proofs.Generation.Names
import ApiGraph.Proofs.Generation.Nesting
import ApiGraph.Proofs.Generation.OwnNames
import ApiGraph.Proofs.Generation.Owners
import ApiGraph.Proofs.Generation.Places
import ApiGraph.Proofs.Generation.Problems
import ApiGraph.Proofs.Generation.Records
import ApiGraph.Proofs.Generation.References
import ApiGraph.Proofs.Generation.Registry
import ApiGraph.Proofs.Generation.Repeats
import ApiGraph.Proofs.Generation.RequiredCycles
import ApiGraph.Proofs.Generation.Shapes
import ApiGraph.Proofs.Generation.Sound
import ApiGraph.Proofs.Generation.Translations
import ApiGraph.Proofs.Generation.TypeNames
import ApiGraph.Proofs.Generation.Unfolding
import ApiGraph.Proofs.Generation.Versions
import ApiGraph.Proofs.Generator.Bindings
import ApiGraph.Proofs.Generator.ClosedText
import ApiGraph.Proofs.Generator.Compiled
import ApiGraph.Proofs.Generator.Descriptions
import ApiGraph.Proofs.Generator.FieldOrder
import ApiGraph.Proofs.Generator.MergedHeaders
import ApiGraph.Proofs.Generator.PrintedTypes
import ApiGraph.Proofs.Generator.SchemaText
import ApiGraph.Proofs.Generator.Steps
import ApiGraph.Proofs.GraphQL.NameGrammar
import ApiGraph.Proofs.GraphQL.ReservedNames
import ApiGraph.Proofs.GraphQL.SelfReference
import ApiGraph.Proofs.Json.RoundTrip
import ApiGraph.Proofs.Lists
import ApiGraph.Proofs.OpenApi.MethodNames
import ApiGraph.Proofs.OpenApi.Operations
import ApiGraph.Proofs.OpenApi.Parameters
import ApiGraph.Proofs.Sdl.Definitions
import ApiGraph.Proofs.Sdl.Fields
import ApiGraph.Proofs.Sdl.Printable
import ApiGraph.Proofs.Sdl.Reads
import ApiGraph.Proofs.Sdl.RoundTrip
import ApiGraph.Proofs.Sdl.Scanning
import ApiGraph.Text.Alphabetic
import ApiGraph.Text.Blank
import ApiGraph.Text.Casing
import ApiGraph.Text.CodeRange
import ApiGraph.Text.Digits
import ApiGraph.Text.LetterCase
import ApiGraph.Text.Numeric
import ApiGraph.Toml.Number
import ApiGraph.Toml.Reader
import ApiGraph.Toml.Text
import ApiGraph.Toml.Value
import ApiGraph.Url.Absolute
import ApiGraph.Url.Address
import ApiGraph.Url.Domain
import ApiGraph.Url.Problem
import ApiGraph.Url.Punycode
import ApiGraph.Yaml.Cursor
import ApiGraph.Yaml.Lexer
import ApiGraph.Yaml.Node
import ApiGraph.Yaml.Reader
import ApiGraph.Yaml.Scalar
import ApiGraph.Yaml.ScalarText
import ApiGraph.Yaml.Token
