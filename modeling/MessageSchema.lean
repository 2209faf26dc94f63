import MessageSchema.Binary64.Basic
import MessageSchema.Binary64.Layout
import MessageSchema.Binary64.Numeral
import MessageSchema.Binary64.Rounding
import MessageSchema.Binary64.Shortest
import MessageSchema.Builder.Code
import MessageSchema.Builder.OfUnit
import MessageSchema.Builder.Printer
import MessageSchema.Calendar
import MessageSchema.Command.Arguments
import MessageSchema.Command.Basic
import MessageSchema.Command.Check
import MessageSchema.Command.Generate
import MessageSchema.Command.List
import MessageSchema.Command.Show
import MessageSchema.CompilationUnit
import MessageSchema.Descriptor.Basic
import MessageSchema.Descriptor.Codec
import MessageSchema.Descriptor.Kind
import MessageSchema.Descriptor.Set
import MessageSchema.Dictionary
import MessageSchema.Disk.Basic
import MessageSchema.Disk.Path
import MessageSchema.Disk.Tree
import MessageSchema.Document.Member
import MessageSchema.Document.Node
import MessageSchema.Document.Outline
import MessageSchema.Document.Record
import MessageSchema.Document.Rejection
import MessageSchema.Glob.Expand
import MessageSchema.Glob.Pattern
import MessageSchema.Input.Format
import MessageSchema.Input.Load
import MessageSchema.Json.Node
import MessageSchema.Json.Number
import MessageSchema.Json.Printer
import MessageSchema.Json.Reading
import MessageSchema.Json.Token
import MessageSchema.Json.Value
import MessageSchema.Main
import MessageSchema.Manifest.Basic
import MessageSchema.Manifest.Load
import MessageSchema.Manifest.Outline
import MessageSchema.Overlay.Basic
import MessageSchema.Overlay.Outline
import MessageSchema.Overlay.Resolve
import MessageSchema.Pattern.Basic
import MessageSchema.Pattern.Compile
import MessageSchema.Pattern.Property
import MessageSchema.Pattern.Reader
import MessageSchema.Pool
import MessageSchema.Property.Basic
import MessageSchema.Property.OfField
import MessageSchema.Property.Record
import MessageSchema.Protojson.Load
import MessageSchema.Protojson.Raw
import MessageSchema.Schema.Basic
import MessageSchema.Schema.Codec
import MessageSchema.Schema.References
import MessageSchema.Selection
import MessageSchema.Shape
import MessageSchema.Synthesis
import MessageSchema.Text.Cut
import MessageSchema.Text.Letter
import MessageSchema.Text.Quoted
import MessageSchema.Yaml.Cursor
import MessageSchema.Yaml.Node
import MessageSchema.Yaml.Scalar
import MessageSchema.Yaml.ScalarText
import MessageSchema.Yaml.Token
import MessageSchema.Yaml.TokenReader
import MessageSchema.Yaml.Tree
import MessageSchema.Proofs.Cut
import MessageSchema.Proofs.Blank
import MessageSchema.Proofs.Comment
import MessageSchema.Proofs.Descent
import MessageSchema.Proofs.Traversals
import MessageSchema.Proofs.Dictionary
import MessageSchema.Proofs.Reached
import MessageSchema.Proofs.References
import MessageSchema.Proofs.Except
import MessageSchema.Proofs.Shape
import MessageSchema.Proofs.Synthesis.Filling
import MessageSchema.Proofs.Synthesis.Exactness
import MessageSchema.Proofs.Declarations
import MessageSchema.Proofs.Selection.Walk
import MessageSchema.Proofs.Selection.Exactness
import MessageSchema.Proofs.Synthesis.OfSelection
import MessageSchema.Proofs.Program.Basic
import MessageSchema.Proofs.Program.Meaning
import MessageSchema.Proofs.Builder.Expression
import MessageSchema.Proofs.Synthesis.Growth
import MessageSchema.Proofs.Builder.Fields
import MessageSchema.Proofs.Builder.Nodes
import MessageSchema.Proofs.Builder.Running
import MessageSchema.Proofs.CompilationUnit
import MessageSchema.Proofs.Program.Lexeme
import MessageSchema.Proofs.Program.Reader
import MessageSchema.Proofs.Builder.Parsing
import MessageSchema.Proofs.Binary64.Rounding
import MessageSchema.Proofs.Binary64.Shortest
import MessageSchema.Proofs.Numeral
import MessageSchema.Proofs.Binary64.Layout
import MessageSchema.Proofs.Program.Scanning
import MessageSchema.Proofs.Builder.Printing
import MessageSchema.Proofs.Builder.Module
import MessageSchema.Proofs.Builder.Rebuilding
import MessageSchema.Proofs.Agreement
import MessageSchema.Proofs.Synthesis.Calls
import MessageSchema.Proofs.Isolation
import MessageSchema.Proofs.Loading
import MessageSchema.Proofs.Checking
import MessageSchema.Proofs.Synthesis.Narrowing
import MessageSchema.Proofs.Showing
import MessageSchema.Proofs.Scopes
import MessageSchema.Proofs.Manifest.Names
import MessageSchema.Proofs.Manifest.Fields
import MessageSchema.Proofs.Manifest.Messages
import MessageSchema.Proofs.Manifest.WellFormed
import MessageSchema.Proofs.Manifest.Keywords
import MessageSchema.Proofs.Manifest.Groups
import MessageSchema.Proofs.Builder.Calls
import MessageSchema.Proofs.Callees.Distinct
import MessageSchema.Proofs.Callees.Provided
import MessageSchema.Proofs.Disk.View
import MessageSchema.Proofs.Disk.Place
import MessageSchema.Proofs.Disk.Atomic
import MessageSchema.Proofs.Disk.Inward
import MessageSchema.Proofs.Disk.Touching
import MessageSchema.Proofs.Generate.Staging
import MessageSchema.Proofs.Generate.AllOrNothing
import MessageSchema.Proofs.Generate.Confinement
import MessageSchema.Proofs.Validation.Regex
import MessageSchema.Proofs.Validation.Pointer
import MessageSchema.Proofs.Validation.Validator
import MessageSchema.Proofs.Validation.Conformance
import MessageSchema.Proofs.Validation.Keywords
import MessageSchema.Proofs.Validation.Groups
import MessageSchema.Proofs.Validation.Fields
import MessageSchema.Proofs.Validation.Adequacy
import MessageSchema.Proofs.Overlay.Bounds
import MessageSchema.Proofs.Overlay.Silence
import MessageSchema.Proofs.Selection.Members
import MessageSchema.Proofs.Callees.Identifiers
import MessageSchema.Proofs.Generate.Success
import MessageSchema.Proofs.Generate.Reading
import MessageSchema.Proofs.Generate.Run
import MessageSchema.Proofs.Overlay.Ignored
import MessageSchema.Proofs.Validation.Presence
import MessageSchema.Proofs.Manifest.OwnProperties
import MessageSchema.Proofs.Property.Record
import MessageSchema.Proofs.Property.Elements
import MessageSchema.Proofs.Property.WellFormed
import MessageSchema.Proofs.Document.Object
import MessageSchema.Proofs.Document.Arrangement
import MessageSchema.Proofs.Document.RoundTrip
import MessageSchema.Proofs.Overlay.Spelling
import MessageSchema.Proofs.Overlay.Canonical
import MessageSchema.Proofs.Schema.RoundTrip
import MessageSchema.Proofs.Descriptor.Places
import MessageSchema.Proofs.Descriptor.Index
import MessageSchema.Proofs.Descriptor.RoundTrip
import MessageSchema.Proofs.Protojson.Position
import MessageSchema.Proofs.Protojson.Conversion
