import ApiLowering.Command.Arguments
import ApiLowering.Command.Basic
import ApiLowering.Command.Failure
import ApiLowering.Command.Run
import ApiLowering.Decode.Error
import ApiLowering.Decode.Lenient
import ApiLowering.Decode.Reader
import ApiLowering.Decode.Record
import ApiLowering.Decode.Tagged
import ApiLowering.Document.Basic
import ApiLowering.Document.Body
import ApiLowering.Document.ContentConflict
import ApiLowering.Document.Operation
import ApiLowering.Document.Parameter
import ApiLowering.Document.Schema.Basic
import ApiLowering.Document.Schema.Decode
import ApiLowering.Document.Schema.Encode
import ApiLowering.Document.Security
import ApiLowering.Document.Source
import ApiLowering.Entries
import ApiLowering.FileTree
import ApiLowering.Generator
import ApiLowering.HttpMethod
import ApiLowering.Ir.File
import ApiLowering.Ir.Finding
import ApiLowering.Ir.Operation
import ApiLowering.Ir.Overview
import ApiLowering.Ir.Schema.Basic
import ApiLowering.Ir.Schema.Decode
import ApiLowering.Ir.Schema.Encode
import ApiLowering.Ir.Security
import ApiLowering.Json.Basic
import ApiLowering.Json.Entry
import ApiLowering.Json.Printer
import ApiLowering.Lowering.Composition
import ApiLowering.Lowering.Context
import ApiLowering.Lowering.Discriminant
import ApiLowering.Lowering.Document
import ApiLowering.Lowering.Enumeration
import ApiLowering.Lowering.Extension
import ApiLowering.Lowering.Operation
import ApiLowering.Lowering.Parameter
import ApiLowering.Lowering.Report
import ApiLowering.Lowering.Request
import ApiLowering.Lowering.Resolution
import ApiLowering.Lowering.Response
import ApiLowering.Lowering.Schema
import ApiLowering.Lowering.Scope
import ApiLowering.Lowering.Security
import ApiLowering.Lowering.Variable
import ApiLowering.Main
import ApiLowering.MediaKind
import ApiLowering.Name.Casing
import ApiLowering.Name.Route
import ApiLowering.Name.Status
import ApiLowering.Name.Variants
import ApiLowering.Name.Words
import ApiLowering.Numeric.Binary64
import ApiLowering.Numeric.Shortest
import ApiLowering.Options
import ApiLowering.Pointer
import ApiLowering.Project
import ApiLowering.Proofs.Agreement
import ApiLowering.Proofs.Alike
import ApiLowering.Proofs.Assembly
import ApiLowering.Proofs.Backing
import ApiLowering.Proofs.BareNames
import ApiLowering.Proofs.Bodies
import ApiLowering.Proofs.Boundaries
import ApiLowering.Proofs.ByteOrder
import ApiLowering.Proofs.Canonical
import ApiLowering.Proofs.Casing
import ApiLowering.Proofs.Closure
import ApiLowering.Proofs.Components
import ApiLowering.Proofs.Congruence
import ApiLowering.Proofs.Conservation
import ApiLowering.Proofs.Constraints
import ApiLowering.Proofs.Consulted
import ApiLowering.Proofs.ContextRuns
import ApiLowering.Proofs.Coverage
import ApiLowering.Proofs.Credentials
import ApiLowering.Proofs.DanglingBodies
import ApiLowering.Proofs.Declared
import ApiLowering.Proofs.Decoding
import ApiLowering.Proofs.Delivery
import ApiLowering.Proofs.Discriminants
import ApiLowering.Proofs.Divergence
import ApiLowering.Proofs.DocumentForms
import ApiLowering.Proofs.Election
import ApiLowering.Proofs.Elimination
import ApiLowering.Proofs.EnumNames
import ApiLowering.Proofs.EnumValues
import ApiLowering.Proofs.Everywhere
import ApiLowering.Proofs.Failure
import ApiLowering.Proofs.Findings
import ApiLowering.Proofs.Finite
import ApiLowering.Proofs.FirstWins
import ApiLowering.Proofs.Flattening
import ApiLowering.Proofs.Forms
import ApiLowering.Proofs.Framing
import ApiLowering.Proofs.Fused
import ApiLowering.Proofs.Gathering
import ApiLowering.Proofs.Genuine
import ApiLowering.Proofs.Grounded
import ApiLowering.Proofs.History
import ApiLowering.Proofs.Ignored
import ApiLowering.Proofs.InContext
import ApiLowering.Proofs.InRange
import ApiLowering.Proofs.Inheritance
import ApiLowering.Proofs.IrFileForms
import ApiLowering.Proofs.IrOperationForms
import ApiLowering.Proofs.IrSchemaForms
import ApiLowering.Proofs.JsonTrees
import ApiLowering.Proofs.Lenience
import ApiLowering.Proofs.Literals
import ApiLowering.Proofs.Locality
import ApiLowering.Proofs.Lookup
import ApiLowering.Proofs.Malformed
import ApiLowering.Proofs.MalformedNodes
import ApiLowering.Proofs.MappingKeys
import ApiLowering.Proofs.MemberOrder
import ApiLowering.Proofs.Merging
import ApiLowering.Proofs.MultipartFields
import ApiLowering.Proofs.Naming
import ApiLowering.Proofs.Nesting
import ApiLowering.Proofs.Nullability
import ApiLowering.Proofs.Numbers
import ApiLowering.Proofs.Objects
import ApiLowering.Proofs.Occurrence
import ApiLowering.Proofs.OperationForms
import ApiLowering.Proofs.Operations
import ApiLowering.Proofs.Optionality
import ApiLowering.Proofs.Ordinary
import ApiLowering.Proofs.Origins
import ApiLowering.Proofs.Outline
import ApiLowering.Proofs.Overrides
import ApiLowering.Proofs.Parsed
import ApiLowering.Proofs.Parts
import ApiLowering.Proofs.Payloads
import ApiLowering.Proofs.Pieces
import ApiLowering.Proofs.Places
import ApiLowering.Proofs.Pointer
import ApiLowering.Proofs.Positions
import ApiLowering.Proofs.Procedure
import ApiLowering.Proofs.Recursion
import ApiLowering.Proofs.Reduction
import ApiLowering.Proofs.ReferenceChains
import ApiLowering.Proofs.ReferenceCounts
import ApiLowering.Proofs.Referenced
import ApiLowering.Proofs.Reordering
import ApiLowering.Proofs.Report
import ApiLowering.Proofs.RequestScope
import ApiLowering.Proofs.Rereading
import ApiLowering.Proofs.Resolving
import ApiLowering.Proofs.Restoring
import ApiLowering.Proofs.Retention
import ApiLowering.Proofs.Rules
import ApiLowering.Proofs.RunTogether
import ApiLowering.Proofs.SameShape
import ApiLowering.Proofs.SchemaForms
import ApiLowering.Proofs.SdkVariables
import ApiLowering.Proofs.Selection
import ApiLowering.Proofs.Shape
import ApiLowering.Proofs.Sites
import ApiLowering.Proofs.SoundFiles
import ApiLowering.Proofs.Spelling
import ApiLowering.Proofs.StandardCasing
import ApiLowering.Proofs.Stored
import ApiLowering.Proofs.Stripping
import ApiLowering.Proofs.Telling
import ApiLowering.Proofs.Termination
import ApiLowering.Proofs.Throughout
import ApiLowering.Proofs.Turns
import ApiLowering.Proofs.Unions
import ApiLowering.Proofs.UnknownExtensions
import ApiLowering.Proofs.Unrolled
import ApiLowering.Proofs.Walk
import ApiLowering.Proofs.WellFormed
import ApiLowering.Proofs.Words
import ApiLowering.ReferenceCount
import ApiLowering.Text.Alphabetic
import ApiLowering.Text.Basic
import ApiLowering.Text.CaseMapping
import ApiLowering.Text.Hidden
import ApiLowering.Text.LetterCase
import ApiLowering.Text.Numeral
import ApiLowering.Text.Quoted
import ApiLowering.Text.Span
import ApiLowering.Tree.Basic
import ApiLowering.Tree.JsonNumber
import ApiLowering.Tree.JsonText
import ApiLowering.Tree.PlainScalar
import ApiLowering.Yaml.Cell
import ApiLowering.Yaml.Document
import ApiLowering.Yaml.Node
import ApiLowering.Yaml.Printer
import ApiLowering.Yaml.Scalar
import ApiLowering.Yaml.Token
