import CrossShader.CallGraph
import CrossShader.Decimal.Notation
import CrossShader.Decimal.Shortest
import CrossShader.Decimal.Single
import CrossShader.Diagnostic
import CrossShader.Dialect.Basic
import CrossShader.Dialect.Glsl
import CrossShader.Dialect.Hlsl
import CrossShader.Dialect.Identifiers
import CrossShader.Dialect.Intrinsic
import CrossShader.Dialect.Plain
import CrossShader.Dialect.Table
import CrossShader.EntryPoint.Plan
import CrossShader.EntryPoint.Wrapper
import CrossShader.Error
import CrossShader.Expr
import CrossShader.Function
import CrossShader.Generation
import CrossShader.Host
import CrossShader.Interface
import CrossShader.Listing
import CrossShader.Lowering.Context
import CrossShader.Lowering.Expr
import CrossShader.Lowering.Function
import CrossShader.Lowering.Outline
import CrossShader.Lowering.Scope
import CrossShader.Lowering.Stmt
import CrossShader.Options
import CrossShader.Program
import CrossShader.Query
import CrossShader.Resolution
import CrossShader.Resource
import CrossShader.Roster
import CrossShader.Stmt
import CrossShader.Structure
import CrossShader.StructureSet
import CrossShader.Symbols
import CrossShader.Target
import CrossShader.Text.Blank
import CrossShader.Text.Line
import CrossShader.Text.Phrase
import CrossShader.Traversal
import CrossShader.TypeRef
import CrossShader.Validation
import CrossShader.Proofs.Discovery
import CrossShader.Proofs.Request
import CrossShader.Proofs.Resolution
import CrossShader.Proofs.Nesting
import CrossShader.Proofs.CallGraph
import CrossShader.Proofs.Schedule
import CrossShader.Proofs.Dependencies
import CrossShader.Proofs.EmittedStructures
import CrossShader.Proofs.Naming
import CrossShader.Proofs.StageInterface
import CrossShader.Proofs.StraightLine
import CrossShader.Proofs.DataFlow
import CrossShader.Proofs.SlotLinking
import CrossShader.Proofs.Reader.Grammar
import CrossShader.Proofs.Reader.Parser
import CrossShader.Proofs.Reader.Phrase
import CrossShader.Proofs.Reader.Image
import CrossShader.Proofs.Reader.Numeral
import CrossShader.Proofs.Reader.Vocabulary
import CrossShader.Proofs.Reader.Expression
import CrossShader.Proofs.BlockScope
import CrossShader.Proofs.Remainder
import CrossShader.Proofs.Effects.Heads
import CrossShader.Proofs.Effects.Order
import CrossShader.Proofs.Effects.Spelling
import CrossShader.Proofs.Effects.Emission
import CrossShader.Proofs.Registration
import CrossShader.Proofs.Raises
import CrossShader.Proofs.BodyParts
import CrossShader.Proofs.EmissionErrors
import CrossShader.Proofs.Causes
import CrossShader.Proofs.TypeCoverage
import CrossShader.Proofs.Flow.Grammar
import CrossShader.Proofs.Flow.Inert
import CrossShader.Proofs.Flow.Layout
import CrossShader.Proofs.Flow.ReadBack
import CrossShader.Proofs.Reader.Cast
import CrossShader.Proofs.Reader.CastPhrase
import CrossShader.Proofs.Reader.HlslImage
import CrossShader.Proofs.Reader.Constant
import CrossShader.Proofs.Reader.HlslExpression
import CrossShader.Proofs.Reader.Pieces
import CrossShader.Proofs.Reader.HlslReadBack
import CrossShader.Proofs.Inquiry
import CrossShader.Proofs.CodeAgreement
import CrossShader.Proofs.Writer
import CrossShader.Proofs.DocumentWriter
import CrossShader.Proofs.OptionLines
import CrossShader.Proofs.Extension
import CrossShader.Proofs.Document
import CrossShader.Proofs.GlobalDeclarations
import CrossShader.Proofs.GlobalNames
import CrossShader.Proofs.Mention
import CrossShader.Proofs.Capture
import CrossShader.Proofs.Insertion
import CrossShader.Proofs.TypeResolution
import CrossShader.Proofs.Findings
import CrossShader.Proofs.Validation
import CrossShader.Proofs.VertexInterface
import CrossShader.Proofs.BodyErrors
import CrossShader.Proofs.DefaultValues
import CrossShader.Proofs.ArrayTypes
import CrossShader.Proofs.MainLocals
import CrossShader.Proofs.Correction
import CrossShader.Proofs.StoreTypes
import CrossShader.Proofs.Decimal.Nearest
import CrossShader.Proofs.Decimal.Shortest
import CrossShader.Proofs.Decimal.Literal
import CrossShader.Proofs.Roster
import CrossShader.Proofs.Bindings
import CrossShader.Proofs.StructureNames
import CrossShader.Proofs.LocalSearch
