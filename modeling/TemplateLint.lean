import TemplateLint.Text.Quoted
import TemplateLint.Source.Position
import TemplateLint.Template.Piece
import TemplateLint.Template.Parser
import TemplateLint.Json.Reader
import TemplateLint.Json.Printer
import TemplateLint.Expr.Parser
import TemplateLint.NameMap
import TemplateLint.Document
import TemplateLint.TypeNode.Validate
import TemplateLint.Manifest
import TemplateLint.Infer
import TemplateLint.Analysis.Cursor
import TemplateLint.Command.Arguments
import TemplateLint.Main
import TemplateLint.Proofs.Slices
import TemplateLint.Proofs.Tiling
import TemplateLint.Proofs.Pairing
import TemplateLint.Proofs.WalkSteps
import TemplateLint.Proofs.Lockstep
import TemplateLint.Proofs.Restoration
import TemplateLint.Proofs.ConditionalScope
import TemplateLint.Proofs.LexicalDot
import TemplateLint.Proofs.Resolution
import TemplateLint.Proofs.Expressions
import TemplateLint.Proofs.Staging
import TemplateLint.Proofs.Reporting
import TemplateLint.Proofs.PipedMethods
import TemplateLint.Proofs.Scanning
import TemplateLint.Proofs.PathText
import TemplateLint.Proofs.FastPath
import TemplateLint.Proofs.Relaxation
import TemplateLint.Proofs.RelaxedWalk
import TemplateLint.Proofs.Positions
import TemplateLint.Proofs.Issues
import TemplateLint.Proofs.Nesting
import TemplateLint.Proofs.Placement
import TemplateLint.Proofs.Independence
import TemplateLint.Proofs.Linking
import TemplateLint.Proofs.Lexemes
import TemplateLint.Proofs.QuoteScans
import TemplateLint.Proofs.Relocation
import TemplateLint.Proofs.Piping
import TemplateLint.Proofs.FailedHeaders
import TemplateLint.Proofs.CursorScope
import TemplateLint.Proofs.PathPrinting
import TemplateLint.Proofs.Enclosing
import TemplateLint.Proofs.TokenSlices
import TemplateLint.Proofs.Spelling
import TemplateLint.Proofs.ExprSpans
import TemplateLint.Proofs.Blame
import TemplateLint.Proofs.RootedPaths
import TemplateLint.Proofs.Indexing
import TemplateLint.Proofs.Integers
import TemplateLint.Proofs.NameLiterals
import TemplateLint.Proofs.FieldCompletion
import TemplateLint.Proofs.PathSpelling
import TemplateLint.Proofs.HoverText
import TemplateLint.Proofs.Openings
import TemplateLint.Proofs.Roots
import TemplateLint.Proofs.TypeDocuments
import TemplateLint.Proofs.FunctionTables
import TemplateLint.Proofs.CommentMarkers
import TemplateLint.Proofs.VisibleVariables
