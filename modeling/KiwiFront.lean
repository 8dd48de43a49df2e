import KiwiFront.LineTable
import KiwiFront.Main
import KiwiFront.Peg.Derivation
import KiwiFront.Peg.Extension
import KiwiFront.Peg.Procedure
import KiwiFront.Peg.Session
import KiwiFront.Proofs.Peg.Bounds
import KiwiFront.Proofs.Peg.Rounds
import KiwiFront.Proofs.Peg.Remembering
import KiwiFront.Schema.Ancestry
import KiwiFront.TokenScript
import KiwiFront.Tree.KeptTokens
import KiwiFront.Tree.Relocation
import KiwiFront.Tree.RuleView
import KiwiFront.Tree.Summary
import KiwiFront.Tree.Walk
import KiwiFront.Proofs.Peg.Repetition
import KiwiFront.Proofs.Peg.Progress
import KiwiFront.Proofs.Peg.Termination
import KiwiFront.Proofs.Peg.Packrat
import KiwiFront.Proofs.Peg.Sessions
import KiwiFront.Proofs.Grammar.Sessions
import KiwiFront.Proofs.Tree.Spans
import KiwiFront.Proofs.Peg.Unwinding
import KiwiFront.Proofs.Peg.Soundness
import KiwiFront.Proofs.Grammar.Productions
import KiwiFront.Proofs.Peg.Reading
import KiwiFront.Proofs.Grammar.DottedTypes
import KiwiFront.Proofs.Grammar.Lookahead
import KiwiFront.Proofs.Grammar.Completeness
import KiwiFront.Proofs.Grammar.Acceptance
import KiwiFront.Proofs.Lexer.Derivatives
import KiwiFront.Proofs.Lexer.MaximalMunch
import KiwiFront.Proofs.Lexer.Positions
import KiwiFront.Proofs.Lexer.Placement
import KiwiFront.Proofs.Lexer.Lines
import KiwiFront.Proofs.Grammar.Spellings
import KiwiFront.Tree.Layout
import KiwiFront.Proofs.Grammar.KeptTokens
import KiwiFront.Tree.Nesting
import KiwiFront.Proofs.Tree.Nesting
import KiwiFront.Proofs.Grammar.Nesting
import KiwiFront.Proofs.Grammar.Relocation
import KiwiFront.Schema.Catalog
import KiwiFront.Proofs.Schema.Catalog
import KiwiFront.Proofs.Grammar.Errors
import KiwiFront.Proofs.Grammar.ViablePrefix
import KiwiFront.Proofs.Grammar.Endings
import KiwiFront.Proofs.Peg.LeftRecursion
import KiwiFront.Proofs.Peg.Memoizers
import KiwiFront.Proofs.Grammar.Sigils
import KiwiFront.Proofs.Peg.Procedures
import KiwiFront.Proofs.Peg.Growth
import KiwiFront.Proofs.Grammar.DottedNames
import KiwiFront.Proofs.Peg.Profiles
import KiwiFront.Proofs.Peg.Accounting
import KiwiFront.Proofs.Grammar.Accounting
import KiwiFront.Proofs.Schema.BaseTypes
import KiwiFront.Proofs.Schema.Resolution
import KiwiFront.Schema.Listing
import KiwiFront.Proofs.Schema.Classification
import KiwiFront.Proofs.Schema.ChildFields
import KiwiFront.Lexer.Coverage
import KiwiFront.Proofs.Lexer.Coverage
import KiwiFront.Lexer.TokenLines
import KiwiFront.Proofs.Lexer.TokenLines
import KiwiFront.Proofs.Lexer.JoinedNames
import KiwiFront.Proofs.Lexer.LineTable
import KiwiFront.Tree.Boundaries
import KiwiFront.Proofs.Tree.Boundaries
import KiwiFront.Proofs.Tree.Serialized
import KiwiFront.Tree.Items
import KiwiFront.Proofs.Text.OneLine
import KiwiFront.Proofs.Tree.Outlines
import KiwiFront.Proofs.Tree.Items
import KiwiFront.Proofs.Tree.Drawable
import KiwiFront.Proofs.Schema.NodeTypes
import KiwiFront.Proofs.Output.ListedTokens
import KiwiFront.Proofs.Lexer.TokenScripts
