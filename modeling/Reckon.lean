import Reckon.Main
import Reckon.Journal
import Reckon.Matcher.Pattern
import Reckon.Proofs.Expr.Precedence
import Reckon.Proofs.Comment.Scan
import Reckon.Proofs.Lexer.Tiling
import Reckon.Proofs.Expr.RoundTrip
import Reckon.Proofs.Comment.Lines
import Reckon.Proofs.Expr.Discipline
import Reckon.Proofs.Expr.Viable
import Reckon.Proofs.Expr.Spelling
import Reckon.Proofs.Lexer.Foreign
import Reckon.Proofs.Expr.Diagnostics
import Reckon.Proofs.Matcher.Choice
import Reckon.Proofs.Lexer.Munch
import Reckon.Proofs.Matcher.Composed
import Reckon.Proofs.Text.Behind
import Reckon.Proofs.Token.Behind
import Reckon.Proofs.Matcher.Behind
import Reckon.Proofs.Grammar.Behind
import Reckon.Proofs.Comment.Behind
import Reckon.Proofs.Lexer.Behind
import Reckon.Proofs.Matcher.Spelled
import Reckon.Proofs.Numeral.Digits
import Reckon.Proofs.Grammar.Spelled
import Reckon.Proofs.Matcher.Longest
import Reckon.Proofs.Grammar.Longest
import Reckon.Proofs.Calc.Literal
import Reckon.Proofs.Matcher.Repeat
import Reckon.Proofs.Grammar.StringLiteral
import Reckon.Proofs.Matcher.Cut
import Reckon.Proofs.Grammar.Cut
import Reckon.Proofs.Comment.Cut
import Reckon.Proofs.Lexer.Alone
import Reckon.Proofs.Matcher.Automaton
import Reckon.Proofs.Grammar.LongestString
import Reckon.Proofs.Comment.Around
import Reckon.Proofs.Numeral.Signed
import Reckon.Proofs.Text.Trimmed
import Reckon.Proofs.Calc.Exact
import Reckon.Proofs.Calc.Environment
import Reckon.Proofs.Calc.Binding
import Reckon.Proofs.Expr.Names
import Reckon.Proofs.Expr.Trace
import Reckon.Proofs.Expr.Dump
import Reckon.Proofs.Lexer.Stuck
import Reckon.Proofs.Comment.Checked
import Reckon.Proofs.Text.Order
