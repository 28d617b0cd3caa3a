import JustLang.Alphabet
import JustLang.CommandLine.Arguments
import JustLang.CommandLine.Files
import JustLang.CommandLine.Run
import JustLang.Diagnostic
import JustLang.Diagnostic.Report
import JustLang.Lexeme
import JustLang.Lexer
import JustLang.Lexicon
import JustLang.Machine
import JustLang.Machine.Rules
import JustLang.Main
import JustLang.Numeral
import JustLang.Position
import JustLang.Proofs.Code
import JustLang.Proofs.CommandLine.Listing
import JustLang.Proofs.CommandLine.Run
import JustLang.Proofs.Diagnostic.Boundary
import JustLang.Proofs.Diagnostic.Report
import JustLang.Proofs.Language
import JustLang.Proofs.Lexeme.LongestMatch
import JustLang.Proofs.Lexeme.Lookahead
import JustLang.Proofs.Lexeme.Newline
import JustLang.Proofs.Lexeme.Plain
import JustLang.Proofs.Lexeme.Readers
import JustLang.Proofs.Lexeme.Spacing
import JustLang.Proofs.Lexer.Acceptance
import JustLang.Proofs.Lexer.Agreement
import JustLang.Proofs.Lexer.Fault
import JustLang.Proofs.Lexer.Line
import JustLang.Proofs.Lexer.LongestMatch
import JustLang.Proofs.Lexer.Lookahead
import JustLang.Proofs.Lexer.Place
import JustLang.Proofs.Lexer.Recovery
import JustLang.Proofs.Lexer.Shift
import JustLang.Proofs.Lexer.Spacing
import JustLang.Proofs.Lexer.Step
import JustLang.Proofs.Lexer.Tiling
import JustLang.Proofs.Lexer.Widening
import JustLang.Proofs.Lexicon
import JustLang.Proofs.Lexicon.Conflict
import JustLang.Proofs.Machine
import JustLang.Proofs.Machine.Recognition
import JustLang.Proofs.Numeral
import JustLang.Proofs.Numeral.Recognition
import JustLang.Proofs.Position
import JustLang.Proofs.Session
import JustLang.Proofs.Session.Interleaving
import JustLang.Proofs.Session.Restart
import JustLang.Proofs.Session.Stability
import JustLang.Proofs.Session.Termination
import JustLang.Proofs.SourceLine
import JustLang.Proofs.SourceLine.Bytes
import JustLang.Proofs.StringLiteral
import JustLang.Proofs.StringLiteral.Closing
import JustLang.Proofs.Vocabulary
import JustLang.Session
import JustLang.SourceLine
import JustLang.StringLiteral
import JustLang.Text
import JustLang.Text.Blank
import JustLang.Text.CharSet
import JustLang.Text.Combining
import JustLang.Text.Escape
import JustLang.Text.Unprintable
import JustLang.Token
import JustLang.Token.Kind
import JustLang.Vocabulary
