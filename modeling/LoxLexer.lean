import LoxLexer.Token.Kind
import LoxLexer.Binary64.Text
import LoxLexer.Decimal.Reader
import LoxLexer.Text.CodeRange
import LoxLexer.Text.Printable
import LoxLexer.Text.Uppercase
import LoxLexer.Text.DecimalDigit
import LoxLexer.Text.WhiteSpace
import LoxLexer.Token.Text
import LoxLexer.Token.Lookup
import LoxLexer.Lexeme.Split
import LoxLexer.Step.Basic
import LoxLexer.Session
import LoxLexer.Source.Reading
import LoxLexer.Strict
import LoxLexer.Command.Run
import LoxLexer.Main
import LoxLexer.Proofs.Lexeme.Lookahead
import LoxLexer.Proofs.Scan.MaximalMunch
import LoxLexer.Proofs.Scan.Tiling
import LoxLexer.Proofs.Scan.Lines
import LoxLexer.Proofs.Scan.Layout
import LoxLexer.Proofs.Scan.Neighbours
import LoxLexer.Proofs.Scan.Separators
import LoxLexer.Proofs.Scan.LineBreaks
import LoxLexer.Proofs.Scan.Extension
import LoxLexer.Proofs.Scan.Automaton
import LoxLexer.Proofs.Scan.Observation
import LoxLexer.Proofs.Scan.Interruption
import LoxLexer.Proofs.Command.Flags
import LoxLexer.Proofs.Command.Script
import LoxLexer.Proofs.Command.Prompt
import LoxLexer.Proofs.Lexeme.Replacement
import LoxLexer.Proofs.Scan.Blanking
import LoxLexer.Proofs.Reporter.Sharing
import LoxLexer.Proofs.Command.DumpReading
import LoxLexer.Proofs.Decimal.Shortest
import LoxLexer.Proofs.Decimal.Numeral
import LoxLexer.Proofs.Decimal.ReadBack
import LoxLexer.Proofs.Decimal.Rounded
import LoxLexer.Proofs.Decimal.Fewest
import LoxLexer.Proofs.Json.Reader
import LoxLexer.Proofs.Json.Symbols
import LoxLexer.Proofs.Json.Numbers
import LoxLexer.Proofs.Json.Strings
import LoxLexer.Proofs.Json.Written
import LoxLexer.Proofs.Command.JsonDump
import LoxLexer.Proofs.Json.Grammar
import LoxLexer.Proofs.Command.StandardJson
import LoxLexer.Proofs.Lexeme.Alphabet
import LoxLexer.Proofs.Scan.CodeText
import LoxLexer.Proofs.Scan.Exchange
import LoxLexer.Proofs.Scan.Rescan
import LoxLexer.Proofs.Scan.Numbers
import LoxLexer.Proofs.Scan.NumberText
import LoxLexer.Proofs.Scan.LineEndings
import LoxLexer.Proofs.Command.LineEndings
import LoxLexer.Proofs.Source.Sequences
import LoxLexer.Proofs.Source.Decoding
import LoxLexer.Proofs.Command.Encoding
import LoxLexer.Proofs.Command.Arguments
import LoxLexer.Proofs.Text.Quoted
import LoxLexer.Proofs.Token.Form
import LoxLexer.Proofs.Scan.Diagnostics
import LoxLexer.Proofs.Command.PlainLines
