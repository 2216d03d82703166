import LineCalc.Catalog.Conversion
import LineCalc.Catalog.Crypto
import LineCalc.Catalog.Currency
import LineCalc.Catalog.Denomination
import LineCalc.Catalog.MeasureUnit
import LineCalc.Catalog.Metal
import LineCalc.Catalog.Name
import LineCalc.Console.Command
import LineCalc.Console.Completion
import LineCalc.Console.Options
import LineCalc.Console.Prompt
import LineCalc.Console.Run
import LineCalc.Decimal.Binary
import LineCalc.Decimal.ExactSum
import LineCalc.Decimal.Fixed
import LineCalc.Decimal.HalfAway
import LineCalc.Decimal.Integer
import LineCalc.Decimal.Numeral
import LineCalc.Decimal.Power
import LineCalc.Decimal.Remainder
import LineCalc.Decimal.Shortest
import LineCalc.Entries
import LineCalc.Evaluation
import LineCalc.Evaluation.Builtin
import LineCalc.Evaluation.Conversion
import LineCalc.Evaluation.Operator
import LineCalc.Expr
import LineCalc.Expr.Parser
import LineCalc.Expr.Printer
import LineCalc.Fault
import LineCalc.Files.Folder
import LineCalc.Files.Path
import LineCalc.Json.Basic
import LineCalc.Json.Reader
import LineCalc.Json.Writer
import LineCalc.Main
import LineCalc.Problem
import LineCalc.Proofs.Decimal.Double
import LineCalc.Proofs.Decimal.Numeral
import LineCalc.Proofs.Decimal.Product
import LineCalc.Proofs.Evaluation.Stop
import LineCalc.Proofs.Evaluation.TypeSoundness
import LineCalc.Proofs.Evaluation.Typing
import LineCalc.Proofs.Expr.LoneDigit
import LineCalc.Proofs.Expr.Numeral
import LineCalc.Proofs.Expr.Parser
import LineCalc.Proofs.Expr.Reading
import LineCalc.Proofs.Rates.Table
import LineCalc.Proofs.Result
import LineCalc.Proofs.Token.Lexer
import LineCalc.Rates.Cache
import LineCalc.Rates.Fallback
import LineCalc.Rates.Location
import LineCalc.Rates.Provider
import LineCalc.Rates.Saved
import LineCalc.Rates.Table
import LineCalc.Service
import LineCalc.Service.Route
import LineCalc.Session
import LineCalc.Session.Eval
import LineCalc.Session.Totals
import LineCalc.SessionStore
import LineCalc.SessionStore.Saved
import LineCalc.Text.Blank
import LineCalc.Text.Case
import LineCalc.Text.Letter
import LineCalc.Text.Numeral
import LineCalc.Text.Quoted
import LineCalc.Text.Ranges
import LineCalc.Text.Table.Case
import LineCalc.Text.Table.Letter
import LineCalc.Text.Table.Numeral
import LineCalc.Text.Table.Unprintable
import LineCalc.Text.Utf8
import LineCalc.Time.Calendar
import LineCalc.Time.Timestamp
import LineCalc.Token
import LineCalc.Token.Lexer
import LineCalc.Token.Number
import LineCalc.Token.Phrase
import LineCalc.Value
import LineCalc.Value.Format
import LineCalc.Value.Precision
import LineCalc.Workspace
import LineCalc.Proofs.Rates.Search
import LineCalc.Proofs.Session.Reachable
import LineCalc.Proofs.Session.Consumption
import LineCalc.Proofs.Session.Effect
import LineCalc.Proofs.Expr.Grammar
import LineCalc.Proofs.Expr.Precedence
import LineCalc.Proofs.Decimal.Finite
import LineCalc.Proofs.Evaluation.Finite
import LineCalc.Proofs.Session.Finite
import LineCalc.Proofs.Decimal.Reciprocal
import LineCalc.Proofs.Rates.Writes
import LineCalc.Proofs.Token.Cover
import LineCalc.Proofs.Entries
import LineCalc.Proofs.Rates.Reciprocal
import LineCalc.Proofs.Rates.Quotes
import LineCalc.Proofs.Session.Clean
import LineCalc.Proofs.Service.Replay
import LineCalc.Proofs.Token.Lines
import LineCalc.Proofs.Decimal.Integer
import LineCalc.Proofs.Json.Reader
import LineCalc.Proofs.Rates.Saved
import LineCalc.Proofs.Decimal.Sign
import LineCalc.Proofs.Expr.LeadingSign
import LineCalc.Proofs.Evaluation.LeadingSign
import LineCalc.Proofs.Evaluation.Strict
import LineCalc.Proofs.Session.Agreement
import LineCalc.Proofs.Console.Kept
import LineCalc.Proofs.Text.Case
import LineCalc.Proofs.Rates.Refresh
import LineCalc.Proofs.Evaluation.Names
import LineCalc.Proofs.Session.Settings
import LineCalc.Proofs.Service.Settings
import LineCalc.Proofs.Service.Interleaving
import LineCalc.Proofs.Decimal.Digits
import LineCalc.Proofs.Decimal.Rounding
import LineCalc.Proofs.Decimal.Scientific
import LineCalc.Proofs.Decimal.Shortest
import LineCalc.Proofs.Json.Numbers
import LineCalc.Proofs.Json.Strings
import LineCalc.Proofs.Json.Written
import LineCalc.Proofs.Time.Calendar
import LineCalc.Proofs.Time.Timestamp
import LineCalc.Proofs.Rates.Persistence
import LineCalc.Proofs.Rates.Routes
import LineCalc.Proofs.Rates.Convertible
import LineCalc.Proofs.Rates.RoundTrip
import LineCalc.Proofs.Session.Continuation
import LineCalc.Proofs.Decimal.Hundredths
import LineCalc.Proofs.Decimal.Spelling
import LineCalc.Proofs.Token.Written
import LineCalc.Proofs.Token.WrittenAmount
import LineCalc.Proofs.Catalog.Codes
import LineCalc.Proofs.Expr.AmountText
import LineCalc.Proofs.Expr.Origin
import LineCalc.Proofs.Expr.Written
import LineCalc.Proofs.Expr.Rendering
import LineCalc.Proofs.Expr.WrittenLine
import LineCalc.Proofs.Session.Rendering
import LineCalc.Proofs.Session.Operations
import LineCalc.Proofs.Session.Memory
import LineCalc.Proofs.Session.Variables
import LineCalc.Proofs.Session.KnownCodes
import LineCalc.Proofs.Session.Totals
import LineCalc.Proofs.Service.Answers
import LineCalc.Proofs.Expr.Parts
import LineCalc.Proofs.Evaluation.Dependencies
import LineCalc.Proofs.Evaluation.FirstProblem
import LineCalc.Proofs.Catalog.MeasureUnit
import LineCalc.Proofs.Evaluation.OperatorLaw
import LineCalc.Proofs.Service.Refused
import LineCalc.Proofs.Decimal.ExactValue
import LineCalc.Proofs.Decimal.Nearest
import LineCalc.Proofs.Decimal.Adjacent
import LineCalc.Proofs.Decimal.Sum
import LineCalc.Proofs.Decimal.Quotient
import LineCalc.Proofs.Decimal.Order
import LineCalc.Proofs.Evaluation.OperandOrder
import LineCalc.Proofs.Evaluation.Conversion
import LineCalc.Proofs.Evaluation.Aggregate
import LineCalc.Proofs.Evaluation.MixedUnits
import LineCalc.Proofs.Decimal.HalfAway
import LineCalc.Proofs.Evaluation.Rounding
import LineCalc.Proofs.Token.Phrase
import LineCalc.Proofs.Token.Minus
import LineCalc.Proofs.Rates.Malformed
import LineCalc.Proofs.Catalog.Symbols
import LineCalc.Proofs.Token.Numeral
import LineCalc.Proofs.Decimal.Compared
import LineCalc.Proofs.Decimal.Fixed
import LineCalc.Proofs.Value.Format
import LineCalc.Proofs.Value.Sign
import LineCalc.Proofs.Expr.Extent
import LineCalc.Proofs.Expr.Walk
import LineCalc.Proofs.Expr.Cursor
import LineCalc.Proofs.Expr.LineWalk
import LineCalc.Proofs.Expr.Computed
