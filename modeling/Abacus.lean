import Abacus.Main
import Abacus.Proofs.Expr.Grammar
import Abacus.Proofs.Expr.Reading
import Abacus.Proofs.Expr.Recognition
import Abacus.Proofs.Expr.Height
import Abacus.Proofs.Expr.Sweep
import Abacus.Proofs.Expr.Acceptance
import Abacus.Proofs.Expr.Offender
import Abacus.Proofs.Decimal.Binary64
import Abacus.Proofs.Decimal.Rounding
import Abacus.Proofs.Decimal.Nearest
import Abacus.Proofs.Decimal.ReadBack
import Abacus.Proofs.Token.Scan
import Abacus.Proofs.Expr.RoundTrip
import Abacus.Proofs.Expr.FixedPoint
import Abacus.Proofs.Text.Bytes
import Abacus.Proofs.Text.Lines
import Abacus.Proofs.Json.Strings
import Abacus.Proofs.Json.Numbers
import Abacus.Proofs.Json.Shape
import Abacus.Proofs.Json.Plain
import Abacus.Proofs.Json.ReadBack
import Abacus.Proofs.Files.Walk
import Abacus.Proofs.Journal.Lines
import Abacus.Proofs.Journal.Window
import Abacus.Proofs.Journal.Run
import Abacus.Proofs.Journal.Reading
import Abacus.Proofs.Json.Glued
import Abacus.Proofs.Journal.Appending
import Abacus.Proofs.Registry.Standard
import Abacus.Proofs.Journal.Kept
import Abacus.Proofs.Files.Written
import Abacus.Proofs.Console.Transcript
import Abacus.Proofs.Console.Recording
import Abacus.Proofs.Console.PromptRun
import Abacus.Proofs.Console.Sitting
import Abacus.Proofs.Token.DecimalLiteral
import Abacus.Proofs.Token.Cut
import Abacus.Proofs.Decimal.Signs
import Abacus.Proofs.Expr.Reread
import Abacus.Proofs.Console.Alike
import Abacus.Proofs.Console.Silence
import Abacus.Proofs.Token.Blanks
import Abacus.Proofs.Console.Overrides
import Abacus.Proofs.Console.Verdict
import Abacus.Proofs.Console.Fronts
import Abacus.Proofs.Files.Made
import Abacus.Proofs.Journal.Reach
import Abacus.Proofs.Console.Emission
import Abacus.Proofs.Journal.Lengths
import Abacus.Proofs.Console.Telling
import Abacus.Proofs.Journal.Whole
import Abacus.Proofs.Console.Usable
import Abacus.Proofs.Console.EventList
import Abacus.Proofs.Expr.Parts
import Abacus.Proofs.Expr.FreeWords
import Abacus.Proofs.Expr.Needed
import Abacus.Proofs.Registry.Guards
import Abacus.Proofs.Expr.Calls
import Abacus.Proofs.Expr.Shallow
import Abacus.Proofs.Expr.FirstFailure
import Abacus.Proofs.Token.Gaps
import Abacus.Proofs.Token.Offender
import Abacus.Proofs.Decimal.Overflow
import Abacus.Proofs.Expr.LiteralText
import Abacus.Proofs.Decimal.Values
import Abacus.Proofs.Registry.Power
import Abacus.Proofs.Journal.Legible
import Abacus.Proofs.Console.Strays
import Abacus.Proofs.Json.Fronts
import Abacus.Proofs.Journal.NewlineLines
import Abacus.Proofs.Journal.Names
import Abacus.Proofs.Journal.Truncation
import Abacus.Proofs.Registry.History
import Abacus.Proofs.Expr.Spelling
import Abacus.Proofs.Console.Warnings
import Abacus.Proofs.Settings.Mapping
import Abacus.Proofs.Settings.Outcomes
