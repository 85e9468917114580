import TokenParsing.CommandLine.FileTree
import TokenParsing.Main
import TokenParsing.Proofs.Calculator.Trees
import TokenParsing.Proofs.Calculator.Recognition
import TokenParsing.Proofs.Parser.Outcomes
import TokenParsing.Proofs.Parser.Runs
import TokenParsing.Proofs.Settings.LineGrammar
import TokenParsing.Proofs.Parser.Words
import TokenParsing.Proofs.Settings.Values
import TokenParsing.Proofs.Settings.Lines
import TokenParsing.Proofs.Settings.Recognition
import TokenParsing.Proofs.Parser.Decoration
import TokenParsing.Proofs.Settings.EntryFailures
import TokenParsing.Proofs.LineIndex.Lines
import TokenParsing.Proofs.Settings.Blocks
import TokenParsing.Proofs.Settings.FirstBadLine
import TokenParsing.Proofs.Parser.Built
import TokenParsing.Proofs.Parser.Forward
import TokenParsing.Proofs.Parser.FailureSpans
import TokenParsing.Proofs.Parser.Translation
import TokenParsing.Proofs.Calculator.FirstWrongToken
import TokenParsing.Proofs.Decimal.Reading
import TokenParsing.Proofs.Calculator.Lexemes
import TokenParsing.Proofs.Calculator.Scanning
import TokenParsing.Proofs.Calculator.Reparse
import TokenParsing.Proofs.Parser.Matches
import TokenParsing.Proofs.Calculator.KindsOnly
import TokenParsing.Proofs.Calculator.Substitution
import TokenParsing.Proofs.Parser.ChoiceChains
import TokenParsing.Proofs.Parser.Consuming
import TokenParsing.Proofs.Calculator.CommittedChains
import TokenParsing.Proofs.Calculator.NodeSpans
import TokenParsing.Proofs.Calculator.Recursion
import TokenParsing.Proofs.Calculator.Refusals
import TokenParsing.Proofs.LineIndex.Positions
import TokenParsing.Proofs.LineIndex.Bytes
import TokenParsing.Proofs.LineIndex.Tiling
import TokenParsing.Proofs.LineIndex.Reports
import TokenParsing.Proofs.Parser.Patterns
import TokenParsing.Proofs.Parser.Nesting
import TokenParsing.Proofs.Settings.Integers
import TokenParsing.Proofs.Settings.FirstCharacter
import TokenParsing.Proofs.Settings.EntryLines
import TokenParsing.Proofs.Calculator.LongestNumber
import TokenParsing.Proofs.Parser.Literals
import TokenParsing.Proofs.Parser.OptionalRuns
import TokenParsing.Proofs.Decimal.Intervals
import TokenParsing.Proofs.Decimal.Written
import TokenParsing.Proofs.Decimal.Rendered
import TokenParsing.Proofs.Decimal.Rounding
import TokenParsing.Proofs.Decimal.RoundTrip
import TokenParsing.Proofs.Calculator.ShownTrees
import TokenParsing.Proofs.Parser.Laws
import TokenParsing.Proofs.Parser.LongestRuns
import TokenParsing.Proofs.TokenStream.Derived
