import TypeNotation.Error.Diagnostic
import TypeNotation.Parser.Reading
import TypeNotation.Text.Width
import TypeNotation.Token.Listing
import TypeNotation.Token.Scanner
import TypeNotation.TypeExpr.Canonical
import TypeNotation.TypeExpr.Equality
import TypeNotation.TypeExpr.Json
import TypeNotation.Json.AnyValue
import TypeNotation.TypeExpr.JsonReader
import TypeNotation.TypeExpr.Outline
import TypeNotation.NameMap.Json
import TypeNotation.TypeScript.Rendering
import TypeNotation.Main
import TypeNotation.Proofs.LeavesOut
import TypeNotation.Proofs.Grammar.Derivation
import TypeNotation.Proofs.Grammar.Productions
import TypeNotation.Proofs.Grammar.Acceptance
import TypeNotation.Proofs.Grammar.Annotation
import TypeNotation.Proofs.Grammar.ViablePrefix
import TypeNotation.Proofs.Lexical.Numbers
import TypeNotation.Proofs.Lexical.Strings
import TypeNotation.Proofs.Lexical.Scans
import TypeNotation.Proofs.Lexical.Patterns
import TypeNotation.Proofs.Lexical.Stream
import TypeNotation.Proofs.Lexical.MaximalMunch
import TypeNotation.Proofs.Lexical.Rollback
import TypeNotation.Proofs.Lexical.Speculation
import TypeNotation.Proofs.Lexical.Spellings
import TypeNotation.Proofs.Lexical.Escapes
import TypeNotation.Proofs.Lexical.DecodingRules
import TypeNotation.Proofs.Lexical.ClosingQuotes
import TypeNotation.Proofs.Grammar.Separators
import TypeNotation.Proofs.Grammar.Respacing
import TypeNotation.Proofs.Grammar.Places
import TypeNotation.Proofs.Grammar.Relocation
import TypeNotation.Proofs.Grammar.Resumption
import TypeNotation.Proofs.Grammar.ParamStarts
import TypeNotation.Proofs.Grammar.ParamNotes
import TypeNotation.Proofs.Canonical.WellFormed
import TypeNotation.Proofs.Canonical.RoundTrip
import TypeNotation.Proofs.Json.Strings
import TypeNotation.Proofs.Json.Texts
import TypeNotation.Proofs.Json.Decoding
import TypeNotation.Proofs.Json.TypeRoundTrip
import TypeNotation.Proofs.Report.Lines
import TypeNotation.Proofs.Check
import TypeNotation.Proofs.Canonical.Files
import TypeNotation.Proofs.Lexical.Listings
import TypeNotation.Proofs.TypeScript.Syntax
import TypeNotation.Proofs.TypeScript.Unambiguity
import TypeNotation.Proofs.TypeScript.Translation
import TypeNotation.Proofs.TypeScript.Legibility
import TypeNotation.Proofs.TypeScript.Collapse
import TypeNotation.Proofs.TypeScript.WrittenNames
import TypeNotation.Proofs.TypeScript.Imports
import TypeNotation.Proofs.TypeScript.ParameterNames
import TypeNotation.Proofs.TypeScript.ImportLines
import TypeNotation.Proofs.NameMap.Writes
import TypeNotation.Proofs.NameMap.Loading
import TypeNotation.Proofs.NameMap.History
import TypeNotation.Proofs.NameMap.RoundTrip
import TypeNotation.Proofs.Report.SkippedLines
import TypeNotation.Proofs.Command.Exits
import TypeNotation.Proofs.Lexical.Progress
import TypeNotation.Proofs.Grammar.Descent
import TypeNotation.Proofs.Grammar.OnDemand
import TypeNotation.Proofs.Grammar.Termination
