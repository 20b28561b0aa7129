import PhraseGrammar.Chart.Derivation
import PhraseGrammar.Grammar.WellFormed
import PhraseGrammar.Language.Derivation
import PhraseGrammar.Main
import PhraseGrammar.Proofs.Grammar.Saturation
import PhraseGrammar.Proofs.Normal.Useless
import PhraseGrammar.Proofs.Normal.Epsilon
import PhraseGrammar.Proofs.Grammar.UnitClosure
import PhraseGrammar.Proofs.Grammar.Passes
import PhraseGrammar.Proofs.Normal.Unit
import PhraseGrammar.Proofs.Normal.FreshName
import PhraseGrammar.Proofs.Normal.Extension
import PhraseGrammar.Proofs.Normal.Preterminal
import PhraseGrammar.Proofs.Normal.Chain
import PhraseGrammar.Proofs.Normal.Start
import PhraseGrammar.Proofs.Normal.Form
import PhraseGrammar.Proofs.Chart.Cell
import PhraseGrammar.Proofs.Chart.Candidates
import PhraseGrammar.Proofs.Chart.Filling
import PhraseGrammar.Proofs.Chart.Exactness
import PhraseGrammar.Proofs.Chart.Recognition
import PhraseGrammar.Proofs.Language.Enumeration
import PhraseGrammar.Proofs.Agreement
import PhraseGrammar.Proofs.Normal.Idempotence
import PhraseGrammar.Proofs.Bnf.Document
import PhraseGrammar.Proofs.Bnf.Lexeme
import PhraseGrammar.Proofs.Bnf.RoundTrip
import PhraseGrammar.Proofs.Ascending
import PhraseGrammar.Proofs.Language.Stability
import PhraseGrammar.Proofs.Language.Sweep
import PhraseGrammar.Proofs.Normal.Stages
import PhraseGrammar.Proofs.Normal.Introduced
import PhraseGrammar.Proofs.Normal.NameSearch
import PhraseGrammar.Prepared.Basic
import PhraseGrammar.Prepared.Operation
import PhraseGrammar.Proofs.Prepared.Basic
import PhraseGrammar.Proofs.Prepared.Operation
import PhraseGrammar.Language.SyntaxTree
import PhraseGrammar.Proofs.Language.Tape
import PhraseGrammar.Proofs.Language.Sampling
import PhraseGrammar.Proofs.Bnf.Completeness
import PhraseGrammar.Proofs.Bnf.InternalError
import PhraseGrammar.Proofs.Chart.Sorted
import PhraseGrammar.Proofs.Chart.Canonical
import PhraseGrammar.Proofs.Normal.Separation
import PhraseGrammar.Proofs.Normal.Binarization
import PhraseGrammar.Proofs.Language.DepthLimit
import PhraseGrammar.Proofs.Bnf.Spelling
import PhraseGrammar.Proofs.Bnf.Mistake
import PhraseGrammar.Proofs.Chart.Table
import PhraseGrammar.Proofs.Chart.Brackets
import PhraseGrammar.Proofs.Text.Tokens
import PhraseGrammar.Proofs.Command.Warning
import PhraseGrammar.Proofs.Command.Failure
