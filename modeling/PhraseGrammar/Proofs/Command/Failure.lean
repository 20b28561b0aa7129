import PhraseGrammar.Proofs.Bnf.Document
import PhraseGrammar.Proofs.Command.Run
import PhraseGrammar.Proofs.Grammar.Symbols
import PhraseGrammar.Proofs.Pointwise
import PhraseGrammar.Proofs.Text.Lines

namespace PhraseGrammar

variable {g : Grammar} {start : Symbol}

namespace Grammar

end Grammar

namespace Command

variable {options : Options} {files : Files} {source : Grammar} {session : Session}
  {lines later : List (Option String)} {input before : List UInt8} {tapes : Nat → Tape}
  {elapsed : String} {outcome : Outcome}

namespace Options

end Options

end Command

end PhraseGrammar
