import PhraseGrammar.Grammar.Basic

namespace PhraseGrammar.Bnf

/-- The kinds of trouble with a file that are told apart. -/
inductive FileErrorKind where
  | notFound
  | permissionDenied
  | invalidData
  | other
deriving DecidableEq

/-- Trouble with a file, with the system's words for it. -/
structure FileError where
  kind : FileErrorKind
  text : String

/-- Two file errors count as the same when they are of one kind, whatever their texts. -/
instance : BEq FileError :=
  ⟨fun a b => a.kind == b.kind⟩

def FileError.missing : FileError :=
  ⟨.notFound, "No such file or directory (os error 2)"⟩

/-- A file stands in the path where a directory is needed. -/
def FileError.notADirectory : FileError :=
  ⟨.other, "Not a directory (os error 20)"⟩

def FileError.nameTooLong : FileError :=
  ⟨.other, "File name too long (os error 36)"⟩

def FileError.invalidText : FileError :=
  ⟨.invalidData, "stream did not contain valid UTF-8"⟩

/-- Why a rule file is no grammar. Unsplit alternatives and an unexpected blank line are mistakes of
the reader and not of the file. -/
inductive ReadError where
  | missingEquals
  | unexpectedEquals
  | missingNonterminal
  | unmatchedQuote
  | emptyAlternative
  | unquotedTerminal (word : String)
  | quotedNonterminal (word : String)
  | undefinedNonterminal (symbol : Symbol)
  | noRules
  | unsplitAlternatives
  | unexpectedBlankLine
  | invalidGrammar (cause : GrammarError)
  | fileError (error : FileError)
deriving BEq

def ReadError.message : ReadError → String
  | .missingEquals => "Expected `=` after nonterminal"
  | .unexpectedEquals => "Unexpected `=` encountered"
  | .missingNonterminal => "Tried to define something other than a nonterminal"
  | .unmatchedQuote => "Unmatched quotes"
  | .emptyAlternative => "Empty alternative (write \"\" for the empty string)"
  | .unquotedTerminal word =>
    "`" ++ word ++ "` does not start upper-case; quote it to make it a terminal"
  | .quotedNonterminal word =>
    "Terminal \"" ++ word ++ "\" starts upper-case and would be read as a nonterminal"
  | .undefinedNonterminal symbol => "Could not find definition for `" ++ symbol ++ "`"
  | .noRules => "No rules found"
  | .unsplitAlternatives =>
    "Rewrite was not fully split (this is a problem with the reader, not the grammar)"
  | .unexpectedBlankLine =>
    "Blank line encountered in rule reader (this is a problem with the reader, not the grammar)"
  | .invalidGrammar cause => cause.message
  | .fileError error => "File error: " ++ error.text

end PhraseGrammar.Bnf
