import PhraseGrammar.Chart.Parser
import PhraseGrammar.Text.Tokens
import PhraseGrammar.Text.Quoted

namespace PhraseGrammar

/-- The answer to a sentence: its tokens and their chart. -/
structure Answer where
  sentence : String
  tokens : List Token
  parse : Parse

def Parser.answer (parser : Parser) (sentence : String) : Answer :=
  let tokens := tokenize sentence
  ⟨sentence, tokens, parser.parse tokens⟩

def verdict (accepted : Bool) : String :=
  if accepted then "YES" else "NO"

/-- Writes lines one below the other. -/
def unlines (lines : List String) : String :=
  String.join (lines.map (· ++ "\n"))

namespace Answer

/-- The line that tells the verdict, with the time that the parser took in milliseconds. -/
def resultLine (answer : Answer) (elapsed : String) : String :=
  if answer.tokens.isEmpty then "Result: NO  |  No tokens"
  else "Result: " ++ verdict answer.parse.accepted ++ "  |  Time: " ++ elapsed ++ " ms"

/-- The first derivation, with the number of all of them. -/
def treeLines (answer : Answer) : List String :=
  match answer.parse.root? with
  | none => []
  | some tree =>
    ["Parse tree (1 of " ++ answer.parse.derivations.size.repr ++ "):", tree.render]

def render (answer : Answer) (elapsed : String) : String :=
  unlines (["Input:  " ++ answer.sentence, "Tokens: " ++ quotedList answer.tokens,
    answer.resultLine elapsed] ++ answer.treeLines)

end Answer

end PhraseGrammar
