import PhraseGrammar.Grammar.Basic

namespace PhraseGrammar

/-- Adds the consequences of what is known until nothing new comes, for at most `limit` rounds. -/
def closeUnder (consequences : SymbolSet → List Symbol) : Nat → SymbolSet → SymbolSet
  | 0, known => known
  | limit + 1, known =>
    let next := known.insertMany (consequences known)
    if next.size = known.size then known else closeUnder consequences limit next

/-- The left sides of the productions whose right sides pass a test on symbols. -/
def leftsWithAll (productions : List Production) (passes : Symbol → Bool) : List Symbol :=
  (productions.filter (·.right.all passes)).map (·.left)

/-- The nonterminals on the right sides of the productions of the given ones. -/
def nonterminalsBelow (productions : List Production) (known : SymbolSet) : List Symbol :=
  (productions.filter fun p => known.contains p.left).flatMap (·.right.filter isNonterminal)

/-- The nonterminals that can take a symbol's place alone, by one production. -/
def unitTargets (productions : List Production) (symbol : Symbol) : List Symbol :=
  (productions.filter fun p => p.left == symbol && p.isUnit).flatMap (·.right)

/-- Takes the last found symbol off the stack, and puts those of its unit targets there that were
not found before. Each of at most `limit` rounds takes one symbol. -/
def followUnits (productions : List Production) :
    Nat → List Symbol → List Symbol → List Symbol
  | 0, _, found => found
  | _ + 1, [], found => found
  | limit + 1, symbol :: stack, found =>
    let new := ((unitTargets productions symbol).filter (!found.contains ·)).eraseDups
    followUnits productions limit (new.reverse ++ stack) (found ++ new)

namespace Grammar

/-- The nonterminals from which some list of terminals can be derived. -/
def generating (g : Grammar) : SymbolSet :=
  closeUnder (fun known => leftsWithAll g.productions fun s => isTerminal s || known.contains s)
    g.productions.length ∅

/-- The nonterminals from which the empty list can be derived. -/
def nullable (g : Grammar) : SymbolSet :=
  closeUnder (fun known => leftsWithAll g.productions fun s => isNonterminal s && known.contains s)
    g.productions.length ∅

/-- A symbol with the nonterminals that can turn up in lists derived from it. -/
def reachable (g : Grammar) (symbol : Symbol) : SymbolSet :=
  closeUnder (nonterminalsBelow g.productions) (g.productions.flatMap (·.right)).length
    (.ofList [symbol])

/-- A symbol with the nonterminals that it can become by unit productions alone. The last found
symbol is always followed first. -/
def unitClosure (g : Grammar) (symbol : Symbol) : List Symbol :=
  followUnits g.productions (g.productions.length + 1) [symbol] [symbol]

end Grammar

end PhraseGrammar
