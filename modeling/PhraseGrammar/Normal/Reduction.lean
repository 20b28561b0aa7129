import PhraseGrammar.Grammar.Saturation

namespace PhraseGrammar

/-- The lists that remain when `count` of the droppable symbols are left out. Of two choices the
one that leaves out an earlier symbol comes first. -/
def omitting (droppable : Symbol → Bool) : Nat → List Symbol → List (List Symbol)
  | 0, right => [right]
  | _ + 1, [] => []
  | count + 1, s :: right =>
    (if droppable s then omitting droppable count right else [])
      ++ (omitting droppable (count + 1) right).map (s :: ·)

/-- The lists that remain when any of the droppable symbols are left out, fewer of them first. -/
def omissions (droppable : Symbol → Bool) (right : List Symbol) : List (List Symbol) :=
  (List.range (right.countP droppable + 1)).flatMap fun count => omitting droppable count right

namespace Grammar

/-- The same start symbol with the productions that pass a test. -/
def keeping (g : Grammar) (test : Production → Bool) : Grammar :=
  ofProductions g.start (g.productions.filter test)

/-- The productions all of whose nonterminals can derive a list of terminals. -/
def productive (g : Grammar) : Grammar :=
  let generating := g.generating
  g.keeping fun p =>
    generating.contains p.left && p.right.all fun s => isTerminal s || generating.contains s

/-- The productions that can be used in deriving a list of terminals from the start symbol. -/
def withoutUseless (g : Grammar) : Grammar :=
  let productive := g.productive
  let reachable := productive.reachable g.start
  productive.keeping fun p => reachable.contains p.left

/-- In place of empty right sides, every way to leave out symbols that derive the empty list. Only
the start symbol may keep an empty right side. -/
def withoutEpsilon (g : Grammar) : Grammar :=
  let nullable := g.nullable
  ofProductions g.start <| g.productions.flatMap fun p =>
    ((omissions (fun s => isNonterminal s && nullable.contains s) p.right).filter
      fun right => !right.isEmpty || p.left == g.start).map fun right => ⟨p.left, right⟩

/-- In place of unit productions, the other right sides of all that a nonterminal can become. -/
def withoutUnits (g : Grammar) : Grammar :=
  ofProductions g.start <| g.nonterminals.flatMap fun a =>
    (g.unitClosure a).flatMap fun b =>
      (g.productions.filter fun p => p.left == b && !p.isUnit).map fun p => ⟨a, p.right⟩

end Grammar

end PhraseGrammar
