namespace PhraseGrammar

/-- Where a grammar was written down: in a file, or in the program itself. -/
inductive Origin where
  | file (path : String)
  | builtIn
deriving DecidableEq

/-- A line of a file, or the number of a production when there is no file. Both count from one,
and zero stands for the whole grammar. -/
structure Location where
  origin : Origin
  line : Nat
deriving DecidableEq

def Location.inFile (path : String) (line : Nat) : Location :=
  ⟨.file path, line⟩

def Location.inGrammar (production : Nat) : Location :=
  ⟨.builtIn, production⟩

def Location.render : Location → String
  | ⟨.file path, 0⟩ => path
  | ⟨.file path, line⟩ => path ++ ":" ++ line.repr
  | ⟨.builtIn, 0⟩ => "grammar"
  | ⟨.builtIn, production⟩ => "grammar, production " ++ production.repr

/-- A problem together with the place it was found at. -/
structure Fault (Cause : Type) where
  location : Location
  cause : Cause
deriving DecidableEq

/-- The text shown on a terminal: the place in bold red, then the message in bold. -/
def Fault.display {Cause : Type} (message : Cause → String) (fault : Fault Cause) : String :=
  "\x1b[31;49;1m[" ++ fault.location.render ++ "]\x1b[39;49;1m  " ++ message fault.cause
    ++ "\x1b[0m"

end PhraseGrammar
