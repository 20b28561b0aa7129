import PhraseGrammar.Bnf.Document
import PhraseGrammar.Command.Answer
import PhraseGrammar.Command.Options
import PhraseGrammar.Grammar.English
import PhraseGrammar.Language.Enumeration
import PhraseGrammar.Language.Sample
import PhraseGrammar.Normal.Form

namespace PhraseGrammar.Command

/-- What a path leads to: nothing that can be opened, a file, or a directory. -/
inductive Entry where
  | closed (error : Bnf.FileError)
  | file (bytes : List UInt8)
  | directory

abbrev Files := String → Entry

/-- Reads a grammar from a file. A directory can be opened as well, but each attempt to read a line
of it fails, and the failures are collected up to the last line. There is none, so that reading it
does not end and has no result. -/
def readFile (files : Files) (path : String) :
    Option (Except (List (Fault Bnf.ReadError)) Grammar) :=
  match files path with
  | .closed error => some (.error [⟨.inFile path 0, .fileError error⟩])
  | .file bytes => some (Bnf.readDocument path bytes)
  | .directory => none

/-- The grammar that the options name, with the start symbol that it has of its own, or the texts of
all that is wrong with it. -/
def Options.namedGrammar (options : Options) (files : Files) :
    Option (Except (List String) Grammar) :=
  match options.grammarFile with
  | none =>
    some ((Grammar.validate "S" englishProductions).mapError fun fault =>
      [fault.display GrammarError.message])
  | some path =>
    (readFile files path).map fun read =>
      read.mapError fun faults => faults.map (Fault.display Bnf.ReadError.message)

/-- The grammar with the start symbol that is asked for, or the texts of all that is wrong. -/
def Options.loadGrammar (options : Options) (files : Files) :
    Option (Except (List String) Grammar) :=
  (options.namedGrammar files).map fun named =>
    match options.start with
    | none => named
    | some start =>
      named.bind fun g =>
        (g.startingAt start).mapError fun fault => [fault.display GrammarError.message]

/-- The sentences that show what the parser does with the grammar of English. -/
def demoSentences : List String :=
  ["She eats a cake with a fork.", "The cat drinks the beer.", "She eat a cake with a fork.",
  "She eats cake with a fork.", "He cuts the meat in the oven.", "The cat the beer drinks.",
  "She drinks the juice."]

/-- The greatest depth of a random derivation. -/
def sampleDepth : Nat := 12

/-- How often a random derivation that failed is tried again. -/
def sampleRetries : Nat := 99

/-- The first random sentence that comes out, or the last failure. -/
def sampleWithin (g : Grammar) : Nat → Tape → Sample
  | 0, tape => g.sample sampleDepth tape
  | retries + 1, tape =>
    match g.sample sampleDepth tape with
    | (.error _, tape) => sampleWithin g retries tape
    | result => result

/-- A grammar with the parser of its normal form. -/
structure Session where
  source : Grammar
  normal : Grammar
  parser : Parser

def Session.ofGrammar (source : Grammar) : Session :=
  let normal := source.normalize
  ⟨source, normal, .ofGrammar normal⟩

/-- One piece of the program's work. -/
inductive Step where
  | print (text : String)
  | warn (text : String)
  | sample (count : Nat)
  | check (sentence : String)

namespace Session

/-- Said when the normal form has no productions. -/
def warnings (session : Session) : List Step :=
  if session.normal.isEmpty then
    [.warn ("Warning: `" ++ session.source.start
      ++ "` derives no sentence, every input will be rejected\n")]
  else []

/-- The normal form and its terminals. -/
def grammarText (session : Session) : String :=
  session.normal.render ++ "terminals: " ++ " ".intercalate session.normal.terminals ++ "\n"

/-- The sentences up to a length, but for the empty one. -/
def languageText (session : Session) (bound : Nat) : String :=
  unlines (((session.source.sentencesUpTo bound).filter (!·.isEmpty)).map (" ".intercalate ·))

/-- What the options ask for, in the order in which it is done. -/
def steps (session : Session) (options : Options) : List Step :=
  session.warnings
    ++ (if options.showGrammar then [.print session.grammarText] else [])
    ++ (options.lengthBound.toList.map fun bound => .print (session.languageText bound))
    ++ (options.sampleCount.toList.map .sample)
    ++ (options.sentence.toList.map .check)
    ++ (if options.demo then
        demoSentences.flatMap fun s => [.print ("".pushn '-' 72 ++ "\n"), .check s]
      else [])
    ++ (if options.isBatch then []
      else [.print "Type a sentence and press Enter (Ctrl+D to quit):\n"])

end Session

/-- What has been written so far. -/
structure Console where
  output : String
  errors : String

namespace Console

def print (console : Console) (text : String) : Console :=
  { console with output := console.output ++ text }

def warn (console : Console) (text : String) : Console :=
  { console with errors := console.errors ++ text }

/-- Writes a random sentence with the parser's verdict, or why there is none. -/
def writeSample (session : Session) (console : Console) (tape : Tape) : Console :=
  match (sampleWithin session.source sampleRetries tape).1 with
  | .ok tokens =>
    let accepted := (session.parser.parse tokens).accepted
    console.print (" ".intercalate tokens ++ "  [" ++ verdict accepted ++ "]\n")
  | .error cause =>
    console.warn (Fault.display SampleError.message ⟨.inGrammar 0, cause⟩ ++ "\n")

/-- Writes random sentences, each from a tape of its own. -/
def writeSamples (session : Session) (tapes : Nat → Tape) (count : Nat) (console : Console) :
    Console :=
  count.fold (fun i _ console => console.writeSample session (tapes i)) console

/-- Does one piece of work. Every sentence is said to take the same time. -/
def perform (session : Session) (tapes : Nat → Tape) (elapsed : String) (console : Console) :
    Step → Console
  | .print text => console.print text
  | .warn text => console.warn text
  | .sample count => console.writeSamples session tapes count
  | .check sentence => console.print ((session.parser.answer sentence).render elapsed)

end Console

/-- What a line of standard input asks for. -/
inductive Request where
  | unreadable
  | blank
  | sentence (text : String)

/-- A line that is not blank is a sentence without the white space around it. -/
def Request.ofLine : Option String → Request
  | none => .unreadable
  | some line =>
    match trimBlanks line.toList with
    | [] => .blank
    | text => .sentence (String.ofList text)

/-- Said of a line that is not UTF-8. -/
def unreadableMessage : String :=
  "Could not read standard input: " ++ Bnf.FileError.invalidText.text ++ "\n"

/-- What a run leaves behind. -/
structure Outcome where
  exitCode : Nat
  output : String
  errors : String
deriving DecidableEq

def Console.outcome (console : Console) (exitCode : Nat) : Outcome :=
  ⟨exitCode, console.output, console.errors⟩

/-- Answers the sentences of standard input one by one, up to the first line that is not UTF-8. -/
def converse (session : Session) (elapsed : String) : List (Option String) → Console → Outcome
  | [], console => console.outcome 0
  | line :: lines, console =>
    match Request.ofLine line with
    | .unreadable => (console.warn unreadableMessage).outcome 1
    | .blank => converse session elapsed lines console
    | .sentence text =>
      converse session elapsed lines
        (console.print ((session.parser.answer text).render elapsed ++ "\n"))

/-- All that is done with a grammar. The tapes of the random sentences and the time that each
sentence is said to take are given. -/
def serve (source : Grammar) (options : Options) (input : List UInt8) (tapes : Nat → Tape)
    (elapsed : String) : Outcome :=
  let session := Session.ofGrammar source
  let console := (session.steps options).foldl (Console.perform session tapes elapsed) ⟨"", ""⟩
  if options.isBatch then console.outcome 0
  else converse session elapsed (decodedLines input) console

/-- A whole run, if it ends. -/
def run (options : Options) (files : Files) (input : List UInt8) (tapes : Nat → Tape)
    (elapsed : String) : Option Outcome :=
  (options.loadGrammar files).map fun
    | .error messages => ⟨1, "", unlines messages⟩
    | .ok source => serve source options input tapes elapsed

/-- A whole run from its arguments, which ends at once when they name no options. -/
def execute (arguments : List String) (files : Files) (input : List UInt8) (tapes : Nat → Tape)
    (elapsed : String) : Option Outcome :=
  match Options.ofArguments arguments with
  | .error error => some ⟨2, "", error.message ++ "\n"⟩
  | .ok options => run options files input tapes elapsed

end PhraseGrammar.Command
