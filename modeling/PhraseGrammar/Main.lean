import PhraseGrammar.Command.Run

namespace PhraseGrammar.Command

/-- What there is at a path that the system will not read. -/
def entryOf : IO.Error → Entry
  | .noFileOrDirectory .. => .closed .missing
  | .permissionDenied .. => .closed ⟨.permissionDenied, "Permission denied (os error 13)"⟩
  | .inappropriateType _ code _ => if code = 21 then .directory else .closed .notADirectory
  | .invalidArgument .. => .closed .nameTooLong
  | error => .closed ⟨.other, toString error⟩

/-- Reads the one file that the options name. -/
def filesOf (options : Options) : IO Files := do
  match options.grammarFile with
  | none => return fun _ => .closed .missing
  | some path =>
    try
      let bytes ← IO.FS.readBinFile path
      return fun _ => .file bytes.toList
    catch error => return fun _ => entryOf error

/-- Writes what was added to a console, and forgets it. -/
def flush (console : Console) : IO Unit := do
  let output ← IO.getStdout
  output.putStr console.output
  output.flush
  (← IO.getStderr).putStr console.errors

/-- Answers a sentence and tells the time that this took. -/
def check (session : Session) (sentence : String) : IO String := do
  let before ← IO.monoNanosNow
  let answer ← IO.lazyPure fun _ => session.parser.answer sentence
  let after ← IO.monoNanosNow
  return answer.render (milliseconds (after - before))

/-- Does one piece of work at once. -/
def perform (session : Session) (tapes : Nat → Tape) : Step → IO Unit
  | .check sentence => do flush ⟨← check session sentence, ""⟩
  | .sample count => do
    for i in [0:count] do
      flush (Console.writeSample session ⟨"", ""⟩ (tapes i))
  | step => flush (Console.perform session tapes "" ⟨"", ""⟩ step)

/-- Answers one line of standard input, and tells whether to go on. -/
def respond (session : Session) (line : Option String) : IO Bool := do
  match Request.ofLine line with
  | .unreadable =>
    flush ⟨"", unreadableMessage⟩
    return false
  | .blank => return true
  | .sentence text =>
    flush ⟨(← check session text) ++ "\n", ""⟩
    return true

/-- Answers the lines that are complete, reads on, and ends with standard input. -/
partial def converseOn (session : Session) (input : IO.FS.Stream) (unread : List UInt8) :
    IO UInt32 := do
  if unread.contains lineFeed then
    let line := unread.takeWhile (· != lineFeed) ++ [lineFeed]
    for text in decodedLines line do
      unless ← respond session text do return 1
    converseOn session input (unread.drop line.length)
  else
    let chunk ← input.read 4096
    if chunk.isEmpty then
      for text in decodedLines unread do
        unless ← respond session text do return 1
      return 0
    else converseOn session input (unread ++ chunk.toList)

/-- A run that has no end. -/
partial def goOnForEver : IO UInt32 := do
  IO.sleep 1000
  goOnForEver

end PhraseGrammar.Command

open PhraseGrammar PhraseGrammar.Command

def main (arguments : List String) : IO UInt32 := do
  match Options.ofArguments arguments with
  | .error error =>
    IO.eprintln error.message
    return 2
  | .ok options =>
    match options.loadGrammar (← filesOf options) with
    | none => goOnForEver
    | some (.error messages) =>
      IO.eprint (unlines messages)
      return 1
    | some (.ok source) =>
      let session := Session.ofGrammar source
      let seed ← IO.rand 0 (UInt64.size - 1)
      for step in session.steps options do
        perform session (Tape.ofSeed seed.toUInt64) step
      if options.isBatch then return 0
      else converseOn session (← IO.getStdin) []
