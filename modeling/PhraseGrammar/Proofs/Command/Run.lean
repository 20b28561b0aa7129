import PhraseGrammar.Command.Run
import PhraseGrammar.Proofs.Pointwise

namespace PhraseGrammar.Command

variable {options : Options} {files : Files} {source : Grammar} {session : Session}
  {lines : List (Option String)} {input : List UInt8} {tapes : Nat → Tape} {elapsed : String}

theorem loadGrammar_of_file {path : String} {bytes : List UInt8}
    (hf : files path = .file bytes) (hr : (Bnf.readDocument path bytes).toOption = some source) :
    ({ grammarFile := some path } : Options).loadGrammar files = some (.ok source) := by
  have hg : readFile files path = some (.ok source) := by
    rw [readFile, hf]
    exact congrArg some (eq_ok_of_toOption hr)
  simp only [Options.loadGrammar, Options.namedGrammar, hg, Option.map_some]
  rfl

theorem run_of_ok (h : options.loadGrammar files = some (.ok source)) :
    run options files input tapes elapsed = some (serve source options input tapes elapsed) := by
  rw [run, h]
  rfl

/-- What some pieces of work, done one after the other, have written. -/
def consoleAfter (session : Session) (tapes : Nat → Tape) (elapsed : String) (steps : List Step) :
    Console :=
  steps.foldl (Console.perform session tapes elapsed) ⟨"", ""⟩

theorem consoleAfter_append (steps steps' : List Step) :
    consoleAfter session tapes elapsed (steps ++ steps') =
      steps'.foldl (Console.perform session tapes elapsed)
        (consoleAfter session tapes elapsed steps) :=
  List.foldl_append

theorem serve_of_isBatch (h : options.isBatch = true) :
    serve source options input tapes elapsed = (consoleAfter (.ofGrammar source) tapes elapsed
      ((Session.ofGrammar source).steps options)).outcome 0 :=
  if_pos h

theorem serve_of_not_isBatch (h : options.isBatch = false) :
    serve source options input tapes elapsed = converse (.ofGrammar source) elapsed
      (decodedLines input) (consoleAfter (.ofGrammar source) tapes elapsed
        ((Session.ofGrammar source).steps options)) :=
  if_neg (Bool.not_eq_true _ ▸ h)

/-- A line that can be read leads to the next one. -/
theorem exists_converse_some (session : Session) (elapsed line : String) (console : Console) :
    ∃ console', ∀ lines, converse session elapsed (some line :: lines) console =
      converse session elapsed lines console' := by
  simp only [converse, Request.ofLine]
  cases trimBlanks line.toList with
  | nil => exact ⟨console, fun _ => rfl⟩
  | cons c text => exact ⟨_, fun _ => rfl⟩

/-- Lines that can be read lead to those after them. -/
theorem exists_converse_append (h : none ∉ lines) (console : Console) :
    ∃ console', ∀ later, converse session elapsed (lines ++ later) console =
      converse session elapsed later console' := by
  induction lines generalizing console with
  | nil => exact ⟨console, fun _ => rfl⟩
  | cons line lines ih =>
    rw [List.mem_cons, not_or] at h
    obtain ⟨text, rfl⟩ := Option.ne_none_iff_exists'.1 (Ne.symm h.1)
    obtain ⟨next, hn⟩ := exists_converse_some session elapsed text console
    obtain ⟨last, hl⟩ := ih h.2 next
    exact ⟨last, fun later => (hn _).trans (hl later)⟩

end PhraseGrammar.Command
