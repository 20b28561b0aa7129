import PhraseGrammar.Symbol
import PhraseGrammar.Text.Decimal

namespace PhraseGrammar.Command

/-- What the program is asked to do. -/
structure Options where
  grammarFile : Option String := none
  start : Option Symbol := none
  sentence : Option String := none
  demo : Bool := false
  showGrammar : Bool := false
  sampleCount : Option Nat := none
  lengthBound : Option Nat := none
deriving DecidableEq

/-- Why the arguments name no options. -/
inductive UsageError where
  | unexpected (argument : String)
  | missingValue (option : String)
  | invalidNumber (option value : String)
  | repeated (option : String)
deriving DecidableEq

def UsageError.message : UsageError → String
  | .unexpected argument => "error: unexpected argument '" ++ argument ++ "' found"
  | .missingValue option =>
    "error: a value is required for '" ++ option ++ "' but none was supplied"
  | .invalidNumber option value =>
    "error: invalid value '" ++ value ++ "' for '" ++ option ++ "': not a number in range"
  | .repeated option => "error: the argument '" ++ option ++ "' cannot be used multiple times"

/-- The options by their long names. -/
inductive OptionName where
  | grammar
  | start
  | sentence
  | demo
  | showGrammar
  | sample
  | enumerate
deriving DecidableEq

namespace OptionName

def ofLong? : String → Option OptionName
  | "grammar" => some .grammar
  | "start" => some .start
  | "sentence" => some .sentence
  | "demo" => some .demo
  | "show-grammar" => some .showGrammar
  | "sample" => some .sample
  | "enumerate" => some .enumerate
  | _ => none

def ofShort? : Char → Option OptionName
  | 'g' => some .grammar
  | 's' => some .start
  | 'n' => some .sample
  | _ => none

def render : OptionName → String
  | .grammar => "--grammar"
  | .start => "--start"
  | .sentence => "--sentence"
  | .demo => "--demo"
  | .showGrammar => "--show-grammar"
  | .sample => "--sample"
  | .enumerate => "--enumerate"

/-- All options but two need a value. -/
def takesValue : OptionName → Bool
  | .demo => false
  | .showGrammar => false
  | _ => true

end OptionName

/-- An option, with the value that is written in the same argument. -/
structure OptionArgument where
  name : OptionName
  value : Option String

/-- Reads `--name`, `--name=value`, `-n`, `-n=value` or `-nvalue`. -/
def OptionArgument.parse? (argument : String) : Option OptionArgument :=
  match argument.toList with
  | '-' :: '-' :: text =>
    (OptionName.ofLong? (String.ofList (text.takeWhile (· != '=')))).map fun name =>
      match text.dropWhile (· != '=') with
      | [] => ⟨name, none⟩
      | _ :: value => ⟨name, some (String.ofList value)⟩
  | '-' :: letter :: text =>
    (OptionName.ofShort? letter).map fun name =>
      match text with
      | [] => ⟨name, none⟩
      | '=' :: value => ⟨name, some (String.ofList value)⟩
      | value => ⟨name, some (String.ofList value)⟩
  | _ => none

/-- An argument that could be an option is not taken as the value of the option before it. -/
def looksLikeOption (argument : String) : Bool :=
  match argument.toList with
  | '-' :: _ :: _ => true
  | _ => false

namespace Options

/-- Whether an option has been given already. -/
def has (options : Options) : OptionName → Bool
  | .grammar => options.grammarFile.isSome
  | .start => options.start.isSome
  | .sentence => options.sentence.isSome
  | .demo => options.demo
  | .showGrammar => options.showGrammar
  | .sample => options.sampleCount.isSome
  | .enumerate => options.lengthBound.isSome

/-- The value of an option, read as a number. -/
def number (name : OptionName) (read? : String → Option Nat) (value : String) :
    Except UsageError Nat :=
  match read? value with
  | some n => .ok n
  | none => .error (.invalidNumber name.render value)

/-- Adds an option with its value, which is not looked at when the option takes none. The name of a
file cannot be empty. The number of random sentences may carry either sign, the bound on the length
a plus sign only. -/
def set (options : Options) (name : OptionName) (value : String) : Except UsageError Options :=
  match name with
  | .grammar =>
    if value.isEmpty then .error (.missingValue name.render)
    else .ok { options with grammarFile := some value }
  | .start => .ok { options with start := some value }
  | .sentence => .ok { options with sentence := some value }
  | .demo => .ok { options with demo := true }
  | .showGrammar => .ok { options with showGrammar := true }
  | .sample =>
    (number name (signedDecimalBelow? UInt32.size) value).map fun n =>
      { options with sampleCount := some n }
  | .enumerate =>
    (number name (decimalBelow? UInt64.size) value).map fun n =>
      { options with lengthBound := some n }

/-- Reads the arguments from left to right, the first of them as the value of the waiting option if
there is one. No option may be given twice. After `--` there is nothing more to give. -/
def readArguments (options : Options) (waiting : Option OptionName) :
    List String → Except UsageError Options
  | [] =>
    match waiting with
    | none => .ok options
    | some name => .error (.missingValue name.render)
  | text :: rest =>
    match waiting with
    | some name =>
      if looksLikeOption text then .error (.missingValue name.render)
      else (options.set name text).bind fun options => options.readArguments none rest
    | none =>
      if text = "--" then
        match rest.head? with
        | none => .ok options
        | some extra => .error (.unexpected extra)
      else
        match OptionArgument.parse? text with
        | none => .error (.unexpected text)
        | some argument =>
          if options.has argument.name then .error (.repeated argument.name.render)
          else
            match argument.name.takesValue, argument.value with
            | true, none => options.readArguments (some argument.name) rest
            | false, some _ => .error (.unexpected text)
            | _, value =>
              (options.set argument.name (value.getD "")).bind fun options =>
                options.readArguments none rest

def ofArguments (arguments : List String) : Except UsageError Options :=
  readArguments {} none arguments

/-- Whether something is asked for that needs no standard input. -/
def isBatch (options : Options) : Bool :=
  options.showGrammar || options.lengthBound.isSome || options.sampleCount.isSome
    || options.sentence.isSome || options.demo

end Options

end PhraseGrammar.Command
