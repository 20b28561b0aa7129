namespace PhraseGrammar

/-- The value of a digit from `0` to `9`. -/
def digitValue? (c : Char) : Option Nat :=
  if c.isDigit then some (c.toNat - '0'.toNat) else none

/-- The number that a list of digits continues. -/
def continueDigits (value : Nat) : List Char → Option Nat
  | [] => some value
  | c :: digits =>
    match digitValue? c with
    | none => none
    | some digit => continueDigits (10 * value + digit) digits

/-- The number that one or more digits write. -/
def decimal? (digits : List Char) : Option Nat :=
  if digits.isEmpty then none else continueDigits 0 digits

/-- A number below the bound, perhaps after a plus sign. -/
def decimalBelow? (bound : Nat) (text : String) : Option Nat :=
  let digits := match text.toList with
    | '+' :: digits => digits
    | digits => digits
  (decimal? digits).filter (· < bound)

/-- A number below the bound, perhaps after a plus sign, or a zero after a minus sign. -/
def signedDecimalBelow? (bound : Nat) (text : String) : Option Nat :=
  match text.toList with
  | '-' :: digits => (decimal? digits).filter (· == 0)
  | _ => decimalBelow? bound text

/-- A time in milliseconds with three decimals, rounded to the nearest. -/
def milliseconds (nanoseconds : Nat) : String :=
  let micros := (nanoseconds + 500) / 1000
  let rest := (micros % 1000).repr
  (micros / 1000).repr ++ "." ++ "".pushn '0' (3 - rest.length) ++ rest

end PhraseGrammar
