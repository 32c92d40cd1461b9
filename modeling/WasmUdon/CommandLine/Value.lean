import WasmUdon.Error

/-!
# Values of flags

A number is written with an optional sign and in the base that its first characters announce: `0x`
for sixteen, `0o` or `0` for eight, `0b` for two, else ten. Underscores may stand between digits
and behind the announcement of the base. A number outside 64 bits is refused as soon as its digits
exceed 64 bits without sign, even if something that is no digit follows.
-/

namespace WasmUdon

/-- Why the value of a flag could not be read. -/
inductive ValueFault
  | malformed
  | outOfRange
  deriving DecidableEq, Repr

/-- The text of a fault. -/
def ValueFault.message : ValueFault → String
  | .malformed => "invalid syntax"
  | .outOfRange => "value out of range"

/-- The value of a digit or letter. -/
def digitValue? (c : Char) : Option Nat :=
  if c.isDigit then some (c.toNat - 48)
  else if c.isLower then some (c.toNat - 87)
  else if c.isUpper then some (c.toNat - 55)
  else none

/-- The base of a number and what follows its announcement. -/
def splitBase : List Char → Nat × List Char
  | '0' :: c :: d :: rest =>
    match c.toLower with
    | 'b' => (2, d :: rest)
    | 'o' => (8, d :: rest)
    | 'x' => (16, d :: rest)
    | _ => (8, c :: d :: rest)
  | '0' :: rest => (8, rest)
  | cs => (10, cs)

/-- The value of digits in a base, `acc` being the value of those before; underscores are passed
over. -/
def readDigits (base : Nat) : (acc : Nat) → List Char → Except ValueFault Nat
  | acc, [] => .ok acc
  | acc, c :: rest =>
    if c = '_' then readDigits base acc rest
    else
      match digitValue? c with
      | none => .error .malformed
      | some d =>
        if base ≤ d then .error .malformed
        else if 1 <<< 64 ≤ acc * base + d then .error .outOfRange
        else readDigits base (acc * base + d) rest

/-- Whether every underscore stands between two digits; `afterDigit` tells whether a digit stands
in front. -/
def underscoresFit : (afterDigit : Bool) → List Char → Bool
  | afterDigit, [] => afterDigit
  | afterDigit, c :: rest =>
    if c = '_' then afterDigit && underscoresFit false rest else underscoresFit true rest

/-- The value of a number without sign. -/
def readMagnitude (cs : List Char) : Except ValueFault Nat :=
  if cs.isEmpty then .error .malformed
  else
    let (base, digits) := splitBase cs
    match readDigits base 0 digits with
    | .error fault => .error fault
    | .ok n =>
      if digits.contains '_' ∧ !underscoresFit (base ≠ 10) digits then .error .malformed else .ok n

/-- The value of a number. -/
def readInteger (s : String) : Except ValueFault Int :=
  let signed (isNegative : Bool) (cs : List Char) : Except ValueFault Int :=
    match readMagnitude cs with
    | .error fault => .error fault
    | .ok n =>
      if isNegative then if 1 <<< 63 < n then .error .outOfRange else .ok (-(n : Int))
      else if 1 <<< 63 ≤ n then .error .outOfRange
      else .ok n
  match s.toList with
  | '+' :: rest => signed false rest
  | '-' :: rest => signed true rest
  | cs => signed false cs

/-- The value of a switch. -/
def readSwitch (s : String) : Except ValueFault Bool :=
  if s ∈ ["1", "t", "T", "TRUE", "true", "True"] then .ok true
  else if s ∈ ["0", "f", "F", "FALSE", "false", "False"] then .ok false
  else .error .malformed

end WasmUdon
