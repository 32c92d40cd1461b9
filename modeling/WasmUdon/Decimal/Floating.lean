import WasmUdon.Decimal.Shortest

/-!
# Text of floating-point numbers

Single and double precision numbers are kept as their bits, so that a signalling NaN stays what it
is. Their text has the fewest digits that read back as the same number.
-/

namespace WasmUdon

/-- The widths of the two fields of a floating-point format. -/
structure FloatFormat where
  fractionBits : Nat
  exponentBits : Nat
  deriving DecidableEq, Repr

/-- Single precision. -/
def FloatFormat.single : FloatFormat := ⟨23, 8⟩

/-- Double precision. -/
def FloatFormat.double : FloatFormat := ⟨52, 11⟩

/-- What the bits of a floating-point number stand for. -/
inductive FloatValue
  | nan
  | infinite (negative : Bool)
  | zero (negative : Bool)
  | finite (negative : Bool) (magnitude : Binary)
  deriving DecidableEq, Repr

/-- The number that bits stand for. -/
def FloatFormat.value (f : FloatFormat) (bits : Nat) : FloatValue :=
  let unit : Nat := 1 <<< f.fractionBits
  let fields : Nat := 1 <<< f.exponentBits
  let fraction := bits % unit
  let field := bits / unit % fields
  let negative := bits / unit / fields % 2 = 1
  let least : Int := 2 - ((fields / 2 : Nat) : Int) - f.fractionBits
  if field = fields - 1 then
    if fraction = 0 then .infinite negative else .nan
  else if field = 0 then
    if fraction = 0 then .zero negative else .finite negative ⟨fraction, least, false⟩
  else
    .finite negative
      ⟨unit + fraction, least + field - 1, fraction = 0 ∧ 1 < field⟩

/-- The choices of a text form for decimals: which powers of ten of the first digit are written
positionally, and how many digits an exponent has at least. -/
structure DecimalStyle where
  leastPositional : Int
  firstScientific : Int
  exponentDigits : Nat
  deriving DecidableEq, Repr

/-- Numbers from `0.0001` to below a million are written positionally, and exponents have two
digits or more. -/
def DecimalStyle.compact : DecimalStyle := ⟨-4, 6, 2⟩

/-- Digits with a point after the first `whole` of them, filled with zeros. -/
def positional (digits : List Char) (whole : Nat) : String :=
  let front := digits.take whole ++ List.replicate (whole - digits.length) '0'
  let back := digits.drop whole
  String.ofList (if back.isEmpty then front else front ++ '.' :: back)

/-- The text of a decimal in a style. -/
def Decimal.format (style : DecimalStyle) (d : Decimal) : String :=
  if d.exponent < style.leastPositional ∨ style.firstScientific ≤ d.exponent then
    let exponent := (Nat.toDigits 10 d.exponent.natAbs)
    positional d.digits 1 ++ (if d.exponent < 0 then "e-" else "e+")
      ++ String.ofList (List.replicate (style.exponentDigits - exponent.length) '0' ++ exponent)
  else if d.exponent < 0 then
    "0." ++ String.ofList (List.replicate (d.exponent.natAbs - 1) '0' ++ d.digits)
  else positional d.digits (d.exponent.toNat + 1)

/-- The text of a floating-point number: the fewest digits that read back. -/
def FloatValue.format (style : DecimalStyle) : FloatValue → String
  | .nan => "NaN"
  | .infinite false => "+Inf"
  | .infinite true => "-Inf"
  | .zero false => "0"
  | .zero true => "-0"
  | .finite false magnitude => magnitude.shortest.format style
  | .finite true magnitude => "-" ++ magnitude.shortest.format style

/-- The text of a single precision number. -/
def formatSingle (bits : UInt32) : String :=
  (FloatFormat.single.value bits.toNat).format .compact

/-- The text of a double precision number. -/
def formatDouble (bits : UInt64) : String :=
  (FloatFormat.double.value bits.toNat).format .compact

end WasmUdon
