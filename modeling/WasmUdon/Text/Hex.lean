/-!
# Hexadecimal digits

Hexadecimal numbers in messages and operands, padded with zeros to a least width.
-/

namespace WasmUdon

/-- Digits padded with zeros in front to a least width. -/
def zeroPad (width : Nat) (digits : List Char) : List Char :=
  List.replicate (width - digits.length) '0' ++ digits

/-- Lower-case hexadecimal digits, at least `width` of them. -/
def hex (width n : Nat) : String := String.ofList (zeroPad width (Nat.toDigits 16 n))

/-- Upper-case hexadecimal digits, at least `width` of them. -/
def hexUpper (width n : Nat) : String :=
  String.ofList ((zeroPad width (Nat.toDigits 16 n)).map Char.toUpper)

end WasmUdon
