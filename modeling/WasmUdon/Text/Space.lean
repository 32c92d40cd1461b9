import WasmUdon.Text.Utf8

/-!
# Spaces

The characters with the Unicode property White_Space, and text without them at its two ends.
-/

namespace WasmUdon

/-- Whether a character is white space. -/
def isSpace (c : Char) : Bool :=
  let n := c.toNat
  (0x09 ≤ n && n ≤ 0x0D) || n == 0x20 || n == 0x85 || n == 0xA0 || n == 0x1680
    || (0x2000 ≤ n && n ≤ 0x200A) || n == 0x2028 || n == 0x2029 || n == 0x202F || n == 0x205F
    || n == 0x3000

/-- Characters without the spaces in front and behind. -/
def trimSpaces (cs : List Char) : List Char :=
  ((cs.dropWhile isSpace).reverse.dropWhile isSpace).reverse

/-- Whether a byte string holds nothing but white space. -/
def isBlank (bs : Bytes) : Bool :=
  (decodeRunes bs).all fun
    | .char c => isSpace c
    | .stray _ => false

end WasmUdon
