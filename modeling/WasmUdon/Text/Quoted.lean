import WasmUdon.Text.Hex
import WasmUdon.Text.Printable
import WasmUdon.Text.Utf8

/-!
# Quoted text

Text between quotation marks. The quotation mark and the backslash are escaped, printable
characters stand for themselves, the usual control characters have letters of their own, and the
rest is written by number: `\\xNN` below U+0080 and for stray bytes, `\\uNNNN`, `\\UNNNNNNNN`.
-/

namespace WasmUdon

/-- A character between quotation marks `mark`. -/
def escapeChar (mark : Char) (c : Char) : String :=
  let n := c.toNat
  if c = mark ∨ c = '\\' then String.ofList ['\\', c]
  else if isPrintable c then String.ofList [c]
  else if n = 0x07 then "\\a"
  else if n = 0x08 then "\\b"
  else if n = 0x0C then "\\f"
  else if n = 0x0A then "\\n"
  else if n = 0x0D then "\\r"
  else if n = 0x09 then "\\t"
  else if n = 0x0B then "\\v"
  else if n < 0x80 then "\\x" ++ hex 2 n
  else if n < 0x10000 then "\\u" ++ hex 4 n
  else "\\U" ++ hex 8 n

/-- A rune between double quotation marks. -/
def Rune.escape : Rune → String
  | .char c => escapeChar '"' c
  | .stray b => "\\x" ++ hex 2 b.toNat

/-- Runes between double quotation marks. -/
def quoteRunes (rs : List Rune) : String :=
  "\"" ++ String.join (rs.map Rune.escape) ++ "\""

/-- A byte string between double quotation marks. -/
def quoteBytes (bs : Bytes) : String := quoteRunes (decodeRunes bs)

/-- A string between double quotation marks. -/
def quote (s : String) : String := quoteRunes (s.toList.map .char)

/-- A character between single quotation marks. -/
def quoteChar (c : Char) : String :=
  let mark := Char.ofNat 0x27
  String.ofList [mark] ++ escapeChar mark c ++ String.ofList [mark]

end WasmUdon
