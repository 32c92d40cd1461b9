import WasmUdon.Bytes

/-!
# Characters of a byte string

A byte string is read as UTF-8 as far as it goes: each byte that does not start a character, in
its shortest form and followed by all its continuation bytes, stands alone as a stray byte.
-/

namespace WasmUdon

/-- A unit of a byte string read as UTF-8. -/
inductive Rune
  /-- A well-formed character. -/
  | char (c : Char)
  /-- A byte that is no part of a character. -/
  | stray (b : UInt8)
  deriving DecidableEq, Repr

/-- The six bits of a continuation byte. -/
def continuationBits? (b : UInt8) : Option Nat :=
  if 0x80 ≤ b ∧ b < 0xC0 then some (b.toNat - 0x80) else none

/-- The character that the bytes start with, and the number of its bytes. -/
def decodeChar? : Bytes → Option (Char × Nat)
  | [] => none
  | b :: rest =>
    if b < 0x80 then some (Char.ofNat b.toNat, 1)
    else if b < 0xC2 then none
    else if b < 0xE0 then
      match rest with
      | b₁ :: _ => do
        let t₁ ← continuationBits? b₁
        some (Char.ofNat ((b.toNat - 0xC0) * 64 + t₁), 2)
      | _ => none
    else if b < 0xF0 then
      match rest with
      | b₁ :: b₂ :: _ => do
        let t₁ ← continuationBits? b₁
        let t₂ ← continuationBits? b₂
        let n := (b.toNat - 0xE0) * 4096 + t₁ * 64 + t₂
        if n < 0x800 ∨ (0xD800 ≤ n ∧ n < 0xE000) then none else some (Char.ofNat n, 3)
      | _ => none
    else if b < 0xF5 then
      match rest with
      | b₁ :: b₂ :: b₃ :: _ => do
        let t₁ ← continuationBits? b₁
        let t₂ ← continuationBits? b₂
        let t₃ ← continuationBits? b₃
        let n := (b.toNat - 0xF0) * 262144 + t₁ * 4096 + t₂ * 64 + t₃
        if n < 0x10000 ∨ 0x110000 ≤ n then none else some (Char.ofNat n, 4)
      | _ => none
    else none

/-- The runes of a byte string after `skip` bytes, which belong to the character before. -/
def decodeRunesFrom : (skip : Nat) → Bytes → List Rune
  | _, [] => []
  | skip + 1, _ :: rest => decodeRunesFrom skip rest
  | 0, b :: rest =>
    match decodeChar? (b :: rest) with
    | some (c, size) => .char c :: decodeRunesFrom (size - 1) rest
    | none => .stray b :: decodeRunesFrom 0 rest

/-- The runes of a byte string. -/
def decodeRunes (bs : Bytes) : List Rune := decodeRunesFrom 0 bs

/-- The characters of runes, a stray byte shown as the replacement character U+FFFD. -/
def Rune.chars (rs : List Rune) : List Char :=
  rs.map fun
    | .char c => c
    | .stray _ => Char.ofNat 0xFFFD

/-- A byte string as it is shown, each stray byte as the replacement character. -/
def display (bs : Bytes) : String := String.ofList (Rune.chars (decodeRunes bs))

end WasmUdon
