/-!
# Byte strings

Modules and assembly text are both byte strings here. Assembly text is written by appending the
UTF-8 bytes of fixed words, decimal numbers and names; a name or an operand may hold bytes that
are no UTF-8 at all, which is why text is kept as bytes and not as `String`.
-/

namespace WasmUdon

/-- A byte string. -/
abbrev Bytes := List UInt8

/-- The UTF-8 bytes of a string. -/
def text (s : String) : Bytes := s.toUTF8.data.toList

/-- The decimal digits of a natural number. -/
def decimal (n : Nat) : Bytes := text n.repr

/-- The bytes between the line feeds of a byte string; there is one more piece than line feeds. -/
def splitLines : Bytes → List Bytes
  | [] => [[]]
  | b :: rest =>
    if b = 10 then [] :: splitLines rest
    else
      match splitLines rest with
      | [] => [[b]]
      | line :: lines => (b :: line) :: lines

/-- The number that little-endian bytes stand for. -/
def ofLittleEndian : Bytes → Nat
  | [] => 0
  | b :: rest => b.toNat + 256 * ofLittleEndian rest

/-- The `width` low bytes of a number, the lowest first. -/
def toLittleEndian : (width : Nat) → Nat → Bytes
  | 0, _ => []
  | width + 1, n => UInt8.ofNat (n % 256) :: toLittleEndian width (n / 256)

@[simp]
theorem length_toLittleEndian (width n : Nat) : (toLittleEndian width n).length = width := by
  induction width generalizing n with
  | zero => rfl
  | succ width ih => simp [toLittleEndian, ih]

/-- Reading the low bytes of a number gives the number, up to the width. -/
theorem ofLittleEndian_toLittleEndian (width n : Nat) :
    ofLittleEndian (toLittleEndian width n) = n % Nat.pow 256 width := by
  induction width generalizing n with
  | zero => exact (Nat.mod_one n).symm
  | succ width ih =>
    have h : Nat.pow 256 (width + 1) = 256 * Nat.pow 256 width := Nat.mul_comm _ _
    rw [toLittleEndian, ofLittleEndian, ih, h, Nat.mod_mul]
    simp

end WasmUdon
