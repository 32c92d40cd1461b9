import WasmUdon.Binary.Cursor

/-!
# LEB128 numbers

A number is written in groups of seven bits, the lowest first; every byte but the last has its high
bit set. A width allows only so many bytes. Reading fails with an overflow if the last byte allowed
has a bit beyond an unsigned width, or if it still goes on.

The sign of a signed number is bit 6 of its last byte. Numbers of 32 and 33 bits are checked
against their range; a number of 64 bits is cut to its low 64 bits instead.

`writeUnsigned` and `writeSigned` write the shortest form.
-/

namespace WasmUdon

namespace Read

/-- Fails with an overflow at the current position. -/
def overflow {α : Type} : Read α := fun c => .error (.overflow c.position) c

theorem overflow_forward {α : Type} : (overflow : Read α).Forward := fun c => .refl c

/-- How many bytes a number of this width takes at most. -/
def lebBytes (bits : Nat) : Nat := (bits + 6) / 7

/-- The rest of an unsigned number of at most `fuel` more bytes, given the groups before. The group
at bit `last` may not have a bit of `excess`. -/
def unsignedFrom (last : Nat) (excess : UInt8) : (fuel shift acc : Nat) → Read Nat
  | 0, _, _ => overflow
  | fuel + 1, shift, acc => do
    let b ← byte
    if shift = last ∧ b &&& excess ≠ 0 then overflow
    else
      let acc := acc ||| (b &&& 0x7F).toNat <<< shift
      if b &&& 0x80 = 0 then return acc
      else unsignedFrom last excess fuel (shift + 7) acc

theorem unsignedFrom_forward (last : Nat) (excess : UInt8) (fuel shift acc : Nat) :
    (unsignedFrom last excess fuel shift acc).Forward := by
  induction fuel generalizing shift acc with
  | zero => exact overflow_forward
  | succ fuel ih =>
    refine byte_forward.bind fun b => ?_
    dsimp only
    split
    · exact overflow_forward
    · split
      · exact .pure _
      · exact ih _ _

/-- An unsigned number below `2 ^ 32`: its fifth byte has four bits. -/
def unsigned32 : Read Nat := unsignedFrom 28 0x70 (lebBytes 32) 0 0

/-- An unsigned number below `2 ^ 64`: its tenth byte has one bit. -/
def unsigned64 : Read Nat := unsignedFrom 63 0x7E (lebBytes 64) 0 0

/-- The rest of a signed number of at most `fuel` more bytes, given the groups before. -/
def signedFrom : (fuel shift acc : Nat) → Read Int
  | 0, _, _ => overflow
  | fuel + 1, shift, acc => do
    let b ← byte
    let total := acc + (b.toNat % 128) <<< shift
    if b < 64 then return (total : Int)
    else if b < 128 then return (total : Int) - ((1 <<< (shift + 7) : Nat) : Int)
    else signedFrom fuel (shift + 7) total

theorem signedFrom_forward (fuel shift acc : Nat) : (signedFrom fuel shift acc).Forward := by
  induction fuel generalizing shift acc with
  | zero => exact overflow_forward
  | succ fuel ih =>
    refine byte_forward.bind fun b => ?_
    dsimp only
    split
    · exact .pure _
    · split
      · exact .pure _
      · exact ih _ _

/-- The first number beyond the signed numbers of a width. -/
def signedLimit (bits : Nat) : Int := ((1 <<< (bits - 1) : Nat) : Int)

/-- A signed number of at most `bits` bits that is checked against its range. -/
def signed (bits : Nat) : Read Int := do
  let n ← signedFrom (lebBytes bits) 0 0
  if n < -signedLimit bits ∨ signedLimit bits ≤ n then overflow else return n

theorem signed_forward (bits : Nat) : (signed bits).Forward := by
  refine (signedFrom_forward _ _ _).bind fun n => ?_
  split
  · exact overflow_forward
  · exact .pure _

/-- An unsigned number of 32 bits. -/
def u32 : Read UInt32 := do
  let n ← unsigned32
  return UInt32.ofNat n

theorem u32_forward : u32.Forward := (unsignedFrom_forward _ _ _ _ _).bind fun _ => .pure _

/-- An unsigned number of 64 bits. -/
def u64 : Read UInt64 := do
  let n ← unsigned64
  return UInt64.ofNat n

theorem u64_forward : u64.Forward := (unsignedFrom_forward _ _ _ _ _).bind fun _ => .pure _

/-- A signed number of 32 bits. -/
def s32 : Read Int32 := do
  let n ← signed 32
  return Int32.ofInt n

theorem s32_forward : s32.Forward := (signed_forward 32).bind fun _ => .pure _

/-- A signed number of 33 bits, as block types and heap types are written. -/
def s33 : Read Int := signed 33

theorem s33_forward : s33.Forward := signed_forward 33

/-- A signed number of 64 bits: the low 64 bits of what is written in at most ten bytes. -/
def s64 : Read Int64 := do
  let n ← signedFrom (lebBytes 64) 0 0
  return Int64.ofInt n

theorem s64_forward : s64.Forward := (signedFrom_forward _ _ _).bind fun _ => .pure _

/-- A name: its size and that many bytes of UTF-8. -/
def name : Read String := do
  let size ← u32
  let bs ← bytes size.toNat
  match String.fromUTF8? ⟨bs.toArray⟩ with
  | some s => return s
  | none => fun c => .error (.badName c.position) c

theorem name_forward : name.Forward := by
  refine u32_forward.bind fun size => (bytes_forward _).bind fun bs => ?_
  split
  · exact .pure _
  · exact fun c => .refl c

end Read

/-! ## Writing -/

/-- The shortest form of an unsigned number. -/
def writeUnsigned (n : Nat) : Bytes :=
  if n < 128 then [UInt8.ofNat n]
  else UInt8.ofNat (n % 128 + 128) :: writeUnsigned (n / 128)

/-- The shortest form of a signed number. -/
def writeSigned (n : Int) : Bytes :=
  if -64 ≤ n ∧ n < 64 then [UInt8.ofNat (n % 128).toNat]
  else UInt8.ofNat ((n % 128).toNat + 128) :: writeSigned (n / 128)
termination_by n.natAbs
decreasing_by omega

end WasmUdon
