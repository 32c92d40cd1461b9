import WasmUdon.Error

/-!
# Reading bytes at a cursor

A cursor stands in a byte string whose first byte has an absolute offset, its base. A read takes
bytes from the front of what is left and either returns a value or fails; in both cases the cursor
stays where the read left it, so a failed read shows how far it came.

`Read.Forward` says that a read only ever moves the cursor forward over the bytes in front of it.
Every read of this library has this property, and recursion over operators and sections ends
because of it.

Offsets are integers and sizes natural numbers, without a bound. On a machine with words of 64 bits
they are the same as long as the offset behind the last byte can be represented there, that is, if
the base and the base plus the number of bytes lie between `-2 ^ 63` and `2 ^ 63 - 1`; all that is
said about positions is meant for such bases. Sizes read from the bytes have 32 bits, and so never
reach that bound.
-/

namespace WasmUdon

/-- A place in a byte string. -/
structure Cursor where
  /-- The absolute offset of the first byte. -/
  base : Int
  /-- How many bytes have been read. -/
  consumed : Nat
  /-- The bytes not read yet. -/
  rest : Bytes
  deriving DecidableEq, Repr

namespace Cursor

/-- The cursor in front of the first byte. -/
def ofBytes (data : Bytes) (base : Int) : Cursor := { base, consumed := 0, rest := data }

/-- The absolute offset of the next byte. -/
def position (c : Cursor) : Int := c.base + c.consumed

/-- The cursor behind the next `n` bytes. -/
def skip (c : Cursor) (n : Nat) : Cursor :=
  { c with consumed := c.consumed + (c.rest.take n).length, rest := c.rest.drop n }

/-- `c'` is reached from `c` by reading bytes. -/
def Reaches (c c' : Cursor) : Prop :=
  c'.base = c.base ∧ ∃ taken, c.rest = taken ++ c'.rest ∧ c'.consumed = c.consumed + taken.length

theorem Reaches.refl (c : Cursor) : c.Reaches c := ⟨rfl, [], rfl, rfl⟩

theorem Reaches.trans {a b c : Cursor} (h : a.Reaches b) (h' : b.Reaches c) : a.Reaches c := by
  obtain ⟨hb, s, hs, hn⟩ := h
  obtain ⟨hb', t, ht, hn'⟩ := h'
  exact ⟨hb'.trans hb, s ++ t, by rw [hs, ht, List.append_assoc],
    by rw [hn', hn, List.length_append, Nat.add_assoc]⟩

theorem Reaches.length_le {a b : Cursor} (h : a.Reaches b) : b.rest.length ≤ a.rest.length := by
  obtain ⟨-, t, ht, -⟩ := h
  rw [ht, List.length_append]
  omega

theorem reaches_skip (c : Cursor) (n : Nat) : c.Reaches (c.skip n) :=
  ⟨rfl, c.rest.take n, (List.take_append_drop n c.rest).symm, rfl⟩

end Cursor

/-- A read: it returns a value or fails, and leaves the cursor somewhere either way. -/
abbrev Read := EStateM Error Cursor

namespace Read

/-- The cursor a read leaves behind. -/
def cursorAfter {α : Type} (r : Read α) (c : Cursor) : Cursor :=
  match r c with
  | .ok _ c' => c'
  | .error _ c' => c'

/-- A read that moves the cursor forward only. -/
def Forward {α : Type} (r : Read α) : Prop := ∀ c : Cursor, c.Reaches (r.cursorAfter c)

theorem Forward.of_ok {α : Type} {r : Read α} (h : r.Forward) {c c' : Cursor} {a : α}
    (hr : r c = .ok a c') : c.Reaches c' := by
  have := h c
  simpa [cursorAfter, hr] using this

theorem Forward.of_error {α : Type} {r : Read α} (h : r.Forward) {c c' : Cursor} {e : Error}
    (hr : r c = .error e c') : c.Reaches c' := by
  have := h c
  simpa [cursorAfter, hr] using this

theorem Forward.pure {α : Type} (a : α) : Forward (Pure.pure a : Read α) := fun c => .refl c

theorem Forward.throw {α : Type} (e : Error) : Forward (throw e : Read α) := fun c => .refl c

theorem Forward.bind {α β : Type} {r : Read α} {f : α → Read β} (hr : r.Forward)
    (hf : ∀ a, (f a).Forward) : Forward (r >>= f) := by
  intro c
  cases h : r c with
  | ok a c' =>
    have : (r >>= f).cursorAfter c = (f a).cursorAfter c' := by
      simp [cursorAfter, Bind.bind, EStateM.bind, h]
    rw [this]
    exact (hr.of_ok h).trans (hf a c')
  | error e c' =>
    have : (r >>= f).cursorAfter c = c' := by
      simp [cursorAfter, Bind.bind, EStateM.bind, h]
    rw [this]
    exact hr.of_error h

/-- The absolute offset of the next byte. -/
def position : Read Int := fun c => .ok c.position c

theorem position_forward : position.Forward := fun c => .refl c

/-- How many bytes are left. -/
def remainingSize : Read Nat := fun c => .ok c.rest.length c

theorem remainingSize_forward : remainingSize.Forward := fun c => .refl c

/-- The next byte. -/
def byte : Read UInt8 := fun c =>
  match c.rest with
  | [] => .error .truncated c
  | b :: _ => .ok b (c.skip 1)

theorem byte_forward : byte.Forward := by
  intro c
  rcases c with ⟨base, consumed, _ | ⟨b, rest⟩⟩
  · exact .refl _
  · exact Cursor.reaches_skip _ 1

/-- Reading a byte leaves fewer bytes. -/
theorem length_lt_of_byte {c c' : Cursor} {b : UInt8} (h : byte c = .ok b c') :
    c'.rest.length < c.rest.length := by
  rcases c with ⟨base, consumed, _ | ⟨b', rest⟩⟩
  · simp [byte] at h
  · simp only [byte, EStateM.Result.ok.injEq] at h
    obtain ⟨-, rfl⟩ := h
    simp [Cursor.skip]

/-- The next `n` bytes. Asking for more than there are, or for fewer than none, fails and does not
move the cursor. -/
def bytes (n : Int) : Read Bytes := fun c =>
  if n < 0 ∨ (c.rest.length : Int) < n then .error .truncated c
  else .ok (c.rest.take n.toNat) (c.skip n.toNat)

theorem bytes_forward (n : Int) : (bytes n).Forward := by
  intro c
  by_cases h : n < 0 ∨ (c.rest.length : Int) < n
  · simpa [cursorAfter, bytes, h] using Cursor.Reaches.refl c
  · simpa [cursorAfter, bytes, h] using Cursor.reaches_skip c n.toNat

/-- All bytes that are left. -/
def remaining : Read Bytes := fun c => .ok c.rest (c.skip c.rest.length)

theorem remaining_forward : remaining.Forward := fun c => Cursor.reaches_skip c c.rest.length

/-- A little-endian word of four bytes. -/
def u32le : Read UInt32 := do
  let bs ← bytes 4
  return UInt32.ofNat (ofLittleEndian bs)

theorem u32le_forward : u32le.Forward := (bytes_forward 4).bind fun _ => .pure _

/-- A little-endian word of eight bytes. -/
def u64le : Read UInt64 := do
  let bs ← bytes 8
  return UInt64.ofNat (ofLittleEndian bs)

theorem u64le_forward : u64le.Forward := (bytes_forward 8).bind fun _ => .pure _

end Read

end WasmUdon
