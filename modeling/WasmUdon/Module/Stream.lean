import WasmUdon.Module.Payload

/-!
# Reading a module in steps

A stream reads one record at a time from the front of the bytes not read yet. As long as more
bytes may arrive, an incomplete record is a request for more of them; at the end of the input the
same bytes are an error.

The order of sections is checked when a section is complete and before its payload is read, so a
section with a broken payload counts as met.

As for cursors, offsets are integers without a bound, and hints are natural numbers: words of 64
bits are assumed, in which the offsets of a module and the size of a section, which has 32 bits, can
be represented.
-/

namespace WasmUdon

/-- What a stream expects next. -/
inductive Stage
  | header
  | sections
  | done
  deriving DecidableEq, Repr

/-- The outcome of a step: a request for at least `hint` more bytes, or a record and the number of
bytes it takes. -/
inductive Chunk
  | needMore (hint : Nat)
  | record (r : Record) (consumed : Nat)
  deriving DecidableEq, Repr

/-- A module being read. -/
structure Stream where
  /-- The absolute offset of the next byte. -/
  offset : Int
  /-- The sections met so far, custom sections left out. -/
  seen : List SectionId := []
  /-- The place in the order of the last section met. -/
  lastOrder : Nat := 0
  stage : Stage := .header
  deriving DecidableEq, Repr

/-- The first four bytes of a module, read as a little-endian number. -/
def moduleMagic : Nat := 0x6D736100

/-- The version of a module. -/
def moduleVersion : Nat := 1

namespace Stream

/-- Reads the header. -/
def readHeader (s : Stream) (data : Bytes) (eof : Bool) : Except Error Chunk × Stream :=
  if data.length < headerSize then
    if eof then (.error (.decode (s.offset + data.length) "truncated module header"), s)
    else (.ok (.needMore (headerSize - data.length)), s)
  else
    let magic := ofLittleEndian (data.take 4)
    let version := ofLittleEndian ((data.drop 4).take 4)
    if magic ≠ moduleMagic then
      (.error (.decode s.offset ("invalid wasm magic number 0x" ++ hex 8 magic) none
        (some (.number magic))), s)
    else if version ≠ moduleVersion then
      (.error (.decode (s.offset + 4) ("unsupported wasm version " ++ toString version) none
        (some (.number version))), s)
    else
      (.ok (.record (.header s.offset (UInt32.ofNat version)) headerSize),
        { s with offset := s.offset + headerSize, stage := .sections })

/-- Accepts a section with the identifier `code` if it may follow the sections met so far. -/
def accept (s : Stream) (code : UInt8) : Except Error (SectionId × Stream) :=
  match SectionId.ofCode? code with
  | none =>
    .error (.decode s.offset ("unknown section ID: 0x" ++ hex 2 code.toNat) none
      (some (.number code.toNat)))
  | some .custom => .ok (.custom, s)
  | some id =>
    if id ∈ s.seen then .error (.decode s.offset ("duplicate " ++ id.name ++ " section"))
    else if id.order ≤ s.lastOrder then
      .error (.decode s.offset (id.name ++ " section appears out of order"))
    else .ok (id, { s with seen := id :: s.seen, lastOrder := id.order })

/-- Reads the payload of `size` bytes at a cursor that stands behind identifier and size. -/
def readBody (s : Stream) (code : UInt8) (size : Nat) (c : Cursor) : Except Error Chunk × Stream :=
  match s.accept code with
  | .error e => (.error e, s)
  | .ok (id, s') =>
    let frame : Frame := { start := s.offset, payload := c.position, stop := c.position + size }
    match readPayload frame id (.ofBytes (c.rest.take size) c.position) with
    | .error e _ => (.error e, s')
    | .ok r _ =>
      (.ok (.record r (c.consumed + size)), { s' with offset := s.offset + (c.consumed + size) })

/-- Reads a section, or the end of the module where the bytes end. -/
def readSection (s : Stream) (data : Bytes) (eof : Bool) : Except Error Chunk × Stream :=
  match data with
  | [] =>
    if eof then (.ok (.record (.finish s.offset) 0), { s with stage := .done })
    else (.ok (.needMore 1), s)
  | code :: _ =>
    match Read.u32 ((Cursor.ofBytes data s.offset).skip 1) with
    | .error e c =>
      if e.isTruncated then
        if eof then (.error (.decode c.position "truncated section size" (some e)), s)
        else (.ok (.needMore 1), s)
      else (.error (.decode (s.offset + 1) "invalid section size" (some e)), s)
    | .ok size c =>
      if c.rest.length < size.toNat then
        if eof then
          (.error (.decode c.position ("section size " ++ toString size.toNat
            ++ " exceeds remaining " ++ toString c.rest.length ++ " bytes") none
            (some (.number size.toNat))), s)
        else (.ok (.needMore (size.toNat - c.rest.length)), s)
      else s.readBody code size.toNat c

/-- Reads the next record from the bytes not read yet. -/
def step (s : Stream) (data : Bytes) (eof : Bool) : Except Error Chunk × Stream :=
  match s.stage with
  | .header => s.readHeader data eof
  | .sections => s.readSection data eof
  | .done =>
    (.error (.internal .decode ("parse called after end of module at offset "
      ++ toString s.offset)), s)

/-- A record other than the end takes at least one byte of those it is read from. -/
theorem consumed_of_step {s s' : Stream} {data : Bytes} {eof : Bool} {r : Record} {n : Nat}
    (h : s.step data eof = (.ok (.record r n), s')) (hr : r.isFinish = false) :
    0 < n ∧ data ≠ [] := by
  unfold step at h
  split at h
  · unfold readHeader at h
    split at h
    · split at h <;> simp at h
    · rename_i hl
      dsimp only at h
      split at h
      · simp at h
      · split at h
        · simp at h
        · simp only [Prod.mk.injEq, Except.ok.injEq, Chunk.record.injEq] at h
          obtain ⟨⟨-, rfl⟩, -⟩ := h
          refine ⟨by decide, ?_⟩
          rintro rfl
          simp [headerSize] at hl
  · unfold readSection at h
    split at h
    · split at h
      · simp only [Prod.mk.injEq, Except.ok.injEq, Chunk.record.injEq] at h
        obtain ⟨⟨rfl, -⟩, -⟩ := h
        simp [Record.isFinish] at hr
      · simp at h
    · split at h
      · repeat' split at h
        all_goals simp at h
      · rename_i code rest _ size c hc
        split at h
        · split at h <;> simp at h
        · refine ⟨?_, by simp⟩
          unfold readBody at h
          split at h
          · simp at h
          · dsimp only at h
            split at h
            · simp at h
            · simp only [Prod.mk.injEq, Except.ok.injEq, Chunk.record.injEq] at h
              obtain ⟨⟨-, rfl⟩, -⟩ := h
              obtain ⟨-, taken, -, hn⟩ := Read.u32_forward.of_ok hc
              have h₁ : ((Cursor.ofBytes (code :: rest) s.offset).skip 1).consumed = 1 := rfl
              omega
  · simp at h

/-- The records up to the end of the module or the first failure, the end mark left out, and that
failure. All bytes of the module are there. -/
def run (s : Stream) (data : Bytes) : List Record × Option Error :=
  match h : s.step data true with
  | (.error e, _) => ([], some e)
  | (.ok (.needMore hint), s') =>
    ([], some (.internal .decode ("decoder requested " ++ toString hint
      ++ " more bytes after end of input at offset " ++ toString s'.offset)))
  | (.ok (.record r n), s') =>
    if hr : r.isFinish then ([], none)
    else
      have shorter : (data.drop n).length < data.length := by
        obtain ⟨hn, hd⟩ := consumed_of_step h (by simpa using hr)
        have := List.length_pos_iff.2 hd
        simp only [List.length_drop]
        omega
      let (records, failure) := s'.run (data.drop n)
      (r :: records, failure)
termination_by data.length
decreasing_by exact shorter

end Stream

end WasmUdon
