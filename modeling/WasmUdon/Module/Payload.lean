import WasmUdon.Module.Section

/-!
# Payloads of sections

A custom section starts with its name, a start or data count section is one number, and every
other section is a count followed by entries. Entries are not read here, but a count beyond the
number of bytes left is refused, as every entry takes a byte or more.

There is a reader for each of the fourteen sections, and a number that stands for none of them is
refused before its payload is read. So no section passes the check of the order and then lacks a
reader, and there is no error for this.
-/

namespace WasmUdon

/-- A read whose failure becomes a fault at the position where it stopped. -/
def Read.explain {α : Type} (detail : String) (r : Read α) : Read α := fun c =>
  match r c with
  | .ok a c' => .ok a c'
  | .error e c' => .error (.decode c'.position detail (some e)) c'

/-- A payload that is one number. -/
def readIndexPayload (id : SectionId) : Read UInt32 := do
  let n ← Read.u32.explain (id.name ++ " section")
  let left ← Read.remainingSize
  if left ≠ 0 then
    let position ← Read.position
    throw (.decode position (id.name ++ " section has " ++ toString left ++ " trailing bytes"))
  else return n

/-- A payload that is a count followed by entries, found at `offset`. -/
def readVectorPayload (kind : VectorKind) (offset : Int) : Read EntryVector := do
  let name := (SectionId.vector kind).name
  let count ← Read.u32.explain (name ++ " section count")
  let left ← Read.remainingSize
  if left < count.toNat then
    throw (.decode offset (name ++ " section declares " ++ toString count.toNat ++ " entries in "
      ++ toString left ++ " bytes") none (some (.number count.toNat)))
  else
    let position ← Read.position
    let bytes ← Read.remaining
    return { count, bytes, offset := position }

/-- The record of a section, read from its payload. -/
def readPayload (frame : Frame) : SectionId → Read Record
  | .custom => do
    let name ← Read.name.explain "custom section name"
    let data ← Read.remaining
    return .custom frame name data
  | .start => do return .startFunction frame (← readIndexPayload .start)
  | .dataCount => do return .dataCount frame (← readIndexPayload .dataCount)
  | .vector kind => do return .vector frame kind (← readVectorPayload kind frame.payload)

theorem isFinish_of_readPayload {frame : Frame} {id : SectionId} {c c' : Cursor} {r : Record}
    (h : readPayload frame id c = .ok r c') : r.isFinish = false := by
  cases id <;> simp only [readPayload, bind, pure, EStateM.bind, EStateM.pure] at h
  all_goals
    repeat' split at h
    all_goals first
      | (simp only [EStateM.Result.ok.injEq] at h; obtain ⟨rfl, -⟩ := h; rfl)
      | simp at h

end WasmUdon
