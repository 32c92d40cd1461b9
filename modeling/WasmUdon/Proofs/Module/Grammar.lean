import Mathlib.Data.List.Sort
import WasmUdon.Module.Builder
import WasmUdon.Module.Payload
import WasmUdon.Proofs.Binary.Numbers

/-!
# The grammar of modules

What a module looks like, as a relation between byte strings and the records they stand for. It
says nothing about how a module is read:

* `IsPayload` relates the payload of a section to its record, one rule for each sort of section;
* `IsSection` puts the identifier and the size in front of a payload;
* `AreSections` lays sections end to end, each starting where the one before ends;
* `IsModule` puts the header in front, and asks that the sections with a place appear in the order
  of `canonicalOrder`, each at most once.

`readPayload_eq_ok_iff` is the part about payloads of the comparison with the reader.
-/

namespace WasmUdon

/-- The sections that have a place, in their order. -/
def canonicalOrder : List SectionId :=
  [.vector .types, .vector .imports, .vector .functions, .vector .tables, .vector .memories,
    .vector .tags, .vector .globals, .vector .exports, .start, .vector .elements, .dataCount,
    .vector .code, .vector .data]

/-- The bytes are the payload of a section with an identifier, and `r` is its record. -/
inductive IsPayload (frame : Frame) : SectionId → Bytes → Record → Prop
  /-- A name and whatever follows it. -/
  | custom {size data : Bytes} {name : String} (hsize : IsUnsigned 32 (text name).length size) :
    IsPayload frame .custom (size ++ text name ++ data) (.custom frame name data)
  /-- The index of a function. -/
  | start {func : UInt32} {bs : Bytes} (h : IsUnsigned 32 func.toNat bs) :
    IsPayload frame .start bs (.startFunction frame func)
  /-- A number of data segments. -/
  | dataCount {count : UInt32} {bs : Bytes} (h : IsUnsigned 32 count.toNat bs) :
    IsPayload frame .dataCount bs (.dataCount frame count)
  /-- A number of entries, and at least as many bytes. -/
  | vector {kind : VectorKind} {count : UInt32} {front entries : Bytes}
    (hcount : IsUnsigned 32 count.toNat front) (hle : count.toNat ≤ entries.length) :
    IsPayload frame (.vector kind) (front ++ entries)
      (.vector frame kind { count, bytes := entries, offset := frame.payload + front.length })

/-- The frame of a section that starts at `start`, given the bytes of its size and its payload. -/
def sectionFrame (start : Int) (size payload : Bytes) : Frame :=
  { start
    payload := start + ((1 + size.length : Nat) : Int)
    stop := start + ((1 + size.length : Nat) : Int) + payload.length }

/-- The bytes are a section found at `start`, and `r` is its record. -/
inductive IsSection (start : Int) : SectionId → Bytes → Record → Prop
  | mk {id : SectionId} {size payload : Bytes} {r : Record}
    (hsize : IsUnsigned 32 payload.length size)
    (hpayload : IsPayload (sectionFrame start size payload) id payload r) :
    IsSection start id (id.code :: (size ++ payload)) r

/-- The bytes are sections laid end to end from `start` on, with their records. -/
inductive AreSections : Int → Bytes → List Record → Prop
  | nil (start : Int) : AreSections start [] []
  | cons {start : Int} {id : SectionId} {bs rest : Bytes} {r : Record} {rs : List Record}
    (h : IsSection start id bs r) (hrest : AreSections (start + bs.length) rest rs) :
    AreSections start (bs ++ rest) (r :: rs)

/-- The identifier of a record that has a place in the order of sections. -/
def Record.placedId? (r : Record) : Option SectionId :=
  match r.kind with
  | .content .custom => none
  | .content id => some id
  | _ => none

/-- The bytes are a module found at `offset`, with its records. -/
inductive IsModule (offset : Int) : Bytes → List Record → Prop
  | mk {body : Bytes} {rs : List Record} (hsections : AreSections (offset + headerSize) body rs)
    (horder : (rs.filterMap Record.placedId?).Sublist canonicalOrder) :
    IsModule offset (headerBytes ++ body) (.header offset 1 :: rs)

/-- The records lie end to end between two offsets, none of them empty. -/
def Tile (start : Int) : List Record → (stop : Int) → Prop
  | [], stop => start = stop
  | r :: rs, stop => r.start = start ∧ start < r.stop ∧ Tile r.stop rs stop

/-! ## Places -/

theorem IsPayload.kind {frame : Frame} {id : SectionId} {bs : Bytes} {r : Record}
    (h : IsPayload frame id bs r) : r.kind = .content id := by
  cases h <;> rfl

theorem IsPayload.start_eq {frame : Frame} {id : SectionId} {bs : Bytes} {r : Record}
    (h : IsPayload frame id bs r) : r.start = frame.start := by
  cases h <;> rfl

theorem IsPayload.stop_eq {frame : Frame} {id : SectionId} {bs : Bytes} {r : Record}
    (h : IsPayload frame id bs r) : r.stop = frame.stop := by
  cases h <;> rfl

theorem IsPayload.isFinish {frame : Frame} {id : SectionId} {bs : Bytes} {r : Record}
    (h : IsPayload frame id bs r) : r.isFinish = false := by
  cases h <;> rfl

/-- A section takes the bytes between the two ends of its record. -/
theorem IsSection.stop_eq {start : Int} {id : SectionId} {bs : Bytes} {r : Record}
    (h : IsSection start id bs r) : r.stop = start + bs.length := by
  obtain ⟨hsize, hpayload⟩ := h
  rw [hpayload.stop_eq, List.length_cons, List.length_append]
  simp only [sectionFrame]
  omega

theorem IsSection.start_eq {start : Int} {id : SectionId} {bs : Bytes} {r : Record}
    (h : IsSection start id bs r) : r.start = start := by
  obtain ⟨hsize, hpayload⟩ := h
  exact hpayload.start_eq

theorem IsSection.isFinish {start : Int} {id : SectionId} {bs : Bytes} {r : Record}
    (h : IsSection start id bs r) : r.isFinish = false := by
  obtain ⟨hsize, hpayload⟩ := h
  exact hpayload.isFinish

theorem IsSection.length_pos {start : Int} {id : SectionId} {bs : Bytes} {r : Record}
    (h : IsSection start id bs r) : 0 < bs.length := by
  obtain ⟨hsize, hpayload⟩ := h
  exact Nat.succ_pos _

/-- The identifier of a section has a place unless it is that of a custom section. -/
theorem IsSection.placedId?_eq {start : Int} {id : SectionId} {bs : Bytes} {r : Record}
    (h : IsSection start id bs r) : r.placedId? = if id = .custom then none else some id := by
  obtain ⟨hsize, hpayload⟩ := h
  rw [Record.placedId?, hpayload.kind]
  cases id <;> rfl

theorem AreSections.tile {start : Int} {bs : Bytes} {rs : List Record}
    (h : AreSections start bs rs) : Tile start rs (start + bs.length) := by
  induction h with
  | nil start => simp [Tile]
  | @cons start id bs rest r rs h _ ih =>
    have hpos := h.length_pos
    refine ⟨h.start_eq, ?_, ?_⟩
    · rw [h.stop_eq]
      omega
    · rw [h.stop_eq, List.length_append, Nat.cast_add, ← Int.add_assoc]
      exact ih

theorem length_headerBytes : headerBytes.length = headerSize := rfl

/-- **The records of a module tile its bytes.** -/
theorem IsModule.tile {offset : Int} {bs : Bytes} {records : List Record}
    (h : IsModule offset bs records) : Tile offset records (offset + bs.length) := by
  obtain ⟨hsections, -⟩ := h
  have htile := hsections.tile
  refine ⟨rfl, ?_, ?_⟩
  · simp only [Record.stop, headerSize]
    omega
  · rw [List.length_append, length_headerBytes, Nat.cast_add, ← Int.add_assoc]
    exact htile

/-! ## Order -/

theorem order_pos_of_mem {id : SectionId} (h : id ∈ canonicalOrder) : 0 < id.order := by
  revert h id
  decide

theorem mem_canonicalOrder {id : SectionId} (h : id ≠ .custom) : id ∈ canonicalOrder := by
  rcases id with _ | _ | _ | kind
  · exact absurd rfl h
  · decide
  · decide
  · cases kind <;> decide

theorem pairwise_canonicalOrder : canonicalOrder.Pairwise fun a b => a.order < b.order := by
  decide

/-- Sections appear in the canonical order if and only if their places ascend. -/
theorem sublist_canonicalOrder_iff {ids : List SectionId} (hids : ∀ id ∈ ids, id ≠ .custom) :
    ids.Sublist canonicalOrder ↔ ids.Pairwise fun a b => a.order < b.order := by
  constructor
  · intro h
    exact pairwise_canonicalOrder.sublist h
  · intro h
    have : Std.Antisymm fun a b : SectionId => a.order < b.order :=
      ⟨fun a b hab hba => absurd hab (Nat.lt_asymm hba)⟩
    have hnodup : ids.Nodup := h.imp fun {a b} hab => by
      rintro rfl
      exact Nat.lt_irrefl _ hab
    have hsub : ids.Subperm canonicalOrder :=
      List.subperm_of_subset hnodup fun id hid => mem_canonicalOrder (hids id hid)
    exact List.sublist_of_subperm_of_pairwise hsub h pairwise_canonicalOrder

theorem placedId?_ne_custom {r : Record} {id : SectionId} (h : r.placedId? = some id) :
    id ≠ .custom := by
  rintro rfl
  unfold Record.placedId? at h
  split at h
  · simp at h
  · rename_i hne _
    simp only [Option.some.injEq] at h
    exact hne h
  · simp at h

/-! ## Reading payloads -/

theorem explain_eq_ok_iff {α : Type} {r : Read α} {detail : String} {c c' : Cursor} {a : α} :
    r.explain detail c = .ok a c' ↔ r c = .ok a c' := by
  unfold Read.explain
  cases r c with
  | ok a₁ c₁ => exact Iff.rfl
  | error e c₁ => simp

/-- What is left behind a number at the front of a payload. -/
theorem u32_ofBytes_eq_ok_iff {bs : Bytes} {base : Int} {n : UInt32} {c : Cursor} :
    Read.u32 (.ofBytes bs base) = .ok n c ↔
      ∃ front, IsUnsigned 32 n.toNat front ∧ bs = front ++ c.rest ∧
        c = ⟨base, front.length, c.rest⟩ := by
  rw [Read.u32_parses]
  obtain ⟨base', consumed, rest⟩ := c
  constructor
  · rintro ⟨front, hc, hn⟩
    refine ⟨front, hn, hc.rest, ?_⟩
    have hb : base' = base := hc.base
    have hl : consumed = front.length := by simpa [Cursor.ofBytes] using hc.consumed
    rw [hb, hl]
  · rintro ⟨front, hn, hrest, hc⟩
    simp only [Cursor.mk.injEq] at hc
    exact ⟨front, ⟨hc.1, hrest, by simpa [Cursor.ofBytes] using hc.2.1⟩, hn⟩

theorem readIndexPayload_eq_ok_iff {id : SectionId} {bs : Bytes} {base : Int} {n : UInt32} :
    (∃ c, readIndexPayload id (.ofBytes bs base) = .ok n c) ↔ IsUnsigned 32 n.toNat bs := by
  constructor
  · rintro ⟨c, h⟩
    obtain ⟨n', c₁, hn, h⟩ := Read.bind_eq_ok_iff.1 h
    obtain ⟨front, hfront, hbs, -⟩ := u32_ofBytes_eq_ok_iff.1 (explain_eq_ok_iff.1 hn)
    rw [Read.remainingSize_bind] at h
    split at h
    · rw [Read.position_bind] at h
      cases h
    · rename_i hleft
      have hnil : c₁.rest = [] := List.eq_nil_of_length_eq_zero (by omega)
      rw [hnil, List.append_nil] at hbs
      cases h
      rw [hbs]
      exact hfront
  · intro h
    have hu : Read.u32 (.ofBytes bs base) = .ok n ⟨base, bs.length, []⟩ :=
      u32_ofBytes_eq_ok_iff.2 ⟨bs, h, by simp, rfl⟩
    exact ⟨_, Read.bind_eq_ok_iff.2 ⟨n, _, explain_eq_ok_iff.2 hu, rfl⟩⟩

theorem readVectorPayload_eq_ok_iff {kind : VectorKind} {bs : Bytes} {base : Int}
    {v : EntryVector} :
    (∃ c, readVectorPayload kind base (.ofBytes bs base) = .ok v c) ↔
      ∃ front, IsUnsigned 32 v.count.toNat front ∧ v.count.toNat ≤ v.bytes.length ∧
        bs = front ++ v.bytes ∧ v.offset = base + front.length := by
  constructor
  · rintro ⟨c, h⟩
    obtain ⟨count, c₁, hn, h⟩ := Read.bind_eq_ok_iff.1 h
    obtain ⟨front, hfront, hbs, hc₁⟩ := u32_ofBytes_eq_ok_iff.1 (explain_eq_ok_iff.1 hn)
    rw [Read.remainingSize_bind] at h
    split at h
    · cases h
    · rename_i hleft
      cases h
      refine ⟨front, hfront, by simpa using hleft, hbs, ?_⟩
      change c₁.position = base + front.length
      rw [hc₁]
      rfl
  · rintro ⟨front, hfront, hle, rfl, hoff⟩
    obtain ⟨count, entries, offset⟩ := v
    have hu : Read.u32 (.ofBytes (front ++ entries) base) =
        .ok count ⟨base, front.length, entries⟩ :=
      u32_ofBytes_eq_ok_iff.2 ⟨front, hfront, rfl, rfl⟩
    have hoff' : offset = base + front.length := hoff
    refine ⟨.skip ⟨base, front.length, entries⟩ entries.length,
      Read.bind_eq_ok_iff.2 ⟨count, _, explain_eq_ok_iff.2 hu, ?_⟩⟩
    rw [Read.remainingSize_bind, if_neg (by simpa using hle), hoff']
    rfl

theorem name_ofBytes_eq_ok_iff {bs : Bytes} {base : Int} {name : String} {data : Bytes} :
    (∃ c, Read.name (.ofBytes bs base) = .ok name c ∧ c.rest = data) ↔
      ∃ size, IsUnsigned 32 (text name).length size ∧ bs = size ++ text name ++ data := by
  constructor
  · rintro ⟨c, h, rfl⟩
    obtain ⟨taken, hc, size, rfl, hsize⟩ := (Read.name_parses _ _ _).1 h
    exact ⟨size, hsize, hc.rest⟩
  · rintro ⟨size, hsize, rfl⟩
    refine ⟨⟨base, (size ++ text name).length, data⟩, ?_, rfl⟩
    refine (Read.name_parses _ _ _).2 ⟨size ++ text name, ⟨rfl, rfl, ?_⟩, size, rfl, hsize⟩
    simp [Cursor.ofBytes]

/-- **Reading a payload accepts exactly the payloads of the grammar**, and gives their record. -/
theorem readPayload_eq_ok_iff {frame : Frame} {id : SectionId} {bs : Bytes} {r : Record} :
    (∃ c, readPayload frame id (.ofBytes bs frame.payload) = .ok r c) ↔
      IsPayload frame id bs r := by
  constructor
  · rintro ⟨c, h⟩
    obtain _ | _ | _ | kind := id
    · obtain ⟨name, c₁, hname, hdata⟩ := Read.bind_eq_ok_iff.1 h
      obtain ⟨size, hsize, hbs⟩ :=
        name_ofBytes_eq_ok_iff.1 ⟨c₁, explain_eq_ok_iff.1 hname, rfl⟩
      rw [Read.remaining_bind] at hdata
      cases hdata
      rw [hbs]
      exact .custom hsize
    · obtain ⟨n, c₁, hn, h⟩ := Read.bind_eq_ok_iff.1 h
      cases h
      exact .start (readIndexPayload_eq_ok_iff.1 ⟨_, hn⟩)
    · obtain ⟨n, c₁, hn, h⟩ := Read.bind_eq_ok_iff.1 h
      cases h
      exact .dataCount (readIndexPayload_eq_ok_iff.1 ⟨_, hn⟩)
    · obtain ⟨v, c₁, hv, h⟩ := Read.bind_eq_ok_iff.1 h
      cases h
      obtain ⟨count, entries, offset⟩ := v
      obtain ⟨front, hfront, hle, rfl, rfl⟩ := readVectorPayload_eq_ok_iff.1 ⟨_, hv⟩
      exact .vector hfront hle
  · intro h
    cases h with
    | @custom size data name hsize =>
      obtain ⟨c, hname, hrest⟩ :
          ∃ c, Read.name (.ofBytes (size ++ text name ++ data) frame.payload) = .ok name c ∧
            c.rest = data :=
        name_ofBytes_eq_ok_iff.2 ⟨size, hsize, rfl⟩
      refine ⟨c.skip c.rest.length,
        Read.bind_eq_ok_iff.2 ⟨name, c, explain_eq_ok_iff.2 hname, ?_⟩⟩
      rw [Read.remaining_bind, hrest]
      rfl
    | @start func bs h =>
      obtain ⟨c, hn⟩ : ∃ c, readIndexPayload .start (.ofBytes bs frame.payload) = .ok func c :=
        readIndexPayload_eq_ok_iff.2 h
      exact ⟨c, Read.bind_eq_ok_iff.2 ⟨_, c, hn, rfl⟩⟩
    | @dataCount count bs h =>
      obtain ⟨c, hn⟩ : ∃ c, readIndexPayload .dataCount (.ofBytes bs frame.payload) = .ok count c :=
        readIndexPayload_eq_ok_iff.2 h
      exact ⟨c, Read.bind_eq_ok_iff.2 ⟨_, c, hn, rfl⟩⟩
    | @vector kind count front entries hcount hle =>
      obtain ⟨c, hv⟩ : ∃ c,
          readVectorPayload kind frame.payload (.ofBytes (front ++ entries) frame.payload) =
            .ok ⟨count, entries, frame.payload + front.length⟩ c :=
        readVectorPayload_eq_ok_iff.2 ⟨front, hcount, hle, rfl, rfl⟩
      exact ⟨c, Read.bind_eq_ok_iff.2 ⟨_, c, hv, rfl⟩⟩

end WasmUdon
