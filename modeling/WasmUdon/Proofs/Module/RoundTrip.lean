import WasmUdon.Proofs.Module.Decoding
import WasmUdon.Proofs.Module.Written

/-!
# Decoding undoes writing

Sections are written as given, so what is written need not be a module. `AreWellFormed` says of the
sections themselves when it is one: every identifier is known, the sections with a place appear in
their order, and every payload belongs to its identifier.

The size of a section is read back from its shortest form, so written sections can be taken apart in
one way only (`AreSections.holds`), and each of them becomes the record that holds its content
(`RawSection.Holds`). Decoding succeeds on written sections exactly when they are well formed
(`decodeModule_writeModule`), and then it returns a record for each of them.
-/

namespace WasmUdon

/-! ## Written sections and their records -/

/-- The payload is well formed for a section with the identifier. -/
def SectionId.Fits (id : SectionId) (payload : Bytes) : Prop :=
  ∃ frame r, IsPayload frame id payload r

namespace RawSection

/-- The identifier of a section that has a place in the order of sections. -/
def placedId? (s : RawSection) : Option SectionId :=
  match SectionId.ofCode? s.code with
  | some .custom => none
  | id? => id?

/-- The record is that of a section that was written: it has the identifier of the section, and
what it holds is the content of the payload. -/
def Holds (s : RawSection) (r : Record) : Prop :=
  ∃ (id : SectionId) (frame : Frame), id.code = s.code ∧ r.kind = .content id ∧
    IsPayload frame id s.payload r

/-- What was put into a section by name comes back: the name and the data of a custom section, the
function of a start section, and the globals of a global section, which are read one after the other
up to the end of the section. -/
structure ReadsBack (s : RawSection) (r : Record) : Prop where
  custom : ∀ name data, s = .custom name data → ∃ frame, r = .custom frame name data
  start : ∀ func, s = .start func → ∃ frame, r = .startFunction frame func
  globals : ∀ gs, s = .globals gs → (∀ g ∈ gs, g.IsComplete) →
    ∃ frame v entries reader, r = .vector frame .globals v ∧
      GlobalReader.readMany v.count.toNat (.ofVector v) = .ok (entries, reader) ∧
      reader.finish = .ok () ∧ List.Forall₂ RawGlobal.Holds gs entries

end RawSection

/-- The sections make up a module. -/
structure AreWellFormed (ss : List RawSection) : Prop where
  known : ∀ s ∈ ss, s.code ≤ 13
  order : (ss.filterMap RawSection.placedId?).Sublist canonicalOrder
  payloads : ∀ s ∈ ss, ∀ id : SectionId, id.code = s.code → id.Fits s.payload

/-! ## Identifiers and payloads -/

theorem SectionId.code_inj {id id' : SectionId} (h : id.code = id'.code) : id = id' := by
  have hsome : some id = some id' := by rw [← ofCode?_code, ← ofCode?_code, h]
  exact Option.some.inj hsome

theorem SectionId.exists_code_iff {b : UInt8} : (∃ id : SectionId, id.code = b) ↔ b ≤ 13 := by
  simp only [← ofCode?_eq_some_iff, ofCode?, List.getElem?_eq_some_iff]
  rw [UInt8.le_iff_toNat_le]
  constructor
  · rintro ⟨id, hlt, -⟩
    exact Nat.le_of_lt_succ hlt
  · intro hle
    exact ⟨_, Nat.lt_succ_of_le hle, rfl⟩

/-- A payload has one record. -/
theorem IsPayload.unique {frame : Frame} {id : SectionId} {bs : Bytes} {r r' : Record}
    (h : IsPayload frame id bs r) (h' : IsPayload frame id bs r') : r = r' := by
  obtain ⟨c, hread⟩ := readPayload_eq_ok_iff.2 h
  obtain ⟨c', hread'⟩ := readPayload_eq_ok_iff.2 h'
  rw [hread] at hread'
  cases hread'
  rfl

/-- Where a payload stands does not matter for its form. -/
theorem SectionId.Fits.exists_record {id : SectionId} {payload : Bytes} (h : id.Fits payload)
    (frame : Frame) : ∃ r, IsPayload frame id payload r := by
  obtain ⟨frame', r, hpayload⟩ := h
  cases hpayload with
  | custom hsize => exact ⟨_, .custom hsize⟩
  | start hfunc => exact ⟨_, .start hfunc⟩
  | dataCount hcount => exact ⟨_, .dataCount hcount⟩
  | vector hcount hle => exact ⟨_, .vector hcount hle⟩

theorem isPayload_custom {name : String} {data : Bytes}
    (hsize : (RawSection.custom name data).payload.length < 2 ^ 32) (frame : Frame) :
    IsPayload frame .custom (RawSection.custom name data).payload (.custom frame name data) := by
  have hlt : (text name).length < 2 ^ 32 := by
    simp only [RawSection.custom, writeName, List.length_append] at hsize
    omega
  exact .custom (isUnsigned_writeUnsigned (by omega) hlt)

theorem isPayload_start (func : UInt32) (frame : Frame) :
    IsPayload frame .start (RawSection.start func).payload (.startFunction frame func) :=
  .start (isUnsigned_write_u32 func)

/-- The payloads that are put together from their content are well formed. -/
theorem fits_of_built {s : RawSection} (hsize : s.payload.length < 2 ^ 32) (frame : Frame) :
    (∀ name data, s = .custom name data → SectionId.custom.Fits s.payload) ∧
      (∀ func, s = .start func → SectionId.start.Fits s.payload) ∧
      ∀ gs, s = .globals gs → (SectionId.vector .globals).Fits s.payload := by
  refine ⟨?_, ?_, ?_⟩
  · rintro name data rfl
    exact ⟨frame, _, isPayload_custom hsize frame⟩
  · rintro func rfl
    exact ⟨frame, _, isPayload_start func frame⟩
  · rintro gs rfl
    obtain ⟨v, hpayload, -⟩ := isPayload_globals hsize frame
    exact ⟨frame, _, hpayload⟩

namespace RawSection

variable {s : RawSection} {r : Record}

theorem Holds.placedId?_eq (h : s.Holds r) : s.placedId? = r.placedId? := by
  obtain ⟨id, frame, hcode, hkind, -⟩ := h
  rw [placedId?, Record.placedId?, ← hcode, SectionId.ofCode?_code, hkind]
  cases id <;> rfl

theorem Holds.isPayload (h : s.Holds r) (id : SectionId) (hcode : id.code = s.code) :
    ∃ frame, IsPayload frame id s.payload r := by
  obtain ⟨id', frame, hcode', -, hpayload⟩ := h
  obtain rfl := SectionId.code_inj (hcode.trans hcode'.symm)
  exact ⟨frame, hpayload⟩

/-- **What is put into a section comes back from its record.** -/
theorem Holds.readsBack (h : s.Holds r) (hsize : s.payload.length < 2 ^ 32) : s.ReadsBack r where
  custom := by
    rintro name data rfl
    obtain ⟨frame, hpayload⟩ := h.isPayload .custom rfl
    exact ⟨frame, hpayload.unique (isPayload_custom hsize frame)⟩
  start := by
    rintro func rfl
    obtain ⟨frame, hpayload⟩ := h.isPayload .start rfl
    exact ⟨frame, hpayload.unique (isPayload_start func frame)⟩
  globals := by
    rintro gs rfl hgs
    obtain ⟨frame, hpayload⟩ := h.isPayload (.vector .globals) rfl
    obtain ⟨v, hwritten, hcount, hbytes⟩ := isPayload_globals hsize frame
    obtain ⟨entries, reader, hread, hfinish, hholds⟩ :=
      EntryVector.readMany_complete hgs hcount hbytes
    exact ⟨frame, v, entries, reader, hpayload.unique hwritten, hread, hfinish, hholds⟩

end RawSection

/-! ## Sections laid end to end -/

/-- The size in front of a payload can be read in one way only, so a section is cut off where it was
written. -/
theorem IsSection.eq_of_write {start : Int} {id : SectionId} {bs rest more : Bytes} {r : Record}
    {s : RawSection} (h : IsSection start id bs r) (hsize : s.payload.length < 2 ^ 32)
    (heq : bs ++ rest = s.write ++ more) : s.Holds r ∧ bs = s.write ∧ rest = more := by
  obtain ⟨hnumber, hpayload⟩ := h
  rename_i size payload
  have hwritten : IsUnsigned 32 s.payload.length (writeUnsigned s.payload.length) :=
    isUnsigned_writeUnsigned (by omega) hsize
  simp only [RawSection.write, List.cons_append, List.cons.injEq, List.append_assoc] at heq
  obtain ⟨hcode, hbytes⟩ := heq
  obtain ⟨rfl, hlen, htail⟩ := Read.unsigned32_parses.unique hnumber hwritten hbytes
  obtain ⟨rfl, rfl⟩ := List.append_inj htail hlen
  exact ⟨⟨id, _, hcode, hpayload.kind, hpayload⟩, by rw [hcode]; rfl, rfl⟩

/-- **Written sections are taken apart as they were written.** -/
theorem AreSections.holds {ss : List RawSection} (hsize : ∀ s ∈ ss, s.payload.length < 2 ^ 32)
    {start : Int} {rs : List Record} (h : AreSections start (ss.flatMap RawSection.write) rs) :
    List.Forall₂ RawSection.Holds ss rs := by
  induction ss generalizing start rs with
  | nil =>
    generalize hdata : [].flatMap RawSection.write = data at h
    cases h with
    | nil => exact .nil
    | cons hsection _ =>
      have hpos := hsection.length_pos
      have hlen := congrArg List.length hdata
      rw [List.length_append] at hlen
      simp at hlen
      omega
  | cons s ss ih =>
    rw [List.forall_mem_cons] at hsize
    generalize hdata : (s :: ss).flatMap RawSection.write = data at h
    rw [List.flatMap_cons] at hdata
    cases h with
    | nil => cases hdata
    | cons hsection hrest =>
      obtain ⟨hholds, -, rfl⟩ := hsection.eq_of_write hsize.1 hdata.symm
      exact .cons hholds (ih hsize.2 hrest)

/-- Sections whose payloads are well formed have records. -/
theorem exists_areSections_of_fits {ss : List RawSection}
    (hsize : ∀ s ∈ ss, s.payload.length < 2 ^ 32)
    (hfits : ∀ s ∈ ss, ∃ id : SectionId, id.code = s.code ∧ id.Fits s.payload) (start : Int) :
    ∃ rs, AreSections start (ss.flatMap RawSection.write) rs := by
  induction ss generalizing start with
  | nil => exact ⟨[], .nil start⟩
  | cons s ss ih =>
    rw [List.forall_mem_cons] at hsize hfits
    obtain ⟨id, hcode, hpayload⟩ := hfits.1
    obtain ⟨r, hr⟩ := hpayload.exists_record
      (sectionFrame start (writeUnsigned s.payload.length) s.payload)
    have hsection : IsSection start id s.write r := by
      rw [RawSection.write, ← hcode]
      exact .mk (isUnsigned_writeUnsigned (by omega) hsize.1) hr
    obtain ⟨rs, hrs⟩ := ih hsize.2 hfits.2 (start + s.write.length)
    exact ⟨r :: rs, .cons hsection hrs⟩

theorem filterMap_placedId?_eq {ss : List RawSection} {rs : List Record}
    (h : List.Forall₂ RawSection.Holds ss rs) :
    ss.filterMap RawSection.placedId? = rs.filterMap Record.placedId? := by
  induction h with
  | nil => rfl
  | cons hholds _ ih => rw [List.filterMap_cons, List.filterMap_cons, hholds.placedId?_eq, ih]

/-! ## Modules -/

theorem isModule_headerBytes_iff {offset : Int} {body : Bytes} {records : List Record} :
    IsModule offset (headerBytes ++ body) records ↔
      ∃ rs, records = .header offset 1 :: rs ∧ AreSections (offset + headerSize) body rs ∧
        (rs.filterMap Record.placedId?).Sublist canonicalOrder := by
  constructor
  · intro h
    generalize hdata : headerBytes ++ body = data at h
    obtain ⟨hsections, horder⟩ := h
    obtain rfl := List.append_cancel_left hdata
    exact ⟨_, rfl, hsections, horder⟩
  · rintro ⟨rs, rfl, hsections, horder⟩
    exact .mk hsections horder

theorem decodeModule_writeModule_eq_ok_iff {ss : List RawSection} {records : List Record} :
    decodeModule (writeModule ss) 0 = .ok records ↔
      ∃ rs, records = .header 0 1 :: rs ∧
        AreSections headerSize (ss.flatMap RawSection.write) rs ∧
        (rs.filterMap Record.placedId?).Sublist canonicalOrder := by
  rw [decodeModule_eq_ok_iff_run (Int.le_refl 0) (Int.natCast_nonneg _), Int.toNat_zero,
    List.drop_zero, Stream.run_eq_iff_isModule, writeModule, isModule_headerBytes_iff,
    Int.zero_add]

/-- Sections that are taken apart in the canonical order are well formed. -/
theorem areWellFormed_of_areSections {ss : List RawSection}
    (hsize : ∀ s ∈ ss, s.payload.length < 2 ^ 32) {start : Int} {rs : List Record}
    (h : AreSections start (ss.flatMap RawSection.write) rs)
    (horder : (rs.filterMap Record.placedId?).Sublist canonicalOrder) : AreWellFormed ss := by
  have hholds := h.holds hsize
  have hrecord : ∀ s ∈ ss, ∃ r, s.Holds r :=
    ((List.forall₂_and_left _ _).1 (hholds.imp fun s r hr => ⟨⟨r, hr⟩, hr⟩)).1
  refine ⟨?_, ?_, ?_⟩
  · intro s hs
    obtain ⟨r, id, frame, hcode, -⟩ := hrecord s hs
    exact SectionId.exists_code_iff.1 ⟨id, hcode⟩
  · rw [filterMap_placedId?_eq hholds]
    exact horder
  · intro s hs id hcode
    obtain ⟨r, hr⟩ := hrecord s hs
    obtain ⟨frame, hpayload⟩ := hr.isPayload id hcode
    exact ⟨frame, r, hpayload⟩

/-- Well-formed sections have records in the canonical order. -/
theorem AreWellFormed.exists_areSections {ss : List RawSection} (h : AreWellFormed ss)
    (hsize : ∀ s ∈ ss, s.payload.length < 2 ^ 32) (start : Int) :
    ∃ rs, AreSections start (ss.flatMap RawSection.write) rs ∧
      (rs.filterMap Record.placedId?).Sublist canonicalOrder := by
  have hfits : ∀ s ∈ ss, ∃ id : SectionId, id.code = s.code ∧ id.Fits s.payload := by
    intro s hs
    obtain ⟨id, hcode⟩ := SectionId.exists_code_iff.2 (h.known s hs)
    exact ⟨id, hcode, h.payloads s hs id hcode⟩
  obtain ⟨rs, hsections⟩ := exists_areSections_of_fits hsize hfits start
  refine ⟨rs, hsections, ?_⟩
  rw [← filterMap_placedId?_eq (hsections.holds hsize)]
  exact h.order

/-- **Decoding undoes writing.** Sections whose payloads are not too long to be written are decoded
exactly when they are well formed. Then the records are the header and one record for each section,
in their order, with the identifier of the section and the content of its payload; what was put
into it by name comes back. The sections that are put together from their content always have
well-formed payloads. -/
theorem decodeModule_writeModule {ss : List RawSection}
    (hsize : ∀ s ∈ ss, s.payload.length < 2 ^ 32) :
    ((∃ records, decodeModule (writeModule ss) 0 = .ok records) ↔ AreWellFormed ss) ∧
      (∀ records, decodeModule (writeModule ss) 0 = .ok records →
        ∃ rs, records = .header 0 1 :: rs ∧ List.Forall₂ RawSection.Holds ss rs ∧
          List.Forall₂ RawSection.ReadsBack ss rs) ∧
      ∀ s ∈ ss, (∀ name data, s = .custom name data → SectionId.custom.Fits s.payload) ∧
        (∀ func, s = .start func → SectionId.start.Fits s.payload) ∧
        ∀ gs, s = .globals gs → (SectionId.vector .globals).Fits s.payload := by
  refine ⟨⟨?_, ?_⟩, ?_, fun s hs => fits_of_built (hsize s hs) ⟨0, 0, 0⟩⟩
  · rintro ⟨records, h⟩
    obtain ⟨rs, -, hsections, horder⟩ := decodeModule_writeModule_eq_ok_iff.1 h
    exact areWellFormed_of_areSections hsize hsections horder
  · intro h
    obtain ⟨rs, hsections, horder⟩ := h.exists_areSections hsize headerSize
    exact ⟨_, decodeModule_writeModule_eq_ok_iff.2 ⟨rs, rfl, hsections, horder⟩⟩
  · intro records h
    obtain ⟨rs, rfl, hsections, -⟩ := decodeModule_writeModule_eq_ok_iff.1 h
    have hholds := hsections.holds hsize
    refine ⟨rs, rfl, hholds, ?_⟩
    exact ((List.forall₂_and_left _ _).2 ⟨hsize, hholds⟩).imp fun s r hr => hr.2.readsBack hr.1

/-- A custom section whose size takes two bytes, a global whose initializer has a block in it, and a
start section. -/
theorem decodeModule_writeModule_three :
    let g : RawGlobal :=
      { type := 0x7F, isMutable := true, init := [0x02, 0x40, 0x0B, 0x41, 0x07, 0x0B] }
    let ss : List RawSection := [.custom "note" (List.replicate 130 0xAA), .globals [g], .start 5]
    (∀ s ∈ ss, s.payload.length < 2 ^ 32) ∧ AreWellFormed ss ∧
      ∃ rs, decodeModule (writeModule ss) 0 = .ok (.header 0 1 :: rs) ∧
        List.Forall₂ RawSection.Holds ss rs ∧ List.Forall₂ RawSection.ReadsBack ss rs := by
  intro g ss
  have hsize : ∀ s ∈ ss, s.payload.length < 2 ^ 32 := by decide +kernel
  have hdecode : decodeModule (writeModule ss) 0 = .ok
      [.header 0 1, .custom ⟨8, 11, 146⟩ "note" (List.replicate 130 0xAA),
        .vector ⟨146, 148, 157⟩ .globals
          { count := 1, bytes := [0x7F, 0x01, 0x02, 0x40, 0x0B, 0x41, 0x07, 0x0B], offset := 149 },
        .startFunction ⟨157, 159, 160⟩ 5] := by
    decide +kernel
  obtain ⟨hiff, hrecords, -⟩ := decodeModule_writeModule hsize
  obtain ⟨rs, hrs, hholds, hback⟩ := hrecords _ hdecode
  exact ⟨hsize, hiff.1 ⟨_, hdecode⟩, rs, hdecode.trans (congrArg _ hrs), hholds, hback⟩

end WasmUdon
