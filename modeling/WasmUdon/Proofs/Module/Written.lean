import WasmUdon.Proofs.Lowering.Section
import WasmUdon.Proofs.Module.Grammar
import WasmUdon.Proofs.Operator.Written

/-!
# Written global sections are read back

A global whose type is a single byte and whose initializer is one constant expression is read back
(`readGlobalEntry_write`), so the entries of a global section are those that were written, one for
one, and no bytes are left behind them (`EntryVector.readMany_complete`).

A module with nothing but a global section is a module of the grammar (`isModule_globals`).
-/

namespace WasmUdon

/-- A global that is read back: no heap type belongs to its type, and its initializer is a constant
expression. -/
structure RawGlobal.IsComplete (g : RawGlobal) : Prop where
  type : ∃ type : ValueType, type.code = g.type ∧ type.hasHeapType = false
  init : IsConstExpr 0 g.init

/-- A global whose initializer was put together from operators. -/
structure RawGlobal.IsWhole (g : RawGlobal) : Prop where
  type : ∃ type : ValueType, type.code = g.type ∧ type.hasHeapType = false
  init : ∃ ops, g.init = writeInit ops ∧ InitOperator.AreInit ops

/-- The entry is that of a global that was written. -/
structure RawGlobal.Holds (g : RawGlobal) (entry : GlobalEntry) : Prop where
  type : entry.type.type.code = g.type
  isMutable : entry.type.isMutable = g.isMutable
  init : entry.init.bytes = g.init

theorem RawGlobal.IsWhole.isComplete {g : RawGlobal} (h : g.IsWhole) : g.IsComplete := by
  obtain ⟨htype, ops, hinit, hops⟩ := h
  exact ⟨htype, hinit ▸ isConstExpr_writeInit hops⟩

theorem RawGlobal.length_write (g : RawGlobal) : g.write.length = 2 + g.init.length := by
  rw [write, List.length_cons, List.length_cons]
  omega

/-- Looking at the position takes no bytes. -/
theorem Read.position_bind_yields {β : Type} {f : Int → Read β} {bs : Bytes} {b : β}
    (h : ∀ position, (f position).Yields bs b) : (position >>= f).Yields bs b := by
  intro c c' hc
  rw [position_bind]
  exact h c.position c c' hc

theorem readGlobalType_yields {type : ValueType} (h : type.hasHeapType = false)
    (isMutable : Bool) :
    readGlobalType.Yields [type.code, if isMutable then 1 else 0] { type, isMutable } := by
  refine Read.position_bind_yields fun start => (Read.byte_yields type.code).bind ?_
  simp only [ValueType.ofCode?_code, h]
  refine (Read.Yields.pure none).bind (Read.position_bind_yields fun position => ?_)
  refine (Read.byte_yields _).bind ?_
  cases isMutable with
  | false => exact .pure _
  | true => exact .pure _

/-- **A global that is written is read back.** -/
theorem readGlobalEntry_write {g : RawGlobal} (h : g.IsComplete) {c c' : Cursor}
    (hc : c.Takes g.write c') : ∃ entry, readGlobalEntry c = .ok entry c' ∧ g.Holds entry := by
  obtain ⟨⟨type, htype, hheap⟩, hinit⟩ := h
  have hwrite : g.write = [type.code, if g.isMutable then 1 else 0] ++ g.init := by
    rw [RawGlobal.write, htype]
    rfl
  rw [hwrite] at hc
  obtain ⟨c₁, hfront, hback⟩ := hc.split
  have hexpr : readConstExpr c₁ = .ok { bytes := g.init, offset := c₁.position } c' :=
    readConstExpr_eq_ok_iff.2 ⟨hback, hinit, rfl⟩
  refine ⟨{ type := { type, isMutable := g.isMutable },
            init := { bytes := g.init, offset := c₁.position } }, ?_, htype, rfl, rfl⟩
  refine Read.bind_eq_ok_iff.2 ⟨_, c₁, readGlobalType_yields hheap g.isMutable c c₁ hfront, ?_⟩
  exact Read.bind_eq_ok_iff.2 ⟨_, c', hexpr, rfl⟩

namespace GlobalReader

theorem read_write {g : RawGlobal} (h : g.IsComplete) {r : GlobalReader}
    (hmore : r.index < r.count.toNat) {c' : Cursor} (hc : r.cursor.Takes g.write c') :
    ∃ entry, r.read = (.ok entry, { r with cursor := c', index := r.index + 1 }) ∧
      g.Holds entry := by
  obtain ⟨entry, hread, hholds⟩ := readGlobalEntry_write h hc
  refine ⟨entry, ?_, hholds⟩
  rw [read, hasMore, decide_eq_true hmore, if_pos rfl, hread]

/-- Globals written one after the other are read back. -/
theorem readMany_write {gs : List RawGlobal} (hgs : ∀ g ∈ gs, g.IsComplete) {r : GlobalReader}
    (hcount : r.index + gs.length ≤ r.count.toNat) {c' : Cursor}
    (hc : r.cursor.Takes (gs.flatMap RawGlobal.write) c') :
    ∃ entries, readMany gs.length r =
        .ok (entries, { r with cursor := c', index := r.index + gs.length }) ∧
      List.Forall₂ RawGlobal.Holds gs entries := by
  induction gs generalizing r with
  | nil =>
    rw [hc.eq_of_nil]
    exact ⟨[], rfl, .nil⟩
  | cons g gs ih =>
    rw [List.forall_mem_cons] at hgs
    rw [List.length_cons] at hcount
    obtain ⟨c₁, hg, hrest⟩ := hc.split
    obtain ⟨entry, hread, hholds⟩ := read_write hgs.1 (by omega) hg
    obtain ⟨entries, hmany, hall⟩ :=
      ih (r := { r with cursor := c₁, index := r.index + 1 }) hgs.2 (by simp only; omega) hrest
    refine ⟨entry :: entries, ?_, .cons hholds hall⟩
    rw [List.length_cons, readMany]
    simp only [hread, hmany]
    rw [Nat.add_assoc, Nat.add_comm 1]

theorem finish_of_all {r : GlobalReader} (hindex : r.index = r.count.toNat)
    (hrest : r.cursor.rest = []) : r.finish = .ok () := by
  rw [finish, hasMore, hindex, decide_eq_false (Nat.lt_irrefl _), hrest]
  rfl

end GlobalReader

/-- **A written section is read to its end**, and its entries are those that were written. -/
theorem EntryVector.readMany_complete {gs : List RawGlobal} (hgs : ∀ g ∈ gs, g.IsComplete)
    {v : EntryVector} (hcount : v.count.toNat = gs.length)
    (hbytes : v.bytes = gs.flatMap RawGlobal.write) :
    ∃ entries r, GlobalReader.readMany v.count.toNat (.ofVector v) = .ok (entries, r) ∧
      r.finish = .ok () ∧ List.Forall₂ RawGlobal.Holds gs entries := by
  have hc : (GlobalReader.ofVector v).cursor.Takes (gs.flatMap RawGlobal.write)
      ⟨v.offset, v.bytes.length, []⟩ := by
    rw [← hbytes]
    exact ⟨rfl, (List.append_nil _).symm, (Nat.zero_add _).symm⟩
  have hlen : (GlobalReader.ofVector v).index + gs.length = v.count.toNat := by
    rw [hcount]
    exact Nat.zero_add _
  obtain ⟨entries, hread, hholds⟩ := GlobalReader.readMany_write hgs (Nat.le_of_eq hlen) hc
  rw [← hcount] at hread
  refine ⟨entries, _, hread, GlobalReader.finish_of_all ?_ rfl, hholds⟩
  exact hcount ▸ hlen

theorem EntryVector.readMany_write {gs : List RawGlobal} (hgs : ∀ g ∈ gs, g.IsWhole)
    {v : EntryVector} (hcount : v.count.toNat = gs.length)
    (hbytes : v.bytes = gs.flatMap RawGlobal.write) :
    ∃ entries r, GlobalReader.readMany v.count.toNat (.ofVector v) = .ok (entries, r) ∧
      r.finish = .ok () ∧ List.Forall₂ RawGlobal.Holds gs entries :=
  readMany_complete (fun g hg => (hgs g hg).isComplete) hcount hbytes

/-! ## The module -/

theorem length_le_length_flatMap_write (gs : List RawGlobal) :
    gs.length ≤ (gs.flatMap RawGlobal.write).length := by
  induction gs with
  | nil => exact Nat.le_refl 0
  | cons g gs ih =>
    rw [List.flatMap_cons, List.length_append, g.length_write, List.length_cons]
    omega

/-- The payload of a written global section. -/
theorem isPayload_globals {gs : List RawGlobal}
    (hsize : (RawSection.globals gs).payload.length < 2 ^ 32) (frame : Frame) :
    ∃ v, IsPayload frame (.vector .globals) (RawSection.globals gs).payload
        (.vector frame .globals v) ∧
      v.count.toNat = gs.length ∧ v.bytes = gs.flatMap RawGlobal.write := by
  have hpayload : (RawSection.globals gs).payload =
      writeUnsigned gs.length ++ gs.flatMap RawGlobal.write := rfl
  have hle := length_le_length_flatMap_write gs
  have hlt : gs.length < 2 ^ 32 := by
    rw [hpayload, List.length_append] at hsize
    omega
  have hcount : (UInt32.ofNat gs.length).toNat = gs.length := UInt32.toNat_ofNat_of_lt' hlt
  have hnumber : IsUnsigned 32 (UInt32.ofNat gs.length).toNat (writeUnsigned gs.length) := by
    rw [hcount]
    exact isUnsigned_writeUnsigned (by omega) hlt
  exact ⟨_, .vector hnumber (hcount.symm ▸ hle), hcount, rfl⟩

/-- **A written global section is a module by itself.** -/
theorem isModule_globals {gs : List RawGlobal}
    (hsize : (RawSection.globals gs).payload.length < 2 ^ 32) (offset : Int) :
    ∃ frame v, IsModule offset (writeModule [.globals gs])
        [.header offset 1, .vector frame .globals v] ∧
      v.count.toNat = gs.length ∧ v.bytes = gs.flatMap RawGlobal.write := by
  let frame : Frame := sectionFrame (offset + headerSize)
    (writeUnsigned (RawSection.globals gs).payload.length) (RawSection.globals gs).payload
  obtain ⟨v, hpayload, hcount, hbytes⟩ := isPayload_globals hsize frame
  have hsection : IsSection (offset + headerSize) (.vector .globals) (RawSection.globals gs).write
      (.vector frame .globals v) :=
    .mk (isUnsigned_writeUnsigned (by omega) hsize) hpayload
  have horder : ([Record.vector frame .globals v].filterMap Record.placedId?).Sublist
      canonicalOrder := by
    change [SectionId.vector .globals].Sublist canonicalOrder
    decide
  exact ⟨frame, v, .mk (.cons hsection (.nil _)) horder, hcount, hbytes⟩

end WasmUdon
