import WasmUdon.Module.Builder
import WasmUdon.Proofs.Binary.Written
import WasmUdon.Proofs.Operator.Grammar

/-!
# Written operators are read back

An operator that is written is read as the same operator at the offset where it was found
(`Operator.next_write`), so operators written one after the other are read as they were laid out
(`Operator.readAll_write`).

An initializer that is written is a constant expression of the grammar (`isConstExpr_writeInit`).
-/

namespace WasmUdon

namespace InitOperator

/-- The operator as it is found at an offset. -/
def operator (offset : Int) : InitOperator → Operator
  | .i32 value => { opcode := Opcode.i32Const, immediate := some (.i32 value), offset }
  | .i64 value => { opcode := Opcode.i64Const, immediate := some (.i64 value), offset }
  | .f32 bits => { opcode := Opcode.f32Const, immediate := some (.f32 bits), offset }
  | .f64 bits => { opcode := Opcode.f64Const, immediate := some (.f64 bits), offset }
  | .globalGet index =>
    { opcode := Opcode.globalGet, immediate := some (.globalIndex index), offset }
  | .raw opcode => { opcode, offset }

/-- The bytes are a whole operator: a single byte must be one that nothing follows. -/
def IsWhole : InitOperator → Prop
  | .raw opcode => Layout.ofOpcode? opcode = some .nothing
  | _ => True

/-- The operators as they are found from an offset on. -/
def layOut (offset : Int) : List InitOperator → List Operator
  | [] => []
  | op :: ops => op.operator offset :: layOut (offset + op.write.length) ops

end InitOperator

theorem Cursor.Takes.position_eq {c c' : Cursor} {bs : Bytes} (h : c.Takes bs c') :
    c'.position = c.position + bs.length := by
  rw [position, position, h.base, h.consumed]
  push_cast
  ring

namespace Operator

theorem readBehind_yields {offset : Int} {opcode : UInt8} {layout : Layout} {bs : Bytes}
    {sub : UInt32} {immediate : Option Immediate}
    (hlayout : Layout.ofOpcode? opcode = some layout)
    (h : (layout.read offset opcode).Yields bs (sub, immediate)) :
    (readBehind offset opcode).Yields bs { opcode, sub, immediate, offset } := by
  simp only [readBehind, hlayout]
  exact h.map fun x => ({ opcode, sub := x.1, immediate := x.2, offset } : Operator)

theorem readAt_write (offset : Int) {op : InitOperator} (h : op.IsWhole) :
    (readAt offset).Yields op.write (op.operator offset) := by
  cases op with
  | i32 value =>
    refine (Read.byte_yields _).bind (readBehind_yields rfl ?_)
    exact (Read.s32_yields value).map fun value => ((0 : UInt32), some (Immediate.i32 value))
  | i64 value =>
    refine (Read.byte_yields _).bind (readBehind_yields rfl ?_)
    exact (Read.s64_yields value).map fun value => ((0 : UInt32), some (Immediate.i64 value))
  | f32 bits =>
    refine (Read.byte_yields _).bind (readBehind_yields rfl ?_)
    exact (Read.u32le_yields bits).map fun bits => ((0 : UInt32), some (Immediate.f32 bits))
  | f64 bits =>
    refine (Read.byte_yields _).bind (readBehind_yields rfl ?_)
    exact (Read.u64le_yields bits).map fun bits => ((0 : UInt32), some (Immediate.f64 bits))
  | globalGet index =>
    refine (Read.byte_yields _).bind (readBehind_yields rfl ?_)
    exact (Read.u32_yields index).map fun index =>
      ((0 : UInt32), some (Immediate.globalIndex index))
  | raw opcode => exact (Read.byte_yields _).bind (readBehind_yields h (.pure _))

/-- **An operator that is written is read back**, at the offset where it stands. -/
theorem next_write {op : InitOperator} (h : op.IsWhole) {c c' : Cursor}
    (hc : c.Takes op.write c') : next c = .ok (op.operator c.position) c' := by
  rw [next, readAt_write c.position h c c' hc]

theorem readAll_of_next {c c' : Cursor} {op : Operator} (h : next c = .ok op c') :
    readAll c = (op :: (readAll c').1, (readAll c').2) := by
  rw [readAll_eq, isEmpty_of_next h, h]
  rfl

/-- **Operators written one after the other are read as they were laid out.** -/
theorem readAll_write {ops : List InitOperator} (hops : ∀ op ∈ ops, op.IsWhole) {c c' : Cursor}
    (hc : c.Takes (ops.flatMap InitOperator.write) c') (hend : c'.rest = []) :
    readAll c = (InitOperator.layOut c.position ops, none) := by
  induction ops generalizing c with
  | nil =>
    have hrest : c.rest = [] := hc.rest.trans hend
    rw [readAll_eq, hrest]
    rfl
  | cons op ops ih =>
    rw [List.forall_mem_cons] at hops
    obtain ⟨c₁, hop, hrest⟩ := hc.split
    rw [readAll_of_next (next_write hops.1 hop), ih hops.2 hrest, hop.position_eq]
    rfl

end Operator

/-! ## Initializers -/

namespace InitOperator

theorem writeInit_eq (ops : List InitOperator) :
    writeInit ops = (ops ++ [raw Opcode.blockEnd]).flatMap write := by
  rw [List.flatMap_append, writeInit]
  rfl

theorem isWhole_end : IsWhole (raw Opcode.blockEnd) := rfl

/-- A whole operator opens no block: a block type would follow. -/
theorem IsWhole.opcode_ne {op : InitOperator} (h : op.IsWhole) (offset : Int) :
    ¬((op.operator offset).opcode = Opcode.block ∨ (op.operator offset).opcode = Opcode.loop ∨
      (op.operator offset).opcode = Opcode.ifThen) := by
  cases op with
  | raw opcode =>
    have hlayout : Layout.ofOpcode? opcode = some .nothing := h
    change ¬(opcode = Opcode.block ∨ opcode = Opcode.loop ∨ opcode = Opcode.ifThen)
    rintro (rfl | rfl | rfl) <;> exact absurd hlayout (by decide)
  | _ =>
    simp only [operator]
    decide

/-- The initializer is read back: its operators are whole, and none of them ends it. -/
def AreInit (ops : List InitOperator) : Prop :=
  ∀ op ∈ ops, op.IsWhole ∧ op ≠ raw Opcode.blockEnd

theorem opcode_ne_end {op : InitOperator} (h : op ≠ raw Opcode.blockEnd) (offset : Int) :
    (op.operator offset).opcode ≠ Opcode.blockEnd := by
  cases op with
  | raw opcode =>
    rintro rfl
    exact h rfl
  | _ =>
    simp only [operator]
    decide

end InitOperator

/-- An operator that is written is an operator of the grammar. -/
theorem InitOperator.isOperator_write {op : InitOperator} (h : op.IsWhole) (offset : Int) :
    IsOperator op.write (op.operator offset) := by
  have hc : (Cursor.ofBytes op.write offset).Takes op.write ⟨offset, op.write.length, []⟩ :=
    ⟨rfl, (List.append_nil _).symm, (Nat.zero_add _).symm⟩
  have hread := Operator.readAt_write offset h _ _ hc
  exact ((Operator.readAt_parses offset).of_takes hread hc).1

/-- **An initializer that is written is a constant expression.** -/
theorem isConstExpr_writeInit {ops : List InitOperator} (hops : InitOperator.AreInit ops) :
    IsConstExpr 0 (writeInit ops) := by
  induction ops with
  | nil => exact .last (InitOperator.isOperator_write InitOperator.isWhole_end 0) rfl
  | cons op ops ih =>
    obtain ⟨⟨hwhole, hne⟩, hops⟩ := List.forall_mem_cons.1 hops
    rw [writeInit, List.flatMap_cons, List.append_assoc, ← writeInit]
    refine .cons (InitOperator.isOperator_write hwhole 0) ?_ (ih hops)
    rw [Operator.depthAfter, if_neg (hwhole.opcode_ne 0), if_neg (InitOperator.opcode_ne_end hne 0)]

/-- The operators of an initializer that was written. -/
theorem readAll_writeInit {ops : List InitOperator} (hops : InitOperator.AreInit ops)
    (offset : Int) :
    Operator.readAll (.ofBytes (writeInit ops) offset) =
      (InitOperator.layOut offset (ops ++ [.raw Opcode.blockEnd]), none) := by
  have hwhole : ∀ op ∈ ops ++ [.raw Opcode.blockEnd], op.IsWhole := by
    intro op hop
    rcases List.mem_append.1 hop with hop | hop
    · exact (hops op hop).1
    · cases List.mem_singleton.1 hop
      exact InitOperator.isWhole_end
  have hc : (Cursor.ofBytes (writeInit ops) offset).Takes (writeInit ops)
      ⟨offset, (writeInit ops).length, []⟩ :=
    ⟨rfl, (List.append_nil _).symm, (Nat.zero_add _).symm⟩
  rw [InitOperator.writeInit_eq] at hc ⊢
  rw [Operator.readAll_write hwhole hc rfl, Cursor.position, Cursor.ofBytes]
  simp

end WasmUdon
