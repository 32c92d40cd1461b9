import WasmUdon.Operator.Reader
import WasmUdon.Proofs.Binary.Reading

/-!
# Operators carry the immediates their opcodes ask for

An operator built by hand may pair any opcode with any immediate, but one that was read carries the
immediate of the layout of its opcode (`Operator.WellTyped`). So what is lowered later never meets
an immediate that does not belong to its operator.
-/

namespace WasmUdon

/-- The layout that an immediate is written in. -/
def Immediate.layout : Immediate → Layout
  | .block _ => .blockType
  | .branch _ => .label
  | .branchTable _ _ => .labelTable
  | .call _ => .func
  | .callIndirect _ _ => .typeAndTable
  | .localIndex _ => .localIndex
  | .globalIndex _ => .globalIndex
  | .tableIndex _ => .tableIndex
  | .memory _ _ _ => .memoryArgument
  | .memoryIndex _ => .memoryIndex
  | .i32 _ => .i32
  | .i64 _ => .i64
  | .f32 _ => .f32
  | .f64 _ => .f64
  | .v128 _ => .vectorFamily
  | .refNull _ => .heapType
  | .refFunc _ => .funcReference
  | .select _ => .typeList

/-- An immediate, or its absence, belongs to a layout. -/
def Layout.Holds (layout : Layout) : Option Immediate → Prop
  | none => layout = .nothing ∨ layout = .miscFamily
  | some immediate => immediate.layout = layout

theorem Layout.holds_of_read {layout : Layout} {offset : Int} {family : UInt8} {c c' : Cursor}
    {sub : UInt32} {immediate : Option Immediate}
    (h : layout.read offset family c = .ok (sub, immediate) c') : layout.Holds immediate := by
  cases layout <;> simp only [Layout.read] at h
  case nothing =>
    cases h
    exact .inl rfl
  case labelTable =>
    obtain ⟨labels, c₁, -, h⟩ := Read.bind_eq_ok_iff.1 h
    obtain ⟨default, c₂, -, h⟩ := Read.bind_eq_ok_iff.1 h
    cases h
    rfl
  case typeAndTable =>
    obtain ⟨type, c₁, -, h⟩ := Read.bind_eq_ok_iff.1 h
    obtain ⟨table, c₂, -, h⟩ := Read.bind_eq_ok_iff.1 h
    cases h
    rfl
  case memoryArgument =>
    obtain ⟨argument, c₁, harg, h⟩ := Read.bind_eq_ok_iff.1 h
    cases h
    obtain ⟨flags, c₂, -, harg⟩ := Read.bind_eq_ok_iff.1 harg
    split at harg
    all_goals
      obtain ⟨memory, c₃, -, harg⟩ := Read.bind_eq_ok_iff.1 harg
      obtain ⟨offset, c₄, -, harg⟩ := Read.bind_eq_ok_iff.1 harg
      cases harg
      rfl
  case miscFamily =>
    obtain ⟨sub', c₁, -, h⟩ := Read.bind_eq_ok_iff.1 h
    split at h
    · cases h
      exact .inr rfl
    · cases h
  case vectorFamily =>
    obtain ⟨sub', c₁, -, h⟩ := Read.bind_eq_ok_iff.1 h
    split at h
    · obtain ⟨bs, c₂, -, h⟩ := Read.bind_eq_ok_iff.1 h
      cases h
      rfl
    · cases h
  -- all other layouts are one value
  all_goals
    obtain ⟨value, c₁, -, h⟩ := Read.bind_eq_ok_iff.1 h
    cases h
    rfl

namespace Operator

/-- The operator carries the immediate of the layout of its opcode. -/
def WellTyped (op : Operator) : Prop :=
  ∃ layout, Layout.ofOpcode? op.opcode = some layout ∧ layout.Holds op.immediate

theorem wellTyped_of_readBehind {offset : Int} {opcode : UInt8} {c c' : Cursor} {op : Operator}
    (h : readBehind offset opcode c = .ok op c') : op.WellTyped := by
  cases hlayout : Layout.ofOpcode? opcode with
  | none =>
    simp only [readBehind, hlayout] at h
    cases h
  | some layout =>
    simp only [readBehind, hlayout] at h
    obtain ⟨⟨sub, immediate⟩, c₁, hread, h⟩ := Read.bind_eq_ok_iff.1 h
    cases h
    exact ⟨layout, hlayout, Layout.holds_of_read hread⟩

/-- **An operator that was read is well typed.** -/
theorem wellTyped_of_next {c c' : Cursor} {op : Operator} (h : next c = .ok op c') :
    op.WellTyped := by
  obtain ⟨opcode, c₁, -, hbehind⟩ := Read.bind_eq_ok_iff.1 (readAt_of_next h)
  exact wellTyped_of_readBehind hbehind

/-- Reading operators one after the other, unfolded by one operator. -/
theorem readAll_eq (c : Cursor) :
    readAll c =
      if c.rest.isEmpty then ([], none)
      else
        match next c with
        | .error e _ => ([], some e)
        | .ok op c' => (op :: (readAll c').1, (readAll c').2) := by
  rw [readAll]
  split
  · rfl
  · split
    · rename_i h
      rw [h]
    · rename_i h
      simp only [h]

theorem wellTyped_of_mem_readAll {c : Cursor} {op : Operator} (h : op ∈ (readAll c).1) :
    op.WellTyped := by
  induction hlen : c.rest.length using Nat.strongRecOn generalizing c with
  | ind len ih =>
  rw [readAll_eq] at h
  split at h
  · cases h
  · split at h
    · cases h
    · rename_i op' c' hnext
      rcases List.mem_cons.1 h with rfl | h
      · exact wellTyped_of_next hnext
      · exact ih _ (hlen ▸ length_lt_of_next hnext) h rfl

theorem WellTyped.holds {op : Operator} (h : op.WellTyped) {layout : Layout}
    (hlayout : Layout.ofOpcode? op.opcode = some layout) : layout.Holds op.immediate := by
  obtain ⟨layout', h', hholds⟩ := h
  rw [hlayout, Option.some.injEq] at h'
  rw [h']
  exact hholds

end Operator

end WasmUdon
