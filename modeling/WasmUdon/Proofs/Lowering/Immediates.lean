import WasmUdon.Proofs.Lowering.Initializer
import WasmUdon.Proofs.Operator.Written

/-!
# Lowering checks immediates

An operator built by hand may pair any opcode with any immediate. Accesses to variables and
constants are lowered with the help of their immediates, so they should be lowered only if the
immediate is one that an operator of this opcode is read with (`Operator.AsRead`), and a constant
should become a constant of the type that belongs to its opcode (`Operator.ChecksImmediate`).

Accesses to variables keep to this. Constants do not: they are lowered by the immediate alone, so an
opcode of one type with a constant of another becomes a constant of the other type. These pairs are
the only exception (`Operator.checksImmediate_iff`).
-/

namespace WasmUdon

namespace Opcode

/-- The opcodes of accesses to globals. -/
def globalAccesses : List UInt8 := [globalGet, globalSet]

/-- The opcodes of accesses to locals. -/
def localAccesses : List UInt8 := [localGet, localSet, localTee]

/-- The assembly type of the constants of an opcode. -/
def constantType? : UInt8 → Option AsmType
  | i32Const => some .int32
  | i64Const => some .int64
  | f32Const => some .single
  | f64Const => some .double
  | _ => none

end Opcode

namespace Operator

/-- The operator carries an immediate that an operator of its opcode is read with. -/
def AsRead (op : Operator) : Prop :=
  ∃ c c' read, next c = .ok read c' ∧ read.opcode = op.opcode ∧ read.immediate = op.immediate

/-- Lowering the operator checks its immediate: the operator is lowered only if its immediate is one
that is read with its opcode, and a constant is lowered to a constant of the type of its opcode. -/
def ChecksImmediate (op : Operator) (scope : Scope) : Prop :=
  ∀ block, op.lower scope = .ok block →
    op.AsRead ∧ ∀ type, Opcode.constantType? op.opcode = some type →
      ∃ value, block = [.mark (some value)] ∧ value.type = type

/-- The opcode is that of a constant of one type, and the immediate is a constant of another. -/
def Mispaired (op : Operator) : Prop :=
  ∃ type value, Opcode.constantType? op.opcode = some type ∧ op.literal? = some value ∧
    value.type ≠ type

end Operator

/-! ## Immediates as they are read -/

/-- The layouts of the immediates that lowering looks at. -/
def Layout.lowered : List Layout := [.globalIndex, .localIndex, .i32, .i64, .f32, .f64]

/-- Every immediate that lowering looks at can be written. -/
theorem Immediate.exists_form {immediate : Immediate} (h : immediate.layout ∈ Layout.lowered) :
    ∃ bs, immediate.layout.Form bs (0, some immediate) := by
  cases immediate with
  | localIndex index => exact ⟨_, index, Read.u32_parses.yields_iff.1 (Read.u32_yields index), rfl⟩
  | globalIndex index => exact ⟨_, index, Read.u32_parses.yields_iff.1 (Read.u32_yields index), rfl⟩
  | i32 value => exact ⟨_, value, Read.s32_parses.yields_iff.1 (Read.s32_yields value), rfl⟩
  | i64 value => exact ⟨_, value, Read.s64_parses.yields_iff.1 (Read.s64_yields value), rfl⟩
  | f32 bits => exact ⟨_, bits, Read.u32le_parses.yields_iff.1 (Read.u32le_yields bits), rfl⟩
  | f64 bits => exact ⟨_, bits, Read.u64le_parses.yields_iff.1 (Read.u64le_yields bits), rfl⟩
  | _ => simp [Immediate.layout, Layout.lowered] at h

namespace Operator

variable {op : Operator} {scope : Scope}

theorem wellTyped_iff_holds {layout : Layout} (hlayout : Layout.ofOpcode? op.opcode = some layout) :
    op.WellTyped ↔ layout.Holds op.immediate :=
  ⟨fun h => h.holds hlayout, fun h => ⟨layout, hlayout, h⟩⟩

/-- The immediates that belong to an opcode are those that are read with it. -/
theorem asRead_iff_wellTyped {layout : Layout} (hlayout : Layout.ofOpcode? op.opcode = some layout)
    (hlowered : layout ∈ Layout.lowered) : op.AsRead ↔ op.WellTyped := by
  constructor
  · rintro ⟨c, c', read, hread, hopcode, himmediate⟩
    rw [WellTyped, ← hopcode, ← himmediate]
    exact wellTyped_of_next hread
  · intro h
    rw [wellTyped_iff_holds hlayout] at h
    cases himmediate : op.immediate with
    | none =>
      rw [himmediate] at h
      rcases h with rfl | rfl <;> simp [Layout.lowered] at hlowered
    | some immediate =>
      rw [himmediate] at h
      cases h
      obtain ⟨bs, hform⟩ := immediate.exists_form hlowered
      have hop : IsOperator (op.opcode :: bs) { op with sub := 0 } :=
        ⟨_, bs, hlayout, rfl, himmediate ▸ hform⟩
      have htakes : (Cursor.ofBytes (op.opcode :: bs) 0).Takes (op.opcode :: bs)
          ⟨0, (op.opcode :: bs).length, []⟩ :=
        ⟨rfl, (List.append_nil _).symm, (Nat.zero_add _).symm⟩
      exact ⟨_, _, _, next_of_isOperator hop htakes, rfl, rfl⟩

/-! ## Accesses to variables -/

theorem exists_lower_iff_of_global (hop : op.opcode ∈ Opcode.globalAccesses) :
    (∃ block, op.lower scope = .ok block) ↔ op.AsRead := by
  simp only [Opcode.globalAccesses, List.mem_cons, List.not_mem_nil, or_false] at hop
  have hlayout : Layout.ofOpcode? op.opcode = some .globalIndex := by
    rcases hop with hop | hop <;> rw [hop] <;> rfl
  rw [asRead_iff_wellTyped hlayout (by decide), wellTyped_iff_holds hlayout]
  obtain ⟨opcode, sub, immediate, offset⟩ := op
  -- the same immediates are refused for both opcodes
  rcases hop with rfl | rfl
  all_goals
    rcases immediate with _ | immediate
    · exact iff_of_false (by rintro ⟨_, ⟨⟩⟩) (by simp [Layout.Holds])
    · cases immediate with
      | globalIndex index => exact iff_of_true ⟨_, rfl⟩ rfl
      | _ => exact iff_of_false (by rintro ⟨_, ⟨⟩⟩) (by simp [Layout.Holds, Immediate.layout])

theorem exists_lower_iff_of_local (hop : op.opcode ∈ Opcode.localAccesses) :
    (∃ block, op.lower scope = .ok block) ↔ op.AsRead ∧ ∃ function, scope = .function function := by
  simp only [Opcode.localAccesses, List.mem_cons, List.not_mem_nil, or_false] at hop
  have hlayout : Layout.ofOpcode? op.opcode = some .localIndex := by
    rcases hop with hop | hop | hop <;> rw [hop] <;> rfl
  rw [asRead_iff_wellTyped hlayout (by decide), wellTyped_iff_holds hlayout]
  obtain ⟨opcode, sub, immediate, offset⟩ := op
  cases scope with
  | module =>
    refine iff_of_false ?_ (by simp)
    rintro ⟨_, h⟩
    rcases hop with rfl | rfl | rfl <;> cases h
  | function function =>
    rw [and_iff_left ⟨function, rfl⟩]
    rcases hop with rfl | rfl | rfl
    all_goals
      rcases immediate with _ | immediate
      · exact iff_of_false (by rintro ⟨_, ⟨⟩⟩) (by simp [Layout.Holds])
      · cases immediate with
        | localIndex index => exact iff_of_true ⟨_, rfl⟩ rfl
        | _ => exact iff_of_false (by rintro ⟨_, ⟨⟩⟩) (by simp [Layout.Holds, Immediate.layout])

/-! ## Constants -/

/-- A constant is lowered by its immediate alone. -/
theorem lower_eq_ok_iff_of_constant (hop : op.opcode ∈ Opcode.constants) {block : Block} :
    op.lower scope = .ok block ↔
      ∃ value, op.literal? = some value ∧ block = [.mark (some value)] := by
  have hlower : op.lower scope =
      op.literal?.elim (.error op.badImmediate) fun value => .ok [.mark (some value)] := by
    simp only [Opcode.constants, List.mem_cons, List.not_mem_nil, or_false] at hop
    rcases hop with hop | hop | hop | hop <;> rw [lower.eq_def, hop] <;> cases op.literal? <;> rfl
  rw [hlower]
  cases op.literal? with
  | none => simp
  | some value => simp [eq_comm]

/-- A constant has an immediate that is read with its opcode exactly if the types agree. -/
theorem asRead_iff_of_constant {type : AsmType}
    (htype : Opcode.constantType? op.opcode = some type) :
    op.AsRead ↔ ∃ value, op.literal? = some value ∧ value.type = type := by
  have hpairs : ∃ layout ∈ Layout.lowered, Layout.ofOpcode? op.opcode = some layout ∧
      (layout, type) ∈ [(Layout.i32, AsmType.int32), (.i64, .int64), (.f32, .single),
        (.f64, .double)] := by
    unfold Opcode.constantType? at htype
    split at htype
    case h_5 => cases htype
    all_goals
      rename_i hop
      cases htype
      rw [hop]
      decide
  obtain ⟨layout, hlowered, hlayout, hpair⟩ := hpairs
  rw [asRead_iff_wellTyped hlayout hlowered, wellTyped_iff_holds hlayout, literal?]
  simp only [List.mem_cons, List.not_mem_nil, or_false, Prod.mk.injEq] at hpair
  -- every pair of an opcode and an immediate
  rcases hpair with ⟨rfl, rfl⟩ | ⟨rfl, rfl⟩ | ⟨rfl, rfl⟩ | ⟨rfl, rfl⟩
  all_goals
    rcases op.immediate with _ | immediate
    · simp [Layout.Holds]
    · cases immediate <;>
        simp [Layout.Holds, Immediate.layout, Literal.int32, Literal.int64, Literal.single,
          Literal.double]

/-! ## Which pairs are lowered -/

theorem constantType?_of_access
    (hop : op.opcode ∈ Opcode.globalAccesses ++ Opcode.localAccesses) :
    Opcode.constantType? op.opcode = none := by
  simp only [Opcode.globalAccesses, Opcode.localAccesses, List.cons_append, List.nil_append,
    List.mem_cons, List.not_mem_nil, or_false] at hop
  rcases hop with hop | hop | hop | hop | hop <;> rw [hop] <;> rfl

theorem exists_constantType? (hop : op.opcode ∈ Opcode.constants) :
    ∃ type, Opcode.constantType? op.opcode = some type := by
  simp only [Opcode.constants, List.mem_cons, List.not_mem_nil, or_false] at hop
  rcases hop with hop | hop | hop | hop <;> rw [hop] <;> exact ⟨_, rfl⟩

/-- **The only unchecked immediates are constants of another type.** An access to a variable or a
constant is lowered exactly if its immediate is one that is read with its opcode, and for locals if
this happens in a function, or if the opcode is that of a constant of one type and the immediate a
constant of another. -/
theorem checksImmediate_iff (op : Operator) (scope : Scope)
    (hop : op.opcode ∈ Opcode.globalAccesses ++ Opcode.localAccesses ++ Opcode.constants) :
    (op.ChecksImmediate scope ↔ ¬ op.Mispaired) ∧
    ((∃ block, op.lower scope = .ok block) ↔
      (op.AsRead ∧ (op.opcode ∈ Opcode.localAccesses → ∃ function, scope = .function function)) ∨
        op.Mispaired) := by
  rcases List.mem_append.1 hop with haccess | hconstant
  · have hnone := constantType?_of_access haccess
    have hpaired : ¬ op.Mispaired := by simp [Mispaired, hnone]
    have hlower : (∃ block, op.lower scope = .ok block) ↔ op.AsRead ∧
        (op.opcode ∈ Opcode.localAccesses → ∃ function, scope = .function function) := by
      by_cases hlocal : op.opcode ∈ Opcode.localAccesses
      · simpa [hlocal] using exists_lower_iff_of_local hlocal
      · have hglobal := (List.mem_append.1 haccess).resolve_right hlocal
        simpa [hlocal] using exists_lower_iff_of_global hglobal
    refine ⟨iff_of_true (fun block hblock => ⟨(hlower.1 ⟨block, hblock⟩).1, ?_⟩) hpaired, ?_⟩
    · simp [hnone]
    · rw [hlower, or_iff_left hpaired]
  · obtain ⟨type, htype⟩ := exists_constantType? hconstant
    have hlocal : op.opcode ∉ Opcode.localAccesses := fun h => by
      simp [constantType?_of_access (List.mem_append_right _ h)] at htype
    have hread := asRead_iff_of_constant htype
    have hpaired : op.Mispaired ↔ ∃ value, op.literal? = some value ∧ value.type ≠ type := by
      simp [Mispaired, htype]
    constructor
    · simp only [ChecksImmediate, lower_eq_ok_iff_of_constant hconstant, hread, hpaired, htype]
      cases op.literal? with
      | none => simp
      | some value => simp
    · simp only [lower_eq_ok_iff_of_constant hconstant, hread, hpaired, hlocal, false_imp_iff,
        and_true]
      cases op.literal? with
      | none => simp
      | some value => simp [em]

/-- A constant that is not a number, paired with its own opcode. -/
theorem checksImmediate_notANumber :
    let op : Operator := { opcode := Opcode.f64Const, immediate := some (.f64 0x7FF8000000000000) }
    op.ChecksImmediate .module ∧ ∃ block, op.lower .module = .ok block := by
  intro op
  have hop : op.opcode ∈ Opcode.globalAccesses ++ Opcode.localAccesses ++ Opcode.constants := by
    decide
  have hpaired : ¬ op.Mispaired := by
    rintro ⟨type, value, htype, hvalue, hne⟩
    cases htype
    cases hvalue
    exact hne rfl
  exact ⟨(checksImmediate_iff op .module hop).1.2 hpaired, _, rfl⟩

/-- **An opcode of one type with a constant of another is lowered.** The opcode of a 32-bit constant
with a 64-bit immediate becomes a constant of 64 bits. -/
theorem lower_mispaired_constant :
    let op : Operator := { opcode := Opcode.i32Const, immediate := some (.i64 1) }
    op.lower .module = .ok [.mark (some (.int64 1))] ∧ ¬ op.ChecksImmediate .module := by
  intro op
  have hlower : op.lower .module = .ok [.mark (some (.int64 1))] := rfl
  refine ⟨hlower, fun h => ?_⟩
  obtain ⟨value, hblock, htype⟩ := (h _ hlower).2 .int32 rfl
  cases hblock
  cases htype

end Operator

end WasmUdon
