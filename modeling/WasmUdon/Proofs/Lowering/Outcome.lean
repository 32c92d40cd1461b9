import WasmUdon.Lowering.Pipeline
import WasmUdon.Proofs.Assembly.Rendering
import WasmUdon.Proofs.Lowering.Initializer
import WasmUdon.Proofs.Lowering.Section
import WasmUdon.Proofs.Module.Failures

/-!
# How a run comes out

A run from the bytes of a module to the text of a program returns text or fails with an error of
one of four kinds (`Options.assemble_outcome`): malformed data, or a section, an operator or a type
that cannot be lowered. No broken assumption is ever reported. Operators that were read carry the
immediates they need, as many entries are read as there are, no initializer leaves the destination
of a copy, and all that is emitted has a text (`Options.program_outcome`).
-/

namespace WasmUdon

/-- The kinds of failure of a run. -/
def FaultKind.reported : List FaultKind :=
  [.invalidData, .unsupportedSection, .unsupportedInstruction, .unsupportedType]

/-- The error is of one of the kinds that a run may fail with. -/
def Error.IsReported (e : Error) : Prop := ∃ kind ∈ FaultKind.reported, e.OfKind kind

theorem Error.OfKind.isReported_of_invalidData {e : Error} (h : e.OfKind .invalidData) :
    e.IsReported := ⟨.invalidData, by decide, h⟩

/-! ## Failures of initializers -/

namespace Operator

theorem WellTyped.exists_target {op : Operator} (h : op.WellTyped)
    (hop : op.opcode = Opcode.globalGet ∨ op.opcode = Opcode.globalSet) :
    ∃ target, op.immediate = some (.globalIndex target) := by
  have hlayout : Layout.ofOpcode? op.opcode = some .globalIndex := by
    rcases hop with hop | hop <;> rw [hop] <;> decide
  have hholds := h.holds hlayout
  cases himm : op.immediate with
  | none =>
    rw [himm] at hholds
    rcases hholds with hholds | hholds <;> cases hholds
  | some immediate =>
    rw [himm] at hholds
    cases immediate <;> cases hholds
    exact ⟨_, rfl⟩

theorem WellTyped.exists_literal {op : Operator} (h : op.WellTyped)
    (hop : op.opcode ∈ Opcode.constants) : ∃ value, op.literal? = some value := by
  have hlayout : ∃ layout ∈ [Layout.i32, .i64, .f32, .f64],
      Layout.ofOpcode? op.opcode = some layout := by
    simp only [Opcode.constants, List.mem_cons, List.not_mem_nil, or_false] at hop
    rcases hop with hop | hop | hop | hop <;> rw [hop] <;> decide
  obtain ⟨layout, hmem, hlayout⟩ := hlayout
  have hholds := h.holds hlayout
  rw [literal?]
  cases himm : op.immediate with
  | none =>
    rw [himm] at hholds
    rcases hholds with rfl | rfl <;> simp at hmem
  | some immediate =>
    rw [himm] at hholds
    have hlayout : immediate.layout = layout := hholds
    rw [← hlayout] at hmem
    cases immediate <;> simp [Immediate.layout] at hmem
    all_goals exact ⟨_, rfl⟩

theorem ofKind_stackError (op : Operator) (detail : String) :
    (op.stackError detail).OfKind .invalidData := Error.ofKind_decode_none

end Operator

namespace InitState

theorem ofKind_of_instruction {op : Operator} {pushed : StackValue} {s : InitState}
    {i : Instruction} {e : Error} (h : s.instruction op pushed i = .error e) :
    e.OfKind .invalidData := by
  unfold instruction at h
  split at h
  · cases h
  · cases h
  · cases h
  · split at h
    · cases h
      exact op.ofKind_stackError _
    · cases h
    · cases h
  · split at h
    · cases h
      exact op.ofKind_stackError _
    · cases h
    · cases h
      exact op.ofKind_stackError _
  · cases h

theorem ofKind_of_instructions {op : Operator} {pushed : StackValue} {s : InitState}
    {is : List Instruction} {e : Error} (h : s.instructions op pushed is = .error e) :
    e.OfKind .invalidData := by
  induction is generalizing s with
  | nil => cases h
  | cons i is ih =>
    unfold instructions at h
    split at h
    · rename_i hi
      cases h
      exact ofKind_of_instruction hi
    · exact ih h

theorem ofKind_of_pushedBy {env : GlobalEnv} {index : Nat} {op : Operator} {e : Error}
    (hop : op.WellTyped) (h : pushedBy env index op = .error e) : e.OfKind .invalidData := by
  unfold pushedBy at h
  split at h
  · rename_i hget
    obtain ⟨target, htarget⟩ := hop.exists_target (.inl hget)
    simp only [GlobalEnv.reference, htarget] at h
    split at h
    · cases h
      exact Error.ofKind_decode_none
    · cases h
      exact Error.ofKind_decode_none
    · cases h
  · cases h

/-- An operator that was read fails to be lowered on malformed data or because it has no
instructions. -/
theorem isReported_of_operator {env : GlobalEnv} {index : Nat} {op : Operator} {s : InitState}
    {e : Error} (hop : op.WellTyped) (h : s.operator env index op = .error e) :
    e.IsReported := by
  unfold operator at h
  split at h
  · rename_i hpushed
    cases h
    exact (ofKind_of_pushedBy hop hpushed).isReported_of_invalidData
  split at h
  · rename_i hlower
    cases h
    have hcases := op.lowersInModule
    rw [hlower] at hcases
    -- an operator that was read has the immediate that its opcode needs
    cases hcases with
    | noTarget hget htarget =>
      obtain ⟨target, himm⟩ := hop.exists_target hget
      exact absurd himm (htarget target)
    | noLiteral hconst hvalue =>
      obtain ⟨value, hsome⟩ := hop.exists_literal hconst
      rw [hvalue] at hsome
      cases hsome
    | unsupported =>
      exact ⟨.unsupportedInstruction, by decide, Error.ofKind_unsupportedInstruction _ _⟩
  · exact (ofKind_of_instructions h).isReported_of_invalidData

theorem isReported_of_operators {env : GlobalEnv} {index : Nat} {ops : List Operator}
    {s : InitState} {e : Error} (hops : ∀ op ∈ ops, op.WellTyped)
    (h : operators env index s ops = .error e) : e.IsReported := by
  induction ops generalizing s with
  | nil => cases h
  | cons op ops ih =>
    rw [List.forall_mem_cons] at hops
    unfold operators at h
    split at h
    · rename_i hop
      cases h
      exact isReported_of_operator hops.1 hop
    · exact ih hops.2 h

end InitState

theorem ConstExpr.isReported_of_lower {expr : ConstExpr} {env : GlobalEnv} {index : Nat}
    {name : Bytes} {type : AsmType} {e : Error} (h : expr.lower env index name type = .error e) :
    e.IsReported := by
  unfold lower at h
  dsimp only at h
  split at h
  · rename_i hops
    cases h
    exact InitState.isReported_of_operators (fun _ => Operator.wellTyped_of_mem_readAll) hops
  · rename_i hread
    cases h
    exact (Operator.ofKind_of_readAll hread).isReported_of_invalidData
  rename_i s hops hread
  split at h
  · split at h
    · cases h
    · cases h
      exact Error.ofKind_decode_none.isReported_of_invalidData
  · split at h
    · cases h
    · cases h
      exact Error.ofKind_decode_none.isReported_of_invalidData
  · rename_i hstack
    have hnot := InitState.destination_notMem_of_operators hops
    rw [hstack] at hnot
    exact absurd List.mem_cons_self hnot
  · cases h
    exact Error.ofKind_decode_none.isReported_of_invalidData

/-! ## Failures of sections -/

theorem ValueType.ofKind_of_lower {type : ValueType} {e : Error} (h : type.lower = .error e) :
    e.OfKind .unsupportedType := by
  cases type <;> cases h
  all_goals exact Error.ofKind_unsupportedType _

theorem LoweredGlobals.isReported_of_add {s : LoweredGlobals} {index : Nat} {entry : GlobalEntry}
    {e : Error} (h : s.add index entry = .error e) : e.IsReported := by
  unfold add at h
  dsimp only at h
  split at h
  · rename_i cause hcause
    cases h
    have hreported : cause.IsReported := by
      rcases except_bind_eq_error_iff.1 hcause with htype | ⟨type, -, hcause⟩
      · exact ⟨.unsupportedType, by decide, ValueType.ofKind_of_lower htype⟩
      · rcases except_bind_eq_error_iff.1 hcause with hinit | ⟨result, -, hcause⟩
        · exact ConstExpr.isReported_of_lower hinit
        · cases hcause
    obtain ⟨kind, hmem, hkind⟩ := hreported
    exact ⟨kind, hmem, hkind.invalidEntry _ _⟩
  · cases h

/-- As many entries are read as are left, so no entry is missed and none is read past the last. -/
theorem LoweredGlobals.addEntries_outcome {n : Nat} {g : GlobalReader} {s : LoweredGlobals}
    (hn : g.index + n = g.count.toNat) :
    (∃ g' s', addEntries n g s = .ok (g', s') ∧ g'.count.toNat ≤ g'.index) ∨
      ∃ e, addEntries n g s = .error e ∧ e.IsReported := by
  induction n generalizing g s with
  | zero => exact .inl ⟨g, s, rfl, by omega⟩
  | succ n ih =>
    unfold addEntries
    rcases hread : g.read with ⟨e | entry, g'⟩
    · refine .inr ⟨e, rfl, ?_⟩
      exact (GlobalReader.ofKind_of_read hread (by omega)).isReported_of_invalidData
    · obtain ⟨hindex, hcount⟩ := GlobalReader.counts_of_read hread
      dsimp only
      cases hadd : s.add g.index entry with
      | error e => exact .inr ⟨e, rfl, isReported_of_add hadd⟩
      | ok s' =>
        refine ih ?_
        rw [hindex, hcount]
        omega

theorem EntryVector.isReported_of_lowerGlobals {v : EntryVector} {exported : Bool} {e : Error}
    (h : v.lowerGlobals exported = .error e) : e.IsReported := by
  have hn : (GlobalReader.ofVector v).index + v.count.toNat =
      (GlobalReader.ofVector v).count.toNat := Nat.zero_add _
  unfold lowerGlobals at h
  rcases LoweredGlobals.addEntries_outcome (s := {}) hn with
    ⟨g, s, hadd, hall⟩ | ⟨e', hadd, hreported⟩
  · rw [hadd] at h
    dsimp only at h
    split at h
    · rename_i hfinish
      cases h
      exact (GlobalReader.ofKind_of_finish hfinish hall).isReported_of_invalidData
    · cases h
  · rw [hadd] at h
    cases h
    exact hreported

/-- **A record that cannot be lowered is malformed or not supported.** -/
theorem Record.isReported_of_lower {r : Record} {exported : Bool} {e : Error}
    (h : r.lower exported = .error e) : e.IsReported := by
  unfold lower at h
  split at h
  · cases h
  · exact EntryVector.isReported_of_lowerGlobals h
  · cases h
    exact ⟨.unsupportedSection, by decide, Error.ofKind_unsupportedSection _⟩

/-! ## The text of what is lowered -/

theorem isBlank_cons {b : UInt8} (hb : b < 0x80) (hspace : isSpace (Char.ofNat b.toNat) = false)
    (bs : Bytes) : isBlank (b :: bs) = false := by
  simp [isBlank, decodeRunes, decodeRunesFrom, decodeChar?, hb, hspace]

theorem Slot.isBlank_name_ofGlobal (index : UInt32) :
    isBlank (Slot.ofGlobal index).name = false := by
  have hname : (Slot.ofGlobal index).name =
      0x5F :: ([0x5F, 0x47, 0x5F, 0x5F] ++ decimal index.toNat) := rfl
  rw [hname]
  exact isBlank_cons (by decide) (by decide) _

theorem Instruction.exists_render_push (index : UInt32) :
    ∃ bs, (Instruction.push (Slot.ofGlobal index).name).render = .ok bs := by
  rw [render, renderOperand, Slot.isBlank_name_ofGlobal]
  exact ⟨_, rfl⟩

theorem Instruction.exists_render_halt : ∃ bs, (jumpTo haltAddress).render = .ok bs := by
  have hblank : isBlank (WasmUdon.text ("0x" ++ hexUpper 8 haltAddress.toNat)) = false := by
    rw [text_append]
    exact isBlank_cons (b := 0x30) (by decide) (by decide) _
  rw [jumpTo, render, renderOperand, hblank]
  exact ⟨_, rfl⟩

namespace InitState

/-- Every operator emits instructions that have a text. -/
theorem Effect.exists_render {env : GlobalEnv} {index : Nat} {op : Operator} {s s' : InitState}
    (h : Effect env index op s s') (hs : ∀ i ∈ s.block, ∃ bs, i.render = .ok bs) :
    ∀ i ∈ s'.block, ∃ bs, i.render = .ok bs := by
  cases h with
  | blockEnd hop => exact hs
  | const hop hvalue => exact hs
  | dropConstant hop hstack => exact hs
  | nop hop => exact List.forall_mem_append.2 ⟨hs, by simp [Instruction.render]⟩
  | halt hop =>
    refine List.forall_mem_append.2 ⟨hs, List.forall_mem_singleton.2 ?_⟩
    exact Instruction.exists_render_halt
  | dropVariable hop hstack htop =>
    exact List.forall_mem_append.2 ⟨hs, by simp [Instruction.render]⟩
  | get hop htarget hlt henv =>
    refine List.forall_mem_append.2 ⟨hs, List.forall_mem_singleton.2 ?_⟩
    exact Instruction.exists_render_push _
  | set hop htarget hstack htop =>
    refine List.forall_mem_append.2 ⟨hs, List.forall_mem_cons.2 ⟨?_, ?_⟩⟩
    · exact Instruction.exists_render_push _
    · simp [Instruction.render]

end InitState

theorem ConstExpr.exists_render_of_lower {expr : ConstExpr} {env : GlobalEnv} {index i : Nat}
    {type : AsmType} {block : Block} {init : Option Literal}
    (h : expr.lower env index (globalName i) type = .ok (block, init)) :
    ∀ j ∈ block, ∃ bs, j.render = .ok bs := by
  obtain ⟨s, hs, hcases⟩ := lower_eq_ok h
  have hblock : ∀ j ∈ s.block, ∃ bs, j.render = .ok bs :=
    InitState.operators_preserve (P := fun s => ∀ j ∈ s.block, ∃ bs, j.render = .ok bs)
      (fun heffect => heffect.exists_render) hs fun _ hj => nomatch hj
  rcases hcases with ⟨value, -, -, rfl, -⟩ | ⟨-, rfl, -⟩
  · exact hblock
  · refine List.forall_mem_append.2 ⟨hblock, List.forall_mem_cons.2 ⟨?_, ?_⟩⟩
    · exact Instruction.exists_render_push _
    · simp [Instruction.render]

theorem Declaration.exists_render_of_lower {valueType : ValueType} {type : AsmType}
    (h : valueType.lower = .ok type) (name : Bytes) (init : Option Literal) :
    ∃ bs, ({ name, type, init } : Declaration).render = .ok bs := by
  cases valueType <;> cases h
  all_goals exact ⟨_, rfl⟩

theorem LowersTo.exists_render {index : Nat} {env : GlobalEnv} {entries : List GlobalEntry}
    {lowered : List (Declaration × Block)} (h : LowersTo index env entries lowered) :
    ∀ l ∈ lowered, (∃ bs, l.1.render = .ok bs) ∧ ∀ i ∈ l.2, ∃ bs, i.render = .ok bs := by
  induction h with
  | nil => exact fun _ hl => nomatch hl
  | cons htype hinit hrest ih =>
    refine List.forall_mem_cons.2 ⟨⟨?_, ?_⟩, ih⟩
    · exact Declaration.exists_render_of_lower htype _ _
    · exact ConstExpr.exists_render_of_lower hinit

/-- What a record is lowered to has a text. -/
theorem Record.exists_render_of_lower {r : Record} {exported : Bool} {u : ProgramUnit}
    (h : r.lower exported = .ok u) : ∃ bs, u.program.render = .ok bs := by
  unfold lower at h
  split at h
  · cases h
    exact ⟨_, rfl⟩
  · obtain ⟨entries, lowered, -, -, hlowers, rfl⟩ := EntryVector.exists_lowersTo h
    have hrender := hlowers.exists_render
    refine Program.exists_render_iff.2 ⟨?_, ?_⟩
    · intro d hd
      obtain ⟨l, hl, rfl⟩ := List.mem_map.1 hd
      exact (hrender l hl).1
    · intro entry hentry
      obtain ⟨l, hl, rfl⟩ := List.mem_map.1 hentry
      exact (hrender l hl).2
  · cases h

/-! ## Whole runs -/

theorem isReported_of_walkUnits {exported : Bool} {records : List Record} {e : Error}
    (h : (walkUnits exported records).2 = some e) : e.IsReported := by
  induction records with
  | nil => cases h
  | cons r records ih =>
    unfold walkUnits at h
    split at h
    · rename_i hlower
      cases h
      exact Record.isReported_of_lower hlower
    · exact ih h

theorem exists_render_of_mem_walkUnits {exported : Bool} {records : List Record} {u : ProgramUnit}
    (h : u ∈ (walkUnits exported records).1) : ∃ bs, u.program.render = .ok bs := by
  induction records with
  | nil => cases h
  | cons r records ih =>
    unfold walkUnits at h
    split at h
    · cases h
    · rename_i hlower
      rcases List.mem_cons.1 h with rfl | h
      · exact Record.exists_render_of_lower hlower
      · exact ih h

namespace Options

variable {o : Options} {data : Bytes}

theorem ofKind_of_records (ho : o.canceled = false) {e : Error} (h : o.records data = .error e) :
    e.OfKind .invalidData := by
  rw [records, walk, ho, if_neg Bool.false_ne_true] at h
  split at h
  · cases h
  · rename_i hwalk
    cases h
    exact ofKind_of_walkModule (congrArg Prod.snd hwalk)

theorem units_outcome (ho : o.canceled = false) (rs : List Record) :
    (∃ us, o.units rs = .ok us ∧ ∀ u ∈ us, ∃ bs, u.program.render = .ok bs) ∨
      ∃ e, o.units rs = .error e ∧ e.IsReported := by
  rw [units, if_neg (by simp [ho])]
  rcases hwalk : walkUnits o.exportInit rs with ⟨us, _ | e⟩
  · refine .inl ⟨us, rfl, fun u hu => ?_⟩
    have hmem : u ∈ (walkUnits o.exportInit rs).1 := by
      rw [hwalk]
      exact hu
    exact exists_render_of_mem_walkUnits hmem
  · exact .inr ⟨e, rfl, isReported_of_walkUnits (congrArg Prod.snd hwalk)⟩

/-- A run that is not called off gives a program that has a text, or a failure of a reported
kind. -/
theorem program_outcome (ho : o.canceled = false) (data : Bytes) :
    (∃ p bs, o.program data = .ok p ∧ p.render = .ok bs) ∨
      ∃ e, o.program data = .error e ∧ e.IsReported := by
  unfold program
  cases hrecords : o.records data with
  | error e => exact .inr ⟨e, rfl, (ofKind_of_records ho hrecords).isReported_of_invalidData⟩
  | ok rs =>
    rcases units_outcome ho rs with ⟨us, hunits, hrender⟩ | ⟨e, hunits, hreported⟩
    · obtain ⟨bs, hbs⟩ := exists_render_mergeUnits hrender
      refine .inl ⟨mergeUnits us, bs, ?_, hbs⟩
      exact except_bind_eq_ok_iff.2 ⟨rs, rfl, except_bind_eq_ok_iff.2 ⟨us, hunits, rfl⟩⟩
    · refine .inr ⟨e, ?_, hreported⟩
      exact except_bind_eq_error_iff.2 (.inr ⟨rs, rfl, except_bind_eq_error_iff.2 (.inl hunits)⟩)

end Options

/-- An error of a reported kind gives exactly one answer, and has no broken assumption in it. -/
theorem Error.IsReported.answers {e : Error} (h : e.IsReported) :
    [e.isDecode, e.isKind .unsupportedSection, e.isKind .unsupportedInstruction,
        e.isKind .unsupportedType].count true = 1 ∧
      e.isKind .internal = false ∧ ∀ f, .fault f ∈ e.layers → f.kind ≠ .internal := by
  obtain ⟨kind, hmem, hkind⟩ := h
  simp only [hkind.isDecode_eq, hkind.isKind_eq]
  have hne : kind ≠ .internal := by
    rintro rfl
    simp [FaultKind.reported] at hmem
  refine ⟨?_, decide_eq_false hne, fun f hf => hkind.kinds f hf ▸ hne⟩
  simp only [FaultKind.reported, List.mem_cons, List.not_mem_nil, or_false] at hmem
  rcases hmem with rfl | rfl | rfl | rfl <;> decide

/-- **A run returns text or fails for one reason that is the module's.** Unless it is called off,
it returns the text of the program or fails with a fault that answers exactly one of four
questions, and no layer of it is a broken assumption. Every program that it comes to has a
text. -/
theorem Options.assemble_outcome (offset : Int) (exportInit : Bool) (data : Bytes) :
    let o : Options := { offset, exportInit }
    ((∃ bs, o.assemble data = .ok bs) ∨
      ∃ e, o.assemble data = .error e ∧ (∃ f, e.outer = .fault f) ∧
        [e.isDecode, e.isKind .unsupportedSection, e.isKind .unsupportedInstruction,
          e.isKind .unsupportedType].count true = 1 ∧
        e.isKind .internal = false ∧ ∀ f, .fault f ∈ e.layers → f.kind ≠ .internal) ∧
      ∀ p, o.program data = .ok p → ∃ bs, p.render = .ok bs := by
  intro o
  rcases program_outcome (o := o) rfl data with ⟨p, bs, hprogram, hrender⟩ | ⟨e, herror, hreported⟩
  · refine ⟨.inl ⟨bs, except_bind_eq_ok_iff.2 ⟨p, hprogram, hrender⟩⟩, fun p' hp' => ?_⟩
    rw [hprogram] at hp'
    cases hp'
    exact ⟨bs, hrender⟩
  · refine ⟨.inr ⟨e, except_bind_eq_error_iff.2 (.inl herror), ?_, hreported.answers⟩, ?_⟩
    · obtain ⟨kind, -, hkind⟩ := hreported
      exact hkind.outer
    · intro p hp
      rw [herror] at hp
      cases hp

end WasmUdon
