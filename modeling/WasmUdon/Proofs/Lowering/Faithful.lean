import WasmUdon.Proofs.Assembly.Legibility
import WasmUdon.Proofs.Decimal.Numerals
import WasmUdon.Proofs.Lowering.Outcome
import WasmUdon.Proofs.Lowering.Program

/-!
# The text of a module stands for its program

Everything that lowering puts into a program can be read off its text: names and labels are made of
letters, underscores and digits, first values are numbers, and instructions name variables or the
address that ends the program. Along the operators of an initializer this is an invariant
(`InitState.IsLegible`), so the program of a module is legible (`Options.isLegible_of_program`), and
two modules with one text have one program (`Options.program_eq_of_render_eq`).
-/

namespace WasmUdon

/-! ## Names and numbers -/

theorem Slot.notMem_name_ofGlobal (index : UInt32) :
    58 ∉ (ofGlobal index).name ∧ 10 ∉ (ofGlobal index).name := by
  simp only [Slot.name, List.mem_append, not_or]
  exact ⟨⟨by decide, notMem_decimal (by decide) (by decide)⟩, by decide,
    notMem_decimal (by decide) (by decide)⟩

/-- A constant whose text is on one line and differs from that of a missing one. -/
def Literal.IsPlain (value : Literal) : Prop :=
  10 ∉ value.text ∧ value.text ≠ WasmUdon.text "null"

theorem Operator.isPlain_of_literal? {op : Operator} {value : Literal}
    (h : op.literal? = some value) : value.IsPlain := by
  have hplain {s : String} (hs : IsNumeral s.toList) :
      10 ∉ WasmUdon.text s ∧ WasmUdon.text s ≠ WasmUdon.text "null" :=
    ⟨hs.lineFeed_notMem, hs.ne_null⟩
  unfold literal? at h
  split at h
  · cases h
    exact hplain (isNumeral_int _)
  · cases h
    exact hplain (isNumeral_int _)
  · cases h
    exact hplain (FloatValue.isNumeral_format _ _)
  · cases h
    exact hplain (FloatValue.isNumeral_format _ _)
  · cases h

/-! ## Initializers -/

theorem Instruction.isLegible_push (index : UInt32) :
    (Instruction.push (Slot.ofGlobal index).name).IsLegible :=
  ⟨Slot.isBlank_name_ofGlobal index, (Slot.notMem_name_ofGlobal index).2⟩

theorem Instruction.isLegible_halt : (jumpTo haltAddress).IsLegible := by
  refine ⟨?_, ?_⟩
  · decide +kernel
  · decide +kernel

/-- What was emitted can be read off its lines, and constants can be read off a declaration. -/
structure InitState.IsLegible (s : InitState) : Prop where
  block : ∀ i ∈ s.block, i.IsLegible
  stack : ∀ value, .constant value ∈ s.stack → value.IsPlain

namespace InitState

variable {env : GlobalEnv} {index : Nat} {op : Operator} {s s' : InitState}

theorem IsLegible.emit (hs : s.IsLegible) {is : List Instruction}
    (his : ∀ i ∈ is, i.IsLegible) {stack : List StackValue}
    (hstack : ∀ value, .constant value ∈ stack → .constant value ∈ s.stack) :
    IsLegible { block := s.block ++ is, stack } :=
  ⟨List.forall_mem_append.2 ⟨hs.block, his⟩,
    fun value hvalue => hs.stack value (hstack value hvalue)⟩

/-- **Every operator keeps what is emitted legible.** -/
theorem Effect.isLegible (h : Effect env index op s s') (hs : s.IsLegible) : s'.IsLegible := by
  cases h with
  | blockEnd hop => exact hs
  | nop hop => exact hs.emit (by simp [Instruction.IsLegible]) fun _ h => h
  | halt hop =>
    exact hs.emit (List.forall_mem_singleton.2 Instruction.isLegible_halt) fun _ h => h
  | @const value hop hvalue =>
    refine ⟨hs.block, fun value' hmem => ?_⟩
    rcases List.mem_cons.1 hmem with heq | hmem
    · cases heq
      exact Operator.isPlain_of_literal? hvalue
    · exact hs.stack value' hmem
  | dropConstant hop hstack =>
    exact ⟨hs.block, fun value hmem => hs.stack value (hstack ▸ List.mem_cons_of_mem _ hmem)⟩
  | dropVariable hop hstack htop =>
    refine hs.emit (by simp [Instruction.IsLegible]) fun value hmem => ?_
    exact hstack ▸ List.mem_cons_of_mem _ hmem
  | get hop htarget hlt henv =>
    refine hs.emit (List.forall_mem_singleton.2 (Instruction.isLegible_push _)) fun value hmem => ?_
    simpa using hmem
  | set hop htarget hstack htop =>
    refine hs.emit ?_ fun value hmem => hstack ▸ List.mem_cons_of_mem _ hmem
    exact List.forall_mem_cons.2 ⟨Instruction.isLegible_push _, by simp [Instruction.IsLegible]⟩

end InitState

theorem ConstExpr.isLegible_of_lower {expr : ConstExpr} {env : GlobalEnv} {index i : Nat}
    {type : AsmType} {block : Block} {init : Option Literal}
    (h : expr.lower env index (globalName i) type = .ok (block, init)) :
    (∀ j ∈ block, j.IsLegible) ∧
      ∀ value, init = some value → value.type = type ∧ value.IsPlain := by
  obtain ⟨s, hs, hcases⟩ := lower_eq_ok h
  have hlegible : s.IsLegible := InitState.operators_preserve (P := InitState.IsLegible)
    (fun heffect => heffect.isLegible) hs ⟨List.forall_mem_nil _, fun _ h => nomatch h⟩
  rcases hcases with ⟨value, hstack, htype, rfl, rfl⟩ | ⟨hstack, rfl, rfl⟩
  · refine ⟨hlegible.block, ?_⟩
    rintro value' ⟨⟩
    exact ⟨htype, hlegible.stack value (hstack ▸ List.mem_cons_self)⟩
  · refine ⟨List.forall_mem_append.2 ⟨hlegible.block, ?_⟩, fun value h => nomatch h⟩
    exact List.forall_mem_cons.2 ⟨Instruction.isLegible_push _, by simp [Instruction.IsLegible]⟩

/-! ## Programs -/

theorem AsmType.ne_unknown_of_lower {valueType : ValueType} {type : AsmType}
    (h : valueType.lower = .ok type) (code : Int) : type ≠ .unknown code := by
  cases valueType <;> cases h <;> exact fun h => nomatch h

theorem LowersTo.isLegible {index : Nat} {env : GlobalEnv} {entries : List GlobalEntry}
    {lowered : List (Declaration × Block)} (h : LowersTo index env entries lowered) :
    ∀ l ∈ lowered, l.1.IsLegible ∧ IsLegibleBlock (initEntry l) := by
  induction h with
  | nil => exact List.forall_mem_nil _
  | @cons index env entry entries type block init lowered htype hinit _ ih =>
    have hname := Slot.notMem_name_ofGlobal (UInt32.ofNat index)
    obtain ⟨hblock, hvalue⟩ := ConstExpr.isLegible_of_lower hinit
    have htypes := AsmType.ne_unknown_of_lower htype
    refine List.forall_mem_cons.2 ⟨⟨⟨rfl, hname, htypes, hvalue⟩, ?_⟩, ih⟩
    refine ⟨⟨fun hhead => ?_, ?_⟩, hblock⟩
    · cases hhead
    · rw [initEntry, initLabel, List.mem_append, not_or]
      exact ⟨by decide, hname.2⟩

namespace Options

variable {o o' : Options} {data data' : Bytes} {p q : Program}

/-- **The program of a module is legible**, and its labels are exported as asked for. -/
theorem isLegible_of_program (h : o.program data = .ok p) :
    p.IsLegible ∧ ∀ code, p.code = some code → code.exported = o.exportInit := by
  rcases program_eq_ok h with ⟨-, rfl⟩ | ⟨frame, v, entries, lowered, -, -, -, hlowers, rfl⟩
  · exact ⟨⟨List.forall_mem_nil _, List.forall_mem_nil _, fun _ h => nomatch h⟩,
      fun _ h => nomatch h⟩
  · have hlegible := hlowers.isLegible
    refine ⟨⟨?_, ?_, ?_⟩, ?_⟩
    · intro d hd
      obtain ⟨l, hl, rfl⟩ := List.mem_map.1 hd
      exact (hlegible l hl).1
    · intro entry hentry
      obtain ⟨l, hl, rfl⟩ := List.mem_map.1 hentry
      exact (hlegible l hl).2
    · rintro code ⟨⟩
      exact Option.some_ne_none _
    · rintro code ⟨⟩
      rfl

/-- **The text of a module stands for its program.** If two modules are lowered under the same
choice of exports and their programs have the same text, the programs are the same: they have the
same sections, the same declarations with names, types and first values, and the same labels with
the same instructions. -/
theorem program_eq_of_render_eq (hp : o.program data = .ok p) (hq : o'.program data' = .ok q)
    (hexport : o.exportInit = o'.exportInit) (h : p.render = q.render) : p = q := by
  obtain ⟨hlegible, hflag⟩ := isLegible_of_program hp
  obtain ⟨hlegible', hflag'⟩ := isLegible_of_program hq
  refine Program.eq_of_render_eq hlegible hlegible' (fun code code' hcode hcode' => ?_) h
  rw [hflag code hcode, hflag' code' hcode', hexport]

/-- Two modules that differ in their offset and in the bits of a number that is none. -/
theorem program_eq_of_render_eq_nan :
    let front : Bytes := headerBytes ++ [0x06, 0x09, 0x01, 0x7D, 0x00, 0x43]
    let data : Bytes := front ++ [0x00, 0x00, 0xC0, 0x7F, 0x0B]
    let data' : Bytes := 0xFF :: (front ++ [0x01, 0x00, 0xA0, 0xFF, 0x0B])
    let p := (unitOf true
      [({ name := globalName 0, type := .single, init := some (.single 0x7FC00000) }, [])]).program
    let q := (unitOf true
      [({ name := globalName 0, type := .single, init := some (.single 0xFFA00001) }, [])]).program
    program { exportInit := true } data = .ok p ∧
      program { offset := 1, exportInit := true } data' = .ok q ∧ p.render = q.render ∧ p = q := by
  intro front data data' p q
  have hp : program { exportInit := true } data = .ok p := by decide +kernel
  have hq : program { offset := 1, exportInit := true } data' = .ok q := by decide +kernel
  have hrender : p.render = q.render := by decide +kernel
  exact ⟨hp, hq, hrender, program_eq_of_render_eq hp hq rfl hrender⟩

end Options

end WasmUdon
