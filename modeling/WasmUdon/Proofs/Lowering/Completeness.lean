import WasmUdon.Proofs.Lowering.Outcome
import WasmUdon.Proofs.Lowering.Program
import WasmUdon.Proofs.Module.Written

/-!
# Modules of plain globals have the expected text

A plain global has a numeric type, and its initializer is a constant of this type or a copy of
another global. If every copy is of an earlier global that has the same type and never changes
(`RefersBack`), the module of these globals has a text, and it is the one that the globals ask for,
line by line (`assemble_writeModule`).

The globals are read back one for one (`PlainGlobal.isWhole_raw`), each initializer is lowered to
what its global asks for (`PlainGlobal.lower_of_bytes`, `lowersTo_of_holds`), and the lines of a
global are those of its declaration and its block (`render_lowered`).
-/

namespace WasmUdon

/-- The types that numbers have. -/
inductive NumericType
  | i32
  | i64
  | f32
  | f64
  deriving DecidableEq, Repr

namespace NumericType

def valueType : NumericType → ValueType
  | i32 => .i32
  | i64 => .i64
  | f32 => .f32
  | f64 => .f64

def asmType : NumericType → AsmType
  | i32 => .int32
  | i64 => .int64
  | f32 => .single
  | f64 => .double

/-- The word for the type in a program. -/
def keyword : NumericType → String
  | i32 => "%SystemInt32"
  | i64 => "%SystemInt64"
  | f32 => "%SystemSingle"
  | f64 => "%SystemDouble"

/-- The constants of a type: integers, and the bits of floating-point numbers. -/
def Value : NumericType → Type
  | i32 => Int32
  | i64 => Int64
  | f32 => UInt32
  | f64 => UInt64

/-- The text of a constant. -/
def valueText : (type : NumericType) → type.Value → String
  | i32, (value : Int32) => toString value.toInt
  | i64, (value : Int64) => toString value.toInt
  | f32, (bits : UInt32) => formatSingle bits
  | f64, (bits : UInt64) => formatDouble bits

/-- The operator that leaves a constant. -/
def constant : (type : NumericType) → type.Value → InitOperator
  | i32, (value : Int32) => .i32 value
  | i64, (value : Int64) => .i64 value
  | f32, (bits : UInt32) => .f32 bits
  | f64, (bits : UInt64) => .f64 bits

def literal (type : NumericType) (value : type.Value) : Literal :=
  { type := type.asmType, text := text (type.valueText value) }

theorem lower_valueType (type : NumericType) : type.valueType.lower = .ok type.asmType := by
  cases type <;> rfl

theorem hasHeapType_valueType (type : NumericType) : type.valueType.hasHeapType = false := by
  cases type <;> rfl

theorem name_asmType (type : NumericType) : type.asmType.name = type.keyword := by
  cases type <;> rfl

end NumericType

/-- The initializer of a plain global. -/
inductive PlainInit (type : NumericType)
  | constant (value : type.Value)
  /-- The value of another global. -/
  | copy (source : UInt32)

/-- A global whose initializer is a constant of its type, or a copy. -/
structure PlainGlobal where
  type : NumericType
  isMutable : Bool
  init : PlainInit type

/-- Every copy is of an earlier global, which has the same type and never changes. -/
def RefersBack (gs : List PlainGlobal) : Prop :=
  ∀ (i : Nat) (g : PlainGlobal) (source : UInt32), gs[i]? = some g → g.init = .copy source →
    source.toNat < i ∧ ∃ earlier : PlainGlobal, gs[source.toNat]? = some earlier ∧
      earlier.isMutable = false ∧ earlier.type = g.type

namespace PlainGlobal

/-- The operator of the initializer. -/
def operator (g : PlainGlobal) : InitOperator :=
  match g.init with
  | .constant value => g.type.constant value
  | .copy source => .globalGet source

/-- The global as it is written. -/
def raw (g : PlainGlobal) : RawGlobal :=
  { type := g.type.valueType.code, isMutable := g.isMutable, init := writeInit [g.operator] }

/-- The text of the first value. -/
def initText (g : PlainGlobal) : String :=
  match g.init with
  | .constant value => g.type.valueText value
  | .copy _ => "null"

/-- The line that declares the variable of a global. -/
def declarationLine (g : PlainGlobal) (index : Nat) : String :=
  "    __G__" ++ toString index ++ ": " ++ g.type.keyword ++ ", " ++ g.initText

/-- The lines that copy a value. -/
def copyLines (g : PlainGlobal) (index : Nat) : List String :=
  match g.init with
  | .constant _ => []
  | .copy source =>
    ["        PUSH,__G__" ++ toString source.toNat, "        PUSH,__G__" ++ toString index,
      "        COPY"]

/-- The lines of the block that sets up the variable of a global. -/
def blockLines (g : PlainGlobal) (exported : Bool) (index : Nat) : List String :=
  (if exported then ["    .export __INIT___G__" ++ toString index] else []) ++
    ("    __INIT___G__" ++ toString index ++ ":") :: g.copyLines index

end PlainGlobal

/-- The lines of the program that sets up plain globals. -/
def programLines (exported : Bool) (gs : List PlainGlobal) : List String :=
  [".data_start"] ++ gs.zipIdx.map (fun (g, i) => g.declarationLine i) ++
    [".data_end", ".code_start"] ++ gs.zipIdx.flatMap (fun (g, i) => g.blockLines exported i) ++
    [".code_end"]

/-- The text of lines, each with a line feed. -/
def textOfLines (lines : List String) : Bytes := lines.flatMap fun s => line (text s)

theorem textOfLines_append (lines lines' : List String) :
    textOfLines (lines ++ lines') = textOfLines lines ++ textOfLines lines' :=
  List.flatMap_append

/-! ## Globals one by one -/

/-- A reference to an earlier global that never changes is pushed. -/
theorem InitState.operator_globalGet {env : GlobalEnv} {index : Nat} {source : UInt32}
    {type : AsmType} (hlt : source.toNat < index)
    (henv : env[source.toNat]? = some (type, false)) (s : InitState) (offset : Int) :
    s.operator env index ((InitOperator.globalGet source).operator offset) =
      .ok (s.emit (.push (globalName source.toNat)) (.reference type :: s.stack)) := by
  have hop : ((InitOperator.globalGet source).operator offset).opcode = Opcode.globalGet := rfl
  have href : env.reference index ((InitOperator.globalGet source).operator offset) = .ok type := by
    simp only [GlobalEnv.reference, InitOperator.operator, if_pos hlt, henv]
  rw [operator, pushedBy, if_pos hop, href, globalName_toNat]
  rfl

namespace PlainGlobal

theorem areInit_operator (g : PlainGlobal) : InitOperator.AreInit [g.operator] := by
  intro op hop
  cases List.mem_singleton.1 hop
  obtain ⟨type, isMutable, value | source⟩ := g
  · cases type <;> exact ⟨trivial, nofun⟩
  · exact ⟨trivial, nofun⟩

theorem isWhole_raw (g : PlainGlobal) : g.raw.IsWhole where
  type := ⟨g.type.valueType, rfl, g.type.hasHeapType_valueType⟩
  init := ⟨[g.operator], rfl, g.areInit_operator⟩

/-- The declaration and the block of a global. -/
def lowered (g : PlainGlobal) (index : Nat) : Declaration × Block :=
  match g.init with
  | .constant value =>
    ({ name := globalName index, type := g.type.asmType, init := some (g.type.literal value) }, [])
  | .copy source =>
    ({ name := globalName index, type := g.type.asmType },
      [.push (globalName source.toNat), .push (globalName index), .copy])

/-- The type and the mutability of a global, as later initializers see it. -/
def binding (g : PlainGlobal) : AsmType × Bool := (g.type.asmType, g.isMutable)

theorem lowered_eq (g : PlainGlobal) (index : Nat) :
    g.lowered index =
      ({ name := globalName index, type := g.type.asmType, init := (g.lowered index).1.init },
        (g.lowered index).2) := by
  obtain ⟨type, isMutable, value | source⟩ := g
  · rfl
  · rfl

theorem name_lowered (g : PlainGlobal) (index : Nat) :
    (g.lowered index).1.name = globalName index := by
  rw [lowered_eq]

/-- **An initializer is lowered to what its global asks for.** -/
theorem lower_of_bytes (g : PlainGlobal) {expr : ConstExpr}
    (hbytes : expr.bytes = writeInit [g.operator]) {env : GlobalEnv} {index : Nat}
    (href : ∀ source, g.init = .copy source →
      source.toNat < index ∧ env[source.toNat]? = some (g.type.asmType, false)) :
    expr.lower env index (globalName index) g.type.asmType =
      .ok ((g.lowered index).2, (g.lowered index).1.init) := by
  obtain ⟨bytes, offset⟩ := expr
  have hread := readAll_writeInit g.areInit_operator offset
  rw [← hbytes] at hread
  rw [ConstExpr.lower, hread]
  obtain ⟨type, isMutable, value | source⟩ := g
  · cases type <;> rfl
  · obtain ⟨hlt, henv⟩ := href source rfl
    have hops : InitState.operators env index {}
        (InitOperator.layOut offset [.globalGet source, .raw Opcode.blockEnd]) =
        .ok { block := [.push (globalName source.toNat)], stack := [.reference type.asmType] } := by
      simp only [InitOperator.layOut, InitState.operators,
        InitState.operator_globalGet hlt henv]
      rfl
    have happ : [(PlainGlobal.mk type isMutable (.copy source)).operator] ++
        [.raw Opcode.blockEnd] = [.globalGet source, .raw Opcode.blockEnd] := rfl
    rw [happ]
    simp only [hops, if_pos]
    rfl

end PlainGlobal

theorem ValueType.code_inj {type type' : ValueType} (h : type.code = type'.code) :
    type = type' := by
  have hof := congrArg ofCode? h
  rw [ofCode?_code, ofCode?_code] at hof
  exact Option.some.inj hof

/-- **The entries of plain globals are lowered one by one**, each behind those before it. -/
theorem lowersTo_of_holds {all : List PlainGlobal} (href : RefersBack all) {gs : List PlainGlobal}
    {entries : List GlobalEntry}
    (h : List.Forall₂ RawGlobal.Holds (gs.map PlainGlobal.raw) entries)
    (front : List PlainGlobal) (hall : all = front ++ gs) :
    LowersTo front.length (front.map PlainGlobal.binding) entries
      ((gs.zipIdx front.length).map fun x => x.1.lowered x.2) := by
  induction gs generalizing front entries with
  | nil =>
    cases h
    exact .nil
  | cons g gs ih =>
    cases h with
    | @cons _ entry _ entries hg hrest =>
    have htype : entry.type.type = g.type.valueType := ValueType.code_inj hg.type
    have hcopy : ∀ source, g.init = .copy source → source.toNat < front.length ∧
        (front.map PlainGlobal.binding)[source.toNat]? = some (g.type.asmType, false) := by
      intro source hsource
      have hg : all[front.length]? = some g := by
        rw [hall, List.getElem?_append_right (Nat.le_refl _), Nat.sub_self]
        rfl
      obtain ⟨hlt, earlier, hearlier, hfixed, hsame⟩ := href _ _ _ hg hsource
      rw [hall, List.getElem?_append_left hlt] at hearlier
      refine ⟨hlt, ?_⟩
      rw [List.getElem?_map, hearlier, Option.map_some, PlainGlobal.binding, hfixed, hsame]
    have hlower := g.lower_of_bytes hg.init hcopy
    have hbehind := ih hrest (front ++ [g]) (by rw [hall, List.append_cons])
    rw [List.length_append, List.length_singleton, List.map_append] at hbehind
    rw [List.zipIdx_cons, List.map_cons, PlainGlobal.lowered_eq]
    refine .cons ?_ hlower ?_
    · rw [htype]
      exact g.type.lower_valueType
    · rw [hg.isMutable]
      exact hbehind

/-! ## The text -/

/-- The line of a declaration without an attribute. -/
def Declaration.plainLine (d : Declaration) : Bytes :=
  line (declarationIndent ++ d.name ++ text (": " ++ d.type.name ++ ", ") ++ d.initText)

theorem Instruction.render_push_globalName (index : Nat) :
    (push (globalName index)).render = .ok (push (globalName index)).text := by
  rw [render, renderOperand, globalName, Slot.isBlank_name_ofGlobal]
  rfl

namespace PlainGlobal

theorem render_declaration (g : PlainGlobal) (index : Nat) :
    (g.lowered index).1.render = .ok (g.lowered index).1.plainLine := by
  rw [lowered_eq]
  obtain ⟨type, isMutable, init⟩ := g
  cases type <;> rfl

theorem render_instruction (g : PlainGlobal) (index : Nat) :
    ∀ i ∈ (g.lowered index).2, i.render = .ok i.text := by
  obtain ⟨type, isMutable, value | source⟩ := g
  · exact List.forall_mem_nil _
  · simp only [lowered, List.forall_mem_cons, List.not_mem_nil, false_imp_iff, implies_true,
      and_true]
    exact ⟨Instruction.render_push_globalName _, Instruction.render_push_globalName _, rfl⟩

theorem text_initText (g : PlainGlobal) (index : Nat) :
    (g.lowered index).1.initText = text g.initText := by
  obtain ⟨type, isMutable, value | source⟩ := g
  · rfl
  · rfl

/-- The line of the declaration. -/
theorem plainLine_lowered (g : PlainGlobal) {index : Nat} (h : index < UInt32.size) :
    (g.lowered index).1.plainLine = line (text (g.declarationLine index)) := by
  rw [Declaration.plainLine, text_initText, lowered_eq, globalName_eq h, g.type.name_asmType]
  simp only [declarationLine, text_append, List.append_assoc]
  rfl

/-- The lines of the label. -/
theorem renderLabel_eq (exported : Bool) {index : Nat} (h : index < UInt32.size) :
    renderLabel exported (initLabel (globalName index)) =
      textOfLines ((if exported then ["    .export __INIT___G__" ++ toString index] else []) ++
        ["    __INIT___G__" ++ toString index ++ ":"]) := by
  have hexport : exportLine (text "__INIT___G__" ++ decimal index) =
      line (text ("    .export __INIT___G__" ++ toString index)) := by
    rw [text_append, exportLine, ← List.append_assoc]
    rfl
  have hlabel : line (declarationIndent ++ (text "__INIT___G__" ++ decimal index) ++ text ":") =
      line (text ("    __INIT___G__" ++ toString index ++ ":")) := by
    rw [text_append, text_append, ← List.append_assoc]
    rfl
  rw [initLabel_globalName h, renderLabel, hexport, hlabel, textOfLines_append]
  cases exported with
  | false => simp [textOfLines]
  | true => simp [textOfLines]

/-- The lines of the instructions. -/
theorem textOfLines_copyLines (g : PlainGlobal) {index : Nat} (h : index < UInt32.size) :
    ((g.lowered index).2.flatMap fun i => line (instructionIndent ++ i.text)) =
      textOfLines (g.copyLines index) := by
  obtain ⟨type, isMutable, value | source⟩ := g
  · rfl
  · simp only [lowered, copyLines, Instruction.text, globalName_eq h, globalName_eq source.toNat_lt,
      textOfLines, text_append]
    rfl

/-- The lines of the block. -/
theorem textOfLines_blockLines (g : PlainGlobal) (exported : Bool) {index : Nat}
    (h : index < UInt32.size) :
    renderLabel exported (initLabel (globalName index)) ++
        ((g.lowered index).2.flatMap fun i => line (instructionIndent ++ i.text)) =
      textOfLines (g.blockLines exported index) := by
  rw [renderLabel_eq exported h, g.textOfLines_copyLines h, ← textOfLines_append, blockLines,
    List.append_assoc]
  rfl

end PlainGlobal

/-- The text of the program of plain globals. -/
theorem render_lowered (exported : Bool) {gs : List PlainGlobal} (h : gs.length ≤ UInt32.size) :
    (unitOf exported (gs.zipIdx.map fun x => x.1.lowered x.2)).program.render =
      .ok (textOfLines (programLines exported gs)) := by
  have hindex : ∀ x ∈ gs.zipIdx, x.2 < UInt32.size := by
    intro x hx
    have := List.snd_lt_of_mem_zipIdx hx
    omega
  have hds : ∀ d ∈ (gs.zipIdx.map fun x => x.1.lowered x.2).map Prod.fst,
      d.render = .ok d.plainLine := by
    simp only [List.forall_mem_map]
    exact fun x _ => x.1.render_declaration x.2
  have hblocks : ∀ entry ∈ (gs.zipIdx.map fun x => x.1.lowered x.2).map initEntry,
      ∀ i ∈ entry.2, i.render = .ok i.text := by
    simp only [List.forall_mem_map]
    exact fun x _ => x.1.render_instruction x.2
  have hdata : ((gs.zipIdx.map fun x => x.1.lowered x.2).map Prod.fst).flatMap
      Declaration.plainLine = textOfLines (gs.zipIdx.map fun x => x.1.declarationLine x.2) := by
    simp only [textOfLines, List.flatMap_map]
    exact List.flatMap_congr fun x hx => x.1.plainLine_lowered (hindex x hx)
  have hcode : (((gs.zipIdx.map fun x => x.1.lowered x.2).map initEntry).flatMap fun entry =>
      renderLabel exported entry.1 ++
        entry.2.flatMap fun i => line (instructionIndent ++ i.text)) =
      textOfLines (gs.zipIdx.flatMap fun x => x.1.blockLines exported x.2) := by
    rw [textOfLines, List.flatMap_assoc, List.flatMap_map, List.flatMap_map]
    refine List.flatMap_congr fun x hx => ?_
    rw [initEntry, x.1.name_lowered]
    exact x.1.textOfLines_blockLines exported (hindex x hx)
  have hlines : textOfLines (programLines exported gs) =
      line (text ".data_start") ++ textOfLines (gs.zipIdx.map fun x => x.1.declarationLine x.2) ++
        line (text ".data_end") ++ (line (text ".code_start") ++
          textOfLines (gs.zipIdx.flatMap fun x => x.1.blockLines exported x.2) ++
          line (text ".code_end")) := by
    simp only [programLines, textOfLines_append, List.append_assoc]
    rfl
  rw [hlines, ← hdata, ← hcode]
  exact Program.render_of_render hds hblocks exported

/-- **A module of plain globals has the expected text**, if every copy is of an earlier global that
has the same type and never changes, and the section is not too long to be written. -/
theorem assemble_writeModule (exported : Bool) {gs : List PlainGlobal} (href : RefersBack gs)
    (hsize : (RawSection.globals (gs.map PlainGlobal.raw)).payload.length < 2 ^ 32) :
    ({ exportInit := exported } : Options).assemble
        (writeModule [.globals (gs.map PlainGlobal.raw)]) =
      .ok (textOfLines (programLines exported gs)) := by
  obtain ⟨frame, v, hmodule, hcount, hbytes⟩ := isModule_globals hsize 0
  have hwhole : ∀ g ∈ gs.map PlainGlobal.raw, g.IsWhole := by
    rw [List.forall_mem_map]
    exact fun g _ => g.isWhole_raw
  obtain ⟨entries, r, hread, hfinish, hholds⟩ :=
    EntryVector.readMany_write hwhole hcount hbytes
  have hlower : v.lowerGlobals exported =
      .ok (unitOf exported (gs.zipIdx.map fun x => x.1.lowered x.2)) :=
    EntryVector.lowerGlobals_of_lowersTo hread hfinish (lowersTo_of_holds href hholds [] rfl)
      exported
  have hprogram : ({ exportInit := exported } : Options).program
      (writeModule [.globals (gs.map PlainGlobal.raw)]) =
        .ok (unitOf exported (gs.zipIdx.map fun x => x.1.lowered x.2)).program :=
    Options.program_of_isModule rfl (Int.le_refl 0) (Int.natCast_nonneg _) hmodule hlower
  have hlen : gs.length ≤ UInt32.size := by
    rw [← List.length_map (f := PlainGlobal.raw), ← hcount]
    exact Nat.le_of_lt v.count.toNat_lt
  rw [Options.assemble, hprogram]
  exact render_lowered exported hlen

/-- A constant, a copy of it that may change, and a floating-point number. -/
theorem assemble_writeModule_three :
    let gs : List PlainGlobal :=
      [{ type := .i32, isMutable := false, init := .constant (-7 : Int32) },
        { type := .i32, isMutable := true, init := .copy 0 },
        { type := .f64, isMutable := false, init := .constant (0x3FF8000000000000 : UInt64) }]
    RefersBack gs ∧
      ({ exportInit := true } : Options).assemble
          (writeModule [.globals (gs.map PlainGlobal.raw)]) =
        .ok (textOfLines [".data_start", "    __G__0: %SystemInt32, -7",
          "    __G__1: %SystemInt32, null", "    __G__2: %SystemDouble, 1.5", ".data_end",
          ".code_start", "    .export __INIT___G__0", "    __INIT___G__0:",
          "    .export __INIT___G__1", "    __INIT___G__1:", "        PUSH,__G__0",
          "        PUSH,__G__1", "        COPY", "    .export __INIT___G__2", "    __INIT___G__2:",
          ".code_end"]) := by
  intro gs
  have href : RefersBack gs := by
    intro i g source hg hsource
    match i with
    | 0 =>
      cases hg
      cases hsource
    | 1 =>
      cases hg
      cases hsource
      exact ⟨by decide, _, rfl, rfl, rfl⟩
    | 2 =>
      cases hg
      cases hsource
    | i + 3 => cases hg
  refine ⟨href, (assemble_writeModule true href (by decide +kernel)).trans ?_⟩
  decide +kernel

end WasmUdon
