import WasmUdon.Proofs.Assembly.Rendering
import WasmUdon.Proofs.Text.Ascii

/-!
# Reading a program off its text

The text of a program is a list of lines (`Program.dataTexts`, `Program.codeTexts`), and a line
shows by its first bytes what it is: a marker of a section starts with a point, an instruction with
eight blanks, and a declaration or a label with four. So the lines can be put back into sections and
blocks, as long as names and operands do not break a line or look like another one
(`Program.IsLegible`).

`Program.eq_of_render_eq` says that the text of a legible program determines it. All of it rests on
one fact about lists, `append_inj_of_stop`: what comes before the first stop is determined.
-/

namespace WasmUdon

/-! ## Cutting at a stop -/

section Stops

variable {α β : Type}

/-- If `xs` and `ys` start with a stop, and no stop comes before them, they are cut off at the same
place. -/
theorem append_inj_of_stop {P : α → Prop} {as bs xs ys : List α} (has : ∀ a ∈ as, P a)
    (hbs : ∀ b ∈ bs, P b) (hxs : ∀ x, xs.head? = some x → ¬P x)
    (hys : ∀ y, ys.head? = some y → ¬P y) (h : as ++ xs = bs ++ ys) : as = bs ∧ xs = ys := by
  induction as generalizing bs with
  | nil =>
    cases bs with
    | nil => exact ⟨rfl, h⟩
    | cons b bs =>
      have hhead : xs.head? = some b := congrArg List.head? h
      exact absurd (hbs b List.mem_cons_self) (hxs b hhead)
  | cons a as ih =>
    rw [List.forall_mem_cons] at has
    cases bs with
    | nil =>
      have hhead : ys.head? = some a := (congrArg List.head? h).symm
      exact absurd has.1 (hys a hhead)
    | cons b bs =>
      rw [List.forall_mem_cons] at hbs
      obtain ⟨rfl, htail⟩ := List.cons.inj h
      obtain ⟨rfl, hrest⟩ := ih has.2 hbs.2 htail
      exact ⟨rfl, hrest⟩

/-- A stop that is the same on both sides. -/
theorem append_cons_inj_of_notMem {stop : α} {as bs xs ys : List α} (has : stop ∉ as)
    (hbs : stop ∉ bs) (h : as ++ stop :: xs = bs ++ stop :: ys) : as = bs ∧ xs = ys := by
  have hstop : ∀ zs : List α, ∀ z, (stop :: zs).head? = some z → ¬z ≠ stop := by
    rintro zs z ⟨⟩
    exact not_not.2 rfl
  obtain ⟨hfront, hback⟩ := append_inj_of_stop (P := (· ≠ stop))
    (fun a ha he => has (he ▸ ha)) (fun b hb he => hbs (he ▸ hb)) (hstop xs) (hstop ys) h
  exact ⟨hfront, (List.cons.inj hback).2⟩

theorem map_inj_of_mem {f : α → β} {as bs : List α}
    (hf : ∀ a ∈ as, ∀ b ∈ bs, f a = f b → a = b) (h : as.map f = bs.map f) : as = bs := by
  induction as generalizing bs with
  | nil => exact (List.map_eq_nil_iff.1 h.symm).symm
  | cons a as ih =>
    cases bs with
    | nil => cases h
    | cons b bs =>
      obtain ⟨hhead, htail⟩ := List.cons.inj h
      have hab : a = b := hf a List.mem_cons_self b List.mem_cons_self hhead
      rw [hab, ih (fun a ha b hb => hf a (List.mem_cons_of_mem _ ha) b (List.mem_cons_of_mem _ hb))
        htail]

end Stops

/-- Lines that hold no line feed are determined by their text. -/
theorem flatMap_line_inj {ls ls' : List Bytes} (hls : ∀ l ∈ ls, 10 ∉ l) (hls' : ∀ l ∈ ls', 10 ∉ l)
    (h : ls.flatMap line = ls'.flatMap line) : ls = ls' := by
  induction ls generalizing ls' with
  | nil =>
    cases ls' with
    | nil => rfl
    | cons l' ls' => simp [line] at h
  | cons l ls ih =>
    cases ls' with
    | nil => simp [line] at h
    | cons l' ls' =>
      rw [List.forall_mem_cons] at hls hls'
      simp only [List.flatMap_cons, line, List.append_assoc, List.singleton_append] at h
      obtain ⟨rfl, hrest⟩ := append_cons_inj_of_notMem hls.1 hls'.1 h
      rw [ih hls.2 hls'.2 hrest]

/-! ## Declarations -/

theorem AsmType.eq_of_name_eq {t t' : AsmType} (ht : ∀ code, t ≠ .unknown code)
    (ht' : ∀ code, t' ≠ .unknown code) (h : t.name = t'.name) : t = t' := by
  have hkeyword : ∀ t : AsmType, (∀ code, t ≠ .unknown code) → t.keyword? = some t.name := by
    intro t ht
    cases t with
    | unknown code => exact absurd rfl (ht code)
    | _ => rfl
  have hkeywords : t.keyword? = t'.keyword? := by rw [hkeyword t ht, hkeyword t' ht', h]
  cases t <;> cases t' <;> simp_all [AsmType.keyword?]

namespace Declaration

/-- The content of the line of a declaration without an attribute. -/
def plainText (d : Declaration) : Bytes :=
  declarationIndent ++ d.name ++ text (": " ++ d.type.name ++ ", ") ++ d.initText

/-- A declaration that can be read off its line: it has no attribute, its name holds neither a
colon nor a line feed, its type is known, and a first value has this type and does not look like a
missing one. -/
structure IsLegible (d : Declaration) : Prop where
  attr : d.attr = {}
  name : 58 ∉ d.name ∧ 10 ∉ d.name
  type : ∀ code, d.type ≠ .unknown code
  init : ∀ value, d.init = some value →
    value.type = d.type ∧ 10 ∉ value.text ∧ value.text ≠ text "null"

variable {d d' : Declaration}

theorem IsLegible.render_eq (h : d.IsLegible) : d.render = .ok (line d.plainText) := by
  obtain ⟨name, type, init, attr⟩ := d
  obtain rfl : attr = {} := h.attr
  cases type with
  | unknown code => exact absurd rfl (h.type code)
  | _ => rfl

/-- The keyword of a known type holds neither a comma nor a line feed. -/
theorem IsLegible.knownType (h : d.IsLegible) :
    44 ∉ text d.type.name ∧ 10 ∉ text d.type.name := by
  cases htype : d.type with
  | unknown code => exact absurd htype (h.type code)
  | _ => decide

/-- What follows the name: the type between a colon and a comma, and the first value. -/
theorem plainText_eq (d : Declaration) :
    d.plainText = declarationIndent ++ (d.name ++ 58 :: 32 :: (text d.type.name ++
      44 :: 32 :: d.initText)) := by
  have hcolon : text ": " = [58, 32] := by decide
  have hcomma : text ", " = [44, 32] := by decide
  simp only [plainText, text_append, hcolon, hcomma, List.append_assoc, List.cons_append,
    List.nil_append]

theorem IsLegible.lineFeed_notMem_initText (h : d.IsLegible) : 10 ∉ d.initText := by
  unfold initText
  cases hd : d.init with
  | none => decide
  | some value => exact (h.init value hd).2.1

theorem IsLegible.lineFeed_notMem (h : d.IsLegible) : 10 ∉ d.plainText := by
  have htype := (h.knownType).2
  have hindent : 10 ∉ declarationIndent := by decide
  rw [plainText_eq]
  simp [hindent, h.name.2, htype, h.lineFeed_notMem_initText]

theorem eq_of_initText_eq (h : d.IsLegible) (h' : d'.IsLegible) (htype : d.type = d'.type)
    (hinit : d.initText = d'.initText) : d.init = d'.init := by
  unfold initText at hinit
  cases hd : d.init with
  | none =>
    cases hd' : d'.init with
    | none => rfl
    | some value =>
      rw [hd, hd'] at hinit
      exact absurd hinit.symm (h'.init value hd').2.2
  | some value =>
    cases hd' : d'.init with
    | none =>
      rw [hd, hd'] at hinit
      exact absurd hinit (h.init value hd).2.2
    | some value' =>
      rw [hd, hd'] at hinit
      obtain ⟨type, bs⟩ := value
      obtain ⟨type', bs'⟩ := value'
      have htypes : type = type' := (h.init _ hd).1.trans (htype.trans (h'.init _ hd').1.symm)
      have hbytes : bs = bs' := hinit
      rw [htypes, hbytes]

/-- **A declaration can be read off its line.** -/
theorem eq_of_plainText_eq (h : d.IsLegible) (h' : d'.IsLegible)
    (heq : d.plainText = d'.plainText) : d = d' := by
  rw [plainText_eq, plainText_eq] at heq
  obtain ⟨hname, hbehind⟩ :=
    append_cons_inj_of_notMem h.name.1 h'.name.1 (List.append_cancel_left heq)
  obtain ⟨htypeName, hvalue⟩ :=
    append_cons_inj_of_notMem h.knownType.1 h'.knownType.1 (List.cons.inj hbehind).2
  have htype := AsmType.eq_of_name_eq h.type h'.type (text_inj htypeName)
  have hinit := eq_of_initText_eq h h' htype (List.cons.inj hvalue).2
  have hattr : d.attr = d'.attr := h.attr.trans h'.attr.symm
  obtain ⟨name, type, init, attr⟩ := d
  obtain ⟨name', type', init', attr'⟩ := d'
  simp only at hname htype hinit hattr
  rw [hname, htype, hinit, hattr]

end Declaration

/-! ## Blocks -/

namespace Instruction

/-- An instruction that can be read off its line: its operand, if it has one, is there and holds no
line feed. The symbol of a foreign function is left out. -/
def IsLegible : Instruction → Prop
  | .nop | .pop | .copy => True
  | .push operand | .jump operand | .jumpIfFalse operand | .jumpIndirect operand =>
    isBlank operand = false ∧ 10 ∉ operand
  | .foreign _ | .mark _ | .unknown _ _ => False

variable {i j : Instruction}

theorem IsLegible.render_eq (h : i.IsLegible) : i.render = .ok i.text := by
  cases i with
  | nop | pop | copy => rfl
  | push operand | jump operand | jumpIfFalse operand | jumpIndirect operand =>
    rw [render, renderOperand, h.1]
    rfl
  | foreign | mark | unknown => exact h.elim

theorem IsLegible.lineFeed_notMem (h : i.IsLegible) : 10 ∉ i.text := by
  cases i with
  | nop | pop | copy => decide
  | push operand | jump operand | jumpIfFalse operand | jumpIndirect operand =>
    rw [text, List.mem_append, not_or]
    exact ⟨by decide, h.2⟩
  | foreign | mark | unknown => exact h.elim

/-- **An instruction can be read off its line.** -/
theorem eq_of_text_eq (hi : i.IsLegible) (hj : j.IsLegible) (h : i.text = j.text) : i = j := by
  have hnop : WasmUdon.text "NOP" = [78, 79, 80] := by decide
  have hpush : WasmUdon.text "PUSH," = [80, 85, 83, 72, 44] := by decide
  have hpop : WasmUdon.text "POP" = [80, 79, 80] := by decide
  have hjump : WasmUdon.text "JUMP," = [74, 85, 77, 80, 44] := by decide
  have hfalse : WasmUdon.text "JUMP_IF_FALSE," =
      [74, 85, 77, 80, 95, 73, 70, 95, 70, 65, 76, 83, 69, 44] := by decide
  have hindirect : WasmUdon.text "JUMP_INDIRECT," =
      [74, 85, 77, 80, 95, 73, 78, 68, 73, 82, 69, 67, 84, 44] := by decide
  have hcopy : WasmUdon.text "COPY" = [67, 79, 80, 89] := by decide
  cases i <;> cases j <;>
    simp_all [IsLegible, text]

end Instruction

/-- The content of the line of an instruction. -/
def instructionText (i : Instruction) : Bytes := instructionIndent ++ i.text

/-- The contents of the lines of a label. -/
def labelTexts (exported : Bool) (label : Bytes) : List Bytes :=
  (if exported then [declarationIndent ++ text ".export " ++ label] else [])
    ++ [declarationIndent ++ label ++ text ":"]

/-- The contents of the lines of a block under its label. -/
def blockTexts (exported : Bool) (entry : Bytes × Block) : List Bytes :=
  labelTexts exported entry.1 ++ entry.2.map instructionText

/-- A labelled block that can be read off its lines: the label holds no line feed and does not start
with a blank. -/
structure IsLegibleBlock (entry : Bytes × Block) : Prop where
  label : entry.1.head? ≠ some 32 ∧ 10 ∉ entry.1
  instructions : ∀ i ∈ entry.2, i.IsLegible

theorem flatMap_line_labelTexts (exported : Bool) (label : Bytes) :
    (labelTexts exported label).flatMap line = renderLabel exported label := by
  cases exported
  · simp [labelTexts, renderLabel]
  · simp [labelTexts, renderLabel, exportLine]

theorem flatMap_line_blockTexts (exported : Bool) (entry : Bytes × Block) :
    (blockTexts exported entry).flatMap line =
      renderLabel exported entry.1 ++
        entry.2.flatMap fun i => line (instructionIndent ++ i.text) := by
  rw [blockTexts, List.flatMap_append, flatMap_line_labelTexts, List.flatMap_map]
  rfl

theorem IsLegibleBlock.lineFeed_notMem {exported : Bool} {entry : Bytes × Block}
    (h : IsLegibleBlock entry) : ∀ l ∈ blockTexts exported entry, 10 ∉ l := by
  have hindent : 10 ∉ declarationIndent := by decide
  have hexport : 10 ∉ text ".export " := by decide
  have hcolon : 10 ∉ text ":" := by decide
  refine List.forall_mem_append.2 ⟨?_, ?_⟩
  · unfold labelTexts
    cases exported with
    | false => simp [hindent, hcolon, h.label.2]
    | true => simp [hindent, hcolon, hexport, h.label.2]
  · rw [List.forall_mem_map]
    intro i hi
    rw [instructionText, List.mem_append, not_or]
    exact ⟨by decide, (h.instructions i hi).lineFeed_notMem⟩

theorem labelTexts_inj {exported : Bool} {label label' : Bytes} {xs ys : List Bytes}
    (h : labelTexts exported label ++ xs = labelTexts exported label' ++ ys) :
    label = label' ∧ xs = ys := by
  cases exported with
  | false =>
    obtain ⟨hlabel, hrest⟩ := List.cons.inj h
    exact ⟨List.append_cancel_left (List.append_cancel_right hlabel), hrest⟩
  | true =>
    obtain ⟨hlabel, htail⟩ := List.cons.inj h
    obtain ⟨-, hrest⟩ := List.cons.inj htail
    exact ⟨List.append_cancel_left hlabel, hrest⟩

/-- A line with the blanks of an instruction has another blank behind those of a label. -/
theorem head?_of_instructionIndent_prefix {bs : Bytes}
    (h : instructionIndent <+: declarationIndent ++ bs) : bs.head? = some 32 := by
  have htwice : instructionIndent = declarationIndent ++ declarationIndent := by decide
  rw [htwice, List.prefix_append_right_inj] at h
  obtain ⟨rest, rfl⟩ := h
  rfl

/-- The first line of a block starts with fewer blanks than an instruction. -/
theorem not_prefix_of_head?_blockTexts {exported : Bool} {entries : List (Bytes × Block)}
    (h : ∀ entry ∈ entries, IsLegibleBlock entry) {l : Bytes}
    (hl : (entries.flatMap (blockTexts exported)).head? = some l) : ¬instructionIndent <+: l := by
  intro hprefix
  cases entries with
  | nil => cases hl
  | cons entry entries =>
    obtain ⟨label, block⟩ := entry
    have hlabel : label.head? ≠ some 32 := (List.forall_mem_cons.1 h).1.label.1
    cases exported with
    | true =>
      obtain rfl : declarationIndent ++ text ".export " ++ label = l := Option.some.inj hl
      rw [List.append_assoc] at hprefix
      have hhead := head?_of_instructionIndent_prefix hprefix
      cases hhead
    | false =>
      obtain rfl : declarationIndent ++ label ++ text ":" = l := Option.some.inj hl
      rw [List.append_assoc] at hprefix
      have hhead := head?_of_instructionIndent_prefix hprefix
      cases label with
      | nil => cases hhead
      | cons b label => exact hlabel hhead

/-- **Blocks can be read off their lines.** -/
theorem eq_of_blockTexts_eq {exported : Bool} {entries entries' : List (Bytes × Block)}
    (h : ∀ entry ∈ entries, IsLegibleBlock entry) (h' : ∀ entry ∈ entries', IsLegibleBlock entry)
    (heq : entries.flatMap (blockTexts exported) = entries'.flatMap (blockTexts exported)) :
    entries = entries' := by
  have hne : ∀ entry, blockTexts exported entry ≠ [] := by
    intro entry
    simp [blockTexts, labelTexts]
  induction entries generalizing entries' with
  | nil =>
    cases entries' with
    | nil => rfl
    | cons entry' entries' =>
      rw [List.flatMap_nil, List.flatMap_cons] at heq
      exact absurd (List.append_eq_nil_iff.1 heq.symm).1 (hne entry')
  | cons entry entries ih =>
    cases entries' with
    | nil =>
      rw [List.flatMap_nil, List.flatMap_cons] at heq
      exact absurd (List.append_eq_nil_iff.1 heq).1 (hne entry)
    | cons entry' entries' =>
      obtain ⟨label, block⟩ := entry
      obtain ⟨label', block'⟩ := entry'
      rw [List.forall_mem_cons] at h h'
      simp only [List.flatMap_cons, blockTexts, List.append_assoc] at heq
      obtain ⟨hlabel, hbodies⟩ := labelTexts_inj heq
      have hindent : ∀ is : List Instruction, ∀ l ∈ is.map instructionText,
          instructionIndent <+: l := by
        intro is l hl
        obtain ⟨i, -, rfl⟩ := List.mem_map.1 hl
        exact List.prefix_append _ _
      obtain ⟨hbody, hrest⟩ := append_inj_of_stop (hindent block) (hindent block')
        (fun l hl => not_prefix_of_head?_blockTexts h.2 hl)
        (fun l hl => not_prefix_of_head?_blockTexts h'.2 hl) hbodies
      have hblock : block = block' := by
        refine map_inj_of_mem (fun i hi j hj hij => ?_) hbody
        exact Instruction.eq_of_text_eq (h.1.instructions i hi) (h'.1.instructions j hj)
          (List.append_cancel_left hij)
      rw [hlabel, hblock, ih h.2 h'.2 hrest]

/-! ## Programs -/

namespace Program

/-- The contents of the lines of the data section. -/
def dataTexts (p : Program) : List Bytes :=
  match p.data with
  | none => []
  | some ds => text ".data_start" :: (ds.map Declaration.plainText ++ [text ".data_end"])

/-- The contents of the lines of the code section. -/
def codeTexts (p : Program) : List Bytes :=
  match p.code with
  | none => []
  | some code =>
    text ".code_start" ::
      ((code.map.getD {}).entries.flatMap (blockTexts code.exported) ++ [text ".code_end"])

/-- A program that can be read off its text. Its map is there, since a map that is missing looks
like an empty one. -/
structure IsLegible (p : Program) : Prop where
  declarations : ∀ d ∈ p.declarations, d.IsLegible
  blocks : ∀ entry ∈ p.blocks, IsLegibleBlock entry
  map : ∀ code, p.code = some code → code.map ≠ none

variable {p q : Program}

theorem IsLegible.of_data (h : p.IsLegible) {ds : List Declaration} (hp : p.data = some ds) :
    ∀ d ∈ ds, d.IsLegible := by
  have hds : p.declarations = ds := by
    rw [Program.declarations, hp, Option.getD_some]
  exact hds ▸ h.declarations

theorem IsLegible.of_code (h : p.IsLegible) {code : CodeSection} (hp : p.code = some code) :
    ∀ entry ∈ (code.map.getD {}).entries, IsLegibleBlock entry := by
  have hblocks : p.blocks = (code.map.getD {}).entries := by
    rw [Program.blocks, hp, Option.bind_some]
  exact hblocks ▸ h.blocks

theorem IsLegible.render_eq (h : p.IsLegible) :
    p.render = .ok ((p.dataTexts ++ p.codeTexts).flatMap line) := by
  have hdata : p.renderData = .ok (p.dataTexts.flatMap line) := by
    unfold renderData dataTexts
    cases hp : p.data with
    | none => rfl
    | some ds =>
      have hrender := renderDeclarations_of_render
        (fun d hd => (h.of_data hp d hd).render_eq) 0
      simp only [hrender, Except.map, List.flatMap_cons, List.flatMap_append, List.flatMap_map,
        List.flatMap_nil, List.append_nil, List.append_assoc]
  have hcode : p.renderCode = .ok (p.codeTexts.flatMap line) := by
    unfold renderCode codeTexts
    cases hp : p.code with
    | none => rfl
    | some code =>
      have hrender := renderBlocks_of_render
        (fun entry hentry i hi => ((h.of_code hp entry hentry).instructions i hi).render_eq)
        code.exported
      simp only [hrender, Except.map, List.flatMap_cons, List.flatMap_append, List.flatMap_assoc,
        flatMap_line_blockTexts, List.flatMap_nil, List.append_nil, List.append_assoc]
  rw [render, hdata, hcode, List.flatMap_append]
  rfl

theorem IsLegible.lineFeed_notMem (h : p.IsLegible) :
    ∀ l ∈ p.dataTexts ++ p.codeTexts, 10 ∉ l := by
  refine List.forall_mem_append.2 ⟨?_, ?_⟩
  · unfold dataTexts
    cases hp : p.data with
    | none => exact List.forall_mem_nil _
    | some ds =>
      refine List.forall_mem_cons.2 ⟨by decide, List.forall_mem_append.2 ⟨?_, by decide⟩⟩
      rw [List.forall_mem_map]
      exact fun d hd => (h.of_data hp d hd).lineFeed_notMem
  · unfold codeTexts
    cases hp : p.code with
    | none => exact List.forall_mem_nil _
    | some code =>
      refine List.forall_mem_cons.2 ⟨by decide, List.forall_mem_append.2 ⟨?_, by decide⟩⟩
      intro l hl
      obtain ⟨entry, hentry, hl⟩ := List.mem_flatMap.1 hl
      exact (h.of_code hp entry hentry).lineFeed_notMem l hl

/-- The sections are told apart by the marker of the code section. -/
theorem texts_inj (h : p.dataTexts ++ p.codeTexts = q.dataTexts ++ q.codeTexts) :
    p.dataTexts = q.dataTexts ∧ p.codeTexts = q.codeTexts := by
  have hdata : ∀ {p : Program}, ∀ l ∈ p.dataTexts, l ≠ text ".code_start" := by
    intro p
    unfold dataTexts
    cases p.data with
    | none => exact List.forall_mem_nil _
    | some ds =>
      refine List.forall_mem_cons.2 ⟨by decide, List.forall_mem_append.2 ⟨?_, by decide⟩⟩
      rw [List.forall_mem_map]
      intro d _ heq
      rw [Declaration.plainText_eq] at heq
      cases heq
  have hcode : ∀ {p : Program}, ∀ l, p.codeTexts.head? = some l → ¬l ≠ text ".code_start" := by
    intro p l hl
    unfold codeTexts at hl
    cases hcode : p.code with
    | none =>
      rw [hcode] at hl
      cases hl
    | some code =>
      rw [hcode] at hl
      exact not_not.2 (Option.some.inj hl).symm
  exact append_inj_of_stop hdata hdata hcode hcode h

theorem IsLegible.data_inj (hp : p.IsLegible) (hq : q.IsLegible)
    (h : p.dataTexts = q.dataTexts) : p.data = q.data := by
  unfold dataTexts at h
  cases hpd : p.data with
  | none =>
    cases hqd : q.data with
    | none => rfl
    | some ds' =>
      rw [hpd, hqd] at h
      cases h
  | some ds =>
    cases hqd : q.data with
    | none =>
      rw [hpd, hqd] at h
      cases h
    | some ds' =>
      rw [hpd, hqd] at h
      have htexts := List.append_cancel_right (List.cons.inj h).2
      have hds : ds = ds' := map_inj_of_mem (fun d hd d' hd' =>
        Declaration.eq_of_plainText_eq (hp.of_data hpd d hd) (hq.of_data hqd d' hd')) htexts
      rw [hds]

theorem IsLegible.code_inj (hp : p.IsLegible) (hq : q.IsLegible)
    (hexported : ∀ code code', p.code = some code → q.code = some code' →
      code.exported = code'.exported)
    (h : p.codeTexts = q.codeTexts) : p.code = q.code := by
  unfold codeTexts at h
  cases hpc : p.code with
  | none =>
    cases hqc : q.code with
    | none => rfl
    | some code' =>
      rw [hpc, hqc] at h
      cases h
  | some code =>
    cases hqc : q.code with
    | none =>
      rw [hpc, hqc] at h
      cases h
    | some code' =>
      have hflag := hexported code code' hpc hqc
      have hmap := hp.map code hpc
      have hmap' := hq.map code' hqc
      have hblocks := hp.of_code hpc
      have hblocks' := hq.of_code hqc
      rw [hpc, hqc] at h
      have htexts := List.append_cancel_right (List.cons.inj h).2
      obtain ⟨_ | m, exported⟩ := code
      · exact absurd rfl hmap
      obtain ⟨_ | m', exported'⟩ := code'
      · exact absurd rfl hmap'
      have hflag : exported = exported' := hflag
      subst hflag
      have hentries := eq_of_blockTexts_eq hblocks hblocks' htexts
      obtain ⟨entries⟩ := m
      obtain ⟨entries'⟩ := m'
      have hentries : entries = entries' := hentries
      rw [hentries]

/-- **The text of a legible program determines it**, given whether its labels are exported. -/
theorem eq_of_render_eq (hp : p.IsLegible) (hq : q.IsLegible)
    (hexported : ∀ code code', p.code = some code → q.code = some code' →
      code.exported = code'.exported)
    (h : p.render = q.render) : p = q := by
  rw [hp.render_eq, hq.render_eq] at h
  have hlines := flatMap_line_inj hp.lineFeed_notMem hq.lineFeed_notMem (Except.ok.inj h)
  obtain ⟨hdata, hcode⟩ := texts_inj hlines
  have hsections := And.intro (hp.data_inj hq hdata) (hp.code_inj hq hexported hcode)
  obtain ⟨data, code⟩ := p
  obtain ⟨data', code'⟩ := q
  obtain ⟨rfl, rfl⟩ := hsections
  rfl

end Program

end WasmUdon
