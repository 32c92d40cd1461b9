import Mathlib.Tactic.IntervalCases
import WasmUdon.Proofs.Assembly.Rendering

/-!
# What has a text

Rendering decides item by item whether a program has a text, while it puts the text together. What
it accepts is said here without rendering: a declaration is valid if its numbers stand for a type,
an attribute and, where it counts, a mode (`Declaration.IsValid`), and an instruction if it is one
that has a text and its operand, where it needs one, is not blank (`Instruction.IsValid`).
Of items made from numbers it depends on the numbers alone (`Declaration.isValid_ofCode_iff` and
`Instruction.isValid_ofCode_iff`).

The items of a program come in the order in which they are rendered (`Program.items`).
`IsOutcomeOf` says what rendering items may come to: text only if all of them are valid, and
otherwise an error at the first one that is not. Every function of rendering comes to such an
outcome, by induction on its items, and so does a whole program (`Program.isOutcomeOf_render`).
-/

namespace WasmUdon

/-! ## Enumerations -/

/-- The types that have a keyword. -/
def AsmType.enumeration : List AsmType := [.int32, .int64, .single, .double, .string]

/-- The attributes that there are. -/
def AttributeKind.enumeration : List AttributeKind := [.none, .exported, .synced]

/-- The modes that have a name. -/
def SyncMode.enumeration : List SyncMode := [.none, .linear, .smooth]

theorem AsmType.ofCode_mem_enumeration_iff (code : Int) :
    ofCode code ∈ enumeration ↔ 0 ≤ code ∧ code < 5 := by
  constructor
  · intro h
    unfold ofCode at h
    split at h
    case h_6 => simp [enumeration] at h
    all_goals decide
  · rintro ⟨hlow, hhigh⟩
    interval_cases code <;> decide

theorem AttributeKind.ofCode_mem_enumeration_iff (code : Int) :
    ofCode code ∈ enumeration ↔ 0 ≤ code ∧ code < 3 := by
  constructor
  · intro h
    unfold ofCode at h
    split at h
    case h_4 => simp [enumeration] at h
    all_goals decide
  · rintro ⟨hlow, hhigh⟩
    interval_cases code <;> decide

theorem SyncMode.ofCode_mem_enumeration_iff (code : Int) :
    ofCode code ∈ enumeration ↔ 0 ≤ code ∧ code < 3 := by
  constructor
  · intro h
    unfold ofCode at h
    split at h
    case h_4 => simp [enumeration] at h
    all_goals decide
  · rintro ⟨hlow, hhigh⟩
    interval_cases code <;> decide

/-! ## Valid items -/

/-- The declaration has a type, an attribute and, if it is kept in step, a mode. -/
structure Declaration.IsValid (d : Declaration) : Prop where
  type_mem : d.type ∈ AsmType.enumeration
  kind_mem : d.attr.kind ∈ AttributeKind.enumeration
  sync_mem : d.attr.kind = .synced → d.attr.sync ∈ SyncMode.enumeration

/-- The instruction is one that has a text, and an operand that is needed is not blank. -/
def Instruction.IsValid : Instruction → Prop
  | .nop | .pop | .copy | .foreign _ => True
  | .push operand | .jump operand | .jumpIfFalse operand | .jumpIndirect operand =>
    isBlank operand = false
  | .mark _ | .unknown _ _ => False

theorem Declaration.exists_renderAttribute_iff {d : Declaration} :
    (∃ bs, d.renderAttribute = .ok bs) ↔ d.attr.kind ∈ AttributeKind.enumeration ∧
      (d.attr.kind = .synced → d.attr.sync ∈ SyncMode.enumeration) := by
  obtain ⟨name, type, init, kind, sync⟩ := d
  cases kind
  case synced =>
    cases sync <;>
      simp [renderAttribute, SyncMode.name?, AttributeKind.enumeration, SyncMode.enumeration]
  all_goals simp [renderAttribute, AttributeKind.enumeration]

theorem Declaration.exists_renderVariable_iff {d : Declaration} :
    (∃ bs, d.renderVariable = .ok bs) ↔ d.type ∈ AsmType.enumeration := by
  obtain ⟨name, type, init, attr⟩ := d
  cases type <;> simp [renderVariable, AsmType.enumeration]

theorem Declaration.exists_render_iff_isValid {d : Declaration} :
    (∃ bs, d.render = .ok bs) ↔ d.IsValid := by
  have hattribute := exists_renderAttribute_iff (d := d)
  have hvariable := exists_renderVariable_iff (d := d)
  have hparts : d.IsValid ↔
      (∃ bs, d.renderAttribute = .ok bs) ∧ ∃ bs, d.renderVariable = .ok bs := by
    rw [hattribute, hvariable]
    exact ⟨fun h => ⟨⟨h.kind_mem, h.sync_mem⟩, h.type_mem⟩, fun h => ⟨h.2, h.1.1, h.1.2⟩⟩
  rw [hparts, render]
  cases d.renderAttribute with
  | error e => simp
  | ok front => cases d.renderVariable <;> simp

theorem Instruction.exists_renderOperand_iff {name : String} {operand : Bytes} :
    (∃ bs, renderOperand name operand = .ok bs) ↔ isBlank operand = false := by
  unfold renderOperand
  cases isBlank operand <;> simp

theorem Instruction.exists_render_iff_isValid {i : Instruction} :
    (∃ bs, i.render = .ok bs) ↔ i.IsValid := by
  cases i
  case push | jump | jumpIfFalse | jumpIndirect => exact exists_renderOperand_iff
  all_goals simp [render, IsValid]

theorem AttributeKind.ofCode_eq_synced_iff {code : Int} : ofCode code = .synced ↔ code = 2 := by
  unfold ofCode
  split <;> simp_all

/-- Which numbers make a valid declaration. -/
theorem Declaration.isValid_ofCode_iff (name : Bytes) (type kind sync : Int)
    (init : Option Literal) :
    ({ name, type := .ofCode type, init
       attr := { kind := .ofCode kind, sync := .ofCode sync } } : Declaration).IsValid ↔
      (0 ≤ type ∧ type < 5) ∧ (0 ≤ kind ∧ kind < 3) ∧ (kind = 2 → 0 ≤ sync ∧ sync < 3) := by
  rw [← AsmType.ofCode_mem_enumeration_iff, ← AttributeKind.ofCode_mem_enumeration_iff,
    ← SyncMode.ofCode_mem_enumeration_iff, ← AttributeKind.ofCode_eq_synced_iff]
  exact ⟨fun h => ⟨h.type_mem, h.kind_mem, h.sync_mem⟩, fun h => ⟨h.1, h.2.1, h.2.2⟩⟩

/-- Which numbers make a valid instruction. -/
theorem Instruction.isValid_ofCode_iff (code : Int) (operand : Bytes) (value : Option Literal) :
    (ofCode code operand value).IsValid ↔
      code ∈ [0, 2, 6, 7] ∨ code ∈ [1, 3, 4, 5] ∧ isBlank operand = false := by
  unfold ofCode
  split
  all_goals simp_all [IsValid]

/-! ## Items in their order -/

/-- A declaration with its number, or an instruction with its label and its number there. -/
inductive Item
  | declaration (index : Nat) (d : Declaration)
  | instruction (label : Bytes) (index : Nat) (i : Instruction)

namespace Item

/-- Where an item stands in its program. -/
def path : Item → List Bytes
  | .declaration index _ => [text "data", decimal index]
  | .instruction label index _ => [label, decimal index]

/-- The item is valid. -/
def IsValid : Item → Prop
  | .declaration _ d => d.IsValid
  | .instruction _ _ i => i.IsValid

/-- The declarations of a program, from number `start` on. -/
def ofDeclarations (start : Nat) (ds : List Declaration) : List Item :=
  (ds.zipIdx start).map fun (d, index) => .declaration index d

/-- The instructions under a label, from number `start` on. -/
def ofInstructions (label : Bytes) (start : Nat) (is : List Instruction) : List Item :=
  (is.zipIdx start).map fun (i, index) => .instruction label index i

/-- The instructions of labelled blocks, label by label. -/
def ofBlocks (blocks : List (Bytes × Block)) : List Item :=
  blocks.flatMap fun (label, block) => ofInstructions label 0 block

end Item

/-- The items of a program: its declarations, and then its instructions, label by label. -/
def Program.items (p : Program) : List Item :=
  Item.ofDeclarations 0 p.declarations ++ Item.ofBlocks p.blocks

/-! ## Outcomes -/

/-- The error is a broken assumption at the first of the items that is not valid. -/
def Error.BlamesFirst (items : List Item) (e : Error) : Prop :=
  ∃ front item back f, items = front ++ item :: back ∧ (∀ x ∈ front, x.IsValid) ∧
    ¬ item.IsValid ∧ e.outer = .fault f ∧ f.kind = .internal ∧ f.phase = .codegen ∧
    f.path = item.path

theorem Error.BlamesFirst.not_all_valid {items : List Item} {e : Error} (h : e.BlamesFirst items) :
    ¬ ∀ item ∈ items, item.IsValid := by
  obtain ⟨front, item, back, f, rfl, -, hitem, -⟩ := h
  exact fun hall => hitem (hall item (List.mem_append_right front List.mem_cons_self))

/-- Rendering items may come to this: text only if all of them are valid, and otherwise an error at
the first one that is not. -/
def IsOutcomeOf (items : List Item) : Except Error Bytes → Prop
  | .ok _ => ∀ item ∈ items, item.IsValid
  | .error e => e.BlamesFirst items

namespace IsOutcomeOf

variable {item : Item} {items items' : List Item} {x : Except Error Bytes} {e : Error}

theorem map_iff {f : Bytes → Bytes} : IsOutcomeOf items (x.map f) ↔ IsOutcomeOf items x := by
  cases x <;> exact Iff.rfl

/-- An item that is not valid is blamed, whatever comes behind it. -/
theorem of_not_isValid (h : ¬ item.IsValid) (detail : Bytes) (cause : Error) :
    IsOutcomeOf (item :: items) (.error (.atItem item.path detail cause)) :=
  ⟨[], item, items, _, rfl, List.forall_mem_nil _, h, rfl, rfl, rfl, rfl⟩

/-- Items behind an error are not looked at. -/
theorem append_error (h : IsOutcomeOf items (.error e)) (more : List Item) :
    IsOutcomeOf (items ++ more) (.error e) := by
  obtain ⟨front, item, back, f, rfl, hfront, hitem⟩ := h
  refine ⟨front, item, back ++ more, f, ?_, hfront, hitem⟩
  rw [List.append_assoc, List.cons_append]

/-- Behind valid items, the outcome is that of the items that are left. -/
theorem of_valid (hvalid : ∀ item ∈ items, item.IsValid) (h : IsOutcomeOf items' x) :
    IsOutcomeOf (items ++ items') x := by
  cases x with
  | ok bs => exact List.forall_mem_append.2 ⟨hvalid, h⟩
  | error e =>
    obtain ⟨front, item, back, f, rfl, hfront, hitem⟩ := h
    refine ⟨items ++ front, item, back, f, ?_, List.forall_mem_append.2 ⟨hvalid, hfront⟩, hitem⟩
    rw [List.append_assoc]

end IsOutcomeOf

/-- The text of an item, or an error put around the one that it has no text. -/
theorem IsOutcomeOf.of_item {item : Item} {rendered : Except Error Bytes}
    (h : (∃ bs, rendered = .ok bs) ↔ item.IsValid) (detail : Bytes) :
    IsOutcomeOf [item] (rendered.mapError (.atItem item.path detail)) := by
  cases rendered with
  | error e => exact of_not_isValid (fun hvalid => nomatch h.2 hvalid) detail e
  | ok bs => exact List.forall_mem_singleton.2 (h.1 ⟨bs, rfl⟩)

/-- Items are rendered, and then those behind them. -/
theorem IsOutcomeOf.append {items items' : List Item} {front back : Except Error Bytes}
    (hfront : IsOutcomeOf items front) (hback : IsOutcomeOf items' back)
    (join : Bytes → Bytes → Bytes) :
    IsOutcomeOf (items ++ items') (front >>= fun bs => back.map (join bs)) := by
  cases front with
  | error e => exact append_error hfront items'
  | ok bs => exact of_valid hfront (map_iff.2 hback)

/-! ## Rendering -/

theorem isOutcomeOf_renderDeclarations (start : Nat) (ds : List Declaration) :
    IsOutcomeOf (Item.ofDeclarations start ds) (renderDeclarations start ds) := by
  induction ds generalizing start with
  | nil => exact List.forall_mem_nil _
  | cons d ds ih =>
    let item : Item := .declaration start d
    have hcut : renderDeclarations start (d :: ds) =
        d.render.mapError (.atItem item.path (text "declaration " ++ d.name)) >>= fun first =>
          (renderDeclarations (start + 1) ds).map (first ++ ·) := by
      rw [renderDeclarations]
      cases d.render <;> rfl
    rw [hcut]
    exact .append (.of_item Declaration.exists_render_iff_isValid _) (ih (start + 1)) _

theorem isOutcomeOf_renderInstructions (label : Bytes) (start : Nat) (is : List Instruction) :
    IsOutcomeOf (Item.ofInstructions label start is) (renderInstructions label start is) := by
  induction is generalizing start with
  | nil => exact List.forall_mem_nil _
  | cons i is ih =>
    let item : Item := .instruction label start i
    have hcut : renderInstructions label start (i :: is) =
        i.render.mapError (.atItem item.path
            (text "instruction " ++ decimal start ++ text " of " ++ label)) >>= fun first =>
          (renderInstructions label (start + 1) is).map
            (line (instructionIndent ++ first) ++ ·) := by
      rw [renderInstructions]
      cases i.render <;> rfl
    rw [hcut]
    exact .append (.of_item Instruction.exists_render_iff_isValid _) (ih (start + 1)) _

theorem isOutcomeOf_renderBlocks (exported : Bool) (blocks : List (Bytes × Block)) :
    IsOutcomeOf (Item.ofBlocks blocks) (renderBlocks exported blocks) := by
  induction blocks with
  | nil => exact List.forall_mem_nil _
  | cons entry blocks ih =>
    obtain ⟨label, block⟩ := entry
    have hcut : renderBlocks exported ((label, block) :: blocks) =
        renderInstructions label 0 block >>= fun body =>
          (renderBlocks exported blocks).map (renderLabel exported label ++ body ++ ·) := by
      rw [renderBlocks]
      cases renderInstructions label 0 block <;> rfl
    rw [hcut]
    exact .append (isOutcomeOf_renderInstructions label 0 block) ih _

/-- **Rendering a program has text or blames the first item that is not valid.** -/
theorem Program.isOutcomeOf_render (p : Program) : IsOutcomeOf p.items p.render := by
  have hdata : IsOutcomeOf (Item.ofDeclarations 0 p.declarations) p.renderData := by
    rw [renderData, declarations]
    cases p.data with
    | none => exact List.forall_mem_nil _
    | some ds => exact IsOutcomeOf.map_iff.2 (isOutcomeOf_renderDeclarations 0 ds)
  have hcode : IsOutcomeOf (Item.ofBlocks p.blocks) p.renderCode := by
    rw [renderCode, blocks]
    cases p.code with
    | none => exact List.forall_mem_nil _
    | some code => exact IsOutcomeOf.map_iff.2 (isOutcomeOf_renderBlocks code.exported _)
  have hcut : p.render = p.renderData >>= fun data => p.renderCode.map (data ++ ·) := by
    rw [render]
    cases p.renderData <;> rfl
  rw [hcut]
  exact .append hdata hcode _

/-- **A program has a text exactly if all its items are valid, and otherwise nothing is written.**
The error is a broken assumption that names the first item that is not valid, in the order of
rendering, and not a byte is written. If there is a text, exactly this text is written. For items
made from numbers, the last two parts say which numbers are valid. -/
theorem Program.render_valid_iff (p : Program) :
    ((∃ bs, p.render = .ok bs) ↔ ∀ item ∈ p.items, item.IsValid) ∧
      (∀ e, p.render = .error e → e.BlamesFirst p.items ∧ writeProgram (some p) = (0, [], some e)) ∧
      (∀ bs, p.render = .ok bs → writeProgram (some p) = (bs.length, bs, none)) ∧
      (∀ (name : Bytes) (type kind sync : Int) (init : Option Literal),
        ({ name, type := .ofCode type, init
           attr := { kind := .ofCode kind, sync := .ofCode sync } } : Declaration).IsValid ↔
          (0 ≤ type ∧ type < 5) ∧ (0 ≤ kind ∧ kind < 3) ∧ (kind = 2 → 0 ≤ sync ∧ sync < 3)) ∧
      ∀ (code : Int) (operand : Bytes) (value : Option Literal),
        (Instruction.ofCode code operand value).IsValid ↔
          code ∈ [0, 2, 6, 7] ∨ code ∈ [1, 3, 4, 5] ∧ isBlank operand = false := by
  have houtcome := p.isOutcomeOf_render
  rw [writeProgram, Option.getD_some]
  cases hrender : p.render with
  | error e =>
    rw [hrender] at houtcome
    have hfirst : e.BlamesFirst p.items := houtcome
    refine ⟨iff_of_false ?_ hfirst.not_all_valid, ?_, ?_, Declaration.isValid_ofCode_iff,
      Instruction.isValid_ofCode_iff⟩
    · rintro ⟨bs, h⟩
      cases h
    · intro e' h
      cases h
      exact ⟨hfirst, rfl⟩
    · intro bs h
      cases h
  | ok bs =>
    rw [hrender] at houtcome
    refine ⟨iff_of_true ⟨bs, rfl⟩ houtcome, ?_, ?_, Declaration.isValid_ofCode_iff,
      Instruction.isValid_ofCode_iff⟩
    · intro e h
      cases h
    · intro bs' h
      cases h
      rfl

end WasmUdon
