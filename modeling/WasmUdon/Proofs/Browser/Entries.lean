import WasmUdon.Browser.Entry
import WasmUdon.Proofs.Assembly.Rendering

/-!
# The browser shows what is rendered

A program is printed in two ways: as one text, section by section, and as a list of entries with
their lines, for the browser. The two are compared part by part, as outcomes (`Explains`): either
both succeed and the lines, each ended by a line feed, make up the text, or both fail, and the
failure of the text is caused by the failure of the entries. A declaration whose name holds line
feeds is cut into more lines, but nothing is lost (`flatMap_line_splitLines`).

`Program.render_eq_entries` puts the parts together: the text of a program is that of its entries
between the marker lines of the sections that are there.
-/

namespace WasmUdon

/-! ## Two outcomes -/

/-- Both outcomes are results, and `R` relates them; or both are failures, and the first one is the
cause of the second one. -/
inductive Explains {α β : Type} (R : α → β → Prop) : Except Error α → Except Error β → Prop
  | ok {a : α} {b : β} (h : R a b) : Explains R (.ok a) (.ok b)
  | error {e e' : Error} (h : e'.cause? = some e) : Explains R (.error e) (.error e')

theorem Explains.map {α β γ δ : Type} {R : α → β → Prop} {S : γ → δ → Prop} {f : α → γ} {g : β → δ}
    {x : Except Error α} {y : Except Error β} (h : Explains R x y)
    (hS : ∀ a b, R a b → S (f a) (g b)) : Explains S (x.map f) (y.map g) := by
  cases h with
  | ok h => exact .ok (hS _ _ h)
  | error h => exact .error h

theorem Explains.map_right {α β δ : Type} {R : α → β → Prop} {S : α → δ → Prop} {g : β → δ}
    {x : Except Error α} {y : Except Error β} (h : Explains R x y)
    (hS : ∀ a b, R a b → S a (g b)) : Explains S x (y.map g) := by
  cases h with
  | ok h => exact .ok (hS _ _ h)
  | error h => exact .error h

theorem Error.cause?_atItem (path : List Bytes) (detail : Bytes) (e : Error) :
    (Error.atItem path detail e).cause? = some e := rfl

/-! ## Lines -/

/-- The pieces between the line feeds of a byte string, each ended by a line feed, are the byte
string and a line feed. -/
theorem flatMap_line_splitLines (bs : Bytes) : (splitLines bs).flatMap line = line bs := by
  induction bs with
  | nil => rfl
  | cons b bs ih =>
    rw [splitLines]
    split
    · rename_i hb
      rw [List.flatMap_cons, ih, hb]
      rfl
    · split
      · rename_i hnil
        rw [hnil] at ih
        exact absurd ih.symm (List.append_ne_nil_of_right_ne_nil bs (List.cons_ne_nil 10 []))
      · rename_i first rest hcons
        rw [hcons, List.flatMap_cons] at ih
        exact congrArg (b :: ·) ih

theorem flatMap_line_labelLines (exported : Bool) (label : Bytes) :
    (labelLines exported label).flatMap line = renderLabel exported label := by
  cases exported with
  | false => simp [labelLines, renderLabel]
  | true => simp [labelLines, renderLabel, exportLine]

/-- The text of a declaration ends with a line feed. -/
theorem Declaration.exists_line_of_render {d : Declaration} {bs : Bytes} (h : d.render = .ok bs) :
    ∃ content, bs = line content := by
  rw [render] at h
  split at h
  · cases h
  · split at h
    · cases h
    · rename_i back hback
      cases h
      rw [renderVariable] at hback
      split at hback
      · cases hback
      · cases hback
        exact ⟨_, (List.append_assoc ..).symm⟩

/-- The lines of a declaration make up its text. -/
theorem Declaration.exists_lines_of_render {d : Declaration} {bs : Bytes} (h : d.render = .ok bs) :
    ∃ lines, d.lines = .ok lines ∧ lines.flatMap line = bs := by
  obtain ⟨content, rfl⟩ := exists_line_of_render h
  refine ⟨splitLines content, ?_, flatMap_line_splitLines content⟩
  rw [lines, h, Except.map, line, List.dropLast_concat]

/-! ## Entries and text, part by part -/

/-- The lines of entries, each ended by a line feed. -/
def entriesText (es : List Entry) : Bytes := es.flatMap fun e => e.lines.flatMap line

/-- The sort and the name of an entry. -/
def Entry.heading (e : Entry) : Bool × Bytes := (e.isCode, e.name)

/-- The text belongs to the entries, and these have the given headings. -/
def Shows (headings : List (Bool × Bytes)) (es : List Entry) (bs : Bytes) : Prop :=
  bs = entriesText es ∧ es.map Entry.heading = headings

theorem Shows.cons {headings : List (Bool × Bytes)} {es : List Entry} {bs : Bytes}
    (h : Shows headings es bs) (e : Entry) :
    Shows (e.heading :: headings) (e :: es) (e.lines.flatMap line ++ bs) :=
  ⟨by rw [h.1]; rfl, by rw [List.map_cons, h.2]⟩

theorem declarationEntries_explains (i : Nat) (ds : List Declaration) :
    Explains (Shows (ds.map fun d => (false, d.name))) (declarationEntries ds)
      (renderDeclarations i ds) := by
  induction ds generalizing i with
  | nil => exact .ok ⟨rfl, rfl⟩
  | cons d ds ih =>
    rw [declarationEntries, renderDeclarations]
    cases hrender : d.render with
    | error e =>
      have hlines : d.lines = .error e := by rw [Declaration.lines, hrender, Except.map]
      rw [hlines]
      exact .error (Error.cause?_atItem ..)
    | ok first =>
      obtain ⟨lines, hlines, rfl⟩ := Declaration.exists_lines_of_render hrender
      rw [hlines]
      exact (ih (i + 1)).map fun es bs h => h.cons { name := d.name, isCode := false, lines }

theorem instructionLines_explains (label : Bytes) (i : Nat) (is : List Instruction) :
    Explains (fun lines bs => bs = lines.flatMap line) (instructionLines is)
      (renderInstructions label i is) := by
  induction is generalizing i with
  | nil => exact .ok rfl
  | cons instruction is ih =>
    rw [instructionLines, renderInstructions]
    cases instruction.render with
    | error e => exact .error (Error.cause?_atItem ..)
    | ok first =>
      refine (ih (i + 1)).map fun lines bs h => ?_
      rw [h, List.flatMap_cons]

theorem blockEntries_explains (exported : Bool) (entries : List (Bytes × Block)) :
    Explains (Shows (entries.map fun entry => (true, entry.1))) (blockEntries exported entries)
      (renderBlocks exported entries) := by
  induction entries with
  | nil => exact .ok ⟨rfl, rfl⟩
  | cons entry entries ih =>
    obtain ⟨label, block⟩ := entry
    rw [blockEntries, renderBlocks]
    have hbody := instructionLines_explains label 0 block
    generalize instructionLines block = x at hbody
    generalize renderInstructions label 0 block = y at hbody
    cases hbody with
    | error h => exact .error h
    | @ok lines body h =>
      refine ih.map fun es bs hes => ?_
      have htext : renderLabel exported label ++ body =
          (labelLines exported label ++ lines).flatMap line := by
        rw [List.flatMap_append, flatMap_line_labelLines, h]
      rw [htext]
      exact hes.cons { name := label, isCode := true, lines := labelLines exported label ++ lines }

/-! ## Programs -/

/-- The text of a section between its marker lines; nothing if the section is missing. -/
def markedText (front back : String) (present : Bool) (body : Bytes) : Bytes :=
  if present then line (text front) ++ body ++ line (text back) else []

/-- The text of entries in the sections that a program has. -/
def Program.textOf (p : Program) (es : List Entry) : Bytes :=
  markedText ".data_start" ".data_end" p.data.isSome (entriesText (es.filter (!·.isCode))) ++
    markedText ".code_start" ".code_end" p.code.isSome (entriesText (es.filter (·.isCode)))

/-- The headings of the entries of a program: its variables, then its labels. -/
def Program.headings (p : Program) : List (Bool × Bytes) :=
  p.declarations.map (fun d => (false, d.name)) ++ p.blocks.map fun entry => (true, entry.1)

theorem isCode_eq_of_heading {headings : List (Bool × Bytes)} {es : List Entry}
    (h : es.map Entry.heading = headings) {isCode : Bool}
    (hcode : ∀ heading ∈ headings, heading.1 = isCode) : ∀ e ∈ es, e.isCode = isCode := by
  intro e he
  have hmem : e.heading ∈ headings := h ▸ List.mem_map_of_mem he
  exact hcode _ hmem

/-- The entries of the data section make up its text. -/
theorem Program.renderData_explains (p : Program) :
    Explains
      (fun es bs => bs = markedText ".data_start" ".data_end" p.data.isSome (entriesText es) ∧
        es.map Entry.heading = p.declarations.map fun d => (false, d.name))
      (declarationEntries p.declarations) p.renderData := by
  rw [renderData, declarations]
  cases p.data with
  | none => exact .ok ⟨rfl, rfl⟩
  | some ds =>
    refine (declarationEntries_explains 0 ds).map_right fun es bs h => ?_
    exact ⟨by rw [h.1]; rfl, h.2⟩

/-- The entries of the code section. -/
def Program.codeEntries (p : Program) : Except Error (List Entry) :=
  match p.code with
  | none => .ok []
  | some code => blockEntries code.exported (code.map.getD {}).entries

/-- The entries of the code section make up its text. -/
theorem Program.renderCode_explains (p : Program) :
    Explains
      (fun es bs => bs = markedText ".code_start" ".code_end" p.code.isSome (entriesText es) ∧
        es.map Entry.heading = p.blocks.map fun entry => (true, entry.1))
      p.codeEntries p.renderCode := by
  rw [renderCode, blocks, codeEntries]
  cases p.code with
  | none => exact .ok ⟨rfl, rfl⟩
  | some code =>
    refine (blockEntries_explains code.exported (code.map.getD {}).entries).map_right
      fun es bs h => ?_
    exact ⟨by rw [h.1]; rfl, h.2⟩

theorem Program.entries_eq (p : Program) :
    p.entries =
      match declarationEntries p.declarations with
      | .error e => .error e
      | .ok data => p.codeEntries.map (data ++ ·) := by
  rw [entries, codeEntries, declarations]
  cases declarationEntries (p.data.getD []) with
  | error e => rfl
  | ok data =>
    cases p.code with
    | none => simp [Except.map]
    | some code => rfl

/-- The entries of a program make up its text. -/
theorem Program.entries_explains (p : Program) :
    Explains (fun es bs => bs = p.textOf es ∧ es.map Entry.heading = p.headings)
      p.entries p.render := by
  rw [entries_eq, render]
  have hdata := p.renderData_explains
  generalize declarationEntries p.declarations = x at hdata
  generalize p.renderData = y at hdata
  cases hdata with
  | error h => exact .error h
  | @ok data front h =>
    refine p.renderCode_explains.map fun code back hcode => ?_
    have hfalse : ∀ e ∈ data, e.isCode = false := isCode_eq_of_heading h.2 (by simp)
    have htrue : ∀ e ∈ code, e.isCode = true := isCode_eq_of_heading hcode.2 (by simp)
    have hfront : (data ++ code).filter (!·.isCode) = data := by
      rw [List.filter_append, List.filter_eq_self.2 (by simpa using hfalse),
        List.filter_eq_nil_iff.2 (by simpa using htrue), List.append_nil]
    have hback : (data ++ code).filter (·.isCode) = code := by
      rw [List.filter_append, List.filter_eq_self.2 htrue,
        List.filter_eq_nil_iff.2 (by simpa using hfalse), List.nil_append]
    rw [textOf, hfront, hback, ← h.1, ← hcode.1, List.map_append, h.2, hcode.2]
    exact ⟨rfl, rfl⟩

/-- **The browser shows exactly what is rendered.** The entries of a program can be listed exactly
when the program has a text, and there is one for each declaration and then one for each label. The
text is that of the entries, between the marker lines of the sections that are there; and where
there is none, rendering fails because of what listing the entries fails with. -/
theorem Program.render_eq_entries (p : Program) :
    ((∃ es, p.entries = .ok es) ↔ ∃ bs, p.render = .ok bs) ∧
      (∀ es, p.entries = .ok es →
        p.render = .ok (p.textOf es) ∧ es.map Entry.heading = p.headings) ∧
      ∀ e, p.render = .error e → ∃ cause, e.cause? = some cause ∧ p.entries = .error cause := by
  have h := p.entries_explains
  generalize p.entries = x at h
  generalize p.render = y at h
  cases h with
  | @ok es bs h =>
    refine ⟨by simp, ?_, ?_⟩
    · rintro _ ⟨⟩
      exact ⟨by rw [h.1], h.2⟩
    · rintro _ ⟨⟩
  | @error e e' h =>
    refine ⟨by simp, ?_, ?_⟩
    · rintro _ ⟨⟩
    · rintro _ ⟨⟩
      exact ⟨e, h, rfl⟩

end WasmUdon
