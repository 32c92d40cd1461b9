import WasmUdon.Assembly.Rendering
import WasmUdon.Proofs.Assembly.CodeMap

/-!
# Which programs have a text

A program has a text exactly when each of its declarations and instructions has one
(`Program.exists_render_iff`), and then its text is put together from theirs
(`Program.render_of_render`). A merged program has no declarations and blocks but those of its
parts, so merging programs that have a text gives a program that has one
(`exists_render_mergeUnits`).
-/

namespace WasmUdon

namespace Program

/-- The declarations of a program. -/
def declarations (p : Program) : List Declaration := p.data.getD []

/-- The labelled blocks of a program, in their order. -/
def blocks (p : Program) : List (Bytes × Block) := ((p.code.bind CodeSection.map).getD {}).entries

end Program

/-! ## Rendering item by item -/

theorem exists_map_eq_ok_iff {α β : Type} {x : Except Error α} {f : α → β} :
    (∃ b, x.map f = .ok b) ↔ ∃ a, x = .ok a := by
  cases x with
  | error e => simp [Except.map]
  | ok a => simp [Except.map]

theorem exists_renderDeclarations_iff {i : Nat} {ds : List Declaration} :
    (∃ bs, renderDeclarations i ds = .ok bs) ↔ ∀ d ∈ ds, ∃ bs, d.render = .ok bs := by
  induction ds generalizing i with
  | nil => simp [renderDeclarations]
  | cons d ds ih =>
    rw [renderDeclarations, List.forall_mem_cons]
    cases d.render with
    | error e => simp
    | ok first => simp [exists_map_eq_ok_iff, ih]

theorem exists_renderInstructions_iff {label : Bytes} {i : Nat} {is : List Instruction} :
    (∃ bs, renderInstructions label i is = .ok bs) ↔ ∀ j ∈ is, ∃ bs, j.render = .ok bs := by
  induction is generalizing i with
  | nil => simp [renderInstructions]
  | cons j is ih =>
    rw [renderInstructions, List.forall_mem_cons]
    cases j.render with
    | error e => simp
    | ok first => simp [exists_map_eq_ok_iff, ih]

theorem exists_renderBlocks_iff {exported : Bool} {entries : List (Bytes × Block)} :
    (∃ bs, renderBlocks exported entries = .ok bs) ↔
      ∀ entry ∈ entries, ∀ i ∈ entry.2, ∃ bs, i.render = .ok bs := by
  induction entries with
  | nil => simp [renderBlocks]
  | cons entry entries ih =>
    obtain ⟨label, block⟩ := entry
    have hblock : (∃ bs, renderInstructions label 0 block = .ok bs) ↔
        ∀ i ∈ block, ∃ bs, i.render = .ok bs := exists_renderInstructions_iff
    rw [renderBlocks, List.forall_mem_cons]
    cases hbody : renderInstructions label 0 block with
    | error e =>
      rw [hbody] at hblock
      simp [← hblock]
    | ok body =>
      rw [hbody] at hblock
      simp [exists_map_eq_ok_iff, ih, ← hblock]

/-- **A program has a text exactly when each of its declarations and instructions has one.** -/
theorem Program.exists_render_iff {p : Program} :
    (∃ bs, p.render = .ok bs) ↔
      (∀ d ∈ p.declarations, ∃ bs, d.render = .ok bs) ∧
        ∀ entry ∈ p.blocks, ∀ i ∈ entry.2, ∃ bs, i.render = .ok bs := by
  have hdata : (∃ bs, p.renderData = .ok bs) ↔ ∀ d ∈ p.declarations, ∃ bs, d.render = .ok bs := by
    rw [renderData, declarations]
    cases p.data with
    | none => simp
    | some ds => exact exists_map_eq_ok_iff.trans exists_renderDeclarations_iff
  have hcode : (∃ bs, p.renderCode = .ok bs) ↔
      ∀ entry ∈ p.blocks, ∀ i ∈ entry.2, ∃ bs, i.render = .ok bs := by
    rw [renderCode, blocks]
    cases p.code with
    | none => simp
    | some code => exact exists_map_eq_ok_iff.trans exists_renderBlocks_iff
  rw [← hdata, ← hcode, render]
  cases p.renderData with
  | error e => simp
  | ok data => simp [exists_map_eq_ok_iff]

/-! ## The text item by item -/

theorem renderDeclarations_of_render {f : Declaration → Bytes} {ds : List Declaration}
    (h : ∀ d ∈ ds, d.render = .ok (f d)) (i : Nat) :
    renderDeclarations i ds = .ok (ds.flatMap f) := by
  induction ds generalizing i with
  | nil => rfl
  | cons d ds ih =>
    rw [List.forall_mem_cons] at h
    rw [renderDeclarations, h.1]
    simp only [ih h.2, Except.map, List.flatMap_cons]

theorem renderInstructions_of_render {is : List Instruction}
    (h : ∀ j ∈ is, j.render = .ok j.text) (label : Bytes) (i : Nat) :
    renderInstructions label i is =
      .ok (is.flatMap fun j => line (instructionIndent ++ j.text)) := by
  induction is generalizing i with
  | nil => rfl
  | cons j is ih =>
    rw [List.forall_mem_cons] at h
    rw [renderInstructions, h.1]
    simp only [ih h.2, Except.map, List.flatMap_cons]

theorem renderBlocks_of_render {entries : List (Bytes × Block)}
    (h : ∀ entry ∈ entries, ∀ j ∈ entry.2, j.render = .ok j.text) (exported : Bool) :
    renderBlocks exported entries = .ok (entries.flatMap fun entry =>
      renderLabel exported entry.1 ++
        entry.2.flatMap fun j => line (instructionIndent ++ j.text)) := by
  induction entries with
  | nil => rfl
  | cons entry entries ih =>
    rw [List.forall_mem_cons] at h
    rw [renderBlocks, renderInstructions_of_render h.1]
    simp only [ih h.2, Except.map, List.flatMap_cons]

/-- The text of a program with both sections, from the texts of its declarations and
instructions. -/
theorem Program.render_of_render {f : Declaration → Bytes} {ds : List Declaration}
    (hds : ∀ d ∈ ds, d.render = .ok (f d)) {entries : List (Bytes × Block)}
    (hentries : ∀ entry ∈ entries, ∀ j ∈ entry.2, j.render = .ok j.text) (exported : Bool) :
    render { data := some ds, code := some { map := some { entries }, exported } } =
      .ok (line (text ".data_start") ++ ds.flatMap f ++ line (text ".data_end") ++
        (line (text ".code_start") ++ (entries.flatMap fun entry =>
          renderLabel exported entry.1 ++
            entry.2.flatMap fun j => line (instructionIndent ++ j.text)) ++
          line (text ".code_end"))) := by
  simp only [render, renderData, renderCode, renderDeclarations_of_render hds, Option.getD_some,
    renderBlocks_of_render hentries, Except.map]

/-! ## Merged programs -/

namespace Program

theorem declarations_merge (p other : Program) :
    (p.merge other).declarations = p.declarations ++ other.declarations := by
  rcases p with ⟨_ | ds, code⟩ <;> rcases other with ⟨_ | ds', code'⟩ <;>
    simp [declarations, merge, mergeData]

theorem mem_blocks_merge {p other : Program} {entry : Bytes × Block}
    (h : entry ∈ (p.merge other).blocks) : entry ∈ p.blocks ∨ entry ∈ other.blocks := by
  rcases other with ⟨data, _ | code⟩
  · exact .inl h
  · exact CodeMap.mem_merge h

theorem exists_render_merge {p other : Program} (hp : ∃ bs, p.render = .ok bs)
    (hother : ∃ bs, other.render = .ok bs) : ∃ bs, (p.merge other).render = .ok bs := by
  rw [exists_render_iff] at hp hother ⊢
  rw [declarations_merge]
  refine ⟨?_, ?_⟩
  · intro d hd
    rcases List.mem_append.1 hd with hd | hd
    · exact hp.1 d hd
    · exact hother.1 d hd
  · intro entry hentry
    rcases mem_blocks_merge hentry with hentry | hentry
    · exact hp.2 entry hentry
    · exact hother.2 entry hentry

end Program

theorem exists_render_mergeUnits {units : List ProgramUnit}
    (h : ∀ u ∈ units, ∃ bs, u.program.render = .ok bs) :
    ∃ bs, (mergeUnits units).render = .ok bs := by
  have hfold : ∀ {units : List ProgramUnit} {p : Program}, (∃ bs, p.render = .ok bs) →
      (∀ u ∈ units, ∃ bs, u.program.render = .ok bs) →
      ∃ bs, (units.foldl (fun p u => p.merge u.program) p).render = .ok bs := by
    intro units
    induction units with
    | nil => exact fun hp _ => hp
    | cons u units ih =>
      intro p hp hunits
      rw [List.forall_mem_cons] at hunits
      exact ih (Program.exists_render_merge hp hunits.1) hunits.2
  exact hfold ⟨_, rfl⟩ h

end WasmUdon
