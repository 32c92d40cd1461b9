import WasmUdon.Proofs.Assembly.Rendering
import WasmUdon.Proofs.Assembly.Workspace

/-!
# Merging units

`IsMergeOf` says what the program of units is without saying how it is put together: the
declarations of all units in their order, the labels of all units by their first occurrence, and
under each label the block of the last unit that has it. Merging units one after the other gives
such a program (`IsMergeOf.step` for one unit, by induction for all of them).

`Program.merge` is associative (`Program.merge_assoc`), so units may be merged in groups
(`mergeUnits_append`). A code map that is missing counts as an empty one (`Program.codeMap`).

The laws ask that a map lists no label twice. So it is with every program that the operations of a
workspace build (`Workspace.Sound.hasDistinctLabels_view`), and with every merge.
-/

namespace WasmUdon

/-! ## What a merge looks at -/

namespace Program

/-- The code map of a program; a code section or a map that is missing counts as an empty map. -/
def codeMap (p : Program) : CodeMap Block := (p.code.bind CodeSection.map).getD {}

/-- The export flag, if there is a code section. -/
def exported? (p : Program) : Option Bool := p.code.map CodeSection.exported

/-- The program with an empty map for one that is missing. -/
def filled (p : Program) : Program :=
  { p with code := p.code.map fun code => { code with map := some (code.map.getD {}) } }

/-- No label is listed twice. -/
def HasDistinctLabels (p : Program) : Prop := p.codeMap.labels.Nodup

instance (p : Program) : Decidable p.HasDistinctLabels :=
  inferInstanceAs (Decidable p.codeMap.labels.Nodup)

variable (p q r : Program)

theorem isSome_data_merge :
    (p.merge q).data.isSome ↔ p.data.isSome ∨ q.data.isSome := by
  obtain ⟨_ | ds, code⟩ := p <;> obtain ⟨_ | ds', code'⟩ := q <;> simp [merge, mergeData]

theorem isSome_code_merge :
    (p.merge q).code.isSome ↔ p.code.isSome ∨ q.code.isSome := by
  obtain ⟨data, code⟩ := p
  obtain ⟨data', _ | code'⟩ := q <;> simp [merge, mergeCode]

theorem codeMap_merge : (p.merge q).codeMap = p.codeMap.merge q.codeMap := by
  obtain ⟨data, code⟩ := p
  obtain ⟨data', _ | code'⟩ := q <;> rfl

theorem exported?_merge : (p.merge q).exported? = q.exported?.or p.exported? := by
  obtain ⟨data, code⟩ := p
  obtain ⟨data', _ | code'⟩ := q <;> simp [merge, mergeCode, exported?]

theorem HasDistinctLabels.merge {p : Program} (h : p.HasDistinctLabels) (q : Program) :
    (p.merge q).HasDistinctLabels := by
  rw [HasDistinctLabels, codeMap_merge]
  exact CodeMap.nodup_labels_merge h _

/-! ## Laws -/

theorem mergeData_assoc (a b c : Option (List Declaration)) :
    mergeData (mergeData a b) c = mergeData a (mergeData b c) := by
  cases a <;> cases b <;> cases c <;> simp [mergeData]

/-- **Merging is associative.** -/
theorem merge_assoc {q : Program} (h : q.HasDistinctLabels) :
    (p.merge q).merge r = p.merge (q.merge r) := by
  obtain ⟨data, code⟩ := q
  refine congrArg₂ mk (mergeData_assoc _ _ _) ?_
  change mergeCode (mergeCode p.code code) r.code = mergeCode p.code (mergeCode code r.code)
  cases hr : r.code with
  | none => rfl
  | some more =>
    have hcode : ((code.bind CodeSection.map).getD {}).labels.Nodup := h
    have hmap := CodeMap.merge_assoc ((p.code.bind CodeSection.map).getD {}) hcode
      (more.map.getD {})
    -- a code section that is missing in the middle takes part as an empty map
    cases code with
    | none => simpa [mergeCode] using hmap
    | some code => simpa [mergeCode] using hmap

theorem merge_empty : p.merge {} = p := by
  obtain ⟨_ | ds, code⟩ := p <;> rfl

/-- Merging into an empty program gives the program. -/
theorem empty_merge {p : Program} (h : p.HasDistinctLabels) :
    ({} : Program).merge p = p.filled := by
  obtain ⟨data, code⟩ := p
  refine congrArg₂ mk ?_ ?_
  · cases data <;> rfl
  · cases code with
    | none => rfl
    | some code =>
      have hentries : (CodeMap.merge {} (code.map.getD {})).entries = (code.map.getD {}).entries :=
        CodeMap.entries_foldl_set h
      have hmap : CodeMap.merge {} (code.map.getD {}) = code.map.getD {} :=
        congrArg CodeMap.mk hentries
      simp [mergeCode, hmap]

theorem merge_filled : p.merge q.filled = p.merge q := by
  obtain ⟨data', _ | code'⟩ := q <;> rfl

end Program

/-! ## Units -/

/-- What it means for a program to be the merge of units. -/
structure IsMergeOf (units : List ProgramUnit) (p : Program) : Prop where
  /-- There is a data section if and only if some unit has one. -/
  data : p.data.isSome ↔ ∃ u ∈ units, u.program.data.isSome
  /-- The declarations are those of the units, in their order. -/
  declarations : p.declarations = units.flatMap (·.program.declarations)
  /-- There is a code section if and only if some unit has one. -/
  code : p.code.isSome ↔ ∃ u ∈ units, u.program.code.isSome
  /-- The labels are those of the units, by their first occurrence. -/
  labels : p.codeMap.labels = (units.flatMap (·.program.codeMap.labels)).eraseDups
  /-- A label has the block of the last unit that has the label. -/
  blocks : ∀ label, p.codeMap.get? label =
    units.reverse.findSome? (·.program.codeMap.get? label)
  /-- The export flag is that of the last unit with a code section. -/
  exported? : p.exported? = units.reverse.findSome? (·.program.exported?)

/-- One more unit. -/
theorem IsMergeOf.step {units : List ProgramUnit} {p : Program} (h : IsMergeOf units p)
    {u : ProgramUnit} (hu : u.program.HasDistinctLabels) :
    IsMergeOf (units ++ [u]) (p.merge u.program) where
  data := by
    rw [Program.isSome_data_merge, h.data]
    simp [or_and_right, exists_or]
  declarations := by
    rw [Program.declarations_merge, h.declarations]
    simp
  code := by
    rw [Program.isSome_code_merge, h.code]
    simp [or_and_right, exists_or]
  labels := by
    rw [Program.codeMap_merge, CodeMap.labels_merge, h.labels, ← CodeMap.foldl_appendNew,
      ← CodeMap.foldl_appendNew, List.flatMap_append, List.foldl_append, List.flatMap_singleton]
  blocks := by
    intro label
    rw [Program.codeMap_merge, CodeMap.get?_merge _ hu, h.blocks, List.reverse_append,
      List.findSome?_append, List.reverse_singleton, List.findSome?_singleton]
  exported? := by
    rw [Program.exported?_merge, h.exported?, List.reverse_append, List.findSome?_append,
      List.reverse_singleton, List.findSome?_singleton]

theorem mergeUnits_concat (units : List ProgramUnit) (u : ProgramUnit) :
    mergeUnits (units ++ [u]) = (mergeUnits units).merge u.program := by
  rw [mergeUnits, List.foldl_append]
  rfl

theorem isMergeOf_mergeUnits {units : List ProgramUnit}
    (h : ∀ u ∈ units, u.program.HasDistinctLabels) : IsMergeOf units (mergeUnits units) := by
  induction units using List.reverseRecOn with
  | nil => exact ⟨by simp [mergeUnits], rfl, by simp [mergeUnits], rfl, fun _ => rfl, rfl⟩
  | append_singleton units u ih =>
    rw [List.forall_mem_append, List.forall_mem_singleton] at h
    rw [mergeUnits_concat]
    exact (ih h.1).step h.2

/-- A merge of units lists no label twice. -/
theorem hasDistinctLabels_mergeUnits (units : List ProgramUnit) :
    (mergeUnits units).HasDistinctLabels := by
  induction units using List.reverseRecOn with
  | nil => exact List.nodup_nil
  | append_singleton units u ih =>
    rw [mergeUnits_concat]
    exact ih.merge _

/-- Units may be merged in groups. -/
theorem mergeUnits_append (us vs : List ProgramUnit) :
    mergeUnits (us ++ vs) = (mergeUnits us).merge (mergeUnits vs) := by
  induction vs using List.reverseRecOn with
  | nil =>
    rw [List.append_nil]
    exact (Program.merge_empty _).symm
  | append_singleton vs v ih =>
    rw [← List.append_assoc, mergeUnits_concat, ih, mergeUnits_concat,
      Program.merge_assoc _ _ (hasDistinctLabels_mergeUnits vs)]

theorem Workspace.Sound.hasDistinctLabels_view {w : Workspace} (h : w.Sound)
    (refs : ProgramRefs) : (w.view refs).HasDistinctLabels := by
  rw [Program.HasDistinctLabels, Program.codeMap, view_eq_fill, Outline.fill, outline]
  cases ho : w.code? refs.code with
  | none => exact List.nodup_nil
  | some o =>
    rw [Option.map_some, Option.bind_some, CodeOutline.fill]
    cases hmap : o.map with
    | none => exact List.nodup_nil
    | some m =>
      rw [Option.map_some, Option.getD_some, CodeMap.labels_map]
      exact h.nodup_code? ho hmap

/-- **Merging units is exact, and it does not matter how they are grouped.** The program of units
whose maps list no label twice is their merge. Merging is associative, so units may be merged in
groups. An empty program changes nothing, and merging into it gives the program; a map that is
missing counts as an empty one. In a workspace that the operations build, where programs may share
sections, no map lists a label twice, and merging programs or units, which may lack their program,
is merging what is seen of them before. -/
theorem mergeUnits_exact {units : List ProgramUnit}
    (hunits : ∀ u ∈ units, u.program.HasDistinctLabels) :
    IsMergeOf units (mergeUnits units) ∧
      (∀ us vs : List ProgramUnit, mergeUnits (us ++ vs) = (mergeUnits us).merge (mergeUnits vs)) ∧
      (∀ p q r : Program, q.HasDistinctLabels → (p.merge q).merge r = p.merge (q.merge r)) ∧
      (∀ p : Program, p.merge {} = p) ∧
      (∀ p : Program, p.HasDistinctLabels → ({} : Program).merge p = p.filled) ∧
      (∀ p q : Program, p.merge q.filled = p.merge q) ∧
      ∀ w : Workspace, w.Built →
        (∀ name, (w.view (w.refs name)).HasDistinctLabels) ∧
        (∀ name other,
          let w' := w.merge name other
          w'.view (w'.refs name) = (w.view (w.refs name)).merge (w.view (w.refs other))) ∧
        ∀ name (kind : UnitKind) (refs : List (Option String)),
          let w' := w.mergeUnits name refs
          let us : List ProgramUnit :=
            (refs.filterMap id).map fun ref => { kind, program := w.view (w.refs ref) }
          w'.view (w'.refs name) = mergeUnits us ∧ IsMergeOf us (w'.view (w'.refs name)) := by
  refine ⟨isMergeOf_mergeUnits hunits, mergeUnits_append, fun p _ r hq => p.merge_assoc r hq,
    Program.merge_empty, fun _ => Program.empty_merge, Program.merge_filled, fun w hw => ?_⟩
  have hsound := hw.sound
  refine ⟨fun _ => hsound.hasDistinctLabels_view _, Workspace.view_merge hsound, ?_⟩
  intro name kind refs w' us
  have hview : w'.view (w'.refs name) = mergeUnits us :=
    Workspace.view_mergeUnits hsound name kind refs
  have hus : ∀ u ∈ us, u.program.HasDistinctLabels := by
    intro u hu
    obtain ⟨ref, -, rfl⟩ := List.mem_map.1 hu
    exact hsound.hasDistinctLabels_view _
  refine ⟨hview, ?_⟩
  rw [hview]
  exact isMergeOf_mergeUnits hus

/-- The last of three units sets a label of the first one again, and the one between is empty. -/
theorem mergeUnits_exact_overlap :
    let first : CodeMap Block := .ofList [(text "a", [.nop]), (text "b", [.copy])]
    let last : CodeMap Block := .ofList [(text "c", []), (text "a", [.pop])]
    let units : List ProgramUnit :=
      [{ kind := .global, program := { code := some { map := some first, exported := true } } },
        { kind := .nonGlobal, program := {} },
        { kind := .global, program := { code := some { map := some last, exported := false } } }]
    (∀ u ∈ units, u.program.HasDistinctLabels) ∧
      (mergeUnits units).codeMap.labels = [text "a", text "b", text "c"] ∧
      (mergeUnits units).codeMap.get? (text "a") = some [.pop] ∧
      (mergeUnits units).exported? = some false := by
  intro first last units
  have hunits : ∀ u ∈ units, u.program.HasDistinctLabels := by decide
  have hmerge := (mergeUnits_exact hunits).1
  refine ⟨hunits, hmerge.labels.trans ?_, (hmerge.blocks _).trans ?_, hmerge.exported?.trans ?_⟩
  · decide
  · decide
  · decide

end WasmUdon
