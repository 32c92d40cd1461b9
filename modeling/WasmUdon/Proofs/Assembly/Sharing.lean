import WasmUdon.Proofs.Assembly.Operations

/-!
# Programs share blocks and nothing else

Programs that are put together by operations on a workspace, where no section is handed from one
program to another one, are kept apart: no two of them refer to the same section or to the same map.
This is not for want of references to share: a merge reads the maps of another program, but copies
them (`Workspace.copyMap`). So an operation on one program leaves the outline of any other one, which
is all of the program but the content of its blocks. Blocks are shared, since a merge takes over
references to them; an instruction appended to a block is seen in every program that uses it.

Both follow from what one operation can do: programs stay apart
(`Workspace.Operation.Step.separate`) and keep their outlines
(`Workspace.Operation.Step.outline_eq`). Over a run, a block that two programs use is traced back to
the operation by which one of them took it over (`Workspace.exists_takesOver`).
-/

namespace WasmUdon.Workspace

variable {w w' : Workspace}

/-- Only the blocks that an outline lists matter. -/
theorem Outline.fill_congr {o : Outline} {block block' : Nat → Block}
    (h : ∀ code, o.code = some code → ∀ ref, code.Lists ref → block ref = block' ref) :
    o.fill block = o.fill block' := by
  obtain ⟨declarations, code⟩ := o
  cases code with
  | none => rfl
  | some code =>
    obtain ⟨_ | m, exported⟩ := code
    · rfl
    · have hmap : m.map block = m.map block' := by
        refine congrArg CodeMap.mk (List.map_congr_left fun entry hentry => ?_)
        rw [h _ rfl entry.2 ⟨entry.1, hentry⟩]
      simp only [fill, CodeOutline.fill, Option.map_some, hmap]

/-! ## Cells of one's own -/

/-- Programs have their objects in cells that are there, no two of them in the same one. -/
structure OwnCells {α : Type} (cells : Array α) (own : String → Option Nat) : Prop where
  lt : ∀ {name : String} {ref : Nat}, own name = some ref → ref < cells.size
  inj : ∀ {p q : String} {ref : Nat}, own p = some ref → own q = some ref → p = q

namespace OwnCells

variable {α : Type} {cells cells' : Array α} {own own' : String → Option Nat}
  {target? : Option String}

/-- A step on the object of one program keeps all programs in cells of their own. -/
theorem step (h : OwnCells cells own)
    (hstep : CellStep cells cells' (target?.bind own) (target?.bind own'))
    (hown : ∀ name, target? ≠ some name → own' name = own name) : OwnCells cells' own' := by
  -- a cell that a program has afterwards was its own before, or it is new and that of the target
  have hcases : ∀ {name ref}, own' name = some ref →
      own name = some ref ∨ target? = some name ∧ cells.size ≤ ref ∧ ref < cells'.size := by
    intro name ref href
    by_cases htarget : target? = some name
    · subst htarget
      exact (hstep.own_or_new ref href).imp_right fun hnew => ⟨rfl, hnew⟩
    · exact .inl (hown name htarget ▸ href)
  constructor
  · intro name ref href
    rcases hcases href with hold | ⟨-, -, hlt⟩
    · exact Nat.lt_of_lt_of_le (h.lt hold) hstep.size_le
    · exact hlt
  · intro p q ref hp hq
    rcases hcases hp with hp | ⟨hp, hge, -⟩ <;> rcases hcases hq with hq | ⟨hq, hge', -⟩
    · exact h.inj hp hq
    · exact absurd (h.lt hp) (Nat.not_lt.2 hge')
    · exact absurd (h.lt hq) (Nat.not_lt.2 hge)
    · exact Option.some.inj (hp.symm.trans hq)

/-- The objects of the other programs stay as they are. -/
theorem bind_eq (h : OwnCells cells own)
    (hstep : CellStep cells cells' (target?.bind own) (target?.bind own')) {name : String}
    (hown : own' name = own name) (hname : target? ≠ some name) :
    ((own' name).bind fun ref => cells'[ref]?) = (own name).bind fun ref => cells[ref]? := by
  rw [hown]
  cases href : own name with
  | none => rfl
  | some ref =>
    refine hstep.frame ref (h.lt href) fun htarget => ?_
    obtain ⟨other, hother, href'⟩ := Option.bind_eq_some_iff.1 htarget
    exact hname (h.inj href' href ▸ hother)

end OwnCells

/-- No two programs refer to the same section or the same map, and the blocks that programs use are
there. -/
structure Separate (w : Workspace) : Prop where
  data : OwnCells w.data fun name => (w.refs name).data
  code : OwnCells w.code fun name => (w.refs name).code
  maps : OwnCells w.maps fun name => w.mapRef? (w.refs name).code
  uses_lt : ∀ {name : String} {ref : Nat}, w.Uses (w.refs name) ref → ref < w.blocks.size

theorem not_uses_empty (name : String) (ref : Nat) : ¬ Uses {} (refs {} name) ref :=
  not_uses_of_none rfl ref

theorem separate_empty : Separate {} where
  data := ⟨nofun, nofun⟩
  code := ⟨nofun, nofun⟩
  maps := ⟨nofun, nofun⟩
  uses_lt := fun huse => absurd huse (not_uses_empty _ _)

/-! ## One operation -/

namespace Operation

/-- The operation makes the program with a name use a block that was there already. -/
structure TakesOver (op : Operation) (w : Workspace) (name : String) (ref : Nat) : Prop where
  target : op.target? = some name
  unused : ¬ w.Uses (w.refs name) ref
  source : op.Merges w ref ∨ op.Places w ref

namespace Step

variable {op : Operation} {name : String} {ref : Nat}

/-- The code section of any other program refers to the same map. -/
theorem mapRef?_eq (h : op.Step w w') (hw : w.Separate) (htarget : op.target? ≠ some name) :
    w'.mapRef? (w'.refs name).code = w.mapRef? (w.refs name).code :=
  congrArg (Option.bind · CodeCell.map)
    (hw.code.bind_eq h.code (congrArg _ (h.refs name htarget)) htarget)

/-- **An operation on one program leaves the outline of any other one.** -/
theorem outline_eq (h : op.Step w w') (hw : w.Separate) (htarget : op.target? ≠ some name) :
    w'.outline (w'.refs name) = w.outline (w.refs name) := by
  refine congrArg₂ Outline.mk ?_ (code?_congr ?_ ?_)
  · exact hw.data.bind_eq h.data (congrArg _ (h.refs name htarget)) htarget
  · exact hw.code.bind_eq h.code (congrArg _ (h.refs name htarget)) htarget
  · exact hw.maps.bind_eq h.maps (h.mapRef?_eq hw htarget) htarget

/-- Any other program is seen as before, with the instructions that were appended to its blocks. -/
theorem view_eq (h : op.Step w w') (hw : w.Separate) (htarget : op.target? ≠ some name) :
    w'.view (w'.refs name) =
      (w.outline (w.refs name)).fill fun ref => w.block ref ++ op.appended ref := by
  rw [view_eq_fill, h.outline_eq hw htarget]
  refine Outline.fill_congr fun code hcode ref hlists => ?_
  exact h.block ref (hw.uses_lt ⟨code, hcode, hlists⟩)

/-- A block that a program uses afterwards was used by it before, or was provided to it. -/
theorem uses_cases (h : op.Step w w') (hw : w.Separate) (huse : w'.Uses (w'.refs name) ref) :
    w.Uses (w.refs name) ref ∨ op.target? = some name ∧ op.Provides w w' ref := by
  by_cases htarget : op.target? = some name
  · exact (h.uses name htarget ref huse).imp_right fun hprovides => ⟨htarget, hprovides⟩
  · obtain ⟨code, hcode, hlists⟩ := huse
    have hkept : w'.code? (w'.refs name).code = w.code? (w.refs name).code :=
      congrArg Outline.code (h.outline_eq hw htarget)
    exact .inl ⟨code, hkept.symm.trans hcode, hlists⟩

/-- What is provided is there. -/
theorem lt_of_provides (h : op.Step w w') (hw : w.Separate) (hprovides : op.Provides w w' ref) :
    ref < w'.blocks.size := by
  rcases hprovides with (hmerges | hplaces) | ⟨-, hlt⟩
  · obtain ⟨name, huse⟩ := hmerges.exists_uses
    exact Nat.lt_of_lt_of_le (hw.uses_lt huse) h.blocks_size_le
  · exact Nat.lt_of_lt_of_le hplaces.lt h.blocks_size_le
  · exact hlt

/-- **Programs stay apart.** -/
theorem separate (h : op.Step w w') (hw : w.Separate) : w'.Separate where
  data := hw.data.step h.data fun name htarget => congrArg _ (h.refs name htarget)
  code := hw.code.step h.code fun name htarget => congrArg _ (h.refs name htarget)
  maps := hw.maps.step h.maps fun _ htarget => h.mapRef?_eq hw htarget
  uses_lt := by
    intro name ref huse
    rcases h.uses_cases hw huse with hold | ⟨-, hprovides⟩
    · exact Nat.lt_of_lt_of_le (hw.uses_lt hold) h.blocks_size_le
    · exact h.lt_of_provides hw hprovides

/-- A block that was there and is new to a program has been taken over. -/
theorem takesOver (h : op.Step w w') (hw : w.Separate) (huse : w'.Uses (w'.refs name) ref)
    (hunused : ¬ w.Uses (w.refs name) ref) (hlt : ref < w.blocks.size) :
    op.TakesOver w name ref := by
  rcases h.uses_cases hw huse with hold | ⟨htarget, hsource | ⟨hge, -⟩⟩
  · exact absurd hold hunused
  · exact ⟨htarget, hunused, hsource⟩
  · exact absurd hlt (Nat.not_lt.2 hge)

end Step

end Operation

/-! ## Runs -/

/-- The workspace after operations, from the empty one on. -/
def after (ops : List Operation) : Workspace := ops.foldl Operation.apply {}

theorem after_append_singleton (ops : List Operation) (op : Operation) :
    after (ops ++ [op]) = op.apply (after ops) := by
  rw [after, List.foldl_append]
  rfl

theorem Operation.built_apply (hw : w.Built) (op : Operation) : (op.apply w).Built := by
  have hgetD : ∀ {result : Option Workspace}, (∀ w', result = some w' → w'.Built) →
      (result.getD w).Built := by
    intro result hresult
    cases result with
    | none => exact hw
    | some w' => exact hresult w' rfl
  cases op with
  | setData name ds => exact hw.setData name ds
  | clearData name => exact hw.clearData name
  | pushDeclaration name d => exact hgetD fun _ => hw.pushDeclaration name d
  | setCode name exported blocks => exact hw.setCode name exported blocks
  | clearCode name => exact hw.clearCode name
  | setBlock name label b => exact hgetD fun _ => hw.setBlock name label b
  | placeBlock name label ref => exact hgetD fun _ => hw.placeBlock name label ref
  | pushInstruction ref i => exact hw.pushInstruction ref i
  | merge name other => exact hw.merge name other
  | mergeMap name other => exact hgetD fun _ => hw.mergeMap name other
  | mergeUnits name units => exact hw.mergeUnits name units

theorem built_after (ops : List Operation) : (after ops).Built := by
  induction ops using List.reverseRecOn with
  | nil => exact .empty
  | append_singleton ops op ih =>
    rw [after_append_singleton]
    exact op.built_apply ih

/-- The next operation does what operations can do. -/
theorem step_after (ops : List Operation) (op : Operation) :
    op.Step (after ops) (op.apply (after ops)) :=
  op.step (built_after ops).sound

/-- **Programs that operations put together are apart.** -/
theorem after_separate (ops : List Operation) : (after ops).Separate := by
  induction ops using List.reverseRecOn with
  | nil => exact separate_empty
  | append_singleton ops op ih =>
    rw [after_append_singleton]
    exact (step_after ops op).separate ih

/-- **Programs come to share a block as one of them takes it over**, in a merge or by hand. -/
theorem exists_takesOver {ops : List Operation} {p q : String} {ref : Nat} (hne : p ≠ q)
    (hp : (after ops).Uses ((after ops).refs p) ref)
    (hq : (after ops).Uses ((after ops).refs q) ref) :
    ∃ front op back, ops = front ++ op :: back ∧
      (op.TakesOver (after front) p ref ∨ op.TakesOver (after front) q ref) := by
  induction ops using List.reverseRecOn with
  | nil => exact absurd hp (not_uses_empty p ref)
  | append_singleton ops op ih =>
    rw [after_append_singleton] at hp hq
    have hw := after_separate ops
    have hstep := step_after ops op
    by_cases hp' : (after ops).Uses ((after ops).refs p) ref
    · by_cases hq' : (after ops).Uses ((after ops).refs q) ref
      · obtain ⟨front, op', back, rfl, htakes⟩ := ih hp' hq'
        exact ⟨front, op', back ++ [op], by simp, htakes⟩
      · exact ⟨ops, op, [], rfl, .inr (hstep.takesOver hw hq hq' (hw.uses_lt hp'))⟩
    · -- the operation worked on `p`, so `q` had used the block before
      obtain ⟨htarget, -⟩ := (hstep.uses_cases hw hp).resolve_left hp'
      rcases hstep.uses_cases hw hq with hq' | ⟨htarget', -⟩
      · exact ⟨ops, op, [], rfl, .inl (hstep.takesOver hw hp hp' (hw.uses_lt hq'))⟩
      · exact absurd (Option.some.inj (htarget.symm.trans htarget')) hne

/-- Two programs refer to the same section, or their code sections refer to the same map. -/
def ShareSection (w : Workspace) (p q : String) : Prop :=
  (∃ ref, (w.refs p).data = some ref ∧ (w.refs q).data = some ref) ∨
    (∃ ref, (w.refs p).code = some ref ∧ (w.refs q).code = some ref) ∨
      ∃ ref, w.mapRef? (w.refs p).code = some ref ∧ w.mapRef? (w.refs q).code = some ref

/-- **Programs are not entangled by what is done to them.** No two of them ever share a section or a
map. An operation leaves the outline of every program but the one that is worked on, and what is
seen of such a program changes only by an instruction that is appended to a block, in every program
that uses the block. Programs that use the same block do so since one of them took it over: in a
merge, or because this very block was set under one of its labels. -/
theorem operations_keep_apart (ops : List Operation) (op : Operation) :
    let w := after ops
    let w' := op.apply w
    (∀ p q, p ≠ q → ¬ w.ShareSection p q) ∧
    (∀ name, op.target? ≠ some name →
      w'.outline (w'.refs name) = w.outline (w.refs name) ∧
      w'.view (w'.refs name) =
        (w.outline (w.refs name)).fill fun ref => w.block ref ++ op.appended ref) ∧
    ∀ p q ref, p ≠ q → w.Uses (w.refs p) ref → w.Uses (w.refs q) ref →
      ∃ front op back, ops = front ++ op :: back ∧
        (op.TakesOver (after front) p ref ∨ op.TakesOver (after front) q ref) := by
  intro w w'
  have hw : w.Separate := after_separate ops
  have hstep : op.Step w w' := step_after ops op
  refine ⟨?_, fun name htarget => ⟨hstep.outline_eq hw htarget, hstep.view_eq hw htarget⟩,
    fun p q ref => exists_takesOver⟩
  rintro p q hne (⟨ref, hp, hq⟩ | ⟨ref, hp, hq⟩ | ⟨ref, hp, hq⟩)
  · exact hne (hw.data.inj hp hq)
  · exact hne (hw.code.inj hp hq)
  · exact hne (hw.maps.inj hp hq)

/-- A program is merged into another one, which then gets a block of its own. An instruction pushed
to the block that both have is seen in both; the label of the other block is seen in one. -/
theorem operations_keep_apart_pushSeenTwice :
    let ops : List Operation :=
      [.setCode "library" true (some [(text "start", [.nop])]), .merge "game" "library",
        .setBlock "game" (text "stop") [.copy]]
    let op : Operation := .pushInstruction 0 .pop
    let w := after ops
    let w' := op.apply w
    let shared : CodeMap Block := .ofList [(text "start", [.nop, .pop])]
    ¬ w.ShareSection "library" "game" ∧
      w'.view (w'.refs "library") = { code := some { map := some shared, exported := true } } ∧
      w'.view (w'.refs "game") =
        { code := some { map := some (shared.set (text "stop") [.copy]), exported := true } } ∧
      ∃ front op back, ops = front ++ op :: back ∧
        (op.TakesOver (after front) "library" 0 ∨ op.TakesOver (after front) "game" 0) := by
  intro ops op w w' shared
  obtain ⟨happart, hframe, htaken⟩ := operations_keep_apart ops op
  have hlibrary : w.Uses (w.refs "library") 0 := ⟨_, rfl, text "start", by decide⟩
  have hgame : w.Uses (w.refs "game") 0 := ⟨_, rfl, text "start", by decide⟩
  refine ⟨happart _ _ (by decide), (hframe _ (by decide)).2.trans ?_,
    (hframe _ (by decide)).2.trans ?_, htaken _ _ 0 (by decide) hlibrary hgame⟩
  · decide
  · decide

end WasmUdon.Workspace
