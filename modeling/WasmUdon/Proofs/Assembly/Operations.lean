import WasmUdon.Proofs.Assembly.Workspace

/-!
# What an operation on a workspace can do

The operations on the programs of a workspace, save those that hand a section from one program to
another one, are collected in a type (`Workspace.Operation`). All that any of them can do is said
once, in `Workspace.Operation.Step`:

* it adds cells, and changes none but those of the program that is worked on, be they data
  sections, code sections or maps (`Workspace.CellStep`);
* it adds blocks, and changes none but for an instruction that is appended;
* a program that is worked on comes to use only blocks that are new, that are set under a label by
  hand, or that are used by a program that is merged into it.

There is one lemma for each operation, and `Workspace.Operation.step` puts them together.
-/

namespace WasmUdon

namespace Workspace

/-- The code section has the block under some label. -/
def CodeOutline.Lists (o : CodeOutline) (ref : Nat) : Prop :=
  ∃ label, (label, ref) ∈ (o.map.getD {}).entries

/-- The program that refers to sections has the block under some label. -/
def Uses (w : Workspace) (refs : ProgramRefs) (ref : Nat) : Prop :=
  ∃ o, w.code? refs.code = some o ∧ o.Lists ref

/-! ## Operations -/

/-- An operation that hands no section from one program to another one. -/
inductive Operation
  | setData (name : String) (ds : List Declaration)
  | clearData (name : String)
  | pushDeclaration (name : String) (d : Declaration)
  | setCode (name : String) (exported : Bool) (blocks : Option (List (Bytes × Block)))
  | clearCode (name : String)
  /-- Sets a new block under a label. -/
  | setBlock (name : String) (label : Bytes) (b : Block)
  /-- Sets a block that is there already under a label. -/
  | placeBlock (name : String) (label : Bytes) (ref : Nat)
  | pushInstruction (ref : Nat) (i : Instruction)
  | merge (name other : String)
  | mergeMap (name : String) (other : Option String)
  | mergeUnits (name : String) (units : List (Option String))
  deriving DecidableEq, Repr

namespace Operation

/-- The workspace after an operation. Where the program lacks the section that is worked on, nothing
happens. -/
def apply (w : Workspace) : Operation → Workspace
  | .setData name ds => w.setData name ds
  | .clearData name => w.clearData name
  | .pushDeclaration name d => (w.pushDeclaration? name d).getD w
  | .setCode name exported blocks => w.setCode name exported blocks
  | .clearCode name => w.clearCode name
  | .setBlock name label b => (w.setBlock? name label b).getD w
  | .placeBlock name label ref => (w.placeBlock? name label ref).getD w
  | .pushInstruction ref i => w.pushInstruction ref i
  | .merge name other => w.merge name other
  | .mergeMap name other => (w.mergeMap? name other).getD w
  | .mergeUnits name units => w.mergeUnits name units

/-- The program that is worked on; none if it is a block. -/
def target? : Operation → Option String
  | .setData name _ | .clearData name | .pushDeclaration name _ | .setCode name _ _
  | .clearCode name | .setBlock name _ _ | .placeBlock name _ _ | .merge name _
  | .mergeMap name _ | .mergeUnits name _ => some name
  | .pushInstruction _ _ => none

/-- The instructions that are appended to a block. -/
def appended (ref : Nat) : Operation → List Instruction
  | .pushInstruction ref' i => if ref' = ref then [i] else []
  | _ => []

/-- The operation merges a program that uses the block. -/
def Merges (w : Workspace) (ref : Nat) : Operation → Prop
  | .merge _ other => w.Uses (w.refs other) ref
  | .mergeMap _ other => ∃ source, other = some source ∧ w.Uses (w.refs source) ref
  | .mergeUnits _ units => ∃ source, some source ∈ units ∧ w.Uses (w.refs source) ref
  | _ => False

/-- The operation sets the block, which is there already, under a label. -/
def Places (w : Workspace) (ref : Nat) : Operation → Prop
  | .placeBlock _ _ ref' => ref' = ref ∧ ref < w.blocks.size
  | _ => False

/-- The program that is worked on may come to use the block: it is in a program that is merged, or
it is set under a label, or it is new. -/
def Provides (op : Operation) (w w' : Workspace) (ref : Nat) : Prop :=
  (op.Merges w ref ∨ op.Places w ref) ∨ w.blocks.size ≤ ref ∧ ref < w'.blocks.size

variable {w : Workspace} {op : Operation} {ref : Nat}

theorem appended_of_target {name : String} (h : op.target? = some name) : op.appended ref = [] := by
  cases op with
  | pushInstruction ref' i => cases h
  | _ => rfl

theorem Merges.exists_uses (h : op.Merges w ref) : ∃ name, w.Uses (w.refs name) ref := by
  cases op with
  | merge _ other => exact ⟨other, h⟩
  | mergeMap _ other =>
    obtain ⟨source, -, huse⟩ := h
    exact ⟨source, huse⟩
  | mergeUnits _ units =>
    obtain ⟨source, -, huse⟩ := h
    exact ⟨source, huse⟩
  | _ => exact h.elim

theorem Places.lt (h : op.Places w ref) : ref < w.blocks.size := by
  cases op with
  | placeBlock _ _ ref' => exact h.2
  | _ => exact h.elim

end Operation

/-! ## Blocks in use -/

variable {w w' : Workspace}

/-- The blocks in use are those in the map that the code section refers to. -/
theorem uses_iff {refs : ProgramRefs} {ref : Nat} :
    w.Uses refs ref ↔ ∃ m, ((w.mapRef? refs.code).bind fun own => w.maps[own]?) = some m ∧
      ∃ label, (label, ref) ∈ m.entries := by
  rw [← map_code?]
  constructor
  · rintro ⟨⟨_ | m, exported⟩, ho, label, hentry⟩
    · cases hentry
    · exact ⟨m, by rw [ho, Option.bind_some], label, hentry⟩
  · rintro ⟨m, hm, label, hentry⟩
    obtain ⟨o, ho, hmap⟩ := Option.bind_eq_some_iff.1 hm
    refine ⟨o, ho, label, ?_⟩
    rw [hmap]
    exact hentry

theorem uses_of_map? {name : String} {m : CodeMap Nat} (hm : w.map? name = some m)
    {entry : Bytes × Nat} (hentry : entry ∈ m.entries) : w.Uses (w.refs name) entry.2 :=
  uses_iff.2 ⟨m, hm, entry.1, hentry⟩

theorem not_uses_of_none {refs : ProgramRefs} (h : refs.code = none) (ref : Nat) :
    ¬ w.Uses refs ref := by
  rintro ⟨o, ho, -⟩
  rw [h] at ho
  cases ho

/-- A program that was there uses the same blocks. -/
theorem uses_of_extends (h : w.Extends w') (hw : w.Sound) {other : ProgramRefs}
    (hother : w.Holds other) {ref : Nat} (huse : w'.Uses other ref) : w.Uses other ref := by
  rw [Uses, h.code?_eq hw hother.code] at huse
  exact huse

/-- New blocks are set under their labels, and no others. -/
theorem newBlocks_spec (w : Workspace) (m : CodeMap Nat) (blocks : List (Bytes × Block)) :
    ∃ more, (w.newBlocks m blocks).1 = { w with blocks := w.blocks ++ more } ∧
      ∀ entry ∈ (w.newBlocks m blocks).2.entries, entry ∈ m.entries ∨
        w.blocks.size ≤ entry.2 ∧ entry.2 < (w.blocks ++ more).size := by
  induction blocks generalizing w m with
  | nil => exact ⟨#[], by rw [Array.append_empty]; rfl, fun _ hentry => .inl hentry⟩
  | cons labelled blocks ih =>
    obtain ⟨label, b⟩ := labelled
    obtain ⟨more, hw, hentries⟩ := ih (w.newBlock b).1 (m.set label w.blocks.size)
    have hblocks : (w.newBlock b).1.blocks ++ more = w.blocks ++ (#[b] ++ more) := by
      rw [← Array.append_assoc]
      rfl
    have hsize : (w.newBlock b).1.blocks.size = w.blocks.size + 1 := Array.size_push _
    rw [hblocks] at hw hentries
    refine ⟨#[b] ++ more, hw, fun entry hentry => ?_⟩
    rcases hentries entry hentry with hentry | hnew
    · rcases CodeMap.mem_setEntry hentry with rfl | hentry
      · refine .inr ⟨Nat.le_refl _, ?_⟩
        simp only [Array.size_append, List.size_toArray, List.length_singleton]
        omega
      · exact .inl hentry
    · exact .inr ⟨by omega, hnew.2⟩

/-- Programs that are merged use the blocks of the two, and no others. -/
theorem uses_of_mergeRefs {own other : ProgramRefs} (hw : w.Sound) (hown : w.Holds own) {ref : Nat}
    (h : (w.mergeRefs own other).1.Uses (w.mergeRefs own other).2 ref) :
    w.Uses own ref ∨ w.Uses other ref := by
  obtain ⟨o, ho, label, hentry⟩ := h
  rw [(mergesRefs hw hown other).outline] at ho
  split at ho
  · exact .inl ⟨o, ho, label, hentry⟩
  · rename_i more hmore
    cases ho
    rcases CodeMap.mem_merge hentry with hentry | hentry
    · cases ho' : w.code? own.code with
      | none =>
        rw [ho'] at hentry
        cases hentry
      | some o' =>
        rw [ho'] at hentry
        exact .inl ⟨o', ho', label, hentry⟩
    · exact .inr ⟨more, hmore, label, hentry⟩

/-- Programs merged into new cells leave all cells that were there, and the result uses their
blocks, and no others. -/
theorem mergeAll_spec {own : ProgramRefs} (hw : w.Sound) (h : w.Extends w') (hw' : w'.Sound)
    (hown : w.IsNew w' own) {others : List ProgramRefs} (hothers : ∀ other ∈ others, w.Holds other) :
    let x := w'.mergeAll own others
    x.1.programs = w'.programs ∧ w.Extends x.1 ∧ w.IsNew x.1 x.2 ∧
      ∀ ref, x.1.Uses x.2 ref → w'.Uses own ref ∨ ∃ other ∈ others, w.Uses other ref := by
  induction others generalizing w' own with
  | nil => exact ⟨rfl, h, hown, fun _ huse => .inl huse⟩
  | cons other others ih =>
    rw [List.forall_mem_cons] at hothers
    obtain ⟨hextends, hnew⟩ := h.mergeRefs hw' hown other
    obtain ⟨hsound, -⟩ := hw'.mergeRefs hown.holds other
    obtain ⟨hprograms, hextends', hnew', huses⟩ := ih hextends hsound hnew hothers.2
    refine ⟨hprograms.trans (mergesRefs hw' hown.holds other).programs, hextends', hnew', ?_⟩
    intro ref huse
    rcases huses ref huse with huse | ⟨source, hsource, huse⟩
    · refine (uses_of_mergeRefs hw' hown.holds huse).imp_right fun huse => ?_
      exact ⟨other, List.mem_cons_self, uses_of_extends h hw hothers.1 huse⟩
    · exact .inr ⟨source, List.mem_cons_of_mem _ hsource, huse⟩

/-! ## Steps -/

/-- Programs that refer to the cells to which they referred before. -/
theorem refs_eq_ite (h : w'.programs = w.programs) (name name' : String) :
    w'.refs name' = if name' = name then w.refs name else w.refs name' := by
  rw [Workspace.refs, h]
  split
  · rename_i heq
    rw [heq]
    rfl
  · rfl

namespace Operation

/-- All that an operation can do to a workspace. -/
structure Step (op : Operation) (w w' : Workspace) : Prop where
  refs : ∀ name, op.target? ≠ some name → w'.refs name = w.refs name
  data : CellStep w.data w'.data (op.target?.bind fun name => (w.refs name).data)
    (op.target?.bind fun name => (w'.refs name).data)
  code : CellStep w.code w'.code (op.target?.bind fun name => (w.refs name).code)
    (op.target?.bind fun name => (w'.refs name).code)
  maps : CellStep w.maps w'.maps (op.target?.bind fun name => w.mapRef? (w.refs name).code)
    (op.target?.bind fun name => w'.mapRef? (w'.refs name).code)
  blocks_size_le : w.blocks.size ≤ w'.blocks.size
  block : ∀ ref < w.blocks.size, w'.block ref = w.block ref ++ op.appended ref
  uses : ∀ name, op.target? = some name → ∀ ref, w'.Uses (w'.refs name) ref →
    w.Uses (w.refs name) ref ∨ op.Provides w w' ref

namespace Step

variable {op : Operation} {name : String}

/-- A program gets other sections, perhaps in new cells and with new blocks. -/
theorem of_target (htarget : op.target? = some name) {refs : ProgramRefs}
    (hrefs : ∀ name', w'.refs name' = if name' = name then refs else w.refs name')
    (hdata : CellStep w.data w'.data (w.refs name).data refs.data)
    (hcode : CellStep w.code w'.code (w.refs name).code refs.code)
    (hmaps : CellStep w.maps w'.maps (w.mapRef? (w.refs name).code) (w'.mapRef? refs.code))
    (hblocks : ∃ more, w'.blocks = w.blocks ++ more)
    (huses : ∀ ref, w'.Uses refs ref → w.Uses (w.refs name) ref ∨ op.Provides w w' ref) :
    op.Step w w' where
  refs := by
    intro name' hne
    rw [hrefs, if_neg]
    rintro rfl
    exact hne htarget
  data := by
    simp only [htarget, Option.bind_some, hrefs, if_pos]
    exact hdata
  code := by
    simp only [htarget, Option.bind_some, hrefs, if_pos]
    exact hcode
  maps := by
    simp only [htarget, Option.bind_some, hrefs, if_pos]
    exact hmaps
  blocks_size_le := by
    obtain ⟨more, hmore⟩ := hblocks
    rw [hmore, Array.size_append]
    exact Nat.le_add_right _ _
  block := by
    obtain ⟨more, hmore⟩ := hblocks
    intro ref href
    rw [appended_of_target htarget, List.append_nil, Workspace.block, hmore,
      Array.getElem?_append_left href, Workspace.block]
  uses := by
    intro name' hname' ref huse
    cases htarget.symm.trans hname'
    rw [hrefs, if_pos rfl] at huse
    exact huses ref huse

theorem blocks_kept (h : w'.blocks = w.blocks) : ∃ more, w'.blocks = w.blocks ++ more :=
  ⟨#[], h.trans Array.append_empty.symm⟩

/-- A program gets another data section, and keeps its code section. -/
theorem of_data (htarget : op.target? = some name) {data : Option Nat}
    (hrefs : ∀ name', w'.refs name' =
      if name' = name then { w.refs name with data } else w.refs name')
    (hdata : CellStep w.data w'.data (w.refs name).data data)
    (hrest : w' = { w with data := w'.data, programs := w'.programs }) : op.Step w w' := by
  have hcode : w'.code = w.code := by rw [hrest]
  have hmaps : w'.maps = w.maps := by rw [hrest]
  have hblocks : w'.blocks = w.blocks := by rw [hrest]
  have hmapRef : w'.mapRef? (w.refs name).code = w.mapRef? (w.refs name).code := by
    rw [mapRef?, mapRef?, hcode]
  refine of_target htarget hrefs hdata (hcode ▸ .refl _ _) ?_ (blocks_kept hblocks) ?_
  · rw [hmaps, hmapRef]
    exact .refl _ _
  · intro ref huse
    rw [uses_iff, hmaps, hmapRef] at huse
    exact .inl (uses_iff.2 huse)

/-- Nothing happens where a section is missing. -/
theorem of_getD (htarget : op.target? = some name) {result : Option Workspace}
    (h : ∀ w', result = some w' → op.Step w w') : op.Step w (result.getD w) := by
  cases result with
  | none => exact of_data htarget (refs_eq_ite rfl name) (.refl _ _) rfl
  | some w' => exact h w' rfl

/-- The code map of a program is changed, perhaps after blocks have been added. -/
theorem of_modifyMap? (htarget : op.target? = some name) {f : CodeMap Nat → CodeMap Nat}
    {blocks : Array Block} (hblocks : ∃ more, blocks = w.blocks ++ more)
    (hw' : { w with blocks }.modifyMap? name f = some w')
    (huses : ∀ m, w.map? name = some m → ∀ entry ∈ (f m).entries,
      w.Uses (w.refs name) entry.2 ∨ op.Provides w w' entry.2) : op.Step w w' := by
  obtain ⟨own, hown, heq⟩ := modifyMap?_eq_some hw'
  have hown : w.mapRef? (w.refs name).code = some own := hown
  have hown' : w'.mapRef? (w.refs name).code = some own := by
    rw [heq]
    exact hown
  have hmaps : w'.maps = w.maps.modify own f := by rw [heq]
  refine of_target htarget (refs_eq_ite (by rw [heq]) name) ?_ ?_ ?_ ?_ ?_
  · rw [heq]
    exact .refl _ _
  · rw [heq]
    exact .refl _ _
  · rw [hmaps, hown, hown']
    exact .modify w.maps f own
  · rw [heq]
    exact hblocks
  · intro ref huse
    obtain ⟨m, hm, label, hentry⟩ := uses_iff.1 huse
    rw [hmaps, hown'] at hm
    simp only [Option.bind_some, Array.getElem?_modify, if_pos] at hm
    obtain ⟨m', hm', rfl⟩ := Option.map_eq_some_iff.1 hm
    refine huses m' ?_ _ hentry
    rw [map?, hown, Option.bind_some, hm']

/-- A program gets a new code section, perhaps after its map and blocks have been added. -/
theorem of_newCode (htarget : op.target? = some name) {cell : CodeCell}
    {maps : Array (CodeMap Nat)} {blocks : Array Block}
    (hmaps : CellStep w.maps maps (w.mapRef? (w.refs name).code) cell.map)
    (hblocks : ∃ more, blocks = w.blocks ++ more)
    (hw' : w' = { w with blocks, maps, code := w.code.push cell }.setRefs name
      { w.refs name with code := some w.code.size })
    (huses : ∀ m, (cell.map.bind fun own => maps[own]?) = some m → ∀ entry ∈ m.entries,
      op.Provides w w' entry.2) : op.Step w w' := by
  have hcell : w'.mapRef? (some w.code.size) = cell.map := by
    rw [hw', mapRef?]
    have hpush : (w.code.push cell)[w.code.size]? = some cell := Array.getElem?_push_size
    exact congrArg (Option.bind · CodeCell.map) hpush
  have hmaps' : w'.maps = maps := by
    rw [hw']
    rfl
  refine of_target htarget (fun name' => hw' ▸ refs_setRefs _ _ _ name') ?_ ?_ ?_ ?_ ?_
  · rw [hw']
    exact .refl w.data _
  · rw [hw']
    exact .push w.code cell _
  · rw [hcell, hmaps']
    exact hmaps
  · rw [hw']
    exact hblocks
  · intro ref huse
    obtain ⟨m, hm, label, hentry⟩ := uses_iff.1 huse
    rw [hcell, hmaps'] at hm
    exact .inr (huses m hm _ hentry)

/-- A program gets sections that were merged, for which no blocks have been added. -/
theorem of_setRefs (htarget : op.target? = some name) {w₁ : Workspace} {refs : ProgramRefs}
    (hprograms : w₁.programs = w.programs)
    (hdata : CellStep w.data w₁.data (w.refs name).data refs.data)
    (hcode : CellStep w.code w₁.code (w.refs name).code refs.code)
    (hmaps : CellStep w.maps w₁.maps (w.mapRef? (w.refs name).code) (w₁.mapRef? refs.code))
    (hblocks : w₁.blocks = w.blocks)
    (huses : ∀ ref, w₁.Uses refs ref → w.Uses (w.refs name) ref ∨ op.Merges w ref) :
    op.Step w (w₁.setRefs name refs) := by
  refine of_target htarget ?_ hdata hcode hmaps (blocks_kept hblocks) ?_
  · intro name'
    rw [refs_setRefs, Workspace.refs, hprograms]
    rfl
  · intro ref huse
    exact (huses ref huse).imp_right fun hmerges => .inl (.inl hmerges)

theorem setData (w : Workspace) (name : String) (ds : List Declaration) :
    (Operation.setData name ds).Step w (w.setData name ds) :=
  of_data rfl (refs_setRefs _ _ _) (.push _ _ _) rfl

theorem clearData (w : Workspace) (name : String) :
    (Operation.clearData name).Step w (w.clearData name) :=
  of_data rfl (refs_setRefs _ _ _) (.drop _ _) rfl

theorem pushDeclaration {d : Declaration} (hw' : w.pushDeclaration? name d = some w') :
    (Operation.pushDeclaration name d).Step w w' := by
  rw [pushDeclaration?, modifyData?] at hw'
  split at hw'
  · rename_i own hown
    split at hw'
    · cases hw'
      have hdata : CellStep w.data (w.data.modify own (· ++ [d])) (w.refs name).data
          (w.refs name).data := by
        rw [hown]
        exact .modify w.data _ own
      exact of_data rfl (refs_eq_ite rfl name) hdata rfl
    · cases hw'
  · cases hw'

theorem setCode (w : Workspace) (name : String) (exported : Bool)
    (blocks : Option (List (Bytes × Block))) :
    (Operation.setCode name exported blocks).Step w (w.setCode name exported blocks) := by
  cases blocks with
  | none => exact of_newCode rfl (.drop _ _) (blocks_kept rfl) rfl nofun
  | some blocks =>
    obtain ⟨more, hw, hentries⟩ := newBlocks_spec w {} blocks
    have hw' : w.setCode name exported (some blocks) =
        { w with
          blocks := w.blocks ++ more
          maps := w.maps.push (w.newBlocks {} blocks).2
          code := w.code.push { map := some w.maps.size, exported } }.setRefs name
            { w.refs name with code := some w.code.size } := by
      simp only [Workspace.setCode, hw]
      rfl
    refine of_newCode rfl (.push _ _ _) ⟨more, rfl⟩ hw' ?_
    intro m hm entry hentry
    have hpush : (w.maps.push (w.newBlocks {} blocks).2)[w.maps.size]? =
        some (w.newBlocks {} blocks).2 := Array.getElem?_push_size
    cases hpush.symm.trans hm
    rcases hentries _ hentry with hentry | hnew
    · cases hentry
    · rw [hw']
      exact .inr hnew

theorem clearCode (w : Workspace) (name : String) :
    (Operation.clearCode name).Step w (w.clearCode name) :=
  of_setRefs rfl rfl (.refl _ _) (.drop _ _) (.drop _ _) rfl fun ref huse =>
    absurd huse (not_uses_of_none rfl ref)

theorem setBlock {label : Bytes} {b : Block} (hw' : w.setBlock? name label b = some w') :
    (Operation.setBlock name label b).Step w w' := by
  rw [setBlock?] at hw'
  have hsize : w'.blocks.size = w.blocks.size + 1 := by
    obtain ⟨own, -, rfl⟩ := modifyMap?_eq_some hw'
    exact Array.size_push _
  refine of_modifyMap? rfl ⟨#[b], rfl⟩ hw' ?_
  intro m hm entry hentry
  rcases CodeMap.mem_setEntry hentry with rfl | hentry
  · exact .inr (.inr ⟨Nat.le_refl _, by dsimp only [newBlock]; omega⟩)
  · exact .inl (uses_of_map? hm hentry)

theorem placeBlock {label : Bytes} {ref : Nat} (hw' : w.placeBlock? name label ref = some w') :
    (Operation.placeBlock name label ref).Step w w' := by
  rw [placeBlock?] at hw'
  split at hw'
  · rename_i href
    refine of_modifyMap? rfl (blocks_kept rfl) hw' ?_
    intro m hm entry hentry
    rcases CodeMap.mem_setEntry hentry with rfl | hentry
    · exact .inr (.inl (.inr ⟨rfl, href⟩))
    · exact .inl (uses_of_map? hm hentry)
  · cases hw'

theorem pushInstruction (w : Workspace) (ref : Nat) (i : Instruction) :
    (Operation.pushInstruction ref i).Step w (w.pushInstruction ref i) where
  refs := fun _ _ => rfl
  data := .refl _ _
  code := .refl _ _
  maps := .refl _ _
  blocks_size_le := by simp [Workspace.pushInstruction]
  block := by
    intro ref' href'
    simp only [Workspace.block, Workspace.pushInstruction, appended, Array.getElem?_modify,
      Array.getElem?_eq_getElem href']
    split <;> simp
  uses := nofun

theorem merge (hw : w.Sound) (name other : String) :
    (Operation.merge name other).Step w (w.merge name other) := by
  have hmerges := mergesRefs hw (hw.refs name) (w.refs other)
  exact of_setRefs rfl hmerges.programs hmerges.data hmerges.code hmerges.maps hmerges.blocks
    fun _ => uses_of_mergeRefs hw (hw.refs name)

theorem mergeMap {other : Option String} (hw' : w.mergeMap? name other = some w') :
    (Operation.mergeMap name other).Step w w' := by
  rw [mergeMap?] at hw'
  refine of_modifyMap? rfl (blocks_kept rfl) hw' ?_
  intro m hm entry hentry
  rcases CodeMap.mem_merge hentry with hentry | hentry
  · exact .inl (uses_of_map? hm hentry)
  · cases hsource : other.bind w.map? with
    | none =>
      rw [hsource] at hentry
      cases hentry
    | some m' =>
      obtain ⟨source, rfl, hm'⟩ := Option.bind_eq_some_iff.1 hsource
      rw [hsource] at hentry
      exact .inr (.inl (.inl ⟨source, rfl, uses_of_map? hm' hentry⟩))

theorem mergeUnits (hw : w.Sound) (name : String) (units : List (Option String)) :
    (Operation.mergeUnits name units).Step w (w.mergeUnits name units) := by
  have hothers : ∀ other ∈ (units.filterMap id).map w.refs, w.Holds other := by
    intro other hmem
    obtain ⟨unit, -, rfl⟩ := List.mem_map.1 hmem
    exact hw.refs unit
  obtain ⟨hprograms, hextends, hnew, huses⟩ :=
    mergeAll_spec hw (.refl w) hw (isNew_empty w) hothers
  refine of_setRefs rfl hprograms (hextends.data.cellStep hnew.data)
    (hextends.code.cellStep hnew.code) (hextends.maps.cellStep hnew.map) hextends.blocks ?_
  intro ref huse
  rcases huses ref huse with huse | ⟨other, hother, huse⟩
  · exact absurd huse (not_uses_of_none rfl ref)
  · obtain ⟨source, hsource, rfl⟩ := List.mem_map.1 hother
    refine .inr ⟨source, ?_, huse⟩
    simpa using hsource

end Step

/-- **What an operation can do**, whichever it is. -/
theorem step (hw : w.Sound) (op : Operation) : op.Step w (op.apply w) := by
  cases op with
  | setData name ds => exact .setData w name ds
  | clearData name => exact .clearData w name
  | pushDeclaration name d => exact .of_getD rfl fun _ => .pushDeclaration
  | setCode name exported blocks => exact .setCode w name exported blocks
  | clearCode name => exact .clearCode w name
  | setBlock name label b => exact .of_getD rfl fun _ => .setBlock
  | placeBlock name label ref => exact .of_getD rfl fun _ => .placeBlock
  | pushInstruction ref i => exact .pushInstruction w ref i
  | merge name other => exact .merge hw name other
  | mergeMap name other => exact .of_getD rfl fun _ => .mergeMap
  | mergeUnits name units => exact .mergeUnits hw name units

end Operation

end Workspace

end WasmUdon
