import WasmUdon.Assembly.Workspace
import WasmUdon.Proofs.Assembly.CodeMap

/-!
# Merging in a workspace

A workspace merges cells, while `Program.merge` merges the programs that are seen in them
(`Workspace.view_merge`). What a merge does to the cells is said in the same words for data
sections, code sections and maps: cells are added, and none that was there changes but the one that
is merged into (`Workspace.CellStep`).

Two programs may share a cell, so for units that are merged front to back it matters that the result
shares none: it is put together in cells of its own, and every cell that was there stays as it is
(`Workspace.Extends`). One unit is compared first (`Workspace.view_mergeRefs`); the run over all
units follows by induction (`Workspace.view_mergeUnits`). Units that lack a program are left out.

All this is about sound workspaces: programs refer to sections that are there, code sections to maps
that are there, and maps list no label twice. Every operation keeps a workspace sound, so whatever
the operations build is sound (`Workspace.Built.sound`).
-/

namespace WasmUdon

theorem CodeMap.labels_map {β γ : Type} (f : β → γ) (m : CodeMap β) :
    (m.map f).labels = m.labels := by
  rw [labels, labels, map, List.map_map]
  rfl

/-- Replacing the blocks by their images commutes with setting a label. -/
theorem CodeMap.map_set {β γ : Type} (f : β → γ) (m : CodeMap β) (label : Bytes) (block : β) :
    (m.set label block).map f = (m.map f).set label (f block) := by
  obtain ⟨entries⟩ := m
  refine congrArg CodeMap.mk ?_
  change (setEntry label block entries).map _ = setEntry label (f block) (entries.map _)
  induction entries with
  | nil => rfl
  | cons entry entries ih =>
    by_cases h : entry.1 = label
    · simp [setEntry, h]
    · simp [setEntry, h, ih]

theorem CodeMap.map_merge {β γ : Type} (f : β → γ) (m other : CodeMap β) :
    (m.merge other).map f = (m.map f).merge (other.map f) := by
  obtain ⟨entries⟩ := other
  induction entries generalizing m with
  | nil => rfl
  | cons entry entries ih =>
    rw [merge_cons, ih, map_set]
    rfl

namespace Workspace

/-! ## Cells -/

section Cells

variable {α : Type} {cells cells' cells'' : Array α} {own own' own'' : Option Nat} {n : Nat}

/-- Cells are only added, and none that was there changes, save that of the object that is worked
on. The object is then in the same cell, in a new one, or gone. -/
structure CellStep (cells cells' : Array α) (own own' : Option Nat) : Prop where
  size_le : cells.size ≤ cells'.size
  frame : ∀ ref < cells.size, own ≠ some ref → cells'[ref]? = cells[ref]?
  own_or_new : ∀ ref, own' = some ref → own = some ref ∨ cells.size ≤ ref ∧ ref < cells'.size

namespace CellStep

theorem refl (cells : Array α) (own : Option Nat) : CellStep cells cells own own :=
  ⟨Nat.le_refl _, fun _ _ _ => rfl, fun _ href => .inl href⟩

theorem drop (cells : Array α) (own : Option Nat) : CellStep cells cells own none :=
  ⟨Nat.le_refl _, fun _ _ _ => rfl, fun _ href => (nomatch href)⟩

theorem push (cells : Array α) (a : α) (own : Option Nat) :
    CellStep cells (cells.push a) own (some cells.size) where
  size_le := by simp
  frame := fun ref href _ => by rw [Array.getElem?_push, if_neg (Nat.ne_of_lt href)]
  own_or_new := by
    rintro _ ⟨⟩
    exact .inr ⟨Nat.le_refl _, by simp⟩

theorem modify (cells : Array α) (f : α → α) (ref : Nat) :
    CellStep cells (cells.modify ref f) (some ref) (some ref) where
  size_le := by simp
  frame := fun ref' _ hne => by
    rw [Array.getElem?_modify, if_neg fun h => hne (congrArg some h)]
  own_or_new := fun _ href => .inl href

theorem trans (h : CellStep cells cells' own own') (h' : CellStep cells' cells'' own' own'') :
    CellStep cells cells'' own own'' where
  size_le := Nat.le_trans h.size_le h'.size_le
  frame := by
    intro ref href hne
    -- the cell is not that of the second step either, which would be new
    have hne' : own' ≠ some ref := fun howned =>
      (h.own_or_new ref howned).elim hne fun hnew => absurd href (Nat.not_lt.2 hnew.1)
    rw [h'.frame ref (Nat.lt_of_lt_of_le href h.size_le) hne', h.frame ref href hne]
  own_or_new := by
    intro ref href
    rcases h'.own_or_new ref href with howned | ⟨hge, hlt⟩
    · exact (h.own_or_new ref howned).imp_right fun hnew =>
        ⟨hnew.1, Nat.lt_of_lt_of_le hnew.2 h'.size_le⟩
    · exact .inr ⟨Nat.le_trans h.size_le hge, hlt⟩

theorem lt (h : CellStep cells cells' own own') (hown : ∀ ref, own = some ref → ref < cells.size) :
    ∀ ref, own' = some ref → ref < cells'.size := by
  intro ref href
  rcases h.own_or_new ref href with howned | ⟨-, hlt⟩
  · exact Nat.lt_of_lt_of_le (hown ref howned) h.size_le
  · exact hlt

end CellStep

/-- All cells are as they were, and there may be more. -/
structure Keeps (cells cells' : Array α) : Prop where
  size_le : cells.size ≤ cells'.size
  get : ∀ ref < cells.size, cells'[ref]? = cells[ref]?

/-- The cell is there now and was not there before. -/
def Fresh (cells cells' : Array α) (own : Option Nat) : Prop :=
  ∀ ref, own = some ref → cells.size ≤ ref ∧ ref < cells'.size

theorem Keeps.refl (cells : Array α) : Keeps cells cells := ⟨Nat.le_refl _, fun _ _ => rfl⟩

theorem Keeps.bind_eq (h : Keeps cells cells') (hown : ∀ ref, own = some ref → ref < cells.size) :
    (own.bind fun ref => cells'[ref]?) = own.bind fun ref => cells[ref]? := by
  cases howned : own with
  | none => rfl
  | some ref => exact h.get ref (hown ref howned)

/-- A step on a new cell keeps all cells that were there before. -/
theorem Keeps.step (h : Keeps cells cells') (hown : Fresh cells cells' own)
    (hstep : CellStep cells' cells'' own own') : Keeps cells cells'' ∧ Fresh cells cells'' own' := by
  refine ⟨⟨Nat.le_trans h.size_le hstep.size_le, fun ref href => ?_⟩, fun ref href => ?_⟩
  · have hne : own ≠ some ref := fun howned => absurd href (Nat.not_lt.2 (hown ref howned).1)
    rw [hstep.frame ref (Nat.lt_of_lt_of_le href h.size_le) hne, h.get ref href]
  · rcases hstep.own_or_new ref href with howned | ⟨hge, hlt⟩
    · exact ⟨(hown ref howned).1, Nat.lt_of_lt_of_le (hown ref howned).2 hstep.size_le⟩
    · exact ⟨Nat.le_trans h.size_le hge, hlt⟩

/-- An object put together in new cells takes the place of any other one. -/
theorem Keeps.cellStep (h : Keeps cells cells') (hown' : Fresh cells cells' own') :
    CellStep cells cells' own own' :=
  ⟨h.size_le, fun ref href _ => h.get ref href, fun ref href => .inr (hown' ref href)⟩

theorem forall_mem_push {P : α → Prop} (h : ∀ a ∈ cells, P a) {b : α} (hb : P b) :
    ∀ a ∈ cells.push b, P a := by
  intro a ha
  rcases Array.mem_push.1 ha with ha | rfl
  · exact h a ha
  · exact hb

theorem forall_mem_modify {P : α → Prop} (h : ∀ a ∈ cells, P a) {f : α → α}
    (hf : ∀ a, P a → P (f a)) (ref : Nat) : ∀ a ∈ cells.modify ref f, P a := by
  intro a ha
  obtain ⟨i, hi, rfl⟩ := Array.mem_iff_getElem.1 ha
  rw [Array.getElem_modify]
  split
  · exact hf _ (h _ (Array.getElem_mem _))
  · exact h _ (Array.getElem_mem _)

end Cells

/-! ## Sound workspaces -/

/-- The sections are cells of the workspace. -/
structure Holds (w : Workspace) (refs : ProgramRefs) : Prop where
  data : ∀ ref, refs.data = some ref → ref < w.data.size
  code : ∀ ref, refs.code = some ref → ref < w.code.size

/-- Programs refer to cells of the workspace only, code sections refer to maps of the workspace
only, and no map lists a label twice. -/
structure Sound (w : Workspace) : Prop where
  refs : ∀ name, w.Holds (w.refs name)
  maps : ∀ cell ∈ w.code, ∀ ref, cell.map = some ref → ref < w.maps.size
  labels : ∀ m ∈ w.maps, m.labels.Nodup

variable {w w' : Workspace} {own other : ProgramRefs} {code : Option Nat}

theorem Holds.empty (w : Workspace) : w.Holds {} :=
  ⟨fun _ h => (nomatch h), fun _ h => (nomatch h)⟩

theorem Sound.mapRef?_lt (h : w.Sound) {ref : Nat} (href : w.mapRef? code = some ref) :
    ref < w.maps.size := by
  obtain ⟨cell, hcell, hmap⟩ := Option.bind_eq_some_iff.1 href
  obtain ⟨own, -, hown⟩ := Option.bind_eq_some_iff.1 hcell
  exact h.maps cell (Array.mem_of_getElem? hown) ref hmap

/-- The programs stay sound as cells are added or changed. -/
theorem Sound.mono (h : w.Sound) (hprograms : w'.programs = w.programs)
    (hdata : w.data.size ≤ w'.data.size) (hcode : w.code.size ≤ w'.code.size)
    (hmaps : ∀ cell ∈ w'.code, ∀ ref, cell.map = some ref → ref < w'.maps.size)
    (hlabels : ∀ m ∈ w'.maps, m.labels.Nodup) : w'.Sound := by
  refine ⟨fun name => ?_, hmaps, hlabels⟩
  rw [Workspace.refs, hprograms]
  exact ⟨fun ref href => Nat.lt_of_lt_of_le ((h.refs name).data ref href) hdata,
    fun ref href => Nat.lt_of_lt_of_le ((h.refs name).code ref href) hcode⟩

theorem Sound.withData (h : w.Sound) {data : Array (List Declaration)}
    (hsize : w.data.size ≤ data.size) : { w with data }.Sound :=
  h.mono rfl hsize (Nat.le_refl _) h.maps h.labels

theorem Sound.withBlocks (h : w.Sound) (blocks : Array Block) : { w with blocks }.Sound :=
  h.mono rfl (Nat.le_refl _) (Nat.le_refl _) h.maps h.labels

theorem Sound.newMap (h : w.Sound) {m : CodeMap Nat} (hm : m.labels.Nodup) :
    (w.newMap m).1.Sound := by
  refine h.mono rfl (Nat.le_refl _) (Nat.le_refl _) ?_ (forall_mem_push h.labels hm)
  intro cell hcell ref href
  exact Nat.lt_of_lt_of_le (h.maps cell hcell ref href) (by simp [Workspace.newMap])

theorem Sound.modifyMaps (h : w.Sound) (ref : Nat) {f : CodeMap Nat → CodeMap Nat}
    (hf : ∀ m, m.labels.Nodup → (f m).labels.Nodup) :
    { w with maps := w.maps.modify ref f }.Sound := by
  refine h.mono rfl (Nat.le_refl _) (Nat.le_refl _) ?_ (forall_mem_modify h.labels hf ref)
  simpa using h.maps

theorem Sound.newCode (h : w.Sound) {cell : CodeCell}
    (hcell : ∀ ref, cell.map = some ref → ref < w.maps.size) : (w.newCode cell).1.Sound :=
  h.mono rfl (Nat.le_refl _) (by simp [Workspace.newCode]) (forall_mem_push h.maps hcell) h.labels

theorem Sound.modifyCode (h : w.Sound) (ref : Nat) {f : CodeCell → CodeCell}
    (hf : ∀ cell map, (f cell).map = some map → cell.map = some map ∨ map < w.maps.size) :
    { w with code := w.code.modify ref f }.Sound := by
  refine h.mono rfl (Nat.le_refl _) (by simp) (forall_mem_modify h.maps ?_ ref) h.labels
  intro cell hcell map hmap
  exact (hf cell map hmap).elim (hcell map) id

/-! ## Code sections -/

/-- A code section up to the content of its blocks: its labels in their order, the block assigned to
each of them, and the export flag. -/
structure CodeOutline where
  map : Option (CodeMap Nat)
  exported : Bool
  deriving DecidableEq, Repr

/-- The code section with an outline and given blocks. -/
def CodeOutline.fill (o : CodeOutline) (block : Nat → Block) : CodeSection :=
  { map := o.map.map fun m => m.map block, exported := o.exported }

/-- The outline of the code section in a cell. -/
def code? (w : Workspace) (code : Option Nat) : Option CodeOutline :=
  (code.bind fun ref => w.code[ref]?).map fun cell =>
    { map := w.mapOf? cell, exported := cell.exported }

/-- A program up to the content of its blocks. -/
structure Outline where
  declarations : Option (List Declaration)
  code : Option CodeOutline
  deriving DecidableEq, Repr

/-- The outline of the program that refers to sections. -/
def outline (w : Workspace) (refs : ProgramRefs) : Outline :=
  { declarations := refs.data.bind fun ref => w.data[ref]?
    code := w.code? refs.code }

/-- The program with an outline and given blocks. -/
def Outline.fill (o : Outline) (block : Nat → Block) : Program :=
  { data := o.declarations, code := o.code.map fun code => code.fill block }

theorem view_eq_fill (w : Workspace) (refs : ProgramRefs) :
    w.view refs = (w.outline refs).fill w.block := by
  rw [view, Outline.fill, outline, code?, Option.map_map]
  rfl

/-- The map of a code section is in the cell that the section refers to. -/
theorem map_code? (w : Workspace) (code : Option Nat) :
    (w.code? code).bind CodeOutline.map = (w.mapRef? code).bind fun ref => w.maps[ref]? := by
  rw [code?, mapRef?]
  cases code.bind fun ref => w.code[ref]? <;> rfl

/-- Code sections have the same outline if their cells and their maps are the same. -/
theorem code?_congr {code' : Option Nat}
    (hcell : (code'.bind fun ref => w'.code[ref]?) = code.bind fun ref => w.code[ref]?)
    (hmap : ((w'.mapRef? code').bind fun ref => w'.maps[ref]?) =
      (w.mapRef? code).bind fun ref => w.maps[ref]?) : w'.code? code' = w.code? code := by
  rw [mapRef?, mapRef?, hcell] at hmap
  rw [code?, code?, hcell]
  cases hown : code.bind fun ref => w.code[ref]? with
  | none => rfl
  | some cell =>
    rw [hown] at hmap
    exact congrArg some (congrArg (CodeOutline.mk · cell.exported) hmap)

theorem Sound.nodup_code? (h : w.Sound) {o : CodeOutline} (ho : w.code? code = some o)
    {m : CodeMap Nat} (hm : o.map = some m) : m.labels.Nodup := by
  have hmap : (w.code? code).bind CodeOutline.map = some m := by rw [ho, Option.bind_some, hm]
  obtain ⟨ref, -, href⟩ := Option.bind_eq_some_iff.1 ((w.map_code? code).symm.trans hmap)
  exact h.labels m (Array.mem_of_getElem? href)

/-- The outline of a code section that another one is merged into, which may be missing. -/
def combineCode (own : Option CodeOutline) (more : CodeOutline) : CodeOutline :=
  { map := some (((own.bind CodeOutline.map).getD {}).merge (more.map.getD {}))
    exported := more.exported }

/-- Combining outlines merges the code sections that are seen through them. -/
theorem fill_combineCode (block : Nat → Block) (own : Option CodeOutline) (more : CodeOutline) :
    some ((combineCode own more).fill block) =
      Program.mergeCode (own.map fun o => o.fill block) (some (more.fill block)) := by
  have hmap (m : Option (CodeMap Nat)) :
      (m.map fun m => m.map block).getD {} = (m.getD {}).map block := by
    cases m <;> rfl
  have hown : (((own.map fun o => o.fill block).bind CodeSection.map).getD {} : CodeMap Block) =
      ((own.bind CodeOutline.map).getD {}).map block := by
    cases own with
    | none => rfl
    | some own => exact hmap own.map
  simp only [Program.mergeCode, hown]
  simp only [CodeOutline.fill, combineCode, hmap, Option.map_some, CodeMap.map_merge]

/-! ## One program -/

/-- What a merge does to the data sections. -/
structure MergesData (w : Workspace) (own other : Option Nat) (x : Workspace × Option Nat) :
    Prop where
  rest : x.1 = { w with data := x.1.data }
  cells : CellStep w.data x.1.data own x.2
  value : (x.2.bind fun ref => x.1.data[ref]?) =
    Program.mergeData (own.bind fun ref => w.data[ref]?) (other.bind fun ref => w.data[ref]?)

theorem mergesData {own : Option Nat} (hown : ∀ ref, own = some ref → ref < w.data.size)
    (other : Option Nat) : w.MergesData own other (w.mergeData own other) := by
  rw [mergeData]
  split
  · rename_i hother
    refine ⟨rfl, .refl _ _, ?_⟩
    rw [hother, Program.mergeData]
  · rename_i more hother
    cases own with
    | none =>
      refine ⟨rfl, .push _ _ _, ?_⟩
      rw [hother]
      exact Array.getElem?_push_size
    | some ref =>
      refine ⟨rfl, .modify w.data (· ++ more) ref, ?_⟩
      have hcell := Array.getElem?_eq_getElem (hown ref rfl)
      simp only [Option.bind_some, hother, Array.getElem?_modify, if_pos, hcell, Option.map_some]
      rfl

/-- What a merge does to the code sections and their maps. -/
structure MergesCode (w : Workspace) (own other : Option Nat) (x : Workspace × Option Nat) :
    Prop where
  rest : x.1 = { w with code := x.1.code, maps := x.1.maps }
  cells : CellStep w.code x.1.code own x.2
  maps : CellStep w.maps x.1.maps (w.mapRef? own) (x.1.mapRef? x.2)
  outline : x.1.code? x.2 =
    match w.code? other with
    | none => w.code? own
    | some more => some (combineCode (w.code? own) more)

/-- The map of a code section, as it is found or made. -/
structure OwnsMap (w : Workspace) (ref : Nat) (x : Workspace × Nat) : Prop where
  rest : x.1 = { w with code := x.1.code, maps := x.1.maps }
  cells : CellStep w.code x.1.code (some ref) (some ref)
  maps : CellStep w.maps x.1.maps (w.mapRef? (some ref)) (some x.2)
  cell : ∃ cell, x.1.code[ref]? = some cell ∧ cell.map = some x.2
  map : x.1.maps[x.2]? = some (((w.code? (some ref)).bind CodeOutline.map).getD {})

theorem ownsMap (hw : w.Sound) {ref : Nat} (href : ref < w.code.size) :
    w.OwnsMap ref (w.ownMap ref) := by
  have hcell : w.code[ref]? = some w.code[ref] := Array.getElem?_eq_getElem href
  rw [ownMap]
  split
  · rename_i map hmap
    have hlt := hw.mapRef?_lt hmap
    refine ⟨rfl, .refl _ _, hmap ▸ .refl _ _, ⟨_, hcell, ?_⟩, ?_⟩
    · simpa only [mapRef?, Option.bind_some, hcell] using hmap
    · rw [map_code?, hmap, Option.bind_some, Array.getElem?_eq_getElem hlt, Option.getD_some]
  · rename_i hmap
    let f := fun cell : CodeCell => { cell with map := some w.maps.size }
    have hcode : (w.code.modify ref f)[ref]? = some (f w.code[ref]) := by
      rw [Array.getElem?_modify, if_pos rfl, hcell, Option.map_some]
    refine ⟨rfl, .modify w.code f ref, hmap ▸ .push w.maps {} _, ⟨_, hcode, rfl⟩, ?_⟩
    rw [map_code?, hmap]
    exact Array.getElem?_push_size

/-- **What a merge does to code sections.** A program without code gets copies, and a section that
is there keeps its map. -/
theorem mergesCode (hw : w.Sound) {own : Option Nat}
    (hown : ∀ ref, own = some ref → ref < w.code.size) (other : Option Nat) :
    w.MergesCode own other (w.mergeCode own other) := by
  rw [mergeCode]
  split
  · rename_i hother
    refine ⟨rfl, .refl _ _, .refl _ _, ?_⟩
    have hnone : w.code? other = none := by rw [code?, hother, Option.map_none]
    rw [hnone]
  · rename_i cell hother
    have hmore : w.code? other = some { map := w.mapOf? cell, exported := cell.exported } := by
      rw [code?, hother, Option.map_some]
    cases own with
    | none =>
      have hcode : (w.code.push { map := some w.maps.size, exported := cell.exported })[w.code.size]?
          = some { map := some w.maps.size, exported := cell.exported } := Array.getElem?_push_size
      have hmaps : (w.maps.push (CodeMap.merge {} ((w.mapOf? cell).getD {})))[w.maps.size]? =
          some (CodeMap.merge {} ((w.mapOf? cell).getD {})) := Array.getElem?_push_size
      refine ⟨rfl, .push _ _ _, ?_, ?_⟩
      · simp only [copyMap, newMap, newCode, mapRef?, Option.bind_some, hcode]
        exact .push _ _ _
      · rw [hmore]
        simp only [copyMap, newMap, newCode, code?, Option.bind_some, hcode, Option.map_some]
        exact congrArg some (congrArg (CodeOutline.mk · cell.exported) hmaps)
    | some ref =>
      obtain ⟨hrest, hcells, hmaps, ⟨own, hown, hmap⟩, hvalue⟩ := ownsMap hw (hown ref rfl)
      dsimp only
      generalize w.ownMap ref = x at hrest hcells hmaps hown hmap hvalue ⊢
      have hcode : (x.1.code.modify ref fun own => { own with exported := cell.exported })[ref]? =
          some { map := some x.2, exported := cell.exported } := by
        rw [Array.getElem?_modify, if_pos rfl, hown, Option.map_some, hmap]
      refine ⟨?_, hcells.trans ?_, ?_, ?_⟩
      · rw [hrest]
      · exact .modify x.1.code (fun own => { own with exported := cell.exported }) ref
      · simp only [mapRef?, Option.bind_some, hcode]
        exact hmaps.trans (.modify _ _ _)
      · have hmerged : (x.1.maps.modify x.2 (·.merge ((w.mapOf? cell).getD {})))[x.2]? =
            some ((((w.code? (some ref)).bind CodeOutline.map).getD {}).merge
              ((w.mapOf? cell).getD {})) := by
          rw [Array.getElem?_modify, if_pos rfl, hvalue, Option.map_some]
        rw [hmore, code?]
        simp only [Option.bind_some, hcode, Option.map_some]
        exact congrArg some (congrArg (CodeOutline.mk · cell.exported) hmerged)

/-- What a merge does to a workspace. -/
structure MergesRefs (w : Workspace) (own other : ProgramRefs) (x : Workspace × ProgramRefs) :
    Prop where
  programs : x.1.programs = w.programs
  blocks : x.1.blocks = w.blocks
  data : CellStep w.data x.1.data own.data x.2.data
  code : CellStep w.code x.1.code own.code x.2.code
  maps : CellStep w.maps x.1.maps (w.mapRef? own.code) (x.1.mapRef? x.2.code)
  declarations : (x.2.data.bind fun ref => x.1.data[ref]?) =
    Program.mergeData (own.data.bind fun ref => w.data[ref]?)
      (other.data.bind fun ref => w.data[ref]?)
  outline : x.1.code? x.2.code =
    match w.code? other.code with
    | none => w.code? own.code
    | some more => some (combineCode (w.code? own.code) more)

/-- **What a merge does to a workspace**, also where programs share cells. -/
theorem mergesRefs (hw : w.Sound) (hown : w.Holds own) (other : ProgramRefs) :
    w.MergesRefs own other (w.mergeRefs own other) := by
  obtain ⟨hrest, hcells, hvalue⟩ := mergesData hown.data other.data
  rw [mergeRefs]
  generalize w.mergeData own.data other.data = x at hrest hcells hvalue ⊢
  obtain ⟨w₁, data⟩ := x
  dsimp only at hrest hcells hvalue ⊢
  have hw₁ : w₁.Sound := hrest ▸ hw.withData hcells.size_le
  have hcode : w₁.code = w.code := by rw [hrest]
  have hmaps : w₁.maps = w.maps := by rw [hrest]
  have hmapRef : w₁.mapRef? = w.mapRef? := by
    funext code
    rw [mapRef?, mapRef?, hcode]
  have houtline : w₁.code? = w.code? := by
    funext code
    rw [hrest]
    rfl
  obtain ⟨hrest', hcells', hmaps', houtline'⟩ :=
    mergesCode hw₁ (hcode ▸ hown.code) other.code
  generalize w₁.mergeCode own.code other.code = y at hrest' hcells' hmaps' houtline' ⊢
  obtain ⟨w₂, code⟩ := y
  dsimp only at hrest' hcells' hmaps' houtline' ⊢
  have hdata : w₂.data = w₁.data := by rw [hrest']
  refine ⟨?_, ?_, hdata ▸ hcells, hcode ▸ hcells', ?_, hdata ▸ hvalue, ?_⟩
  · rw [hrest', hrest]
  · rw [hrest', hrest]
  · rwa [hmaps, hmapRef] at hmaps'
  · rwa [houtline] at houtline'

/-- **Merging cells merges the programs that are seen in them**, also where they share cells. -/
theorem view_mergeRefs (hw : w.Sound) (hown : w.Holds own) (other : ProgramRefs) :
    let x := w.mergeRefs own other
    x.1.view x.2 = (w.view own).merge (w.view other) := by
  intro x
  have h : w.MergesRefs own other x := mergesRefs hw hown other
  have hblock : x.1.block = w.block := by
    funext ref
    rw [block, block, h.blocks]
  rw [view_eq_fill, view_eq_fill, view_eq_fill, hblock]
  refine congrArg₂ Program.mk h.declarations ?_
  simp only [Outline.fill, outline, h.outline]
  cases w.code? other.code with
  | none => rfl
  | some more => exact fill_combineCode w.block _ more

/-! ## Merging keeps a workspace sound -/

theorem Sound.mergeData (h : w.Sound) (own other : Option Nat) :
    (w.mergeData own other).1.Sound := by
  rw [Workspace.mergeData]
  split
  · exact h
  · cases own with
    | none => exact h.withData (by simp)
    | some ref => exact h.withData (by simp)

theorem Sound.ownMap (h : w.Sound) (ref : Nat) : (w.ownMap ref).1.Sound := by
  rw [Workspace.ownMap]
  split
  · exact h
  · refine (h.newMap (m := {}) List.nodup_nil).modifyCode ref ?_
    rintro _ _ ⟨⟩
    exact .inr (by simp [Workspace.newMap])

theorem Sound.mergeCode (h : w.Sound) (own other : Option Nat) :
    (w.mergeCode own other).1.Sound := by
  rw [Workspace.mergeCode]
  split
  · exact h
  · rename_i cell _
    cases own with
    | none =>
      refine (h.newMap (CodeMap.nodup_labels_merge (m := {}) List.nodup_nil _)).newCode ?_
      rintro _ ⟨⟩
      simp [Workspace.newMap, copyMap]
    | some ref =>
      have hmaps := (h.ownMap ref).modifyMaps (w.ownMap ref).2 fun m hm =>
        CodeMap.nodup_labels_merge hm ((w.mapOf? cell).getD {})
      exact hmaps.modifyCode ref fun _ _ hmap => .inl hmap

theorem Sound.mergeRefs (h : w.Sound) (hown : w.Holds own) (other : ProgramRefs) :
    let x := w.mergeRefs own other
    x.1.Sound ∧ x.1.Holds x.2 := by
  have hmerges := mergesRefs h hown other
  exact ⟨(h.mergeData own.data other.data).mergeCode own.code other.code,
    hmerges.data.lt hown.data, hmerges.code.lt hown.code⟩

/-! ## All units -/

/-- The workspace `w'` has all cells of `w` as they are, and may have more. -/
structure Extends (w w' : Workspace) : Prop where
  data : Keeps w.data w'.data
  code : Keeps w.code w'.code
  maps : Keeps w.maps w'.maps
  blocks : w'.blocks = w.blocks

/-- The sections and the map are in cells that `w'` has and `w` does not have. -/
structure IsNew (w w' : Workspace) (refs : ProgramRefs) : Prop where
  data : Fresh w.data w'.data refs.data
  code : Fresh w.code w'.code refs.code
  map : Fresh w.maps w'.maps (w'.mapRef? refs.code)

theorem Extends.refl (w : Workspace) : w.Extends w := ⟨.refl _, .refl _, .refl _, rfl⟩

theorem isNew_empty (w : Workspace) : w.IsNew w {} :=
  ⟨fun _ h => (nomatch h), fun _ h => (nomatch h), fun _ h => (nomatch h)⟩

theorem IsNew.holds (h : w.IsNew w' own) : w'.Holds own :=
  ⟨fun ref href => (h.data ref href).2, fun ref href => (h.code ref href).2⟩

/-- Code sections that were there have the same outline. -/
theorem Extends.code?_eq (h : w.Extends w') (hw : w.Sound)
    (hcode : ∀ ref, code = some ref → ref < w.code.size) : w'.code? code = w.code? code := by
  have hcell := h.code.bind_eq hcode
  have hmapRef : w'.mapRef? code = w.mapRef? code := congrArg (Option.bind · CodeCell.map) hcell
  refine code?_congr hcell ?_
  rw [hmapRef]
  exact h.maps.bind_eq fun _ => hw.mapRef?_lt

/-- Programs that were there look the same. -/
theorem Extends.view_eq (h : w.Extends w') (hw : w.Sound) (hother : w.Holds other) :
    w'.view other = w.view other := by
  have hblock : w'.block = w.block := by
    funext ref
    rw [block, block, h.blocks]
  have houtline : w'.outline other = w.outline other :=
    congrArg₂ Outline.mk (h.data.bind_eq hother.data) (h.code?_eq hw hother.code)
  rw [view_eq_fill, view_eq_fill, houtline, hblock]

/-- Merging into new cells leaves all cells that were there. -/
theorem Extends.mergeRefs (h : w.Extends w') (hw' : w'.Sound) (hown : w.IsNew w' own)
    (other : ProgramRefs) :
    let x := w'.mergeRefs own other
    w.Extends x.1 ∧ w.IsNew x.1 x.2 := by
  intro x
  have hx : w'.MergesRefs own other x := mergesRefs hw' hown.holds other
  obtain ⟨hdata, hnewData⟩ := h.data.step hown.data hx.data
  obtain ⟨hcode, hnewCode⟩ := h.code.step hown.code hx.code
  obtain ⟨hmaps, hnewMap⟩ := h.maps.step hown.map hx.maps
  exact ⟨⟨hdata, hcode, hmaps, hx.blocks.trans h.blocks⟩, hnewData, hnewCode, hnewMap⟩

theorem view_mergeAll (hw : w.Sound) (h : w.Extends w') (hw' : w'.Sound) (hown : w.IsNew w' own)
    {others : List ProgramRefs} (hothers : ∀ other ∈ others, w.Holds other) :
    let x := w'.mergeAll own others
    x.1.view x.2 = others.foldl (fun p other => p.merge (w.view other)) (w'.view own) := by
  induction others generalizing w' own with
  | nil => rfl
  | cons other others ih =>
    rw [List.forall_mem_cons] at hothers
    obtain ⟨hextends, hnew⟩ := h.mergeRefs hw' hown other
    obtain ⟨hsound, -⟩ := hw'.mergeRefs hown.holds other
    rw [List.foldl_cons, ← h.view_eq hw hothers.1, ← view_mergeRefs hw' hown.holds other]
    exact ih hextends hsound hnew hothers.2

theorem refs_setRefs (w : Workspace) (name : String) (refs : ProgramRefs) (name' : String) :
    (w.setRefs name refs).refs name' = if name' = name then refs else w.refs name' := by
  have hfilter (hne : name' ≠ name) :
      (w.programs.filter (·.1 != name)).lookup name' = w.programs.lookup name' := by
    induction w.programs with
    | nil => rfl
    | cons program programs ih =>
      obtain ⟨other, refs⟩ := program
      by_cases h : other = name
      · subst h
        simp [List.lookup_cons, beq_false_of_ne hne, ih]
      · simp [h, List.lookup_cons, ih]
  by_cases h : name' = name
  · simp [Workspace.refs, setRefs, h]
  · have hne : (name' == name) = false := beq_false_of_ne h
    simp only [Workspace.refs, setRefs, List.lookup_cons, hne, hfilter h, if_neg h]

/-- **Merging programs in a workspace merges the programs that are seen in it.** -/
theorem view_merge (hw : w.Sound) (name other : String) :
    let x := w.merge name other
    x.view (x.refs name) = (w.view (w.refs name)).merge (w.view (w.refs other)) := by
  intro x
  have hrefs : x.refs name = (w.mergeRefs (w.refs name) (w.refs other)).2 :=
    (refs_setRefs _ _ _ _).trans (if_pos rfl)
  rw [hrefs]
  exact view_mergeRefs hw (hw.refs name) (w.refs other)

/-- **Merging units in a workspace merges the programs that are seen in it.** A unit without a
program changes nothing. -/
theorem view_mergeUnits (hw : w.Sound) (name : String) (kind : UnitKind)
    (units : List (Option String)) :
    let x := w.mergeUnits name units
    x.view (x.refs name) = WasmUdon.mergeUnits
      ((units.filterMap id).map fun other => { kind, program := w.view (w.refs other) }) := by
  intro x
  have hothers : ∀ other ∈ (units.filterMap id).map w.refs, w.Holds other := by
    intro other hmem
    obtain ⟨unit, -, rfl⟩ := List.mem_map.1 hmem
    exact hw.refs unit
  have hview := view_mergeAll hw (.refl w) hw (isNew_empty w) hothers
  have hrefs : x.refs name = (w.mergeAll {} ((units.filterMap id).map w.refs)).2 :=
    (refs_setRefs _ _ _ _).trans (if_pos rfl)
  rw [hrefs, WasmUdon.mergeUnits, List.foldl_map]
  rw [List.foldl_map] at hview
  exact hview

/-! ## The operations keep a workspace sound -/

/-- The workspaces that the operations build. -/
inductive Built : Workspace → Prop
  | empty : Built {}
  | setData {w : Workspace} (h : w.Built) (name : String) (ds : List Declaration) :
    Built (w.setData name ds)
  | clearData {w : Workspace} (h : w.Built) (name : String) : Built (w.clearData name)
  | shareData {w : Workspace} (h : w.Built) (name source : String) :
    Built (w.shareData name source)
  | pushDeclaration {w w' : Workspace} (h : w.Built) (name : String) (d : Declaration)
    (hw' : w.pushDeclaration? name d = some w') : Built w'
  | setCode {w : Workspace} (h : w.Built) (name : String) (exported : Bool)
    (blocks : Option (List (Bytes × Block))) : Built (w.setCode name exported blocks)
  | clearCode {w : Workspace} (h : w.Built) (name : String) : Built (w.clearCode name)
  | shareCode {w : Workspace} (h : w.Built) (name source : String) :
    Built (w.shareCode name source)
  | setBlock {w w' : Workspace} (h : w.Built) (name : String) (label : Bytes) (b : Block)
    (hw' : w.setBlock? name label b = some w') : Built w'
  | placeBlock {w w' : Workspace} (h : w.Built) (name : String) (label : Bytes) (ref : Nat)
    (hw' : w.placeBlock? name label ref = some w') : Built w'
  | pushInstruction {w : Workspace} (h : w.Built) (ref : Nat) (i : Instruction) :
    Built (w.pushInstruction ref i)
  | merge {w : Workspace} (h : w.Built) (name other : String) : Built (w.merge name other)
  | mergeMap {w w' : Workspace} (h : w.Built) (name : String) (other : Option String)
    (hw' : w.mergeMap? name other = some w') : Built w'
  | mergeUnits {w : Workspace} (h : w.Built) (name : String) (units : List (Option String)) :
    Built (w.mergeUnits name units)

theorem Sound.setRefs (h : w.Sound) (name : String) {data code : Option Nat}
    (hdata : ∀ ref, data = some ref → ref < w.data.size)
    (hcode : ∀ ref, code = some ref → ref < w.code.size) :
    (w.setRefs name { data, code }).Sound := by
  refine ⟨fun name' => ?_, h.maps, h.labels⟩
  rw [refs_setRefs]
  split
  · exact ⟨hdata, hcode⟩
  · exact ⟨(h.refs name').data, (h.refs name').code⟩

theorem Sound.setData (h : w.Sound) (name : String) (ds : List Declaration) :
    (w.setData name ds).Sound := by
  have hgrown : { w with data := w.data.push ds }.Sound := h.withData (by simp)
  refine hgrown.setRefs name ?_ (hgrown.refs name).code
  rintro _ ⟨⟩
  simp

theorem Sound.pushDeclaration? (h : w.Sound) {name : String} {d : Declaration}
    (hw' : w.pushDeclaration? name d = some w') : w'.Sound := by
  rw [Workspace.pushDeclaration?, modifyData?] at hw'
  split at hw'
  · split at hw'
    · cases hw'
      exact h.withData (by simp)
    · cases hw'
  · cases hw'

theorem Sound.newBlocks (h : w.Sound) {m : CodeMap Nat} (hm : m.labels.Nodup)
    (blocks : List (Bytes × Block)) :
    (w.newBlocks m blocks).1.Sound ∧ (w.newBlocks m blocks).2.labels.Nodup := by
  induction blocks generalizing w m with
  | nil => exact ⟨h, hm⟩
  | cons entry blocks ih =>
    obtain ⟨label, b⟩ := entry
    exact ih (h.withBlocks _) (CodeMap.nodup_labels_set hm _ _)

theorem Sound.installCode (h : w.Sound) (cell : CodeCell)
    (hcell : ∀ ref, cell.map = some ref → ref < w.maps.size) (name : String) :
    ((w.newCode cell).1.setRefs name { w.refs name with code := some w.code.size }).Sound := by
  have hgrown := h.newCode hcell
  refine hgrown.setRefs name (hgrown.refs name).data ?_
  rintro _ ⟨⟩
  simp [Workspace.newCode]

theorem Sound.setCode (h : w.Sound) (name : String) (exported : Bool)
    (blocks : Option (List (Bytes × Block))) : (w.setCode name exported blocks).Sound := by
  cases blocks with
  | none => exact h.installCode { map := none, exported } nofun name
  | some blocks =>
    obtain ⟨hw, hlabels⟩ := h.newBlocks (m := {}) List.nodup_nil blocks
    refine (hw.newMap hlabels).installCode { map := some _, exported } ?_ name
    rintro _ ⟨⟩
    simp [Workspace.newMap]

theorem modifyMap?_eq_some {name : String} {f : CodeMap Nat → CodeMap Nat}
    (hw' : w.modifyMap? name f = some w') :
    ∃ ref, w.mapRef? (w.refs name).code = some ref ∧
      w' = { w with maps := w.maps.modify ref f } := by
  rw [modifyMap?] at hw'
  split at hw'
  · rename_i ref href
    split at hw'
    · cases hw'
      exact ⟨ref, href, rfl⟩
    · cases hw'
  · cases hw'

theorem Sound.modifyMap? (h : w.Sound) {name : String} {f : CodeMap Nat → CodeMap Nat}
    (hf : ∀ m, m.labels.Nodup → (f m).labels.Nodup) (hw' : w.modifyMap? name f = some w') :
    w'.Sound := by
  obtain ⟨ref, -, rfl⟩ := modifyMap?_eq_some hw'
  exact h.modifyMaps ref hf

theorem Sound.setBlock? (h : w.Sound) {name : String} {label : Bytes} {b : Block}
    (hw' : w.setBlock? name label b = some w') : w'.Sound :=
  (h.withBlocks _).modifyMap? (fun _ hm => CodeMap.nodup_labels_set hm _ _) hw'

theorem Sound.placeBlock? (h : w.Sound) {name : String} {label : Bytes} {ref : Nat}
    (hw' : w.placeBlock? name label ref = some w') : w'.Sound := by
  rw [Workspace.placeBlock?] at hw'
  split at hw'
  · exact h.modifyMap? (fun _ hm => CodeMap.nodup_labels_set hm _ _) hw'
  · cases hw'

theorem Sound.mergeMap? (h : w.Sound) {name : String} {other : Option String}
    (hw' : w.mergeMap? name other = some w') : w'.Sound :=
  h.modifyMap? (fun _ hm => CodeMap.nodup_labels_merge hm _) hw'

theorem Sound.mergeAll (h : w.Sound) (hown : w.Holds own) (others : List ProgramRefs) :
    let x := w.mergeAll own others
    x.1.Sound ∧ x.1.Holds x.2 := by
  induction others generalizing w own with
  | nil => exact ⟨h, hown⟩
  | cons other others ih =>
    obtain ⟨hsound, hholds⟩ := h.mergeRefs hown other
    exact ih hsound hholds

/-- **Whatever the operations build is sound.** -/
theorem Built.sound (h : w.Built) : w.Sound := by
  induction h with
  | empty => exact ⟨fun _ => .empty _, nofun, nofun⟩
  | setData _ name ds ih => exact ih.setData name ds
  | clearData _ name ih => exact ih.setRefs name (Holds.empty _).data (ih.refs name).code
  | shareData _ name source ih => exact ih.setRefs name (ih.refs source).data (ih.refs name).code
  | pushDeclaration _ name d hw' ih => exact ih.pushDeclaration? hw'
  | setCode _ name exported blocks ih => exact ih.setCode name exported blocks
  | clearCode _ name ih => exact ih.setRefs name (ih.refs name).data (Holds.empty _).code
  | shareCode _ name source ih => exact ih.setRefs name (ih.refs name).data (ih.refs source).code
  | setBlock _ name label b hw' ih => exact ih.setBlock? hw'
  | placeBlock _ name label ref hw' ih => exact ih.placeBlock? hw'
  | pushInstruction _ ref i ih => exact ih.withBlocks _
  | merge _ name other ih =>
    obtain ⟨hsound, hholds⟩ := ih.mergeRefs (ih.refs name) _
    exact hsound.setRefs name hholds.data hholds.code
  | mergeMap _ name other hw' ih => exact ih.mergeMap? hw'
  | mergeUnits _ name units ih =>
    obtain ⟨hsound, hholds⟩ := ih.mergeAll (.empty _) _
    exact hsound.setRefs name hholds.data hholds.code

end Workspace

end WasmUdon
