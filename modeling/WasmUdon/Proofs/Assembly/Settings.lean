import Mathlib.Data.Set.Card
import WasmUdon.Proofs.Assembly.CodeMap

/-!
# Code maps as two collections

A code map may be kept as two collections: a list of labels, and the blocks by label (`BlockTable`).
Nothing but the way a block is set keeps them in step: a label is listed when it has no block yet.
A merge sets the blocks of one map in another one, or in itself, and reads them from the map that it
changes in the latter case.

`BlockTables` are such maps under names, with all settings of blocks that were made in each. A map
is determined by its settings (`BlockTables.after_replays`): the labels are listed by their first
setting (`BlockTable.order_ofSettings`), and each has the block of the last one
(`BlockTable.blocks_ofSettings`). The code maps of this library, which have one list of entries, go
through the same states (`BlockTables.after_agrees`), so all this holds of them
(`CodeMap.in_step_with_settings`).
-/

namespace WasmUdon

/-! ## One map -/

/-- A code map as two collections. -/
structure BlockTable (β : Type) where
  /-- The labels in the order of first insertion. -/
  order : List Bytes := []
  /-- The blocks by label. -/
  blocks : Bytes → Option β := fun _ => none

/-- The two collections of a code map. -/
def CodeMap.table {β : Type} (m : CodeMap β) : BlockTable β :=
  { order := m.labels, blocks := m.get? }

namespace BlockTable

variable {β : Type} {t : BlockTable β} {label : Bytes} {block : β}

/-- Sets the block of a label, which is listed if it has no block yet. -/
def set (t : BlockTable β) (label : Bytes) (block : β) : BlockTable β where
  order := if (t.blocks label).isSome then t.order else t.order ++ [label]
  blocks := Function.update t.blocks label (some block)

/-- The map of settings, made one after the other. -/
def ofSettings (settings : List (Bytes × β)) : BlockTable β :=
  settings.foldl (fun t entry => t.set entry.1 entry.2) {}

/-- Setting the block that a label has changes nothing. -/
theorem set_of_eq_some (h : t.blocks label = some block) : t.set label block = t := by
  have hsome : (t.blocks label).isSome = true := by simp [h]
  rw [set, if_pos hsome, ← h, Function.update_eq_self]

theorem ofSettings_concat (settings : List (Bytes × β)) (entry : Bytes × β) :
    ofSettings (settings ++ [entry]) = (ofSettings settings).set entry.1 entry.2 := by
  rw [ofSettings, List.foldl_append]
  rfl

/-- **Each label has the block that was set last.** -/
theorem blocks_ofSettings (settings : List (Bytes × β)) (label : Bytes) :
    (ofSettings settings).blocks label = settings.reverse.lookup label := by
  induction settings using List.reverseRecOn with
  | nil => rfl
  | append_singleton settings entry ih =>
    obtain ⟨name, block⟩ := entry
    rw [ofSettings_concat, List.reverse_concat, List.lookup_cons]
    by_cases h : label = name
    · subst h
      simp [set]
    · rw [beq_false_of_ne h]
      exact (Function.update_of_ne h _ _).trans ih

/-- The labels that are listed are those that have a block. -/
theorem mem_order_ofSettings (settings : List (Bytes × β)) (label : Bytes) :
    label ∈ (ofSettings settings).order ↔ ((ofSettings settings).blocks label).isSome := by
  induction settings using List.reverseRecOn with
  | nil => simp [ofSettings]
  | append_singleton settings entry ih =>
    rw [ofSettings_concat]
    by_cases h : label = entry.1
    · subst h
      by_cases hsome : ((ofSettings settings).blocks entry.1).isSome <;> simp [set, hsome, ih]
    · by_cases hsome : ((ofSettings settings).blocks entry.1).isSome <;> simp [set, hsome, h, ih]

theorem nodup_order_ofSettings (settings : List (Bytes × β)) :
    (ofSettings settings).order.Nodup := by
  induction settings using List.reverseRecOn with
  | nil => exact List.nodup_nil
  | append_singleton settings entry ih =>
    rw [ofSettings_concat]
    simp only [set, ← mem_order_ofSettings]
    split
    · exact ih
    · rename_i hnew
      exact ih.append (List.nodup_singleton _) (List.disjoint_singleton.2 hnew)

/-- **The labels are listed by their first setting.** -/
theorem order_ofSettings (settings : List (Bytes × β)) :
    (ofSettings settings).order = (settings.map Prod.fst).eraseDups := by
  rw [← CodeMap.foldl_appendNew]
  induction settings using List.reverseRecOn with
  | nil => rfl
  | append_singleton settings entry ih =>
    rw [ofSettings_concat, List.map_append, List.foldl_append, ← ih]
    simp only [set, ← mem_order_ofSettings]
    rfl

end BlockTable

/-! ## The two collections of a code map -/

namespace CodeMap

variable {β : Type} {m : CodeMap β}

theorem mem_labels_iff (m : CodeMap β) (label : Bytes) :
    label ∈ m.labels ↔ (m.get? label).isSome := by
  rw [← Option.ne_none_iff_isSome, Ne, get?, List.lookup_eq_none_iff]
  simp [labels, bne_iff_ne]

/-- Setting a block does the same to both forms of a map. -/
theorem table_set (m : CodeMap β) (label : Bytes) (block : β) :
    (m.set label block).table = m.table.set label block := by
  have horder : (m.set label block).labels = (m.table.set label block).order := by
    simp only [labels_set, mem_labels_iff]
    rfl
  have hblocks : (m.set label block).get? = (m.table.set label block).blocks := by
    funext other
    by_cases h : other = label
    · subst h
      simp [get?_set_self, table, BlockTable.set]
    · simp [get?_set_of_ne m h, table, BlockTable.set, h]
  rw [table, horder, hblocks]

theorem table_foldl_set (entries : List (Bytes × β)) (m : CodeMap β) :
    (entries.foldl (fun m entry => m.set entry.1 entry.2) m).table =
      entries.foldl (fun t entry => t.set entry.1 entry.2) m.table := by
  induction entries generalizing m with
  | nil => rfl
  | cons entry entries ih => rw [List.foldl_cons, ih, table_set, List.foldl_cons]

/-- Every listed label finds its block, so looking the labels up gives the entries. -/
theorem labels_map_get? (h : m.labels.Nodup) :
    (m.labels.map fun label => (m.get? label).map (label, ·)) = m.entries.map some := by
  rw [labels, List.map_map]
  refine List.map_congr_left fun entry hentry => ?_
  rw [Function.comp_apply, get?_of_mem h hentry]
  rfl

end CodeMap

/-! ## Maps under names -/

/-- An operation on code maps that are known by names. -/
inductive MapOperation (ι β : Type)
  /-- A new map. -/
  | new (name : ι)
  | set (name : ι) (label : Bytes) (block : β)
  /-- Merges another map, or the map itself, or none at all. -/
  | merge (name : ι) (source : Option ι)
  /-- A new map, into which another one is merged. -/
  | clone (name source : ι)

/-- Code maps as two collections each, with the settings that were made in them. -/
structure BlockTables (ι β : Type) where
  table : ι → BlockTable β := fun _ => {}
  settings : ι → List (Bytes × β) := fun _ => []

section

variable {ι β : Type}

namespace BlockTables

variable {t : BlockTables ι β} {maps : ι → CodeMap β} {source : ι}

/-- Every map is that of the settings made in it. -/
def Replays (t : BlockTables ι β) : Prop := ∀ name, t.table name = .ofSettings (t.settings name)

/-- Both forms of the maps are the same. -/
def Agrees (t : BlockTables ι β) (maps : ι → CodeMap β) : Prop :=
  ∀ name, t.table name = (maps name).table

theorem Agrees.order_eq (h : t.Agrees maps) (name : ι) :
    (t.table name).order = (maps name).labels := by
  rw [h name]
  rfl

/-- The labels of the maps are distinct, since those of settings are. -/
theorem Agrees.nodup_labels (h : t.Agrees maps) (ht : t.Replays) (name : ι) :
    (maps name).labels.Nodup := by
  rw [← h.order_eq name, ht name]
  exact BlockTable.nodup_order_ofSettings _

/-- The block of a label in a map. A label without a block gives the default. -/
def block [Inhabited β] (t : BlockTables ι β) (name : ι) (label : Bytes) : β :=
  ((t.table name).blocks label).getD default

theorem block_eq [Inhabited β] {src : CodeMap β} {entry : Bytes × β} (hsrc : src.labels.Nodup)
    (hsource : t.table source = src.table) (hentry : entry ∈ src.entries) :
    (t.table source).blocks entry.1 = some entry.2 ∧ t.block source entry.1 = entry.2 := by
  have hget : (t.table source).blocks entry.1 = some entry.2 := by
    rw [hsource]
    exact CodeMap.get?_of_mem hsrc hentry
  exact ⟨hget, by simp [block, hget]⟩

end BlockTables

/-! ## Operations -/

variable [DecidableEq ι]

namespace MapOperation

/-- The code maps after an operation. -/
def apply (maps : ι → CodeMap β) : MapOperation ι β → ι → CodeMap β
  | .new name => Function.update maps name {}
  | .set name label block => Function.update maps name ((maps name).set label block)
  | .merge name source => Function.update maps name ((maps name).merge ((source.map maps).getD {}))
  | .clone name source => Function.update maps name (CodeMap.merge {} (maps source))

/-- The code maps after operations. Every name stands for a new map at first. -/
def after (ops : List (MapOperation ι β)) : ι → CodeMap β := ops.foldl apply fun _ => {}

end MapOperation

namespace BlockTables

variable {t : BlockTables ι β} {maps : ι → CodeMap β} {name source : ι}

/-- Sets a block in a map. -/
def set (t : BlockTables ι β) (name : ι) (label : Bytes) (block : β) : BlockTables ι β where
  table := Function.update t.table name ((t.table name).set label block)
  settings := Function.update t.settings name (t.settings name ++ [(label, block)])

/-- Gives a name to a new map, in which settings are made. -/
def renew (t : BlockTables ι β) (name : ι) (settings : List (Bytes × β)) : BlockTables ι β where
  table := Function.update t.table name (.ofSettings settings)
  settings := Function.update t.settings name settings

theorem table_set (t : BlockTables ι β) (name : ι) (label : Bytes) (block : β) :
    (t.set name label block).table =
      Function.update t.table name ((t.table name).set label block) := rfl

theorem Replays.set (h : t.Replays) (name : ι) (label : Bytes) (block : β) :
    (t.set name label block).Replays := by
  intro other
  by_cases hother : other = name
  · subst hother
    simp only [BlockTables.set, Function.update_self, BlockTable.ofSettings_concat]
    rw [h other]
  · simp only [BlockTables.set, Function.update_of_ne hother]
    exact h other

theorem Replays.renew (h : t.Replays) (name : ι) (settings : List (Bytes × β)) :
    (t.renew name settings).Replays := by
  intro other
  by_cases hother : other = name
  · subst hother
    simp only [BlockTables.renew, Function.update_self]
  · simp only [BlockTables.renew, Function.update_of_ne hother]
    exact h other

theorem Agrees.update {t' : BlockTables ι β} {m : CodeMap β} (h : t.Agrees maps)
    (ht' : t'.table = Function.update t.table name m.table) :
    t'.Agrees (Function.update maps name m) := by
  intro other
  by_cases heq : other = name
  · subst heq
    rw [ht', Function.update_self, Function.update_self]
  · rw [ht', Function.update_of_ne heq, Function.update_of_ne heq, h other]

variable [Inhabited β]

/-- Sets the blocks of labels in a map as they are in a source, which may be the map itself. Each
block is read when it is set. -/
def setFrom (t : BlockTables ι β) (name source : ι) (labels : List Bytes) : BlockTables ι β :=
  labels.foldl (fun t label => t.set name label (t.block source label)) t

/-- The maps after an operation. -/
def apply (t : BlockTables ι β) : MapOperation ι β → BlockTables ι β
  | .new name => t.renew name []
  | .set name label block => t.set name label block
  | .merge _ none => t
  | .merge name (some source) => t.setFrom name source (t.table source).order
  | .clone name source =>
    t.renew name ((t.table source).order.map fun label => (label, t.block source label))

/-- The maps after operations. Every name stands for a new map at first. -/
def after (ops : List (MapOperation ι β)) : BlockTables ι β := ops.foldl apply {}

theorem Replays.setFrom (h : t.Replays) (name source : ι) (labels : List Bytes) :
    (t.setFrom name source labels).Replays := by
  induction labels generalizing t with
  | nil => exact h
  | cons label labels ih => exact ih (h.set name label _)

theorem Replays.apply (h : t.Replays) (op : MapOperation ι β) : (t.apply op).Replays := by
  cases op with
  | new name => exact h.renew name []
  | set name label block => exact h.set name label block
  | merge name source =>
    cases source with
    | none => exact h
    | some source => exact h.setFrom name source _
  | clone name source => exact h.renew name _

/-- **Whatever is done, a map is that of the settings made in it.** -/
theorem after_replays (ops : List (MapOperation ι β)) : (after ops).Replays := by
  induction ops using List.reverseRecOn with
  | nil => exact fun _ => rfl
  | append_singleton ops op ih =>
    rw [after, List.foldl_append]
    exact ih.apply op

/-- A merge sets the entries of its source. This holds also where a map is merged into itself: a
block that is read from the changed map is still the one that was there. -/
theorem table_setFrom {m src : CodeMap β} (hsrc : src.labels.Nodup)
    {entries : List (Bytes × β)} (hentries : ∀ entry ∈ entries, entry ∈ src.entries)
    (hsource : t.table source = src.table) (hname : t.table name = m.table) :
    (t.setFrom name source (entries.map Prod.fst)).table =
      Function.update t.table name
        (entries.foldl (fun m entry => m.set entry.1 entry.2) m).table := by
  induction entries generalizing t m with
  | nil =>
    rw [List.foldl_nil, ← hname, Function.update_eq_self]
    rfl
  | cons entry entries ih =>
    obtain ⟨hget, hblock⟩ := block_eq hsrc hsource (hentries entry List.mem_cons_self)
    have hrest : ∀ entry ∈ entries, entry ∈ src.entries := fun entry hentry =>
      hentries entry (List.mem_cons_of_mem _ hentry)
    have hname' : (t.set name entry.1 entry.2).table name = (m.set entry.1 entry.2).table := by
      rw [table_set, Function.update_self, hname, CodeMap.table_set]
    have hsource' : (t.set name entry.1 entry.2).table source = src.table := by
      by_cases heq : source = name
      · subst heq
        rw [table_set, Function.update_self, BlockTable.set_of_eq_some hget, hsource]
      · rw [table_set, Function.update_of_ne heq, hsource]
    have hstep : t.setFrom name source ((entry :: entries).map Prod.fst) =
        (t.set name entry.1 entry.2).setFrom name source (entries.map Prod.fst) := by
      rw [setFrom, List.map_cons, List.foldl_cons, hblock]
      rfl
    rw [hstep, ih hrest hsource' hname', table_set, Function.update_idem, List.foldl_cons]

/-- **An operation does the same to both forms of the maps.** -/
theorem Agrees.apply (h : t.Agrees maps) (ht : t.Replays) (op : MapOperation ι β) :
    (t.apply op).Agrees (op.apply maps) := by
  cases op with
  | new name => exact h.update rfl
  | set name label block =>
    refine h.update ?_
    rw [CodeMap.table_set, ← h name]
    rfl
  | merge name source =>
    cases source with
    | none =>
      refine h.update ?_
      rw [Option.map_none, Option.getD_none, CodeMap.merge_empty, ← h name,
        Function.update_eq_self]
      rfl
    | some source =>
      refine h.update ?_
      rw [BlockTables.apply, h.order_eq source]
      exact table_setFrom (h.nodup_labels ht source) (fun _ hentry => hentry) (h source) (h name)
  | clone name source =>
    refine h.update ?_
    have hcopied : ((t.table source).order.map fun label => (label, t.block source label)) =
        (maps source).entries := by
      rw [h.order_eq source, CodeMap.labels, List.map_map]
      refine (List.map_congr_left fun entry hentry => ?_).trans (List.map_id _)
      exact Prod.ext rfl (block_eq (h.nodup_labels ht source) (h source) hentry).2
    rw [BlockTables.apply, hcopied, CodeMap.merge, CodeMap.table_foldl_set]
    rfl

/-- **Both forms of the maps are the same after any operations.** -/
theorem after_agrees (ops : List (MapOperation ι β)) :
    (after ops).Agrees (MapOperation.after ops) := by
  induction ops using List.reverseRecOn with
  | nil => exact fun _ => rfl
  | append_singleton ops op ih =>
    rw [after, MapOperation.after, List.foldl_append, List.foldl_append]
    exact ih.apply (after_replays ops) op

end BlockTables

/-- **A code map keeps its labels and its blocks in step.** Whatever maps are made new, set, merged
with none, with one another or with themselves, and cloned: labels listed on the one hand and blocks
by label on the other hand, kept in step by the settings alone, are the labels and the blocks of the
code map. The labels are distinct and are those that have a block. They are listed by their first
setting, and each has the block of the last one. So the size is the number of labels that have a
block, and looking up the labels, one after the other, finds every block and gives the entries. -/
theorem CodeMap.in_step_with_settings [Inhabited β] (ops : List (MapOperation ι β)) (name : ι) :
    let m := MapOperation.after ops name
    let t := (BlockTables.after ops).table name
    let settings := (BlockTables.after ops).settings name
    (t.order = m.labels ∧ t.blocks = m.get?) ∧
    m.labels.Nodup ∧
    (∀ label, label ∈ m.labels ↔ (m.get? label).isSome) ∧
    m.labels = (settings.map Prod.fst).eraseDups ∧
    (∀ label, m.get? label = settings.reverse.lookup label) ∧
    m.size = {label | (m.get? label).isSome}.ncard ∧
    (m.labels.map fun label => (m.get? label).map (label, ·)) = m.entries.map some := by
  intro m t settings
  have htable : t = m.table := BlockTables.after_agrees ops name
  have hreplay : t = .ofSettings settings := BlockTables.after_replays ops name
  have hnodup : m.labels.Nodup :=
    (BlockTables.after_agrees ops).nodup_labels (BlockTables.after_replays ops) name
  have horder : t.order = m.labels := congrArg BlockTable.order htable
  have hblocks : t.blocks = m.get? := congrArg BlockTable.blocks htable
  refine ⟨⟨horder, hblocks⟩, hnodup, m.mem_labels_iff, ?_, fun label => ?_, ?_,
    labels_map_get? hnodup⟩
  · rw [← horder, hreplay]
    exact BlockTable.order_ofSettings settings
  · rw [← hblocks, hreplay]
    exact BlockTable.blocks_ofSettings settings label
  · have hkeys : {label | (m.get? label).isSome} = (m.labels.toFinset : Set Bytes) := by
      ext label
      simp [← m.mem_labels_iff]
    rw [hkeys, Set.ncard_coe_finset, List.toFinset_card_of_nodup hnodup]
    simp [size, labels]

end

end WasmUdon
