import WasmUdon.Bytes

/-!
# Code maps

A code map assigns blocks to labels and lists the labels in the order in which they were first set.
Setting a label again replaces its block and keeps its place. What stands for a block is left open:
a program holds the blocks themselves, a workspace holds references to them.
-/

namespace WasmUdon

/-- A map from labels to blocks, in the order of first insertion. -/
structure CodeMap (β : Type) where
  entries : List (Bytes × β) := []
  deriving DecidableEq, Repr

namespace CodeMap

variable {β γ : Type}

/-- Replaces the entry of a label, or adds one at the end. -/
def setEntry (label : Bytes) (block : β) : List (Bytes × β) → List (Bytes × β)
  | [] => [(label, block)]
  | entry :: entries =>
    if entry.1 = label then (label, block) :: entries else entry :: setEntry label block entries

/-- Sets the block of a label. -/
def set (m : CodeMap β) (label : Bytes) (block : β) : CodeMap β :=
  { entries := setEntry label block m.entries }

/-- The block of a label. -/
def get? (m : CodeMap β) (label : Bytes) : Option β := m.entries.lookup label

/-- The labels in the order of first insertion. -/
def labels (m : CodeMap β) : List Bytes := m.entries.map Prod.fst

/-- The number of labels. -/
def size (m : CodeMap β) : Nat := m.entries.length

/-- Sets every block of another map, in its order. -/
def merge (m other : CodeMap β) : CodeMap β :=
  other.entries.foldl (fun m entry => m.set entry.1 entry.2) m

/-- The map with every block replaced by its image. -/
def map (f : β → γ) (m : CodeMap β) : CodeMap γ :=
  { entries := m.entries.map fun entry => (entry.1, f entry.2) }

/-- The map of labelled blocks, set one after the other. -/
def ofList (entries : List (Bytes × β)) : CodeMap β :=
  entries.foldl (fun m entry => m.set entry.1 entry.2) {}

/-! ## What setting a label does -/

theorem lookup_setEntry_self (label : Bytes) (block : β) (entries : List (Bytes × β)) :
    (setEntry label block entries).lookup label = some block := by
  induction entries with
  | nil => simp [setEntry]
  | cons entry entries ih =>
    obtain ⟨name, old⟩ := entry
    by_cases h : name = label
    · simp [setEntry, h]
    · have hne : (label == name) = false := beq_false_of_ne fun he => h he.symm
      simp only [setEntry, h, if_false, List.lookup_cons, hne]
      exact ih

theorem lookup_setEntry_of_ne {label other : Bytes} (h : other ≠ label) (block : β)
    (entries : List (Bytes × β)) :
    (setEntry label block entries).lookup other = entries.lookup other := by
  have hne : (other == label) = false := beq_false_of_ne h
  induction entries with
  | nil => simp only [setEntry, List.lookup_cons, List.lookup_nil, hne]
  | cons entry entries ih =>
    obtain ⟨name, old⟩ := entry
    by_cases he : name = label
    · simp only [setEntry, he, if_true, List.lookup_cons, hne]
    · simp only [setEntry, he, if_false, List.lookup_cons, ih]

theorem labels_setEntry (label : Bytes) (block : β) (entries : List (Bytes × β)) :
    (setEntry label block entries).map Prod.fst =
      if label ∈ entries.map Prod.fst then entries.map Prod.fst
      else entries.map Prod.fst ++ [label] := by
  induction entries with
  | nil => rfl
  | cons entry entries ih =>
    by_cases h : entry.1 = label
    · simp [setEntry, h]
    · have hne : label ≠ entry.1 := fun he => h he.symm
      rw [setEntry, if_neg h, List.map_cons, ih]
      by_cases hm : label ∈ entries.map Prod.fst
      · simp [hm]
      · simp [hm, hne]

/-- A label that was set has the block it was set to. -/
theorem get?_set_self (m : CodeMap β) (label : Bytes) (block : β) :
    (m.set label block).get? label = some block :=
  lookup_setEntry_self label block m.entries

/-- Setting a label leaves the blocks of all others. -/
theorem get?_set_of_ne (m : CodeMap β) {label other : Bytes} (h : other ≠ label) (block : β) :
    (m.set label block).get? other = m.get? other :=
  lookup_setEntry_of_ne h block m.entries

/-- A new label comes last, and a label that is there keeps its place. -/
theorem labels_set (m : CodeMap β) (label : Bytes) (block : β) :
    (m.set label block).labels =
      if label ∈ m.labels then m.labels else m.labels ++ [label] :=
  labels_setEntry label block m.entries

end CodeMap

end WasmUdon
