import Mathlib.Data.List.Induction
import Mathlib.Data.List.Nodup
import WasmUdon.Assembly.CodeMap

/-!
# The entries of code maps

Setting a label adds no entry but its own (`CodeMap.mem_setEntry`), so a merged map has the entries
of its parts only (`CodeMap.mem_merge`). Labels that are new and distinct are listed in the order
in which they are set (`CodeMap.entries_foldl_set`), and distinct labels find their entries
(`CodeMap.get?_of_mem`).

A merged map lists the labels of its parts by their first occurrence (`CodeMap.labels_merge`), and a
label has the block of the later part (`CodeMap.get?_merge`). Merging is associative
(`CodeMap.merge_assoc`): a block that is set last is set last however the parts are grouped.
-/

namespace WasmUdon

namespace CodeMap

variable {β : Type} {label : Bytes} {block : β} {entry : Bytes × β} {entries : List (Bytes × β)}
  {m other : CodeMap β}

theorem mem_setEntry (h : entry ∈ setEntry label block entries) :
    entry = (label, block) ∨ entry ∈ entries := by
  induction entries with
  | nil => exact .inl (List.mem_singleton.1 h)
  | cons first entries ih =>
    rw [setEntry] at h
    split at h
    · rcases List.mem_cons.1 h with h | h
      · exact .inl h
      · exact .inr (List.mem_cons_of_mem _ h)
    · rcases List.mem_cons.1 h with rfl | h
      · exact .inr List.mem_cons_self
      · exact (ih h).imp_right (List.mem_cons_of_mem _)

theorem mem_merge (h : entry ∈ (m.merge other).entries) :
    entry ∈ m.entries ∨ entry ∈ other.entries := by
  rw [merge] at h
  generalize other.entries = entries at h ⊢
  induction entries generalizing m with
  | nil => exact .inl h
  | cons first entries ih =>
    rcases ih h with h | h
    · rcases mem_setEntry h with rfl | h
      · exact .inr List.mem_cons_self
      · exact .inl h
    · exact .inr (List.mem_cons_of_mem _ h)

theorem setEntry_of_notMem (h : label ∉ entries.map Prod.fst) :
    setEntry label block entries = entries ++ [(label, block)] := by
  induction entries with
  | nil => rfl
  | cons entry entries ih =>
    rw [List.map_cons, List.mem_cons, not_or] at h
    rw [setEntry, if_neg (Ne.symm h.1), ih h.2, List.cons_append]

/-- If the labels are distinct, each entry is found under its label. -/
theorem get?_of_mem (h : m.labels.Nodup) (hm : (label, block) ∈ m.entries) :
    m.get? label = some block := by
  obtain ⟨entries⟩ := m
  change (entries.map Prod.fst).Nodup at h
  change entries.lookup label = some block
  induction entries with
  | nil => cases hm
  | cons entry entries ih =>
    rw [List.map_cons, List.nodup_cons] at h
    rcases List.mem_cons.1 hm with rfl | hm
    · exact List.lookup_cons_self
    · have hne : label ≠ entry.1 := by
        rintro rfl
        exact h.1 (List.mem_map.2 ⟨_, hm, rfl⟩)
      rw [List.lookup_cons, beq_false_of_ne hne]
      exact ih hm h.2

/-- Setting distinct new labels lists them in order. -/
theorem entries_foldl_set (h : (m.labels ++ entries.map Prod.fst).Nodup) :
    (entries.foldl (fun m entry => m.set entry.1 entry.2) m).entries = m.entries ++ entries := by
  induction entries generalizing m with
  | nil => exact (List.append_nil _).symm
  | cons entry entries ih =>
    have hset : (m.set entry.1 entry.2).entries = m.entries ++ [entry] := by
      refine setEntry_of_notMem fun hmem => ?_
      exact List.disjoint_of_nodup_append h hmem List.mem_cons_self
    rw [List.foldl_cons, ih, hset, List.append_assoc, List.singleton_append]
    rw [labels, hset, List.map_append, List.append_assoc]
    exact h

/-! ## Merging -/

theorem set_set_self (m : CodeMap β) (label : Bytes) (old block : β) :
    (m.set label old).set label block = m.set label block := by
  obtain ⟨entries⟩ := m
  refine congrArg mk ?_
  change setEntry label block (setEntry label old entries) = setEntry label block entries
  induction entries with
  | nil => simp [setEntry]
  | cons entry entries ih =>
    by_cases h : entry.1 = label
    · simp [setEntry, h]
    · simp [setEntry, h, ih]

/-- A label that is there keeps its place, so it may as well be set before another one. -/
theorem set_comm_of_mem {other : Bytes} (hmem : label ∈ m.labels) (hne : other ≠ label)
    (block block' : β) :
    (m.set other block').set label block = (m.set label block).set other block' := by
  obtain ⟨entries⟩ := m
  change label ∈ entries.map Prod.fst at hmem
  refine congrArg mk ?_
  change setEntry label block (setEntry other block' entries) =
    setEntry other block' (setEntry label block entries)
  induction entries with
  | nil => cases hmem
  | cons entry entries ih =>
    by_cases h : entry.1 = label
    · have hentry : entry.1 ≠ other := fun he => hne (he.symm.trans h)
      simp [setEntry, h, Ne.symm hne]
    · have hrest : label ∈ entries.map Prod.fst := by
        simpa [Ne.symm h] using hmem
      by_cases ho : entry.1 = other
      · simp [setEntry, ho, hne]
      · simp [setEntry, ho, h, ih hrest]

theorem mem_labels_set {other : Bytes} (h : label ∈ m.labels) (block : β) :
    label ∈ (m.set other block).labels := by
  rw [labels_set]
  split
  · exact h
  · exact List.mem_append_left _ h

theorem nodup_labels_set (h : m.labels.Nodup) (label : Bytes) (block : β) :
    (m.set label block).labels.Nodup := by
  rw [labels_set]
  split
  · exact h
  · rename_i hnew
    exact h.append (List.nodup_singleton label) (List.disjoint_singleton.2 hnew)

@[simp]
theorem merge_empty (m : CodeMap β) : m.merge {} = m := rfl

theorem merge_cons (m : CodeMap β) (entry : Bytes × β) (entries : List (Bytes × β)) :
    m.merge { entries := entry :: entries } = (m.set entry.1 entry.2).merge { entries } := rfl

theorem nodup_labels_merge (h : m.labels.Nodup) (other : CodeMap β) :
    (m.merge other).labels.Nodup := by
  obtain ⟨entries⟩ := other
  induction entries generalizing m with
  | nil => exact h
  | cons entry entries ih =>
    rw [merge_cons]
    exact ih (nodup_labels_set h _ _)

/-- Setting a label that is there commutes with merging a map that does not have it. -/
theorem merge_set_of_notMem (hmem : label ∈ m.labels) (hother : label ∉ other.labels)
    (block : β) : (m.merge other).set label block = (m.set label block).merge other := by
  obtain ⟨entries⟩ := other
  induction entries generalizing m with
  | nil => rfl
  | cons entry entries ih =>
    have hsplit : label ≠ entry.1 ∧ label ∉ entries.map Prod.fst := by
      simpa [labels] using hother
    rw [merge_cons, merge_cons, ih (mem_labels_set hmem _) hsplit.2,
      set_comm_of_mem hmem (Ne.symm hsplit.1)]

/-- What is set last in a part is set last in the whole. -/
theorem merge_set (m : CodeMap β) (h : other.labels.Nodup) (label : Bytes) (block : β) :
    m.merge (other.set label block) = (m.merge other).set label block := by
  obtain ⟨entries⟩ := other
  induction entries generalizing m with
  | nil => rfl
  | cons entry entries ih =>
    have hsplit : entry.1 ∉ entries.map Prod.fst ∧ (entries.map Prod.fst).Nodup :=
      List.nodup_cons.1 h
    by_cases he : entry.1 = label
    · subst he
      have hset : (CodeMap.mk (entry :: entries)).set entry.1 block =
          { entries := (entry.1, block) :: entries } := by
        simp [set, setEntry]
      have hmem : entry.1 ∈ (m.set entry.1 entry.2).labels := by
        rw [labels_set]
        split
        · assumption
        · simp
      rw [hset, merge_cons, merge_cons, merge_set_of_notMem hmem hsplit.1, set_set_self]
    · have hset : (CodeMap.mk (entry :: entries)).set label block =
          { entries := entry :: (CodeMap.mk entries |>.set label block).entries } := by
        simp [set, setEntry, he]
      rw [hset, merge_cons, merge_cons]
      exact ih _ hsplit.2

/-- **Merging is associative.** -/
theorem merge_assoc (m : CodeMap β) (h : other.labels.Nodup) (third : CodeMap β) :
    (m.merge other).merge third = m.merge (other.merge third) := by
  obtain ⟨entries⟩ := third
  induction entries generalizing other with
  | nil => rfl
  | cons entry entries ih =>
    rw [merge_cons, merge_cons, ← merge_set m h]
    exact ih (nodup_labels_set h _ _)

/-- A new label comes last. -/
def appendNew (labels : List Bytes) (label : Bytes) : List Bytes :=
  if label ∈ labels then labels else labels ++ [label]

/-- Labels added one after the other are listed by their first occurrence. -/
theorem foldl_appendNew (labels : List Bytes) : labels.foldl appendNew [] = labels.eraseDups := by
  induction labels using List.reverseRecOn with
  | nil => rfl
  | append_singleton labels label ih =>
    rw [List.foldl_append, ih, List.eraseDups_append, List.foldl_cons, List.foldl_nil, appendNew,
      List.removeAll]
    by_cases h : label ∈ labels
    · simp [h]
    · simp [h, List.eraseDups_cons]

theorem labels_merge (m other : CodeMap β) :
    (m.merge other).labels = other.labels.foldl appendNew m.labels := by
  obtain ⟨entries⟩ := other
  induction entries generalizing m with
  | nil => rfl
  | cons entry entries ih =>
    rw [merge_cons, ih, labels_set]
    rfl

/-- A label of the second map has its block there. -/
theorem get?_merge (m : CodeMap β) (h : other.labels.Nodup) (label : Bytes) :
    (m.merge other).get? label = (other.get? label).or (m.get? label) := by
  obtain ⟨entries⟩ := other
  induction entries generalizing m with
  | nil => rfl
  | cons entry entries ih =>
    obtain ⟨name, block⟩ := entry
    have hsplit : name ∉ entries.map Prod.fst ∧ (entries.map Prod.fst).Nodup :=
      List.nodup_cons.1 h
    rw [merge_cons, ih _ hsplit.2]
    by_cases he : label = name
    · subst he
      have hnone : (CodeMap.mk entries).get? label = none :=
        List.lookup_eq_none_iff.2 fun entry hentry => by
          have hmem : entry.1 ∈ entries.map Prod.fst := List.mem_map_of_mem hentry
          exact bne_iff_ne.2 fun he => hsplit.1 (he ▸ hmem)
      rw [hnone, get?_set_self]
      simp only [get?, List.lookup_cons_self, Option.none_or, Option.some_or]
    · have hfalse : (label == name) = false := beq_false_of_ne he
      rw [get?_set_of_ne _ he]
      simp only [get?, List.lookup_cons, hfalse]

end CodeMap

end WasmUdon
