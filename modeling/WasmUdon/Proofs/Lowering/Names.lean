import WasmUdon.Lowering.Names
import WasmUdon.Proofs.Text.Ascii

/-!
# Names are distinct

The name of a variable determines the variable (`Slot.name_inj`). A name is put together from fixed
words, a decimal number and, for a local, the name of a function, which is any byte string: it may
hold the fixed words and digits itself. What keeps names apart is the letter `L`. It is no digit,
so the last `L` in the name of a local stands right in front of its index
(`Slot.name_ofLocal_inj`), and the name of a global has no `L` at all.

The label of a block determines the name of the variable that the block sets up (`initLabel_inj`).
Labels of globals have no `L` either, so they are not the name of any variable
(`Slot.names_distinct`).
-/

namespace WasmUdon

/-! ## Numbers -/

theorem decimal_inj {m n : Nat} (h : decimal m = decimal n) : m = n := by
  have hdigits : Nat.toDigits 10 m = Nat.toDigits 10 n := by
    rw [← Nat.toList_repr, ← Nat.toList_repr, text_inj h]
  rw [← Nat.ofDigitChars_ten_toDigits (n := m), hdigits, Nat.ofDigitChars_ten_toDigits]

theorem letterL_notMem_decimal (n : Nat) : 0x4C ∉ decimal n :=
  notMem_decimal (by decide) (by decide)

/-! ## Variables -/

/-- What comes before the last stop is determined. -/
theorem append_cons_inj_of_notMem_back {α : Type} {stop : α} {as bs xs ys : List α}
    (hxs : stop ∉ xs) (hys : stop ∉ ys) (h : as ++ stop :: xs = bs ++ stop :: ys) :
    as = bs ∧ xs = ys := by
  rcases List.append_eq_append_iff.1 h with ⟨between, rfl, hback⟩ | ⟨between, rfl, hback⟩
  · cases between with
    | nil => exact ⟨(List.append_nil _).symm, (List.cons.inj hback).2⟩
    | cons b between =>
      obtain ⟨-, rfl⟩ := List.cons.inj hback
      exact absurd (List.mem_append_right between List.mem_cons_self) hxs
  · cases between with
    | nil => exact ⟨List.append_nil _, (List.cons.inj hback).2.symm⟩
    | cons b between =>
      obtain ⟨-, rfl⟩ := List.cons.inj hback
      exact absurd (List.mem_append_right between List.mem_cons_self) hys

namespace Slot

/-- The name of a global determines its index. -/
theorem name_ofGlobal_inj {i j : UInt32} (h : (ofGlobal i).name = (ofGlobal j).name) : i = j :=
  UInt32.toNat_inj.1 (decimal_inj (List.append_cancel_left h))

/-- The name of a local has an `L` in front of the index. -/
theorem name_ofLocal (function : Bytes) (index : UInt32) :
    (ofLocal function index).name =
      (text "__" ++ function ++ text "_") ++ 0x4C :: decimal index.toNat := by
  have hword : text "_L" = text "_" ++ [0x4C] := rfl
  rw [name, hword]
  simp only [List.append_assoc, List.singleton_append]

/-- The name of a local determines its function and its index, whatever the name of the function
looks like. -/
theorem name_ofLocal_inj {f g : Bytes} {i j : UInt32}
    (h : (ofLocal f i).name = (ofLocal g j).name) : f = g ∧ i = j := by
  rw [name_ofLocal, name_ofLocal] at h
  obtain ⟨hfront, hindex⟩ := append_cons_inj_of_notMem_back (letterL_notMem_decimal _)
    (letterL_notMem_decimal _) h
  have hfunction : f = g := List.append_cancel_left (List.append_cancel_right hfront)
  exact ⟨hfunction, UInt32.toNat_inj.1 (decimal_inj hindex)⟩

theorem letterL_mem_name_ofLocal (function : Bytes) (index : UInt32) :
    0x4C ∈ (ofLocal function index).name := by
  rw [name_ofLocal]
  exact List.mem_append_right _ List.mem_cons_self

theorem letterL_notMem_name_ofGlobal (index : UInt32) : 0x4C ∉ (ofGlobal index).name := by
  rw [name, List.mem_append, not_or]
  exact ⟨by decide, letterL_notMem_decimal _⟩

/-- **The name of a variable determines the variable.** -/
theorem name_inj {s t : Slot} (h : s.name = t.name) : s = t := by
  cases s with
  | ofLocal f i =>
    cases t with
    | ofLocal g j =>
      obtain ⟨rfl, rfl⟩ := name_ofLocal_inj h
      rfl
    | ofGlobal j =>
      exact absurd (h ▸ letterL_mem_name_ofLocal f i) (letterL_notMem_name_ofGlobal j)
  | ofGlobal i =>
    cases t with
    | ofLocal g j =>
      exact absurd (h ▸ letterL_mem_name_ofLocal g j) (letterL_notMem_name_ofGlobal i)
    | ofGlobal j => rw [name_ofGlobal_inj h]

end Slot

/-! ## Labels -/

/-- The label of a block determines the name of the variable it sets up. -/
theorem initLabel_inj {name name' : Bytes} (h : initLabel name = initLabel name') : name = name' :=
  List.append_cancel_left h

theorem letterL_notMem_initLabel {name : Bytes} (h : 0x4C ∉ name) : 0x4C ∉ initLabel name := by
  rw [initLabel, List.mem_append, not_or]
  exact ⟨by decide, h⟩

/-- Labels and names of globals differ in their third byte. -/
theorem initLabel_ne_name_ofGlobal (name : Bytes) (index : UInt32) :
    initLabel name ≠ (Slot.ofGlobal index).name := by
  intro h
  have hthird : (initLabel name)[2]? = (Slot.ofGlobal index).name[2]? := by rw [h]
  exact absurd hthird (by decide : some (0x49 : UInt8) ≠ some 0x47)

/-- **Variables have distinct names, and blocks have distinct labels that are no names.** Two
variables of a module have the same name only if they are the same, whatever their functions are
called; the blocks of two globals have the same label only if the globals are the same; and the
label of such a block is not the name of any variable, local or global. -/
theorem Slot.names_distinct (s t : Slot) (i j : UInt32) :
    (s.name = t.name ↔ s = t) ∧
      (initLabel (ofGlobal i).name = initLabel (ofGlobal j).name ↔ i = j) ∧
      initLabel (ofGlobal i).name ≠ t.name := by
  refine ⟨⟨name_inj, fun h => h ▸ rfl⟩, ⟨fun h => ?_, fun h => h ▸ rfl⟩, ?_⟩
  · exact name_ofGlobal_inj (initLabel_inj h)
  · have hlabel := letterL_notMem_initLabel (letterL_notMem_name_ofGlobal i)
    cases t with
    | ofLocal f j => exact fun h => hlabel (h ▸ letterL_mem_name_ofLocal f j)
    | ofGlobal j => exact initLabel_ne_name_ofGlobal _ j

end WasmUdon
