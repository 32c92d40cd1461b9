import WasmUdon.Bytes

/-!
# The bytes of a string

The bytes of strings laid end to end are those of the strings (`text_append`), and they determine
the string (`text_inj`). A byte below 128 stands for the character with its number
(`exists_char_of_mem_text`), so a string without line feeds has none among its bytes
(`notMem_text`). Numbers are written in digits only (`notMem_decimal`).
-/

namespace WasmUdon

theorem text_append (s t : String) : text (s ++ t) = text s ++ text t := by
  simp [text, String.toUTF8]

theorem text_inj {s t : String} (h : text s = text t) : s = t := by
  have hdata : s.toByteArray.data = t.toByteArray.data := Array.toList_inj.1 h
  exact String.toByteArray_inj.1 (ByteArray.ext hdata)

theorem text_eq_flatMap (s : String) : text s = s.toList.flatMap String.utf8EncodeChar := by
  rw [text, String.toUTF8, ← String.utf8Encode_toList, List.utf8Encode, List.data_toByteArray]

/-- A byte below 128 is the whole of its character. -/
theorem toNat_eq_of_mem_utf8EncodeChar {c : Char} {b : UInt8}
    (hmem : b ∈ String.utf8EncodeChar c) (hb : b < 128) : c.toNat = b.toNat := by
  rw [UInt8.lt_iff_toNat_lt] at hb
  change b.toNat < 128 at hb
  change c.val.toNat = b.toNat
  unfold String.utf8EncodeChar at hmem
  dsimp only at hmem
  split at hmem
  · rw [List.mem_singleton] at hmem
    subst hmem
    rw [UInt8.toNat_ofNat']
    omega
  · -- all bytes of a longer form have their high bit set
    exfalso
    split at hmem
    · simp only [List.mem_cons, List.not_mem_nil, or_false] at hmem
      rcases hmem with rfl | rfl <;> rw [UInt8.toNat_ofNat'] at hb <;> omega
    · split at hmem
      · simp only [List.mem_cons, List.not_mem_nil, or_false] at hmem
        rcases hmem with rfl | rfl | rfl <;> rw [UInt8.toNat_ofNat'] at hb <;> omega
      · simp only [List.mem_cons, List.not_mem_nil, or_false] at hmem
        rcases hmem with rfl | rfl | rfl | rfl <;> rw [UInt8.toNat_ofNat'] at hb <;> omega

theorem exists_char_of_mem_text {s : String} {b : UInt8} (hmem : b ∈ text s) (hb : b < 128) :
    ∃ c ∈ s.toList, c.toNat = b.toNat := by
  rw [text_eq_flatMap] at hmem
  obtain ⟨c, hc, hmem⟩ := List.mem_flatMap.1 hmem
  exact ⟨c, hc, toNat_eq_of_mem_utf8EncodeChar hmem hb⟩

/-- A string has a byte below 128 only if it has the character. -/
theorem notMem_text {s : String} {b : UInt8} (hb : b < 128)
    (h : ∀ c ∈ s.toList, c.toNat ≠ b.toNat) : b ∉ text s := by
  intro hmem
  obtain ⟨c, hc, heq⟩ := exists_char_of_mem_text hmem hb
  exact h c hc heq

theorem isDigit_of_mem_repr {n : Nat} {c : Char} (h : c ∈ n.repr.toList) :
    c.isDigit = true := by
  rw [Nat.toList_repr] at h
  exact Nat.isDigit_of_mem_toDigits (by omega) (by omega) h

/-- The decimal digits are the bytes from 48 to 57. -/
theorem notMem_decimal {n : Nat} {b : UInt8} (hb : b < 128) (h : b.toNat < 48 ∨ 57 < b.toNat) :
    b ∉ decimal n := by
  refine notMem_text hb fun c hc heq => ?_
  have hdigit := isDigit_of_mem_repr hc
  simp only [Char.isDigit, Bool.and_eq_true, decide_eq_true_eq] at hdigit
  have hlow : 48 ≤ c.toNat := UInt32.le_iff_toNat_le.1 hdigit.1
  have hhigh : c.toNat ≤ 57 := UInt32.le_iff_toNat_le.1 hdigit.2
  omega

end WasmUdon
