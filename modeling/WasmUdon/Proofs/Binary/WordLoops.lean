import WasmUdon.Proofs.Binary.Written

/-!
# Numbers written by shifting words

A machine writes a number by masking the low seven bits of a word and shifting the word, until
nothing is left of it. `writeWord` does so with an unsigned word, and stops when the shifted word is
zero. `writeSignedWord` does so with a signed word, whose shift keeps the sign: the word that is
left in the end is 0 or -1, and the last group must show the same sign in its bit 6.

Both write the shortest form of the number (`writeWord_eq`, `writeSignedWord_eq`): dividing by 128
rounds down, as the shift does, and the word that is left agrees with bit 6 exactly when the number
lies between -64 and 63. What is written is read back by every width that holds it, whatever
follows (`Read.written_numbers_return`).
-/

namespace WasmUdon

/-! ## Groups of seven bits -/

/-- The low seven bits of an unsigned word. -/
def lowGroup (v : UInt32) : UInt8 := (v &&& 0x7F).toUInt8

/-- The low seven bits of a signed word. -/
def lowSignedGroup (v : Int64) : UInt8 := (v &&& 0x7F).toUInt64.toUInt8

theorem toNat_lowGroup (v : UInt32) : (lowGroup v).toNat = v.toNat % 128 := by
  have hmask : (v &&& 0x7F).toNat = v.toNat % 128 := by
    rw [UInt32.toNat_and]
    exact Nat.and_two_pow_sub_one_eq_mod v.toNat 7
  rw [lowGroup, UInt32.toNat_toUInt8, hmask]
  omega

theorem toNat_lowSignedGroup (v : Int64) : (lowSignedGroup v).toNat = (v.toInt % 128).toNat := by
  have hmask : (v &&& 0x7F).toUInt64.toNat = v.toBitVec.toNat % 128 :=
    Nat.and_two_pow_sub_one_eq_mod v.toBitVec.toNat 7
  have hsign : v.toInt = v.toBitVec.toInt := rfl
  rw [lowSignedGroup, UInt64.toNat_toUInt8, hmask, hsign, BitVec.toInt_eq_toNat_cond]
  split <;> omega

theorem toNat_shiftRight_seven (v : UInt32) : (v >>> 7).toNat = v.toNat / 128 := by
  rw [UInt32.toNat_shiftRight]
  exact Nat.shiftRight_eq_div_pow v.toNat 7

/-- The shift of a signed word rounds down. -/
theorem toInt_shiftRight_seven (v : Int64) : (v >>> 7).toInt = v.toInt / 128 := by
  have hshift : (v >>> 7).toBitVec = v.toBitVec.sshiftRight 7 := Int64.toBitVec_shiftRight v 7
  have hsign : ∀ w : Int64, w.toInt = w.toBitVec.toInt := fun _ => rfl
  rw [hsign, hshift, BitVec.toInt_sshiftRight, ← hsign, Int.shiftRight_eq_div_pow]
  rfl

theorem ofNat_or_highBit : ∀ n < 128, UInt8.ofNat n ||| 0x80 = UInt8.ofNat (n + 128) := by
  decide

theorem ofNat_and_signBit : ∀ n < 128, UInt8.ofNat n &&& 0x40 = 0 ↔ n < 64 := by
  decide

/-! ## The loops -/

/-- Writes an unsigned word by shifting it to zero. -/
def writeWord (v : UInt32) : Bytes :=
  if v >>> 7 = 0 then [lowGroup v] else (lowGroup v ||| 0x80) :: writeWord (v >>> 7)
termination_by v.toNat
decreasing_by
  rename_i hne
  have hrest : (v >>> 7).toNat ≠ 0 := fun h => hne (UInt32.toNat_inj.1 h)
  rw [toNat_shiftRight_seven] at hrest ⊢
  omega

/-- The last group of a signed word: what is left is 0 or -1, as bit 6 of the group says. -/
def IsLastGroup (v : Int64) : Prop :=
  (v >>> 7 = 0 ∧ lowSignedGroup v &&& 0x40 = 0) ∨ (v >>> 7 = -1 ∧ lowSignedGroup v &&& 0x40 ≠ 0)

instance (v : Int64) : Decidable (IsLastGroup v) :=
  inferInstanceAs (Decidable (_ ∨ _))

theorem isLastGroup_iff (v : Int64) : IsLastGroup v ↔ -64 ≤ v.toInt ∧ v.toInt < 64 := by
  have hgroup := toNat_lowSignedGroup v
  have hsign := ofNat_and_signBit (lowSignedGroup v).toNat (by omega)
  have hzero : v >>> 7 = 0 ↔ v.toInt / 128 = 0 := by
    rw [← toInt_shiftRight_seven]
    exact Int64.toInt_inj.symm
  have hminus : v >>> 7 = -1 ↔ v.toInt / 128 = -1 := by
    rw [← toInt_shiftRight_seven]
    exact Int64.toInt_inj.symm
  rw [UInt8.ofNat_toNat] at hsign
  rw [IsLastGroup, Ne, hsign, hzero, hminus]
  omega

/-- Writes a signed word by shifting it until nothing but its sign is left. -/
def writeSignedWord (v : Int64) : Bytes :=
  if IsLastGroup v then [lowSignedGroup v]
  else (lowSignedGroup v ||| 0x80) :: writeSignedWord (v >>> 7)
termination_by v.toInt.natAbs
decreasing_by
  rename_i hmore
  rw [isLastGroup_iff] at hmore
  rw [toInt_shiftRight_seven]
  omega

/-- **Shifting an unsigned word writes the shortest form of its number.** -/
theorem writeWord_eq (v : UInt32) : writeWord v = writeUnsigned v.toNat := by
  fun_induction writeWord v with
  | case1 v hrest =>
    have hlt : v.toNat < 128 := by
      have h := congrArg UInt32.toNat hrest
      rw [toNat_shiftRight_seven, UInt32.toNat_zero] at h
      omega
    rw [writeUnsigned, if_pos hlt, ← UInt8.ofNat_toNat (x := lowGroup v), toNat_lowGroup,
      Nat.mod_eq_of_lt hlt]
  | case2 v hrest ih =>
    have hlt : ¬ v.toNat < 128 := by
      intro h
      refine hrest (UInt32.toNat_inj.1 ?_)
      rw [toNat_shiftRight_seven, UInt32.toNat_zero]
      omega
    have hgroup : lowGroup v ||| 0x80 = UInt8.ofNat (v.toNat % 128 + 128) := by
      rw [← UInt8.ofNat_toNat (x := lowGroup v), toNat_lowGroup]
      exact ofNat_or_highBit _ (Nat.mod_lt _ (by omega))
    rw [writeUnsigned, if_neg hlt, hgroup, ih, toNat_shiftRight_seven]

/-- **Shifting a signed word writes the shortest form of its number.** -/
theorem writeSignedWord_eq (v : Int64) : writeSignedWord v = writeSigned v.toInt := by
  fun_induction writeSignedWord v with
  | case1 v hlast =>
    rw [writeSigned, if_pos ((isLastGroup_iff v).1 hlast),
      ← UInt8.ofNat_toNat (x := lowSignedGroup v), toNat_lowSignedGroup]
  | case2 v hmore ih =>
    have hgroup : lowSignedGroup v ||| 0x80 = UInt8.ofNat ((v.toInt % 128).toNat + 128) := by
      rw [← UInt8.ofNat_toNat (x := lowSignedGroup v), toNat_lowSignedGroup]
      exact ofNat_or_highBit _ (by omega)
    rw [writeSigned, if_neg (mt (isLastGroup_iff v).2 hmore), hgroup, ih, toInt_shiftRight_seven]

/-! ## Reading them back -/

namespace Read

theorem s33_yields {n : Int} (hle : -2 ^ 32 ≤ n) (hlt : n < 2 ^ 32) :
    s33.Yields (writeSigned n) n :=
  (signed_parses 33).yields (isSigned_writeSigned (by omega) hle hlt)

/-- A read takes its bytes and stops at what follows them. -/
theorem Yields.stops {α : Type} {r : Read α} {bs : Bytes} {a : α} (h : r.Yields bs a) (base : Int)
    (consumed : Nat) (suffix : Bytes) :
    r ⟨base, consumed, bs ++ suffix⟩ = .ok a ⟨base, consumed + bs.length, suffix⟩ :=
  h _ _ ⟨rfl, rfl, rfl⟩

/-- **Numbers that are written are read back.** Wherever the bytes of a number stand and whatever
follows them, reading returns the number and stops at what follows: unsigned words of 32 bits,
signed words of 64 and of 32 bits, and the numbers of 33 bits. The bytes are those that masks and
shifts of the words give. -/
theorem written_numbers_return (base : Int) (consumed : Nat) (suffix : Bytes) :
    (∀ v : UInt32, writeWord v = writeUnsigned v.toNat ∧
      u32 ⟨base, consumed, writeWord v ++ suffix⟩ =
        .ok v ⟨base, consumed + (writeWord v).length, suffix⟩) ∧
    (∀ v : Int64, writeSignedWord v = writeSigned v.toInt ∧
      s64 ⟨base, consumed, writeSignedWord v ++ suffix⟩ =
        .ok v ⟨base, consumed + (writeSignedWord v).length, suffix⟩) ∧
    (∀ v : Int32, s32 ⟨base, consumed, writeSignedWord v.toInt64 ++ suffix⟩ =
      .ok v ⟨base, consumed + (writeSignedWord v.toInt64).length, suffix⟩) ∧
    ∀ v : Int64, -2 ^ 32 ≤ v.toInt → v.toInt ≤ 2 ^ 32 - 1 →
      s33 ⟨base, consumed, writeSignedWord v ++ suffix⟩ =
        .ok v.toInt ⟨base, consumed + (writeSignedWord v).length, suffix⟩ := by
  refine ⟨fun v => ⟨writeWord_eq v, ?_⟩, fun v => ⟨writeSignedWord_eq v, ?_⟩, fun v => ?_,
    fun v hle hlt => ?_⟩
  · rw [writeWord_eq]
    exact (u32_yields v).stops base consumed suffix
  · rw [writeSignedWord_eq]
    exact (s64_yields v).stops base consumed suffix
  · rw [writeSignedWord_eq, Int32.toInt_toInt64]
    exact (s32_yields v).stops base consumed suffix
  · rw [writeSignedWord_eq]
    exact (s33_yields hle (by omega)).stops base consumed suffix

/-- The ends of the range of 33 bits, in front of a byte with which a number could go on. -/
theorem written_numbers_return_ends :
    s33 ⟨7, 2, [0x80, 0x80, 0x80, 0x80, 0x70] ++ [0x80]⟩ = .ok (-2 ^ 32) ⟨7, 7, [0x80]⟩ ∧
      s33 ⟨7, 2, [0xFF, 0xFF, 0xFF, 0xFF, 0x0F] ++ [0x80]⟩ = .ok (2 ^ 32 - 1) ⟨7, 7, [0x80]⟩ := by
  have hlow : writeSignedWord (-4294967296) = [0x80, 0x80, 0x80, 0x80, 0x70] := by cbv
  have hhigh : writeSignedWord 4294967295 = [0xFF, 0xFF, 0xFF, 0xFF, 0x0F] := by cbv
  obtain ⟨-, -, -, hread⟩ := written_numbers_return 7 2 [0x80]
  have hfirst := hread (-4294967296) (by decide) (by decide)
  have hlast := hread 4294967295 (by decide) (by decide)
  rw [hlow] at hfirst
  rw [hhigh] at hlast
  exact ⟨hfirst, hlast⟩

end Read

end WasmUdon
