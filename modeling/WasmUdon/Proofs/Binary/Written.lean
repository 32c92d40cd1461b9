import WasmUdon.Proofs.Binary.Signed

/-!
# Written numbers are read back

`Read.Yields r bs a` says that `r` takes the bytes `bs` and returns `a`, wherever they stand and
whatever follows. Like what a read accepts, this passes from the parts of a read to the whole
(`Yields.bind`).

The shortest forms that `writeUnsigned` and `writeSigned` give are written forms
(`isUnsigned_writeUnsigned`, `isSigned_writeSigned`), so reading gives the number back.
-/

namespace WasmUdon

namespace Read

variable {α β : Type} {r : Read α} {f : α → Read β}

/-- The read takes the bytes and returns the value, wherever the bytes stand. -/
def Yields (r : Read α) (bs : Bytes) (a : α) : Prop :=
  ∀ c c' : Cursor, c.Takes bs c' → r c = .ok a c'

/-- A read returns what it relates to bytes. -/
theorem Parses.yields {G : Bytes → α → Prop} (h : r.Parses G) {bs : Bytes} {a : α} (ha : G bs a) :
    r.Yields bs a := by
  intro c c' hc
  exact (h c a c').2 ⟨bs, hc, ha⟩

/-- A read returns from bytes exactly what it relates to them. -/
theorem Parses.yields_iff {G : Bytes → α → Prop} (h : r.Parses G) {bs : Bytes} {a : α} :
    r.Yields bs a ↔ G bs a := by
  refine ⟨fun hr => ?_, h.yields⟩
  have hbs : (Cursor.ofBytes bs 0).Takes bs ⟨0, bs.length, []⟩ :=
    ⟨rfl, (List.append_nil bs).symm, (Nat.zero_add _).symm⟩
  exact h.of_takes (hr _ _ hbs) hbs

theorem Yields.pure (a : α) : Yields (Pure.pure a) [] a := (Parses.pure a).yields ⟨rfl, rfl⟩

theorem Yields.bind {s t : Bytes} {a : α} {b : β} (hr : r.Yields s a) (hf : (f a).Yields t b) :
    (r >>= f).Yields (s ++ t) b := by
  intro c c' hc
  obtain ⟨c₁, hs, ht⟩ := hc.split
  exact bind_eq_ok_iff.2 ⟨a, c₁, hr c c₁ hs, hf c₁ c' ht⟩

/-- A read whose value is packed up. -/
theorem Yields.map {bs : Bytes} {a : α} (hr : r.Yields bs a) (g : α → β) :
    (r >>= fun a => Pure.pure (g a)).Yields bs (g a) := by
  have h := hr.bind (f := fun a => Pure.pure (g a)) (.pure (g a))
  rwa [List.append_nil] at h

theorem byte_yields (b : UInt8) : byte.Yields [b] b := byte_parses.yields rfl

theorem bytes_yields (bs : Bytes) : (bytes bs.length).Yields bs bs :=
  (bytes_parses bs.length).yields ⟨rfl, rfl⟩

end Read

/-! ## Unsigned numbers -/

theorem toNat_ofNat_group {n : Nat} (h : n < 256) : (UInt8.ofNat n).toNat = n :=
  UInt8.toNat_ofNat_of_lt' h

theorem isGroups_writeUnsigned (n : Nat) : IsGroups (writeUnsigned n) := by
  fun_induction writeUnsigned n with
  | case1 n hn =>
    rw [isGroups_singleton, UInt8.lt_iff_toNat_lt, toNat_ofNat_group (by omega)]
    exact hn
  | case2 n hn ih =>
    rw [isGroups_cons ih.ne_nil, UInt8.le_iff_toNat_le, toNat_ofNat_group (by omega)]
    exact ⟨by simp, ih⟩

theorem groupValue_writeUnsigned (n : Nat) : groupValue (writeUnsigned n) = n := by
  fun_induction writeUnsigned n with
  | case1 n hn =>
    rw [groupValue, groupValue, toNat_ofNat_group (by omega)]
    omega
  | case2 n hn ih =>
    rw [groupValue, ih, toNat_ofNat_group (by omega)]
    omega

/-- A number below a power of 128 has no more groups than the exponent. -/
theorem length_writeUnsigned_le {n k : Nat} (h : n < 128 ^ (k + 1)) :
    (writeUnsigned n).length ≤ k + 1 := by
  induction k generalizing n with
  | zero =>
    rw [writeUnsigned, if_pos (by simpa using h)]
    simp
  | succ k ih =>
    rw [writeUnsigned]
    split
    · simp
    · have hdiv : n / 128 < 128 ^ (k + 1) := by
        rw [Nat.div_lt_iff_lt_mul (by omega), ← pow_succ]
        exact h
      have := ih hdiv
      rw [List.length_cons]
      omega

/-- **The shortest form of a number is a written form of it**, for every width that holds it. -/
theorem isUnsigned_writeUnsigned {bits n : Nat} (hbits : 0 < bits) (h : n < 2 ^ bits) :
    IsUnsigned bits n (writeUnsigned n) := by
  refine ⟨isGroups_writeUnsigned n, ?_, groupValue_writeUnsigned n, h⟩
  obtain ⟨k, hk⟩ : ∃ k, (bits + 6) / 7 = k + 1 := ⟨(bits + 6) / 7 - 1, by omega⟩
  have hpow : 2 ^ bits ≤ 128 ^ (k + 1) := by
    rw [show 128 = 2 ^ 7 from rfl, ← pow_mul]
    exact Nat.pow_le_pow_right (by omega) (by omega)
  rw [hk]
  exact length_writeUnsigned_le (Nat.lt_of_lt_of_le h hpow)

theorem isUnsigned_write_u32 (n : UInt32) : IsUnsigned 32 n.toNat (writeUnsigned n.toNat) :=
  isUnsigned_writeUnsigned (by omega) n.toNat_lt

/-! ## Signed numbers -/

theorem isGroups_writeSigned (n : Int) : IsGroups (writeSigned n) := by
  fun_induction writeSigned n with
  | case1 n hn =>
    rw [isGroups_singleton, UInt8.lt_iff_toNat_lt, toNat_ofNat_group (by omega)]
    have : (n % 128).toNat < 128 := by omega
    exact this
  | case2 n hn ih =>
    rw [isGroups_cons ih.ne_nil, UInt8.le_iff_toNat_le, toNat_ofNat_group (by omega)]
    exact ⟨by simp, ih⟩

theorem signedValue_writeSigned (n : Int) : signedValue (writeSigned n) = n := by
  fun_induction writeSigned n with
  | case1 n hn =>
    rw [signedValue, signedGroup, toNat_ofNat_group (by omega)]
    split <;> omega
  | case2 n hn ih =>
    rw [signedValue_cons (isGroups_writeSigned _).ne_nil, ih, toNat_ofNat_group (by omega)]
    omega

/-- A number between two powers of 128, with a bit left for the sign, has no more groups than the
exponent. -/
theorem length_writeSigned_le {n : Int} {k : Nat} (hle : -(64 * 128 ^ k) ≤ n)
    (hlt : n < 64 * 128 ^ k) : (writeSigned n).length ≤ k + 1 := by
  induction k generalizing n with
  | zero =>
    rw [writeSigned, if_pos (by omega)]
    simp
  | succ k ih =>
    rw [writeSigned]
    split
    · simp
    · rw [pow_succ] at hle hlt
      have := ih (n := n / 128) (by omega) (by omega)
      rw [List.length_cons]
      omega

/-- **The shortest form of a signed number is a written form of it**, for every width that holds
it. -/
theorem isSigned_writeSigned {bits : Nat} {n : Int} (hbits : 0 < bits) (hle : -2 ^ (bits - 1) ≤ n)
    (hlt : n < 2 ^ (bits - 1)) : IsSigned bits n (writeSigned n) := by
  refine ⟨isGroups_writeSigned n, ?_, signedValue_writeSigned n, hle, hlt⟩
  obtain ⟨k, hk⟩ : ∃ k, (bits + 6) / 7 = k + 1 := ⟨(bits + 6) / 7 - 1, by omega⟩
  have hnat : 2 ^ (bits - 1) ≤ 64 * 128 ^ k := by
    rw [show 64 = 2 ^ 6 from rfl, show 128 = 2 ^ 7 from rfl, ← pow_mul, ← pow_add]
    exact Nat.pow_le_pow_right (by omega) (by omega)
  have hpow : (2 : Int) ^ (bits - 1) ≤ 64 * 128 ^ k := by exact_mod_cast hnat
  rw [hk]
  exact length_writeSigned_le (by omega) (by omega)

/-! ## Reading them back -/

namespace Read

theorem u32_yields (n : UInt32) : u32.Yields (writeUnsigned n.toNat) n :=
  u32_parses.yields (isUnsigned_write_u32 n)

theorem s32_yields (n : Int32) : s32.Yields (writeSigned n.toInt) n :=
  s32_parses.yields (isSigned_writeSigned (by omega) n.le_toInt n.toInt_lt)

theorem s64_yields (n : Int64) : s64.Yields (writeSigned n.toInt) n := by
  have h : IsSigned 64 n.toInt (writeSigned n.toInt) :=
    isSigned_writeSigned (by omega) n.le_toInt n.toInt_lt
  refine s64_parses.yields ⟨h.groups, h.length_le, ?_⟩
  rw [h.value, Int64.ofInt_toInt]

theorem u32le_yields (n : UInt32) : u32le.Yields (toLittleEndian 4 n.toNat) n := by
  have hbytes := bytes_yields (toLittleEndian 4 n.toNat)
  rw [length_toLittleEndian] at hbytes
  have hword : UInt32.ofNat (ofLittleEndian (toLittleEndian 4 n.toNat)) = n := by
    rw [ofLittleEndian_toLittleEndian, Nat.mod_eq_of_lt n.toNat_lt, UInt32.ofNat_toNat]
  have h := hbytes.map fun bs => UInt32.ofNat (ofLittleEndian bs)
  rwa [hword] at h

theorem u64le_yields (n : UInt64) : u64le.Yields (toLittleEndian 8 n.toNat) n := by
  have hbytes := bytes_yields (toLittleEndian 8 n.toNat)
  rw [length_toLittleEndian] at hbytes
  have hword : UInt64.ofNat (ofLittleEndian (toLittleEndian 8 n.toNat)) = n := by
    rw [ofLittleEndian_toLittleEndian, Nat.mod_eq_of_lt n.toNat_lt, UInt64.ofNat_toNat]
  have h := hbytes.map fun bs => UInt64.ofNat (ofLittleEndian bs)
  rwa [hword] at h

end Read

end WasmUdon
