import Mathlib.Tactic.Ring
import WasmUdon.Binary.Leb128
import WasmUdon.Proofs.Binary.Reading

/-!
# The written forms of unsigned numbers and names

An unsigned number has many written forms: groups of seven bits, the lowest first, of which the
highest may be empty (`IsUnsigned`). Reading a number accepts exactly these forms
(`Read.u32_parses`, `Read.u64_parses`). A name is its size and its UTF-8 bytes (`Read.name_parses`).

The reader masks bits of the bytes, and looks for bits beyond the width in the last byte allowed
only. `Read.boundedFrom` compares the value of every group with the width instead, which can be said
for all widths alike. The two are the same reader (`Read.unsignedFrom_eq_boundedFrom`), since a group
in front of the last one never reaches beyond the width.
-/

namespace WasmUdon

/-- The number that groups of seven bits stand for, the lowest first. -/
def groupValue : Bytes → Nat
  | [] => 0
  | b :: rest => b.toNat % 128 + 128 * groupValue rest

/-- Groups of seven bits: the last byte has no high bit, and all others have it. -/
def IsGroups : Bytes → Prop
  | [] => False
  | [b] => b < 128
  | b :: b' :: rest => 128 ≤ b ∧ IsGroups (b' :: rest)

/-- The bytes `bs` are a written form of the number `n` of `bits` bits. -/
structure IsUnsigned (bits n : Nat) (bs : Bytes) : Prop where
  groups : IsGroups bs
  length_le : bs.length ≤ (bits + 6) / 7
  value : groupValue bs = n
  lt : n < 2 ^ bits

instance decidableIsGroups : (bs : Bytes) → Decidable (IsGroups bs)
  | [] => .isFalse id
  | [b] => inferInstanceAs (Decidable (b < 128))
  | b :: b' :: rest =>
    have := decidableIsGroups (b' :: rest)
    inferInstanceAs (Decidable (128 ≤ b ∧ IsGroups (b' :: rest)))

instance (bits n : Nat) (bs : Bytes) : Decidable (IsUnsigned bits n bs) :=
  decidable_of_iff
    (IsGroups bs ∧ bs.length ≤ (bits + 6) / 7 ∧ groupValue bs = n ∧ n < 2 ^ bits)
    ⟨fun ⟨h₁, h₂, h₃, h₄⟩ => ⟨h₁, h₂, h₃, h₄⟩, fun ⟨h₁, h₂, h₃, h₄⟩ => ⟨h₁, h₂, h₃, h₄⟩⟩

/-- Bytes of a given number are determined by the word they stand for. -/
theorem eq_of_ofLittleEndian_eq : ∀ {bs bs' : Bytes}, bs.length = bs'.length →
    ofLittleEndian bs = ofLittleEndian bs' → bs = bs'
  | [], [], _, _ => rfl
  | b :: bs, b' :: bs', hlen, h => by
    simp only [ofLittleEndian] at h
    have hb := b.toNat_lt
    have hb' := b'.toNat_lt
    have h₁ : b = b' := UInt8.toNat_inj.1 (by omega)
    have h₂ : bs = bs' := eq_of_ofLittleEndian_eq (Nat.succ.inj hlen) (by omega)
    rw [h₁, h₂]

theorem isGroups_singleton {b : UInt8} : IsGroups [b] ↔ b < 128 := Iff.rfl

theorem IsGroups.ne_nil {bs : Bytes} (h : IsGroups bs) : bs ≠ [] := by
  rintro rfl
  exact h

theorem isGroups_cons {b : UInt8} {bs : Bytes} (h : bs ≠ []) :
    IsGroups (b :: bs) ↔ 128 ≤ b ∧ IsGroups bs := by
  cases bs with
  | nil => exact absurd rfl h
  | cons b' rest => exact Iff.rfl

/-! ## Bits of a byte -/

theorem toNat_and_lowBits (b : UInt8) : (b &&& 0x7F).toNat = b.toNat % 128 := by
  rw [UInt8.toNat_and]
  exact Nat.and_two_pow_sub_one_eq_mod b.toNat 7

/-- What holds of the bytes one by one holds of every byte. -/
theorem forall_byte {P : UInt8 → Prop} (h : ∀ n < 256, P (UInt8.ofNat n)) (b : UInt8) : P b := by
  simpa only [UInt8.ofNat_toNat] using h b.toNat b.toNat_lt

theorem and_highBit_eq_zero_iff (b : UInt8) : b &&& 0x80 = 0 ↔ b < 128 := by
  revert b
  exact forall_byte (by decide +kernel)

theorem and_excess32_ne_zero_iff (b : UInt8) : b &&& 0x70 ≠ 0 ↔ 2 ^ 4 ≤ b.toNat % 128 := by
  revert b
  exact forall_byte (by decide +kernel)

theorem and_excess64_ne_zero_iff (b : UInt8) : b &&& 0x7E ≠ 0 ↔ 2 ^ 1 ≤ b.toNat % 128 := by
  revert b
  exact forall_byte (by decide +kernel)

namespace Read

/-! ## Groups compared with the width -/

/-- The rest of an unsigned number, in which no group may reach beyond the width. -/
def boundedFrom (bits : Nat) : (fuel shift acc : Nat) → Read Nat
  | 0, _, _ => overflow
  | fuel + 1, shift, acc => do
    let b ← byte
    let group := (b.toNat % 128) <<< shift
    if 1 <<< bits ≤ group then overflow
    else if b < 128 then return acc + group
    else boundedFrom bits fuel (shift + 7) (acc + group)

/-- A group in front of the last one stays below the width, and the last one does so unless it has a
bit too many. -/
theorem excess_iff {bits last shift : Nat} {excess b : UInt8} (hlast : last ≤ bits)
    (hexcess : b &&& excess ≠ 0 ↔ 2 ^ (bits - last) ≤ b.toNat % 128)
    (hshift : shift = last ∨ shift + 7 ≤ last) :
    (shift = last ∧ b &&& excess ≠ 0) ↔ 1 <<< bits ≤ (b.toNat % 128) <<< shift := by
  rw [Nat.shiftLeft_eq, Nat.shiftLeft_eq, Nat.one_mul]
  rcases hshift with rfl | hshift
  · have hbits : 2 ^ bits = 2 ^ (bits - shift) * 2 ^ shift := by
      rw [← pow_add, Nat.sub_add_cancel hlast]
    rw [hexcess, hbits, Nat.mul_le_mul_right_iff (Nat.two_pow_pos shift)]
    exact and_iff_right rfl
  · have hgroup : b.toNat % 128 * 2 ^ shift < 2 ^ 7 * 2 ^ shift :=
      Nat.mul_lt_mul_of_pos_right (Nat.mod_lt _ (by omega)) (Nat.two_pow_pos shift)
    have hbits : 2 ^ 7 * 2 ^ shift ≤ 2 ^ bits := by
      rw [← pow_add]
      exact Nat.pow_le_pow_right (by omega) (by omega)
    refine iff_of_false (fun h => ?_) (by omega)
    omega

/-- Groups do not overlap, so setting the bits of the next one adds its value. -/
theorem or_group {acc shift : Nat} (hacc : acc < 2 ^ shift) (group : Nat) :
    acc ||| group <<< shift = acc + group <<< shift := by
  rw [Nat.shiftLeft_eq, Nat.mul_comm, Nat.or_comm, ← Nat.two_pow_add_eq_or_of_lt hacc, Nat.add_comm]

/-- **Looking for excess bits in the last byte is comparing every group with the width.** -/
theorem unsignedFrom_eq_boundedFrom {bits last : Nat} {excess : UInt8} (hlast : last ≤ bits)
    (hexcess : ∀ b : UInt8, b &&& excess ≠ 0 ↔ 2 ^ (bits - last) ≤ b.toNat % 128)
    {fuel shift acc : Nat} (hfuel : shift + 7 * fuel = last + 7) (hacc : acc < 2 ^ shift) :
    unsignedFrom last excess fuel shift acc = boundedFrom bits fuel shift acc := by
  induction fuel generalizing shift acc with
  | zero => rfl
  | succ fuel ih =>
    rw [unsignedFrom, boundedFrom]
    congr 1
    funext b
    have hshift : shift = last ∨ shift + 7 ≤ last := by omega
    simp only [excess_iff hlast (hexcess b) hshift, toNat_and_lowBits, or_group hacc,
      and_highBit_eq_zero_iff]
    split
    · rfl
    · split
      · rfl
      · refine ih (by omega) ?_
        have hgroup : (b.toNat % 128 + 1) * 2 ^ shift ≤ 128 * 2 ^ shift :=
          Nat.mul_le_mul_right _ (Nat.mod_lt _ (by omega))
        rw [Nat.add_mul, Nat.one_mul] at hgroup
        rw [Nat.shiftLeft_eq, pow_add]
        omega

theorem unsigned32_eq : unsigned32 = boundedFrom 32 (lebBytes 32) 0 0 :=
  unsignedFrom_eq_boundedFrom (by omega) and_excess32_ne_zero_iff rfl (by decide)

theorem unsigned64_eq : unsigned64 = boundedFrom 64 (lebBytes 64) 0 0 :=
  unsignedFrom_eq_boundedFrom (by omega) and_excess64_ne_zero_iff rfl (by decide)

/-! ## Written forms -/

/-- The groups from bit `shift` on, as they are checked against the width. -/
def TailForm (bits fuel shift acc : Nat) (bs : Bytes) (n : Nat) : Prop :=
  IsGroups bs ∧ bs.length ≤ fuel ∧ groupValue bs * 2 ^ shift < 2 ^ bits ∧
    n = acc + groupValue bs * 2 ^ shift

/-- The lowest group does not reach beyond the width if the others do not. -/
theorem group_lt_iff {bits shift v g : Nat} (hshift : shift + 7 ≤ bits) (hg : g < 128) :
    (g + 128 * v) * 2 ^ shift < 2 ^ bits ↔ v * 2 ^ (shift + 7) < 2 ^ bits := by
  have hpow : (2 : Nat) ^ (shift + 7) = 128 * 2 ^ shift := by rw [pow_add]; ring
  obtain ⟨d, rfl⟩ := Nat.exists_eq_add_of_le hshift
  have hbits : (2 : Nat) ^ (shift + 7 + d) = 2 ^ d * (128 * 2 ^ shift) := by
    rw [pow_add, hpow, Nat.mul_comm]
  have hpos : 0 < (2 : Nat) ^ shift := Nat.two_pow_pos shift
  rw [hpow, hbits, Nat.mul_lt_mul_right (by omega), ← Nat.mul_assoc, Nat.mul_lt_mul_right hpos]
  omega

theorem tailForm_singleton {bits fuel shift acc n : Nat} {b : UInt8} (hb : b < 128)
    (hg : ¬ 2 ^ bits ≤ b.toNat % 128 * 2 ^ shift) :
    TailForm bits (fuel + 1) shift acc [b] n ↔ n = acc + b.toNat % 128 * 2 ^ shift := by
  simp only [TailForm, groupValue, isGroups_singleton, List.length_singleton]
  constructor
  · rintro ⟨-, -, -, h⟩
    simpa using h
  · intro h
    exact ⟨hb, by omega, by simpa using hg, by simpa using h⟩

theorem tailForm_cons {bits fuel shift acc n : Nat} {b : UInt8} {bs : Bytes}
    (hfuel : shift + 7 * (fuel + 1) ≤ bits + 6) (hb : ¬ b < 128) :
    TailForm bits (fuel + 1) shift acc (b :: bs) n ↔
      TailForm bits fuel (shift + 7) (acc + b.toNat % 128 * 2 ^ shift) bs n := by
  have hpow : (2 : Nat) ^ (shift + 7) = 128 * 2 ^ shift := by rw [pow_add]; ring
  have hval : ∀ v, acc + (b.toNat % 128 + 128 * v) * 2 ^ shift =
      acc + b.toNat % 128 * 2 ^ shift + v * 2 ^ (shift + 7) := fun v => by rw [hpow]; ring
  have hb' : 128 ≤ b := by simpa using hb
  simp only [TailForm, groupValue, hval, List.length_cons]
  by_cases hbs : bs = []
  · subst hbs
    simp only [IsGroups, false_and, iff_false, not_and]
    intro h
    exact absurd h hb
  · rw [isGroups_cons hbs]
    have hlen := List.length_pos_iff.2 hbs
    constructor
    · rintro ⟨⟨-, hgr⟩, hle, hlt, hn⟩
      exact ⟨hgr, by omega, (group_lt_iff (by omega) (Nat.mod_lt _ (by omega))).1 hlt, hn⟩
    · rintro ⟨hgr, hle, hlt, hn⟩
      exact ⟨⟨hb', hgr⟩, by omega,
        (group_lt_iff (by omega) (Nat.mod_lt _ (by omega))).2 hlt, hn⟩

/-- A group that reaches beyond the width spoils every form that starts with it. -/
theorem not_tailForm_cons {bits fuel shift acc n : Nat} {b : UInt8} {bs : Bytes}
    (hg : 2 ^ bits ≤ b.toNat % 128 * 2 ^ shift) :
    ¬ TailForm bits fuel shift acc (b :: bs) n := by
  rintro ⟨-, -, hlt, -⟩
  have hle : b.toNat % 128 * 2 ^ shift ≤ groupValue (b :: bs) * 2 ^ shift :=
    Nat.mul_le_mul_right _ (Nat.le_add_right _ _)
  omega

theorem overflow_parses {α : Type} {G : Bytes → α → Prop} (hG : ∀ bs a, ¬ G bs a) :
    (overflow : Read α).Parses G := by
  intro c a c'
  constructor
  · intro h
    cases h
  · rintro ⟨bs, -, h⟩
    exact absurd h (hG bs a)

theorem boundedFrom_parses (bits fuel shift acc : Nat) (hfuel : shift + 7 * fuel ≤ bits + 6) :
    (boundedFrom bits fuel shift acc).Parses (TailForm bits fuel shift acc) := by
  induction fuel generalizing shift acc with
  | zero =>
    refine overflow_parses fun bs n h => h.1.ne_nil ?_
    exact List.eq_nil_of_length_eq_zero (Nat.le_zero.1 h.2.1)
  | succ fuel ih =>
    -- the first byte decides: too large a group, the last group, or one more group
    have hstep : ∀ b : UInt8,
        (let group := (b.toNat % 128) <<< shift
         if 1 <<< bits ≤ group then (overflow : Read Nat)
         else if b < 128 then return acc + group
         else boundedFrom bits fuel (shift + 7) (acc + group)).Parses
          fun bs n => TailForm bits (fuel + 1) shift acc (b :: bs) n := by
      intro b
      simp only [Nat.shiftLeft_eq, Nat.one_mul]
      split
      · exact overflow_parses fun bs n => not_tailForm_cons ‹_›
      · split
        · refine (Parses.pure _).congr fun bs n => ?_
          constructor
          · rintro ⟨rfl, rfl⟩
            exact (tailForm_singleton ‹_› ‹_›).2 rfl
          · intro h
            cases bs with
            | nil => exact ⟨rfl, (tailForm_singleton ‹_› ‹_›).1 h⟩
            | cons b' rest =>
              have hb := h.1.1
              rename_i hlt
              exact absurd (UInt8.lt_of_lt_of_le hlt hb) (UInt8.lt_irrefl _)
        · refine (ih (shift + 7) _ (by omega)).congr fun bs n => ?_
          exact (tailForm_cons hfuel ‹_›).symm
    refine (byte_parses.bind hstep).congr fun bs n => ?_
    constructor
    · rintro ⟨b, s, t, rfl, rfl, h⟩
      exact h
    · intro h
      cases bs with
      | nil => exact absurd h.1 id
      | cons b bs => exact ⟨b, [b], bs, rfl, rfl, h⟩

/-- **Reading an unsigned number accepts exactly its written forms**, whatever the width. -/
theorem bounded_parses (bits : Nat) :
    (boundedFrom bits (lebBytes bits) 0 0).Parses fun bs n => IsUnsigned bits n bs := by
  refine (boundedFrom_parses bits (lebBytes bits) 0 0 ?_).congr fun bs n => ?_
  · simp only [lebBytes]
    omega
  · simp only [TailForm, pow_zero, Nat.mul_one, Nat.zero_add]
    constructor
    · rintro ⟨hgr, hlen, hlt, rfl⟩
      exact ⟨hgr, hlen, rfl, hlt⟩
    · rintro ⟨hgr, hlen, rfl, hlt⟩
      exact ⟨hgr, hlen, hlt, rfl⟩

theorem unsigned32_parses : unsigned32.Parses fun bs n => IsUnsigned 32 n bs :=
  unsigned32_eq ▸ bounded_parses 32

theorem unsigned64_parses : unsigned64.Parses fun bs n => IsUnsigned 64 n bs :=
  unsigned64_eq ▸ bounded_parses 64

theorem u32_parses : u32.Parses fun bs n => IsUnsigned 32 n.toNat bs := by
  refine (unsigned32_parses.bind fun n => Parses.pure (UInt32.ofNat n)).congr fun bs a => ?_
  constructor
  · rintro ⟨n, s, t, rfl, hn, rfl, rfl⟩
    rw [List.append_nil, UInt32.toNat_ofNat', Nat.mod_eq_of_lt hn.lt]
    exact hn
  · intro h
    exact ⟨a.toNat, bs, [], by simp, h, rfl, by simp⟩

theorem u64_parses : u64.Parses fun bs n => IsUnsigned 64 n.toNat bs := by
  refine (unsigned64_parses.map UInt64.ofNat).congr fun bs a => ?_
  constructor
  · rintro ⟨n, hn, rfl⟩
    rw [UInt64.toNat_ofNat', Nat.mod_eq_of_lt hn.lt]
    exact hn
  · intro h
    exact ⟨a.toNat, h, by simp⟩

theorem u32le_parses : u32le.Parses fun bs n =>
    bs.length = 4 ∧ n = UInt32.ofNat (ofLittleEndian bs) := by
  refine ((bytes_parses 4).map fun bs => UInt32.ofNat (ofLittleEndian bs)).congr fun bs n => ?_
  constructor
  · rintro ⟨a, ⟨rfl, hlen⟩, rfl⟩
    exact ⟨hlen, rfl⟩
  · rintro ⟨hlen, rfl⟩
    exact ⟨bs, ⟨rfl, hlen⟩, rfl⟩

theorem u64le_parses : u64le.Parses fun bs n =>
    bs.length = 8 ∧ n = UInt64.ofNat (ofLittleEndian bs) := by
  refine ((bytes_parses 8).map fun bs => UInt64.ofNat (ofLittleEndian bs)).congr fun bs n => ?_
  constructor
  · rintro ⟨a, ⟨rfl, hlen⟩, rfl⟩
    exact ⟨hlen, rfl⟩
  · rintro ⟨hlen, rfl⟩
    exact ⟨bs, ⟨rfl, hlen⟩, rfl⟩

/-! ## Names -/

theorem fromUTF8?_eq_some_iff {bs : Bytes} {s : String} :
    String.fromUTF8? ⟨bs.toArray⟩ = some s ↔ text s = bs := by
  constructor
  · intro h
    unfold String.fromUTF8? at h
    split at h
    · simp only [Option.some.injEq] at h
      subst h
      rfl
    · simp at h
  · rintro rfl
    have hs : (⟨(text s).toArray⟩ : ByteArray) = s.toByteArray := by
      simp [text, String.toUTF8]
    rw [hs, String.fromUTF8?, dif_pos s.isValidUTF8]
    rfl

/-- **Reading a name accepts exactly its size followed by its UTF-8 bytes.** -/
theorem name_parses : name.Parses fun bs s =>
    ∃ size, bs = size ++ text s ∧ IsUnsigned 32 (text s).length size := by
  refine Parses.congr (u32_parses.bind fun size => (bytes_parses size.toNat).bind
    (H := fun bs t s => t = [] ∧ text s = bs) fun bs => ?_) fun bs s => ?_
  · split
    · rename_i s hs
      refine (Parses.pure s).congr fun t s' => and_congr_right fun _ => ?_
      rw [← fromUTF8?_eq_some_iff, hs, Option.some.injEq, eq_comm]
    · rename_i hs
      intro c s c'
      constructor
      · intro h
        cases h
      · rintro ⟨t, -, -, h⟩
        rw [← fromUTF8?_eq_some_iff, hs] at h
        cases h
  · constructor
    · rintro ⟨n, size, t, rfl, hn, bs, t₁, t₂, rfl, ⟨rfl, hlen⟩, rfl, rfl⟩
      exact ⟨size, by simp, hlen ▸ hn⟩
    · rintro ⟨size, rfl, hsize⟩
      have hn : (UInt32.ofNat (text s).length).toNat = (text s).length := by
        rw [UInt32.toNat_ofNat', Nat.mod_eq_of_lt hsize.lt]
      exact ⟨UInt32.ofNat (text s).length, size, text s, rfl, hn.symm ▸ hsize, text s, text s, [],
        by simp, ⟨rfl, hn.symm⟩, rfl, rfl⟩

/-! ## More bytes at the end -/

theorem overflow_steady {α : Type} : (overflow : Read α).Steady where
  ok := by
    intro c c' a extra h
    cases h
  error := by
    intro c c' e extra h _
    cases h
    rfl

theorem unsignedFrom_steady (last : Nat) (excess : UInt8) (fuel shift acc : Nat) :
    (unsignedFrom last excess fuel shift acc).Steady := by
  induction fuel generalizing shift acc with
  | zero => exact overflow_steady
  | succ fuel ih =>
    refine byte_steady.bind fun b => ?_
    dsimp only
    split
    · exact overflow_steady
    · split
      · exact .pure _
      · exact ih _ _

theorem u32_steady : u32.Steady := (unsignedFrom_steady _ _ _ _ _).bind fun _ => .pure _

end Read

end WasmUdon
