import WasmUdon.Proofs.Binary.Numbers

/-!
# The written forms of signed numbers

The groups of seven bits of a signed number are those of an unsigned one, but the highest group has
a sign (`signedValue`). Reading a signed number accepts exactly the groups that are not too many
(`Read.signedFrom_parses`). Numbers of 32 and 33 bits must also be in range (`Read.signed_parses`);
of a number of 64 bits the low bits are taken (`Read.s64_parses`).
-/

namespace WasmUdon

/-- The number that the highest group stands for: bit 6 is its sign. -/
def signedGroup (b : UInt8) : Int :=
  if b.toNat % 128 < 64 then (b.toNat % 128 : Nat) else (b.toNat % 128 : Nat) - 128

/-- The signed number that groups of seven bits stand for, the lowest first. -/
def signedValue : Bytes → Int
  | [] => 0
  | [b] => signedGroup b
  | b :: b' :: rest => (b.toNat % 128 : Nat) + 128 * signedValue (b' :: rest)

theorem signedValue_cons {b : UInt8} {bs : Bytes} (h : bs ≠ []) :
    signedValue (b :: bs) = (b.toNat % 128 : Nat) + 128 * signedValue bs := by
  cases bs with
  | nil => exact absurd rfl h
  | cons b' rest => rfl

/-- The bytes `bs` are a written form of the signed number `n` of `bits` bits. -/
structure IsSigned (bits : Nat) (n : Int) (bs : Bytes) : Prop where
  groups : IsGroups bs
  length_le : bs.length ≤ (bits + 6) / 7
  value : signedValue bs = n
  le : -2 ^ (bits - 1) ≤ n
  lt : n < 2 ^ (bits - 1)

namespace Read

/-- The groups from bit `shift` on. -/
def SignedTail (fuel shift acc : Nat) (bs : Bytes) (n : Int) : Prop :=
  IsGroups bs ∧ bs.length ≤ fuel ∧ n = acc + signedValue bs * 2 ^ shift

theorem signedTail_singleton {fuel shift acc : Nat} {n : Int} {b : UInt8} (hb : b < 128) :
    SignedTail (fuel + 1) shift acc [b] n ↔ n = acc + signedGroup b * 2 ^ shift := by
  simp only [SignedTail, signedValue, isGroups_singleton, List.length_singleton]
  constructor
  · rintro ⟨-, -, h⟩
    exact h
  · intro h
    exact ⟨hb, by omega, h⟩

theorem signedTail_cons {fuel shift acc : Nat} {n : Int} {b : UInt8} {bs : Bytes}
    (hb : 128 ≤ b) :
    SignedTail (fuel + 1) shift acc (b :: bs) n ↔
      SignedTail fuel (shift + 7) (acc + b.toNat % 128 * 2 ^ shift) bs n := by
  by_cases hbs : bs = []
  · subst hbs
    simp only [SignedTail, IsGroups, false_and, iff_false, not_and]
    intro h
    exact absurd h (UInt8.not_lt.2 hb)
  · have hval : (acc : Int) + signedValue (b :: bs) * 2 ^ shift =
        ((acc + b.toNat % 128 * 2 ^ shift : Nat) : Int) + signedValue bs * 2 ^ (shift + 7) := by
      rw [signedValue_cons hbs, pow_add]
      push_cast
      ring
    simp only [SignedTail, isGroups_cons hbs, List.length_cons, hval, hb, true_and,
      Nat.add_le_add_iff_right]

/-- The value of the last group, as it is computed. -/
theorem signedGroup_mul_pow (b : UInt8) (hb : b < 128) (shift acc : Nat) :
    (acc : Int) + signedGroup b * 2 ^ shift =
      if b < 64 then ((acc + b.toNat % 128 * 2 ^ shift : Nat) : Int)
      else ((acc + b.toNat % 128 * 2 ^ shift : Nat) : Int) - ((2 ^ (shift + 7) : Nat) : Int) := by
  have hlt : b.toNat < 128 := UInt8.lt_iff_toNat_lt.1 hb
  have hmod : b.toNat % 128 = b.toNat := Nat.mod_eq_of_lt hlt
  have hiff : b < 64 ↔ b.toNat % 128 < 64 := by
    rw [hmod]
    exact UInt8.lt_iff_toNat_lt
  simp only [signedGroup, hiff]
  split
  · push_cast
    ring
  · rw [pow_add]
    push_cast
    ring

/-- **Reading groups of a signed number accepts exactly those that are not too many.** -/
theorem signedFrom_parses (fuel shift acc : Nat) :
    (signedFrom fuel shift acc).Parses (SignedTail fuel shift acc) := by
  induction fuel generalizing shift acc with
  | zero =>
    refine overflow_parses fun bs n h => h.1.ne_nil ?_
    exact List.eq_nil_of_length_eq_zero (Nat.le_zero.1 h.2.1)
  | succ fuel ih =>
    -- the last group, which may be negative, or one more group
    have hlast : ∀ {b : UInt8} {n : Int}, b < 128 → n = acc + signedGroup b * 2 ^ shift →
        (Pure.pure n : Read Int).Parses
          fun bs n => SignedTail (fuel + 1) shift acc (b :: bs) n := by
      rintro b n hb rfl
      refine (Parses.pure _).congr fun bs n => ?_
      constructor
      · rintro ⟨rfl, rfl⟩
        exact (signedTail_singleton hb).2 rfl
      · intro h
        cases bs with
        | nil => exact ⟨rfl, (signedTail_singleton hb).1 h⟩
        | cons b' rest => exact absurd (UInt8.lt_of_lt_of_le hb h.1.1) (UInt8.lt_irrefl _)
    have hstep : ∀ b : UInt8,
        (let total := acc + (b.toNat % 128) <<< shift
         if b < 64 then return (total : Int)
         else if b < 128 then return (total : Int) - ((1 <<< (shift + 7) : Nat) : Int)
         else signedFrom fuel (shift + 7) total).Parses
          fun bs n => SignedTail (fuel + 1) shift acc (b :: bs) n := by
      intro b
      simp only [Nat.shiftLeft_eq, Nat.one_mul]
      split
      · rename_i h64
        have hb : b < 128 := UInt8.lt_trans h64 (by decide)
        refine hlast hb ?_
        rw [signedGroup_mul_pow b hb, if_pos h64]
      · rename_i h64
        split
        · rename_i hb
          refine hlast hb ?_
          rw [signedGroup_mul_pow b hb, if_neg h64]
        · rename_i hb
          exact (ih _ _).congr fun bs n => (signedTail_cons (UInt8.not_lt.1 hb)).symm
    refine (byte_parses.bind hstep).congr fun bs n => ?_
    constructor
    · rintro ⟨b, s, t, rfl, rfl, h⟩
      exact h
    · intro h
      cases bs with
      | nil => exact absurd h.1 id
      | cons b bs => exact ⟨b, [b], bs, rfl, rfl, h⟩

theorem signedTail_zero {fuel : Nat} {bs : Bytes} {n : Int} :
    SignedTail fuel 0 0 bs n ↔ IsGroups bs ∧ bs.length ≤ fuel ∧ n = signedValue bs := by
  simp [SignedTail]

/-- **Reading a signed number that is checked accepts exactly its written forms.** -/
theorem signed_parses (bits : Nat) : (signed bits).Parses fun bs n => IsSigned bits n bs := by
  have hlimit : signedLimit bits = 2 ^ (bits - 1) := by
    simp [signedLimit, Nat.shiftLeft_eq]
  have hcheck : ∀ n : Int,
      (if n < -signedLimit bits ∨ signedLimit bits ≤ n then overflow
        else Pure.pure n : Read Int).Parses
        fun bs m => bs = [] ∧ m = n ∧ -2 ^ (bits - 1) ≤ n ∧ n < 2 ^ (bits - 1) := by
    intro n
    rw [hlimit]
    split
    · rename_i hout
      refine overflow_parses fun bs m h => ?_
      omega
    · rename_i hin
      refine (Parses.pure n).congr fun bs m => and_congr_right fun _ => ?_
      constructor
      · intro h
        exact ⟨h, by omega, by omega⟩
      · exact fun h => h.1
  refine ((signedFrom_parses (lebBytes bits) 0 0).bind hcheck).congr fun bs n => ?_
  constructor
  · rintro ⟨m, s, t, rfl, hs, rfl, rfl, hle, hlt⟩
    obtain ⟨hgroups, hlen, hvalue⟩ := signedTail_zero.1 hs
    rw [List.append_nil]
    exact ⟨hgroups, hlen, hvalue.symm, hle, hlt⟩
  · intro h
    exact ⟨n, bs, [], by simp, signedTail_zero.2 ⟨h.groups, h.length_le, h.value.symm⟩, rfl, rfl,
      h.le, h.lt⟩

theorem s32_parses : s32.Parses fun bs n => IsSigned 32 n.toInt bs := by
  refine ((signed_parses 32).bind fun n => Parses.pure (Int32.ofInt n)).congr fun bs a => ?_
  constructor
  · rintro ⟨n, s, t, rfl, hn, rfl, rfl⟩
    rw [List.append_nil, Int32.toInt_ofInt_of_le hn.le hn.lt]
    exact hn
  · intro h
    exact ⟨a.toInt, bs, [], by simp, h, rfl, by simp⟩

theorem s64_parses : s64.Parses fun bs n =>
    IsGroups bs ∧ bs.length ≤ 10 ∧ n = Int64.ofInt (signedValue bs) := by
  refine ((signedFrom_parses (lebBytes 64) 0 0).bind fun n =>
    Parses.pure (Int64.ofInt n)).congr fun bs a => ?_
  constructor
  · rintro ⟨n, s, t, rfl, hn, rfl, rfl⟩
    obtain ⟨hgroups, hlen, rfl⟩ := signedTail_zero.1 hn
    rw [List.append_nil]
    exact ⟨hgroups, hlen, rfl⟩
  · rintro ⟨hgroups, hlen, rfl⟩
    exact ⟨_, bs, [], by simp, signedTail_zero.2 ⟨hgroups, hlen, rfl⟩, rfl, rfl⟩

end Read

end WasmUdon
