import Mathlib.Data.List.Basic
import Mathlib.Tactic.Positivity
import WasmUdon.Proofs.Binary.Signed

/-!
# What reading a number comes to

Reading a number has three outcomes: a value, input that ended early, or an overflow.
`Read.ReadsExactly` says which one it is at a cursor. There is a value exactly if a written form
stands in front; the input ended early exactly if it has fewer bytes than a number may take and all
of them go on, which is to say that more bytes could still make a number of it; and everything else
is an overflow.

The failures are found without a look at the value: a number is read byte by byte, and only a byte
that goes on asks for another one (`Read.NumberFailures`). That more bytes can help rests on the
fact that bytes that go on are completed by a zero (`isGroups_append_singleton`), whose group adds
nothing (`signedValue_append_singleton`).

Numbers of 32 and 33 bits, and unsigned numbers of 64 bits, are read exactly
(`Read.numbers_read_exactly`). Signed numbers of 64 bits are not: nothing looks at the unused bits
of a tenth byte. They are read exactly where a tenth byte says nothing but the sign
(`Read.s64_reads_exactly_iff`).
-/

namespace WasmUdon

/-! ## The last group -/

theorem isGroups_append_singleton {front : Bytes} {last : UInt8} :
    IsGroups (front ++ [last]) ↔ (∀ b ∈ front, 128 ≤ b) ∧ last < 128 := by
  induction front with
  | nil => simp [isGroups_singleton]
  | cons b front ih =>
    have hne : front ++ [last] ≠ [] := List.append_ne_nil_of_right_ne_nil _ (List.cons_ne_nil _ _)
    rw [List.cons_append, isGroups_cons hne, ih, List.forall_mem_cons, and_assoc]

/-- Groups are bytes that go on and a last one that does not. -/
theorem IsGroups.exists_last {bs : Bytes} (h : IsGroups bs) :
    ∃ front last, bs = front ++ [last] ∧ (∀ b ∈ front, 128 ≤ b) ∧ last < 128 := by
  obtain ⟨front, last, rfl⟩ := (List.eq_nil_or_concat' bs).resolve_left h.ne_nil
  exact ⟨front, last, rfl, isGroups_append_singleton.1 h⟩

theorem groupValue_append_singleton (front : Bytes) (last : UInt8) :
    groupValue (front ++ [last]) =
      groupValue front + last.toNat % 128 * 128 ^ front.length := by
  induction front with
  | nil => simp [groupValue]
  | cons b front ih =>
    rw [List.cons_append, groupValue, groupValue, ih, List.length_cons, pow_succ]
    ring

/-- The last group of a signed number stands above all others, with its sign. -/
theorem signedValue_append_singleton (front : Bytes) (last : UInt8) :
    signedValue (front ++ [last]) = groupValue front + signedGroup last * 128 ^ front.length := by
  induction front with
  | nil => simp [groupValue, signedValue]
  | cons b front ih =>
    have hne : front ++ [last] ≠ [] := List.append_ne_nil_of_right_ne_nil _ (List.cons_ne_nil _ _)
    rw [List.cons_append, signedValue_cons hne, ih, groupValue, List.length_cons, pow_succ]
    push_cast
    ring

theorem groupValue_lt (bs : Bytes) : groupValue bs < 128 ^ bs.length := by
  induction bs with
  | nil => simp [groupValue]
  | cons b bs ih =>
    have hb : b.toNat % 128 < 128 := Nat.mod_lt _ (by omega)
    rw [groupValue, List.length_cons, pow_succ]
    omega

theorem signedGroup_bounds (b : UInt8) : -64 ≤ signedGroup b ∧ signedGroup b < 64 := by
  have hb : b.toNat % 128 < 128 := Nat.mod_lt _ (by omega)
  rw [signedGroup]
  split <;> omega

namespace Read

variable {α β : Type} {r : Read α} {f : α → Read β} {most : Nat}

/-! ## Failures -/

/-- The ways in which reading a number of at most `most` bytes fails: the input is too short and
all of its bytes go on, or there is an overflow. -/
structure NumberFailures (r : Read α) (most : Nat) : Prop where
  truncated_iff : ∀ c, (∃ c', r c = .error .truncated c') ↔
    c.rest.length < most ∧ ∀ b ∈ c.rest, 128 ≤ b
  error : ∀ {c c' e}, r c = .error e c' → e = .truncated ∨ e = .overflow c'.position

/-- A read that asks for no byte never finds the input too short. -/
theorem NumberFailures.of_overflow
    (h : ∀ {c c' e}, r c = .error e c' → e = .overflow c'.position) : r.NumberFailures 0 where
  truncated_iff c := by
    constructor
    · rintro ⟨c', hc⟩
      cases h hc
    · rintro ⟨hlen, -⟩
      exact absurd hlen (Nat.not_lt_zero _)
  error hc := .inr (h hc)

theorem NumberFailures.pure (a : α) : (Pure.pure a : Read α).NumberFailures 0 :=
  .of_overflow fun h => by cases h

theorem NumberFailures.overflow : (overflow : Read α).NumberFailures 0 :=
  .of_overflow fun h => by cases h; rfl

/-- What is made of the number asks for no more bytes. -/
theorem NumberFailures.bind (hr : r.NumberFailures most) (hf : ∀ a, (f a).NumberFailures 0) :
    (r >>= f).NumberFailures most where
  truncated_iff c := by
    rw [← hr.truncated_iff c]
    constructor
    · rintro ⟨c', h⟩
      rcases bind_eq_error_iff.1 h with h | ⟨a, c₁, -, h⟩
      · exact ⟨c', h⟩
      · exact absurd (((hf a).truncated_iff c₁).1 ⟨c', h⟩).1 (Nat.not_lt_zero _)
    · rintro ⟨c', h⟩
      exact ⟨c', bind_of_error h⟩
  error h := by
    rcases bind_eq_error_iff.1 h with h | ⟨a, c₁, -, h⟩
    · exact hr.error h
    · exact (hf a).error h

/-- One more byte is asked for only if the byte that was read goes on. -/
theorem NumberFailures.byte_bind {f : UInt8 → Read α}
    (hlast : ∀ b < 128, (f b).NumberFailures 0)
    (hnext : ∀ b, 128 ≤ b → (f b).NumberFailures most) :
    (byte >>= f).NumberFailures (most + 1) where
  truncated_iff := by
    rintro ⟨base, consumed, _ | ⟨b, rest⟩⟩
    · exact iff_of_true ⟨_, rfl⟩ ⟨Nat.succ_pos _, List.forall_mem_nil _⟩
    · change (∃ c', f b ⟨base, consumed + 1, rest⟩ = .error .truncated c') ↔ _
      rw [List.length_cons, Nat.add_lt_add_iff_right, List.forall_mem_cons]
      by_cases hb : b < 128
      · rw [(hlast b hb).truncated_iff]
        have hnot : ¬ 128 ≤ b := UInt8.not_le.2 hb
        simp [hnot]
      · rw [(hnext b (UInt8.not_lt.1 hb)).truncated_iff]
        simp [UInt8.not_lt.1 hb]
  error := by
    rintro ⟨base, consumed, _ | ⟨b, rest⟩⟩ c' e h
    · cases h
      exact .inl rfl
    · change f b ⟨base, consumed + 1, rest⟩ = .error e c' at h
      by_cases hb : b < 128
      · exact (hlast b hb).error h
      · exact (hnext b (UInt8.not_lt.1 hb)).error h

theorem boundedFrom_numberFailures (bits fuel shift acc : Nat)
    (hfuel : shift + 7 * fuel ≤ bits + 6) :
    (boundedFrom bits fuel shift acc).NumberFailures fuel := by
  induction fuel generalizing shift acc with
  | zero => exact .overflow
  | succ fuel ih =>
    refine .byte_bind (fun b hb => ?_) fun b hb => ?_
    · dsimp only
      split
      · exact .overflow
      · exact .pure _
    · have hnext := ih (shift + 7) (acc + (b.toNat % 128) <<< shift) (by omega)
      dsimp only
      rw [if_neg (UInt8.not_lt.2 hb)]
      split
      · rename_i hgroup
        -- only the last byte that is allowed can reach beyond the width
        have hzero : fuel = 0 := by
          by_contra hne
          have hpow : (2 : Nat) ^ (shift + 7) ≤ 2 ^ bits :=
            Nat.pow_le_pow_right (by omega) (by omega)
          have hlt : b.toNat % 128 * 2 ^ shift < 128 * 2 ^ shift :=
            Nat.mul_lt_mul_of_pos_right (Nat.mod_lt _ (by omega)) (Nat.two_pow_pos _)
          rw [pow_add] at hpow
          rw [Nat.shiftLeft_eq, Nat.shiftLeft_eq] at hgroup
          omega
        rw [hzero]
        exact .overflow
      · exact hnext

theorem u32_numberFailures : u32.NumberFailures 5 := by
  have h : unsigned32.NumberFailures 5 :=
    unsigned32_eq ▸ boundedFrom_numberFailures 32 5 0 0 (by omega)
  exact h.bind fun _ => .pure _

theorem u64_numberFailures : u64.NumberFailures 10 := by
  have h : unsigned64.NumberFailures 10 :=
    unsigned64_eq ▸ boundedFrom_numberFailures 64 10 0 0 (by omega)
  exact h.bind fun _ => .pure _

theorem signedFrom_numberFailures (fuel shift acc : Nat) :
    (signedFrom fuel shift acc).NumberFailures fuel := by
  induction fuel generalizing shift acc with
  | zero => exact .overflow
  | succ fuel ih =>
    refine .byte_bind (fun b hb => ?_) fun b hb => ?_
    · dsimp only
      rw [if_pos hb]
      split <;> exact .pure _
    · dsimp only
      have h64 : ¬ b < 64 := fun h =>
        UInt8.not_lt.2 hb (UInt8.lt_trans h (by decide))
      rw [if_neg h64, if_neg (UInt8.not_lt.2 hb)]
      exact ih _ _

theorem signed_numberFailures (bits : Nat) : (signed bits).NumberFailures (lebBytes bits) := by
  refine (signedFrom_numberFailures _ 0 0).bind fun n => ?_
  split
  · exact .overflow
  · exact .pure _

/-! ## More bytes at the end -/

theorem signedFrom_steady (fuel shift acc : Nat) : (signedFrom fuel shift acc).Steady := by
  induction fuel generalizing shift acc with
  | zero => exact overflow_steady
  | succ fuel ih =>
    refine byte_steady.bind fun b => ?_
    dsimp only
    split
    · exact .pure _
    · split
      · exact .pure _
      · exact ih _ _

theorem signed_steady (bits : Nat) : (signed bits).Steady := by
  refine (signedFrom_steady _ 0 0).bind fun n => ?_
  split
  · exact overflow_steady
  · exact .pure _

/-! ## Outcomes -/

/-- Which outcome reading a number has at a cursor, if `G` relates the written forms, of at most
`most` bytes, to their numbers. -/
structure ReadsExactly (r : Read α) (G : Bytes → α → Prop) (most : Nat) (c : Cursor) : Prop where
  /-- There is a number exactly if a written form of it stands in front, and it is all that is
  taken. -/
  ok_iff : ∀ n c', r c = .ok n c' ↔ ∃ bs, c.Takes bs c' ∧ G bs n
  /-- The input ended early exactly if all of its bytes go on and there may be more of them. -/
  truncated_iff : (∃ c', r c = .error .truncated c') ↔
    c.rest.length < most ∧ ∀ b ∈ c.rest, 128 ≤ b
  /-- The input ended early exactly if there is no number yet, but more bytes could make one. -/
  truncated_iff_completes : (∃ c', r c = .error .truncated c') ↔
    (∀ n c', r c ≠ .ok n c') ∧ ∃ extra n c', r (c.append extra) = .ok n c'
  /-- Every other failure is an overflow. -/
  error : ∀ e c', r c = .error e c' → e = .truncated ∨ e = .overflow c'.position

/-- **A number is read exactly if a zero behind bytes that go on completes it.** -/
theorem readsExactly {G : Bytes → α → Prop} (hparses : r.Parses G) (hsteady : r.Steady)
    (hfails : r.NumberFailures most)
    (hzero : ∀ bs : Bytes, bs.length < most → (∀ b ∈ bs, 128 ≤ b) → ∃ n, G (bs ++ [0]) n)
    (c : Cursor) : r.ReadsExactly G most c where
  ok_iff := hparses c
  truncated_iff := hfails.truncated_iff c
  truncated_iff_completes := by
    constructor
    · rintro ⟨c₁, h⟩
      obtain ⟨hlen, hon⟩ := (hfails.truncated_iff c).1 ⟨c₁, h⟩
      obtain ⟨n, hn⟩ := hzero c.rest hlen hon
      have hall : (c.append [0]).Takes (c.rest ++ [0])
          ⟨c.base, c.consumed + (c.rest ++ [0]).length, []⟩ :=
        ⟨rfl, (List.append_nil _).symm, rfl⟩
      refine ⟨fun n c' hok => ?_, [0], n, _, (hparses _ _ _).2 ⟨_, hall, hn⟩⟩
      rw [h] at hok
      cases hok
    · rintro ⟨hnone, extra, n, c₁, hok⟩
      cases h : r c with
      | ok n c' => exact absurd h (hnone n c')
      | error e c' =>
        rcases hfails.error h with rfl | rfl
        · exact ⟨c', rfl⟩
        · -- an overflow stays one whatever follows
          have hstays := hsteady.error extra h rfl
          rw [hok] at hstays
          cases hstays
  error _ _ := hfails.error

end Read

/-- Bytes that go on and are fewer than a number may take stand for a number with a bit left for
the sign. -/
theorem groupValue_lt_of_length {bits : Nat} {bs : Bytes} (hlen : bs.length < (bits + 6) / 7) :
    groupValue bs < 2 ^ (bits - 1) := by
  refine Nat.lt_of_lt_of_le (groupValue_lt bs) ?_
  rw [show 128 = 2 ^ 7 from rfl, ← pow_mul]
  exact Nat.pow_le_pow_right (by omega) (by omega)

theorem isUnsigned_append_zero {bits : Nat} {bs : Bytes} (hlen : bs.length < (bits + 6) / 7)
    (hon : ∀ b ∈ bs, 128 ≤ b) : IsUnsigned bits (groupValue bs) (bs ++ [0]) where
  groups := isGroups_append_singleton.2 ⟨hon, by decide⟩
  length_le := by
    rw [List.length_append, List.length_singleton]
    exact hlen
  value := by
    rw [groupValue_append_singleton]
    simp
  lt := Nat.lt_of_lt_of_le (groupValue_lt_of_length hlen)
    (Nat.pow_le_pow_right (by omega) (Nat.sub_le _ _))

theorem isSigned_append_zero {bits : Nat} {bs : Bytes} (hlen : bs.length < (bits + 6) / 7)
    (hon : ∀ b ∈ bs, 128 ≤ b) : IsSigned bits (groupValue bs) (bs ++ [0]) where
  groups := isGroups_append_singleton.2 ⟨hon, by decide⟩
  length_le := by
    rw [List.length_append, List.length_singleton]
    exact hlen
  value := by
    rw [signedValue_append_singleton]
    simp [signedGroup]
  le := by
    have hpos : (0 : Int) < 2 ^ (bits - 1) := by positivity
    omega
  lt := by exact_mod_cast groupValue_lt_of_length hlen

namespace Read

/-- **Unsigned numbers and signed numbers of 32 and 33 bits are read exactly.** Reading gives a
number exactly if groups of seven bits stand in front that are not too many and stand for a number
of the width, and takes nothing else. It reports input that ended early exactly if all bytes go on
and there may be more of them, exactly if more bytes could make a number; and an overflow
otherwise. -/
theorem numbers_read_exactly (c : Cursor) :
    u32.ReadsExactly (fun bs n => IsUnsigned 32 n.toNat bs) 5 c ∧
      u64.ReadsExactly (fun bs n => IsUnsigned 64 n.toNat bs) 10 c ∧
      s32.ReadsExactly (fun bs n => IsSigned 32 n.toInt bs) 5 c ∧
      s33.ReadsExactly (fun bs n => IsSigned 33 n bs) 5 c := by
  refine ⟨?_, ?_, ?_, ?_⟩
  · refine readsExactly u32_parses u32_steady u32_numberFailures ?_ c
    intro bs hlen hon
    have h : IsUnsigned 32 (groupValue bs) (bs ++ [0]) := isUnsigned_append_zero hlen hon
    exact ⟨UInt32.ofNat (groupValue bs), by rwa [UInt32.toNat_ofNat_of_lt' h.lt]⟩
  · refine readsExactly u64_parses ((unsignedFrom_steady _ _ _ _ _).bind fun _ => .pure _)
      u64_numberFailures ?_ c
    intro bs hlen hon
    have h : IsUnsigned 64 (groupValue bs) (bs ++ [0]) := isUnsigned_append_zero hlen hon
    exact ⟨UInt64.ofNat (groupValue bs), by rwa [UInt64.toNat_ofNat_of_lt' h.lt]⟩
  · refine readsExactly s32_parses ((signed_steady 32).bind fun _ => .pure _)
      ((signed_numberFailures 32).bind fun _ => .pure _) ?_ c
    intro bs hlen hon
    have h : IsSigned 32 (groupValue bs) (bs ++ [0]) := isSigned_append_zero hlen hon
    exact ⟨Int32.ofInt (groupValue bs), by rwa [Int32.toInt_ofInt_of_le h.le h.lt]⟩
  · refine readsExactly (signed_parses 33) (signed_steady 33) (signed_numberFailures 33) ?_ c
    intro bs hlen hon
    exact ⟨groupValue bs, isSigned_append_zero hlen hon⟩

end Read

/-! ## Signed numbers of 64 bits -/

/-- A number of at most ten groups has 64 bits exactly if a tenth group says nothing but the
sign. -/
theorem signedValue_fits_iff {front : Bytes} {last : UInt8} (hlen : front.length ≤ 9)
    (hlast : last < 128) :
    (-2 ^ 63 ≤ signedValue (front ++ [last]) ∧ signedValue (front ++ [last]) < 2 ^ 63) ↔
      (front.length = 9 → last = 0x00 ∨ last = 0x7F) := by
  have hgroups := groupValue_lt front
  obtain ⟨hlow, hhigh⟩ := signedGroup_bounds last
  rw [signedValue_append_singleton]
  by_cases hnine : front.length = 9
  · rw [hnine] at hgroups ⊢
    have hsign : last = 0x00 ∨ last = 0x7F ↔ signedGroup last = 0 ∨ signedGroup last = -1 := by
      have hlt : last.toNat < 128 := UInt8.lt_iff_toNat_lt.1 hlast
      rw [← UInt8.toNat_inj, ← UInt8.toNat_inj, signedGroup, Nat.mod_eq_of_lt hlt]
      simp only [UInt8.reduceToNat]
      split <;> omega
    rw [hsign]
    simp only [true_implies]
    omega
  · have hpow : (128 : Nat) ^ front.length ≤ 128 ^ 8 :=
      Nat.pow_le_pow_right (by omega) (by omega)
    have hpos : (0 : Int) ≤ 128 ^ front.length := by positivity
    have hpow' : (128 : Int) ^ front.length ≤ 128 ^ 8 := by exact_mod_cast hpow
    have hlow' := mul_le_mul_of_nonneg_right hlow hpos
    have hhigh' := mul_le_mul_of_nonneg_right (Int.le_sub_one_of_lt hhigh) hpos
    have hgroups' : (groupValue front : Int) < 128 ^ front.length := by exact_mod_cast hgroups
    refine iff_of_true ⟨by omega, by omega⟩ fun h => absurd h hnine

namespace Read

/-- What is taken for a number of 64 bits: the low bits of any groups that are not too many. -/
theorem s64_reads_low_bits (c : Cursor) :
    s64.ReadsExactly
      (fun bs n => IsGroups bs ∧ bs.length ≤ 10 ∧ n = Int64.ofInt (signedValue bs)) 10 c := by
  refine readsExactly s64_parses ((signedFrom_steady _ _ _).bind fun _ => .pure _)
    ((signedFrom_numberFailures 10 0 0).bind fun _ => .pure _) ?_ c
  intro bs hlen hon
  refine ⟨_, isGroups_append_singleton.2 ⟨hon, by decide⟩, ?_, rfl⟩
  rw [List.length_append, List.length_singleton]
  exact hlen

/-- **Where signed numbers of 64 bits are read exactly.** Reading takes the low 64 bits of any
groups that are not too many. So groups that stand for a number beyond 64 bits are no overflow as
they should be, and this concerns ten groups only: numbers are read exactly at a cursor unless nine
bytes that go on stand in front, and a tenth that does not and is more than a sign. -/
theorem s64_reads_exactly_iff (c : Cursor) :
    s64.ReadsExactly
        (fun bs n => IsGroups bs ∧ bs.length ≤ 10 ∧ n = Int64.ofInt (signedValue bs)) 10 c ∧
      (s64.ReadsExactly (fun bs n => IsSigned 64 n.toInt bs) 10 c ↔
        ∀ front last behind, c.rest = front ++ last :: behind → (∀ b ∈ front, 128 ≤ b) →
          front.length = 9 → last < 128 → last = 0x00 ∨ last = 0x7F) := by
  have hlow := s64_reads_low_bits c
  refine ⟨hlow, fun hexact front last behind hrest hon hnine hlast => ?_, fun hsign => ?_⟩
  · have hgroups : IsGroups (front ++ [last]) := isGroups_append_singleton.2 ⟨hon, hlast⟩
    have hlen : (front ++ [last]).length = 10 := by
      rw [List.length_append, List.length_singleton, hnine]
    have htakes : c.Takes (front ++ [last]) ⟨c.base, c.consumed + 10, behind⟩ :=
      ⟨rfl, by rw [hrest, List.append_assoc]; rfl, by rw [hlen]⟩
    have hok := (hlow.ok_iff _ _).2 ⟨_, htakes, hgroups, hlen.le, rfl⟩
    obtain ⟨bs, hbs, hform⟩ := (hexact.ok_iff _ _).1 hok
    cases htakes.bytes_unique hbs
    have hfits := And.intro hform.le hform.lt
    rw [← hform.value] at hfits
    exact (signedValue_fits_iff hnine.le hlast).1 hfits hnine
  · refine { hlow with ok_iff := fun n c' => (hlow.ok_iff n c').trans ?_ }
    refine exists_congr fun bs => and_congr_right fun htakes => ?_
    constructor
    · rintro ⟨hgroups, hlen, rfl⟩
      obtain ⟨front, last, rfl, hon, hlast⟩ := hgroups.exists_last
      have hrest : c.rest = front ++ last :: c'.rest := by
        rw [htakes.rest, List.append_assoc]
        rfl
      have hnine : front.length ≤ 9 := by
        rw [List.length_append, List.length_singleton] at hlen
        omega
      obtain ⟨hle, hlt⟩ := (signedValue_fits_iff hnine hlast).2 fun h =>
        hsign front last c'.rest hrest hon h hlast
      rw [Int64.toInt_ofInt_of_le hle hlt]
      exact ⟨hgroups, hlen, rfl, hle, hlt⟩
    · intro hform
      exact ⟨hform.groups, hform.length_le, by rw [hform.value, Int64.ofInt_toInt]⟩

/-- Ten groups that stand for the first number beyond 64 bits are read as the least number. -/
theorem s64_reads_beyond_width :
    let bs : Bytes := [0x80, 0x80, 0x80, 0x80, 0x80, 0x80, 0x80, 0x80, 0x80, 0x01]
    IsGroups bs ∧ signedValue bs = 2 ^ 63 ∧
      s64 (.ofBytes bs 0) = .ok Int64.minValue ⟨0, 10, []⟩ ∧
      ¬ s64.ReadsExactly (fun bs n => IsSigned 64 n.toInt bs) 10 (.ofBytes bs 0) := by
  intro bs
  have hread : s64 (.ofBytes bs 0) = .ok Int64.minValue ⟨0, 10, []⟩ := rfl
  refine ⟨by decide, by decide, hread, fun hexact => ?_⟩
  obtain ⟨taken, htaken, hform⟩ := (hexact.ok_iff _ _).1 hread
  have hall : (Cursor.ofBytes bs 0).Takes bs ⟨0, 10, []⟩ := ⟨rfl, rfl, rfl⟩
  cases hall.bytes_unique htaken
  exact absurd hform.value (by decide)

end Read

end WasmUdon
