import WasmUdon.Proofs.Binary.Outcomes

/-!
# Accounting for the bytes that are read

One cursor serves many reads of many kinds, and a read that fails leaves it somewhere too. Whatever
is read, the cursor stays inside of the bytes it was made for, and every byte is accounted for: it
was read, or it is left (`Cursor.StandsIn`). This rests on one fact about each kind of read, that it
only moves forward, and goes by induction over the reads (`Cursor.after_standsIn`).

What a read took before it failed depends on its kind (`ReadKind.GivesUp`). If the number of bytes
is known beforehand, the read takes all of them or none (`Read.TakesExactly`). Numbers and names
take bytes until they can decide. A byte counts as examined if the read cannot decide without it:
where the input ends in front of that byte, the read finds that it ended early (`Read.Examines`).
Numbers and names are thorough, that is, they take no byte without examining it (`Read.Thorough`).
This passes from the parts of a read to the whole, and it also bounds the bytes of a number, which
never asks for more bytes than a number may have (`Read.NumberFailures.consumed_le`).

The main result is `Cursor.reads_account_for_bytes`.
-/

namespace WasmUdon

namespace Cursor

/-- The same place in an input that ends `n` bytes further on. -/
def cut (c : Cursor) (n : Nat) : Cursor := { c with rest := c.rest.take n }

theorem length_rest_cut {c : Cursor} {n : Nat} (h : n ≤ c.rest.length) :
    (c.cut n).rest.length = n :=
  List.length_take_of_le h

/-- Bytes that lie in front of the end are still there. -/
theorem Takes.cut {c c' : Cursor} {bs : Bytes} (h : c.Takes bs c') {n : Nat} (hn : bs.length ≤ n) :
    (c.cut n).Takes bs (c'.cut (n - bs.length)) := by
  refine ⟨h.base, ?_, h.consumed⟩
  simp only [Cursor.cut]
  rw [h.rest, List.take_append, List.take_of_length_le hn]

theorem Takes.length_le {c c' : Cursor} {bs : Bytes} (h : c.Takes bs c') :
    bs.length ≤ c.rest.length := by
  rw [h.rest, List.length_append]
  omega

theorem Reaches.exists_takes {c c' : Cursor} (h : c.Reaches c') : ∃ bs, c.Takes bs c' := by
  obtain ⟨hbase, bs, hrest, hconsumed⟩ := h
  exact ⟨bs, hbase, hrest, hconsumed⟩

end Cursor

namespace Read

variable {α β : Type} {r : Read α} {f : α → Read β} {n : Int}

/-! ## The cursor behind a read -/

theorem cursorAfter_of_ok {c c' : Cursor} {a : α} (h : r c = .ok a c') : r.cursorAfter c = c' := by
  rw [cursorAfter, h]

theorem cursorAfter_of_error {c c' : Cursor} {e : Error} (h : r c = .error e c') :
    r.cursorAfter c = c' := by
  rw [cursorAfter, h]

/-! ## Reads of a known size -/

/-- At the cursor, the read takes `n` bytes, or fails and takes none. -/
structure TakesExactly (r : Read α) (n : Int) (c : Cursor) : Prop where
  /-- Fewer bytes than none cannot be read, nor more than there are. -/
  short : n < 0 ∨ (c.rest.length : Int) < n → r c = .error .truncated c
  /-- All other numbers of bytes can. -/
  enough : 0 ≤ n → n ≤ c.rest.length → ∃ a, r c = .ok a (c.skip n.toNat)

theorem TakesExactly.map {c : Cursor} (h : r.TakesExactly n c) (g : α → β) :
    (r >>= fun a => Pure.pure (g a)).TakesExactly n c where
  short hn := bind_of_error (h.short hn)
  enough hle hlen := by
    obtain ⟨a, ha⟩ := h.enough hle hlen
    exact ⟨g a, bind_eq_ok_iff.2 ⟨a, _, ha, rfl⟩⟩

theorem TakesExactly.of_error {c c' : Cursor} {e : Error} (h : r.TakesExactly n c)
    (hr : r c = .error e c') : (n < 0 ∨ (c.rest.length : Int) < n) ∧ e = .truncated ∧ c' = c := by
  by_cases hn : n < 0 ∨ (c.rest.length : Int) < n
  · rw [h.short hn] at hr
    cases hr
    exact ⟨hn, rfl, rfl⟩
  · obtain ⟨a, ha⟩ := h.enough (by omega) (by omega)
    rw [ha] at hr
    cases hr

theorem bytes_takesExactly (n : Int) (c : Cursor) : (bytes n).TakesExactly n c where
  short hn := if_pos hn
  enough hle hlen := ⟨_, if_neg (by omega)⟩

theorem u32le_takesExactly (c : Cursor) : u32le.TakesExactly 4 c := (bytes_takesExactly 4 c).map _

theorem u64le_takesExactly (c : Cursor) : u64le.TakesExactly 8 c := (bytes_takesExactly 8 c).map _

theorem byte_takesExactly (c : Cursor) : byte.TakesExactly 1 c := by
  rcases c with ⟨base, consumed, _ | ⟨b, rest⟩⟩
  · exact ⟨fun _ => rfl, fun _ hlen => absurd hlen (by simp)⟩
  · refine ⟨fun hn => ?_, fun _ _ => ⟨b, rfl⟩⟩
    simp only [List.length_cons] at hn
    omega

theorem remaining_takesExactly (c : Cursor) : remaining.TakesExactly c.rest.length c where
  short hn := by omega
  enough _ _ := ⟨c.rest, rfl⟩

/-! ## Bytes that are examined -/

/-- The read examines the byte `i` bytes further on: where the input ends in front of it, the input
ended early. -/
def Examines (r : Read α) (c : Cursor) (i : Nat) : Prop := ∃ c', r (c.cut i) = .error .truncated c'

/-- A read that moves forward only, and over bytes that it examines. -/
structure Thorough (r : Read α) : Prop where
  forward : r.Forward
  examines : ∀ ⦃c : Cursor⦄ ⦃bs : Bytes⦄ ⦃i : Nat⦄, c.Takes bs (r.cursorAfter c) → i < bs.length →
    r.Examines c i

/-- A read that takes nothing has nothing to examine. -/
theorem Thorough.of_stays (h : ∀ c, r.cursorAfter c = c) : r.Thorough where
  forward c := by
    rw [h c]
    exact .refl c
  examines c bs i hbs hi := by
    rw [h c] at hbs
    rw [hbs.bytes_unique (.refl c)] at hi
    exact absurd hi (Nat.not_lt_zero i)

theorem Thorough.pure (a : α) : (Pure.pure a : Read α).Thorough := .of_stays fun _ => rfl

theorem Thorough.overflow : (overflow : Read α).Thorough := .of_stays fun _ => rfl

/-- A read of a known size examines all bytes at once. -/
theorem Thorough.of_takesExactly (h : ∀ c, r.TakesExactly n c) : r.Thorough := by
  have hcases : ∀ c, r.cursorAfter c = c ∨
      0 ≤ n ∧ n ≤ c.rest.length ∧ r.cursorAfter c = c.skip n.toNat := by
    intro c
    by_cases hn : n < 0 ∨ (c.rest.length : Int) < n
    · exact .inl (cursorAfter_of_error ((h c).short hn))
    · obtain ⟨a, ha⟩ := (h c).enough (by omega) (by omega)
      exact .inr ⟨by omega, by omega, cursorAfter_of_ok ha⟩
  refine ⟨fun c => ?_, fun c bs i hbs hi => ?_⟩
  · rcases hcases c with heq | ⟨-, -, heq⟩ <;> rw [heq]
    · exact .refl c
    · exact Cursor.reaches_skip c _
  · rcases hcases c with heq | ⟨hle, hlen, heq⟩ <;> rw [heq] at hbs
    · rw [hbs.bytes_unique (.refl c)] at hi
      exact absurd hi (Nat.not_lt_zero i)
    · rw [hbs.bytes_unique (c.takes_skip _), List.length_take] at hi
      refine ⟨_, (h (c.cut i)).short (.inr ?_)⟩
      rw [Cursor.length_rest_cut (by omega)]
      omega

/-- What is read behind other bytes is cut off by the same end of the input. -/
theorem Thorough.bind {G : Bytes → α → Prop} (hparses : r.Parses G) (hr : r.Thorough)
    (hf : ∀ a, (f a).Thorough) : (r >>= f).Thorough where
  forward := hr.forward.bind fun a => (hf a).forward
  examines c bs i hbs hi := by
    cases h : r c with
    | error e c₁ =>
      rw [cursorAfter_of_error (bind_of_error h), ← cursorAfter_of_error h] at hbs
      obtain ⟨c₂, hcut⟩ := hr.examines hbs hi
      exact ⟨c₂, bind_of_error hcut⟩
    | ok a c₁ =>
      have hafter : (r >>= f).cursorAfter c = (f a).cursorAfter c₁ := by
        simp only [cursorAfter, Bind.bind, EStateM.bind, h]
      rw [hafter] at hbs
      obtain ⟨s, hs, ha⟩ := (hparses c a c₁).1 h
      obtain ⟨t, ht⟩ := ((hf a).forward c₁).exists_takes
      rw [hbs.bytes_unique (hs.trans ht), List.length_append] at hi
      by_cases hi' : i < s.length
      · rw [← cursorAfter_of_ok h] at hs
        obtain ⟨c₂, hcut⟩ := hr.examines hs hi'
        exact ⟨c₂, bind_of_error hcut⟩
      · -- the first read is not cut off, and the second is
        have hok : r (c.cut i) = .ok a (c₁.cut (i - s.length)) :=
          (hparses _ _ _).2 ⟨s, hs.cut (Nat.not_lt.1 hi'), ha⟩
        obtain ⟨c₂, hcut⟩ := (hf a).examines ht (i := i - s.length) (by omega)
        exact ⟨c₂, bind_eq_error_iff.2 (.inr ⟨a, _, hok, hcut⟩)⟩

theorem byte_thorough : byte.Thorough := .of_takesExactly byte_takesExactly

theorem unsignedFrom_thorough (last : Nat) (excess : UInt8) (fuel shift acc : Nat) :
    (unsignedFrom last excess fuel shift acc).Thorough := by
  induction fuel generalizing shift acc with
  | zero => exact .overflow
  | succ fuel ih =>
    refine .bind byte_parses byte_thorough fun b => ?_
    dsimp only
    split
    · exact .overflow
    · split
      · exact .pure _
      · exact ih _ _

theorem signedFrom_thorough (fuel shift acc : Nat) : (signedFrom fuel shift acc).Thorough := by
  induction fuel generalizing shift acc with
  | zero => exact .overflow
  | succ fuel ih =>
    refine .bind byte_parses byte_thorough fun b => ?_
    dsimp only
    split
    · exact .pure _
    · split
      · exact .pure _
      · exact ih _ _

theorem signed_thorough (bits : Nat) : (signed bits).Thorough := by
  refine .bind (signedFrom_parses _ 0 0) (signedFrom_thorough _ 0 0) fun n => ?_
  split
  · exact .overflow
  · exact .pure _

theorem u32_thorough : u32.Thorough :=
  .bind unsigned32_parses (unsignedFrom_thorough _ _ _ _ _) fun _ => .pure _

theorem name_thorough : name.Thorough := by
  refine .bind u32_parses u32_thorough fun size => ?_
  refine .bind (bytes_parses size.toNat) (.of_takesExactly (bytes_takesExactly _)) fun bs => ?_
  split
  · exact .pure _
  · exact .of_stays fun _ => rfl

/-- A number does not take more bytes than it may have: it would have asked for one more. -/
theorem NumberFailures.consumed_le {most : Nat} (hfails : r.NumberFailures most) (hr : r.Thorough)
    (c : Cursor) : (r.cursorAfter c).consumed ≤ c.consumed + most := by
  obtain ⟨bs, hbs⟩ := (hr.forward c).exists_takes
  rw [hbs.consumed]
  by_contra hlt
  have hmost : most < bs.length := by omega
  have hlen : (c.cut most).rest.length < most :=
    ((hfails.truncated_iff _).1 (hr.examines hbs hmost)).1
  rw [Cursor.length_rest_cut (Nat.le_trans hmost.le hbs.length_le)] at hlen
  exact Nat.lt_irrefl most hlen

end Read

/-! ## Names that cannot be read -/

/-- Where reading a name stops when it fails: with its size, right behind its size, or behind bytes
that are no text. -/
inductive Cursor.StopsInName (c : Cursor) : Error → Cursor → Prop
  | size {e : Error} {c' : Cursor} (h : Read.u32 c = .error e c') : StopsInName c e c'
  | short {n : Nat} {size : Bytes} {c' : Cursor} (hsize : IsUnsigned 32 n size)
    (htakes : c.Takes size c') (hshort : c'.rest.length < n) : StopsInName c .truncated c'
  | notText {size bs : Bytes} {c' : Cursor} (hsize : IsUnsigned 32 bs.length size)
    (htakes : c.Takes (size ++ bs) c') (hbytes : ∀ s, text s ≠ bs) :
    StopsInName c (.badName c'.position) c'

theorem Read.stopsInName_of_error {c c' : Cursor} {e : Error} (h : name c = .error e c') :
    c.StopsInName e c' := by
  rcases bind_eq_error_iff.1 h with h | ⟨size, c₁, hsize, h⟩
  · exact .size h
  obtain ⟨bs, hbs, hform⟩ := (u32_parses c size c₁).1 hsize
  rcases bind_eq_error_iff.1 h with h | ⟨content, c₂, hcontent, h⟩
  · obtain ⟨hshort, rfl, rfl⟩ := (bytes_takesExactly size.toNat c₁).of_error h
    exact .short hform hbs (by omega)
  · obtain ⟨taken, htaken, rfl, hlen⟩ := (bytes_parses size.toNat c₁ content c₂).1 hcontent
    cases hutf8 : String.fromUTF8? ⟨taken.toArray⟩ with
    | some s =>
      rw [hutf8] at h
      cases h
    | none =>
      rw [hutf8] at h
      cases h
      refine .notText (hlen ▸ hform) (hbs.trans htaken) fun s hs => ?_
      rw [fromUTF8?_eq_some_iff.2 hs] at hutf8
      cases hutf8

/-! ## Kinds of reads -/

/-- What can be read at a cursor. -/
inductive ReadKind
  | byte
  | bytes (n : Int)
  | remaining
  | u32
  | u64
  | s32
  | s33
  | s64
  | name
  | u32le
  /-- A floating-point number of four bytes. -/
  | single
  /-- A floating-point number of eight bytes. -/
  | double
  deriving DecidableEq, Repr

namespace ReadKind

/-- The values of a kind. Floating-point numbers are given by their bits. -/
def Value : ReadKind → Type
  | byte => UInt8
  | bytes _ | remaining => Bytes
  | u32 | u32le | single => UInt32
  | u64 | double => UInt64
  | s32 => Int32
  | s33 => Int
  | s64 => Int64
  | name => String

/-- The read of a kind. -/
def read : (k : ReadKind) → Read k.Value
  | byte => Read.byte
  | bytes n => Read.bytes n
  | remaining => Read.remaining
  | u32 => Read.u32
  | u64 => Read.u64
  | s32 => Read.s32
  | s33 => Read.s33
  | s64 => Read.s64
  | name => Read.name
  | u32le | single => Read.u32le
  | double => Read.u64le

/-- The bytes are what a value of the kind is read from. -/
def Written : (k : ReadKind) → Bytes → k.Value → Prop
  | byte, bs, b => bs = [b]
  | bytes n, bs, a => bs = a ∧ (a.length : Int) = n
  | remaining, bs, a => bs = a
  | u32, bs, n => IsUnsigned 32 n.toNat bs
  | u64, bs, n => IsUnsigned 64 n.toNat bs
  | s32, bs, n => IsSigned 32 n.toInt bs
  | s33, bs, n => IsSigned 33 n bs
  | s64, bs, n => IsGroups bs ∧ bs.length ≤ 10 ∧ n = Int64.ofInt (signedValue bs)
  | name, bs, s => ∃ size, bs = size ++ text s ∧ IsUnsigned 32 (text s).length size
  | u32le, bs, n | single, bs, n => bs.length = 4 ∧ n = UInt32.ofNat (ofLittleEndian bs)
  | double, bs, n => bs.length = 8 ∧ n = UInt64.ofNat (ofLittleEndian bs)

/-- How many bytes a read of the kind asks for, if that is known beforehand. -/
def size? (c : Cursor) : ReadKind → Option Int
  | byte => some 1
  | bytes n => some n
  | remaining => some c.rest.length
  | u32le | single => some 4
  | double => some 8
  | _ => none

/-- How many bytes a number of the kind has at most. -/
def mostBytes? : ReadKind → Option Nat
  | u32 | s32 | s33 => some 5
  | u64 | s64 => some 10
  | _ => none

theorem takesExactly_of_size? {k : ReadKind} {c : Cursor} {n : Int} (h : n ∈ k.size? c) :
    k.read.TakesExactly n c := by
  cases k <;> cases h
  case byte => exact Read.byte_takesExactly c
  case bytes => exact Read.bytes_takesExactly _ c
  case remaining => exact Read.remaining_takesExactly c
  case u32le | single => exact Read.u32le_takesExactly c
  case double => exact Read.u64le_takesExactly c

theorem numberFailures_of_mostBytes? {k : ReadKind} {n : Nat} (h : n ∈ k.mostBytes?) :
    k.read.NumberFailures n := by
  cases k <;> cases h
  case u32 => exact Read.u32_numberFailures
  case u64 => exact Read.u64_numberFailures
  case s32 => exact (Read.signed_numberFailures 32).bind fun _ => .pure _
  case s33 => exact Read.signed_numberFailures 33
  case s64 => exact (Read.signedFrom_numberFailures 10 0 0).bind fun _ => .pure _

/-- All bytes that are left are taken without a look at their number; every other read is
thorough. -/
theorem read_thorough {k : ReadKind} (hk : k ≠ remaining) : k.read.Thorough := by
  cases k with
  | remaining => exact absurd rfl hk
  | byte => exact Read.byte_thorough
  | bytes n => exact .of_takesExactly (Read.bytes_takesExactly n)
  | u32 => exact Read.u32_thorough
  | u64 =>
    exact .bind Read.unsigned64_parses (Read.unsignedFrom_thorough _ _ _ _ _) fun _ => .pure _
  | s32 => exact .bind (Read.signed_parses 32) (Read.signed_thorough 32) fun _ => .pure _
  | s33 => exact Read.signed_thorough 33
  | s64 =>
    exact .bind (Read.signedFrom_parses _ 0 0) (Read.signedFrom_thorough _ 0 0) fun _ => .pure _
  | name => exact Read.name_thorough
  | u32le | single => exact .of_takesExactly Read.u32le_takesExactly
  | double => exact .of_takesExactly Read.u64le_takesExactly

theorem read_forward (k : ReadKind) : k.read.Forward := by
  by_cases hk : k = remaining
  · subst hk
    exact Read.remaining_forward
  · exact (read_thorough hk).forward

/-- What is returned stands between the cursors. -/
theorem exists_written {k : ReadKind} {c c' : Cursor} {a : k.Value} (h : k.read c = .ok a c') :
    ∃ bs, c.Takes bs c' ∧ k.Written bs a := by
  cases k with
  | byte => exact (Read.byte_parses c a c').1 h
  | bytes n =>
    have hn : 0 ≤ n := by
      by_contra hneg
      rw [read, (Read.bytes_takesExactly n c).short (.inl (by omega))] at h
      cases h
    obtain ⟨m, rfl⟩ := Int.eq_ofNat_of_zero_le hn
    obtain ⟨bs, hbs, heq, hlen⟩ := (Read.bytes_parses m c a c').1 h
    exact ⟨bs, hbs, heq, congrArg Nat.cast hlen⟩
  | remaining =>
    cases h
    refine ⟨_, c.takes_skip _, ?_⟩
    exact List.take_length
  | u32 => exact (Read.u32_parses c a c').1 h
  | u64 => exact (Read.u64_parses c a c').1 h
  | s32 => exact (Read.s32_parses c a c').1 h
  | s33 => exact (Read.signed_parses 33 c a c').1 h
  | s64 => exact (Read.s64_parses c a c').1 h
  | name => exact (Read.name_parses c a c').1 h
  | u32le | single => exact (Read.u32le_parses c a c').1 h
  | double => exact (Read.u64le_parses c a c').1 h

/-- Where a read of the kind `k` leaves the cursor `c` when it fails with the error `e`. -/
structure GivesUp (k : ReadKind) (c : Cursor) (e : Error) (c' : Cursor) : Prop where
  /-- A read whose size is known does not move. -/
  sized : (k.size? c).isSome → c' = c
  /-- A number has taken no more bytes than numbers have. -/
  number : ∀ n ∈ k.mostBytes?, c'.consumed ≤ c.consumed + n
  /-- A name has taken its size, or its bytes as well. -/
  name : k = name → c.StopsInName e c'
  /-- Every byte that was taken was examined. -/
  examined : ∀ i, c.consumed + i < c'.consumed → k.read.Examines c i

/-- **What a read that fails leaves behind.** -/
theorem givesUp_of_error {k : ReadKind} {c c' : Cursor} {e : Error} (h : k.read c = .error e c') :
    k.GivesUp c e c' where
  sized hsize := by
    obtain ⟨n, hn⟩ := Option.isSome_iff_exists.1 hsize
    exact ((takesExactly_of_size? hn).of_error h).2.2
  number n hn := by
    have hk : k ≠ remaining := by
      rintro rfl
      cases hn
    rw [← Read.cursorAfter_of_error h]
    exact (numberFailures_of_mostBytes? hn).consumed_le (read_thorough hk) c
  name hk := by
    subst hk
    exact Read.stopsInName_of_error h
  examined i hi := by
    have hk : k ≠ remaining := by
      rintro rfl
      cases h
    obtain ⟨bs, hbs⟩ := ((read_forward k).of_error h).exists_takes
    rw [hbs.consumed] at hi
    rw [← Read.cursorAfter_of_error h] at hbs
    exact (read_thorough hk).examines hbs (by omega)

end ReadKind

/-! ## One read after the other -/

namespace Cursor

/-- The cursor behind reads of the given kinds, whether they succeed or fail. -/
def after (c : Cursor) : List ReadKind → Cursor
  | [] => c
  | k :: ks => (k.read.cursorAfter c).after ks

theorem after_concat (c : Cursor) (ks : List ReadKind) (k : ReadKind) :
    c.after (ks ++ [k]) = k.read.cursorAfter (c.after ks) := by
  induction ks generalizing c with
  | nil => rfl
  | cons k' ks ih => exact ih _

/-- The cursor stands in the bytes `data`, of which the first has the offset `base`. -/
structure StandsIn (c : Cursor) (data : Bytes) (base : Int) : Prop where
  consumed_le : c.consumed ≤ data.length
  rest : c.rest = data.drop c.consumed
  position : c.position = base + c.consumed
  consumed_add : c.consumed + c.rest.length = data.length

variable {c c' : Cursor} {data : Bytes} {base : Int}

theorem standsIn_ofBytes (data : Bytes) (base : Int) : (ofBytes data base).StandsIn data base :=
  ⟨Nat.zero_le _, rfl, rfl, Nat.zero_add _⟩

/-- Moving forward leads to another place in the same bytes. -/
theorem StandsIn.takes (h : c.StandsIn data base) {bs : Bytes} (hbs : c.Takes bs c') :
    c'.StandsIn data base := by
  have hadd : c'.consumed + c'.rest.length = data.length := by
    rw [← h.consumed_add, hbs.consumed, hbs.rest, List.length_append, Nat.add_assoc]
  refine ⟨?_, ?_, ?_, hadd⟩
  · rw [← hadd]
    exact Nat.le_add_right _ _
  · rw [hbs.consumed, ← List.drop_drop, ← h.rest, hbs.rest, List.drop_left]
  · have hposition : c.base + c.consumed = base + c.consumed := h.position
    rw [Cursor.position, hbs.base, hbs.consumed]
    omega

/-- The bytes between two cursors, as a part of the whole. -/
theorem StandsIn.extract_eq (h : c.StandsIn data base) {bs : Bytes} (hbs : c.Takes bs c') :
    data.extract c.consumed c'.consumed = bs := by
  rw [List.extract_eq_take_drop, ← h.rest, hbs.rest, hbs.consumed, Nat.add_sub_cancel_left,
    List.take_left]

/-- **A cursor stays in its bytes**, whatever is read. -/
theorem after_standsIn (data : Bytes) (base : Int) (ks : List ReadKind) :
    ((ofBytes data base).after ks).StandsIn data base := by
  induction ks using List.reverseRecOn with
  | nil => exact standsIn_ofBytes data base
  | append_singleton ks k ih =>
    rw [after_concat]
    obtain ⟨bs, hbs⟩ := (k.read_forward ((ofBytes data base).after ks)).exists_takes
    exact ih.takes hbs

/-- **Every byte is accounted for, whatever is read and however it ends.** Behind any reads, the
cursor stands inside of the bytes: its position is the base and the number of bytes consumed, and
these and the bytes that are left make up the whole. The next read does not move it back. What it
returns is what stands in the bytes from where it started to where it stopped. A read of a known
size takes all of its bytes, or fails and does not move. A number or a name that cannot be read has
taken bytes that it examined, and a number at most five or ten of them. -/
theorem reads_account_for_bytes (data : Bytes) (base : Int) (earlier : List ReadKind)
    (k : ReadKind) :
    let c := (ofBytes data base).after earlier
    let c' := (ofBytes data base).after (earlier ++ [k])
    c.StandsIn data base ∧ c'.StandsIn data base ∧ c.consumed ≤ c'.consumed ∧
      (∀ a c₁, k.read c = .ok a c₁ →
        c₁ = c' ∧ k.Written (data.extract c.consumed c'.consumed) a) ∧
      (∀ e c₁, k.read c = .error e c₁ → c₁ = c' ∧ k.GivesUp c e c') ∧
      ∀ n ∈ k.size? c, k.read.TakesExactly n c := by
  intro c c'
  have hafter : c' = k.read.cursorAfter c := after_concat _ _ _
  have hstands : c.StandsIn data base := after_standsIn data base earlier
  obtain ⟨bs, hbs⟩ := (k.read_forward c).exists_takes
  rw [← hafter] at hbs
  refine ⟨hstands, hstands.takes hbs, ?_, fun a c₁ h => ?_, fun e c₁ h => ?_,
    fun n hn => ReadKind.takesExactly_of_size? hn⟩
  · rw [hbs.consumed]
    exact Nat.le_add_right _ _
  · obtain rfl : c' = c₁ := hafter.trans (Read.cursorAfter_of_ok h)
    obtain ⟨taken, htaken, hwritten⟩ := ReadKind.exists_written h
    rw [hstands.extract_eq htaken]
    exact ⟨rfl, hwritten⟩
  · obtain rfl : c' = c₁ := hafter.trans (Read.cursorAfter_of_error h)
    exact ⟨rfl, ReadKind.givesUp_of_error h⟩

/-- A number that is too large, fewer bytes than none, a name that is no text, and a word that is
not there. -/
example : (ofBytes [0xFF, 0xFF, 0xFF, 0xFF, 0x7F, 2, 0xC3, 0x28, 9] 10).after
    [.u32, .bytes (-1), .name, .u32le] = ⟨10, 8, [9]⟩ := by
  decide

end Cursor

end WasmUdon
