import WasmUdon.Binary.Cursor

/-!
# What reads accept

A read is compared with a relation between byte strings and values: `Read.Parses r G` says that
`r` succeeds with a value exactly when bytes that `G` relates to the value stand in front of the
cursor, and that it stops right behind them. Since the bytes further on are left open, the property
passes from the parts of a read to the whole (`Parses.bind`).

A read is steady (`Read.Steady`) if it decides on the bytes that it takes: more bytes at the end
of the input change neither its value nor its failure, unless the failure was that the input ended
early.
-/

namespace WasmUdon

namespace Cursor

/-- The bytes `taken` lie between the cursors `c` and `c'`. -/
structure Takes (c : Cursor) (taken : Bytes) (c' : Cursor) : Prop where
  base : c'.base = c.base
  rest : c.rest = taken ++ c'.rest
  consumed : c'.consumed = c.consumed + taken.length

theorem Takes.refl (c : Cursor) : c.Takes [] c := ⟨rfl, rfl, rfl⟩

theorem Takes.trans {a b c : Cursor} {s t : Bytes} (h : a.Takes s b) (h' : b.Takes t c) :
    a.Takes (s ++ t) c := by
  refine ⟨h'.base.trans h.base, ?_, ?_⟩
  · rw [h.rest, h'.rest, List.append_assoc]
  · rw [h'.consumed, h.consumed, List.length_append, Nat.add_assoc]

theorem Takes.unique {c c₁ c₂ : Cursor} {bs : Bytes} (h₁ : c.Takes bs c₁) (h₂ : c.Takes bs c₂) :
    c₁ = c₂ := by
  obtain ⟨base₁, consumed₁, rest₁⟩ := c₁
  obtain ⟨base₂, consumed₂, rest₂⟩ := c₂
  have hb : base₁ = base₂ := h₁.base.trans h₂.base.symm
  have hn : consumed₁ = consumed₂ := h₁.consumed.trans h₂.consumed.symm
  have hr : rest₁ = rest₂ := List.append_cancel_left (h₁.rest.symm.trans h₂.rest)
  rw [hb, hn, hr]

theorem Takes.bytes_unique {c c' : Cursor} {s t : Bytes} (hs : c.Takes s c') (ht : c.Takes t c') :
    s = t := List.append_cancel_right (hs.rest.symm.trans ht.rest)

theorem Takes.eq_of_nil {c c' : Cursor} (h : c.Takes [] c') : c' = c := h.unique (.refl c)

/-- Bytes in front of the cursor can be cut in two. -/
theorem Takes.split {c c' : Cursor} {s t : Bytes} (h : c.Takes (s ++ t) c') :
    ∃ b, c.Takes s b ∧ b.Takes t c' := by
  refine ⟨⟨c.base, c.consumed + s.length, t ++ c'.rest⟩, ⟨rfl, ?_, rfl⟩, h.base, rfl, ?_⟩
  · rw [h.rest, List.append_assoc]
  · rw [h.consumed, List.length_append, Nat.add_assoc]

theorem takes_skip (c : Cursor) (n : Nat) : c.Takes (c.rest.take n) (c.skip n) :=
  ⟨rfl, (List.take_append_drop n c.rest).symm, rfl⟩

/-- The cursor at the same place of a longer input. -/
def append (c : Cursor) (extra : Bytes) : Cursor := { c with rest := c.rest ++ extra }

@[simp]
theorem position_append (c : Cursor) (extra : Bytes) :
    (c.append extra).position = c.position := rfl

@[simp]
theorem rest_append (c : Cursor) (extra : Bytes) : (c.append extra).rest = c.rest ++ extra := rfl

@[simp]
theorem consumed_append (c : Cursor) (extra : Bytes) :
    (c.append extra).consumed = c.consumed := rfl

end Cursor

namespace Read

variable {α β : Type} {r : Read α} {f : α → Read β}

/-! ## Sequences of reads -/

theorem bind_eq_ok_iff {c c' : Cursor} {b : β} :
    (r >>= f) c = .ok b c' ↔ ∃ a c₁, r c = .ok a c₁ ∧ f a c₁ = .ok b c' := by
  simp only [bind, EStateM.bind]
  cases r c with
  | ok a c₁ => simp [and_assoc]
  | error e c₁ => simp

theorem bind_eq_error_iff {c c' : Cursor} {e : Error} :
    (r >>= f) c = .error e c' ↔
      r c = .error e c' ∨ ∃ a c₁, r c = .ok a c₁ ∧ f a c₁ = .error e c' := by
  simp only [bind, EStateM.bind]
  cases r c with
  | ok a c₁ => simp [and_assoc]
  | error e c₁ => simp

theorem bind_of_error {c c₁ : Cursor} {e : Error} (h : r c = .error e c₁) :
    (r >>= f) c = .error e c₁ := by
  simp only [bind, EStateM.bind, h]

theorem remainingSize_bind (f : Nat → Read β) (c : Cursor) :
    (remainingSize >>= f) c = f c.rest.length c := rfl

theorem position_bind (f : Int → Read β) (c : Cursor) :
    (position >>= f) c = f c.position c := rfl

theorem remaining_bind (f : Bytes → Read β) (c : Cursor) :
    (remaining >>= f) c = f c.rest (c.skip c.rest.length) := rfl

/-! ## Reads and the bytes they accept -/

/-- The read succeeds exactly on the byte strings that `G` relates to its value. -/
def Parses (r : Read α) (G : Bytes → α → Prop) : Prop :=
  ∀ (c : Cursor) (a : α) (c' : Cursor), r c = .ok a c' ↔ ∃ bs, c.Takes bs c' ∧ G bs a

theorem Parses.congr {G H : Bytes → α → Prop} (h : r.Parses G) (hGH : ∀ bs a, G bs a ↔ H bs a) :
    r.Parses H := by
  intro c a c'
  simp only [h c a c', hGH]

theorem Parses.pure (a : α) : Parses (Pure.pure a) fun bs b => bs = [] ∧ b = a := by
  intro c b c'
  constructor
  · intro h
    cases h
    exact ⟨[], .refl c, rfl, rfl⟩
  · rintro ⟨bs, hc, rfl, rfl⟩
    rw [hc.eq_of_nil]
    rfl

theorem Parses.bind {G : Bytes → α → Prop} {H : α → Bytes → β → Prop} (hr : r.Parses G)
    (hf : ∀ a, (f a).Parses (H a)) :
    (r >>= f).Parses fun bs b => ∃ a s t, bs = s ++ t ∧ G s a ∧ H a t b := by
  intro c b c'
  rw [bind_eq_ok_iff]
  constructor
  · rintro ⟨a, c₁, hra, hfa⟩
    obtain ⟨s, hs, hG⟩ := (hr c a c₁).1 hra
    obtain ⟨t, ht, hH⟩ := (hf a c₁ b c').1 hfa
    exact ⟨s ++ t, hs.trans ht, a, s, t, rfl, hG, hH⟩
  · rintro ⟨bs, hc, a, s, t, rfl, hG, hH⟩
    obtain ⟨c₁, hs, ht⟩ := hc.split
    exact ⟨a, c₁, (hr c a c₁).2 ⟨s, hs, hG⟩, (hf a c₁ b c').2 ⟨t, ht, hH⟩⟩

/-- The bytes that a read took are related to its value. -/
theorem Parses.of_takes {G : Bytes → α → Prop} (h : r.Parses G) {c c' : Cursor} {a : α} {bs : Bytes}
    (hr : r c = .ok a c') (hbs : c.Takes bs c') : G bs a := by
  obtain ⟨bs', hbs', ha⟩ := (h c a c').1 hr
  rw [hbs.bytes_unique hbs']
  exact ha

/-- What is accepted in front of a byte string is accepted in one way only. -/
theorem Parses.unique {G : Bytes → α → Prop} (h : r.Parses G) {s t x y : Bytes} {a b : α}
    (hs : G s a) (ht : G t b) (heq : s ++ x = t ++ y) : s = t ∧ a = b ∧ x = y := by
  let c : Cursor := ⟨0, 0, s ++ x⟩
  have hcs : c.Takes s ⟨0, s.length, x⟩ := ⟨rfl, rfl, (Nat.zero_add _).symm⟩
  have hct : c.Takes t ⟨0, t.length, y⟩ := ⟨rfl, heq, (Nat.zero_add _).symm⟩
  have hra : r c = .ok a ⟨0, s.length, x⟩ := (h c a _).2 ⟨s, hcs, hs⟩
  have hrb : r c = .ok b ⟨0, t.length, y⟩ := (h c b _).2 ⟨t, hct, ht⟩
  rw [hra] at hrb
  simp only [EStateM.Result.ok.injEq, Cursor.mk.injEq, true_and] at hrb
  obtain ⟨hab, hlen, hxy⟩ := hrb
  exact ⟨(List.append_inj heq hlen).1, hab, hxy⟩

/-- A read whose value is packed up. -/
theorem Parses.map {G : Bytes → α → Prop} (hr : r.Parses G) (g : α → β) :
    (r >>= fun a => Pure.pure (g a)).Parses fun bs b => ∃ a, G bs a ∧ b = g a := by
  refine (hr.bind fun a => Parses.pure (g a)).congr fun bs b => ?_
  constructor
  · rintro ⟨a, s, t, rfl, ha, rfl, rfl⟩
    exact ⟨a, by simpa using ha, rfl⟩
  · rintro ⟨a, ha, rfl⟩
    exact ⟨a, bs, [], by simp, ha, rfl, rfl⟩

theorem throw_parses {e : Error} {G : Bytes → α → Prop} (hG : ∀ bs a, ¬ G bs a) :
    (throw e : Read α).Parses G := by
  intro c a c'
  constructor
  · intro h
    cases h
  · rintro ⟨bs, -, h⟩
    exact absurd h (hG bs a)

theorem byte_parses : byte.Parses fun bs b => bs = [b] := by
  intro c b c'
  constructor
  · intro h
    rcases c with ⟨base, consumed, _ | ⟨b', rest⟩⟩
    · simp [byte] at h
    · simp only [byte, EStateM.Result.ok.injEq] at h
      obtain ⟨rfl, rfl⟩ := h
      exact ⟨[b'], ⟨rfl, rfl, rfl⟩, rfl⟩
  · rintro ⟨bs, hc, rfl⟩
    obtain ⟨base, consumed, rest⟩ := c
    have hrest : rest = b :: c'.rest := hc.rest
    subst hrest
    have hskip : (Cursor.mk base consumed (b :: c'.rest)).Takes [b] (.skip _ 1) := ⟨rfl, rfl, rfl⟩
    rw [hc.unique hskip]
    rfl

theorem bytes_parses (n : Nat) : (bytes n).Parses fun bs a => bs = a ∧ a.length = n := by
  intro c a c'
  have hcond : ((n : Int) < 0 ∨ (c.rest.length : Int) < n) ↔ c.rest.length < n := by omega
  simp only [bytes, hcond, Int.toNat_natCast]
  constructor
  · intro h
    split at h
    · simp at h
    · simp only [EStateM.Result.ok.injEq] at h
      obtain ⟨rfl, rfl⟩ := h
      refine ⟨_, c.takes_skip n, rfl, ?_⟩
      rw [List.length_take]
      omega
  · rintro ⟨bs, hc, rfl, rfl⟩
    have hlen : ¬ c.rest.length < bs.length := by
      rw [hc.rest, List.length_append]
      omega
    have htake : c.rest.take bs.length = bs := by rw [hc.rest, List.take_left]
    have hskip := c.takes_skip bs.length
    rw [htake] at hskip
    rw [if_neg hlen, htake, hc.unique hskip]

/-! ## Steady reads -/

/-- More bytes at the end of the input change neither the value nor a failure other than that the
input ended early. -/
structure Steady (r : Read α) : Prop where
  ok : ∀ {c c' : Cursor} {a : α} (extra : Bytes), r c = .ok a c' →
    r (c.append extra) = .ok a (c'.append extra)
  error : ∀ {c c' : Cursor} {e : Error} (extra : Bytes), r c = .error e c' →
    e.isTruncated = false → r (c.append extra) = .error e (c'.append extra)

theorem Steady.pure (a : α) : Steady (Pure.pure a : Read α) where
  ok := by
    intro c c' b extra h
    cases h
    rfl
  error := by
    intro c c' e extra h
    cases h

theorem Steady.bind (hr : r.Steady) (hf : ∀ a, (f a).Steady) : (r >>= f).Steady where
  ok := by
    intro c c' b extra h
    obtain ⟨a, c₁, hra, hfa⟩ := bind_eq_ok_iff.1 h
    exact bind_eq_ok_iff.2 ⟨a, c₁.append extra, hr.ok extra hra, (hf a).ok extra hfa⟩
  error := by
    intro c c' e extra h he
    rcases bind_eq_error_iff.1 h with hra | ⟨a, c₁, hra, hfa⟩
    · exact bind_of_error (hr.error extra hra he)
    · exact bind_eq_error_iff.2 (.inr ⟨a, c₁.append extra, hr.ok extra hra,
        (hf a).error extra hfa he⟩)

theorem byte_steady : byte.Steady where
  ok := by
    intro c c' b extra h
    rcases c with ⟨base, consumed, _ | ⟨b', rest⟩⟩
    · simp [byte] at h
    · simp only [byte, EStateM.Result.ok.injEq] at h
      obtain ⟨rfl, rfl⟩ := h
      rfl
  error := by
    intro c c' e extra h he
    rcases c with ⟨base, consumed, _ | ⟨b', rest⟩⟩
    · simp only [byte, EStateM.Result.error.injEq] at h
      obtain ⟨rfl, -⟩ := h
      simp [Error.isTruncated, Error.truncated, Error.layers] at he
    · simp [byte] at h

end Read

end WasmUdon
