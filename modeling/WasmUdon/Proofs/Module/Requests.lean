import WasmUdon.Proofs.Module.Arrival

/-!
# Requests for more bytes

A step that cannot decide before the end of the input asks for more bytes and says how many. A
request that is too large would keep a driver waiting for bytes that never come, and one for no
bytes at all would keep it running in a circle.

The size of the next record is known as soon as the header is expected or the size of a section has
arrived. From then on a step asks for exactly the bytes that are missing (`AsksUpTo`,
`exists_asksUpTo`). Before that it asks for one byte (`hint_eq_one`). `Stream.requests_exact` says
what this means for the bytes that follow.
-/

namespace WasmUdon

/-- The bytes start with the identifier and the size of a section. -/
def HoldsSize (data : Bytes) : Prop :=
  ∃ code n size tail, data = code :: (size ++ tail) ∧ IsUnsigned 32 n size

namespace Stream

/-- The step asks for more bytes. -/
def Asks (s : Stream) (data : Bytes) : Prop :=
  ∃ hint, (s.step data false).1 = .ok (.needMore hint)

/-- The step reads a record or fails. -/
def Decides (s : Stream) (data : Bytes) : Prop :=
  (∃ r n, (s.step data false).1 = .ok (.record r n)) ∨ ∃ e, (s.step data false).1 = .error e

/-- A step on the bytes, whatever follows them, asks for exactly those that are missing up to
`total`. -/
def AsksUpTo (s : Stream) (data : Bytes) (total : Nat) : Prop :=
  ∀ extra hint, (s.step (data ++ extra) false).1 = .ok (.needMore hint) ↔
    (data ++ extra).length < total ∧ hint = total - (data ++ extra).length

variable {s : Stream} {data : Bytes} {hint : Nat}

theorem decides_iff_not_asks : s.Decides data ↔ ¬ s.Asks data := by
  unfold Decides Asks
  rcases (s.step data false).1 with e | hint | ⟨r, n⟩ <;> simp

/-! ## Where the size of the record is known -/

theorem readHeader_eq_needMore_iff :
    (s.readHeader data false).1 = .ok (.needMore hint) ↔
      data.length < headerSize ∧ hint = headerSize - data.length := by
  unfold readHeader
  split
  · rename_i hlen
    simp [hlen, eq_comm]
  · rename_i hlen
    refine iff_of_false ?_ fun h => hlen h.1
    dsimp only
    repeat' split
    all_goals exact nofun

theorem readSection_eq_needMore_iff {code : UInt8} {n : Nat} {size tail : Bytes}
    (hsize : IsUnsigned 32 n size) :
    (s.readSection (code :: (size ++ tail)) false).1 = .ok (.needMore hint) ↔
      tail.length < n ∧ hint = n - tail.length := by
  have hcount : (UInt32.ofNat n).toNat = n := UInt32.toNat_ofNat_of_lt' hsize.lt
  have hread : Read.u32 ((Cursor.ofBytes (code :: (size ++ tail)) s.offset).skip 1) =
      .ok (UInt32.ofNat n) ⟨s.offset, 1 + size.length, tail⟩ :=
    u32_behind_code_eq_ok_iff.2 ⟨size, hcount.symm ▸ hsize, rfl, rfl⟩
  rw [readSection, hread]
  dsimp only
  rw [hcount]
  by_cases hlen : tail.length < n
  · simp [hlen, eq_comm]
  · rw [if_neg hlen]
    exact iff_of_false readBody_ne_needMore fun h => hlen h.1

/-- **Once the size of the next record is known, requests are exact.** -/
theorem exists_asksUpTo (h : s.stage = .header ∨ HoldsSize data) :
    ∃ total, s.AsksUpTo data total := by
  cases hstage : s.stage with
  | header =>
    refine ⟨headerSize, fun extra hint => ?_⟩
    simp only [step, hstage]
    exact readHeader_eq_needMore_iff
  | sections =>
    obtain ⟨code, n, size, tail, rfl, hsize⟩ := h.resolve_left (by simp [hstage])
    refine ⟨1 + size.length + n, fun extra hint => ?_⟩
    have hdata : code :: (size ++ tail) ++ extra = code :: (size ++ (tail ++ extra)) := by simp
    rw [hdata]
    simp only [step, hstage]
    rw [readSection_eq_needMore_iff hsize]
    simp only [List.length_cons, List.length_append]
    omega
  | done =>
    refine ⟨0, fun extra hint => ?_⟩
    simp [step, hstage]

/-! ## Where it is not known yet -/

/-- As long as the size of a section has not arrived, one byte is asked for. -/
theorem hint_eq_one (hstage : s.stage ≠ .header) (hdata : ¬ HoldsSize data)
    (h : (s.step data false).1 = .ok (.needMore hint)) : hint = 1 := by
  unfold step at h
  split at h
  · rename_i hheader
    exact absurd hheader hstage
  · unfold readSection at h
    split at h
    · cases h
      rfl
    · rename_i code tail
      split at h
      · split at h
        · cases h
          rfl
        · cases h
      · rename_i n c hread
        obtain ⟨size, hsize, rfl, -⟩ := u32_behind_code_eq_ok_iff.1 hread
        exact absurd ⟨code, n.toNat, size, c.rest, rfl, hsize⟩ hdata
  · cases h

/-- **Requests for more bytes are neither too small nor too large.** A step that asks for `hint`
bytes asks for one at least, and with fewer than `hint` more it still asks. If the header is
expected, or the size of the section has arrived, the step decides as soon as `hint` more bytes are
there. At the end of the input no step asks for more. -/
theorem requests_exact (s : Stream) (data : Bytes) :
    (∀ hint, (s.step data false).1 = .ok (.needMore hint) →
      1 ≤ hint ∧ (∀ extra : Bytes, extra.length < hint → s.Asks (data ++ extra)) ∧
        (s.stage = .header ∨ HoldsSize data →
          ∀ extra : Bytes, hint ≤ extra.length → s.Decides (data ++ extra))) ∧
      ∀ hint, (s.step data true).1 ≠ .ok (.needMore hint) := by
  refine ⟨fun hint h => ?_, fun hint => step_true_ne_needMore⟩
  by_cases hknown : s.stage = .header ∨ HoldsSize data
  · obtain ⟨total, htotal⟩ := exists_asksUpTo hknown
    have hnow := htotal [] hint
    rw [List.append_nil] at hnow
    obtain ⟨hlt, hhint⟩ := hnow.1 h
    refine ⟨by omega, fun extra hextra => ?_, fun _ extra hextra => ?_⟩
    · refine ⟨_, (htotal extra _).2 ⟨?_, rfl⟩⟩
      rw [List.length_append]
      omega
    · rw [decides_iff_not_asks]
      rintro ⟨hint', h'⟩
      have hlt' := ((htotal extra hint').1 h').1
      rw [List.length_append] at hlt'
      omega
  · obtain ⟨hstage, hdata⟩ := not_or.1 hknown
    obtain rfl := hint_eq_one hstage hdata h
    refine ⟨Nat.le_refl 1, fun extra hextra => ?_, fun hknown' => absurd hknown' hknown⟩
    -- fewer bytes than one are none
    obtain rfl := List.eq_nil_of_length_eq_zero (Nat.lt_one_iff.1 hextra)
    rw [List.append_nil]
    exact ⟨1, h⟩

/-- A section of five bytes, its size written in two: one byte of it is there, and four are asked
for. -/
example : (step { offset := 8, stage := .sections } [0x06, 0x85, 0x00, 0x01] false).1 =
    .ok (.needMore 4) := by decide

end Stream

end WasmUdon
