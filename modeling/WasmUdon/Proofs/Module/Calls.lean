import WasmUdon.Proofs.Module.Failures

/-!
# Decoders that are called again and again

A decoder and its stream each keep a position. Every call keeps the two in step, and a record moves
both by its size (`Decoder.next_cases`). A call that fails, and a call that reads the end of the
module, leave a decoder that is stuck: the next call fails and changes nothing
(`Decoder.IsStuck`). So the first failure is the last news of a decoder, however often it is called
(`Decoder.calls_in_step`).

This is not plain, since a failed step may change the stream: a section whose payload cannot be
read counts as met (`Stream.step_of_error`). The same section is then refused as a duplicate.
-/

namespace WasmUdon

namespace Stream

/-! ## Steps that fail -/

theorem accept_eq_ok {s s' : Stream} {code : UInt8} {id : SectionId}
    (h : s.accept code = .ok (id, s')) : SectionId.ofCode? code = some id ∧ s' = s.mark id := by
  unfold accept at h
  split at h
  · cases h
  · rename_i hcode
    cases h
    exact ⟨hcode, (if_pos rfl).symm⟩
  · rename_i id' hne hcode
    split at h
    · cases h
    · split at h
      · cases h
      · cases h
        exact ⟨hcode, (if_neg hne).symm⟩

@[simp]
theorem offset_mark (s : Stream) (id : SectionId) : (s.mark id).offset = s.offset := by
  unfold mark
  split <;> rfl

@[simp]
theorem stage_mark (s : Stream) (id : SectionId) : (s.mark id).stage = s.stage := by
  unfold mark
  split <;> rfl

/-- A section that was met is refused, unless it is a custom one. -/
theorem accept_mark {s : Stream} {code : UInt8} {id : SectionId}
    (hcode : SectionId.ofCode? code = some id) (hid : id ≠ .custom) :
    ∃ e, (s.mark id).accept code = .error e := by
  have hseen : id ∈ (s.mark id).seen := by
    rw [mark, if_neg hid]
    exact List.mem_cons_self
  unfold accept
  rw [hcode]
  split
  · exact ⟨_, rfl⟩
  · rename_i hcustom
    exact absurd (Option.some.inj hcustom) hid
  · rename_i hsome
    cases hsome
    exact ⟨_, if_pos hseen⟩

/-- The stream `s'` is what a failed read leaves of `s`: it stands where `s` stands, and the same
read fails on it and changes nothing. -/
structure StuckBehind (s : Stream) (read : Stream → Except Error Chunk × Stream) (s' : Stream) :
    Prop where
  offset : s'.offset = s.offset
  stage : s'.stage = s.stage
  again : ∃ e, read s' = (.error e, s')

/-- A failed read that left the stream as it was fails again. -/
theorem StuckBehind.same {s : Stream} {read : Stream → Except Error Chunk × Stream} {e : Error}
    (h : read s = (.error e, s)) : s.StuckBehind read s :=
  ⟨rfl, rfl, e, h⟩

theorem readBody_of_error {s s' : Stream} {code : UInt8} {size : Nat} {c : Cursor} {e : Error}
    (h : s.readBody code size c = (.error e, s')) :
    s.StuckBehind (·.readBody code size c) s' := by
  have hagain := h
  unfold readBody at h
  split at h
  · cases h
    exact .same hagain
  · rename_i id s₁ hacc
    obtain ⟨hcode, rfl⟩ := accept_eq_ok hacc
    dsimp only at h
    split at h
    · cases h
      by_cases hid : id = .custom
      · have hmark : s.mark id = s := if_pos hid
        rw [hmark] at hagain ⊢
        exact .same hagain
      · -- the section counts as met although its payload was refused
        obtain ⟨e', he'⟩ := accept_mark (s := s) hcode hid
        refine ⟨offset_mark s id, stage_mark s id, e', ?_⟩
        simp only [readBody, he']
    · cases h

theorem readHeader_of_error {s s' : Stream} {data : Bytes} {eof : Bool} {e : Error}
    (h : s.readHeader data eof = (.error e, s')) : s' = s := by
  unfold readHeader at h
  split at h
  · split at h <;> cases h
    rfl
  · dsimp only at h
    split at h
    · cases h
      rfl
    · split at h <;> cases h
      rfl

theorem readSection_of_error {s s' : Stream} {data : Bytes} {eof : Bool} {e : Error}
    (h : s.readSection data eof = (.error e, s')) :
    s.StuckBehind (·.readSection data eof) s' := by
  have hagain := h
  unfold readSection at h
  split at h
  · split at h <;> cases h
  · rename_i code tail
    split at h
    · split at h
      · split at h <;> cases h
        exact .same hagain
      · cases h
        exact .same hagain
    · rename_i size c hsize
      split at h
      · split at h <;> cases h
        exact .same hagain
      · rename_i hlen
        obtain ⟨hoffset, hstage, e', he'⟩ := readBody_of_error h
        refine ⟨hoffset, hstage, e', ?_⟩
        simp only [readSection, hoffset, hsize, if_neg hlen]
        exact he'

/-- **A step that fails leaves a stream on which it fails again**, and which stands where it
stood. -/
theorem step_of_error {s s' : Stream} {data : Bytes} {eof : Bool} {e : Error}
    (h : s.step data eof = (.error e, s')) : s.StuckBehind (·.step data eof) s' := by
  have hagain := h
  unfold step at h
  split at h
  · obtain rfl := readHeader_of_error h
    exact .same hagain
  · rename_i hstage
    obtain ⟨hoffset, hstage', e', he'⟩ := readSection_of_error h
    refine ⟨hoffset, hstage', e', ?_⟩
    simp only [step, hstage', hstage]
    exact he'
  · cases h
    exact .same hagain

theorem step_of_done {s : Stream} (h : s.stage = .done) (data : Bytes) (eof : Bool) :
    ∃ e, s.step data eof = (.error e, s) := by
  rw [step, h]
  exact ⟨_, rfl⟩

/-! ## Steps that read a record -/

theorem offset_of_readBody {s s' : Stream} {code : UInt8} {size n : Nat} {c : Cursor} {r : Record}
    (h : s.readBody code size c = (.ok (.record r n), s')) : s'.offset = s.offset + n := by
  unfold readBody at h
  split at h
  · cases h
  · dsimp only at h
    split at h
    · cases h
    · cases h
      rw [Nat.cast_add]

/-- A record moves the stream by the bytes it takes. -/
theorem offset_of_step {s s' : Stream} {data : Bytes} {eof : Bool} {r : Record} {n : Nat}
    (h : s.step data eof = (.ok (.record r n), s')) : s'.offset = s.offset + n := by
  unfold step at h
  split at h
  · obtain ⟨rest, -, -, rfl, rfl⟩ := readHeader_eq_record_iff.1 h
    rfl
  · unfold readSection at h
    split at h
    · split at h <;> cases h
      exact (Int.add_zero _).symm
    · split at h
      · split at h
        · split at h <;> cases h
        · cases h
      · split at h
        · split at h <;> cases h
        · exact offset_of_readBody h
  · cases h

/-- The end of the module is read where no bytes are left, and the stream is done then. -/
theorem finish_of_step {s s' : Stream} {data : Bytes} {eof : Bool} {r : Record} {n : Nat}
    (h : s.step data eof = (.ok (.record r n), s')) (hr : r.isFinish = true) :
    data = [] ∧ s'.stage = .done := by
  unfold step at h
  split at h
  · obtain ⟨rest, -, rfl, -, -⟩ := readHeader_eq_record_iff.1 h
    cases hr
  · obtain rfl := eq_nil_of_readSection_finish hr h
    simp only [readSection] at h
    split at h <;> cases h
    exact ⟨rfl, rfl⟩
  · cases h

end Stream

namespace Decoder

/-! ## One call -/

/-- The decoder stands where its stream stands. -/
def InStep (d : Decoder) : Prop := d.position = d.stream.offset

/-- A call fails and changes nothing. -/
def IsStuck (d : Decoder) : Prop := ∃ e, d.next = (.error e, d)

/-- An answer behind which there are no more records: a failure, or the end of the module. -/
def IsLast : Except Error Chunk → Prop
  | .error _ => True
  | .ok (.record r _) => r.isFinish = true
  | .ok (.needMore _) => False

/-- What a call does to a decoder: it fails and leaves a decoder that is stuck at the same place, or
it reads a record and moves behind it. Behind the end of the module, too, the decoder is stuck. -/
inductive Call (d : Decoder) : Except Error Chunk × Decoder → Prop
  | failed {e : Error} {d' : Decoder} (hdata : d'.data = d.data) (hstep : d'.InStep)
    (hposition : d'.position = d.position) (hstuck : d'.IsStuck) : Call d (.error e, d')
  | read {r : Record} {n : Nat} {d' : Decoder} (hdata : d'.data = d.data) (hstep : d'.InStep)
    (hposition : d'.position = d.position + n)
    (hend : r.isFinish = true → d'.position = d.data.length ∧ d'.IsStuck) :
    Call d (.ok (.record r n), d')

section Call

variable {d : Decoder} {x : Except Error Chunk × Decoder}

theorem Call.inStep (h : d.Call x) : x.2.InStep ∧ x.2.data = d.data := by
  cases h with
  | failed hdata hstep _ _ => exact ⟨hstep, hdata⟩
  | read hdata hstep _ _ => exact ⟨hstep, hdata⟩

theorem Call.position_le (h : d.Call x) : d.position ≤ x.2.position := by
  cases h with
  | failed _ _ hposition _ => exact hposition.ge
  | read _ _ hposition _ =>
    rw [hposition]
    omega

theorem Call.position_of_record (h : d.Call x) {r : Record} {n : Nat}
    (hx : x.1 = .ok (.record r n)) :
    x.2.position = d.position + n ∧ (r.isFinish = true → x.2.position = d.data.length) := by
  cases h with
  | failed => cases hx
  | read _ _ hposition hend =>
    cases hx
    exact ⟨hposition, fun hr => (hend hr).1⟩

theorem Call.position_of_error (h : d.Call x) {e : Error} (hx : x.1 = .error e) :
    x.2.position = d.position := by
  cases h with
  | failed _ _ hposition _ => exact hposition
  | read => cases hx

theorem Call.ne_needMore (h : d.Call x) (hint : Nat) : x.1 ≠ .ok (.needMore hint) := by
  cases h <;> nofun

theorem Call.isStuck (h : d.Call x) (hlast : IsLast x.1) : x.2.IsStuck := by
  cases h with
  | failed _ _ _ hstuck => exact hstuck
  | read _ _ _ hend => exact (hend hlast).2

end Call

/-- A decoder inside of its bytes is stuck if its stream fails and does not change. -/
theorem isStuck_of_step {d : Decoder} {e : Error}
    (hin : ¬(d.position < 0 ∨ (d.data.length : Int) < d.position))
    (h : d.stream.step (d.data.drop d.position.toNat) true = (.error e, d.stream)) : d.IsStuck := by
  refine ⟨e, ?_⟩
  rw [next, if_neg hin, h]

/-- **What one call can do.** -/
theorem next_cases {d : Decoder} (h : d.InStep) : d.Call d.next := by
  rw [next]
  split
  · rename_i hout
    exact .failed rfl h rfl ⟨_, if_pos hout⟩
  · rename_i hin
    rcases hstep : d.stream.step (d.data.drop d.position.toNat) true with ⟨e | hint | ⟨r, n⟩, s'⟩
    · obtain ⟨hoffset, -, e', he'⟩ := Stream.step_of_error hstep
      exact .failed rfl (h.trans hoffset.symm) rfl (isStuck_of_step hin he')
    · exact absurd (congrArg Prod.fst hstep) Stream.step_true_ne_needMore
    · have hoffset : s'.offset = d.stream.offset + n := Stream.offset_of_step hstep
      refine .read rfl ?_ rfl fun hr => ?_
      · change d.position + n = s'.offset
        rw [hoffset, ← h]
      · obtain ⟨hnil, hdone⟩ := Stream.finish_of_step hstep hr
        have hle : n ≤ 0 := by simpa [hnil] using Stream.consumed_le_of_step hstep
        have hend : d.data.length ≤ d.position.toNat := List.drop_eq_nil_iff.1 hnil
        have hposition : d.position + n = d.data.length := by omega
        obtain ⟨e, he⟩ := Stream.step_of_done hdone
          (d.data.drop (d.position + n).toNat) true
        have hin' : ¬(d.position + n < 0 ∨ (d.data.length : Int) < d.position + n) := by omega
        exact ⟨hposition, isStuck_of_step hin' he⟩

/-! ## Many calls -/

/-- The decoder after `n` calls. -/
def after (d : Decoder) : Nat → Decoder
  | 0 => d
  | n + 1 => (d.after n).next.2

/-- What the call behind `n` calls returns. -/
def answer (d : Decoder) (n : Nat) : Except Error Chunk := (d.after n).next.1

theorem after_inStep {d : Decoder} (h : d.InStep) (n : Nat) :
    (d.after n).InStep ∧ (d.after n).data = d.data := by
  induction n with
  | zero => exact ⟨h, rfl⟩
  | succ n ih =>
    obtain ⟨hstep, hdata⟩ := (next_cases ih.1).inStep
    exact ⟨hstep, hdata.trans ih.2⟩

/-- A decoder that is stuck stays as it is. -/
theorem after_of_isStuck {d : Decoder} {n : Nat} (h : (d.after n).IsStuck) (k : Nat) :
    d.after (n + k) = d.after n := by
  obtain ⟨e, he⟩ := h
  induction k with
  | zero => rfl
  | succ k ih => rw [← Nat.add_assoc, after, ih, he]

/-- **A decoder keeps in step with its stream and never comes back from its last answer.** Whatever
the bytes and the offset, and however many calls went before: the decoder stands where its stream
stands, and a call never moves it back. A record moves it by the bytes that the record takes, a
failure leaves it where it is, and no call asks for more bytes. Behind a failure or the end of the
module every call fails and the position stays, and the end of the module is read at the end of the
bytes. -/
theorem calls_in_step (data : Bytes) (offset : Int) (n : Nat) :
    let d := ofBytes data offset
    (d.after n).position = (d.after n).stream.offset ∧
      (d.after n).position ≤ (d.after (n + 1)).position ∧
      (∀ r k, d.answer n = .ok (.record r k) →
        (d.after (n + 1)).position = (d.after n).position + k) ∧
      (∀ e, d.answer n = .error e → (d.after (n + 1)).position = (d.after n).position) ∧
      (∀ hint, d.answer n ≠ .ok (.needMore hint)) ∧
      (IsLast (d.answer n) → ∀ m, n < m →
        (∃ e, d.answer m = .error e) ∧ (d.after m).position = (d.after (n + 1)).position) ∧
      ∀ r k, d.answer n = .ok (.record r k) → r.isFinish = true →
        (d.after (n + 1)).position = data.length := by
  intro d
  obtain ⟨hstep, hdata⟩ := after_inStep (rfl : d.InStep) n
  have hcall : (d.after n).Call (d.answer n, d.after (n + 1)) := next_cases hstep
  refine ⟨hstep, hcall.position_le, fun r k h => (hcall.position_of_record h).1,
    fun e => hcall.position_of_error, hcall.ne_needMore, fun hlast m hm => ?_, fun r k h hr => ?_⟩
  · obtain ⟨k, rfl⟩ := Nat.exists_eq_add_of_lt hm
    have hstuck : (d.after (n + 1)).IsStuck := hcall.isStuck hlast
    have hsame : d.after (n + k + 1) = d.after (n + 1) := by
      rw [Nat.add_right_comm]
      exact after_of_isStuck hstuck k
    obtain ⟨e, he⟩ := hstuck
    refine ⟨⟨e, ?_⟩, by rw [hsame]⟩
    rw [answer, hsame, he]
  · rw [(hcall.position_of_record h).2 hr, hdata]
    rfl

end Decoder

end WasmUdon
