import WasmUdon.Proofs.Error.Places
import WasmUdon.Proofs.Module.Decoding

/-!
# Where reading a module fails

A stream is given the bytes from its own position on, and the payload of a section is read as if it
stood alone, so the places that are blamed are counted from three bases: the position of the stream,
the start of the section, and the start of its payload. All the same, a step that fails blames a
place from the start of the record it was to read to the end of the bytes
(`Stream.foundIn_of_step`), and the records read before lie end to end up to that start
(`exists_tile_of_walkModule`).
-/

namespace WasmUdon

namespace Stream

variable {s s' : Stream} {data : Bytes} {eof : Bool} {e : Error}

/-! ## One step -/

theorem foundIn_of_accept {code : UInt8} {high : Int} (h : s.accept code = .error e)
    (hhigh : s.offset ≤ high) : e.FoundIn s.offset high := by
  unfold accept at h
  split at h
  · cases h
    exact Error.foundIn_decode_none (Int.le_refl _) hhigh
  · cases h
  · split at h
    · cases h
      exact Error.foundIn_decode_none (Int.le_refl _) hhigh
    · split at h
      · cases h
        exact Error.foundIn_decode_none (Int.le_refl _) hhigh
      · cases h

theorem foundIn_of_readHeader (h : s.readHeader data eof = (.error e, s')) :
    e.FoundIn s.offset (s.offset + data.length) := by
  unfold readHeader at h
  split at h
  · split at h
    · cases h
      exact Error.foundIn_decode_none (by omega) (Int.le_refl _)
    · cases h
  · rename_i hlen
    rw [headerSize] at hlen
    dsimp only at h
    split at h
    · cases h
      exact Error.foundIn_decode_none (Int.le_refl _) (by omega)
    · split at h
      · cases h
        exact Error.foundIn_decode_none (by omega) (by omega)
      · cases h

/-- A payload is blamed within the bytes in front of the cursor. -/
theorem foundIn_of_readBody {code : UInt8} {size : Nat} {c : Cursor}
    (h : s.readBody code size c = (.error e, s')) (hlow : s.offset ≤ c.position) :
    e.FoundIn s.offset c.stop := by
  unfold readBody at h
  split at h
  · rename_i hacc
    cases h
    exact foundIn_of_accept hacc (Int.le_trans hlow c.position_le_stop)
  · rename_i id s₁ hacc
    dsimp only at h
    split at h
    · rename_i hpayload
      cases h
      have hstart : (Cursor.ofBytes (c.rest.take size) c.position).position = c.position :=
        Int.add_zero _
      refine ((readPayload_failsFrom _ _).found (Int.le_of_eq hstart.symm) hpayload).mono hlow ?_
      rw [Cursor.stop, Cursor.stop, hstart]
      simp only [Cursor.ofBytes, List.length_take]
      omega
    · cases h

theorem foundIn_of_readSection (h : s.readSection data eof = (.error e, s')) :
    e.FoundIn s.offset (s.offset + data.length) := by
  unfold readSection at h
  split at h
  · split at h <;> cases h
  rename_i code tail
  -- the cursor behind the identifier, where the size is read
  have hstop : ((Cursor.ofBytes (code :: tail) s.offset).skip 1).stop =
      s.offset + (code :: tail).length := by
    simp only [Cursor.stop, Cursor.position, Cursor.skip, Cursor.ofBytes, List.length_cons,
      List.length_drop, List.length_take]
    omega
  have hstart : s.offset ≤ ((Cursor.ofBytes (code :: tail) s.offset).skip 1).position := by
    simp only [Cursor.position, Cursor.skip, Cursor.ofBytes]
    omega
  split at h
  · rename_i e' c hsize
    have hreach := Read.u32_forward.of_error hsize
    have hbare := Read.u32_failsWith hsize
    rw [← hstop, ← hreach.stop_eq]
    have hpos := Int.le_trans hstart hreach.position_le
    split at h
    · split at h
      · cases h
        exact Error.foundIn_decode_some hbare hpos c.position_le_stop
      · cases h
    · cases h
      refine Error.foundIn_decode_some hbare (by omega) ?_
      rw [hreach.stop_eq, hstop, List.length_cons]
      omega
  · rename_i size c hsize
    have hreach := Read.u32_forward.of_ok hsize
    have hpos := Int.le_trans hstart hreach.position_le
    rw [← hstop, ← hreach.stop_eq]
    split at h
    · split at h
      · cases h
        exact Error.foundIn_decode_none hpos c.position_le_stop
      · cases h
    · exact foundIn_of_readBody h hpos

/-- **A step that fails blames a place from the start of the record on.** -/
theorem foundIn_of_step (h : s.step data eof = (.error e, s')) (hstage : s.stage ≠ .done) :
    e.FoundIn s.offset (s.offset + data.length) := by
  unfold step at h
  split at h
  · exact foundIn_of_readHeader h
  · exact foundIn_of_readSection h
  · rename_i hdone
    exact absurd hdone hstage

/-! ## Runs -/

/-- A run that fails reads records laid end to end, and blames a place behind them. -/
theorem exists_tile_of_run {rs : List Record} (hs : s.Coherent) (hstage : s.stage = .sections)
    (h : s.run data = (rs, some e)) :
    ∃ start, Tile s.offset rs start ∧ e.FoundIn start (s.offset + data.length) := by
  induction hlen : data.length using Nat.strongRecOn generalizing s data rs with
  | ind len ih =>
  have hstep : s.step data true = s.readSection data true := by simp only [step, hstage]
  rcases s.step_true_cases data with ⟨e', s', he⟩ | ⟨r, n, s', hrec, hr⟩ | ⟨r, n, s', hrec, hr⟩
  · rw [run_of_error he] at h
    cases h
    exact ⟨s.offset, rfl, hlen ▸ foundIn_of_readSection (hstep.symm.trans he)⟩
  · rw [run_of_finish hrec hr] at h
    cases h
  · rw [run_of_record hrec hr] at h
    obtain ⟨id, bs, rest, rfl, hsec, rfl, hadm, rfl⟩ :=
      isSection_of_readSection hs hr (hstep.symm.trans hrec)
    rw [List.drop_left] at h
    have hpos := hsec.length_pos
    rcases hrest : (s.behind id bs.length).run rest with ⟨rs', failure⟩
    rw [hrest] at h
    cases h
    obtain ⟨start, htile, hfound⟩ := ih rest.length (by rw [← hlen, List.length_append]; omega)
      (hs.behind hadm bs.length) (by rw [stage_behind, hstage]) hrest rfl
    have hoffset : (s.behind id bs.length).offset = r.stop := hsec.stop_eq.symm
    rw [hoffset] at htile hfound
    refine ⟨start, ⟨hsec.start_eq, ?_, htile⟩, ?_⟩
    · rw [hsec.stop_eq]
      omega
    · rw [hsec.stop_eq, Int.add_assoc] at hfound
      rw [← hlen, List.length_append, Nat.cast_add]
      exact hfound

end Stream

/-- **A module that cannot be read is blamed on the record that was to be read next.** The records
before it lie end to end, and the place that is blamed lies between the end of the last one and the
end of the bytes. -/
theorem exists_tile_of_walkModule {data : Bytes} {offset : Int} (hlow : 0 ≤ offset)
    (hhigh : offset ≤ data.length) {records : List Record} {e : Error}
    (h : walkModule data offset = (records, some e)) :
    ∃ start, Tile offset records start ∧ e.FoundIn start data.length := by
  have hin : ¬ (offset < 0 ∨ (data.length : Int) < offset) := by omega
  rw [walkModule, if_neg hin] at h
  have hlen : offset + ((data.drop offset.toNat).length : Int) = data.length := by
    rw [List.length_drop]
    omega
  rw [← hlen]
  generalize data.drop offset.toNat = bs at h
  rcases Stream.step_true_cases { offset } bs with
    ⟨e', s', he⟩ | ⟨r, n, s', hrec, hr⟩ | ⟨r, n, s', hrec, hr⟩
  · rw [Stream.run_of_error he] at h
    cases h
    exact ⟨offset, rfl, Stream.foundIn_of_step he Stage.noConfusion⟩
  · rw [Stream.run_of_finish hrec hr] at h
    cases h
  · obtain ⟨body, rfl, -, -, -⟩ := Stream.readHeader_eq_record_iff.1 hrec
    rw [Stream.run_header] at h
    rcases hbody : (Stream.behindHeader offset).run body with ⟨rs, failure⟩
    rw [hbody] at h
    cases h
    obtain ⟨start, htile, hfound⟩ :=
      Stream.exists_tile_of_run (Stream.coherent_behindHeader offset) rfl hbody
    have hheader : (0 : Int) < headerSize := by decide
    refine ⟨start, ⟨rfl, Int.lt_add_of_pos_right offset hheader, htile⟩, ?_⟩
    rw [List.length_append, length_headerBytes, Nat.cast_add, ← Int.add_assoc]
    exact hfound

end WasmUdon
