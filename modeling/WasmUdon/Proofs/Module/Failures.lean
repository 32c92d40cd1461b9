import WasmUdon.Proofs.Error.Reads
import WasmUdon.Proofs.Module.Arrival

/-!
# What reading a module fails with

A stream that has not read the end of its module fails with malformed data only
(`Stream.ofKind_of_step`), and it reads the end of the module as its last record. So a module that
cannot be read is malformed (`ofKind_of_walkModule`): the failures of a stream that is read on
after the end, or that asks for bytes after the last one, are never met.
-/

namespace WasmUdon

namespace Stream

theorem ofKind_of_accept {s : Stream} {code : UInt8} {e : Error} (h : s.accept code = .error e) :
    e.OfKind .invalidData := by
  unfold accept at h
  split at h
  · cases h
    exact Error.ofKind_decode_none
  · cases h
  · split at h
    · cases h
      exact Error.ofKind_decode_none
    · split at h
      · cases h
        exact Error.ofKind_decode_none
      · cases h

theorem ofKind_of_readHeader {s s' : Stream} {data : Bytes} {eof : Bool} {e : Error}
    (h : s.readHeader data eof = (.error e, s')) : e.OfKind .invalidData := by
  unfold readHeader at h
  split at h
  · split at h
    · cases h
      exact Error.ofKind_decode_none
    · cases h
  · dsimp only at h
    split at h
    · cases h
      exact Error.ofKind_decode_none
    · split at h
      · cases h
        exact Error.ofKind_decode_none
      · cases h

theorem ofKind_of_readBody {s s' : Stream} {code : UInt8} {size : Nat} {c : Cursor} {e : Error}
    (h : s.readBody code size c = (.error e, s')) : e.OfKind .invalidData := by
  unfold readBody at h
  split at h
  · rename_i hacc
    cases h
    exact ofKind_of_accept hacc
  · dsimp only at h
    split at h
    · rename_i hpayload
      cases h
      exact readPayload_failsWith _ _ hpayload
    · cases h

theorem ofKind_of_readSection {s s' : Stream} {data : Bytes} {eof : Bool} {e : Error}
    (h : s.readSection data eof = (.error e, s')) : e.OfKind .invalidData := by
  unfold readSection at h
  split at h
  · split at h <;> cases h
  · split at h
    · rename_i hsize
      have hbare := Read.u32_failsWith hsize
      split at h
      · split at h
        · cases h
          exact Error.ofKind_decode_some hbare
        · cases h
      · cases h
        exact Error.ofKind_decode_some hbare
    · split at h
      · split at h
        · cases h
          exact Error.ofKind_decode_none
        · cases h
      · exact ofKind_of_readBody h

/-- **Before the end of the module a step fails with malformed data only.** -/
theorem ofKind_of_step {s s' : Stream} {data : Bytes} {eof : Bool} {e : Error}
    (h : s.step data eof = (.error e, s')) (hstage : s.stage ≠ .done) : e.OfKind .invalidData := by
  unfold step at h
  split at h
  · exact ofKind_of_readHeader h
  · exact ofKind_of_readSection h
  · rename_i hdone
    exact absurd hdone hstage

theorem stage_of_accept {s s' : Stream} {code : UInt8} {id : SectionId}
    (h : s.accept code = .ok (id, s')) : s'.stage = s.stage := by
  unfold accept at h
  split at h
  · cases h
  · cases h
    rfl
  · split at h
    · cases h
    · split at h
      · cases h
      · cases h
        rfl

/-- Sections follow every record but the end. -/
theorem stage_of_step {s s' : Stream} {data : Bytes} {eof : Bool} {r : Record} {n : Nat}
    (h : s.step data eof = (.ok (.record r n), s')) (hr : r.isFinish = false) :
    s'.stage = .sections := by
  unfold step at h
  split at h
  · obtain ⟨rest, -, -, -, rfl⟩ := readHeader_eq_record_iff.1 h
    rfl
  · rename_i hstage
    unfold readSection at h
    split at h
    · split at h
      · cases h
        cases hr
      · cases h
    · split at h
      · split at h
        · split at h <;> cases h
        · cases h
      · split at h
        · split at h <;> cases h
        · unfold readBody at h
          split at h
          · cases h
          · rename_i hacc
            dsimp only at h
            split at h
            · cases h
            · cases h
              exact (stage_of_accept hacc).trans hstage
  · cases h

theorem ofKind_of_run {s : Stream} {data : Bytes} {e : Error} (hstage : s.stage ≠ .done)
    (h : (s.run data).2 = some e) : e.OfKind .invalidData := by
  induction hlen : data.length using Nat.strongRecOn generalizing s data with
  | ind len ih =>
  rcases s.step_true_cases data with ⟨e', s', herr⟩ | ⟨r, n, s', hrec, hr⟩ | ⟨r, n, s', hrec, hr⟩
  · rw [run_of_error herr] at h
    cases h
    exact ofKind_of_step herr hstage
  · rw [run_of_finish hrec hr] at h
    cases h
  · rw [run_of_record hrec hr] at h
    have hstage' : s'.stage ≠ .done := by
      rw [stage_of_step hrec hr]
      decide
    exact ih _ (hlen ▸ length_drop_lt_of_step hrec hr) hstage' h rfl

end Stream

/-- **A module that cannot be read is malformed data.** -/
theorem ofKind_of_walkModule {data : Bytes} {offset : Int} {e : Error}
    (h : (walkModule data offset).2 = some e) : e.OfKind .invalidData := by
  unfold walkModule at h
  split at h
  · cases h
    exact Error.ofKind_decode_none
  · exact Stream.ofKind_of_run Stage.noConfusion h

end WasmUdon
