import WasmUdon.Proofs.Error.Places

/-!
# Operators delimit themselves

An operator does not say how long it is, and nothing stands between it and the next one. That it is
found all the same rests on two facts. Its own bytes decide it: whatever stands behind them, the
same operator is read, although a table of labels is refused if fewer bytes are left than it counts.
And no operator is the beginning of another one (`IsOperator.eq_of_isPrefix`), so reading can stop
nowhere else.

`Operator.next_delimits` puts this in terms of the bytes given to a reader, and says what is
reported where there is no operator.
-/

namespace WasmUdon

/-- No operator is the beginning of another one. -/
theorem IsOperator.eq_of_isPrefix {bs bs' : Bytes} {op op' : Operator} (h : IsOperator bs op)
    (h' : IsOperator bs' op') (hbegins : bs <+: bs') : bs = bs' := by
  obtain ⟨behind, hbehind⟩ := hbegins
  have hfront : IsOperator bs { op with offset := 0 } := h
  have hwhole : IsOperator bs' { op' with offset := 0 } := h'
  have heq : bs ++ behind = bs' ++ [] := hbehind.trans (List.append_nil bs').symm
  exact ((Operator.readAt_parses 0).unique ⟨hfront, rfl⟩ ⟨hwhole, rfl⟩ heq).1

namespace Operator

/-- The bytes of the operator that was read are those in front of the cursor behind it. -/
theorem exists_isOperator_of_next {d : Bytes} {base : Int} {op : Operator} {c : Cursor}
    (h : next (.ofBytes d base) = .ok op c) :
    IsOperator (d.take c.consumed) op ∧ (d.take c.consumed).length = c.consumed ∧
      op.offset = base := by
  obtain ⟨bs, hbs, hop, hoffset⟩ := next_eq_ok_iff.1 h
  have hconsumed : c.consumed = bs.length := hbs.consumed.trans (Nat.zero_add _)
  have hfront : d.take c.consumed = bs := by
    have hrest : d = bs ++ c.rest := hbs.rest
    rw [hrest, hconsumed, List.take_left]
  rw [hfront]
  exact ⟨hop, hconsumed.symm, hoffset.trans (Int.add_zero _)⟩

/-- **Operators delimit themselves, and failures are blamed on the bytes given.** An operator that
is read takes one byte or more. Its own bytes give the same operator whatever stands behind them,
and no proper part of them at the front gives any. Where no operator can be read there is malformed
data, from the place where the operator starts to the end of the bytes. -/
theorem next_delimits (d : Bytes) (base : Int) :
    (∀ op c, next (.ofBytes d base) = .ok op c →
      1 ≤ c.consumed ∧ c.consumed ≤ d.length ∧ op.offset = base ∧
        (∀ behind : Bytes, next (.ofBytes (d.take c.consumed ++ behind) base) =
          .ok op ⟨base, c.consumed, behind⟩) ∧
        ∀ n < c.consumed, ∃ e c', next (.ofBytes (d.take n) base) = .error e c') ∧
      ∀ c c' e, (Cursor.ofBytes d base).Reaches c → next c = .error e c' →
        ∃ f, e.outer = .fault f ∧ f.phase = .decode ∧ f.kind = .invalidData ∧
          c.position ≤ f.offset ∧ f.offset ≤ base + d.length := by
  refine ⟨fun op c h => ?_, fun c c' e hreach h => ?_⟩
  · obtain ⟨hop, hlen, hoffset⟩ := exists_isOperator_of_next h
    have hpos : 0 < (d.take c.consumed).length := List.length_pos_iff.2 hop.ne_nil
    have hle : (d.take c.consumed).length ≤ d.length := List.length_take_le' _ _
    refine ⟨by omega, by omega, hoffset, fun behind => ?_, fun n hn => ?_⟩
    · refine next_eq_ok_iff.2 ⟨_, ⟨rfl, rfl, ?_⟩, hop, hoffset.trans (Int.add_zero _).symm⟩
      exact hlen.symm.trans (Nat.zero_add _).symm
    · cases hcut : next (.ofBytes (d.take n) base) with
      | error e c' => exact ⟨e, c', rfl⟩
      | ok op' c' =>
        obtain ⟨hop', hlen', -⟩ := exists_isOperator_of_next hcut
        -- the operator read from the part would be the beginning of the whole one
        rw [List.take_take] at hop' hlen'
        have hbegins : d.take (min c'.consumed n) <+: d.take c.consumed :=
          List.take_prefix_take_left (by omega)
        have heq := congrArg List.length (hop'.eq_of_isPrefix hop hbegins)
        simp only [List.length_take] at heq hlen
        omega
  · obtain ⟨f, hf⟩ := (next_failsWith h).outer
    have hfound := (next_failsFrom.of_error h).2 f (hf ▸ List.mem_cons_self)
    have hstop : (Cursor.ofBytes d base).stop = base + d.length := by
      rw [Cursor.stop, Cursor.position, Cursor.ofBytes, Int.natCast_zero, Int.add_zero]
    rw [← hstop, ← hreach.stop_eq]
    exact ⟨f, hf, hfound.phase, hfound.kind, hfound.low_le, hfound.le_high⟩

end Operator

end WasmUdon
