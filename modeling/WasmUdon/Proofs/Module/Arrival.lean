import WasmUdon.Proofs.Module.Decoding

/-!
# Modules that arrive in pieces

A driver keeps the bytes not read yet. After each arrival it takes steps until a step asks for more,
and after the last one it takes steps at the end of the input (`Stream.feed`). However the bytes
are cut, it meets the records and the end that a loop over the whole input meets
(`Stream.feed_eq_advance_flatten`).

Two facts about a single step carry this. A step that decides before the end of the input decides
the same on every longer input (`step_append`), and a step that asks for more leaves the stream as
it is (`stream_of_needMore`).
-/

namespace WasmUdon

/-- Why a loop of steps stopped. -/
inductive Stop
  /-- The end of the module was read. -/
  | finished
  /-- A step failed. -/
  | failed (e : Error)
  /-- A step asked for more bytes. -/
  | starved (hint : Nat)
  deriving DecidableEq, Repr

/-- How far a loop of steps came: the records, the end mark included, why it stopped, and the
stream and the bytes not read that it left. -/
structure Progress where
  records : List Record
  stop : Stop
  stream : Stream
  unread : Bytes
  deriving DecidableEq, Repr

namespace Progress

/-- The progress with more records in front. -/
def following (p : Progress) (records : List Record) : Progress :=
  { p with records := records ++ p.records }

@[simp]
theorem following_following (p : Progress) (rs rs' : List Record) :
    (p.following rs).following rs' = p.following (rs' ++ rs) := by
  simp [following]

/-- Two loops read the same: the same records, the same reason to stop, the same stream. They may
differ in the bytes that had arrived when they stopped. -/
structure Agrees (p q : Progress) : Prop where
  records : p.records = q.records
  stop : p.stop = q.stop
  stream : p.stream = q.stream

theorem Agrees.refl (p : Progress) : p.Agrees p := ⟨rfl, rfl, rfl⟩

theorem Agrees.following {p q : Progress} (h : p.Agrees q) (rs : List Record) :
    (p.following rs).Agrees (q.following rs) :=
  ⟨congrArg (rs ++ ·) h.records, h.stop, h.stream⟩

/-- The records without the end mark, and the failure if there was one. -/
def result (p : Progress) : List Record × Option Error :=
  (p.records.filter (!·.isFinish),
    match p.stop with
    | .failed e => some e
    | _ => none)

end Progress

namespace Stream

/-- Behind a record other than the end, fewer bytes are left. -/
theorem length_drop_lt_of_step {s s' : Stream} {data : Bytes} {eof : Bool} {r : Record} {n : Nat}
    (h : s.step data eof = (.ok (.record r n), s')) (hr : r.isFinish = false) :
    (data.drop n).length < data.length := by
  obtain ⟨hpos, hne⟩ := consumed_of_step h hr
  have := List.length_pos_iff.2 hne
  rw [List.length_drop]
  omega

/-- Takes steps until the end of the module, a failure or a request for more bytes. -/
def advance (s : Stream) (unread : Bytes) (eof : Bool) : Progress :=
  match h : s.step unread eof with
  | (.error e, s') => { records := [], stop := .failed e, stream := s', unread }
  | (.ok (.needMore hint), s') => { records := [], stop := .starved hint, stream := s', unread }
  | (.ok (.record r n), s') =>
    if hr : r.isFinish then
      { records := [r], stop := .finished, stream := s', unread := unread.drop n }
    else
      have shorter : (unread.drop n).length < unread.length :=
        length_drop_lt_of_step h (by simpa using hr)
      (s'.advance (unread.drop n) eof).following [r]
termination_by unread.length
decreasing_by exact shorter

/-- Reads pieces as they arrive, after the bytes that are left from before. A loop that stops for
another reason than a request ends the reading. -/
def feed (s : Stream) (unread : Bytes) : List Bytes → Progress
  | [] => s.advance unread true
  | piece :: pieces =>
    let p := s.advance (unread ++ piece) false
    match p.stop with
    | .starved _ => (p.stream.feed p.unread pieces).following p.records
    | _ => p

/-! ## One step -/

theorem readBody_append {s : Stream} {code : UInt8} {size : Nat} {c : Cursor}
    (h : size ≤ c.rest.length) (extra : Bytes) :
    s.readBody code size (c.append extra) = s.readBody code size c := by
  simp only [readBody, Cursor.rest_append, Cursor.position_append, Cursor.consumed_append,
    List.take_append_of_le_length h]

theorem readHeader_append {s : Stream} {data : Bytes}
    (h : ∀ hint, (s.readHeader data false).1 ≠ .ok (.needMore hint)) (extra : Bytes)
    (eof : Bool) : s.readHeader (data ++ extra) eof = s.readHeader data false := by
  by_cases hlen : data.length < headerSize
  · refine absurd ?_ (h (headerSize - data.length))
    simp [readHeader, hlen]
  · have hlen' : 8 ≤ data.length := Nat.not_lt.1 hlen
    have hlong : ¬ (data ++ extra).length < headerSize := by
      rw [List.length_append]
      omega
    have hmagic : (data ++ extra).take 4 = data.take 4 :=
      List.take_append_of_le_length (by omega)
    have hversion : ((data ++ extra).drop 4).take 4 = (data.drop 4).take 4 := by
      rw [List.drop_append_of_le_length (by omega), List.take_append_of_le_length]
      rw [List.length_drop]
      omega
    simp only [readHeader, if_neg hlen, if_neg hlong, hmagic, hversion]

theorem readSection_append {s : Stream} {data : Bytes}
    (h : ∀ hint, (s.readSection data false).1 ≠ .ok (.needMore hint)) (extra : Bytes)
    (eof : Bool) : s.readSection (data ++ extra) eof = s.readSection data false := by
  cases data with
  | nil => exact absurd rfl (h 1)
  | cons code tail =>
    have hcursor : (Cursor.ofBytes (code :: tail ++ extra) s.offset).skip 1 =
        ((Cursor.ofBytes (code :: tail) s.offset).skip 1).append extra := rfl
    simp only [readSection, List.cons_append] at h ⊢
    rw [List.cons_append] at hcursor
    cases hu : Read.u32 ((Cursor.ofBytes (code :: tail) s.offset).skip 1) with
    | error e c =>
      rw [hu] at h
      cases ht : e.isTruncated with
      | true => exact absurd (by simp [ht]) (h 1)
      | false => rw [hcursor, Read.u32_steady.error extra hu ht]; simp [ht]
    | ok size c =>
      rw [hu] at h
      by_cases hlen : c.rest.length < size.toNat
      · exact absurd (by simp [hlen]) (h (size.toNat - c.rest.length))
      · have hlong : ¬ (c.append extra).rest.length < size.toNat := by
          rw [Cursor.rest_append, List.length_append]
          omega
        rw [hcursor, Read.u32_steady.ok extra hu]
        simp only [if_neg hlen, if_neg hlong]
        exact readBody_append (Nat.not_lt.1 hlen) extra

/-- **A step that decides before the end of the input decides the same on every longer input.** -/
theorem step_append {s : Stream} {data : Bytes}
    (h : ∀ hint, (s.step data false).1 ≠ .ok (.needMore hint)) (extra : Bytes) (eof : Bool) :
    s.step (data ++ extra) eof = s.step data false := by
  unfold step at h ⊢
  cases hstage : s.stage with
  | header =>
    rw [hstage] at h
    exact readHeader_append h extra eof
  | sections =>
    rw [hstage] at h
    exact readSection_append h extra eof
  | done => rfl

/-- **A step that asks for more leaves the stream as it is.** -/
theorem stream_of_needMore {s s' : Stream} {data : Bytes} {eof : Bool} {hint : Nat}
    (h : s.step data eof = (.ok (.needMore hint), s')) : s' = s := by
  unfold step at h
  split at h
  · unfold readHeader at h
    split at h
    · split at h
      · cases h
      · cases h
        rfl
    · dsimp only at h
      split at h
      · cases h
      · split at h <;> cases h
  · unfold readSection at h
    split at h
    · split at h
      · cases h
      · cases h
        rfl
    · split at h
      · split at h
        · split at h
          · cases h
          · cases h
            rfl
        · cases h
      · split at h
        · split at h
          · cases h
          · cases h
            rfl
        · exact absurd (congrArg Prod.fst h) readBody_ne_needMore
  · cases h

theorem consumed_of_readBody {s s' : Stream} {code : UInt8} {size n : Nat} {c : Cursor}
    {r : Record} (h : s.readBody code size c = (.ok (.record r n), s')) :
    n = c.consumed + size := by
  unfold readBody at h
  split at h
  · cases h
  · dsimp only at h
    split at h
    · cases h
    · cases h
      rfl

/-- A record takes no more bytes than there are. -/
theorem consumed_le_of_step {s s' : Stream} {data : Bytes} {eof : Bool} {r : Record} {n : Nat}
    (h : s.step data eof = (.ok (.record r n), s')) : n ≤ data.length := by
  unfold step at h
  split at h
  · obtain ⟨rest, rfl, -, rfl, -⟩ := readHeader_eq_record_iff.1 h
    rw [List.length_append, length_headerBytes]
    omega
  · unfold readSection at h
    split at h
    · split at h
      · cases h
        exact Nat.le_refl 0
      · cases h
    · split at h
      · repeat' split at h
        all_goals cases h
      · rename_i code tail _ count c hc
        obtain ⟨size, -, htail, hcur⟩ := u32_behind_code_eq_ok_iff.1 hc
        have hcons : c.consumed = 1 + size.length := by rw [hcur]
        split at h
        · split at h <;> cases h
        · rename_i hlen
          rw [consumed_of_readBody h, hcons, htail, List.length_cons, List.length_append]
          omega
  · cases h

/-! ## Loops of steps -/

/-- A loop unfolded by one step. -/
theorem advance_eq (s : Stream) (data : Bytes) (eof : Bool) :
    s.advance data eof =
      match s.step data eof with
      | (.error e, s') => { records := [], stop := .failed e, stream := s', unread := data }
      | (.ok (.needMore hint), s') =>
        { records := [], stop := .starved hint, stream := s', unread := data }
      | (.ok (.record r n), s') =>
        if r.isFinish then
          { records := [r], stop := .finished, stream := s', unread := data.drop n }
        else (s'.advance (data.drop n) eof).following [r] := by
  rw [advance]
  split
  · rename_i h
    rw [h]
  · rename_i h
    rw [h]
  · rename_i r n s' h
    by_cases hr : r.isFinish = true
    · simp only [dif_pos hr, h, if_pos hr]
    · simp only [dif_neg hr, h, if_neg hr]

/-- A loop over a longer input that is complete does what the loop over the part that has arrived
does. If that one asks for more, it goes on with the bytes left; otherwise it stops there too. -/
theorem advance_append (s : Stream) (data extra : Bytes) :
    ((∃ hint, (s.advance data false).stop = .starved hint) ∧
        s.advance (data ++ extra) true =
          ((s.advance data false).stream.advance ((s.advance data false).unread ++ extra)
            true).following (s.advance data false).records) ∨
      ((∀ hint, (s.advance data false).stop ≠ .starved hint) ∧
        (s.advance data false).Agrees (s.advance (data ++ extra) true)) := by
  induction hlen : data.length using Nat.strongRecOn generalizing s data with
  | ind len ih =>
  have hlong := fun h => @step_append s data h extra true
  rw [advance_eq s data false, advance_eq s (data ++ extra) true]
  rcases hstep : s.step data false with ⟨e | hint | ⟨r, n⟩, s'⟩
  · rw [hstep] at hlong
    rw [hlong (by simp)]
    exact .inr ⟨by simp, rfl, rfl, rfl⟩
  · have hsame : s' = s := stream_of_needMore hstep
    rw [hsame, ← advance_eq s (data ++ extra) true]
    exact .inl ⟨⟨hint, rfl⟩, rfl⟩
  · rw [hstep] at hlong
    rw [hlong (by simp)]
    have hdrop : (data ++ extra).drop n = data.drop n ++ extra :=
      List.drop_append_of_le_length (consumed_le_of_step hstep)
    by_cases hr : r.isFinish = true
    · simp only [if_pos hr]
      exact .inr ⟨by simp, rfl, rfl, rfl⟩
    · simp only [if_neg hr, hdrop]
      have hshort : (data.drop n).length < len :=
        hlen ▸ length_drop_lt_of_step hstep (by simpa using hr)
      rcases ih _ hshort s' (data.drop n) rfl with ⟨hstop, heq⟩ | ⟨hstop, hagree⟩
      · refine .inl ⟨hstop, ?_⟩
        rw [heq, Progress.following_following]
        rfl
      · exact .inr ⟨hstop, hagree.following [r]⟩

/-- Reading pieces after bytes left from before agrees with reading all of it at once. -/
theorem agrees_feed (s : Stream) (unread : Bytes) (pieces : List Bytes) :
    (s.feed unread pieces).Agrees (s.advance (unread ++ pieces.flatten) true) := by
  induction pieces generalizing s unread with
  | nil =>
    rw [List.flatten_nil, List.append_nil]
    exact .refl _
  | cons piece pieces ih =>
    rw [List.flatten_cons, ← List.append_assoc, feed]
    rcases s.advance_append (unread ++ piece) pieces.flatten with
      ⟨⟨hint, hstop⟩, heq⟩ | ⟨hstop, hagree⟩
    · simp only [hstop]
      rw [heq]
      exact (ih _ _).following _
    · split
      · rename_i hint hstarved
        exact absurd hstarved (hstop hint)
      · exact hagree

/-- The loop over a complete input is the run over it. -/
theorem result_advance (s : Stream) (data : Bytes) : (s.advance data true).result = s.run data := by
  induction hlen : data.length using Nat.strongRecOn generalizing s data with
  | ind len ih =>
  rw [advance_eq]
  rcases s.step_true_cases data with ⟨e, s', he⟩ | ⟨r, n, s', hrec, hr⟩ | ⟨r, n, s', hrec, hr⟩
  · rw [run_of_error he, he]
    rfl
  · rw [run_of_finish hrec hr, hrec]
    simp [Progress.result, hr]
  · have hshort : (data.drop n).length < len := hlen ▸ length_drop_lt_of_step hrec hr
    rw [run_of_record hrec hr, hrec, ← ih _ hshort s' (data.drop n) rfl]
    simp [Progress.result, Progress.following, hr]

/-- **However a module is cut into pieces, reading it as it arrives gives what reading it at once
gives**: the same records, the same end or failure, the same stream behind it; and this is what
the run over the whole input returns. It rests on what one step does: once it decides, more bytes
change nothing, and while it asks for more, the stream stays as it is. -/
theorem feed_eq_advance_flatten (s : Stream) (pieces : List Bytes) :
    (s.feed [] pieces).Agrees (s.advance pieces.flatten true) ∧
    (s.feed [] pieces).result = s.run pieces.flatten ∧
    (∀ data extra eof, (∀ hint, (s.step data false).1 ≠ .ok (.needMore hint)) →
      s.step (data ++ extra) eof = s.step data false) ∧
    ∀ data eof hint, (s.step data eof).1 = .ok (.needMore hint) → (s.step data eof).2 = s := by
  have hagree : (s.feed [] pieces).Agrees (s.advance pieces.flatten true) := s.agrees_feed [] pieces
  refine ⟨hagree, ?_, fun data extra eof h => step_append h extra eof, fun data eof hint h => ?_⟩
  · rw [← result_advance, Progress.result, Progress.result, hagree.records, hagree.stop]
  · exact stream_of_needMore (Prod.ext h rfl)

end Stream

end WasmUdon
