import Mathlib.Data.List.Induction
import WasmUdon.Proofs.Module.Calls
import WasmUdon.Proofs.Module.Places
import WasmUdon.Proofs.Text.Ascii

/-!
# The sections that a stream has met

A stream remembers the sections it has met twice over: as a list, which shows duplicates, and by the
highest place among them, which shows sections that come too late. Both are brought up to date when
the order of a section has been checked and before its payload is read, so also by calls that fail
in the end. `Stream.InOrder` says that the two belong together.

All that a step can do to them is said once, in `Stream.met_of_step`: they stay as they are, or the
bytes start with a whole section that passed the check, and then the outcome is that of reading its
payload (`Stream.passed`). So `InOrder` holds after any calls (`Stream.after_inOrder`), and under it
the check says what it should (`Stream.InOrder.verdict`). `Stream.calls_keep_order` puts this
together with what a call leaves alone.
-/

namespace WasmUdon

namespace SectionId

/-- A place leads back to its section. -/
theorem getElem?_order {id : SectionId} (h : id ≠ .custom) :
    canonicalOrder[id.order - 1]? = some id := by
  rcases id with _ | _ | _ | kind
  · exact absurd rfl h
  · rfl
  · rfl
  · cases kind <;> rfl

theorem order_inj {id id' : SectionId} (hid : id ≠ .custom) (hid' : id' ≠ .custom)
    (h : id.order = id'.order) : id = id' := by
  have hplace := getElem?_order hid
  rw [h, getElem?_order hid'] at hplace
  exact (Option.some.inj hplace).symm

theorem order_pos {id : SectionId} (h : id ≠ .custom) : 0 < id.order :=
  order_pos_of_mem (mem_canonicalOrder h)

theorem code_mem_of_ne_custom {id : SectionId} (h : id ≠ .custom) : 1 ≤ id.code ∧ id.code ≤ 13 := by
  rcases id with _ | _ | _ | kind
  · exact absurd rfl h
  · decide
  · decide
  · cases kind <;> decide

end SectionId

/-- The bytes start with a whole section: its identifier, its size and a payload of that size. -/
structure HoldsSection (data : Bytes) (id : SectionId) (size payload : Bytes) : Prop where
  isSize : IsUnsigned 32 payload.length size
  front : id.code :: (size ++ payload) <+: data

namespace Stream

variable {s s' : Stream} {data size payload : Bytes} {eof : Bool} {id : SectionId}

/-! ## One step -/

theorem mark_of_ne_custom (h : id ≠ .custom) :
    s.mark id = { s with seen := id :: s.seen, lastOrder := id.order } := if_neg h

theorem eq_of_accept_code {met : SectionId × Stream} (h : s.accept id.code = .ok met) :
    met = (id, s.mark id) := by
  obtain ⟨id', s₁⟩ := met
  obtain ⟨hcode, rfl⟩ := accept_eq_ok h
  obtain rfl : id = id' := Option.some.inj ((SectionId.ofCode?_code id).symm.trans hcode)
  rfl

/-- The outcome for a section that passed the check of the order: that of reading its payload. The
section counts as met either way. -/
def passed (s : Stream) (id : SectionId) (size payload : Bytes) : Except Error Chunk × Stream :=
  let frame := sectionFrame s.offset size payload
  match readPayload frame id (.ofBytes payload frame.payload) with
  | .error e _ => (.error e, s.mark id)
  | .ok r _ =>
    (.ok (.record r (1 + size.length + payload.length)),
      s.behind id (1 + size.length + payload.length))

theorem seen_passed : (s.passed id size payload).2.seen = (s.mark id).seen := by
  unfold passed
  dsimp only
  split <;> rfl

theorem lastOrder_passed : (s.passed id size payload).2.lastOrder = (s.mark id).lastOrder := by
  unfold passed
  dsimp only
  split <;> rfl

theorem readPayload_of_passed {e : Error} (h : s.passed id size payload = (.error e, s')) :
    s' = s.mark id ∧ ∃ c, readPayload (sectionFrame s.offset size payload) id
      (.ofBytes payload (sectionFrame s.offset size payload).payload) = .error e c := by
  unfold passed at h
  dsimp only at h
  split at h
  · rename_i e' c hread
    cases h
    exact ⟨rfl, c, hread⟩
  · cases h

/-- A payload is blamed behind the place where its section starts. -/
theorem passed_ne_error_decode {detail : String} :
    (s.passed id size payload).1 ≠ .error (.decode s.offset detail) := by
  intro h
  obtain ⟨-, c, hread⟩ := readPayload_of_passed (Prod.ext h rfl)
  have hstart : (Cursor.ofBytes payload (sectionFrame s.offset size payload).payload).position =
      (sectionFrame s.offset size payload).payload := Int.add_zero _
  have hfound := (readPayload_failsFrom _ _).found (Int.le_of_eq hstart.symm) hread
  have hlow := (hfound _ List.mem_cons_self).low_le
  simp only [sectionFrame] at hlow
  omega

/-- A whole section is read by checking its order and then reading its payload. -/
theorem step_of_holdsSection (hstage : s.stage = .sections)
    (h : HoldsSection data id size payload) (eof : Bool) :
    s.step data eof =
      match s.accept id.code with
      | .error e => (.error e, s)
      | .ok _ => s.passed id size payload := by
  obtain ⟨hsize, rest, rfl⟩ := h
  have hcount : (UInt32.ofNat payload.length).toNat = payload.length :=
    UInt32.toNat_ofNat_of_lt' hsize.lt
  have hread : Read.u32 ((Cursor.ofBytes (id.code :: (size ++ payload ++ rest)) s.offset).skip 1) =
      .ok (UInt32.ofNat payload.length) ⟨s.offset, 1 + size.length, payload ++ rest⟩ :=
    u32_behind_code_eq_ok_iff.2 ⟨size, hcount.symm ▸ hsize, List.append_assoc .., rfl⟩
  have hlen : ¬ (payload ++ rest).length < payload.length := by
    rw [List.length_append]
    omega
  simp only [step, hstage, List.cons_append, readSection, hread, hcount, if_neg hlen, readBody,
    List.take_left]
  cases hacc : s.accept id.code with
  | error e => rfl
  | ok met =>
    obtain rfl := eq_of_accept_code hacc
    rfl

/-- A section that passes the check is there as a whole. -/
theorem holdsSection_of_accept {code : UInt8} {tail : Bytes} {count : UInt32} {c : Cursor}
    (hread : Read.u32 ((Cursor.ofBytes (code :: tail) s.offset).skip 1) = .ok count c)
    (hlen : ¬ c.rest.length < count.toNat) (hacc : s.accept code = .ok (id, s')) :
    ∃ size payload, HoldsSection (code :: tail) id size payload := by
  obtain ⟨size, hsize, rfl, -⟩ := u32_behind_code_eq_ok_iff.1 hread
  obtain rfl := SectionId.ofCode?_eq_some_iff.1 (accept_eq_ok hacc).1
  have htake : (c.rest.take count.toNat).length = count.toNat := by
    rw [List.length_take]
    omega
  refine ⟨size, c.rest.take count.toNat, htake.symm ▸ hsize, c.rest.drop count.toNat, ?_⟩
  rw [List.cons_append, List.append_assoc, List.take_append_drop]

/-- **What a step does to the sections met.** They stay as they are, unless the bytes start with a
whole section that has a place and passes the check of the order. -/
theorem met_of_step (s : Stream) (data : Bytes) (eof : Bool) :
    ((s.step data eof).2.seen = s.seen ∧ (s.step data eof).2.lastOrder = s.lastOrder) ∨
      ∃ id size payload, s.stage = .sections ∧ HoldsSection data id size payload ∧
        id ≠ .custom ∧ s.accept id.code = .ok (id, s.mark id) ∧
        s.step data eof = s.passed id size payload := by
  by_cases hwhole : s.stage = .sections ∧ ∃ id size payload, HoldsSection data id size payload
  · obtain ⟨hstage, id, size, payload, hsection⟩ := hwhole
    have hstep := step_of_holdsSection hstage hsection eof
    cases hacc : s.accept id.code with
    | error e =>
      rw [hstep, hacc]
      exact .inl ⟨rfl, rfl⟩
    | ok met =>
      obtain rfl := eq_of_accept_code hacc
      rw [hacc] at hstep
      by_cases hid : id = .custom
      · have hmark : s.mark id = s := if_pos hid
        rw [hstep, seen_passed, lastOrder_passed, hmark]
        exact .inl ⟨rfl, rfl⟩
      · exact .inr ⟨id, size, payload, hstage, hsection, hid, hacc, hstep⟩
  · refine .inl ?_
    unfold step
    split
    · unfold readHeader
      dsimp only
      repeat' split
      all_goals exact ⟨rfl, rfl⟩
    · rename_i hstage
      unfold readSection
      split
      · split <;> exact ⟨rfl, rfl⟩
      · split
        · repeat' split
          all_goals exact ⟨rfl, rfl⟩
        · rename_i hread
          split
          · split <;> exact ⟨rfl, rfl⟩
          · rename_i hlen
            unfold readBody
            split
            · exact ⟨rfl, rfl⟩
            · rename_i id s₁ hacc
              exact absurd ⟨hstage, id, holdsSection_of_accept hread hlen hacc⟩ hwhole
    · exact ⟨rfl, rfl⟩

/-! ## Streams in order -/

/-- The sections met and the last place belong together: no section met has a place behind the last
one, the last place is that of a section met, or zero if there is none, and no custom section is
remembered. -/
structure InOrder (s : Stream) : Prop where
  coherent : s.Coherent
  attained : s.seen = [] ∧ s.lastOrder = 0 ∨ ∃ id ∈ s.seen, id.order = s.lastOrder
  placed : ∀ id ∈ s.seen, id ≠ .custom

namespace InOrder

theorem start (offset : Int) : InOrder { offset } :=
  ⟨nofun, .inl ⟨rfl, rfl⟩, nofun⟩

theorem of_same (hs : s.InOrder) (hseen : s'.seen = s.seen) (hlast : s'.lastOrder = s.lastOrder) :
    s'.InOrder := by
  obtain ⟨hcoherent, hattained, hplaced⟩ := hs
  refine ⟨?_, ?_, ?_⟩
  · unfold Coherent at hcoherent ⊢
    rwa [hseen, hlast]
  · rwa [hseen, hlast]
  · rwa [hseen]

/-- A section that passes the check becomes the last one. -/
theorem mark (hs : s.InOrder) (hid : id ≠ .custom) (hadmits : s.Admits id) :
    (s.mark id).InOrder := by
  have hlt : s.lastOrder < id.order := hadmits.resolve_left hid
  rw [mark_of_ne_custom hid]
  refine ⟨fun id' hid' => ?_, .inr ⟨id, List.mem_cons_self, rfl⟩, fun id' hid' => ?_⟩
  · rcases List.mem_cons.1 hid' with rfl | hid'
    · exact Nat.le_refl _
    · exact Nat.le_trans (hs.coherent id' hid') (Nat.le_of_lt hlt)
  · rcases List.mem_cons.1 hid' with rfl | hid'
    · exact hid
    · exact hs.placed id' hid'

/-- **A step keeps the order, whether it succeeds or not.** -/
theorem step (hs : s.InOrder) (data : Bytes) (eof : Bool) : (s.step data eof).2.InOrder := by
  rcases met_of_step s data eof with ⟨hseen, hlast⟩ | ⟨id, size, payload, -, -, hid, hacc, hstep⟩
  · exact hs.of_same hseen hlast
  · have hadmits : s.Admits id := ((accept_eq_ok_iff hs.coherent).1 hacc).2.1
    rw [hstep]
    exact (hs.mark hid hadmits).of_same seen_passed lastOrder_passed

theorem lastOrder_eq (hs : s.InOrder) : s.lastOrder = (s.seen.map SectionId.order).max?.getD 0 := by
  rcases hs.attained with ⟨hnil, hzero⟩ | ⟨id, hmem, horder⟩
  · rw [hnil, hzero]
    rfl
  · have hmax : (s.seen.map SectionId.order).max? = some s.lastOrder := by
      refine List.max?_eq_some_iff.2 ⟨horder ▸ List.mem_map_of_mem hmem, ?_⟩
      exact List.forall_mem_map.2 hs.coherent
    rw [hmax]
    rfl

/-- A section that was not met has no place behind the last one exactly if some section met has a
place behind it. -/
theorem order_le_lastOrder_iff (hs : s.InOrder) (hid : id ≠ .custom) (hnew : id ∉ s.seen) :
    id.order ≤ s.lastOrder ↔ ∃ id' ∈ s.seen, id.order < id'.order := by
  constructor
  · intro hle
    rcases hs.attained with ⟨-, hzero⟩ | ⟨id', hmem, horder⟩
    · have hpos := SectionId.order_pos hid
      omega
    · -- places tell sections apart, so the place of the last section met is another one
      have hne : id.order ≠ id'.order := fun h =>
        hnew (SectionId.order_inj hid (hs.placed id' hmem) h ▸ hmem)
      exact ⟨id', hmem, by omega⟩
  · rintro ⟨id', hmem, hlt⟩
    exact Nat.le_trans (Nat.le_of_lt hlt) (hs.coherent id' hmem)

end InOrder

/-! ## What the check of the order says -/

/-- The section was met before. -/
def duplicateError (s : Stream) (id : SectionId) : Error :=
  .decode s.offset ("duplicate " ++ id.name ++ " section")

/-- The section comes too late. -/
def disorderError (s : Stream) (id : SectionId) : Error :=
  .decode s.offset (id.name ++ " section appears out of order")

theorem duplicateError_ne_disorderError : s.duplicateError id ≠ s.disorderError id := by
  intro h
  have hdetail : "duplicate " ++ id.name ++ " section" =
      id.name ++ " section appears out of order" := by
    apply text_inj
    simpa [duplicateError, disorderError, Error.decode, Error.ofFault] using h
  have hlength := congrArg String.length hdetail
  have hshort : "duplicate ".length + " section".length < " section appears out of order".length :=
    by decide
  simp only [String.length_append] at hlength
  omega

theorem accept_code (hid : id ≠ .custom) :
    s.accept id.code =
      if id ∈ s.seen then .error (s.duplicateError id)
      else if id.order ≤ s.lastOrder then .error (s.disorderError id)
      else .ok (id, s.mark id) := by
  rw [accept, SectionId.ofCode?_code, mark_of_ne_custom hid]
  split
  · rename_i hnone
    cases hnone
  · rename_i hcustom
    exact absurd (Option.some.inj hcustom) hid
  · rename_i hsome
    cases hsome
    rfl

/-- **A whole section is refused as a duplicate, or as out of order, or passes, as it should.** -/
theorem InOrder.verdict (hs : s.InOrder) (hstage : s.stage = .sections) (hid : id ≠ .custom)
    (h : HoldsSection data id size payload) (eof : Bool) :
    ((s.step data eof).1 = .error (s.duplicateError id) ↔ id ∈ s.seen) ∧
    ((s.step data eof).1 = .error (s.disorderError id) ↔
      id ∉ s.seen ∧ ∃ id' ∈ s.seen, id.order < id'.order) ∧
    (s.step data eof = s.passed id size payload ↔
      id ∉ s.seen ∧ ¬ ∃ id' ∈ s.seen, id.order < id'.order) := by
  have hpassed : ∀ detail, (s.passed id size payload).1 ≠ .error (.decode s.offset detail) :=
    fun _ => passed_ne_error_decode
  rw [step_of_holdsSection hstage h eof, accept_code hid]
  by_cases hseen : id ∈ s.seen
  · have hne : (.error (s.duplicateError id), s) ≠ s.passed id size payload := fun heq =>
      hpassed _ (congrArg Prod.fst heq).symm
    simp [hseen, duplicateError_ne_disorderError, hne]
  · rw [← hs.order_le_lastOrder_iff hid hseen]
    by_cases hle : id.order ≤ s.lastOrder
    · have hne : (.error (s.disorderError id), s) ≠ s.passed id size payload := fun heq =>
        hpassed _ (congrArg Prod.fst heq).symm
      simp [hseen, hle, duplicateError_ne_disorderError.symm, hne]
    · have hdup := hpassed ("duplicate " ++ id.name ++ " section")
      have hdis := hpassed (id.name ++ " section appears out of order")
      simp [hseen, hle, duplicateError, disorderError, hdup, hdis]

/-- A step that fails changes the sections met only behind a section that passed the check and whose
payload cannot be read. -/
theorem met_of_error {e : Error} (h : s.step data eof = (.error e, s'))
    (hmet : s'.seen ≠ s.seen ∨ s'.lastOrder ≠ s.lastOrder) :
    ∃ id size payload, s.stage = .sections ∧ HoldsSection data id size payload ∧ id ≠ .custom ∧
      s.passed id size payload = (.error e, s') := by
  rcases met_of_step s data eof with ⟨hseen, hlast⟩ | ⟨id, size, payload, hmore⟩
  · rw [h] at hseen hlast
    exact absurd hmet (not_or.2 ⟨not_not.2 hseen, not_not.2 hlast⟩)
  · obtain ⟨hstage, hsection, hid, -, hstep⟩ := hmore
    exact ⟨id, size, payload, hstage, hsection, hid, hstep.symm.trans h⟩

/-! ## Any calls -/

/-- The stream after calls with bytes that are given anew each time, whatever the calls return. -/
def after (offset : Int) (calls : List (Bytes × Bool)) : Stream :=
  calls.foldl (fun s call => (s.step call.1 call.2).2) { offset }

/-- **Whatever is read, the stream is in order.** -/
theorem after_inOrder (offset : Int) (calls : List (Bytes × Bool)) :
    (after offset calls).InOrder := by
  induction calls using List.reverseRecOn with
  | nil => exact .start offset
  | append_singleton calls call ih =>
    rw [after, List.foldl_append]
    exact ih.step call.1 call.2

/-- **The order of sections is kept by any calls, and checked as it should be.** Whatever bytes a
stream is given, at the end of the input or before it, and whatever calls failed: the last place is
the highest among the sections met, zero if there is none, and only sections with a place are
remembered. So a whole section is refused as a duplicate exactly if it was met, as out of order
exactly if it was not met and a section with a later place was, and otherwise its payload is read.

A call that asks for more bytes changes nothing. A call that fails leaves offset and stage, and the
sections met too, unless a section with a place passed the check and its payload cannot be read. A
record moves the offset by the bytes it takes. -/
theorem calls_keep_order (offset : Int) (calls : List (Bytes × Bool)) :
    let s := after offset calls
    (s.lastOrder = (s.seen.map SectionId.order).max?.getD 0 ∧
      ∀ id ∈ s.seen, 1 ≤ id.code ∧ id.code ≤ 13) ∧
    (∀ data eof id size payload, s.stage = .sections → id ≠ .custom →
      HoldsSection data id size payload →
        ((s.step data eof).1 = .error (s.duplicateError id) ↔ id ∈ s.seen) ∧
        ((s.step data eof).1 = .error (s.disorderError id) ↔
          id ∉ s.seen ∧ ∃ id' ∈ s.seen, id.order < id'.order) ∧
        (s.step data eof = s.passed id size payload ↔
          id ∉ s.seen ∧ ¬ ∃ id' ∈ s.seen, id.order < id'.order)) ∧
    ∀ data eof s',
      (∀ hint, s.step data eof = (.ok (.needMore hint), s') → s' = s) ∧
      (∀ e, s.step data eof = (.error e, s') →
        s'.offset = s.offset ∧ s'.stage = s.stage ∧
        (s'.seen ≠ s.seen ∨ s'.lastOrder ≠ s.lastOrder →
          ∃ id size payload, s.stage = .sections ∧ HoldsSection data id size payload ∧
            id ≠ .custom ∧ (id ∉ s.seen ∧ ¬ ∃ id' ∈ s.seen, id.order < id'.order) ∧
            (∃ c, readPayload (sectionFrame s.offset size payload) id
              (.ofBytes payload (sectionFrame s.offset size payload).payload) = .error e c) ∧
            s'.seen = id :: s.seen ∧ s'.lastOrder = id.order)) ∧
      ∀ r n, s.step data eof = (.ok (.record r n), s') → s'.offset = s.offset + n := by
  intro s
  have hs : s.InOrder := after_inOrder offset calls
  refine ⟨⟨hs.lastOrder_eq, fun id hid => SectionId.code_mem_of_ne_custom (hs.placed id hid)⟩,
    fun data eof id size payload hstage hid hsection => hs.verdict hstage hid hsection eof,
    fun data eof s' => ⟨fun hint => stream_of_needMore, fun e h => ?_, fun r n => offset_of_step⟩⟩
  obtain ⟨hoffset, hstage', -⟩ := step_of_error h
  refine ⟨hoffset, hstage', fun hmet => ?_⟩
  obtain ⟨id, size, payload, hstage, hsection, hid, hstep⟩ := met_of_error h hmet
  obtain ⟨rfl, hread⟩ := readPayload_of_passed hstep
  have hpassed := (hs.verdict hstage hid hsection eof).2.2.1 (h.trans hstep.symm)
  have hmark := mark_of_ne_custom (s := s) hid
  exact ⟨id, size, payload, hstage, hsection, hid, hpassed, hread, by rw [hmark], by rw [hmark]⟩

/-- A type section that announces an entry and has none. It counts as met, though it cannot be read:
given once more, it is a duplicate. -/
theorem calls_keep_order_retried :
    let s := after 0 [([0x00, 0x61, 0x73, 0x6D, 0x01, 0x00, 0x00, 0x00], false),
      ([0x01, 0x01, 0x01], false)]
    (s.offset = 8 ∧ s.stage = .sections ∧ s.seen = [.vector .types]) ∧
      (s.step [0x01, 0x01, 0x01] false).1 = .error (s.duplicateError (.vector .types)) := by
  intro s
  have hs : s = { offset := 8, seen := [.vector .types], lastOrder := 1, stage := .sections } := by
    cbv
  have hsection : HoldsSection [0x01, 0x01, 0x01] (.vector .types) [0x01] [0x01] :=
    ⟨by decide, [], rfl⟩
  have hstage : s.stage = .sections := by rw [hs]
  have hseen : s.seen = [.vector .types] := by rw [hs]
  have hverdict := (calls_keep_order 0 _).2.1 _ false (.vector .types) _ _ hstage (by decide)
    hsection
  refine ⟨⟨by rw [hs], hstage, hseen⟩, hverdict.1.2 ?_⟩
  exact hseen ▸ List.mem_singleton_self _

end Stream

end WasmUdon
