import WasmUdon.Module.Decoder
import WasmUdon.Proofs.Module.Grammar

/-!
# Decoding accepts exactly the modules of the grammar

A step of a stream is compared with the grammar first: it returns a section exactly when a section
of the grammar that may come next stands in front of the bytes left (`readSection_eq_record_iff`).
The induction over the run carries the place of the last section; that no section counts as met
beyond this place (`Stream.Coherent`) makes the check for duplicates a consequence of the check of
the order.
-/

namespace WasmUdon

theorem SectionId.code_getElem_all :
    ∀ n : Fin SectionId.all.length, (SectionId.all.get n).code.toNat = n.val := by
  decide

theorem SectionId.ofCode?_eq_some_iff {b : UInt8} {id : SectionId} :
    SectionId.ofCode? b = some id ↔ id.code = b := by
  constructor
  · intro h
    obtain ⟨hlt, hget⟩ := List.getElem?_eq_some_iff.1 h
    have hcode := SectionId.code_getElem_all ⟨b.toNat, hlt⟩
    rw [List.get_eq_getElem, hget] at hcode
    exact UInt8.toNat_inj.1 hcode
  · rintro rfl
    exact SectionId.ofCode?_code id

theorem take_eq_headerBytes {data : Bytes} (hlen : headerSize ≤ data.length)
    (hmagic : ofLittleEndian (data.take 4) = moduleMagic)
    (hversion : ofLittleEndian ((data.drop 4).take 4) = moduleVersion) :
    data.take headerSize = headerBytes := by
  simp only [headerSize] at hlen
  have hfront : data.take 4 = headerBytes.take 4 :=
    eq_of_ofLittleEndian_eq (by simp [headerBytes]; omega) (hmagic.trans rfl)
  have hback : (data.drop 4).take 4 = headerBytes.drop 4 :=
    eq_of_ofLittleEndian_eq (by simp [headerBytes]; omega) (hversion.trans rfl)
  have hcut : data.take headerSize = data.take 4 ++ (data.drop 4).take 4 := by
    rw [show headerSize = 4 + 4 from rfl, List.take_add]
  rw [hcut, hfront, hback, List.take_append_drop]

namespace Stream

/-- No section that was met has a place behind the last one. -/
def Coherent (s : Stream) : Prop := ∀ id ∈ s.seen, id.order ≤ s.lastOrder

/-- A section may come next: it is a custom one, or its place is behind the last one. -/
def Admits (s : Stream) (id : SectionId) : Prop := id = .custom ∨ s.lastOrder < id.order

/-- The stream that has met one more section. -/
def mark (s : Stream) (id : SectionId) : Stream :=
  if id = .custom then s else { s with seen := id :: s.seen, lastOrder := id.order }

/-- The stream behind a section of `n` bytes. -/
def behind (s : Stream) (id : SectionId) (n : Nat) : Stream :=
  { s.mark id with offset := s.offset + n }

@[simp]
theorem stage_behind (s : Stream) (id : SectionId) (n : Nat) : (s.behind id n).stage = s.stage := by
  unfold behind mark
  split <;> rfl

theorem lastOrder_behind (s : Stream) (id : SectionId) (n : Nat) :
    (s.behind id n).lastOrder = if id = .custom then s.lastOrder else id.order := by
  unfold behind mark
  split <;> rfl

theorem Coherent.behind {s : Stream} (hs : s.Coherent) {id : SectionId} (hid : s.Admits id)
    (n : Nat) : (s.behind id n).Coherent := by
  by_cases hc : id = .custom
  · intro id' hid'
    simp only [Stream.behind, mark, hc, if_true] at hid' ⊢
    exact hs id' hid'
  · have hlt : s.lastOrder < id.order := hid.resolve_left hc
    intro id' hid'
    simp only [Stream.behind, mark, hc, if_false, List.mem_cons] at hid' ⊢
    rcases hid' with rfl | hid'
    · exact Nat.le_refl _
    · exact (hs id' hid').trans hlt.le

/-- A section is accepted exactly when it may come next. -/
theorem accept_eq_ok_iff {s s' : Stream} (hs : s.Coherent) {code : UInt8} {id : SectionId} :
    s.accept code = .ok (id, s') ↔ id.code = code ∧ s.Admits id ∧ s' = s.mark id := by
  rw [← SectionId.ofCode?_eq_some_iff]
  unfold accept
  split
  · rename_i hnone
    simp [hnone]
  · rename_i hcustom
    simp only [hcustom, Except.ok.injEq, Prod.mk.injEq, Option.some.injEq]
    constructor
    · rintro ⟨rfl, rfl⟩
      exact ⟨rfl, .inl rfl, by simp [mark]⟩
    · rintro ⟨rfl, -, rfl⟩
      exact ⟨rfl, rfl⟩
  · rename_i id' hne hsome
    have hne' : id' ≠ .custom := hne
    simp only [hsome, Option.some.injEq]
    constructor
    · intro h
      split at h
      · cases h
      · split at h
        · cases h
        · rename_i hlt
          simp only [Except.ok.injEq, Prod.mk.injEq] at h
          obtain ⟨rfl, rfl⟩ := h
          exact ⟨rfl, .inr (Nat.not_le.1 hlt), by simp [mark, hne']⟩
    · rintro ⟨rfl, hadm, rfl⟩
      have hlt : s.lastOrder < id'.order := hadm.resolve_left hne'
      -- a section met before has a place at or before the last one
      have hnew : id' ∉ s.seen := fun hmem => absurd (hs id' hmem) (Nat.not_le.2 hlt)
      simp [hnew, Nat.not_le.2 hlt, mark, hne']

theorem readBody_eq_record_iff {s s' : Stream} (hs : s.Coherent) {code : UInt8} {size n : Nat}
    {c : Cursor} {r : Record} :
    s.readBody code size c = (.ok (.record r n), s') ↔
      ∃ id : SectionId, id.code = code ∧ s.Admits id ∧
        IsPayload ⟨s.offset, c.position, c.position + size⟩ id (c.rest.take size) r ∧
        n = c.consumed + size ∧ s' = s.behind id n := by
  unfold readBody
  constructor
  · intro h
    split at h
    · cases h
    · rename_i id s₁ hacc
      obtain ⟨hcode, hadm, rfl⟩ := (accept_eq_ok_iff hs).1 hacc
      dsimp only at h
      split at h
      · cases h
      · rename_i r' c' hread
        simp only [Prod.mk.injEq, Except.ok.injEq, Chunk.record.injEq] at h
        obtain ⟨⟨rfl, rfl⟩, rfl⟩ := h
        exact ⟨id, hcode, hadm, readPayload_eq_ok_iff.1 ⟨c', hread⟩, rfl, by simp [behind]⟩
  · rintro ⟨id, hcode, hadm, hpay, rfl, rfl⟩
    obtain ⟨c', hread⟩ := readPayload_eq_ok_iff.2 hpay
    rw [(accept_eq_ok_iff hs).2 ⟨hcode, hadm, rfl⟩]
    simp only [hread, behind, Nat.cast_add]

/-- The size of a section, read behind its identifier. -/
theorem u32_behind_code_eq_ok_iff {code : UInt8} {tail : Bytes} {base : Int} {n : UInt32}
    {c : Cursor} :
    Read.u32 ((Cursor.ofBytes (code :: tail) base).skip 1) = .ok n c ↔
      ∃ size, IsUnsigned 32 n.toNat size ∧ tail = size ++ c.rest ∧
        c = ⟨base, 1 + size.length, c.rest⟩ := by
  rw [Read.u32_parses]
  obtain ⟨base', consumed, rest⟩ := c
  constructor
  · rintro ⟨size, hc, hn⟩
    have hb : base' = base := hc.base
    have hl : consumed = 1 + size.length := hc.consumed
    exact ⟨size, hn, hc.rest, by rw [hb, hl]⟩
  · rintro ⟨size, hn, hrest, hc⟩
    simp only [Cursor.mk.injEq] at hc
    exact ⟨size, ⟨hc.1, hrest, hc.2.1⟩, hn⟩

theorem isSection_of_readSection {s s' : Stream} (hs : s.Coherent) {data : Bytes} {eof : Bool}
    {r : Record} {n : Nat} (hr : r.isFinish = false)
    (h : s.readSection data eof = (.ok (.record r n), s')) :
    ∃ id bs rest, data = bs ++ rest ∧ IsSection s.offset id bs r ∧ n = bs.length ∧
      s.Admits id ∧ s' = s.behind id n := by
  unfold readSection at h
  split at h
  · split at h
    · simp only [Prod.mk.injEq, Except.ok.injEq, Chunk.record.injEq] at h
      obtain ⟨⟨rfl, -⟩, -⟩ := h
      simp [Record.isFinish] at hr
    · simp at h
  · rename_i code tail
    split at h
    · repeat' split at h
      all_goals simp at h
    · rename_i count c hc
      obtain ⟨size, hsize, htail, hcur⟩ := u32_behind_code_eq_ok_iff.1 hc
      split at h
      · split at h <;> simp at h
      · rename_i hlen
        obtain ⟨id, rfl, hadm, hpay, hn, hs'⟩ := (readBody_eq_record_iff hs).1 h
        have htake : (c.rest.take count.toNat).length = count.toNat := by
          rw [List.length_take]
          omega
        have hpos : c.position = s.offset + ((1 + size.length : Nat) : Int) := by rw [hcur]; rfl
        have hcons : c.consumed = 1 + size.length := by rw [hcur]
        refine ⟨id, id.code :: (size ++ c.rest.take count.toNat), c.rest.drop count.toNat,
          ?_, ?_, ?_, hadm, hs'⟩
        · rw [htail, List.cons_append, List.append_assoc, List.take_append_drop]
        · refine .mk (htake.symm ▸ hsize) ?_
          have hframe : sectionFrame s.offset size (c.rest.take count.toNat) =
              ⟨s.offset, c.position, c.position + count.toNat⟩ := by
            rw [sectionFrame, htake, hpos]
          rw [hframe]
          exact hpay
        · rw [hn, hcons, List.length_cons, List.length_append, htake]
          omega

theorem readSection_of_isSection {s : Stream} (hs : s.Coherent) {bs rest : Bytes} {eof : Bool}
    {r : Record} {id : SectionId} (h : IsSection s.offset id bs r) (hadm : s.Admits id) :
    s.readSection (bs ++ rest) eof = (.ok (.record r bs.length), s.behind id bs.length) := by
  obtain ⟨hsize, hpay⟩ := h
  rename_i size payload
  have hcount : (UInt32.ofNat payload.length).toNat = payload.length := by
    rw [UInt32.toNat_ofNat', Nat.mod_eq_of_lt hsize.lt]
  have hc : Read.u32 ((Cursor.ofBytes (id.code :: (size ++ payload ++ rest)) s.offset).skip 1) =
      .ok (UInt32.ofNat payload.length) ⟨s.offset, 1 + size.length, payload ++ rest⟩ :=
    u32_behind_code_eq_ok_iff.2
      ⟨size, hcount.symm ▸ hsize, by rw [List.append_assoc], rfl⟩
  have hlen : ¬ (payload ++ rest).length < (UInt32.ofNat payload.length).toNat := by
    rw [hcount, List.length_append]
    omega
  have htotal : (id.code :: (size ++ payload)).length = 1 + size.length + payload.length := by
    rw [List.length_cons, List.length_append]
    omega
  rw [List.cons_append, readSection, hc]
  dsimp only
  rw [if_neg hlen, hcount, htotal]
  refine (readBody_eq_record_iff hs).2 ⟨id, rfl, hadm, ?_, rfl, rfl⟩
  rw [List.take_left]
  exact hpay

/-! ## One step at the end of the input -/

theorem readHeader_true_ne_needMore {s : Stream} {data : Bytes} {hint : Nat} :
    (s.readHeader data true).1 ≠ .ok (.needMore hint) := by
  intro h
  unfold readHeader at h
  split at h
  · cases h
  · dsimp only at h
    split at h
    · cases h
    · split at h <;> cases h

theorem readBody_ne_needMore {s : Stream} {code : UInt8} {size hint : Nat} {c : Cursor} :
    (s.readBody code size c).1 ≠ .ok (.needMore hint) := by
  intro h
  unfold readBody at h
  split at h
  · cases h
  · dsimp only at h
    split at h <;> cases h

theorem readSection_true_ne_needMore {s : Stream} {data : Bytes} {hint : Nat} :
    (s.readSection data true).1 ≠ .ok (.needMore hint) := by
  intro h
  unfold readSection at h
  split at h
  · cases h
  · split at h
    · split at h <;> cases h
    · split at h
      · cases h
      · exact readBody_ne_needMore h

/-- At the end of the input no step asks for more. -/
theorem step_true_ne_needMore {s : Stream} {data : Bytes} {hint : Nat} :
    (s.step data true).1 ≠ .ok (.needMore hint) := by
  intro h
  unfold step at h
  split at h
  · exact readHeader_true_ne_needMore h
  · exact readSection_true_ne_needMore h
  · cases h

theorem eq_nil_of_readSection_finish {s s' : Stream} {data : Bytes} {eof : Bool} {r : Record}
    {n : Nat} (hr : r.isFinish = true) (h : s.readSection data eof = (.ok (.record r n), s')) :
    data = [] := by
  unfold readSection at h
  split at h
  · rfl
  · split at h
    · repeat' split at h
      all_goals simp at h
    · split at h
      · split at h <;> simp at h
      · unfold readBody at h
        split at h
        · simp at h
        · dsimp only at h
          split at h
          · simp at h
          · rename_i hread
            simp only [Prod.mk.injEq, Except.ok.injEq, Chunk.record.injEq] at h
            obtain ⟨⟨rfl, -⟩, -⟩ := h
            rw [isFinish_of_readPayload hread] at hr
            cases hr

/-- The header is read exactly where its eight bytes stand. -/
theorem readHeader_eq_record_iff {s s' : Stream} {data : Bytes} {eof : Bool} {r : Record}
    {n : Nat} :
    s.readHeader data eof = (.ok (.record r n), s') ↔
      ∃ rest, data = headerBytes ++ rest ∧ r = .header s.offset 1 ∧ n = headerSize ∧
        s' = { s with offset := s.offset + headerSize, stage := .sections } := by
  unfold readHeader
  constructor
  · intro h
    split at h
    · split at h <;> simp at h
    · rename_i hlen
      dsimp only at h
      split at h
      · simp at h
      · rename_i hmagic
        split at h
        · simp at h
        · rename_i hversion
          simp only [ne_eq, not_not] at hmagic hversion
          simp only [Prod.mk.injEq, Except.ok.injEq, Chunk.record.injEq, hversion] at h
          obtain ⟨⟨rfl, rfl⟩, rfl⟩ := h
          refine ⟨data.drop headerSize, ?_, rfl, rfl, rfl⟩
          have htake : data.take headerSize = headerBytes :=
            take_eq_headerBytes (Nat.not_lt.1 hlen) hmagic hversion
          rw [← htake, List.take_append_drop]
  · rintro ⟨rest, rfl, rfl, rfl, rfl⟩
    have hlen : ¬ (headerBytes ++ rest).length < headerSize := by
      rw [List.length_append, length_headerBytes]
      omega
    rw [if_neg hlen]
    rfl

/-! ## Runs -/

/-- A run unfolded by one step. -/
theorem run_eq (s : Stream) (data : Bytes) :
    s.run data =
      match s.step data true with
      | (.error e, _) => ([], some e)
      | (.ok (.needMore hint), s') =>
        ([], some (.internal .decode ("decoder requested " ++ toString hint
          ++ " more bytes after end of input at offset " ++ toString s'.offset)))
      | (.ok (.record r n), s') =>
        if r.isFinish then ([], none)
        else (r :: (s'.run (data.drop n)).1, (s'.run (data.drop n)).2) := by
  rw [run]
  split
  · rename_i h
    rw [h]
  · rename_i h
    rw [h]
  · rename_i r n s' h
    by_cases hr : r.isFinish = true
    · simp only [dif_pos hr, h, if_pos hr]
    · simp only [dif_neg hr, h, if_neg hr]

theorem run_of_error {s s' : Stream} {data : Bytes} {e : Error}
    (h : s.step data true = (.error e, s')) : s.run data = ([], some e) := by
  rw [run_eq, h]

theorem run_of_finish {s s' : Stream} {data : Bytes} {r : Record} {n : Nat}
    (h : s.step data true = (.ok (.record r n), s')) (hr : r.isFinish = true) :
    s.run data = ([], none) := by
  rw [run_eq, h]
  simp [hr]

theorem run_of_record {s s' : Stream} {data : Bytes} {r : Record} {n : Nat}
    (h : s.step data true = (.ok (.record r n), s')) (hr : r.isFinish = false) :
    s.run data = (r :: (s'.run (data.drop n)).1, (s'.run (data.drop n)).2) := by
  rw [run_eq, h]
  simp [hr]

/-- The three ways in which a step at the end of the input comes out. -/
theorem step_true_cases (s : Stream) (data : Bytes) :
    (∃ e s', s.step data true = (.error e, s')) ∨
      (∃ r n s', s.step data true = (.ok (.record r n), s') ∧ r.isFinish = true) ∨
      ∃ r n s', s.step data true = (.ok (.record r n), s') ∧ r.isFinish = false := by
  rcases hstep : s.step data true with ⟨e | hint | ⟨r, n⟩, s'⟩
  · exact .inl ⟨e, s', rfl⟩
  · exact absurd (congrArg Prod.fst hstep) step_true_ne_needMore
  · cases hr : r.isFinish with
    | true => exact .inr (.inl ⟨r, n, s', rfl, hr⟩)
    | false => exact .inr (.inr ⟨r, n, s', rfl, hr⟩)

/-- The places of the sections met from a stream on, behind the place of its last one. -/
def places (s : Stream) (rs : List Record) : List Nat :=
  s.lastOrder :: (rs.filterMap Record.placedId?).map SectionId.order

/-- A section in front adds its place, if it has one. -/
theorem isChain_places_cons_iff {s : Stream} {id : SectionId} {bs : Bytes} {r : Record} {n : Nat}
    (h : IsSection s.offset id bs r) (rs : List Record) :
    (s.places (r :: rs)).IsChain (· < ·) ↔
      s.Admits id ∧ ((s.behind id n).places rs).IsChain (· < ·) := by
  simp only [places, List.filterMap_cons, h.placedId?_eq, lastOrder_behind, Admits]
  by_cases hc : id = .custom
  · simp [hc]
  · simp [hc]

/-- What a run over sections returns is laid out as the grammar says. -/
theorem areSections_of_run {s : Stream} (hs : s.Coherent) (hstage : s.stage = .sections)
    {data : Bytes} {rs : List Record} (h : s.run data = (rs, none)) :
    AreSections s.offset data rs ∧ (s.places rs).IsChain (· < ·) := by
  induction hlen : data.length using Nat.strongRecOn generalizing s data rs with
  | ind len ih =>
  have hstep : s.step data true = s.readSection data true := by simp only [step, hstage]
  rcases s.step_true_cases data with ⟨e, s', he⟩ | ⟨r, n, s', hrec, hr⟩ | ⟨r, n, s', hrec, hr⟩
  · rw [run_of_error he] at h
    cases h
  · rw [run_of_finish hrec hr] at h
    cases h
    rw [eq_nil_of_readSection_finish hr (hstep.symm.trans hrec)]
    exact ⟨.nil _, by simp [places]⟩
  · rw [run_of_record hrec hr] at h
    obtain ⟨id, bs, rest, rfl, hsec, rfl, hadm, rfl⟩ :=
      isSection_of_readSection hs hr (hstep.symm.trans hrec)
    rw [List.drop_left] at h
    have hpos := hsec.length_pos
    obtain ⟨rs', hrs'⟩ : ∃ rs', (s.behind id bs.length).run rest = (rs', none) := by
      simp only [Prod.mk.injEq] at h
      exact ⟨_, Prod.ext rfl h.2⟩
    rw [hrs'] at h
    cases h
    obtain ⟨hsections, hchain⟩ := ih rest.length (by rw [← hlen, List.length_append]; omega)
      (hs.behind hadm bs.length) (by rw [stage_behind, hstage]) hrs' rfl
    exact ⟨.cons hsec hsections, (isChain_places_cons_iff hsec rs').2 ⟨hadm, hchain⟩⟩

/-- Sections laid out as the grammar says are read one by one. -/
theorem run_of_areSections {start : Int} {data : Bytes} {rs : List Record}
    (h : AreSections start data rs) {s : Stream} (hs : s.Coherent) (hstage : s.stage = .sections)
    (hstart : s.offset = start) (hchain : (s.places rs).IsChain (· < ·)) :
    s.run data = (rs, none) := by
  induction h generalizing s with
  | nil start =>
    have hstep : s.step [] true =
        (.ok (.record (.finish s.offset) 0), { s with stage := .done }) := by
      simp [step, hstage, readSection]
    exact run_of_finish hstep rfl
  | @cons start id bs rest r rs hsec _ ih =>
    subst hstart
    obtain ⟨hadm, hchain'⟩ := (isChain_places_cons_iff hsec rs).1 hchain
    have hstep : s.step (bs ++ rest) true =
        (.ok (.record r bs.length), s.behind id bs.length) := by
      simp only [step, hstage]
      exact readSection_of_isSection hs hsec hadm
    rw [run_of_record hstep hsec.isFinish, List.drop_left,
      ih (hs.behind hadm bs.length) (by rw [stage_behind, hstage]) rfl hchain']

end Stream

/-- In the canonical order, places ascend from zero. -/
theorem isChain_places_iff_sublist {offset : Int} {stage : Stage} {rs : List Record} :
    (Stream.places { offset, stage } rs).IsChain (· < ·) ↔
      (rs.filterMap Record.placedId?).Sublist canonicalOrder := by
  have hne : ∀ id ∈ rs.filterMap Record.placedId?, id ≠ .custom := by
    intro id hid
    obtain ⟨r, -, hr⟩ := List.mem_filterMap.1 hid
    exact placedId?_ne_custom hr
  rw [sublist_canonicalOrder_iff hne, Stream.places, List.isChain_iff_pairwise, List.pairwise_cons,
    List.pairwise_map, and_iff_right]
  intro n hn
  obtain ⟨id, hid, rfl⟩ := List.mem_map.1 hn
  exact order_pos_of_mem (mem_canonicalOrder (hne id hid))

/-- The stream behind the header of a module found at `offset`. -/
def Stream.behindHeader (offset : Int) : Stream :=
  { offset := offset + headerSize, stage := .sections }

theorem Stream.coherent_behindHeader (offset : Int) : (behindHeader offset).Coherent := by
  intro id hid
  cases hid

theorem Stream.step_header (offset : Int) (body : Bytes) (eof : Bool) :
    step { offset } (headerBytes ++ body) eof =
      (.ok (.record (.header offset 1) headerSize), behindHeader offset) :=
  readHeader_eq_record_iff.2 ⟨body, rfl, rfl, rfl, rfl⟩

theorem Stream.run_header (offset : Int) (body : Bytes) :
    run { offset } (headerBytes ++ body) =
      (.header offset 1 :: ((behindHeader offset).run body).1,
        ((behindHeader offset).run body).2) := by
  rw [run_of_record (step_header offset body true) rfl, ← length_headerBytes, List.drop_left]

/-- A run that succeeds starts with a header. -/
theorem Stream.eq_headerBytes_append_of_run {offset : Int} {bs : Bytes} {records : List Record}
    (h : run { offset } bs = (records, none)) : ∃ body, bs = headerBytes ++ body := by
  rcases step_true_cases { offset } bs with
    ⟨e, s', he⟩ | ⟨r, n, s', hrec, -⟩ | ⟨r, n, s', hrec, -⟩
  · rw [run_of_error he] at h
    cases h
  · obtain ⟨body, hbs, -⟩ := readHeader_eq_record_iff.1 hrec
    exact ⟨body, hbs⟩
  · obtain ⟨body, hbs, -⟩ := readHeader_eq_record_iff.1 hrec
    exact ⟨body, hbs⟩

/-- A stream reads a module of the grammar to its end, and nothing else. -/
theorem Stream.run_eq_iff_isModule {offset : Int} {bs : Bytes} {records : List Record} :
    run { offset } bs = (records, none) ↔ IsModule offset bs records := by
  constructor
  · intro h
    obtain ⟨body, rfl⟩ := eq_headerBytes_append_of_run h
    rw [run_header] at h
    simp only [Prod.mk.injEq] at h
    obtain ⟨rfl, hend⟩ := h
    obtain ⟨hsections, hchain⟩ :=
      areSections_of_run (coherent_behindHeader offset) rfl (Prod.ext rfl hend)
    exact .mk hsections (isChain_places_iff_sublist.1 hchain)
  · intro h
    obtain ⟨hsections, horder⟩ := h
    rw [run_header, run_of_areSections hsections (coherent_behindHeader offset) rfl rfl
      (isChain_places_iff_sublist.2 horder)]

/-! ## Modules -/

theorem decodeModule_eq_ok_iff_run {data : Bytes} {offset : Int} (hlow : 0 ≤ offset)
    (hhigh : offset ≤ data.length) {records : List Record} :
    decodeModule data offset = .ok records ↔
      Stream.run { offset } (data.drop offset.toNat) = (records, none) := by
  have hin : ¬ (offset < 0 ∨ (data.length : Int) < offset) := by omega
  rw [decodeModule, walkModule, if_neg hin]
  rcases Stream.run { offset } (data.drop offset.toNat) with ⟨rs, _ | e⟩
  · simp
  · simp

/-- **Decoding accepts exactly the modules of the grammar**: it succeeds with records if and only
if the bytes from the offset on are a module with these records, and then the records tile the
bytes up to the end. -/
theorem decodeModule_eq_ok_iff_isModule {data : Bytes} {offset : Int} (hlow : 0 ≤ offset)
    (hhigh : offset ≤ data.length) (records : List Record) :
    (decodeModule data offset = .ok records ↔
      IsModule offset (data.drop offset.toNat) records) ∧
    (decodeModule data offset = .ok records → Tile offset records data.length) := by
  have hiff : decodeModule data offset = .ok records ↔
      IsModule offset (data.drop offset.toNat) records :=
    (decodeModule_eq_ok_iff_run hlow hhigh).trans Stream.run_eq_iff_isModule
  refine ⟨hiff, fun h => ?_⟩
  have htile := (hiff.1 h).tile
  have hlen : offset + ((data.drop offset.toNat).length : Int) = data.length := by
    rw [List.length_drop]
    omega
  rwa [hlen] at htile

/-- A module behind a stray byte: a custom section whose size is written in two bytes, and a start
section. -/
theorem decodeModule_custom_start :
    let data := 0xFF :: (headerBytes ++ [0x00, 0x83, 0x00, 0x01, 0x61, 0xAA, 0x08, 0x01, 0x05])
    let records : List Record :=
      [.header 1 1, .custom ⟨9, 12, 15⟩ "a" [0xAA], .startFunction ⟨15, 17, 18⟩ 5]
    decodeModule data 1 = .ok records ∧ Tile 1 records 18 := by
  intro data records
  have hcustom : IsSection 9 .custom [0x00, 0x83, 0x00, 0x01, 0x61, 0xAA]
      (.custom ⟨9, 12, 15⟩ "a" [0xAA]) :=
    @IsSection.mk 9 .custom [0x83, 0x00] [0x01, 0x61, 0xAA] _ (by decide)
      (@IsPayload.custom _ [0x01] [0xAA] "a" (by decide))
  have hstart : IsSection 15 .start [0x08, 0x01, 0x05] (.startFunction ⟨15, 17, 18⟩ 5) :=
    @IsSection.mk 15 .start [0x01] [0x05] _ (by decide) (.start (by decide))
  have hmodule : IsModule 1 (data.drop 1) records :=
    .mk (.cons hcustom (.cons hstart (.nil _))) (by decide)
  have hdecode := @decodeModule_eq_ok_iff_isModule data 1 (by decide) (by decide) records
  exact ⟨hdecode.1.2 hmodule, hdecode.2 (hdecode.1.2 hmodule)⟩

end WasmUdon
