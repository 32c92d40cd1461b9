import WasmUdon.Proofs.Module.Failures

/-!
# Modules that are cut off

Sections delimit themselves: of two sections at the front of one byte string, neither reaches
further than the other (`IsSection.unique`). So the records of a module that goes on behind another
one begin with the records of the shorter one (`IsModule.isPrefix`), and conversely a module may be
cut behind each of its records (`IsModule.of_stop_eq`).

`decodeModule_take` puts this together. A module that is cut off is read exactly when the cut lies
behind one of its records, and then the records up to the cut are read. Every other cut is noticed,
as malformed data.
-/

namespace WasmUdon

/-! ## Sections delimit themselves -/

/-- A stream that has met nothing yet accepts a section with any identifier. -/
theorem Stream.admits_of_lastOrder_eq_zero {s : Stream} (hs : s.lastOrder = 0) (id : SectionId) :
    s.Admits id := by
  by_cases hid : id = .custom
  · exact .inl hid
  · refine .inr ?_
    rw [hs]
    exact order_pos_of_mem (mem_canonicalOrder hid)

/-- **Two sections at the front of one byte string are the same.** -/
theorem IsSection.unique {start : Int} {id id' : SectionId} {bs bs' rest rest' : Bytes}
    {r r' : Record} (h : IsSection start id bs r) (h' : IsSection start id' bs' r')
    (heq : bs ++ rest = bs' ++ rest') : bs = bs' ∧ r = r' := by
  -- both are what one stream reads next
  have hread : ∀ {id : SectionId} {bs : Bytes} {r : Record} (rest : Bytes),
      IsSection start id bs r →
        (Stream.readSection { offset := start } (bs ++ rest) true).1 =
          .ok (.record r bs.length) := by
    intro id bs r rest hsec
    have hcoherent : Stream.Coherent { offset := start } := fun _ hid => nomatch hid
    rw [Stream.readSection_of_isSection hcoherent hsec (Stream.admits_of_lastOrder_eq_zero rfl id)]
  have hsame := (hread rest h).symm.trans (heq ▸ hread rest' h')
  simp only [Except.ok.injEq, Chunk.record.injEq] at hsame
  exact ⟨(List.append_inj heq hsame.2).1, hsame.1⟩

/-- The sections at the front of a byte string are the first ones of all its sections. -/
theorem AreSections.isPrefix {start : Int} {bs rest : Bytes} {rs rs' : List Record}
    (h : AreSections start bs rs) (h' : AreSections start (bs ++ rest) rs') : rs <+: rs' := by
  induction h generalizing rs' with
  | nil start => exact List.nil_prefix
  | @cons start id bs more r rs hsec _ ih =>
    rw [List.append_assoc] at h'
    generalize hdata : bs ++ (more ++ rest) = data at h'
    cases h' with
    | nil =>
      have hpos := hsec.length_pos
      rw [(List.append_eq_nil_iff.1 hdata).1] at hpos
      cases hpos
    | @cons _ _ bs' more' r' rs' hsec' hmore' =>
      obtain ⟨rfl, rfl⟩ := hsec.unique hsec' hdata
      have htail : more ++ rest = more' := List.append_cancel_left hdata
      rw [← htail] at hmore'
      exact (List.prefix_cons_inj r).2 (ih hmore')

/-- Sections can be cut between two of them. -/
theorem AreSections.split {start : Int} {bs : Bytes} {front back : List Record}
    (h : AreSections start bs (front ++ back)) :
    ∃ s t, bs = s ++ t ∧ AreSections start s front := by
  induction front generalizing start bs with
  | nil => exact ⟨[], bs, rfl, .nil start⟩
  | cons r front ih =>
    cases h with
    | @cons _ id bs rest _ _ hsec hrest =>
      obtain ⟨s, t, rfl, hfront⟩ := ih hrest
      exact ⟨bs ++ s, t, (List.append_assoc ..).symm, .cons hsec hfront⟩

/-! ## Modules cut behind a record -/

/-- The last one of records that lie end to end reaches to the end. -/
theorem Tile.stop_eq {start stop : Int} {front : List Record} {r : Record}
    (h : Tile start (front ++ [r]) stop) : r.stop = stop := by
  induction front generalizing start with
  | nil => exact h.2.2
  | cons r' front ih => exact ih h.2.2

/-- A module at the front of another one has the first records of it. -/
theorem IsModule.isPrefix {offset : Int} {bs rest : Bytes} {rs rs' : List Record}
    (h : IsModule offset bs rs) (h' : IsModule offset (bs ++ rest) rs') : rs <+: rs' := by
  obtain ⟨hsections, -⟩ := h
  rw [List.append_assoc] at h'
  generalize hdata : headerBytes ++ (_ ++ rest) = data at h'
  obtain ⟨hsections', -⟩ := h'
  rw [← List.append_cancel_left hdata] at hsections'
  exact (List.prefix_cons_inj _).2 (hsections.isPrefix hsections')

/-- A module may be cut behind each of its records. -/
theorem IsModule.split {offset : Int} {bs : Bytes} {front back : List Record} {r : Record}
    (h : IsModule offset bs (front ++ r :: back)) :
    ∃ s t, bs = s ++ t ∧ IsModule offset s (front ++ [r]) := by
  generalize hrecords : front ++ r :: back = records at h
  obtain ⟨hsections, horder⟩ := h
  rename_i body rs
  cases front with
  | nil =>
    obtain ⟨rfl, -⟩ := List.cons.inj hrecords
    exact ⟨headerBytes ++ [], body, rfl, .mk (.nil _) (List.nil_sublist _)⟩
  | cons r' front =>
    rw [List.cons_append] at hrecords
    obtain ⟨rfl, rfl⟩ := List.cons.inj hrecords
    rw [← List.singleton_append, ← List.append_assoc] at hsections horder
    obtain ⟨s, t, rfl, hfront⟩ := hsections.split
    refine ⟨headerBytes ++ s, t, (List.append_assoc ..).symm, .mk hfront ?_⟩
    exact ((List.sublist_append_left _ _).filterMap _).trans horder

/-- **The bytes of a module up to the end of a record are a module**, with the records up to that
one. -/
theorem IsModule.of_stop_eq {offset : Int} {s t : Bytes} {front back : List Record} {r : Record}
    (h : IsModule offset (s ++ t) (front ++ r :: back)) (hstop : r.stop = offset + s.length) :
    IsModule offset s (front ++ [r]) := by
  obtain ⟨s', t', hbs, hmodule⟩ := h.split
  have hstop' : r.stop = offset + s'.length := hmodule.tile.stop_eq
  have hlen : s.length = s'.length := by omega
  rw [(List.append_inj hbs hlen).1]
  exact hmodule

theorem IsModule.ne_nil {offset : Int} {bs : Bytes} {records : List Record}
    (h : IsModule offset bs records) : records ≠ [] := by
  obtain ⟨hsections, -⟩ := h
  exact List.cons_ne_nil _ _

/-- **A module at the front of another one ends where a record of it ends.** -/
theorem IsModule.exists_stop_eq {offset : Int} {s t : Bytes} {rs records : List Record}
    (hs : IsModule offset s rs) (h : IsModule offset (s ++ t) records) :
    ∃ r ∈ records, r.stop = offset + s.length := by
  have htile := hs.tile
  rw [← List.dropLast_append_getLast hs.ne_nil] at htile
  refine ⟨rs.getLast hs.ne_nil, ?_, htile.stop_eq⟩
  exact (hs.isPrefix h).subset (List.getLast_mem hs.ne_nil)

/-! ## Decoding what is left -/

theorem le_of_decodeModule {data : Bytes} {offset : Int} {records : List Record}
    (h : decodeModule data offset = .ok records) : 0 ≤ offset ∧ offset ≤ data.length := by
  by_contra hout
  have hcond : offset < 0 ∨ (data.length : Int) < offset := by omega
  rw [decodeModule, walkModule, if_pos hcond] at h
  cases h

theorem decodeModule_outcome (data : Bytes) (offset : Int) :
    (∃ records, decodeModule data offset = .ok records) ∨
      ∃ e, decodeModule data offset = .error e ∧ e.isDecode = true := by
  rcases hwalk : walkModule data offset with ⟨records, _ | e⟩
  · exact .inl ⟨records, by rw [decodeModule, hwalk]⟩
  · refine .inr ⟨e, by rw [decodeModule, hwalk], ?_⟩
    exact (ofKind_of_walkModule (congrArg Prod.snd hwalk)).decode rfl

/-- The bytes in front of a cut and behind it. -/
theorem take_drop_append {data : Bytes} {n k : Nat} (hk : n ≤ k) :
    (data.take k).drop n ++ data.drop k = data.drop n := by
  have hcut : (data.take k).drop n = (data.drop n).take (k - n) := List.drop_take
  have hrest : data.drop k = (data.drop n).drop (k - n) := by
    rw [List.drop_drop]
    congr 1
    omega
  rw [hcut, hrest, List.take_append_drop]

/-- **A cut is noticed unless it lies behind a record.** Of a module that can be read, the bytes up
to `k` can be read exactly when a record ends at `k`, and this gives the records up to that one;
at every other `k` they are malformed. -/
theorem decodeModule_take {data : Bytes} {offset : Int} {records : List Record}
    (h : decodeModule data offset = .ok records) {k : Nat} (hlow : offset ≤ k)
    (hhigh : k ≤ data.length) :
    ((∃ rs, decodeModule (data.take k) offset = .ok rs) ↔ ∃ r ∈ records, r.stop = k) ∧
      (∀ (front : List Record) (r : Record) (back : List Record), records = front ++ r :: back →
        r.stop = k → decodeModule (data.take k) offset = .ok (front ++ [r])) ∧
      ((∀ r ∈ records, r.stop ≠ k) →
        ∃ e, decodeModule (data.take k) offset = .error e ∧ e.isDecode = true) := by
  obtain ⟨hnonneg, hle⟩ := le_of_decodeModule h
  have hlen : (data.take k).length = k := by rw [List.length_take]; omega
  have hmodule : IsModule offset ((data.take k).drop offset.toNat ++ data.drop k) records := by
    rw [take_drop_append (by omega), ← Stream.run_eq_iff_isModule]
    exact (decodeModule_eq_ok_iff_run hnonneg hle).1 h
  have hend : offset + ((data.take k).drop offset.toNat).length = k := by
    rw [List.length_drop, hlen]
    omega
  have hiff : ∀ rs, decodeModule (data.take k) offset = .ok rs ↔
      IsModule offset ((data.take k).drop offset.toNat) rs := by
    intro rs
    rw [decodeModule_eq_ok_iff_run hnonneg (by omega), Stream.run_eq_iff_isModule]
  have hat : ∀ (front : List Record) (r : Record) (back : List Record),
      records = front ++ r :: back → r.stop = k →
      decodeModule (data.take k) offset = .ok (front ++ [r]) := by
    rintro front r back rfl hstop
    exact (hiff _).2 (hmodule.of_stop_eq (hstop.trans hend.symm))
  have hbehind : (∃ rs, decodeModule (data.take k) offset = .ok rs) →
      ∃ r ∈ records, r.stop = k := by
    rintro ⟨rs, hrs⟩
    rw [← hend]
    exact ((hiff rs).1 hrs).exists_stop_eq hmodule
  refine ⟨⟨hbehind, ?_⟩, hat, fun hnone => ?_⟩
  · rintro ⟨r, hr, hstop⟩
    obtain ⟨front, back, hrecords⟩ := List.append_of_mem hr
    exact ⟨_, hat front r back hrecords hstop⟩
  · refine (decodeModule_outcome (data.take k) offset).resolve_left fun hok => ?_
    obtain ⟨r, hr, hstop⟩ := hbehind hok
    exact hnone r hr hstop

/-- A module of a custom and a start section behind a stray byte, cut between the two sections and
inside of the second one. -/
theorem decodeModule_take_custom_start :
    let data := 0xFF :: (headerBytes ++ [0x00, 0x83, 0x00, 0x01, 0x61, 0xAA, 0x08, 0x01, 0x05])
    decodeModule (data.take 15) 1 = .ok [.header 1 1, .custom ⟨9, 12, 15⟩ "a" [0xAA]] ∧
      ∃ e, decodeModule (data.take 17) 1 = .error e ∧ e.isDecode = true := by
  intro data
  have h : decodeModule data 1 =
      .ok [.header 1 1, .custom ⟨9, 12, 15⟩ "a" [0xAA], .startFunction ⟨15, 17, 18⟩ 5] := by
    decide +kernel
  constructor
  · exact (decodeModule_take h (by decide) (by decide)).2.1 [.header 1 1] _ _ rfl rfl
  · exact (decodeModule_take h (by decide) (by decide)).2.2 (by decide)

end WasmUdon
