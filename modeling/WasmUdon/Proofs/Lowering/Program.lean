import WasmUdon.Lowering.Pipeline
import WasmUdon.Proofs.Lowering.Initializer
import WasmUdon.Proofs.Lowering.Section
import WasmUdon.Proofs.Module.Decoding

/-!
# The program of a module

Only the header and the global section are lowered, and a module has at most one global section. So
a module that is lowered is a header alone, with an empty program, or a header and a global section,
with the program of that section (`Options.program_eq_ok`): merging the units loses no block and
moves none, since all labels are distinct (`mergeUnits_unitOf`).

Conversely, a header and a global section that is lowered have a program
(`Options.program_of_isModule`).

`Options.program_form` says what the program looks like: a declaration and a block for every entry,
in the order of the entries, named by its index.
-/

namespace WasmUdon

/-! ## The name of a global -/

theorem globalName_eq {index : Nat} (h : index < UInt32.size) :
    globalName index = text "__G__" ++ decimal index := by
  rw [globalName, Slot.name, UInt32.toNat_ofNat_of_lt' h]

theorem initLabel_globalName {index : Nat} (h : index < UInt32.size) :
    initLabel (globalName index) = text "__INIT___G__" ++ decimal index := by
  rw [globalName_eq h, initLabel, ← List.append_assoc, ← text_append]
  rfl

/-! ## Which records are lowered -/

/-- A record that is lowered is a header or a global section. -/
theorem Record.eq_of_lower {r : Record} {exported : Bool} {u : ProgramUnit}
    (h : r.lower exported = .ok u) :
    (∃ start version, r = .header start version ∧ u = { kind := .nonGlobal, program := {} }) ∨
      ∃ frame v, r = .vector frame .globals v ∧ v.lowerGlobals exported = .ok u := by
  unfold lower at h
  split at h
  · cases h
    exact .inl ⟨_, _, rfl, rfl⟩
  · exact .inr ⟨_, _, rfl, h⟩
  · cases h

/-- The records of sections are no headers. -/
theorem AreSections.exists_kind {start : Int} {bs : Bytes} {rs : List Record}
    (h : AreSections start bs rs) : ∀ r ∈ rs, ∃ id, r.kind = .content id := by
  induction h with
  | nil start => exact fun _ hr => nomatch hr
  | cons hsec _ ih =>
    refine List.forall_mem_cons.2 ⟨?_, ih⟩
    obtain ⟨hsize, hpayload⟩ := hsec
    exact ⟨_, hpayload.kind⟩

theorem nodup_canonicalOrder : canonicalOrder.Nodup := by decide

/-- A module has no two global sections. -/
theorem length_le_one_of_globals {rs : List Record}
    (horder : (rs.filterMap Record.placedId?).Sublist canonicalOrder)
    (hrs : ∀ r ∈ rs, ∃ frame v, r = .vector frame .globals v) : rs.length ≤ 1 := by
  have hnodup := nodup_canonicalOrder.sublist horder
  match rs with
  | [] => exact Nat.zero_le 1
  | [r] => exact Nat.le_refl 1
  | r :: r' :: rest =>
    obtain ⟨frame, v, rfl⟩ := hrs r List.mem_cons_self
    obtain ⟨frame', v', rfl⟩ := hrs r' (List.mem_cons_of_mem _ List.mem_cons_self)
    simp [Record.placedId?, Record.kind] at hnodup

/-- Units are found only if every record is lowered. -/
theorem exists_lower_of_mem {exported : Bool} {rs : List Record}
    (h : (walkUnits exported rs).2 = none) : ∀ r ∈ rs, ∃ u, r.lower exported = .ok u := by
  induction rs with
  | nil => exact fun _ hr => nomatch hr
  | cons r rs ih =>
    unfold walkUnits at h
    split at h
    · cases h
    · rename_i u hu
      exact List.forall_mem_cons.2 ⟨⟨u, hu⟩, ih h⟩

/-- A module whose records are all lowered is a header alone, or a header and a global section. -/
theorem IsModule.eq_of_lowered {offset : Int} {bs : Bytes} {rs : List Record} {exported : Bool}
    (h : IsModule offset bs rs) (hrs : (walkUnits exported rs).2 = none) :
    rs = [.header offset 1] ∨
      ∃ frame v, rs = [.header offset 1, .vector frame .globals v] := by
  have hlower := exists_lower_of_mem hrs
  obtain ⟨hsections, horder⟩ := h
  rename_i body sections
  have hglobals : ∀ r ∈ sections, ∃ frame v, r = .vector frame .globals v := by
    intro r hr
    obtain ⟨u, hu⟩ := hlower r (List.mem_cons_of_mem _ hr)
    rcases Record.eq_of_lower hu with ⟨start, version, rfl, -⟩ | ⟨frame, v, rfl, -⟩
    · obtain ⟨id, hid⟩ := hsections.exists_kind _ hr
      cases hid
    · exact ⟨frame, v, rfl⟩
  have hlen := length_le_one_of_globals horder hglobals
  match sections with
  | [] => exact .inl rfl
  | [r] =>
    obtain ⟨frame, v, rfl⟩ := hglobals r List.mem_cons_self
    exact .inr ⟨frame, v, rfl⟩
  | r :: r' :: rest =>
    simp only [List.length_cons] at hlen
    omega

/-! ## Merging the units -/

/-- Merging the program of a global section into an empty one gives that program. -/
theorem mergeUnits_unitOf {exported : Bool} {lowered : List (Declaration × Block)}
    (h : ((lowered.map initEntry).map Prod.fst).Nodup) :
    mergeUnits [{ kind := .nonGlobal, program := {} }, unitOf exported lowered] =
      (unitOf exported lowered).program := by
  have hentries : ((lowered.map initEntry).foldl (fun m entry => m.set entry.1 entry.2)
      ({} : CodeMap Block)).entries = lowered.map initEntry := CodeMap.entries_foldl_set h
  have hmap : CodeMap.merge {} { entries := lowered.map initEntry } =
      { entries := lowered.map initEntry } := congrArg CodeMap.mk hentries
  simp only [mergeUnits, List.foldl_cons, List.foldl_nil, Program.merge, Program.mergeData,
    Program.mergeCode, unitOf, Option.bind_none, Option.getD_none, Option.getD_some, hmap]

namespace Options

variable {o : Options} {data : Bytes}

theorem isModule_of_records {rs : List Record} (h : o.records data = .ok rs) :
    IsModule o.offset (data.drop o.offset.toNat) rs := by
  unfold records walk walkModule at h
  split at h
  · rename_i hwalk
    cases h
    split at hwalk
    · cases hwalk
    · split at hwalk
      · cases hwalk
      · exact Stream.run_eq_iff_isModule.1 hwalk
  · cases h

/-- The units of a header and a global section. -/
theorem walkUnits_header_globals {exported : Bool} {offset : Int} {version : UInt32} {frame : Frame}
    {v : EntryVector} {us : List ProgramUnit}
    (h : walkUnits exported [.header offset version, .vector frame .globals v] = (us, none)) :
    ∃ u, v.lowerGlobals exported = .ok u ∧
      us = [{ kind := .nonGlobal, program := {} }, u] := by
  simp only [walkUnits, Record.lower] at h
  split at h
  · cases h
  · rename_i u hu
    cases h
    exact ⟨u, hu, rfl⟩

/-- **What is lowered is a header alone, or a header and a global section**, and the program is
that of the section. -/
theorem program_eq_ok {p : Program} (h : o.program data = .ok p) :
    (o.records data = .ok [.header o.offset 1] ∧ p = {}) ∨
      ∃ frame v entries lowered,
        o.records data = .ok [.header o.offset 1, .vector frame .globals v] ∧
        v.globalEntries = .ok entries ∧ entries.length = v.count.toNat ∧
        LowersTo 0 [] entries lowered ∧ p = (unitOf o.exportInit lowered).program := by
  obtain ⟨rs, hrecords, h⟩ := except_bind_eq_ok_iff.1 h
  obtain ⟨us, hunits, h⟩ := except_bind_eq_ok_iff.1 h
  cases h
  unfold units at hunits
  split at hunits
  · cases hunits
  split at hunits
  · rename_i hwalk
    cases hunits
    rcases (isModule_of_records hrecords).eq_of_lowered (congrArg Prod.snd hwalk) with
      rfl | ⟨frame, v, rfl⟩
    · cases hwalk
      exact .inl ⟨hrecords, rfl⟩
    · obtain ⟨u, hu, rfl⟩ := walkUnits_header_globals hwalk
      obtain ⟨entries, lowered, hentries, hlen, hlowers, rfl⟩ := EntryVector.exists_lowersTo hu
      refine .inr ⟨frame, v, entries, lowered, hrecords, hentries, hlen, hlowers, ?_⟩
      refine mergeUnits_unitOf (hlowers.nodup_labels ?_)
      rw [hlen, Nat.zero_add]
      exact Nat.le_of_lt v.count.toNat_lt
  · cases hunits

/-- The records of a module of the grammar. -/
theorem records_of_isModule (ho : o.canceled = false) (hlow : 0 ≤ o.offset)
    (hhigh : o.offset ≤ data.length) {rs : List Record}
    (h : IsModule o.offset (data.drop o.offset.toNat) rs) : o.records data = .ok rs := by
  have hin : ¬(o.offset < 0 ∨ (data.length : Int) < o.offset) := by omega
  have hwalk : o.walk data = (rs, none) := by
    rw [walk, ho, walkModule, if_neg hin]
    exact Stream.run_eq_iff_isModule.2 h
  rw [records, hwalk]

/-- The program of a module with nothing but a global section is that of the section. -/
theorem program_of_isModule (ho : o.canceled = false) (hlow : 0 ≤ o.offset)
    (hhigh : o.offset ≤ data.length) {frame : Frame} {v : EntryVector} {u : ProgramUnit}
    (h : IsModule o.offset (data.drop o.offset.toNat)
      [.header o.offset 1, .vector frame .globals v])
    (hlower : v.lowerGlobals o.exportInit = .ok u) : o.program data = .ok u.program := by
  have hgo : ¬(o.canceled ∧ [Record.header o.offset 1, .vector frame .globals v] ≠ []) := by
    simp [ho]
  have hunits : o.units [.header o.offset 1, .vector frame .globals v] =
      .ok [{ kind := .nonGlobal, program := {} }, u] := by
    rw [units, if_neg hgo]
    simp only [walkUnits, Record.lower, hlower]
  obtain ⟨entries, lowered, -, hlen, hlowers, rfl⟩ := EntryVector.exists_lowersTo hlower
  have hnodup := hlowers.nodup_labels (by
    rw [hlen, Nat.zero_add]
    exact Nat.le_of_lt v.count.toNat_lt)
  rw [← mergeUnits_unitOf hnodup]
  simp only [program, records_of_isModule ho hlow hhigh h, hunits, bind, Except.bind]
  rfl

end Options

/-! ## One global -/

/-- What an entry of a section is lowered to: its initializer is lowered behind the entries before
it, and the declaration has no attribute. -/
theorem LowersTo.exists_lower {index : Nat} {env : GlobalEnv} {entries : List GlobalEntry}
    {lowered : List (Declaration × Block)} (h : LowersTo index env entries lowered) {i : Nat}
    {l : Declaration × Block} (hl : lowered[i]? = some l) :
    ∃ entry env', entries[i]? = some entry ∧
      env'.map Prod.snd = env.map Prod.snd ++ (entries.take i).map (·.type.isMutable) ∧
      entry.type.type.lower = .ok l.1.type ∧
      entry.init.lower env' (index + i) (globalName (index + i)) l.1.type = .ok (l.2, l.1.init) ∧
      l.1.name = globalName (index + i) ∧ l.1.attr = {} := by
  induction h generalizing i with
  | nil => cases hl
  | @cons index env entry entries type block init lowered htype hinit hrest ih =>
    cases i with
    | zero =>
      cases hl
      exact ⟨entry, env, rfl, by simp, htype, hinit, rfl, rfl⟩
    | succ i =>
      obtain ⟨entry', env', hentry, henv, htype', hinit', hname, hattr⟩ := ih hl
      rw [Nat.add_assoc, Nat.add_comm 1 i] at hinit' hname
      refine ⟨entry', env', hentry, ?_, htype', hinit', hname, hattr⟩
      rw [henv]
      simp

/-- Every entry is lowered to something. -/
theorem LowersTo.exists_lowered {index : Nat} {env : GlobalEnv} {entries : List GlobalEntry}
    {lowered : List (Declaration × Block)} (h : LowersTo index env entries lowered) {i : Nat}
    {entry : GlobalEntry} (hentry : entries[i]? = some entry) : ∃ l, lowered[i]? = some l := by
  have hi : i < entries.length := (List.getElem?_eq_some_iff.1 hentry).1
  rw [← h.length_eq] at hi
  exact ⟨_, List.getElem?_eq_getElem hi⟩

/-- No marked constant is emitted. -/
theorem InitState.Effect.mark_notMem {env : GlobalEnv} {index : Nat} {op : Operator}
    {s s' : InitState} (h : Effect env index op s s') {value : Option Literal}
    (hs : .mark value ∉ s.block) : .mark value ∉ s'.block := by
  cases h with
  | blockEnd hop => exact hs
  | const hop hvalue => exact hs
  | dropConstant hop hstack => exact hs
  | nop hop => simpa [emit] using hs
  | halt hop => simpa [emit, Instruction.jumpTo] using hs
  | dropVariable hop hstack htop => simpa [emit] using hs
  | get hop htarget hlt henv => simpa [emit] using hs
  | set hop htarget hstack htop => simpa using hs

/-- A block has no marked constants. It goes with a first value of the declared type, or it ends by
storing into its own variable. -/
theorem ConstExpr.form_of_lower {expr : ConstExpr} {env : GlobalEnv} {index : Nat} {name : Bytes}
    {type : AsmType} {block : Block} {init : Option Literal}
    (h : expr.lower env index name type = .ok (block, init)) :
    (∀ value, .mark value ∉ block) ∧
      ((∃ value, init = some value ∧ value.type = type) ∨
        init = none ∧ ∃ front, block = front ++ [.push name, .copy]) := by
  obtain ⟨s, hs, hcases⟩ := lower_eq_ok h
  have hmark : ∀ value, .mark value ∉ s.block := fun value =>
    InitState.operators_preserve (P := fun s => .mark value ∉ s.block)
      (fun heffect => heffect.mark_notMem) hs List.not_mem_nil
  rcases hcases with ⟨value, -, htype, rfl, rfl⟩ | ⟨-, rfl, rfl⟩
  · exact ⟨hmark, .inl ⟨value, rfl, htype⟩⟩
  · refine ⟨fun value => ?_, .inr ⟨rfl, s.block, rfl⟩⟩
    simpa using hmark value

/-! ## The whole program -/

/-- The labels of the blocks, in the order of the entries. -/
theorem LowersTo.labels_eq {entries : List GlobalEntry} {lowered : List (Declaration × Block)}
    (h : LowersTo 0 [] entries lowered) (hsize : entries.length ≤ UInt32.size) :
    CodeMap.labels { entries := lowered.map initEntry } =
      (List.range entries.length).map fun i => text "__INIT___G__" ++ decimal i := by
  have hnames : CodeMap.labels { entries := lowered.map initEntry } =
      (lowered.map (·.1.name)).map initLabel := by
    rw [CodeMap.labels, List.map_map, List.map_map]
    rfl
  rw [hnames, h.names, List.map_map, ← List.range_eq_range']
  refine List.map_congr_left fun i hi => ?_
  exact initLabel_globalName (by have := List.mem_range.1 hi; omega)

/-- The block of an entry is found by its label. -/
theorem LowersTo.get?_label {entries : List GlobalEntry} {lowered : List (Declaration × Block)}
    (h : LowersTo 0 [] entries lowered) (hsize : entries.length ≤ UInt32.size) {i : Nat}
    {l : Declaration × Block} (hl : lowered[i]? = some l) :
    CodeMap.get? { entries := lowered.map initEntry } (text "__INIT___G__" ++ decimal i) =
      some l.2 := by
  obtain ⟨_, _, hentry, -, -, -, hname, -⟩ := h.exists_lower hl
  have hi : i < entries.length := (List.getElem?_eq_some_iff.1 hentry).1
  rw [← initLabel_globalName (Nat.lt_of_lt_of_le hi hsize), ← Nat.zero_add i, ← hname]
  refine CodeMap.get?_of_mem ?_ (List.mem_map_of_mem (List.mem_of_getElem? hl))
  exact h.nodup_labels (by omega)

/-- **The program of a module has a declaration and a block for every global**, in the order of
the entries and named by the index. The declaration has no attribute and the type of the entry.
No block has a marked constant. Either the declaration has a first value of its type, or it has
none and the block ends by storing into the variable. A module without a global section has an
empty program, and a module with any other section has none. -/
theorem Options.program_form {o : Options} {data : Bytes} {p : Program}
    (h : o.program data = .ok p) :
    (o.records data = .ok [.header o.offset 1] ∧ p.data = none ∧ p.code = none) ∨
      ∃ frame v entries ds m,
        o.records data = .ok [.header o.offset 1, .vector frame .globals v] ∧
        v.globalEntries = .ok entries ∧ entries.length = v.count.toNat ∧
        p.data = some ds ∧ ds.length = v.count.toNat ∧
        p.code = some { map := some m, exported := o.exportInit } ∧
        m.labels = (List.range v.count.toNat).map (fun i => text "__INIT___G__" ++ decimal i) ∧
        (∀ entry ∈ m.entries, ∀ value, .mark value ∉ entry.2) ∧
        ∀ i < v.count.toNat, ∃ entry d block,
          entries[i]? = some entry ∧ ds[i]? = some d ∧
          m.get? (text "__INIT___G__" ++ decimal i) = some block ∧
          d.name = text "__G__" ++ decimal i ∧ d.attr.kind = .none ∧
          entry.type.type.lower = .ok d.type ∧
          ((∃ value, d.init = some value ∧ value.type = d.type) ∨
            d.init = none ∧ ∃ front, block = front ++ [.push d.name, .copy]) := by
  rcases program_eq_ok h with ⟨hrecords, rfl⟩ |
    ⟨frame, v, entries, lowered, hrecords, hentries, hlen, hlowers, rfl⟩
  · exact .inl ⟨hrecords, rfl, rfl⟩
  have hcount := v.count.toNat_lt
  have hsize : entries.length ≤ UInt32.size := hlen ▸ Nat.le_of_lt hcount
  have hlen' : lowered.length = v.count.toNat := hlowers.length_eq.trans hlen
  refine .inr ⟨frame, v, entries, _, _, hrecords, hentries, hlen, rfl, ?_, rfl, ?_, ?_, ?_⟩
  · rw [List.length_map, hlen']
  · rw [hlowers.labels_eq hsize, hlen]
  · intro entry hentry
    obtain ⟨l, hl, rfl⟩ := List.mem_map.1 hentry
    obtain ⟨i, hi⟩ := List.mem_iff_getElem?.1 hl
    obtain ⟨_, _, -, -, -, hinit, -⟩ := hlowers.exists_lower hi
    exact (ConstExpr.form_of_lower hinit).1
  · intro i hi
    obtain ⟨l, hl⟩ : ∃ l, lowered[i]? = some l :=
      ⟨_, List.getElem?_eq_getElem (hlen'.symm ▸ hi)⟩
    obtain ⟨entry, env, hentry, -, htype, hinit, hname, hattr⟩ := hlowers.exists_lower hl
    rw [Nat.zero_add] at hname hinit
    rw [← hname] at hinit
    have hi' : i < UInt32.size := hi.trans hcount
    refine ⟨entry, l.1, l.2, hentry, ?_, hlowers.get?_label hsize hl,
      hname.trans (globalName_eq hi'), ?_, htype, (ConstExpr.form_of_lower hinit).2⟩
    · rw [List.getElem?_map, hl]
      rfl
    · rw [hattr]

/-- A module with a constant and a copy of it, in front of which two bytes are left out. -/
theorem program_form_constantAndCopy :
    let data : Bytes := [0xDE, 0xAD] ++ headerBytes ++
      [0x06, 0x0B, 0x02, 0x7F, 0x00, 0x41, 0x07, 0x0B, 0x7F, 0x00, 0x23, 0x00, 0x0B]
    let o : Options := { offset := 2, exportInit := true }
    ∃ p ds m, o.program data = .ok p ∧ p.data = some ds ∧ ds.length = 2 ∧
      p.code = some { map := some m, exported := true } ∧
      m.labels = [text "__INIT___G__0", text "__INIT___G__1"] := by
  intro data o
  have h : o.program data = .ok (unitOf true
      [({ name := globalName 0, type := .int32, init := some (.int32 7) }, []),
        ({ name := globalName 1, type := .int32 },
          [.push (globalName 0), .push (globalName 1), .copy])]).program := by
    decide +kernel
  rcases Options.program_form h with ⟨-, hnone, -⟩ |
    ⟨frame, v, entries, ds, m, -, -, -, hdata, hlen, hcode, hlabels, -, -⟩
  · cases hnone
  · have htwo : v.count.toNat = 2 := by
      cases hdata
      exact hlen.symm
    refine ⟨_, ds, m, h, hdata, hlen.trans htwo, hcode, ?_⟩
    rw [hlabels, htwo]
    rfl

end WasmUdon
