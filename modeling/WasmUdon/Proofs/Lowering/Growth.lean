import WasmUdon.Proofs.Global.Entries
import WasmUdon.Proofs.Lowering.Relocation

/-!
# Sections with more globals

Two sections are compared, of which one has more entries behind those of the other. An entry does
not say how long it is, and lowering it looks at the globals before it, so what is at stake is that
bytes further on change nothing for the entries in front of them.

A section is lowered exactly if it is made of as many entries as it counts and they can be lowered
one by one (`EntryVector.lowerGlobals_eq_ok_iff`). Entries can be cut off behind any of them
(`AreGlobals.split`), and so can what they are lowered to (`LowersTo.split`). If the longer section
is not lowered, entries at the front are not to blame: the error is that of a later entry
(`LoweredGlobals.exists_entry_of_error`), or bytes are left over (`EntryVector.error_of_front`).
`Record.lower_grows` puts all this together, for sections that stand anywhere.
-/

namespace WasmUdon

/-! ## Sections that are lowered -/

/-- Entries can be cut off behind any of them. -/
theorem AreGlobals.split {start : Int} {bs : Bytes} {as rest : List GlobalEntry}
    (h : AreGlobals start bs (as ++ rest)) :
    ∃ front back, bs = front ++ back ∧ AreGlobals start front as := by
  induction as generalizing start bs with
  | nil => exact ⟨[], bs, rfl, .nil start⟩
  | cons entry as ih =>
    cases h with
    | @cons _ first bs _ _ hentry hrest =>
      obtain ⟨front, back, rfl, has⟩ := ih hrest
      exact ⟨first ++ front, back, (List.append_assoc _ _ _).symm, .cons hentry has⟩

/-- What entries are lowered to does not depend on entries behind them. -/
theorem LowersTo.split {index : Nat} {env : GlobalEnv} {as rest : List GlobalEntry}
    {lowered : List (Declaration × Block)} (h : LowersTo index env (as ++ rest) lowered) :
    ∃ front back, lowered = front ++ back ∧ LowersTo index env as front := by
  induction as generalizing index env lowered with
  | nil => exact ⟨[], lowered, rfl, .nil⟩
  | cons entry as ih =>
    cases h with
    | cons htype hinit hrest =>
      obtain ⟨front, back, rfl, has⟩ := ih hrest
      exact ⟨_ :: front, back, rfl, .cons htype hinit has⟩

namespace EntryVector

/-- The reader of a section behind `n` entries, which take the bytes `front`. -/
def readerBehind (v : EntryVector) (n : Nat) (front back : Bytes) : GlobalReader :=
  { cursor := ⟨v.offset, front.length, back⟩, count := v.count, index := n }

/-- The entries at the front of a section are read whatever stands behind them. -/
theorem readMany_front {v : EntryVector} {front back : Bytes} {entries : List GlobalEntry}
    (hbytes : v.bytes = front ++ back) (hlen : entries.length ≤ v.count.toNat)
    (h : AreGlobals v.offset front entries) :
    GlobalReader.readMany entries.length (.ofVector v) =
      .ok (entries, v.readerBehind entries.length front back) := by
  have hindex : (GlobalReader.ofVector v).index + entries.length = entries.length := Nat.zero_add _
  have hcount : (GlobalReader.ofVector v).index + entries.length ≤
      (GlobalReader.ofVector v).count.toNat := Nat.le_trans (Nat.le_of_eq hindex) hlen
  have hstart : (GlobalReader.ofVector v).cursor.position = v.offset := Int.add_zero _
  have hfront : (GlobalReader.ofVector v).cursor.Takes front ⟨v.offset, front.length, back⟩ :=
    ⟨rfl, hbytes, (Nat.zero_add _).symm⟩
  refine (GlobalReader.readMany_eq_ok_iff hcount).2 ⟨rfl, front, _, hfront, hstart ▸ h, ?_⟩
  rw [hindex]
  rfl

/-- **A section is lowered exactly if it is made of as many entries as it counts and they are
lowered.** -/
theorem lowerGlobals_eq_ok_iff {v : EntryVector} {exported : Bool} {u : ProgramUnit} :
    v.lowerGlobals exported = .ok u ↔ ∃ entries lowered, entries.length = v.count.toNat ∧
      AreGlobals v.offset v.bytes entries ∧ LowersTo 0 [] entries lowered ∧
      u = unitOf exported lowered := by
  constructor
  · intro h
    obtain ⟨entries, lowered, hentries, hlen, hlowers, hu⟩ := exists_lowersTo h
    refine ⟨entries, lowered, hlen, ?_, hlowers, hu⟩
    unfold lowerGlobals at h
    split at h
    · cases h
    rename_i g s hadd
    split at h
    · cases h
    rename_i hfinish
    obtain ⟨entries', -, hmany, -⟩ := LoweredGlobals.exists_lowersTo hadd
    rw [globalEntries, hmany] at hentries
    cases hentries
    have hcount : (GlobalReader.ofVector v).index + v.count.toNat ≤
        (GlobalReader.ofVector v).count.toNat := Nat.le_of_eq (Nat.zero_add _)
    obtain ⟨-, bs, cursor, hbs, hglobals, rfl⟩ := (GlobalReader.readMany_eq_ok_iff hcount).1 hmany
    have hall : v.bytes = bs ++ cursor.rest := hbs.rest
    rw [(GlobalReader.finish_eq_ok_iff.1 hfinish).2, List.append_nil] at hall
    have hstart : (GlobalReader.ofVector v).cursor.position = v.offset := Int.add_zero _
    rw [hstart, ← hall] at hglobals
    exact hglobals
  · rintro ⟨entries, lowered, hlen, hglobals, hlowers, rfl⟩
    have hmany := readMany_front (List.append_nil _).symm (Nat.le_of_eq hlen) hglobals
    have hfinish : (v.readerBehind entries.length v.bytes []).finish = .ok () :=
      GlobalReader.finish_eq_ok_iff.2 ⟨Nat.le_of_eq hlen.symm, rfl⟩
    rw [hlen] at hmany hfinish
    exact lowerGlobals_of_lowersTo hmany hfinish hlowers exported

/-- A section is lowered to the same unit wherever it stands. -/
theorem lowerGlobals_offset {v : EntryVector} {exported : Bool} {u : ProgramUnit}
    (h : v.lowerGlobals exported = .ok u) (offset : Int) :
    ({ v with offset } : EntryVector).lowerGlobals exported = .ok u := by
  -- two sections are compared with each other through the one that starts at zero
  have hzero (w : EntryVector) : ({ w with offset := 0 } : EntryVector).lowerGlobals exported =
      .ok u ↔ w.lowerGlobals exported = .ok u := by
    have hmoved : EntryVector.MovedBy w.offset { w with offset := 0 } w :=
      ⟨rfl, rfl, Int.le_refl 0, (Int.zero_add _).symm⟩
    have hmoves := lowerGlobals_moves hmoved exported
    generalize ({ w with offset := 0 } : EntryVector).lowerGlobals exported = x at hmoves
    generalize w.lowerGlobals exported = x' at hmoves
    cases hmoves with
    | error he => simp
    | ok hu => rw [hu]
  exact (hzero { v with offset }).1 ((hzero v).2 h)

end EntryVector

/-! ## Sections that are not lowered -/

theorem GlobalReader.exists_cause_of_read {g g' : GlobalReader} {e : Error}
    (h : g.read = (.error e, g')) (hmore : g.index < g.count.toNat) :
    ∃ cause, e = .invalidEntry "global" g.index (some cause) := by
  unfold read at h
  rw [hasMore, decide_eq_true hmore, if_pos rfl] at h
  split at h
  · cases h
  · cases h
    exact ⟨_, rfl⟩

namespace LoweredGlobals

theorem exists_cause_of_add {s : LoweredGlobals} {index : Nat} {entry : GlobalEntry} {e : Error}
    (h : s.add index entry = .error e) :
    ∃ cause, e = .invalidEntry "global" index (some cause) := by
  unfold add at h
  dsimp only at h
  split at h
  · cases h
    exact ⟨_, rfl⟩
  · cases h

/-- Entries that cannot be read and lowered fail with the error of one of them. -/
theorem exists_entry_of_error {n : Nat} {g : GlobalReader} {s : LoweredGlobals} {e : Error}
    (hn : g.index + n ≤ g.count.toNat) (h : addEntries n g s = .error e) :
    ∃ i cause, g.index ≤ i ∧ i < g.index + n ∧ e = .invalidEntry "global" i (some cause) := by
  induction n generalizing g s with
  | zero => cases h
  | succ n ih =>
    unfold addEntries at h
    split at h
    · rename_i hread
      cases h
      obtain ⟨cause, rfl⟩ := GlobalReader.exists_cause_of_read hread (by omega)
      exact ⟨g.index, cause, Nat.le_refl _, by omega, rfl⟩
    rename_i entry g' hread
    split at h
    · rename_i hadd
      cases h
      obtain ⟨cause, rfl⟩ := exists_cause_of_add hadd
      exact ⟨g.index, cause, Nat.le_refl _, by omega, rfl⟩
    · obtain ⟨hindex, hcount⟩ := GlobalReader.counts_of_read hread
      obtain ⟨i, cause, hlow, hhigh, he⟩ := ih (by rw [hindex, hcount]; omega) h
      exact ⟨i, cause, by omega, by omega, he⟩

/-- Behind entries that were read and lowered, reading and lowering goes on. -/
theorem addEntries_add {n : Nat} {g g' : GlobalReader} {s s' : LoweredGlobals}
    (h : addEntries n g s = .ok (g', s')) (k : Nat) :
    addEntries (n + k) g s = addEntries k g' s' := by
  induction n generalizing g s with
  | zero =>
    cases h
    rw [Nat.zero_add]
  | succ n ih =>
    unfold addEntries at h
    split at h
    · cases h
    rename_i entry g₁ hread
    split at h
    · cases h
    rename_i s₁ hadd
    rw [Nat.add_right_comm, addEntries, hread]
    simp only [hadd]
    exact ih h

end LoweredGlobals

/-- The failure is that `left` bytes follow the last entry of a section that ends at `stop`. -/
def Error.IsTrailing (stop : Int) (left : Nat) (e : Error) : Prop :=
  e = .decode (stop - left) ("global section has " ++ toString left ++ " trailing bytes")

/-- The path of the failure names the entry with an index. -/
def Error.NamesEntry (index : Nat) (e : Error) : Prop :=
  ∃ f, e.outer = .fault f ∧ f.path = [text "global", decimal index]

/-- A reader with no entries left fails only because of the bytes that are left. -/
theorem GlobalReader.isTrailing_of_finish {g : GlobalReader} {e : Error}
    (h : g.finish = .error e) (hmore : g.count.toNat ≤ g.index) :
    0 < g.cursor.rest.length ∧
      e.IsTrailing (g.cursor.position + g.cursor.rest.length) g.cursor.rest.length := by
  have hmore' : g.hasMore = false := by simpa [hasMore] using hmore
  rw [finish, hmore'] at h
  simp only [Bool.false_eq_true, if_false] at h
  split at h
  · rename_i hleft
    cases h
    refine ⟨Nat.pos_of_ne_zero hleft, ?_⟩
    rw [Error.IsTrailing, Int.add_sub_cancel]
  · cases h

/-- **A section is not refused because of entries at its front that are lowered.** Either a later
entry is named, or bytes are left behind the last one. -/
theorem EntryVector.error_of_front {v : EntryVector} {front back : Bytes}
    {entries : List GlobalEntry} {lowered : List (Declaration × Block)} {k : Nat} {exported : Bool}
    {e : Error} (hbytes : v.bytes = front ++ back) (hcount : v.count.toNat = entries.length + k)
    (hglobals : AreGlobals v.offset front entries) (hlowers : LowersTo 0 [] entries lowered)
    (h : v.lowerGlobals exported = .error e) :
    (∃ left > 0, left ≤ back.length ∧ e.IsTrailing (v.offset + v.bytes.length) left) ∨
      ∃ i, entries.length ≤ i ∧ i < v.count.toNat ∧ e.NamesEntry i := by
  have hmany := readMany_front hbytes (by omega) hglobals
  obtain ⟨s, hadd⟩ := LoweredGlobals.exists_addEntries (s := {}) hmany hlowers
  have hrest : (v.readerBehind entries.length front back).index + k ≤
      (v.readerBehind entries.length front back).count.toNat := Nat.le_of_eq hcount.symm
  unfold lowerGlobals at h
  rw [hcount, LoweredGlobals.addEntries_add hadd] at h
  split at h
  · rename_i herror
    cases h
    obtain ⟨i, cause, hlow, hhigh, rfl⟩ := LoweredGlobals.exists_entry_of_error hrest herror
    exact .inr ⟨i, hlow, hcount ▸ hhigh, _, rfl, rfl⟩
  rename_i g s' hok
  obtain ⟨entries', -, hmany', -⟩ := LoweredGlobals.exists_lowersTo hok
  obtain ⟨-, bs, cursor, hbs, -, rfl⟩ := (GlobalReader.readMany_eq_ok_iff hrest).1 hmany'
  split at h
  · rename_i hfinish
    cases h
    obtain ⟨hleft, htrailing⟩ := GlobalReader.isTrailing_of_finish hfinish (Nat.le_of_eq hcount)
    have hback : back.length = bs.length + cursor.rest.length := by
      rw [← List.length_append, ← hbs.rest]
      rfl
    -- the cursor stands in front of the bytes that are left, which reach to the end of the section
    have hstop : cursor.position + cursor.rest.length = v.offset + v.bytes.length := by
      rw [hbs.position_eq, hbytes, List.length_append, hback]
      simp only [readerBehind, Cursor.position]
      omega
    rw [hstop] at htrailing
    exact .inl ⟨cursor.rest.length, hleft, by omega, htrailing⟩
  · cases h

/-! ## Sections that grow -/

/-- The unit has `n` declarations and blocks, and the other one has them at its front, in the same
order and under the same labels, and `k` more of each behind them. -/
def ProgramUnit.GrowsBy (n k : Nat) (u u' : ProgramUnit) : Prop :=
  ∃ (data more : List Declaration) (blocks moreBlocks : List (Bytes × Block)) (exported : Bool),
    data.length = n ∧ blocks.length = n ∧ more.length = k ∧ moreBlocks.length = k ∧
    u = { kind := .global
          program :=
            { data := some data, code := some { map := some { entries := blocks }, exported } } } ∧
    u' = { kind := .global
           program :=
             { data := some (data ++ more)
               code := some { map := some { entries := blocks ++ moreBlocks }, exported } } }

theorem unitOf_growsBy (exported : Bool) (lowered more : List (Declaration × Block)) :
    (unitOf exported lowered).GrowsBy lowered.length more.length
      (unitOf exported (lowered ++ more)) := by
  refine ⟨lowered.map Prod.fst, more.map Prod.fst, lowered.map initEntry, more.map initEntry,
    exported, ?_⟩
  simp [unitOf]

namespace EntryVector

/-- The section made of the first `n` entries of a section, at the same place. -/
def first (v : EntryVector) (n : UInt32) : Except Error EntryVector := do
  let (_, g) ← GlobalReader.readMany n.toNat (.ofVector v)
  return { v with count := n, bytes := v.bytes.take g.cursor.consumed }

theorem first_eq {v : EntryVector} {n : UInt32} {front back : Bytes} {entries : List GlobalEntry}
    (hbytes : v.bytes = front ++ back) (hlen : entries.length = n.toNat) (hn : n ≤ v.count)
    (h : AreGlobals v.offset front entries) :
    v.first n = .ok { v with count := n, bytes := front } := by
  have hmany := readMany_front hbytes (hlen ▸ UInt32.le_iff_toNat_le.1 hn) h
  have htake : v.bytes.take front.length = front := by rw [hbytes, List.take_left]
  rw [hlen] at hmany
  simp only [first, hmany, bind, Except.bind, pure, Except.pure]
  rw [readerBehind, htake]

/-- The bytes at the front of a section determine the entries there. -/
theorem entries_unique {v : EntryVector} {front front' back back' : Bytes}
    {entries entries' : List GlobalEntry} (hbytes : v.bytes = front ++ back)
    (hbytes' : v.bytes = front' ++ back') (hlen : entries.length = entries'.length)
    (hcount : entries.length ≤ v.count.toNat) (h : AreGlobals v.offset front entries)
    (h' : AreGlobals v.offset front' entries') : entries = entries' := by
  have hmany := readMany_front hbytes hcount h
  have hmany' := readMany_front hbytes' (hlen ▸ hcount) h'
  rw [← hlen, hmany] at hmany'
  exact (Prod.mk.inj (Except.ok.inj hmany')).1

/-- What a section is lowered to is at the front of what any longer section is lowered to. -/
theorem growsBy_of_lowerGlobals {v w : EntryVector} {k : Nat} {back : Bytes} {exported : Bool}
    {u u' : ProgramUnit} (hcount : v.count.toNat = w.count.toNat + k)
    (hbytes : v.bytes = w.bytes ++ back) (hoffset : w.offset = v.offset)
    (h : w.lowerGlobals exported = .ok u) (h' : v.lowerGlobals exported = .ok u') :
    u.GrowsBy w.count.toNat k u' := by
  obtain ⟨entries, lowered, hlen, hglobals, hlowers, rfl⟩ := lowerGlobals_eq_ok_iff.1 h
  obtain ⟨all, loweredAll, hlenAll, hglobalsAll, hlowersAll, rfl⟩ := lowerGlobals_eq_ok_iff.1 h'
  -- the entries of `w` are the first ones of `v`, since both are read from the same bytes
  rw [← List.take_append_drop w.count.toNat all] at hglobalsAll hlowersAll
  obtain ⟨front, rest, hfront, hfirst⟩ := hglobalsAll.split
  have hlenFirst : (all.take w.count.toNat).length = w.count.toNat := by
    rw [List.length_take]
    omega
  have hentries : entries = all.take w.count.toNat := entries_unique hbytes hfront
    (hlen.trans hlenFirst.symm) (by omega) (hoffset ▸ hglobals) hfirst
  obtain ⟨lowered', more, rfl, hlowers'⟩ := hlowersAll.split
  rw [← hentries] at hlowers'
  obtain rfl := hlowers.unique hlowers'
  have hn : lowered.length = w.count.toNat := hlowers.length_eq.trans hlen
  have hk : more.length = k := by
    have hall := hlowersAll.length_eq
    rw [List.take_append_drop, hlenAll, List.length_append, hn, hcount] at hall
    omega
  have hgrows := unitOf_growsBy exported lowered more
  rwa [hn, hk] at hgrows

/-- **If a section is lowered, then its first entries alone are lowered too.** -/
theorem lowerGlobals_first {v : EntryVector} {n : UInt32} {exported : Bool} {u : ProgramUnit}
    (hn : n ≤ v.count) (h : v.lowerGlobals exported = .ok u) :
    ∃ w back, v.first n = .ok w ∧ w.count = n ∧ w.offset = v.offset ∧ v.bytes = w.bytes ++ back ∧
      ∃ u, w.lowerGlobals exported = .ok u := by
  obtain ⟨all, lowered, hlen, hglobals, hlowers, rfl⟩ := lowerGlobals_eq_ok_iff.1 h
  rw [← List.take_append_drop n.toNat all] at hglobals hlowers
  obtain ⟨front, back, hbytes, hfirst⟩ := hglobals.split
  obtain ⟨lowered', -, -, hlowers'⟩ := hlowers.split
  have hlenFirst : (all.take n.toNat).length = n.toNat := by
    rw [List.length_take, hlen]
    exact Nat.min_eq_left (UInt32.le_iff_toNat_le.1 hn)
  refine ⟨_, back, first_eq hbytes hlenFirst hn hfirst, rfl, rfl, hbytes, unitOf exported lowered',
    lowerGlobals_eq_ok_iff.2 ⟨_, lowered', hlenFirst, hfirst, hlowers', rfl⟩⟩

end EntryVector

/-- **Globals added to a section change nothing for those in front of them.** If the shorter section
is lowered, then what the longer one is lowered to begins with the same declarations and blocks, and
if it is refused, then because of bytes behind its last entry or because of an entry that was added.
Conversely, if a section is lowered, then so are its first entries alone, wherever they stand. -/
theorem Record.lower_grows (n k : UInt32) (hsize : n.toNat + k.toNat < UInt32.size)
    (exported : Bool) :
    (∀ (front back : Bytes) (offset offset' : Int) (frame frame' : Frame) (u : ProgramUnit),
      (Record.vector frame .globals ⟨n, front, offset⟩).lower exported = .ok u →
      (∃ u', (Record.vector frame' .globals ⟨n + k, front ++ back, offset'⟩).lower exported =
          .ok u' ∧ u.GrowsBy n.toNat k.toNat u') ∨
      ∃ e, (Record.vector frame' .globals ⟨n + k, front ++ back, offset'⟩).lower exported =
          .error e ∧
        ((∃ left > 0, left ≤ back.length ∧
            e.IsTrailing (offset' + (front ++ back).length) left) ∨
          ∃ i, n.toNat ≤ i ∧ i < n.toNat + k.toNat ∧ e.NamesEntry i)) ∧
    ∀ (v : EntryVector) (frame : Frame) (u' : ProgramUnit), v.count = n + k →
      (Record.vector frame .globals v).lower exported = .ok u' →
      ∃ w u, v.first n = .ok w ∧ u.GrowsBy n.toNat k.toNat u' ∧
        ∀ (offset : Int) (frame' : Frame),
          (Record.vector frame' .globals { w with offset }).lower exported = .ok u := by
  have hcount : (n + k).toNat = n.toNat + k.toNat := by
    rw [UInt32.toNat_add]
    exact Nat.mod_eq_of_lt hsize
  constructor
  · intro front back offset offset' frame frame' u h
    have hshort : EntryVector.lowerGlobals ⟨n, front, offset'⟩ exported = .ok u :=
      EntryVector.lowerGlobals_offset h offset'
    cases hlong : EntryVector.lowerGlobals ⟨n + k, front ++ back, offset'⟩ exported with
    | ok u' =>
      refine .inl ⟨u', hlong, ?_⟩
      exact EntryVector.growsBy_of_lowerGlobals (v := ⟨n + k, front ++ back, offset'⟩)
        (w := ⟨n, front, offset'⟩) hcount rfl rfl hshort hlong
    | error e =>
      obtain ⟨entries, lowered, hlen, hglobals, hlowers, -⟩ :=
        EntryVector.lowerGlobals_eq_ok_iff.1 hshort
      have herror := EntryVector.error_of_front (v := ⟨n + k, front ++ back, offset'⟩)
        rfl (hlen ▸ hcount) hglobals hlowers hlong
      rw [hlen, hcount] at herror
      exact .inr ⟨e, hlong, herror⟩
  · intro v frame u' hv h
    have hn : n ≤ v.count := by
      rw [hv, UInt32.le_iff_toNat_le, hcount]
      exact Nat.le_add_right _ _
    obtain ⟨w, back, hfirst, rfl, hoffset, hbytes, u, hu⟩ := EntryVector.lowerGlobals_first hn h
    refine ⟨w, u, hfirst, ?_, fun offset frame' => EntryVector.lowerGlobals_offset hu offset⟩
    exact EntryVector.growsBy_of_lowerGlobals (by rw [hv, hcount]) hbytes hoffset hu h

/-- A constant, and behind it a global that copies it: the section grows by the copy, and without
the copy it is what it was. -/
theorem Record.lower_grows_copy :
    let constant : Bytes := [0x7F, 0, 0x41, 7, 0x0B]
    let copy : Bytes := [0x7F, 0, 0x23, 0, 0x0B]
    let shorter : EntryVector := { count := 1, bytes := constant, offset := 11 }
    let longer : EntryVector := { count := 2, bytes := constant ++ copy, offset := 40 }
    ∃ u u', (Record.vector ⟨8, 10, 16⟩ .globals shorter).lower false = .ok u ∧
      (Record.vector ⟨37, 39, 50⟩ .globals longer).lower false = .ok u' ∧ u.GrowsBy 1 1 u' ∧
      ∃ w, longer.first 1 = .ok w ∧ ({ w with offset := 11 } : EntryVector) = shorter ∧
        (Record.vector ⟨8, 10, 16⟩ .globals { w with offset := 11 }).lower false = .ok u := by
  intro constant copy shorter longer
  let first : Declaration × Block :=
    ({ name := globalName 0, type := .int32, init := some (.int32 7) }, [])
  let second : Declaration × Block :=
    ({ name := globalName 1, type := .int32 }, [.push (globalName 0), .push (globalName 1), .copy])
  have hshort : (Record.vector ⟨8, 10, 16⟩ .globals shorter).lower false =
      .ok (unitOf false [first]) := by decide +kernel
  have hlong : (Record.vector ⟨37, 39, 50⟩ .globals longer).lower false =
      .ok (unitOf false [first, second]) := by decide +kernel
  obtain ⟨hgrows, hfirst⟩ := Record.lower_grows 1 1 (by decide) false
  obtain ⟨w, u, hw, hu, hplaces⟩ := hfirst longer ⟨37, 39, 50⟩ _ rfl hlong
  have hcut : longer.first 1 = .ok { shorter with offset := 40 } := by decide +kernel
  cases hcut.symm.trans hw
  cases hshort.symm.trans (hplaces 11 ⟨8, 10, 16⟩)
  rcases hgrows constant copy 11 40 ⟨8, 10, 16⟩ ⟨37, 39, 50⟩ _ hshort with
    ⟨u', hu', hsame⟩ | ⟨e, he, -⟩
  · exact ⟨_, u', hshort, hu', hsame, _, hw, rfl, hshort⟩
  · cases hlong.symm.trans he

end WasmUdon
