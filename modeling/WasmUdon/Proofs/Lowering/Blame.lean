import WasmUdon.Proofs.Global.Rereading
import WasmUdon.Proofs.Lowering.Growth
import WasmUdon.Proofs.Lowering.Outcome
import WasmUdon.Proofs.Lowering.Program
import WasmUdon.Proofs.Module.Places

/-!
# What a failing run blames

The fault of an entry copies its place from its cause, which may come from reading the entry, from
an operator of its initializer, which is read a second time from bytes of its own, or from a type,
which has no place. `Fault.LiesIn` follows a place through these copies: it says that a fault lies
between two offsets or has no place, which malformed data always has.

Entries are read and lowered one after the other, so the one that is named is the first one that
fails (`LoweredGlobals.exists_first_of_error`), and its place lies between its own start and the end
of the section (`EntryVector.Blames`). If no entry fails, only bytes left behind the last one can
(`EntryVector.BlamesRest`). `Options.places_of_assemble` puts this together with where reading
fails, for whole runs.
-/

namespace WasmUdon

/-! ## Faults that may have no place -/

/-- A place from `low` to `high`, or none; malformed data always has a place. -/
def Fault.LiesIn (f : Fault) (low high : Int) : Prop :=
  (low ≤ f.offset ∧ f.offset ≤ high) ∨ (f.offset = noOffset ∧ f.kind ≠ .invalidData)

theorem Fault.LiesIn.mono {f : Fault} {low high : Int} (h : f.LiesIn low high) {low' high' : Int}
    (hlow : low' ≤ low) (hhigh : high ≤ high') : f.LiesIn low' high' :=
  h.imp_left fun hin => ⟨Int.le_trans hlow hin.1, Int.le_trans hin.2 hhigh⟩

namespace Error

/-- The outermost fault lies between `low` and `high`, if it has a place. -/
def LiesIn (e : Error) (low high : Int) : Prop := ∃ f, e.fault? = some f ∧ f.LiesIn low high

variable {e : Error} {low high : Int}

theorem FoundIn.liesIn (h : e.FoundIn low high) (hkind : e.OfKind .invalidData) :
    e.LiesIn low high := by
  obtain ⟨f, hf⟩ := hkind.outer
  have hfound := h f (hf ▸ List.mem_cons_self)
  refine ⟨f, ?_, .inl ⟨hfound.low_le, hfound.le_high⟩⟩
  rw [fault?, layers, hf]
  rfl

theorem LiesIn.mono (h : e.LiesIn low high) {low' high' : Int} (hlow : low' ≤ low)
    (hhigh : high ≤ high') : e.LiesIn low' high' := by
  obtain ⟨f, hf, hplace⟩ := h
  exact ⟨f, hf, hplace.mono hlow hhigh⟩

/-- Malformed data has a place. -/
theorem OfKind.place_of_isDecode {kind : FaultKind} (hkind : e.OfKind kind)
    (hdecode : e.isDecode = true) {f : Fault} (hf : e.outer = .fault f)
    (h : f.LiesIn low high) : low ≤ f.offset ∧ f.offset ≤ high := by
  rw [hkind.isDecode_eq, decide_eq_true_eq] at hdecode
  refine h.resolve_right fun hnone => hnone.2 ?_
  rw [← hdecode]
  exact hkind.kinds f (hf ▸ List.mem_cons_self)

theorem liesIn_ofFault {f : Fault} {cause : Option Error} :
    (ofFault f cause).LiesIn f.offset f.offset :=
  ⟨f, rfl, .inl ⟨Int.le_refl _, Int.le_refl _⟩⟩

/-- The fault of an entry stands where the fault of its cause stands. -/
theorem LiesIn.invalidEntry (h : e.LiesIn low high) (section_ : String) (index : Int) :
    ∃ f, (invalidEntry section_ index (some e)).outer = .fault f ∧
      f.path = [text section_, text (toString index)] ∧ f.LiesIn low high := by
  obtain ⟨f, hf, hplace⟩ := h
  simp only [Error.invalidEntry, Option.bind_some, hf, Option.map_some, Option.getD_some]
  exact ⟨_, rfl, rfl, hplace⟩

end Error

/-! ## Initializers -/

theorem AreOperators.offset_mem {start : Int} {bs : Bytes} {ops : List Operator}
    (h : AreOperators start bs ops) {op : Operator} (hop : op ∈ ops) :
    start ≤ op.offset ∧ op.offset ≤ start + bs.length := by
  induction h with
  | nil start => cases hop
  | cons _ hoffset _ ih =>
    rw [List.length_append]
    rcases List.mem_cons.1 hop with rfl | hop
    · omega
    · have := ih hop
      omega

namespace InitState

variable {env : GlobalEnv} {index : Nat} {op : Operator} {s : InitState} {pushed : StackValue}
  {e : Error}

theorem liesIn_of_pushedBy (h : pushedBy env index op = .error e) :
    e.LiesIn op.offset op.offset := by
  unfold pushedBy at h
  split at h
  · cases htarget : env.reference index op with
    | ok type =>
      rw [htarget] at h
      cases h
    | error e' =>
      rw [htarget] at h
      cases h
      unfold GlobalEnv.reference at htarget
      split at htarget
      · dsimp only at htarget
        split at htarget <;> cases htarget
        all_goals exact Error.liesIn_ofFault
      · cases htarget
        exact Error.liesIn_ofFault
  · cases h

theorem liesIn_of_instruction {i : Instruction} (h : s.instruction op pushed i = .error e) :
    e.LiesIn op.offset op.offset := by
  unfold instruction at h
  split at h
  case h_4 | h_5 =>
    split at h <;> cases h
    all_goals exact Error.liesIn_ofFault
  all_goals cases h

theorem liesIn_of_instructions {is : List Instruction}
    (h : s.instructions op pushed is = .error e) : e.LiesIn op.offset op.offset := by
  induction is generalizing s with
  | nil => cases h
  | cons i is ih =>
    unfold instructions at h
    split at h
    · rename_i hi
      cases h
      exact liesIn_of_instruction hi
    · exact ih h

/-- Whatever goes wrong with an operator is blamed on the operator. -/
theorem liesIn_of_operator (h : s.operator env index op = .error e) :
    e.LiesIn op.offset op.offset := by
  unfold operator at h
  split at h
  · rename_i hpushed
    cases h
    exact liesIn_of_pushedBy hpushed
  split at h
  · rename_i hlower
    cases h
    have hcases := op.lowersInModule
    rw [hlower] at hcases
    cases hcases
    all_goals exact Error.liesIn_ofFault
  · exact liesIn_of_instructions h

theorem liesIn_of_operators {ops : List Operator} (h : operators env index s ops = .error e) :
    ∃ op ∈ ops, e.LiesIn op.offset op.offset := by
  induction ops generalizing s with
  | nil => cases h
  | cons op ops ih =>
    unfold operators at h
    split at h
    · rename_i hop
      cases h
      exact ⟨op, List.mem_cons_self, liesIn_of_operator hop⟩
    · obtain ⟨op', hop', hplace⟩ := ih h
      exact ⟨op', List.mem_cons_of_mem _ hop', hplace⟩

end InitState

/-- An initializer is blamed on its own bytes. -/
theorem ConstExpr.liesIn_of_lower {expr : ConstExpr} {ops : List Operator}
    (hexpr : AreOperators expr.offset expr.bytes ops) {env : GlobalEnv} {index : Nat} {name : Bytes}
    {type : AsmType} {e : Error} (h : expr.lower env index name type = .error e) :
    e.LiesIn expr.offset (expr.offset + expr.bytes.length) := by
  have hstop : expr.offset ≤ expr.offset + expr.bytes.length :=
    Int.le_add_of_nonneg_right (Int.natCast_nonneg _)
  rcases error_of_lower (Operator.readAll_of_areOperators hexpr) h with
    hops | ⟨s, -, ⟨found, rfl⟩ | ⟨-, rfl⟩⟩
  · obtain ⟨op, hop, hplace⟩ := InitState.liesIn_of_operators hops
    obtain ⟨hlow, hhigh⟩ := hexpr.offset_mem hop
    exact hplace.mono hlow hhigh
  · exact Error.liesIn_ofFault.mono (Int.le_refl _) hstop
  · exact Error.liesIn_ofFault.mono (Int.le_refl _) hstop

/-! ## Entries -/

theorem ValueType.liesIn_of_lower {type : ValueType} {e : Error} (h : type.lower = .error e)
    (low high : Int) : e.LiesIn low high := by
  cases type <;> cases h
  all_goals exact ⟨_, rfl, .inr ⟨rfl, nofun⟩⟩

/-- The initializer of an entry is made of operators, and lies between the start of the entry and
the end of the bytes. -/
theorem GlobalReader.init_of_read {g g' : GlobalReader} {entry : GlobalEntry}
    (h : g.read = (.ok entry, g')) :
    (∃ ops, AreOperators entry.init.offset entry.init.bytes ops) ∧
      g.cursor.position ≤ entry.init.offset ∧
      entry.init.offset + entry.init.bytes.length ≤ g.cursor.stop := by
  obtain ⟨c, htype, hinit⟩ := exists_readConstExpr_of_read h
  obtain ⟨hbs, hconst, hoffset⟩ := readConstExpr_eq_ok_iff.1 hinit
  obtain ⟨ops, hscan⟩ := scanConstExpr_eq_ok_iff.2 ⟨_, hbs, hconst⟩
  obtain ⟨-, bs, hbs', hops⟩ := scanConstExpr_eq_ok_iff_areOperators.1 hscan
  cases hbs'.bytes_unique hbs
  have hforward : readGlobalType.FailsFrom 0 := readGlobalType_failsFrom
  have hfront : g.cursor.Reaches c := hforward.forward.of_ok htype
  rw [hoffset]
  refine ⟨⟨ops, hops⟩, hfront.position_le, ?_⟩
  rw [← hbs.position_eq, ← hfront.stop_eq, ← hbs.reaches.stop_eq]
  exact Cursor.position_le_stop _

namespace LoweredGlobals

variable {g g' : GlobalReader} {s s' : LoweredGlobals} {e : Error}

/-- An entry that was read is blamed on its own bytes, or, without a place, on its type. -/
theorem liesIn_of_add {entry : GlobalEntry} (hread : g.read = (.ok entry, g')) {index : Nat}
    (h : s.add index entry = .error e) :
    ∃ cause, e = .invalidEntry "global" index (some cause) ∧
      cause.LiesIn g.cursor.position g.cursor.stop := by
  unfold add at h
  dsimp only at h
  split at h
  · rename_i cause hcause
    cases h
    refine ⟨cause, rfl, ?_⟩
    rcases except_bind_eq_error_iff.1 hcause with htype | ⟨type, -, hcause⟩
    · exact ValueType.liesIn_of_lower htype _ _
    rcases except_bind_eq_error_iff.1 hcause with hinit | ⟨result, -, hcause⟩
    · obtain ⟨⟨ops, hops⟩, hlow, hhigh⟩ := GlobalReader.init_of_read hread
      exact (ConstExpr.liesIn_of_lower hops hinit).mono hlow hhigh
    · cases hcause
  · cases h

/-- An entry that cannot be read is blamed on the bytes from its start on. -/
theorem liesIn_of_read (h : g.read = (.error e, g')) (hmore : g.index < g.count.toNat) :
    ∃ cause, e = .invalidEntry "global" g.index (some cause) ∧
      cause.LiesIn g.cursor.position g.cursor.stop := by
  rw [GlobalReader.read, GlobalReader.hasMore, decide_eq_true hmore, if_pos rfl] at h
  split at h
  · cases h
  rename_i e' c hentry
  cases h
  refine ⟨_, rfl, ?_⟩
  obtain ⟨hreach, hfound⟩ := readGlobalEntry_failsFrom.of_error hentry
  rcases readGlobalEntry_failsWith hentry with hbare | hkind
  · rw [hbare.kind?_eq_none]
    refine (Error.foundIn_decode_some hbare hreach.position_le ?_).liesIn
      (Error.ofKind_decode_some hbare)
    rw [← hreach.stop_eq]
    exact c.position_le_stop
  · rw [hkind.kind?_eq]
    exact hfound.liesIn hkind

/-- Entries that cannot all be read and lowered fail at one of them, with those in front of it read
and lowered. -/
theorem exists_first_of_error {n : Nat} (h : addEntries n g s = .error e) :
    ∃ k < n, ∃ g' s', addEntries k g s = .ok (g', s') ∧ addEntries 1 g' s' = .error e := by
  induction n generalizing g s with
  | zero => cases h
  | succ n ih =>
    unfold addEntries at h
    split at h
    · rename_i hread
      cases h
      exact ⟨0, Nat.succ_pos n, g, s, rfl, by simp only [addEntries, hread]⟩
    rename_i entry g₁ hread
    split at h
    · rename_i hadd
      cases h
      exact ⟨0, Nat.succ_pos n, g, s, rfl, by simp only [addEntries, hread, hadd]⟩
    · rename_i s₁ hadd
      obtain ⟨k, hk, g', s', hfront, hone⟩ := ih h
      refine ⟨k + 1, Nat.succ_lt_succ hk, g', s', ?_, hone⟩
      simp only [addEntries, hread, hadd]
      exact hfront

/-- The reader behind entries that were read and lowered. -/
theorem reader_of_addEntries {n : Nat} (hn : g.index + n ≤ g.count.toNat)
    (h : addEntries n g s = .ok (g', s')) :
    g'.index = g.index + n ∧ g'.count = g.count ∧ g.cursor.Reaches g'.cursor := by
  obtain ⟨entries, -, hmany, -⟩ := exists_lowersTo h
  obtain ⟨-, bs, cursor, hbs, -, rfl⟩ := (GlobalReader.readMany_eq_ok_iff hn).1 hmany
  exact ⟨rfl, rfl, hbs.reaches⟩

/-- A single entry that fails is named, and blamed on the bytes from its start on. -/
theorem liesIn_of_addEntries_one (hmore : g.index < g.count.toNat)
    (h : addEntries 1 g s = .error e) :
    ∃ f, e.outer = .fault f ∧ f.path = [text "global", decimal g.index] ∧
      f.LiesIn g.cursor.position g.cursor.stop := by
  have hcause : ∃ cause, e = .invalidEntry "global" g.index (some cause) ∧
      cause.LiesIn g.cursor.position g.cursor.stop := by
    simp only [addEntries] at h
    split at h
    · rename_i hread
      cases h
      exact liesIn_of_read hread hmore
    · rename_i hread
      split at h
      · rename_i hadd
        cases h
        exact liesIn_of_add hread hadd
      · cases h
  obtain ⟨cause, rfl, hplace⟩ := hcause
  exact hplace.invalidEntry "global" g.index

end LoweredGlobals

/-! ## Sections -/

namespace EntryVector

/-- The absolute offset behind the last entry. -/
def stop (v : EntryVector) : Int := v.offset + v.bytes.length

/-- The entry with an index is to blame for an error: those in front of it are read and lowered,
with it there is the error, and the error names it and lies, if it has a place, between the start of
the entry and the end of the section. -/
structure Blames (v : EntryVector) (i : Nat) (e : Error) : Prop where
  lt : i < v.count.toNat
  place : ∃ g s f, LoweredGlobals.addEntries i (.ofVector v) {} = .ok (g, s) ∧
    LoweredGlobals.addEntries (i + 1) (.ofVector v) {} = .error e ∧ e.outer = .fault f ∧
      f.path = [text "global", decimal i] ∧ f.LiesIn g.cursor.position v.stop

/-- All entries are read and lowered, and bytes left behind them are to blame for an error. -/
def BlamesRest (v : EntryVector) (e : Error) : Prop :=
  ∃ g s, LoweredGlobals.addEntries v.count.toNat (.ofVector v) {} = .ok (g, s) ∧
    0 < g.cursor.rest.length ∧ e.IsTrailing v.stop g.cursor.rest.length

theorem entryPath_inj {i j : Nat} (h : [text "global", decimal i] = [text "global", decimal j]) :
    i = j :=
  decimal_inj (List.cons.inj (List.cons.inj h).2).1

variable {v : EntryVector} {i : Nat} {g : GlobalReader} {s : LoweredGlobals} {e : Error}

/-- The reader of a section behind entries that were read and lowered. -/
theorem reader_of_addEntries (hi : i ≤ v.count.toNat)
    (h : LoweredGlobals.addEntries i (.ofVector v) {} = .ok (g, s)) :
    g.index = i ∧ g.count = v.count ∧ v.offset ≤ g.cursor.position ∧ g.cursor.stop = v.stop := by
  have hcount : (GlobalReader.ofVector v).index + i ≤ (GlobalReader.ofVector v).count.toNat :=
    Nat.le_trans (Nat.le_of_eq (Nat.zero_add i)) hi
  obtain ⟨hindex, hcount', hreach⟩ := LoweredGlobals.reader_of_addEntries hcount h
  have hstart : (GlobalReader.ofVector v).cursor.position = v.offset := Int.add_zero _
  have hstop : (GlobalReader.ofVector v).cursor.stop = v.stop := by rw [Cursor.stop, hstart]; rfl
  exact ⟨hindex.trans (Nat.zero_add i), hcount', hstart ▸ hreach.position_le,
    hreach.stop_eq.trans hstop⟩

/-- The place of an entry that is blamed lies in the section. -/
theorem Blames.liesIn (h : v.Blames i e) : ∃ f, e.outer = .fault f ∧ f.LiesIn v.offset v.stop := by
  obtain ⟨g, s, f, hfront, -, hf, -, hplace⟩ := h.place
  obtain ⟨-, -, hstart, -⟩ := reader_of_addEntries (Nat.le_of_lt h.lt) hfront
  exact ⟨f, hf, hplace.mono hstart (Int.le_refl _)⟩

/-- The bytes that are left lie in the section, and no entry is named. -/
theorem BlamesRest.liesIn (h : v.BlamesRest e) :
    ∃ f, e.outer = .fault f ∧ f.path = [] ∧ f.LiesIn v.offset v.stop := by
  obtain ⟨g, s, hadd, -, rfl⟩ := h
  obtain ⟨-, -, hstart, hstop⟩ := reader_of_addEntries (Nat.le_refl _) hadd
  refine ⟨_, rfl, rfl, .inl ?_⟩
  rw [Cursor.stop] at hstop
  dsimp only
  omega

/-- **A global section that is not lowered fails at its first bad entry**, or, if there is none, at
the bytes left behind the last entry. -/
theorem blames_of_lowerGlobals {exported : Bool} (h : v.lowerGlobals exported = .error e) :
    (∃ i, v.Blames i e) ∨ v.BlamesRest e := by
  unfold lowerGlobals at h
  split at h
  · rename_i hadd
    cases h
    obtain ⟨i, hi, g, s, hfront, hone⟩ := LoweredGlobals.exists_first_of_error hadd
    obtain ⟨rfl, hcount, -, hstop⟩ := reader_of_addEntries (Nat.le_of_lt hi) hfront
    obtain ⟨f, hf, hpath, hplace⟩ := LoweredGlobals.liesIn_of_addEntries_one (hcount ▸ hi) hone
    rw [hstop] at hplace
    refine .inl ⟨g.index, hi, g, s, f, hfront, ?_, hf, hpath, hplace⟩
    rw [LoweredGlobals.addEntries_add hfront]
    exact hone
  rename_i g s hadd
  split at h
  · rename_i hfinish
    cases h
    obtain ⟨hindex, hcount, -, hstop⟩ := reader_of_addEntries (Nat.le_refl _) hadd
    obtain ⟨hleft, htrailing⟩ := GlobalReader.isTrailing_of_finish hfinish
      (by rw [hindex, hcount])
    refine .inr ⟨g, s, hadd, hleft, ?_⟩
    rw [← hstop]
    exact htrailing
  · cases h

end EntryVector

/-! ## Records -/

theorem Tile.le {start stop : Int} {rs : List Record} (h : Tile start rs stop) : start ≤ stop := by
  induction rs generalizing start with
  | nil => exact Int.le_of_eq h
  | cons r rs ih => exact Int.le_trans (Int.le_of_lt h.2.1) (ih h.2.2)

/-- Records that lie end to end lie between the two ends. -/
theorem Tile.mem {start stop : Int} {rs : List Record} (h : Tile start rs stop) {r : Record}
    (hr : r ∈ rs) : start ≤ r.start ∧ r.stop ≤ stop := by
  induction rs generalizing start with
  | nil => cases hr
  | cons r' rs ih =>
    obtain ⟨hstart, hlt, hrest⟩ := h
    rcases List.mem_cons.1 hr with rfl | hr
    · exact ⟨Int.le_of_eq hstart.symm, hrest.le⟩
    · obtain ⟨hlow, hhigh⟩ := ih hrest hr
      exact ⟨by omega, hhigh⟩

/-- The entries of a section reach to its end. -/
theorem AreSections.entries_mem {start : Int} {bs : Bytes} {rs : List Record}
    (h : AreSections start bs rs) {frame : Frame} {kind : VectorKind} {v : EntryVector}
    (hv : .vector frame kind v ∈ rs) : frame.start ≤ v.offset ∧ v.stop = frame.stop := by
  induction h with
  | nil start => cases hv
  | @cons start id bs rest r rs hsec _ ih =>
    rcases List.mem_cons.1 hv with rfl | hv
    · cases hsec with
      | mk _ hpayload =>
        cases hpayload
        simp only [EntryVector.stop, sectionFrame, List.length_append]
        omega
    · exact ih hv

/-- The entries of a section of a module reach to its end. -/
theorem IsModule.entries_mem {offset : Int} {bs : Bytes} {records : List Record}
    (h : IsModule offset bs records) {frame : Frame} {kind : VectorKind} {v : EntryVector}
    (hv : .vector frame kind v ∈ records) : frame.start ≤ v.offset ∧ v.stop = frame.stop := by
  obtain ⟨hsections, -⟩ := h
  exact hsections.entries_mem ((List.mem_cons.1 hv).resolve_left nofun)

/-- The first record that is not lowered gives the error. -/
theorem exists_first_of_walkUnits {exported : Bool} {records : List Record} {e : Error}
    (h : (walkUnits exported records).2 = some e) :
    ∃ front r back, records = front ++ r :: back ∧
      (∀ r' ∈ front, ∃ u, r'.lower exported = .ok u) ∧ r.lower exported = .error e := by
  induction records with
  | nil => cases h
  | cons r records ih =>
    unfold walkUnits at h
    split at h
    · rename_i hlower
      cases h
      exact ⟨[], r, records, rfl, List.forall_mem_nil _, hlower⟩
    · rename_i u hlower
      obtain ⟨front, r', back, rfl, hfront, hr'⟩ := ih h
      refine ⟨r :: front, r', back, rfl, List.forall_mem_cons.2 ⟨⟨u, hlower⟩, hfront⟩, hr'⟩

/-! ## Runs -/

/-- The outermost fault of an error, `f`, says where a run failed that was at a record starting at
`start`, in bytes that end at `high`. The record is given if it was being lowered. -/
structure Error.Places (e : Error) (f : Fault) (start high : Int) (record : Option Record) :
    Prop where
  outer : e.outer = .fault f
  /-- Malformed data lies between the start of the record and the end of the bytes. -/
  decode : e.isDecode = true → start ≤ f.offset ∧ f.offset ≤ high
  /-- If an entry is named, then those in front of it are read and lowered, with it there is the
  error, and a place that is given lies between its start and the end of the section. -/
  entry : ∀ i : Nat, f.path = [text "global", decimal i] → ∃ frame v g s,
    record = some (.vector frame .globals v) ∧ i < v.count.toNat ∧
      LoweredGlobals.addEntries i (.ofVector v) {} = .ok (g, s) ∧
      LoweredGlobals.addEntries (i + 1) (.ofVector v) {} = .error e ∧
      (f.offset ≠ noOffset → g.cursor.position ≤ f.offset ∧ f.offset ≤ frame.stop)
  /-- If a global section fails and no entry is named, then all entries are read and lowered, and
  the error is that of the bytes left behind them. -/
  rest : ∀ frame v, record = some (.vector frame .globals v) →
    (∀ i : Nat, f.path ≠ [text "global", decimal i]) → ∃ g s,
      LoweredGlobals.addEntries v.count.toNat (.ofVector v) {} = .ok (g, s) ∧
        0 < g.cursor.rest.length ∧ e.IsTrailing frame.stop g.cursor.rest.length

section Places

variable {e : Error} {f : Fault} {start high : Int} {frame : Frame} {v : EntryVector}

theorem Error.FoundIn.places (h : e.FoundIn start high) (hf : e.outer = .fault f) :
    e.Places f start high none := by
  have hplace := h f (hf ▸ List.mem_cons_self)
  refine ⟨hf, fun _ => ⟨hplace.low_le, hplace.le_high⟩, fun i hpath => ?_, nofun⟩
  rw [hplace.path] at hpath
  cases hpath

/-- A section that is refused as a whole blames nothing in it. -/
theorem Error.places_unsupportedSection {r : Record} (hr : ∀ frame v, r ≠ .vector frame .globals v)
    (name : String) :
    ∃ f, (Error.unsupportedSection name).Places f start high (some r) := by
  refine ⟨_, rfl, fun hdecode => ?_, nofun, fun frame v hv => absurd (Option.some.inj hv) (hr _ _)⟩
  rw [(Error.ofKind_unsupportedSection name).isDecode_eq] at hdecode
  cases hdecode

theorem EntryVector.Blames.places {i : Nat} (h : v.Blames i e) {kind : FaultKind}
    (hkind : e.OfKind kind) (hstart : start ≤ v.offset) (hstop : v.stop = frame.stop)
    (hhigh : frame.stop ≤ high) : ∃ f, e.Places f start high (some (.vector frame .globals v)) := by
  obtain ⟨f, hf, hsection⟩ := h.liesIn
  obtain ⟨g, s, f', hok, herror, hf', hpath, hplace⟩ := h.place
  cases hf.symm.trans hf'
  refine ⟨f, hf, fun he => ?_, fun j hj => ?_, fun frame' v' _ hnone => absurd hpath (hnone i)⟩
  · exact hkind.place_of_isDecode he hf (hsection.mono hstart (hstop ▸ hhigh))
  · obtain rfl := EntryVector.entryPath_inj (hpath.symm.trans hj)
    rw [hstop] at hplace
    exact ⟨frame, v, g, s, rfl, h.lt, hok, herror,
      fun hsome => hplace.resolve_right fun hnone => hsome hnone.1⟩

theorem EntryVector.BlamesRest.places (h : v.BlamesRest e) {kind : FaultKind}
    (hkind : e.OfKind kind) (hstart : start ≤ v.offset) (hstop : v.stop = frame.stop)
    (hhigh : frame.stop ≤ high) : ∃ f, e.Places f start high (some (.vector frame .globals v)) := by
  obtain ⟨f, hf, hpath, hsection⟩ := h.liesIn
  refine ⟨f, hf, fun he => ?_, fun j hj => ?_, fun frame' v' hv _ => ?_⟩
  · exact hkind.place_of_isDecode he hf (hsection.mono hstart (hstop ▸ hhigh))
  · rw [hpath] at hj
    cases hj
  · cases hv
    rw [← hstop]
    exact h

/-- A record that cannot be lowered is blamed on its own bytes. -/
theorem Record.places_of_lower {offset : Int} {bs : Bytes} {records : List Record} {r : Record}
    (hmodule : IsModule offset bs records) (hmem : r ∈ records) {exported : Bool}
    (h : r.lower exported = .error e) :
    ∃ f, e.Places f r.start (offset + bs.length) (some r) := by
  obtain ⟨kind, -, hkind⟩ := isReported_of_lower h
  have hhigh : r.stop ≤ offset + bs.length := (hmodule.tile.mem hmem).2
  unfold lower at h
  split at h
  · cases h
  · obtain ⟨hstart, hstop⟩ := hmodule.entries_mem hmem
    rcases EntryVector.blames_of_lowerGlobals h with ⟨i, hentry⟩ | hrest
    · exact hentry.places hkind hstart hstop hhigh
    · exact hrest.places hkind hstart hstop hhigh
  · rename_i hglobals
    cases h
    exact Error.places_unsupportedSection (fun frame v hr => hglobals frame v hr) _

end Places

namespace Options

variable {o : Options} {data : Bytes} {e : Error}

/-- What a run was at when it failed: it was reading the record that starts at an offset, behind
records that lie end to end, or it was lowering a record, behind others that were lowered. -/
inductive FailsAt (o : Options) (data : Bytes) (e : Error) : Int → Option Record → Prop
  | reading {records : List Record} {start : Int} (hwalk : o.walk data = (records, some e))
    (htile : Tile o.offset records start) : FailsAt o data e start none
  | lowering {front back : List Record} {r : Record}
    (hwalk : o.walk data = (front ++ r :: back, none))
    (hfront : ∀ r' ∈ front, ∃ u, r'.lower o.exportInit = .ok u)
    (hr : r.lower o.exportInit = .error e) : FailsAt o data e r.start (some r)

/-- A run fails with the first error of reading or, if all records were read, of lowering. -/
theorem program_error_cases (ho : o.canceled = false) (h : o.program data = .error e) :
    (∃ records, o.walk data = (records, some e)) ∨
      ∃ records, o.walk data = (records, none) ∧ (walkUnits o.exportInit records).2 = some e := by
  unfold program records at h
  rcases hwalk : o.walk data with ⟨records, _ | e'⟩
  · rw [hwalk] at h
    refine .inr ⟨records, rfl, ?_⟩
    rcases except_bind_eq_error_iff.1 h with h | ⟨records', hrecords, h⟩
    · cases h
    cases hrecords
    rcases except_bind_eq_error_iff.1 h with h | ⟨units, -, h⟩
    · rw [Options.units, if_neg (by simp [ho])] at h
      split at h
      · cases h
      · rename_i hunits
        cases h
        rw [hunits]
    · cases h
  · rw [hwalk] at h
    cases h
    exact .inl ⟨records, rfl⟩

/-- The program of a run that is not called off has a text, so a run without a text has no
program. -/
theorem program_error_of_assemble (ho : o.canceled = false) (h : o.assemble data = .error e) :
    o.program data = .error e := by
  rcases except_bind_eq_error_iff.1 h with h | ⟨p, hp, hrender⟩
  · exact h
  rcases program_outcome ho data with ⟨p', bs, hp', hbs⟩ | ⟨e', he', -⟩
  · cases hp.symm.trans hp'
    rw [hbs] at hrender
    cases hrender
  · cases hp.symm.trans he'

/-- **A failing run blames the right place.** Its error is that of the first record that could not
be read, or, if all of them were read, of the first one that could not be lowered. Malformed data is
blamed between the start of that record and the end of the bytes. An entry of the global section is
named only if it is the first one that fails, and its place, if there is one, lies between the start
of the entry and the end of the section. Without naming an entry, a global section fails only
because of bytes left behind its entries. -/
theorem places_of_assemble (ho : o.canceled = false) (hlow : 0 ≤ o.offset)
    (hhigh : o.offset ≤ data.length) (h : o.assemble data = .error e) :
    ∃ f start record, o.FailsAt data e start record ∧ e.Places f start data.length record := by
  rcases program_error_cases ho (program_error_of_assemble ho h) with
    ⟨records, hwalk⟩ | ⟨records, hwalk, hunits⟩
  · have hmodule : walkModule data o.offset = (records, some e) := by
      rwa [walk, ho, if_neg Bool.false_ne_true] at hwalk
    obtain ⟨f, hf⟩ := (ofKind_of_walkModule (congrArg Prod.snd hmodule)).outer
    obtain ⟨start, htile, hfound⟩ := exists_tile_of_walkModule hlow hhigh hmodule
    exact ⟨f, start, none, .reading hwalk htile, hfound.places hf⟩
  · obtain ⟨front, r, back, rfl, hfront, hr⟩ := exists_first_of_walkUnits hunits
    have hrecords : o.records data = .ok (front ++ r :: back) := by rw [records, hwalk]
    have hlen : o.offset + ((data.drop o.offset.toNat).length : Int) = data.length := by
      rw [List.length_drop]
      omega
    obtain ⟨f, hplaces⟩ := Record.places_of_lower (isModule_of_records hrecords)
      (List.mem_append_right _ List.mem_cons_self) hr
    rw [hlen] at hplaces
    exact ⟨f, r.start, some r, .lowering hwalk hfront hr, hplaces⟩

/-- A module behind a stray byte whose second global refers to one that does not exist: the operator
at 19 is blamed, in the second entry, which starts at 17, of a section from 9 to 22. -/
theorem places_of_assemble_laterGlobal :
    let o : Options := { offset := 1 }
    let data : Bytes := 0xFF :: (headerBytes ++
      [0x06, 0x0B, 0x02, 0x7F, 0x00, 0x41, 0x07, 0x0B, 0x7F, 0x00, 0x23, 0x09, 0x0B])
    let e : Error := .invalidEntry "global" 1 (some (.decode 19
      "global.get 9 in initializer of global 1 must reference an earlier global"))
    o.canceled = false ∧ 0 ≤ o.offset ∧ o.offset ≤ data.length ∧ o.assemble data = .error e ∧
      e.isDecode = true ∧
      ∃ f start record, o.FailsAt data e start record ∧ e.Places f start data.length record := by
  intro o data e
  have h : o.assemble data = .error e := by decide +kernel
  exact ⟨rfl, by decide, by decide, h, by decide,
    places_of_assemble rfl (by decide) (by decide) h⟩

end Options

end WasmUdon
