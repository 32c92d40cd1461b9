import WasmUdon.Proofs.Lowering.Outcome
import WasmUdon.Proofs.Module.Relocation
import WasmUdon.Proofs.Operator.Relocation

/-!
# Lowering a module further on

Lowering looks at operators and entries, and at places only to say where something went wrong. So a
module that stands `d` bytes further on is lowered to the same program, or refused with the same
error at the moved place. The layers are compared one by one, from a single operator
(`Operator.lower_moves`) over an initializer (`ConstExpr.lower_moves`) and the entries of a section
(`EntryVector.lowerGlobals_moves`) to whole modules (`Options.program_moves`).

`Options.assemble_moves` is about the text: bytes in front of a module are never noticed but in the
offsets of records and errors.
-/

namespace WasmUdon

variable {d : Int}

/-! ## Operators -/

namespace Operator

variable {op op' : Operator}

theorem MovedBy.name_eq (h : op.MovedBy d op') : op'.name = op.name := by
  simp only [Operator.name, h.opcode, h.sub]

theorem MovedBy.literal?_eq (h : op.MovedBy d op') : op'.literal? = op.literal? := by
  simp only [Operator.literal?, h.immediate]

theorem MovedBy.access_eq (h : op.MovedBy d op') (name : Bytes) :
    op'.access name = op.access name := by
  simp only [Operator.access, h.opcode]

theorem MovedBy.badImmediate (h : op.MovedBy d op') :
    op.badImmediate.MovedBy d op'.badImmediate := by
  refine Error.movedBy_ofFault ⟨rfl, rfl, rfl, ?_, ?_⟩ .none
  · simp only [h.immediate]
  · rw [if_neg h.offset.ne_noOffset]
    exact h.offset.2

theorem MovedBy.unsupported (h : op.MovedBy d op') :
    (Error.unsupportedInstruction op.name op.offset).MovedBy d
      (.unsupportedInstruction op'.name op'.offset) := by
  rw [h.name_eq]
  exact Error.movedBy_unsupportedInstruction h.offset _

theorem MovedBy.stackError (h : op.MovedBy d op') (detail : String) :
    (op.stackError detail).MovedBy d (op'.stackError detail) :=
  Error.movedBy_decode h.offset .none

theorem lower_moves (h : op.MovedBy d op') (scope : Scope) :
    ResultMoved d Eq (op.lower scope) (op'.lower scope) := by
  unfold lower
  rw [h.opcode, h.immediate, h.literal?_eq]
  split
  case h_5 | h_6 =>
    split
    · exact .ok (h.access_eq _).symm
    · exact .error h.badImmediate
  case h_7 | h_8 | h_9 =>
    split
    · exact .error h.unsupported
    · split
      · exact .ok (h.access_eq _).symm
      · exact .error h.badImmediate
  case h_10 | h_11 | h_12 | h_13 =>
    split
    · exact .ok rfl
    · exact .error h.badImmediate
  case h_14 => exact .error h.unsupported
  all_goals exact .ok rfl

end Operator

/-! ## Initializers -/

theorem GlobalEnv.reference_moves {op op' : Operator} (h : op.MovedBy d op') (env : GlobalEnv)
    (index : Nat) : ResultMoved d Eq (env.reference index op) (env.reference index op') := by
  unfold reference
  rw [h.immediate]
  split
  · dsimp only
    split
    · exact .error (Error.movedBy_decode h.offset .none)
    · exact .error (Error.movedBy_decode h.offset .none)
    · exact .ok rfl
  · exact .error h.badImmediate

namespace InitState

variable {op op' : Operator}

theorem instruction_moves (h : op.MovedBy d op') (pushed : StackValue) (s : InitState)
    (i : Instruction) :
    ResultMoved d Eq (s.instruction op pushed i) (s.instruction op' pushed i) := by
  unfold instruction
  split
  · exact .ok rfl
  · exact .ok rfl
  · exact .ok rfl
  · split
    · exact .error (h.stackError _)
    · exact .ok rfl
    · exact .ok rfl
  · split
    · exact .error (h.stackError _)
    · exact .ok rfl
    · exact .error (h.stackError _)
  · exact .ok rfl

theorem instructions_moves (h : op.MovedBy d op') (pushed : StackValue) (s : InitState)
    (is : List Instruction) :
    ResultMoved d Eq (s.instructions op pushed is) (s.instructions op' pushed is) := by
  induction is generalizing s with
  | nil => exact .ok rfl
  | cons i is ih =>
    have hi := instruction_moves h pushed s i
    unfold instructions
    generalize s.instruction op pushed i = x at hi
    generalize s.instruction op' pushed i = x' at hi
    cases hi with
    | ok hs =>
      subst hs
      exact ih _
    | error he => exact .error he

theorem pushedBy_moves (h : op.MovedBy d op') (env : GlobalEnv) (index : Nat) :
    ResultMoved d Eq (pushedBy env index op) (pushedBy env index op') := by
  have hreference := env.reference_moves h index
  unfold pushedBy
  rw [h.opcode]
  split
  · generalize env.reference index op = x at hreference
    generalize env.reference index op' = x' at hreference
    cases hreference with
    | ok htype => exact .ok (congrArg _ htype)
    | error he => exact .error he
  · exact .ok rfl

theorem operator_moves (h : op.MovedBy d op') (env : GlobalEnv) (index : Nat) (s : InitState) :
    ResultMoved d Eq (s.operator env index op) (s.operator env index op') := by
  have hpushed := pushedBy_moves h env index
  have hlower := Operator.lower_moves h .module
  unfold operator
  generalize pushedBy env index op = x at hpushed
  generalize pushedBy env index op' = x' at hpushed
  generalize op.lower .module = y at hlower
  generalize op'.lower .module = y' at hlower
  cases hpushed with
  | error he => exact .error he
  | ok hvalue =>
    subst hvalue
    cases hlower with
    | error he => exact .error he
    | ok his =>
      subst his
      exact instructions_moves h _ _ _

/-- **Operators run alike further on.** -/
theorem operators_moves {ops ops' : List Operator} (h : List.Forall₂ (Operator.MovedBy d) ops ops')
    (env : GlobalEnv) (index : Nat) (s : InitState) :
    ResultMoved d Eq (operators env index s ops) (operators env index s ops') := by
  induction h generalizing s with
  | nil => exact .ok rfl
  | @cons op op' ops ops' hop _ ih =>
    have hoperator := operator_moves hop env index s
    unfold operators
    generalize s.operator env index op = x at hoperator
    generalize s.operator env index op' = x' at hoperator
    cases hoperator with
    | ok hs =>
      subst hs
      exact ih _
    | error he => exact .error he

end InitState

theorem ConstExpr.lower_moves {expr expr' : ConstExpr} (h : expr.MovedBy d expr') (env : GlobalEnv)
    (index : Nat) (name : Bytes) (type : AsmType) :
    ResultMoved d Eq (expr.lower env index name type) (expr'.lower env index name type) := by
  obtain ⟨hops, hfailure⟩ := Operator.readAll_moves (Cursor.movedBy_ofBytes expr.bytes h.offset)
  have hrun := InitState.operators_moves hops env index {}
  unfold lower
  rw [h.bytes]
  generalize Operator.readAll (.ofBytes expr.bytes expr.offset) = x at hfailure hrun ⊢
  generalize Operator.readAll (.ofBytes expr.bytes expr'.offset) = x' at hfailure hrun ⊢
  obtain ⟨ops, failure⟩ := x
  obtain ⟨ops', failure'⟩ := x'
  dsimp only at hfailure hrun ⊢
  generalize InitState.operators env index {} ops = y at hrun
  generalize InitState.operators env index {} ops' = y' at hrun
  cases hrun with
  | error he => exact .error he
  | ok hs =>
    subst hs
    cases hfailure with
    | some he => exact .error he
    | none =>
      dsimp only
      split
      · split
        · exact .ok rfl
        · exact .error (Error.movedBy_decode h.offset .none)
      · split
        · exact .ok rfl
        · exact .error (Error.movedBy_decode h.offset .none)
      · exact .error (Error.movedBy_internal _ _ _)
      · exact .error (Error.movedBy_decode h.offset .none)

/-! ## Entries of the global section -/

theorem ValueType.lower_moves (type : ValueType) : ResultMoved d Eq type.lower type.lower := by
  cases type
  case i32 | i64 | f32 | f64 => exact .ok rfl
  all_goals exact .error (Error.movedBy_unsupportedType _)

/-- A reader of entries, and the same reader `d` bytes further on. -/
structure GlobalReader.MovedBy (d : Int) (g g' : GlobalReader) : Prop where
  cursor : g.cursor.MovedBy d g'.cursor
  count : g'.count = g.count
  index : g'.index = g.index

namespace GlobalReader

variable {g g' : GlobalReader}

theorem MovedBy.hasMore_eq (h : g.MovedBy d g') : g'.hasMore = g.hasMore := by
  rw [hasMore, hasMore, h.count, h.index]

theorem entryError_moves {e e' : Error} (he : e.MovedBy d e') (index : Nat) {place place' : Int}
    (hplace : MovedPlace d place place') :
    (entryError index e place).MovedBy d (entryError index e' place') := by
  unfold entryError
  rw [he.kind?_eq]
  dsimp only
  split
  · exact he.invalidEntry _ _
  · exact (Error.movedBy_decode hplace (.some he)).invalidEntry _ _

theorem MovedBy.read_moves (h : g.MovedBy d g') :
    ResultMoved d (GlobalEntry.MovedBy d) g.read.1 g'.read.1 ∧ g.read.2.MovedBy d g'.read.2 := by
  have hentry := readGlobalEntry_moves h.cursor
  unfold read
  rw [h.hasMore_eq]
  split
  · generalize readGlobalEntry g.cursor = x at hentry
    generalize readGlobalEntry g'.cursor = x' at hentry
    cases hentry with
    | ok hentry hc => exact ⟨.ok hentry, hc, h.count, congrArg (· + 1) h.index⟩
    | error he hc =>
      refine ⟨.error ?_, hc, h.count, h.index⟩
      rw [h.index]
      exact entryError_moves he _ hc.position
  · exact ⟨.error (Error.movedBy_internal _ _ _), h⟩

theorem MovedBy.finish_moves (h : g.MovedBy d g') : ResultMoved d Eq g.finish g'.finish := by
  unfold finish
  rw [h.hasMore_eq, h.cursor.rest]
  split
  · exact .error (Error.movedBy_internal _ _ _)
  · split
    · exact .error (Error.movedBy_decode h.cursor.position .none)
    · exact .ok rfl

end GlobalReader

namespace LoweredGlobals

theorem add_moves (s : LoweredGlobals) (index : Nat) {entry entry' : GlobalEntry}
    (h : entry.MovedBy d entry') : ResultMoved d Eq (s.add index entry) (s.add index entry') := by
  unfold add
  rw [h.type]
  dsimp only
  cases htype : entry.type.type.lower with
  | error e =>
    have he : e.MovedBy d e := by
      have hmoves := entry.type.type.lower_moves (d := d)
      rw [htype] at hmoves
      cases hmoves with
      | error he => exact he
    exact .error (he.invalidEntry _ _)
  | ok type =>
    have hinit := ConstExpr.lower_moves h.init s.env index
      (Slot.ofGlobal (UInt32.ofNat index)).name type
    simp only [bind, Except.bind]
    generalize entry.init.lower s.env index _ type = x at hinit ⊢
    generalize entry'.init.lower s.env index _ type = x' at hinit ⊢
    cases hinit with
    | error he => exact .error (he.invalidEntry _ _)
    | ok hlowered =>
      subst hlowered
      exact .ok rfl

theorem addEntries_moves (n : Nat) {g g' : GlobalReader} (h : g.MovedBy d g')
    (s : LoweredGlobals) :
    ResultMoved d (fun x x' => x.1.MovedBy d x'.1 ∧ x'.2 = x.2) (addEntries n g s)
      (addEntries n g' s) := by
  induction n generalizing g g' s with
  | zero => exact .ok ⟨h, rfl⟩
  | succ n ih =>
    obtain ⟨hresult, hreader⟩ := h.read_moves
    unfold addEntries
    generalize g.read = x at hresult hreader
    generalize g'.read = x' at hresult hreader
    obtain ⟨result, g₁⟩ := x
    obtain ⟨result', g₁'⟩ := x'
    dsimp only at hresult hreader
    cases hresult with
    | error he => exact .error he
    | @ok entry entry' hentry =>
      have hadd := add_moves s g.index hentry
      dsimp only
      rw [h.index]
      generalize s.add g.index entry = y at hadd
      generalize s.add g.index entry' = y' at hadd
      cases hadd with
      | error he => exact .error he
      | ok hs =>
        subst hs
        exact ih hreader _

end LoweredGlobals

/-- **The entries of a section are lowered alike further on.** -/
theorem EntryVector.lowerGlobals_moves {v v' : EntryVector} (h : v.MovedBy d v')
    (exported : Bool) :
    ResultMoved d Eq (v.lowerGlobals exported) (v'.lowerGlobals exported) := by
  have hreader : (GlobalReader.ofVector v).MovedBy d (.ofVector v') := by
    refine ⟨?_, h.count, rfl⟩
    simp only [GlobalReader.ofVector, h.bytes]
    exact Cursor.movedBy_ofBytes _ h.offset
  have hentries := LoweredGlobals.addEntries_moves v.count.toNat hreader {}
  unfold lowerGlobals
  rw [h.count]
  generalize LoweredGlobals.addEntries v.count.toNat (.ofVector v) {} = x at hentries
  generalize LoweredGlobals.addEntries v.count.toNat (.ofVector v') {} = x' at hentries
  cases hentries with
  | error he => exact .error he
  | @ok a a' hloaded =>
    obtain ⟨g, s⟩ := a
    obtain ⟨g', s'⟩ := a'
    obtain ⟨hg, hs⟩ := hloaded
    have hs : s' = s := hs
    subst hs
    have hfinish := hg.finish_moves
    dsimp only at hfinish ⊢
    generalize g.finish = y at hfinish
    generalize g'.finish = y' at hfinish
    cases hfinish with
    | error he => exact .error he
    | ok _ => exact .ok rfl

/-! ## Modules -/

theorem Record.lower_moves {r r' : Record} (h : r.MovedBy d r') (exported : Bool) :
    ResultMoved d Eq (r.lower exported) (r'.lower exported) := by
  cases h with
  | header version hplace => exact .ok rfl
  | vector kind hframe hentries =>
    cases kind
    case globals => exact EntryVector.lowerGlobals_moves hentries exported
    all_goals exact .error (Error.movedBy_unsupportedSection _)
  | custom | startFunction | dataCount | finish =>
    exact .error (Error.movedBy_unsupportedSection _)

theorem walkUnits_moves {rs rs' : List Record} (h : List.Forall₂ (Record.MovedBy d) rs rs')
    (exported : Bool) :
    (walkUnits exported rs').1 = (walkUnits exported rs).1 ∧
      Option.Rel (Error.MovedBy d) (walkUnits exported rs).2 (walkUnits exported rs').2 := by
  induction h with
  | nil => exact ⟨rfl, .none⟩
  | @cons r r' rs rs' hr _ ih =>
    have hlower := Record.lower_moves hr exported
    unfold walkUnits
    generalize r.lower exported = x at hlower
    generalize r'.lower exported = x' at hlower
    cases hlower with
    | error he => exact ⟨rfl, .some he⟩
    | ok hu => exact ⟨congrArg₂ _ hu.symm ih.1, ih.2⟩

namespace Options

theorem records_moves (pre m : Bytes) (exportInit : Bool) :
    ResultMoved pre.length (List.Forall₂ (Record.MovedBy pre.length)) (records { exportInit } m)
      (records { offset := pre.length, exportInit } (pre ++ m)) := by
  have hwalk := walkModule_moves pre m
  simp only [records, walk, Bool.false_eq_true, if_false]
  generalize walkModule m 0 = x at hwalk
  generalize walkModule (pre ++ m) pre.length = x' at hwalk
  obtain ⟨rs, failure⟩ := x
  obtain ⟨rs', failure'⟩ := x'
  obtain ⟨hrecords, hfailure⟩ := hwalk
  dsimp only at hrecords hfailure
  cases hfailure with
  | none => exact .ok hrecords
  | some he => exact .error he

theorem units_moves {rs rs' : List Record} (h : List.Forall₂ (Record.MovedBy d) rs rs')
    (exportInit : Bool) (offset : Int) :
    ResultMoved d Eq (units { exportInit } rs) (units { offset, exportInit } rs') := by
  have hwalk := walkUnits_moves h exportInit
  simp only [units, Bool.false_eq_true, false_and, if_false]
  generalize walkUnits exportInit rs = x at hwalk
  generalize walkUnits exportInit rs' = x' at hwalk
  obtain ⟨us, failure⟩ := x
  obtain ⟨us', failure'⟩ := x'
  obtain ⟨hunits, hfailure⟩ := hwalk
  dsimp only at hunits hfailure
  cases hfailure with
  | none => exact .ok hunits.symm
  | some he => exact .error he

/-- **A module is lowered alike wherever it stands.** -/
theorem program_moves (pre m : Bytes) (exportInit : Bool) :
    ResultMoved pre.length Eq (program { exportInit } m)
      (program { offset := pre.length, exportInit } (pre ++ m)) :=
  (records_moves pre m exportInit).bind fun _ _ hrecords =>
    (units_moves hrecords exportInit _).bind_eq fun _ => .ok rfl

/-- **Bytes in front of a module are never noticed but in offsets.** With `pre` in front of it, a
module has the same text, or fails with an error whose faults are the same but for their offsets,
which lie `pre.length` further on. Likewise the records that are read are the same but for their
places, up to the same failure. -/
theorem assemble_moves (pre m : Bytes) (exportInit : Bool) :
    let here : Options := { exportInit }
    let there : Options := { offset := pre.length, exportInit }
    ((∃ bs, here.assemble m = .ok bs ∧ there.assemble (pre ++ m) = .ok bs) ∨
      ∃ e e' f f', here.assemble m = .error e ∧ there.assemble (pre ++ m) = .error e' ∧
        e.outer = .fault f ∧ e'.outer = .fault f' ∧ f.MovedBy pre.length f' ∧
        e.MovedBy pre.length e') ∧
      List.Forall₂ (Record.MovedBy pre.length) (here.walk m).1 (there.walk (pre ++ m)).1 ∧
      Option.Rel (Error.MovedBy pre.length) (here.walk m).2 (there.walk (pre ++ m)).2 := by
  intro here there
  refine ⟨?_, walkModule_moves pre m⟩
  have hprogram : ResultMoved pre.length Eq (here.program m) (there.program (pre ++ m)) :=
    program_moves pre m exportInit
  rcases program_outcome (o := here) rfl m with ⟨p, bs, hp, hbs⟩ | ⟨e, he, kind, -, hkind⟩
  · rw [hp] at hprogram
    generalize hx : there.program (pre ++ m) = x' at hprogram
    cases hprogram with
    | ok hpp =>
      subst hpp
      exact .inl ⟨bs, except_bind_eq_ok_iff.2 ⟨p, hp, hbs⟩, except_bind_eq_ok_iff.2 ⟨p, hx, hbs⟩⟩
  · obtain ⟨f, hf⟩ := hkind.outer
    rw [he] at hprogram
    generalize hx : there.program (pre ++ m) = x' at hprogram
    cases hprogram with
    | @error _ e' hmoved =>
      obtain ⟨f', hf', hff'⟩ := hmoved.outer_fault hf
      exact .inr ⟨e, e', f, f', except_bind_eq_error_iff.2 (.inl he),
        except_bind_eq_error_iff.2 (.inl hx), hf, hf', hff', hmoved⟩

end Options

end WasmUdon
