import WasmUdon.Proofs.Binary.Relocation
import WasmUdon.Proofs.Operator.Grammar

/-!
# Operators and entries further on

An operator found `d` bytes further on is the same but for its offset (`Operator.MovedBy`), and so
are the operators of a constant expression (`Operator.readAll_moves`) and the entries of a global
section (`readGlobalEntry_moves`). An operator keeps its name and its layout wherever it stands, so
the only places that reading it speaks of are those where it starts and where reading stops.
-/

namespace WasmUdon

variable {d : Int}

/-! ## Operators -/

/-- An operator, and the same operator `d` bytes further on. -/
structure Operator.MovedBy (d : Int) (op op' : Operator) : Prop where
  opcode : op'.opcode = op.opcode
  sub : op'.sub = op.sub
  immediate : op'.immediate = op.immediate
  offset : MovedPlace d op.offset op'.offset

namespace Read

variable {α : Type} {r : Read α}

theorem replicate_moves (hr : Moves d Eq r r) (n : Nat) :
    Moves d Eq (replicate r n) (replicate r n) := by
  induction n with
  | zero => exact .pure rfl
  | succ n ih => exact hr.bind_eq fun _ => ih.bind_eq fun _ => .pure rfl

theorem vector_moves (operator noun : String) (hr : Moves d Eq r r) :
    Moves d Eq (vector operator noun r) (vector operator noun r) := by
  refine u32_moves.bind_eq fun count => remainingSize_moves.bind_eq fun left => ?_
  split
  · exact position_bind_moves fun place place' hplace => .throw (Error.movedBy_decode hplace .none)
  · exact replicate_moves hr _

theorem memoryArgument_moves : Moves d Eq memoryArgument memoryArgument := by
  refine u32_moves.bind_eq fun flags => ?_
  dsimp only
  split
  · exact u32_moves.bind_eq fun _ => u64_moves.bind_eq fun _ => .pure rfl
  · exact (Moves.pure rfl).bind_eq fun _ => u64_moves.bind_eq fun _ => .pure rfl

end Read

theorem Layout.read_moves {offset offset' : Int} (hoffset : MovedPlace d offset offset')
    (family : UInt8) (layout : Layout) :
    Read.Moves d Eq (layout.read offset family) (layout.read offset' family) := by
  -- most layouts are one value, which speaks of no place
  have hone {α : Type} {r : Read α} (hr : Read.Moves d Eq r r)
      (f : α → UInt32 × Option Immediate) :
      Read.Moves d Eq (r >>= fun a => pure (f a)) (r >>= fun a => pure (f a)) :=
    hr.bind_eq fun _ => .pure rfl
  cases layout <;> unfold Layout.read
  case nothing => exact .pure rfl
  case blockType => exact hone (Read.signed_moves 33) _
  case labelTable =>
    exact (Read.vector_moves _ _ Read.u32_moves).bind_eq fun _ => hone Read.u32_moves _
  case typeAndTable => exact Read.u32_moves.bind_eq fun _ => hone Read.u32_moves _
  case typeList => exact hone (Read.vector_moves _ _ Read.byte_moves) _
  case memoryArgument => exact hone Read.memoryArgument_moves _
  case i32 => exact hone Read.s32_moves _
  case i64 => exact hone Read.s64_moves _
  case f32 => exact hone Read.u32le_moves _
  case f64 => exact hone Read.u64le_moves _
  case heapType => exact hone (Read.signed_moves 33) _
  case miscFamily =>
    refine Read.u32_moves.bind_eq fun sub => ?_
    split
    · exact .pure rfl
    · exact .throw (Error.movedBy_decode hoffset .none)
  case vectorFamily =>
    refine Read.u32_moves.bind_eq fun sub => ?_
    split
    · exact hone (Read.bytes_moves 16) _
    · exact .throw (Error.movedBy_decode hoffset .none)
  all_goals exact hone Read.u32_moves _

namespace Operator

theorem readAt_moves {offset offset' : Int} (hoffset : MovedPlace d offset offset') :
    Read.Moves d (MovedBy d) (readAt offset) (readAt offset') := by
  refine Read.byte_moves.bind_eq fun opcode => ?_
  unfold readBehind
  split
  · exact .throw (Error.movedBy_decode hoffset .none)
  · exact (Layout.read_moves hoffset _ _).bind_eq fun _ => .pure ⟨rfl, rfl, rfl, hoffset⟩

/-- **An operator is read alike further on.** -/
theorem next_moves : Read.Moves d (MovedBy d) next next := by
  intro c c' hc
  have houtcome := readAt_moves hc.position hc
  rw [next, next]
  generalize readAt c.position c = x at houtcome
  generalize readAt c'.position c' = x' at houtcome
  cases houtcome with
  | ok hop hc₁ => exact .ok hop hc₁
  | error he hc₁ =>
    dsimp only
    rw [he.kind?_eq]
    split
    · exact .error he hc₁
    · exact .error (Error.movedBy_decode hc₁.position (.some he)) hc₁

/-- **The operators up to the end of the bytes are read alike further on**, and so is the failure if
there is one. -/
theorem readAll_moves {c c' : Cursor} (hc : c.MovedBy d c') :
    List.Forall₂ (MovedBy d) (readAll c).1 (readAll c').1 ∧
      Option.Rel (Error.MovedBy d) (readAll c).2 (readAll c').2 := by
  induction hlen : c.rest.length using Nat.strongRecOn generalizing c c' with
  | ind len ih =>
  rw [readAll_eq c, readAll_eq c', hc.rest]
  split
  · exact ⟨.nil, .none⟩
  · have houtcome := next_moves hc
    cases hnext : next c with
    | ok op c₁ =>
      have hshort : c₁.rest.length < len := hlen ▸ length_lt_of_next hnext
      rw [hnext] at houtcome
      generalize next c' = x' at houtcome
      cases houtcome with
      | ok hop hc₁ =>
        obtain ⟨hops, hfailure⟩ := ih _ hshort hc₁ rfl
        exact ⟨.cons hop hops, hfailure⟩
    | error e c₁ =>
      rw [hnext] at houtcome
      generalize next c' = x' at houtcome
      cases houtcome with
      | error he hc₁ => exact ⟨.nil, .some he⟩

end Operator

/-! ## Entries of the global section -/

/-- A constant expression, and the same expression `d` bytes further on. -/
structure ConstExpr.MovedBy (d : Int) (expr expr' : ConstExpr) : Prop where
  bytes : expr'.bytes = expr.bytes
  offset : MovedPlace d expr.offset expr'.offset

/-- An entry, and the same entry `d` bytes further on. -/
structure GlobalEntry.MovedBy (d : Int) (entry entry' : GlobalEntry) : Prop where
  type : entry'.type = entry.type
  init : entry.init.MovedBy d entry'.init

theorem readGlobalType_moves : Read.Moves d Eq readGlobalType readGlobalType := by
  refine Read.position_bind_moves fun start start' hstart => Read.byte_moves.bind_eq fun code => ?_
  split
  · exact .throw (Error.movedBy_decode hstart .none)
  · split
    all_goals
      refine .bind_eq ?_ fun heapType => Read.position_bind_moves fun place place' hplace =>
        Read.byte_moves.bind_eq fun flag => ?_
    case isTrue.refine_1 => exact (Read.signed_moves 33).map _
    case isFalse.refine_1 => exact .pure rfl
    all_goals
      split
      · exact .pure rfl
      · exact .pure rfl
      · exact .throw (Error.movedBy_decode hplace .none)

/-- An operator opens and closes blocks wherever it stands. -/
theorem Operator.MovedBy.depthAfter_eq {op op' : Operator} (h : op.MovedBy d op') (depth : Nat) :
    op'.depthAfter depth = op.depthAfter depth := by
  simp only [Operator.depthAfter, h.opcode]

theorem scanConstExpr_moves (depth : Nat) :
    Read.Moves d (List.Forall₂ (Operator.MovedBy d)) (scanConstExpr depth)
      (scanConstExpr depth) := by
  intro c c' hc
  induction hlen : c.rest.length using Nat.strongRecOn generalizing c c' depth with
  | ind len ih =>
  rw [scanConstExpr_eq depth c, scanConstExpr_eq depth c', hc.rest]
  split
  · exact .error (Error.movedBy_decode hc.position .none) hc
  · have houtcome := Operator.next_moves hc
    cases hnext : Operator.next c with
    | error e c₁ =>
      rw [hnext] at houtcome
      generalize Operator.next c' = x' at houtcome
      cases houtcome with
      | error he hc₁ => exact .error he hc₁
    | ok op c₁ =>
      have hshort : c₁.rest.length < len := hlen ▸ Operator.length_lt_of_next hnext
      rw [hnext] at houtcome
      generalize Operator.next c' = x' at houtcome
      cases houtcome with
      | @ok _ op' _ c₁' hop hc₁ =>
        dsimp only
        rw [hop.depthAfter_eq]
        split
        · exact .ok (.cons hop .nil) hc₁
        · rename_i depth' _
          have hrest := ih _ hshort depth' hc₁ rfl
          generalize scanConstExpr depth' c₁ = y at hrest
          generalize scanConstExpr depth' c₁' = y' at hrest
          cases hrest with
          | ok hops hc₂ => exact .ok (.cons hop hops) hc₂
          | error he hc₂ => exact .error he hc₂

theorem readConstExpr_moves :
    Read.Moves d (ConstExpr.MovedBy d) readConstExpr readConstExpr := by
  intro c c' hc
  have hscan := scanConstExpr_moves 0 hc
  rw [readConstExpr, readConstExpr, hc.rest]
  generalize scanConstExpr 0 c = x at hscan
  generalize scanConstExpr 0 c' = x' at hscan
  cases hscan with
  | ok hops hc₁ => exact .ok ⟨by rw [hc₁.rest], hc.position⟩ hc₁
  | error he hc₁ => exact .error he hc₁

/-- **An entry of the global section is read alike further on.** -/
theorem readGlobalEntry_moves :
    Read.Moves d (GlobalEntry.MovedBy d) readGlobalEntry readGlobalEntry :=
  readGlobalType_moves.bind_eq fun _ => readConstExpr_moves.bind fun _ _ hinit =>
    .pure ⟨rfl, hinit⟩

end WasmUdon
