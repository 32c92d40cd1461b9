import WasmUdon.Global.Entry
import WasmUdon.Proofs.Binary.Signed
import WasmUdon.Proofs.Operator.Immediates

/-!
# The grammar of operators and constant expressions

What an operator looks like, as a relation between byte strings and operators that says nothing
about how operators are read:

* `Layout.Form` says which bytes follow an opcode, for each layout;
* `IsOperator` puts the opcode in front;
* `IsConstExpr` lays operators end to end, up to the `end` that closes no block.

Reading an operator accepts exactly the operators of the grammar (`Operator.next_eq_ok_iff`), and
reading a constant expression takes exactly one expression of the grammar
(`readConstExpr_eq_ok_iff`), whatever stands behind it.
-/

namespace WasmUdon

/-! ## Vectors -/

/-- The bytes are values of one sort laid end to end. -/
def AreItems {α : Type} (G : Bytes → α → Prop) (bs : Bytes) (as : List α) : Prop :=
  ∃ pieces : List Bytes, bs = pieces.flatten ∧ List.Forall₂ G pieces as

/-- The bytes are the number of values and the values themselves. -/
def IsVector {α : Type} (G : Bytes → α → Prop) (bs : Bytes) (as : List α) : Prop :=
  ∃ front back, bs = front ++ back ∧ IsUnsigned 32 as.length front ∧ AreItems G back as

section Vectors

variable {α : Type} {G : Bytes → α → Prop}

theorem areItems_nil {bs : Bytes} : AreItems G bs [] ↔ bs = [] := by
  constructor
  · rintro ⟨pieces, rfl, h⟩
    cases h
    rfl
  · rintro rfl
    exact ⟨[], rfl, .nil⟩

theorem areItems_cons {bs : Bytes} {a : α} {as : List α} :
    AreItems G bs (a :: as) ↔ ∃ s t, bs = s ++ t ∧ G s a ∧ AreItems G t as := by
  constructor
  · rintro ⟨pieces, rfl, h⟩
    cases h with
    | @cons piece _ pieces _ ha has => exact ⟨piece, pieces.flatten, rfl, ha, pieces, rfl, has⟩
  · rintro ⟨s, t, rfl, ha, pieces, rfl, has⟩
    exact ⟨s :: pieces, rfl, .cons ha has⟩

/-- Values that take a byte or more are no more than their bytes. -/
theorem AreItems.length_le (hG : ∀ bs a, G bs a → bs ≠ []) {bs : Bytes} {as : List α}
    (h : AreItems G bs as) : as.length ≤ bs.length := by
  induction as generalizing bs with
  | nil => exact Nat.zero_le _
  | cons a as ih =>
    obtain ⟨s, t, rfl, ha, has⟩ := areItems_cons.1 h
    have hs := List.length_pos_iff.2 (hG s a ha)
    have ht := ih has
    rw [List.length_cons, List.length_append]
    omega

theorem Read.replicate_parses {r : Read α} (hr : r.Parses G) (n : Nat) :
    (replicate r n).Parses fun bs as => as.length = n ∧ AreItems G bs as := by
  induction n with
  | zero =>
    refine (Parses.pure []).congr fun bs as => ?_
    constructor
    · rintro ⟨rfl, rfl⟩
      exact ⟨rfl, areItems_nil.2 rfl⟩
    · rintro ⟨hlen, h⟩
      obtain rfl := List.eq_nil_of_length_eq_zero hlen
      exact ⟨areItems_nil.1 h, rfl⟩
  | succ n ih =>
    refine (hr.bind fun a => ih.map (a :: ·)).congr fun bs as => ?_
    constructor
    · rintro ⟨a, s, t, rfl, ha, as, ⟨hlen, has⟩, rfl⟩
      exact ⟨by rw [List.length_cons, hlen], areItems_cons.2 ⟨s, t, rfl, ha, has⟩⟩
    · rintro ⟨hlen, h⟩
      cases as with
      | nil => cases hlen
      | cons a as =>
        obtain ⟨s, t, rfl, ha, has⟩ := areItems_cons.1 h
        exact ⟨a, s, t, rfl, ha, as, ⟨Nat.succ.inj hlen, has⟩, rfl⟩

/-- **Reading a vector accepts exactly vectors**: the check of the count against the bytes left
refuses none, since every value takes a byte or more. -/
theorem Read.vector_parses {r : Read α} (hr : r.Parses G) (hG : ∀ bs a, G bs a → bs ≠ [])
    (operator noun : String) : (vector operator noun r).Parses (IsVector G) := by
  intro c as c'
  rw [vector, bind_eq_ok_iff]
  constructor
  · rintro ⟨count, c₁, hcount, h⟩
    obtain ⟨front, hfront, hnumber⟩ := (u32_parses c count c₁).1 hcount
    rw [remainingSize_bind] at h
    split at h
    · rw [position_bind] at h
      cases h
    · obtain ⟨back, hback, hlen, hitems⟩ := (replicate_parses hr _ c₁ as c').1 h
      exact ⟨front ++ back, hfront.trans hback, front, back, rfl, hlen ▸ hnumber, hitems⟩
  · rintro ⟨bs, hbs, front, back, rfl, hnumber, hitems⟩
    obtain ⟨c₁, hfront, hback⟩ := hbs.split
    have hcount : (UInt32.ofNat as.length).toNat = as.length :=
      UInt32.toNat_ofNat_of_lt' hnumber.lt
    have hle : as.length ≤ c₁.rest.length := by
      have hitems := hitems.length_le hG
      rw [hback.rest, List.length_append]
      omega
    have hindex : IsUnsigned 32 (UInt32.ofNat as.length).toNat front := by
      rw [hcount]
      exact hnumber
    refine ⟨UInt32.ofNat as.length, c₁, (u32_parses _ _ _).2 ⟨front, hfront, hindex⟩, ?_⟩
    rw [remainingSize_bind, hcount, if_neg (Nat.not_lt.2 hle)]
    exact (replicate_parses hr _ c₁ as c').2 ⟨back, hback, rfl, hitems⟩

end Vectors

/-! ## Operators -/

/-- The bytes are an index or another number of 32 bits. -/
abbrev IsIndex (bs : Bytes) (n : UInt32) : Prop := IsUnsigned 32 n.toNat bs

/-- The bytes follow the alignment of a load or store: the memory index if the alignment announces
one, and the offset. -/
def IsMemoryTail (flags : UInt32) (bs : Bytes) (argument : Immediate) : Prop :=
  if flags &&& Read.memoryIndexBit ≠ 0 then
    ∃ (memory : UInt32) (s t : Bytes), bs = s ++ t ∧ IsIndex s memory ∧
      ∃ offset : UInt64, IsUnsigned 64 offset.toNat t ∧
        argument = .memory (flags &&& ~~~Read.memoryIndexBit) memory offset
  else
    ∃ offset : UInt64, IsUnsigned 64 offset.toNat bs ∧
      argument = .memory (flags &&& ~~~Read.memoryIndexBit) 0 offset

/-- The bytes are the argument of a load or store: the alignment and what it announces. -/
def IsMemoryArgument (bs : Bytes) (argument : Immediate) : Prop :=
  ∃ flags s t, bs = s ++ t ∧ IsIndex s flags ∧ IsMemoryTail flags t argument

/-- The bytes that follow an opcode, with the number in the family and the immediate that they
stand for. -/
def Layout.Form : Layout → Bytes → UInt32 × Option Immediate → Prop
  | .nothing, bs, x => bs = [] ∧ x = (0, none)
  | .blockType, bs, x => ∃ n, IsSigned 33 n bs ∧ x = (0, some (.block n))
  | .label, bs, x => ∃ n, IsIndex bs n ∧ x = (0, some (.branch n))
  | .labelTable, bs, x => ∃ labels s t, bs = s ++ t ∧ IsVector IsIndex s labels ∧
      ∃ default, IsIndex t default ∧ x = (0, some (.branchTable labels default))
  | .func, bs, x => ∃ n, IsIndex bs n ∧ x = (0, some (.call n))
  | .typeAndTable, bs, x => ∃ type s t, bs = s ++ t ∧ IsIndex s type ∧
      ∃ table, IsIndex t table ∧ x = (0, some (.callIndirect type table))
  | .typeList, bs, x => ∃ types, IsVector (fun bs b => bs = [b]) bs types ∧
      x = (0, some (.select types))
  | .localIndex, bs, x => ∃ n, IsIndex bs n ∧ x = (0, some (.localIndex n))
  | .globalIndex, bs, x => ∃ n, IsIndex bs n ∧ x = (0, some (.globalIndex n))
  | .tableIndex, bs, x => ∃ n, IsIndex bs n ∧ x = (0, some (.tableIndex n))
  | .memoryArgument, bs, x => ∃ argument, IsMemoryArgument bs argument ∧ x = (0, some argument)
  | .memoryIndex, bs, x => ∃ n, IsIndex bs n ∧ x = (0, some (.memoryIndex n))
  | .i32, bs, x => ∃ n : Int32, IsSigned 32 n.toInt bs ∧ x = (0, some (.i32 n))
  | .i64, bs, x => ∃ n, (IsGroups bs ∧ bs.length ≤ 10 ∧ n = Int64.ofInt (signedValue bs)) ∧
      x = (0, some (.i64 n))
  | .f32, bs, x => ∃ n, (bs.length = 4 ∧ n = UInt32.ofNat (ofLittleEndian bs)) ∧
      x = (0, some (.f32 n))
  | .f64, bs, x => ∃ n, (bs.length = 8 ∧ n = UInt64.ofNat (ofLittleEndian bs)) ∧
      x = (0, some (.f64 n))
  | .heapType, bs, x => ∃ n, IsSigned 33 n bs ∧ x = (0, some (.refNull n))
  | .funcReference, bs, x => ∃ n, IsIndex bs n ∧ x = (0, some (.refFunc n))
  | .miscFamily, bs, x => ∃ sub, IsIndex bs sub ∧ sub.toNat < Opcode.miscNames.length ∧
      x = (sub, none)
  | .vectorFamily, bs, x => ∃ front back, bs = front ++ back ∧ IsIndex front Opcode.vectorConst ∧
      back.length = 16 ∧ x = (Opcode.vectorConst, some (.v128 back))

/-- The bytes are an operator, found anywhere. -/
def IsOperator (bs : Bytes) (op : Operator) : Prop :=
  ∃ layout behind, Layout.ofOpcode? op.opcode = some layout ∧ bs = op.opcode :: behind ∧
    layout.Form behind (op.sub, op.immediate)

theorem IsOperator.ne_nil {bs : Bytes} {op : Operator} (h : IsOperator bs op) : bs ≠ [] := by
  obtain ⟨layout, behind, -, rfl, -⟩ := h
  exact List.cons_ne_nil _ _

theorem Read.memoryArgument_parses : memoryArgument.Parses IsMemoryArgument := by
  refine u32_parses.bind (H := IsMemoryTail) fun flags => ?_
  unfold IsMemoryTail
  split
  · exact u32_parses.bind fun memory => u64_parses.map _
  · refine ((Parses.pure 0).bind fun memory => u64_parses.map
      (Immediate.memory (flags &&& ~~~memoryIndexBit) memory)).congr fun bs argument => ?_
    constructor
    · rintro ⟨memory, s, t, rfl, ⟨rfl, rfl⟩, h⟩
      exact h
    · intro h
      exact ⟨0, [], bs, rfl, ⟨rfl, rfl⟩, h⟩

/-- **What follows an opcode is read exactly where it stands in its layout.** -/
theorem Layout.read_parses (offset : Int) (family : UInt8) (layout : Layout) :
    (layout.read offset family).Parses layout.Form := by
  have hindex : ∀ bs (n : UInt32), IsIndex bs n → bs ≠ [] := fun _ _ h => h.groups.ne_nil
  have hbyte : ∀ bs (b : UInt8), bs = [b] → bs ≠ [] := fun _ _ h => h ▸ List.cons_ne_nil _ _
  cases layout <;> unfold Layout.read
  case nothing => exact Read.Parses.pure _
  case blockType => exact (Read.signed_parses 33).map _
  case labelTable =>
    exact (Read.vector_parses Read.u32_parses hindex _ _).bind fun labels => Read.u32_parses.map _
  case typeAndTable => exact Read.u32_parses.bind fun type => Read.u32_parses.map _
  case typeList => exact (Read.vector_parses Read.byte_parses hbyte _ _).map _
  case memoryArgument => exact Read.memoryArgument_parses.map _
  case i32 => exact Read.s32_parses.map _
  case i64 => exact Read.s64_parses.map _
  case f32 => exact Read.u32le_parses.map _
  case f64 => exact Read.u64le_parses.map _
  case heapType => exact (Read.signed_parses 33).map _
  case miscFamily =>
    have hname : ∀ sub : UInt32,
        (if sub.toNat < Opcode.miscNames.length then return (sub, none)
          else throw (.unknownOpcode offset (Operator.familyName family sub none)) :
          Read (UInt32 × Option Immediate)).Parses
          fun bs x => bs = [] ∧ sub.toNat < Opcode.miscNames.length ∧ x = (sub, none) := by
      intro sub
      split
      · rename_i hlt
        exact (Read.Parses.pure _).congr fun bs x => by simp [hlt]
      · rename_i hlt
        exact Read.throw_parses fun bs x h => hlt h.2.1
    refine (Read.u32_parses.bind hname).congr fun bs x => ?_
    constructor
    · rintro ⟨sub, s, t, rfl, hsub, rfl, hlt, rfl⟩
      exact ⟨sub, by simpa using hsub, hlt, rfl⟩
    · rintro ⟨sub, hsub, hlt, rfl⟩
      exact ⟨sub, bs, [], by simp, hsub, rfl, hlt, rfl⟩
  case vectorFamily =>
    have hconst : ∀ sub : UInt32,
        (if sub = Opcode.vectorConst then do
            let bs ← Read.bytes 16
            return (sub, some (.v128 bs))
          else throw (.unknownOpcode offset (Operator.familyName family sub none)) :
          Read (UInt32 × Option Immediate)).Parses
          fun bs x => sub = Opcode.vectorConst ∧ bs.length = 16 ∧
            x = (Opcode.vectorConst, some (.v128 bs)) := by
      intro sub
      split
      · rename_i hsub
        subst hsub
        refine ((Read.bytes_parses 16).map _).congr fun bs x => ?_
        constructor
        · rintro ⟨bs, ⟨rfl, hlen⟩, rfl⟩
          exact ⟨rfl, hlen, rfl⟩
        · rintro ⟨-, hlen, rfl⟩
          exact ⟨bs, ⟨rfl, hlen⟩, rfl⟩
      · rename_i hsub
        exact Read.throw_parses fun bs x h => hsub h.1
    refine (Read.u32_parses.bind hconst).congr fun bs x => ?_
    constructor
    · rintro ⟨sub, s, t, rfl, hsub, rfl, hlen, rfl⟩
      exact ⟨s, t, rfl, hsub, hlen, rfl⟩
    · rintro ⟨s, t, rfl, hsub, hlen, rfl⟩
      exact ⟨_, s, t, rfl, hsub, rfl, hlen, rfl⟩
  all_goals exact Read.u32_parses.map _

namespace Operator

theorem readAt_parses (offset : Int) :
    (readAt offset).Parses fun bs op => IsOperator bs op ∧ op.offset = offset := by
  have hbehind : ∀ opcode : UInt8, (readBehind offset opcode).Parses fun bs op =>
      op.opcode = opcode ∧ IsOperator (opcode :: bs) op ∧ op.offset = offset := by
    intro opcode
    unfold readBehind
    split
    · rename_i hnone
      refine Read.throw_parses fun bs op h => ?_
      obtain ⟨hop, ⟨layout, -, hlayout, -⟩, -⟩ := h
      rw [hop, hnone] at hlayout
      cases hlayout
    · rename_i layout hlayout
      refine ((Layout.read_parses offset opcode layout).map _).congr fun bs op => ?_
      constructor
      · rintro ⟨⟨sub, immediate⟩, hform, rfl⟩
        exact ⟨rfl, ⟨layout, bs, hlayout, rfl, hform⟩, rfl⟩
      · rintro ⟨rfl, ⟨layout', behind, hlayout', hbs, hform⟩, rfl⟩
        cases hlayout.symm.trans hlayout'
        cases hbs
        exact ⟨_, hform, rfl⟩
  refine (Read.byte_parses.bind hbehind).congr fun bs op => ?_
  constructor
  · rintro ⟨opcode, s, t, rfl, rfl, -, h⟩
    exact h
  · rintro ⟨⟨layout, behind, hlayout, rfl, hform⟩, hoffset⟩
    exact ⟨op.opcode, [op.opcode], behind, rfl, rfl, rfl, ⟨layout, behind, hlayout, rfl, hform⟩,
      hoffset⟩

/-- **Reading an operator accepts exactly the operators of the grammar.** -/
theorem next_eq_ok_iff {c c' : Cursor} {op : Operator} :
    next c = .ok op c' ↔ ∃ bs, c.Takes bs c' ∧ IsOperator bs op ∧ op.offset = c.position := by
  rw [← readAt_parses c.position c op c']
  constructor
  · exact readAt_of_next
  · intro h
    rw [next, h]

/-- An operator of the grammar is read wherever it stands. -/
theorem next_of_isOperator {bs : Bytes} {op : Operator} (h : IsOperator bs op) {c c' : Cursor}
    (hc : c.Takes bs c') : next c = .ok { op with offset := c.position } c' :=
  next_eq_ok_iff.2 ⟨bs, hc, h, rfl⟩

end Operator

/-! ## Constant expressions -/

/-- How many blocks are open behind an operator inside `depth` open blocks; none if the operator is
the `end` that closes the expression. -/
def Operator.depthAfter (op : Operator) (depth : Nat) : Option Nat :=
  if op.opcode = Opcode.block ∨ op.opcode = Opcode.loop ∨ op.opcode = Opcode.ifThen then
    some (depth + 1)
  else if op.opcode = Opcode.blockEnd then
    match depth with
    | 0 => none
    | depth + 1 => some depth
  else some depth

theorem Operator.depthAfter_offset (op : Operator) (offset : Int) (depth : Nat) :
    ({ op with offset } : Operator).depthAfter depth = op.depthAfter depth := rfl

/-- The bytes are the operators of a constant expression from inside `depth` open blocks on. -/
inductive IsConstExpr : Nat → Bytes → Prop
  | last {depth : Nat} {bs : Bytes} {op : Operator} (hop : IsOperator bs op)
    (hdepth : op.depthAfter depth = none) : IsConstExpr depth bs
  | cons {depth depth' : Nat} {bs rest : Bytes} {op : Operator} (hop : IsOperator bs op)
    (hdepth : op.depthAfter depth = some depth') (hrest : IsConstExpr depth' rest) :
    IsConstExpr depth (bs ++ rest)

/-- Scanning a constant expression, unfolded by one operator. -/
theorem scanConstExpr_eq (depth : Nat) (c : Cursor) :
    scanConstExpr depth c =
      if c.rest.isEmpty then .error (.decode c.position "constant expression missing end") c
      else
        match Operator.next c with
        | .error e c' => .error e c'
        | .ok op c' =>
          match op.depthAfter depth with
          | none => .ok [op] c'
          | some depth' =>
            match scanConstExpr depth' c' with
            | .ok ops c'' => .ok (op :: ops) c''
            | .error e c'' => .error e c'' := by
  rw [scanConstExpr]
  split
  · rfl
  · split
    · rename_i hnext
      rw [hnext]
    · rename_i op c' hnext
      simp only [hnext, Operator.depthAfter]
      split
      · rfl
      · split
        · cases depth <;> rfl
        · rfl

theorem Operator.isEmpty_of_next {c c' : Cursor} {op : Operator} (h : next c = .ok op c') :
    c.rest.isEmpty = false := by
  have hlt := length_lt_of_next h
  rw [List.isEmpty_eq_false_iff, ← List.length_pos_iff]
  omega

/-- **Scanning takes exactly one constant expression.** -/
theorem scanConstExpr_eq_ok_iff {depth : Nat} {c c' : Cursor} :
    (∃ ops, scanConstExpr depth c = .ok ops c') ↔
      ∃ bs, c.Takes bs c' ∧ IsConstExpr depth bs := by
  constructor
  · rintro ⟨ops, h⟩
    induction hlen : c.rest.length using Nat.strongRecOn generalizing c depth ops with
    | ind len ih =>
    rw [scanConstExpr_eq] at h
    split at h
    · cases h
    split at h
    · cases h
    rename_i op c₁ hnext
    obtain ⟨bs, hbs, hop, -⟩ := Operator.next_eq_ok_iff.1 hnext
    have hshort : c₁.rest.length < len := hlen ▸ Operator.length_lt_of_next hnext
    split at h
    · rename_i hdepth
      cases h
      exact ⟨bs, hbs, .last hop hdepth⟩
    · rename_i depth' hdepth
      split at h
      · rename_i ops' c₂ hscan
        cases h
        obtain ⟨rest, hrest, hexpr⟩ := ih _ hshort ops' hscan rfl
        exact ⟨bs ++ rest, hbs.trans hrest, .cons hop hdepth hexpr⟩
      · cases h
  · rintro ⟨bs, hbs, hexpr⟩
    induction hexpr generalizing c with
    | @last depth bs op hop hdepth =>
      have hnext := Operator.next_of_isOperator hop hbs
      rw [scanConstExpr_eq, Operator.isEmpty_of_next hnext, hnext]
      simp only [Operator.depthAfter_offset, hdepth]
      exact ⟨_, rfl⟩
    | @cons depth depth' bs rest op hop hdepth _ ih =>
      obtain ⟨c₁, hfront, hback⟩ := hbs.split
      obtain ⟨ops, hscan⟩ := ih hback
      have hnext := Operator.next_of_isOperator hop hfront
      rw [scanConstExpr_eq, Operator.isEmpty_of_next hnext, hnext]
      simp only [Operator.depthAfter_offset, hdepth, hscan]
      exact ⟨_, rfl⟩

/-- **Reading a constant expression returns the bytes of one**, and where they stand. -/
theorem readConstExpr_eq_ok_iff {c c' : Cursor} {expr : ConstExpr} :
    readConstExpr c = .ok expr c' ↔
      c.Takes expr.bytes c' ∧ IsConstExpr 0 expr.bytes ∧ expr.offset = c.position := by
  have htake : ∀ {bs : Bytes}, c.Takes bs c' →
      c.rest.take (c.rest.length - c'.rest.length) = bs := by
    intro bs hbs
    rw [hbs.rest, List.length_append, Nat.add_sub_cancel, List.take_left]
  unfold readConstExpr
  constructor
  · intro h
    split at h
    · rename_i ops c₁ hscan
      cases h
      obtain ⟨bs, hbs, hexpr⟩ := scanConstExpr_eq_ok_iff.1 ⟨ops, hscan⟩
      rw [htake hbs]
      exact ⟨hbs, hexpr, rfl⟩
    · cases h
  · rintro ⟨hbs, hexpr, hoffset⟩
    obtain ⟨ops, hscan⟩ := scanConstExpr_eq_ok_iff.2 ⟨_, hbs, hexpr⟩
    rw [hscan]
    dsimp only
    rw [htake hbs, ← hoffset]

end WasmUdon
