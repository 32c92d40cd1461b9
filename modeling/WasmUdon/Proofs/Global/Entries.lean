import WasmUdon.Proofs.Lowering.Section
import WasmUdon.Proofs.Operator.Grammar
import WasmUdon.Proofs.Operator.Written

/-!
# The grammar of the global section

What the entries of a global section look like, as relations that say nothing about how entries are
read:

* `ClosesAtLast` singles out the operators of an expression: the last one is an `end` with no block
  open in front of it, and no other one is;
* `IsGlobalType` puts a value type, its heap type and the mutability flag one after the other;
* `IsGlobal` puts an expression behind them, and says where it starts;
* `AreGlobals` lays entries end to end, each starting where the one before ends.

An entry does not say how long it is. It is found by scanning operators with a count of the open
blocks, and this takes exactly one expression (`isConstExpr_iff`). Reading entries one by one then
takes exactly entries of the grammar (`GlobalReader.readMany_eq_ok_iff`), and a section is read to
its end exactly if it is made of them (`EntryVector.globals_read_iff`).
-/

namespace WasmUdon

/-! ## Expressions -/

namespace Operator

/-- Whether the operator opens a block. -/
def opensBlock (op : Operator) : Bool :=
  op.opcode = Opcode.block ∨ op.opcode = Opcode.loop ∨ op.opcode = Opcode.ifThen

/-- Whether the operator closes a block, or the expression. -/
def isEnd (op : Operator) : Bool := op.opcode = Opcode.blockEnd

theorem isEnd_of_opensBlock {op : Operator} (h : op.opensBlock) : op.isEnd = false := by
  have hop : op.opcode = Opcode.block ∨ op.opcode = Opcode.loop ∨ op.opcode = Opcode.ifThen :=
    of_decide_eq_true h
  rcases hop with hop | hop | hop <;> rw [isEnd, hop] <;> rfl

end Operator

/-- How many more blocks the operators open than they close. -/
def openBlocks (ops : List Operator) : Int :=
  (ops.countP Operator.opensBlock : Int) - ops.countP Operator.isEnd

theorem openBlocks_nil : openBlocks [] = 0 := rfl

theorem openBlocks_cons (op : Operator) (ops : List Operator) :
    openBlocks (op :: ops) = openBlocks [op] + openBlocks ops := by
  simp only [openBlocks, List.countP_cons, List.countP_nil]
  omega

/-- Behind `depth` open blocks, the last operator is the only `end` with no block open in front of
it. -/
def ClosesAtLast (depth : Nat) (ops : List Operator) : Prop :=
  ops ≠ [] ∧ ∀ front op back, ops = front ++ op :: back →
    (op.isEnd ∧ depth + openBlocks front = 0 ↔ back = [])

/-- The bytes are an expression: operators up to the `end` that closes no block. -/
def IsExpression (bs : Bytes) : Prop := ∃ ops, AreItems IsOperator bs ops ∧ ClosesAtLast 0 ops

/-- **The scan counts open blocks**: it stops at an `end` with no block open, and its depth behind
any other operator is the number of blocks open there. -/
theorem Operator.depthAfter_spec (op : Operator) (depth : Nat) :
    match op.depthAfter depth with
    | none => op.isEnd ∧ depth = 0
    | some depth' => ¬ (op.isEnd ∧ depth = 0) ∧ (depth' : Int) = depth + openBlocks [op] := by
  have hopens : (op.opcode = Opcode.block ∨ op.opcode = Opcode.loop ∨ op.opcode = Opcode.ifThen) ↔
      op.opensBlock := decide_eq_true_iff.symm
  have hend : op.opcode = Opcode.blockEnd ↔ op.isEnd := decide_eq_true_iff.symm
  simp only [depthAfter, hopens, hend]
  by_cases hop : op.opensBlock
  · simp [hop, isEnd_of_opensBlock hop, openBlocks]
  · by_cases hop' : op.isEnd
    · cases depth <;> simp [hop, hop', openBlocks]
    · simp [hop, hop', openBlocks]

/-- What is asked of the first operator, and of those behind it. -/
theorem closesAtLast_cons_iff {depth : Nat} {op : Operator} {ops : List Operator} :
    ClosesAtLast depth (op :: ops) ↔
      (op.isEnd ∧ depth = 0 ↔ ops = []) ∧ ∀ front op' back, ops = front ++ op' :: back →
        (op'.isEnd ∧ depth + openBlocks (op :: front) = 0 ↔ back = []) := by
  constructor
  · rintro ⟨-, h⟩
    refine ⟨?_, fun front op' back hops => h (op :: front) op' back (by rw [hops]; rfl)⟩
    simpa [openBlocks_nil] using h [] op ops rfl
  · rintro ⟨hfirst, hrest⟩
    refine ⟨List.cons_ne_nil _ _, fun front op' back hops => ?_⟩
    cases front with
    | nil =>
      cases hops
      simpa [openBlocks_nil] using hfirst
    | cons op₁ front =>
      cases hops
      exact hrest front op' back rfl

/-- An expression goes on behind an operator unless the operator closes it. -/
theorem closesAtLast_cons {depth : Nat} {op : Operator} {ops : List Operator} :
    ClosesAtLast depth (op :: ops) ↔
      match op.depthAfter depth with
      | none => ops = []
      | some depth' => ClosesAtLast depth' ops := by
  have hspec := op.depthAfter_spec depth
  rw [closesAtLast_cons_iff]
  split at hspec
  · constructor
    · intro h
      exact h.1.1 hspec
    · rintro rfl
      exact ⟨iff_of_true hspec rfl, fun front op' back hops => by simp at hops⟩
  · rename_i depth' _
    have hdepth (front : List Operator) :
        (depth : Int) + openBlocks (op :: front) = depth' + openBlocks front := by
      rw [openBlocks_cons, hspec.2, Int.add_assoc]
    simp only [hdepth]
    exact and_congr_left' (iff_false_left hspec.1)

/-- **A scanned expression is a sequence of operators closed at its last one**, and only there. -/
theorem isConstExpr_iff {depth : Nat} {bs : Bytes} :
    IsConstExpr depth bs ↔ ∃ ops, AreItems IsOperator bs ops ∧ ClosesAtLast depth ops := by
  constructor
  · intro h
    induction h with
    | @last depth bs op hop hdepth =>
      have hnil : AreItems IsOperator [] [] := areItems_nil.2 rfl
      refine ⟨[op], areItems_cons.2 ⟨bs, [], (List.append_nil bs).symm, hop, hnil⟩, ?_⟩
      rw [closesAtLast_cons, hdepth]
    | @cons depth depth' bs rest op hop hdepth _ ih =>
      obtain ⟨ops, hops, hcloses⟩ := ih
      refine ⟨op :: ops, areItems_cons.2 ⟨bs, rest, rfl, hop, hops⟩, ?_⟩
      rw [closesAtLast_cons, hdepth]
      exact hcloses
  · rintro ⟨ops, hops, hcloses⟩
    induction ops generalizing bs depth with
    | nil => exact absurd rfl hcloses.1
    | cons op ops ih =>
      obtain ⟨s, t, rfl, hop, hops⟩ := areItems_cons.1 hops
      rw [closesAtLast_cons] at hcloses
      split at hcloses
      · rename_i hdepth
        subst hcloses
        rw [areItems_nil.1 hops, List.append_nil]
        exact .last hop hdepth
      · rename_i depth' hdepth
        exact .cons hop hdepth (ih hops hcloses)

/-! ## Entries -/

/-- The bytes are what stands between a value type and the flag: a heap type behind a typed
reference, and nothing behind any other value type. -/
def IsHeapType (code : UInt8) (bs : Bytes) : Option Int → Prop
  | some n => (code = 0x63 ∨ code = 0x64) ∧ IsSigned 33 n bs
  | none => ¬ (code = 0x63 ∨ code = 0x64) ∧ bs = []

/-- The bytes are the type of a global. -/
def IsGlobalType (bs : Bytes) (t : GlobalType) : Prop :=
  ∃ heap, bs = t.type.code :: heap ++ [if t.isMutable then 1 else 0] ∧
    IsHeapType t.type.code heap t.heapType

/-- The bytes are an entry found at `start`. -/
inductive IsGlobal (start : Int) : Bytes → GlobalEntry → Prop
  | mk {front expr : Bytes} {type : GlobalType} (htype : IsGlobalType front type)
    (hexpr : IsExpression expr) :
    IsGlobal start (front ++ expr)
      { type, init := { bytes := expr, offset := start + front.length } }

/-- The bytes are entries laid end to end from `start` on. -/
inductive AreGlobals : Int → Bytes → List GlobalEntry → Prop
  | nil (start : Int) : AreGlobals start [] []
  | cons {start : Int} {bs rest : Bytes} {entry : GlobalEntry} {entries : List GlobalEntry}
    (h : IsGlobal start bs entry) (hrest : AreGlobals (start + bs.length) rest entries) :
    AreGlobals start (bs ++ rest) (entry :: entries)

theorem ValueType.hasHeapType_iff (t : ValueType) :
    t.hasHeapType ↔ t.code = 0x63 ∨ t.code = 0x64 := by
  cases t <;> decide

/-- Looking at the position takes no bytes. -/
theorem Read.position_bind_parses {α : Type} {f : Int → Read α} {G : Bytes → α → Prop}
    (hf : ∀ position, (f position).Parses G) : (position >>= f).Parses G := by
  intro c a c'
  rw [position_bind]
  exact hf c.position c a c'

theorem readGlobalType_parses : readGlobalType.Parses IsGlobalType := by
  have hcode : ∀ {code : UInt8} {bs : Bytes} {t : GlobalType}, IsGlobalType (code :: bs) t →
      t.type.code = code := by
    rintro code bs t ⟨heap, heq, -⟩
    exact (List.cons.inj heq).1.symm
  refine Read.position_bind_parses fun start => (Read.byte_parses.bind
    (H := fun code bs t => IsGlobalType (code :: bs) t) fun code => ?_).congr fun bs t => ?_
  · split
    · rename_i hnone
      refine Read.throw_parses fun bs t h => ?_
      rw [← hcode h, ValueType.ofCode?_code] at hnone
      cases hnone
    · rename_i type hsome
      obtain rfl := ValueType.code_of_ofCode? hsome
      split
      all_goals
        rename_i htype
        rw [ValueType.hasHeapType_iff] at htype
        refine (Read.Parses.bind (G := IsHeapType type.code) ?_ fun heapType =>
          Read.position_bind_parses fun position => Read.byte_parses.bind
            (H := fun flag bs (t : GlobalType) => bs = [] ∧ flag = (if t.isMutable then 1 else 0) ∧
              t.type = type ∧ t.heapType = heapType) fun flag => ?_).congr fun bs t => ?_
      -- the heap type, then the flag, then the two put together
      case isTrue.refine_1 =>
        refine ((Read.signed_parses 33).map some).congr fun bs heapType => ?_
        cases heapType <;> simp [IsHeapType, htype]
      case isFalse.refine_1 =>
        refine (Read.Parses.pure none).congr fun bs heapType => ?_
        cases heapType <;> simp [IsHeapType, htype]
      case isTrue.refine_2 | isFalse.refine_2 =>
        split
        · refine (Read.Parses.pure _).congr fun bs t => ?_
          obtain ⟨type', heapType', _ | _⟩ := t <;> simp
        · refine (Read.Parses.pure _).congr fun bs t => ?_
          obtain ⟨type', heapType', _ | _⟩ := t <;> simp
        · rename_i hzero hone
          refine Read.throw_parses fun bs t h => ?_
          obtain ⟨-, hflag, -⟩ := h
          split at hflag
          · exact hone hflag
          · exact hzero hflag
      case isTrue.refine_3 | isFalse.refine_3 =>
        constructor
        · rintro ⟨heapType, heap, _, rfl, hheap, flag, _, _, rfl, rfl, rfl, rfl, rfl, rfl⟩
          exact ⟨heap, rfl, hheap⟩
        · intro h
          rw [← hcode h, ValueType.ofCode?_code] at hsome
          cases hsome
          obtain ⟨heap, heq, hheap⟩ := h
          exact ⟨_, heap, _, (List.cons.inj heq).2, hheap, _, _, [], rfl, rfl, rfl, rfl, rfl, rfl⟩
  · constructor
    · rintro ⟨code, s, t', rfl, rfl, h⟩
      exact h
    · intro h
      obtain ⟨heap, rfl, hheap⟩ := h
      exact ⟨t.type.code, [t.type.code], _, rfl, rfl, heap, rfl, hheap⟩

theorem readGlobalEntry_eq_ok_iff {c c' : Cursor} {entry : GlobalEntry} :
    readGlobalEntry c = .ok entry c' ↔ ∃ bs, c.Takes bs c' ∧ IsGlobal c.position bs entry := by
  rw [readGlobalEntry, Read.bind_eq_ok_iff]
  constructor
  · rintro ⟨type, c₁, htype, h⟩
    obtain ⟨init, c₂, hinit, h⟩ := Read.bind_eq_ok_iff.1 h
    cases h
    obtain ⟨front, hfront, htype⟩ := (readGlobalType_parses _ _ _).1 htype
    obtain ⟨hexpr, hconst, hoffset⟩ := readConstExpr_eq_ok_iff.1 hinit
    obtain ⟨expr, offset⟩ := init
    rw [hfront.position_eq] at hoffset
    subst hoffset
    exact ⟨front ++ expr, hfront.trans hexpr, .mk htype (isConstExpr_iff.1 hconst)⟩
  · rintro ⟨bs, hbs, h⟩
    cases h with
    | @mk front expr type htype hexpr =>
      obtain ⟨c₁, hfront, hback⟩ := hbs.split
      have hinit : readConstExpr c₁ =
          .ok { bytes := expr, offset := c.position + front.length } c' :=
        readConstExpr_eq_ok_iff.2 ⟨hback, isConstExpr_iff.2 hexpr, hfront.position_eq.symm⟩
      refine ⟨type, c₁, (readGlobalType_parses _ _ _).2 ⟨front, hfront, htype⟩, ?_⟩
      exact Read.bind_eq_ok_iff.2 ⟨_, c', hinit, rfl⟩

/-! ## Sections -/

namespace GlobalReader

/-- A step of the reader takes one entry. -/
theorem read_eq_ok_iff {g g' : GlobalReader} {entry : GlobalEntry} :
    g.read = (.ok entry, g') ↔ g.index < g.count.toNat ∧ ∃ bs cursor, g.cursor.Takes bs cursor ∧
      IsGlobal g.cursor.position bs entry ∧ g' = { g with cursor, index := g.index + 1 } := by
  constructor
  · intro h
    unfold read at h
    split at h
    · rename_i hmore
      split at h
      · rename_i entry' cursor hread
        cases h
        obtain ⟨bs, hbs, hentry⟩ := readGlobalEntry_eq_ok_iff.1 hread
        exact ⟨of_decide_eq_true hmore, bs, cursor, hbs, hentry, rfl⟩
      · cases h
    · cases h
  · rintro ⟨hmore, bs, cursor, hbs, hentry, rfl⟩
    have hread := readGlobalEntry_eq_ok_iff.2 ⟨bs, hbs, hentry⟩
    rw [read, hasMore, decide_eq_true hmore, if_pos rfl, hread]

/-- **A run of the reader takes entries laid end to end.** -/
theorem readMany_eq_ok_iff {n : Nat} {g g' : GlobalReader} {entries : List GlobalEntry}
    (hcount : g.index + n ≤ g.count.toNat) :
    readMany n g = .ok (entries, g') ↔ entries.length = n ∧
      ∃ bs cursor, g.cursor.Takes bs cursor ∧ AreGlobals g.cursor.position bs entries ∧
        g' = { g with cursor, index := g.index + n } := by
  induction n generalizing g entries with
  | zero =>
    constructor
    · intro h
      cases h
      exact ⟨rfl, [], _, .refl _, .nil _, rfl⟩
    · rintro ⟨hlen, bs, cursor, hbs, hentries, rfl⟩
      obtain rfl := List.eq_nil_of_length_eq_zero hlen
      cases hentries
      rw [hbs.eq_of_nil]
      rfl
  | succ n ih =>
    rw [← Nat.add_assoc, Nat.add_right_comm] at hcount ⊢
    constructor
    · intro h
      unfold readMany at h
      split at h
      · cases h
      rename_i entry g₁ hread
      split at h
      · cases h
      rename_i entries' g₂ hmany
      cases h
      obtain ⟨-, bs, c₁, hbs, hentry, rfl⟩ := read_eq_ok_iff.1 hread
      obtain ⟨hlen, rest, c₂, hrest, hentries, rfl⟩ := (ih hcount).1 hmany
      rw [hbs.position_eq] at hentries
      exact ⟨by rw [List.length_cons, hlen], bs ++ rest, c₂, hbs.trans hrest,
        .cons hentry hentries, rfl⟩
    · rintro ⟨hlen, bs, c₂, hbs, hentries, rfl⟩
      cases hentries with
      | nil => cases hlen
      | @cons _ bs rest entry entries hentry hentries =>
        obtain ⟨c₁, hfront, hback⟩ := hbs.split
        have hread := read_eq_ok_iff.2 ⟨by omega, bs, c₁, hfront, hentry, rfl⟩
        rw [← hfront.position_eq] at hentries
        have hmany := (ih (g := { g with cursor := c₁, index := g.index + 1 }) hcount).2
          ⟨Nat.succ.inj hlen, rest, c₂, hback, hentries, rfl⟩
        rw [readMany]
        simp only [hread, hmany]

theorem finish_eq_ok_iff {g : GlobalReader} :
    g.finish = .ok () ↔ g.count.toNat ≤ g.index ∧ g.cursor.rest = [] := by
  have hmore : g.hasMore = false ↔ g.count.toNat ≤ g.index := by simp [hasMore]
  rw [← hmore, finish]
  cases g.hasMore with
  | true => simp
  | false => simp

end GlobalReader

/-- **A global section is read to its end exactly if it is made of as many entries as it counts**,
and the entries that are read are those that it is made of, each with its own bytes and the place
where they stand. -/
theorem EntryVector.globals_read_iff (v : EntryVector) (entries : List GlobalEntry) :
    (∃ g, GlobalReader.readMany v.count.toNat (.ofVector v) = .ok (entries, g) ∧
        g.finish = .ok ()) ↔
      entries.length = v.count.toNat ∧ AreGlobals v.offset v.bytes entries := by
  have hcount : (GlobalReader.ofVector v).index + v.count.toNat ≤
      (GlobalReader.ofVector v).count.toNat := Nat.le_of_eq (Nat.zero_add _)
  have hstart : (GlobalReader.ofVector v).cursor.position = v.offset := Int.add_zero _
  simp only [GlobalReader.readMany_eq_ok_iff hcount, hstart]
  constructor
  · rintro ⟨g, ⟨hlen, bs, cursor, hbs, hentries, rfl⟩, hfinish⟩
    have hall : v.bytes = bs ++ cursor.rest := hbs.rest
    rw [(GlobalReader.finish_eq_ok_iff.1 hfinish).2, List.append_nil] at hall
    exact ⟨hlen, hall ▸ hentries⟩
  · rintro ⟨hlen, hentries⟩
    let stop : Cursor := ⟨v.offset, v.bytes.length, []⟩
    have hbs : (GlobalReader.ofVector v).cursor.Takes v.bytes stop :=
      ⟨rfl, (List.append_nil _).symm, (Nat.zero_add _).symm⟩
    refine ⟨_, ⟨hlen, v.bytes, stop, hbs, hentries, rfl⟩, ?_⟩
    exact GlobalReader.finish_eq_ok_iff.2 ⟨Nat.le_of_eq (Nat.zero_add _).symm, rfl⟩

end WasmUdon
