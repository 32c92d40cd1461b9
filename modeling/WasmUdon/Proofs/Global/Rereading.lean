import WasmUdon.Proofs.Global.Entries
import WasmUdon.Proofs.Lowering.Initializer

/-!
# Initializers are read twice

An initializer is read a first time to find its end, when all bytes of the section that are left lie
ahead, and a second time when it is lowered, when there is nothing but its own bytes. Some operators
compare a count with the number of bytes left, so the two readings do not see the same thing.

`AreOperators` says what both of them read: operators laid end to end, each with the place where it
stands. The first reading takes exactly such operators, up to the one that closes the expression
(`scanConstExpr_eq_ok_iff_areOperators`), and the second one gives exactly such operators, without a
failure (`Operator.readAll_eq_iff_areOperators`). So the two agree whatever stands behind the
initializer, and lowering it never fails because an operator cannot be read
(`GlobalReader.reads_again`).
-/

namespace WasmUdon

/-- The bytes are operators laid end to end from `start` on, each with the place where it stands. -/
inductive AreOperators : Int → Bytes → List Operator → Prop
  | nil (start : Int) : AreOperators start [] []
  | cons {start : Int} {bs rest : Bytes} {op : Operator} {ops : List Operator}
    (hop : IsOperator bs op) (hoffset : op.offset = start)
    (hrest : AreOperators (start + bs.length) rest ops) :
    AreOperators start (bs ++ rest) (op :: ops)

/-- Operators in front of a cursor are taken one by one. -/
theorem exists_takes_areOperators_cons {c c' : Cursor} {op : Operator} {ops : List Operator} :
    (∃ bs, c.Takes bs c' ∧ AreOperators c.position bs (op :: ops)) ↔
      ∃ c₁, Operator.next c = .ok op c₁ ∧
        ∃ rest, c₁.Takes rest c' ∧ AreOperators c₁.position rest ops := by
  constructor
  · rintro ⟨_, hbs, h⟩
    cases h with
    | cons hop hoffset hrest =>
      obtain ⟨c₁, hfront, hback⟩ := hbs.split
      rw [← hfront.position_eq] at hrest
      exact ⟨c₁, Operator.next_eq_ok_iff.2 ⟨_, hfront, hop, hoffset⟩, _, hback, hrest⟩
  · rintro ⟨c₁, hnext, rest, hback, hrest⟩
    obtain ⟨bs, hfront, hop, hoffset⟩ := Operator.next_eq_ok_iff.1 hnext
    rw [hfront.position_eq] at hrest
    exact ⟨bs ++ rest, hfront.trans hback, .cons hop hoffset hrest⟩

/-! ## The first reading -/

theorem scanConstExpr_ne_nil {depth : Nat} {c c' : Cursor} : scanConstExpr depth c ≠ .ok [] c' := by
  intro h
  rw [scanConstExpr_eq] at h
  repeat' split at h
  all_goals cases h

/-- Scanning goes on behind an operator unless the operator closes the expression. -/
theorem scanConstExpr_eq_ok_cons_iff {depth : Nat} {c c' : Cursor} {op : Operator}
    {ops : List Operator} :
    scanConstExpr depth c = .ok (op :: ops) c' ↔ ∃ c₁, Operator.next c = .ok op c₁ ∧
      match op.depthAfter depth with
      | none => ops = [] ∧ c₁ = c'
      | some depth' => scanConstExpr depth' c₁ = .ok ops c' := by
  rw [scanConstExpr_eq]
  constructor
  · intro h
    split at h
    · cases h
    split at h
    · cases h
    rename_i op' c₁ hnext
    split at h
    · rename_i hdepth
      cases h
      refine ⟨_, hnext, ?_⟩
      rw [hdepth]
      exact ⟨rfl, rfl⟩
    · rename_i depth' hdepth
      split at h
      · rename_i ops' c₂ hscan
        cases h
        refine ⟨c₁, hnext, ?_⟩
        rw [hdepth]
        exact hscan
      · cases h
  · rintro ⟨c₁, hnext, h⟩
    rw [Operator.isEmpty_of_next hnext, hnext]
    cases hdepth : op.depthAfter depth with
    | none =>
      rw [hdepth] at h
      obtain ⟨rfl, rfl⟩ := h
      simp [hdepth]
    | some depth' =>
      rw [hdepth] at h
      simp [hdepth, h]

/-- **Scanning takes exactly the operators of one expression**, whatever stands behind them. -/
theorem scanConstExpr_eq_ok_iff_areOperators {depth : Nat} {c c' : Cursor} {ops : List Operator} :
    scanConstExpr depth c = .ok ops c' ↔
      ClosesAtLast depth ops ∧ ∃ bs, c.Takes bs c' ∧ AreOperators c.position bs ops := by
  induction ops generalizing depth c with
  | nil => exact iff_of_false scanConstExpr_ne_nil fun h => h.1.1 rfl
  | cons op ops ih =>
    rw [scanConstExpr_eq_ok_cons_iff, closesAtLast_cons, exists_takes_areOperators_cons]
    cases op.depthAfter depth with
    | none =>
      constructor
      · rintro ⟨c₁, hnext, rfl, rfl⟩
        exact ⟨rfl, c₁, hnext, [], .refl c₁, .nil _⟩
      · rintro ⟨rfl, c₁, hnext, rest, hrest, hnil⟩
        cases hnil
        exact ⟨c₁, hnext, rfl, hrest.eq_of_nil.symm⟩
    | some depth' =>
      simp only [ih]
      constructor
      · rintro ⟨c₁, hnext, hcloses, hrest⟩
        exact ⟨hcloses, c₁, hnext, hrest⟩
      · rintro ⟨hcloses, c₁, hnext, hrest⟩
        exact ⟨c₁, hnext, hcloses, hrest⟩

/-! ## The second reading -/

namespace Operator

theorem readAll_eq_nil_iff {c : Cursor} : readAll c = ([], none) ↔ c.rest = [] := by
  rw [readAll_eq]
  constructor
  · intro h
    split at h
    · rename_i hempty
      exact List.isEmpty_iff.1 hempty
    · split at h <;> cases h
  · intro h
    rw [h]
    rfl

theorem readAll_eq_cons_iff {c : Cursor} {op : Operator} {ops : List Operator} :
    readAll c = (op :: ops, none) ↔ ∃ c₁, next c = .ok op c₁ ∧ readAll c₁ = (ops, none) := by
  constructor
  · intro h
    rw [readAll_eq] at h
    split at h
    · cases h
    split at h
    · cases h
    · rename_i op' c₁ hnext
      obtain ⟨hops, hnone⟩ := Prod.mk.inj h
      obtain ⟨rfl, rfl⟩ := List.cons.inj hops
      exact ⟨c₁, hnext, Prod.ext rfl hnone⟩
  · rintro ⟨c₁, hnext, hrest⟩
    rw [readAll_of_next hnext, hrest]

/-- **Reading operators to the end of the bytes gives exactly the operators that are there**, if
there is nothing else. -/
theorem readAll_eq_iff_areOperators {c : Cursor} {ops : List Operator} :
    readAll c = (ops, none) ↔
      ∃ c', (∃ bs, c.Takes bs c' ∧ AreOperators c.position bs ops) ∧ c'.rest = [] := by
  induction ops generalizing c with
  | nil =>
    rw [readAll_eq_nil_iff]
    constructor
    · intro h
      exact ⟨c, ⟨[], .refl c, .nil _⟩, h⟩
    · rintro ⟨c', ⟨_, hbs, hnil⟩, hend⟩
      cases hnil
      rw [← hbs.eq_of_nil, hend]
  | cons op ops ih =>
    simp only [readAll_eq_cons_iff, exists_takes_areOperators_cons, ih]
    constructor
    · rintro ⟨c₁, hnext, c', hrest, hend⟩
      exact ⟨c', ⟨c₁, hnext, hrest⟩, hend⟩
    · rintro ⟨c', ⟨c₁, hnext, hrest⟩, hend⟩
      exact ⟨c₁, hnext, c', hrest, hend⟩

/-- Operators are read from their own bytes. -/
theorem readAll_of_areOperators {offset : Int} {bs : Bytes} {ops : List Operator}
    (h : AreOperators offset bs ops) : readAll (.ofBytes bs offset) = (ops, none) := by
  have hplace : (Cursor.ofBytes bs offset).position = offset := Int.add_zero _
  have hall : (Cursor.ofBytes bs offset).Takes bs ⟨offset, bs.length, []⟩ :=
    ⟨rfl, (List.append_nil _).symm, (Nat.zero_add _).symm⟩
  refine readAll_eq_iff_areOperators.2 ⟨_, ⟨bs, hall, ?_⟩, rfl⟩
  rw [hplace]
  exact h

end Operator

/-! ## Both readings -/

/-- An entry that was read is a type and an initializer behind it. -/
theorem GlobalReader.exists_readConstExpr_of_read {g g' : GlobalReader} {entry : GlobalEntry}
    (h : g.read = (.ok entry, g')) :
    ∃ c, readGlobalType g.cursor = .ok entry.type c ∧
      readConstExpr c = .ok entry.init g'.cursor := by
  unfold read at h
  split at h
  · split at h
    · rename_i hentry
      cases h
      obtain ⟨type, c, htype, hrest⟩ := Read.bind_eq_ok_iff.1 hentry
      obtain ⟨init, c₁, hinit, hpure⟩ := Read.bind_eq_ok_iff.1 hrest
      cases hpure
      exact ⟨c, htype, hinit⟩
    · cases h
  · cases h

/-- Lowering an initializer whose operators can all be read fails because of an operator that cannot
be lowered, or because of what the operators leave. -/
theorem ConstExpr.error_of_lower {expr : ConstExpr} {ops : List Operator}
    (hread : Operator.readAll (.ofBytes expr.bytes expr.offset) = (ops, none)) {env : GlobalEnv}
    {index : Nat} {name : Bytes} {type : AsmType} {e : Error}
    (h : expr.lower env index name type = .error e) :
    InitState.operators env index {} ops = .error e ∨
      ∃ s, InitState.operators env index {} ops = .ok s ∧
        ((∃ found, e = expr.typeError found type) ∨
          s.stack.length ≠ 1 ∧ e = .decode expr.offset ("initializer leaves "
            ++ toString s.stack.length ++ " values, want 1")) := by
  unfold lower at h
  rw [hread] at h
  dsimp only at h
  split at h
  · rename_i hops
    cases h
    exact .inl hops
  · rename_i hsome
    cases hsome
  rename_i s hs _
  refine .inr ⟨s, hs, ?_⟩
  split at h
  · split at h
    · cases h
    · cases h
      exact .inl ⟨_, rfl⟩
  · split at h
    · cases h
    · cases h
      exact .inl ⟨_, rfl⟩
  · rename_i hstack
    have hnot := InitState.destination_notMem_of_operators hs
    rw [hstack] at hnot
    exact absurd List.mem_cons_self hnot
  · rename_i hconstant hreference hdestination
    cases h
    refine .inr ⟨fun hlen => ?_, rfl⟩
    obtain ⟨value, hstack⟩ := List.length_eq_one_iff.1 hlen
    cases value with
    | constant value => exact hconstant value hstack
    | reference type => exact hreference type hstack
    | destination => exact hdestination hstack

/-- **An initializer is read again as it was read.** The operators that were read to find the end
of an entry, up to the `end` that closes no block, are read again from the bytes of the initializer
alone: all of them, with the same immediates and at the same places, and without a failure. Nor do
they depend on what stands behind the initializer. So lowering it fails because of an operator that
cannot be lowered or because of what the operators leave, never because of one that cannot be
read. -/
theorem GlobalReader.reads_again {g g' : GlobalReader} {entry : GlobalEntry}
    (h : g.read = (.ok entry, g')) :
    ∃ c ops, readGlobalType g.cursor = .ok entry.type c ∧
      scanConstExpr 0 c = .ok ops g'.cursor ∧ ClosesAtLast 0 ops ∧
      Operator.readAll (.ofBytes entry.init.bytes entry.init.offset) = (ops, none) ∧
      (∀ d d' : Cursor, d.Takes entry.init.bytes d' → d.position = entry.init.offset →
        scanConstExpr 0 d = .ok ops d') ∧
      ∀ env index name type e, entry.init.lower env index name type = .error e →
        InitState.operators env index {} ops = .error e ∨
          ∃ s, InitState.operators env index {} ops = .ok s ∧
            ((∃ found, e = entry.init.typeError found type) ∨
              s.stack.length ≠ 1 ∧ e = .decode entry.init.offset ("initializer leaves "
                ++ toString s.stack.length ++ " values, want 1")) := by
  obtain ⟨c, htype, hinit⟩ := exists_readConstExpr_of_read h
  obtain ⟨hbs, hconst, hoffset⟩ := readConstExpr_eq_ok_iff.1 hinit
  obtain ⟨ops, hscan⟩ := scanConstExpr_eq_ok_iff.2 ⟨_, hbs, hconst⟩
  obtain ⟨hcloses, bs, hbs', hops⟩ := scanConstExpr_eq_ok_iff_areOperators.1 hscan
  cases hbs'.bytes_unique hbs
  rw [← hoffset] at hops
  have hread := Operator.readAll_of_areOperators hops
  refine ⟨c, ops, htype, hscan, hcloses, hread, ?_, ?_⟩
  · intro d d' hd hplace
    rw [← hplace] at hops
    exact scanConstExpr_eq_ok_iff_areOperators.2 ⟨hcloses, _, hd, hops⟩
  · intro env index name type e herror
    exact ConstExpr.error_of_lower hread herror

/-- An initializer with a table of labels inside a block, in front of another entry: behind the
count of the table lie eleven bytes when it is read first, and six when it is read again. -/
theorem reads_again_labelTable :
    let v : EntryVector :=
      { count := 2
        bytes := [0x7F, 0, 0x02, 0x40, 0x41, 0, 0x0E, 1, 0, 0, 0x0B, 0x41, 7, 0x0B,
          0x7F, 0, 0x41, 1, 0x0B]
        offset := 30 }
    ∃ entry g ops, (GlobalReader.ofVector v).read = (.ok entry, g) ∧
      g.cursor.rest = [0x7F, 0, 0x41, 1, 0x0B] ∧
      Operator.readAll (.ofBytes entry.init.bytes entry.init.offset) = (ops, none) ∧
      ClosesAtLast 0 ops ∧ ops.length = 6 := by
  intro v
  let entry : GlobalEntry :=
    { type := { type := .i32 }
      init :=
        { bytes := [0x02, 0x40, 0x41, 0, 0x0E, 1, 0, 0, 0x0B, 0x41, 7, 0x0B], offset := 32 } }
  have h : (GlobalReader.ofVector v).read =
      (.ok entry, { cursor := ⟨30, 14, [0x7F, 0, 0x41, 1, 0x0B]⟩, count := 2, index := 1 }) := by
    decide +kernel
  obtain ⟨c, ops, -, -, hcloses, hread, -⟩ := GlobalReader.reads_again h
  have hlen : (Operator.readAll (.ofBytes entry.init.bytes entry.init.offset)).1.length = 6 := by
    decide +kernel
  rw [hread] at hlen
  exact ⟨entry, _, ops, h, rfl, hread, hcloses, hlen⟩

end WasmUdon
