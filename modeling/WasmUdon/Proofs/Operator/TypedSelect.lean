import WasmUdon.Proofs.Global.Entries

/-!
# The value types of a typed select

Value types are read in two places: in front of the flag in the type of a global, and in the vector
behind a typed select. A value type is one byte, but a typed reference is followed by a heap type.
The type of a global knows this (`isValueType_iff`); a typed select takes one byte for each of its
types, whatever the byte is (`Operator.next_typedSelect_iff`).

So a typed select is what it should be, a vector of value types, exactly if all of its bytes are
value types that no heap type follows (`Operator.selectsValueTypes_iff`). Where a byte is no value
type at all, it is taken all the same; where a byte announces a heap type, the operator ends too
early and the heap type is left to be read as an operator.
-/

namespace WasmUdon

/-! ## Value types -/

/-- The bytes are a value type: reading the type of a global takes them and the flag behind them,
and gives that type. -/
def IsValueType (bs : Bytes) (t : GlobalType) : Prop := readGlobalType.Yields (bs ++ [0]) t

/-- The byte is a value type that no heap type follows. -/
def IsPlainType (b : UInt8) : Prop :=
  ∃ type, ValueType.ofCode? b = some type ∧ type.hasHeapType = false

/-- **A value type is its byte, and a heap type behind a typed reference.** -/
theorem isValueType_iff {bs : Bytes} {t : GlobalType} :
    IsValueType bs t ↔ t.isMutable = false ∧
      ∃ heap, bs = t.type.code :: heap ∧ IsHeapType t.type.code heap t.heapType := by
  rw [IsValueType, readGlobalType_parses.yields_iff]
  constructor
  · rintro ⟨heap, heq, hheap⟩
    obtain ⟨hbs, hflag⟩ := List.append_inj' heq rfl
    refine ⟨?_, heap, hbs, hheap⟩
    cases hmut : t.isMutable with
    | false => rfl
    | true =>
      rw [hmut] at hflag
      cases hflag
  · rintro ⟨hmut, heap, rfl, hheap⟩
    refine ⟨heap, ?_, hheap⟩
    rw [hmut]
    rfl

theorem IsValueType.ne_nil {bs : Bytes} {t : GlobalType} (h : IsValueType bs t) : bs ≠ [] := by
  obtain ⟨-, heap, rfl, -⟩ := isValueType_iff.1 h
  exact List.cons_ne_nil _ _

theorem isPlainType_code {type : ValueType} :
    IsPlainType type.code ↔ ¬ (type.code = 0x63 ∨ type.code = 0x64) := by
  rw [← ValueType.hasHeapType_iff, IsPlainType, Bool.not_eq_true]
  constructor
  · rintro ⟨type', htype, hplain⟩
    rw [ValueType.ofCode?_code] at htype
    cases htype
    exact hplain
  · exact fun hplain => ⟨type, ValueType.ofCode?_code type, hplain⟩

/-- A value type starts with the byte of a plain type exactly if it is no more than that byte. -/
theorem IsValueType.plain_iff {b : UInt8} {heap : Bytes} {t : GlobalType}
    (h : IsValueType (b :: heap) t) : IsPlainType b ↔ heap = [] := by
  obtain ⟨-, heap', heq, hheap⟩ := isValueType_iff.1 h
  obtain ⟨rfl, rfl⟩ := List.cons.inj heq
  rw [isPlainType_code]
  cases ht : t.heapType with
  | none =>
    rw [ht] at hheap
    exact iff_of_true hheap.1 hheap.2
  | some n =>
    rw [ht] at hheap
    exact iff_of_false (fun hb => hb hheap.1) hheap.2.groups.ne_nil

theorem IsPlainType.isValueType {b : UInt8} (hb : IsPlainType b) : ∃ t, IsValueType [b] t := by
  obtain ⟨type, htype, hplain⟩ := hb
  obtain rfl := ValueType.code_of_ofCode? htype
  have hcode := isPlainType_code.1 ⟨type, htype, hplain⟩
  exact ⟨{ type }, isValueType_iff.2 ⟨rfl, [], rfl, hcode, rfl⟩⟩

/-! ## Value types laid end to end -/

/-- Plain types are value types, one for each byte. -/
theorem areItems_of_plain {bs : Bytes} (h : ∀ b ∈ bs, IsPlainType b) :
    ∃ types, types.length = bs.length ∧ AreItems IsValueType bs types := by
  induction bs with
  | nil => exact ⟨[], rfl, areItems_nil.2 rfl⟩
  | cons b bs ih =>
    obtain ⟨hb, hbs⟩ := List.forall_mem_cons.1 h
    obtain ⟨t, ht⟩ := hb.isValueType
    obtain ⟨types, hlen, htypes⟩ := ih hbs
    refine ⟨t :: types, ?_, areItems_cons.2 ⟨[b], bs, rfl, ht, htypes⟩⟩
    rw [List.length_cons, List.length_cons, hlen]

/-- Value types that are as many as their bytes are plain. -/
theorem AreItems.plain_of_length_eq {bs : Bytes} {types : List GlobalType}
    (h : AreItems IsValueType bs types) (hlen : bs.length = types.length) :
    ∀ b ∈ bs, IsPlainType b := by
  induction types generalizing bs with
  | nil =>
    rw [areItems_nil.1 h]
    exact List.forall_mem_nil _
  | cons t types ih =>
    obtain ⟨front, back, rfl, ht, htypes⟩ := areItems_cons.1 h
    have hback := htypes.length_le fun _ _ => IsValueType.ne_nil
    obtain ⟨b, heap, rfl⟩ := List.exists_cons_of_ne_nil ht.ne_nil
    simp only [List.length_append, List.length_cons] at hlen
    -- every value type takes a byte, so that none is left for a heap type
    have hheap : heap = [] := List.eq_nil_of_length_eq_zero (by omega)
    subst hheap
    have hlen' : back.length = types.length := by
      rw [List.length_nil] at hlen
      omega
    exact List.forall_mem_cons.2 ⟨ht.plain_iff.2 rfl, ih htypes hlen'⟩

/-- Value types are as many as their bytes if as many bytes in front are plain types. -/
theorem AreItems.length_eq_of_plain {bs : Bytes} {types : List GlobalType}
    (h : AreItems IsValueType bs types) (hplain : ∀ b ∈ bs.take types.length, IsPlainType b) :
    bs.length = types.length := by
  induction types generalizing bs with
  | nil => rw [areItems_nil.1 h, List.length_nil, List.length_nil]
  | cons t types ih =>
    obtain ⟨front, back, rfl, ht, htypes⟩ := areItems_cons.1 h
    obtain ⟨b, heap, rfl⟩ := List.exists_cons_of_ne_nil ht.ne_nil
    rw [List.cons_append, List.length_cons, List.take_succ_cons, List.forall_mem_cons] at hplain
    obtain ⟨hb, hback⟩ := hplain
    obtain rfl := ht.plain_iff.1 hb
    rw [List.length_append, List.length_singleton, ih htypes hback, List.length_cons, Nat.add_comm]

/-! ## Typed selects -/

theorem areItems_byte {bs elements : Bytes} :
    AreItems (fun bs b => bs = [b]) bs elements ↔ bs = elements := by
  induction elements generalizing bs with
  | nil => exact areItems_nil
  | cons b elements ih =>
    rw [areItems_cons]
    constructor
    · rintro ⟨s, t, rfl, rfl, ht⟩
      rw [ih.1 ht]
      rfl
    · rintro rfl
      exact ⟨[b], elements, rfl, rfl, ih.2 rfl⟩

namespace Operator

/-- **A typed select is a count and as many bytes.** -/
theorem next_typedSelect_iff {c c' : Cursor} {d : Bytes} {op : Operator}
    (hc : c.rest = Opcode.selectTyped :: d) :
    next c = .ok op c' ↔ ∃ front elements,
      c.Takes (Opcode.selectTyped :: (front ++ elements)) c' ∧
        IsUnsigned 32 elements.length front ∧
        op = { opcode := Opcode.selectTyped, immediate := some (.select elements)
               offset := c.position } := by
  rw [next_eq_ok_iff]
  constructor
  · rintro ⟨bs, hbs, ⟨layout, behind, hlayout, rfl, hform⟩, hoffset⟩
    have hopcode : op.opcode = Opcode.selectTyped :=
      (List.cons.inj (hbs.rest.symm.trans hc)).1
    obtain ⟨opcode, sub, immediate, offset⟩ := op
    cases hopcode
    cases hoffset
    cases hlayout
    obtain ⟨elements, ⟨front, back, rfl, hcount, hback⟩, hx⟩ := hform
    cases areItems_byte.1 hback
    cases hx
    exact ⟨front, elements, hbs, hcount, rfl⟩
  · rintro ⟨front, elements, hbs, hcount, rfl⟩
    have hvector : IsVector (fun bs b => bs = [b]) (front ++ elements) elements :=
      ⟨front, elements, rfl, hcount, areItems_byte.2 rfl⟩
    exact ⟨_, hbs, ⟨.typeList, _, rfl, rfl, elements, hvector, rfl⟩, rfl⟩

/-- A typed select is read at the cursor exactly if it is a vector of value types, and it ends
behind the last of them. -/
def SelectsValueTypes (c : Cursor) : Prop :=
  ∀ c', (∃ op, next c = .ok op c') ↔
    ∃ bs types, c.Takes (Opcode.selectTyped :: bs) c' ∧ IsVector IsValueType bs types

/-- **Where a typed select is read as the vector of value types that it is.** A typed select is a
count and as many bytes. This is a vector of value types, to its end, exactly if all of these bytes
are value types that no heap type follows. -/
theorem selectsValueTypes_iff (base : Int) (consumed : Nat) (d : Bytes) :
    let c : Cursor := ⟨base, consumed, Opcode.selectTyped :: d⟩
    (∀ op c', next c = .ok op c' ↔ ∃ front elements,
      c.Takes (Opcode.selectTyped :: (front ++ elements)) c' ∧
        IsUnsigned 32 elements.length front ∧
        op = { opcode := Opcode.selectTyped, immediate := some (.select elements)
               offset := c.position }) ∧
      (SelectsValueTypes c ↔ ∀ front elements behind, d = front ++ elements ++ behind →
        IsUnsigned 32 elements.length front → ∀ b ∈ elements, IsPlainType b) := by
  intro c
  have hnext (op : Operator) (c' : Cursor) := @next_typedSelect_iff c c' d op rfl
  refine ⟨hnext, fun hselects front elements behind hd hcount => ?_, fun hplain c' => ?_⟩
  · have htakes : c.Takes (Opcode.selectTyped :: (front ++ elements))
        ⟨base, consumed + (front ++ elements).length + 1, behind⟩ :=
      ⟨rfl, congrArg (Opcode.selectTyped :: ·) hd, rfl⟩
    obtain ⟨bs, types, hbs, front', back, rfl, hcount', hitems⟩ :=
      (hselects _).1 ⟨_, (hnext _ _).2 ⟨front, elements, htakes, hcount, rfl⟩⟩
    have heq := (List.cons.inj (htakes.bytes_unique hbs)).2
    obtain ⟨-, hlen, rfl⟩ := Read.unsigned32_parses.unique hcount hcount' heq
    exact hitems.plain_of_length_eq hlen
  · constructor
    · rintro ⟨op, hop⟩
      obtain ⟨front, elements, htakes, hcount, -⟩ := (hnext op c').1 hop
      have hd : d = front ++ elements ++ c'.rest := (List.cons.inj htakes.rest).2
      obtain ⟨types, hlen, hitems⟩ := areItems_of_plain (hplain front elements _ hd hcount)
      exact ⟨_, types, htakes, front, elements, rfl, hlen ▸ hcount, hitems⟩
    · rintro ⟨bs, types, htakes, front, back, rfl, hcount, hitems⟩
      -- what is taken for types at first: as many bytes as there should be types
      have hle := hitems.length_le fun _ _ => IsValueType.ne_nil
      have htake : types.length = (back.take types.length).length := by
        rw [List.length_take, Nat.min_eq_left hle]
      have hd : d = front ++ back.take types.length ++ (back.drop types.length ++ c'.rest) := by
        rw [List.append_assoc, ← List.append_assoc (List.take _ _), List.take_append_drop,
          ← List.append_assoc]
        exact (List.cons.inj htakes.rest).2
      have hlen := hitems.length_eq_of_plain (hplain front _ _ hd (htake ▸ hcount))
      exact ⟨_, (hnext _ c').2 ⟨front, back, htakes, hlen ▸ hcount, rfl⟩⟩

/-- A typed select of a nullable reference to functions: the operator ends in front of the heap
type. -/
theorem typedSelect_leaves_heapType :
    let c : Cursor := .ofBytes [0x1C, 0x01, 0x63, 0x70] 0
    (∃ types, IsVector IsValueType [0x01, 0x63, 0x70] types) ∧
      next c = .ok { opcode := Opcode.selectTyped, immediate := some (.select [0x63]) }
        ⟨0, 3, [0x70]⟩ ∧
      ¬ SelectsValueTypes c := by
  intro c
  have hheap : IsSigned 33 (-16) [0x70] :=
    ⟨by decide, by decide, by decide, by decide, by decide⟩
  have htype : IsValueType [0x63, 0x70] { type := .refNull, heapType := some (-16) } :=
    isValueType_iff.2 ⟨rfl, [0x70], rfl, .inl rfl, hheap⟩
  have hvector : IsVector IsValueType [0x01, 0x63, 0x70]
      [{ type := .refNull, heapType := some (-16) }] :=
    ⟨[0x01], [0x63, 0x70], rfl, by decide,
      areItems_cons.2 ⟨_, [], rfl, htype, areItems_nil.2 rfl⟩⟩
  have hread : next c =
      .ok { opcode := Opcode.selectTyped, immediate := some (.select [0x63]) } ⟨0, 3, [0x70]⟩ := rfl
  refine ⟨⟨_, hvector⟩, hread, fun hselects => ?_⟩
  have htakes : c.Takes (Opcode.selectTyped :: [0x01, 0x63, 0x70]) ⟨0, 4, []⟩ := ⟨rfl, rfl, rfl⟩
  obtain ⟨op, hop⟩ := (hselects _).2 ⟨_, _, htakes, hvector⟩
  rw [hread] at hop
  cases hop

end Operator

end WasmUdon
