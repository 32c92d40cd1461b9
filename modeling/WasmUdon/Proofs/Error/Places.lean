import WasmUdon.Proofs.Error.Reads
import WasmUdon.Proofs.Operator.Grammar

/-!
# Where reads fail

The bytes being read may be a part of a longer string, and then offsets count from the start of the
longer one. A read that fails must blame a place among the bytes it was given: not before them, and
at most at their end.

`Error.FoundIn e low high` says that every fault of an error is malformed data at a place between
two offsets. An error of reading numbers has no fault; it gets one further up, at the position where
reading stopped. So `Read.FailsFrom low r` says both that the read only moves forward and that its
faults lie between `low` and the end of the bytes. It passes from the parts of a read to the
whole, and a read that looks at its own position may blame that one (`FailsFrom.position_bind`).
-/

namespace WasmUdon

/-! ## Places of faults -/

/-- Malformed data at a place from `low` to `high`. -/
structure Fault.FoundIn (f : Fault) (low high : Int) : Prop where
  phase : f.phase = .decode
  kind : f.kind = .invalidData
  path : f.path = []
  low_le : low ≤ f.offset
  le_high : f.offset ≤ high

namespace Error

/-- Every fault is malformed data at a place from `low` to `high`. -/
def FoundIn (e : Error) (low high : Int) : Prop := ∀ f, .fault f ∈ e.layers → f.FoundIn low high

variable {e : Error} {low high : Int}

theorem Bare.foundIn (h : e.Bare) : e.FoundIn low high := fun f hf => absurd hf (h f)

theorem FoundIn.mono (h : e.FoundIn low high) {low' high' : Int} (hlow : low' ≤ low)
    (hhigh : high ≤ high') : e.FoundIn low' high' := fun f hf =>
  { h f hf with
    low_le := Int.le_trans hlow (h f hf).low_le
    le_high := Int.le_trans (h f hf).le_high hhigh }

/-- Malformed data at a place, around a cause without faults. -/
theorem foundIn_decode {offset : Int} {detail : String} {cause : Option Error}
    {value : Option FaultValue} (hcause : ∀ e ∈ cause, Bare e) (hlow : low ≤ offset)
    (hhigh : offset ≤ high) : (decode offset detail cause value).FoundIn low high := by
  intro f hf
  rcases List.mem_cons.1 hf with heq | hf
  · cases heq
    exact ⟨rfl, rfl, rfl, hlow, hhigh⟩
  · cases cause with
    | none => cases hf
    | some e => exact absurd hf (hcause e rfl f)

theorem foundIn_decode_none {offset : Int} {detail : String} {value : Option FaultValue}
    (hlow : low ≤ offset) (hhigh : offset ≤ high) :
    (decode offset detail none value).FoundIn low high :=
  foundIn_decode (fun _ he => nomatch he) hlow hhigh

theorem foundIn_decode_some {offset : Int} {detail : String} {value : Option FaultValue}
    (h : e.Bare) (hlow : low ≤ offset) (hhigh : offset ≤ high) :
    (decode offset detail (some e) value).FoundIn low high :=
  foundIn_decode (fun _ he => Option.some.inj he ▸ h) hlow hhigh

end Error

/-! ## Cursors -/

namespace Cursor

/-- The absolute offset behind the last byte. -/
def stop (c : Cursor) : Int := c.position + c.rest.length

variable {c c' : Cursor}

theorem position_le_stop (c : Cursor) : c.position ≤ c.stop := by
  unfold stop
  omega

theorem Takes.reaches {bs : Bytes} (h : c.Takes bs c') : c.Reaches c' :=
  ⟨h.base, bs, h.rest, h.consumed⟩

theorem Reaches.position_le (h : c.Reaches c') : c.position ≤ c'.position := by
  obtain ⟨hbase, taken, -, hconsumed⟩ := h
  rw [position, position, hbase, hconsumed]
  omega

theorem Reaches.stop_eq (h : c.Reaches c') : c'.stop = c.stop := by
  obtain ⟨hbase, taken, hrest, hconsumed⟩ := h
  rw [stop, stop, position, position, hbase, hconsumed, hrest, List.length_append]
  omega

end Cursor

/-! ## Reads -/

namespace Read

variable {α β : Type} {r : Read α} {f : α → Read β} {low : Int}

/-- The read only moves forward. From `low` on or further ahead, it fails with faults between `low`
and the end of the bytes. -/
structure FailsFrom (low : Int) (r : Read α) : Prop where
  forward : r.Forward
  found : ∀ ⦃c c' : Cursor⦄ ⦃e : Error⦄, low ≤ c.position → r c = .error e c' →
    e.FoundIn low c.stop

/-- A read blames a place from where it starts on if every failure does. -/
theorem FailsFrom.of_cases (hok : ∀ c a c', r c = .ok a c' → c.Reaches c')
    (herror : ∀ c e c', r c = .error e c' → c.Reaches c' ∧ e.FoundIn c.position c.stop) :
    r.FailsFrom low := by
  refine ⟨fun c => ?_, fun c c' e hlow h => (herror c e c' h).2.mono hlow (Int.le_refl _)⟩
  cases hread : r c with
  | ok a c' => simpa [cursorAfter, hread] using hok c a c' hread
  | error e c' => simpa [cursorAfter, hread] using (herror c e c' hread).1

theorem FailsFrom.of_error {c c' : Cursor} {e : Error} (hr : r.FailsFrom c.position)
    (h : r c = .error e c') : c.Reaches c' ∧ e.FoundIn c.position c.stop :=
  ⟨hr.forward.of_error h, hr.found (Int.le_refl _) h⟩

theorem FailsWith.failsFrom (h : r.FailsWith Error.Bare) (hr : r.Forward) : r.FailsFrom low :=
  ⟨hr, fun _ _ _ _ herror => (h herror).foundIn⟩

theorem FailsFrom.pure (a : α) : FailsFrom low (Pure.pure a : Read α) :=
  ⟨.pure a, fun _ _ _ _ h => nomatch h⟩

/-- The place that is blamed may be `low` itself. -/
theorem FailsFrom.throw {detail : String} {value : Option FaultValue} :
    FailsFrom low (throw (.decode low detail none value) : Read α) := by
  refine ⟨.throw _, fun c c' e hlow h => ?_⟩
  cases h
  exact Error.foundIn_decode_none (Int.le_refl _) (Int.le_trans hlow c.position_le_stop)

theorem FailsFrom.bind (hr : r.FailsFrom low) (hf : ∀ a, (f a).FailsFrom low) :
    (r >>= f).FailsFrom low := by
  refine ⟨hr.forward.bind fun a => (hf a).forward, fun c c' e hlow h => ?_⟩
  rcases bind_eq_error_iff.1 h with h | ⟨a, c₁, hok, h⟩
  · exact hr.found hlow h
  · have hreach := hr.forward.of_ok hok
    rw [← hreach.stop_eq]
    exact (hf a).found (Int.le_trans hlow hreach.position_le) h

theorem FailsFrom.map (hr : r.FailsFrom low) (g : α → β) : (g <$> r).FailsFrom low := by
  rw [map_eq_pure_bind]
  exact hr.bind fun _ => .pure _

/-- The place that is blamed may be the one where the read starts. -/
theorem FailsFrom.position_bind {f : Int → Read β} (hf : ∀ p, (f p).FailsFrom p) :
    (position >>= f).FailsFrom low := by
  refine ⟨position_forward.bind fun p => (hf p).forward, fun c c' e hlow h => ?_⟩
  exact ((hf c.position).found (Int.le_refl _) h).mono hlow (Int.le_refl _)

theorem remainingSize_failsFrom : remainingSize.FailsFrom low :=
  remainingSize_failsWith.failsFrom remainingSize_forward

theorem remaining_failsFrom : remaining.FailsFrom low :=
  remaining_failsWith.failsFrom remaining_forward

theorem byte_failsFrom : byte.FailsFrom low := byte_failsWith.failsFrom byte_forward

theorem u32_failsFrom : u32.FailsFrom low := u32_failsWith.failsFrom u32_forward

/-- A fault at the position where reading stopped. -/
theorem explain_failsFrom (h : r.FailsWith Error.Bare) (hr : r.Forward) (detail : String) :
    (r.explain detail).FailsFrom low := by
  refine .of_cases (fun c a c' hread => ?_) fun c e c' hread => ?_
  all_goals
    unfold explain at hread
    split at hread <;> cases hread
    rename_i hread
  · exact hr.of_ok hread
  · have hreach := hr.of_error hread
    refine ⟨hreach, ?_⟩
    rw [← hreach.stop_eq]
    exact Error.foundIn_decode_some (h hread) hreach.position_le (Cursor.position_le_stop _)

end Read

/-! ## Payloads of sections -/

theorem readIndexPayload_failsFrom (id : SectionId) {low : Int} :
    (readIndexPayload id).FailsFrom low := by
  refine (Read.explain_failsFrom Read.u32_failsWith Read.u32_forward _).bind fun n =>
    Read.remainingSize_failsFrom.bind fun left => ?_
  split
  · exact .position_bind fun p => .throw
  · exact .pure _

theorem readVectorPayload_failsFrom (kind : VectorKind) (offset : Int) :
    (readVectorPayload kind offset).FailsFrom offset := by
  refine (Read.explain_failsFrom Read.u32_failsWith Read.u32_forward _).bind fun count =>
    Read.remainingSize_failsFrom.bind fun left => ?_
  split
  · exact .throw
  · exact .position_bind fun p => Read.remaining_failsFrom.bind fun _ => .pure _

theorem readPayload_failsFrom (frame : Frame) (id : SectionId) :
    (readPayload frame id).FailsFrom frame.payload := by
  cases id with
  | custom =>
    exact (Read.explain_failsFrom Read.name_failsWith Read.name_forward _).bind fun _ =>
      Read.remaining_failsFrom.bind fun _ => .pure _
  | start => exact (readIndexPayload_failsFrom _).bind fun _ => .pure _
  | dataCount => exact (readIndexPayload_failsFrom _).bind fun _ => .pure _
  | vector kind => exact (readVectorPayload_failsFrom kind _).bind fun _ => .pure _

/-! ## Operators -/

namespace Read

variable {α : Type} {r : Read α} {low : Int}

theorem replicate_failsFrom (hr : r.FailsFrom low) (n : Nat) : (replicate r n).FailsFrom low := by
  induction n with
  | zero => exact .pure _
  | succ n ih => exact hr.bind fun _ => ih.bind fun _ => .pure _

theorem vector_failsFrom (operator noun : String) (hr : ∀ low, r.FailsFrom low) :
    (vector operator noun r).FailsFrom low := by
  refine u32_failsFrom.bind fun count => remainingSize_failsFrom.bind fun left => ?_
  split
  · exact .position_bind fun p => .throw
  · exact replicate_failsFrom (hr low) _

end Read

theorem Layout.read_failsFrom (offset : Int) (family : UInt8) (layout : Layout) :
    (layout.read offset family).FailsFrom offset := by
  -- most layouts are one value, and the value can only fail to be read
  have hone {α : Type} {r : Read α} (hr : r.FailsWith Error.Bare) (hforward : r.Forward)
      (f : α → UInt32 × Option Immediate) : (r >>= fun a => pure (f a)).FailsFrom offset :=
    (hr.failsFrom hforward).bind fun _ => .pure _
  cases layout <;> unfold Layout.read
  case nothing => exact .pure _
  case blockType => exact hone (Read.signed_failsWith 33) Read.s33_forward _
  case labelTable =>
    exact (Read.vector_failsFrom _ _ fun _ => Read.u32_failsFrom).bind fun _ =>
      hone Read.u32_failsWith Read.u32_forward _
  case typeAndTable =>
    exact Read.u32_failsFrom.bind fun _ => hone Read.u32_failsWith Read.u32_forward _
  case typeList =>
    exact (Read.vector_failsFrom _ _ fun _ => Read.byte_failsFrom).bind fun _ => .pure _
  case memoryArgument => exact hone Read.memoryArgument_failsWith Read.memoryArgument_forward _
  case i32 => exact hone Read.s32_failsWith Read.s32_forward _
  case i64 => exact hone Read.s64_failsWith Read.s64_forward _
  case f32 => exact hone Read.u32le_failsWith Read.u32le_forward _
  case f64 => exact hone Read.u64le_failsWith Read.u64le_forward _
  case heapType => exact hone (Read.signed_failsWith 33) Read.s33_forward _
  case miscFamily =>
    refine Read.u32_failsFrom.bind fun sub => ?_
    split
    · exact .pure _
    · exact .throw
  case vectorFamily =>
    refine Read.u32_failsFrom.bind fun sub => ?_
    split
    · exact hone (Read.bytes_failsWith 16) (Read.bytes_forward 16) _
    · exact .throw
  all_goals exact hone Read.u32_failsWith Read.u32_forward _

namespace Operator

variable {low : Int}

theorem readAt_failsFrom (offset : Int) : (readAt offset).FailsFrom offset := by
  refine Read.byte_failsFrom.bind fun opcode => ?_
  unfold readBehind
  split
  · exact .throw
  · exact (Layout.read_failsFrom _ _ _).bind fun _ => .pure _

/-- An operator that cannot be read is blamed on its own bytes: on the opcode, on a count, or on
the position where reading stopped. -/
theorem next_failsFrom : next.FailsFrom low := by
  refine .of_cases (fun c op c' h => ?_) fun c e c' h => ?_
  · exact (readAt_forward _).of_ok (readAt_of_next h)
  unfold next at h
  split at h
  · cases h
  rename_i e' c₁ hread
  have hreach := (readAt_forward _).of_error hread
  split at h
  · cases h
    exact ⟨hreach, (readAt_failsFrom _).found (Int.le_refl _) hread⟩
  · rename_i hkind
    cases h
    -- without a kind there is no fault in the cause
    have hbare : e'.Bare := (readAt_failsWith _ hread).resolve_right fun hdata => by
      rw [hdata.kind?_eq] at hkind
      cases hkind
    refine ⟨hreach, ?_⟩
    rw [← hreach.stop_eq]
    exact Error.foundIn_decode_some hbare hreach.position_le (Cursor.position_le_stop _)

end Operator

/-! ## Entries of the global section -/

theorem readGlobalType_failsFrom {low : Int} : readGlobalType.FailsFrom low := by
  refine .position_bind fun start => Read.byte_failsFrom.bind fun code => ?_
  split
  · exact .throw
  · split
    all_goals
      refine .bind ?_ fun heapType => .position_bind fun p =>
        Read.byte_failsFrom.bind fun flag => ?_
    case isTrue.refine_1 => exact ((Read.signed_failsWith 33).failsFrom Read.s33_forward).map _
    case isFalse.refine_1 => exact .pure _
    all_goals
      split
      · exact .pure _
      · exact .pure _
      · exact .throw

/-- An expression that cannot be scanned is blamed on one of its operators, or on the end of the
bytes. -/
theorem foundIn_of_scanConstExpr {depth : Nat} {c c' : Cursor} {e : Error}
    (h : scanConstExpr depth c = .error e c') :
    c.Reaches c' ∧ e.FoundIn c.position c.stop := by
  induction hlen : c.rest.length using Nat.strongRecOn generalizing c depth with
  | ind len ih =>
  rw [scanConstExpr_eq] at h
  split at h
  · cases h
    exact ⟨.refl _, Error.foundIn_decode_none (Int.le_refl _) (Cursor.position_le_stop _)⟩
  split at h
  · rename_i hnext
    cases h
    exact Operator.next_failsFrom.of_error hnext
  rename_i op c₁ hnext
  split at h
  · cases h
  split at h
  · cases h
  · rename_i hscan
    cases h
    have hreach := (Operator.readAt_forward _).of_ok (Operator.readAt_of_next hnext)
    obtain ⟨hrest, hfound⟩ := ih _ (hlen ▸ Operator.length_lt_of_next hnext) hscan rfl
    refine ⟨hreach.trans hrest, ?_⟩
    rw [← hreach.stop_eq]
    exact hfound.mono hreach.position_le (Int.le_refl _)

theorem readConstExpr_failsFrom {low : Int} : readConstExpr.FailsFrom low := by
  refine .of_cases (fun c expr c' h => (readConstExpr_eq_ok_iff.1 h).1.reaches) fun c e c' h => ?_
  unfold readConstExpr at h
  split at h
  · cases h
  · rename_i hscan
    cases h
    exact foundIn_of_scanConstExpr hscan

theorem readGlobalEntry_failsFrom {low : Int} : readGlobalEntry.FailsFrom low :=
  readGlobalType_failsFrom.bind fun _ => readConstExpr_failsFrom.bind fun _ => .pure _

end WasmUdon
