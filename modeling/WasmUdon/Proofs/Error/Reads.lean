import WasmUdon.Global.Entry
import WasmUdon.Module.Payload
import WasmUdon.Proofs.Error.Kinds
import WasmUdon.Proofs.Operator.Immediates

/-!
# What reads fail with

`Read.FailsWith r P` says that every failure of a read has a property. Reading numbers and names
fails without a fault (`Error.Bare`); whatever reads operators, payloads and entries of sections
fails with malformed data, either at once or as soon as a fault is put around the failure
(`Error.IsMalformed`).
-/

namespace WasmUdon

namespace Read

variable {α β : Type} {r : Read α} {f : α → Read β} {P Q : Error → Prop}

/-- Every failure of the read has the property. -/
def FailsWith (r : Read α) (P : Error → Prop) : Prop :=
  ∀ ⦃c c' : Cursor⦄ ⦃e : Error⦄, r c = .error e c' → P e

theorem FailsWith.mono (h : r.FailsWith P) (hPQ : ∀ e, P e → Q e) : r.FailsWith Q :=
  fun _ _ _ hr => hPQ _ (h hr)

theorem FailsWith.pure (a : α) : FailsWith (Pure.pure a : Read α) P :=
  fun _ _ _ h => nomatch h

theorem FailsWith.throw {e : Error} (h : P e) : FailsWith (throw e : Read α) P := by
  intro c c' e' hr
  cases hr
  exact h

theorem FailsWith.bind (hr : r.FailsWith P) (hf : ∀ a, (f a).FailsWith P) :
    (r >>= f).FailsWith P := by
  intro c c' e h
  rcases bind_eq_error_iff.1 h with h | ⟨a, c₁, -, h⟩
  · exact hr h
  · exact hf a h

theorem FailsWith.map (hr : r.FailsWith P) (f : α → β) : (f <$> r).FailsWith P := by
  rw [map_eq_pure_bind]
  exact hr.bind fun _ => .pure _

theorem position_failsWith : position.FailsWith P := fun _ _ _ h => nomatch h

theorem remainingSize_failsWith : remainingSize.FailsWith P := fun _ _ _ h => nomatch h

theorem remaining_failsWith : remaining.FailsWith P := fun _ _ _ h => nomatch h

/-! ## Bytes, numbers and names -/

theorem byte_failsWith : byte.FailsWith Error.Bare := by
  intro c c' e h
  unfold byte at h
  split at h
  · cases h
    exact Error.bare_of_outer fun _ h => nomatch h
  · cases h

theorem bytes_failsWith (n : Int) : (bytes n).FailsWith Error.Bare := by
  intro c c' e h
  unfold bytes at h
  split at h
  · cases h
    exact Error.bare_of_outer fun _ h => nomatch h
  · cases h

theorem overflow_failsWith : (overflow : Read α).FailsWith Error.Bare := by
  intro c c' e h
  cases h
  exact Error.bare_of_outer fun _ h => nomatch h

theorem unsignedFrom_failsWith (last : Nat) (excess : UInt8) (fuel shift acc : Nat) :
    (unsignedFrom last excess fuel shift acc).FailsWith Error.Bare := by
  induction fuel generalizing shift acc with
  | zero => exact overflow_failsWith
  | succ fuel ih =>
    refine byte_failsWith.bind fun b => ?_
    dsimp only
    split
    · exact overflow_failsWith
    · split
      · exact .pure _
      · exact ih _ _

theorem signedFrom_failsWith (fuel shift acc : Nat) :
    (signedFrom fuel shift acc).FailsWith Error.Bare := by
  induction fuel generalizing shift acc with
  | zero => exact overflow_failsWith
  | succ fuel ih =>
    refine byte_failsWith.bind fun b => ?_
    dsimp only
    split
    · exact .pure _
    · split
      · exact .pure _
      · exact ih _ _

theorem signed_failsWith (bits : Nat) : (signed bits).FailsWith Error.Bare := by
  refine (signedFrom_failsWith _ _ _).bind fun n => ?_
  split
  · exact overflow_failsWith
  · exact .pure _

theorem u32_failsWith : u32.FailsWith Error.Bare :=
  (unsignedFrom_failsWith _ _ _ _ _).bind fun _ => .pure _

theorem u64_failsWith : u64.FailsWith Error.Bare :=
  (unsignedFrom_failsWith _ _ _ _ _).bind fun _ => .pure _

theorem s32_failsWith : s32.FailsWith Error.Bare := (signed_failsWith 32).bind fun _ => .pure _

theorem s64_failsWith : s64.FailsWith Error.Bare :=
  (signedFrom_failsWith _ _ _).bind fun _ => .pure _

theorem u32le_failsWith : u32le.FailsWith Error.Bare := (bytes_failsWith 4).bind fun _ => .pure _

theorem u64le_failsWith : u64le.FailsWith Error.Bare := (bytes_failsWith 8).bind fun _ => .pure _

theorem name_failsWith : name.FailsWith Error.Bare := by
  refine u32_failsWith.bind fun size => (bytes_failsWith _).bind fun bs => ?_
  split
  · exact .pure _
  · intro c c' e h
    cases h
    exact Error.bare_of_outer fun _ h => nomatch h

/-! ## Payloads of sections -/

theorem explain_failsWith (h : r.FailsWith Error.Bare) (detail : String) :
    (r.explain detail).FailsWith (Error.OfKind · .invalidData) := by
  intro c c' e hr
  unfold explain at hr
  split at hr
  · cases hr
  · rename_i hfail
    cases hr
    exact Error.ofKind_decode_some (h hfail)

end Read

theorem readIndexPayload_failsWith (id : SectionId) :
    (readIndexPayload id).FailsWith (Error.OfKind · .invalidData) := by
  refine (Read.explain_failsWith Read.u32_failsWith _).bind fun n =>
    Read.remainingSize_failsWith.bind fun left => ?_
  split
  · exact Read.position_failsWith.bind fun _ => .throw Error.ofKind_decode_none
  · exact .pure _

theorem readVectorPayload_failsWith (kind : VectorKind) (offset : Int) :
    (readVectorPayload kind offset).FailsWith (Error.OfKind · .invalidData) := by
  refine (Read.explain_failsWith Read.u32_failsWith _).bind fun count =>
    Read.remainingSize_failsWith.bind fun left => ?_
  split
  · exact .throw Error.ofKind_decode_none
  · exact Read.position_failsWith.bind fun _ => Read.remaining_failsWith.bind fun _ => .pure _

theorem readPayload_failsWith (frame : Frame) (id : SectionId) :
    (readPayload frame id).FailsWith (Error.OfKind · .invalidData) := by
  cases id with
  | custom =>
    exact (Read.explain_failsWith Read.name_failsWith _).bind fun _ =>
      Read.remaining_failsWith.bind fun _ => .pure _
  | start => exact (readIndexPayload_failsWith _).bind fun _ => .pure _
  | dataCount => exact (readIndexPayload_failsWith _).bind fun _ => .pure _
  | vector kind => exact (readVectorPayload_failsWith kind _).bind fun _ => .pure _

/-! ## Operators -/

namespace Read

variable {α : Type} {r : Read α}

theorem FailsWith.malformed (h : r.FailsWith Error.Bare) : r.FailsWith Error.IsMalformed :=
  h.mono fun _ => .inl

theorem replicate_failsWith (hr : r.FailsWith Error.IsMalformed) (n : Nat) :
    (replicate r n).FailsWith Error.IsMalformed := by
  induction n with
  | zero => exact .pure _
  | succ n ih => exact hr.bind fun _ => ih.bind fun _ => .pure _

theorem vector_failsWith (operator noun : String) (hr : r.FailsWith Error.IsMalformed) :
    (vector operator noun r).FailsWith Error.IsMalformed := by
  refine u32_failsWith.malformed.bind fun count => remainingSize_failsWith.bind fun left => ?_
  split
  · exact position_failsWith.bind fun _ => .throw (.inr Error.ofKind_decode_none)
  · exact replicate_failsWith hr _

theorem memoryArgument_failsWith : memoryArgument.FailsWith Error.Bare := by
  refine u32_failsWith.bind fun flags => ?_
  dsimp only
  split
  · exact u32_failsWith.bind fun _ => u64_failsWith.bind fun _ => .pure _
  · exact (FailsWith.pure _).bind fun _ => u64_failsWith.bind fun _ => .pure _

end Read

theorem Layout.read_failsWith (offset : Int) (family : UInt8) (layout : Layout) :
    (layout.read offset family).FailsWith Error.IsMalformed := by
  -- most layouts are one value, and the value can only fail to be read
  have hone {α : Type} {r : Read α} (hr : r.FailsWith Error.Bare)
      (f : α → UInt32 × Option Immediate) :
      (r >>= fun a => pure (f a)).FailsWith Error.IsMalformed :=
    hr.malformed.bind fun _ => .pure _
  cases layout <;> unfold Layout.read
  case nothing => exact .pure _
  case blockType => exact hone (Read.signed_failsWith 33) _
  case labelTable =>
    exact (Read.vector_failsWith _ _ Read.u32_failsWith.malformed).bind fun _ =>
      hone Read.u32_failsWith _
  case typeAndTable => exact Read.u32_failsWith.malformed.bind fun _ => hone Read.u32_failsWith _
  case typeList =>
    exact (Read.vector_failsWith _ _ Read.byte_failsWith.malformed).bind fun _ => .pure _
  case memoryArgument => exact hone Read.memoryArgument_failsWith _
  case i32 => exact hone Read.s32_failsWith _
  case i64 => exact hone Read.s64_failsWith _
  case f32 => exact hone Read.u32le_failsWith _
  case f64 => exact hone Read.u64le_failsWith _
  case heapType => exact hone (Read.signed_failsWith 33) _
  case miscFamily =>
    refine Read.u32_failsWith.malformed.bind fun sub => ?_
    split
    · exact .pure _
    · exact .throw (.inr Error.ofKind_decode_none)
  case vectorFamily =>
    refine Read.u32_failsWith.malformed.bind fun sub => ?_
    split
    · exact hone (Read.bytes_failsWith 16) _
    · exact .throw (.inr Error.ofKind_decode_none)
  all_goals exact hone Read.u32_failsWith _

namespace Operator

theorem readAt_failsWith (offset : Int) : (readAt offset).FailsWith Error.IsMalformed := by
  refine Read.byte_failsWith.malformed.bind fun opcode => ?_
  unfold readBehind
  split
  · exact .throw (.inr Error.ofKind_decode_none)
  · exact (Layout.read_failsWith _ _ _).bind fun _ => .pure _

/-- **An operator that cannot be read is malformed data.** -/
theorem next_failsWith : next.FailsWith (Error.OfKind · .invalidData) := by
  intro c c' e h
  unfold next at h
  split at h
  · cases h
  · rename_i hread
    rcases readAt_failsWith _ hread with hbare | hkind
    · rw [hbare.kind?_eq_none] at h
      cases h
      exact Error.ofKind_decode_some hbare
    · rw [hkind.kind?_eq] at h
      cases h
      exact hkind

theorem ofKind_of_readAll {c : Cursor} {e : Error} (h : (readAll c).2 = some e) :
    e.OfKind .invalidData := by
  induction hlen : c.rest.length using Nat.strongRecOn generalizing c with
  | ind len ih =>
  rw [readAll_eq] at h
  split at h
  · cases h
  · split at h
    · rename_i hnext
      cases h
      exact next_failsWith hnext
    · rename_i hnext
      exact ih _ (hlen ▸ length_lt_of_next hnext) h rfl

end Operator

/-! ## Entries of the global section -/

theorem readGlobalType_failsWith : readGlobalType.FailsWith Error.IsMalformed := by
  refine Read.position_failsWith.bind fun start => Read.byte_failsWith.malformed.bind fun code => ?_
  split
  · exact .throw (.inr Error.ofKind_decode_none)
  · split
    all_goals
      refine .bind ?_ fun heapType => Read.position_failsWith.bind fun _ =>
        Read.byte_failsWith.malformed.bind fun flag => ?_
    case isTrue.refine_1 => exact (Read.signed_failsWith 33).malformed.map _
    case isFalse.refine_1 => exact .pure _
    all_goals
      split
      · exact .pure _
      · exact .pure _
      · exact .throw (.inr Error.ofKind_decode_none)

/-- The operators of an initializer end early or are malformed. -/
theorem scanConstExpr_failsWith (depth : Nat) :
    (scanConstExpr depth).FailsWith (Error.OfKind · .invalidData) := by
  intro c c' e h
  induction hlen : c.rest.length using Nat.strongRecOn generalizing c depth with
  | ind len ih =>
  unfold scanConstExpr at h
  split at h
  · cases h
    exact Error.ofKind_decode_none
  · split at h
    · rename_i hnext
      cases h
      exact Operator.next_failsWith hnext
    · rename_i op c₁ hnext
      have hshort : c₁.rest.length < len := hlen ▸ Operator.length_lt_of_next hnext
      dsimp only at h
      -- whatever the operator is, the expression ends with it or the rest fails
      repeat' split at h
      all_goals
        cases h <;> exact ih _ hshort _ ‹_› rfl

theorem readGlobalEntry_failsWith : readGlobalEntry.FailsWith Error.IsMalformed := by
  refine readGlobalType_failsWith.bind fun type => .bind ?_ fun init => .pure _
  intro c c' e h
  unfold readConstExpr at h
  split at h
  · cases h
  · rename_i hscan
    cases h
    exact .inr (scanConstExpr_failsWith 0 hscan)

namespace GlobalReader

theorem ofKind_entryError {e : Error} (h : e.IsMalformed) (index : Nat) (position : Int) :
    (entryError index e position).OfKind .invalidData := by
  unfold entryError
  rcases h with hbare | hkind
  · rw [hbare.kind?_eq_none]
    exact (Error.ofKind_decode_some hbare).invalidEntry _ _
  · rw [hkind.kind?_eq]
    exact hkind.invalidEntry _ _

/-- As long as entries are left, one that cannot be read is malformed data. -/
theorem ofKind_of_read {g g' : GlobalReader} {e : Error} (h : g.read = (.error e, g'))
    (hmore : g.index < g.count.toNat) : e.OfKind .invalidData := by
  rw [read, hasMore, decide_eq_true hmore, if_pos rfl] at h
  split at h
  · cases h
  · rename_i hentry
    cases h
    exact ofKind_entryError (readGlobalEntry_failsWith hentry) _ _

/-- When all entries were read, only bytes behind them can be wrong. -/
theorem ofKind_of_finish {g : GlobalReader} {e : Error} (h : g.finish = .error e)
    (hall : g.count.toNat ≤ g.index) : e.OfKind .invalidData := by
  rw [finish, hasMore, decide_eq_false (by omega), if_neg Bool.false_ne_true] at h
  split at h
  · cases h
    exact Error.ofKind_decode_none
  · cases h

end GlobalReader

end WasmUdon
