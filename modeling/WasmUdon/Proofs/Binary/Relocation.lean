import Mathlib.Data.List.Forall2
import WasmUdon.Binary.Leb128

/-!
# The same bytes further on

The same bytes may stand at another absolute offset, `d` bytes further on. What is read from them is
then the same, but for the places that values and errors speak of. `MovedBy d` relates errors,
cursors and places to those `d` bytes further on.

`Read.Moves d R r r'` says that `r'`, run `d` bytes further on, comes out as `r` does: both stop at
the same byte, with values that `R` relates or with errors that are moved. This passes from the
parts of a read to the whole (`Moves.bind`), so a read moves as soon as it speaks of places only
through the position of its cursor.
-/

namespace WasmUdon

/-! ## Errors -/

/-- A place in the module, and the same place `d` bytes further on. -/
def MovedPlace (d place place' : Int) : Prop := 0 ≤ place ∧ place' = place + d

/-- A fault, and the same fault `d` bytes further on. A fault without a place has none there
either. The detail may mention places and is left open. -/
structure Fault.MovedBy (d : Int) (f f' : Fault) : Prop where
  phase : f'.phase = f.phase
  kind : f'.kind = f.kind
  path : f'.path = f.path
  value : f'.value = f.value
  offset : f'.offset = if f.offset = noOffset then noOffset else f.offset + d

/-- A layer of an error, and the same layer `d` bytes further on. -/
inductive Layer.MovedBy (d : Int) : Layer → Layer → Prop
  | fault {f f' : Fault} (h : f.MovedBy d f') : MovedBy d (.fault f) (.fault f')
  | truncated : MovedBy d .truncated .truncated
  | overflow (position : Int) : MovedBy d (.overflow position) (.overflow (position + d))
  | badName (position : Int) : MovedBy d (.badName position) (.badName (position + d))

/-- An error, and the same error `d` bytes further on: their layers correspond one for one. -/
def Error.MovedBy (d : Int) (e e' : Error) : Prop :=
  List.Forall₂ (Layer.MovedBy d) e.layers e'.layers

theorem MovedPlace.ne_noOffset {d place place' : Int} (h : MovedPlace d place place') :
    place ≠ noOffset := by
  have := h.1
  simp only [noOffset]
  omega

theorem MovedPlace.add_nat {d place place' : Int} (h : MovedPlace d place place') (n : Nat) :
    MovedPlace d (place + n) (place' + n) := by
  obtain ⟨hnonneg, rfl⟩ := h
  exact ⟨by omega, by omega⟩

namespace Error

variable {d : Int} {e e' : Error}

theorem MovedBy.fault? (h : e.MovedBy d e') :
    Option.Rel (Fault.MovedBy d) e.fault? e'.fault? := by
  rw [Error.fault?, Error.fault?]
  have h' : List.Forall₂ (Layer.MovedBy d) e.layers e'.layers := h
  generalize e.layers = ls at h'
  generalize e'.layers = ls' at h'
  induction h' with
  | nil => exact .none
  | cons hlayer _ ih =>
    cases hlayer with
    | fault hf => exact .some hf
    | truncated => exact ih
    | overflow position => exact ih
    | badName position => exact ih

theorem MovedBy.outer_fault (h : e.MovedBy d e') {f : Fault} (hf : e.outer = .fault f) :
    ∃ f', e'.outer = .fault f' ∧ f.MovedBy d f' := by
  obtain ⟨outer, causes⟩ := e
  obtain ⟨outer', causes'⟩ := e'
  have hf : outer = .fault f := hf
  subst hf
  cases h with
  | cons houter _ =>
    cases houter with
    | fault hff' => exact ⟨_, rfl, hff'⟩

theorem MovedBy.kind?_eq (h : e.MovedBy d e') : e'.kind? = e.kind? := by
  have hfault := h.fault?
  rw [Error.kind?, Error.kind?]
  generalize e.fault? = f at hfault
  generalize e'.fault? = f' at hfault
  cases hfault with
  | none => rfl
  | some hf => rw [Option.map_some, Option.map_some, hf.kind]

theorem MovedBy.isTruncated_eq (h : e.MovedBy d e') : e'.isTruncated = e.isTruncated := by
  rw [Error.isTruncated, Error.isTruncated]
  have h' : List.Forall₂ (Layer.MovedBy d) e.layers e'.layers := h
  generalize e.layers = ls at h'
  generalize e'.layers = ls' at h'
  induction h' with
  | nil => rfl
  | cons hlayer _ ih =>
    rw [List.any_cons, List.any_cons, ih]
    cases hlayer with
    | fault hf => rfl
    | truncated => rfl
    | overflow position => rfl
    | badName position => rfl

theorem movedBy_ofFault {f f' : Fault} {cause cause' : Option Error} (hf : f.MovedBy d f')
    (hcause : Option.Rel (MovedBy d) cause cause') :
    (ofFault f cause).MovedBy d (ofFault f' cause') := by
  refine .cons (.fault hf) ?_
  cases hcause with
  | none => exact .nil
  | some h => exact h

/-- A fault that is found at a place is found at the moved place. -/
theorem movedBy_decode {place place' : Int} (hplace : MovedPlace d place place')
    {cause cause' : Option Error} (hcause : Option.Rel (MovedBy d) cause cause')
    {detail detail' : String} {value : Option FaultValue} :
    (decode place detail cause value).MovedBy d (decode place' detail' cause' value) := by
  refine movedBy_ofFault ⟨rfl, rfl, rfl, rfl, ?_⟩ hcause
  rw [if_neg hplace.ne_noOffset]
  exact hplace.2

theorem movedBy_unsupportedInstruction {place place' : Int} (hplace : MovedPlace d place place')
    (name : String) :
    (unsupportedInstruction name place).MovedBy d (unsupportedInstruction name place') := by
  refine movedBy_ofFault ⟨rfl, rfl, rfl, rfl, ?_⟩ .none
  rw [if_neg hplace.ne_noOffset]
  exact hplace.2

theorem movedBy_unsupportedSection (name : String) :
    (unsupportedSection name).MovedBy d (unsupportedSection name) :=
  movedBy_ofFault ⟨rfl, rfl, rfl, rfl, rfl⟩ .none

theorem movedBy_unsupportedType (name : String) :
    (unsupportedType name).MovedBy d (unsupportedType name) :=
  movedBy_ofFault ⟨rfl, rfl, rfl, rfl, rfl⟩ .none

theorem movedBy_internal (phase : Phase) (detail detail' : String) :
    (internal phase detail).MovedBy d (internal phase detail') :=
  movedBy_ofFault ⟨rfl, rfl, rfl, rfl, rfl⟩ .none

/-- The fault of an entry takes its place from its cause, so it moves with it. -/
theorem MovedBy.invalidEntry (h : e.MovedBy d e') (section_ : String) (index : Int) :
    (invalidEntry section_ index (some e)).MovedBy d (invalidEntry section_ index (some e')) := by
  have hfault := h.fault?
  simp only [Error.invalidEntry, Option.bind_some]
  generalize e.fault? = f at hfault
  generalize e'.fault? = f' at hfault
  cases hfault with
  | none => exact movedBy_ofFault ⟨rfl, rfl, rfl, rfl, rfl⟩ (.some h)
  | some hf => exact movedBy_ofFault ⟨rfl, hf.kind, rfl, rfl, hf.offset⟩ (.some h)

end Error

/-! ## Results -/

/-- A result, and the same result `d` bytes further on: values that `R` relates, or errors that are
moved. -/
inductive ResultMoved {α : Type} (d : Int) (R : α → α → Prop) :
    Except Error α → Except Error α → Prop
  | ok {a a' : α} (h : R a a') : ResultMoved d R (.ok a) (.ok a')
  | error {e e' : Error} (h : e.MovedBy d e') : ResultMoved d R (.error e) (.error e')

section Results

variable {α β : Type} {d : Int} {R : α → α → Prop} {S : β → β → Prop} {x x' : Except Error α}
  {f f' : α → Except Error β}

theorem ResultMoved.bind (hx : ResultMoved d R x x')
    (hf : ∀ a a', R a a' → ResultMoved d S (f a) (f' a')) :
    ResultMoved d S (x >>= f) (x' >>= f') := by
  cases hx with
  | ok h => exact hf _ _ h
  | error h => exact .error h

theorem ResultMoved.bind_eq (hx : ResultMoved d Eq x x')
    (hf : ∀ a, ResultMoved d S (f a) (f' a)) : ResultMoved d S (x >>= f) (x' >>= f') := by
  refine hx.bind fun a a' ha => ?_
  subst ha
  exact hf a

end Results

/-! ## Cursors -/

/-- A cursor, and the cursor at the same byte of the same bytes `d` bytes further on. -/
structure Cursor.MovedBy (d : Int) (c c' : Cursor) : Prop where
  base : MovedPlace d c.base c'.base
  consumed : c'.consumed = c.consumed
  rest : c'.rest = c.rest

namespace Cursor

variable {d : Int} {c c' : Cursor}

theorem movedBy_ofBytes (data : Bytes) {base base' : Int} (h : MovedPlace d base base') :
    (ofBytes data base).MovedBy d (ofBytes data base') := ⟨h, rfl, rfl⟩

theorem MovedBy.position (h : c.MovedBy d c') : MovedPlace d c.position c'.position := by
  rw [Cursor.position, Cursor.position, h.consumed]
  exact h.base.add_nat _

theorem MovedBy.skip (h : c.MovedBy d c') (n : Nat) : (c.skip n).MovedBy d (c'.skip n) := by
  refine ⟨h.base, ?_, ?_⟩
  · simp only [Cursor.skip, h.consumed, h.rest]
  · simp only [Cursor.skip, h.rest]

end Cursor

/-! ## Reads -/

namespace Read

variable {α β : Type} {d : Int} {R : α → α → Prop} {S : β → β → Prop} {r r' : Read α}
  {f f' : α → Read β}

/-- The outcome of a read, and that of the same read `d` bytes further on. -/
inductive OutcomeMoved (d : Int) (R : α → α → Prop) :
    EStateM.Result Error Cursor α → EStateM.Result Error Cursor α → Prop
  | ok {a a' : α} {c c' : Cursor} (ha : R a a') (hc : c.MovedBy d c') :
    OutcomeMoved d R (.ok a c) (.ok a' c')
  | error {e e' : Error} {c c' : Cursor} (he : e.MovedBy d e') (hc : c.MovedBy d c') :
    OutcomeMoved d R (.error e c) (.error e' c')

/-- Run `d` bytes further on, `r'` comes out as `r` does. -/
def Moves (d : Int) (R : α → α → Prop) (r r' : Read α) : Prop :=
  ∀ ⦃c c' : Cursor⦄, c.MovedBy d c' → OutcomeMoved d R (r c) (r' c')

theorem Moves.pure {a a' : α} (h : R a a') : Moves d R (Pure.pure a) (Pure.pure a') :=
  fun _ _ hc => .ok h hc

theorem Moves.throw {e e' : Error} (h : e.MovedBy d e') : Moves d R (throw e) (throw e') :=
  fun _ _ hc => .error h hc

theorem Moves.bind (hr : Moves d R r r') (hf : ∀ a a', R a a' → Moves d S (f a) (f' a')) :
    Moves d S (r >>= f) (r' >>= f') := by
  intro c c' hc
  have houtcome := hr hc
  simp only [Bind.bind, EStateM.bind]
  generalize r c = x at houtcome
  generalize r' c' = x' at houtcome
  cases houtcome with
  | ok ha hc => exact hf _ _ ha hc
  | error he hc => exact .error he hc

/-- A value that speaks of no place is handed on. -/
theorem Moves.bind_eq (hr : Moves d Eq r r') (hf : ∀ a, Moves d S (f a) (f' a)) :
    Moves d S (r >>= f) (r' >>= f') := by
  refine hr.bind fun a a' ha => ?_
  subst ha
  exact hf a

theorem Moves.map (hr : Moves d Eq r r) (g : α → β) : Moves d Eq (g <$> r) (g <$> r) := by
  rw [map_eq_pure_bind]
  exact hr.bind_eq fun _ => .pure rfl

/-- What is read at the position of the cursor is read at the moved position. -/
theorem position_bind_moves {g g' : Int → Read β}
    (h : ∀ place place', MovedPlace d place place' → Moves d S (g place) (g' place')) :
    Moves d S (position >>= g) (position >>= g') :=
  Moves.bind (R := MovedPlace d) (fun _ _ hc => .ok hc.position hc) h

theorem remainingSize_moves : Moves d Eq remainingSize remainingSize :=
  fun _ _ hc => .ok (congrArg List.length hc.rest).symm hc

theorem remaining_moves : Moves d Eq remaining remaining := by
  intro c c' hc
  rw [remaining, remaining, hc.rest]
  exact .ok rfl (hc.skip _)

theorem byte_moves : Moves d Eq byte byte := by
  intro c c' hc
  rw [byte, byte, hc.rest]
  cases c.rest with
  | nil => exact .error (.cons .truncated .nil) hc
  | cons b rest => exact .ok rfl (hc.skip 1)

theorem bytes_moves (n : Int) : Moves d Eq (bytes n) (bytes n) := by
  intro c c' hc
  rw [bytes, bytes, hc.rest]
  split
  · exact .error (.cons .truncated .nil) hc
  · exact .ok rfl (hc.skip _)

theorem overflow_moves : Moves d R overflow overflow := by
  intro c c' hc
  rw [overflow, overflow, hc.position.2]
  exact .error (.cons (.overflow _) .nil) hc

/-! ### Numbers and names -/

theorem unsignedFrom_moves (last : Nat) (excess : UInt8) (fuel shift acc : Nat) :
    Moves d Eq (unsignedFrom last excess fuel shift acc)
      (unsignedFrom last excess fuel shift acc) := by
  induction fuel generalizing shift acc with
  | zero => exact overflow_moves
  | succ fuel ih =>
    refine byte_moves.bind_eq fun b => ?_
    dsimp only
    split
    · exact overflow_moves
    · split
      · exact .pure rfl
      · exact ih _ _

theorem signedFrom_moves (fuel shift acc : Nat) :
    Moves d Eq (signedFrom fuel shift acc) (signedFrom fuel shift acc) := by
  induction fuel generalizing shift acc with
  | zero => exact overflow_moves
  | succ fuel ih =>
    refine byte_moves.bind_eq fun b => ?_
    dsimp only
    split
    · exact .pure rfl
    · split
      · exact .pure rfl
      · exact ih _ _

theorem signed_moves (bits : Nat) : Moves d Eq (signed bits) (signed bits) := by
  refine (signedFrom_moves _ _ _).bind_eq fun n => ?_
  split
  · exact overflow_moves
  · exact .pure rfl

theorem u32_moves : Moves d Eq u32 u32 :=
  (unsignedFrom_moves _ _ _ _ _).bind_eq fun _ => .pure rfl

theorem u64_moves : Moves d Eq u64 u64 :=
  (unsignedFrom_moves _ _ _ _ _).bind_eq fun _ => .pure rfl

theorem s32_moves : Moves d Eq s32 s32 := (signed_moves 32).bind_eq fun _ => .pure rfl

theorem s64_moves : Moves d Eq s64 s64 := (signedFrom_moves _ _ _).bind_eq fun _ => .pure rfl

theorem u32le_moves : Moves d Eq u32le u32le := (bytes_moves 4).bind_eq fun _ => .pure rfl

theorem u64le_moves : Moves d Eq u64le u64le := (bytes_moves 8).bind_eq fun _ => .pure rfl

theorem name_moves : Moves d Eq name name := by
  refine u32_moves.bind_eq fun size => (bytes_moves _).bind_eq fun bs => ?_
  split
  · exact .pure rfl
  · intro c c' hc
    dsimp only
    rw [hc.position.2]
    exact .error (.cons (.badName _) .nil) hc

end Read

end WasmUdon
