import WasmUdon.Lowering.Initializer

/-!
# What an operator of an initializer does

`InitState.Effect` lists, case by case, what an operator that is lowered does to the instructions
emitted and to the stack of what is known about the values. Every operator that is lowered has one
of these effects (`InitState.effect_of_operator`), so a property of initializers is proved by
going through them once.

Between two operators no value on the stack is the destination of a copy
(`InitState.destination_notMem_of_operators`), and in the end one value of the declared type is
left, if the initializer is lowered at all (`ConstExpr.lower_eq_ok`).
-/

namespace WasmUdon

/-- The opcodes of constants. -/
def Opcode.constants : List UInt8 := [i32Const, i64Const, f32Const, f64Const]

namespace Operator

/-- How an operator is lowered outside of functions. -/
inductive LowersInModule (op : Operator) : Except Error (List Instruction) → Prop
  | nop (hop : op.opcode = Opcode.nop) : LowersInModule op (.ok [.nop])
  | blockEnd (hop : op.opcode = Opcode.blockEnd) : LowersInModule op (.ok [])
  | drop (hop : op.opcode = Opcode.drop) : LowersInModule op (.ok [.pop])
  | halt (hop : op.opcode = Opcode.unreachable) :
    LowersInModule op (.ok [.jumpTo Instruction.haltAddress])
  | get {target : UInt32} (hop : op.opcode = Opcode.globalGet)
    (htarget : op.immediate = some (.globalIndex target)) :
    LowersInModule op (.ok [.push (Slot.ofGlobal target).name])
  | set {target : UInt32} (hop : op.opcode = Opcode.globalSet)
    (htarget : op.immediate = some (.globalIndex target)) :
    LowersInModule op (.ok [.push (Slot.ofGlobal target).name, .copy])
  | const {value : Literal} (hop : op.opcode ∈ Opcode.constants)
    (hvalue : op.literal? = some value) : LowersInModule op (.ok [.mark (some value)])
  | noTarget (hop : op.opcode = Opcode.globalGet ∨ op.opcode = Opcode.globalSet)
    (htarget : ∀ target, op.immediate ≠ some (.globalIndex target)) :
    LowersInModule op (.error op.badImmediate)
  | noLiteral (hop : op.opcode ∈ Opcode.constants) (hvalue : op.literal? = none) :
    LowersInModule op (.error op.badImmediate)
  | unsupported : LowersInModule op (.error (.unsupportedInstruction op.name op.offset))

theorem lowersInModule (op : Operator) : op.LowersInModule (op.lower .module) := by
  unfold lower
  split
  case h_1 hop => exact .nop hop
  case h_2 hop => exact .blockEnd hop
  case h_3 hop => exact .drop hop
  case h_4 hop => exact .halt hop
  case h_5 hop =>
    split
    · rename_i target htarget
      simp only [access, hop]
      exact .get hop htarget
    · rename_i htarget
      exact .noTarget (.inl hop) htarget
  case h_6 hop =>
    split
    · rename_i target htarget
      simp only [access, hop]
      exact .set hop htarget
    · rename_i htarget
      exact .noTarget (.inr hop) htarget
  case h_10 hop | h_11 hop | h_12 hop | h_13 hop =>
    have hconst : op.opcode ∈ Opcode.constants := by
      rw [hop]
      decide
    split
    · rename_i value hvalue
      exact .const hconst hvalue
    · rename_i hvalue
      exact .noLiteral hconst hvalue
  -- accesses to locals, and all operators that have no instructions anywhere
  all_goals exact .unsupported

end Operator

namespace InitState

/-- What an operator of the initializer of global `index` does to the state of lowering. -/
inductive Effect (env : GlobalEnv) (index : Nat) (op : Operator) (s : InitState) : InitState → Prop
  | nop (hop : op.opcode = Opcode.nop) : Effect env index op s (s.emit .nop s.stack)
  | blockEnd (hop : op.opcode = Opcode.blockEnd) : Effect env index op s s
  | halt (hop : op.opcode = Opcode.unreachable) :
    Effect env index op s (s.emit (.jumpTo Instruction.haltAddress) s.stack)
  | const {value : Literal} (hop : op.opcode ∈ Opcode.constants)
    (hvalue : op.literal? = some value) :
    Effect env index op s { s with stack := .constant value :: s.stack }
  | dropConstant {value : Literal} {stack : List StackValue} (hop : op.opcode = Opcode.drop)
    (hstack : s.stack = .constant value :: stack) : Effect env index op s { s with stack }
  | dropVariable {top : StackValue} {stack : List StackValue} (hop : op.opcode = Opcode.drop)
    (hstack : s.stack = top :: stack) (htop : ∀ value, top ≠ .constant value) :
    Effect env index op s (s.emit .pop stack)
  | get {target : UInt32} {type : AsmType} (hop : op.opcode = Opcode.globalGet)
    (htarget : op.immediate = some (.globalIndex target)) (hlt : target.toNat < index)
    (henv : env[target.toNat]? = some (type, false)) :
    Effect env index op s
      (s.emit (.push (Slot.ofGlobal target).name) (.reference type :: s.stack))
  | set {target : UInt32} {top : StackValue} {stack : List StackValue}
    (hop : op.opcode = Opcode.globalSet)
    (htarget : op.immediate = some (.globalIndex target)) (hstack : s.stack = top :: stack)
    (htop : ∀ value, top ≠ .constant value) :
    Effect env index op s
      { block := s.block ++ [.push (Slot.ofGlobal target).name, .copy], stack }

theorem instructions_singleton (op : Operator) (pushed : StackValue) (s : InitState)
    (i : Instruction) : s.instructions op pushed [i] = s.instruction op pushed i := by
  simp only [instructions]
  cases s.instruction op pushed i <;> rfl

/-- A `global.get` that is lowered names an earlier global that never changes. -/
theorem target_of_reference {env : GlobalEnv} {index : Nat} {op : Operator} {type : AsmType}
    (h : env.reference index op = .ok type) :
    ∃ target, op.immediate = some (.globalIndex target) ∧ target.toNat < index ∧
      env[target.toNat]? = some (type, false) := by
  unfold GlobalEnv.reference at h
  split at h
  · rename_i target htarget
    dsimp only at h
    split at h
    · cases h
    · cases h
    · rename_i found hfound
      cases h
      split at hfound
      · rename_i hlt
        exact ⟨target, htarget, hlt, hfound⟩
      · cases hfound
  · cases h

/-- A push outside of a `global.get` is the destination of a copy. -/
theorem eq_destination_of_pushedBy {env : GlobalEnv} {index : Nat} {op : Operator}
    {pushed : StackValue} (h : pushedBy env index op = .ok pushed)
    (hop : op.opcode ≠ Opcode.globalGet) : pushed = .destination := by
  rw [pushedBy, if_neg hop] at h
  cases h
  rfl

/-- **An operator that is lowered has one of the effects.** -/
theorem effect_of_operator {env : GlobalEnv} {index : Nat} {op : Operator} {s s' : InitState}
    (h : s.operator env index op = .ok s') : Effect env index op s s' := by
  unfold operator at h
  split at h
  · cases h
  rename_i pushed hpushed
  split at h
  · cases h
  rename_i is his
  have hlower := op.lowersInModule
  rw [his] at hlower
  cases hlower with
  | nop hop =>
    cases h
    exact .nop hop
  | blockEnd hop =>
    cases h
    exact .blockEnd hop
  | drop hop =>
    rw [instructions_singleton] at h
    simp only [instruction] at h
    split at h
    · cases h
    · rename_i value stack hstack
      cases h
      exact .dropConstant hop hstack
    · rename_i top stack htop hstack
      cases h
      exact .dropVariable hop hstack htop
  | halt hop =>
    cases h
    exact .halt hop
  | @get target hop htarget =>
    rw [pushedBy, if_pos hop] at hpushed
    cases href : env.reference index op with
    | error e =>
      rw [href] at hpushed
      cases hpushed
    | ok type =>
      rw [href] at hpushed
      cases hpushed
      cases h
      obtain ⟨target', htarget', hlt, henv⟩ := target_of_reference href
      rw [htarget'] at htarget
      cases htarget
      exact .get hop htarget' hlt henv
  | set hop htarget =>
    have hne : op.opcode ≠ Opcode.globalGet := by
      rw [hop]
      decide
    cases eq_destination_of_pushedBy hpushed hne
    simp only [instructions, instruction, emit] at h
    split at h
    · cases h
    · rename_i hcopy
      cases h
      split at hcopy
      · cases hcopy
      · rename_i x top stack htop hstack
        cases hcopy
        rw [List.append_assoc]
        exact .set hop htarget (List.cons.inj hstack).2 htop
      · cases hcopy
  | const hop hvalue =>
    cases h
    exact .const hop hvalue

theorem operators_cons_eq_ok_iff {env : GlobalEnv} {index : Nat} {op : Operator}
    {ops : List Operator} {s s' : InitState} :
    operators env index s (op :: ops) = .ok s' ↔
      ∃ s₁, s.operator env index op = .ok s₁ ∧ operators env index s₁ ops = .ok s' := by
  rw [operators]
  cases s.operator env index op with
  | error e => simp
  | ok s₁ => simp

/-- What every effect preserves is preserved by the operators of an initializer. -/
theorem operators_preserve {env : GlobalEnv} {index : Nat} {P : InitState → Prop}
    (hP : ∀ {op : Operator} {s s' : InitState}, Effect env index op s s' → P s → P s')
    {ops : List Operator} {s s' : InitState} (h : operators env index s ops = .ok s')
    (hs : P s) : P s' := by
  induction ops generalizing s with
  | nil =>
    cases h
    exact hs
  | cons op ops ih =>
    obtain ⟨s₁, hop, hops⟩ := operators_cons_eq_ok_iff.1 h
    exact ih hops (hP (effect_of_operator hop) hs)

theorem Effect.destination_notMem {env : GlobalEnv} {index : Nat} {op : Operator}
    {s s' : InitState} (h : Effect env index op s s') (hs : .destination ∉ s.stack) :
    .destination ∉ s'.stack := by
  cases h with
  | nop hop => exact hs
  | blockEnd hop => exact hs
  | halt hop => exact hs
  | const hop hvalue => simpa using hs
  | dropConstant hop hstack => exact fun h => hs (hstack ▸ List.mem_cons_of_mem _ h)
  | dropVariable hop hstack htop => exact fun h => hs (hstack ▸ List.mem_cons_of_mem _ h)
  | get hop htarget hlt henv => simpa [emit] using hs
  | set hop htarget hstack htop => exact fun h => hs (hstack ▸ List.mem_cons_of_mem _ h)

/-- Between two operators no value on the stack is the destination of a copy. -/
theorem destination_notMem_of_operators {env : GlobalEnv} {index : Nat} {ops : List Operator}
    {s : InitState} (h : operators env index {} ops = .ok s) : .destination ∉ s.stack :=
  operators_preserve (fun heffect => heffect.destination_notMem) h List.not_mem_nil

end InitState

namespace ConstExpr

/-- The operators of a constant expression. -/
def operators (expr : ConstExpr) : List Operator :=
  (Operator.readAll (.ofBytes expr.bytes expr.offset)).1

/-- **An initializer that is lowered leaves one value of the declared type.** A constant becomes
the first value, a reference is copied. -/
theorem lower_eq_ok {expr : ConstExpr} {env : GlobalEnv} {index : Nat} {name : Bytes}
    {type : AsmType} {block : Block} {init : Option Literal}
    (h : expr.lower env index name type = .ok (block, init)) :
    ∃ s, InitState.operators env index {} expr.operators = .ok s ∧
      ((∃ value, s.stack = [.constant value] ∧ value.type = type ∧
          block = s.block ∧ init = some value) ∨
        (s.stack = [.reference type] ∧ block = s.block ++ [.push name, .copy] ∧ init = none)) := by
  unfold lower at h
  dsimp only at h
  split at h
  · cases h
  · cases h
  rename_i s hs hnone
  refine ⟨s, hs, ?_⟩
  split at h
  · rename_i value hstack
    split at h
    · rename_i htype
      cases h
      exact .inl ⟨value, hstack, htype, rfl, rfl⟩
    · cases h
  · rename_i found hstack
    split at h
    · rename_i htype
      cases h
      exact .inr ⟨htype ▸ hstack, rfl, rfl⟩
    · cases h
  · cases h
  · cases h

end ConstExpr

end WasmUdon
