import Mathlib.Data.List.Basic
import WasmUdon.Proofs.Lowering.Initializer

/-!
# Blocks of initializers keep the stack balanced

A block is read as a straight line, and all that is followed is the height of the stack:
`heightBehind` gives the height behind a block, and has no answer if some instruction takes more
entries than there are, or has no place in a straight line.

While an initializer is lowered, its stack also holds constants, which no instruction pushed. So
the height behind the instructions emitted is not the number of values on that stack but the number
of those that are no constants (`pushedHeight`). Every effect of an operator keeps the two equal
(`InitState.Effect.heightBehind_eq`), and what is left in the end is a constant, or a reference that
the last two instructions take off (`ConstExpr.balanced_of_lower`).
-/

namespace WasmUdon

/-! ## Heights -/

/-- How many entries an instruction of a straight line takes off the stack, and how many it adds.
All other instructions have no place in one. -/
def Instruction.stackUse? : Instruction → Option (Nat × Nat)
  | .nop | .jump _ => some (0, 0)
  | .push _ => some (0, 1)
  | .pop => some (1, 0)
  | .copy => some (2, 0)
  | _ => none

/-- The height of the stack behind an instruction, which must not take more entries than there
are. -/
def Instruction.heightBehind (height : Nat) (i : Instruction) : Option Nat :=
  match i.stackUse? with
  | some (taken, added) => if taken ≤ height then some (height - taken + added) else none
  | none => none

/-- The height of the stack behind a block that is read as a straight line. -/
def heightBehind (height : Nat) (block : Block) : Option Nat :=
  block.foldlM Instruction.heightBehind height

theorem heightBehind_append {height height' : Nat} {block : Block}
    (h : heightBehind height block = some height') (rest : Block) :
    heightBehind height (block ++ rest) = heightBehind height' rest := by
  simp only [heightBehind, List.foldlM_append] at h ⊢
  rw [h]
  rfl

/-- A block with a height behind it has no instruction that takes more entries than there are. -/
theorem exists_taken_le_of_heightBehind {height final : Nat} {front back : Block} {i : Instruction}
    (h : heightBehind height (front ++ i :: back) = some final) :
    ∃ before taken added, heightBehind height front = some before ∧
      i.stackUse? = some (taken, added) ∧ taken ≤ before := by
  simp only [heightBehind, List.foldlM_append, List.foldlM_cons, Option.bind_eq_bind,
    Option.bind_eq_some_iff] at h
  obtain ⟨before, hfront, after, hi, -⟩ := h
  unfold Instruction.heightBehind at hi
  split at hi
  · rename_i taken added huse
    split at hi
    · rename_i hle
      exact ⟨before, taken, added, hfront, huse, hle⟩
    · cases hi
  · cases hi

/-! ## Initializers -/

/-- Whether a value on the stack of an initializer was pushed by an instruction. -/
def StackValue.isPushed : StackValue → Bool
  | .constant _ => false
  | _ => true

/-- How many values on the stack of an initializer were pushed by an instruction. -/
def pushedHeight (stack : List StackValue) : Nat := stack.countP StackValue.isPushed

theorem pushedHeight_constant (value : Literal) (stack : List StackValue) :
    pushedHeight (.constant value :: stack) = pushedHeight stack :=
  List.countP_cons_of_neg Bool.false_ne_true

theorem pushedHeight_of_ne {top : StackValue} (h : ∀ value, top ≠ .constant value)
    (stack : List StackValue) : pushedHeight (top :: stack) = pushedHeight stack + 1 := by
  have hpushed : top.isPushed := by
    cases top with
    | constant value => exact absurd rfl (h value)
    | reference type => rfl
    | destination => rfl
  exact List.countP_cons_of_pos hpushed

namespace InitState

/-- **An operator keeps track of the height**: the instructions emitted leave as many entries as
there are values that were pushed. -/
theorem Effect.heightBehind_eq {env : GlobalEnv} {index : Nat} {op : Operator} {s s' : InitState}
    (h : Effect env index op s s') (hs : heightBehind 0 s.block = some (pushedHeight s.stack)) :
    heightBehind 0 s'.block = some (pushedHeight s'.stack) := by
  cases h with
  | nop hop => exact heightBehind_append hs _
  | blockEnd hop => exact hs
  | halt hop => exact heightBehind_append hs _
  | const hop hvalue =>
    rw [pushedHeight_constant]
    exact hs
  | dropConstant hop hstack =>
    rw [hstack, pushedHeight_constant] at hs
    exact hs
  | dropVariable hop hstack htop =>
    rw [hstack, pushedHeight_of_ne htop] at hs
    exact heightBehind_append hs _
  | get hop htarget hlt henv =>
    rw [emit, pushedHeight_of_ne (by simp)]
    exact heightBehind_append hs _
  | set hop htarget hstack htop =>
    -- the copy takes the entry that the push adds, and the value below it
    rw [hstack, pushedHeight_of_ne htop] at hs
    exact heightBehind_append hs _

theorem heightBehind_of_operators {env : GlobalEnv} {index : Nat} {ops : List Operator}
    {s : InitState} (h : operators env index {} ops = .ok s) :
    heightBehind 0 s.block = some (pushedHeight s.stack) :=
  operators_preserve (P := fun s => heightBehind 0 s.block = some (pushedHeight s.stack))
    (fun heffect => heffect.heightBehind_eq) h rfl

end InitState

namespace ConstExpr

theorem heightBehind_of_lower {expr : ConstExpr} {env : GlobalEnv} {index : Nat} {name : Bytes}
    {type : AsmType} {block : Block} {init : Option Literal}
    (h : expr.lower env index name type = .ok (block, init)) : heightBehind 0 block = some 0 := by
  obtain ⟨s, hs, hcases⟩ := lower_eq_ok h
  have hheight := InitState.heightBehind_of_operators hs
  rcases hcases with ⟨value, hstack, -, rfl, -⟩ | ⟨hstack, rfl, -⟩
  · rw [hheight, hstack]
    rfl
  · rw [heightBehind_append hheight, hstack]
    rfl

/-- **The block of an initializer keeps the stack balanced.** Read as a straight line from an empty
stack, it has no instruction that takes more entries than there are, and it leaves the stack empty.
It has no marked constants. -/
theorem balanced_of_lower {expr : ConstExpr} {env : GlobalEnv} {index : Nat} {name : Bytes}
    {type : AsmType} {block : Block} {init : Option Literal}
    (h : expr.lower env index name type = .ok (block, init)) :
    (∀ front i back, block = front ++ i :: back → ∃ before taken added,
        heightBehind 0 front = some before ∧ i.stackUse? = some (taken, added) ∧
          taken ≤ before) ∧
      heightBehind 0 block = some 0 ∧ ∀ value, .mark value ∉ block := by
  have hheight := heightBehind_of_lower h
  have htaken : ∀ front i back, block = front ++ i :: back → ∃ before taken added,
      heightBehind 0 front = some before ∧ i.stackUse? = some (taken, added) ∧
        taken ≤ before := by
    rintro front i back rfl
    exact exists_taken_le_of_heightBehind hheight
  refine ⟨htaken, hheight, fun value hmem => ?_⟩
  obtain ⟨front, back, hblock⟩ := List.append_of_mem hmem
  obtain ⟨-, taken, added, -, huse, -⟩ := htaken front _ back hblock
  cases huse

/-- An initializer with all sorts of operators: it drops a constant and a variable, writes another
global, ends the program and leaves a reference. -/
theorem balanced_of_lower_mixed :
    let expr : ConstExpr :=
      { bytes := [0x23, 0, 0x01, 0x41, 5, 0x1A, 0x23, 0, 0x1A, 0x23, 0, 0x24, 3, 0x00, 0x0B]
        offset := 7 }
    let block : Block :=
      [.push (text "__G__0"), .nop, .push (text "__G__0"), .pop, .push (text "__G__0"),
        .push (text "__G__3"), .copy, .jump (text "0xFFFFFFFC"), .push (text "__G__1"), .copy]
    expr.lower [(.int32, false)] 1 (text "__G__1") .int32 = .ok (block, none) ∧
      heightBehind 0 (block.take 6) = some 3 ∧ heightBehind 0 block = some 0 ∧
      ∀ value, .mark value ∉ block := by
  intro expr block
  have h : expr.lower [(.int32, false)] 1 (text "__G__1") .int32 = .ok (block, none) := by
    decide +kernel
  exact ⟨h, by decide, (balanced_of_lower h).2⟩

end ConstExpr

end WasmUdon
