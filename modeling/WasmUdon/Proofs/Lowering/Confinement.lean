import WasmUdon.Proofs.Lowering.Meaning
import WasmUdon.Proofs.Lowering.Program

/-!
# What initializers touch

A block pushes variables, and the copies in it assign the variables that stand on top of the stack
(`pushedVariables`, `assignedVariables`); every other variable keeps its value
(`Machine.run_frame`). The block of a global pushes what its initializer reads and writes, in this
order, and its own variable last, if a reference is left (`ConstExpr.touched_of_lower`).

What an initializer reads is checked to be an earlier global that never changes. What it writes is
not checked. So a block stays with what it may touch, `Confined`, exactly when its initializer
writes no global but its own, and every variable that the program pushes is declared exactly when
no initializer writes a global that does not exist (`Options.program_confined_iff`). A module whose
program pushes a variable that is not declared is `program_pushes_undeclared`.
-/

namespace WasmUdon

/-! ## The variables of a block -/

/-- The variable that an instruction pushes. -/
def Instruction.pushed? : Instruction → Option Bytes
  | .push name => some name
  | _ => none

/-- The variables that a block pushes, in their order. -/
def pushedVariables (block : Block) : List Bytes := block.filterMap Instruction.pushed?

/-- The variables on the stack behind an instruction, the top first. -/
def stackBehind (stack : List Bytes) : Instruction → List Bytes
  | .push name => name :: stack
  | .pop => stack.tail
  | .copy => stack.tail.tail
  | _ => stack

/-- The variable that an instruction assigns: the destination of a copy. -/
def assignedBy (stack : List Bytes) : Instruction → List Bytes
  | .copy => stack.head?.toList
  | _ => []

/-- The variables that a block assigns, in their order. -/
def assignedVariables : (stack : List Bytes) → Block → List Bytes
  | _, [] => []
  | stack, i :: block => assignedBy stack i ++ assignedVariables (stackBehind stack i) block

theorem assignedVariables_append (stack : List Bytes) (block block' : Block) :
    assignedVariables stack (block ++ block') =
      assignedVariables stack block ++
        assignedVariables (block.foldl stackBehind stack) block' := by
  induction block generalizing stack with
  | nil => rfl
  | cons i block ih =>
    rw [List.cons_append, assignedVariables, ih, assignedVariables, List.append_assoc,
      List.foldl_cons]

/-- An instruction other than a copy assigns nothing. -/
theorem assignedVariables_concat {i : Instruction} (hi : i ≠ .copy) (stack : List Bytes)
    (block : Block) :
    assignedVariables stack (block ++ [i]) = assignedVariables stack block := by
  rw [assignedVariables_append]
  cases i with
  | copy => exact absurd rfl hi
  | _ => exact List.append_nil _

/-- Pushing a variable and copying assigns it, whatever the stack was. -/
theorem assignedVariables_store (stack : List Bytes) (block : Block) (name : Bytes) :
    assignedVariables stack (block ++ [.push name, .copy]) =
      assignedVariables stack block ++ [name] := by
  rw [assignedVariables_append]
  rfl

theorem Machine.step_frame {m m' : Machine} {i : Instruction} (h : m.step i = some m') :
    m'.stack = stackBehind m.stack i ∧
      ∀ name, name ∉ assignedBy m.stack i → m'.store name = m.store name := by
  obtain ⟨store, stack⟩ := m
  unfold step at h
  split at h
  · cases h
    exact ⟨rfl, fun _ _ => rfl⟩
  · obtain ⟨value, -, rfl⟩ := Option.map_eq_some_iff.1 h
    exact ⟨rfl, fun _ _ => rfl⟩
  · split at h
    · cases h
    · rename_i hstack
      cases h
      exact ⟨(congrArg List.tail hstack).symm, fun _ _ => rfl⟩
  · split at h
    · rename_i destination source rest hstack
      dsimp only at hstack
      split at h
      · cases h
        rw [hstack]
        refine ⟨rfl, fun name hname => Store.assign_of_ne ?_ _⟩
        rintro rfl
        exact hname List.mem_cons_self
      · cases h
    · cases h
  · cases h

/-- **A run changes no variable but those that its block assigns.** -/
theorem Machine.run_frame {m m' : Machine} {block : Block} (h : m.run block = some m')
    {name : Bytes} (hname : name ∉ assignedVariables m.stack block) :
    m'.store name = m.store name := by
  induction block generalizing m with
  | nil =>
    cases h
    rfl
  | cons i block ih =>
    rw [run, List.foldlM_cons] at h
    obtain ⟨m₁, hstep, hrun⟩ := Option.bind_eq_some_iff.1 h
    obtain ⟨hstack, hstore⟩ := step_frame hstep
    rw [assignedVariables, List.mem_append, not_or, ← hstack] at hname
    rw [ih hrun hname.2, hstore name hname.1]

/-! ## The globals of an initializer -/

namespace Operator

/-- The global that an operator names. -/
def target? (op : Operator) : Option UInt32 :=
  match op.immediate with
  | some (.globalIndex target) => some target
  | _ => none

/-- The global that an operator writes. -/
def written? (op : Operator) : Option UInt32 :=
  if op.opcode = Opcode.globalSet then op.target? else none

/-- The global that an operator reads or writes. -/
def touched? (op : Operator) : Option UInt32 :=
  if op.opcode = Opcode.globalGet then op.target? else op.written?

section

variable {op : Operator} {target : UInt32}

theorem written?_of_ne (hop : op.opcode ≠ Opcode.globalSet) : op.written? = none := if_neg hop

theorem written?_of_set (hop : op.opcode = Opcode.globalSet)
    (htarget : op.immediate = some (.globalIndex target)) : op.written? = some target := by
  simp only [written?, if_pos hop, target?, htarget]

theorem touched?_of_ne (hget : op.opcode ≠ Opcode.globalGet)
    (hset : op.opcode ≠ Opcode.globalSet) : op.touched? = none := by
  rw [touched?, if_neg hget, written?_of_ne hset]

theorem touched?_of_get (hop : op.opcode = Opcode.globalGet)
    (htarget : op.immediate = some (.globalIndex target)) : op.touched? = some target := by
  simp only [touched?, if_pos hop, target?, htarget]

/-- What is touched is read or written. -/
theorem touched?_eq_some (h : op.touched? = some target) :
    op.opcode = Opcode.globalGet ∧ op.target? = some target ∨ op.written? = some target := by
  unfold touched? at h
  split at h
  · exact .inl ⟨‹_›, h⟩
  · exact .inr h

theorem touched?_of_written? (h : op.written? = some target) : op.touched? = some target := by
  have hset : op.opcode = Opcode.globalSet := by
    by_contra hne
    rw [written?_of_ne hne] at h
    cases h
  have hne : op.opcode ≠ Opcode.globalGet := by
    rw [hset]
    decide
  rw [touched?, if_neg hne, h]

end

end Operator

/-- The names of the variables of globals, by a choice of what operators say about globals. -/
def namesOf (choice : Operator → Option UInt32) (ops : List Operator) : List Bytes :=
  (ops.filterMap choice).map fun target => (Slot.ofGlobal target).name

theorem namesOf_cons (choice : Operator → Option UInt32) (op : Operator) (ops : List Operator) :
    namesOf choice (op :: ops) = namesOf choice [op] ++ namesOf choice ops := by
  simp only [namesOf, ← List.map_append, ← List.filterMap_append, List.singleton_append]

theorem namesOf_singleton_none {choice : Operator → Option UInt32} {op : Operator}
    (h : choice op = none) : namesOf choice [op] = [] := by
  simp [namesOf, h]

theorem namesOf_singleton_some {choice : Operator → Option UInt32} {op : Operator}
    {target : UInt32} (h : choice op = some target) :
    namesOf choice [op] = [(Slot.ofGlobal target).name] := by
  simp [namesOf, h]

theorem mem_namesOf {choice : Operator → Option UInt32} {ops : List Operator} {name : Bytes} :
    name ∈ namesOf choice ops ↔
      ∃ op ∈ ops, ∃ target, choice op = some target ∧ globalName target.toNat = name := by
  simp only [namesOf, List.mem_map, List.mem_filterMap, globalName_toNat]
  constructor
  · rintro ⟨target, ⟨op, hop, htarget⟩, rfl⟩
    exact ⟨op, hop, target, htarget, rfl⟩
  · rintro ⟨op, hop, target, htarget, rfl⟩
    exact ⟨target, ⟨op, hop, htarget⟩, rfl⟩

namespace InitState

/-- **An operator emits a push for each global it touches, and assigns the global it writes.** -/
theorem Effect.touched {env : GlobalEnv} {index : Nat} {op : Operator} {s s' : InitState}
    (h : Effect env index op s s') (stack : List Bytes) :
    pushedVariables s'.block = pushedVariables s.block ++ namesOf Operator.touched? [op] ∧
      assignedVariables stack s'.block =
        assignedVariables stack s.block ++ namesOf Operator.written? [op] := by
  -- all operators but two touch nothing
  have hnone : ∀ {b : UInt8}, op.opcode = b → b ≠ Opcode.globalGet → b ≠ Opcode.globalSet →
      namesOf Operator.touched? [op] = [] ∧ namesOf Operator.written? [op] = [] := by
    rintro b rfl hget hset
    exact ⟨namesOf_singleton_none (Operator.touched?_of_ne hget hset),
      namesOf_singleton_none (Operator.written?_of_ne hset)⟩
  cases h with
  | nop hop =>
    obtain ⟨htouched, hwritten⟩ := hnone hop (by decide) (by decide)
    rw [htouched, hwritten, emit, assignedVariables_concat (i := .nop) (by simp)]
    simp [pushedVariables, Instruction.pushed?]
  | blockEnd hop =>
    obtain ⟨htouched, hwritten⟩ := hnone hop (by decide) (by decide)
    rw [htouched, hwritten, List.append_nil, List.append_nil]
    exact ⟨rfl, rfl⟩
  | halt hop =>
    obtain ⟨htouched, hwritten⟩ := hnone hop (by decide) (by decide)
    rw [htouched, hwritten, emit, Instruction.jumpTo,
      assignedVariables_concat (i := .jump _) (by simp)]
    simp [pushedVariables, Instruction.pushed?]
  | const hop hvalue =>
    have hget : Opcode.globalGet ∉ Opcode.constants := by decide
    have hset : Opcode.globalSet ∉ Opcode.constants := by decide
    obtain ⟨htouched, hwritten⟩ := hnone rfl (fun h => hget (h ▸ hop)) (fun h => hset (h ▸ hop))
    rw [htouched, hwritten, List.append_nil, List.append_nil]
    exact ⟨rfl, rfl⟩
  | dropConstant hop hstack =>
    obtain ⟨htouched, hwritten⟩ := hnone hop (by decide) (by decide)
    rw [htouched, hwritten, List.append_nil, List.append_nil]
    exact ⟨rfl, rfl⟩
  | dropVariable hop hstack htop =>
    obtain ⟨htouched, hwritten⟩ := hnone hop (by decide) (by decide)
    rw [htouched, hwritten, emit, assignedVariables_concat (i := .pop) (by simp)]
    simp [pushedVariables, Instruction.pushed?]
  | get hop htarget hlt henv =>
    have hset : op.opcode ≠ Opcode.globalSet := by
      rw [hop]
      decide
    rw [namesOf_singleton_some (Operator.touched?_of_get hop htarget),
      namesOf_singleton_none (Operator.written?_of_ne hset), emit,
      assignedVariables_concat (i := .push _) (by simp)]
    simp [pushedVariables, Instruction.pushed?]
  | set hop htarget hstack htop =>
    have hwritten := Operator.written?_of_set hop htarget
    rw [namesOf_singleton_some (Operator.touched?_of_written? hwritten),
      namesOf_singleton_some hwritten, assignedVariables_store]
    simp [pushedVariables, Instruction.pushed?]

theorem touched_of_operators {env : GlobalEnv} {index : Nat} {ops : List Operator}
    {s s' : InitState} (h : operators env index s ops = .ok s') (stack : List Bytes) :
    pushedVariables s'.block = pushedVariables s.block ++ namesOf Operator.touched? ops ∧
      assignedVariables stack s'.block =
        assignedVariables stack s.block ++ namesOf Operator.written? ops := by
  induction ops generalizing s with
  | nil =>
    cases h
    exact ⟨(List.append_nil _).symm, (List.append_nil _).symm⟩
  | cons op ops ih =>
    obtain ⟨s₁, hop, hops⟩ := operators_cons_eq_ok_iff.1 h
    obtain ⟨hpushed, hassigned⟩ := (effect_of_operator hop).touched stack
    obtain ⟨hpushed', hassigned'⟩ := ih hops
    rw [hpushed', hpushed, hassigned', hassigned, namesOf_cons _ op ops, namesOf_cons _ op ops,
      List.append_assoc, List.append_assoc]
    exact ⟨rfl, rfl⟩

/-- What an initializer reads is an earlier global that never changes. -/
theorem target_of_get {env : GlobalEnv} {index : Nat} {ops : List Operator} {s s' : InitState}
    (h : operators env index s ops = .ok s') {op : Operator} (hmem : op ∈ ops)
    (hop : op.opcode = Opcode.globalGet) {target : UInt32} (htarget : op.target? = some target) :
    target.toNat < index ∧ ∃ type, env[target.toNat]? = some (type, false) := by
  induction ops generalizing s with
  | nil => cases hmem
  | cons op' ops ih =>
    obtain ⟨s₁, hfirst, hops⟩ := operators_cons_eq_ok_iff.1 h
    rcases List.mem_cons.1 hmem with rfl | hmem
    · have heffect := effect_of_operator hfirst
      cases heffect with
      | @get target' type _ htarget' hlt henv =>
        simp only [Operator.target?, htarget', Option.some.injEq] at htarget
        subst htarget
        exact ⟨hlt, type, henv⟩
      | const hconst hvalue =>
        rw [hop] at hconst
        exact absurd hconst (by decide)
      | nop hne | blockEnd hne | halt hne | dropConstant hne _ | dropVariable hne _ _
      | set hne _ _ _ =>
        rw [hop] at hne
        cases hne
    · exact ih hops hmem

end InitState

/-- The globals that an initializer writes. -/
def ConstExpr.written (expr : ConstExpr) : List UInt32 := expr.operators.filterMap Operator.written?

theorem ConstExpr.mem_written {expr : ConstExpr} {target : UInt32} :
    target ∈ expr.written ↔ ∃ op ∈ expr.operators, op.written? = some target :=
  List.mem_filterMap

/-! ## The block of a global -/

/-- A block keeps to what the initializer of a global may touch: it pushes the variable of the
global and variables of earlier globals that never change, and it assigns no other variable than
that of the global. -/
structure Confined (entries : List GlobalEntry) (index : Nat) (block : Block) : Prop where
  pushed : ∀ name ∈ pushedVariables block, name = globalName index ∨
    ∃ j < index, ∃ entry, entries[j]? = some entry ∧ entry.type.isMutable = false ∧
      name = globalName j
  assigned : ∀ stack, ∀ name ∈ assignedVariables stack block, name = globalName index

/-- A confined block changes no variable but that of its global. -/
theorem Confined.store_eq {entries : List GlobalEntry} {index : Nat} {block : Block}
    (h : Confined entries index block) {m m' : Machine} (hrun : m.run block = some m')
    {name : Bytes} (hname : name ≠ globalName index) : m'.store name = m.store name :=
  Machine.run_frame hrun fun hmem => hname (h.assigned m.stack name hmem)

/-- What the block of a global touches: what its initializer touches, and its own variable, if it
goes without a first value. -/
theorem ConstExpr.touched_of_lower {expr : ConstExpr} {env : GlobalEnv} {index : Nat}
    {name : Bytes} {type : AsmType} {block : Block} {init : Option Literal}
    (h : expr.lower env index name type = .ok (block, init)) :
    ∃ own, (∀ other ∈ own, other = name) ∧
      pushedVariables block = namesOf Operator.touched? expr.operators ++ own ∧
      ∀ stack, assignedVariables stack block = namesOf Operator.written? expr.operators ++ own := by
  obtain ⟨s, hs, hcases⟩ := lower_eq_ok h
  have hpushed : pushedVariables s.block = namesOf Operator.touched? expr.operators :=
    (InitState.touched_of_operators hs []).1
  have hassigned : ∀ stack,
      assignedVariables stack s.block = namesOf Operator.written? expr.operators :=
    fun stack => (InitState.touched_of_operators hs stack).2
  rcases hcases with ⟨value, -, -, rfl, -⟩ | ⟨-, rfl, -⟩
  · refine ⟨[], List.forall_mem_nil _, ?_, fun stack => ?_⟩
    · rw [hpushed, List.append_nil]
    · rw [hassigned, List.append_nil]
  · refine ⟨[name], fun _ hother => List.mem_singleton.1 hother, ?_, fun stack => ?_⟩
    · rw [pushedVariables, List.filterMap_append, ← pushedVariables, hpushed]
      rfl
    · rw [assignedVariables_store, hassigned]

section

variable {entries : List GlobalEntry} {lowered : List (Declaration × Block)} {i : Nat}
  {l : Declaration × Block} {entry : GlobalEntry}

/-- The initializer of an entry is lowered behind the entries before it. -/
theorem LowersTo.lower_of_entry (h : LowersTo 0 [] entries lowered) (hl : lowered[i]? = some l)
    (hentry : entries[i]? = some entry) :
    ∃ env : GlobalEnv, env.map Prod.snd = (entries.take i).map (·.type.isMutable) ∧
      entry.init.lower env i (globalName i) l.1.type = .ok (l.2, l.1.init) := by
  obtain ⟨entry', env, hentry', henv, -, hinit, -⟩ := h.exists_lower hl
  cases hentry.symm.trans hentry'
  rw [Nat.zero_add] at hinit
  exact ⟨env, henv, hinit⟩

/-- What the block of a global pushes is its own variable, or the variable of an earlier global that
never changes, or that of a global that its initializer writes. -/
theorem LowersTo.mem_pushedVariables (h : LowersTo 0 [] entries lowered)
    (hl : lowered[i]? = some l) (hentry : entries[i]? = some entry) {name : Bytes}
    (hname : name ∈ pushedVariables l.2) :
    name = globalName i ∨
      (∃ j < i, ∃ entry, entries[j]? = some entry ∧ entry.type.isMutable = false ∧
        name = globalName j) ∨
      ∃ target ∈ entry.init.written, name = globalName target.toNat := by
  obtain ⟨env, henv, hinit⟩ := h.lower_of_entry hl hentry
  obtain ⟨own, hown, hpushed, -⟩ := ConstExpr.touched_of_lower hinit
  rw [hpushed, List.mem_append, mem_namesOf] at hname
  rcases hname with ⟨op, hop, target, htarget, rfl⟩ | hname
  · rcases Operator.touched?_eq_some htarget with ⟨hget, htarget⟩ | hwritten
    · obtain ⟨s, hs, -⟩ := ConstExpr.lower_eq_ok hinit
      obtain ⟨hlt, type, htype⟩ := InitState.target_of_get hs hop hget htarget
      -- the environment is that of the entries in front
      have hmut : (env.map Prod.snd)[target.toNat]? = some false := by
        rw [List.getElem?_map, htype]
        rfl
      rw [henv, List.getElem?_map, List.getElem?_take_of_lt hlt] at hmut
      obtain ⟨earlier, hearlier, hfalse⟩ := Option.map_eq_some_iff.1 hmut
      exact .inr (.inl ⟨target.toNat, hlt, earlier, hearlier, hfalse, rfl⟩)
    · exact .inr (.inr ⟨target, ConstExpr.mem_written.2 ⟨op, hop, hwritten⟩, rfl⟩)
  · exact .inl (hown name hname)

/-- What the block of a global assigns is its own variable, or that of a global that its initializer
writes. -/
theorem LowersTo.mem_assignedVariables (h : LowersTo 0 [] entries lowered)
    (hl : lowered[i]? = some l) (hentry : entries[i]? = some entry) {stack : List Bytes}
    {name : Bytes} (hname : name ∈ assignedVariables stack l.2) :
    name = globalName i ∨ ∃ target ∈ entry.init.written, name = globalName target.toNat := by
  obtain ⟨env, -, hinit⟩ := h.lower_of_entry hl hentry
  obtain ⟨own, hown, -, hassigned⟩ := ConstExpr.touched_of_lower hinit
  rw [hassigned, List.mem_append, mem_namesOf] at hname
  rcases hname with ⟨op, hop, target, htarget, rfl⟩ | hname
  · exact .inr ⟨target, ConstExpr.mem_written.2 ⟨op, hop, htarget⟩, rfl⟩
  · exact .inl (hown name hname)

/-- What an initializer writes is pushed and assigned in its block. -/
theorem LowersTo.mem_of_written (h : LowersTo 0 [] entries lowered) (hl : lowered[i]? = some l)
    (hentry : entries[i]? = some entry) {target : UInt32}
    (htarget : target ∈ entry.init.written) :
    globalName target.toNat ∈ pushedVariables l.2 ∧
      ∀ stack, globalName target.toNat ∈ assignedVariables stack l.2 := by
  obtain ⟨env, -, hinit⟩ := h.lower_of_entry hl hentry
  obtain ⟨own, -, hpushed, hassigned⟩ := ConstExpr.touched_of_lower hinit
  obtain ⟨op, hop, hwritten⟩ := ConstExpr.mem_written.1 htarget
  constructor
  · rw [hpushed]
    exact List.mem_append_left _
      (mem_namesOf.2 ⟨op, hop, target, Operator.touched?_of_written? hwritten, rfl⟩)
  · intro stack
    rw [hassigned]
    exact List.mem_append_left _ (mem_namesOf.2 ⟨op, hop, target, hwritten, rfl⟩)

/-- **The block of a global is confined exactly when its initializer writes no other global.** -/
theorem LowersTo.confined_iff (h : LowersTo 0 [] entries lowered)
    (hsize : entries.length ≤ UInt32.size) (hl : lowered[i]? = some l)
    (hentry : entries[i]? = some entry) :
    Confined entries i l.2 ↔ ∀ target ∈ entry.init.written, target.toNat = i := by
  have hi : i < UInt32.size := Nat.lt_of_lt_of_le (List.getElem?_eq_some_iff.1 hentry).1 hsize
  constructor
  · intro hconfined target htarget
    have hmem := (h.mem_of_written hl hentry htarget).2 []
    exact globalName_inj target.toNat_lt hi (hconfined.assigned [] _ hmem)
  · intro hwritten
    constructor
    · intro name hname
      rcases h.mem_pushedVariables hl hentry hname with hown | hearlier | ⟨target, htarget, rfl⟩
      · exact .inl hown
      · exact .inr hearlier
      · exact .inl (congrArg globalName (hwritten target htarget))
    · intro stack name hname
      rcases h.mem_assignedVariables hl hentry hname with hown | ⟨target, htarget, rfl⟩
      · exact hown
      · exact congrArg globalName (hwritten target htarget)

end

/-- **Every variable that the blocks push is declared exactly when no initializer writes a global
that does not exist.** -/
theorem LowersTo.declared_iff {entries : List GlobalEntry} {lowered : List (Declaration × Block)}
    (h : LowersTo 0 [] entries lowered) (hsize : entries.length ≤ UInt32.size) :
    (∀ l ∈ lowered, ∀ name ∈ pushedVariables l.2, name ∈ lowered.map (·.1.name)) ↔
      ∀ entry ∈ entries, ∀ target ∈ entry.init.written, target.toNat < entries.length := by
  have hnames : ∀ name, name ∈ lowered.map (·.1.name) ↔
      ∃ j < entries.length, globalName j = name := by
    intro name
    rw [h.names, List.mem_map]
    simp only [List.mem_range'_1, Nat.zero_le, true_and, Nat.zero_add]
  constructor
  · intro hdeclared entry hentry target htarget
    obtain ⟨i, hi⟩ := List.mem_iff_getElem?.1 hentry
    obtain ⟨l, hl⟩ := h.exists_lowered hi
    have hmem := hdeclared l (List.mem_of_getElem? hl) _ (h.mem_of_written hl hi htarget).1
    obtain ⟨j, hj, hname⟩ := (hnames _).1 hmem
    cases globalName_inj (Nat.lt_of_lt_of_le hj hsize) target.toNat_lt hname
    exact hj
  · intro hwritten l hl name hname
    obtain ⟨i, hi⟩ := List.mem_iff_getElem?.1 hl
    obtain ⟨entry, -, hentry, -⟩ := h.exists_lower hi
    have hlt : i < entries.length := (List.getElem?_eq_some_iff.1 hentry).1
    rw [hnames]
    rcases h.mem_pushedVariables hi hentry hname with
      rfl | ⟨j, hj, -, -, -, rfl⟩ | ⟨target, htarget, rfl⟩
    · exact ⟨i, hlt, rfl⟩
    · exact ⟨j, Nat.lt_trans hj hlt, rfl⟩
    · exact ⟨target.toNat, hwritten entry (List.mem_of_getElem? hentry) target htarget, rfl⟩

/-! ## The whole program -/

/-- **What the blocks of a program touch.** The block of a global pushes its own variable and those
of earlier globals that never change, and assigns its own variable only, exactly when its
initializer writes no other global; and then running it leaves all other variables as they are. All
variables that the program pushes are declared exactly when no initializer writes a global that
does not exist. A module without a global section has no blocks. -/
theorem Options.program_confined_iff {o : Options} {data : Bytes} {p : Program}
    (h : o.program data = .ok p) :
    (o.records data = .ok [.header o.offset 1] ∧ p = {}) ∨
      ∃ frame v entries ds m,
        o.records data = .ok [.header o.offset 1, .vector frame .globals v] ∧
        v.globalEntries = .ok entries ∧ p.data = some ds ∧
        p.code = some { map := some m, exported := o.exportInit } ∧
        m.entries.length = entries.length ∧
        (∀ i entry, entries[i]? = some entry →
          ∃ block, m.get? (text "__INIT___G__" ++ decimal i) = some block ∧
            (Confined entries i block ↔ ∀ target ∈ entry.init.written, target.toNat = i) ∧
            (Confined entries i block → ∀ before after : Machine, before.run block = some after →
              ∀ name ≠ text "__G__" ++ decimal i, after.store name = before.store name)) ∧
        ((∀ block ∈ m.entries.map Prod.snd, ∀ name ∈ pushedVariables block,
            name ∈ ds.map (·.name)) ↔
          ∀ entry ∈ entries, ∀ target ∈ entry.init.written, target.toNat < entries.length) := by
  rcases program_eq_ok h with hempty |
    ⟨frame, v, entries, lowered, hrecords, hentries, hlen, hlowers, rfl⟩
  · exact .inl hempty
  have hsize : entries.length ≤ UInt32.size := hlen ▸ Nat.le_of_lt v.count.toNat_lt
  refine .inr ⟨frame, v, entries, _, _, hrecords, hentries, rfl, rfl, ?_, ?_, ?_⟩
  · rw [List.length_map, hlowers.length_eq]
  · intro i entry hentry
    obtain ⟨l, hl⟩ := hlowers.exists_lowered hentry
    have hi : i < entries.length := (List.getElem?_eq_some_iff.1 hentry).1
    refine ⟨l.2, hlowers.get?_label hsize hl, hlowers.confined_iff hsize hl hentry, ?_⟩
    intro hconfined before after hrun name hname
    rw [← globalName_eq (Nat.lt_of_lt_of_le hi hsize)] at hname
    exact hconfined.store_eq hrun hname
  · rw [← hlowers.declared_iff hsize, List.map_map, List.map_map, List.forall_mem_map]
    rfl

/-- The block of a copy is confined, and the program pushes what it declares. -/
theorem program_confined_copy :
    let data : Bytes := headerBytes ++
      [0x06, 0x0B, 0x02, 0x7F, 0x00, 0x41, 0x07, 0x0B, 0x7F, 0x00, 0x23, 0x00, 0x0B]
    ∃ p ds m entries block, ({} : Options).program data = .ok p ∧ p.data = some ds ∧
      p.code = some { map := some m, exported := false } ∧
      m.get? (text "__INIT___G__1") = some block ∧ Confined entries 1 block ∧
      ∀ block ∈ m.entries.map Prod.snd, ∀ name ∈ pushedVariables block,
        name ∈ ds.map (·.name) := by
  intro data
  let v : EntryVector :=
    { count := 2, bytes := [0x7F, 0, 0x41, 7, 0x0B, 0x7F, 0, 0x23, 0, 0x0B], offset := 11 }
  have h : ({} : Options).program data = .ok (unitOf false
      [({ name := globalName 0, type := .int32, init := some (.int32 7) }, []),
        ({ name := globalName 1, type := .int32 },
          [.push (globalName 0), .push (globalName 1), .copy])]).program := by
    decide +kernel
  have hread : ({} : Options).records data =
      .ok [.header 0 1, .vector { start := 8, payload := 10, stop := 21 } .globals v] := by
    decide +kernel
  let globals : List GlobalEntry :=
    [{ type := { type := .i32 }, init := { bytes := [0x41, 7, 0x0B], offset := 13 } },
      { type := { type := .i32 }, init := { bytes := [0x23, 0, 0x0B], offset := 18 } }]
  have hglobals : v.globalEntries = .ok globals := by decide +kernel
  have hwritten : globals.map (·.init.written) = [[], []] := by decide +kernel
  have hnone : ∀ entry ∈ globals, entry.init.written = [] := by
    intro entry hentry
    have hmem := List.mem_map_of_mem (f := (·.init.written)) hentry
    rw [hwritten] at hmem
    simpa using hmem
  rcases Options.program_confined_iff h with ⟨-, hempty⟩ |
    ⟨frame, v', entries, ds, m, hrecords, hentries, hdata, hcode, -, hconfined, hdeclared⟩
  · cases hempty
  rw [hread] at hrecords
  cases hrecords
  rw [hglobals] at hentries
  cases hentries
  obtain ⟨block, hblock, hiff, -⟩ := hconfined 1 _ rfl
  refine ⟨_, ds, m, globals, block, h, hdata, hcode, hblock, hiff.2 ?_, hdeclared.2 ?_⟩
  · rw [hnone _ (List.mem_cons_of_mem _ List.mem_cons_self)]
    exact List.forall_mem_nil _
  · intro entry hentry
    rw [hnone entry hentry]
    exact List.forall_mem_nil _

/-- An initializer that writes global 5 in a module of two globals: the program pushes and assigns a
variable that is not declared. -/
theorem program_pushes_undeclared :
    let data : Bytes := headerBytes ++ [0x06, 0x0F, 0x02, 0x7F, 0x00, 0x41, 0x01, 0x0B,
      0x7F, 0x00, 0x23, 0x00, 0x23, 0x00, 0x24, 0x05, 0x0B]
    ∃ p ds m block, ({} : Options).program data = .ok p ∧ p.data = some ds ∧
      p.code = some { map := some m, exported := false } ∧
      m.get? (text "__INIT___G__1") = some block ∧
      text "__G__5" ∈ pushedVariables block ∧ text "__G__5" ∈ assignedVariables [] block ∧
      ds.map (·.name) = [text "__G__0", text "__G__1"] := by
  intro data
  let block : Block := [.push (globalName 0), .push (globalName 0), .push (globalName 5), .copy,
    .push (globalName 1), .copy]
  have h : ({} : Options).program data = .ok (unitOf false
      [({ name := globalName 0, type := .int32, init := some (.int32 1) }, []),
        ({ name := globalName 1, type := .int32 }, block)]).program := by
    decide +kernel
  exact ⟨_, _, _, block, h, rfl, rfl, by decide +kernel, by decide +kernel, by decide +kernel,
    by decide +kernel⟩

end WasmUdon
