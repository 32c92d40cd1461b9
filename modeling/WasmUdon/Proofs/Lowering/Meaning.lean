import WasmUdon.Proofs.Assembly.Rendering
import WasmUdon.Proofs.Lowering.Initializer
import WasmUdon.Proofs.Lowering.Section
import WasmUdon.Proofs.Operator.Immediates

/-!
# Lowering keeps the meaning of initializers

Two machines set up the globals of a section. `evaluateGlobals` evaluates the operators of each
initializer on a stack of literals, given the values of the globals before; it does not know how
operators are lowered, and a constant must carry an immediate of its own sort. `Program.setUp`
runs the blocks that the section is lowered to, on a stack of references to variables, from the
first values of the declarations. Lowered blocks lack the constants, so the two stacks differ:
`Represents` ties both to what lowering knows about the stack.

Every effect of an operator keeps the three stacks tied (`InitState.Effect.represents`), so an
initializer leaves its value in its variable (`ConstExpr.run_of_lower`), and the blocks of a section
leave the values of all globals in their variables (`Record.setUp_of_lower`). Initializers
that write globals or end the program are left out.
-/

namespace WasmUdon

/-! ## Evaluating initializers -/

namespace Operator

/-- Evaluates an operator on a stack of literals with its top first, given the values of the
globals before. -/
def evaluate (values : List Literal) (stack : List Literal) (op : Operator) :
    Option (List Literal) :=
  match op.opcode, op.immediate with
  | Opcode.nop, _ | Opcode.blockEnd, _ => some stack
  | Opcode.drop, _ =>
    match stack with
    | [] => none
    | _ :: stack => some stack
  | Opcode.globalGet, some (.globalIndex target) => values[target.toNat]?.map (· :: stack)
  | Opcode.i32Const, some (.i32 value) => some (.int32 value :: stack)
  | Opcode.i64Const, some (.i64 value) => some (.int64 value :: stack)
  | Opcode.f32Const, some (.f32 bits) => some (.single bits :: stack)
  | Opcode.f64Const, some (.f64 bits) => some (.double bits :: stack)
  | _, _ => none

section

variable {op : Operator} (values stack : List Literal)

theorem evaluate_of_skip (hop : op.opcode = Opcode.nop ∨ op.opcode = Opcode.blockEnd) :
    op.evaluate values stack = some stack := by
  rcases hop with hop | hop <;> simp only [evaluate, hop] <;> rfl

theorem evaluate_of_drop (hop : op.opcode = Opcode.drop) (value : Literal) :
    op.evaluate values (value :: stack) = some stack := by
  simp only [evaluate, hop]
  rfl

theorem evaluate_of_get (hop : op.opcode = Opcode.globalGet) {target : UInt32}
    (htarget : op.immediate = some (.globalIndex target)) :
    op.evaluate values stack = values[target.toNat]?.map (· :: stack) := by
  simp only [evaluate, hop, htarget]
  rfl

/-- The literal to which a constant is lowered is its value, since its immediate is of its sort. -/
theorem evaluate_of_const (hop : op.opcode ∈ Opcode.constants) (htyped : op.WellTyped)
    {value : Literal} (hvalue : op.literal? = some value) :
    op.evaluate values stack = some (value :: stack) := by
  obtain ⟨layout, hlayout, hholds⟩ := htyped
  simp only [Opcode.constants, List.mem_cons, List.not_mem_nil, or_false] at hop
  unfold literal? at hvalue
  split at hvalue
  case h_5 => cases hvalue
  -- an immediate of one of the four sorts leaves one of the four opcodes
  all_goals
    rename_i himmediate
    rw [himmediate] at hholds
    cases hvalue
    cases hholds
    rcases hop with hop | hop | hop | hop <;> rw [hop] at hlayout <;> cases hlayout
    simp only [evaluate, hop, himmediate]
    rfl

end

/-- The operator neither writes a global nor ends the program. -/
def IsPlain (op : Operator) : Prop :=
  op.opcode ≠ Opcode.globalSet ∧ op.opcode ≠ Opcode.unreachable

instance (op : Operator) : Decidable op.IsPlain :=
  inferInstanceAs (Decidable (op.opcode ≠ Opcode.globalSet ∧ op.opcode ≠ Opcode.unreachable))

end Operator

/-- The value of an initializer, given the values of the globals before. -/
def ConstExpr.evaluate (values : List Literal) (expr : ConstExpr) : Option Literal :=
  match expr.operators.foldlM (Operator.evaluate values) [] with
  | some [value] => some value
  | _ => none

/-- The values of globals behind those with the values given. -/
def evaluateGlobals (values : List Literal) : List GlobalEntry → Option (List Literal)
  | [] => some values
  | entry :: entries =>
    match entry.init.evaluate values with
    | none => none
    | some value => evaluateGlobals (values ++ [value]) entries

/-! ## Running blocks -/

/-- The variables of a program that runs: a declared variable has a value or none yet. -/
abbrev Store := Bytes → Option (Option Literal)

/-- The store after an assignment. -/
def Store.assign (store : Store) (name : Bytes) (value : Literal) : Store :=
  fun other => if other = name then some (some value) else store other

/-- A program that runs: its variables and a stack of references to them, the top first. -/
structure Machine where
  store : Store
  stack : List Bytes

namespace Machine

/-- Runs an instruction. A machine that lacks a variable, a value or an entry of the stack is
stuck, and so is one that meets any other instruction. -/
def step (m : Machine) : Instruction → Option Machine
  | .nop => some m
  | .push name => (m.store name).map fun _ => { m with stack := name :: m.stack }
  | .pop =>
    match m.stack with
    | [] => none
    | _ :: stack => some { m with stack }
  | .copy =>
    match m.stack with
    | destination :: source :: stack =>
      match m.store destination, m.store source with
      | some _, some (some value) => some { store := m.store.assign destination value, stack }
      | _, _ => none
    | _ => none
  | _ => none

/-- Runs a block. -/
def run (m : Machine) (block : Block) : Option Machine := block.foldlM step m

theorem run_append {m m' : Machine} {block : Block} (h : m.run block = some m') (rest : Block) :
    m.run (block ++ rest) = m'.run rest := by
  simp only [run, List.foldlM_append] at h ⊢
  rw [h]
  rfl

theorem run_push {store : Store} {stack : List Bytes} {name : Bytes} {value : Option Literal}
    (h : store name = some value) :
    run { store, stack } [.push name] = some { store, stack := name :: stack } := by
  simp [run, step, h]

/-- Pushing a variable behind another one and copying stores the value of the first. -/
theorem run_store {store : Store} {stack : List Bytes} {source destination : Bytes}
    {value : Literal} {old : Option Literal} (hsource : store source = some (some value))
    (hdestination : store destination = some old) :
    run { store, stack := source :: stack } [.push destination, .copy] =
      some { store := store.assign destination value, stack } := by
  simp [run, step, hsource, hdestination]

end Machine

namespace Program

/-- A program that starts: each variable has the first value of its declaration. -/
def start (p : Program) : Machine :=
  { store := fun name => (p.declarations.find? (·.name = name)).map Declaration.init, stack := [] }

/-- Runs the blocks of a program in their order. -/
def setUp (p : Program) : Option Machine :=
  p.blocks.foldlM (fun m entry => m.run entry.2) p.start

end Program

/-! ## One initializer -/

/-- What lowering knows about the stack, the stack of the machine and the stack of literals belong
together: the machine does not have the constants, and a reference is a variable that holds the
literal. -/
inductive Represents (store : Store) : List StackValue → List Bytes → List Literal → Prop
  | nil : Represents store [] [] []
  | constant {value : Literal} {stack : List StackValue} {names : List Bytes}
    {literals : List Literal} (h : Represents store stack names literals) :
    Represents store (.constant value :: stack) names (value :: literals)
  | reference {name : Bytes} {value : Literal} {stack : List StackValue} {names : List Bytes}
    {literals : List Literal} (hname : store name = some (some value))
    (h : Represents store stack names literals) :
    Represents store (.reference value.type :: stack) (name :: names) (value :: literals)

/-- The globals met so far have values of the types given, and their variables hold them. -/
structure Knows (types : List AsmType) (values : List Literal) (store : Store) : Prop where
  types_eq : values.map Literal.type = types
  holds : ∀ {i : Nat} {value : Literal}, values[i]? = some value →
    store (globalName i) = some (some value)

theorem Knows.exists_value {env : GlobalEnv} {values : List Literal} {store : Store}
    (h : Knows (env.map Prod.fst) values store) {i : Nat} {type : AsmType} {isMutable : Bool}
    (hi : env[i]? = some (type, isMutable)) : ∃ value, values[i]? = some value ∧
      value.type = type := by
  have htype : (values.map Literal.type)[i]? = some type := by
    rw [h.types_eq, List.getElem?_map, hi]
    rfl
  rw [List.getElem?_map, Option.map_eq_some_iff] at htype
  exact htype

namespace InitState

/-- **An operator keeps the stacks together.** The machine has run the instructions emitted before
it and runs those emitted by it, and evaluating the operator gives the new literals. -/
theorem Effect.represents {env : GlobalEnv} {index : Nat} {op : Operator} {s s' : InitState}
    {values literals : List Literal} {m : Machine} {store : Store} {names : List Bytes}
    (h : Effect env index op s s') (hop : op.IsPlain) (htyped : op.WellTyped)
    (hknows : Knows (env.map Prod.fst) values store)
    (hrun : m.run s.block = some { store, stack := names })
    (hrep : Represents store s.stack names literals) :
    ∃ names' literals', m.run s'.block = some { store, stack := names' } ∧
      op.evaluate values literals = some literals' ∧
      Represents store s'.stack names' literals' := by
  cases h with
  | nop hnop =>
    refine ⟨names, literals, ?_, Operator.evaluate_of_skip _ _ (.inl hnop), hrep⟩
    exact Machine.run_append hrun _
  | blockEnd hend => exact ⟨names, literals, hrun, Operator.evaluate_of_skip _ _ (.inr hend), hrep⟩
  | halt hhalt => exact absurd hhalt hop.2
  | @const value hconst hvalue =>
    refine ⟨names, value :: literals, hrun, ?_, .constant hrep⟩
    exact Operator.evaluate_of_const _ _ hconst htyped hvalue
  | @dropConstant value stack hdrop hstack =>
    rw [hstack] at hrep
    cases hrep with
    | constant hrep => exact ⟨names, _, hrun, Operator.evaluate_of_drop _ _ hdrop _, hrep⟩
  | @dropVariable top stack hdrop hstack htop =>
    rw [hstack] at hrep
    cases hrep with
    | constant hrep => exact absurd rfl (htop _)
    | @reference name value stack names literals hname hrep =>
      refine ⟨names, literals, ?_, Operator.evaluate_of_drop _ _ hdrop _, hrep⟩
      exact Machine.run_append hrun _
  | @get target type hget htarget hlt henv =>
    -- the global has its value already, since only earlier globals are in the environment
    obtain ⟨value, hvalue, rfl⟩ := hknows.exists_value henv
    have hname : store (Slot.ofGlobal target).name = some (some value) := by
      rw [← globalName_toNat]
      exact hknows.holds hvalue
    refine ⟨_ :: names, value :: literals, ?_, ?_, .reference hname hrep⟩
    · rw [emit, Machine.run_append hrun, Machine.run_push hname]
    · rw [Operator.evaluate_of_get _ _ hget htarget, hvalue]
      rfl
  | set hset htarget hstack htop => exact absurd hset hop.1

theorem represents_of_operators {env : GlobalEnv} {index : Nat} {ops : List Operator}
    {s s' : InitState} {values literals : List Literal} {m : Machine} {store : Store}
    {names : List Bytes} (h : operators env index s ops = .ok s')
    (hops : ∀ op ∈ ops, op.IsPlain ∧ op.WellTyped)
    (hknows : Knows (env.map Prod.fst) values store)
    (hrun : m.run s.block = some { store, stack := names })
    (hrep : Represents store s.stack names literals) :
    ∃ names' literals', m.run s'.block = some { store, stack := names' } ∧
      ops.foldlM (Operator.evaluate values) literals = some literals' ∧
      Represents store s'.stack names' literals' := by
  induction ops generalizing s names literals with
  | nil =>
    cases h
    exact ⟨names, literals, hrun, rfl, hrep⟩
  | cons op ops ih =>
    obtain ⟨s₁, hop, hrest⟩ := operators_cons_eq_ok_iff.1 h
    obtain ⟨hplain, htyped⟩ := hops op List.mem_cons_self
    obtain ⟨names₁, literals₁, hrun₁, heval, hrep₁⟩ :=
      (effect_of_operator hop).represents hplain htyped hknows hrun hrep
    obtain ⟨names', literals', hrun', hevals, hrep'⟩ :=
      ih hrest (fun op' hop' => hops op' (List.mem_cons_of_mem _ hop')) hrun₁ hrep₁
    refine ⟨names', literals', hrun', ?_, hrep'⟩
    rw [List.foldlM_cons, heval]
    exact hevals

end InitState

theorem Store.assign_of_eq {store : Store} {name : Bytes} {value : Literal}
    (h : store name = some (some value)) : store.assign name value = store := by
  funext other
  rw [assign]
  split
  · rename_i heq
    rw [heq, h]
  · rfl

/-- **A lowered initializer leaves its value in its variable.** The variable starts with the first
value of the declaration, and the block neither needs nor leaves anything on the stack. -/
theorem ConstExpr.run_of_lower {expr : ConstExpr} {env : GlobalEnv} {index : Nat} {name : Bytes}
    {type : AsmType} {block : Block} {init : Option Literal} {values : List Literal}
    {store : Store} (h : expr.lower env index name type = .ok (block, init))
    (hops : ∀ op ∈ expr.operators, op.IsPlain) (hknows : Knows (env.map Prod.fst) values store)
    (hname : store name = some init) :
    ∃ value, expr.evaluate values = some value ∧ value.type = type ∧
      Machine.run { store, stack := [] } block =
        some { store := store.assign name value, stack := [] } := by
  obtain ⟨s, hs, hcases⟩ := lower_eq_ok h
  have hread : ∀ op ∈ expr.operators, op.IsPlain ∧ op.WellTyped := fun op hop =>
    ⟨hops op hop, Operator.wellTyped_of_mem_readAll hop⟩
  obtain ⟨names, literals, hrun, heval, hrep⟩ :=
    InitState.represents_of_operators hs hread hknows
      (show Machine.run { store, stack := [] } [] = _ from rfl) .nil
  rcases hcases with ⟨value, hstack, htype, rfl, rfl⟩ | ⟨hstack, rfl, rfl⟩
  · rw [hstack] at hrep
    cases hrep with
    | constant hrep =>
      cases hrep
      refine ⟨value, ?_, htype, ?_⟩
      · rw [evaluate, heval]
      · -- the variable starts with the constant, so there is nothing to assign
        rw [Store.assign_of_eq hname]
        exact hrun
  · rw [hstack] at hrep
    cases hrep with
    | @reference source value _ _ _ hsource hrep =>
      cases hrep
      refine ⟨value, ?_, rfl, ?_⟩
      · rw [evaluate, heval]
      · rw [Machine.run_append hrun]
        exact Machine.run_store hsource hname

/-! ## All initializers of a section -/

theorem Store.assign_of_ne {store : Store} {name other : Bytes} (h : other ≠ name)
    (value : Literal) : store.assign name value other = store other := if_neg h

/-- Setting up the next global keeps what is known about those before it. -/
theorem Knows.assign {types : List AsmType} {values : List Literal} {store : Store}
    (h : Knows types values store) (hsize : types.length < UInt32.size) (value : Literal) :
    Knows (types ++ [value.type]) (values ++ [value])
      (store.assign (globalName types.length) value) where
  types_eq := by rw [List.map_append, h.types_eq, List.map_singleton]
  holds := by
    intro i found hfound
    have hlen : values.length = types.length := by rw [← h.types_eq, List.length_map]
    have hi := (List.getElem?_eq_some_iff.1 hfound).1
    rw [List.length_append, List.length_singleton] at hi
    rcases Nat.lt_succ_iff_lt_or_eq.1 hi with hlt | rfl
    · rw [List.getElem?_append_left hlt] at hfound
      rw [Store.assign_of_ne, h.holds hfound]
      intro heq
      have := globalName_inj (by omega) hsize heq
      omega
    · rw [List.getElem?_concat_length, Option.some.injEq] at hfound
      rw [hlen, hfound]
      exact if_pos rfl

/-- The blocks of lowered globals, run one after the other, leave the value of each global in its
variable. -/
theorem LowersTo.run {index : Nat} {env : GlobalEnv} {entries : List GlobalEntry}
    {lowered : List (Declaration × Block)} {values : List Literal} {store : Store}
    (h : LowersTo index env entries lowered) (hsize : index + entries.length ≤ UInt32.size)
    (hindex : env.length = index)
    (hops : ∀ entry ∈ entries, ∀ op ∈ entry.init.operators, op.IsPlain)
    (hknows : Knows (env.map Prod.fst) values store)
    (hstore : ∀ l ∈ lowered, store l.1.name = some l.1.init) :
    ∃ values' store', evaluateGlobals values entries = some values' ∧
      (lowered.map initEntry).foldlM (fun m entry => Machine.run m entry.2) { store, stack := [] } =
        some { store := store', stack := [] } ∧
      Knows (env.map Prod.fst ++ lowered.map (·.1.type)) values' store' := by
  induction h generalizing values store with
  | nil =>
    refine ⟨values, store, rfl, rfl, ?_⟩
    rwa [List.map_nil, List.append_nil]
  | @cons index env entry entries type block init lowered htype hinit hrest ih =>
    rw [List.length_cons] at hsize
    obtain ⟨value, heval, rfl, hrun⟩ := entry.init.run_of_lower hinit
      (hops entry List.mem_cons_self) hknows (hstore _ List.mem_cons_self)
    have hlen : (env.map Prod.fst).length = index := by rw [List.length_map, hindex]
    have hknows' := hknows.assign (by omega) value
    rw [hlen] at hknows'
    -- the variables of later globals are not touched
    have hstore' : ∀ l ∈ lowered,
        store.assign (globalName index) value l.1.name = some l.1.init := by
      intro l hl
      have hname : l.1.name ∈ lowered.map (·.1.name) := List.mem_map_of_mem hl
      rw [hrest.names, List.mem_map] at hname
      obtain ⟨j, hj, hname⟩ := hname
      rw [List.mem_range'_1] at hj
      rw [Store.assign_of_ne, hstore l (List.mem_cons_of_mem _ hl)]
      intro heq
      have := globalName_inj (by omega) (by omega) (hname.trans heq)
      omega
    have hlen' : (env ++ [(value.type, entry.type.isMutable)]).length = index + 1 := by
      rw [List.length_append, List.length_singleton, hindex]
    have htypes : (env ++ [(value.type, entry.type.isMutable)]).map Prod.fst =
        env.map Prod.fst ++ [value.type] := by
      rw [List.map_append, List.map_singleton]
    obtain ⟨values', store', hevals, hruns, hfinal⟩ := ih (by omega) hlen'
      (fun entry' hentry' => hops entry' (List.mem_cons_of_mem _ hentry')) (htypes ▸ hknows')
      hstore'
    refine ⟨values', store', ?_, ?_, ?_⟩
    · rw [evaluateGlobals, heval]
      exact hevals
    · rw [List.map_cons, List.foldlM_cons]
      exact (congrArg (· >>= _) hrun).trans hruns
    · rw [htypes, List.append_assoc] at hfinal
      exact hfinal

theorem find?_name {ds : List Declaration} (h : (ds.map Declaration.name).Nodup) {d : Declaration}
    (hd : d ∈ ds) : ds.find? (·.name = d.name) = some d := by
  induction ds with
  | nil => cases hd
  | cons d' ds ih =>
    rw [List.map_cons, List.nodup_cons] at h
    rcases List.mem_cons.1 hd with rfl | hd
    · simp
    · have hne : d'.name ≠ d.name := fun heq => h.1 (heq ▸ List.mem_map_of_mem hd)
      rw [List.find?_cons_of_neg (by simpa using hne)]
      exact ih h.2 hd

theorem LowersTo.start_store {entries : List GlobalEntry} {lowered : List (Declaration × Block)}
    (h : LowersTo 0 [] entries lowered) (hsize : entries.length ≤ UInt32.size) (exported : Bool)
    {l : Declaration × Block} (hl : l ∈ lowered) :
    (unitOf exported lowered).program.start.store l.1.name = some l.1.init := by
  have hnames : ((lowered.map Prod.fst).map Declaration.name).Nodup := by
    refine List.Nodup.of_map initLabel ?_
    rw [List.map_map, List.map_map]
    have hlabels := h.nodup_labels (by omega)
    rwa [List.map_map] at hlabels
  have hfind := find?_name hnames (List.mem_map_of_mem hl)
  exact congrArg (Option.map Declaration.init) hfind

/-- Each lowered global is declared with its name and the type of its entry. -/
theorem LowersTo.exists_entry {index : Nat} {env : GlobalEnv} {entries : List GlobalEntry}
    {lowered : List (Declaration × Block)} (h : LowersTo index env entries lowered) {i : Nat}
    {l : Declaration × Block} (hl : lowered[i]? = some l) :
    l.1.name = globalName (index + i) ∧
      ∃ entry, entries[i]? = some entry ∧ entry.type.type.lower = .ok l.1.type := by
  induction h generalizing i with
  | nil => cases hl
  | @cons index env entry entries type block init lowered htype hinit hrest ih =>
    cases i with
    | zero =>
      cases hl
      exact ⟨rfl, entry, rfl, htype⟩
    | succ i =>
      obtain ⟨hname, hentry⟩ := ih hl
      refine ⟨?_, hentry⟩
      rw [hname]
      congr 1
      omega

/-- **Lowering a global section keeps the meaning of its initializers.** If none of them writes a
global or ends the program, then the program of the section runs to its end with an empty stack,
and the variable of every global holds the value of its initializer, which has the declared
type. -/
theorem Record.setUp_of_lower {frame : Frame} {v : EntryVector} {exported : Bool} {u : ProgramUnit}
    (h : (Record.vector frame .globals v).lower exported = .ok u) :
    ∃ entries, v.globalEntries = .ok entries ∧ entries.length = v.count.toNat ∧
      ((∀ entry ∈ entries, ∀ op ∈ entry.init.operators, op.IsPlain) →
        ∃ values store, evaluateGlobals [] entries = some values ∧
          u.program.setUp = some { store, stack := [] } ∧ values.length = v.count.toNat ∧
          ∀ i value, values[i]? = some value → store (globalName i) = some (some value) ∧
            ∃ entry d, entries[i]? = some entry ∧ entry.type.type.lower = .ok value.type ∧
              u.program.declarations[i]? = some d ∧ d.name = globalName i ∧
              d.type = value.type) := by
  obtain ⟨entries, lowered, hentries, hlen, hlowers, rfl⟩ := EntryVector.exists_lowersTo h
  refine ⟨entries, hentries, hlen, fun hops => ?_⟩
  have hsize : entries.length ≤ UInt32.size := by
    rw [hlen]
    exact Nat.le_of_lt v.count.toNat_lt
  have hknows : Knows [] [] (unitOf exported lowered).program.start.store := ⟨rfl, nofun⟩
  obtain ⟨values, store, hevals, hrun, hknows'⟩ :=
    hlowers.run (by omega) rfl hops hknows fun l hl => hlowers.start_store hsize exported hl
  have htypes : values.map Literal.type = lowered.map (·.1.type) := hknows'.types_eq
  refine ⟨values, store, hevals, hrun, ?_, fun i value hvalue => ?_⟩
  · rw [← hlen, ← hlowers.length_eq, ← List.length_map (f := Literal.type), htypes, List.length_map]
  · have htype : (lowered.map (·.1.type))[i]? = some value.type := by
      rw [← htypes, List.getElem?_map, hvalue]
      rfl
    rw [List.getElem?_map, Option.map_eq_some_iff] at htype
    obtain ⟨l, hl, htype⟩ := htype
    obtain ⟨hname, entry, hentry, hlower⟩ := hlowers.exists_entry hl
    refine ⟨hknows'.holds hvalue, entry, l.1, hentry, htype ▸ hlower, ?_, ?_, htype⟩
    · exact (List.getElem?_map ..).trans (congrArg (Option.map Prod.fst) hl)
    · rw [hname, Nat.zero_add]

/-- A constant and a copy of it. -/
def constantAndCopy : List GlobalEntry :=
  [{ type := { type := .i32 }, init := { bytes := [0x41, 7, 0x0B], offset := 2 } },
    { type := { type := .i32 }, init := { bytes := [0x23, 0, 0x0B], offset := 7 } }]

theorem setUp_of_constantAndCopy :
    let v : EntryVector :=
      { count := 2, bytes := [0x7F, 0, 0x41, 7, 0x0B, 0x7F, 0, 0x23, 0, 0x0B], offset := 0 }
    ∃ u store, v.globalEntries = .ok constantAndCopy ∧
      (Record.vector { start := 0, payload := 0, stop := 10 } .globals v).lower false = .ok u ∧
      u.program.setUp = some { store, stack := [] } ∧
      store (globalName 0) = some (some (.int32 7)) ∧
      store (globalName 1) = some (some (.int32 7)) := by
  intro v
  have hread : v.globalEntries = .ok constantAndCopy := by decide +kernel
  have hlower : (Record.vector { start := 0, payload := 0, stop := 10 } .globals v).lower false =
      .ok (unitOf false
        [({ name := globalName 0, type := .int32, init := some (.int32 7) }, []),
          ({ name := globalName 1, type := .int32 },
            [.push (globalName 0), .push (globalName 1), .copy])]) := by decide +kernel
  obtain ⟨entries, hentries, -, hmeaning⟩ := Record.setUp_of_lower hlower
  rw [hread] at hentries
  cases hentries
  obtain ⟨values, store, hvalues, hsetUp, -, hholds⟩ := hmeaning (by decide +kernel)
  have hseven : evaluateGlobals [] constantAndCopy = some [.int32 7, .int32 7] := by
    decide +kernel
  rw [hseven] at hvalues
  cases hvalues
  exact ⟨_, store, hread, hlower, hsetUp, (hholds 0 _ rfl).1, (hholds 1 _ rfl).1⟩

end WasmUdon
