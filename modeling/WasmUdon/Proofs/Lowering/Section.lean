import WasmUdon.Lowering.Section
import WasmUdon.Proofs.Assembly.CodeMap
import WasmUdon.Proofs.Lowering.Names

/-!
# What a global section is lowered to

Reading the entries of a section and lowering them are interleaved. They are taken apart here:
`EntryVector.globalEntries` reads all entries, and `LowersTo` relates entries to the declaration
and the block of each. A section that is lowered gives exactly the declarations and blocks of its
entries, in their order (`EntryVector.exists_lowersTo`); no block replaces another one, since there
are fewer globals than indices and so all labels are distinct. A section is lowered if its entries
can be read and lowered (`EntryVector.lowerGlobals_of_lowersTo`).
-/

namespace WasmUdon

/-! ## Steps that may fail -/

theorem except_bind_eq_ok_iff {α β : Type} {x : Except Error α} {f : α → Except Error β} {b : β} :
    (x >>= f) = .ok b ↔ ∃ a, x = .ok a ∧ f a = .ok b := by
  cases x with
  | error e => simp [bind, Except.bind]
  | ok a => simp [bind, Except.bind]

theorem except_bind_eq_error_iff {α β : Type} {x : Except Error α} {f : α → Except Error β}
    {e : Error} : (x >>= f) = .error e ↔ x = .error e ∨ ∃ a, x = .ok a ∧ f a = .error e := by
  cases x with
  | error e => simp [bind, Except.bind]
  | ok a => simp [bind, Except.bind]

/-! ## Reading the entries -/

/-- The next `n` entries, and the reader behind them. -/
def GlobalReader.readMany :
    (n : Nat) → GlobalReader → Except Error (List GlobalEntry × GlobalReader)
  | 0, g => .ok ([], g)
  | n + 1, g =>
    match g.read with
    | (.error e, _) => .error e
    | (.ok entry, g') =>
      match readMany n g' with
      | .error e => .error e
      | .ok (entries, g'') => .ok (entry :: entries, g'')

/-- The entries of a global section. -/
def EntryVector.globalEntries (v : EntryVector) : Except Error (List GlobalEntry) :=
  match GlobalReader.readMany v.count.toNat (.ofVector v) with
  | .error e => .error e
  | .ok (entries, _) => .ok entries

theorem GlobalReader.counts_of_read {g g' : GlobalReader} {entry : GlobalEntry}
    (h : g.read = (.ok entry, g')) : g'.index = g.index + 1 ∧ g'.count = g.count := by
  unfold read at h
  split at h
  · split at h
    · cases h
      exact ⟨rfl, rfl⟩
    · cases h
  · cases h

/-! ## Lowering the entries -/

/-- The name of the variable of a global. -/
def globalName (index : Nat) : Bytes := (Slot.ofGlobal (UInt32.ofNat index)).name

theorem globalName_toNat (index : UInt32) :
    globalName index.toNat = (Slot.ofGlobal index).name := by
  rw [globalName, UInt32.ofNat_toNat]

theorem globalName_inj {i j : Nat} (hi : i < UInt32.size) (hj : j < UInt32.size)
    (h : globalName i = globalName j) : i = j := by
  have hof : UInt32.ofNat i = UInt32.ofNat j := Slot.name_ofGlobal_inj h
  have htoNat := congrArg UInt32.toNat hof
  rwa [UInt32.toNat_ofNat_of_lt' hi, UInt32.toNat_ofNat_of_lt' hj] at htoNat

/-- The entries from an index on, behind globals with given types, are lowered to declarations and
blocks. -/
inductive LowersTo : Nat → GlobalEnv → List GlobalEntry → List (Declaration × Block) → Prop
  | nil {index : Nat} {env : GlobalEnv} : LowersTo index env [] []
  | cons {index : Nat} {env : GlobalEnv} {entry : GlobalEntry} {entries : List GlobalEntry}
    {type : AsmType} {block : Block} {init : Option Literal} {lowered : List (Declaration × Block)}
    (htype : entry.type.type.lower = .ok type)
    (hinit : entry.init.lower env index (globalName index) type = .ok (block, init))
    (hrest : LowersTo (index + 1) (env ++ [(type, entry.type.isMutable)]) entries lowered) :
    LowersTo index env (entry :: entries)
      (({ name := globalName index, type, init }, block) :: lowered)

/-- The code map entry of a lowered global. -/
def initEntry (lowered : Declaration × Block) : Bytes × Block :=
  (initLabel lowered.1.name, lowered.2)

theorem LowersTo.names {index : Nat} {env : GlobalEnv} {entries : List GlobalEntry}
    {lowered : List (Declaration × Block)} (h : LowersTo index env entries lowered) :
    lowered.map (·.1.name) = (List.range' index entries.length).map globalName := by
  induction h with
  | nil => rfl
  | cons htype hinit hrest ih => simp [List.range'_succ, ih]

theorem LowersTo.length_eq {index : Nat} {env : GlobalEnv} {entries : List GlobalEntry}
    {lowered : List (Declaration × Block)} (h : LowersTo index env entries lowered) :
    lowered.length = entries.length := by
  induction h with
  | nil => rfl
  | cons htype hinit hrest ih => rw [List.length_cons, List.length_cons, ih]

/-- The labels of lowered globals are distinct. -/
theorem LowersTo.nodup_labels {index : Nat} {env : GlobalEnv} {entries : List GlobalEntry}
    {lowered : List (Declaration × Block)} (h : LowersTo index env entries lowered)
    (hsize : index + entries.length ≤ UInt32.size) :
    ((lowered.map initEntry).map Prod.fst).Nodup := by
  have hlabels : (lowered.map initEntry).map Prod.fst =
      (List.range' index entries.length).map (initLabel ∘ globalName) := by
    rw [← List.map_map, ← h.names, List.map_map, List.map_map]
    rfl
  rw [hlabels]
  refine List.Nodup.map_on ?_ List.nodup_range'
  intro i hi j hj hij
  rw [List.mem_range'_1] at hi hj
  exact globalName_inj (by omega) (by omega) (initLabel_inj hij)

theorem LoweredGlobals.add_eq_ok {s s' : LoweredGlobals} {index : Nat} {entry : GlobalEntry}
    (h : s.add index entry = .ok s') :
    ∃ type block init, entry.type.type.lower = .ok type ∧
      entry.init.lower s.env index (globalName index) type = .ok (block, init) ∧
      s' = { env := s.env ++ [(type, entry.type.isMutable)]
             declarations := s.declarations ++ [{ name := globalName index, type, init }]
             code := s.code.set (initLabel (globalName index)) block } := by
  unfold add at h
  dsimp only at h
  split at h
  · cases h
  · rename_i type block init hlowered
    cases h
    obtain ⟨type', htype, hlowered⟩ := except_bind_eq_ok_iff.1 hlowered
    obtain ⟨⟨block', init'⟩, hinit, hlowered⟩ := except_bind_eq_ok_iff.1 hlowered
    cases hlowered
    exact ⟨_, block', init', htype, hinit, rfl⟩

/-- Reading and lowering entries in turn is reading them all and lowering them all. -/
theorem LoweredGlobals.exists_lowersTo {n : Nat} {g g' : GlobalReader} {s s' : LoweredGlobals}
    (h : addEntries n g s = .ok (g', s')) :
    ∃ entries lowered, GlobalReader.readMany n g = .ok (entries, g') ∧ entries.length = n ∧
      LowersTo g.index s.env entries lowered ∧
      s'.declarations = s.declarations ++ lowered.map Prod.fst ∧
      s'.code = (lowered.map initEntry).foldl (fun m entry => m.set entry.1 entry.2) s.code := by
  induction n generalizing g s with
  | zero =>
    cases h
    exact ⟨[], [], rfl, rfl, .nil, (List.append_nil _).symm, rfl⟩
  | succ n ih =>
    unfold addEntries at h
    split at h
    · cases h
    rename_i entry g₁ hread
    split at h
    · cases h
    rename_i s₁ hadd
    obtain ⟨type, block, init, htype, hinit, rfl⟩ := add_eq_ok hadd
    obtain ⟨entries, lowered, hmany, hlen, hlowers, hdecls, hcode⟩ := ih h
    rw [(GlobalReader.counts_of_read hread).1] at hlowers
    refine ⟨entry :: entries, _, ?_, ?_, .cons htype hinit hlowers, ?_, hcode⟩
    · simp only [GlobalReader.readMany, hread, hmany]
    · rw [List.length_cons, hlen]
    · rw [hdecls, List.map_cons, List.append_assoc, List.singleton_append]

/-- The unit of lowered globals. -/
def unitOf (exported : Bool) (lowered : List (Declaration × Block)) : ProgramUnit :=
  { kind := .global
    program :=
      { data := some (lowered.map Prod.fst)
        code := some { map := some { entries := lowered.map initEntry }, exported } } }

/-- **A global section is lowered entry by entry.** -/
theorem EntryVector.exists_lowersTo {v : EntryVector} {exported : Bool} {u : ProgramUnit}
    (h : v.lowerGlobals exported = .ok u) :
    ∃ entries lowered, v.globalEntries = .ok entries ∧ entries.length = v.count.toNat ∧
      LowersTo 0 [] entries lowered ∧ u = unitOf exported lowered := by
  unfold lowerGlobals at h
  split at h
  · cases h
  rename_i g s hadd
  split at h
  · cases h
  obtain ⟨entries, lowered, hmany, hlen, hlowers, hdecls, hcode⟩ :=
    LoweredGlobals.exists_lowersTo hadd
  have hnodup := hlowers.nodup_labels (by
    rw [hlen]
    exact Nat.le_of_lt (Nat.zero_add _ ▸ v.count.toNat_lt))
  have hentries : s.code.entries = lowered.map initEntry := by
    rw [hcode]
    exact CodeMap.entries_foldl_set hnodup
  refine ⟨entries, lowered, ?_, hlen, hlowers, ?_⟩
  · rw [globalEntries, hmany]
  · cases h
    rw [unitOf, ← hentries, hdecls]
    rfl

/-! ## Sections that are lowered -/

/-- Entries are lowered in one way at most. -/
theorem LowersTo.unique {index : Nat} {env : GlobalEnv} {entries : List GlobalEntry}
    {lowered lowered' : List (Declaration × Block)} (h : LowersTo index env entries lowered)
    (h' : LowersTo index env entries lowered') : lowered = lowered' := by
  induction h generalizing lowered' with
  | nil =>
    cases h'
    rfl
  | cons htype hinit hrest ih =>
    cases h' with
    | cons htype' hinit' hrest' =>
      cases htype.symm.trans htype'
      cases hinit.symm.trans hinit'
      rw [ih hrest']

theorem LoweredGlobals.add_of_lower {s : LoweredGlobals} {index : Nat} {entry : GlobalEntry}
    {type : AsmType} {block : Block} {init : Option Literal}
    (htype : entry.type.type.lower = .ok type)
    (hinit : entry.init.lower s.env index (globalName index) type = .ok (block, init)) :
    s.add index entry = .ok
      { env := s.env ++ [(type, entry.type.isMutable)]
        declarations := s.declarations ++ [{ name := globalName index, type, init }]
        code := s.code.set (initLabel (globalName index)) block } := by
  rw [globalName] at hinit
  simp only [add, htype, hinit, bind, Except.bind]
  rfl

/-- Entries that can be read and lowered are read and lowered in turn. -/
theorem LoweredGlobals.exists_addEntries {n : Nat} {g g' : GlobalReader} {s : LoweredGlobals}
    {entries : List GlobalEntry} {lowered : List (Declaration × Block)}
    (hread : GlobalReader.readMany n g = .ok (entries, g'))
    (h : LowersTo g.index s.env entries lowered) : ∃ s', addEntries n g s = .ok (g', s') := by
  induction n generalizing g s entries lowered with
  | zero =>
    cases hread
    exact ⟨s, rfl⟩
  | succ n ih =>
    unfold GlobalReader.readMany at hread
    split at hread
    · cases hread
    rename_i entry g₁ hfirst
    split at hread
    · cases hread
    rename_i entries' g₂ hmany
    cases hread
    cases h with
    | @cons _ _ _ _ type _ _ _ htype hinit hrest =>
      obtain ⟨s₁, hadd, henv⟩ : ∃ s₁, s.add g.index entry = .ok s₁ ∧
          s₁.env = s.env ++ [(type, entry.type.isMutable)] :=
        ⟨_, add_of_lower htype hinit, rfl⟩
      rw [← henv, ← (GlobalReader.counts_of_read hfirst).1] at hrest
      obtain ⟨s', hs'⟩ := ih hmany hrest
      exact ⟨s', by simp only [addEntries, hfirst, hadd, hs']⟩

/-- **A global section whose entries can be read and lowered is lowered to them.** -/
theorem EntryVector.lowerGlobals_of_lowersTo {v : EntryVector} {g : GlobalReader}
    {entries : List GlobalEntry} {lowered : List (Declaration × Block)}
    (hread : GlobalReader.readMany v.count.toNat (.ofVector v) = .ok (entries, g))
    (hfinish : g.finish = .ok ()) (h : LowersTo 0 [] entries lowered) (exported : Bool) :
    v.lowerGlobals exported = .ok (unitOf exported lowered) := by
  obtain ⟨s, hs⟩ := LoweredGlobals.exists_addEntries (s := {}) hread h
  obtain ⟨u, hu⟩ : ∃ u, v.lowerGlobals exported = .ok u := by
    simp only [lowerGlobals, hs, hfinish]
    exact ⟨_, rfl⟩
  obtain ⟨entries', lowered', hentries, -, hlowers, rfl⟩ := exists_lowersTo hu
  rw [globalEntries, hread] at hentries
  cases hentries
  rw [hu, h.unique hlowers]

end WasmUdon
