import WasmUdon.Error

/-!
# The kind of an error

An error is a chain of layers, and its questions look at different layers of it: `Error.kind?` at
the outermost fault, `Error.isDecode` at all of them. `Error.OfKind` says that these agree: the
outermost layer is a fault, all faults are of one kind, and malformed data is reported by the
decoding phase. Every question about such an error is decided by its kind (`OfKind.isKind_eq`,
`OfKind.isDecode_eq`).

Reading bytes leaves errors without any fault (`Error.Bare`), which become faults further up.
-/

namespace WasmUdon

namespace Error

/-- No layer is a fault. -/
def Bare (e : Error) : Prop := ∀ f, .fault f ∉ e.layers

/-- The outermost layer is a fault, all faults are of one kind, and malformed data is reported by
the decoding phase. -/
structure OfKind (e : Error) (kind : FaultKind) : Prop where
  outer : ∃ f, e.outer = .fault f
  kinds : ∀ f, .fault f ∈ e.layers → f.kind = kind
  decode : kind = .invalidData → e.isDecode = true

/-- What reading fails with: an error without a fault, or malformed data. -/
def IsMalformed (e : Error) : Prop := e.Bare ∨ e.OfKind .invalidData

/-! ## Questions -/

theorem bare_of_outer {layer : Layer} (h : ∀ f, layer ≠ .fault f) :
    Bare { outer := layer } := by
  intro f hf
  exact h f (List.mem_singleton.1 hf).symm

theorem Bare.kind?_eq_none {e : Error} (h : e.Bare) : e.kind? = none := by
  rw [kind?, Option.map_eq_none_iff, fault?, List.findSome?_eq_none_iff]
  intro layer hlayer
  cases layer with
  | fault f => exact absurd hlayer (h f)
  | _ => rfl

namespace OfKind

variable {e : Error} {kind : FaultKind}

theorem exists_fault (h : e.OfKind kind) : ∃ f, e.fault? = some f ∧ f.kind = kind := by
  obtain ⟨f, hf⟩ := h.outer
  refine ⟨f, ?_, h.kinds f ?_⟩
  · rw [fault?, layers, hf]
    rfl
  · rw [layers, hf]
    exact List.mem_cons_self

theorem kind?_eq (h : e.OfKind kind) : e.kind? = some kind := by
  obtain ⟨f, hf, hkind⟩ := h.exists_fault
  rw [kind?, hf, Option.map_some, hkind]

theorem isKind_eq (h : e.OfKind kind) (other : FaultKind) :
    e.isKind other = decide (kind = other) := by
  rw [isKind, h.kind?_eq]
  simp

theorem isDecode_eq (h : e.OfKind kind) : e.isDecode = decide (kind = .invalidData) := by
  by_cases hkind : kind = .invalidData
  · rw [h.decode hkind, decide_eq_true hkind]
  · rw [decide_eq_false hkind, isDecode, hasFault, List.any_eq_false]
    intro layer hlayer
    cases layer with
    | fault f =>
      rw [decide_eq_true_eq]
      exact fun hf => hkind ((h.kinds f hlayer).symm.trans hf.2)
    | _ => simp

end OfKind

/-! ## Faults -/

theorem OfKind.of_cause {f : Fault} {e : Error} (h : e.OfKind f.kind) :
    (ofFault f (some e)).OfKind f.kind where
  outer := ⟨f, rfl⟩
  kinds := by
    intro g hg
    rcases List.mem_cons.1 hg with heq | hg
    · cases heq
      rfl
    · exact h.kinds g hg
  decode := by
    intro hkind
    obtain ⟨layer, hlayer, hfault⟩ := List.any_eq_true.1 (h.decode hkind)
    exact List.any_eq_true.2 ⟨layer, List.mem_cons_of_mem _ hlayer, hfault⟩

/-- A fault around an error without one. -/
theorem ofKind_ofFault {f : Fault} {cause : Option Error} {kind : FaultKind}
    (hcause : ∀ e ∈ cause, Bare e) (hkind : f.kind = kind)
    (hphase : kind = .invalidData → f.phase = .decode) : (ofFault f cause).OfKind kind where
  outer := ⟨f, rfl⟩
  kinds := by
    intro g hg
    rcases List.mem_cons.1 hg with heq | hg
    · cases heq
      exact hkind
    · cases cause with
      | none => cases hg
      | some e => exact absurd hg (hcause e rfl g)
  decode := by
    intro hdata
    simp [isDecode, hasFault, layers, ofFault, hkind, hdata, hphase hdata]

theorem ofKind_decode {offset : Int} {detail : String} {cause : Option Error}
    {value : Option FaultValue} (hcause : ∀ e ∈ cause, Bare e) :
    (decode offset detail cause value).OfKind .invalidData :=
  ofKind_ofFault hcause rfl fun _ => rfl

theorem ofKind_decode_none {offset : Int} {detail : String} {value : Option FaultValue} :
    (decode offset detail none value).OfKind .invalidData := ofKind_decode fun _ he => nomatch he

theorem ofKind_decode_some {offset : Int} {detail : String} {e : Error}
    {value : Option FaultValue} (h : e.Bare) :
    (decode offset detail (some e) value).OfKind .invalidData :=
  ofKind_decode fun _ he => Option.some.inj he ▸ h

theorem ofKind_unsupportedSection (name : String) :
    (unsupportedSection name).OfKind .unsupportedSection :=
  ofKind_ofFault (fun _ he => nomatch he) rfl nofun

theorem ofKind_unsupportedInstruction (name : String) (offset : Int) :
    (unsupportedInstruction name offset).OfKind .unsupportedInstruction :=
  ofKind_ofFault (fun _ he => nomatch he) rfl nofun

theorem ofKind_unsupportedType (name : String) : (unsupportedType name).OfKind .unsupportedType :=
  ofKind_ofFault (fun _ he => nomatch he) rfl nofun

/-- The fault of an entry is of the kind of its cause. -/
theorem OfKind.invalidEntry {e : Error} {kind : FaultKind} (h : e.OfKind kind)
    (section_ : String) (index : Int) : (invalidEntry section_ index (some e)).OfKind kind := by
  obtain ⟨f, hf, rfl⟩ := h.exists_fault
  simp only [Error.invalidEntry, Option.bind_some, hf, Option.map_some, Option.getD_some]
  exact OfKind.of_cause h

end Error

end WasmUdon
