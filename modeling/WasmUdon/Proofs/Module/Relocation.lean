import WasmUdon.Proofs.Binary.Relocation
import WasmUdon.Proofs.Module.Decoding

/-!
# Modules further on

The records of a module that stands `d` bytes further on are the same, but for their places
(`Record.MovedBy`). One step of a stream is compared first (`Stream.step_moves`), and the run over a
module follows by induction on the bytes left (`Stream.run_moves`). So bytes in front of a module
change nothing but places (`walkModule_moves`).
-/

namespace WasmUdon

variable {d : Int}

/-! ## Records -/

/-- A frame, and the same frame `d` bytes further on. -/
structure Frame.MovedBy (d : Int) (frame frame' : Frame) : Prop where
  start : MovedPlace d frame.start frame'.start
  payload : MovedPlace d frame.payload frame'.payload
  stop : MovedPlace d frame.stop frame'.stop

/-- The entries of a section, and the same entries `d` bytes further on. -/
structure EntryVector.MovedBy (d : Int) (v v' : EntryVector) : Prop where
  count : v'.count = v.count
  bytes : v'.bytes = v.bytes
  offset : MovedPlace d v.offset v'.offset

/-- A record, and the same record `d` bytes further on. -/
inductive Record.MovedBy (d : Int) : Record → Record → Prop
  | header {start start' : Int} (version : UInt32) (h : MovedPlace d start start') :
    MovedBy d (.header start version) (.header start' version)
  | custom {frame frame' : Frame} (name : String) (data : Bytes) (h : frame.MovedBy d frame') :
    MovedBy d (.custom frame name data) (.custom frame' name data)
  | startFunction {frame frame' : Frame} (func : UInt32) (h : frame.MovedBy d frame') :
    MovedBy d (.startFunction frame func) (.startFunction frame' func)
  | dataCount {frame frame' : Frame} (count : UInt32) (h : frame.MovedBy d frame') :
    MovedBy d (.dataCount frame count) (.dataCount frame' count)
  | vector {frame frame' : Frame} {v v' : EntryVector} (kind : VectorKind)
    (h : frame.MovedBy d frame') (hentries : v.MovedBy d v') :
    MovedBy d (.vector frame kind v) (.vector frame' kind v')
  | finish {offset offset' : Int} (h : MovedPlace d offset offset') :
    MovedBy d (.finish offset) (.finish offset')

theorem Record.MovedBy.isFinish_eq {r r' : Record} (h : r.MovedBy d r') :
    r'.isFinish = r.isFinish := by
  cases h <;> rfl

/-! ## Payloads -/

theorem Read.Moves.explain {α : Type} {r : Read α} (hr : Moves d Eq r r) (detail : String) :
    Moves d Eq (r.explain detail) (r.explain detail) := by
  intro c c' hc
  have houtcome := hr hc
  rw [Read.explain, Read.explain]
  generalize r c = x at houtcome
  generalize r c' = x' at houtcome
  cases houtcome with
  | ok ha hc₁ => exact .ok ha hc₁
  | error he hc₁ => exact .error (Error.movedBy_decode hc₁.position (.some he)) hc₁

theorem readIndexPayload_moves (id : SectionId) :
    Read.Moves d Eq (readIndexPayload id) (readIndexPayload id) := by
  refine (Read.u32_moves.explain _).bind_eq fun n => Read.remainingSize_moves.bind_eq fun left => ?_
  split
  · exact Read.position_bind_moves fun place place' hplace =>
      .throw (Error.movedBy_decode hplace .none)
  · exact .pure rfl

theorem readVectorPayload_moves (kind : VectorKind) {offset offset' : Int}
    (hoffset : MovedPlace d offset offset') :
    Read.Moves d (EntryVector.MovedBy d) (readVectorPayload kind offset)
      (readVectorPayload kind offset') := by
  refine (Read.u32_moves.explain _).bind_eq fun count =>
    Read.remainingSize_moves.bind_eq fun left => ?_
  split
  · exact .throw (Error.movedBy_decode hoffset .none)
  · exact Read.position_bind_moves fun place place' hplace =>
      Read.remaining_moves.bind_eq fun bytes => .pure ⟨rfl, rfl, hplace⟩

theorem readPayload_moves {frame frame' : Frame} (hframe : frame.MovedBy d frame')
    (id : SectionId) :
    Read.Moves d (Record.MovedBy d) (readPayload frame id) (readPayload frame' id) := by
  cases id with
  | custom =>
    exact (Read.name_moves.explain _).bind_eq fun name => Read.remaining_moves.bind_eq fun data =>
      .pure (.custom name data hframe)
  | start => exact (readIndexPayload_moves _).bind_eq fun func => .pure (.startFunction func hframe)
  | dataCount =>
    exact (readIndexPayload_moves _).bind_eq fun count => .pure (.dataCount count hframe)
  | vector kind =>
    exact (readVectorPayload_moves kind hframe.payload).bind fun v v' hv =>
      .pure (.vector kind hframe hv)

/-! ## Steps -/

/-- The outcome of a step, and that of the same step `d` bytes further on. -/
inductive Chunk.MovedBy (d : Int) : Chunk → Chunk → Prop
  | needMore (hint : Nat) : MovedBy d (.needMore hint) (.needMore hint)
  | record {r r' : Record} (n : Nat) (h : r.MovedBy d r') : MovedBy d (.record r n) (.record r' n)

namespace Stream

/-- A stream, and the stream that has met the same sections `d` bytes further on. -/
structure MovedBy (d : Int) (s s' : Stream) : Prop where
  offset : MovedPlace d s.offset s'.offset
  seen : s'.seen = s.seen
  lastOrder : s'.lastOrder = s.lastOrder
  stage : s'.stage = s.stage

/-- What a step returns and the stream that it leaves are moved. -/
structure StepMoved (d : Int) (x x' : Except Error Chunk × Stream) : Prop where
  result : ResultMoved d (Chunk.MovedBy d) x.1 x'.1
  stream : x.2.MovedBy d x'.2

variable {s s' : Stream}

theorem readHeader_moves (hs : s.MovedBy d s') (data : Bytes) (eof : Bool) :
    StepMoved d (s.readHeader data eof) (s'.readHeader data eof) := by
  unfold readHeader
  split
  · split
    · exact ⟨.error (Error.movedBy_decode (hs.offset.add_nat _) .none), hs⟩
    · exact ⟨.ok (.needMore _), hs⟩
  · dsimp only
    split
    · exact ⟨.error (Error.movedBy_decode hs.offset .none), hs⟩
    · split
      · exact ⟨.error (Error.movedBy_decode (hs.offset.add_nat 4) .none), hs⟩
      · exact ⟨.ok (.record _ (.header _ hs.offset)),
          hs.offset.add_nat _, hs.seen, hs.lastOrder, rfl⟩

theorem accept_moves (hs : s.MovedBy d s') (code : UInt8) :
    ResultMoved d (fun x x' => x'.1 = x.1 ∧ x.2.MovedBy d x'.2) (s.accept code)
      (s'.accept code) := by
  unfold accept
  split
  · exact .error (Error.movedBy_decode hs.offset .none)
  · exact .ok ⟨rfl, hs⟩
  · rw [hs.seen, hs.lastOrder]
    split
    · exact .error (Error.movedBy_decode hs.offset .none)
    · split
      · exact .error (Error.movedBy_decode hs.offset .none)
      · exact .ok ⟨rfl, hs.offset, rfl, rfl, hs.stage⟩

theorem readBody_moves (hs : s.MovedBy d s') (code : UInt8) (size : Nat) {c c' : Cursor}
    (hc : c.MovedBy d c') : StepMoved d (s.readBody code size c) (s'.readBody code size c') := by
  have haccept := accept_moves hs code
  unfold readBody
  generalize s.accept code = x at haccept
  generalize s'.accept code = x' at haccept
  cases haccept with
  | error he => exact ⟨.error he, hs⟩
  | @ok a a' ha =>
    obtain ⟨id, s₁⟩ := a
    obtain ⟨id', s₁'⟩ := a'
    obtain ⟨hid, hs₁⟩ := ha
    have hid : id' = id := hid
    subst hid
    have hframe : Frame.MovedBy d ⟨s.offset, c.position, c.position + size⟩
        ⟨s'.offset, c'.position, c'.position + size⟩ :=
      ⟨hs.offset, hc.position, hc.position.add_nat size⟩
    have hread := readPayload_moves hframe id'
      (Cursor.movedBy_ofBytes (c.rest.take size) hc.position)
    dsimp only
    rw [hc.rest, hc.consumed]
    generalize readPayload _ id' _ = y at hread ⊢
    generalize readPayload _ id' _ = y' at hread ⊢
    cases hread with
    | error he _ => exact ⟨.error he, hs₁⟩
    | ok hr _ =>
      exact ⟨.ok (.record _ hr), hs.offset.add_nat (c.consumed + size), hs₁.seen, hs₁.lastOrder,
        hs₁.stage⟩

theorem readSection_moves (hs : s.MovedBy d s') (data : Bytes) (eof : Bool) :
    StepMoved d (s.readSection data eof) (s'.readSection data eof) := by
  unfold readSection
  cases data with
  | nil =>
    dsimp only
    split
    · exact ⟨.ok (.record _ (.finish hs.offset)), hs.offset, hs.seen, hs.lastOrder, rfl⟩
    · exact ⟨.ok (.needMore _), hs⟩
  | cons code tail =>
    have hsize := Read.u32_moves ((Cursor.movedBy_ofBytes (code :: tail) hs.offset).skip 1)
    dsimp only
    generalize Read.u32 _ = x at hsize ⊢
    generalize Read.u32 _ = x' at hsize ⊢
    cases hsize with
    | error he hc =>
      dsimp only
      rw [he.isTruncated_eq]
      split
      · split
        · exact ⟨.error (Error.movedBy_decode hc.position (.some he)), hs⟩
        · exact ⟨.ok (.needMore _), hs⟩
      · exact ⟨.error (Error.movedBy_decode (hs.offset.add_nat 1) (.some he)), hs⟩
    | @ok size _ c c' ha hc =>
      subst ha
      dsimp only
      rw [hc.rest]
      split
      · split
        · exact ⟨.error (Error.movedBy_decode hc.position .none), hs⟩
        · exact ⟨.ok (.needMore _), hs⟩
      · exact readBody_moves hs code size.toNat hc

/-- **One step is taken alike further on.** -/
theorem step_moves (hs : s.MovedBy d s') (data : Bytes) (eof : Bool) :
    StepMoved d (s.step data eof) (s'.step data eof) := by
  unfold step
  rw [hs.stage]
  split
  · exact readHeader_moves hs data eof
  · exact readSection_moves hs data eof
  · exact ⟨.error (Error.movedBy_internal _ _ _), hs⟩

/-! ## Runs -/

/-- **A module is read alike further on**: the same records at moved places, up to the same
failure. -/
theorem run_moves (hs : s.MovedBy d s') (data : Bytes) :
    List.Forall₂ (Record.MovedBy d) (s.run data).1 (s'.run data).1 ∧
      Option.Rel (Error.MovedBy d) (s.run data).2 (s'.run data).2 := by
  induction hlen : data.length using Nat.strongRecOn generalizing s s' data with
  | ind len ih =>
  obtain ⟨hresult, hstream⟩ := step_moves hs data true
  rw [run_eq s, run_eq s']
  rcases hstep : s.step data true with ⟨result, s₁⟩
  rcases hstep' : s'.step data true with ⟨result', s₁'⟩
  rw [hstep, hstep'] at hresult hstream
  cases hresult with
  | error he => exact ⟨.nil, .some he⟩
  | ok hchunk =>
    cases hchunk with
    | needMore hint => exact ⟨.nil, .some (Error.movedBy_internal _ _ _)⟩
    | @record r r' n hr =>
      dsimp only
      rw [hr.isFinish_eq]
      split
      · exact ⟨.nil, .none⟩
      · rename_i hfinish
        obtain ⟨hn, hdata⟩ := consumed_of_step hstep (by simpa using hfinish)
        have hshort : (data.drop n).length < len := by
          have hpos := List.length_pos_iff.2 hdata
          rw [List.length_drop]
          omega
        obtain ⟨hrecords, hfailure⟩ := ih _ hshort hstream (data.drop n) rfl
        exact ⟨.cons hr hrecords, hfailure⟩

end Stream

/-- **Bytes in front of a module change nothing but places.** -/
theorem walkModule_moves (pre m : Bytes) :
    List.Forall₂ (Record.MovedBy pre.length) (walkModule m 0).1
      (walkModule (pre ++ m) pre.length).1 ∧
      Option.Rel (Error.MovedBy pre.length) (walkModule m 0).2
        (walkModule (pre ++ m) pre.length).2 := by
  have hhere : walkModule m 0 = Stream.run { offset := 0 } m := by
    rw [walkModule, if_neg (by omega)]
    rfl
  have hthere : walkModule (pre ++ m) pre.length = Stream.run { offset := pre.length } m := by
    have hin : ¬((pre.length : Int) < 0 ∨ ((pre ++ m).length : Int) < pre.length) := by
      rw [List.length_append]
      omega
    rw [walkModule, if_neg hin, Int.toNat_natCast, List.drop_left]
  have hstart : Stream.MovedBy pre.length { offset := 0 } { offset := pre.length } :=
    ⟨⟨Int.le_refl 0, (Int.zero_add _).symm⟩, rfl, rfl, rfl⟩
  rw [hhere, hthere]
  exact Stream.run_moves hstart m

end WasmUdon
