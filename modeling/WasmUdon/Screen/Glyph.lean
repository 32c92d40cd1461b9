import WasmUdon.Screen.Cluster

/-!
# Glyphs

A terminal takes most of a text as characters to show, but carries out control characters and
control sequences. `scan` cuts a byte string into what is shown and what is not, and `columnsOf`
measures what is shown.
-/

namespace WasmUdon

/-- Where a terminal stands between two bytes. -/
inductive ScanState
  /-- Outside of a control sequence. -/
  | ground
  /-- Behind the escape character. -/
  | escape
  /-- In an escape sequence, behind an intermediate byte. -/
  | escapeIntermediate
  /-- In the parameters of a control sequence. -/
  | parameters
  /-- In a control sequence, behind an intermediate byte. -/
  | intermediate
  /-- At the start of a device control string. -/
  | deviceEntry
  /-- In the parameters of a device control string. -/
  | deviceParameters
  /-- In a device control string, behind an intermediate byte. -/
  | deviceIntermediate
  /-- In the data of a device control string. -/
  | deviceData
  /-- In an operating system command. -/
  | command
  /-- In another string that is not shown. -/
  | string
  deriving DecidableEq, Repr

/-- What a terminal does with a byte. -/
inductive ByteRole
  /-- Shows it as a character of one column. -/
  | shown
  /-- Carries it out as a control character. -/
  | control
  /-- Takes it for a part of a control sequence, or drops it. -/
  | hidden
  /-- Takes it for the first byte of a character. -/
  | lead
  deriving DecidableEq, Repr

namespace ScanState

/-- A step on a byte below 0x80 that does not end every sequence. -/
def stepLow (s : ScanState) (b : UInt8) : ScanState × ByteRole :=
  match s with
  | .ground => (.ground, if b < 0x20 ∨ b = 0x7F then .control else .shown)
  | .escape =>
    if b < 0x20 then (.escape, .control)
    else if b = 0x7F then (.escape, .hidden)
    else if b < 0x30 then (.escapeIntermediate, .hidden)
    else if b = 0x50 then (.deviceEntry, .hidden)
    else if b = 0x5B then (.parameters, .hidden)
    else if b = 0x5D then (.command, .hidden)
    else if b = 0x58 ∨ b = 0x5E ∨ b = 0x5F then (.string, .hidden)
    else (.ground, .hidden)
  | .escapeIntermediate =>
    if b < 0x20 then (s, .control)
    else if b < 0x30 ∨ b = 0x7F then (s, .hidden)
    else (.ground, .hidden)
  | .parameters =>
    if b < 0x20 then (s, .control)
    else if b < 0x30 then (.intermediate, .hidden)
    else if b < 0x40 ∨ b = 0x7F then (s, .hidden)
    else (.ground, .hidden)
  | .intermediate =>
    if b < 0x20 then (s, .control)
    else if b < 0x30 ∨ b = 0x7F then (s, .hidden)
    else (.ground, .hidden)
  | .deviceEntry =>
    if 0x08 ≤ b ∧ b ≤ 0x0D then (.deviceData, .hidden)
    else if b < 0x20 ∨ b = 0x7F then (s, .hidden)
    else if b < 0x30 then (.deviceIntermediate, .hidden)
    else if b < 0x40 then (.deviceParameters, .hidden)
    else (.deviceData, .hidden)
  | .deviceParameters =>
    if b < 0x20 ∨ b = 0x7F then (s, .hidden)
    else if b < 0x30 then (.deviceIntermediate, .hidden)
    else if b < 0x40 then (s, .hidden)
    else (.deviceData, .hidden)
  | .deviceIntermediate =>
    if b < 0x30 ∨ b = 0x7F then (s, .hidden) else (.deviceData, .hidden)
  | .deviceData | .command | .string => (s, .hidden)

/-- A step on a byte from 0x80 on, outside of data that may hold such bytes. -/
def stepHigh (s : ScanState) (b : UInt8) : ScanState × ByteRole :=
  if b = 0x90 then (.deviceEntry, .hidden)
  else if b = 0x98 ∨ b = 0x9E ∨ b = 0x9F then (.string, .hidden)
  else if b = 0x9B then (.parameters, .hidden)
  else if b = 0x9D then (.command, .hidden)
  else if b = 0x9C ∧ s = .string then (.ground, .hidden)
  else if b < 0xA0 then (.ground, .control)
  else if 0xC2 ≤ b ∧ b ≤ 0xF4 then (.ground, .lead)
  else (.ground, .hidden)

/-- Whether a terminal is inside a string that is not shown. -/
def inString : ScanState → Bool
  | .deviceData | .command | .string => true
  | _ => false

/-- A step on a byte. Cancel and substitute end every sequence, and the escape character starts a
new one. -/
def step (s : ScanState) (b : UInt8) : ScanState × ByteRole :=
  if b = 0x18 ∨ b = 0x1A then (.ground, if s.inString then .hidden else .control)
  else if b = 0x1B then (if s = .deviceEntry then .deviceData else .escape, .hidden)
  else if s = .command ∧ b = 0x07 then (.ground, .hidden)
  else if b < 0x80 then s.stepLow b
  else if s = .command ∨ s = .deviceData then (if b = 0x9C then .ground else s, .hidden)
  else s.stepHigh b

end ScanState

/-- A part of a text as a terminal takes it. -/
inductive Glyph
  /-- A cluster that does not start with an ASCII character. -/
  | cluster (bytes : Bytes) (columns : Nat)
  /-- An ASCII character that is shown. -/
  | shown (b : UInt8)
  /-- A control character. -/
  | control (b : UInt8)
  /-- A byte that is not shown. -/
  | hidden (b : UInt8)
  deriving DecidableEq, Repr

/-- The columns of a glyph. -/
def Glyph.columns : Glyph → Nat
  | .cluster _ columns => columns
  | .shown _ => 1
  | .control _ | .hidden _ => 0

/-- The bytes of a glyph. -/
def Glyph.bytes : Glyph → Bytes
  | .cluster bytes _ => bytes
  | .shown b | .control b | .hidden b => [b]

/-- The glyphs of a byte string after `skip` bytes, which belong to the cluster before. -/
def scanFrom : ScanState → (skip : Nat) → Bytes → List Glyph
  | _, _, [] => []
  | s, skip + 1, _ :: rest => scanFrom s skip rest
  | s, 0, b :: rest =>
    match s.step b with
    | (s', .lead) =>
      let e := firstCluster (b :: rest)
      .cluster ((b :: rest).take e.size) e.columns :: scanFrom s' (e.size - 1) rest
    | (s', .shown) => .shown b :: scanFrom s' 0 rest
    | (s', .control) => .control b :: scanFrom s' 0 rest
    | (s', .hidden) => .hidden b :: scanFrom s' 0 rest

/-- The glyphs of a byte string. -/
def scan (bs : Bytes) : List Glyph := scanFrom .ground 0 bs

/-- The columns of a byte string. -/
def columnsOf (bs : Bytes) : Nat := (scan bs).foldr (fun g n => g.columns + n) 0

/-- The bytes followed by blanks up to a width in columns. -/
def padColumns (width : Nat) (bs : Bytes) : Bytes :=
  bs ++ List.replicate (width - columnsOf bs) 0x20

/-- The columns of the widest of some lines. -/
def widest (lines : List Bytes) : Nat := (lines.map columnsOf).foldl max 0

/-- The bytes of glyphs up to a width, `used` columns of which are taken. What is not shown is kept
behind the end as well, except for control characters. -/
def cutGlyphs (limit : Nat) : (used : Nat) → (full : Bool) → List Glyph → Bytes
  | _, _, [] => []
  | used, full, .hidden b :: rest => b :: cutGlyphs limit used full rest
  | used, true, _ :: rest => cutGlyphs limit used true rest
  | used, false, g :: rest =>
    if used + g.columns ≤ limit then g.bytes ++ cutGlyphs limit (used + g.columns) false rest
    else cutGlyphs limit used true rest

/-- A byte string cut to a width in columns. -/
def cutColumns (limit : Nat) (bs : Bytes) : Bytes :=
  if columnsOf bs ≤ limit then bs else cutGlyphs limit 0 false (scan bs)

end WasmUdon
