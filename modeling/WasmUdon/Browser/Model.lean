import WasmUdon.Browser.Entry

/-!
# The browser

The browser shows the entries of a program whose names contain what is typed into a text field, in
a viewport that can be scrolled. The content of the viewport and the number of entries shown always
belong to the entries and the text at hand: both are computed anew when either changes.

The browser decides which events reach the text field and the viewport, and when the viewport gets
another content. What the two make of it is not its business: they come from a `Toolkit`, over which
the browser is defined. `WasmUdon.Browser.Terminal` has the toolkit that runs.
-/

namespace WasmUdon

/-- What happens to the browser. -/
inductive BrowserEvent (κ : Type)
  | key (k : κ)
  | resize (width height : Int)
  /-- Entries or a failure have been loaded. -/
  | loaded (entries : List Entry) (failure : Option Error)
  /-- Anything else, such as a blink of the cursor. -/
  | other

/-- The event that reports a load. -/
def BrowserEvent.ofLoad {κ : Type} : Except Error (List Entry) → BrowserEvent κ
  | .ok entries => .loaded entries none
  | .error e => .loaded [] (some e)

/-- Keys `κ`, text fields `φ` and viewports `π`, as far as the browser is concerned with them, and
the style of lines. -/
structure Toolkit (κ φ π : Type) where
  keyName : κ → String
  /-- Whether a key stands for text. -/
  isText : κ → Bool
  /-- The text field to start with. -/
  field : φ
  value : φ → List Char
  updateField : BrowserEvent κ → φ → φ
  /-- The viewport to start with. -/
  viewport : π
  updateViewport : κ → π → π
  setContent : π → Bytes → π
  toTop : π → π
  resize : π → (width height : Int) → π
  style : (isCode : Bool) → Bytes → Bytes

/-- The browser. -/
structure Browser (φ π : Type) where
  filename : String
  entries : List Entry := []
  failure : Option Error := none
  loaded : Bool := false
  shown : Nat := 0
  filter : φ
  viewport : π
  deriving DecidableEq, Repr

/-- The number of lines around the viewport. -/
def chromeHeight : Int := 5

variable {κ φ π : Type}

/-- Whether a key ends the browser. -/
def Toolkit.quits (t : Toolkit κ φ π) (k : κ) : Bool :=
  t.keyName k == "ctrl+c" || t.keyName k == "esc"

namespace Browser

/-- The browser before anything happened. -/
def start (t : Toolkit κ φ π) (filename : String) : Browser φ π :=
  { filename, filter := t.field, viewport := t.viewport }

/-- The text and the number of the entries that belong to the text field. -/
def filtered (t : Toolkit κ φ π) (b : Browser φ π) : Bytes × Nat :=
  filterEntries t.style b.entries (t.value b.filter)

/-- Computes what is shown anew. -/
def refresh (t : Toolkit κ φ π) (b : Browser φ π) : Browser φ π :=
  { b with
    shown := (b.filtered t).2
    viewport := t.toTop (t.setContent b.viewport (b.filtered t).1) }

/-- Passes an event on to the text field, and changes what is shown if the text changed. -/
def edit (t : Toolkit κ φ π) (b : Browser φ π) (e : BrowserEvent κ) : Browser φ π :=
  let filter := t.updateField e b.filter
  let edited := { b with filter }
  if t.value filter = t.value b.filter then edited else edited.refresh t

/-- Reacts to an event. A key that ends the browser changes nothing. -/
def update (t : Toolkit κ φ π) (b : Browser φ π) (e : BrowserEvent κ) : Browser φ π :=
  match e with
  | .key k =>
    if t.quits k then b
    -- text is for the text field alone
    else if t.isText k then b.edit t e
    else edit t { b with viewport := t.updateViewport k b.viewport } e
  | .resize width height =>
    let viewport := t.resize b.viewport width (max (height - chromeHeight) 1)
    edit t { b with viewport } e
  | .loaded entries failure => refresh t { b with entries, failure, loaded := true }
  | .other => b.edit t e

end Browser

end WasmUdon
