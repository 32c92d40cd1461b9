import WasmUdon.Browser.Model
import WasmUdon.Browser.TextField
import WasmUdon.Browser.Viewport

/-!
# The browser on a terminal

The toolkit that runs: the keys of a terminal, `TextField` and `Viewport`, without colours.
-/

namespace WasmUdon

/-- A key. -/
inductive Key
  | char (c : Char)
  | space
  | escape
  | interrupt
  | backspace
  | delete
  | left
  | right
  | home
  | toEnd
  | up
  | down
  | pageUp
  | pageDown
  | clearBefore
  | clearAfter
  deriving DecidableEq, Repr

namespace Key

/-- The name of a key. -/
def name : Key → String
  | .char c => c.toString
  | .space => " "
  | .escape => "esc"
  | .interrupt => "ctrl+c"
  | .backspace => "backspace"
  | .delete => "delete"
  | .left => "left"
  | .right => "right"
  | .home => "home"
  | .toEnd => "end"
  | .up => "up"
  | .down => "down"
  | .pageUp => "pgup"
  | .pageDown => "pgdown"
  | .clearBefore => "ctrl+u"
  | .clearAfter => "ctrl+k"

/-- Whether a key stands for text. -/
def isText : Key → Bool
  | .char _ | .space => true
  | _ => false

/-- What a key does to the text field. -/
def edit? : Key → Option EditKey
  | .char c => some (.insert c)
  | .space => some (.insert ' ')
  | .backspace => some .backspace
  | .delete => some .delete
  | .left => some .left
  | .right => some .right
  | .home => some .home
  | .toEnd => some .toEnd
  | .clearBefore => some .clearBefore
  | .clearAfter => some .clearAfter
  | .escape | .interrupt | .up | .down | .pageUp | .pageDown => none

/-- What a key does to the viewport. -/
def scroll (k : Key) (v : Viewport) : Viewport :=
  match k with
  | .up => v.up 1
  | .down => v.down 1
  | .pageUp => v.up v.height
  | .pageDown => v.down v.height
  | .clearBefore => v.up (v.height / 2)
  | _ => v

end Key

/-- The toolkit of a terminal. Keys are all that its text field reacts to. -/
def terminal : Toolkit Key TextField Viewport where
  keyName := Key.name
  isText := Key.isText
  field := { width := 40 }
  value := TextField.value
  updateField
    | .key k, f => (k.edit?.map f.edit).getD f
    | _, f => f
  viewport := { width := 80, height := 20 }
  updateViewport := Key.scroll
  setContent := Viewport.setContent
  toTop := Viewport.toTop
  resize v width height := v.resize width.toNat height.toNat
  style _ l := screenBlock l

/-- The browser on the screen. -/
def Browser.view (b : Browser TextField Viewport) : String :=
  match b.failure with
  | some e => display (screenBlock (text "Error: " ++ e.message ++ text "\n\nPress esc to quit."))
  | none =>
    if b.loaded then
      " wasm2uasm  " ++ b.filename ++ "\n"
        ++ "filter: " ++ String.ofList (b.filter.view "label or variable name".toList) ++ "\n\n"
        ++ display (stackLines b.viewport.view) ++ "\n"
        ++ toString b.shown ++ "/" ++ toString b.entries.length
        ++ " shown • ↑/↓ pgup/pgdn scroll • esc quit"
    else "Translating module..."

end WasmUdon
