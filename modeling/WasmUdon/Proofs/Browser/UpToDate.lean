import Mathlib.Data.List.Induction
import WasmUdon.Browser.Terminal

/-!
# The browser is never out of date

The browser keeps what it derives from the entries and the text of its field: the number of entries
shown, and the content of the viewport. Both are computed anew in two places, when entries are
loaded and when the text has changed, and a key that ends the browser skips all of it.

That nothing is forgotten does not depend on how the text field works, and of the viewport and the
style of lines only what `Toolkit.Lawful` says is used: a viewport has the content that it was given
last, and its height is set by a change of its size. So all is proved of any such toolkit. That of a
terminal is one of them (`terminal_lawful`).

`Browser.Current` is the invariant, `Browser.Current.update` the step, and `Browser.never_stale` says
what it means for every history of events. What the entries and the text are at the end is read off
the history itself: the entries are those of the last load, and the text is what the field makes of
the events that reach it.
-/

namespace WasmUdon

variable {κ φ π : Type}

/-! ## Toolkits -/

/-- What the browser relies on: the content of a viewport is what it was given last, whatever moves
it, and the height is what it was set to. Nothing is asked of the text field. -/
structure Toolkit.Lawful (t : Toolkit κ φ π) (content : π → Bytes) (height : π → Int) : Prop where
  content_viewport : content t.viewport = []
  content_setContent : ∀ v bs, content (t.setContent v bs) = bs
  content_toTop : ∀ v, content (t.toTop v) = content v
  content_resize : ∀ v w h, content (t.resize v w h) = content v
  content_updateViewport : ∀ k v, content (t.updateViewport k v) = content v
  height_resize : ∀ v w h, 1 ≤ h → height (t.resize v w h) = h
  height_setContent : ∀ v bs, height (t.setContent v bs) = height v
  height_toTop : ∀ v, height (t.toTop v) = height v

namespace Viewport

/-- The viewports are alike but for the place of the stretch. -/
structure SameButTop (v v' : Viewport) : Prop where
  content : v'.content = v.content
  height : v'.height = v.height

theorem sameButTop_up (v : Viewport) (n : Nat) : v.SameButTop (v.up n) := by
  unfold up
  split <;> exact ⟨rfl, rfl⟩

theorem sameButTop_down (v : Viewport) (n : Nat) : v.SameButTop (v.down n) := by
  unfold down
  split <;> exact ⟨rfl, rfl⟩

end Viewport

theorem Key.sameButTop_scroll (k : Key) (v : Viewport) : v.SameButTop (k.scroll v) := by
  cases k with
  | up => exact v.sameButTop_up _
  | down => exact v.sameButTop_down _
  | pageUp => exact v.sameButTop_up _
  | pageDown => exact v.sameButTop_down _
  | clearBefore => exact v.sameButTop_up _
  | _ => exact ⟨rfl, rfl⟩

theorem terminal_lawful : terminal.Lawful Viewport.content fun v => v.height where
  content_viewport := rfl
  content_setContent _ _ := rfl
  content_toTop _ := rfl
  content_resize _ _ _ := rfl
  content_updateViewport k v := (k.sameButTop_scroll v).content
  height_resize _ _ h hpos := Int.toNat_of_nonneg (Int.le_trans (by decide) hpos)
  height_setContent _ _ := rfl
  height_toTop _ := rfl

/-! ## Histories of events -/

/-- What an event loads: entries and a failure. -/
def BrowserEvent.load? : BrowserEvent κ → Option (List Entry × Option Error)
  | .loaded entries failure => some (entries, failure)
  | _ => none

/-- What was loaded last. -/
def lastLoad? (events : List (BrowserEvent κ)) : Option (List Entry × Option Error) :=
  (events.filterMap BrowserEvent.load?).getLast?

/-- Whether an event reaches the text field. -/
def Toolkit.reachesField (t : Toolkit κ φ π) : BrowserEvent κ → Bool
  | .key k => !t.quits k
  | .loaded _ _ => false
  | .resize _ _ | .other => true

/-- The text field after the events that reach it. -/
def Toolkit.fieldAfter (t : Toolkit κ φ π) (events : List (BrowserEvent κ)) : φ :=
  (events.filter t.reachesField).foldl (fun f e => t.updateField e f) t.field

namespace Browser

variable {t : Toolkit κ φ π} {content : π → Bytes} {height : π → Int} {b : Browser φ π}

/-! ## What is shown -/

/-- The content of the viewport and the number of entries shown belong to the entries and the text
at hand. -/
def Current (t : Toolkit κ φ π) (content : π → Bytes) (b : Browser φ π) : Prop :=
  (content b.viewport, b.shown) = filterEntries t.style b.entries (t.value b.filter)

namespace Current

theorem start (ht : t.Lawful content height) (filename : String) :
    Current t content (start t filename) :=
  congrArg (·, 0) ht.content_viewport

theorem refresh (ht : t.Lawful content height) (b : Browser φ π) :
    Current t content (b.refresh t) := by
  have hcontent : content (b.refresh t).viewport = (b.filtered t).1 :=
    (ht.content_toTop _).trans (ht.content_setContent _ _)
  exact congrArg (·, (b.filtered t).2) hcontent

theorem withViewport (h : b.Current t content) {v : π} (hv : content v = content b.viewport) :
    Current t content { b with viewport := v } :=
  (congrArg (·, b.shown) hv).trans h

/-- A text that stayed shows the same, and one that changed is shown anew. -/
theorem edit (ht : t.Lawful content height) (h : b.Current t content) (e : BrowserEvent κ) :
    (b.edit t e).Current t content := by
  unfold Browser.edit
  dsimp only
  split
  · rename_i hvalue
    rw [Current, hvalue]
    exact h
  · exact .refresh ht _

/-- **What is shown stays up to date**, whatever the event. -/
theorem update (ht : t.Lawful content height) (h : b.Current t content) (e : BrowserEvent κ) :
    (b.update t e).Current t content := by
  cases e with
  | key k =>
    rw [Browser.update]
    split
    · exact h
    · split
      · exact h.edit ht _
      · exact (h.withViewport (ht.content_updateViewport _ _)).edit ht _
  | resize width lines => exact (h.withViewport (ht.content_resize _ _ _)).edit ht _
  | loaded entries failure => exact .refresh ht _
  | other => exact h.edit ht _

end Current

/-! ## The height of the viewport -/

theorem height_refresh (ht : t.Lawful content height) (b : Browser φ π) :
    height (b.refresh t).viewport = height b.viewport :=
  (ht.height_toTop _).trans (ht.height_setContent _ _)

theorem height_edit (ht : t.Lawful content height) (b : Browser φ π) (e : BrowserEvent κ) :
    height (b.edit t e).viewport = height b.viewport := by
  unfold edit
  dsimp only
  split
  · rfl
  · exact height_refresh ht _

theorem one_le_height_resize (ht : t.Lawful content height) (b : Browser φ π)
    (width lines : Int) : 1 ≤ height (b.update t (.resize width lines)).viewport := by
  have hpos : 1 ≤ max (lines - chromeHeight) 1 := Int.le_max_right _ _
  rw [update, height_edit ht, ht.height_resize _ _ _ hpos]
  exact hpos

/-- The viewport of a terminal keeps its height when a key moves it. -/
theorem one_le_height_update {b : Browser TextField Viewport} (h : 1 ≤ b.viewport.height)
    (e : BrowserEvent Key) : 1 ≤ (b.update terminal e).viewport.height := by
  have hedit (b : Browser TextField Viewport) :
      (b.edit terminal e).viewport.height = b.viewport.height := by
    exact_mod_cast height_edit terminal_lawful b e
  cases e with
  | key k =>
    rw [update]
    split
    · exact h
    · split
      · rwa [hedit]
      · rw [hedit]
        exact (k.sameButTop_scroll b.viewport).height.symm ▸ h
  | resize width lines => exact_mod_cast one_le_height_resize terminal_lawful b width lines
  | loaded entries failure => exact h
  | other => rwa [update, hedit]

/-! ## Histories -/

/-- The browser after events. -/
def after (t : Toolkit κ φ π) (filename : String) (events : List (BrowserEvent κ)) :
    Browser φ π :=
  events.foldl (update t) (start t filename)

theorem after_append_singleton (t : Toolkit κ φ π) (filename : String)
    (events : List (BrowserEvent κ)) (e : BrowserEvent κ) :
    after t filename (events ++ [e]) = (after t filename events).update t e := by
  rw [after, List.foldl_append]
  rfl

theorem current_after (ht : t.Lawful content height) (filename : String)
    (events : List (BrowserEvent κ)) : (after t filename events).Current t content := by
  induction events using List.reverseRecOn with
  | nil => exact .start ht filename
  | append_singleton events e ih =>
    rw [after_append_singleton]
    exact ih.update ht e

theorem one_le_height_after (filename : String) (events : List (BrowserEvent Key)) :
    1 ≤ (after terminal filename events).viewport.height := by
  induction events using List.reverseRecOn with
  | nil =>
    show 1 ≤ 20
    omega
  | append_singleton events e ih =>
    rw [after_append_singleton]
    exact one_le_height_update ih e

/-! ## Entries and text at hand -/

/-- What the browser was told to show. -/
def loadState (b : Browser φ π) : Bool × List Entry × Option Error :=
  (b.loaded, b.entries, b.failure)

theorem edit_filter (b : Browser φ π) (e : BrowserEvent κ) :
    (b.edit t e).filter = t.updateField e b.filter := by
  unfold edit
  dsimp only
  split <;> rfl

theorem edit_loadState (b : Browser φ π) (e : BrowserEvent κ) :
    (b.edit t e).loadState = b.loadState := by
  unfold edit
  dsimp only
  split <;> rfl

theorem update_filter (b : Browser φ π) (e : BrowserEvent κ) :
    (b.update t e).filter = if t.reachesField e then t.updateField e b.filter else b.filter := by
  cases e with
  | key k =>
    rw [update, Toolkit.reachesField]
    cases t.quits k with
    | true => rfl
    | false =>
      simp only [Bool.false_eq_true, if_false, Bool.not_false, if_true]
      split <;> exact edit_filter _ _
  | resize width lines => exact edit_filter _ _
  | loaded entries failure => rfl
  | other => exact edit_filter _ _

theorem update_loadState (b : Browser φ π) (e : BrowserEvent κ) :
    (b.update t e).loadState =
      match e.load? with
      | some load => (true, load)
      | none => b.loadState := by
  cases e with
  | key k =>
    rw [update]
    split
    · rfl
    · split <;> exact edit_loadState _ _
  | resize width lines => exact edit_loadState _ _
  | loaded entries failure => rfl
  | other => exact edit_loadState _ _

/-- The text field has seen the events that reach it. -/
theorem after_filter (t : Toolkit κ φ π) (filename : String) (events : List (BrowserEvent κ)) :
    (after t filename events).filter = t.fieldAfter events := by
  induction events using List.reverseRecOn with
  | nil => rfl
  | append_singleton events e ih =>
    rw [after_append_singleton, update_filter, ih, Toolkit.fieldAfter, Toolkit.fieldAfter,
      List.filter_append, List.foldl_append]
    cases hreaches : t.reachesField e <;> simp [hreaches]

/-- The entries and the failure are those that were loaded last. -/
theorem after_loadState (t : Toolkit κ φ π) (filename : String)
    (events : List (BrowserEvent κ)) :
    (after t filename events).loadState =
      ((lastLoad? events).isSome, (lastLoad? events).getD ([], none)) := by
  induction events using List.reverseRecOn with
  | nil => rfl
  | append_singleton events e ih =>
    rw [after_append_singleton, update_loadState, ih, lastLoad?, lastLoad?, List.filterMap_append,
      List.getLast?_append]
    cases hload : e.load? <;> simp [hload]

/-- **The browser never shows what is out of date.** After any events, in any order and before or
after entries or an error were loaded, and whatever the text field made of them, the content of the
viewport and the number of entries shown are those of the entries and the text at hand; and these
are the entries that were loaded last and the text of the field after the events that reach it. A
change of the size leaves a viewport of at least one line. All that is asked of the toolkit is that
its viewports keep the content that they were given, and the height. A terminal has such a toolkit,
and its viewport has at least one line all the time. -/
theorem never_stale (ht : t.Lawful content height) (filename : String)
    (events : List (BrowserEvent κ)) :
    let b := after t filename events
    (content b.viewport, b.shown) = filterEntries t.style b.entries (t.value b.filter) ∧
    (b.loaded, b.entries, b.failure) =
      ((lastLoad? events).isSome, (lastLoad? events).getD ([], none)) ∧
    b.filter = t.fieldAfter events ∧
    (∀ width lines, 1 ≤ height (b.update t (.resize width lines)).viewport) ∧
    ∀ events : List (BrowserEvent Key),
      let b := after terminal filename events
      (b.viewport.content, b.shown) =
        filterEntries terminal.style b.entries (terminal.value b.filter) ∧
      1 ≤ b.viewport.height := by
  refine ⟨current_after ht filename events, after_loadState t filename events,
    after_filter t filename events, one_le_height_resize ht _, fun events => ⟨?_, ?_⟩⟩
  · exact current_after terminal_lawful filename events
  · exact one_le_height_after filename events

/-- A letter is typed, two entries are loaded of which one has it in its name, the viewport jumps
down and the window becomes small. The line that is shown ends with a carriage return. -/
def typedBeforeLoading : List (BrowserEvent Key) :=
  [.key (.char 'x'),
    .loaded
      [{ name := text "X", isCode := true, lines := [[0x58, 0x0D]] },
        { name := text "y", isCode := false, lines := [text "y"] }] none,
    .key .pageDown, .resize 30 2]

theorem never_stale_typedBeforeLoading :
    let b := after terminal "m.wasm" typedBeforeLoading
    terminal.Lawful Viewport.content (fun v => v.height) ∧
      (b.viewport.content, b.shown) = ([0x58, 0x0D, 0x0A], 1) := by
  intro b
  refine ⟨terminal_lawful, (never_stale terminal_lawful "m.wasm" typedBeforeLoading).1.trans ?_⟩
  decide +kernel

end Browser

end WasmUdon
