import WasmUdon.Screen.Sequence

/-!
# Looks

Control sequences give the text behind them a look: attributes, colours, a link. A line that is
broken inside such text takes the look off at its end and puts it on again on the next line.
-/

namespace WasmUdon

/-- A colour: one of sixteen, one of a palette, or red, green and blue. -/
inductive Color
  | basic (n : Nat)
  | indexed (n : Nat)
  | direct (red green blue : Nat)
  deriving DecidableEq, Repr

/-- The look of text. -/
structure Look where
  bold : Bool := false
  faint : Bool := false
  italic : Bool := false
  slowBlink : Bool := false
  rapidBlink : Bool := false
  inverse : Bool := false
  concealed : Bool := false
  struckOut : Bool := false
  /-- The kind of the line below the text; zero is none. -/
  underline : Nat := 0
  foreground : Option Color := none
  background : Option Color := none
  underlineColor : Option Color := none
  /-- The parameters of a link. -/
  linkParameters : Bytes := []
  /-- The target of a link. -/
  linkTarget : Bytes := []
  deriving DecidableEq, Repr

/-- A parameter of a control sequence. A colon behind it binds the next one to it. -/
structure Parameter where
  value : Nat := 0
  bound : Bool := false
  deriving DecidableEq, Repr

/-- The parameters in a row of digits, semicolons and colons, the last one being read. -/
def parametersFrom (current : Nat) : Bytes → List Parameter
  | [] => [{ value := current }]
  | b :: rest =>
    if b = 0x3B then { value := current } :: parametersFrom 0 rest
    else if b = 0x3A then { value := current, bound := true } :: parametersFrom 0 rest
    else parametersFrom (current * 10 + (b.toNat - 0x30)) rest

/-- The parameters of a sequence that changes attributes and colours. -/
def attributes? (sequence : Bytes) : Option (List Parameter) :=
  let body :=
    match sequence with
    | 0x1B :: 0x5B :: rest | 0x9B :: rest => rest
    | _ => []
  if body.getLast? = some 0x6D ∧ body.dropLast.all (fun b => 0x30 ≤ b && b < 0x3C) then
    some (if body.length = 1 then [] else parametersFrom 0 body.dropLast)
  else none

/-- The colour that parameters behind a 38, 48 or 58 give, and the number of them; the separators
are all semicolons or all colons. -/
def color? (bound : Bool) : List Parameter → Option (Option Color × Nat)
  | { value := 0, .. } :: _ => some (none, 1)
  | { value := 5, bound := b₁ } :: { value := n, bound := false } :: _ =>
    if b₁ = bound then some (some (.indexed (n % 256)), 2) else none
  | { value := 2, bound := true } :: { bound := true, .. } :: { value := r, bound := true }
      :: { value := g, bound := true } :: { value := b, bound := false } :: _ =>
    if bound then some (some (.direct (r % 256) (g % 256) (b % 256)), 5) else none
  | { value := 2, bound := b₁ } :: { value := r, bound := b₂ } :: { value := g, bound := b₃ }
      :: { value := b, bound := false } :: _ =>
    if b₁ = bound ∧ b₂ = bound ∧ b₃ = bound then
      some (some (.direct (r % 256) (g % 256) (b % 256)), 4)
    else none
  | _ => none

namespace Look

/-- Removes attributes and colours. -/
def reset (l : Look) : Look :=
  { linkParameters := l.linkParameters, linkTarget := l.linkTarget }

/-- The effect of a parameter that stands for itself. -/
def applyOne (l : Look) (n : Nat) : Look :=
  match n with
  | 0 => l.reset
  | 1 => { l with bold := true }
  | 2 => { l with faint := true }
  | 3 => { l with italic := true }
  | 4 => { l with underline := 1 }
  | 5 => { l with slowBlink := true }
  | 6 => { l with rapidBlink := true }
  | 7 => { l with inverse := true }
  | 8 => { l with concealed := true }
  | 9 => { l with struckOut := true }
  | 22 => { l with bold := false, faint := false }
  | 23 => { l with italic := false }
  | 24 => { l with underline := 0 }
  | 25 => { l with slowBlink := false, rapidBlink := false }
  | 27 => { l with inverse := false }
  | 28 => { l with concealed := false }
  | 29 => { l with struckOut := false }
  | 39 => { l with foreground := none }
  | 49 => { l with background := none }
  | 59 => { l with underlineColor := none }
  | n =>
    if 30 ≤ n ∧ n ≤ 37 then { l with foreground := some (.basic (n - 30)) }
    else if 40 ≤ n ∧ n ≤ 47 then { l with background := some (.basic (n - 40)) }
    else if 90 ≤ n ∧ n ≤ 97 then { l with foreground := some (.basic (n - 82)) }
    else if 100 ≤ n ∧ n ≤ 107 then { l with background := some (.basic (n - 92)) }
    else l

/-- Sets one of the three colours. -/
def setColor (l : Look) (selector : Nat) (c : Option Color) : Look :=
  match selector with
  | 38 => { l with foreground := c }
  | 48 => { l with background := c }
  | _ => { l with underlineColor := c }

/-- The effect of a parameter, and how many of those behind it belong to it. -/
def applyAt (l : Look) (p : Parameter) (rest : List Parameter) : Look × Nat :=
  if p.value = 38 ∨ p.value = 48 ∨ p.value = 58 then
    match color? p.bound rest with
    | some (c, used) => (l.setColor p.value c, used)
    | none => (l, 0)
  else if p.value = 4 ∧ p.bound then
    match rest with
    | next :: _ => if next.value ≤ 5 then ({ l with underline := next.value }, 1) else (l, 0)
    | [] => ({ l with underline := 1 }, 0)
  else (l.applyOne p.value, 0)

/-- The effect of parameters after `skip` of them, which belong to the one before. -/
def applyFrom : Look → (skip : Nat) → List Parameter → Look
  | l, _, [] => l
  | l, skip + 1, _ :: rest => applyFrom l skip rest
  | l, 0, p :: rest => applyFrom (l.applyAt p rest).1 (l.applyAt p rest).2 rest

/-- The parameters and the target of a command that sets a link. -/
def link? (sequence : Bytes) : Option (Bytes × Bytes) :=
  let body :=
    match sequence with
    | 0x1B :: 0x5D :: 0x38 :: 0x3B :: rest | 0x9D :: 0x38 :: 0x3B :: rest =>
      rest.takeWhile fun b => b != 0x07 && b != 0x1B && b != 0x9C
    | _ => []
  let parameters := body.takeWhile (· != 0x3B)
  match body.dropWhile (· != 0x3B) with
  | _ :: target => if target.contains 0x3B then none else some (parameters, target)
  | [] => none

/-- The look behind a piece of a text. -/
def behind (l : Look) (piece : Bytes) : Look :=
  match attributes? piece with
  | some [] => l.reset
  | some ps => l.applyFrom 0 ps
  | none =>
    match link? piece with
    | some (linkParameters, linkTarget) => { l with linkParameters, linkTarget }
    | none => l

/-- Whether a blank looks like nothing. -/
def hidesBlanks (l : Look) : Bool := !l.inverse && l.background.isNone && l.underline == 0

/-- The parameters of a colour; `selector` is 38, 48 or 58. -/
def colorText (selector : Nat) : Color → String
  | .basic n =>
    if selector = 58 then "58;5;" ++ toString n
    else if n < 8 then toString (selector - 8 + n)
    else toString (selector + 44 + n)
  | .indexed n => toString selector ++ ";5;" ++ toString n
  | .direct r g b =>
    toString selector ++ ";2;" ++ toString r ++ ";" ++ toString g ++ ";" ++ toString b

/-- The parameters that give the attributes and colours of a look. -/
def parameterTexts (l : Look) : List String :=
  (if l.bold then ["1"] else []) ++ (if l.faint then ["2"] else [])
    ++ (if l.italic then ["3"] else []) ++ (if l.slowBlink then ["5"] else [])
    ++ (if l.rapidBlink then ["6"] else []) ++ (if l.inverse then ["7"] else [])
    ++ (if l.concealed then ["8"] else []) ++ (if l.struckOut then ["9"] else [])
    ++ (if l.underline = 0 then []
        else if l.underline = 1 then ["4"]
        else ["4:" ++ toString l.underline])
    ++ (l.foreground.map (colorText 38)).toList ++ (l.background.map (colorText 48)).toList
    ++ (l.underlineColor.map (colorText 58)).toList

/-- Whether there is a link. -/
def isLink (l : Look) : Bool := !(l.linkParameters.isEmpty && l.linkTarget.isEmpty)

/-- The command that sets a link. -/
def linkCommand (parameters target : Bytes) : Bytes :=
  [0x1B, 0x5D, 0x38, 0x3B] ++ parameters ++ [0x3B] ++ target ++ [0x07]

/-- What takes the look off. -/
def close (l : Look) : Bytes :=
  (if l.parameterTexts.isEmpty then [] else [0x1B, 0x5B, 0x6D])
    ++ (if l.isLink then linkCommand [] [] else [])

/-- What puts the look on. -/
def reopen (l : Look) : Bytes :=
  (if l.isLink then linkCommand l.linkParameters l.linkTarget else [])
    ++ (if l.parameterTexts.isEmpty then []
        else [0x1B, 0x5B] ++ text (";".intercalate l.parameterTexts) ++ [0x6D])

end Look

end WasmUdon
