import WasmUdon.Decimal.Floating
import WasmUdon.Proofs.Text.Ascii

/-!
# The characters of numbers

Integers and floating-point numbers are written with digits and a handful of marks (`IsNumeral`).
So the text of a number never breaks a line (`IsNumeral.lineFeed_notMem`), and it is not mistaken
for the word `null` (`IsNumeral.ne_null`).
-/

namespace WasmUdon

/-- The characters of numbers other than digits: point, signs, exponent mark, and the letters of
the two words for what is no finite number. -/
def numeralMarks : List Char := ['.', '+', '-', 'e', 'N', 'a', 'I', 'n', 'f']

/-- All characters are digits or marks of numbers. -/
def IsNumeral (cs : List Char) : Prop := ∀ c ∈ cs, c.isDigit = true ∨ c ∈ numeralMarks

instance (cs : List Char) : Decidable (IsNumeral cs) :=
  List.decidableBAll (fun c : Char => c.isDigit = true ∨ c ∈ numeralMarks) cs

theorem IsNumeral.append {as bs : List Char} (has : IsNumeral as) (hbs : IsNumeral bs) :
    IsNumeral (as ++ bs) := List.forall_mem_append.2 ⟨has, hbs⟩

theorem IsNumeral.subset {as bs : List Char} (hbs : IsNumeral bs) (h : as ⊆ bs) : IsNumeral as :=
  fun c hc => hbs c (h hc)

theorem isNumeral_toDigits (n : Nat) : IsNumeral (Nat.toDigits 10 n) :=
  fun _ hc => .inl (Nat.isDigit_of_mem_toDigits (by omega) (by omega) hc)

theorem isNumeral_zeros (n : Nat) : IsNumeral (List.replicate n '0') := by
  intro c hc
  rw [List.eq_of_mem_replicate hc]
  exact .inl rfl

/-! ## Numbers -/

theorem isNumeral_int (n : Int) : IsNumeral (toString n).toList := by
  rw [Int.toString_eq_repr]
  cases n with
  | ofNat n =>
    change IsNumeral n.repr.toList
    rw [Nat.toList_repr]
    exact isNumeral_toDigits n
  | negSucc n =>
    change IsNumeral ("-" ++ n.succ.repr).toList
    rw [String.toList_append, Nat.toList_repr]
    exact IsNumeral.append (by decide) (isNumeral_toDigits _)

theorem isNumeral_positional {digits : List Char} (h : IsNumeral digits) (whole : Nat) :
    IsNumeral (positional digits whole).toList := by
  have hfront : IsNumeral (digits.take whole ++ List.replicate (whole - digits.length) '0') :=
    (h.subset (List.take_subset _ _)).append (isNumeral_zeros _)
  have hback : IsNumeral ('.' :: digits.drop whole) :=
    List.forall_mem_cons.2 ⟨by decide, h.subset (List.drop_subset _ _)⟩
  rw [positional, String.toList_ofList]
  split
  · exact hfront
  · exact hfront.append hback

theorem Decimal.isNumeral_format {d : Decimal} (h : IsNumeral d.digits) (style : DecimalStyle) :
    IsNumeral (d.format style).toList := by
  unfold format
  split
  · simp only [String.toList_append, String.toList_ofList]
    refine ((isNumeral_positional h 1).append ?_).append
      ((isNumeral_zeros _).append (isNumeral_toDigits _))
    split <;> decide
  · split
    · simp only [String.toList_append, String.toList_ofList]
      exact IsNumeral.append (by decide) ((isNumeral_zeros _).append h)
    · exact isNumeral_positional h _

theorem Binary.isNumeral_shortest (b : Binary) : IsNumeral b.shortest.digits := by
  -- whatever number was found, its digits lose nothing but zeros at the end
  have htrim (n : Nat) :
      IsNumeral ((Nat.toDigits 10 n).reverse.dropWhile (· == '0')).reverse := by
    refine (isNumeral_toDigits n).subset fun c hc => ?_
    rw [List.mem_reverse] at hc
    exact List.mem_reverse.1 (List.dropWhile_subset _ hc)
  exact htrim _

theorem FloatValue.isNumeral_format (v : FloatValue) (style : DecimalStyle) :
    IsNumeral (v.format style).toList := by
  cases v with
  | nan =>
    rw [format]
    decide
  | infinite negative => cases negative <;> (rw [format]; decide)
  | zero negative => cases negative <;> (rw [format]; decide)
  | finite negative magnitude =>
    have hmagnitude := Decimal.isNumeral_format magnitude.isNumeral_shortest style
    cases negative with
    | false => exact hmagnitude
    | true =>
      rw [format, String.toList_append]
      exact IsNumeral.append (by decide) hmagnitude

/-! ## Their texts -/

theorem IsNumeral.lineFeed_notMem {s : String} (h : IsNumeral s.toList) : 10 ∉ text s := by
  refine notMem_text (by decide) fun c hc heq => ?_
  have hc' : c = '\n' := Char.toNat_inj.1 heq
  subst hc'
  exact absurd (h _ hc) (by decide)

theorem IsNumeral.ne_null {s : String} (h : IsNumeral s.toList) : text s ≠ text "null" := by
  intro heq
  rw [text_inj heq] at h
  exact absurd h (by decide)

end WasmUdon
