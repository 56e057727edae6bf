import Mathlib.Data.List.TakeWhile
import Mathlib.Data.Nat.Digits.Defs
import QuantizedGemm.Text.Blank
import QuantizedGemm.Text.Numeral

/-!
# What a numeral says

The grammar of numerals beside their reader. A numeral is an optional plus sign and at least one
digit, and its value is the sum of its digits weighted by powers of ten (`IsNumeral`). Blanks may
stand around it (`Spells`). Reading accepts exactly the texts of this grammar whose value is below
the bound, and gives that value (`numeral?_trimBlanks_eq_some_iff`).

## Blanks at the ends

No sign and no digit is blank, which is why removing the blanks at the ends finds the numeral that
the grammar has inside. For the same reason a text spells one number at most (`Spells.unique`).

## The reader and the grammar

The reader goes from left to right and multiplies what it has by ten. The grammar weights each digit
by its place. Both values are the same (`digitsValue_eq_decimalValue`), and the bound is compared
with the value and not with the number of digits, so that zeros in front do no harm.
-/

namespace QuantizedGemm.Text

/-! ## Blanks at the ends -/

theorem exists_eq_append_trimBlanks (cs : List Char) :
    ∃ before after, cs = before ++ trimBlanks cs ++ after ∧
      (∀ c ∈ before, isBlank c = true) ∧ ∀ c ∈ after, isBlank c = true := by
  have hfront := List.takeWhile_append_dropWhile (p := isBlank) (l := cs)
  have hback := List.takeWhile_append_dropWhile (p := isBlank) (l := (cs.dropWhile isBlank).reverse)
  refine ⟨cs.takeWhile isBlank, ((cs.dropWhile isBlank).reverse.takeWhile isBlank).reverse, ?_,
    fun c hc ↦ List.mem_takeWhile_imp hc,
    fun c hc ↦ List.mem_takeWhile_imp (List.mem_reverse.mp hc)⟩
  rw [trimBlanks, List.append_assoc, ← List.reverse_append, hback, List.reverse_reverse, hfront]

/-- Blanks in front of a text that does not start with one are all that is dropped there. -/
theorem dropWhile_isBlank_append {before core : List Char}
    (hbefore : ∀ c ∈ before, isBlank c = true)
    (hhead : ∀ c, core.head? = some c → isBlank c = false) :
    (before ++ core).dropWhile isBlank = core := by
  rw [List.dropWhile_append_of_pos hbefore]
  cases core with
  | nil => rfl
  | cons c core => rw [List.dropWhile_cons_of_neg (by simp [hhead c rfl])]

theorem trimBlanks_append {before core after : List Char}
    (hbefore : ∀ c ∈ before, isBlank c = true) (hafter : ∀ c ∈ after, isBlank c = true)
    (hne : core ≠ []) (hcore : ∀ c ∈ core, isBlank c = false) :
    trimBlanks (before ++ core ++ after) = core := by
  have hhead : ∀ c, (core ++ after).head? = some c → isBlank c = false := by
    intro c hc
    obtain ⟨d, rest, rfl⟩ := List.exists_cons_of_ne_nil hne
    obtain rfl : d = c := Option.some.inj hc
    exact hcore d List.mem_cons_self
  have hlast : ∀ c, core.reverse.head? = some c → isBlank c = false := by
    intro c hc
    exact hcore c (List.mem_reverse.mp (List.mem_of_head? hc))
  rw [trimBlanks, List.append_assoc, dropWhile_isBlank_append hbefore hhead, List.reverse_append,
    dropWhile_isBlank_append (by simpa using hafter) hlast, List.reverse_reverse]

/-! ## Numerals -/

/-- The sum of digits weighted by powers of ten, the last digit by one. -/
def decimalValue (digits : List Char) : ℕ :=
  Nat.ofDigits 10 (digits.reverse.map fun c ↦ c.toNat - '0'.toNat)

/-- A numeral of a given value: an optional plus sign and one or more digits. -/
def IsNumeral (cs : List Char) (v : ℕ) : Prop :=
  ∃ sign digits, cs = sign ++ digits ∧ (sign = [] ∨ sign = ['+']) ∧ digits ≠ [] ∧
    (∀ c ∈ digits, '0' ≤ c ∧ c ≤ '9') ∧ v = decimalValue digits

/-- A numeral of a given value, with blanks around it. -/
def Spells (cs : List Char) (v : ℕ) : Prop :=
  ∃ before core after, cs = before ++ core ++ after ∧ (∀ c ∈ before, isBlank c = true) ∧
    (∀ c ∈ after, isBlank c = true) ∧ IsNumeral core v

@[simp] theorem isDigit_iff {c : Char} : isDigit c = true ↔ '0' ≤ c ∧ c ≤ '9' := by
  rw [isDigit, Bool.and_eq_true, decide_eq_true_iff, decide_eq_true_iff]

/-- Reading from the left gives the weighted sum. -/
theorem digitsValue_eq_decimalValue (cs : List Char) : digitsValue cs = decimalValue cs := by
  rw [digitsValue, decimalValue, Nat.ofDigits_eq_foldr, List.foldr_map, List.foldr_reverse]
  congr 1
  funext v c
  exact Nat.add_comm ..

theorem exists_sign (cs : List Char) :
    ∃ sign, cs = sign ++ dropPlus cs ∧ (sign = [] ∨ sign = ['+']) := by
  unfold dropPlus
  split
  · exact ⟨['+'], rfl, .inr rfl⟩
  · exact ⟨[], rfl, .inl rfl⟩

theorem dropPlus_of_isDigit {digits : List Char} (h : ∀ c ∈ digits, '0' ≤ c ∧ c ≤ '9') :
    dropPlus digits = digits := by
  unfold dropPlus
  split
  · have hplus := (h '+' List.mem_cons_self).1
    exact absurd hplus (by decide)
  · rfl

theorem numeral?_eq_some_iff {bound v : ℕ} {cs : List Char} :
    numeral? bound cs = some v ↔ IsNumeral cs v ∧ v < bound := by
  have hread : numeral? bound cs = some v ↔ dropPlus cs ≠ [] ∧
      (∀ c ∈ dropPlus cs, '0' ≤ c ∧ c ≤ '9') ∧ decimalValue (dropPlus cs) < bound ∧
        decimalValue (dropPlus cs) = v := by
    simp only [numeral?, Option.ite_some_none_eq_some, Bool.and_eq_true, Bool.not_eq_true',
      List.isEmpty_eq_false_iff, List.all_eq_true, isDigit_iff, decide_eq_true_iff,
      digitsValue_eq_decimalValue, and_assoc]
  rw [hread]
  constructor
  · rintro ⟨hne, hdigits, hlt, rfl⟩
    obtain ⟨sign, hcs, hsign⟩ := exists_sign cs
    exact ⟨⟨sign, dropPlus cs, hcs, hsign, hne, hdigits, rfl⟩, hlt⟩
  · rintro ⟨⟨sign, digits, rfl, hsign, hne, hdigits, rfl⟩, hlt⟩
    have hdrop : dropPlus (sign ++ digits) = digits := by
      rcases hsign with rfl | rfl
      · exact dropPlus_of_isDigit hdigits
      · rfl
    rw [hdrop]
    exact ⟨hne, hdigits, hlt, rfl⟩

/-! ## Numerals between blanks -/

theorem isBlank_of_digit {c : Char} (h : '0' ≤ c ∧ c ≤ '9') : isBlank c = false := by
  have hlow : 48 ≤ c.toNat := h.1
  have hhigh : c.toNat ≤ 57 := h.2
  rw [Bool.eq_false_iff, ne_eq, isBlank, liesIn_iff]
  simp only [blankRanges, List.mem_cons, List.not_mem_nil, or_false]
  rintro ⟨r, hr, hle⟩
  rcases hr with rfl | rfl | rfl | rfl | rfl | rfl | rfl | rfl | rfl | rfl <;> simp at hle <;> omega

theorem IsNumeral.ne_nil {cs : List Char} {v : ℕ} (h : IsNumeral cs v) : cs ≠ [] := by
  obtain ⟨sign, digits, rfl, -, hne, -⟩ := h
  simp [hne]

theorem IsNumeral.isBlank_eq_false {cs : List Char} {v : ℕ} (h : IsNumeral cs v) {c : Char}
    (hc : c ∈ cs) : isBlank c = false := by
  obtain ⟨sign, digits, rfl, hsign, -, hdigits, -⟩ := h
  rcases List.mem_append.mp hc with hc | hc
  · rcases hsign with rfl | rfl
    · cases hc
    · obtain rfl := List.mem_singleton.mp hc
      decide
  · exact isBlank_of_digit (hdigits c hc)

/-- Once the blanks at its ends are removed, a text is read if it spells a number below the
bound. -/
theorem numeral?_trimBlanks_eq_some_iff {bound v : ℕ} {cs : List Char} :
    numeral? bound (trimBlanks cs) = some v ↔ Spells cs v ∧ v < bound := by
  rw [numeral?_eq_some_iff]
  refine and_congr_left fun _ ↦ ⟨fun h ↦ ?_, ?_⟩
  · obtain ⟨before, after, hcs, hbefore, hafter⟩ := exists_eq_append_trimBlanks cs
    exact ⟨before, trimBlanks cs, after, hcs, hbefore, hafter, h⟩
  · rintro ⟨before, core, after, rfl, hbefore, hafter, h⟩
    rwa [trimBlanks_append hbefore hafter h.ne_nil fun c hc ↦ h.isBlank_eq_false hc]

theorem Spells.unique {cs : List Char} {v w : ℕ} (hv : Spells cs v) (hw : Spells cs w) : v = w := by
  -- with a bound above both, each of them is what is read
  have hreadv : numeral? (v + w + 1) (trimBlanks cs) = some v :=
    numeral?_trimBlanks_eq_some_iff.mpr ⟨hv, by omega⟩
  have hreadw : numeral? (v + w + 1) (trimBlanks cs) = some w :=
    numeral?_trimBlanks_eq_some_iff.mpr ⟨hw, by omega⟩
  exact Option.some.inj (hreadv.symm.trans hreadw)

/-! ## Numbers as text -/

theorem isNumeral_toString (v : ℕ) : IsNumeral (toString v).toList v := by
  have htext : (toString v).toList = Nat.toDigits 10 v := Nat.toList_repr
  rw [htext]
  refine ⟨[], _, rfl, .inl rfl, Nat.toDigits_ne_nil, fun c hc ↦ ?_, ?_⟩
  · have hdigit := Nat.isDigit_of_mem_toDigits (by decide) (by decide) hc
    rwa [Char.isDigit, Bool.and_eq_true, decide_eq_true_iff, decide_eq_true_iff] at hdigit
  · rw [← digitsValue_eq_decimalValue]
    exact (Nat.ofDigitChars_toDigits (by decide) (by decide)).symm

/-- The usual text of a number with any blanks around it spells the number. -/
theorem spells_toString {before after : List Char} (hbefore : ∀ c ∈ before, isBlank c = true)
    (hafter : ∀ c ∈ after, isBlank c = true) (v : ℕ) :
    Spells (before ++ (toString v).toList ++ after) v :=
  ⟨before, _, after, rfl, hbefore, hafter, isNumeral_toString v⟩

end QuantizedGemm.Text
