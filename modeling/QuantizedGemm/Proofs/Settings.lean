import Mathlib.Data.List.Forall2
import QuantizedGemm.Proofs.Text.Numeral
import QuantizedGemm.Settings

/-!
# What the environment sets

A variable sets a number if it holds a text that spells one in the range (`Settings.Accepts`), and
it earns a warning if it holds any other text (`Settings.Warns`).

## Two filters, one warning

The number of iterations goes through two filters, one for what is no number and one for zero. Each
of them warns about what it drops, and what the first drops the second never sees, so that there is
one warning in either case. Options precede the environment, and as long as they hold no count of
zero, a run that overrides the iterations of test cases does not override them with zero.

## The switch

The switch is off unless its variable holds `1` or the word `true`. Only the case of the letters is
of no matter: blanks around the word or another spelling of the number leave it off
(`Environment.forcesScalar_iff`).
-/

namespace QuantizedGemm

/-! ## Reading a variable -/

section Variables

variable {name : String} {x : Variable} {raw : String}

theorem readNumber_of_text?_eq_none (h : x.text? = none) : readNumber name x = (none, []) := by
  rw [readNumber, h]

theorem readNumber_of_numeral {v : ℕ}
    (h : Text.numeral? UInt64.size (Text.trimBlanks raw.toList) = some v) :
    readNumber name (.text raw) = (some v, []) := by
  simp only [readNumber, Variable.text?, h]

/-- The text of the warning about a value that is no number. -/
def malformedNotice (name raw : String) : String :=
  s!"ignoring {name}={Text.quoted raw}: not a valid value"

theorem readNumber_of_malformed
    (h : Text.numeral? UInt64.size (Text.trimBlanks raw.toList) = none) :
    readNumber name (.text raw) = (none, [⟨.warn, malformedNotice name raw⟩]) := by
  simp only [readNumber, Variable.text?, h]
  rfl

/-- The text of the warning about a count of zero. -/
def zeroNotice (name : String) : String :=
  s!"{name}=0 ignored: at least one iteration is required"

@[simp] theorem refuseZero_zero :
    refuseZero name (some 0) = (none, [⟨.warn, zeroNotice name⟩]) := rfl

theorem refuseZero_of_ne {n : Option ℕ} (h : n ≠ some 0) : refuseZero name n = (n, []) := if_neg h

end Variables

namespace Settings

/-- A variable spells a number from `least` to below `2 ^ 64`. -/
def Accepts (least : ℕ) (x : Variable) (v : ℕ) : Prop :=
  ∃ raw, x = .text raw ∧ Text.Spells raw.toList v ∧ least ≤ v ∧ v < UInt64.size

/-- The records on a variable, where the numbers from `least` on are accepted. -/
inductive Warns (name : String) (least : ℕ) : Variable → List LogRecord → Prop where
  /-- There are none on a variable that has no text, or whose number is accepted. -/
  | silent {x : Variable} (h : ∀ raw, x = .text raw → ∃ v, Accepts least x v) :
    Warns name least x []
  /-- There is one on a text that is not accepted, which tells zero from what is no number. -/
  | refused {raw notice : String} (h : ∀ v, ¬Accepts least (.text raw) v)
      (hnotice : Text.Spells raw.toList 0 ∧ notice = zeroNotice name ∨
        ¬Text.Spells raw.toList 0 ∧ notice = malformedNotice name raw) :
    Warns name least (.text raw) [⟨.warn, notice⟩]

variable {name : String} {least v : ℕ} {x : Variable} {raw : String}

theorem accepts_text_iff :
    Accepts least (.text raw) v ↔ Text.Spells raw.toList v ∧ least ≤ v ∧ v < UInt64.size := by
  constructor
  · rintro ⟨raw', heq, h⟩
    cases heq
    exact h
  · intro h
    exact ⟨raw, rfl, h⟩

theorem not_accepts_of_text?_eq_none (h : x.text? = none) : ¬Accepts least x v := by
  rintro ⟨raw, rfl, -⟩
  cases h

theorem warns_of_text?_eq_none (h : x.text? = none) : Warns name least x [] := by
  refine .silent fun raw hraw ↦ ?_
  rw [hraw] at h
  cases h

theorem numeral?_eq_some_iff_accepts :
    Text.numeral? UInt64.size (Text.trimBlanks raw.toList) = some v ↔
      Accepts 0 (.text raw) v := by
  rw [Text.numeral?_trimBlanks_eq_some_iff, accepts_text_iff, and_iff_right v.zero_le]

/-! ## Numbers that are accepted -/

theorem readNumber_eq_some_iff : (readNumber name x).1 = some v ↔ Accepts 0 x v := by
  cases hx : x.text? with
  | none =>
    rw [readNumber_of_text?_eq_none hx]
    exact ⟨nofun, fun h ↦ absurd h (not_accepts_of_text?_eq_none hx)⟩
  | some raw =>
    obtain rfl : x = .text raw := by
      cases x <;> cases hx
      rfl
    rw [← numeral?_eq_some_iff_accepts]
    cases hread : Text.numeral? UInt64.size (Text.trimBlanks raw.toList) with
    | none => rw [readNumber_of_malformed hread]
    | some w => rw [readNumber_of_numeral hread]

theorem refuseZero_readNumber_eq_some_iff :
    (refuseZero name (readNumber name x).1).1 = some v ↔ Accepts 1 x v := by
  have haccepts : Accepts 1 x v ↔ Accepts 0 x v ∧ v ≠ 0 := by
    constructor
    · rintro ⟨raw, hraw, hspells, hle, hlt⟩
      exact ⟨⟨raw, hraw, hspells, v.zero_le, hlt⟩, Nat.pos_iff_ne_zero.mp hle⟩
    · rintro ⟨⟨raw, hraw, hspells, -, hlt⟩, hne⟩
      exact ⟨raw, hraw, hspells, Nat.pos_iff_ne_zero.mpr hne, hlt⟩
  have hread : (readNumber name x).1 = some v ↔ Accepts 0 x v := readNumber_eq_some_iff
  rw [haccepts, ← hread]
  by_cases hzero : (readNumber name x).1 = some 0
  · rw [hzero, refuseZero_zero]
    simp [eq_comm]
  · rw [refuseZero_of_ne hzero]
    refine ⟨fun h ↦ ⟨h, ?_⟩, And.left⟩
    rintro rfl
    exact hzero h

/-! ## Warnings -/

theorem warns_of_accepts (h : Accepts least x v) : Warns name least x [] := .silent fun _ _ ↦ ⟨v, h⟩

theorem warns_of_malformed (h : Text.numeral? UInt64.size (Text.trimBlanks raw.toList) = none) :
    Warns name least (.text raw) [⟨.warn, malformedNotice name raw⟩] := by
  have hspells : ∀ v, Text.Spells raw.toList v → ¬v < UInt64.size := by
    intro v hv hlt
    rw [Text.numeral?_trimBlanks_eq_some_iff.mpr ⟨hv, hlt⟩] at h
    cases h
  apply Warns.refused
  · intro v hv
    obtain ⟨hv, -, hlt⟩ := accepts_text_iff.mp hv
    exact hspells v hv hlt
  · exact .inr ⟨fun hzero ↦ hspells 0 hzero (by decide), rfl⟩

theorem warns_readNumber : Warns name 0 x (readNumber name x).2 := by
  cases x with
  | unset => exact warns_of_text?_eq_none rfl
  | undecodable => exact warns_of_text?_eq_none rfl
  | text raw =>
    cases hread : Text.numeral? UInt64.size (Text.trimBlanks raw.toList) with
    | none =>
      rw [readNumber_of_malformed hread]
      exact warns_of_malformed hread
    | some v =>
      rw [readNumber_of_numeral hread]
      exact warns_of_accepts (numeral?_eq_some_iff_accepts.mp hread)

/-- What the first filter drops the second one does not see. -/
theorem warns_refuseZero_readNumber :
    Warns name 1 x ((readNumber name x).2 ++ (refuseZero name (readNumber name x).1).2) := by
  cases x with
  | unset => exact warns_of_text?_eq_none rfl
  | undecodable => exact warns_of_text?_eq_none rfl
  | text raw =>
    cases hread : Text.numeral? UInt64.size (Text.trimBlanks raw.toList) with
    | none =>
      rw [readNumber_of_malformed hread]
      exact warns_of_malformed hread
    | some v =>
      rw [readNumber_of_numeral hread]
      obtain ⟨hspells, hlt⟩ := Text.numeral?_trimBlanks_eq_some_iff.mp hread
      by_cases hzero : v = 0
      · subst hzero
        refine .refused (fun w hw ↦ ?_) (.inl ⟨hspells, rfl⟩)
        -- zero is all that the text spells
        obtain ⟨hw, hle, -⟩ := accepts_text_iff.mp hw
        have heq := hspells.unique hw
        omega
      · rw [refuseZero_of_ne (by simpa using hzero)]
        exact warns_of_accepts (accepts_text_iff.mpr ⟨hspells, by omega, hlt⟩)

end Settings

/-! ## The switch -/

namespace Environment

/-- A text that is a word of lower-case letters, but for their case. -/
def SpellsInAnyCase (text word : List Char) : Prop :=
  List.Forall₂ (fun letter lower ↦ letter = lower ∨ letter = lower.toUpper) text word

/-- The variable of the switch holds `1`, or the word `true` in any case of its letters. -/
def Forces (e : Environment) : Prop :=
  ∃ text, e.forceScalar = .text text ∧
    (text = "1" ∨ SpellsInAnyCase text.toList ['t', 'r', 'u', 'e'])

theorem lowerAscii_eq_iff {c lower : Char} (h : lower ∈ ['t', 'r', 'u', 'e']) :
    Text.lowerAscii c = lower ↔ c = lower ∨ c = lower.toUpper := by
  have hascii : ∀ n < 128, ['t', 'r', 'u', 'e'].all (fun lower ↦
      Text.lowerAscii (Char.ofNat n) = lower ↔
        Char.ofNat n = lower ∨ Char.ofNat n = lower.toUpper) = true := by decide
  have hbound : ['t', 'r', 'u', 'e'].all (fun lower ↦
      lower.toNat < 128 ∧ lower.toUpper.toNat < 128) = true := by decide
  by_cases hc : c.toNat < 128
  · have hchar := of_decide_eq_true (List.all_eq_true.mp (hascii c.toNat hc) lower h)
    rwa [Char.ofNat_toNat] at hchar
  · -- characters past ASCII stay what they are
    have hupper : ¬('A' ≤ c ∧ c ≤ 'Z') := by
      rintro ⟨-, hle⟩
      exact hc (Nat.lt_of_le_of_lt (show c.toNat ≤ 'Z'.toNat from hle) (by decide))
    obtain ⟨hlower, hlowerUpper⟩ := of_decide_eq_true (List.all_eq_true.mp hbound lower h)
    rw [Text.lowerAscii, if_neg hupper]
    constructor
    · exact Or.inl
    · rintro (rfl | rfl)
      · rfl
      · exact absurd hlowerUpper hc

theorem spells_true_iff {cs : List Char} :
    Text.spells "true" cs = true ↔ SpellsInAnyCase cs ['t', 'r', 'u', 'e'] := by
  rw [Text.spells, beq_iff_eq, SpellsInAnyCase]
  change cs.map Text.lowerAscii = ['t', 'r', 'u', 'e'] ↔ _
  rw [← List.forall₂_eq_eq_eq, List.forall₂_map_left_iff]
  simp only [List.forall₂_cons_right_iff, List.forall₂_nil_right_iff,
    lowerAscii_eq_iff (show 't' ∈ ['t', 'r', 'u', 'e'] by decide),
    lowerAscii_eq_iff (show 'r' ∈ ['t', 'r', 'u', 'e'] by decide),
    lowerAscii_eq_iff (show 'u' ∈ ['t', 'r', 'u', 'e'] by decide),
    lowerAscii_eq_iff (show 'e' ∈ ['t', 'r', 'u', 'e'] by decide)]

@[simp] theorem forcesScalar_iff (e : Environment) : e.forcesScalar = true ↔ e.Forces := by
  rw [forcesScalar, Forces]
  cases e.forceScalar with
  | unset => exact iff_of_false nofun nofun
  | undecodable => exact iff_of_false nofun nofun
  | text value => simp [Variable.text?, spells_true_iff]

end Environment

/-! ## The settings of a run -/

namespace Settings

/-- An explicit count that is not zero leaves no count of zero. -/
theorem override_iterations_ne_zero (e : Environment) (seed : Option ℕ) {count : Option ℕ}
    (hcount : count ≠ some 0) :
    ((ofEnvironment e).1.override seed count).iterations ≠ some 0 := by
  cases count with
  | some n => exact hcount
  | none =>
    intro hzero
    obtain ⟨-, -, -, hle, -⟩ := refuseZero_readNumber_eq_some_iff.mp hzero
    exact absurd hle (by decide)

/-- **The environment sets what its variables spell.** The seed is the number below `2 ^ 64` that
its variable spells, and the number of iterations that one if it is not zero as well. A text that
spells none of these earns one warning, and nothing else earns any. The usual text of a number is
read back, whatever blanks surround it, and a count that is not zero leaves no count of zero. -/
theorem ofEnvironment_exact (e : Environment) :
    (∀ v, (ofEnvironment e).1.seed = some v ↔ Accepts 0 e.seed v) ∧
    (∀ v, (ofEnvironment e).1.iterations = some v ↔ Accepts 1 e.iterations v) ∧
    (∃ onSeed onIterations, (ofEnvironment e).2 = onSeed ++ onIterations ∧
      Warns Environment.seedName 0 e.seed onSeed ∧
      Warns Environment.iterationsName 1 e.iterations onIterations) ∧
    (∀ v < UInt64.size, ∀ before after : String, (∀ c ∈ before.toList, Text.isBlank c = true) →
      (∀ c ∈ after.toList, Text.isBlank c = true) →
        let text := before ++ toString v ++ after
        (ofEnvironment { e with seed := .text text }).1.seed = some v ∧
        (v ≠ 0 → (ofEnvironment { e with iterations := .text text }).1.iterations = some v)) ∧
    ∀ seed count, count ≠ some 0 →
      ((ofEnvironment e).1.override seed count).iterations ≠ some 0 := by
  refine ⟨fun v ↦ readNumber_eq_some_iff, fun v ↦ refuseZero_readNumber_eq_some_iff,
    ⟨_, _, List.append_assoc .., warns_readNumber, warns_refuseZero_readNumber⟩, ?_,
    fun seed count ↦ override_iterations_ne_zero e seed⟩
  intro v hv before after hbefore hafter text
  have hspells : Text.Spells text.toList v := by
    rw [String.toList_append, String.toList_append]
    exact Text.spells_toString hbefore hafter v
  constructor
  · exact readNumber_eq_some_iff.mpr (accepts_text_iff.mpr ⟨hspells, v.zero_le, hv⟩)
  · intro hne
    exact refuseZero_readNumber_eq_some_iff.mpr
      (accepts_text_iff.mpr ⟨hspells, Nat.pos_iff_ne_zero.mpr hne, hv⟩)

/-- A sign, leading zeros and an ideographic space are no obstacle, and a count of zero is dropped
with one warning. -/
example : ofEnvironment { seed := .text "\u3000+0042\n", iterations := .text " 00" } =
    (⟨some 42, none, false⟩, [⟨.warn, zeroNotice Environment.iterationsName⟩]) := by
  decide +kernel

end Settings

end QuantizedGemm
