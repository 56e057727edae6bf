import QuantizedGemm.Proofs.Kernel.Run

/-!
# Validation of an indirection table

On a machine positions, offsets and sizes are words. This file shows that the table is checked by
words as it is checked by numbers (`IndirectView.checkTable_eq_validate`), and that what the check
accepts are the tables whose rows can be read.

## Sums that do not fit

Reading a row adds the offset to the position and has to fit a word, while validation must not fail
on any sum and stops at the greatest word instead. The two agree, since no buffer is as large as the
greatest word: a sum that does not fit lies past the end of the arena just as the greatest word
does.

## The reason of a refusal

A table that is refused is refused for its first row that falls short, or for its own length. The
rows are checked in the order of the table, so that what is reported is what the first such row
lacks (`IndirectView.Refuses`).
-/

namespace QuantizedGemm

/-! ## Sums of machine words -/

/-- The sum of two words, if it is one. -/
def wordAdd? (a b : ℕ) : Option ℕ := if a + b < UInt64.size then some (a + b) else none

/-- The sum of two words, or the greatest word if that is smaller. -/
def saturatingAdd (a b : ℕ) : ℕ := min (a + b) (UInt64.size - 1)

theorem wordAdd?_of_lt {a b : ℕ} (h : a + b < UInt64.size) : wordAdd? a b = some (a + b) := if_pos h

theorem wordAdd?_of_not_lt {a b : ℕ} (h : ¬a + b < UInt64.size) : wordAdd? a b = none := if_neg h

/-- What is left of a buffer behind a sum does not depend on where the sum stops. -/
theorem sub_saturatingAdd {size : ℕ} (hsize : size < UInt64.size) (a b : ℕ) :
    size - saturatingAdd a b = size - (a + b) := by
  unfold saturatingAdd
  omega

namespace IndirectView

/-! ## Rows by words -/

section Words

variable (v : IndirectView)

/-- What reading a row gives: the rest of the arena from the displaced position on, or the zero
buffer. Nothing is read where the table has no such row, where the displaced position is no word, or
where it is past the end. -/
def readRow? (index : ℕ) : Option Bytes :=
  match v.rows[index]? with
  | none => none
  | some (.input position) =>
    (wordAdd? position v.offset).bind fun start ↦
      if start ≤ v.input.size then some (v.input.extract start v.input.size) else none
  | some .zero => some v.zero

/-- The number of bytes that a reference can read. -/
def reach : IndirectRow → ℕ
  | .input position => v.input.size - saturatingAdd position v.offset
  | .zero => v.zero.size

/-- Goes through rows up to the first one that is too short. -/
def checkRows (kc : ℕ) : List IndirectRow → Except Error Unit
  | [] => .ok ()
  | r :: rest =>
    if v.reach r < kc then .error (.kernel (.bufferTooSmall (sourceName r) kc (v.reach r)))
    else checkRows kc rest

/-- Checks the length of the table, and then its rows. -/
def checkTable (mr ks kc : ℕ) : Except Error Unit :=
  if v.rows.size < mr * ks then
    .error (.kernel (.bufferTooSmall "indirection buffer" (mr * ks) v.rows.size))
  else v.checkRows kc (v.rows.toList.take (mr * ks))

/-- A row can be read, and has `kc` bytes. -/
def Serves (index kc : ℕ) : Prop := ∃ row, v.readRow? index = some row ∧ kc ≤ row.size

/-- The number of bytes that reading a row gives, which is none where it cannot be read. -/
def readable (index : ℕ) : ℕ := (v.readRow? index).elim 0 Array.size

/-- Why a table is refused. A row is refused for its length only if the table is long enough and all
rows before it serve. -/
inductive Refuses (mr ks kc : ℕ) : Error → Prop where
  | table (h : v.rows.size < mr * ks) :
    Refuses mr ks kc (.kernel (.bufferTooSmall "indirection buffer" (mr * ks) v.rows.size))
  | input {index position : ℕ} (htable : mr * ks ≤ v.rows.size) (hindex : index < mr * ks)
      (hbefore : ∀ i < index, v.Serves i kc) (hrow : v.rows[index]? = some (.input position))
      (hshort : ¬v.Serves index kc) :
    Refuses mr ks kc (.kernel (.bufferTooSmall "indirect input row" kc (v.readable index)))
  | zero {index : ℕ} (htable : mr * ks ≤ v.rows.size) (hindex : index < mr * ks)
      (hbefore : ∀ i < index, v.Serves i kc) (hrow : v.rows[index]? = some .zero)
      (hshort : ¬v.Serves index kc) :
    Refuses mr ks kc (.kernel (.bufferTooSmall "zero buffer" kc v.zero.size))

end Words

variable {v : IndirectView} {mr ks kc index : ℕ} {r : IndirectRow}

theorem readRow?_zero (h : v.rows[index]? = some .zero) : v.readRow? index = some v.zero := by
  rw [readRow?, h]

section Fits

variable (hinput : v.input.size < UInt64.size)

include hinput

theorem reach_eq_available (r : IndirectRow) : v.reach r = v.available r := by
  cases r with
  | input position => exact sub_saturatingAdd hinput position v.offset
  | zero => rfl

/-- A sum that is no word is past the end of the arena. -/
theorem readRow?_eq_row? (index : ℕ) : v.readRow? index = v.row? index := by
  cases hrow : v.rows[index]? with
  | none => simp [readRow?, row?, hrow]
  | some r =>
    rw [row?_eq hrow]
    cases r with
    | zero => simp [readRow?_zero hrow, source]
    | input position =>
      simp only [readRow?, hrow]
      by_cases hword : position + v.offset < UInt64.size
      · rw [wordAdd?_of_lt hword]
        rfl
      · have hpast : ¬(v.source (.input position)).2 ≤ (v.source (.input position)).1.size := by
          change ¬position + v.offset ≤ v.input.size
          omega
        rw [wordAdd?_of_not_lt hword, if_neg hpast]
        rfl

theorem serves_iff_available (hkc : 0 < kc) (hrow : v.rows[index]? = some r) :
    v.Serves index kc ↔ kc ≤ v.available r := by
  rw [Serves, readRow?_eq_row? hinput, row?_iff_available hrow hkc]

theorem readable_eq_available (hrow : v.rows[index]? = some r) :
    v.readable index = v.available r := by
  rw [readable, readRow?_eq_row? hinput, row?_eq hrow, available_eq]
  split_ifs with hle
  · rw [Option.elim_some, Array.size_extract, Nat.min_self]
  · rw [Option.elim_none]
    omega

end Fits

/-! ## The first row that falls short -/

theorem checkRows_eq_error_iff {rows : List IndirectRow} {e : Error} :
    v.checkRows kc rows = .error e ↔ ∃ (i : ℕ) (r : IndirectRow),
      rows[i]? = some r ∧ v.reach r < kc ∧
      (∀ j < i, ∀ r', rows[j]? = some r' → kc ≤ v.reach r') ∧
        e = .kernel (.bufferTooSmall (sourceName r) kc (v.reach r)) := by
  induction rows with
  | nil => simp [checkRows]
  | cons r rows ih =>
    rw [checkRows]
    by_cases hshort : v.reach r < kc
    · rw [if_pos hshort]
      constructor
      · intro h
        cases h
        exact ⟨0, r, rfl, hshort, fun j hj ↦ absurd hj j.not_lt_zero, rfl⟩
      · rintro ⟨i, r', hr', -, hbefore, rfl⟩
        cases i with
        | zero =>
          cases hr'
          rfl
        | succ i => exact absurd hshort (Nat.not_lt.mpr (hbefore 0 i.succ_pos r rfl))
    · rw [if_neg hshort, ih]
      constructor
      · rintro ⟨i, r', hr', hr'short, hbefore, rfl⟩
        refine ⟨i + 1, r', hr', hr'short, fun j hj s hs ↦ ?_, rfl⟩
        cases j with
        | zero =>
          cases hs
          exact Nat.not_lt.mp hshort
        | succ j => exact hbefore j (Nat.lt_of_succ_lt_succ hj) s hs
      · rintro ⟨i, r', hr', hr'short, hbefore, rfl⟩
        cases i with
        | zero =>
          cases hr'
          exact absurd hr'short hshort
        | succ i =>
          exact ⟨i, r', hr', hr'short,
            fun j hj s hs ↦ hbefore (j + 1) (Nat.succ_lt_succ hj) s hs, rfl⟩

theorem checkRows_eq_find? (rows : List IndirectRow) :
    v.checkRows kc rows =
      match rows.find? fun r ↦ decide (v.reach r < kc) with
      | none => .ok ()
      | some r => requireLength (sourceName r) kc (v.reach r) := by
  induction rows with
  | nil => rfl
  | cons r rows ih =>
    rw [checkRows]
    by_cases hshort : v.reach r < kc
    · rw [if_pos hshort, List.find?_cons_of_pos (by simpa using hshort)]
      exact (if_pos hshort).symm
    · rw [if_neg hshort, List.find?_cons_of_neg (by simpa using hshort), ih]

/-- The check by words is the check by numbers. -/
theorem checkTable_eq_validate (hinput : v.input.size < UInt64.size) :
    v.checkTable mr ks kc = v.validate mr ks kc := by
  have hreach : v.reach = v.available := funext (reach_eq_available hinput)
  unfold checkTable validate requireLength
  dsimp only
  by_cases htable : v.rows.size < mr * ks
  · rw [if_pos htable, if_pos htable]
    rfl
  · rw [if_neg htable, if_neg htable, checkRows_eq_find?, hreach]
    rfl

theorem getElem?_take_rows {count : ℕ} (hindex : index < count) :
    (v.rows.toList.take count)[index]? = v.rows[index]? := by
  rw [List.getElem?_take_of_lt hindex, Array.getElem?_toList]

section Fits

variable (hinput : v.input.size < UInt64.size) (hkc : 0 < kc)

include hinput hkc

theorem validate_eq_ok_iff_serves :
    v.validate mr ks kc = .ok () ↔
      mr * ks ≤ v.rows.size ∧ ∀ index < mr * ks, v.Serves index kc := by
  rw [validate_eq_ok_iff hkc]
  constructor
  · intro h
    refine ⟨?_, fun index hindex ↦ ?_⟩
    · -- otherwise the row right past the table could be read
      by_contra hlt
      obtain ⟨row, hrow, -⟩ := h v.rows.size (by omega)
      simp [row?] at hrow
    · rw [Serves, readRow?_eq_row? hinput]
      exact h index hindex
  · rintro ⟨-, h⟩ index hindex
    rw [← readRow?_eq_row? hinput]
    exact h index hindex

/-- The rows before one of the table serve if enough of each can be reached. -/
theorem serves_before_iff (htable : mr * ks ≤ v.rows.size) (hindex : index < mr * ks) :
    (∀ i < index, v.Serves i kc) ↔
      ∀ i < index, ∀ r, (v.rows.toList.take (mr * ks))[i]? = some r → kc ≤ v.reach r := by
  refine forall₂_congr fun i hi ↦ ?_
  have hrow : v.rows[i]? = some v.rows[i] := Array.getElem?_eq_getElem (by omega)
  rw [serves_iff_available hinput hkc hrow, getElem?_take_rows (hi.trans hindex), hrow,
    ← reach_eq_available hinput]
  simp

theorem not_serves_iff_reach (hrow : v.rows[index]? = some r) :
    ¬v.Serves index kc ↔ v.reach r < kc := by
  rw [serves_iff_available hinput hkc hrow, ← reach_eq_available hinput, Nat.not_le]

/-- A table that is long enough is refused for the first of its rows that does not serve. -/
theorem checkRows_eq_error_iff_refuses (htable : mr * ks ≤ v.rows.size) {e : Error} :
    v.checkRows kc (v.rows.toList.take (mr * ks)) = .error e ↔ v.Refuses mr ks kc e := by
  rw [checkRows_eq_error_iff]
  constructor
  · rintro ⟨index, r, hr, hshort, hbefore, rfl⟩
    have hindex : index < mr * ks := by
      by_contra hpast
      rw [List.getElem?_take, if_neg hpast] at hr
      cases hr
    rw [getElem?_take_rows hindex] at hr
    have hserves := (serves_before_iff hinput hkc htable hindex).mpr hbefore
    have hnot := (not_serves_iff_reach hinput hkc hr).mpr hshort
    cases r with
    | input position =>
      rw [reach_eq_available hinput, ← readable_eq_available hinput hr]
      exact .input htable hindex hserves hr hnot
    | zero => exact .zero htable hindex hserves hr hnot
  · intro h
    cases h with
    | table h => exact absurd h (Nat.not_lt.mpr htable)
    | input _ hindex hbefore hrow hnot =>
      refine ⟨_, _, (getElem?_take_rows hindex).trans hrow,
        (not_serves_iff_reach hinput hkc hrow).mp hnot,
        (serves_before_iff hinput hkc htable hindex).mp hbefore, ?_⟩
      rw [reach_eq_available hinput, ← readable_eq_available hinput hrow]
      rfl
    | zero _ hindex hbefore hrow hnot =>
      exact ⟨_, _, (getElem?_take_rows hindex).trans hrow,
        (not_serves_iff_reach hinput hkc hrow).mp hnot,
        (serves_before_iff hinput hkc htable hindex).mp hbefore, rfl⟩

theorem validate_eq_error_iff_refuses {e : Error} :
    v.validate mr ks kc = .error e ↔ v.Refuses mr ks kc e := by
  rw [← checkTable_eq_validate hinput, checkTable]
  by_cases htable : v.rows.size < mr * ks
  · rw [if_pos htable]
    constructor
    · intro h
      cases h
      exact .table htable
    · intro h
      cases h with
      | table => rfl
      | input hle | zero hle => exact absurd htable (Nat.not_lt.mpr hle)
  · rw [if_neg htable]
    exact checkRows_eq_error_iff_refuses hinput hkc (Nat.not_lt.mp htable)

end Fits

/-- **Validation is exact.** A table is accepted if it is long enough and each of its rows can be
read and has `kc` bytes. It is refused with the buffer that is too small: the table itself, or what
the first row that does not serve reads. Checking by words and reading by words come to the same as
by numbers, and no offset displaces padding. -/
theorem validate_exact {v : IndirectView} {mr ks kc : ℕ} (hkc : 0 < kc)
    (hinput : v.input.size < UInt64.size) :
    v.validate mr ks kc = v.checkTable mr ks kc ∧ v.row? = v.readRow? ∧
    (v.validate mr ks kc = .ok () ↔
      mr * ks ≤ v.rows.size ∧ ∀ index < mr * ks, v.Serves index kc) ∧
    (∀ e, v.validate mr ks kc = .error e ↔ v.Refuses mr ks kc e) ∧
    ∀ index, v.rows[index]? = some .zero →
      ∀ offset, { v with offset := offset }.readRow? index = some v.zero := by
  have hrow : v.row? = v.readRow? := funext fun index ↦ (readRow?_eq_row? hinput index).symm
  refine ⟨(checkTable_eq_validate hinput).symm, hrow, validate_eq_ok_iff_serves hinput hkc,
    fun e ↦ validate_eq_error_iff_refuses hinput hkc, fun index hzero offset ↦ ?_⟩
  exact readRow?_zero (v := { v with offset := offset }) hzero

/-- Three rows, the last of which is displaced past the greatest word. -/
def sampleFarView : IndirectView where
  rows := #[.input 1, .zero, .input (UInt64.size - 1)]
  input := #[1, 2, 3, 4]
  zero := #[9, 9]
  offset := 1

theorem sampleFarView_validate_exact : 0 < 2 ∧ sampleFarView.input.size < UInt64.size ∧
    (∀ index < 2, sampleFarView.Serves index 2) ∧
    sampleFarView.Refuses 3 1 2 (.kernel (.bufferTooSmall "indirect input row" 2 0)) ∧
    sampleFarView.Refuses 1 2 3 (.kernel (.bufferTooSmall "indirect input row" 3 2)) ∧
    sampleFarView.Refuses 2 2 1 (.kernel (.bufferTooSmall "indirection buffer" 4 3)) := by
  have hinput : sampleFarView.input.size < UInt64.size := by decide
  have hserves : ∀ index < 2 * 1, sampleFarView.Serves index 2 :=
    ((validate_exact (by decide) hinput).2.2.1.mp (by decide)).2
  refine ⟨by decide, hinput, hserves, ?_, ?_, ?_⟩
  · exact ((validate_exact (by decide) hinput).2.2.2.1 _).mp (by decide)
  · exact ((validate_exact (by decide) hinput).2.2.2.1 _).mp (by decide)
  · exact ((validate_exact (by decide) hinput).2.2.2.1 _).mp (by decide)

end IndirectView

end QuantizedGemm
