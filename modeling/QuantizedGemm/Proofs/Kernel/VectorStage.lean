import Mathlib.Tactic.IntervalCases
import QuantizedGemm.Kernel.EightColumn
import QuantizedGemm.Kernel.FourColumn

/-!
# The output stage of the vector kernels, lane by lane

The vector kernels scale whole vectors of accumulators and narrow two rows at a time.
`SimdParams.requantize` is what happens to one lane. Main statements: in both kernel shapes every
byte of every row is that function of its own accumulator (`FourColumn.packAll_map_scaleLanes`,
`EightColumn.packAll_map_scaleLanes`), for an even and for an odd number of rows.

## Where lanes go

Narrowing puts two vectors into one, which moves lanes between halves, and in the wider kernel
between quarters: it works on each half of a register by itself, and a shuffle brings the quarters
back into order (`swapMiddleQuarters_pack32Wide`). What a lane holds plays no part in this, so the
moves are stated for any function that is mapped over the lanes, and the function comes in last.
-/

namespace QuantizedGemm

open Lanes

namespace SimdParams

variable (p : SimdParams)

/-- Converts an accumulator, multiplies it by the scale, holds it at the upper bound and rounds it;
what has no 32-bit integer becomes the least one. -/
def scaled (acc : Int32) : Int32 :=
  ((int32ToBinary acc * p.scale).laneMin p.maxLessZeroPoint).toInt32Indefinite

/-- Narrows to 16 bits, adds the zero point, narrows to a byte, each held at the ends of the range,
and holds the byte at the lower bound. -/
def narrowed (x : Int32) : UInt8 :=
  let sum := (narrow16 x).toInt + p.outputZeroPoint.toInt
  let b := narrow8 (Int16.ofInt (min (max sum (-32768)) 32767))
  if b < p.outputMin then p.outputMin else b

/-- The output stage of one lane. -/
def requantize (acc : Int32) : UInt8 := p.narrowed (p.scaled acc)

end SimdParams

namespace Lanes

theorem get_eq_getElem {α : Type} {n : ℕ} (v : Vector α n) (l : Fin n) : v.get l = v[l.val] := rfl

@[simp] theorem getElem_scaleLanes {n : ℕ} (p : SimdParams) (v : Vector Int32 n) {l : ℕ}
    (h : l < n) :
    (scaleLanes p.scale p.maxLessZeroPoint v)[l] = p.scaled v[l] := by
  simp [scaleLanes, SimdParams.scaled]

section Extract

variable {n : ℕ} {g : Int32 → UInt8} {packed : Vector UInt8 16} {lo hi : Vector Int32 n}

theorem extract_eq_map_left (hn : n + n ≤ 16)
    (h : ∀ (l : ℕ) (hl : l < n + n), packed[l] = g (lo ++ hi)[l]) :
    packed.toArray.extract 0 n = (lo.map g).toArray := by
  refine Array.ext (by simp; omega) fun l h₁ h₂ ↦ ?_
  have hl : l < n := by simpa using h₂
  rw [Array.getElem_extract, Vector.getElem_toArray, Vector.getElem_toArray, Vector.getElem_map]
  simp only [Nat.zero_add]
  rw [h l (by omega), Vector.getElem_append_left hl]

theorem extract_eq_map_right (hn : n + n ≤ 16)
    (h : ∀ (l : ℕ) (hl : l < n + n), packed[l] = g (lo ++ hi)[l]) :
    packed.toArray.extract n (n + n) = (hi.map g).toArray := by
  refine Array.ext (by simp; omega) fun l h₁ h₂ ↦ ?_
  have hl : l < n := by simpa using h₂
  rw [Array.getElem_extract, Vector.getElem_toArray, Vector.getElem_toArray, Vector.getElem_map,
    h (n + l) (by omega), Vector.getElem_append_right (by omega) (by omega)]
  simp

end Extract

end Lanes

variable (p : SimdParams)

namespace FourColumn

theorem getElem_packRows (lo hi : Vector Int32 4) {l : ℕ} (h : l < 8) :
    (packRows p lo hi)[l] = p.narrowed (lo ++ hi)[l] := by
  have hleft : l < 8 + 8 := by omega
  simp [packRows, max8, pack16, addSaturating16, pack32, SimdParams.narrowed,
    Vector.getElem_append_left h]

theorem packAll_eq_map : ∀ rows : List (Vector Int32 4),
    packAll p rows = rows.map fun v ↦ (v.map p.narrowed).toArray
  | [] => rfl
  | [a] => by
    rw [packAll, extract_eq_map_left (by norm_num) fun l ↦ getElem_packRows p a a]
    rfl
  | a :: b :: rest => by
    have hbytes : ∀ (l : ℕ) (hl : l < 4 + 4), (packRows p a b)[l] = p.narrowed (a ++ b)[l] :=
      fun l ↦ getElem_packRows p a b
    rw [packAll, extract_eq_map_left (by norm_num) hbytes,
      extract_eq_map_right (by norm_num) hbytes, packAll_eq_map rest]
    rfl

/-- Scaling and packing rows of accumulators is the output stage of each lane. -/
theorem packAll_map_scaleLanes (rows : List (Vector Int32 4)) :
    packAll p (rows.map (scaleLanes p.scale p.maxLessZeroPoint)) =
      rows.map fun v ↦ (v.map p.requantize).toArray := by
  rw [packAll_eq_map, List.map_map]
  refine List.map_congr_left fun v _ ↦ congrArg Vector.toArray ?_
  ext l hl
  simp [getElem_scaleLanes, SimdParams.requantize]

end FourColumn

namespace EightColumn

theorem swapMiddleQuarters_map (g : Int16 → Int16) (v : Vector Int16 16) :
    swapMiddleQuarters (v.map g) = (swapMiddleQuarters v).map g := by
  ext l hl
  simp only [swapMiddleQuarters, Vector.getElem_ofFn, Vector.getElem_map, get_eq_getElem]
  split_ifs <;> rfl

/-- Packing puts the halves of a row into alternate quarters; the swap of the middle quarters puts
the lanes of each row together again. -/
theorem swapMiddleQuarters_pack32Wide (lo hi : Vector Int32 8) :
    swapMiddleQuarters (pack32Wide lo hi) = (lo ++ hi).map narrow16 := by
  ext l hl
  simp only [swapMiddleQuarters, pack32Wide, Vector.getElem_ofFn, Vector.getElem_map,
    get_eq_getElem, Vector.getElem_append]
  interval_cases l <;> simp

theorem lowHalf_append_highHalf (v : Vector Int16 16) : lowHalf v ++ highHalf v = v := by
  ext l hl
  simp only [lowHalf, highHalf, Vector.getElem_append, Vector.getElem_ofFn, get_eq_getElem]
  split_ifs with h
  · rfl
  · simp only [show 8 + (l - 8) = l by omega]

theorem getElem_packRows (lo hi : Vector Int32 8) {l : ℕ} (h : l < 16) :
    (packRows p lo hi)[l] = p.narrowed (lo ++ hi)[l] := by
  have hsum : addSaturating16 (pack32Wide lo hi) (Vector.replicate 16 p.outputZeroPoint) =
      (pack32Wide lo hi).map fun x ↦
        Int16.ofInt (min (max (x.toInt + p.outputZeroPoint.toInt) (-32768)) 32767) := by
    ext l hl
    simp [addSaturating16]
  simp only [packRows, hsum, swapMiddleQuarters_map, swapMiddleQuarters_pack32Wide, max8, pack16,
    lowHalf_append_highHalf, Vector.getElem_zipWith, Vector.getElem_map, Vector.getElem_replicate]
  rfl

theorem packAll_eq_map : ∀ rows : List (Vector Int32 8),
    packAll p rows = rows.map fun v ↦ (v.map p.narrowed).toArray
  | [] => rfl
  | [a] => by
    rw [packAll, extract_eq_map_left (by norm_num) fun l ↦ getElem_packRows p a a]
    rfl
  | a :: b :: rest => by
    have hbytes : ∀ (l : ℕ) (hl : l < 8 + 8), (packRows p a b)[l] = p.narrowed (a ++ b)[l] :=
      fun l ↦ getElem_packRows p a b
    rw [packAll, extract_eq_map_left (by norm_num) hbytes,
      extract_eq_map_right (by norm_num) hbytes, packAll_eq_map rest]
    rfl

/-- Scaling and packing rows of accumulators is the output stage of each lane. -/
theorem packAll_map_scaleLanes (rows : List (Vector Int32 8)) :
    packAll p (rows.map (scaleLanes p.scale p.maxLessZeroPoint)) =
      rows.map fun v ↦ (v.map p.requantize).toArray := by
  rw [packAll_eq_map, List.map_map]
  refine List.map_congr_left fun v _ ↦ congrArg Vector.toArray ?_
  ext l hl
  simp [getElem_scaleLanes, SimdParams.requantize]

end EightColumn

end QuantizedGemm
