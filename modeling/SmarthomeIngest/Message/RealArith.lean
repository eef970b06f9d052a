import Mathlib.Analysis.SpecialFunctions.Log.Basic
import Mathlib.Analysis.Real.Sqrt
import SmarthomeIngest.Message.Transformed

/-!
# Exact arithmetic

The formulas for the derived fields, read over the reals, and over any ordered field with functions
that stand for the logarithm and the root.
-/

namespace SmarthomeIngest

open Classical in
/-- Real arithmetic, without rounding. -/
noncomputable instance : FloatArith ℝ where
  toAdd := inferInstance
  toSub := inferInstance
  toMul := inferInstance
  toDiv := inferInstance
  ofRat q := q
  ln := Real.log
  sqrt := Real.sqrt
  abs := abs
  lt x y := decide (x < y)
  le x y := decide (x ≤ y)

namespace Transform

lemma lit_real (q : ℚ) : (lit q : ℝ) = q := rfl

lemma inRange_real {lo hi : ℚ} {x : ℝ} : inRange lo hi x = true ↔ (lo : ℝ) ≤ x ∧ x ≤ hi := by
  simp [inRange, FloatArith.le, lit_real]

lemma lt_real {x y : ℝ} : FloatArith.lt x y = true ↔ x < y := decide_eq_true_iff

end Transform

section Field

variable {K : Type} [Field K] [LinearOrder K]

/-- Arithmetic of a field, without rounding. -/
@[reducible] def exactArith (ln sqrt : K → K) : FloatArith K where
  toAdd := inferInstance
  toSub := inferInstance
  toMul := inferInstance
  toDiv := inferInstance
  ofRat q := q
  ln := ln
  sqrt := sqrt
  abs := abs
  lt x y := decide (x < y)
  le x y := decide (x ≤ y)

/-- Numbers of a field, all of them finite. -/
@[reducible] def exactF64 [FloorRing K] (ln sqrt : K → K) (display : K → String) : F64 K where
  toFloatArith := exactArith ln sqrt
  isFinite _ := true
  isIntegral x := decide (⌊x⌋ = x)
  display := display

namespace Transform

variable {ln sqrt : K → K} {x y : K}

lemma lit_exact (q : ℚ) : @lit K (exactArith ln sqrt) q = q := rfl

lemma lt_exact : @FloatArith.lt K (exactArith ln sqrt) x y = true ↔ x < y := decide_eq_true_iff

lemma le_exact : @FloatArith.le K (exactArith ln sqrt) x y = true ↔ x ≤ y := decide_eq_true_iff

lemma inRange_exact {lo hi : ℚ} :
    @inRange K (exactArith ln sqrt) lo hi x = true ↔ (lo : K) ≤ x ∧ x ≤ hi := by
  unfold inRange
  rw [Bool.and_eq_true]
  exact and_congr le_exact le_exact

/-- The range checks accept exactly the readings in their ranges. -/
lemma exists_readReadings_iff [IsStrictOrderedRing K] [FloorRing K] {display : K → String}
    {r : Readings K} :
    (∃ data, @readReadings K (exactF64 ln sqrt display) data = .ok r) ↔
      r.relHumPerc ∈ Set.Ioc 0 100 ∧ 0 < r.gasOhm ∧ r.pressureHpa ∈ Set.Icc 300 1200 := by
  have hhum : r.relHumPerc ∈ Set.Ioc 0 100 ↔
      ((0 : ℚ) : K) < r.relHumPerc ∧ r.relHumPerc ≤ ((100 : ℚ) : K) := by simp
  have hgas : 0 < r.gasOhm ↔ ¬ r.gasOhm ≤ ((0 : ℚ) : K) := by simp
  have hpressure : r.pressureHpa ∈ Set.Icc 300 1200 ↔
      ((300 : ℚ) : K) ≤ r.pressureHpa ∧ r.pressureHpa ≤ ((1200 : ℚ) : K) := by simp
  rw [hhum, hgas, hpressure]
  constructor
  · rintro ⟨data, h⟩
    obtain ⟨hhum, hgas, hpressure⟩ :=
      @inRange_of_readReadings K (exactF64 ln sqrt display) data r h
    rw [Bool.and_eq_true, lt_exact, le_exact] at hhum
    exact ⟨hhum, decide_eq_false_iff_not.mp hgas, inRange_exact.mp hpressure⟩
  · rintro ⟨hhum, hgas, hpressure⟩
    refine ⟨_, @readReadings_toData K (exactF64 ln sqrt display) r ?_ ?_ ?_⟩
    · rw [Bool.and_eq_true, lt_exact, le_exact]
      exact hhum
    · exact decide_eq_false hgas
    · exact inRange_exact.mpr hpressure

end Transform

end Field

end SmarthomeIngest
