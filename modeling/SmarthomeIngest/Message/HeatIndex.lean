import Mathlib.Tactic.FieldSimp
import Mathlib.Tactic.Linarith
import Mathlib.Tactic.Ring
import SmarthomeIngest.Message.RealArith

/-!
# The heat index

The algorithm of the National Weather Service from 80 °F on: the regression of Rothfusz, with an
adjustment for dry and one for humid air. The program takes both adjustments, each with a slip in
its divisions, so that it agrees with the algorithm where no adjustment applies, and where the one
for humid air is zero.
-/

namespace SmarthomeIngest

open Transform

/-! ### The algorithm -/

/-- The regression for a temperature in °F and a relative humidity in percent. -/
noncomputable def rothfusz (t rh : ℝ) : ℝ :=
  -42.379 + 2.04901523 * t + 10.14333127 * rh - 0.22475541 * t * rh - 0.00683783 * t * t
    - 0.05481717 * rh * rh + 0.00122874 * t * t * rh + 0.00085282 * t * rh * rh
    - 0.00000199 * t * t * rh * rh

/-- What is under the root in the adjustment for dry air. -/
noncomputable def dryRadicand (t : ℝ) : ℝ := (17 - |t - 95|) / 17

noncomputable def dryAdjustment (t rh : ℝ) : ℝ := (13 - rh) / 4 * √(dryRadicand t)

noncomputable def humidAdjustment (t rh : ℝ) : ℝ := (rh - 85) / 10 * ((87 - t) / 5)

open Classical in
/-- The heat index in °F, for temperatures from 80 °F on. -/
noncomputable def nwsHeatIndexF (t rh : ℝ) : ℝ :=
  if rh < 13 ∧ 80 ≤ t ∧ t ≤ 112 then rothfusz t rh - dryAdjustment t rh
  else if 85 < rh ∧ 80 ≤ t ∧ t ≤ 87 then rothfusz t rh + humidAdjustment t rh
  else rothfusz t rh

/-! ### The adjustment for dry air -/

lemma dryRadicand_nonneg {t : ℝ} (h : 80 ≤ t) (h' : t ≤ 112) : 0 ≤ dryRadicand t := by
  have habs : |t - 95| ≤ 17 := abs_le.mpr ⟨by linarith, by linarith⟩
  exact div_nonneg (by linarith) (by norm_num)

lemma dryAdjustment_at_end (rh : ℝ) : dryAdjustment 112 rh = 0 := by
  have hzero : dryRadicand 112 = 0 := by norm_num [dryRadicand]
  rw [dryAdjustment, hzero, Real.sqrt_zero, mul_zero]

/-! ### What the program computes -/

lemma tempCToF_real (x : ℝ) : tempCToF x = x * 9 / 5 + 32 := by
  show x * ((9 : ℚ) : ℝ) / ((5 : ℚ) : ℝ) + ((32 : ℚ) : ℝ) = _
  norm_num

lemma tempFToC_real (x : ℝ) : tempFToC x = (x - 32) * 5 / 9 := by
  show (x - ((32 : ℚ) : ℝ)) * ((5 : ℚ) : ℝ) / ((9 : ℚ) : ℝ) = _
  norm_num

lemma tempFToC_inj {x y : ℝ} : tempFToC x = tempFToC y ↔ x = y := by
  rw [tempFToC_real, tempFToC_real]
  constructor
  · intro h
    linarith
  · intro h
    rw [h]

/-- The regression as the program writes it. -/
lemma rothfusz_real (t rh : ℝ) :
    (lit (-42.379) + lit 2.04901523 * t + lit 10.14333127 * rh - lit 0.22475541 * t * rh
      - lit 0.00683783 * t * t - lit 0.05481717 * rh * rh + lit 0.00122874 * t * t * rh
      + lit 0.00085282 * t * rh * rh - lit 0.00000199 * t * t * rh * rh : ℝ) = rothfusz t rh := by
  simp only [lit_real, rothfusz]
  norm_num

lemma dryBand_real {t rh : ℝ} :
    (FloatArith.lt rh (lit 13) && inRange 80 112 t) = true ↔ rh < 13 ∧ 80 ≤ t ∧ t ≤ 112 := by
  rw [Bool.and_eq_true, lt_real, inRange_real, lit_real]
  norm_num

lemma humidBand_real {t rh : ℝ} :
    (FloatArith.lt (lit 85) rh && inRange 80 87 t) = true ↔ 85 < rh ∧ 80 ≤ t ∧ t ≤ 87 := by
  rw [Bool.and_eq_true, lt_real, inRange_real, lit_real]
  norm_num

/-- The adjustments as the program computes them. -/
noncomputable def codeDryAdjustment (t rh : ℝ) : ℝ := (13 - rh) / 4 * √(17 - |t - 95| / 17)

noncomputable def codeHumidAdjustment (t rh : ℝ) : ℝ := (rh - 85) * (87 - t) / 5

lemma codeDryAdjustment_real (t rh : ℝ) :
    ((lit 13 - rh) / lit 4 * FloatArith.sqrt (lit 17 - FloatArith.abs (t - lit 95) / lit 17) : ℝ) =
      codeDryAdjustment t rh := by
  show ((13 : ℚ) - rh) / ((4 : ℚ) : ℝ) * √((17 : ℚ) - |t - ((95 : ℚ) : ℝ)| / ((17 : ℚ) : ℝ)) = _
  norm_num [codeDryAdjustment]

lemma codeHumidAdjustment_real (t rh : ℝ) :
    ((rh - lit 85) * (lit 87 - t) / lit 5 : ℝ) = codeHumidAdjustment t rh := by
  show (rh - ((85 : ℚ) : ℝ)) * (((87 : ℚ) : ℝ) - t) / ((5 : ℚ) : ℝ) = _
  norm_num [codeHumidAdjustment]

section Cases

variable {tempC rh : ℝ}

lemma calcHeatIndexC_of_dry (h : rh < 13 ∧ 80 ≤ tempCToF tempC ∧ tempCToF tempC ≤ 112) :
    calcHeatIndexC tempC rh = tempFToC
      (rothfusz (tempCToF tempC) rh - codeDryAdjustment (tempCToF tempC) rh) := by
  unfold calcHeatIndexC
  dsimp only
  rw [if_pos (dryBand_real.mpr h), ← rothfusz_real, ← codeDryAdjustment_real]

lemma calcHeatIndexC_of_humid (h : 85 < rh ∧ 80 ≤ tempCToF tempC ∧ tempCToF tempC ≤ 87) :
    calcHeatIndexC tempC rh = tempFToC
      (rothfusz (tempCToF tempC) rh + codeHumidAdjustment (tempCToF tempC) rh) := by
  have hdry : ¬ (rh < 13 ∧ 80 ≤ tempCToF tempC ∧ tempCToF tempC ≤ 112) := fun hdry => by
    linarith [h.1, hdry.1]
  unfold calcHeatIndexC
  dsimp only
  rw [if_neg (mt dryBand_real.mp hdry), if_pos (humidBand_real.mpr h), ← rothfusz_real,
    ← codeHumidAdjustment_real]

lemma calcHeatIndexC_of_between (hT : 80 ≤ tempCToF tempC)
    (hdry : ¬ (rh < 13 ∧ tempCToF tempC ≤ 112)) (hhumid : ¬ (85 < rh ∧ tempCToF tempC ≤ 87)) :
    calcHeatIndexC tempC rh = tempFToC (rothfusz (tempCToF tempC) rh) := by
  have hdry' := mt dryBand_real.mp fun h => hdry ⟨h.1, h.2.2⟩
  have hhumid' := mt humidBand_real.mp fun h => hhumid ⟨h.1, h.2.2⟩
  have hcold : ¬ FloatArith.lt (tempCToF tempC) (lit 80) = true := by
    rw [lt_real, lit_real]
    norm_num
    exact hT
  unfold calcHeatIndexC
  dsimp only
  rw [if_neg hdry', if_neg hhumid', if_neg hcold, ← rothfusz_real]

/-! ### Comparison -/

/-- The root is taken of another number throughout. -/
lemma codeDryAdjustment_ne {t : ℝ} (hrh : rh < 13) (h : 80 ≤ t) (h' : t ≤ 112) :
    codeDryAdjustment t rh ≠ dryAdjustment t rh := by
  have habs : |t - 95| ≤ 17 := abs_le.mpr ⟨by linarith, by linarith⟩
  have hfactor : (13 - rh) / 4 ≠ 0 := by
    have hpos : 0 < 13 - rh := by linarith
    positivity
  intro heq
  have hroot := mul_left_cancel₀ hfactor heq
  rw [Real.sqrt_inj (by linarith) (dryRadicand_nonneg h h'), dryRadicand, sub_div] at hroot
  norm_num at hroot

/-- A factor of ten is missing, so that the two agree only where they are zero. -/
lemma codeHumidAdjustment_eq_iff {t : ℝ} (hrh : 85 < rh) :
    codeHumidAdjustment t rh = humidAdjustment t rh ↔ t = 87 := by
  have hfactor : rh - 85 ≠ 0 := by
    have hpos : 0 < rh - 85 := by linarith
    positivity
  have hdiff : codeHumidAdjustment t rh - humidAdjustment t rh =
      9 / 50 * ((rh - 85) * (87 - t)) := by
    rw [codeHumidAdjustment, humidAdjustment]
    ring
  rw [← sub_eq_zero, hdiff]
  simp only [mul_eq_zero, hfactor, false_or]
  norm_num
  constructor
  · intro h
    linarith
  · intro h
    linarith

/-- From 80 °F on the heat index is that of the algorithm if and only if the air is neither so dry
that the first adjustment applies nor so humid that the second one is not zero. -/
theorem calcHeatIndexC_eq_iff (hT : 80 ≤ tempCToF tempC) :
    (calcHeatIndexC tempC rh = tempFToC (nwsHeatIndexF (tempCToF tempC) rh) ∧
      (rh < 13 → tempCToF tempC ≤ 112 → 0 ≤ dryRadicand (tempCToF tempC) ∧
        (tempCToF tempC = 112 → dryAdjustment (tempCToF tempC) rh = 0))) ↔
      ¬ (rh < 13 ∧ tempCToF tempC ≤ 112) ∧ ¬ (85 < rh ∧ tempCToF tempC < 87) := by
  have hdefined : rh < 13 → tempCToF tempC ≤ 112 → 0 ≤ dryRadicand (tempCToF tempC) ∧
      (tempCToF tempC = 112 → dryAdjustment (tempCToF tempC) rh = 0) :=
    fun _ hT' => ⟨dryRadicand_nonneg hT hT', fun hend => hend ▸ dryAdjustment_at_end rh⟩
  rw [and_iff_left hdefined]
  by_cases hdry : rh < 13 ∧ tempCToF tempC ≤ 112
  · have hband : rh < 13 ∧ 80 ≤ tempCToF tempC ∧ tempCToF tempC ≤ 112 := ⟨hdry.1, hT, hdry.2⟩
    rw [calcHeatIndexC_of_dry hband, nwsHeatIndexF, if_pos hband, tempFToC_inj, sub_right_inj]
    exact iff_of_false (codeDryAdjustment_ne hdry.1 hT hdry.2) fun h => h.1 hdry
  · have hnot : ¬ (rh < 13 ∧ 80 ≤ tempCToF tempC ∧ tempCToF tempC ≤ 112) :=
      fun h => hdry ⟨h.1, h.2.2⟩
    rw [nwsHeatIndexF, if_neg hnot]
    by_cases hhumid : 85 < rh ∧ tempCToF tempC ≤ 87
    · have hband : 85 < rh ∧ 80 ≤ tempCToF tempC ∧ tempCToF tempC ≤ 87 :=
        ⟨hhumid.1, hT, hhumid.2⟩
      rw [calcHeatIndexC_of_humid hband, if_pos hband, tempFToC_inj, add_right_inj,
        codeHumidAdjustment_eq_iff hhumid.1]
      constructor
      · intro hend
        exact ⟨hdry, fun h => (hend ▸ h.2).false⟩
      · intro h
        exact hhumid.2.antisymm (not_lt.mp fun hlt => h.2 ⟨hhumid.1, hlt⟩)
    · rw [calcHeatIndexC_of_between hT hdry hhumid,
        if_neg fun h => hhumid ⟨h.1, h.2.2⟩]
      exact iff_of_true rfl ⟨hdry, fun h => hhumid ⟨h.1, h.2.le⟩⟩

end Cases

/-- At 35 °C and half the possible humidity neither adjustment applies. -/
theorem calcHeatIndexC_eq_of_middle :
    calcHeatIndexC (35 : ℝ) 50 = tempFToC (nwsHeatIndexF 95 50) := by
  have ht : tempCToF (35 : ℝ) = 95 := by
    rw [tempCToF_real]
    norm_num
  have hiff := @calcHeatIndexC_eq_iff 35 50 (by rw [ht]; norm_num)
  rw [ht] at hiff
  exact (hiff.mpr ⟨by norm_num, by norm_num⟩).1

/-- At 35 °C and 9 % the program takes √17 off the regression where the algorithm takes 1, and at
30 °C and 95 % it adds 2 where the algorithm adds 0.2. -/
theorem calcHeatIndexC_ne_of_dryOrHumid :
    80 ≤ tempCToF (35 : ℝ) ∧
      calcHeatIndexC (35 : ℝ) 9 = tempFToC (rothfusz 95 9 - √17) ∧
      nwsHeatIndexF 95 9 = rothfusz 95 9 - 1 ∧
      calcHeatIndexC (35 : ℝ) 9 ≠ tempFToC (nwsHeatIndexF (tempCToF 35) 9) ∧
      80 ≤ tempCToF (30 : ℝ) ∧
      calcHeatIndexC (30 : ℝ) 95 = tempFToC (rothfusz 86 95 + 2) ∧
      nwsHeatIndexF 86 95 = rothfusz 86 95 + 0.2 ∧
      calcHeatIndexC (30 : ℝ) 95 ≠ tempFToC (nwsHeatIndexF (tempCToF 30) 95) := by
  have hwarm : tempCToF (35 : ℝ) = 95 := by
    rw [tempCToF_real]
    norm_num
  have hmild : tempCToF (30 : ℝ) = 86 := by
    rw [tempCToF_real]
    norm_num
  have hdry : calcHeatIndexC (35 : ℝ) 9 = tempFToC (rothfusz 95 9 - √17) := by
    rw [calcHeatIndexC_of_dry (by rw [hwarm]; norm_num), hwarm, codeDryAdjustment]
    norm_num
  have hdryNws : nwsHeatIndexF 95 9 = rothfusz 95 9 - 1 := by
    rw [nwsHeatIndexF, if_pos (by norm_num), dryAdjustment, dryRadicand]
    norm_num
  have hhumid : calcHeatIndexC (30 : ℝ) 95 = tempFToC (rothfusz 86 95 + 2) := by
    rw [calcHeatIndexC_of_humid (by rw [hmild]; norm_num), hmild, codeHumidAdjustment]
    norm_num
  have hhumidNws : nwsHeatIndexF 86 95 = rothfusz 86 95 + 0.2 := by
    rw [nwsHeatIndexF, if_neg (by norm_num), if_pos (by norm_num), humidAdjustment]
    norm_num
  refine ⟨by rw [hwarm]; norm_num, hdry, hdryNws, ?_, by rw [hmild]; norm_num, hhumid, hhumidNws,
    ?_⟩
  · rw [hdry, hwarm, hdryNws, Ne, tempFToC_inj, sub_right_inj, Real.sqrt_eq_one]
    norm_num
  · rw [hhumid, hmild, hhumidNws, Ne, tempFToC_inj, add_right_inj]
    norm_num

end SmarthomeIngest
