import Mathlib.Analysis.Complex.ExponentialBounds
import Mathlib.Order.Monotone.Defs
import Mathlib.Tactic.FieldSimp
import Mathlib.Tactic.Linarith
import Mathlib.Tactic.Ring
import SmarthomeIngest.Message.RealArith

/-!
# The dew point

The formula of Magnus: with `c = 237.7 * 17.27 / (237.7 + temp_c)` the temperature is
`237.7 * 17.27 / c - 237.7`, and the dew point is the same with `c - ln (rel_hum_perc / 100)` in
place of `c`. Above -237.7 °C, where `c` is positive, the dew point is never above the temperature
and grows with the humidity. Humidity, gas and pressure are checked before the formula is applied,
and the temperature is not.
-/

namespace SmarthomeIngest

open Transform

/-! ### The formula -/

/-- What is known of `ln`: up to 1 it is not positive, and zero at 1 only. -/
structure IsLogarithm (ln : ℝ → ℝ) : Prop where
  nonpos : ∀ x ∈ Set.Ioc 0 1, ln x ≤ 0
  eq_zero_iff : ∀ x ∈ Set.Ioc 0 1, ln x = 0 ↔ x = 1

noncomputable def exactDewPointC (ln : ℝ → ℝ) (tempC relHumPerc : ℝ) : ℝ :=
  @calcDewPointC ℝ (exactArith ln Real.sqrt) tempC relHumPerc

/-- `alpha` in `calc_dew_point_c`, for a logarithm of the humidity. -/
noncomputable def dewPointAlpha (lnHum tempC : ℝ) : ℝ :=
  lnHum + 17.27 * tempC / (237.7 + tempC)

lemma exactDewPointC_eq (ln : ℝ → ℝ) (tempC relHumPerc : ℝ) :
    exactDewPointC ln tempC relHumPerc =
      237.7 * dewPointAlpha (ln (relHumPerc / 100)) tempC /
        (17.27 - dewPointAlpha (ln (relHumPerc / 100)) tempC) := by
  show (((237.7 : ℚ) : ℝ) * (ln (relHumPerc / ((100 : ℚ) : ℝ)) +
    ((17.27 : ℚ) : ℝ) * tempC / (((237.7 : ℚ) : ℝ) + tempC))) /
      (((17.27 : ℚ) : ℝ) - (ln (relHumPerc / ((100 : ℚ) : ℝ)) +
        ((17.27 : ℚ) : ℝ) * tempC / (((237.7 : ℚ) : ℝ) + tempC))) = _
  norm_num [dewPointAlpha]

/-- The readings that pass the range checks. -/
def Transform.Readings.Accepted (r : Readings ℝ) : Prop :=
  ∃ display data, @readReadings ℝ (exactF64 Real.log Real.sqrt display) data = .ok r

lemma accepted_iff {r : Readings ℝ} :
    r.Accepted ↔
      r.relHumPerc ∈ Set.Ioc 0 100 ∧ 0 < r.gasOhm ∧ r.pressureHpa ∈ Set.Icc 300 1200 := by
  constructor
  · rintro ⟨display, h⟩
    exact exists_readReadings_iff.mp h
  · exact fun h => ⟨fun _ => "", exists_readReadings_iff.mpr h⟩

/-- The dew point of a reading is defined, not above the temperature, equal to it in saturated air
only, and increasing in the humidity wherever the logarithm is. -/
structure DewPointSound (ln : ℝ → ℝ) (r : Readings ℝ) : Prop where
  temp_ne : 237.7 + r.tempC ≠ 0
  alpha_ne : 17.27 - dewPointAlpha (ln (r.relHumPerc / 100)) r.tempC ≠ 0
  le : exactDewPointC ln r.tempC r.relHumPerc ≤ r.tempC
  eq_iff : exactDewPointC ln r.tempC r.relHumPerc = r.tempC ↔ r.relHumPerc = 100
  increasing : ∀ s ⊆ Set.Ioc 0 100, StrictMonoOn (fun rh => ln (rh / 100)) s →
    StrictMonoOn (exactDewPointC ln r.tempC) s

/-! ### The formula of Magnus -/

/-- The temperature at which the logarithm of the saturation pressure is `c` below its limit. -/
noncomputable def magnus (c : ℝ) : ℝ := 237.7 * 17.27 / c - 237.7

/-- The inverse. -/
noncomputable def magnusTerm (tempC : ℝ) : ℝ := 237.7 * 17.27 / (237.7 + tempC)

lemma magnus_magnusTerm (tempC : ℝ) : magnus (magnusTerm tempC) = tempC := by
  rw [magnus, magnusTerm, div_div_cancel₀ (by norm_num)]
  ring

lemma magnusTerm_pos {tempC : ℝ} (h : -237.7 < tempC) : 0 < magnusTerm tempC :=
  div_pos (by norm_num) (by linarith)

lemma magnusTerm_neg {tempC : ℝ} (h : tempC < -237.7) : magnusTerm tempC < 0 :=
  div_neg_of_pos_of_neg (by norm_num) (by linarith)

lemma magnus_strictAntiOn : StrictAntiOn magnus (Set.Ioi 0) := by
  intro c hc d _ hlt
  rw [magnus, magnus]
  gcongr

/-- The two branches lie on either side of the pole. -/
lemma magnus_lt_of_neg_of_pos {c d : ℝ} (hc : c < 0) (hd : 0 < d) : magnus c < magnus d := by
  have hneg : 237.7 * 17.27 / c < 0 := div_neg_of_pos_of_neg (by norm_num) hc
  have hpos : 0 < 237.7 * 17.27 / d := div_pos (by norm_num) hd
  rw [magnus, magnus]
  linarith

section Formula

variable {ln : ℝ → ℝ} {tempC rh : ℝ}

lemma sub_dewPointAlpha (h : 237.7 + tempC ≠ 0) (lnHum : ℝ) :
    17.27 - dewPointAlpha lnHum tempC = magnusTerm tempC - lnHum := by
  rw [dewPointAlpha, magnusTerm]
  field_simp
  ring

lemma exactDewPointC_eq_magnus (h : 237.7 + tempC ≠ 0)
    (hne : magnusTerm tempC - ln (rh / 100) ≠ 0) :
    exactDewPointC ln tempC rh = magnus (magnusTerm tempC - ln (rh / 100)) := by
  have halpha : dewPointAlpha (ln (rh / 100)) tempC =
      17.27 - (magnusTerm tempC - ln (rh / 100)) := by
    rw [← sub_dewPointAlpha h]
    ring
  rw [exactDewPointC_eq, sub_dewPointAlpha h, halpha, magnus]
  field_simp

end Formula

/-! ### Above the pole -/

lemma div_hundred_mem {rh : ℝ} (h : rh ∈ Set.Ioc 0 100) : rh / 100 ∈ Set.Ioc 0 1 :=
  ⟨div_pos h.1 (by norm_num), (div_le_one (by norm_num)).mpr h.2⟩

section Above

variable {ln : ℝ → ℝ} (hln : IsLogarithm ln) {tempC rh : ℝ} (hT : -237.7 < tempC)
include hln hT

/-- The second denominator is positive. -/
lemma magnusTerm_sub_pos (hrh : rh ∈ Set.Ioc 0 100) : 0 < magnusTerm tempC - ln (rh / 100) := by
  have hpos := magnusTerm_pos hT
  have hnonpos := hln.nonpos (rh / 100) (div_hundred_mem hrh)
  linarith

lemma exactDewPointC_of_lt (hrh : rh ∈ Set.Ioc 0 100) :
    exactDewPointC ln tempC rh = magnus (magnusTerm tempC - ln (rh / 100)) :=
  exactDewPointC_eq_magnus (by linarith) (magnusTerm_sub_pos hln hT hrh).ne'

lemma exactDewPointC_le (hrh : rh ∈ Set.Ioc 0 100) : exactDewPointC ln tempC rh ≤ tempC := by
  have hnonpos := hln.nonpos (rh / 100) (div_hundred_mem hrh)
  calc exactDewPointC ln tempC rh
      = magnus (magnusTerm tempC - ln (rh / 100)) := exactDewPointC_of_lt hln hT hrh
    _ ≤ magnus (magnusTerm tempC) :=
        magnus_strictAntiOn.antitoneOn (magnusTerm_pos hT) (magnusTerm_sub_pos hln hT hrh)
          (by linarith)
    _ = tempC := magnus_magnusTerm tempC

lemma exactDewPointC_eq_iff (hrh : rh ∈ Set.Ioc 0 100) :
    exactDewPointC ln tempC rh = tempC ↔ rh = 100 := by
  have hone : rh / 100 = 1 ↔ rh = 100 := div_eq_one_iff_eq (by norm_num)
  have hinj := magnus_strictAntiOn.injOn.eq_iff (magnusTerm_sub_pos hln hT hrh) (magnusTerm_pos hT)
  rw [magnus_magnusTerm, sub_eq_self] at hinj
  rw [exactDewPointC_of_lt hln hT hrh, hinj, hln.eq_zero_iff _ (div_hundred_mem hrh), hone]

lemma strictMonoOn_exactDewPointC {s : Set ℝ} (hs : s ⊆ Set.Ioc 0 100)
    (hmono : StrictMonoOn (fun rh => ln (rh / 100)) s) :
    StrictMonoOn (exactDewPointC ln tempC) s := by
  intro lo hlo hi hhi hlt
  rw [exactDewPointC_of_lt hln hT (hs hlo), exactDewPointC_of_lt hln hT (hs hhi)]
  have hln' := hmono hlo hhi hlt
  exact magnus_strictAntiOn (magnusTerm_sub_pos hln hT (hs hhi))
    (magnusTerm_sub_pos hln hT (hs hlo)) (sub_lt_sub_left hln' _)

end Above

lemma dewPointSound_of_lt {ln : ℝ → ℝ} (hln : IsLogarithm ln) {r : Readings ℝ}
    (hT : -237.7 < r.tempC) (hrh : r.relHumPerc ∈ Set.Ioc 0 100) : DewPointSound ln r where
  temp_ne := by linarith
  alpha_ne := by
    rw [sub_dewPointAlpha (by linarith)]
    exact (magnusTerm_sub_pos hln hT hrh).ne'
  le := exactDewPointC_le hln hT hrh
  eq_iff := exactDewPointC_eq_iff hln hT hrh
  increasing _ := strictMonoOn_exactDewPointC hln hT

/-! ### The natural logarithm -/

lemma isLogarithm_log : IsLogarithm Real.log where
  nonpos _ hx := Real.log_nonpos hx.1.le hx.2
  eq_zero_iff x hx := by
    rw [Real.log_eq_zero]
    constructor
    · rintro (h | h | h)
      · exact absurd h hx.1.ne'
      · exact h
      · linarith [hx.1]
    · exact fun h => .inr (.inl h)

lemma strictMonoOn_log : StrictMonoOn (fun rh => Real.log (rh / 100)) (Set.Ioc 0 100) := by
  intro lo hlo hi _ hlt
  exact Real.log_lt_log (div_pos hlo.1 (by norm_num)) (by gcongr)

/-- The humidity at which the logarithm is twice the term lies below saturation and gives the
higher dew point. -/
lemma not_strictMonoOn_of_lt {tempC : ℝ} (hT : tempC < -237.7) :
    ¬ StrictMonoOn (exactDewPointC Real.log tempC) (Set.Ioc 0 100) := by
  intro hmono
  have hneg := magnusTerm_neg hT
  have htemp : 237.7 + tempC ≠ 0 := by linarith
  have hone : 100 * Real.exp (2 * magnusTerm tempC) < 100 := by
    have hexp : Real.exp (2 * magnusTerm tempC) < 1 := Real.exp_lt_one_iff.mpr (by linarith)
    linarith
  have hmem : 100 * Real.exp (2 * magnusTerm tempC) ∈ Set.Ioc 0 100 := ⟨by positivity, hone.le⟩
  have hlow : Real.log (100 * Real.exp (2 * magnusTerm tempC) / 100) = 2 * magnusTerm tempC := by
    rw [mul_div_cancel_left₀ _ (by norm_num), Real.log_exp]
  have hhigh : Real.log (100 / 100) = 0 := by norm_num
  have hlt := hmono hmem ⟨by norm_num, le_rfl⟩ hone
  rw [exactDewPointC_eq_magnus htemp (by rw [hlow]; linarith),
    exactDewPointC_eq_magnus htemp (by rw [hhigh]; linarith), hlow, hhigh, sub_zero] at hlt
  exact hlt.not_gt (magnus_lt_of_neg_of_pos hneg (by linarith))

lemma lt_of_dewPointSound {r : Readings ℝ} (h : DewPointSound Real.log r) : -237.7 < r.tempC := by
  by_contra hle
  rcases (not_lt.mp hle).lt_or_eq with hlt | heq
  · exact not_strictMonoOn_of_lt hlt (h.increasing _ Set.Subset.rfl strictMonoOn_log)
  · exact h.temp_ne (by rw [heq]; norm_num)

/-- The dew point of an accepted reading is sound, for every logarithm and for the natural one, if
and only if the temperature is above -237.7 °C. -/
theorem dewPointSound_iff {r : Readings ℝ} (hr : r.Accepted) :
    ((∀ ln, IsLogarithm ln → DewPointSound ln r) ↔ -237.7 < r.tempC) ∧
      (DewPointSound Real.log r ↔ -237.7 < r.tempC) := by
  have hrh := (accepted_iff.mp hr).1
  refine ⟨⟨fun h => ?_, fun hT ln hln => ?_⟩, ⟨fun h => ?_, fun hT => ?_⟩⟩
  · exact lt_of_dewPointSound (h Real.log isLogarithm_log)
  · exact dewPointSound_of_lt hln hT hrh
  · exact lt_of_dewPointSound h
  · exact dewPointSound_of_lt isLogarithm_log hT hrh

/-- A reading at half the possible humidity. -/
def readingAt (tempC : ℝ) : Readings ℝ := ⟨tempC, 50.0, 1000.0, 50000.0, 0⟩

lemma accepted_readingAt (tempC : ℝ) : (readingAt tempC).Accepted :=
  accepted_iff.mpr (by norm_num [readingAt])

theorem dewPointSound_at_twenty : DewPointSound Real.log (readingAt 20) :=
  (dewPointSound_iff (accepted_readingAt 20)).2.mpr (by norm_num [readingAt])

/-- At -237.7 °C the formula divides by zero, and at -10000 °C it gives a dew point above the
temperature. -/
theorem not_dewPointSound_of_cold :
    (readingAt (-237.7)).Accepted ∧ 237.7 + (readingAt (-237.7)).tempC = 0 ∧
      ¬ DewPointSound Real.log (readingAt (-237.7)) ∧
      (readingAt (-10000)).Accepted ∧ -10000 < exactDewPointC Real.log (-10000) 50 ∧
      ¬ DewPointSound Real.log (readingAt (-10000)) ∧ IsLogarithm Real.log := by
  have hpole : 237.7 + (readingAt (-237.7)).tempC = 0 := by norm_num [readingAt]
  have habove : -10000 < exactDewPointC Real.log (-10000) 50 := by
    have hneg : magnusTerm (-10000) < 0 := magnusTerm_neg (by norm_num)
    have hpos : 0 < magnusTerm (-10000) - Real.log (50 / 100) := by
      have hhalf : Real.log (50 / 100) = -Real.log 2 := by
        rw [← Real.log_inv]
        norm_num
      have hterm : -0.43 < magnusTerm (-10000) := by norm_num [magnusTerm]
      rw [hhalf]
      linarith [Real.log_two_gt_d9]
    rw [exactDewPointC_eq_magnus (by norm_num) hpos.ne']
    exact (magnus_magnusTerm (-10000)).symm.trans_lt (magnus_lt_of_neg_of_pos hneg hpos)
  refine ⟨accepted_readingAt _, hpole, fun h => h.temp_ne hpole, accepted_readingAt _, habove,
    fun h => ?_, isLogarithm_log⟩
  have hhum : (readingAt (-10000)).relHumPerc = 50 := by norm_num [readingAt]
  have hle := h.le
  rw [hhum] at hle
  exact hle.not_gt habove

end SmarthomeIngest
