import Mathlib.Order.Interval.Set.Defs
import Mathlib.Order.Monotone.Defs
import Mathlib.Tactic.FieldSimp
import Mathlib.Tactic.Linarith
import Mathlib.Tactic.NormNum.OfScientific
import Mathlib.Tactic.Ring
import SmarthomeIngest.Message.RealArith
import SmarthomeIngest.Message.Schema

/-!
# The air quality score

The score is the sum of two parts, one for humidity and one for the gas reading, and the text is
that of the class whose interval holds the score.
-/

namespace SmarthomeIngest

open Transform

/-! ### The documented scale -/

inductive AirQuality where
  | hazardous
  | veryUnhealthy
  | unhealthy
  | unhealthyForSensitiveGroups
  | moderate
  | good
  deriving DecidableEq

namespace AirQuality

def text : AirQuality → String
  | hazardous => "Air quality is Hazardous"
  | veryUnhealthy => "Air quality is Very Unhealthy"
  | unhealthy => "Air quality is Unhealthy"
  | unhealthyForSensitiveGroups => "Air quality is Unhealthy for Sensitive Groups"
  | moderate => "Air quality is Moderate"
  | good => "Air quality is Good"

/-- The place of the class in the order from worst to best. -/
def rank : AirQuality → ℕ
  | hazardous => 0
  | veryUnhealthy => 1
  | unhealthy => 2
  | unhealthyForSensitiveGroups => 3
  | moderate => 4
  | good => 5

lemma text_inj {c c' : AirQuality} : c.text = c'.text ↔ c = c' := by
  constructor
  · intro h
    cases c <;> cases c' <;> first | rfl | (revert h; decide)
  · exact congrArg text

variable {K : Type} [Field K] [LinearOrder K]

/-- The scores of a class. -/
def interval : AirQuality → Set K
  | hazardous => Set.Icc 0 39.8
  | veryUnhealthy => Set.Ioc 39.8 59.8
  | unhealthy => Set.Ioc 59.8 64.8
  | unhealthyForSensitiveGroups => Set.Ioc 64.8 69.8
  | moderate => Set.Ioc 69.8 89.8
  | good => Set.Ioc 89.8 100

/-- The class of a score. -/
def ofScore (score : K) : AirQuality :=
  if score ≤ 39.8 then hazardous
  else if score ≤ 59.8 then veryUnhealthy
  else if score ≤ 64.8 then unhealthy
  else if score ≤ 69.8 then unhealthyForSensitiveGroups
  else if score ≤ 89.8 then moderate
  else good

lemma rank_inj {c c' : AirQuality} : c.rank = c'.rank ↔ c = c' := by
  constructor
  · intro h
    cases c <;> cases c' <;> first | rfl | cases h
  · exact congrArg rank

lemma mem_interval_ofScore {score : K} (h : score ∈ Set.Icc 0 100) :
    score ∈ (ofScore score).interval := by
  unfold ofScore
  split_ifs with h₁ h₂ h₃ h₄ h₅
  · exact ⟨h.1, h₁⟩
  · exact ⟨not_le.mp h₁, h₂⟩
  · exact ⟨not_le.mp h₂, h₃⟩
  · exact ⟨not_le.mp h₃, h₄⟩
  · exact ⟨not_le.mp h₄, h₅⟩
  · exact ⟨not_le.mp h₅, h.2⟩

variable [IsStrictOrderedRing K]

/-- The best score of a class lies below all scores of the better classes. -/
lemma lt_of_rank_lt {c c' : AirQuality} (hlt : c.rank < c'.rank) {score score' : K}
    (h : score ∈ c.interval) (h' : score' ∈ c'.interval) : score < score' := by
  cases c <;> cases c' <;> first
    | exact absurd hlt (by decide)
    | exact h.2.trans_lt (lt_of_le_of_lt (by norm_num) h'.1)

/-- A higher score never has a worse class. -/
lemma rank_le_of_le {c c' : AirQuality} {score score' : K} (hle : score ≤ score')
    (h : score ∈ c.interval) (h' : score' ∈ c'.interval) : c.rank ≤ c'.rank :=
  not_lt.mp fun hlt => hle.not_gt (lt_of_rank_lt hlt h' h)

lemma mem_interval_iff {score : K} (h : score ∈ Set.Icc 0 100) (c : AirQuality) :
    score ∈ c.interval ↔ ofScore score = c := by
  constructor
  · intro hmem
    have hmem' := mem_interval_ofScore h
    exact rank_inj.mp ((rank_le_of_le le_rfl hmem' hmem).antisymm (rank_le_of_le le_rfl hmem hmem'))
  · rintro rfl
    exact mem_interval_ofScore h

end AirQuality

section Score

variable {K : Type} [Field K] [LinearOrder K]

/-- `calc_iaq_score` and `calc_iaq_text` without rounding. -/
def exactIaqScore (ln sqrt : K → K) (gasOhm relHumPerc : K) : K :=
  @calcIaqScore K (exactArith ln sqrt) gasOhm relHumPerc

def exactIaqText (ln sqrt : K → K) (score : K) : String := @calcIaqText K (exactArith ln sqrt) score

/-! ### The two parts of the score -/

/-- At most 25. -/
def humidityScore (rh : K) : K :=
  if 38 ≤ rh ∧ rh ≤ 42 then 25
  else if rh < 38 then 25 / 40 * rh
  else 25 / 60 * (100 - rh)

/-- At most 75. -/
def gasScore (gasOhm : K) : K := (max 5000 (min 50000 gasOhm) - 5000) / 600

lemma humidityScore_of_mem {rh : K} (h : rh ∈ Set.Icc 38 42) : humidityScore rh = 25 := if_pos h

lemma humidityScore_of_lt {rh : K} (h : rh < 38) : humidityScore rh = 25 / 40 * rh := by
  rw [humidityScore, if_neg fun hmid => hmid.1.not_gt h, if_pos h]

variable [IsStrictOrderedRing K] {ln sqrt : K → K}

lemma humidityScore_of_gt {rh : K} (h : 42 < rh) : humidityScore rh = 25 / 60 * (100 - rh) := by
  rw [humidityScore, if_neg fun hmid => hmid.2.not_gt h, if_neg (by linarith)]

lemma clamp_exact {lo hi : ℚ} (h : lo ≤ hi) (x : K) :
    @clamp K (exactArith ln sqrt) (@lit K (exactArith ln sqrt) lo) (@lit K (exactArith ln sqrt) hi)
      x = max (lo : K) (min (hi : K) x) := by
  have hle : (lo : K) ≤ hi := Rat.cast_le.mpr h
  rw [lit_exact, lit_exact]
  unfold clamp
  by_cases hlo : x < lo
  · rw [if_pos (lt_exact.mpr hlo), min_eq_right (hlo.le.trans hle), max_eq_left hlo.le]
  · rw [if_neg (mt lt_exact.mp hlo)]
    by_cases hhi : hi < x
    · rw [if_pos (lt_exact.mpr hhi), min_eq_left hhi.le, max_eq_right hle]
    · rw [if_neg (mt lt_exact.mp hhi), min_eq_right (not_lt.mp hhi), max_eq_right (not_lt.mp hlo)]

lemma exactIaqScore_eq (gasOhm rh : K) :
    exactIaqScore ln sqrt gasOhm rh = humidityScore rh + gasScore gasOhm := by
  unfold exactIaqScore calcIaqScore
  dsimp only
  refine congrArg₂ (· + ·) ?_ ?_
  · have hplateau : @inRange K (exactArith ln sqrt) 38 42 rh = true ↔ 38 ≤ rh ∧ rh ≤ 42 := by
      rw [inRange_exact]
      norm_num
    have hdry : @FloatArith.lt K (exactArith ln sqrt) rh (@lit K (exactArith ln sqrt) 38) = true ↔
        rh < 38 := by
      rw [lt_exact, lit_exact]
      norm_num
    unfold humidityScore
    by_cases hmid : 38 ≤ rh ∧ rh ≤ 42
    · rw [if_pos (hplateau.mpr hmid), if_pos hmid]
      show ((0.25 : ℚ) : K) * ((100 : ℚ) : K) = 25
      norm_num
    · rw [if_neg (mt hplateau.mp hmid), if_neg hmid]
      by_cases hlow : rh < 38
      · rw [if_pos (hdry.mpr hlow), if_pos hlow]
        show ((0.25 : ℚ) : K) / ((40 : ℚ) : K) * rh * ((100 : ℚ) : K) = 25 / 40 * rh
        norm_num
        ring
      · rw [if_neg (mt hdry.mp hlow), if_neg hlow]
        show ((0.25 : ℚ) : K) / (((100 : ℚ) : K) - ((40 : ℚ) : K)) * (((100 : ℚ) : K) - rh) *
          ((100 : ℚ) : K) = 25 / 60 * (100 - rh)
        norm_num
        ring
  · rw [clamp_exact (by norm_num)]
    show (((0.75 : ℚ) : K) / (((50000 : ℚ) : K) - ((5000 : ℚ) : K)) *
      max ((5000 : ℚ) : K) (min ((50000 : ℚ) : K) gasOhm) - ((5000 : ℚ) : K) *
        (((0.75 : ℚ) : K) / (((50000 : ℚ) : K) - ((5000 : ℚ) : K)))) * ((100 : ℚ) : K) = _
    rw [gasScore]
    norm_num
    ring

/-- The ladder of the program, on an index that falls with the score. -/
lemma exactIaqText_eq (score : K) :
    exactIaqText ln sqrt score = (AirQuality.ofScore score).text := by
  have hstep {q : ℚ} {bound : K} (h : (q : K) = (100 - bound) * 5) :
      (q : K) ≤ (((100 : ℚ) : K) - score) * ((5 : ℚ) : K) ↔ score ≤ bound := by
    rw [h, Rat.cast_ofNat, Rat.cast_ofNat, mul_le_mul_iff_left₀ (by norm_num), sub_le_sub_iff_left]
  unfold exactIaqText calcIaqText AirQuality.ofScore
  simp only [le_exact, lit_exact]
  rw [if_congr (@hstep 301 39.8 (by norm_num)) rfl <|
    if_congr (@hstep 201 59.8 (by norm_num)) rfl <|
    if_congr (@hstep 176 64.8 (by norm_num)) rfl <|
    if_congr (@hstep 151 69.8 (by norm_num)) rfl <|
    if_congr (@hstep 51 89.8 (by norm_num)) rfl rfl]
  split_ifs <;> rfl

lemma gasScore_mono : Monotone (gasScore : K → K) := by
  intro gas gas' hle
  unfold gasScore
  gcongr

lemma gasScore_mem (gasOhm : K) : gasScore gasOhm ∈ Set.Icc 0 75 := by
  have hlo : 5000 ≤ max 5000 (min 50000 gasOhm) := le_max_left _ _
  have hhi : max 5000 (min 50000 gasOhm) ≤ 50000 := max_le (by norm_num) (min_le_left _ _)
  constructor
  · exact div_nonneg (by linarith) (by norm_num)
  · rw [gasScore, div_le_iff₀ (by norm_num)]
    linarith

lemma humidityScore_le (rh : K) : humidityScore rh ≤ 25 := by
  unfold humidityScore
  split_ifs with hmid hlow
  · exact le_rfl
  · linarith
  · have hhigh : 42 < rh := not_le.mp fun h => hmid ⟨not_lt.mp hlow, h⟩
    linarith

lemma humidityScore_nonneg {rh : K} (h : rh ∈ Set.Ioc 0 100) : 0 ≤ humidityScore rh := by
  obtain ⟨hpos, hle⟩ := h
  unfold humidityScore
  split_ifs with hmid hlow
  · norm_num
  · linarith
  · linarith

lemma humidityScore_monotoneOn : MonotoneOn (humidityScore : K → K) (Set.Iic 38) := by
  intro rh _ rh' hrh' hle
  rcases (show rh' ≤ 38 from hrh').lt_or_eq with hlt | rfl
  · rw [humidityScore_of_lt (hle.trans_lt hlt), humidityScore_of_lt hlt]
    linarith
  · rw [humidityScore_of_mem ⟨le_rfl, by norm_num⟩]
    exact humidityScore_le rh

lemma humidityScore_antitoneOn : AntitoneOn (humidityScore : K → K) (Set.Ici 42) := by
  intro rh hrh rh' _ hle
  rcases (show 42 ≤ rh from hrh).lt_or_eq with hlt | rfl
  · rw [humidityScore_of_gt hlt, humidityScore_of_gt (hlt.trans_le hle)]
    linarith
  · rw [humidityScore_of_mem ⟨by norm_num, le_rfl⟩]
    exact humidityScore_le rh'

end Score

/-! ### The business schema -/

/-- The payload with another score and another text. -/
def Value.withScore {F : Type} (payload score text : Value F) : Value F :=
  match payload with
  | .object o =>
    match Object.get o "data" with
    | some (.object data) => .object (Object.insert o "data"
        (.object (Object.insert (Object.insert data "iaq_score" score) "iaq_text" text)))
    | _ => .object o
  | payload => payload

section Schema

variable {F : Type} [F64 F] {a b c d : Object F}

open Check

/-- A message stays valid where its score and its text are replaced by valid ones. -/
lemma sensorBusinessSchema_of_sameBut (h : SameBut ["data"] a b)
    (ha : Object.get a "data" = some (.object c)) (hb : Object.get b "data" = some (.object d))
    (hdata : SameBut ["iaq_text", "iaq_score"] c d)
    (hscore : (Object.get d "iaq_score").all (allOf [number, minimum 0, maximum 100]) = true)
    (htext : (Object.get d "iaq_text").all (allOf [string, minLength 1]) = true)
    (hvalid : sensorBusinessSchema (.object a) = true) :
    sensorBusinessSchema (.object b) = true := by
  rw [sensorBusinessSchema, allOf, List.all_eq_true] at hvalid ⊢
  simp only [List.forall_mem_cons] at hvalid ⊢
  obtain ⟨hbase, -, hother, hproperties, hrequired, -⟩ := hvalid
  have hbase' : baseSchema (.object b) = true := by
    rw [← baseSchema_congr fun key hkey => h.get key (by simpa using hkey)]
    exact hbase
  refine ⟨hbase', rfl, h.noOther _ ▸ hother, ?_, h.required _ ▸ hrequired, List.forall_mem_nil _⟩
  refine h.properties ?_ hproperties
  rw [properties_object, List.all_eq_true] at hproperties
  simp only [List.forall_mem_cons] at hproperties ⊢
  obtain ⟨-, -, -, -, -, -, -, -, -, -, -, hvalid, -⟩ := hproperties
  simp only [List.mem_singleton, String.reduceEq, false_imp_iff, forall_const, true_and]
  refine ⟨?_, List.forall_mem_nil _⟩
  rw [ha, Option.all_some] at hvalid
  rw [hb, Option.all_some]
  refine hdata.allOf ?_ hvalid
  simp only [List.forall_mem_cons]
  simp only [List.mem_cons, List.not_mem_nil, or_false, String.reduceEq, false_imp_iff, true_and,
    forall_const, or_true]
  exact ⟨hscore, htext, trivial⟩

end Schema

/-! ### The scale -/

section Scale

variable {K : Type} [Field K] [LinearOrder K]

/-- A score and a text as documented, for the readings that are accepted. -/
structure IsAirQualityScale (score : K → K → K) (text : K → String) : Prop where
  mem_range : ∀ gasOhm > 0, ∀ rh ∈ Set.Ioc 0 100, score gasOhm rh ∈ Set.Icc 0 100
  mono_gas : ∀ rh ∈ Set.Ioc 0 100, MonotoneOn (fun gasOhm => score gasOhm rh) (Set.Ioi 0)
  mono_dry : ∀ gasOhm > 0, MonotoneOn (score gasOhm) (Set.Ioc 0 38)
  constant : ∀ gasOhm > 0, ∀ rh ∈ Set.Icc 38 42, ∀ rh' ∈ Set.Icc 38 42,
    score gasOhm rh = score gasOhm rh'
  maximal : ∀ gasOhm > 0, ∀ rh ∈ Set.Icc 38 42, ∀ rh' ∈ Set.Ioc 0 100,
    score gasOhm rh' ≤ score gasOhm rh
  anti_humid : ∀ gasOhm > 0, AntitoneOn (score gasOhm) (Set.Icc 42 100)
  exists_class : ∀ gasOhm > 0, ∀ rh ∈ Set.Ioc 0 100,
    ∃ c : AirQuality, text (score gasOhm rh) = c.text
  text_eq_iff : ∀ gasOhm > 0, ∀ rh ∈ Set.Ioc 0 100, ∀ c : AirQuality,
    text (score gasOhm rh) = c.text ↔ score gasOhm rh ∈ c.interval
  rank_mono : ∀ gasOhm > 0, ∀ rh ∈ Set.Ioc 0 100, ∀ gasOhm' > 0, ∀ rh' ∈ Set.Ioc 0 100,
    ∀ c c' : AirQuality, score gasOhm rh ≤ score gasOhm' rh' → text (score gasOhm rh) = c.text →
      text (score gasOhm' rh') = c'.text → c.rank ≤ c'.rank

/-- The business schema and the transformation of sensor payloads without rounding. -/
def exactBusinessSchema [FloorRing K] (ln sqrt : K → K) (display : K → String) : Check K :=
  @sensorBusinessSchema K (exactF64 ln sqrt display)

def exactTransform [FloorRing K] (ln sqrt : K → K) (display : K → String) (payload : Value K) :
    Except String (Value K) :=
  @transformSensorPayload K (exactF64 ln sqrt display) (@formulas K (exactArith ln sqrt)) payload

variable [IsStrictOrderedRing K] {ln sqrt : K → K}

lemma exactIaqScore_mem {gasOhm rh : K} (h : rh ∈ Set.Ioc 0 100) :
    exactIaqScore ln sqrt gasOhm rh ∈ Set.Icc 0 100 := by
  obtain ⟨hlo, hhi⟩ := gasScore_mem gasOhm
  rw [exactIaqScore_eq]
  constructor
  · exact add_nonneg (humidityScore_nonneg h) hlo
  · linarith [humidityScore_le rh]

lemma exactIaqText_eq_iff {score : K} (h : score ∈ Set.Icc 0 100) (c : AirQuality) :
    exactIaqText ln sqrt score = c.text ↔ score ∈ c.interval := by
  rw [exactIaqText_eq, AirQuality.text_inj, AirQuality.mem_interval_iff h]

lemma isAirQualityScale_exact :
    IsAirQualityScale (exactIaqScore ln sqrt) (exactIaqText ln sqrt) where
  mem_range _ _ _ hrh := exactIaqScore_mem hrh
  mono_gas rh _ gasOhm _ gasOhm' _ hle := by
    dsimp only
    rw [exactIaqScore_eq, exactIaqScore_eq]
    exact add_le_add_right (gasScore_mono hle) _
  mono_dry gasOhm _ rh hrh rh' hrh' hle := by
    rw [exactIaqScore_eq, exactIaqScore_eq]
    exact add_le_add_left (humidityScore_monotoneOn hrh.2 hrh'.2 hle) _
  constant gasOhm _ rh hrh rh' hrh' := by
    rw [exactIaqScore_eq, exactIaqScore_eq, humidityScore_of_mem hrh, humidityScore_of_mem hrh']
  maximal gasOhm _ rh hrh rh' _ := by
    rw [exactIaqScore_eq, exactIaqScore_eq, humidityScore_of_mem hrh]
    exact add_le_add_left (humidityScore_le rh') _
  anti_humid gasOhm _ rh hrh rh' hrh' hle := by
    rw [exactIaqScore_eq, exactIaqScore_eq]
    exact add_le_add_left (humidityScore_antitoneOn hrh.1 hrh'.1 hle) _
  exists_class _ _ _ _ := ⟨_, exactIaqText_eq _⟩
  text_eq_iff _ _ _ hrh c := exactIaqText_eq_iff (exactIaqScore_mem hrh) c
  rank_mono _ _ _ hrh _ _ _ hrh' c c' hle hc hc' :=
    AirQuality.rank_le_of_le hle ((exactIaqText_eq_iff (exactIaqScore_mem hrh) c).mp hc)
      ((exactIaqText_eq_iff (exactIaqScore_mem hrh') c').mp hc')

/-! ### No rejected score -/

omit [IsStrictOrderedRing K] in
lemma score_accepted [FloorRing K] {display : K → String} {score : K} (h : score ∈ Set.Icc 0 100) :
    Check.allOf [Check.number, @Check.minimum K (exactF64 ln sqrt display) 0,
      @Check.maximum K (exactF64 ln sqrt display) 100] (.number (.float score)) = true := by
  have hlo : (((0 : ℤ) : ℚ) : K) ≤ score := by simpa using h.1
  have hhi : score ≤ (((100 : ℤ) : ℚ) : K) := by simpa using h.2
  rw [Check.allOf, List.all_eq_true, List.forall_mem_cons, List.forall_mem_cons,
    List.forall_mem_singleton]
  exact ⟨rfl, le_exact.mpr hlo, le_exact.mpr hhi⟩

lemma text_accepted (score : K) :
    Check.allOf [Check.string, Check.minLength 1]
      (.string (exactIaqText ln sqrt score) : Value K) = true := by
  rw [exactIaqText_eq]
  cases AirQuality.ofScore score <;> rfl

/-- A transformed payload that the schema accepts with some score and some text is one that it
accepts with the computed ones. -/
lemma exactBusinessSchema_of_withScore [FloorRing K] {display : K → String} {payload out : Value K}
    (hout : exactTransform ln sqrt display payload = .ok out) {score text : Value K}
    (h : exactBusinessSchema ln sqrt display (out.withScore score text) = true) :
    exactBusinessSchema ln sqrt display out = true := by
  cases payload with
  | object o =>
    obtain ⟨o', data, r, data', rfl, -, hr, hstore, hdata', -⟩ :=
      @of_transformSensorPayload K (exactF64 ln sqrt display) _ o out hout
    have hrh := (exists_readReadings_iff.mp ⟨data, hr⟩).1
    obtain ⟨hnumbers, htext, -⟩ :=
      @of_storeDerived K (exactF64 ln sqrt display) _ r data data' hstore
    simp only [List.forall_mem_cons] at hnumbers
    have hscore := hnumbers.2.2.1
    have hmessage := (SameBut.refl o').insert (by rw [hdata']; rfl)
      (.object (Object.insert (Object.insert data' "iaq_score" score) "iaq_text" text))
    have hdata := ((SameBut.refl data').insert (by rw [hscore]; rfl) score).insert
      (by rw [htext]; rfl) text
    simp only [Value.withScore, hdata'] at h
    refine @sensorBusinessSchema_of_sameBut K (exactF64 ln sqrt display) _ _ _ _ hmessage
      (Object.get_insert_self _ _ _) hdata' hdata ?_ ?_ h
    · rw [hscore]
      exact score_accepted (exactIaqScore_mem hrh)
    · rw [htext]
      exact text_accepted _
  | _ => cases hout

/-- The score and the text are as documented, and no transformed payload is rejected for them. -/
theorem isAirQualityScale [FloorRing K] (ln sqrt : K → K) (display : K → String) :
    IsAirQualityScale (exactIaqScore ln sqrt) (exactIaqText ln sqrt) ∧
      ∀ payload out score text, exactTransform ln sqrt display payload = .ok out →
        exactBusinessSchema ln sqrt display (out.withScore score text) = true →
          exactBusinessSchema ln sqrt display out = true :=
  ⟨isAirQualityScale_exact, fun _ _ _ _ hout h => exactBusinessSchema_of_withScore hout h⟩

end Scale

/-- A payload with a temperature of 20 °C, half the possible humidity and 20 kΩ. -/
def roomPayload : Value ℚ :=
  .object [("device_id", .string "dev-1"), ("device_class", .string "bme680"),
    ("fw_version", .string "1.0"), ("time_ms", .number (.posInt 5)),
    ("time_iso", .string "2026-01-01T00:00:00Z"), ("time_valid", .bool true),
    ("room", .string "lab"),
    ("data", .object [("temp_c", .number (.posInt 20)), ("rel_hum_perc", .number (.posInt 50)),
      ("pressure_hpa", .number (.posInt 1013)), ("gas_ohm", .number (.posInt 20000)),
      ("altitude_m", .number (.posInt 8))])]

theorem isAirQualityScale_of_room :
    exactIaqText id id (exactIaqScore id id (20000 : ℚ) 50) = AirQuality.veryUnhealthy.text ∧
      ∃ out, exactTransform id id (fun _ => "") roomPayload = .ok out ∧
        exactBusinessSchema id id (fun _ => "") out = true := by
  have hscale := isAirQualityScale (K := ℚ) id id fun _ => ""
  refine ⟨(hscale.1.text_eq_iff 20000 (by norm_num) 50 (by norm_num) _).mpr ?_, ?_⟩
  · rw [exactIaqScore_eq]
    norm_num [humidityScore, gasScore, AirQuality.interval]
  · have haccepted : (exactTransform id id (fun _ => "") roomPayload).toOption.map (fun out =>
        exactBusinessSchema id id (fun _ => "")
          (out.withScore (.number (.posInt 1)) (.string "Hazardous"))) = some true := by
      decide +kernel
    cases hout : exactTransform id id (fun _ => "") roomPayload with
    | error e =>
      rw [hout] at haccepted
      cases haccepted
    | ok out =>
      rw [hout] at haccepted
      exact ⟨out, rfl, hscale.2 roomPayload out _ _ hout (Option.some.inj haccepted)⟩

end SmarthomeIngest
