import SmarthomeIngest.Message.Router
import SmarthomeIngest.Message.Transform

/-!
# Transformed payloads

What is in a payload behind the transformation, key by key.
-/

namespace SmarthomeIngest

namespace Transform

variable {F : Type}

/-- Trimming a string, where it is one. -/
def trimValue : Value F → Value F
  | .string s => .string (Text.trim s)
  | v => v

lemma trimRootString_object (o : Object F) (key : String) :
    ∃ o', trimRootString (.object o) key = .object o' ∧
      ∀ k, Object.get o' k =
        if k = key then (Object.get o k).map trimValue else Object.get o k := by
  rcases trimRootString_cases (.object o) key with ⟨heq, hstring⟩ | ⟨o, s, ⟨⟩, hget, heq⟩
  · refine ⟨o, heq, fun k => ?_⟩
    split_ifs with hk
    · rw [hk]
      have hstring : ∀ s, Object.get o key ≠ some (.string s) := hstring
      cases hget : Object.get o key with
      | none => rfl
      | some v =>
        cases v with
        | string s => exact absurd hget (hstring s)
        | _ => rfl
    · rfl
  · refine ⟨_, heq, fun k => ?_⟩
    rw [Object.get_insert]
    split_ifs with hk
    · rw [hk, hget]
      rfl
    · rfl

lemma foldl_trimRootString (keys : List String) (hkeys : keys.Nodup) (o : Object F) :
    ∃ o', keys.foldl trimRootString (.object o) = .object o' ∧
      ∀ k, Object.get o' k =
        if k ∈ keys then (Object.get o k).map trimValue else Object.get o k := by
  induction keys generalizing o with
  | nil => exact ⟨o, rfl, fun _ => rfl⟩
  | cons key keys ih =>
    rw [List.nodup_cons] at hkeys
    obtain ⟨o₁, heq₁, hget₁⟩ := trimRootString_object o key
    obtain ⟨o₂, heq₂, hget₂⟩ := ih hkeys.2 o₁
    refine ⟨o₂, by rw [List.foldl_cons, heq₁, heq₂], fun k => ?_⟩
    rw [hget₂, hget₁]
    by_cases hk : k = key
    · rw [hk, if_neg hkeys.1, if_pos rfl, if_pos List.mem_cons_self]
    · simp [hk]

lemma ensure_object (o : Object F) (key : String) (default : Value F) :
    ∃ o', ensure (.object o) key default = .object o' ∧
      ∀ k, Object.get o' k =
        if k = key then (Object.get o k).or (some default) else Object.get o k := by
  have hvalue : (Value.object o).get key = Object.get o key := rfl
  rw [ensure, hvalue]
  cases hget : Object.get o key with
  | none =>
    refine ⟨Object.insert o key default, rfl, fun k => ?_⟩
    rw [Object.get_insert]
    split_ifs with hk
    · rw [hk, hget]
      rfl
    · rfl
  | some v =>
    refine ⟨o, rfl, fun k => ?_⟩
    split_ifs with hk
    · rw [hk, hget]
      rfl
    · rfl

/-- What the transformation of a status fills in. -/
def statusDefault (key : String) : Option (Value F) :=
  if key = "ssid" then some (.string "")
  else if key = "free_mem" ∨ key = "uptime" then some (.ofI64 0)
  else none

/-- A field of a transformed status. -/
def statusField (key : String) (v : Option (Value F)) : Option (Value F) :=
  (if key ∈ statusStrings then v.map trimValue else v).or (statusDefault key)

lemma transformStatusPayload_object (o : Object F) :
    ∃ o', transformStatusPayload (.object o) = .object o' ∧
      ∀ k, Object.get o' k = statusField k (Object.get o k) := by
  obtain ⟨o₁, h₁, hget₁⟩ := foldl_trimRootString statusStrings (by decide) o
  obtain ⟨o₂, h₂, hget₂⟩ := ensure_object o₁ "uptime" (.ofI64 0)
  obtain ⟨o₃, h₃, hget₃⟩ := ensure_object o₂ "free_mem" (.ofI64 0)
  obtain ⟨o₄, h₄, hget₄⟩ := ensure_object o₃ "ssid" (.string "")
  refine ⟨o₄, ?_, fun k => ?_⟩
  · unfold transformStatusPayload
    dsimp only
    rw [h₁, h₂, h₃, h₄]
  · rw [hget₄, hget₃, hget₂, hget₁, statusField, statusDefault]
    by_cases hssid : k = "ssid"
    · subst hssid
      simp
    · by_cases hmem : k = "free_mem"
      · subst hmem
        simp
      · by_cases hup : k = "uptime"
        · subst hup
          simp
        · simp [hssid, hmem, hup]

variable [F64 F]

/-- A transformed sensor payload: the strings are trimmed, and the data is that of the readings. -/
lemma of_transformSensorPayload {fs : Formulas F} {o : Object F} {w : Value F}
    (h : transformSensorPayload fs (.object o) = .ok w) :
    ∃ o' data r data', w = .object o' ∧ Object.get o "data" = some (.object data) ∧
      readReadings data = .ok r ∧ storeDerived fs r data = .ok data' ∧
      Object.get o' "data" = some (.object data') ∧
      ∀ k ≠ "data", Object.get o' k =
        if k ∈ sensorStrings then (Object.get o k).map trimValue else Object.get o k := by
  obtain ⟨o₁, h₁, hget₁⟩ := foldl_trimRootString sensorStrings (by decide) o
  unfold transformSensorPayload at h
  rw [h₁] at h
  dsimp only at h
  cases hdata : (Object.get o₁ "data").bind Value.asObject with
  | none =>
    rw [hdata] at h
    cases h
  | some data =>
    rw [hdata] at h
    obtain ⟨r, hr, h⟩ := exists_of_bind_eq_ok h
    obtain ⟨data', hstore, h⟩ := exists_of_bind_eq_ok h
    cases h
    refine ⟨Object.insert o₁ "data" (.object data'), data, r, data', rfl, ?_, hr, hstore,
      Object.get_insert_self _ _ _, fun k hk => ?_⟩
    · obtain ⟨d, hd, hobject⟩ := Option.bind_eq_some_iff.mp hdata
      rw [hget₁, if_neg (by decide)] at hd
      rw [hd]
      cases d with
      | object _ =>
        cases hobject
        rfl
      | _ => cases hobject
    · rw [Object.get_insert_ne hk, hget₁]

/-! ### The data of a sensor -/

lemma of_requiredF64FromObject {o : Object F} {key : String} {x : F}
    (h : requiredF64FromObject o key = .ok x) : ∃ n, Object.get o key = some (.number n) := by
  unfold requiredF64FromObject at h
  cases hget : (Object.get o key).bind Value.asF64 with
  | none =>
    rw [hget] at h
    cases h
  | some y =>
    obtain ⟨v, hv, hnumber⟩ := Option.bind_eq_some_iff.mp hget
    cases v with
    | number n => exact ⟨n, hv⟩
    | _ => cases hnumber

/-- The readings are taken from numbers. -/
lemma of_readReadings {data : Object F} {r : Readings F} (h : readReadings data = .ok r) :
    ∀ key ∈ ["temp_c", "rel_hum_perc", "pressure_hpa", "gas_ohm", "altitude_m"],
      ∃ n, Object.get data key = some (.number n) := by
  unfold readReadings at h
  obtain ⟨_, htemp, h⟩ := exists_of_bind_eq_ok h
  obtain ⟨_, hhum, h⟩ := exists_of_bind_eq_ok h
  obtain ⟨_, hpressure, h⟩ := exists_of_bind_eq_ok h
  obtain ⟨_, hgas, h⟩ := exists_of_bind_eq_ok h
  obtain ⟨_, haltitude, -⟩ := exists_of_bind_eq_ok h
  simp only [List.forall_mem_cons]
  exact ⟨of_requiredF64FromObject htemp, of_requiredF64FromObject hhum,
    of_requiredF64FromObject hpressure, of_requiredF64FromObject hgas,
    of_requiredF64FromObject haltitude, List.forall_mem_nil _⟩

/-- The readings are in their ranges. -/
lemma inRange_of_readReadings {data : Object F} {r : Readings F} (h : readReadings data = .ok r) :
    (FloatArith.lt (lit 0) r.relHumPerc && FloatArith.le r.relHumPerc (lit 100)) = true ∧
    FloatArith.le r.gasOhm (lit 0) = false ∧ inRange 300 1200 r.pressureHpa = true := by
  unfold readReadings at h
  obtain ⟨tempC, -, h⟩ := exists_of_bind_eq_ok h
  obtain ⟨relHumPerc, -, h⟩ := exists_of_bind_eq_ok h
  obtain ⟨pressureHpa, -, h⟩ := exists_of_bind_eq_ok h
  obtain ⟨gasOhm, -, h⟩ := exists_of_bind_eq_ok h
  obtain ⟨altitudeM, -, h⟩ := exists_of_bind_eq_ok h
  cases hhum : FloatArith.lt (lit 0) relHumPerc && FloatArith.le relHumPerc (lit 100) with
  | false =>
    rw [hhum] at h
    cases h
  | true =>
    rw [hhum] at h
    cases hgas : FloatArith.le gasOhm (lit 0) with
    | true =>
      rw [hgas] at h
      cases h
    | false =>
      rw [hgas] at h
      cases hpressure : inRange 300 1200 pressureHpa with
      | false =>
        rw [hpressure] at h
        cases h
      | true =>
        rw [hpressure] at h
        cases h
        exact ⟨hhum, hgas, hpressure⟩

/-- Data with these readings and nothing else. -/
def Readings.toData (r : Readings F) : Object F :=
  [("temp_c", .number (.float r.tempC)), ("rel_hum_perc", .number (.float r.relHumPerc)),
    ("pressure_hpa", .number (.float r.pressureHpa)), ("gas_ohm", .number (.float r.gasOhm)),
    ("altitude_m", .number (.float r.altitudeM))]

lemma readReadings_toData {r : Readings F}
    (hhum : (FloatArith.lt (lit 0) r.relHumPerc && FloatArith.le r.relHumPerc (lit 100)) = true)
    (hgas : FloatArith.le r.gasOhm (lit 0) = false)
    (hpressure : inRange 300 1200 r.pressureHpa = true) : readReadings r.toData = .ok r := by
  have htemp : requiredF64FromObject r.toData "temp_c" = .ok r.tempC := rfl
  have hhum' : requiredF64FromObject r.toData "rel_hum_perc" = .ok r.relHumPerc := rfl
  have hpressure' : requiredF64FromObject r.toData "pressure_hpa" = .ok r.pressureHpa := rfl
  have hgas' : requiredF64FromObject r.toData "gas_ohm" = .ok r.gasOhm := rfl
  have haltitude : requiredF64FromObject r.toData "altitude_m" = .ok r.altitudeM := rfl
  unfold readReadings
  rw [htemp, hhum', hpressure', hgas', haltitude]
  dsimp only [bind, Except.bind]
  rw [hhum, hgas, hpressure]
  rfl

lemma of_setF64InObject {o o' : Object F} {key : String} {x : F}
    (h : setF64InObject o key x = .ok o') : o' = Object.insert o key (.number (.float x)) := by
  unfold setF64InObject Number.fromF64 at h
  split_ifs at h
  cases h
  rfl

/-- The computed fields and two of the raw ones are overwritten, and the others are as they were. -/
lemma of_storeDerived {fs : Formulas F} {r : Readings F} {data data' : Object F}
    (h : storeDerived fs r data = .ok data') :
    (∀ field ∈ [("dew_point_c", fs.dewPointC r.tempC r.relHumPerc),
        ("heat_index_c", fs.heatIndexC r.tempC r.relHumPerc),
        ("iaq_score", fs.iaqScore r.gasOhm r.relHumPerc),
        ("pressure_hpa", r.pressureHpa), ("altitude_m", r.altitudeM)],
      Object.get data' field.1 = some (.number (.float field.2))) ∧
    Object.get data' "iaq_text" =
      some (.string (fs.iaqText (fs.iaqScore r.gasOhm r.relHumPerc))) ∧
    ∀ key ∈ ["temp_c", "rel_hum_perc", "gas_ohm"], Object.get data' key = Object.get data key := by
  unfold storeDerived at h
  obtain ⟨o₁, h₁, h⟩ := exists_of_bind_eq_ok h
  obtain ⟨o₂, h₂, h⟩ := exists_of_bind_eq_ok h
  obtain ⟨o₃, h₃, h⟩ := exists_of_bind_eq_ok h
  obtain ⟨o₄, h₄, h⟩ := exists_of_bind_eq_ok h
  obtain rfl := of_setF64InObject h₁
  obtain rfl := of_setF64InObject h₂
  obtain rfl := of_setF64InObject h₃
  obtain rfl := of_setF64InObject h₄
  obtain rfl := of_setF64InObject h
  simp [Object.get_insert]

end Transform

end SmarthomeIngest
