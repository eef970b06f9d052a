import SmarthomeIngest.Message.Transformed
import SmarthomeIngest.Sink.Influx

/-!
# Derived fields of a payload are never read

Two sensor payloads that differ only in their derived fields have the same fate: the raw schema
does not look at the fields, the transformation overwrites them, and what is deserialized behind it
is the same.
-/

namespace SmarthomeIngest

variable {F : Type}

def derivedKeys : List String := ["dew_point_c", "heat_index_c", "iaq_score", "iaq_text"]

namespace Value

/-- An object without some of its entries. -/
def removeKeys (keys : List String) : Value F → Value F
  | .object o => .object (o.filter fun entry => !keys.contains entry.1)
  | v => v

/-- The payload without `data.dew_point_c`, `data.heat_index_c`, `data.iaq_score` and
`data.iaq_text`. -/
def removeDerived : Value F → Value F
  | .object o => .object (o.map fun entry =>
      (entry.1, if entry.1 = "data" then entry.2.removeKeys derivedKeys else entry.2))
  | v => v

lemma object_or_not (v : Value F) :
    (∃ o, v = .object o) ∨ (∀ o, v ≠ .object o) ∧ v.removeDerived = v ∧
      ∀ keys, v.removeKeys keys = v := by
  cases v with
  | object o => exact .inl ⟨o, rfl⟩
  | _ => exact .inr ⟨nofun, rfl, fun _ => rfl⟩

end Value

/-- Data that differ at most in derived fields. -/
def SameReadings (c d : Object F) : Prop :=
  ∀ key ∉ derivedKeys, Object.get c key = Object.get d key

/-- Payloads that differ at most in derived fields. -/
structure SameData (a b : Object F) : Prop where
  other : ∀ key ≠ "data", Object.get a key = Object.get b key
  data : Object.get a "data" = Object.get b "data" ∨
    ∃ c d, Object.get a "data" = some (.object c) ∧ Object.get b "data" = some (.object d) ∧
      SameReadings c d

lemma of_removeKeys {v w : Value F} (h : v.removeKeys derivedKeys = w.removeKeys derivedKeys) :
    v = w ∨ ∃ c d, v = .object c ∧ w = .object d ∧ SameReadings c d := by
  rcases v.object_or_not with ⟨c, rfl⟩ | ⟨hv, -, hv'⟩
  · rcases w.object_or_not with ⟨d, rfl⟩ | ⟨hw, -, hw'⟩
    · simp only [Value.removeKeys, Value.object.injEq] at h
      refine .inr ⟨c, d, rfl, rfl, ?_⟩
      intro key hkey
      have hget : ∀ o : Object F,
          Object.get (o.filter fun entry => !derivedKeys.contains entry.1) key = Object.get o key :=
        Object.get_filter (p := fun key => !derivedKeys.contains key) (by simpa using hkey)
      rw [← hget c, h, hget d]
    · rw [hw'] at h
      exact absurd h.symm (hw _)
  · rcases w.object_or_not with ⟨d, rfl⟩ | ⟨hw, -, hw'⟩
    · rw [hv'] at h
      exact absurd h (hv _)
    · rw [hv', hw'] at h
      exact .inl h

lemma get_removeDerived (o : Object F) (key : String) :
    Object.get (o.map fun entry =>
        (entry.1, if entry.1 = "data" then entry.2.removeKeys derivedKeys else entry.2)) key =
      (Object.get o key).map fun v => if key = "data" then v.removeKeys derivedKeys else v := by
  induction o with
  | nil => rfl
  | cons entry o ih =>
    obtain ⟨k, v⟩ := entry
    rw [List.map_cons, Object.get_cons, Object.get_cons, ih]
    by_cases hkey : key = k
    · rw [if_pos hkey, if_pos hkey, hkey]
      rfl
    · rw [if_neg hkey, if_neg hkey]

lemma sameData_of_map {a b : Object F}
    (h : ∀ key, ((Object.get a key).map fun v =>
        if key = "data" then v.removeKeys derivedKeys else v) =
      (Object.get b key).map fun v => if key = "data" then v.removeKeys derivedKeys else v) :
    SameData a b := by
  constructor
  · intro key hkey
    simpa [hkey] using h key
  · have hdata := h "data"
    simp only [if_true] at hdata
    cases ha : Object.get a "data" with
    | none =>
      cases hb : Object.get b "data" with
      | none => exact .inl rfl
      | some w => simp [ha, hb] at hdata
    | some v =>
      cases hb : Object.get b "data" with
      | none => simp [ha, hb] at hdata
      | some w =>
        simp only [ha, hb, Option.map_some, Option.some.injEq] at hdata
        rcases of_removeKeys hdata with rfl | ⟨c, d, rfl, rfl, hread⟩
        · exact .inl rfl
        · exact .inr ⟨c, d, rfl, rfl, hread⟩

/-- Payloads that are equal without their derived fields. -/
lemma of_removeDerived {v w : Value F} (h : v.removeDerived = w.removeDerived) :
    v = w ∨ ∃ a b, v = .object a ∧ w = .object b ∧ SameData a b := by
  rcases v.object_or_not with ⟨a, rfl⟩ | ⟨hv, hv', -⟩
  · rcases w.object_or_not with ⟨b, rfl⟩ | ⟨hw, hw', -⟩
    · simp only [Value.removeDerived, Value.object.injEq] at h
      refine .inr ⟨a, b, rfl, rfl, sameData_of_map fun key => ?_⟩
      rw [← get_removeDerived, h, get_removeDerived]
    · rw [hw'] at h
      exact absurd h.symm (hw _)
  · rcases w.object_or_not with ⟨b, rfl⟩ | ⟨hw, hw', -⟩
    · rw [hv'] at h
      exact absurd h (hv _)
    · rw [hv', hw'] at h
      exact .inl h

/-! ### The raw schema -/

/-- The schema of the readings. -/
lemma readings_congr {c d : Object F} (h : SameReadings c d) {checks : List (String × Check F)}
    {keys : List String} (hchecks : ∀ entry ∈ checks, entry.1 ∉ derivedKeys)
    (hkeys : ∀ key ∈ keys, key ∉ derivedKeys) :
    Check.allOf [Check.object, Check.properties checks, Check.required keys] (.object c) =
      Check.allOf [Check.object, Check.properties checks, Check.required keys] (.object d) := by
  refine allOf_congr rfl (allOf_congr ?_ ?_)
  · exact properties_congr fun entry hentry => by rw [h _ (hchecks entry hentry)]
  · refine allOf_congr ?_ rfl
    exact required_congr fun key hkey => by rw [h _ (hkeys key hkey)]

section Schema

variable [F64 F] {a b : Object F}

/-- The raw schema does not see derived fields. -/
lemma sensorSchema_congr (h : SameData a b) :
    sensorSchema (.object a) = sensorSchema (.object b) := by
  refine allOf_congr (baseSchema_congr h.other) (allOf_congr rfl (allOf_congr ?_ ?_))
  · apply properties_congr
    intro entry hentry
    by_cases hkey : entry.1 = "data"
    · rcases h.data with hdata | ⟨c, d, hc, hd, hread⟩
      · rw [hkey, hdata]
      · simp only [List.mem_cons, List.not_mem_nil, or_false] at hentry
        rcases hentry with rfl | rfl | rfl | rfl | rfl | rfl
        case inr.inr.inr.inr.inr =>
          rw [hc, hd]
          exact readings_congr hread (by simp [derivedKeys]) (by decide)
        all_goals simp at hkey
    · rw [h.other _ hkey]
  · refine allOf_congr ?_ rfl
    apply required_congr
    intro key hkey
    by_cases hdata : key = "data"
    · rw [hdata]
      rcases h.data with hdata | ⟨c, d, hc, hd, -⟩
      · rw [hdata]
      · rw [hc, hd]
        rfl
    · rw [h.other _ hdata]

end Schema

/-! ### The transformation -/

namespace Transform

/-- Trimming keeps payloads the same but for derived fields. -/
lemma sameData_of_trim {a b : Object F} (h : SameData a b) :
    ∃ a' b', sensorStrings.foldl trimRootString (.object a) = .object a' ∧
      sensorStrings.foldl trimRootString (.object b) = .object b' ∧ SameData a' b' := by
  obtain ⟨a', ha, hgetA⟩ := foldl_trimRootString sensorStrings (by decide) a
  obtain ⟨b', hb, hgetB⟩ := foldl_trimRootString sensorStrings (by decide) b
  have hdata : "data" ∉ sensorStrings := by decide
  refine ⟨a', b', ha, hb, fun key hkey => ?_, ?_⟩
  · rw [hgetA, hgetB, h.other key hkey]
  · rw [hgetA, hgetB, if_neg hdata, if_neg hdata]
    exact h.data

lemma asObject_data {a b : Object F} (h : SameData a b) :
    ((Object.get a "data").bind Value.asObject = none ∧
      (Object.get b "data").bind Value.asObject = none) ∨
    ∃ c d, (Object.get a "data").bind Value.asObject = some c ∧
      (Object.get b "data").bind Value.asObject = some d ∧ SameReadings c d := by
  rcases h.data with hdata | ⟨c, d, hc, hd, hread⟩
  · rw [hdata]
    cases (Object.get b "data").bind Value.asObject with
    | none => exact .inl ⟨rfl, rfl⟩
    | some d => exact .inr ⟨d, d, rfl, rfl, fun _ _ => rfl⟩
  · exact .inr ⟨c, d, by rw [hc]; rfl, by rw [hd]; rfl, hread⟩

section Sensor

variable [F64 F]

lemma readReadings_congr {c d : Object F} (h : SameReadings c d) :
    readReadings c = readReadings d := by
  have hread : ∀ key ∉ derivedKeys, requiredF64FromObject c key = requiredF64FromObject d key := by
    intro key hkey
    rw [requiredF64FromObject, requiredF64FromObject, h key hkey]
  unfold readReadings
  rw [hread "temp_c" (by decide), hread "rel_hum_perc" (by decide),
    hread "pressure_hpa" (by decide), hread "gas_ohm" (by decide), hread "altitude_m" (by decide)]

/-- The results of two fallible computations on objects: the same error, or objects with the same
entries. -/
inductive SameResult : Except String (Object F) → Except String (Object F) → Prop where
  | error (e : String) : SameResult (.error e) (.error e)
  | ok {c d : Object F} (h : ∀ key, Object.get c key = Object.get d key) :
      SameResult (.ok c) (.ok d)

/-- Behind the computed fields nothing is left of the ones in the payload. -/
lemma storeDerived_congr (fs : Formulas F) (r : Readings F) {c d : Object F}
    (h : SameReadings c d) : SameResult (storeDerived fs r c) (storeDerived fs r d) := by
  unfold storeDerived setF64InObject
  dsimp only
  cases Number.fromF64 (fs.dewPointC r.tempC r.relHumPerc) with
  | none => exact .error _
  | some dewPoint =>
    cases Number.fromF64 (fs.heatIndexC r.tempC r.relHumPerc) with
    | none => exact .error _
    | some heatIndex =>
      cases Number.fromF64 (fs.iaqScore r.gasOhm r.relHumPerc) with
      | none => exact .error _
      | some iaqScore =>
        cases Number.fromF64 r.pressureHpa with
        | none => exact .error _
        | some pressure =>
          cases Number.fromF64 r.altitudeM with
          | none => exact .error _
          | some altitude =>
            apply SameResult.ok
            intro key
            simp only [Object.get_insert]
            split_ifs with haltitude hpressure htext hscore hheat hdew
            case neg =>
              apply h key
              simp only [derivedKeys, List.mem_cons, List.not_mem_nil, or_false, not_or]
              exact ⟨hdew, hheat, hscore, htext⟩
            all_goals rfl

/-- What is deserialized depends on the entries alone. -/
lemma fromValue_congr {o o' : Object F}
    (hother : ∀ key ≠ "data", Object.get o key = Object.get o' key)
    {c d : Object F} (h : ∀ key, Object.get c key = Object.get d key) :
    SensorMessage.fromValue (.object (Object.insert o "data" (.object c))) =
      SensorMessage.fromValue (.object (Object.insert o' "data" (.object d))) := by
  have hfield : ∀ key ≠ "data", Object.get (Object.insert o "data" (.object c)) key =
      Object.get (Object.insert o' "data" (.object d)) key := by
    intro key hkey
    rw [Object.get_insert_ne hkey, Object.get_insert_ne hkey, hother key hkey]
  have hdata : FromValue.required SensorData.fromValue
        (Object.get (Object.insert o "data" (.object c)) "data") =
      FromValue.required SensorData.fromValue
        (Object.get (Object.insert o' "data" (.object d)) "data") := by
    rw [Object.get_insert_self, Object.get_insert_self]
    show SensorData.fromFields (Object.get c) = SensorData.fromFields (Object.get d)
    rw [funext h]
  show SensorMessage.fromFields (Object.get _) = SensorMessage.fromFields (Object.get _)
  unfold SensorMessage.fromFields
  rw [hfield "device_id" (by decide), hfield "room" (by decide), hfield "device_class" (by decide),
    hfield "fw_version" (by decide), hfield "time_ms" (by decide), hfield "time_iso" (by decide),
    hfield "time_valid" (by decide), hfield "boot_id" (by decide), hfield "seq" (by decide),
    hfield "warmed_up" (by decide), hfield "replayed" (by decide), hdata]

/-- The transformations of two payloads fail alike, or give payloads that deserialize alike. -/
lemma transformSensorPayload_congr (fs : Formulas F) {a b : Object F} (h : SameData a b) :
    (∃ e, transformSensorPayload fs (.object a) = .error e ∧
      transformSensorPayload fs (.object b) = .error e) ∨
    ∃ v w, transformSensorPayload fs (.object a) = .ok v ∧
      transformSensorPayload fs (.object b) = .ok w ∧
      SensorMessage.fromValue v = SensorMessage.fromValue w := by
  obtain ⟨a', b', ha, hb, hsame⟩ := sameData_of_trim h
  unfold transformSensorPayload
  rw [ha, hb]
  dsimp only
  rcases asObject_data hsame with ⟨hc, hd⟩ | ⟨c, d, hc, hd, hread⟩
  · rw [hc, hd]
    exact .inl ⟨_, rfl, rfl⟩
  · rw [hc, hd]
    dsimp only
    rw [readReadings_congr hread]
    cases readReadings d with
    | error e => exact .inl ⟨e, rfl, rfl⟩
    | ok r =>
      show (∃ e, (storeDerived fs r c >>= _) = .error e ∧ (storeDerived fs r d >>= _) = .error e) ∨
        ∃ v w, (storeDerived fs r c >>= _) = .ok v ∧ (storeDerived fs r d >>= _) = .ok w ∧ _
      have hstore := storeDerived_congr fs r hread
      generalize storeDerived fs r c = c' at hstore
      generalize storeDerived fs r d = d' at hstore
      cases hstore with
      | error e => exact .inl ⟨e, rfl, rfl⟩
      | ok hget => exact .inr ⟨_, _, rfl, rfl, fromValue_congr hsame.other hget⟩

end Sensor

end Transform

/-! ### The fate of a payload -/

variable [F64 F]

lemma validateRaw_congr {route : Route F} (hschema : route.schema = sensorSchema)
    (rfc3339 : String → Bool) {a b : Object F} (h : SameData a b) (topic : String)
    (enforce : Bool) :
    route.validateRaw rfc3339 topic (.object a) enforce =
      route.validateRaw rfc3339 topic (.object b) enforce := by
  have htime : Route.validateTimeIsoRfc3339 rfc3339 (.object a) =
      Route.validateTimeIsoRfc3339 rfc3339 (.object b) := by
    simp only [Route.validateTimeIsoRfc3339, Value.get, h.other "time_iso" (by decide)]
  have hdevice : route.enforceTopicPayloadDeviceMatch topic (.object a) =
      route.enforceTopicPayloadDeviceMatch topic (.object b) := by
    simp only [Route.enforceTopicPayloadDeviceMatch, Value.get, h.other "device_id" (by decide)]
  unfold Route.validateRaw
  rw [hschema, sensorSchema_congr h, htime, hdevice]

/-- What a sensor topic stores for a payload: the message and its line. -/
def Router.store (r : Router F) (fs : Formulas F) (topic : String) (payload : Value F) :
    Except String (Option (HandledMessage F × String)) := do
  let payload ← Transform.transformSensorPayload fs payload
  let msg ← r.deserialize topic payload
  return msg.map fun msg => (msg, msg.encode)

/-- Payloads of a sensor topic that are equal without their derived fields get the same verdict,
are transformed both or neither, and give the same message and the same line. -/
theorem store_of_removeDerived (rfc3339 : String → Bool) (fs : Formulas F)
    {topicRoutes : List (String × String)} {r : Router F} (hr : buildRouter topicRoutes = .ok r)
    {topic : String} (htopic : r.messageTypeForTopic topic = some .sensor) {v w : Value F}
    (h : v.removeDerived = w.removeDerived) (enforce : Bool) :
    sensorSchema v = sensorSchema w ∧
    r.validateRaw rfc3339 topic v enforce = r.validateRaw rfc3339 topic w enforce ∧
    (Transform.transformSensorPayload fs v).isOk = (Transform.transformSensorPayload fs w).isOk ∧
    r.store fs topic v = r.store fs topic w := by
  rcases of_removeDerived h with rfl | ⟨a, b, rfl, rfl, hsame⟩
  · exact ⟨rfl, rfl, rfl, rfl⟩
  · obtain ⟨route, hroute, htype⟩ := Option.map_eq_some_iff.mp htopic
    have hschema : route.schema = sensorSchema := by
      rw [(of_buildRouter hr).2 route (List.mem_of_find?_eq_some hroute), htype]
      rfl
    refine ⟨sensorSchema_congr hsame, ?_, ?_⟩
    · unfold Router.validateRaw
      rw [hroute]
      dsimp only
      rw [validateRaw_congr hschema rfc3339 hsame]
    · rcases Transform.transformSensorPayload_congr fs hsame with
        ⟨e, hv, hw⟩ | ⟨v, w, hv, hw, hmsg⟩
      · rw [Router.store, Router.store, hv, hw]
        exact ⟨rfl, rfl⟩
      · have hdeserialize : r.deserialize topic v = r.deserialize topic w := by
          simp only [Router.deserialize, hroute, Route.deserialize, htype, hmsg]
        rw [Router.store, Router.store, hv, hw]
        refine ⟨rfl, ?_⟩
        show (r.deserialize topic v >>= _) = (r.deserialize topic w >>= _)
        rw [hdeserialize]

/-- A sensor payload with more fields in its data. -/
def sensorPayload (more : Object ℤ) : Value ℤ :=
  .object [("device_id", .string "dev-1 "), ("device_class", .string "bme680"),
    ("fw_version", .string "1.0"), ("time_ms", .number (.posInt 5)),
    ("time_iso", .string "2026-01-01T00:00:00Z"), ("time_valid", .bool true),
    ("room", .string "lab"),
    ("data", .object ([("temp_c", .number (.posInt 21)), ("rel_hum_perc", .number (.posInt 40)),
      ("pressure_hpa", .number (.posInt 1013)), ("gas_ohm", .number (.posInt 50000)),
      ("altitude_m", .number (.posInt 8))] ++ more))]

/-- Formulas for the one reading of the payload. -/
def roundedFormulas : Formulas ℤ := ⟨fun _ _ => 7, fun _ _ => 20, fun _ _ => 100, fun _ => "Good"⟩

def sensorRouter : Router ℤ :=
  ⟨[⟨.sensor, ⟨[.lit "smarthome", .one, .lit "sensor"], some 1⟩, sensorSchema⟩], true⟩

/-- A forged score of another type changes nothing. -/
theorem store_of_forgedScore :
    (Transform.transformSensorPayload roundedFormulas (sensorPayload [])).isOk ∧
      sensorRouter.store roundedFormulas "smarthome/dev-1/sensor"
          (sensorPayload [("iaq_score", .string "forged"), ("dew_point_c", .number (.posInt 99))]) =
        sensorRouter.store roundedFormulas "smarthome/dev-1/sensor" (sensorPayload []) := by
  have hr : buildRouter [("SENSOR", "smarthome/+/sensor")] = .ok sensorRouter := rfl
  have htopic : sensorRouter.messageTypeForTopic "smarthome/dev-1/sensor" = some .sensor := by
    decide +kernel
  have hequal : (sensorPayload [("iaq_score", .string "forged"),
      ("dew_point_c", .number (.posInt 99))]).removeDerived =
        (sensorPayload []).removeDerived := rfl
  refine ⟨by decide +kernel, ?_⟩
  exact (store_of_removeDerived (fun _ => true) roundedFormulas hr htopic hequal false).2.2.2

end SmarthomeIngest
