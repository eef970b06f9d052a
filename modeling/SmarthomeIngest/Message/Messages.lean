import SmarthomeIngest.Message.Schema

/-!
# Messages

`SensorMessage` and `StatusMessage` with their `serde` implementations: deserialization from a JSON
value, and serialization for the business schemas.
-/

namespace SmarthomeIngest

inductive MessageType where
  | sensor
  | status
  deriving DecidableEq, Repr

structure SensorData (F : Type) where
  tempC : F
  relHumPerc : F
  pressureHpa : F
  gasOhm : F
  iaqScore : F
  iaqText : String
  dewPointC : F
  heatIndexC : F
  altitudeM : F

structure SensorMessage (F : Type) where
  deviceId : String
  room : String
  deviceClass : String
  fwVersion : String
  timeMs : Int64
  timeIso : String
  timeValid : Bool
  bootId : Option UInt32
  seq : Option UInt32
  warmedUp : Option Bool
  replayed : Bool
  data : SensorData F

structure StatusMessage where
  deviceId : String
  deviceClass : String
  fwVersion : String
  ip : String
  rssi : Int64
  timeMs : Int64
  timeIso : String
  timeValid : Bool
  uptime : Int64
  freeMem : Int64
  ssid : String
  queued : Option Int64
  droppedTotal : Option Int64
  samplesFailedTotal : Option Int64
  mqttConnectsTotal : Option Int64
  sensorReadFailuresTotal : Option Int64
  resetReason : Option String

inductive HandledMessage (F : Type) where
  | sensor (msg : SensorMessage F)
  | status (msg : StatusMessage)

variable {F : Type}

/-! ### Deserialization -/

/-- A type that deserializes from a value. -/
abbrev FromValue (F α : Type) := Value F → Option α

namespace FromValue

def string : FromValue F String
  | .string s => some s
  | _ => none

def bool : FromValue F Bool
  | .bool b => some b
  | _ => none

def i64 : FromValue F Int64
  | .number (.posInt n) => if n.toNat < 2 ^ 63 then some (Int64.ofNat n.toNat) else none
  | .number (.negInt i) => some i
  | _ => none

def u32 : FromValue F UInt32
  | .number (.posInt n) => if n.toNat < 2 ^ 32 then some (UInt32.ofNat n.toNat) else none
  | _ => none

/-- Every number is an `f64`. -/
def f64 [F64 F] : FromValue F F
  | .number n => some n.asF64
  | _ => none

def option {α : Type} (de : FromValue F α) : FromValue F (Option α)
  | .null => some none
  | v => (de v).map some

/-- The fields of a derived `Deserialize` struct: by name in an object, by position in an array that
is not too long. -/
def fields (names : List String) : Value F → Option (String → Option (Value F))
  | .object o => some (Object.get o)
  | .array items =>
    if names.length < items.length then none else some fun key => items[names.idxOf key]?
  | _ => none

def required {α : Type} (de : FromValue F α) (v : Option (Value F)) : Option α := v.bind de

/-- `#[serde(default)]`. -/
def orDefault {α : Type} (de : FromValue F α) (default : α) : Option (Value F) → Option α
  | none   => some default
  | some v => de v

end FromValue

open FromValue

def SensorData.fieldNames : List String :=
  ["temp_c", "rel_hum_perc", "pressure_hpa", "gas_ohm", "iaq_score", "iaq_text", "dew_point_c",
    "heat_index_c", "altitude_m"]

def SensorData.fromFields [F64 F] (field : String → Option (Value F)) : Option (SensorData F) := do
  let tempC ← required f64 (field "temp_c")
  let relHumPerc ← required f64 (field "rel_hum_perc")
  let pressureHpa ← required f64 (field "pressure_hpa")
  let gasOhm ← required f64 (field "gas_ohm")
  let iaqScore ← required f64 (field "iaq_score")
  let iaqText ← required string (field "iaq_text")
  let dewPointC ← required f64 (field "dew_point_c")
  let heatIndexC ← required f64 (field "heat_index_c")
  let altitudeM ← required f64 (field "altitude_m")
  return { tempC, relHumPerc, pressureHpa, gasOhm, iaqScore, iaqText, dewPointC, heatIndexC,
           altitudeM }

def SensorData.fromValue [F64 F] : FromValue F (SensorData F) := fun v =>
  (fields SensorData.fieldNames v).bind SensorData.fromFields

def SensorMessage.fieldNames : List String :=
  ["device_id", "room", "device_class", "fw_version", "time_ms", "time_iso", "time_valid",
    "boot_id", "seq", "warmed_up", "replayed", "data"]

def SensorMessage.fromFields [F64 F] (field : String → Option (Value F)) :
    Option (SensorMessage F) := do
  let deviceId ← required string (field "device_id")
  let room ← required string (field "room")
  let deviceClass ← required string (field "device_class")
  let fwVersion ← required string (field "fw_version")
  let timeMs ← required i64 (field "time_ms")
  let timeIso ← required string (field "time_iso")
  let timeValid ← required bool (field "time_valid")
  let bootId ← orDefault (option u32) none (field "boot_id")
  let seq ← orDefault (option u32) none (field "seq")
  let warmedUp ← orDefault (option bool) none (field "warmed_up")
  let replayed ← orDefault bool false (field "replayed")
  let data ← required SensorData.fromValue (field "data")
  return { deviceId, room, deviceClass, fwVersion, timeMs, timeIso, timeValid, bootId, seq,
           warmedUp, replayed, data }

def SensorMessage.fromValue [F64 F] : FromValue F (SensorMessage F) := fun v =>
  (fields SensorMessage.fieldNames v).bind SensorMessage.fromFields

def StatusMessage.fieldNames : List String :=
  ["device_id", "device_class", "fw_version", "ip", "rssi", "time_ms", "time_iso", "time_valid",
    "uptime", "free_mem", "ssid", "queued", "dropped_total", "samples_failed_total",
    "mqtt_connects_total", "sensor_read_failures_total", "reset_reason"]

def StatusMessage.fromFields (field : String → Option (Value F)) : Option StatusMessage := do
  let deviceId ← required string (field "device_id")
  let deviceClass ← required string (field "device_class")
  let fwVersion ← required string (field "fw_version")
  let ip ← required string (field "ip")
  let rssi ← required i64 (field "rssi")
  let timeMs ← required i64 (field "time_ms")
  let timeIso ← required string (field "time_iso")
  let timeValid ← required bool (field "time_valid")
  let uptime ← required i64 (field "uptime")
  let freeMem ← required i64 (field "free_mem")
  let ssid ← required string (field "ssid")
  let queued ← orDefault (option i64) none (field "queued")
  let droppedTotal ← orDefault (option i64) none (field "dropped_total")
  let samplesFailedTotal ← orDefault (option i64) none (field "samples_failed_total")
  let mqttConnectsTotal ← orDefault (option i64) none (field "mqtt_connects_total")
  let sensorReadFailuresTotal ← orDefault (option i64) none (field "sensor_read_failures_total")
  let resetReason ← orDefault (option string) none (field "reset_reason")
  return { deviceId, deviceClass, fwVersion, ip, rssi, timeMs, timeIso, timeValid, uptime, freeMem,
           ssid, queued, droppedTotal, samplesFailedTotal, mqttConnectsTotal,
           sensorReadFailuresTotal, resetReason }

def StatusMessage.fromValue : FromValue F StatusMessage := fun v =>
  (fields StatusMessage.fieldNames v).bind StatusMessage.fromFields

/-! ### Serialization -/

namespace Value

def ofI64 (i : Int64) : Value F :=
  .number (if i < 0 then .negInt i else .posInt (UInt64.ofNat i.toInt.toNat))

def ofU32 (n : UInt32) : Value F := .number (.posInt (UInt64.ofNat n.toNat))

/-- A float that is not finite serializes as `null`. -/
def ofF64 [F64 F] (x : F) : Value F := ((Number.fromF64 x).map Value.number).getD .null

end Value

def SensorData.toValue [F64 F] (data : SensorData F) : Value F :=
  .object [("temp_c", .ofF64 data.tempC), ("rel_hum_perc", .ofF64 data.relHumPerc),
    ("pressure_hpa", .ofF64 data.pressureHpa), ("gas_ohm", .ofF64 data.gasOhm),
    ("iaq_score", .ofF64 data.iaqScore), ("iaq_text", .string data.iaqText),
    ("dew_point_c", .ofF64 data.dewPointC), ("heat_index_c", .ofF64 data.heatIndexC),
    ("altitude_m", .ofF64 data.altitudeM)]

def SensorMessage.toValue [F64 F] (msg : SensorMessage F) : Value F :=
  .object (Object.ofEntries [("device_id", some (.string msg.deviceId)),
    ("room", some (.string msg.room)), ("device_class", some (.string msg.deviceClass)),
    ("fw_version", some (.string msg.fwVersion)), ("time_ms", some (.ofI64 msg.timeMs)),
    ("time_iso", some (.string msg.timeIso)), ("time_valid", some (.bool msg.timeValid)),
    ("boot_id", msg.bootId.map .ofU32), ("seq", msg.seq.map .ofU32),
    ("warmed_up", msg.warmedUp.map .bool), ("replayed", some (.bool msg.replayed)),
    ("data", some msg.data.toValue)])

def StatusMessage.toValue (msg : StatusMessage) : Value F :=
  .object (Object.ofEntries [("device_id", some (.string msg.deviceId)),
    ("device_class", some (.string msg.deviceClass)), ("fw_version", some (.string msg.fwVersion)),
    ("ip", some (.string msg.ip)), ("rssi", some (.ofI64 msg.rssi)),
    ("time_ms", some (.ofI64 msg.timeMs)), ("time_iso", some (.string msg.timeIso)),
    ("time_valid", some (.bool msg.timeValid)), ("uptime", some (.ofI64 msg.uptime)),
    ("free_mem", some (.ofI64 msg.freeMem)), ("ssid", some (.string msg.ssid)),
    ("queued", msg.queued.map .ofI64), ("dropped_total", msg.droppedTotal.map .ofI64),
    ("samples_failed_total", msg.samplesFailedTotal.map .ofI64),
    ("mqtt_connects_total", msg.mqttConnectsTotal.map .ofI64),
    ("sensor_read_failures_total", msg.sensorReadFailuresTotal.map .ofI64),
    ("reset_reason", msg.resetReason.map .string)])

/-- `validate_handled_message`. -/
def HandledMessage.validateBusiness [F64 F] : HandledMessage F → Except String Unit
  | .sensor msg =>
    if sensorBusinessSchema msg.toValue then .ok ()
    else .error "sensor business schema validation failed"
  | .status msg =>
    if statusBusinessSchema (msg.toValue : Value F) then .ok ()
    else .error "status business schema validation failed"

/-! ### What the business schemas say about floats -/

def SensorData.floats (data : SensorData F) : List F :=
  [data.tempC, data.relHumPerc, data.pressureHpa, data.gasOhm, data.iaqScore, data.dewPointC,
    data.heatIndexC, data.altitudeM]

variable [F64 F]

lemma isFinite_of_number {x : F} (h : Check.number (Value.ofF64 x) = true) :
    F64.isFinite x = true := by
  unfold Value.ofF64 Number.fromF64 at h
  split_ifs at h with hx
  · exact hx
  · cases h

/-- Floats that are not finite serialize as `null`, which the business schema does not accept. -/
lemma isFinite_of_sensorBusinessSchema {msg : SensorMessage F}
    (h : sensorBusinessSchema msg.toValue = true) :
    ∀ x ∈ msg.data.floats, F64.isFinite x = true := by
  simp only [sensorBusinessSchema, Check.allOf, List.all_cons, Bool.and_eq_true,
    SensorMessage.toValue] at h
  obtain ⟨-, -, -, hprops, -⟩ := h
  simp only [properties_object, List.all_cons, Bool.and_eq_true] at hprops
  obtain ⟨-, -, -, -, -, -, -, -, -, -, -, hdata, -⟩ := hprops
  rw [Object.get_ofEntries (v := some msg.data.toValue) (by simp) (by simp)] at hdata
  simp only [Option.all_some, Check.allOf, List.all_cons, Bool.and_eq_true, SensorData.toValue,
    properties_object] at hdata
  obtain ⟨-, -, ⟨htemp, hhum, hpressure, hgas, hscore, -, hdew, hheat, halt, -⟩, -⟩ := hdata
  intro x hx
  simp only [SensorData.floats, List.mem_cons, List.not_mem_nil, or_false] at hx
  rcases hx with rfl | rfl | rfl | rfl | rfl | rfl | rfl | rfl
  · exact isFinite_of_number htemp
  · exact isFinite_of_number (of_allOf hhum (by simp))
  · exact isFinite_of_number hpressure
  · exact isFinite_of_number (of_allOf hgas (by simp))
  · exact isFinite_of_number (of_allOf hscore (by simp))
  · exact isFinite_of_number hdew
  · exact isFinite_of_number hheat
  · exact isFinite_of_number halt

end SmarthomeIngest
