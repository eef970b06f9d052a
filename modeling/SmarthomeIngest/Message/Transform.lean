import SmarthomeIngest.Lib.Text
import SmarthomeIngest.Message.Messages

/-!
# Transformation of payloads

The first half of the transform stage: strings are trimmed, the raw readings of a sensor are
checked and its derived fields computed from them, and missing fields of a status are filled in.
-/

namespace SmarthomeIngest

variable {F : Type}

/-! ### The derived fields -/

/-- The formulas for the derived fields. -/
structure Formulas (F : Type) where
  dewPointC (tempC relHumPerc : F) : F
  heatIndexC (tempC relHumPerc : F) : F
  iaqScore (gasOhm relHumPerc : F) : F
  iaqText (score : F) : String

namespace Transform

section Arith

variable [FloatArith F]

/-- A float literal. -/
abbrev lit (q : ℚ) : F := FloatArith.ofRat q

/-- `contains` of an inclusive range. -/
def inRange (lo hi : ℚ) (x : F) : Bool := FloatArith.le (lit lo) x && FloatArith.le x (lit hi)

def calcDewPointC (tempC relHumPerc : F) : F :=
  let alpha := FloatArith.ln (relHumPerc / lit 100) + (lit 17.27 * tempC) / (lit 237.7 + tempC)
  (lit 237.7 * alpha) / (lit 17.27 - alpha)

def tempCToF (tempC : F) : F := tempC * lit 9 / lit 5 + lit 32

def tempFToC (tempF : F) : F := (tempF - lit 32) * lit 5 / lit 9

def calcHeatIndexC (tempC relHumPerc : F) : F :=
  let tempF := tempCToF tempC
  let hiRothfusz :=
    lit (-42.379) + lit 2.04901523 * tempF + lit 10.14333127 * relHumPerc
      - lit 0.22475541 * tempF * relHumPerc
      - lit 0.00683783 * tempF * tempF
      - lit 0.05481717 * relHumPerc * relHumPerc
      + lit 0.00122874 * tempF * tempF * relHumPerc
      + lit 0.00085282 * tempF * relHumPerc * relHumPerc
      - lit 0.00000199 * tempF * tempF * relHumPerc * relHumPerc
  if FloatArith.lt relHumPerc (lit 13) && inRange 80 112 tempF then
    let adjustedHi := ((lit 13 - relHumPerc) / lit 4) *
      FloatArith.sqrt (lit 17 - FloatArith.abs (tempF - lit 95) / lit 17)
    tempFToC (hiRothfusz - adjustedHi)
  else if FloatArith.lt (lit 85) relHumPerc && inRange 80 87 tempF then
    let adjustedHi := ((relHumPerc - lit 85) * (lit 87 - tempF)) / lit 5
    tempFToC (hiRothfusz + adjustedHi)
  else if FloatArith.lt tempF (lit 80) then
    let hiSteadman :=
      lit 0.5 * (tempF + lit 61 + ((tempF - lit 68) * lit 1.2) + (relHumPerc * lit 0.094))
    tempFToC hiSteadman
  else tempFToC hiRothfusz

/-- `clamp`. -/
def clamp (lo hi x : F) : F :=
  if FloatArith.lt x lo then lo else if FloatArith.lt hi x then hi else x

def calcIaqScore (gasOhm relHumPerc : F) : F :=
  let humRef : F := lit 40
  let humScore :=
    if inRange 38 42 relHumPerc then lit 0.25 * lit 100
    else if FloatArith.lt relHumPerc (lit 38) then (lit 0.25 / humRef) * relHumPerc * lit 100
    else lit 0.25 / (lit 100 - humRef) * (lit 100 - relHumPerc) * lit 100
  let gasLowerLimit : F := lit 5000
  let gasUpperLimit : F := lit 50000
  let gasReading := clamp gasLowerLimit gasUpperLimit gasOhm
  let gasScore := ((lit 0.75 / (gasUpperLimit - gasLowerLimit) * gasReading)
    - (gasLowerLimit * (lit 0.75 / (gasUpperLimit - gasLowerLimit)))) * lit 100
  humScore + gasScore

def calcIaqText (indoorAirQualityScore : F) : String :=
  let score := (lit 100 - indoorAirQualityScore) * lit 5
  let suffix :=
    if FloatArith.le (lit 301) score then "Hazardous"
    else if FloatArith.le (lit 201) score then "Very Unhealthy"
    else if FloatArith.le (lit 176) score then "Unhealthy"
    else if FloatArith.le (lit 151) score then "Unhealthy for Sensitive Groups"
    else if FloatArith.le (lit 51) score then "Moderate"
    else "Good"
  "Air quality is " ++ suffix

/-- The formulas of the program. -/
def formulas : Formulas F where
  dewPointC := calcDewPointC
  heatIndexC := calcHeatIndexC
  iaqScore := calcIaqScore
  iaqText := calcIaqText

end Arith

/-! ### The payloads -/

def trimRootString (payload : Value F) (key : String) : Value F :=
  match (payload.get key).bind Value.asStr with
  | none => payload
  | some s =>
    match payload with
    | .object o => .object (Object.insert o key (.string (Text.trim s)))
    | payload => payload

/-- A payload changes where it has a string, and nowhere else. -/
lemma trimRootString_cases (payload : Value F) (key : String) :
    (trimRootString payload key = payload ∧ ∀ s, payload.get key ≠ some (.string s)) ∨
    ∃ o s, payload = .object o ∧ Object.get o key = some (.string s) ∧
      trimRootString payload key = .object (Object.insert o key (.string (Text.trim s))) := by
  cases payload with
  | object o =>
    have hvalue : (Value.object o).get key = Object.get o key := rfl
    rw [trimRootString, hvalue]
    cases hget : Object.get o key with
    | none => exact .inl ⟨rfl, nofun⟩
    | some v =>
      cases v with
      | string s => exact .inr ⟨o, s, rfl, hget, rfl⟩
      | _ => exact .inl ⟨rfl, nofun⟩
  | _ => exact .inl ⟨rfl, nofun⟩

/-- `ensure_i64` and `ensure_string`. -/
def ensure (payload : Value F) (key : String) (default : Value F) : Value F :=
  if (payload.get key).isNone then
    match payload with
    | .object o => .object (Object.insert o key default)
    | payload => payload
  else payload

section Sensor

variable [F64 F]

def requiredF64FromObject (o : Object F) (key : String) : Except String F :=
  match (Object.get o key).bind Value.asF64 with
  | some x => .ok x
  | none   => .error ("missing or non-numeric field: sensor.data." ++ key)

def setF64InObject (o : Object F) (key : String) (x : F) : Except String (Object F) :=
  match Number.fromF64 x with
  | some n => .ok (Object.insert o key (.number n))
  | none   => .error ("cannot store non-finite float in field " ++ key)

/-- The raw readings of a sensor. -/
structure Readings (F : Type) where
  tempC : F
  relHumPerc : F
  pressureHpa : F
  gasOhm : F
  altitudeM : F

def readReadings (data : Object F) : Except String (Readings F) := do
  let tempC ← requiredF64FromObject data "temp_c"
  let relHumPerc ← requiredF64FromObject data "rel_hum_perc"
  let pressureHpa ← requiredF64FromObject data "pressure_hpa"
  let gasOhm ← requiredF64FromObject data "gas_ohm"
  let altitudeM ← requiredF64FromObject data "altitude_m"
  if !(FloatArith.lt (lit 0) relHumPerc && FloatArith.le relHumPerc (lit 100)) then
    throw ("sensor.data.rel_hum_perc must be in (0,100], got " ++ F64.display relHumPerc)
  if FloatArith.le gasOhm (lit 0) then
    throw ("sensor.data.gas_ohm must be > 0, got " ++ F64.display gasOhm)
  if !inRange 300 1200 pressureHpa then
    throw ("sensor.data.pressure_hpa out of transform-safe range [300,1200], got " ++
      F64.display pressureHpa)
  return { tempC, relHumPerc, pressureHpa, gasOhm, altitudeM }

/-- The data with its derived fields overwritten, and two raw ones in canonical form. -/
def storeDerived (fs : Formulas F) (r : Readings F) (data : Object F) :
    Except String (Object F) := do
  let iaqScore := fs.iaqScore r.gasOhm r.relHumPerc
  let data ← setF64InObject data "dew_point_c" (fs.dewPointC r.tempC r.relHumPerc)
  let data ← setF64InObject data "heat_index_c" (fs.heatIndexC r.tempC r.relHumPerc)
  let data ← setF64InObject data "iaq_score" iaqScore
  let data := Object.insert data "iaq_text" (.string (fs.iaqText iaqScore))
  let data ← setF64InObject data "pressure_hpa" r.pressureHpa
  setF64InObject data "altitude_m" r.altitudeM

def sensorStrings : List String := ["device_id", "room", "device_class", "fw_version", "time_iso"]

/-- The payload is not looked at again where this fails. -/
def transformSensorPayload (fs : Formulas F) (payload : Value F) : Except String (Value F) :=
  match sensorStrings.foldl trimRootString payload with
  | .object o =>
    match (Object.get o "data").bind Value.asObject with
    | none => .error "sensor.data missing or not an object"
    | some data => do
      let r ← readReadings data
      let data ← storeDerived fs r data
      return .object (Object.insert o "data" (.object data))
  | _ => .error "sensor.data missing or not an object"

end Sensor

def statusStrings : List String :=
  ["device_id", "device_class", "fw_version", "ip", "time_iso", "ssid"]

def transformStatusPayload (payload : Value F) : Value F :=
  let payload := statusStrings.foldl trimRootString payload
  let payload := ensure payload "uptime" (.ofI64 0)
  let payload := ensure payload "free_mem" (.ofI64 0)
  ensure payload "ssid" (.string "")

end Transform

end SmarthomeIngest
