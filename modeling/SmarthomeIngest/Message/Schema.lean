import SmarthomeIngest.Message.Json

/-!
# JSON schemas

The draft-07 keywords the four schemas use, as checks on a value, and the schemas written with
them. A keyword says nothing about values of another type than its own.
-/

namespace SmarthomeIngest

variable {F : Type} [F64 F]

namespace Number

/-- Zero fractional part. -/
def isInteger : Number F → Bool
  | .posInt _ | .negInt _ => true
  | .float x => F64.isIntegral x

def minimum (bound : ℤ) : Number F → Bool
  | .posInt n => bound ≤ n.toNat
  | .negInt i => bound ≤ i.toInt
  | .float x  => FloatArith.le (FloatArith.ofRat bound) x

def maximum (bound : ℤ) : Number F → Bool
  | .posInt n => n.toNat ≤ bound
  | .negInt i => i.toInt ≤ bound
  | .float x  => FloatArith.le x (FloatArith.ofRat bound)

def exclusiveMinimum (bound : ℤ) : Number F → Bool
  | .posInt n => bound < n.toNat
  | .negInt i => bound < i.toInt
  | .float x  => FloatArith.lt (FloatArith.ofRat bound) x

end Number

/-! ### Keywords -/

/-- `is_valid` of a compiled schema. -/
abbrev Check (F : Type) := Value F → Bool

namespace Check

/-- The schema without keywords. -/
def any : Check F := fun _ => true

def allOf (checks : List (Check F)) : Check F := fun v => checks.all fun check => check v

def string : Check F
  | .string _ => true
  | _ => false

def integer : Check F
  | .number n => n.isInteger
  | _ => false

def number : Check F
  | .number _ => true
  | _ => false

def boolean : Check F
  | .bool _ => true
  | _ => false

def object : Check F
  | .object _ => true
  | _ => false

def minLength (n : ℕ) : Check F
  | .string s => n ≤ s.length
  | _ => true

def minimum (bound : ℤ) : Check F
  | .number n => n.minimum bound
  | _ => true

def maximum (bound : ℤ) : Check F
  | .number n => n.maximum bound
  | _ => true

def exclusiveMinimum (bound : ℤ) : Check F
  | .number n => n.exclusiveMinimum bound
  | _ => true

def properties (checks : List (String × Check F)) : Check F
  | .object o => checks.all fun (key, check) =>
    match Object.get o key with
    | some v => check v
    | none   => true
  | _ => true

def required (keys : List String) : Check F
  | .object o => keys.all fun key => (Object.get o key).isSome
  | _ => true

/-- `additionalProperties: false` beside `properties`. -/
def noOther (keys : List String) : Check F
  | .object o => o.all fun entry => keys.contains entry.1
  | _ => true

end Check

section Keywords

omit [F64 F]

variable {a b : Object F}

lemma properties_object (checks : List (String × Check F)) (o : Object F) :
    Check.properties checks (.object o) =
      checks.all fun entry => (Object.get o entry.1).all entry.2 := by
  unfold Check.properties
  dsimp only
  congr 1
  funext entry
  cases Object.get o entry.1 <;> rfl

/-! ### What valid values satisfy -/

lemma of_allOf {checks : List (Check F)} {v : Value F} (h : Check.allOf checks v = true)
    {check : Check F} (hmem : check ∈ checks) : check v = true :=
  List.all_eq_true.mp h check hmem

/-! ### What the keywords look at -/

lemma allOf_congr {v w : Value F} {check : Check F} {checks : List (Check F)}
    (h : check v = check w) (hrest : Check.allOf checks v = Check.allOf checks w) :
    Check.allOf (check :: checks) v = Check.allOf (check :: checks) w := by
  rw [Check.allOf, Check.allOf] at hrest ⊢
  rw [List.all_cons, List.all_cons, h, hrest]

lemma properties_congr {checks : List (String × Check F)}
    (h : ∀ entry ∈ checks,
      (Object.get a entry.1).all entry.2 = (Object.get b entry.1).all entry.2) :
    Check.properties checks (.object a) = Check.properties checks (.object b) := by
  rw [properties_object, properties_object, Bool.eq_iff_iff, List.all_eq_true, List.all_eq_true]
  exact forall₂_congr fun entry hentry => by rw [h entry hentry]

lemma required_congr {keys : List String}
    (h : ∀ key ∈ keys, (Object.get a key).isSome = (Object.get b key).isSome) :
    Check.required keys (.object a) = Check.required keys (.object b) := by
  simp only [Check.required]
  rw [Bool.eq_iff_iff, List.all_eq_true, List.all_eq_true]
  exact forall₂_congr fun key hkey => by rw [h key hkey]

lemma noOther_object (keys : List String) (o : Object F) :
    Check.noOther keys (.object o) = true ↔
      ∀ key, (Object.get o key).isSome = true → key ∈ keys := by
  have hget (key : String) : (Object.get o key).isSome = true ↔ ∃ entry ∈ o, key = entry.1 := by
    rw [Object.get, List.lookup_isSome_iff]
    simp only [beq_iff_eq]
  simp only [Check.noOther, List.all_eq_true, List.contains_iff_mem, hget]
  constructor
  · rintro h key ⟨entry, hentry, rfl⟩
    exact h entry hentry
  · exact fun h entry hentry => h entry.1 ⟨entry, hentry, rfl⟩

/-! ### Changing entries -/

/-- Objects with the same entries, except that some have other values. -/
structure SameBut (changed : List String) (a b : Object F) : Prop where
  isSome : ∀ key, (Object.get a key).isSome = (Object.get b key).isSome
  get : ∀ key ∉ changed, Object.get a key = Object.get b key

namespace SameBut

variable {changed : List String}

lemma refl (o : Object F) : SameBut [] o o where
  isSome _ := rfl
  get _ _ := rfl

lemma insert (h : SameBut changed a b) {key : String} (hkey : (Object.get b key).isSome = true)
    (v : Value F) : SameBut (key :: changed) (Object.insert a key v) b where
  isSome k := by
    rw [Object.get_insert]
    split_ifs with heq
    · rw [heq, hkey]
      rfl
    · exact h.isSome k
  get k hk := by
    rw [Object.get_insert_ne (List.ne_of_not_mem_cons hk),
      h.get k (List.not_mem_of_not_mem_cons hk)]

lemma required (h : SameBut changed a b) (keys : List String) :
    Check.required keys (.object a) = Check.required keys (.object b) :=
  required_congr fun key _ => h.isSome key

lemma noOther (h : SameBut changed a b) (keys : List String) :
    Check.noOther keys (.object a) = Check.noOther keys (.object b) := by
  rw [Bool.eq_iff_iff, noOther_object, noOther_object]
  exact forall_congr' fun key => by rw [h.isSome]

/-- The properties stay valid if the changed ones are. -/
lemma properties (h : SameBut changed a b) {checks : List (String × Check F)}
    (hchanged : ∀ entry ∈ checks, entry.1 ∈ changed → (Object.get b entry.1).all entry.2 = true)
    (ha : Check.properties checks (.object a) = true) :
    Check.properties checks (.object b) = true := by
  rw [properties_object, List.all_eq_true] at ha ⊢
  intro entry hentry
  by_cases hkey : entry.1 ∈ changed
  · exact hchanged entry hentry hkey
  · rw [← h.get _ hkey]
    exact ha entry hentry

lemma allOf (h : SameBut changed a b) {keys needed : List String}
    {checks : List (String × Check F)}
    (hchanged : ∀ entry ∈ checks, entry.1 ∈ changed → (Object.get b entry.1).all entry.2 = true)
    (ha : Check.allOf [Check.object, Check.noOther keys, Check.properties checks,
      Check.required needed] (.object a) = true) :
    Check.allOf [Check.object, Check.noOther keys, Check.properties checks,
      Check.required needed] (.object b) = true := by
  rw [Check.allOf, List.all_eq_true] at ha ⊢
  rw [List.forall_mem_cons, List.forall_mem_cons, List.forall_mem_cons,
    List.forall_mem_singleton] at ha ⊢
  obtain ⟨-, hother, hproperties, hneeded⟩ := ha
  exact ⟨rfl, h.noOther keys ▸ hother, h.properties hchanged hproperties,
    h.required needed ▸ hneeded⟩

end SameBut

end Keywords

/-! ### The schemas -/

open Check

/-- `base.schema.json`. -/
def baseSchema : Check F :=
  allOf [object,
    properties [
      ("device_id", allOf [string, minLength 1]),
      ("device_class", allOf [string, minLength 1]),
      ("fw_version", allOf [string, minLength 1]),
      ("time_ms", allOf [integer, minimum 0]),
      ("time_iso", allOf [string, minLength 1]),
      ("time_valid", boolean)],
    required ["device_id", "device_class", "fw_version", "time_ms", "time_iso", "time_valid"]]

/-- Common to all messages, it does not look at the data. -/
lemma baseSchema_congr {a b : Object F}
    (h : ∀ key ≠ "data", Object.get a key = Object.get b key) :
    baseSchema (.object a) = baseSchema (.object b) := by
  have hproperties : ∀ checks : List (String × Check F), (∀ entry ∈ checks, entry.1 ≠ "data") →
      Check.properties checks (.object a) = Check.properties checks (.object b) := by
    intro checks hchecks
    exact properties_congr fun entry hentry => by rw [h _ (hchecks entry hentry)]
  have hrequired : ∀ keys : List String, (∀ key ∈ keys, key ≠ "data") →
      Check.required keys (.object a) = Check.required keys (.object b) := by
    intro keys hkeys
    exact required_congr fun key hkey => by rw [h _ (hkeys key hkey)]
  refine allOf_congr rfl (allOf_congr ?_ ?_)
  · apply hproperties
    simp
  · refine allOf_congr ?_ rfl
    apply hrequired
    simp

/-- `sensor.schema.json`. -/
def sensorSchema : Check F :=
  allOf [baseSchema,
    object,
    properties [
      ("room", string),
      ("boot_id", allOf [integer, minimum 0, maximum 4294967295]),
      ("seq", allOf [integer, minimum 0, maximum 4294967295]),
      ("warmed_up", boolean),
      ("replayed", boolean),
      ("data", allOf [object,
        properties [
          ("temp_c", number),
          ("rel_hum_perc", number),
          ("pressure_hpa", number),
          ("gas_ohm", number),
          ("altitude_m", number)],
        required ["temp_c", "rel_hum_perc", "pressure_hpa", "gas_ohm", "altitude_m"]])],
    required ["room", "data"]]

/-- `status.schema.json`. -/
def statusSchema : Check F :=
  allOf [baseSchema,
    object,
    properties [
      ("ip", string),
      ("rssi", integer),
      ("uptime", integer),
      ("free_mem", integer),
      ("ssid", string),
      ("queued", integer),
      ("dropped_total", integer),
      ("samples_failed_total", integer),
      ("mqtt_connects_total", integer),
      ("sensor_read_failures_total", integer),
      ("reset_reason", string)],
    required ["ip", "rssi"]]

/-- `sensor.business.schema.json`. -/
def sensorBusinessSchema : Check F :=
  allOf [baseSchema,
    object,
    noOther ["device_id", "device_class", "fw_version", "time_ms", "time_iso", "time_valid", "room",
      "boot_id", "seq", "warmed_up", "replayed", "data"],
    properties [
      ("device_id", any),
      ("device_class", any),
      ("fw_version", any),
      ("time_ms", any),
      ("time_iso", any),
      ("time_valid", any),
      ("room", allOf [string, minLength 1]),
      ("boot_id", allOf [integer, minimum 0, maximum 4294967295]),
      ("seq", allOf [integer, minimum 0, maximum 4294967295]),
      ("warmed_up", boolean),
      ("replayed", boolean),
      ("data", allOf [object,
        noOther ["temp_c", "rel_hum_perc", "pressure_hpa", "gas_ohm", "iaq_score", "iaq_text",
          "dew_point_c", "heat_index_c", "altitude_m"],
        properties [
          ("temp_c", number),
          ("rel_hum_perc", allOf [number, exclusiveMinimum 0, maximum 100]),
          ("pressure_hpa", number),
          ("gas_ohm", allOf [number, exclusiveMinimum 0]),
          ("iaq_score", allOf [number, minimum 0, maximum 100]),
          ("iaq_text", allOf [string, minLength 1]),
          ("dew_point_c", number),
          ("heat_index_c", number),
          ("altitude_m", number)],
        required ["temp_c", "rel_hum_perc", "pressure_hpa", "gas_ohm", "iaq_score", "iaq_text",
          "dew_point_c", "heat_index_c", "altitude_m"]])],
    required ["room", "data"]]

/-- `status.business.schema.json`. -/
def statusBusinessSchema : Check F :=
  allOf [baseSchema,
    object,
    noOther ["device_id", "device_class", "fw_version", "time_ms", "time_iso", "time_valid", "ip",
      "rssi", "uptime", "free_mem", "ssid", "queued", "dropped_total", "samples_failed_total",
      "mqtt_connects_total", "sensor_read_failures_total", "reset_reason"],
    properties [
      ("device_id", any),
      ("device_class", any),
      ("fw_version", any),
      ("time_ms", any),
      ("time_iso", any),
      ("time_valid", any),
      ("ip", allOf [string, minLength 1]),
      ("rssi", integer),
      ("uptime", allOf [integer, minimum 0]),
      ("free_mem", allOf [integer, minimum 0]),
      ("ssid", string),
      ("queued", integer),
      ("dropped_total", integer),
      ("samples_failed_total", integer),
      ("mqtt_connects_total", integer),
      ("sensor_read_failures_total", integer),
      ("reset_reason", string)],
    required ["ip", "rssi", "uptime", "free_mem", "ssid"]]

end SmarthomeIngest
