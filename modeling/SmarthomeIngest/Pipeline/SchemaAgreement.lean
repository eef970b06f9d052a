import SmarthomeIngest.Message.Transformed
import SmarthomeIngest.Pipeline.Stages

/-!
# The raw schemas and the message types

A payload is described twice, by its raw schema and by the type it deserializes to. The two agree
but for the integers: to the schema any number without a fraction is one, and an `i64` of any size,
to `serde` only a literal in the range of the field.
-/

namespace SmarthomeIngest

variable {F : Type}

/-! ### Definitions -/

namespace Number

/-- An integer literal in the range of `i64`. -/
def IsI64 : Number F → Prop
  | .posInt n => n.toNat < 2 ^ 63
  | .negInt _ => True
  | .float _ => False

instance : DecidablePred (IsI64 (F := F)) := fun n =>
  match n with
  | .posInt n => inferInstanceAs (Decidable (n.toNat < 2 ^ 63))
  | .negInt _ => isTrue trivial
  | .float _ => isFalse id

/-- An integer literal in the range of `u32`. -/
def IsU32 : Number F → Prop
  | .posInt n => n.toNat < 2 ^ 32
  | _ => False

instance : DecidablePred (IsU32 (F := F)) := fun n =>
  match n with
  | .posInt n => inferInstanceAs (Decidable (n.toNat < 2 ^ 32))
  | .negInt _ => isFalse id
  | .float _ => isFalse id

end Number

namespace MessageType

def i64Fields : MessageType → List String
  | .sensor => ["time_ms"]
  | .status => ["rssi", "time_ms", "uptime", "free_mem", "queued", "dropped_total",
      "samples_failed_total", "mqtt_connects_total", "sensor_read_failures_total"]

def u32Fields : MessageType → List String
  | .sensor => ["boot_id", "seq"]
  | .status => []

end MessageType

/-- The number in a field, if there is one, has the property. -/
def FieldFits (p : Number F → Prop) (v : Option (Value F)) : Prop := ∀ n, v = some (.number n) → p n

instance (p : Number F → Prop) [DecidablePred p] (v : Option (Value F)) :
    Decidable (FieldFits p v) :=
  match v with
  | some (.number n) =>
    decidable_of_iff (p n) ⟨fun h m hm => by cases hm; exact h, fun h => h n rfl⟩
  | none | some .null | some (.bool _) | some (.string _) | some (.array _) | some (.object _) =>
    isTrue nofun

/-- The integers of the payload are literals in the ranges of their fields. -/
def IntegersFit (messageType : MessageType) (payload : Value F) : Prop :=
  (∀ key ∈ messageType.i64Fields, FieldFits Number.IsI64 (payload.get key)) ∧
    ∀ key ∈ messageType.u32Fields, FieldFits Number.IsU32 (payload.get key)

instance (messageType : MessageType) (payload : Value F) :
    Decidable (IntegersFit messageType payload) := inferInstanceAs (Decidable (_ ∧ _))

/-! ### One field -/

section Fields

open FromValue

variable {v : Option (Value F)}

lemma isSome_string {s : String} (h : v = some (.string s)) :
    (required string v).isSome = true := by
  rw [h]
  rfl

lemma isSome_bool (h : v.all Check.boolean = true) (hsome : v.isSome = true) :
    (required bool v).isSome = true := by
  obtain ⟨w, rfl⟩ := Option.isSome_iff_exists.mp hsome
  cases w with
  | bool b => rfl
  | _ => cases h

lemma isSome_optBool (h : v.all Check.boolean = true) :
    (orDefault (option bool) none v).isSome = true := by
  cases v with
  | none => rfl
  | some w =>
    cases w with
    | bool b => rfl
    | _ => cases h

lemma isSome_defaultBool (h : v.all Check.boolean = true) :
    (orDefault bool false v).isSome = true := by
  cases v with
  | none => rfl
  | some w =>
    cases w with
    | bool b => rfl
    | _ => cases h

lemma isSome_optString (h : v.all Check.string = true) :
    (orDefault (option string) none v).isSome = true := by
  cases v with
  | none => rfl
  | some w =>
    cases w with
    | string s => rfl
    | _ => cases h

/-- What the schema calls a string is still one when it is trimmed. -/
lemma exists_string (h : v.all Check.string = true) (hsome : v.isSome = true) :
    ∃ s, v.map Transform.trimValue = some (.string s) := by
  obtain ⟨w, rfl⟩ := Option.isSome_iff_exists.mp hsome
  cases w with
  | string s => exact ⟨_, rfl⟩
  | _ => cases h

/-- A string of a transformed status. -/
lemma isSome_statusString {key : String} (hmem : key ∈ Transform.statusStrings)
    (h : v.all Check.string = true) (hsome : v.isSome = true) :
    (required string (Transform.statusField key v)).isSome = true := by
  obtain ⟨s, hs⟩ := exists_string h hsome
  rw [Transform.statusField, if_pos hmem, hs]
  rfl

/-- A field of a status that the transformation leaves alone. -/
lemma statusField_eq_self {key : String} (hnot : key ∉ Transform.statusStrings)
    (hdefault : Transform.statusDefault (F := F) key = none) (v : Option (Value F)) :
    Transform.statusField key v = v := by
  rw [Transform.statusField, if_neg hnot, hdefault, Option.or_none]

lemma statusField_filled {key : String} (hkey : key = "uptime" ∨ key = "free_mem")
    (v : Option (Value F)) : Transform.statusField key v = v.or (some (.ofI64 0)) := by
  rcases hkey with rfl | rfl <;> rfl

lemma isSome_ssid (h : v.all Check.string = true) :
    (required string (Transform.statusField "ssid" v)).isSome = true := by
  cases v with
  | none => rfl
  | some w => exact isSome_statusString (by decide) h rfl

lemma fieldFits_number {p : Number F → Prop} {n : Number F} :
    FieldFits p (some (.number n)) ↔ p n := by
  refine ⟨fun h => h n rfl, fun h m hm => ?_⟩
  cases hm
  exact h

lemma fieldFits_none {p : Number F → Prop} : FieldFits p none := nofun

lemma isSome_i64_iff (n : Number F) : (i64 (.number n)).isSome = true ↔ n.IsI64 := by
  cases n with
  | posInt n =>
    simp only [i64, Number.IsI64]
    split_ifs with hlt
    · exact iff_of_true rfl hlt
    · exact iff_of_false nofun hlt
  | negInt i => exact iff_of_true rfl trivial
  | float x => exact iff_of_false nofun id

lemma isSome_u32_iff (n : Number F) : (u32 (.number n)).isSome = true ↔ n.IsU32 := by
  cases n with
  | posInt n =>
    simp only [u32, Number.IsU32]
    split_ifs with hlt
    · exact iff_of_true rfl hlt
    · exact iff_of_false nofun hlt
  | negInt i => exact iff_of_false nofun id
  | float x => exact iff_of_false nofun id

variable [F64 F]

/-- A value that the schema calls an integer is a number. -/
lemma exists_number {w : Value F} (h : Check.integer w = true) : ∃ n, w = .number n := by
  cases w with
  | number n => exact ⟨n, rfl⟩
  | _ => cases h

lemma isSome_required_i64 (h : v.all Check.integer = true) (hsome : v.isSome = true) :
    (required i64 v).isSome = true ↔ FieldFits Number.IsI64 v := by
  obtain ⟨w, rfl⟩ := Option.isSome_iff_exists.mp hsome
  obtain ⟨n, rfl⟩ := exists_number h
  rw [fieldFits_number, ← isSome_i64_iff]
  rfl

/-- A field that is filled in if it is missing. -/
lemma isSome_filled_i64 (h : v.all Check.integer = true) :
    (required i64 (v.or (some (.ofI64 0)))).isSome = true ↔ FieldFits Number.IsI64 v := by
  cases v with
  | none => exact iff_of_true rfl fieldFits_none
  | some w => exact isSome_required_i64 h rfl

/-- A field that may be missing; the schema does not let it be `null`. -/
lemma isSome_optional {α : Type} {de : FromValue F α} {p : Number F → Prop}
    (hde : ∀ n, (de (.number n)).isSome = true ↔ p n) (h : v.all Check.integer = true) :
    (orDefault (option de) none v).isSome = true ↔ FieldFits p v := by
  cases v with
  | none => exact iff_of_true rfl fieldFits_none
  | some w =>
    obtain ⟨n, rfl⟩ := exists_number h
    show ((de (.number n)).map some).isSome = true ↔ _
    rw [Option.isSome_map, hde, fieldFits_number]

end Fields

/-! ### What the schemas say -/

lemma all_of_allOf {v : Option (Value F)} {checks : List (Check F)}
    (h : v.all (Check.allOf checks) = true) {check : Check F} (hmem : check ∈ checks) :
    v.all check = true := by
  cases v with
  | none => rfl
  | some w => exact of_allOf h hmem

/-- A field that has to be there, and is of the right type. -/
def Given (check : Check F) (v : Option (Value F)) : Prop := v.all check = true ∧ v.isSome = true

variable [F64 F] {v : Value F}

lemma of_baseSchema (h : baseSchema v = true) :
    ∃ o, v = .object o ∧
      (∀ key ∈ ["device_id", "device_class", "fw_version", "time_iso"],
        Given Check.string (Object.get o key)) ∧
      Given Check.integer (Object.get o "time_ms") ∧
      Given Check.boolean (Object.get o "time_valid") := by
  simp only [baseSchema, Check.allOf, List.all_cons, List.all_nil, Bool.and_eq_true] at h
  obtain ⟨hobject, hprops, hrequired, -⟩ := h
  cases v with
  | object o =>
    simp only [properties_object, List.all_cons, List.all_nil, Bool.and_eq_true] at hprops
    simp only [Check.required, List.all_cons, List.all_nil, Bool.and_eq_true] at hrequired
    obtain ⟨hid, hclass, hversion, hms, hiso, hvalid, -⟩ := hprops
    obtain ⟨hid', hclass', hversion', hms', hiso', hvalid', -⟩ := hrequired
    simp only [List.forall_mem_cons]
    exact ⟨o, rfl, ⟨⟨all_of_allOf hid (by simp), hid'⟩, ⟨all_of_allOf hclass (by simp), hclass'⟩,
      ⟨all_of_allOf hversion (by simp), hversion'⟩, ⟨all_of_allOf hiso (by simp), hiso'⟩,
      List.forall_mem_nil _⟩, ⟨all_of_allOf hms (by simp), hms'⟩, ⟨hvalid, hvalid'⟩⟩
  | _ => cases hobject

lemma of_sensorSchema {o : Object F} (h : sensorSchema (.object o) = true) :
    (∀ key ∈ ["device_id", "device_class", "fw_version", "time_iso", "room"],
        Given Check.string (Object.get o key)) ∧
      Given Check.integer (Object.get o "time_ms") ∧
      Given Check.boolean (Object.get o "time_valid") ∧
      (∀ key ∈ ["boot_id", "seq"], (Object.get o key).all Check.integer = true) ∧
      ∀ key ∈ ["warmed_up", "replayed"], (Object.get o key).all Check.boolean = true := by
  simp only [sensorSchema, Check.allOf, List.all_cons, List.all_nil, Bool.and_eq_true] at h
  obtain ⟨hbase, -, hprops, hrequired, -⟩ := h
  obtain ⟨o', heq, hstrings, hms, hvalid⟩ := of_baseSchema hbase
  cases heq
  simp only [properties_object, List.all_cons, List.all_nil, Bool.and_eq_true] at hprops
  simp only [Check.required, List.all_cons, List.all_nil, Bool.and_eq_true] at hrequired
  obtain ⟨hroom, hboot, hseq, hwarmed, hreplayed, -⟩ := hprops
  obtain ⟨hroom', -⟩ := hrequired
  simp only [List.forall_mem_cons] at hstrings ⊢
  obtain ⟨hid, hclass, hversion, hiso, -⟩ := hstrings
  exact ⟨⟨hid, hclass, hversion, hiso, ⟨hroom, hroom'⟩, List.forall_mem_nil _⟩, hms, hvalid,
    ⟨all_of_allOf hboot (by simp), all_of_allOf hseq (by simp), List.forall_mem_nil _⟩,
    ⟨hwarmed, hreplayed, List.forall_mem_nil _⟩⟩

lemma of_statusSchema {o : Object F} (h : statusSchema (.object o) = true) :
    (∀ key ∈ ["device_id", "device_class", "fw_version", "time_iso", "ip"],
        Given Check.string (Object.get o key)) ∧
      (∀ key ∈ ["rssi", "time_ms"], Given Check.integer (Object.get o key)) ∧
      Given Check.boolean (Object.get o "time_valid") ∧
      (∀ key ∈ ["uptime", "free_mem", "queued", "dropped_total", "samples_failed_total",
        "mqtt_connects_total", "sensor_read_failures_total"],
        (Object.get o key).all Check.integer = true) ∧
      ∀ key ∈ ["ssid", "reset_reason"], (Object.get o key).all Check.string = true := by
  simp only [statusSchema, Check.allOf, List.all_cons, List.all_nil, Bool.and_eq_true] at h
  obtain ⟨hbase, -, hprops, hrequired, -⟩ := h
  obtain ⟨o', heq, hstrings, hms, hvalid⟩ := of_baseSchema hbase
  cases heq
  simp only [properties_object, List.all_cons, List.all_nil, Bool.and_eq_true] at hprops
  simp only [Check.required, List.all_cons, List.all_nil, Bool.and_eq_true] at hrequired
  obtain ⟨hip, hrssi, hup, hmem, hssid, hqueued, hdropped, hfailed, hconnects, hreads, hreason,
    -⟩ := hprops
  obtain ⟨hip', hrssi', -⟩ := hrequired
  simp only [List.forall_mem_cons] at hstrings ⊢
  obtain ⟨hid, hclass, hversion, hiso, -⟩ := hstrings
  exact ⟨⟨hid, hclass, hversion, hiso, ⟨hip, hip'⟩, List.forall_mem_nil _⟩,
    ⟨⟨hrssi, hrssi'⟩, hms, List.forall_mem_nil _⟩, hvalid,
    ⟨hup, hmem, hqueued, hdropped, hfailed, hconnects, hreads, List.forall_mem_nil _⟩,
    ⟨hssid, hreason, List.forall_mem_nil _⟩⟩

/-! ### When a message deserializes -/

section Messages

open FromValue

lemma isSome_bind_iff {α β : Type} {x : Option α} {f : α → Option β} {p : Prop}
    (h : ∀ a, (f a).isSome = true ↔ p) : (x >>= f).isSome = true ↔ x.isSome = true ∧ p := by
  cases x with
  | none => simp
  | some a => simpa using h a

lemma isSome_bind_pure {α β : Type} {x : Option α} {f : α → β} :
    (x >>= fun a => pure (f a)).isSome = true ↔ x.isSome = true := by
  cases x with
  | none => exact Iff.rfl
  | some a => exact iff_of_true rfl rfl

variable (field : String → Option (Value F))

lemma SensorData.isSome_fromFields :
    (SensorData.fromFields field).isSome = true ↔
      (required f64 (field "temp_c")).isSome = true ∧
      (required f64 (field "rel_hum_perc")).isSome = true ∧
      (required f64 (field "pressure_hpa")).isSome = true ∧
      (required f64 (field "gas_ohm")).isSome = true ∧
      (required f64 (field "iaq_score")).isSome = true ∧
      (required string (field "iaq_text")).isSome = true ∧
      (required f64 (field "dew_point_c")).isSome = true ∧
      (required f64 (field "heat_index_c")).isSome = true ∧
      (required f64 (field "altitude_m")).isSome = true := by
  unfold SensorData.fromFields
  iterate 8 refine isSome_bind_iff fun _ => ?_
  exact isSome_bind_pure

lemma SensorMessage.isSome_fromFields :
    (SensorMessage.fromFields field).isSome = true ↔
      (required string (field "device_id")).isSome = true ∧
      (required string (field "room")).isSome = true ∧
      (required string (field "device_class")).isSome = true ∧
      (required string (field "fw_version")).isSome = true ∧
      (required i64 (field "time_ms")).isSome = true ∧
      (required string (field "time_iso")).isSome = true ∧
      (required bool (field "time_valid")).isSome = true ∧
      (orDefault (option u32) none (field "boot_id")).isSome = true ∧
      (orDefault (option u32) none (field "seq")).isSome = true ∧
      (orDefault (option bool) none (field "warmed_up")).isSome = true ∧
      (orDefault bool false (field "replayed")).isSome = true ∧
      (required SensorData.fromValue (field "data")).isSome = true := by
  unfold SensorMessage.fromFields
  iterate 11 refine isSome_bind_iff fun _ => ?_
  exact isSome_bind_pure

omit [F64 F] in
lemma StatusMessage.isSome_fromFields :
    (StatusMessage.fromFields field).isSome = true ↔
      (required string (field "device_id")).isSome = true ∧
      (required string (field "device_class")).isSome = true ∧
      (required string (field "fw_version")).isSome = true ∧
      (required string (field "ip")).isSome = true ∧
      (required i64 (field "rssi")).isSome = true ∧
      (required i64 (field "time_ms")).isSome = true ∧
      (required string (field "time_iso")).isSome = true ∧
      (required bool (field "time_valid")).isSome = true ∧
      (required i64 (field "uptime")).isSome = true ∧
      (required i64 (field "free_mem")).isSome = true ∧
      (required string (field "ssid")).isSome = true ∧
      (orDefault (option i64) none (field "queued")).isSome = true ∧
      (orDefault (option i64) none (field "dropped_total")).isSome = true ∧
      (orDefault (option i64) none (field "samples_failed_total")).isSome = true ∧
      (orDefault (option i64) none (field "mqtt_connects_total")).isSome = true ∧
      (orDefault (option i64) none (field "sensor_read_failures_total")).isSome = true ∧
      (orDefault (option string) none (field "reset_reason")).isSome = true := by
  unfold StatusMessage.fromFields
  iterate 16 refine isSome_bind_iff fun _ => ?_
  exact isSome_bind_pure

end Messages

/-! ### The two descriptions -/

lemma isSome_f64 {w : Option (Value F)} (h : ∃ n, w = some (.number n)) :
    (FromValue.required (FromValue.f64 (F := F)) w).isSome = true := by
  obtain ⟨n, rfl⟩ := h
  rfl

/-- The data of a transformed payload deserializes. -/
lemma isSome_sensorData {fs : Formulas F} {r : Transform.Readings F} {data data' : Object F}
    (hread : Transform.readReadings data = .ok r)
    (hstore : Transform.storeDerived fs r data = .ok data') :
    (SensorData.fromValue (.object data')).isSome = true := by
  have hraw := Transform.of_readReadings hread
  obtain ⟨hnumbers, htext, hother⟩ := Transform.of_storeDerived hstore
  simp only [List.forall_mem_cons] at hraw hnumbers hother
  obtain ⟨htemp, hhum, -, hgas, -⟩ := hraw
  obtain ⟨hdew, hheat, hscore, hpressure, haltitude, -⟩ := hnumbers
  obtain ⟨htemp', hhum', hgas', -⟩ := hother
  refine (SensorData.isSome_fromFields (Object.get data')).mpr ?_
  exact ⟨isSome_f64 (htemp' ▸ htemp), isSome_f64 (hhum' ▸ hhum), isSome_f64 ⟨_, hpressure⟩,
    isSome_f64 (hgas' ▸ hgas), isSome_f64 ⟨_, hscore⟩, isSome_string htext, isSome_f64 ⟨_, hdew⟩,
    isSome_f64 ⟨_, hheat⟩, isSome_f64 ⟨_, haltitude⟩⟩

lemma isSome_sensorMessage {o : Object F} (hschema : sensorSchema (.object o) = true) {w : Value F}
    (h : Transform.transformSensorPayload Transform.formulas (.object o) = .ok w) :
    (SensorMessage.fromValue w).isSome = true ↔ IntegersFit .sensor (.object o) := by
  obtain ⟨o', data, r, data', rfl, -, hread, hstore, hdata, hfield⟩ :=
    Transform.of_transformSensorPayload h
  obtain ⟨hstrings, hms, hvalid, hintegers, hbooleans⟩ := of_sensorSchema hschema
  have hstring : ∀ key ∈ ["device_id", "device_class", "fw_version", "time_iso", "room"],
      ∃ s, Object.get o' key = some (.string s) := by
    intro key hkey
    obtain ⟨hall, hsome⟩ := hstrings key hkey
    have hne : key ≠ "data" := fun heq => absurd (heq ▸ hkey) (by decide)
    have hmem : key ∈ Transform.sensorStrings :=
      (show ["device_id", "device_class", "fw_version", "time_iso", "room"] ⊆
        Transform.sensorStrings by decide) hkey
    rw [hfield key hne, if_pos hmem]
    exact exists_string hall hsome
  have hsame : ∀ key ∈ ["time_ms", "time_valid", "boot_id", "seq", "warmed_up", "replayed"],
      Object.get o' key = Object.get o key := by
    intro key hkey
    have hne : key ≠ "data" := fun heq => absurd (heq ▸ hkey) (by decide)
    have hnot : key ∉ Transform.sensorStrings :=
      (show ∀ k ∈ ["time_ms", "time_valid", "boot_id", "seq", "warmed_up", "replayed"],
        k ∉ Transform.sensorStrings by decide) key hkey
    rw [hfield key hne, if_neg hnot]
  simp only [List.forall_mem_cons] at hstring hsame hintegers hbooleans
  obtain ⟨⟨_, hid⟩, ⟨_, hclass⟩, ⟨_, hversion⟩, ⟨_, hiso⟩, ⟨_, hroom⟩, -⟩ := hstring
  obtain ⟨hms', hvalid', hboot', hseq', hwarmed', hreplayed', -⟩ := hsame
  obtain ⟨hboot, hseq, -⟩ := hintegers
  obtain ⟨hwarmed, hreplayed, -⟩ := hbooleans
  have hdata : (FromValue.required SensorData.fromValue (Object.get o' "data")).isSome = true := by
    rw [hdata]
    exact isSome_sensorData hread hstore
  show (SensorMessage.fromFields (Object.get o')).isSome = true ↔ _
  rw [SensorMessage.isSome_fromFields, hms', hvalid', hboot', hseq', hwarmed', hreplayed',
    isSome_required_i64 hms.1 hms.2, isSome_optional isSome_u32_iff hboot,
    isSome_optional isSome_u32_iff hseq]
  simp only [IntegersFit, MessageType.i64Fields, MessageType.u32Fields, List.forall_mem_cons]
  constructor
  · rintro ⟨-, -, -, -, hfitsMs, -, -, hfitsBoot, hfitsSeq, -⟩
    exact ⟨⟨hfitsMs, List.forall_mem_nil _⟩, hfitsBoot, hfitsSeq, List.forall_mem_nil _⟩
  · rintro ⟨⟨hfitsMs, -⟩, hfitsBoot, hfitsSeq, -⟩
    exact ⟨isSome_string hid, isSome_string hroom, isSome_string hclass, isSome_string hversion,
      hfitsMs, isSome_string hiso, isSome_bool hvalid.1 hvalid.2, hfitsBoot, hfitsSeq,
      isSome_optBool hwarmed, isSome_defaultBool hreplayed, hdata⟩

lemma isSome_statusMessage {o : Object F} (hschema : statusSchema (.object o) = true) :
    (StatusMessage.fromValue (Transform.transformStatusPayload (.object o))).isSome = true ↔
      IntegersFit .status (.object o) := by
  obtain ⟨o', heq, hfield⟩ := Transform.transformStatusPayload_object o
  obtain ⟨hstrings, hintegers, hvalid, hoptional, htexts⟩ := of_statusSchema hschema
  have hstring : ∀ key ∈ ["device_id", "device_class", "fw_version", "time_iso", "ip"],
      (FromValue.required FromValue.string (Object.get o' key)).isSome = true := by
    intro key hkey
    obtain ⟨hall, hsome⟩ := hstrings key hkey
    have hmem : key ∈ Transform.statusStrings :=
      (show ["device_id", "device_class", "fw_version", "time_iso", "ip"] ⊆
        Transform.statusStrings by decide) hkey
    rw [hfield]
    exact isSome_statusString hmem hall hsome
  have hsame : ∀ key ∈ ["rssi", "time_ms", "time_valid", "queued", "dropped_total",
      "samples_failed_total", "mqtt_connects_total", "sensor_read_failures_total",
      "reset_reason"], Object.get o' key = Object.get o key := by
    intro key hkey
    rw [hfield]
    simp only [List.mem_cons, List.not_mem_nil, or_false] at hkey
    rcases hkey with rfl | rfl | rfl | rfl | rfl | rfl | rfl | rfl | rfl <;>
      exact statusField_eq_self (by decide) rfl _
  simp only [List.forall_mem_cons] at hstring hsame hintegers hoptional htexts
  obtain ⟨hid, hclass, hversion, hiso, hip, -⟩ := hstring
  obtain ⟨hrssi', hms', hvalid', hqueued', hdropped', hfailed', hconnects', hreads',
    hreason', -⟩ := hsame
  obtain ⟨hrssi, hms, -⟩ := hintegers
  obtain ⟨hup, hmem, hqueued, hdropped, hfailed, hconnects, hreads, -⟩ := hoptional
  obtain ⟨hssid, hreason, -⟩ := htexts
  have hup' := (hfield "uptime").trans (statusField_filled (.inl rfl) _)
  have hmem' := (hfield "free_mem").trans (statusField_filled (.inr rfl) _)
  rw [heq]
  show (StatusMessage.fromFields (Object.get o')).isSome = true ↔ _
  rw [StatusMessage.isSome_fromFields, hrssi', hms', hvalid', hqueued', hdropped', hfailed',
    hconnects', hreads', hup', hmem', hfield "ssid", hreason',
    isSome_required_i64 hrssi.1 hrssi.2, isSome_required_i64 hms.1 hms.2, isSome_filled_i64 hup,
    isSome_filled_i64 hmem, isSome_optional isSome_i64_iff hqueued,
    isSome_optional isSome_i64_iff hdropped, isSome_optional isSome_i64_iff hfailed,
    isSome_optional isSome_i64_iff hconnects, isSome_optional isSome_i64_iff hreads]
  simp only [IntegersFit, MessageType.i64Fields, MessageType.u32Fields, List.forall_mem_cons]
  constructor
  · rintro ⟨-, -, -, -, fitsRssi, fitsMs, -, -, fitsUp, fitsMem, -, fitsQueued, fitsDropped,
      fitsFailed, fitsConnects, fitsReads, -⟩
    exact ⟨⟨fitsRssi, fitsMs, fitsUp, fitsMem, fitsQueued, fitsDropped, fitsFailed, fitsConnects,
      fitsReads, List.forall_mem_nil _⟩, List.forall_mem_nil _⟩
  · rintro ⟨⟨fitsRssi, fitsMs, fitsUp, fitsMem, fitsQueued, fitsDropped, fitsFailed, fitsConnects,
      fitsReads, -⟩, -⟩
    exact ⟨hid, hclass, hversion, hip, fitsRssi, fitsMs, hiso, isSome_bool hvalid.1 hvalid.2,
      fitsUp, fitsMem, isSome_ssid hssid, fitsQueued, fitsDropped, fitsFailed, fitsConnects,
      fitsReads, isSome_optString hreason⟩

/-! ### The routes of a configuration -/

lemma exists_deserialize_iff {route : Route F} {topic : String} {v : Value F} :
    (∃ msg, route.deserialize topic v = .ok msg) ↔
      match route.messageType with
      | .sensor => (SensorMessage.fromValue v).isSome = true
      | .status => (StatusMessage.fromValue v).isSome = true := by
  unfold Route.deserialize
  cases route.messageType with
  | sensor =>
    dsimp only
    cases SensorMessage.fromValue v with
    | none => exact iff_of_false nofun nofun
    | some msg => exact iff_of_true ⟨_, rfl⟩ rfl
  | status =>
    dsimp only
    cases StatusMessage.fromValue v with
    | none => exact iff_of_false nofun nofun
    | some msg => exact iff_of_true ⟨_, rfl⟩ rfl

/-- A payload that its raw schema accepts and that transforms deserializes if and only if its
integers are literals in the ranges of their fields. -/
theorem deserializes_iff_integersFit {topicRoutes : List (String × String)} {r : Router F}
    (hr : buildRouter topicRoutes = .ok r) {topic : String} {route : Route F}
    (hroute : r.findRoute topic = some route) {payload payload' : Value F}
    (hschema : route.schema payload = true)
    (htransform : transformPayload route.messageType payload = .ok payload') :
    (∃ msg, route.deserialize topic payload' = .ok msg) ↔
      IntegersFit route.messageType payload := by
  have hof := (of_buildRouter hr).2 route (List.mem_of_find?_eq_some hroute)
  rw [hof] at hschema
  rw [exists_deserialize_iff]
  cases htype : route.messageType with
  | sensor =>
    rw [htype] at hschema htransform
    obtain ⟨o, rfl, -⟩ := of_baseSchema (of_allOf hschema (by simp))
    exact isSome_sensorMessage hschema htransform
  | status =>
    rw [htype] at hschema htransform
    obtain ⟨o, rfl, -⟩ := of_baseSchema (of_allOf hschema (by simp))
    cases htransform
    exact isSome_statusMessage hschema

/-- A status with a given time. -/
def statusAt (timeMs : Number ℤ) : Value ℤ :=
  .object [("device_id", .string "dev-1"), ("device_class", .string "bme680"),
    ("fw_version", .string "1.0"), ("time_ms", .number timeMs),
    ("time_iso", .string "2026-01-01T00:00:00Z"), ("time_valid", .bool true),
    ("ip", .string "192.168.1.42"), ("rssi", .number (.negInt (-65)))]

lemma findRoute_status :
    Router.findRoute ⟨[statusRoute], true⟩ "smarthome/dev-1/status" = some statusRoute :=
  List.find?_cons_of_pos (by decide +kernel)

theorem deserializes_of_literalTime :
    ∃ msg, statusRoute.deserialize "smarthome/dev-1/status"
      (Transform.transformStatusPayload (statusAt (.posInt 5))) = .ok msg := by
  have hr : buildRouter [("STATUS", "smarthome/+/status")] = .ok ⟨[statusRoute], true⟩ := rfl
  have hschema : statusRoute.schema (statusAt (.posInt 5)) = true := by decide +kernel
  exact (deserializes_iff_integersFit hr findRoute_status hschema rfl).mpr (by decide +kernel)

/-- A time without a fraction that is spelled with one, and one past the range of the field. -/
theorem not_deserializes_of_time :
    buildRouter [("STATUS", "smarthome/+/status")] = .ok ⟨[statusRoute], true⟩ ∧
      Router.findRoute ⟨[statusRoute], true⟩ "smarthome/dev-1/status" = some statusRoute ∧
      ∀ n ∈ [Number.float 5, .posInt 9223372036854775808],
        statusRoute.schema (statusAt n) = true ∧
        ∃ payload', transformPayload .status (statusAt n) = .ok payload' ∧
          ∀ msg, statusRoute.deserialize "smarthome/dev-1/status" payload' ≠ .ok msg := by
  refine ⟨rfl, findRoute_status, ?_⟩
  have hnone : ∀ n ∈ [Number.float 5, .posInt 9223372036854775808],
      (StatusMessage.fromValue (Transform.transformStatusPayload (statusAt n))).isSome = false := by
    simp only [List.forall_mem_cons]
    exact ⟨by decide +kernel, by decide +kernel, List.forall_mem_nil _⟩
  have hschema : ∀ n ∈ [Number.float 5, .posInt 9223372036854775808],
      statusRoute.schema (statusAt n) = true := by
    simp only [List.forall_mem_cons]
    exact ⟨by decide +kernel, by decide +kernel, List.forall_mem_nil _⟩
  intro n hn
  refine ⟨hschema n hn, _, rfl, fun msg hmsg => ?_⟩
  have hsome := exists_deserialize_iff.mp ⟨msg, hmsg⟩
  exact Bool.false_ne_true ((hnone n hn).symm.trans hsome)

end SmarthomeIngest
