import SmarthomeIngest.Message.DeviceId
import SmarthomeIngest.Message.Transformed
import SmarthomeIngest.Pipeline.Stages

/-!
# The device of a topic and the device of a message

With the check of `validate_raw` the payload names the device of its topic. The transformation then
trims the name, so the message has the same name only if there is nothing to trim.
-/

namespace SmarthomeIngest

variable {F : Type}

def HandledMessage.deviceId : HandledMessage F → String
  | .sensor msg => msg.deviceId
  | .status msg => msg.deviceId

/-! ### The device of a message -/

/-- The check passes if the payload names the device of the topic. -/
lemma of_enforceTopicPayloadDeviceMatch {route : Route F} {topic : String} {payload : Value F}
    (h : route.enforceTopicPayloadDeviceMatch topic payload = .ok ()) :
    ∃ device, route.pattern.deviceIdFromTopic topic = some device ∧
      payload.get "device_id" = some (.string device) := by
  unfold Route.enforceTopicPayloadDeviceMatch at h
  cases htopic : route.pattern.deviceIdFromTopic topic with
  | none =>
    rw [htopic] at h
    cases h
  | some topicDev =>
    rw [htopic] at h
    cases hpayload : (payload.get "device_id").bind Value.asStr with
    | none =>
      rw [hpayload] at h
      cases h
    | some payloadDev =>
      rw [hpayload] at h
      dsimp only at h
      split_ifs at h with hne
      obtain ⟨v, hget, hstr⟩ := Option.bind_eq_some_iff.mp hpayload
      refine ⟨topicDev, rfl, ?_⟩
      rw [hget]
      cases v with
      | string s =>
        cases hstr
        rw [not_not.mp hne]
      | _ => cases hstr

variable [F64 F]

/-- The transformation trims the device id. -/
lemma deviceId_of_transformPayload {messageType : MessageType} {payload payload' : Value F}
    {device : String} (hget : payload.get "device_id" = some (.string device))
    (h : transformPayload messageType payload = .ok payload') :
    ∃ o', payload' = .object o' ∧
      Object.get o' "device_id" = some (.string (Text.trim device)) := by
  cases payload with
  | object o =>
    have hget : Object.get o "device_id" = some (.string device) := hget
    cases messageType with
    | sensor =>
      obtain ⟨o', data, r, data', rfl, -, -, -, -, hfield⟩ := Transform.of_transformSensorPayload h
      refine ⟨o', rfl, ?_⟩
      rw [hfield "device_id" (by decide), if_pos (by decide), hget]
      rfl
    | status =>
      obtain ⟨o', heq, hfield⟩ := Transform.transformStatusPayload_object o
      cases h
      refine ⟨o', heq, ?_⟩
      rw [hfield, hget, Transform.statusField, if_pos (by decide)]
      rfl
  | _ => cases hget

/-- A message has the device id of its payload. -/
lemma deviceId_of_deserialize {route : Route F} {topic device : String} {o : Object F}
    {msg : HandledMessage F} (hget : Object.get o "device_id" = some (.string device))
    (h : route.deserialize topic (.object o) = .ok msg) : msg.deviceId = device := by
  unfold Route.deserialize at h
  split at h
  · cases hsensor : SensorMessage.fromValue (.object o) with
    | none =>
      rw [hsensor] at h
      cases h
    | some sensor =>
      rw [hsensor] at h
      cases h
      have hfields : SensorMessage.fromFields (Object.get o) = some sensor := hsensor
      unfold SensorMessage.fromFields at hfields
      obtain ⟨id, hid, hfields⟩ := Option.bind_eq_some_iff.mp hfields
      iterate 11 obtain ⟨_, -, hfields⟩ := Option.bind_eq_some_iff.mp hfields
      cases hfields
      rw [hget] at hid
      cases hid
      rfl
  · cases hstatus : StatusMessage.fromValue (.object o) with
    | none =>
      rw [hstatus] at h
      cases h
    | some status =>
      rw [hstatus] at h
      cases h
      have hfields : StatusMessage.fromFields (Object.get o) = some status := hstatus
      unfold StatusMessage.fromFields at hfields
      obtain ⟨id, hid, hfields⟩ := Option.bind_eq_some_iff.mp hfields
      iterate 16 obtain ⟨_, -, hfields⟩ := Option.bind_eq_some_iff.mp hfields
      cases hfields
      rw [hget] at hid
      cases hid
      rfl

/-- With the check on, the message of a payload that gets through names the part of the topic at the
first `+` if and only if that part has no white space around it. -/
theorem deviceId_eq_iff {messageType : MessageType} {schema : Check F} {raw : String}
    {route : Route F} (hroute : Route.new messageType schema raw = .ok route)
    (hplus : .one ∈ route.pattern.segments) {rfc3339 : String → Bool} {topic : String}
    {payload payload' : Value F} {msg : HandledMessage F}
    (hvalid : route.validateRaw rfc3339 topic payload true = .ok messageType)
    (htransform : transformPayload messageType payload = .ok payload')
    (hmsg : route.deserialize topic payload' = .ok msg) :
    ∃ part, (∀ s, route.pattern.AtFirstPlus topic s ↔ s = part) ∧
      (msg.deviceId = part ↔ Text.trim part = part) := by
  obtain ⟨p, hp, rfl⟩ := exists_of_map_eq_ok hroute
  obtain ⟨device, htopic, hpayload⟩ :=
    of_enforceTopicPayloadDeviceMatch ((of_validateRaw hvalid).2.2.2 rfl)
  obtain ⟨o', rfl, hget⟩ := deviceId_of_transformPayload hpayload htransform
  refine ⟨device, fun s => ?_, ?_⟩
  · have htopic : p.deviceIdFromTopic topic = some device := htopic
    rw [TopicPattern.atFirstPlus_iff hp hplus, htopic, Option.some_inj]
    exact eq_comm
  · rw [deviceId_of_deserialize hget hmsg]

/-- A status of a device. -/
def statusOf (device : String) : Value ℤ :=
  .object [("device_id", .string device), ("device_class", .string "bme680"),
    ("fw_version", .string "1.0"), ("time_ms", .number (.posInt 5)),
    ("time_iso", .string "2026-01-01T00:00:00Z"), ("time_valid", .bool true),
    ("ip", .string "192.168.1.42"), ("rssi", .number (.negInt (-65)))]

/-- The message of that status. -/
def statusMessageOf (device : String) : StatusMessage where
  deviceId := device
  deviceClass := "bme680"
  fwVersion := "1.0"
  ip := "192.168.1.42"
  rssi := -65
  timeMs := 5
  timeIso := "2026-01-01T00:00:00Z"
  timeValid := true
  uptime := 0
  freeMem := 0
  ssid := ""
  queued := none
  droppedTotal := none
  samplesFailedTotal := none
  mqttConnectsTotal := none
  sensorReadFailuresTotal := none
  resetReason := none

theorem deviceId_eq_of_trimmedTopic :
    ∃ payload' part, transformPayload .status (statusOf "dev-1") = .ok payload' ∧
      statusRoute.deserialize "smarthome/dev-1/status" payload' =
        .ok (.status (statusMessageOf "dev-1")) ∧
      statusRoute.pattern.AtFirstPlus "smarthome/dev-1/status" part ∧
      (statusMessageOf "dev-1").deviceId = part := by
  have hroute : Route.new .status statusSchema "smarthome/+/status" = .ok statusRoute := rfl
  have hpattern : TopicPattern.new "smarthome/+/status" = .ok statusRoute.pattern := rfl
  have hvalid : statusRoute.validateRaw (fun _ => true) "smarthome/dev-1/status"
      (statusOf "dev-1") true = .ok .status := by decide +kernel
  have hmsg : statusRoute.deserialize "smarthome/dev-1/status"
      (Transform.transformStatusPayload (statusOf "dev-1")) =
        .ok (.status (statusMessageOf "dev-1")) := rfl
  have hdevice : statusRoute.pattern.AtFirstPlus "smarthome/dev-1/status" "dev-1" :=
    (TopicPattern.atFirstPlus_iff hpattern (by decide)).mpr (by decide +kernel)
  obtain ⟨part, hpart, hiff⟩ := deviceId_eq_iff hroute (by decide) hvalid rfl hmsg
  obtain rfl := (hpart "dev-1").mp hdevice
  exact ⟨_, _, rfl, hmsg, hdevice, hiff.mpr (by decide +kernel)⟩

/-- A blank in front of the name passes the check, and is gone behind it. -/
theorem deviceId_ne_of_blankInTopic :
    statusRoute.validateRaw (fun _ => true) "smarthome/ dev-1/status" (statusOf " dev-1") true =
        .ok .status ∧
      ∃ payload', transformPayload .status (statusOf " dev-1") = .ok payload' ∧
        statusRoute.deserialize "smarthome/ dev-1/status" payload' =
          .ok (.status (statusMessageOf "dev-1")) ∧
        statusRoute.pattern.AtFirstPlus "smarthome/ dev-1/status" " dev-1" ∧
        (statusMessageOf "dev-1").deviceId ≠ " dev-1" := by
  have hpattern : TopicPattern.new "smarthome/+/status" = .ok statusRoute.pattern := rfl
  have hdevice : statusRoute.pattern.AtFirstPlus "smarthome/ dev-1/status" " dev-1" :=
    (TopicPattern.atFirstPlus_iff hpattern (by decide)).mpr (by decide +kernel)
  exact ⟨by decide +kernel, _, rfl, rfl, hdevice, by decide⟩

end SmarthomeIngest
