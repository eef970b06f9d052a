import SmarthomeIngest.Message.Messages
import SmarthomeIngest.Message.Topic

/-!
# Routes

A route is a topic pattern with a message type and its schema. The router takes the first route that
matches the topic. Whether a text is an RFC 3339 time is asked of `chrono`.
-/

namespace SmarthomeIngest

structure Route (F : Type) where
  messageType : MessageType
  pattern : TopicPattern
  schema : Check F

variable {F : Type} [F64 F]

namespace Route

def new (messageType : MessageType) (schema : Check F) (topicPattern : String) :
    Except String (Route F) :=
  (TopicPattern.new topicPattern).map fun pattern => { messageType, pattern, schema }

def «matches» (r : Route F) (topic : String) : Bool := r.pattern.matches topic

section

variable (rfc3339 : String → Bool)

def validateTimeIsoRfc3339 (payload : Value F) : Except String Unit :=
  match (payload.get "time_iso").bind Value.asStr with
  | some s => if rfc3339 s then .ok () else .error ("time_iso not RFC3339: " ++ s)
  | none   => .ok ()

def enforceTopicPayloadDeviceMatch (r : Route F) (topic : String) (payload : Value F) :
    Except String Unit :=
  match r.pattern.deviceIdFromTopic topic with
  | none => .error "Failed to extract device_id from topic"
  | some topicDev =>
    match (payload.get "device_id").bind Value.asStr with
    | none => .error "Failed to extract device_id from payload"
    | some payloadDev =>
      if topicDev ≠ payloadDev then
        .error ("device_id mismatch: topic has '" ++ topicDev ++ "', payload has '" ++ payloadDev ++
          "'")
      else .ok ()

def validateRaw (r : Route F) (topic : String) (payload : Value F)
    (enforceTopicDeviceMatch : Bool) : Except String MessageType := do
  if !r.schema payload then throw "schema validation failed"
  validateTimeIsoRfc3339 rfc3339 payload
  if enforceTopicDeviceMatch then r.enforceTopicPayloadDeviceMatch topic payload
  return r.messageType

end

def deserialize (r : Route F) (topic : String) (payload : Value F) :
    Except String (HandledMessage F) :=
  match r.messageType with
  | .sensor =>
    match SensorMessage.fromValue payload with
    | some msg => .ok (.sensor msg)
    | none     => .error ("sensor: deserialization failed (topic=" ++ topic ++ ")")
  | .status =>
    match StatusMessage.fromValue payload with
    | some msg => .ok (.status msg)
    | none     => .error ("status: deserialization failed (topic=" ++ topic ++ ")")

end Route

structure Router (F : Type) where
  routes : List (Route F)
  strict : Bool

namespace Router

def findRoute (r : Router F) (topic : String) : Option (Route F) :=
  r.routes.find? (·.matches topic)

def messageTypeForTopic (r : Router F) (topic : String) : Option MessageType :=
  (r.findRoute topic).map (·.messageType)

def validateRaw (r : Router F) (rfc3339 : String → Bool) (topic : String) (payload : Value F)
    (enforceTopicDeviceMatch : Bool) : Except String (Option MessageType) :=
  match r.findRoute topic with
  | some route => (route.validateRaw rfc3339 topic payload enforceTopicDeviceMatch).map some
  | none => if r.strict then .error ("No route registered for topic: " ++ topic) else .ok none

def deserialize (r : Router F) (topic : String) (payload : Value F) :
    Except String (Option (HandledMessage F)) :=
  match r.findRoute topic with
  | some route => (route.deserialize topic payload).map some
  | none => if r.strict then .error ("No route registered for topic: " ++ topic) else .ok none

end Router

/-- The schema `build_router` gives a route. -/
def MessageType.schema : MessageType → Check F
  | .sensor => sensorSchema
  | .status => statusSchema

/-- The message type of a configuration key, if it is one of a route. -/
def messageTypeOfKey : String → Option MessageType
  | "SENSOR" => some .sensor
  | "STATUS" => some .status
  -- `DLQ`, and names that are not known
  | _ => none

/-- The loop of `build_router`, over the routes in the order of the map. -/
def buildRoutes : List (String × String) → Except String (List (Route F))
  | [] => .ok []
  | (key, topic) :: rest =>
    match messageTypeOfKey key with
    | none => buildRoutes rest
    | some messageType => do
      let route ← Route.new messageType messageType.schema topic
      let routes ← buildRoutes rest
      return route :: routes

def buildRouter (topicRoutes : List (String × String)) : Except String (Router F) :=
  (buildRoutes topicRoutes).map fun routes => { routes, strict := true }

lemma exists_of_bind_eq_ok {ε α β : Type} {x : Except ε α} {f : α → Except ε β} {b : β}
    (h : x >>= f = .ok b) : ∃ a, x = .ok a ∧ f a = .ok b := by
  cases x with
  | error e => cases h
  | ok a => exact ⟨a, rfl, h⟩

lemma exists_of_map_eq_ok {ε α β : Type} {x : Except ε α} {f : α → β} {b : β}
    (h : x.map f = .ok b) : ∃ a, x = .ok a ∧ f a = b := by
  cases x with
  | error e => cases h
  | ok a =>
    cases h
    exact ⟨a, rfl, rfl⟩

lemma of_mapError_eq_ok {ε ε' α : Type} {x : Except ε α} {f : ε → ε'} {a : α}
    (h : x.mapError f = .ok a) : x = .ok a := by
  cases x with
  | error e => cases h
  | ok a =>
    cases h
    rfl

omit [F64 F] in
/-- What a valid payload has passed. -/
lemma of_validateRaw {rfc3339 : String → Bool} {route : Route F} {topic : String}
    {payload : Value F} {enforce : Bool} {messageType : MessageType}
    (h : route.validateRaw rfc3339 topic payload enforce = .ok messageType) :
    messageType = route.messageType ∧ route.schema payload = true ∧
      Route.validateTimeIsoRfc3339 rfc3339 payload = .ok () ∧
      (enforce = true → route.enforceTopicPayloadDeviceMatch topic payload = .ok ()) := by
  unfold Route.validateRaw at h
  cases hschema : route.schema payload with
  | false =>
    rw [hschema] at h
    cases h
  | true =>
    rw [hschema] at h
    obtain ⟨_, htime, h⟩ := exists_of_bind_eq_ok h
    cases enforce with
    | false =>
      cases h
      exact ⟨rfl, rfl, htime, nofun⟩
    | true =>
      obtain ⟨_, henforce, h⟩ := exists_of_bind_eq_ok h
      cases h
      exact ⟨rfl, rfl, htime, fun _ => henforce⟩

lemma schema_of_buildRoutes {topicRoutes : List (String × String)} {routes : List (Route F)}
    (h : buildRoutes topicRoutes = .ok routes) :
    ∀ route ∈ routes, route.schema = route.messageType.schema := by
  induction topicRoutes generalizing routes with
  | nil =>
    cases h
    exact nofun
  | cons entry rest ih =>
    rw [buildRoutes] at h
    split at h
    · exact ih h
    · obtain ⟨route, hroute, h⟩ := exists_of_bind_eq_ok h
      obtain ⟨routes, hroutes, h⟩ := exists_of_bind_eq_ok h
      obtain ⟨pattern, -, rfl⟩ := exists_of_map_eq_ok hroute
      cases h
      exact List.forall_mem_cons.mpr ⟨rfl, ih hroutes⟩

/-- The router of `main` is strict, and every route has the schema of its message type. -/
lemma of_buildRouter {topicRoutes : List (String × String)} {r : Router F}
    (h : buildRouter topicRoutes = .ok r) :
    r.strict = true ∧ ∀ route ∈ r.routes, route.schema = route.messageType.schema := by
  obtain ⟨routes, hroutes, rfl⟩ := exists_of_map_eq_ok h
  exact ⟨rfl, schema_of_buildRoutes hroutes⟩

/-- The route of the status messages in a home. -/
def statusRoute : Route ℤ :=
  ⟨.status, ⟨[.lit "smarthome", .one, .lit "status"], some 1⟩, statusSchema⟩

end SmarthomeIngest
