import SmarthomeIngest.Pipeline.Stages

/-!
# Every message has one outcome

What should become of a message is its `verdict`: the checks one after the other, up to the first
that rejects it. The pipeline follows it: an accepted message is in the log and nowhere else, a
rejected one is published once, with the reason of that check and the payload as it came.
-/

namespace SmarthomeIngest

variable {F : Type}

/-! ### Verdicts -/

/-- The reason for the dead letter queue. -/
def DecodeError.dlqReason : DecodeError → String
  | .tooLarge size => "payload too large: " ++ toString size ++ " bytes"
  | .utf8          => "payload not utf8"
  | .json _        => "payload not valid JSON"

/-- The text of a payload, where it has one. -/
def payloadText (payload : Bytes) : String := (Bytes.ofUtf8 payload).getD "<non-utf8>"

variable [F64 F]

/-- The message of a payload on a route. -/
def Route.accept (route : Route F) (out : Outside F) (enforceTopicDeviceMatch : Bool)
    (topic : String) (payload : Value F) : Except String (HandledMessage F) := do
  let messageType ← (route.validateRaw out.rfc3339 topic payload enforceTopicDeviceMatch).mapError
    ("raw validation failed: " ++ ·)
  let payload ← (transformPayload messageType payload).mapError ("transform failed: " ++ ·)
  let msg ← (route.deserialize topic payload).mapError
    ("post-transform deserialization failed: " ++ ·)
  msg.validateBusiness.mapError ("business validation failed: " ++ ·)
  return msg

/-- The message of a payload, or the first reason against it. -/
def accept (out : Outside F) (router : Router F) (enforceTopicDeviceMatch : Bool) (topic : String)
    (payload : Bytes) : Except String (HandledMessage F) := do
  let payload ← (decodePayload out.fromStr payload).mapError DecodeError.dlqReason
  match router.findRoute topic with
  | none => throw ("raw validation failed: No route registered for topic: " ++ topic)
  | some route => route.accept out enforceTopicDeviceMatch topic payload

/-- The event that is logged for a message. -/
def persist (out : Outside F) (topic : String) (msg : HandledMessage F) :
    Except String WalEvent := do
  (out.appendDurable (walEvent out topic msg)).mapError AppendDurableError.dlqReason
  return walEvent out topic msg

/-- The event that is logged for a payload, or the first reason against it. -/
def verdict (out : Outside F) (router : Router F) (enforceTopicDeviceMatch : Bool) (topic : String)
    (payload : Bytes) : Except String WalEvent :=
  accept out router enforceTopicDeviceMatch topic payload >>= persist out topic

/-! ### States of a run -/

/-- A message nothing has been decided about. -/
structure Pending (topic : String) (payload : Bytes) (s : PipelineState F) : Prop where
  topic : s.ctx.topic = topic
  rawPayload : s.ctx.rawPayload = payload
  payloadForDlq : s.ctx.payloadForDlq = payloadText payload
  dlqReason : s.ctx.dlqReason = none
  ignoredReason : s.ctx.ignoredReason = none
  appended : s.appended = []
  published : s.published = []

/-- A message that is in the log. -/
structure Stored (event : WalEvent) (s : PipelineState F) : Prop where
  dlqReason : s.ctx.dlqReason = none
  ignoredReason : s.ctx.ignoredReason = none
  appended : s.appended = [(event, .ok ())]
  published : s.published = []

/-- A message that is to be published. -/
structure Rejected (topic : String) (payload : Bytes) (reason : String)
    (appended : List (WalEvent × Except AppendDurableError Unit)) (s : PipelineState F) : Prop where
  topic : s.ctx.topic = topic
  payloadForDlq : s.ctx.payloadForDlq = payloadText payload
  dlqReason : s.ctx.dlqReason = some reason
  ignoredReason : s.ctx.ignoredReason = none
  appended : s.appended = appended
  published : s.published = []

/-- The state behind the last stage: only an accepted message was given to the log. -/
def Follows (out : Outside F) (topic : String) (payload : Bytes)
    (accepted : Except String (HandledMessage F)) (s : PipelineState F) : Prop :=
  match accepted with
  | .error reason => Rejected topic payload reason [] s
  | .ok msg =>
    let event := walEvent out topic msg
    match out.appendDurable event with
    | .ok ()     => Stored event s
    | .error err => Rejected topic payload err.dlqReason [(event, .error err)] s

variable {topic : String} {payload : Bytes} {s : PipelineState F}

namespace Pending

omit [F64 F]

lemma new (topic : String) (payload : Bytes) :
    Pending topic payload (.new topic payload : PipelineState F) := by
  have htext : (PipelineContext.new topic payload : PipelineContext F).payloadForDlq =
      payloadText payload := by
    rw [PipelineContext.payloadForDlq, payloadText]
    dsimp only [PipelineContext.new]
    cases Bytes.ofUtf8 payload <;> rfl
  exact ⟨rfl, rfl, htext, rfl, rfl, rfl, rfl⟩

lemma setPayloadJson (h : Pending topic payload s) (v : Value F) :
    Pending topic payload (s.setPayloadJson v) :=
  ⟨h.topic, h.rawPayload, h.payloadForDlq, h.dlqReason, h.ignoredReason, h.appended, h.published⟩

lemma setHandledMessage (h : Pending topic payload s) (msg : HandledMessage F) :
    Pending topic payload (s.setHandledMessage msg) :=
  ⟨h.topic, h.rawPayload, h.payloadForDlq, h.dlqReason, h.ignoredReason, h.appended, h.published⟩

lemma setPayloadUtf8 (h : Pending topic payload s) {payloadStr : String}
    (hutf8 : Bytes.ofUtf8 payload = some payloadStr) :
    Pending topic payload (s.setPayloadUtf8 payloadStr) := by
  have htext : payloadStr = payloadText payload := by rw [payloadText, hutf8, Option.getD_some]
  exact ⟨h.topic, h.rawPayload, htext, h.dlqReason, h.ignoredReason, h.appended, h.published⟩

lemma update_cached (h : Pending topic payload s) (cached : List (SensorMessage F)) :
    Pending topic payload { s with cached := cached } :=
  ⟨h.topic, h.rawPayload, h.payloadForDlq, h.dlqReason, h.ignoredReason, h.appended, h.published⟩

lemma markDlq_of_appended (h : Pending topic payload s) (reason : String)
    (appended : List (WalEvent × Except AppendDurableError Unit)) :
    Rejected topic payload reason appended ({ s with appended }.markDlq reason) := by
  have hmark : { s with appended }.markDlq reason =
      { s with ctx := { s.ctx with dlqReason := some reason }, appended } := by
    rw [PipelineState.markDlq, PipelineContext.markDlq, h.dlqReason]
    rfl
  rw [hmark]
  exact ⟨h.topic, h.payloadForDlq, rfl, h.ignoredReason, rfl, h.published⟩

lemma markDlq (h : Pending topic payload s) (reason : String) :
    Rejected topic payload reason [] (s.markDlq reason) := by
  have hself : { s with appended := [] } = s := by rw [← h.appended]
  have hrejected := h.markDlq_of_appended reason []
  rwa [hself] at hrejected

end Pending

/-! ### Stages follow the verdict -/

open PipelineRunner

section Rules

variable {stages : List (PipelineStage F)} {out : Outside F} {router : Router F} {enforce : Bool}

omit [F64 F] in
lemma getPayloadJson_of_eq {ctx : PipelineContext F} {v : Value F} (h : ctx.payloadJson = some v) :
    ctx.getPayloadJson = .ok v := by
  rw [PipelineContext.getPayloadJson, h]

omit [F64 F] in
lemma getHandledMessage_of_eq {ctx : PipelineContext F} {msg : HandledMessage F}
    (h : ctx.handledMessage = some msg) : ctx.getHandledMessage = .ok msg := by
  rw [PipelineContext.getHandledMessage, h]

lemma follows_decode (hs : Pending topic payload s)
    {rest : Value F → Except String (HandledMessage F)}
    (hrest : ∀ v s, Pending topic payload s → s.ctx.payloadJson = some v →
      Follows out topic payload (rest v) (runStages stages s)) :
    Follows out topic payload
      ((decodePayload out.fromStr payload).mapError DecodeError.dlqReason >>= rest)
      (runStages (decodeStage out :: stages) s) := by
  rw [runStages, decodeStage]
  dsimp only
  rw [hs.rawPayload]
  cases hdecode : decodePayload out.fromStr payload with
  | ok v => exact hrest v _ (hs.setPayloadJson v) rfl
  | error err =>
    cases err with
    | tooLarge size => exact hs.markDlq _
    | utf8 => exact hs.markDlq _
    | json payloadStr =>
      have hutf8 : Bytes.ofUtf8 payload = some payloadStr := by
        unfold decodePayload at hdecode
        split at hdecode
        · cases hdecode
        · split at hdecode
          · cases hdecode
          · rename_i payloadStr' hutf8
            split at hdecode
            · cases hdecode
            · cases hdecode
              exact hutf8
      exact (hs.setPayloadUtf8 hutf8).markDlq _

/-- No route: the router is strict, so the message is rejected. -/
lemma follows_validateRaw_of_none (hstrict : router.strict = true)
    (hroute : router.findRoute topic = none) (hs : Pending topic payload s) {v : Value F}
    (hv : s.ctx.payloadJson = some v) :
    Follows out topic payload
      (.error ("raw validation failed: No route registered for topic: " ++ topic))
      (runStages (validateRawStage out router enforce :: stages) s) := by
  rw [runStages, validateRawStage]
  dsimp only
  rw [getPayloadJson_of_eq hv]
  dsimp only
  rw [hs.topic, Router.validateRaw, hroute, hstrict]
  exact hs.markDlq _

lemma follows_validateRaw {route : Route F} (hroute : router.findRoute topic = some route)
    (hs : Pending topic payload s) {v : Value F} (hv : s.ctx.payloadJson = some v)
    {rest : MessageType → Except String (HandledMessage F)}
    (hrest : Follows out topic payload (rest route.messageType) (runStages stages s)) :
    Follows out topic payload
      ((route.validateRaw out.rfc3339 topic v enforce).mapError ("raw validation failed: " ++ ·) >>=
        rest)
      (runStages (validateRawStage out router enforce :: stages) s) := by
  rw [runStages, validateRawStage]
  dsimp only
  rw [getPayloadJson_of_eq hv]
  dsimp only
  rw [hs.topic, Router.validateRaw, hroute]
  dsimp only
  cases hraw : route.validateRaw out.rfc3339 topic v enforce with
  | error err => exact hs.markDlq _
  | ok messageType =>
    rw [(of_validateRaw hraw).1]
    exact hrest

lemma follows_transform {route : Route F} (hroute : router.findRoute topic = some route)
    (hs : Pending topic payload s) {v : Value F} (hv : s.ctx.payloadJson = some v)
    {rest : HandledMessage F → Except String (HandledMessage F)}
    (hrest : ∀ msg s, Pending topic payload s → s.ctx.handledMessage = some msg →
      Follows out topic payload (rest msg) (runStages stages s)) :
    Follows out topic payload
      ((transformPayload route.messageType v).mapError ("transform failed: " ++ ·) >>= fun v =>
        (route.deserialize topic v).mapError ("post-transform deserialization failed: " ++ ·) >>=
          rest)
      (runStages (transformStage router :: stages) s) := by
  rw [runStages, transformStage]
  dsimp only
  rw [hs.topic, Router.messageTypeForTopic, hroute, Option.map_some, getPayloadJson_of_eq hv]
  dsimp only
  cases transformPayload route.messageType v with
  | error err => exact hs.markDlq _
  | ok v =>
    show Follows out topic payload (Except.mapError _ (route.deserialize topic v) >>= rest) _
    dsimp only
    rw [(hs.setPayloadJson v).topic, Router.deserialize, hroute]
    dsimp only
    cases hmsg : route.deserialize topic v with
    | error err => exact (hs.setPayloadJson v).markDlq _
    | ok msg => exact hrest msg _ ((hs.setPayloadJson v).setHandledMessage msg) rfl

lemma follows_validateBusiness (hs : Pending topic payload s) {msg : HandledMessage F}
    (hmsg : s.ctx.handledMessage = some msg) {rest : Except String (HandledMessage F)}
    (hrest : Follows out topic payload rest (runStages stages s)) :
    Follows out topic payload
      (msg.validateBusiness.mapError ("business validation failed: " ++ ·) >>= fun _ => rest)
      (runStages (validateBusinessStage :: stages) s) := by
  rw [runStages, validateBusinessStage]
  dsimp only
  rw [getHandledMessage_of_eq hmsg]
  dsimp only
  cases msg.validateBusiness with
  | error err => exact hs.markDlq _
  | ok _ => exact hrest

lemma follows_cacheUpdate (hs : Pending topic payload s) {msg : HandledMessage F}
    (hmsg : s.ctx.handledMessage = some msg) {rest : Except String (HandledMessage F)}
    (hrest : ∀ s, Pending topic payload s → s.ctx.handledMessage = some msg →
      Follows out topic payload rest (runStages stages s)) :
    Follows out topic payload rest (runStages (cacheUpdateStage :: stages) s) := by
  rw [runStages, cacheUpdateStage]
  dsimp only
  rw [getHandledMessage_of_eq hmsg]
  cases msg with
  | sensor msg => exact hrest _ (hs.update_cached _) hmsg
  | status msg => exact hrest s hs hmsg

lemma follows_persist (hs : Pending topic payload s) {msg : HandledMessage F}
    (hmsg : s.ctx.handledMessage = some msg) :
    Follows out topic payload (.ok msg) (runStages [persistStage out, observeStage] s) := by
  unfold Follows
  rw [runStages, persistStage]
  dsimp only
  rw [getHandledMessage_of_eq hmsg]
  dsimp only
  rw [hs.topic, hs.appended, List.nil_append]
  cases out.appendDurable (walEvent out topic msg) with
  | ok _ =>
    dsimp only
    rw [runStages, observeStage]
    dsimp only
    rw [getHandledMessage_of_eq hmsg]
    exact ⟨hs.dlqReason, hs.ignoredReason, rfl, hs.published⟩
  | error err => exact hs.markDlq_of_appended _ _

end Rules

/-- The stages of `main` do what the checks say. -/
lemma follows_runStages {router : Router F} (hstrict : router.strict = true) (out : Outside F)
    (enforce : Bool) (dlqTopic topic : String) (payload : Bytes) :
    Follows out topic payload (accept out router enforce topic payload)
      (runStages (mainPipeline out router enforce dlqTopic).stages (.new topic payload)) := by
  rw [accept]
  refine follows_decode (.new topic payload) fun v s hs hv => ?_
  cases hroute : router.findRoute topic with
  | none => exact follows_validateRaw_of_none hstrict hroute hs hv
  | some route =>
    show Follows out topic payload (route.accept out enforce topic v) _
    rw [Route.accept]
    refine follows_validateRaw hroute hs hv ?_
    refine follows_transform hroute hs hv fun msg s hs hmsg => ?_
    refine follows_validateBusiness hs hmsg ?_
    refine follows_cacheUpdate hs hmsg fun s hs hmsg => ?_
    exact follows_persist hs hmsg

omit [F64 F] in
lemma run_of_stored {runner : PipelineRunner F} {event : WalEvent}
    (h : Stored event (runStages runner.stages s)) : runner.run s = runStages runner.stages s := by
  rw [PipelineRunner.run, PipelineContext.shouldPublishDlq, h.dlqReason]
  rfl

/-- A rejected message is published, once. -/
lemma run_of_rejected {out : Outside F} {router : Router F} {enforce : Bool} (dlqTopic : String)
    {reason : String} {appended : List (WalEvent × Except AppendDurableError Unit)}
    (h : Rejected topic payload reason appended
      (runStages (mainPipeline out router enforce dlqTopic).stages s)) :
    (mainPipeline out router enforce dlqTopic).run s =
      { runStages (mainPipeline out router enforce dlqTopic).stages s with
        published := [⟨dlqTopic, topic, payloadText payload, reason⟩] } := by
  rw [PipelineRunner.run, PipelineContext.shouldPublishDlq, h.dlqReason]
  show (PipelineStage.run (dlqPublishStage out dlqTopic) _).2 = _
  rw [dlqPublishStage]
  dsimp only
  rw [h.dlqReason]
  dsimp only
  rw [h.published, h.topic, h.payloadForDlq, List.nil_append]
  cases out.publish _ <;> rfl

/-- The final state of a run. -/
lemma run_of_accept (out : Outside F) {topicRoutes : List (String × String)} {router : Router F}
    (hrouter : buildRouter topicRoutes = .ok router) (enforce : Bool) (dlqTopic topic : String)
    (payload : Bytes) :
    let s := (mainPipeline out router enforce dlqTopic).run (.new topic payload)
    s.ctx.ignoredReason = none ∧
      match accept out router enforce topic payload with
      | .error reason =>
        s.appended = [] ∧ s.ctx.dlqReason = some reason ∧
          s.published = [⟨dlqTopic, topic, payloadText payload, reason⟩]
      | .ok msg =>
        let result := out.appendDurable (walEvent out topic msg)
        s.appended = [(walEvent out topic msg, result)] ∧
          match result with
          | .ok () => s.ctx.dlqReason = none ∧ s.published = []
          | .error err =>
            s.ctx.dlqReason = some err.dlqReason ∧
              s.published = [⟨dlqTopic, topic, payloadText payload, err.dlqReason⟩] := by
  have hfollows := follows_runStages (of_buildRouter hrouter).1 out enforce dlqTopic topic payload
  cases haccept : accept out router enforce topic payload with
  | error reason =>
    rw [haccept] at hfollows
    have hrejected : Rejected topic payload reason [] _ := hfollows
    rw [run_of_rejected dlqTopic hrejected]
    exact ⟨hrejected.ignoredReason, hrejected.appended, hrejected.dlqReason, rfl⟩
  | ok msg =>
    rw [haccept] at hfollows
    unfold Follows at hfollows
    dsimp only at hfollows ⊢
    cases happend : out.appendDurable (walEvent out topic msg) with
    | ok _ =>
      rw [happend] at hfollows
      have hstored : Stored (walEvent out topic msg) _ := hfollows
      rw [run_of_stored hstored]
      exact ⟨hstored.ignoredReason, hstored.appended, hstored.dlqReason, hstored.published⟩
    | error err =>
      rw [happend] at hfollows
      have hrejected : Rejected topic payload err.dlqReason [(_, .error err)] _ := hfollows
      rw [run_of_rejected dlqTopic hrejected]
      exact ⟨hrejected.ignoredReason, hrejected.appended, hrejected.dlqReason, rfl⟩

/-- Every message has exactly one outcome: it is in the log, or it is published once, with the first
reason against it and the payload as it came. -/
theorem outcome_of_run (out : Outside F) {topicRoutes : List (String × String)} {router : Router F}
    (hrouter : buildRouter topicRoutes = .ok router) (enforce : Bool)
    (dlqTopic topic : String) (payload : Bytes) :
    let s := (mainPipeline out router enforce dlqTopic).run (.new topic payload)
    s.ctx.ignoredReason = none ∧
      match verdict out router enforce topic payload with
      | .ok event =>
        s.appended = [(event, .ok ())] ∧ s.ctx.dlqReason = none ∧ s.published = []
      | .error reason =>
        (∀ append ∈ s.appended, append.2 ≠ .ok ()) ∧ s.ctx.dlqReason = some reason ∧
          s.published = [⟨dlqTopic, topic, payloadText payload, reason⟩] := by
  have hrun := run_of_accept out hrouter enforce dlqTopic topic payload
  rw [verdict]
  cases haccept : accept out router enforce topic payload with
  | error reason =>
    rw [haccept] at hrun
    obtain ⟨hignored, happended, hdlq, hpublished⟩ := hrun
    refine ⟨hignored, ?_, hdlq, hpublished⟩
    rw [happended]
    exact nofun
  | ok msg =>
    rw [haccept] at hrun
    dsimp only [bind, Except.bind]
    rw [persist]
    dsimp only at hrun
    cases happend : out.appendDurable (walEvent out topic msg) with
    | ok _ =>
      rw [happend] at hrun
      exact hrun
    | error err =>
      rw [happend] at hrun
      obtain ⟨hignored, happended, hdlq, hpublished⟩ := hrun
      refine ⟨hignored, ?_, hdlq, hpublished⟩
      rw [happended]
      intro append hmem
      rw [List.mem_singleton.mp hmem]
      exact nofun

def statusText : String :=
  "\x7b\"device_id\":\"dev-1\",\"device_class\":\"esp32\",\"fw_version\":\"1.0\",\"time_ms\":5," ++
    "\"time_iso\":\"2026-01-01T00:00:00Z\",\"time_valid\":true,\"ip\":\"10.0.0.7\",\"rssi\":-55\x7d"

def statusValue : Value ℤ :=
  .object [("device_id", .string "dev-1"), ("device_class", .string "esp32"),
    ("fw_version", .string "1.0"), ("time_ms", .number (.posInt 5)),
    ("time_iso", .string "2026-01-01T00:00:00Z"), ("time_valid", .bool true),
    ("ip", .string "10.0.0.7"), ("rssi", .number (.negInt (-55)))]

/-- The surroundings of one status message. -/
def statusOutside : Outside ℤ where
  fromStr s := if s = statusText then some statusValue else none
  rfc3339 s := s = "2026-01-01T00:00:00Z"
  nowMs := 9
  appendDurable _ := .ok ()
  publish _ := .ok ()

def statusRouter : Router ℤ := ⟨[statusRoute], true⟩

/-- The line of the message, with the uptime and the free memory filled in. -/
def statusLine : String :=
  "device_status,device_class=esp32,device_id=dev-1 firmware_version=\"1.0\",free_mem=0i," ++
    "ip_address=\"10.0.0.7\",rssi=-55i,ssid=\"\",time_valid=true,uptime=0i 5"

def statusEvent : WalEvent := ⟨"smarthome/dev-1/status", 9, statusLine⟩

/-- The status message is in the log, and nothing is published. -/
theorem outcome_of_status :
    let s := (mainPipeline statusOutside statusRouter true "dlq").run
      (.new "smarthome/dev-1/status" (Bytes.utf8 statusText))
    s.appended = [(statusEvent, .ok ())] ∧ s.published = [] := by
  have hrouter : buildRouter [("STATUS", "smarthome/+/status")] = .ok statusRouter := rfl
  have hverdict : verdict statusOutside statusRouter true "smarthome/dev-1/status"
      (Bytes.utf8 statusText) = .ok statusEvent := by
    decide +kernel
  have houtcome := outcome_of_run statusOutside hrouter true "dlq" "smarthome/dev-1/status"
    (Bytes.utf8 statusText)
  rw [hverdict] at houtcome
  exact ⟨houtcome.2.1, houtcome.2.2.2⟩

end SmarthomeIngest
