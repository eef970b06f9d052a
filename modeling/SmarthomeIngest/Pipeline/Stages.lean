import SmarthomeIngest.Message.Router
import SmarthomeIngest.Message.Transform
import SmarthomeIngest.Pipeline.Runner
import SmarthomeIngest.Sink.Influx

/-!
# The stages of the pipeline

The stages in the order of `main`: decode, validate raw, transform, validate business, update the
cache, persist, observe; and the failure stage, which publishes to the dead letter queue.
-/

namespace SmarthomeIngest

variable {F : Type}

/-- What the stages call outside of this program, or wait for: the JSON parser, the RFC 3339 parser,
the clock, the log and the DLQ publisher. -/
structure Outside (F : Type) where
  fromStr : String → Option (Value F)
  rfc3339 : String → Bool
  nowMs : Int64
  appendDurable : WalEvent → Except AppendDurableError Unit
  publish : DlqMessage → Except String Unit

/-! ### Decode -/

def maxPayloadBytes : ℕ := 64 * 1024

inductive DecodeError where
  | tooLarge (size : ℕ)
  | utf8
  | json (payloadStr : String)

def decodePayload (fromStr : String → Option (Value F)) (payload : Bytes) :
    Except DecodeError (Value F) :=
  if maxPayloadBytes < payload.length then .error (.tooLarge payload.length)
  else
    match Bytes.ofUtf8 payload with
    | none => .error .utf8
    | some payloadStr =>
      match fromStr payloadStr with
      | some v => .ok v
      | none   => .error (.json payloadStr)

def decodeStage (out : Outside F) : PipelineStage F where
  name := "decode"
  run s :=
    match decodePayload out.fromStr s.ctx.rawPayload with
    | .ok payloadJson => (.ok .continue, s.setPayloadJson payloadJson)
    | .error (.tooLarge size) =>
      (.ok .stop, s.markDlq ("payload too large: " ++ toString size ++ " bytes"))
    | .error .utf8 => (.ok .stop, s.markDlq "payload not utf8")
    | .error (.json payloadStr) =>
      (.ok .stop, (s.setPayloadUtf8 payloadStr).markDlq "payload not valid JSON")

variable [F64 F]

/-! ### Validate raw -/

def validateRawStage (out : Outside F) (router : Router F) (enforceTopicDeviceMatch : Bool) :
    PipelineStage F where
  name := "validate_raw"
  run s :=
    match s.ctx.getPayloadJson with
    | .error err => (.error err, s)
    | .ok payload =>
      match router.validateRaw out.rfc3339 s.ctx.topic payload enforceTopicDeviceMatch with
      | .ok (some _) => (.ok .continue, s)
      | .ok none     => (.ok .stop, s.markIgnored "no matching route")
      | .error err   => (.ok .stop, s.markDlq ("raw validation failed: " ++ err))

/-! ### Transform -/

/-- The transformation for a message type. A status payload is always transformed. -/
def transformPayload (messageType : MessageType) (payload : Value F) : Except String (Value F) :=
  match messageType with
  | .sensor => Transform.transformSensorPayload Transform.formulas payload
  | .status => .ok (Transform.transformStatusPayload payload)

/-- A payload is changed in place. The one of a failed transformation is not modelled: nothing looks
at it again. -/
def transformStage (router : Router F) : PipelineStage F where
  name := "transform"
  run s :=
    match router.messageTypeForTopic s.ctx.topic with
    | none => (.ok .stop, s.markIgnored "no matching route")
    | some messageType =>
      match s.ctx.getPayloadJson with
      | .error err => (.error err, s)
      | .ok payload =>
        match transformPayload messageType payload with
        | .error err => (.ok .stop, s.markDlq ("transform failed: " ++ err))
        | .ok payload =>
          let s := s.setPayloadJson payload
          match router.deserialize s.ctx.topic payload with
          | .ok (some msg) => (.ok .continue, s.setHandledMessage msg)
          | .ok none => (.ok .stop, s.markIgnored "no matching route")
          | .error err =>
            (.ok .stop, s.markDlq ("post-transform deserialization failed: " ++ err))

/-! ### Validate business -/

def validateBusinessStage : PipelineStage F where
  name := "validate_business"
  run s :=
    match s.ctx.getHandledMessage with
    | .error err => (.error err, s)
    | .ok handled =>
      match handled.validateBusiness with
      | .ok ()     => (.ok .continue, s)
      | .error err => (.ok .stop, s.markDlq ("business validation failed: " ++ err))

/-! ### Update the cache -/

def cacheUpdateStage : PipelineStage F where
  name := "cache_update"
  run s :=
    match s.ctx.getHandledMessage with
    | .error err         => (.error err, s)
    | .ok (.sensor msg)  => (.ok .continue, { s with cached := s.cached ++ [msg] })
    | .ok (.status _)    => (.ok .continue, s)

/-! ### Persist -/

/-- The event of a message. -/
def walEvent (out : Outside F) (topic : String) (msg : HandledMessage F) : WalEvent :=
  { topic, tsMs := out.nowMs, payload := msg.encode }

/-- The reason for the dead letter queue. -/
def AppendDurableError.dlqReason : AppendDurableError → String
  | .full _       => "wal queue full"
  | .closed _     => "wal queue closed"
  | .durability _ => "wal durability ack failed"

def persistStage (out : Outside F) : PipelineStage F where
  name := "persist"
  run s :=
    match s.ctx.getHandledMessage with
    | .error err => (.error err, s)
    | .ok message =>
      let event := walEvent out s.ctx.topic message
      let result := out.appendDurable event
      let s := { s with appended := s.appended ++ [(event, result)] }
      match result with
      | .ok ()     => (.ok .continue, s)
      | .error err => (.ok .stop, s.markDlq err.dlqReason)

/-! ### Observe -/

/-- Only metrics are written. -/
def observeStage : PipelineStage F where
  name := "observe"
  run s :=
    match s.ctx.getHandledMessage with
    | .error err => (.error err, s)
    | .ok _      => (.ok .continue, s)

/-! ### Publish to the dead letter queue -/

/-- Whether the publication succeeds is only logged. -/
def dlqPublishStage (out : Outside F) (dlqTopic : String) : PipelineStage F where
  name := "dlq_publish"
  run s :=
    match s.ctx.dlqReason with
    | none => (.ok .stop, s)
    | some reason =>
      let msg : DlqMessage := ⟨dlqTopic, s.ctx.topic, s.ctx.payloadForDlq, reason⟩
      let s := { s with published := s.published ++ [msg] }
      match out.publish msg with
      | .ok ()   => (.ok .stop, s)
      | .error _ => (.ok .stop, s)

/-- The pipeline `main` builds. -/
def mainPipeline (out : Outside F) (router : Router F) (enforceTopicDeviceMatch : Bool)
    (dlqTopic : String) : PipelineRunner F where
  stages := [decodeStage out, validateRawStage out router enforceTopicDeviceMatch,
    transformStage router, validateBusinessStage, cacheUpdateStage, persistStage out, observeStage]
  failureStage := some (dlqPublishStage out dlqTopic)

end SmarthomeIngest
