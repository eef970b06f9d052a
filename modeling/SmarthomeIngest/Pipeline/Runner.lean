import SmarthomeIngest.Message.Messages
import SmarthomeIngest.Wal.Types

/-!
# The pipeline runner

The context of one message, what the pipeline does to the rest of the system, and the loop over the
stages.
-/

namespace SmarthomeIngest

variable {F : Type}

/-! ### The context -/

structure PipelineContext (F : Type) where
  topic : String
  rawPayload : Bytes
  payloadUtf8 : Option String
  payloadJson : Option (Value F)
  handledMessage : Option (HandledMessage F)
  dlqReason : Option String
  ignoredReason : Option String

namespace PipelineContext

def new (topic : String) (rawPayload : Bytes) : PipelineContext F :=
  ⟨topic, rawPayload, none, none, none, none, none⟩

def setPayloadUtf8 (ctx : PipelineContext F) (payload : String) : PipelineContext F :=
  { ctx with payloadUtf8 := some payload }

def setPayloadJson (ctx : PipelineContext F) (payload : Value F) : PipelineContext F :=
  { ctx with payloadJson := some payload }

def setHandledMessage (ctx : PipelineContext F) (msg : HandledMessage F) : PipelineContext F :=
  { ctx with handledMessage := some msg }

def getPayloadJson (ctx : PipelineContext F) : Except String (Value F) :=
  match ctx.payloadJson with
  | some payload => .ok payload
  | none         => .error "payload_json missing in pipeline context"

def getHandledMessage (ctx : PipelineContext F) : Except String (HandledMessage F) :=
  match ctx.handledMessage with
  | some msg => .ok msg
  | none     => .error "handled_message missing in pipeline context"

/-- The first reason stays. -/
def markDlq (ctx : PipelineContext F) (reason : String) : PipelineContext F :=
  if ctx.dlqReason.isNone then { ctx with dlqReason := some reason } else ctx

def shouldPublishDlq (ctx : PipelineContext F) : Bool := ctx.dlqReason.isSome

def markIgnored (ctx : PipelineContext F) (reason : String) : PipelineContext F :=
  if ctx.ignoredReason.isNone then { ctx with ignoredReason := some reason } else ctx

def payloadForDlq (ctx : PipelineContext F) : String :=
  match ctx.payloadUtf8 with
  | some payload => payload
  | none =>
    match Bytes.ofUtf8 ctx.rawPayload with
    | some s => s
    | none   => "<non-utf8>"

end PipelineContext

/-! ### Stages -/

/-- A call of `publish` of the DLQ publisher. -/
structure DlqMessage where
  dlqTopic : String
  topic : String
  payload : String
  reason : String
  deriving DecidableEq

/-- The context, and the calls made so far: updates of the cache, appends with their results, and
publications. -/
structure PipelineState (F : Type) where
  ctx : PipelineContext F
  cached : List (SensorMessage F)
  appended : List (WalEvent × Except AppendDurableError Unit)
  published : List DlqMessage

namespace PipelineState

def new (topic : String) (rawPayload : Bytes) : PipelineState F :=
  ⟨.new topic rawPayload, [], [], []⟩

def setPayloadUtf8 (s : PipelineState F) (payload : String) : PipelineState F :=
  { s with ctx := s.ctx.setPayloadUtf8 payload }

def setPayloadJson (s : PipelineState F) (payload : Value F) : PipelineState F :=
  { s with ctx := s.ctx.setPayloadJson payload }

def setHandledMessage (s : PipelineState F) (msg : HandledMessage F) : PipelineState F :=
  { s with ctx := s.ctx.setHandledMessage msg }

def markDlq (s : PipelineState F) (reason : String) : PipelineState F :=
  { s with ctx := s.ctx.markDlq reason }

def markIgnored (s : PipelineState F) (reason : String) : PipelineState F :=
  { s with ctx := s.ctx.markIgnored reason }

end PipelineState

inductive StageFlow where
  | continue
  | stop
  deriving DecidableEq

/-- A stage; what it did before it failed is kept. -/
structure PipelineStage (F : Type) where
  name : String
  run : PipelineState F → Except String StageFlow × PipelineState F

/-! ### The runner -/

structure PipelineRunner (F : Type) where
  stages : List (PipelineStage F)
  failureStage : Option (PipelineStage F)

namespace PipelineRunner

/-- The loop over the stages. -/
def runStages : List (PipelineStage F) → PipelineState F → PipelineState F
  | [], s => s
  | stage :: stages, s =>
    match stage.run s with
    | (.ok .continue, s) => runStages stages s
    | (.ok .stop, s)     => s
    | (.error err, s)    => s.markDlq ("stage '" ++ stage.name ++ "' failed: " ++ err)

def run (runner : PipelineRunner F) (s : PipelineState F) : PipelineState F :=
  let s := runStages runner.stages s
  if s.ctx.shouldPublishDlq then
    match runner.failureStage with
    | some stage => (stage.run s).2
    | none       => s
  else s

end PipelineRunner

end SmarthomeIngest
