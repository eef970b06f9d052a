import SmarthomeIngest.Cache.Concurrent
import SmarthomeIngest.Ingestion
import SmarthomeIngest.Pipeline.DerivedFields

/-!
# From jobs to the cache

The pipeline updates the cache with the sensor messages that are accepted. What the cache sends to
its subscribers are then these messages, each of them once, and what it holds is one of them, in
whatever order the calls of the workers come.
-/

namespace SmarthomeIngest

open Transition PipelineRunner

variable {F : Type}

/-! ### Definitions -/

/-- The messages for the cache. -/
def HandledMessage.sensors : HandledMessage F → List (SensorMessage F)
  | .sensor msg => [msg]
  | .status _   => []

def sensorsOf : Except String (HandledMessage F) → List (SensorMessage F)
  | .ok msg  => msg.sensors
  | .error _ => []

/-! ### Stages that leave the cache alone -/

/-- The stage does not update the cache. -/
def PipelineStage.KeepsCached (stage : PipelineStage F) : Prop :=
  ∀ s, (stage.run s).2.cached = s.cached

lemma cached_runStages {stages : List (PipelineStage F)}
    (h : ∀ stage ∈ stages, stage.KeepsCached) (s : PipelineState F) :
    (runStages stages s).cached = s.cached := by
  induction stages generalizing s with
  | nil => rfl
  | cons stage stages ih =>
    obtain ⟨hstage, hstages⟩ := List.forall_mem_cons.mp h
    have hkeeps := hstage s
    rw [runStages]
    split
    · next s' hrun =>
      rw [hrun] at hkeeps
      rw [ih hstages, hkeeps]
    · next s' hrun =>
      rw [hrun] at hkeeps
      exact hkeeps
    · next err s' hrun =>
      rw [hrun] at hkeeps
      exact hkeeps

lemma keepsCached_persistStage [F64 F] (out : Outside F) : (persistStage out).KeepsCached := by
  intro s
  simp only [persistStage]
  split
  · rfl
  · split <;> rfl

lemma keepsCached_observeStage : (observeStage : PipelineStage F).KeepsCached := by
  intro s
  simp only [observeStage]
  split <;> rfl

lemma keepsCached_dlqPublishStage (out : Outside F) (dlqTopic : String) :
    (dlqPublishStage out dlqTopic).KeepsCached := by
  intro s
  simp only [dlqPublishStage]
  split
  · rfl
  · split <;> rfl

/-! ### Up to the update -/

/-- A message that has not been given to the cache. -/
structure Uncached (topic : String) (s : PipelineState F) : Prop where
  topic : s.ctx.topic = topic
  cached : s.cached = []

section Rules

variable {stages : List (PipelineStage F)} {out : Outside F} {router : Router F} {enforce : Bool}
  {topic : String} {payload : Bytes} {s : PipelineState F}

lemma cached_decode (hs : Uncached topic s) (hraw : s.ctx.rawPayload = payload)
    {rest : Value F → Except String (HandledMessage F)}
    (hrest : ∀ v s, Uncached topic s → s.ctx.payloadJson = some v →
      (runStages stages s).cached = sensorsOf (rest v)) :
    (runStages (decodeStage out :: stages) s).cached =
      sensorsOf ((decodePayload out.fromStr payload).mapError DecodeError.dlqReason >>= rest) := by
  rw [runStages, decodeStage]
  dsimp only
  rw [hraw]
  cases decodePayload out.fromStr payload with
  | ok v => exact hrest v _ ⟨hs.topic, hs.cached⟩ rfl
  | error err => cases err <;> exact hs.cached

lemma cached_validateRaw_of_none (hstrict : router.strict = true)
    (hroute : router.findRoute topic = none) (hs : Uncached topic s) {v : Value F}
    (hv : s.ctx.payloadJson = some v) :
    (runStages (validateRawStage out router enforce :: stages) s).cached = [] := by
  rw [runStages, validateRawStage]
  dsimp only
  rw [getPayloadJson_of_eq hv]
  dsimp only
  rw [hs.topic, Router.validateRaw, hroute, hstrict]
  exact hs.cached

lemma cached_validateRaw {route : Route F} (hroute : router.findRoute topic = some route)
    (hs : Uncached topic s) {v : Value F} (hv : s.ctx.payloadJson = some v)
    {rest : MessageType → Except String (HandledMessage F)}
    (hrest : (runStages stages s).cached = sensorsOf (rest route.messageType)) :
    (runStages (validateRawStage out router enforce :: stages) s).cached =
      sensorsOf ((route.validateRaw out.rfc3339 topic v enforce).mapError
        ("raw validation failed: " ++ ·) >>= rest) := by
  rw [runStages, validateRawStage]
  dsimp only
  rw [getPayloadJson_of_eq hv]
  dsimp only
  rw [hs.topic, Router.validateRaw, hroute]
  dsimp only
  cases hraw : route.validateRaw out.rfc3339 topic v enforce with
  | error err => exact hs.cached
  | ok messageType =>
    rw [(of_validateRaw hraw).1]
    exact hrest

lemma cached_transform [F64 F] {route : Route F} (hroute : router.findRoute topic = some route)
    (hs : Uncached topic s) {v : Value F} (hv : s.ctx.payloadJson = some v)
    {rest : HandledMessage F → Except String (HandledMessage F)}
    (hrest : ∀ msg s, Uncached topic s → s.ctx.handledMessage = some msg →
      (runStages stages s).cached = sensorsOf (rest msg)) :
    (runStages (transformStage router :: stages) s).cached =
      sensorsOf ((transformPayload route.messageType v).mapError ("transform failed: " ++ ·) >>=
        fun v => (route.deserialize topic v).mapError
          ("post-transform deserialization failed: " ++ ·) >>= rest) := by
  rw [runStages, transformStage]
  dsimp only
  rw [hs.topic, Router.messageTypeForTopic, hroute, Option.map_some, getPayloadJson_of_eq hv]
  dsimp only
  cases transformPayload route.messageType v with
  | error err => exact hs.cached
  | ok v =>
    show _ = sensorsOf (Except.mapError _ (route.deserialize topic v) >>= rest)
    dsimp only
    have htopic : (s.setPayloadJson v).ctx.topic = topic := hs.topic
    rw [htopic, Router.deserialize, hroute]
    dsimp only
    cases route.deserialize topic v with
    | error err => exact hs.cached
    | ok msg => exact hrest msg _ ⟨hs.topic, hs.cached⟩ rfl

lemma cached_validateBusiness [F64 F] (hs : Uncached topic s) {msg : HandledMessage F}
    (hmsg : s.ctx.handledMessage = some msg) {rest : Except String (HandledMessage F)}
    (hrest : (runStages stages s).cached = sensorsOf rest) :
    (runStages (validateBusinessStage :: stages) s).cached =
      sensorsOf (msg.validateBusiness.mapError ("business validation failed: " ++ ·) >>=
        fun _ => rest) := by
  rw [runStages, validateBusinessStage]
  dsimp only
  rw [getHandledMessage_of_eq hmsg]
  dsimp only
  cases msg.validateBusiness with
  | error err => exact hs.cached
  | ok _ => exact hrest

/-- Behind the update no stage changes the cache again. -/
lemma cached_cacheUpdate (hs : Uncached topic s) {msg : HandledMessage F}
    (hmsg : s.ctx.handledMessage = some msg) (hstages : ∀ stage ∈ stages, stage.KeepsCached) :
    (runStages (cacheUpdateStage :: stages) s).cached = msg.sensors := by
  rw [runStages, cacheUpdateStage]
  dsimp only
  rw [getHandledMessage_of_eq hmsg]
  cases msg with
  | sensor msg =>
    rw [cached_runStages hstages]
    show s.cached ++ [msg] = [msg]
    rw [hs.cached, List.nil_append]
  | status msg =>
    rw [cached_runStages hstages, hs.cached]
    rfl

end Rules

/-- The pipeline updates the cache once for a sensor message that is accepted, whatever becomes of
the append, and else not at all. -/
lemma cached_run [F64 F] (out : Outside F) {topicRoutes : List (String × String)}
    {router : Router F} (hrouter : buildRouter topicRoutes = .ok router) (enforce : Bool)
    (dlqTopic topic : String) (payload : Bytes) :
    ((mainPipeline out router enforce dlqTopic).run (.new topic payload)).cached =
      sensorsOf (accept out router enforce topic payload) := by
  have hstages : (runStages (mainPipeline out router enforce dlqTopic).stages
      (.new topic payload)).cached = sensorsOf (accept out router enforce topic payload) := by
    rw [accept]
    refine cached_decode (s := .new topic payload) ⟨rfl, rfl⟩ rfl fun v s hs hv => ?_
    cases hroute : router.findRoute topic with
    | none => exact cached_validateRaw_of_none (of_buildRouter hrouter).1 hroute hs hv
    | some route =>
      show _ = sensorsOf (route.accept out enforce topic v)
      rw [Route.accept]
      refine cached_validateRaw hroute hs hv ?_
      refine cached_transform hroute hs hv fun msg s hs hmsg => ?_
      refine cached_validateBusiness hs hmsg ?_
      refine cached_cacheUpdate hs hmsg ?_
      rintro stage hstage
      rcases List.mem_pair.mp hstage with rfl | rfl
      · exact keepsCached_persistStage out
      · exact keepsCached_observeStage
  rw [PipelineRunner.run]
  split_ifs
  · exact (keepsCached_dlqPublishStage out dlqTopic _).trans hstages
  · exact hstages

/-! ### The calls -/

lemma eraseIdx_append_perm {α : Type*} {xs ys : List α} {i : ℕ} {x : α} (h : xs[i]? = some x) :
    (xs.eraseIdx i ++ (ys ++ [x])).Perm (xs ++ ys) := by
  obtain ⟨hlt, rfl⟩ := List.getElem?_eq_some_iff.mp h
  rw [← List.append_assoc]
  apply (List.perm_append_singleton _ _).trans
  exact (List.getElem_cons_eraseIdx_perm hlt).append_right ys

lemma append_singleton_perm {α : Type*} (xs ys : List α) (x : α) :
    (xs ++ [x] ++ ys).Perm (xs ++ ys ++ [x]) := by
  rw [List.append_assoc, List.append_assoc]
  exact List.perm_append_comm.append_left xs

/-- The message that the call which starts is for. -/
def CacheLabel.messages : CacheLabel F → List (SensorMessage F)
  | .readClock _ sensorMsg => [sensorMsg]
  | _ => []

/-- What a subscriber sees of an update, but for the clock reading. -/
def CacheEvent.shown (e : CacheEvent F) : String × SensorData F := (e.deviceId, e.value)

def SensorMessage.shown (msg : SensorMessage F) : String × SensorData F :=
  (normalizeDeviceId msg.deviceId, msg.data)

namespace CacheCalls

variable {s s' : CacheCalls F} {l : CacheLabel F} {ls : List (CacheLabel F)}

/-- The calls that have been started, those that have returned by their events. -/
def started (s : CacheCalls F) : List (CacheEvent F) :=
  s.waiting ++ (s.unsent ++ s.cache.events)

/-- What the map holds is from a call that has written to it. -/
def HoldsWritten (s : CacheCalls F) : Prop :=
  ∀ id v, s.cache.sensors.lookup id = some v →
    ∃ e ∈ s.unsent ++ s.cache.events, e.deviceId = id ∧ e.state = v

/-- A step loses no call and makes none up. -/
lemma started_of_step (h : s.step l = some s') :
    (s'.started.map CacheEvent.shown).Perm
      (s.started.map CacheEvent.shown ++ l.messages.map SensorMessage.shown) := by
  cases Rule.of_step h with
  | @readClock now sensorMsg =>
    have hmap : [sensorMsg].map SensorMessage.shown =
        [CacheState.eventOf now sensorMsg].map CacheEvent.shown := rfl
    rw [CacheLabel.messages, hmap, ← List.map_append]
    apply List.Perm.map
    exact append_singleton_perm _ _ _
  | @insert i order e hcall horder =>
    show List.Perm _ (s.started.map CacheEvent.shown ++ [])
    rw [List.append_nil]
    apply List.Perm.map
    refine List.Perm.trans ?_ (eraseIdx_append_perm hcall)
    exact (append_singleton_perm _ _ _).append_left _
  | @send i e hcall =>
    show List.Perm _ (s.started.map CacheEvent.shown ++ [])
    rw [List.append_nil]
    apply List.Perm.map
    exact (eraseIdx_append_perm hcall).append_left _

lemma started_of_exec (h : exec step s ls = some s') :
    (s'.started.map CacheEvent.shown).Perm
      (s.started.map CacheEvent.shown ++
        (ls.flatMap CacheLabel.messages).map SensorMessage.shown) := by
  induction ls generalizing s with
  | nil =>
    cases h
    simp
  | cons l ls ih =>
    obtain ⟨t, ht, h⟩ := Option.bind_eq_some_iff.mp h
    apply (ih h).trans
    rw [List.flatMap_cons, List.map_append, ← List.append_assoc]
    exact (started_of_step ht).append_right _

lemma HoldsWritten.step (hs : s.HoldsWritten) (h : s.step l = some s') : s'.HoldsWritten := by
  cases Rule.of_step h with
  | readClock => exact hs
  | @insert i order e hcall horder =>
    intro id v hlookup
    rcases CacheState.lookup_insertSensor hlookup with ⟨rfl, rfl⟩ | ⟨-, hlookup⟩
    · exact ⟨e, by simp, rfl, rfl⟩
    · obtain ⟨e', hmem, hstate⟩ := hs id v hlookup
      refine ⟨e', ?_, hstate⟩
      rcases List.mem_append.mp hmem with hmem | hmem
      · exact List.mem_append_left _ (List.mem_append_left _ hmem)
      · exact List.mem_append_right _ hmem
  | @send i e hcall =>
    intro id v hlookup
    obtain ⟨e', hmem, hstate⟩ := hs id v hlookup
    exact ⟨e', (eraseIdx_append_perm hcall).mem_iff.mpr hmem, hstate⟩

end CacheCalls

/-! ### The jobs behind the calls -/

/-- A run of the pipeline: the job, the time, and the answers of the log. -/
structure PipelineRun where
  job : IngestJob
  nowMs : Int64
  answer : WalEvent → Except AppendDurableError Unit

/-- The calls of `update_sensor` that a run makes. -/
def IngestionConfig.updates [F64 F] (cfg : IngestionConfig F) (run : PipelineRun) :
    List (SensorMessage F) :=
  (cfg.run run.job run.nowMs run.answer).cached

/-- When the calls that some runs of the pipeline have made are all over, in whatever order they
took the lock and sent their events, each accepted sensor message has been sent to the subscribers
once, and nothing else; and what the map holds at any time is from one of them. -/
theorem CacheCalls.cached_of_exec [F64 F] {cfg : IngestionConfig F}
    {topicRoutes : List (String × String)} (hrouter : buildRouter topicRoutes = .ok cfg.router)
    {runs : List PipelineRun} {ls : List (CacheLabel F)} {ttlMs bufferSize : ℕ} {s : CacheCalls F}
    (hcalls : (ls.flatMap CacheLabel.messages).Perm (runs.flatMap cfg.updates))
    (h : exec step (init ttlMs bufferSize) ls = some s) :
    (s.Finished → (s.cache.events.map CacheEvent.shown).Perm
      ((runs.flatMap fun run => sensorsOf (cfg.accept run.job)).map SensorMessage.shown)) ∧
    ∀ id v, s.cache.sensors.lookup id = some v → ∃ run ∈ runs, ∃ msg,
      cfg.accept run.job = .ok (.sensor msg) ∧ msg.shown = (id, v.value) := by
  have hupdates : ∀ run, cfg.updates run = sensorsOf (cfg.accept run.job) := fun run =>
    cached_run { cfg.out with nowMs := run.nowMs, appendDurable := run.answer } hrouter _ _ _ _
  have hflat : runs.flatMap cfg.updates = runs.flatMap fun run => sensorsOf (cfg.accept run.job) :=
    List.flatMap_congr fun run _ => hupdates run
  rw [hflat] at hcalls
  have hstarted : (s.started.map CacheEvent.shown).Perm
      ((runs.flatMap fun run => sensorsOf (cfg.accept run.job)).map SensorMessage.shown) :=
    (started_of_exec h).trans (hcalls.map _)
  constructor
  · rintro ⟨hwaiting, hunsent⟩
    rwa [started, hwaiting, hunsent] at hstarted
  · intro id v hlookup
    have hwritten : s.HoldsWritten := by
      refine Reach.invariant (P := HoldsWritten) ?_ ?_ (Reachable.of_exec h)
      · intro id v h
        cases h
      · exact fun s l s' hs _ hstep => hs.step hstep
    obtain ⟨e, hmem, rfl, rfl⟩ := hwritten id v hlookup
    have hshown : e.shown ∈ s.started.map CacheEvent.shown :=
      List.mem_map_of_mem (List.mem_append_right _ hmem)
    obtain ⟨msg, hmsg, heq⟩ := List.mem_map.mp (hstarted.mem_iff.mp hshown)
    obtain ⟨run, hrun, hmsg⟩ := List.mem_flatMap.mp hmsg
    refine ⟨run, hrun, msg, ?_, heq⟩
    cases haccept : cfg.accept run.job with
    | error reason =>
      rw [haccept] at hmsg
      cases hmsg
    | ok handled =>
      rw [haccept] at hmsg
      cases handled with
      | status status => cases hmsg
      | sensor sensor => rw [List.mem_singleton.mp hmsg]

/-- A service with a route for sensors, whose parser knows one payload. -/
def sensorConfig : IngestionConfig ℤ where
  out := { statusOutside with
    fromStr := fun s => if s = "reading" then some (sensorPayload []) else none }
  router := sensorRouter
  enforceTopicDeviceMatch := false
  dlqTopic := "dlq"
  workerTotal := 2
  perWorkerCap := 4
  bc := Bincode.fixint
  segmentBytes := 1024
  batchSize := 8
  flushIntervalMs := 5
  displayStatus := Nat.repr

/-- A reading that the log fails on, and one that is no JSON. -/
def twoRuns : List PipelineRun :=
  [⟨⟨"smarthome/dev-1/sensor", Bytes.utf8 "reading"⟩, 9, fun _ => .error (.durability "disk full")⟩,
    ⟨⟨"smarthome/dev-1/sensor", [123]⟩, 9, fun _ => .ok ()⟩]

/-- The reading is in the cache, and has been sent. -/
theorem CacheCalls.cached_of_twoRuns :
    ∃ msg s, exec step (init 60000 16) [.readClock 1 msg, .insert 0 [], .send 0] = some s ∧
      s.cache.events.length = 1 ∧
      (s.cache.events.map CacheEvent.shown).Perm
        ((twoRuns.flatMap fun run => sensorsOf (sensorConfig.accept run.job)).map
          SensorMessage.shown) := by
  have hrouter : buildRouter [("SENSOR", "smarthome/+/sensor")] = .ok sensorConfig.router := rfl
  have hlength : (twoRuns.flatMap sensorConfig.updates).length = 1 := by decide +kernel
  obtain ⟨msg, hmsg⟩ := List.length_eq_one_iff.mp hlength
  obtain ⟨s, h, hfinished, hevents⟩ : ∃ s,
      exec step (init 60000 16) [.readClock 1 msg, .insert 0 [], .send 0] = some s ∧
        s.Finished ∧ s.cache.events.length = 1 := ⟨_, rfl, ⟨rfl, rfl⟩, rfl⟩
  have hcalls : ([.readClock 1 msg, .insert 0 [], .send 0].flatMap CacheLabel.messages).Perm
      (twoRuns.flatMap sensorConfig.updates) := by
    rw [hmsg]
    exact List.Perm.refl _
  exact ⟨msg, s, h, hevents, (cached_of_exec hrouter hcalls h).1 hfinished⟩

end SmarthomeIngest
