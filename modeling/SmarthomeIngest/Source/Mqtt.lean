import SmarthomeIngest.Shutdown

/-!
# The MQTT source

The loop of `MqttSource::run` over the results of polling the event loop. Of the broker and the
connection only the order of the events is known, which is any. The loop keeps two flags: whether a
subscribe request is still to be queued, and whether the source is ready.
-/

namespace SmarthomeIngest

open Transition

/-! ### Definitions -/

inductive QoS where
  | atMostOnce
  | atLeastOnce
  | exactlyOnce
  deriving DecidableEq

structure SubscribeFilter where
  path : String
  qos : QoS
  deriving DecidableEq

inductive SubscribeReasonCode where
  | success (qos : QoS)
  | failure
  deriving DecidableEq

def SubscribeReasonCode.isSuccess : SubscribeReasonCode → Bool
  | .success _ => true
  | .failure   => false

/-- `Event`, as far as the loop tells one from another. -/
inductive MqttEvent where
  | connAck
  | subAck (returnCodes : List SubscribeReasonCode)
  | disconnect
  | publish (job : IngestJob)
  | other
  deriving DecidableEq

/-- What has happened to the connection and the subscription. -/
inductive Occurrence where
  | error
  | connAck
  | subAck (returnCodes : List SubscribeReasonCode)
  | disconnect
  | subscribeQueued
  | other
  deriving DecidableEq

/-- The last three fields are the end of the loop, the jobs handed to the dispatcher, and what has
happened, the newest first. -/
structure MqttSource where
  filters : List SubscribeFilter
  subscribePending : Bool
  ready : Bool
  stopped : Bool
  dispatched : List IngestJob
  history : List Occurrence
  deriving DecidableEq

/-- A branch of the `select!`: a change of the shutdown flag, an event with the outcome of
`try_subscribe_many` after it, or an error. `stop` says whether the loop is left. -/
inductive MqttLabel where
  | changed (stop : Bool)
  | poll (event : MqttEvent) (queued : Bool)
  | pollError (stop : Bool)
  deriving DecidableEq

def MqttEvent.occurrence : MqttEvent → Occurrence
  | .connAck => .connAck
  | .subAck returnCodes => .subAck returnCodes
  | .disconnect => .disconnect
  | .publish _ | .other => .other

namespace MqttSource

/-- `build`, with the routes in the order of the map. -/
def build (topicRoutes : List (String × String)) : MqttSource where
  filters := (topicRoutes.filter fun (k, _) => ¬ "DLQ".toList <:+ k.toList).map fun (_, topic) =>
    ⟨topic, .atLeastOnce⟩
  subscribePending := false
  ready := false
  stopped := false
  dispatched := []
  history := []

def trySubscribe (s : MqttSource) (queued : Bool) : MqttSource :=
  if queued then { s with subscribePending := false, history := .subscribeQueued :: s.history }
  else s

/-- The `match` on the event. -/
def handle (s : MqttSource) : MqttEvent → MqttSource
  | .connAck => { s with subscribePending := true }
  | .subAck returnCodes =>
    if returnCodes.all SubscribeReasonCode.isSuccess then { s with ready := true } else s
  | .disconnect => { s with ready := false }
  | .publish _ | .other => s

def dispatch (s : MqttSource) : MqttEvent → MqttSource
  | .publish job => { s with dispatched := s.dispatched ++ [job] }
  | _ => s

def observe (s : MqttSource) (event : MqttEvent) : MqttSource :=
  { s.handle event with history := event.occurrence :: s.history }

/-- An event is handled, and a subscription that is pending is tried. -/
def onEvent (s : MqttSource) (event : MqttEvent) (queued : Bool) : MqttSource :=
  let s := s.observe event
  let s := if s.subscribePending then s.trySubscribe queued else s
  s.dispatch event

def step (s : MqttSource) (l : MqttLabel) : Option MqttSource :=
  if s.stopped then none
  else
    match l with
    | .changed stop => some { s with stopped := stop }
    | .poll event queued => some (s.onEvent event queued)
    | .pollError stop =>
      some { s with ready := false, stopped := stop, history := .error :: s.history }

end MqttSource

/-- A SubAck that accepts every filter. -/
def Accepts (filters : List SubscribeFilter) (returnCodes : List SubscribeReasonCode) : Prop :=
  ∀ i < filters.length, returnCodes[i]?.any SubscribeReasonCode.isSuccess = true

instance (filters : List SubscribeFilter) (returnCodes : List SubscribeReasonCode) :
    Decidable (Accepts filters returnCodes) := inferInstanceAs (Decidable (∀ i < _, _))

/-- The newest of the errors, Disconnects and SubAcks is a SubAck. -/
def SubAckSinceBreak : List Occurrence → Prop
  | [] => False
  | .subAck _ :: _ => True
  | .error :: _ | .disconnect :: _ => False
  | _ :: history => SubAckSinceBreak history

/-- Since the last error or Disconnect a SubAck has come whose codes are all successes. -/
def acceptedSinceBreak : List Occurrence → Bool
  | [] => false
  | .subAck returnCodes :: history =>
    returnCodes.all SubscribeReasonCode.isSuccess || acceptedSinceBreak history
  | .error :: _ | .disconnect :: _ => false
  | _ :: history => acceptedSinceBreak history

/-- The return codes of the most recent SubAck. -/
def lastSubAck : List Occurrence → Option (List SubscribeReasonCode)
  | [] => none
  | .subAck returnCodes :: _ => some returnCodes
  | _ :: history => lastSubAck history

/-- After every ConnAck a subscribe request has been queued, or is pending. -/
def Requested (pending : Bool) (history : List Occurrence) : Prop :=
  ∀ newer older, history = newer ++ .connAck :: older →
    .subscribeQueued ∈ newer ∨ pending = true

/-- If the source is ready, the most recent SubAck is of this connection and accepts every
filter. -/
def MqttSource.Acknowledged (s : MqttSource) : Prop :=
  s.ready = true → SubAckSinceBreak s.history ∧
    ∀ returnCodes ∈ lastSubAck s.history, Accepts s.filters returnCodes

/-- A source that is ready is subscribed, and a connected one has asked for it. -/
structure MqttSource.Subscribed (s : MqttSource) : Prop where
  acknowledged : s.Acknowledged
  requested : Requested s.subscribePending s.history

/-- A SubAck accepts every filter if all of its codes are successes, or if there has been one like
that since the last error or Disconnect. -/
def MqttSource.AcksAccept (s : MqttSource) : MqttLabel → Prop
  | .poll (.subAck returnCodes) _ =>
    acceptedSinceBreak (.subAck returnCodes :: s.history) = true → Accepts s.filters returnCodes
  | _ => True

instance (s : MqttSource) : ∀ l, Decidable (s.AcksAccept l)
  | .poll (.subAck _) _ => inferInstanceAs (Decidable (_ → _))
  | .poll .connAck _ | .poll .disconnect _ | .poll (.publish _) _ | .poll .other _ | .changed _
  | .pollError _ => isTrue trivial

/-! ### Requests -/

lemma Requested.of_pending (history : List Occurrence) : Requested true history :=
  fun _ _ _ => .inr rfl

lemma Requested.cons {pending : Bool} {history : List Occurrence} (h : Requested pending history)
    {o : Occurrence} (ho : o ≠ .connAck) : Requested pending (o :: history) := by
  intro newer older heq
  cases newer with
  | nil => exact absurd (List.cons.inj heq).1 ho
  | cons o' newer =>
    rcases h newer older (List.cons.inj heq).2 with hmem | hpending
    · exact .inl (List.mem_cons_of_mem _ hmem)
    · exact .inr hpending

lemma Requested.of_queued (pending : Bool) (history : List Occurrence) :
    Requested pending (.subscribeQueued :: history) := by
  intro newer older heq
  cases newer with
  | nil => cases (List.cons.inj heq).1
  | cons o' newer =>
    rw [← (List.cons.inj heq).1]
    exact .inl List.mem_cons_self

/-! ### One event -/

namespace MqttSource

variable {s s' : MqttSource} {l : MqttLabel}

lemma acknowledged_onEvent (event : MqttEvent) (queued : Bool) :
    (s.onEvent event queued).Acknowledged ↔ (s.observe event).Acknowledged := by
  -- neither a queued request nor a dispatched job has a bearing on it
  have htry : (if (s.observe event).subscribePending then (s.observe event).trySubscribe queued
      else s.observe event).Acknowledged ↔ (s.observe event).Acknowledged := by
    split_ifs
    · cases queued <;> exact Iff.rfl
    · exact Iff.rfl
  rw [← htry]
  cases event <;> exact Iff.rfl

lemma requested_observe (h : Requested s.subscribePending s.history) (event : MqttEvent) :
    Requested (s.observe event).subscribePending (s.observe event).history := by
  cases event with
  | connAck => exact .of_pending _
  | subAck returnCodes =>
    simp only [observe, handle]
    split_ifs
    · exact h.cons nofun
    · exact h.cons nofun
  | disconnect | publish | other => exact h.cons nofun

lemma requested_onEvent (h : Requested s.subscribePending s.history) (event : MqttEvent)
    (queued : Bool) : Requested (s.onEvent event queued).subscribePending
      (s.onEvent event queued).history := by
  have hobserve := requested_observe h event
  have htry : Requested
      (if (s.observe event).subscribePending then (s.observe event).trySubscribe queued
        else s.observe event).subscribePending
      (if (s.observe event).subscribePending then (s.observe event).trySubscribe queued
        else s.observe event).history := by
    split_ifs
    · cases queued with
      | true => exact .of_queued _ _
      | false => exact hobserve
    · exact hobserve
  cases event <;> exact htry

/-- The flag says whether there has been a SubAck of successes since the last error or Disconnect. -/
def Tracks (s : MqttSource) : Prop := s.ready = acceptedSinceBreak s.history

lemma Tracks.observe (hs : s.Tracks) (event : MqttEvent) : (s.observe event).Tracks := by
  cases event with
  | subAck returnCodes =>
    simp only [Tracks, MqttSource.observe, handle, MqttEvent.occurrence, acceptedSinceBreak]
    split_ifs with hall
    · rw [hall, Bool.true_or]
    · rw [Bool.eq_false_iff.mpr hall, Bool.false_or]
      exact hs
  | disconnect => rfl
  | connAck | publish | other => exact hs

lemma Tracks.onEvent (hs : s.Tracks) (event : MqttEvent) (queued : Bool) :
    (s.onEvent event queued).Tracks := by
  have htry : (if (s.observe event).subscribePending then (s.observe event).trySubscribe queued
      else s.observe event).Tracks := by
    split_ifs
    · cases queued <;> exact hs.observe event
    · exact hs.observe event
  cases event <;> exact htry

lemma Tracks.step (hs : s.Tracks) (h : s.step l = some s') : s'.Tracks := by
  unfold MqttSource.step at h
  split_ifs at h
  cases l with
  | changed stop =>
    cases h
    exact hs
  | pollError stop =>
    cases h
    rfl
  | poll event queued =>
    cases h
    exact hs.onEvent event queued

/-- A SubAck decides whether a source that is ready is subscribed. -/
lemma acknowledged_subAck_iff (hs : s.Tracks) (returnCodes : List SubscribeReasonCode) :
    (s.observe (.subAck returnCodes)).Acknowledged ↔
      (acceptedSinceBreak (.subAck returnCodes :: s.history) = true →
        Accepts s.filters returnCodes) := by
  have hready : (s.observe (.subAck returnCodes)).ready = true ↔
      acceptedSinceBreak (.subAck returnCodes :: s.history) = true := by
    rw [hs.observe (.subAck returnCodes)]
    exact Iff.rfl
  have hfilters : (s.observe (.subAck returnCodes)).filters = s.filters := by
    simp only [observe, handle]
    split_ifs <;> rfl
  constructor
  · intro h hor
    rw [← hfilters]
    exact (h (hready.mpr hor)).2 returnCodes rfl
  · rintro h hor
    refine ⟨trivial, fun codes hcodes => ?_⟩
    cases hcodes
    rw [hfilters]
    exact h (hready.mp hor)

/-! ### Runs -/

/-- A step leaves the source subscribed if and only if the SubAck it may handle accepts. -/
lemma subscribed_iff_acksAccept (hs : s.Subscribed) (htracks : s.Tracks)
    (h : s.step l = some s') :
    s'.Subscribed ↔ s.AcksAccept l := by
  unfold step at h
  split_ifs at h
  cases l with
  | changed stop =>
    cases h
    exact iff_of_true ⟨hs.acknowledged, hs.requested⟩ trivial
  | pollError stop =>
    cases h
    exact iff_of_true ⟨nofun, hs.requested.cons nofun⟩ trivial
  | poll event queued =>
    cases h
    have hsubscribed : (s.onEvent event queued).Subscribed ↔ (s.observe event).Acknowledged :=
      ⟨fun h => (acknowledged_onEvent event queued).mp h.acknowledged,
        fun h => ⟨(acknowledged_onEvent event queued).mpr h, requested_onEvent hs.requested _ _⟩⟩
    rw [hsubscribed]
    cases event with
    | subAck returnCodes => exact acknowledged_subAck_iff htracks returnCodes
    | connAck | publish | other => exact iff_of_true hs.acknowledged trivial
    | disconnect => exact iff_of_true nofun trivial

lemma subscribed_build (topicRoutes : List (String × String)) : (build topicRoutes).Subscribed where
  acknowledged := nofun
  requested newer older h := by cases newer <;> cases h

/-- Throughout a run the source is subscribed where it is ready if and only if every SubAck accepts
every filter that has only successes, or comes after such a one of the same connection. -/
theorem subscribed_iff {topicRoutes : List (String × String)} {ls : List MqttLabel}
    (h : exec step (build topicRoutes) ls = some s) :
    Always step (fun s l => ∀ s', s.step l = some s' → s'.Subscribed) (build topicRoutes) ls ↔
      Always step AcksAccept (build topicRoutes) ls := by
  refine always_iff (I := fun s => s.Subscribed ∧ s.Tracks) (H := fun s l => (s.step l).isSome)
    ⟨subscribed_build topicRoutes, rfl⟩ ?_ ?_ (always_isSome_of_exec h)
  · rintro s l s' ⟨hs, htracks⟩ - haccept hstep
    exact ⟨(subscribed_iff_acksAccept hs htracks hstep).mpr haccept, htracks.step hstep⟩
  · rintro s l ⟨hs, htracks⟩ henabled
    obtain ⟨t, ht⟩ := Option.isSome_iff_exists.mp henabled
    rw [← subscribed_iff_acksAccept hs htracks ht]
    refine ⟨fun hall => hall t ht, fun hsubscribed s' hs' => ?_⟩
    rw [ht] at hs'
    cases hs'
    exact hsubscribed

/-- A connection that is lost and comes back, with both subscriptions accepted. -/
theorem subscribed_of_reconnect :
    Always step (fun s l => ∀ s', s.step l = some s' → s'.Subscribed)
      (build [("SENSOR", "smarthome/+/sensor"), ("DLQ", "smarthome/_dlq/ingest")])
      [.poll .connAck true, .poll (.subAck [.success .atLeastOnce]) true, .pollError false,
        .poll .connAck false, .poll .other true, .poll (.subAck [.success .atLeastOnce]) true] := by
  have hrun : ∃ s, exec step
      (build [("SENSOR", "smarthome/+/sensor"), ("DLQ", "smarthome/_dlq/ingest")])
      [.poll .connAck true, .poll (.subAck [.success .atLeastOnce]) true, .pollError false,
        .poll .connAck false, .poll .other true, .poll (.subAck [.success .atLeastOnce]) true] =
      some s := ⟨_, rfl⟩
  obtain ⟨s, hrun⟩ := hrun
  exact (subscribed_iff hrun).mpr (by decide +kernel)

/-- The second SubAck of a connection rejects the subscription, and the source stays ready. -/
theorem not_subscribed_of_rejected :
    ∃ s, exec step (build [("SENSOR", "smarthome/+/sensor")])
        [.poll .connAck true, .poll (.subAck [.success .atLeastOnce]) true,
          .poll (.subAck [.failure]) true] = some s ∧
      s.ready = true ∧ lastSubAck s.history = some [.failure] ∧
      ¬ Accepts s.filters [.failure] ∧ ¬ s.Subscribed := by
  refine ⟨_, rfl, rfl, rfl, by decide +kernel, fun h => ?_⟩
  exact absurd ((h.acknowledged rfl).2 [.failure] rfl) (by decide +kernel)

end MqttSource

end SmarthomeIngest
