import SmarthomeIngest.Message.RouteOrder
import SmarthomeIngest.Source.Mqtt

/-!
# Subscriptions and routes

The source subscribes under the filters of the configuration, and the router matches the topics of
what then comes with patterns of its own. The broker takes the wildcards of a filter as follows: `+`
is one level, `#` the levels that are left, and a topic that starts with `$` is not for filters that
start with a wildcard. Filter and pattern agree on topics without empty levels, so that a message
without a route has been subscribed to under a key that is not known.
-/

namespace SmarthomeIngest

open Transition

/-! ### Definitions -/

/-- The levels of a filter against those of a topic. -/
def levelsMatch : List String → List String → Bool
  | [], levels => levels.isEmpty
  | part :: parts, [] => part = "#" && parts.isEmpty
  | part :: parts, level :: levels =>
    if part = "#" then parts.isEmpty else (part = "+" || part = level) && levelsMatch parts levels

namespace SubscribeFilter

def levels (filter : SubscribeFilter) : List String := Text.split '/' filter.path

def Matches (filter : SubscribeFilter) (topic : String) : Prop :=
  levelsMatch filter.levels (Text.split '/' topic) = true

instance (filter : SubscribeFilter) (topic : String) : Decidable (filter.Matches topic) :=
  inferInstanceAs (Decidable (_ = true))

/-- The broker delivers a message of the topic under the filter. -/
def Delivers (filter : SubscribeFilter) (topic : String) : Prop :=
  filter.Matches topic ∧
    (topic.toList.head? = some '$' → ∀ part ∈ filter.levels.head?, part ≠ "+" ∧ part ≠ "#")

instance (filter : SubscribeFilter) (topic : String) : Decidable (filter.Delivers topic) :=
  inferInstanceAs (Decidable (_ ∧ (_ → _)))

end SubscribeFilter

/-- Nothing is trimmed from a topic, and none of its levels is empty. -/
def PlainTopic (topic : String) : Prop :=
  TopicPattern.trimTopic topic = topic ∧ ∀ level ∈ Text.split '/' topic, level ≠ ""

instance (topic : String) : Decidable (PlainTopic topic) := inferInstanceAs (Decidable (_ ∧ _))

/-- The job that an event of the event loop brings. -/
def MqttLabel.jobs : MqttLabel → List IngestJob
  | .poll (.publish job) _ => [job]
  | _ => []

/-! ### Filters and patterns -/

/-- On topics without empty levels the loop of `matches` does what the broker does. -/
lemma matchSegments_eq_levelsMatch {parts levels : List String}
    (hparts : TopicPattern.WellFormed parts) (hlevels : ∀ level ∈ levels, level ≠ "") :
    TopicPattern.matchSegments (parts.map Segment.ofPart) levels = levelsMatch parts levels := by
  induction parts generalizing levels with
  | nil => rfl
  | cons part parts ih =>
    obtain ⟨-, hlast, hrest⟩ := TopicPattern.wellFormed_cons.mp hparts
    rw [List.map_cons, Segment.ofPart]
    by_cases hsharp : part = "#"
    · obtain rfl := hlast hsharp
      subst hsharp
      cases levels <;> rfl
    · cases levels with
      | nil =>
        rw [if_neg hsharp, levelsMatch]
        split_ifs <;> simp [TopicPattern.matchSegments, hsharp]
      | cons level levels =>
        have htail := ih hrest fun level' hmem => hlevels level' (List.mem_cons_of_mem _ hmem)
        rw [if_neg hsharp, levelsMatch, if_neg hsharp, ← htail]
        split_ifs with hplus
        · have hne : level ≠ "" := hlevels level List.mem_cons_self
          simp [TopicPattern.matchSegments, hplus, hne]
        · have hcomm : (level == part) = decide (part = level) := by
            rw [Bool.beq_eq_decide_eq, decide_eq_decide, eq_comm]
          simp [TopicPattern.matchSegments, hplus, hcomm]

/-- A pattern from which nothing is trimmed, and the filter with the same text. -/
lemma matches_iff_matches {raw topic : String} {p : TopicPattern}
    (hp : TopicPattern.new raw = .ok p) (hraw : TopicPattern.trimTopic raw = raw)
    (htopic : PlainTopic topic) (qos : QoS) :
    p.matches topic = true ↔ (SubscribeFilter.mk raw qos).Matches topic := by
  obtain ⟨hwell, hsegments⟩ := TopicPattern.segments_of_new hp
  rw [TopicPattern.parts, hraw] at hwell hsegments
  rw [TopicPattern.matches, htopic.1, hsegments, matchSegments_eq_levelsMatch hwell htopic.2]
  rfl

namespace MqttSource

variable {s s' : MqttSource} {l : MqttLabel} {ls : List MqttLabel}

/-! ### What is dispatched -/

lemma dispatched_handle (s : MqttSource) (event : MqttEvent) :
    (s.handle event).dispatched = s.dispatched := by
  cases event with
  | subAck returnCodes =>
    rw [handle]
    split_ifs <;> rfl
  | connAck | disconnect | publish | other => rfl

lemma dispatched_trySubscribe (s : MqttSource) (queued : Bool) :
    (s.trySubscribe queued).dispatched = s.dispatched := by
  rw [trySubscribe]
  split_ifs <;> rfl

lemma dispatched_dispatch (s : MqttSource) (event : MqttEvent) (queued : Bool) :
    (s.dispatch event).dispatched = s.dispatched ++ (MqttLabel.poll event queued).jobs := by
  cases event with
  | publish job => rfl
  | connAck | subAck | disconnect | other => exact (List.append_nil _).symm

lemma dispatched_of_step (h : s.step l = some s') : s'.dispatched = s.dispatched ++ l.jobs := by
  unfold step at h
  split_ifs at h with hstopped
  cases l with
  | changed stop =>
    cases h
    exact (List.append_nil _).symm
  | pollError stop =>
    cases h
    exact (List.append_nil _).symm
  | poll event queued =>
    cases h
    rw [onEvent, dispatched_dispatch _ _ queued]
    congr 1
    split_ifs
    · exact (dispatched_trySubscribe _ _).trans (s.dispatched_handle event)
    · exact s.dispatched_handle event

/-- The jobs of the events, in their order. -/
lemma dispatched_of_exec (h : exec step s ls = some s') :
    s'.dispatched = s.dispatched ++ ls.flatMap MqttLabel.jobs := by
  induction ls generalizing s with
  | nil =>
    cases h
    exact (List.append_nil _).symm
  | cons l ls ih =>
    obtain ⟨t, ht, h⟩ := Option.bind_eq_some_iff.mp h
    rw [ih h, dispatched_of_step ht, List.flatMap_cons, List.append_assoc]

/-! ### What is routed -/

variable {F : Type} [F64 F] {topicRoutes : HashMap String String} {order order' : List String}
  {r : Router F}

lemma mem_filters_build {entries : List (String × String)} {filter : SubscribeFilter} :
    filter ∈ (build entries).filters ↔ ∃ key raw, (key, raw) ∈ entries ∧
      ¬ "DLQ".toList <:+ key.toList ∧ filter = ⟨raw, .atLeastOnce⟩ := by
  simp only [build, List.mem_map, List.mem_filter, decide_eq_true_eq, Prod.exists]
  constructor
  · rintro ⟨key, raw, ⟨hmem, hkey⟩, rfl⟩
    exact ⟨key, raw, hmem, hkey, rfl⟩
  · rintro ⟨key, raw, hmem, hkey, rfl⟩
    exact ⟨key, raw, ⟨hmem, hkey⟩, rfl⟩

/-- A topic has a route if and only if the filter of a known key matches it. -/
lemma messageTypeForTopic_ne_none_iff (horder : topicRoutes.IterOrder order)
    (hr : buildRouter (topicRoutes.iter order) = .ok r)
    (hraw : ∀ key raw, topicRoutes.lookup key = some raw → messageTypeOfKey key ≠ none →
      TopicPattern.trimTopic raw = raw) {topic : String} (htopic : PlainTopic topic) :
    r.messageTypeForTopic topic ≠ none ↔ ∃ key raw, topicRoutes.lookup key = some raw ∧
      messageTypeOfKey key ≠ none ∧ (SubscribeFilter.mk raw .atLeastOnce).Matches topic := by
  constructor
  · intro hfound
    obtain ⟨messageType, hfound⟩ := Option.ne_none_iff_exists'.mp hfound
    obtain ⟨p, ⟨key, raw, hlookup, htype, hp⟩, hmatch⟩ := hasRoute_of_found horder hr hfound
    have hknown : messageTypeOfKey key ≠ none := by simp [htype]
    exact ⟨key, raw, hlookup, hknown,
      (matches_iff_matches hp (hraw key raw hlookup hknown) htopic _).mp hmatch⟩
  · rintro ⟨key, raw, hlookup, hknown, hmatch⟩
    obtain ⟨routes, hroutes, -⟩ := exists_of_map_eq_ok hr
    obtain ⟨p, hp⟩ := buildRoutes_isOk.mp ⟨routes, hroutes⟩ (key, raw)
      ((HashMap.mem_iter horder).mpr hlookup) hknown
    obtain ⟨messageType, htype⟩ := Option.ne_none_iff_exists'.mp hknown
    exact found_of_hasRoute horder hr ⟨key, raw, hlookup, htype, hp⟩
      ((matches_iff_matches hp (hraw key raw hlookup hknown) htopic _).mpr hmatch)

/-- What the broker delivers under the filters is dispatched, all of it and in order. A job has a
route if and only if the filter of a known key matches its topic, and one without a route has been
delivered under a key that is not known, and is not that of a DLQ. -/
theorem routed_of_run (horder : topicRoutes.IterOrder order)
    (horder' : topicRoutes.IterOrder order')
    (hr : buildRouter (topicRoutes.iter order') = .ok r)
    (hraw : ∀ key raw, topicRoutes.lookup key = some raw → messageTypeOfKey key ≠ none →
      TopicPattern.trimTopic raw = raw)
    (hdelivers : ∀ job ∈ ls.flatMap MqttLabel.jobs,
      ∃ filter ∈ (build (topicRoutes.iter order)).filters, filter.Delivers job.topic)
    (h : exec step (build (topicRoutes.iter order)) ls = some s) :
    s.dispatched = ls.flatMap MqttLabel.jobs ∧
    ∀ job ∈ s.dispatched, PlainTopic job.topic →
      (r.messageTypeForTopic job.topic ≠ none ↔ ∃ key raw, topicRoutes.lookup key = some raw ∧
        messageTypeOfKey key ≠ none ∧ (SubscribeFilter.mk raw .atLeastOnce).Matches job.topic) ∧
      (r.messageTypeForTopic job.topic = none → ∃ key raw, topicRoutes.lookup key = some raw ∧
        messageTypeOfKey key = none ∧ ¬ "DLQ".toList <:+ key.toList ∧
        (SubscribeFilter.mk raw .atLeastOnce).Delivers job.topic) := by
  have hdispatched : s.dispatched = ls.flatMap MqttLabel.jobs := dispatched_of_exec h
  refine ⟨hdispatched, fun job hjob htopic => ?_⟩
  have hiff := messageTypeForTopic_ne_none_iff horder' hr hraw htopic
  refine ⟨hiff, fun hnone => ?_⟩
  rw [hdispatched] at hjob
  obtain ⟨filter, hfilter, hdelivered⟩ := hdelivers job hjob
  obtain ⟨key, raw, hmem, hkey, rfl⟩ := mem_filters_build.mp hfilter
  have hlookup := (HashMap.mem_iter horder).mp hmem
  refine ⟨key, raw, hlookup, ?_, hkey, hdelivered⟩
  by_contra hknown
  exact hiff.mpr ⟨key, raw, hlookup, hknown, hdelivered.1⟩ hnone

/-- Besides the sensors, a key that is not known. -/
def debugTopics : HashMap String String :=
  [⟨"SENSOR", "smarthome/+/sensor"⟩, ⟨"DEBUG", "smarthome/#"⟩,
    ⟨"DLQ", "smarthome/_dlq/ingest"⟩].toFinmap

def sensorJob : IngestJob := ⟨"smarthome/dev-1/sensor", []⟩

def debugJob : IngestJob := ⟨"smarthome/dev-1/debug", []⟩

/-- Both messages of a device come under the key that is not known, and one of them has a route. -/
def bothPublished : List MqttLabel :=
  [.poll .connAck true, .poll (.subAck [.success .atLeastOnce, .success .atLeastOnce]) true,
    .poll (.publish sensorJob) true, .poll (.publish debugJob) true]

theorem routed_of_debugTopics :
    ∃ (r : Router ℤ) (s : MqttSource),
      buildRouter (debugTopics.iter ["DLQ", "DEBUG", "SENSOR"]) = .ok r ∧
      exec step (build (debugTopics.iter ["SENSOR", "DEBUG", "DLQ"])) bothPublished = some s ∧
      s.dispatched = [sensorJob, debugJob] ∧
      r.messageTypeForTopic sensorJob.topic ≠ none ∧
      r.messageTypeForTopic debugJob.topic = none ∧
      ∃ key raw, debugTopics.lookup key = some raw ∧ messageTypeOfKey key = none ∧
        ¬ "DLQ".toList <:+ key.toList ∧
        (SubscribeFilter.mk raw .atLeastOnce).Delivers debugJob.topic := by
  have horder : debugTopics.IterOrder ["SENSOR", "DEBUG", "DLQ"] := by decide +kernel
  have horder' : debugTopics.IterOrder ["DLQ", "DEBUG", "SENSOR"] := by decide +kernel
  obtain ⟨r, hr, hnone⟩ : ∃ r : Router ℤ,
      buildRouter (debugTopics.iter ["DLQ", "DEBUG", "SENSOR"]) = .ok r ∧
      r.messageTypeForTopic debugJob.topic = none :=
    ⟨⟨[⟨.sensor, ⟨[.lit "smarthome", .one, .lit "sensor"], some 1⟩, sensorSchema⟩], true⟩, rfl,
      by decide +kernel⟩
  obtain ⟨s, h⟩ : ∃ s, exec step (build (debugTopics.iter ["SENSOR", "DEBUG", "DLQ"]))
      bothPublished = some s := ⟨_, rfl⟩
  have hraw : ∀ key raw, debugTopics.lookup key = some raw → messageTypeOfKey key ≠ none →
      TopicPattern.trimTopic raw = raw := by
    intro key raw hlookup hknown
    obtain ⟨messageType, htype⟩ := Option.ne_none_iff_exists'.mp hknown
    rcases messageTypeOfKey_eq_some.mp htype with ⟨rfl, -⟩ | ⟨rfl, -⟩
    · cases hlookup
      decide +kernel
    · cases hlookup
  have hfilter : SubscribeFilter.mk "smarthome/#" .atLeastOnce ∈
      (build (debugTopics.iter ["SENSOR", "DEBUG", "DLQ"])).filters := by decide +kernel
  have hdelivers : ∀ job ∈ bothPublished.flatMap MqttLabel.jobs,
      ∃ filter ∈ (build (debugTopics.iter ["SENSOR", "DEBUG", "DLQ"])).filters,
        filter.Delivers job.topic := by
    intro job hjob
    refine ⟨_, hfilter, ?_⟩
    rcases List.mem_pair.mp hjob with rfl | rfl
    · decide +kernel
    · decide +kernel
  obtain ⟨hdispatched, hrouted⟩ := routed_of_run horder horder' hr hraw hdelivers h
  have hsensor := (hrouted sensorJob (by rw [hdispatched]; exact List.mem_cons_self)
    (by decide +kernel)).1
  have hdebug := (hrouted debugJob (by rw [hdispatched]; exact List.mem_of_getElem? (i := 1) rfl)
    (by decide +kernel)).2
  refine ⟨r, s, hr, h, hdispatched, hsensor.mpr ?_, hnone, hdebug hnone⟩
  exact ⟨"SENSOR", "smarthome/+/sensor", rfl, by decide, by decide +kernel⟩

end MqttSource

end SmarthomeIngest
