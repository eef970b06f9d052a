import SmarthomeIngest.Cache.State

/-!
# Concurrent updates of the cache

Calls of `update_sensor` on several workers. The clock is read before the lock is taken, and the
event is sent after it is released, so that a call can get in between at both places. A call is
known by its event. Nothing is assumed of the clock readings.
-/

namespace SmarthomeIngest

open Transition

variable {F : Type}

/-! ### Definitions -/

structure CacheCalls (F : Type) where
  cache : CacheState F
  /-- The calls that have read the clock. -/
  waiting : List (CacheEvent F)
  /-- The calls that have written to the map, and have not sent their event. -/
  unsent : List (CacheEvent F)
  /-- All calls that have written to the map, in the order in which they did. -/
  inserted : List (CacheEvent F)

inductive CacheLabel (F : Type) where
  | readClock (now : ℕ) (sensorMsg : SensorMessage F)
  | insert (i : ℕ) (order : List String)
  | send (i : ℕ)

/-- The last state of every device, as a subscriber sees it who has had these events. -/
def lastPerDevice (events : List (CacheEvent F)) : HashMap String (SensorState F) :=
  events.foldl (fun m e => m.insert e.deviceId e.state) ∅

namespace CacheCalls

def init (ttlMs bufferSize : ℕ) : CacheCalls F where
  cache := .new ttlMs bufferSize
  waiting := []
  unsent := []
  inserted := []

def step (s : CacheCalls F) : CacheLabel F → Option (CacheCalls F)
  | .readClock now sensorMsg =>
    some { s with waiting := s.waiting ++ [CacheState.eventOf now sensorMsg] }
  | .insert i order =>
    match s.waiting[i]? with
    | none => none
    | some e =>
      if s.cache.sensors.IterOrder order then
        some { s with
          cache := s.cache.insertSensor order e, waiting := s.waiting.eraseIdx i,
          unsent := s.unsent ++ [e], inserted := s.inserted ++ [e] }
      else none
  | .send i =>
    match s.unsent[i]? with
    | none => none
    | some e => some { s with cache := s.cache.send e, unsent := s.unsent.eraseIdx i }

/-- Every call has returned. -/
def Finished (s : CacheCalls F) : Prop := s.waiting = [] ∧ s.unsent = []

/-- The time of a device that stays in the map does not decrease. -/
def LastSeenGrows (s s' : CacheCalls F) : Prop :=
  ∀ id v v', s.cache.sensors.lookup id = some v → s'.cache.sensors.lookup id = some v' →
    v.lastSeenMs ≤ v'.lastSeenMs

/-- What the map holds for a device is from the call with the greatest clock reading among those
that have written for the device. -/
def HoldsLatest (s : CacheCalls F) : Prop :=
  ∀ id v, s.cache.sensors.lookup id = some v → ∃ e ∈ s.inserted, e.deviceId = id ∧ e.state = v ∧
    ∀ e' ∈ s.inserted, e'.deviceId = id → e'.lastSeenMs ≤ e.lastSeenMs

/-- The step keeps the latest update of every device. -/
def KeepsLatest (s : CacheCalls F) (l : CacheLabel F) : Prop :=
  ∀ s', step s l = some s' → s.LastSeenGrows s' ∧ s'.HoldsLatest

/-- A call does not write over one of its device with a greater clock reading. -/
def InsertsInOrder (s : CacheCalls F) : CacheLabel F → Prop
  | .insert i _ => ∀ e ∈ s.waiting[i]?, ∀ e' ∈ s.inserted, e'.deviceId = e.deviceId →
      e'.lastSeenMs ≤ e.lastSeenMs
  | _ => True

instance (s : CacheCalls F) : ∀ l, Decidable (s.InsertsInOrder l)
  | .insert i _ => inferInstanceAs (Decidable (∀ e ∈ s.waiting[i]?, ∀ e' ∈ s.inserted, _ → _))
  | .readClock _ _ | .send _ => isTrue trivial

/-- What the map holds for a device that no call has still to send an event for is what a
subscriber has. -/
def StreamAgrees (s : CacheCalls F) : Prop :=
  ∀ id v, s.cache.sensors.lookup id = some v → (∀ e ∈ s.unsent, e.deviceId ≠ id) →
    (lastPerDevice s.cache.events).lookup id = some v

/-- The last call to send for a device in the map is the last one to have written for it, or brings
the same. -/
def SendsInOrder (s : CacheCalls F) : CacheLabel F → Prop
  | .send i => ∀ e ∈ s.unsent[i]?, e.deviceId ∈ s.cache.sensors →
      (∀ e' ∈ s.unsent.eraseIdx i, e'.deviceId ≠ e.deviceId) →
      (lastPerDevice s.inserted).lookup e.deviceId = some e.state
  | _ => True

instance [DecidableEq F] (s : CacheCalls F) : ∀ l, Decidable (s.SendsInOrder l)
  | .send i => inferInstanceAs (Decidable (∀ e ∈ s.unsent[i]?, _ → _ → _))
  | .readClock _ _ | .insert _ _ => isTrue trivial

/-- The map holds what was written last. -/
def HoldsLast (s : CacheCalls F) : Prop :=
  ∀ id v, s.cache.sensors.lookup id = some v → (lastPerDevice s.inserted).lookup id = some v

end CacheCalls

/-! ### The steps of a call -/

lemma lastPerDevice_append (events : List (CacheEvent F)) (e : CacheEvent F) :
    lastPerDevice (events ++ [e]) = (lastPerDevice events).insert e.deviceId e.state := by
  rw [lastPerDevice, List.foldl_append]
  rfl

namespace CacheCalls

variable {s s' : CacheCalls F} {l : CacheLabel F}

/-- The steps of `s`, with their labels and their results. -/
inductive Rule (s : CacheCalls F) : CacheLabel F → CacheCalls F → Prop
  | readClock {now : ℕ} {sensorMsg : SensorMessage F} :
      Rule s (.readClock now sensorMsg) { s with
        waiting := s.waiting ++ [CacheState.eventOf now sensorMsg] }
  | insert {i : ℕ} {order : List String} {e : CacheEvent F} (hcall : s.waiting[i]? = some e)
      (horder : s.cache.sensors.IterOrder order) :
      Rule s (.insert i order) { s with
        cache := s.cache.insertSensor order e, waiting := s.waiting.eraseIdx i,
        unsent := s.unsent ++ [e], inserted := s.inserted ++ [e] }
  | send {i : ℕ} {e : CacheEvent F} (hcall : s.unsent[i]? = some e) :
      Rule s (.send i) { s with cache := s.cache.send e, unsent := s.unsent.eraseIdx i }

theorem Rule.of_step (h : s.step l = some s') : Rule s l s' := by
  cases l with
  | readClock now sensorMsg =>
    cases h
    exact .readClock
  | insert i order =>
    simp only [step] at h
    split at h
    · cases h
    · split_ifs at h with horder
      cases h
      exact .insert ‹_› horder
  | send i =>
    simp only [step] at h
    split at h
    · cases h
    · cases h
      exact .send ‹_›

/-- A call that no other one gets in between of is `update_sensor`. -/
theorem exec_alone {now : ℕ} {sensorMsg : SensorMessage F} {order : List String}
    (horder : s.cache.sensors.IterOrder order) :
    exec step s [.readClock now sensorMsg, .insert s.waiting.length order, .send s.unsent.length] =
      some { s with
        cache := s.cache.updateSensor order now sensorMsg,
        inserted := s.inserted ++ [CacheState.eventOf now sensorMsg] } := by
  simp [exec, step, horder, CacheState.updateSensor, List.eraseIdx_append_of_length_le]

/-! ### The latest update -/

lemma HoldsLatest.init (ttlMs bufferSize : ℕ) :
    (init ttlMs bufferSize : CacheCalls F).HoldsLatest := by
  intro id v h
  cases h

/-- An insert in the order of the clock readings. -/
lemma HoldsLatest.insert (hs : s.HoldsLatest) {e : CacheEvent F} {order : List String}
    (hle : ∀ e' ∈ s.inserted, e'.deviceId = e.deviceId → e'.lastSeenMs ≤ e.lastSeenMs)
    {id : String} {v : SensorState F}
    (h : (s.cache.insertSensor order e).sensors.lookup id = some v) :
    ∃ e₁ ∈ s.inserted ++ [e], e₁.deviceId = id ∧ e₁.state = v ∧
      ∀ e' ∈ s.inserted ++ [e], e'.deviceId = id → e'.lastSeenMs ≤ e₁.lastSeenMs := by
  rcases CacheState.lookup_insertSensor h with ⟨rfl, rfl⟩ | ⟨hne, hlookup⟩
  · refine ⟨e, by simp, rfl, rfl, fun e' he' hid => ?_⟩
    rcases List.mem_append.mp he' with hold | hnew
    · exact hle e' hold hid
    · rw [List.mem_singleton.mp hnew]
  · obtain ⟨e₁, hmem, hid, hstate, hmax⟩ := hs id v hlookup
    refine ⟨e₁, List.mem_append_left _ hmem, hid, hstate, fun e' he' hid' => ?_⟩
    rcases List.mem_append.mp he' with hold | hnew
    · exact hmax e' hold hid'
    · rw [List.mem_singleton.mp hnew] at hid'
      exact absurd hid'.symm hne

/-- A step that writes nothing to the map. -/
lemma keepsLatest_of_sensors (hs : s.HoldsLatest)
    (hsensors : s'.cache.sensors = s.cache.sensors) (hinserted : s'.inserted = s.inserted) :
    s.LastSeenGrows s' ∧ s'.HoldsLatest := by
  refine ⟨fun id v v' h h' => ?_, fun id v h => ?_⟩
  · rw [hsensors, h] at h'
    cases h'
    exact le_rfl
  · rw [hsensors] at h
    rw [hinserted]
    exact hs id v h

/-- A step keeps the latest updates if and only if it does not write an older one. -/
lemma keepsLatest_iff_insertsInOrder (hs : s.HoldsLatest) (henabled : (s.step l).isSome) :
    s.KeepsLatest l ↔ s.InsertsInOrder l := by
  obtain ⟨s₁, hstep⟩ := Option.isSome_iff_exists.mp henabled
  have hkeeps : s.KeepsLatest l ↔ s.LastSeenGrows s₁ ∧ s₁.HoldsLatest :=
    ⟨fun h => h s₁ hstep, fun h s' hs' => by rw [hstep] at hs'; cases hs'; exact h⟩
  rw [hkeeps]
  cases Rule.of_step hstep with
  | readClock | send => exact iff_of_true (keepsLatest_of_sensors hs rfl rfl) trivial
  | @insert i order e hcall horder =>
    constructor
    · rintro ⟨-, hlatest⟩ e₁ he₁ e' he' hid
      rw [hcall] at he₁
      cases he₁
      obtain ⟨e₂, -, -, hstate, hmax⟩ := hlatest e.deviceId e.state
        CacheState.lookup_insertSensor_self
      have htime : e₂.lastSeenMs = e.lastSeenMs := congrArg SensorState.lastSeenMs hstate
      rw [← htime]
      exact hmax e' (List.mem_append_left _ he') hid
    · intro horder
      have hle := horder e hcall
      refine ⟨fun id v v' h h' => ?_, fun id v h => hs.insert hle h⟩
      rcases CacheState.lookup_insertSensor h' with ⟨rfl, rfl⟩ | ⟨-, hlookup⟩
      · obtain ⟨e₁, hmem, hid, rfl, -⟩ := hs _ v h
        exact hle e₁ hmem hid
      · rw [h] at hlookup
        cases hlookup
        exact le_rfl

/-- The map keeps the latest update of every device throughout a run if and only if no call writes
over one with a greater clock reading. -/
theorem keepsLatest_iff {ttlMs bufferSize : ℕ} {ls : List (CacheLabel F)}
    (h : exec step (init ttlMs bufferSize) ls = some s) :
    Always step KeepsLatest (init ttlMs bufferSize) ls ↔
      Always step InsertsInOrder (init ttlMs bufferSize) ls := by
  refine always_iff (I := HoldsLatest) (H := fun s l => (s.step l).isSome) (.init _ _) ?_ ?_ ?_
  · intro s l s' hs henabled horder hstep
    exact ((keepsLatest_iff_insertsInOrder hs henabled).mpr horder s' hstep).2
  · exact fun s l hs henabled => keepsLatest_iff_insertsInOrder hs henabled
  · exact always_isSome_of_exec h

/-- A later message of the same device. -/
def warmer : SensorMessage ℤ :=
  { messageOf "dev-1" with data := { (messageOf "dev-1").data with tempC := 21 } }

/-- Two calls that write in the order in which they have read the clock. -/
theorem keepsLatest_of_clockOrder :
    Always step KeepsLatest (init 60000 16)
      [.readClock 1 (messageOf "dev-1"), .readClock 2 warmer, .insert 0 [],
        .insert 0 ["dev-1"]] := by
  have hrun : ∃ s, exec step (init 60000 16) [.readClock 1 (messageOf "dev-1"),
      .readClock 2 warmer, .insert 0 [], .insert 0 ["dev-1"]] = some s := ⟨_, rfl⟩
  obtain ⟨s, hrun⟩ := hrun
  exact (keepsLatest_iff hrun).mpr (by decide +kernel)

/-- The second call takes the lock first, and the older message is what remains. -/
theorem not_keepsLatest_of_overtaking :
    ∃ s s', exec step (init 60000 16)
        [.readClock 1 (messageOf "dev-1"), .readClock 2 warmer, .insert 1 []] = some s ∧
      s.step (.insert 0 ["dev-1"]) = some s' ∧
      s.cache.sensors.lookup "dev-1" = some ⟨2, warmer.data⟩ ∧
      s'.cache.sensors.lookup "dev-1" = some ⟨1, (messageOf "dev-1").data⟩ ∧
      ¬ s.LastSeenGrows s' ∧ ¬ s'.HoldsLatest := by
  refine ⟨_, _, rfl, rfl, rfl, rfl, fun hgrows => ?_, fun hlatest => ?_⟩
  · exact absurd (hgrows "dev-1" _ _ rfl rfl) (by decide)
  · obtain ⟨e, -, -, hstate, hmax⟩ := hlatest "dev-1" _ rfl
    have htime : e.lastSeenMs = 1 := congrArg SensorState.lastSeenMs hstate
    have hle := hmax (CacheState.eventOf 2 warmer) List.mem_cons_self rfl
    rw [htime] at hle
    exact absurd hle (by decide)

/-! ### The stream -/

lemma HoldsLast.insert (hs : s.HoldsLast) {e : CacheEvent F} {order : List String} {id : String}
    {v : SensorState F} (h : (s.cache.insertSensor order e).sensors.lookup id = some v) :
    (lastPerDevice (s.inserted ++ [e])).lookup id = some v := by
  rw [lastPerDevice_append]
  rcases CacheState.lookup_insertSensor h with ⟨rfl, rfl⟩ | ⟨hne, hlookup⟩
  · exact Finmap.lookup_insert _
  · rw [Finmap.lookup_insert_of_ne _ hne]
    exact hs id v hlookup

lemma HoldsLast.step (hs : s.HoldsLast) (h : s.step l = some s') : s'.HoldsLast := by
  cases Rule.of_step h with
  | readClock | send => exact hs
  | insert hcall horder => exact fun id v => hs.insert

/-- Of the devices that another call has written for nothing changes on the stream. -/
lemma StreamAgrees.insert (hs : s.StreamAgrees) {e : CacheEvent F} {order : List String}
    {id : String} {v : SensorState F}
    (h : (s.cache.insertSensor order e).sensors.lookup id = some v)
    (hunsent : ∀ e' ∈ s.unsent ++ [e], e'.deviceId ≠ id) :
    (lastPerDevice s.cache.events).lookup id = some v := by
  rcases CacheState.lookup_insertSensor h with ⟨rfl, -⟩ | ⟨-, hlookup⟩
  · exact absurd rfl (hunsent e (by simp))
  · exact hs id v hlookup fun e' he' => hunsent e' (List.mem_append_left _ he')

lemma mem_eraseIdx_of_ne {es : List (CacheEvent F)} {i : ℕ} {e e' : CacheEvent F}
    (h : es[i]? = some e) (hne : e'.deviceId ≠ e.deviceId) (hmem : e' ∈ es) :
    e' ∈ es.eraseIdx i := by
  obtain ⟨j, hj⟩ := List.getElem?_of_mem hmem
  refine List.mem_eraseIdx_iff_getElem?.mpr ⟨j, fun heq => ?_, hj⟩
  rw [heq, h] at hj
  cases hj
  exact hne rfl

/-- With the stream in agreement, a step keeps it so if and only if it does not send an older state
last. -/
lemma streamAgrees_iff_sendsInOrder (hs : s.StreamAgrees) (hlast : s.HoldsLast)
    (hstep : s.step l = some s') : s'.StreamAgrees ↔ s.SendsInOrder l := by
  cases Rule.of_step hstep with
  | readClock => exact iff_of_true hs trivial
  | insert hcall horder => exact iff_of_true (fun id v => hs.insert) trivial
  | @send i e hcall =>
    constructor
    · intro hagrees e₁ he₁ hmem hunsent
      rw [hcall] at he₁
      cases he₁
      obtain ⟨v, hlookup⟩ := Finmap.mem_iff.mp hmem
      have hsent := hagrees _ v hlookup hunsent
      rw [CacheState.send, lastPerDevice_append, Finmap.lookup_insert] at hsent
      rw [hlast _ v hlookup, hsent]
    · intro horder id v hlookup hunsent
      have hlookup : s.cache.sensors.lookup id = some v := hlookup
      rw [CacheState.send, lastPerDevice_append]
      by_cases hid : id = e.deviceId
      · subst hid
        have hmem : e.deviceId ∈ s.cache.sensors := Finmap.mem_of_lookup_eq_some hlookup
        rw [Finmap.lookup_insert, ← horder e hcall hmem hunsent]
        exact hlast _ v hlookup
      · rw [Finmap.lookup_insert_of_ne _ hid]
        refine hs id v hlookup fun e' he' hid' => ?_
        subst hid'
        exact hunsent e' (mem_eraseIdx_of_ne hcall hid he') rfl

/-- If no call sends an older state last, the last event of every device that is in the map when all
calls have returned is what `snapshot_sensor` returns; and only then do they agree in every state of
the run, for the devices without calls that have still to send. -/
theorem streamAgrees_of_run {ttlMs bufferSize : ℕ} {ls : List (CacheLabel F)}
    (h : exec step (init ttlMs bufferSize) ls = some s) :
    (Always step SendsInOrder (init ttlMs bufferSize) ls → s.Finished →
      ∀ now device v stale, s.cache.snapshotSensor now device = some (v, stale) →
        (lastPerDevice s.cache.events).lookup (normalizeDeviceId device) = some v) ∧
    (Always step (fun s l => ∀ s', step s l = some s' → s'.StreamAgrees)
        (init ttlMs bufferSize) ls ↔
      Always step SendsInOrder (init ttlMs bufferSize) ls) := by
  have hnil : (init ttlMs bufferSize : CacheCalls F).StreamAgrees ∧
      (init ttlMs bufferSize : CacheCalls F).HoldsLast :=
    ⟨fun id v h => (by cases h), fun id v h => (by cases h)⟩
  constructor
  · intro horder hfinished now device v stale hsnapshot
    have hreach := Reach.of_exec horder h
    have hinv : s.StreamAgrees ∧ s.HoldsLast := by
      refine Reach.invariant (P := fun s => s.StreamAgrees ∧ s.HoldsLast) hnil ?_ hreach
      rintro s l s' ⟨hs, hlast⟩ horder hstep
      exact ⟨(streamAgrees_iff_sendsInOrder hs hlast hstep).mpr horder, hlast.step hstep⟩
    obtain ⟨w, hlookup, heq⟩ := Option.map_eq_some_iff.mp hsnapshot
    cases heq
    refine hinv.1 _ v hlookup fun e he => ?_
    rw [hfinished.2] at he
    cases he
  · refine always_iff (I := fun s => s.StreamAgrees ∧ s.HoldsLast)
      (H := fun s l => (s.step l).isSome) hnil ?_ ?_ (always_isSome_of_exec h)
    · rintro s l s' ⟨hs, hlast⟩ - horder hstep
      exact ⟨(streamAgrees_iff_sendsInOrder hs hlast hstep).mpr horder, hlast.step hstep⟩
    · rintro s l ⟨hs, hlast⟩ henabled
      obtain ⟨t, ht⟩ := Option.isSome_iff_exists.mp henabled
      rw [← streamAgrees_iff_sendsInOrder hs hlast ht]
      refine ⟨fun hall => hall t ht, fun hagrees s' hs' => ?_⟩
      rw [ht] at hs'
      cases hs'
      exact hagrees

/-- In every state of a run a subscriber has what the map holds if and only if for every device in it
the last event is from the last call that has written for it, or brings the same. -/
theorem agrees_iff_of_run {ttlMs bufferSize : ℕ} {ls : List (CacheLabel F)}
    (h : exec step (init ttlMs bufferSize) ls = some s) :
    (∀ id v, s.cache.sensors.lookup id = some v →
      (lastPerDevice s.cache.events).lookup id = some v) ↔
    ∀ id ∈ s.cache.sensors,
      (lastPerDevice s.cache.events).lookup id = (lastPerDevice s.inserted).lookup id := by
  have hlast : s.HoldsLast := (Reachable.of_exec h).invariant
    (show (init ttlMs bufferSize : CacheCalls F).HoldsLast from fun id v h => by cases h)
    fun s l s' hs _ hstep => hs.step hstep
  constructor
  · intro hagrees id hmem
    obtain ⟨v, hlookup⟩ := Finmap.mem_iff.mp hmem
    rw [hagrees id v hlookup, hlast id v hlookup]
  · intro hsent id v hlookup
    rw [hsent id (Finmap.mem_of_lookup_eq_some hlookup), hlast id v hlookup]

/-- The events are sent in the order of the inserts. -/
theorem streamAgrees_of_insertOrder :
    ∃ s, exec step (init 60000 16) [.readClock 1 (messageOf "dev-1"), .insert 0 [],
        .readClock 2 warmer, .insert 0 ["dev-1"], .send 0, .send 0] = some s ∧
      s.cache.snapshotSensor 100 "dev-1" = some (⟨2, warmer.data⟩, false) ∧
      (lastPerDevice s.cache.events).lookup "dev-1" = some ⟨2, warmer.data⟩ := by
  have hrun : ∃ s, exec step (init 60000 16) [.readClock 1 (messageOf "dev-1"), .insert 0 [],
      .readClock 2 warmer, .insert 0 ["dev-1"], .send 0, .send 0] = some s ∧ s.Finished ∧
      s.cache.snapshotSensor 100 "dev-1" = some (⟨2, warmer.data⟩, false) :=
    ⟨_, rfl, ⟨rfl, rfl⟩, rfl⟩
  obtain ⟨s, hexec, hfinished, hsnapshot⟩ := hrun
  have horder : Always step SendsInOrder (init 60000 16) [.readClock 1 (messageOf "dev-1"),
      .insert 0 [], .readClock 2 warmer, .insert 0 ["dev-1"], .send 0, .send 0] := by
    decide +kernel
  have hid : normalizeDeviceId "dev-1" = "dev-1" := by decide +kernel
  have hstream := (streamAgrees_of_run hexec).1 horder hfinished _ _ _ _ hsnapshot
  rw [hid] at hstream
  exact ⟨s, hexec, hsnapshot, hstream⟩

/-- The second call sends first, and a subscriber is left with the older message. -/
theorem not_streamAgrees_of_lateSend :
    ∃ s, exec step (init 60000 16) [.readClock 1 (messageOf "dev-1"), .insert 0 [],
        .readClock 2 warmer, .insert 0 ["dev-1"], .send 1, .send 0] = some s ∧ s.Finished ∧
      s.cache.snapshotSensor 100 "dev-1" = some (⟨2, warmer.data⟩, false) ∧
      (lastPerDevice s.cache.events).lookup "dev-1" = some ⟨1, (messageOf "dev-1").data⟩ ∧
      (⟨2, warmer.data⟩ : SensorState ℤ) ≠ ⟨1, (messageOf "dev-1").data⟩ := by
  refine ⟨_, rfl, ⟨rfl, rfl⟩, rfl, rfl, fun h => ?_⟩
  exact absurd (congrArg SensorState.lastSeenMs h) (by decide)

end CacheCalls

end SmarthomeIngest
