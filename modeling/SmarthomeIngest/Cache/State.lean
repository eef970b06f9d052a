import SmarthomeIngest.Lib.HashMap
import SmarthomeIngest.Lib.Text
import SmarthomeIngest.Lib.Transition
import SmarthomeIngest.Message.Messages

/-!
# The sensor cache

`CacheState`: the last state of every device, up to a number of devices, and the events that have
been broadcast. An update reads the clock, writes to the map under its lock, and sends an event. In
which order the map is iterated when an entry has to go is not known.
-/

namespace SmarthomeIngest

open Transition

variable {F : Type}

/-! ### Definitions -/

deriving instance DecidableEq for SensorData

structure SensorState (F : Type) where
  lastSeenMs : ℕ
  value : SensorData F
  deriving DecidableEq

/-- `CacheEvent::Sensor`, the only kind of event. -/
structure CacheEvent (F : Type) where
  deviceId : String
  lastSeenMs : ℕ
  value : SensorData F

/-- What the map holds for the device of an event. -/
def CacheEvent.state (e : CacheEvent F) : SensorState F := ⟨e.lastSeenMs, e.value⟩

structure CacheState (F : Type) where
  sensors : HashMap String (SensorState F)
  ttlMs : ℕ
  maxSensors : ℕ
  /-- What has been sent to the subscribers. -/
  events : List (CacheEvent F)

def normalizeDeviceId (deviceId : String) : String := Text.toAsciiLowercase (Text.trim deviceId)

namespace CacheState

def new (ttlMs bufferSize : ℕ) : CacheState F where
  sensors := ∅
  ttlMs := ttlMs
  maxSensors := bufferSize
  events := []

/-- A new device would exceed the cap. -/
def Full (s : CacheState F) (deviceId : String) : Prop :=
  0 < s.maxSensors ∧ deviceId ∉ s.sensors ∧ s.maxSensors ≤ s.sensors.size

instance (s : CacheState F) (deviceId : String) : Decidable (s.Full deviceId) :=
  inferInstanceAs (Decidable (_ ∧ _))

/-- The map without its stalest entry, if it is full. -/
def evict (s : CacheState F) (order : List String) (deviceId : String) :
    HashMap String (SensorState F) :=
  if s.Full deviceId then
    match s.sensors.minBy SensorState.lastSeenMs order with
    | some oldestKey => s.sensors.erase oldestKey
    | none           => s.sensors
  else s.sensors

/-- The part of `update_sensor` under the lock. -/
def insertSensor (s : CacheState F) (order : List String) (e : CacheEvent F) : CacheState F :=
  { s with sensors := (s.evict order e.deviceId).insert e.deviceId e.state }

def send (s : CacheState F) (e : CacheEvent F) : CacheState F :=
  { s with events := s.events ++ [e] }

/-- The event of an update, with the clock reading in it. -/
def eventOf (now : ℕ) (sensorMsg : SensorMessage F) : CacheEvent F :=
  ⟨normalizeDeviceId sensorMsg.deviceId, now, sensorMsg.data⟩

/-- `update_sensor`, with the clock reading and the order in which the map is iterated. -/
def updateSensor (s : CacheState F) (order : List String) (now : ℕ) (sensorMsg : SensorMessage F) :
    CacheState F :=
  (s.insertSensor order (eventOf now sensorMsg)).send (eventOf now sensorMsg)

/-- The entry of a device, and whether it is stale. -/
def snapshotSensor (s : CacheState F) (now : ℕ) (deviceId : String) :
    Option (SensorState F × Bool) :=
  (s.sensors.lookup (normalizeDeviceId deviceId)).map fun val =>
    (val, decide (s.ttlMs < now - val.lastSeenMs))

end CacheState

/-- A call of `update_sensor` from start to end. -/
structure CacheUpdate (F : Type) where
  order : List String
  now : ℕ
  sensorMsg : SensorMessage F

def CacheState.update (s : CacheState F) (u : CacheUpdate F) : Option (CacheState F) :=
  if s.sensors.IterOrder u.order then some (s.updateSensor u.order u.now u.sensorMsg) else none

/-! ### Device ids -/

/-- The id of a device with white space around it, in any case. -/
def SpellingOf (deviceId spelling : String) : Prop :=
  ∃ before inner after, spelling = String.ofList (before ++ inner.toList ++ after) ∧
    (∀ c ∈ before, Text.isWhitespace c) ∧ (∀ c ∈ after, Text.isWhitespace c) ∧
    Text.EqIgnoreAsciiCase inner deviceId

lemma normalizeDeviceId_of_spelling {deviceId spelling : String}
    (h : SpellingOf deviceId spelling) :
    normalizeDeviceId spelling = normalizeDeviceId deviceId := by
  obtain ⟨before, inner, after, rfl, hbefore, hafter, hcase⟩ := h
  rw [normalizeDeviceId, normalizeDeviceId, Text.trim, Text.trim,
    Text.trimMatches_surround hbefore hafter,
    Text.toAsciiLowercase_trimMatches Text.isWhitespace_toLower, hcase,
    Text.toAsciiLowercase_trimMatches Text.isWhitespace_toLower]

/-! ### The map -/

namespace CacheState

variable {s s' : CacheState F} {order : List String} {e : CacheEvent F}

lemma evict_of_not_full {deviceId : String} (h : ¬ s.Full deviceId) :
    s.evict order deviceId = s.sensors := if_neg h

/-- A full map loses one of its stalest entries. -/
lemma evict_of_full {deviceId : String} (horder : s.sensors.IterOrder order)
    (h : s.Full deviceId) :
    ∃ k v, s.sensors.lookup k = some v ∧
      (∀ k' v', s.sensors.lookup k' = some v' → v.lastSeenMs ≤ v'.lastSeenMs) ∧
      s.evict order deviceId = s.sensors.erase k := by
  obtain ⟨k, hk⟩ := HashMap.exists_mem_of_size (h.1.trans_le h.2.2)
  obtain ⟨k', hmin⟩ := HashMap.exists_minBy SensorState.lastSeenMs horder hk
  obtain ⟨v, hlookup, hle⟩ := HashMap.of_minBy horder hmin
  refine ⟨k', v, hlookup, hle, ?_⟩
  rw [evict, if_pos h, hmin]

/-- What is still there after the eviction is as it was. -/
lemma lookup_of_evict {deviceId k : String} {v : SensorState F}
    (h : (s.evict order deviceId).lookup k = some v) : s.sensors.lookup k = some v := by
  unfold evict at h
  split_ifs at h
  · split at h
    · rename_i oldest _
      by_cases hk : k = oldest
      · subst hk
        rw [Finmap.lookup_erase] at h
        cases h
      · rwa [Finmap.lookup_erase_ne hk] at h
    · exact h
  · exact h

/-- The entry of the device is the new one, and the others are as they were. -/
lemma lookup_insertSensor {k : String} {v : SensorState F}
    (h : (s.insertSensor order e).sensors.lookup k = some v) :
    k = e.deviceId ∧ v = e.state ∨ k ≠ e.deviceId ∧ s.sensors.lookup k = some v := by
  by_cases hk : k = e.deviceId
  · subst hk
    rw [insertSensor, Finmap.lookup_insert] at h
    exact .inl ⟨rfl, (Option.some.inj h).symm⟩
  · rw [insertSensor, Finmap.lookup_insert_of_ne _ hk] at h
    exact .inr ⟨hk, lookup_of_evict h⟩

lemma lookup_insertSensor_self :
    (s.insertSensor order e).sensors.lookup e.deviceId = some e.state :=
  Finmap.lookup_insert _

/-! ### Capacity -/

lemma size_insertSensor (horder : s.sensors.IterOrder order) (hmax : 0 < s.maxSensors)
    (h : s.sensors.size ≤ s.maxSensors) :
    (s.insertSensor order e).sensors.size ≤ s.maxSensors := by
  by_cases hfull : s.Full e.deviceId
  · obtain ⟨k, v, hlookup, -, hevict⟩ := evict_of_full horder hfull
    have hmem : k ∈ s.sensors := Finmap.mem_of_lookup_eq_some hlookup
    have hfresh : e.deviceId ∉ s.sensors.erase k := fun hin =>
      hfull.2.1 (Finmap.mem_erase.mp hin).2
    have hsize := HashMap.size_erase hmem
    rw [insertSensor, hevict, HashMap.size_insert_of_notMem hfresh]
    omega
  · rw [insertSensor, evict_of_not_full hfull]
    by_cases hmem : e.deviceId ∈ s.sensors
    · rwa [HashMap.size_insert_of_mem hmem]
    · have hroom : s.sensors.size < s.maxSensors := not_le.mp fun hle => hfull ⟨hmax, hmem, hle⟩
      rw [HashMap.size_insert_of_notMem hmem]
      exact hroom

/-- The call of `update_sensor` writes the entry of its device and changes no other, but for one of
the stalest that makes room for a new device. -/
def Writes (s s' : CacheState F) (e : CacheEvent F) : Prop :=
  (e.deviceId ∈ s.sensors ∨ s.sensors.size < s.maxSensors) ∧
      s'.sensors = s.sensors.insert e.deviceId e.state ∨
    (e.deviceId ∉ s.sensors ∧ s.sensors.size = s.maxSensors) ∧ ∃ k v,
      s.sensors.lookup k = some v ∧
      (∀ k' v', s.sensors.lookup k' = some v' → v.lastSeenMs ≤ v'.lastSeenMs) ∧
      s'.sensors = (s.sensors.erase k).insert e.deviceId e.state

lemma writes_insertSensor (horder : s.sensors.IterOrder order) (hmax : 0 < s.maxSensors)
    (h : s.sensors.size ≤ s.maxSensors) : s.Writes (s.insertSensor order e) e := by
  by_cases hfull : s.Full e.deviceId
  · obtain ⟨k, v, hlookup, hle, hevict⟩ := evict_of_full horder hfull
    refine .inr ⟨⟨hfull.2.1, h.antisymm hfull.2.2⟩, k, v, hlookup, hle, ?_⟩
    rw [insertSensor, hevict]
  · refine .inl ⟨?_, by rw [insertSensor, evict_of_not_full hfull]⟩
    by_cases hmem : e.deviceId ∈ s.sensors
    · exact .inl hmem
    · exact .inr (not_le.mp fun hle => hfull ⟨hmax, hmem, hle⟩)

lemma Writes.send (h : s.Writes s' e) (e' : CacheEvent F) : s.Writes (s'.send e') e := h

lemma of_update {u : CacheUpdate F} (h : s.update u = some s') :
    s.sensors.IterOrder u.order ∧ s' = s.updateSensor u.order u.now u.sensorMsg := by
  unfold update at h
  split_ifs at h with horder
  exact ⟨horder, (Option.some.inj h).symm⟩

lemma size_of_update {u : CacheUpdate F} (hmax : 0 < s.maxSensors)
    (h : s.sensors.size ≤ s.maxSensors) (hstep : s.update u = some s') :
    s'.maxSensors = s.maxSensors ∧ s'.sensors.size ≤ s.maxSensors := by
  obtain ⟨horder, rfl⟩ := of_update hstep
  exact ⟨rfl, size_insertSensor horder hmax h⟩

/-- No call makes the map larger than the cap, whatever the clock says. -/
lemma size_of_reachable {ttlMs maxSensors : ℕ} (hmax : 0 < maxSensors)
    (h : Reachable update (new ttlMs maxSensors) s) :
    s.maxSensors = maxSensors ∧ s.sensors.size ≤ maxSensors := by
  induction h with
  | refl => exact ⟨rfl, HashMap.size_empty.trans_le (Nat.zero_le _)⟩
  | tail _ _ hstep ih =>
    obtain ⟨rfl, hsize⟩ := ih
    exact size_of_update hmax hsize hstep

/-- The cap holds in every run, a call changes what it has to, and what it has stored is found under
every spelling of the id. -/
theorem capacity_of_run {ttlMs maxSensors : ℕ} (hmax : 0 < maxSensors) {us : List (CacheUpdate F)}
    (h : exec update (new ttlMs maxSensors) us = some s) :
    s.sensors.size ≤ maxSensors ∧ ∀ u s', s.update u = some s' →
      s'.sensors.size ≤ maxSensors ∧ s.Writes s' (eventOf u.now u.sensorMsg) ∧
      ∀ spelling now, SpellingOf u.sensorMsg.deviceId spelling →
        ∃ stale, s'.snapshotSensor now spelling = some (⟨u.now, u.sensorMsg.data⟩, stale) := by
  obtain ⟨rfl, hsize⟩ := size_of_reachable hmax (.of_exec h)
  refine ⟨hsize, fun u s' hu => ?_⟩
  obtain ⟨horder, rfl⟩ := of_update hu
  have hwrites := writes_insertSensor (e := eventOf u.now u.sensorMsg) horder hmax hsize
  refine ⟨(size_of_update hmax hsize hu).2, hwrites.send _, ?_⟩
  intro spelling now hspelling
  have hlookup : (s.updateSensor u.order u.now u.sensorMsg).sensors.lookup
      (normalizeDeviceId u.sensorMsg.deviceId) = some ⟨u.now, u.sensorMsg.data⟩ :=
    lookup_insertSensor_self (e := eventOf u.now u.sensorMsg)
  refine ⟨decide (s.ttlMs < now - u.now), ?_⟩
  rw [snapshotSensor, normalizeDeviceId_of_spelling hspelling, hlookup]
  rfl

end CacheState

/-- A message of a device. -/
def messageOf (device : String) : SensorMessage ℤ where
  deviceId := device
  room := "bath"
  deviceClass := "bme680"
  fwVersion := "1.0"
  timeMs := 5
  timeIso := "2026-01-01T00:00:00Z"
  timeValid := true
  bootId := none
  seq := none
  warmedUp := none
  replayed := false
  data := ⟨20, 50, 1013, 10000, 80, "Good", 9, 20, 300⟩

/-- With room for one device the second one replaces the first, although the clock went back. -/
theorem CacheState.capacity_of_twoDevices :
    ∃ s s', exec update (new 60000 1) [⟨[], 10, messageOf "Dev-1"⟩] = some s ∧
      s.update ⟨["dev-1"], 7, messageOf "Dev-2"⟩ = some s' ∧ s'.sensors.size ≤ 1 ∧
      ∃ stale, s'.snapshotSensor 100 " DEV-2" = some (⟨7, (messageOf "Dev-2").data⟩, stale) := by
  have hfirst : exec update (new 60000 1) [⟨[], 10, messageOf "Dev-1"⟩] =
      some ((new 60000 1).updateSensor [] 10 (messageOf "Dev-1")) := rfl
  have hsecond : ((new 60000 1).updateSensor [] 10 (messageOf "Dev-1")).update
      ⟨["dev-1"], 7, messageOf "Dev-2"⟩ = some _ := if_pos (by decide +kernel)
  obtain ⟨-, hcalls⟩ := capacity_of_run (by decide) hfirst
  obtain ⟨hsize, -, hsnapshot⟩ := hcalls _ _ hsecond
  have hspelling : SpellingOf "Dev-2" " DEV-2" :=
    ⟨[' '], "DEV-2", [], by decide, List.forall_mem_singleton.mpr rfl, List.forall_mem_nil _,
      by decide +kernel⟩
  exact ⟨_, _, hfirst, hsecond, hsize, hsnapshot _ 100 hspelling⟩

end SmarthomeIngest
