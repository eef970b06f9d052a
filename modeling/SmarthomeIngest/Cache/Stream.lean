import SmarthomeIngest.Cache.Concurrent

/-!
# A client of the stream

The handlers of the cache API beside the calls of `update_sensor`, and a client that keeps the last
state of every device. The broadcast channel keeps a number of events. A client that is behind them
loses some and is told to poll `/v1/state`, and does so before it reads on; the answer may come from
before or after events that it has still to read.
-/

namespace SmarthomeIngest

open Transition

variable {F : Type}

/-! ### The handlers -/

/-- `snapshot_all_sensors`, with the order in which the map is iterated. -/
def CacheState.snapshotAllSensors (s : CacheState F) (order : List String) (now : ℕ) :
    List (String × SensorState F × Bool) :=
  (s.sensors.iter order).map fun (k, v) => (k, v, decide (s.ttlMs < now - v.lastSeenMs))

structure SensorDto (F : Type) where
  deviceId : String
  stale : Bool
  lastSeenMs : ℕ
  value : SensorData F

structure SensorStateResponse (F : Type) where
  ttlMs : ℕ
  sensors : List (SensorDto F)

def listState (s : CacheState F) (order : List String) (now : ℕ) : SensorStateResponse F where
  ttlMs := s.ttlMs
  sensors := (s.snapshotAllSensors order now).map fun (deviceId, state, stale) =>
    ⟨deviceId, stale, state.lastSeenMs, state.value⟩

structure SensorDtoNoId (F : Type) where
  stale : Bool
  lastSeenMs : ℕ
  value : SensorData F

structure DeviceStateResponse (F : Type) where
  ttlMs : ℕ
  deviceId : String
  sensor : Option (SensorDtoNoId F)

def getState (s : CacheState F) (now : ℕ) (deviceId : String) : DeviceStateResponse F where
  ttlMs := s.ttlMs
  deviceId := deviceId
  sensor := (s.snapshotSensor now deviceId).map fun (state, stale) =>
    ⟨stale, state.lastSeenMs, state.value⟩

/-- The events of `stream_updates`. -/
inductive SseEvent (F : Type) where
  | sensor (e : CacheEvent F)
  | lagged

/-- What the stream has next for a receiver, and where the receiver is then. The channel keeps the
last `capacity` events. -/
def streamUpdates (capacity : ℕ) (events : List (CacheEvent F)) (next : ℕ) :
    Option (SseEvent F × ℕ) :=
  if next + capacity < events.length then some (.lagged, events.length - capacity)
  else events[next]?.map fun e => (.sensor e, next + 1)

/-! ### The system -/

/-- A client: its place in the stream, whether it has been told to poll, and what it holds. -/
structure StreamClient (F : Type) where
  next : ℕ
  polling : Bool
  view : HashMap String (SensorState F)

structure CacheStream (F : Type) where
  calls : CacheCalls F
  client : Option (StreamClient F)

inductive StreamLabel (F : Type) where
  | call (l : CacheLabel F)
  | connect
  | recv
  | poll (order : List String) (now : ℕ)

/-- The events, one after the other, on what a client holds. -/
def applyEvents (view : HashMap String (SensorState F)) (events : List (CacheEvent F)) :
    HashMap String (SensorState F) :=
  events.foldl (fun m e => m.insert e.deviceId e.state) view

namespace StreamClient

def onEvent (c : StreamClient F) (next : ℕ) : SseEvent F → StreamClient F
  | .sensor e => { c with next := next, view := c.view.insert e.deviceId e.state }
  | .lagged   => { c with next := next, polling := true }

/-- The answer to a poll takes the place of what the client holds. -/
def onState (c : StreamClient F) (response : SensorStateResponse F) : StreamClient F :=
  { c with
    polling := false
    view := response.sensors.foldl
      (fun m dto => m.insert dto.deviceId ⟨dto.lastSeenMs, dto.value⟩) ∅ }

end StreamClient

namespace CacheStream

def init (ttlMs bufferSize : ℕ) : CacheStream F := ⟨.init ttlMs bufferSize, none⟩

def events (s : CacheStream F) : List (CacheEvent F) := s.calls.cache.events

variable (capacity : ℕ)

/-- A receiver has no events from before it subscribed, so the client polls first. Between a poll
and its answer the client does not read the stream. -/
def step (s : CacheStream F) : StreamLabel F → Option (CacheStream F)
  | .call l => (s.calls.step l).map fun calls => { s with calls := calls }
  | .connect => some { s with client := some ⟨s.events.length, true, ∅⟩ }
  | .recv => s.client.bind fun c =>
    if c.polling then none
    else (streamUpdates capacity s.events c.next).map fun (e, next) =>
      { s with client := some (c.onEvent next e) }
  | .poll order now => s.client.bind fun c =>
    if s.calls.cache.sensors.IterOrder order then
      some { s with client := some (c.onState (listState s.calls.cache order now)) }
    else none

/-- The sends of the calls are in order. -/
def SendsInOrder (s : CacheStream F) : StreamLabel F → Prop
  | .call l => s.calls.SendsInOrder l
  | _ => True

instance [DecidableEq F] (s : CacheStream F) : ∀ l, Decidable (s.SendsInOrder l)
  | .call l => inferInstanceAs (Decidable (s.calls.SendsInOrder l))
  | .connect | .recv | .poll _ _ => isTrue trivial

/-- The client has read all events, and has not been told to poll. -/
def CaughtUp (s : CacheStream F) (c : StreamClient F) : Prop :=
  s.client = some c ∧ c.polling = false ∧ c.next = s.events.length

end CacheStream

/-! ### Events on a view -/

variable {view : HashMap String (SensorState F)} {events : List (CacheEvent F)} {id : String}

lemma applyEvents_concat (view : HashMap String (SensorState F)) (events : List (CacheEvent F))
    (e : CacheEvent F) :
    applyEvents view (events ++ [e]) = (applyEvents view events).insert e.deviceId e.state := by
  rw [applyEvents, List.foldl_append]
  rfl

/-- The last event of a device counts, and without one what was there. -/
lemma lookup_applyEvents (view : HashMap String (SensorState F)) (events : List (CacheEvent F))
    (id : String) :
    (applyEvents view events).lookup id =
      ((lastPerDevice events).lookup id).or (view.lookup id) := by
  induction events using List.reverseRecOn with
  | nil => rfl
  | append_singleton events e ih =>
    rw [applyEvents_concat, lastPerDevice_append]
    by_cases hid : id = e.deviceId
    · subst hid
      rw [Finmap.lookup_insert, Finmap.lookup_insert, Option.some_or]
    · rw [Finmap.lookup_insert_of_ne _ hid, Finmap.lookup_insert_of_ne _ hid, ih]

lemma lastPerDevice_split (events : List (CacheEvent F)) (n : ℕ) (id : String) :
    (lastPerDevice events).lookup id =
      ((lastPerDevice (events.drop n)).lookup id).or
        ((lastPerDevice (events.take n)).lookup id) := by
  have hsplit : lastPerDevice events =
      applyEvents (lastPerDevice (events.take n)) (events.drop n) := by
    rw [applyEvents, lastPerDevice, lastPerDevice, ← List.foldl_append, List.take_append_drop]
  rw [hsplit, lookup_applyEvents]

/-- A polled client holds what the map holds. -/
lemma lookup_onState {s : CacheState F} {order : List String} (horder : s.sensors.IterOrder order)
    (c : StreamClient F) (now : ℕ) {v : SensorState F} (h : s.sensors.lookup id = some v) :
    (c.onState (listState s order now)).view.lookup id = some v := by
  have hmem : id ∈ order := horder.mem.mpr (Finmap.mem_of_lookup_eq_some h)
  have hfold := HashMap.lookup_foldl_insert h order ∅ (.inl hmem)
  rwa [StreamClient.onState, listState, CacheState.snapshotAllSensors, List.foldl_map,
    List.foldl_map]

/-! ### What the channel has for a receiver -/

variable {capacity next next' : ℕ} {e : SseEvent F}

lemma streamUpdates_of_lag (h : next + capacity < events.length) :
    streamUpdates capacity events next = some (.lagged, events.length - capacity) := if_pos h

lemma streamUpdates_of_kept (h : events.length ≤ next + capacity) (hlt : next < events.length) :
    streamUpdates capacity events next = some (.sensor events[next], next + 1) := by
  rw [streamUpdates, if_neg (not_lt.mpr h), List.getElem?_eq_getElem hlt]
  rfl

lemma of_streamUpdates (h : streamUpdates capacity events next = some (e, next')) :
    (e = .lagged ∧ next' = events.length - capacity) ∨
      ∃ hlt : next < events.length, e = .sensor events[next] ∧ next' = next + 1 := by
  by_cases hlag : next + capacity < events.length
  · rw [streamUpdates_of_lag hlag] at h
    cases h
    exact .inl ⟨rfl, rfl⟩
  · rw [streamUpdates, if_neg hlag] at h
    obtain ⟨event, hget, heq⟩ := Option.map_eq_some_iff.mp h
    obtain ⟨hlt, rfl⟩ := List.getElem?_eq_some_iff.mp hget
    cases heq
    exact .inr ⟨hlt, rfl, rfl⟩

/-! ### The client -/

namespace CacheStream

variable {s s' : CacheStream F} {l : StreamLabel F} {c : StreamClient F}

/-- The steps of `s`, with their labels and their results. -/
inductive StreamRule (capacity : ℕ) (s : CacheStream F) : StreamLabel F → CacheStream F → Prop
  | call {l : CacheLabel F} {calls : CacheCalls F} (hcalls : s.calls.step l = some calls) :
      StreamRule capacity s (.call l) { s with calls := calls }
  | connect : StreamRule capacity s .connect { s with client := some ⟨s.events.length, true, ∅⟩ }
  | recv {c : StreamClient F} {e : SseEvent F} {next : ℕ} (hclient : s.client = some c)
      (hpolling : c.polling = false)
      (hstream : streamUpdates capacity s.events c.next = some (e, next)) :
      StreamRule capacity s .recv { s with client := some (c.onEvent next e) }
  | poll {c : StreamClient F} {order : List String} {now : ℕ} (hclient : s.client = some c)
      (horder : s.calls.cache.sensors.IterOrder order) :
      StreamRule capacity s (.poll order now)
        { s with client := some (c.onState (listState s.calls.cache order now)) }

theorem StreamRule.of_step (h : s.step capacity l = some s') : StreamRule capacity s l s' := by
  cases l with
  | call l =>
    obtain ⟨calls, hcalls, rfl⟩ := Option.map_eq_some_iff.mp h
    exact .call hcalls
  | connect =>
    cases h
    exact .connect
  | recv =>
    obtain ⟨c, hclient, h⟩ := Option.bind_eq_some_iff.mp h
    split_ifs at h with hpolling
    obtain ⟨⟨e, next⟩, hstream, rfl⟩ := Option.map_eq_some_iff.mp h
    exact .recv hclient (Bool.eq_false_of_not_eq_true hpolling) hstream
  | poll order now =>
    obtain ⟨c, hclient, h⟩ := Option.bind_eq_some_iff.mp h
    split_ifs at h with horder
    cases h
    exact .poll hclient horder

/-- With the events that it has still to read, the client has what the map holds for the devices
without calls that have still to send. -/
structure Follows (s : CacheStream F) (c : StreamClient F) : Prop where
  next_le : c.next ≤ s.events.length
  lookup : c.polling = false → ∀ id v, s.calls.cache.sensors.lookup id = some v →
    (∀ e ∈ s.calls.unsent, e.deviceId ≠ id) →
    (applyEvents c.view (s.events.drop c.next)).lookup id = some v

/-- The calls keep the stream in agreement with the map, and the client follows it. -/
structure Inv (s : CacheStream F) : Prop where
  agrees : s.calls.StreamAgrees
  holdsLast : s.calls.HoldsLast
  follows : ∀ c, s.client = some c → s.Follows c

lemma Inv.init (ttlMs bufferSize : ℕ) : (init ttlMs bufferSize : CacheStream F).Inv where
  agrees := by
    intro id v h
    cases h
  holdsLast := by
    intro id v h
    cases h
  follows := by
    intro c h
    cases h

/-- An event that is sent comes behind those that the client has still to read. -/
lemma Follows.call {l : CacheLabel F} {calls : CacheCalls F} (hs : s.Follows c)
    (hcalls : s.calls.step l = some calls) (hagrees : calls.StreamAgrees) :
    ({ s with calls := calls } : CacheStream F).Follows c := by
  cases CacheCalls.Rule.of_step hcalls with
  | readClock => exact ⟨hs.next_le, hs.lookup⟩
  | @insert i order e hcall horder =>
    refine ⟨hs.next_le, fun hpolling id v hlookup hunsent => ?_⟩
    rcases CacheState.lookup_insertSensor hlookup with ⟨rfl, -⟩ | ⟨-, hlookup⟩
    · exact absurd rfl (hunsent e (by simp))
    · exact hs.lookup hpolling id v hlookup fun e' he' => hunsent e' (List.mem_append_left _ he')
  | @send i e hcall =>
    have hle : c.next ≤ (s.events ++ [e]).length :=
      hs.next_le.trans (by simp)
    refine ⟨hle, fun hpolling id v hlookup hunsent => ?_⟩
    have hdrop : (s.events ++ [e]).drop c.next = s.events.drop c.next ++ [e] :=
      List.drop_append_of_le_length hs.next_le
    have hsent := hagrees id v hlookup hunsent
    change (applyEvents c.view ((s.events ++ [e]).drop c.next)).lookup id = some v
    rw [hdrop, applyEvents_concat]
    rw [CacheState.send, lastPerDevice_append] at hsent
    by_cases hid : id = e.deviceId
    · subst hid
      rw [Finmap.lookup_insert] at hsent ⊢
      exact hsent
    · rw [Finmap.lookup_insert_of_ne _ hid]
      refine hs.lookup hpolling id v hlookup fun e' he' hid' => ?_
      subst hid'
      exact hunsent e' (CacheCalls.mem_eraseIdx_of_ne hcall hid he') rfl

lemma Follows.recv {e : SseEvent F} {next : ℕ} (hs : s.Follows c) (hpolling : c.polling = false)
    (hstream : streamUpdates capacity s.events c.next = some (e, next)) :
    s.Follows (c.onEvent next e) := by
  rcases of_streamUpdates hstream with ⟨rfl, rfl⟩ | ⟨hlt, rfl, rfl⟩
  · exact ⟨Nat.sub_le _ _, fun h => absurd h (by simp [StreamClient.onEvent])⟩
  · refine ⟨hlt, fun _ id v hlookup hunsent => ?_⟩
    have hold := hs.lookup hpolling id v hlookup hunsent
    rwa [List.drop_eq_getElem_cons hlt] at hold

/-- The events that the client has not read when it polls may be older than the answer. After the
last of them it has the answer again. -/
lemma Follows.poll {order : List String} (hs : s.Follows c) (hagrees : s.calls.StreamAgrees)
    (horder : s.calls.cache.sensors.IterOrder order) (now : ℕ) :
    s.Follows (c.onState (listState s.calls.cache order now)) := by
  refine ⟨hs.next_le, fun _ id v hlookup hunsent => ?_⟩
  have hstream := hagrees id v hlookup hunsent
  have hview := lookup_onState horder c now hlookup
  rw [lastPerDevice_split _ c.next] at hstream
  rw [lookup_applyEvents, hview]
  change ((lastPerDevice (s.events.drop c.next)).lookup id).or (some v) = some v
  cases hlast : (lastPerDevice (s.events.drop c.next)).lookup id with
  | none => rfl
  | some w =>
    change ((lastPerDevice (s.events.drop c.next)).lookup id).or _ = some v at hstream
    rw [hlast, Option.some_or] at hstream
    rw [Option.some_or, hstream]

lemma Inv.step (hs : s.Inv) (horder : s.SendsInOrder l) (h : s.step capacity l = some s') :
    s'.Inv := by
  cases StreamRule.of_step h with
  | @call l calls hcalls =>
    have hagrees : calls.StreamAgrees :=
      (CacheCalls.streamAgrees_iff_sendsInOrder hs.agrees hs.holdsLast hcalls).mpr horder
    exact ⟨hagrees, hs.holdsLast.step hcalls, fun c hc => (hs.follows c hc).call hcalls hagrees⟩
  | connect =>
    refine ⟨hs.agrees, hs.holdsLast, fun c hc => ?_⟩
    cases hc
    exact ⟨le_rfl, fun h => (by cases h)⟩
  | @recv c e next hclient hpolling hstream =>
    refine ⟨hs.agrees, hs.holdsLast, fun c' hc' => ?_⟩
    cases hc'
    have hfollows := (hs.follows c hclient).recv hpolling hstream
    exact ⟨hfollows.next_le, hfollows.lookup⟩
  | @poll c order now hclient hiter =>
    refine ⟨hs.agrees, hs.holdsLast, fun c' hc' => ?_⟩
    cases hc'
    have hfollows := (hs.follows c hclient).poll hs.agrees hiter now
    exact ⟨hfollows.next_le, hfollows.lookup⟩

/-! ### Catching up -/

lemma step_recv {e : SseEvent F} {next : ℕ} (hclient : s.client = some c)
    (hpolling : c.polling = false)
    (hstream : streamUpdates capacity s.events c.next = some (e, next)) :
    s.step capacity .recv = some { s with client := some (c.onEvent next e) } := by
  simp [step, hclient, hpolling, hstream]

lemma step_poll {order : List String} (hclient : s.client = some c)
    (horder : s.calls.cache.sensors.IterOrder order) (now : ℕ) :
    s.step capacity (.poll order now) =
      some { s with client := some (c.onState (listState s.calls.cache order now)) } := by
  simp [step, hclient, horder]

/-- A step of the client. -/
inductive OfClient : StreamLabel F → Prop
  | recv : OfClient .recv
  | poll (order : List String) (now : ℕ) : OfClient (.poll order now)

/-- In at most `n` steps of its own the client has caught up, with nothing else changed. -/
def CatchesUp (capacity : ℕ) (s : CacheStream F) (n : ℕ) : Prop :=
  ∃ ls s' c', ls.length ≤ n ∧ (∀ l ∈ ls, OfClient l) ∧ exec (step capacity) s ls = some s' ∧
    s'.calls = s.calls ∧ s'.CaughtUp c'

lemma CatchesUp.mono {n n' : ℕ} (h : s.CatchesUp capacity n) (hle : n ≤ n') :
    s.CatchesUp capacity n' := by
  obtain ⟨ls, s', c', hlen, hrest⟩ := h
  exact ⟨ls, s', c', hlen.trans hle, hrest⟩

lemma CatchesUp.cons {n : ℕ} (hl : OfClient l) (hstep : s.step capacity l = some s')
    (hcalls : s'.calls = s.calls) (h : s'.CatchesUp capacity n) :
    s.CatchesUp capacity (n + 1) := by
  obtain ⟨ls, t, c', hlen, hls, hexec, hcalls', hcaught⟩ := h
  refine ⟨l :: ls, t, c', Nat.succ_le_succ hlen, ?_, ?_, hcalls'.trans hcalls, hcaught⟩
  · rintro l' (_ | ⟨_, hmem⟩)
    · exact hl
    · exact hls l' hmem
  · rw [exec, hstep]
    exact hexec

/-- A client that the channel has all events for reads them one after the other. -/
lemma catchesUp_of_kept (n : ℕ) (hclient : s.client = some c) (hpolling : c.polling = false)
    (hkept : s.events.length ≤ c.next + capacity) (hn : c.next + n = s.events.length) :
    s.CatchesUp capacity n := by
  induction n generalizing s c with
  | zero =>
    exact ⟨[], s, c, le_rfl, List.forall_mem_nil _, rfl, rfl, hclient, hpolling, hn⟩
  | succ n ih =>
    have hlt : c.next < s.events.length := by omega
    have hstep := step_recv hclient hpolling (streamUpdates_of_kept hkept hlt)
    apply CatchesUp.cons .recv hstep rfl
    refine ih (c := c.onEvent (c.next + 1) (.sensor s.events[c.next])) rfl hpolling ?_ ?_
    · exact hkept.trans (Nat.add_le_add_right (Nat.le_succ _) _)
    · exact (Nat.succ_add_eq_add_succ _ _).trans hn

/-- A client that the channel has all events for, and that polls first. -/
lemma catchesUp_of_poll (hclient : s.client = some c) (hle : c.next ≤ s.events.length)
    (hkept : s.events.length ≤ c.next + capacity) : s.CatchesUp capacity (capacity + 1) := by
  apply CatchesUp.cons (.poll _ _) (step_poll hclient (HashMap.iterOrder_toList _) 0) rfl
  have hkeeps := catchesUp_of_kept (s := { s with
      client := some (c.onState (listState s.calls.cache s.calls.cache.sensors.keys.toList 0)) })
    (s.events.length - c.next) rfl rfl hkept (Nat.add_sub_of_le hle)
  exact hkeeps.mono (Nat.sub_le_of_le_add (by rwa [Nat.add_comm]))

/-- A client that the channel no longer has all events for is told so, and polls. -/
lemma catchesUp_of_lag (hclient : s.client = some c) (hpolling : c.polling = false)
    (hlag : c.next + capacity < s.events.length) : s.CatchesUp capacity (capacity + 2) := by
  have hstep := step_recv hclient hpolling (streamUpdates_of_lag hlag)
  apply CatchesUp.cons .recv hstep rfl
  apply catchesUp_of_poll rfl
  · exact Nat.sub_le _ _
  · exact Nat.le_add_of_sub_le le_rfl

/-- What the client holds is what the cache holds. -/
lemma Follows.state_of_caughtUp (hs : s.Follows c) (hcaught : s.CaughtUp c) {now : ℕ}
    {device : String} {dto : SensorDtoNoId F}
    (hget : (getState s.calls.cache now device).sensor = some dto)
    (hunsent : ∀ e ∈ s.calls.unsent, e.deviceId ≠ normalizeDeviceId device) :
    c.view.lookup (normalizeDeviceId device) = some ⟨dto.lastSeenMs, dto.value⟩ := by
  obtain ⟨-, hpolling, hnext⟩ := hcaught
  obtain ⟨⟨v, stale⟩, hsnapshot, rfl⟩ := Option.map_eq_some_iff.mp hget
  obtain ⟨v', hlookup, heq⟩ := Option.map_eq_some_iff.mp hsnapshot
  cases heq
  have hview := hs.lookup hpolling _ v hlookup hunsent
  rwa [hnext, List.drop_length] at hview

/-- In a run in which no call sends an older state last, a client that polls when it is told to can
get to the end of the stream from any state, by at most three steps more than the channel keeps
events. Whenever it is there, what it holds for a device without calls that have still to send is
what `/v1/state/{device_id}` answers. -/
theorem caughtUp_of_run {ttlMs bufferSize : ℕ} {ls : List (StreamLabel F)}
    (horder : Always (step capacity) SendsInOrder (init ttlMs bufferSize) ls)
    (h : exec (step capacity) (init ttlMs bufferSize) ls = some s) :
    (∀ c, s.client = some c → s.CatchesUp capacity (capacity + 3)) ∧
    (∀ c, s.CaughtUp c → ∀ now device dto,
      (getState s.calls.cache now device).sensor = some dto →
      (∀ e ∈ s.calls.unsent, e.deviceId ≠ normalizeDeviceId device) →
      c.view.lookup (normalizeDeviceId device) = some ⟨dto.lastSeenMs, dto.value⟩) := by
  have hinv : s.Inv := by
    refine Reach.invariant (P := Inv) (.init _ _) ?_ (Reach.of_exec horder h)
    exact fun s l s' hs horder hstep => hs.step horder hstep
  constructor
  · intro c hclient
    have hle := (hinv.follows c hclient).next_le
    by_cases hkept : s.events.length ≤ c.next + capacity
    · exact (catchesUp_of_poll hclient hle hkept).mono (by omega)
    · have hlag : c.next + capacity < s.events.length := not_le.mp hkept
      -- whether it has been told to poll or not, it may do so first
      apply CatchesUp.cons (.poll _ _) (step_poll hclient (HashMap.iterOrder_toList _) 0) rfl
      exact catchesUp_of_lag rfl rfl hlag
  · intro c hcaught now device dto hget hunsent
    exact (hinv.follows c hcaught.1).state_of_caughtUp hcaught hget hunsent

/-- The client has not read an event when the channel, which keeps one, has had two. -/
def laggingClient : List (StreamLabel ℤ) :=
  [.connect, .poll [] 0, .call (.readClock 1 (messageOf "dev-1")), .call (.insert 0 []),
    .call (.send 0), .call (.readClock 2 CacheCalls.warmer), .call (.insert 0 ["dev-1"]),
    .call (.send 0), .recv, .poll ["dev-1"] 5, .recv]

theorem caughtUp_of_laggingClient :
    ∃ s c, exec (step 1) (init 60000 16) laggingClient = some s ∧ s.CaughtUp c ∧
      s.CatchesUp 1 4 ∧ c.view.lookup "dev-1" = some ⟨2, CacheCalls.warmer.data⟩ := by
  have hrun : ∃ s c, exec (step 1) (init 60000 16) laggingClient = some s ∧ s.CaughtUp c ∧
      s.calls.unsent = [] ∧ (getState s.calls.cache 100 "dev-1").sensor =
        some ⟨false, 2, CacheCalls.warmer.data⟩ :=
    ⟨_, _, rfl, ⟨rfl, rfl, rfl⟩, rfl, rfl⟩
  obtain ⟨s, c, hexec, hcaught, hunsent, hget⟩ := hrun
  have horder : Always (step 1) SendsInOrder (init 60000 16) laggingClient := by decide +kernel
  obtain ⟨hcatches, hholds⟩ := caughtUp_of_run horder hexec
  have hid : normalizeDeviceId "dev-1" = "dev-1" := by decide +kernel
  have hview := hholds c hcaught 100 "dev-1" _ hget (by simp [hunsent])
  rw [hid] at hview
  exact ⟨s, c, hexec, hcaught, hcatches c hcaught.1, hview⟩

end CacheStream

end SmarthomeIngest
