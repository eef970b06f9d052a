import SmarthomeIngest.Pipeline.Outcome
import SmarthomeIngest.Sink.Body
import SmarthomeIngest.Sink.LineSize
import SmarthomeIngest.Wal.Bincode

/-!
# The log can read every record the pipeline writes

The texts of a message are no longer than its payload, so its line is below the limit that is only
checked when a record is read.
-/

namespace SmarthomeIngest

variable {F : Type}

/-! ### Texts in a value -/

/-- No string in the value has more than `n` bytes. -/
inductive Value.StringsWithin (n : ℕ) : Value F → Prop where
  | null : StringsWithin n .null
  | bool (b : Bool) : StringsWithin n (.bool b)
  | number (m : Number F) : StringsWithin n (.number m)
  | string {s : String} (h : s.utf8ByteSize ≤ n) : StringsWithin n (.string s)
  | array {items : List (Value F)} (h : ∀ v ∈ items, StringsWithin n v) :
    StringsWithin n (.array items)
  | object {o : List (String × Value F)} (h : ∀ entry ∈ o, StringsWithin n entry.2) :
    StringsWithin n (.object o)

namespace Value.StringsWithin

variable {n : ℕ} {v : Value F} {o : Object F}

lemma mono (h : v.StringsWithin n) {m : ℕ} (hm : n ≤ m) : v.StringsWithin m := by
  induction h with
  | null => exact .null
  | bool b => exact .bool b
  | number k => exact .number k
  | string h => exact .string (h.trans hm)
  | array _ ih => exact .array ih
  | object _ ih => exact .object ih

lemma of_string {s : String} (h : (Value.string s : Value F).StringsWithin n) :
    s.utf8ByteSize ≤ n := by
  cases h with
  | string h => exact h

lemma of_object (h : (Value.object o).StringsWithin n) : ∀ entry ∈ o, entry.2.StringsWithin n := by
  cases h with
  | object h => exact h

lemma of_get (h : (Value.object o).StringsWithin n) {key : String}
    (hget : Object.get o key = some v) : v.StringsWithin n := by
  have hentries := h.of_object
  clear h
  induction o with
  | nil => cases hget
  | cons entry o ih =>
    obtain ⟨hentry, hrest⟩ := List.forall_mem_cons.mp hentries
    obtain ⟨k, w⟩ := entry
    rw [Object.get_cons] at hget
    split_ifs at hget
    · cases hget
      exact hentry
    · exact ih hget hrest

lemma insert (h : (Value.object o).StringsWithin n) (key : String) (hv : v.StringsWithin n) :
    (Value.object (Object.insert o key v)).StringsWithin n := by
  have hentries := h.of_object
  apply Value.StringsWithin.object
  clear h
  induction o with
  | nil => exact List.forall_mem_singleton.mpr hv
  | cons entry o ih =>
    obtain ⟨hentry, hrest⟩ := List.forall_mem_cons.mp hentries
    obtain ⟨k, w⟩ := entry
    rw [Object.insert]
    split_ifs
    · exact List.forall_mem_cons.mpr ⟨hv, hrest⟩
    · exact List.forall_mem_cons.mpr ⟨hentry, ih hrest⟩

/-- The fields of a struct, by name or by position. -/
lemma of_fields (h : v.StringsWithin n) {names : List String} {field : String → Option (Value F)}
    (hfields : FromValue.fields names v = some field) {key : String} {w : Value F}
    (hw : field key = some w) : w.StringsWithin n := by
  cases h with
  | object h =>
    cases hfields
    exact of_get (.object h) hw
  | array h =>
    rw [FromValue.fields] at hfields
    split_ifs at hfields
    cases hfields
    exact h w (List.mem_of_getElem? hw)
  | _ => cases hfields

/-! ### The transformation -/

lemma trimRootString (h : v.StringsWithin n) (key : String) :
    (Transform.trimRootString v key).StringsWithin n := by
  rcases Transform.trimRootString_cases v key with ⟨heq, -⟩ | ⟨o, s, rfl, hget, heq⟩
  · rwa [heq]
  · rw [heq]
    apply h.insert
    exact .string ((Text.utf8ByteSize_trimMatches_le _ s).trans (h.of_get hget).of_string)

lemma foldl_trimRootString (keys : List String) (h : v.StringsWithin n) :
    (keys.foldl Transform.trimRootString v).StringsWithin n := by
  induction keys generalizing v with
  | nil => exact h
  | cons key keys ih => exact ih (h.trimRootString key)

lemma ensure (h : v.StringsWithin n) (key : String) {default : Value F}
    (hdefault : default.StringsWithin n) : (Transform.ensure v key default).StringsWithin n := by
  unfold Transform.ensure
  split_ifs
  · cases v with
    | object o => exact h.insert key hdefault
    | _ => exact h
  · exact h

lemma transformStatusPayload (h : v.StringsWithin n) :
    (Transform.transformStatusPayload v).StringsWithin n := by
  have hempty : "".utf8ByteSize ≤ n := Nat.zero_le n
  have htrim := h.foldl_trimRootString Transform.statusStrings
  exact ((htrim.ensure "uptime" (.number _)).ensure "free_mem" (.number _)).ensure "ssid"
    (.string hempty)

variable [F64 F]

lemma setF64InObject (h : (Value.object o).StringsWithin n) {key : String} {x : F} {o' : Object F}
    (hset : Transform.setF64InObject o key x = .ok o') : (Value.object o').StringsWithin n := by
  unfold Transform.setF64InObject at hset
  cases hx : Number.fromF64 x with
  | none =>
    rw [hx] at hset
    cases hset
  | some m =>
    rw [hx] at hset
    cases hset
    exact h.insert key (.number m)

/-- The texts of the air quality are short. -/
lemma utf8ByteSize_calcIaqText_le (score : F) :
    (Transform.calcIaqText score).utf8ByteSize ≤ 64 := by
  unfold Transform.calcIaqText
  dsimp only
  split_ifs <;> decide

lemma storeDerived (h : (Value.object o).StringsWithin n) (hn : 64 ≤ n) {r : Transform.Readings F}
    {o' : Object F} (hstore : Transform.storeDerived Transform.formulas r o = .ok o') :
    (Value.object o').StringsWithin n := by
  unfold Transform.storeDerived at hstore
  obtain ⟨o₁, h₁, hstore⟩ := exists_of_bind_eq_ok hstore
  obtain ⟨o₂, h₂, hstore⟩ := exists_of_bind_eq_ok hstore
  obtain ⟨o₃, h₃, hstore⟩ := exists_of_bind_eq_ok hstore
  obtain ⟨o₄, h₄, hstore⟩ := exists_of_bind_eq_ok hstore
  have htext :=
    (utf8ByteSize_calcIaqText_le (Transform.calcIaqScore r.gasOhm r.relHumPerc)).trans hn
  have hderived := ((h.setF64InObject h₁).setF64InObject h₂).setF64InObject h₃
  exact ((hderived.insert "iaq_text" (.string htext)).setF64InObject h₄).setF64InObject hstore

lemma transformSensorPayload (h : v.StringsWithin n) (hn : 64 ≤ n) {w : Value F}
    (htransform : Transform.transformSensorPayload Transform.formulas v = .ok w) :
    w.StringsWithin n := by
  have htrim := h.foldl_trimRootString Transform.sensorStrings
  unfold Transform.transformSensorPayload at htransform
  generalize Transform.sensorStrings.foldl Transform.trimRootString v = u at htrim htransform
  cases u with
  | object o =>
    dsimp only at htransform
    cases hdata : (Object.get o "data").bind Value.asObject with
    | none =>
      rw [hdata] at htransform
      cases htransform
    | some data =>
      rw [hdata] at htransform
      obtain ⟨d, hget, hobject⟩ := Option.bind_eq_some_iff.mp hdata
      have hd : d = .object data := by
        cases d with
        | object _ =>
          cases hobject
          rfl
        | _ => cases hobject
      obtain ⟨r, -, htransform⟩ := exists_of_bind_eq_ok htransform
      obtain ⟨data', hstore, htransform⟩ := exists_of_bind_eq_ok htransform
      cases htransform
      have hwithin := htrim.of_get hget
      rw [hd] at hwithin
      exact htrim.insert "data" (hwithin.storeDerived hn hstore)
  | _ => cases htransform

lemma transformPayload (h : v.StringsWithin n) (hn : 64 ≤ n) {messageType : MessageType}
    {w : Value F} (htransform : transformPayload messageType v = .ok w) : w.StringsWithin n := by
  cases messageType with
  | sensor => exact h.transformSensorPayload hn htransform
  | status =>
    cases htransform
    exact h.transformStatusPayload

/-! ### The texts of messages -/

omit [F64 F] in
lemma of_required {w : Option (Value F)} (h : ∀ u ∈ w, u.StringsWithin n) {s : String}
    (hs : FromValue.required FromValue.string w = some s) : s.utf8ByteSize ≤ n := by
  obtain ⟨u, hu, hs⟩ := Option.bind_eq_some_iff.mp hs
  cases u with
  | string t =>
    cases hs
    exact (h _ hu).of_string
  | _ => cases hs

lemma sensorData (h : v.StringsWithin n) {data : SensorData F}
    (hdata : SensorData.fromValue v = some data) : data.iaqText.utf8ByteSize ≤ n := by
  obtain ⟨field, hfields, hdata⟩ := Option.bind_eq_some_iff.mp hdata
  unfold SensorData.fromFields at hdata
  iterate 5 obtain ⟨_, -, hdata⟩ := Option.bind_eq_some_iff.mp hdata
  obtain ⟨text, htext, hdata⟩ := Option.bind_eq_some_iff.mp hdata
  iterate 3 obtain ⟨_, -, hdata⟩ := Option.bind_eq_some_iff.mp hdata
  cases hdata
  exact of_required (fun u hu => h.of_fields hfields hu) htext

lemma sensorMessage (h : v.StringsWithin n) {msg : SensorMessage F}
    (hmsg : SensorMessage.fromValue v = some msg) :
    ∀ s ∈ (HandledMessage.sensor msg).texts, s.utf8ByteSize ≤ n := by
  obtain ⟨field, hfields, hmsg⟩ := Option.bind_eq_some_iff.mp hmsg
  have hfield : ∀ key, ∀ u ∈ field key, u.StringsWithin n := fun _ u hu => h.of_fields hfields hu
  unfold SensorMessage.fromFields at hmsg
  obtain ⟨deviceId, hid, hmsg⟩ := Option.bind_eq_some_iff.mp hmsg
  obtain ⟨room, hroom, hmsg⟩ := Option.bind_eq_some_iff.mp hmsg
  obtain ⟨deviceClass, hclass, hmsg⟩ := Option.bind_eq_some_iff.mp hmsg
  obtain ⟨fwVersion, hversion, hmsg⟩ := Option.bind_eq_some_iff.mp hmsg
  iterate 7 obtain ⟨_, -, hmsg⟩ := Option.bind_eq_some_iff.mp hmsg
  obtain ⟨data, hdata, hmsg⟩ := Option.bind_eq_some_iff.mp hmsg
  cases hmsg
  obtain ⟨d, hd, hdata⟩ := Option.bind_eq_some_iff.mp hdata
  simp only [HandledMessage.texts, List.forall_mem_cons]
  exact ⟨of_required (hfield _) hid, of_required (hfield _) hroom, of_required (hfield _) hclass,
    of_required (hfield _) hversion, (hfield _ d hd).sensorData hdata, List.forall_mem_nil _⟩

omit [F64 F] in
lemma of_optString {w : Option (Value F)} (h : ∀ u ∈ w, u.StringsWithin n) {s : Option String}
    (hs : FromValue.orDefault (FromValue.option FromValue.string) none w = some s) :
    ∀ t ∈ s.toList, t.utf8ByteSize ≤ n := by
  cases w with
  | none =>
    cases hs
    exact nofun
  | some u =>
    cases u with
    | null =>
      cases hs
      exact nofun
    | string t =>
      cases hs
      exact List.forall_mem_singleton.mpr (h _ rfl).of_string
    | _ => cases hs

omit [F64 F] in
lemma statusMessage (h : v.StringsWithin n) {msg : StatusMessage}
    (hmsg : StatusMessage.fromValue v = some msg) :
    ∀ s ∈ (HandledMessage.status msg : HandledMessage F).texts, s.utf8ByteSize ≤ n := by
  obtain ⟨field, hfields, hmsg⟩ := Option.bind_eq_some_iff.mp hmsg
  have hfield : ∀ key, ∀ u ∈ field key, u.StringsWithin n := fun _ u hu => h.of_fields hfields hu
  unfold StatusMessage.fromFields at hmsg
  obtain ⟨deviceId, hid, hmsg⟩ := Option.bind_eq_some_iff.mp hmsg
  obtain ⟨deviceClass, hclass, hmsg⟩ := Option.bind_eq_some_iff.mp hmsg
  obtain ⟨fwVersion, hversion, hmsg⟩ := Option.bind_eq_some_iff.mp hmsg
  obtain ⟨ip, hip, hmsg⟩ := Option.bind_eq_some_iff.mp hmsg
  iterate 6 obtain ⟨_, -, hmsg⟩ := Option.bind_eq_some_iff.mp hmsg
  obtain ⟨ssid, hssid, hmsg⟩ := Option.bind_eq_some_iff.mp hmsg
  iterate 5 obtain ⟨_, -, hmsg⟩ := Option.bind_eq_some_iff.mp hmsg
  obtain ⟨resetReason, hreason, hmsg⟩ := Option.bind_eq_some_iff.mp hmsg
  cases hmsg
  simp only [HandledMessage.texts, List.forall_mem_append, List.forall_mem_cons]
  exact ⟨⟨of_required (hfield _) hid, of_required (hfield _) hclass,
    of_required (hfield _) hversion, of_required (hfield _) hip, of_required (hfield _) hssid,
    List.forall_mem_nil _⟩, of_optString (hfield _) hreason⟩

lemma deserialize (h : v.StringsWithin n) {route : Route F} {topic : String}
    {msg : HandledMessage F} (hmsg : route.deserialize topic v = .ok msg) :
    ∀ s ∈ msg.texts, s.utf8ByteSize ≤ n := by
  unfold Route.deserialize at hmsg
  split at hmsg
  · cases hsensor : SensorMessage.fromValue v with
    | none =>
      rw [hsensor] at hmsg
      cases hmsg
    | some sensor =>
      rw [hsensor] at hmsg
      cases hmsg
      exact h.sensorMessage hsensor
  · cases hstatus : StatusMessage.fromValue v with
    | none =>
      rw [hstatus] at hmsg
      cases hmsg
    | some status =>
      rw [hstatus] at hmsg
      cases hmsg
      exact h.statusMessage hstatus

end Value.StringsWithin

/-! ### Records -/

/-- The strings of a document are no longer than the document. -/
def DecodesWithin (fromStr : String → Option (Value F)) : Prop :=
  ∀ src v, fromStr src = some v → v.StringsWithin src.utf8ByteSize

/-- Three fields of eight bytes besides the two texts. -/
def Bincode.FixedWidth (bc : Bincode) : Prop :=
  ∀ e b, bc.serialize e = .ok b → b.length = 24 + e.topic.utf8ByteSize + e.payload.utf8ByteSize

lemma Bincode.fixint_fixedWidth : Bincode.fixint.FixedWidth := by
  intro e b h
  simp only [Bincode.fixint] at h
  split_ifs at h with hlong
  cases h
  simp only [Bincode.putString, Bincode.putInt64, List.length_append, Bytes.length_ofNatLe,
    Bytes.length_utf8]
  omega

lemma decodePayload_within {fromStr : String → Option (Value F)} (hjson : DecodesWithin fromStr)
    {payload : Bytes} {v : Value F} (h : decodePayload fromStr payload = .ok v) :
    v.StringsWithin maxPayloadBytes := by
  unfold decodePayload at h
  split_ifs at h with hlong
  cases hutf8 : Bytes.ofUtf8 payload with
  | none =>
    rw [hutf8] at h
    cases h
  | some payloadStr =>
    cases hparse : fromStr payloadStr with
    | none =>
      simp only [hutf8, hparse] at h
      cases h
    | some w =>
      simp only [hutf8, hparse] at h
      cases h
      apply (hjson payloadStr v hparse).mono
      rw [Bytes.utf8ByteSize_of_ofUtf8 hutf8]
      exact not_lt.mp hlong

variable [F64 F]

/-- What was checked of an accepted message. -/
lemma of_accept {out : Outside F} (hjson : DecodesWithin out.fromStr) {router : Router F}
    {enforce : Bool} {topic : String} {payload : Bytes} {msg : HandledMessage F}
    (h : accept out router enforce topic payload = .ok msg) :
    msg.validateBusiness = .ok () ∧ ∀ s ∈ msg.texts, s.utf8ByteSize ≤ maxPayloadBytes := by
  obtain ⟨v, hdecode, h⟩ := exists_of_bind_eq_ok h
  have hv := decodePayload_within hjson (of_mapError_eq_ok hdecode)
  split at h
  · cases h
  · obtain ⟨messageType, -, h⟩ := exists_of_bind_eq_ok h
    obtain ⟨w, htransform, h⟩ := exists_of_bind_eq_ok h
    obtain ⟨msg', hmsg, h⟩ := exists_of_bind_eq_ok h
    obtain ⟨_, hbusiness, h⟩ := exists_of_bind_eq_ok h
    cases h
    have hw := hv.transformPayload (by decide) (of_mapError_eq_ok htransform)
    exact ⟨of_mapError_eq_ok hbusiness, hw.deserialize (of_mapError_eq_ok hmsg)⟩

/-- The event of an accepted message fits into a record. -/
lemma length_serialize_le {out : Outside F} (hjson : DecodesWithin out.fromStr)
    (hdisplay : F64.DisplayWithin F 400) {bc : Bincode} (hbc : bc.FixedWidth) {router : Router F}
    {enforce : Bool} {topic : String} (htopic : topic.utf8ByteSize ≤ 65535) {payload : Bytes}
    {msg : HandledMessage F} (h : accept out router enforce topic payload = .ok msg) {body : Bytes}
    (hbody : bc.serialize (walEvent out topic msg) = .ok body) :
    body.length ≤ maxWalRecordPayloadBytes := by
  obtain ⟨hvalid, htexts⟩ := of_accept hjson h
  have hfinite : ∀ field ∈ msg.toPoint.fields, field.2.Finite :=
    fun field hfield => ((printable_toPoint hvalid).fields field hfield).2
  have hline := utf8ByteSize_encode_le hdisplay hfinite htexts
  calc body.length
      = 24 + topic.utf8ByteSize + msg.encode.utf8ByteSize := hbc _ _ hbody
    _ ≤ 24 + 65535 + (64 + 6 * (2 * maxPayloadBytes + 68) + 12 * 466) := by
        exact Nat.add_le_add (Nat.add_le_add_left htopic 24) hline
    _ ≤ maxWalRecordPayloadBytes := by decide

/-- Every record the pipeline gives to the log is within the limit of its reader. -/
theorem length_payload_of_run (out : Outside F) (hjson : DecodesWithin out.fromStr)
    (hdisplay : F64.DisplayWithin F 400) {bc : Bincode} (hbc : bc.FixedWidth)
    {topicRoutes : List (String × String)} {router : Router F}
    (hrouter : buildRouter topicRoutes = .ok router) (enforce : Bool) (dlqTopic : String)
    {topic : String} (htopic : topic.utf8ByteSize ≤ 65535) (payload : Bytes) :
    ∀ append ∈ ((mainPipeline out router enforce dlqTopic).run (.new topic payload)).appended,
      ∀ frame, encodeInto bc append.1 = .ok frame →
        ∃ body, bc.serialize append.1 = .ok body ∧
          frame = Bytes.ofNatLe 4 body.length ++ body ∧
          body.length ≤ maxWalRecordPayloadBytes := by
  intro append happend frame hframe
  obtain ⟨body, hbody, -, hframe⟩ := exists_of_encodeInto hframe
  refine ⟨body, hbody, hframe, ?_⟩
  have hrun := run_of_accept out hrouter enforce dlqTopic topic payload
  cases haccept : accept out router enforce topic payload with
  | error reason =>
    rw [haccept] at hrun
    rw [hrun.2.1] at happend
    cases happend
  | ok msg =>
    rw [haccept] at hrun
    rw [hrun.2.1, List.mem_singleton] at happend
    rw [happend] at hbody
    exact length_serialize_le hjson hdisplay hbc htopic haccept hbody

lemma displayWithin_int : F64.DisplayWithin ℤ 400 := by
  intro x hx
  have hlt : x.natAbs < 10 ^ 309 := (of_decide_eq_true hx).trans (by decide +kernel)
  exact (Text.utf8ByteSize_toString_le (by decide) hlt).trans (by decide)

lemma statusOutside_decodesWithin : DecodesWithin statusOutside.fromStr := by
  intro src v h
  simp only [statusOutside] at h
  split_ifs at h with hsrc
  cases h
  rw [hsrc]
  apply Value.StringsWithin.object
  simp only [List.forall_mem_cons]
  refine ⟨.string ?_, .string ?_, .string ?_, .number _, .string ?_, .bool _, .string ?_,
    .number _, List.forall_mem_nil _⟩
  all_goals decide +kernel

def statusRecord : Bytes :=
  Bincode.putString statusEvent.topic ++ Bincode.putInt64 statusEvent.tsMs ++
    Bincode.putString statusEvent.payload

/-- The record of the status message. -/
theorem length_payload_of_status :
    ∃ body, Bincode.fixint.serialize statusEvent = .ok body ∧
      Bytes.ofNatLe 4 statusRecord.length ++ statusRecord =
        Bytes.ofNatLe 4 body.length ++ body ∧
      body.length ≤ maxWalRecordPayloadBytes := by
  have hrouter : buildRouter [("STATUS", "smarthome/+/status")] = .ok statusRouter := rfl
  have happend : (statusEvent, .ok ()) ∈ ((mainPipeline statusOutside statusRouter true "dlq").run
      (.new "smarthome/dev-1/status" (Bytes.utf8 statusText))).appended := by
    decide +kernel
  have hframe : encodeInto Bincode.fixint statusEvent =
      .ok (Bytes.ofNatLe 4 statusRecord.length ++ statusRecord) := by
    decide +kernel
  exact length_payload_of_run statusOutside statusOutside_decodesWithin displayWithin_int
    Bincode.fixint_fixedWidth hrouter true "dlq" (by decide) _ _ happend _ hframe

end SmarthomeIngest
