import SmarthomeIngest.Sink.RoundTrip

/-!
# Written bodies are read back

A body is read line by line, so that it gives the points of its messages exactly if no tag value has
a newline.
-/

namespace SmarthomeIngest

variable {F : Type}

namespace LineReader

variable [F64 F] {readF64 : String → Option F} {p : Point F}

/-! ### Bodies -/

/-- What has been read of a body: nothing, or records of which the last may end here. -/
def HasRead (readF64 : String → Option F) (body : String) (ps : List (Point F)) : Prop :=
  (body = "" ∧ ps = []) ∨ ∃ r rs p, body ≠ "" ∧ ps = rs ++ [p] ∧
    run readF64 (start []) body = some r ∧ AtEnd readF64 r rs p

omit [F64 F] in
lemma read_of_hasRead {body : String} {ps : List (Point F)} (h : HasRead readF64 body ps) :
    read readF64 body = some ps := by
  rcases h with ⟨rfl, rfl⟩ | ⟨r, rs, p, hne, rfl, hrun, hr⟩
  · exact if_pos rfl
  · rw [read, if_neg hne, hrun, Option.bind_some, hr.finish, hr.records, Option.map_some]

omit [F64 F] in
lemma read_of_none {body : String} (h : run readF64 (start []) body = none) :
    read readF64 body = none := by
  have hne : body ≠ "" := by
    rintro rfl
    cases h
  rw [read, if_neg hne, h, Option.bind_none]

/-- `build_body` puts a payload behind what is there. -/
def appendPayload (body payload : String) : String :=
  (if body = "" then body else body ++ "\n") ++ payload

omit [F64 F] in
lemma run_appendPayload {body : String} {ps : List (Point F)} (h : HasRead readF64 body ps)
    (payload : String) :
    run readF64 (start []) (appendPayload body payload) = run readF64 (start ps) payload := by
  rcases h with ⟨rfl, rfl⟩ | ⟨r, rs, p, hne, rfl, hrun, hr⟩
  · rw [appendPayload, if_pos rfl, String.empty_append]
  · have hnewline : run readF64 (start []) (body ++ "\n") = some (start (rs ++ [p])) := by
      rw [run_append_of_some hrun, run_char (c := '\n') rfl, hr.newline]
    rw [appendPayload, if_neg hne, run_append_of_some hnewline]

omit [F64 F] in
lemma run_appendPayload_of_none {body : String} (h : run readF64 (start []) body = none)
    (payload : String) : run readF64 (start []) (appendPayload body payload) = none := by
  have hne : body ≠ "" := by
    rintro rfl
    cases h
  rw [appendPayload, if_neg hne]
  exact run_append_of_none (run_append_of_none h _) _

/-- One more line. -/
lemma hasRead_appendPayload (hd : F64.DisplayReads readF64) {body : String} {ps : List (Point F)}
    (h : HasRead readF64 body ps) (hp : p.Printable) (hne : p.fields ≠ [])
    (hvalues : ∀ tag ∈ p.tags, '\n' ∉ tag.2.toList) :
    HasRead readF64 (appendPayload body (p.writeLineProtocol "")) (ps ++ [p]) := by
  obtain ⟨r, hrun, hr⟩ := run_writeLineProtocol hd ps hp hne hvalues
  have hbody := (run_appendPayload h (p.writeLineProtocol "")).trans hrun
  refine .inr ⟨r, ps, p, ?_, rfl, hbody, hr⟩
  intro hempty
  rw [hempty] at hbody
  cases hbody
  cases hr.finish

end LineReader

/-! ### The points of messages -/

section Points

variable [F64 F]

namespace Point.Printable

variable {p : Point F}

lemma new {measurement : String}
    (h : (measurement.toList.all fun c => c != '=' && c != '\n') = true) :
    (Point.new measurement : Point F).Printable := by
  refine ⟨?_, by simp [Point.new], by simp [Point.new]⟩
  intro c hc
  have hclean := List.all_eq_true.mp h c hc
  rw [Bool.and_eq_true, bne_iff_ne, bne_iff_ne] at hclean
  exact hclean

lemma tag (hp : p.Printable) {key : String} (hkey : '\n' ∉ key.toList) (value : String) :
    (p.tag key value).Printable := by
  refine ⟨hp.measurement, ?_, hp.fields⟩
  intro t ht
  rcases List.mem_append.mp ht with ht | ht
  · exact hp.tags t ht
  · rw [List.mem_singleton.mp ht]
    exact hkey

lemma field (hp : p.Printable) {key : String} (hkey : '\n' ∉ key.toList) {v : FieldValue F}
    (hv : v.Finite) : (p.field key v).Printable := by
  refine ⟨hp.measurement, hp.tags, ?_⟩
  intro f hf
  rcases List.mem_append.mp hf with hf | hf
  · exact hp.fields f hf
  · rw [List.mem_singleton.mp hf]
    exact ⟨hkey, hv⟩

lemma optField (hp : p.Printable) {key : String} (hkey : '\n' ∉ key.toList)
    {v : Option (FieldValue F)} (hv : ∀ w ∈ v, w.Finite) : (p.optField key v).Printable := by
  cases v with
  | none => exact hp
  | some w => exact hp.field hkey (hv w rfl)

lemma deviceTimestamp (hp : p.Printable) (timeValid : Bool) (timeMs : Int64) :
    (p.deviceTimestamp timeValid timeMs).Printable := by
  unfold Point.deviceTimestamp
  split_ifs
  · exact ⟨hp.measurement, hp.tags, hp.fields⟩
  · exact hp

lemma build (hp : p.Printable) : p.build.Printable := by
  refine ⟨hp.measurement, ?_, ?_⟩
  · intro t ht
    exact hp.tags t (mem_tags_build.mp ht)
  · intro f hf
    exact hp.fields f (mem_fields_build.mp hf)

end Point.Printable

lemma printable_sensorToPoint {msg : SensorMessage F}
    (hfinite : ∀ x ∈ msg.data.floats, F64.isFinite x = true) : (sensorToPoint msg).Printable := by
  simp only [SensorData.floats, List.forall_mem_cons] at hfinite
  obtain ⟨htemp, hhum, hpressure, hgas, hscore, hdew, hheat, -⟩ := hfinite
  unfold sensorToPoint
  extract_lets b₀ b₁ b₂ b₃ b₄ b₅
  have h₀ : b₀.Printable := by
    apply_rules [Point.Printable.field, Point.Printable.tag, Point.Printable.new]
    all_goals decide
  have h₁ : b₁.Printable := by
    by_cases hwarm : msg.warmedUp ≠ some false
    · rw [show b₁ = _ from if_pos hwarm]
      exact (h₀.field (v := .float _) (by decide) hscore).field (v := .str _) (by decide) trivial
    · rw [show b₁ = _ from if_neg hwarm]
      exact h₀
  have h₄ : b₄.Printable := by
    refine ((h₁.optField (by decide) ?_).optField (by decide) ?_).optField (by decide) ?_
    all_goals
      intro w hw
      obtain ⟨_, -, rfl⟩ := Option.map_eq_some_iff.mp hw
      trivial
  have h₅ : b₅.Printable := by
    by_cases hreplayed : msg.replayed = true
    · rw [show b₅ = _ from if_pos hreplayed]
      exact h₄.field (by decide) trivial
    · rw [show b₅ = _ from if_neg hreplayed]
      exact h₄
  exact (h₅.deviceTimestamp _ _).build

lemma printable_statusToPoint (msg : StatusMessage) : (statusToPoint msg : Point F).Printable := by
  unfold statusToPoint
  extract_lets b₀ b₁ b₂ b₃ b₄ b₅ b₆
  have h₀ : b₀.Printable := by
    apply_rules [Point.Printable.field, Point.Printable.tag, Point.Printable.new]
    all_goals decide
  have h₆ : b₆.Printable := by
    apply_rules [Point.Printable.optField]
    all_goals try decide
    all_goals
      intro w hw
      obtain ⟨_, -, rfl⟩ := Option.map_eq_some_iff.mp hw
      trivial
  exact (h₆.deviceTimestamp _ _).build

/-- The messages the business schemas accept are printable. -/
lemma printable_toPoint {msg : HandledMessage F} (h : msg.validateBusiness = .ok ()) :
    msg.toPoint.Printable := by
  cases msg with
  | sensor msg =>
    refine printable_sensorToPoint (isFinite_of_sensorBusinessSchema ?_)
    by_contra hbad
    rw [HandledMessage.validateBusiness, if_neg hbad] at h
    cases h
  | status msg => exact printable_statusToPoint msg

end Points

/-- The texts a message is tagged with. -/
def HandledMessage.tagValues : HandledMessage F → List String
  | .sensor msg => [msg.deviceId, msg.room, msg.deviceClass]
  | .status msg => [msg.deviceId, msg.deviceClass]

lemma mem_tagValues {msg : HandledMessage F} {s : String} :
    s ∈ msg.tagValues ↔ ∃ tag ∈ msg.toPoint.tags, s = tag.2 := by
  cases msg with
  | sensor msg =>
    simp [HandledMessage.toPoint, sensorToPoint, HandledMessage.tagValues, Point.mem_tags_build,
      apply_ite Point.tags]
  | status msg =>
    simp [HandledMessage.toPoint, statusToPoint, HandledMessage.tagValues, Point.mem_tags_build]

/-- A point of a message has fields, its firmware version among them. -/
lemma fields_toPoint_ne_nil (msg : HandledMessage F) : msg.toPoint.fields ≠ [] := by
  cases msg with
  | sensor msg =>
    rw [HandledMessage.toPoint, sensorToPoint]
    split_ifs <;> simp
  | status msg =>
    simp [HandledMessage.toPoint, statusToPoint]

/-! ### Bodies of messages -/

section Batches

variable [F64 F] {readF64 : String → Option F}

lemma buildBody_eq (batch : List WalEvent) :
    buildBody batch = (batch.map WalEvent.payload).foldl LineReader.appendPayload "" := by
  rw [List.foldl_map]
  rfl

/-- The payloads of messages, joined. -/
def bodyOf (msgs : List (HandledMessage F)) : String :=
  (msgs.map HandledMessage.encode).foldl LineReader.appendPayload ""

lemma bodyOf_concat (msgs : List (HandledMessage F)) (msg : HandledMessage F) :
    bodyOf (msgs ++ [msg]) = LineReader.appendPayload (bodyOf msgs) msg.encode := by
  rw [bodyOf, List.map_append, List.foldl_append]
  rfl

/-- No newline in a tag value. -/
def HandledMessage.Tagged (msg : HandledMessage F) : Prop := ∀ s ∈ msg.tagValues, '\n' ∉ s.toList

lemma hasRead_bodyOf (hd : F64.DisplayReads readF64) {msgs : List (HandledMessage F)}
    (hvalid : ∀ msg ∈ msgs, msg.validateBusiness = .ok ()) (htagged : ∀ msg ∈ msgs, msg.Tagged) :
    LineReader.HasRead readF64 (bodyOf msgs) (msgs.map HandledMessage.toPoint) := by
  induction msgs using List.reverseRecOn with
  | nil => exact .inl ⟨rfl, rfl⟩
  | append_singleton msgs msg ih =>
    rw [List.forall_mem_append, List.forall_mem_singleton] at hvalid htagged
    rw [bodyOf_concat, List.map_append]
    refine LineReader.hasRead_appendPayload hd (ih hvalid.1 htagged.1)
      (printable_toPoint hvalid.2) (fields_toPoint_ne_nil msg) ?_
    intro tag htag
    exact htagged.2 _ (mem_tagValues.mpr ⟨tag, htag, rfl⟩)

/-- One newline in one tag value, and the body has no reading. -/
lemma run_bodyOf_eq_none (hd : F64.DisplayReads readF64) {msgs : List (HandledMessage F)}
    (hvalid : ∀ msg ∈ msgs, msg.validateBusiness = .ok ()) (hbad : ¬ ∀ msg ∈ msgs, msg.Tagged) :
    LineReader.run readF64 (.start []) (bodyOf msgs) = none := by
  induction msgs using List.reverseRecOn with
  | nil => exact absurd (by simp) hbad
  | append_singleton msgs msg ih =>
    rw [List.forall_mem_append, List.forall_mem_singleton] at hvalid hbad
    rw [bodyOf_concat]
    by_cases htagged : ∀ msg ∈ msgs, msg.Tagged
    · rw [LineReader.run_appendPayload (hasRead_bodyOf hd hvalid.1 htagged)]
      apply LineReader.run_writeLineProtocol_newline (printable_toPoint hvalid.2)
      have hmsg : ¬ msg.Tagged := fun h => hbad ⟨htagged, h⟩
      simp only [HandledMessage.Tagged, not_forall, not_not] at hmsg
      obtain ⟨s, hs, hnewline⟩ := hmsg
      obtain ⟨tag, htag, rfl⟩ := mem_tagValues.mp hs
      exact ⟨tag, htag, hnewline⟩
    · exact LineReader.run_appendPayload_of_none (ih hvalid.1 htagged) _

/-- A body is read back exactly if no tag value in it has a newline. -/
theorem read_buildBody_iff (hd : F64.DisplayReads readF64) (msgs : List (HandledMessage F))
    (hvalid : ∀ msg ∈ msgs, msg.validateBusiness = .ok ()) {batch : List WalEvent}
    (hbatch : batch.map WalEvent.payload = msgs.map HandledMessage.encode) :
    LineReader.read readF64 (buildBody batch) = some (msgs.map HandledMessage.toPoint) ↔
      ∀ msg ∈ msgs, ∀ s ∈ msg.tagValues, '\n' ∉ s.toList := by
  rw [buildBody_eq, hbatch]
  constructor
  · intro hread
    by_contra hbad
    have hnone := LineReader.read_of_none (run_bodyOf_eq_none hd hvalid hbad)
    rw [bodyOf, hread] at hnone
    cases hnone
  · intro htagged
    exact LineReader.read_of_hasRead (hasRead_bodyOf hd hvalid htagged)

lemma displayReads_int : F64.DisplayReads fun s => Text.readInt s.toList := by
  refine ⟨?_, ?_⟩
  · intro x _ c hc
    exact (Text.isDigit_or_minus hc).imp_right .inl
  · intro x _
    exact Text.readInt_toString x

/-- A status message of a device of a given class. -/
def statusOfClass (deviceClass : String) : HandledMessage ℤ :=
  .status {
    deviceId := "dev-1", deviceClass, fwVersion := "1.0.0", ip := "10.0.0.7", rssi := -55,
    timeMs := 1700000000000, timeIso := "2023-11-14T22:13:20Z", timeValid := true, uptime := 3600,
    freeMem := 81920, ssid := "home \"2\"", queued := some 0, droppedTotal := none,
    samplesFailedTotal := none, mqttConnectsTotal := none, sensorReadFailuresTotal := none,
    resetReason := some "power, on" }

/-- Two messages, with characters that are escaped. -/
theorem read_buildBody_of_escaped :
    LineReader.read (fun s => Text.readInt s.toList)
        (buildBody [⟨"smarthome/dev-1/status", 5, (statusOfClass "esp 32").encode⟩,
          ⟨"smarthome/dev-1/status", 6, (statusOfClass "a=b,c\\").encode⟩]) =
      some [(statusOfClass "esp 32").toPoint, (statusOfClass "a=b,c\\").toPoint] :=
  (read_buildBody_iff displayReads_int [statusOfClass "esp 32", statusOfClass "a=b,c\\"]
    (by decide +kernel) rfl).mpr (by decide +kernel)

/-- A device class with a newline is accepted, and the body of its message has no reading. -/
theorem read_buildBody_of_newline :
    (statusOfClass "esp\n32").validateBusiness = .ok () ∧
      LineReader.read (fun s => Text.readInt s.toList)
        (buildBody [⟨"smarthome/dev-1/status", 5, (statusOfClass "esp\n32").encode⟩]) ≠
      some [(statusOfClass "esp\n32").toPoint] := by
  decide +kernel

end Batches

end SmarthomeIngest
