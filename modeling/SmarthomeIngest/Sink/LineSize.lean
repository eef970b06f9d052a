import SmarthomeIngest.Sink.Influx

/-!
# The size of a line

A bound on the line of a point in the sizes of its texts: escaping at most doubles them, and numbers
have a largest size.
-/

namespace SmarthomeIngest

variable {F : Type}

/-- What is assumed of the text of a finite float. -/
def F64.DisplayWithin (F : Type) [F64 F] (n : ℕ) : Prop :=
  ∀ x : F, F64.isFinite x = true → (F64.display x).utf8ByteSize ≤ n

/-! ### Sizes of the parts -/

def FieldValue.maxSize : FieldValue F → ℕ
  | .float _ => 400
  | .int _   => 21
  | .uint _  => 22
  | .bool _  => 5
  | .str s   => 2 * s.utf8ByteSize + 2

/-- Two separators besides the key and the value. -/
def tagSize (tag : String × String) : ℕ := 2 * tag.1.utf8ByteSize + 2 * tag.2.utf8ByteSize + 2

def fieldSize (field : String × FieldValue F) : ℕ :=
  2 * field.1.utf8ByteSize + field.2.maxSize + 2

/-- Room for a timestamp is in it in any case. -/
def Point.maxSize (p : Point F) : ℕ :=
  2 * p.measurement.utf8ByteSize + (p.tags.map tagSize).sum + (p.fields.map fieldSize).sum + 22

lemma utf8ByteSize_escMeasurement_le (s : String) :
    (escMeasurement s).utf8ByteSize ≤ 2 * s.utf8ByteSize := by
  rw [escMeasurement_eq]
  exact Text.utf8ByteSize_escape_le _ s

lemma utf8ByteSize_escTagKey_le (s : String) :
    (escTagKey s).utf8ByteSize ≤ 2 * s.utf8ByteSize := by
  rw [escTagKey_eq]
  exact Text.utf8ByteSize_escape_le _ s

lemma utf8ByteSize_escStringField_le (s : String) :
    (escStringField s).utf8ByteSize ≤ 2 * s.utf8ByteSize := by
  rw [escStringField_eq]
  exact Text.utf8ByteSize_escape_le _ s

lemma utf8ByteSize_toInt_le (i : Int64) : (toString i.toInt).utf8ByteSize ≤ 20 := by
  apply Text.utf8ByteSize_toString_le (by decide)
  have hlo := Int64.le_toInt i
  have hhi := Int64.toInt_lt i
  omega

lemma utf8ByteSize_toNat_le (n : UInt64) : (toString (n.toNat : ℤ)).utf8ByteSize ≤ 21 := by
  apply Text.utf8ByteSize_toString_le (by decide)
  have hhi := UInt64.toNat_lt n
  omega

variable [F64 F]

lemma utf8ByteSize_formatFieldValue_le (hd : F64.DisplayWithin F 400) {v : FieldValue F}
    (hv : v.Finite) : (formatFieldValue v).utf8ByteSize ≤ v.maxSize := by
  cases v with
  | float x => exact hd x hv
  | int i =>
    rw [formatFieldValue, String.utf8ByteSize_append]
    exact Nat.add_le_add_right (utf8ByteSize_toInt_le i) 1
  | uint n =>
    rw [formatFieldValue, String.utf8ByteSize_append]
    exact Nat.add_le_add_right (utf8ByteSize_toNat_le n) 1
  | bool b =>
    cases b with
    | true => exact (by decide : "true".utf8ByteSize ≤ 5)
    | false => exact (by decide : "false".utf8ByteSize ≤ 5)
  | str s =>
    rw [formatFieldValue, String.utf8ByteSize_append, String.utf8ByteSize_append]
    have hquote : "\"".utf8ByteSize = 1 := rfl
    have hs := utf8ByteSize_escStringField_le s
    rw [FieldValue.maxSize, hquote]
    omega

/-! ### The size of a line -/

omit [F64 F] in
lemma utf8ByteSize_writeTag_le (out : String) (tag : String × String) :
    (Point.writeTag out tag).utf8ByteSize ≤ out.utf8ByteSize + tagSize tag := by
  have hkey := utf8ByteSize_escTagKey_le tag.1
  have hvalue := utf8ByteSize_escTagKey_le tag.2
  have hcomma : ",".utf8ByteSize = 1 := rfl
  have hequals : "=".utf8ByteSize = 1 := rfl
  simp only [Point.writeTag, tagSize, escTagValue, String.utf8ByteSize_append, hcomma, hequals]
  omega

/-- A field with a separator in front. -/
lemma utf8ByteSize_writeField_le (hd : F64.DisplayWithin F 400) (out : String)
    {field : String × FieldValue F} (hv : field.2.Finite) :
    (Point.writeField out field).utf8ByteSize + 1 ≤ out.utf8ByteSize + fieldSize field := by
  have hkey := utf8ByteSize_escTagKey_le field.1
  have hvalue := utf8ByteSize_formatFieldValue_le hd hv
  have hequals : "=".utf8ByteSize = 1 := rfl
  simp only [Point.writeField, fieldSize, escFieldKey, String.utf8ByteSize_append, hequals]
  omega

/-- What every write adds, all of them add. -/
lemma utf8ByteSize_foldl_le {α : Type} (write : String → α → String) (size : α → ℕ) {xs : List α}
    (hwrite : ∀ x ∈ xs, ∀ out, (write out x).utf8ByteSize ≤ out.utf8ByteSize + size x)
    (out : String) :
    (xs.foldl write out).utf8ByteSize ≤ out.utf8ByteSize + (xs.map size).sum := by
  induction xs generalizing out with
  | nil => exact Nat.le_refl _
  | cons x xs ih =>
    obtain ⟨hx, hxs⟩ := List.forall_mem_cons.mp hwrite
    have htail := ih hxs (write out x)
    have hhead := hx out
    rw [List.foldl_cons, List.map_cons, List.sum_cons]
    omega

lemma utf8ByteSize_writeFields_le (hd : F64.DisplayWithin F 400) (out : String)
    {fields : List (String × FieldValue F)} (hfinite : ∀ field ∈ fields, field.2.Finite) :
    (Point.writeFields out fields).utf8ByteSize ≤
      out.utf8ByteSize + (fields.map fieldSize).sum := by
  cases fields with
  | nil => exact Nat.le_refl _
  | cons field fields =>
    obtain ⟨hfield, hfields⟩ := List.forall_mem_cons.mp hfinite
    have hcomma : ",".utf8ByteSize = 1 := rfl
    have hwrite : ∀ f ∈ fields, ∀ out : String,
        (Point.writeField (out ++ ",") f).utf8ByteSize ≤ out.utf8ByteSize + fieldSize f := by
      intro f hf out
      have hle := utf8ByteSize_writeField_le hd (out ++ ",") (hfields f hf)
      rw [String.utf8ByteSize_append, hcomma] at hle
      omega
    have hhead := utf8ByteSize_writeField_le hd out hfield
    have htail := utf8ByteSize_foldl_le (fun out f => Point.writeField (out ++ ",") f) fieldSize
      hwrite (Point.writeField out field)
    rw [Point.writeFields, List.map_cons, List.sum_cons]
    omega

lemma utf8ByteSize_writeLineProtocol_le (hd : F64.DisplayWithin F 400) {p : Point F}
    (hfinite : ∀ field ∈ p.fields, field.2.Finite) :
    (p.writeLineProtocol "").utf8ByteSize ≤ p.maxSize := by
  have hspace : " ".utf8ByteSize = 1 := rfl
  have hmeasurement := utf8ByteSize_escMeasurement_le p.measurement
  have hwrite : ∀ tag ∈ p.tags, ∀ out : String,
      (Point.writeTag out tag).utf8ByteSize ≤ out.utf8ByteSize + tagSize tag :=
    fun tag _ out => utf8ByteSize_writeTag_le out tag
  have htags := utf8ByteSize_foldl_le Point.writeTag tagSize hwrite (escMeasurement p.measurement)
  have hfields := utf8ByteSize_writeFields_le hd
    (p.tags.foldl Point.writeTag (escMeasurement p.measurement) ++ " ") hfinite
  rw [String.utf8ByteSize_append, hspace] at hfields
  rw [Point.maxSize, Point.writeLineProtocol, String.empty_append]
  cases p.timestampMs with
  | none =>
    dsimp only
    omega
  | some ts =>
    have hts := utf8ByteSize_toInt_le ts
    dsimp only
    rw [String.utf8ByteSize_append, String.utf8ByteSize_append, hspace]
    omega

/-! ### The points of messages -/

/-- A bound by the number of texts of at most `n` bytes, and of other values. -/
def Point.Fits (n texts others : ℕ) (p : Point F) : Prop :=
  p.maxSize ≤ 64 + texts * (2 * n + 68) + others * 466

namespace Point.Fits

omit [F64 F]

variable {n texts others : ℕ} {p : Point F} {key : String}

lemma new {measurement : String} (h : measurement.utf8ByteSize ≤ 16) :
    (Point.new measurement : Point F).Fits n 0 0 := by
  simp only [Point.Fits, Point.maxSize, Point.new, List.map_nil, List.sum_nil]
  omega

lemma mono (hp : p.Fits n texts others) {texts' others' : ℕ} (htexts : texts ≤ texts')
    (hothers : others ≤ others') : p.Fits n texts' others' := by
  unfold Point.Fits at hp ⊢
  have h₁ := Nat.mul_le_mul_right (2 * n + 68) htexts
  have h₂ := Nat.mul_le_mul_right 466 hothers
  omega

lemma tag (hp : p.Fits n texts others) (hkey : key.utf8ByteSize ≤ 32) {value : String}
    (hvalue : value.utf8ByteSize ≤ n) : (p.tag key value).Fits n (texts + 1) others := by
  unfold Point.Fits at hp ⊢
  have hsize : (p.tag key value).maxSize = p.maxSize + tagSize (key, value) := by
    simp only [Point.maxSize, Point.tag, List.map_append, List.sum_append, List.map_cons,
      List.map_nil, List.sum_cons, List.sum_nil]
    omega
  rw [hsize, tagSize, add_mul]
  dsimp only
  omega

lemma maxSize_field (v : FieldValue F) :
    (p.field key v).maxSize = p.maxSize + fieldSize (key, v) := by
  simp only [Point.maxSize, Point.field, List.map_append, List.sum_append, List.map_cons,
    List.map_nil, List.sum_cons, List.sum_nil]
  omega

lemma text (hp : p.Fits n texts others) (hkey : key.utf8ByteSize ≤ 32) {s : String}
    (hs : s.utf8ByteSize ≤ n) : (p.field key (.str s)).Fits n (texts + 1) others := by
  unfold Point.Fits at hp ⊢
  rw [maxSize_field, fieldSize, FieldValue.maxSize, add_mul]
  dsimp only
  omega

lemma other (hp : p.Fits n texts others) (hkey : key.utf8ByteSize ≤ 32) {v : FieldValue F}
    (hv : v.maxSize ≤ 400) : (p.field key v).Fits n texts (others + 1) := by
  unfold Point.Fits at hp ⊢
  rw [maxSize_field, fieldSize, add_mul]
  dsimp only
  omega

lemma optText (hp : p.Fits n texts others) (hkey : key.utf8ByteSize ≤ 32) {s : Option String}
    (hs : ∀ t ∈ s, t.utf8ByteSize ≤ n) :
    (p.optField key (s.map .str)).Fits n (texts + 1) others := by
  cases s with
  | none => exact hp.mono (Nat.le_succ _) (Nat.le_refl _)
  | some s => exact hp.text hkey (hs s rfl)

lemma optOther (hp : p.Fits n texts others) (hkey : key.utf8ByteSize ≤ 32)
    {v : Option (FieldValue F)} (hv : ∀ w ∈ v, w.maxSize ≤ 400) :
    (p.optField key v).Fits n texts (others + 1) := by
  cases v with
  | none => exact hp.mono (Nat.le_refl _) (Nat.le_succ _)
  | some v => exact hp.other hkey (hv v rfl)

lemma deviceTimestamp (hp : p.Fits n texts others) (timeValid : Bool) (timeMs : Int64) :
    (p.deviceTimestamp timeValid timeMs).Fits n texts others := by
  unfold Point.deviceTimestamp
  split_ifs
  · exact hp
  · exact hp

lemma build (hp : p.Fits n texts others) : p.build.Fits n texts others := by
  have hsize : p.build.maxSize = p.maxSize := by
    simp only [Point.maxSize, Point.build]
    rw [((List.perm_insertionSort _ p.tags).map tagSize).sum_eq,
      ((List.perm_insertionSort _ p.fields).map fieldSize).sum_eq]
  rw [Point.Fits, hsize]
  exact hp

end Point.Fits

/-- The texts of a message that are written. -/
def HandledMessage.texts : HandledMessage F → List String
  | .sensor msg => [msg.deviceId, msg.room, msg.deviceClass, msg.fwVersion, msg.data.iaqText]
  | .status msg =>
    [msg.deviceId, msg.deviceClass, msg.fwVersion, msg.ip, msg.ssid] ++ msg.resetReason.toList

omit [F64 F] in
lemma fits_sensorToPoint {msg : SensorMessage F} {n : ℕ}
    (h : ∀ s ∈ (HandledMessage.sensor msg).texts, s.utf8ByteSize ≤ n) :
    (sensorToPoint msg).Fits n 5 12 := by
  simp only [HandledMessage.texts, List.forall_mem_cons] at h
  obtain ⟨hid, hroom, hclass, hversion, htext, -⟩ := h
  unfold sensorToPoint
  extract_lets b₀ b₁ b₂ b₃ b₄ b₅
  have h₀ : b₀.Fits n 4 7 := by
    unfold b₀
    iterate 7 refine Point.Fits.other ?_ (by decide) (by simp [FieldValue.maxSize])
    refine Point.Fits.text ?_ (by decide) hversion
    exact (((Point.Fits.new (by decide)).tag (by decide) hid).tag (by decide) hroom).tag (by decide)
      hclass
  have h₁ : b₁.Fits n 5 8 := by
    unfold b₁
    split_ifs
    · exact (h₀.other (by decide) (by simp [FieldValue.maxSize])).text (by decide) htext
    · exact h₀.mono (by decide) (by decide)
  have h₄ : b₄.Fits n 5 11 := by
    refine ((h₁.optOther (by decide) ?_).optOther (by decide) ?_).optOther (by decide) ?_
    all_goals
      intro w hw
      obtain ⟨_, -, rfl⟩ := Option.map_eq_some_iff.mp hw
      simp [FieldValue.maxSize]
  have h₅ : b₅.Fits n 5 12 := by
    unfold b₅
    split_ifs
    · exact h₄.other (by decide) (by simp [FieldValue.maxSize])
    · exact h₄.mono (by decide) (by decide)
  exact (h₅.deviceTimestamp _ _).build

omit [F64 F] in
lemma fits_statusToPoint {msg : StatusMessage} {n : ℕ}
    (h : ∀ s ∈ (HandledMessage.status msg : HandledMessage F).texts, s.utf8ByteSize ≤ n) :
    (statusToPoint msg : Point F).Fits n 6 9 := by
  simp only [HandledMessage.texts, List.forall_mem_append, List.forall_mem_cons] at h
  obtain ⟨⟨hid, hclass, hversion, hip, hssid, -⟩, hreason⟩ := h
  unfold statusToPoint
  extract_lets b₀ b₁ b₂ b₃ b₄ b₅ b₆
  have h₀ : b₀.Fits n 5 4 := by
    unfold b₀
    refine Point.Fits.other ?_ (by decide) (by simp [FieldValue.maxSize])
    refine Point.Fits.text ?_ (by decide) hssid
    iterate 3 refine Point.Fits.other ?_ (by decide) (by simp [FieldValue.maxSize])
    refine Point.Fits.text ?_ (by decide) hip
    refine Point.Fits.text ?_ (by decide) hversion
    exact ((Point.Fits.new (by decide)).tag (by decide) hid).tag (by decide) hclass
  have h₅ : b₅.Fits n 5 9 := by
    unfold b₅ b₄ b₃ b₂ b₁
    iterate 5 refine Point.Fits.optOther ?_ (by decide) ?_
    · exact h₀
    all_goals
      intro w hw
      obtain ⟨_, -, rfl⟩ := Option.map_eq_some_iff.mp hw
      simp [FieldValue.maxSize]
  have h₆ : b₆.Fits n 6 9 := by
    refine h₅.optText (by decide) ?_
    intro t ht
    exact hreason t (Option.mem_toList.mpr ht)
  exact (h₆.deviceTimestamp _ _).build

/-- The line of a message with texts of at most `n` bytes. -/
lemma utf8ByteSize_encode_le (hd : F64.DisplayWithin F 400) {msg : HandledMessage F} {n : ℕ}
    (hfinite : ∀ field ∈ msg.toPoint.fields, field.2.Finite)
    (htexts : ∀ s ∈ msg.texts, s.utf8ByteSize ≤ n) :
    msg.encode.utf8ByteSize ≤ 64 + 6 * (2 * n + 68) + 12 * 466 := by
  have hfits : msg.toPoint.Fits n 6 12 := by
    cases msg with
    | sensor msg => exact (fits_sensorToPoint htexts).mono (by decide) (by decide)
    | status msg => exact (fits_statusToPoint htexts).mono (by decide) (by decide)
  exact (utf8ByteSize_writeLineProtocol_le hd hfinite).trans hfits

end SmarthomeIngest
