import SmarthomeIngest.Lib.Text
import SmarthomeIngest.Wal.Bincode
import SmarthomeIngest.Wal.Recover

/-!
# Round trip of records

The encoder accepts every payload whose length is a `u32`; both decoders reject a payload over
`maxWalRecordPayloadBytes`. Within that limit a frame is read back by either decoder, whatever
follows it, and so is a string of such frames.
-/

namespace SmarthomeIngest

variable {bc : Bincode}

/-! ### Definitions -/

/-- The frame of a payload. -/
def frameBytes (payload : Bytes) : Bytes := Bytes.ofNatLe 4 payload.length ++ payload

/-- Either decoder returns the event and consumes the frame, whatever follows it and whatever the
scratch buffer held. -/
structure ReadBack (bc : Bincode) (event : WalEvent) (frame : Bytes) : Prop where
  decodeInto : ∀ rest p, ∃ p', decodeInto bc ⟨frame ++ rest, none⟩ p =
    (.ok (some (event, frame.length)), ⟨rest, none⟩, p')
  decodeForRecovery : ∀ rest p, ∃ p', decodeForRecovery bc ⟨frame ++ rest, none⟩ p =
    (.ok (.validRecord event frame.length), ⟨rest, none⟩, p')

/-- A call of `decode_into`, as far as the event goes. -/
def decodedEvent (bc : Bincode) (r : ByteSource) (payload : Bytes) :
    Option WalEvent × ByteSource × Bytes :=
  match decodeInto bc r payload with
  | (.ok (some (event, _)), r, payload) => (some event, r, payload)
  | (_, r, payload)                     => (none, r, payload)

/-- A call of `decode_for_recovery`, as far as the event goes. -/
def recoveredEvent (bc : Bincode) (r : ByteSource) (payload : Bytes) :
    Option WalEvent × ByteSource × Bytes :=
  match decodeForRecovery bc r payload with
  | (.ok (.validRecord event _), r, payload) => (some event, r, payload)
  | (_, r, payload)                          => (none, r, payload)

/-- The events that repeated calls of a decoder return, up to the first call that returns none. -/
def readAll (decode : ByteSource → Bytes → Option WalEvent × ByteSource × Bytes) :
    ℕ → ByteSource → Bytes → List WalEvent
  | 0, _, _ => []
  | fuel + 1, r, payload =>
    match decode r payload with
    | (some event, r, payload) => event :: readAll decode fuel r payload
    | (none, _, _)             => []

/-! ### Frames -/

@[simp] lemma length_frameBytes (payload : Bytes) :
    (frameBytes payload).length = 4 + payload.length := by simp [frameBytes]

lemma frameBytes_of_encodeInto {event : WalEvent} {frame : Bytes}
    (h : encodeInto bc event = .ok frame) :
    ∃ payload, bc.serialize event = .ok payload ∧ payload.length < 2 ^ 32 ∧
      frame = frameBytes payload := exists_of_encodeInto h

lemma take_frameBytes (payload rest : Bytes) :
    (frameBytes payload ++ rest).take 4 = Bytes.ofNatLe 4 payload.length := by
  rw [frameBytes, List.append_assoc, List.take_left' (Bytes.length_ofNatLe 4 _)]

lemma drop_frameBytes (payload rest : Bytes) :
    (frameBytes payload ++ rest).drop 4 = payload ++ rest := by
  rw [frameBytes, List.append_assoc, List.drop_left' (Bytes.length_ofNatLe 4 _)]

lemma toNatLe_frameBytes {payload : Bytes} (h : payload.length < 2 ^ 32) (rest : Bytes) :
    Bytes.toNatLe ((frameBytes payload ++ rest).take 4) = payload.length := by
  rw [take_frameBytes, Bytes.toNatLe_ofNatLe (h.trans_eq (by norm_num))]

lemma cut_frameBytes {payload : Bytes} (h : payload.length ≤ maxWalRecordPayloadBytes)
    (rest : Bytes) : Frame.cut (frameBytes payload ++ rest) = .complete payload := by
  have hlt : payload.length < 2 ^ 32 := h.trans_lt (by decide)
  refine Frame.cut_eq_complete.mpr ⟨h, (toNatLe_frameBytes hlt rest).symm, ?_, ?_⟩
  · rw [List.length_append, length_frameBytes]
    omega
  · rw [drop_frameBytes]
    exact List.prefix_append _ _

lemma cut_frameBytes_oversized {payload : Bytes} (h : maxWalRecordPayloadBytes < payload.length)
    (hlt : payload.length < 2 ^ 32) (rest : Bytes) :
    Frame.cut (frameBytes payload ++ rest) = .oversized payload.length := by
  have hfour : ¬ (frameBytes payload ++ rest).length < 4 := by
    rw [List.length_append, length_frameBytes]
    omega
  rw [Frame.cut, if_neg hfour]
  dsimp only
  rw [toNatLe_frameBytes hlt, if_pos h]

/-! ### One record -/

lemma readBack_of_le (hbc : bc.RoundTrips) {event : WalEvent} {frame : Bytes}
    (h : encodeInto bc event = .ok frame)
    (hle : frame.length ≤ 4 + maxWalRecordPayloadBytes) : ReadBack bc event frame := by
  obtain ⟨payload, hser, -, rfl⟩ := frameBytes_of_encodeInto h
  rw [length_frameBytes] at hle
  have hcut := fun rest => cut_frameBytes (Nat.le_of_add_le_add_left hle) rest
  have hdrop : ∀ rest, (frameBytes payload ++ rest).drop (4 + payload.length) = rest := by
    intro rest
    rw [← length_frameBytes payload, List.drop_left]
  constructor
  · intro rest p
    exact ⟨payload, by
      rw [decodeInto_of_complete bc (hcut rest), hbc _ _ hser, hdrop, length_frameBytes]⟩
  · intro rest p
    exact ⟨payload, by
      rw [decodeForRecovery_of_complete bc (hcut rest), hbc _ _ hser, hdrop, length_frameBytes]⟩

/-- An encoded record over the limit: `decode_into` fails, and the recovery scan stops. -/
lemma rejected_of_lt {event : WalEvent} {frame : Bytes} (h : encodeInto bc event = .ok frame)
    (hlt : 4 + maxWalRecordPayloadBytes < frame.length) (rest p : Bytes) :
    (∃ e r p', decodeInto bc ⟨frame ++ rest, none⟩ p = (.error e, r, p')) ∧
      (decodeForRecovery bc ⟨frame ++ rest, none⟩ p).1 = .ok .cleanEof := by
  obtain ⟨payload, -, hlen, rfl⟩ := frameBytes_of_encodeInto h
  rw [length_frameBytes] at hlt
  have hcut := cut_frameBytes_oversized (Nat.lt_of_add_lt_add_left hlt) hlen rest
  refine ⟨decodeInto_of_oversized bc hcut p, decodeForRecovery_of_not_complete bc ?_ p⟩
  intro body hbody
  rw [hcut] at hbody
  cases hbody

lemma le_of_readBack {event : WalEvent} {frame : Bytes} (h : encodeInto bc event = .ok frame)
    (hread : ReadBack bc event frame) : frame.length ≤ 4 + maxWalRecordPayloadBytes := by
  by_contra hlt
  obtain ⟨⟨e, r, p', herr⟩, -⟩ := rejected_of_lt h (not_le.mp hlt) [] []
  obtain ⟨p'', hok⟩ := hread.decodeInto [] []
  rw [herr] at hok
  cases hok

/-! ### Strings of records -/

/-- A decoder that reads back the records within the limit, and returns none at a record over the
limit or at the end. -/
structure Reads (bc : Bincode)
    (decode : ByteSource → Bytes → Option WalEvent × ByteSource × Bytes) : Prop where
  within : ∀ event frame, encodeInto bc event = .ok frame →
    frame.length ≤ 4 + maxWalRecordPayloadBytes →
    ∀ rest p, ∃ p', decode ⟨frame ++ rest, none⟩ p = (some event, ⟨rest, none⟩, p')
  above : ∀ event frame, encodeInto bc event = .ok frame →
    4 + maxWalRecordPayloadBytes < frame.length →
    ∀ rest p, (decode ⟨frame ++ rest, none⟩ p).1 = none
  atEnd : ∀ p, (decode ⟨[], none⟩ p).1 = none

lemma reads_decodedEvent (hbc : bc.RoundTrips) : Reads bc (decodedEvent bc) where
  within event frame h hle rest p := by
    obtain ⟨p', hok⟩ := (readBack_of_le hbc h hle).decodeInto rest p
    exact ⟨p', by rw [decodedEvent, hok]⟩
  above event frame h hlt rest p := by
    obtain ⟨e, r, p', herr⟩ := (rejected_of_lt h hlt rest p).1
    rw [decodedEvent, herr]
  atEnd p := rfl

lemma reads_recoveredEvent (hbc : bc.RoundTrips) : Reads bc (recoveredEvent bc) where
  within event frame h hle rest p := by
    obtain ⟨p', hok⟩ := (readBack_of_le hbc h hle).decodeForRecovery rest p
    exact ⟨p', by rw [recoveredEvent, hok]⟩
  above event frame h hlt rest p := by
    have hstop := (rejected_of_lt h hlt rest p).2
    rw [recoveredEvent]
    split
    · rename_i heq
      rw [heq] at hstop
      cases hstop
    · rfl
  atEnd p := rfl

variable {decode : ByteSource → Bytes → Option WalEvent × ByteSource × Bytes}

lemma readAll_of_none {r : ByteSource} {p : Bytes} (h : (decode r p).1 = none) (fuel : ℕ) :
    readAll decode fuel r p = [] := by
  cases fuel with
  | zero => rfl
  | succ fuel =>
    rw [readAll]
    split
    · rename_i heq
      rw [heq] at h
      cases h
    · rfl

/-- The records of a string are read back as long as they are within the limit. -/
lemma Reads.readAll_iff (hd : Reads bc decode) {records : List (WalEvent × Bytes)}
    (henc : ∀ r ∈ records, encodeInto bc r.1 = .ok r.2) {fuel : ℕ} (hfuel : records.length ≤ fuel)
    (p : Bytes) :
    readAll decode fuel ⟨(records.map Prod.snd).flatten, none⟩ p = records.map Prod.fst ↔
      ∀ r ∈ records, r.2.length ≤ 4 + maxWalRecordPayloadBytes := by
  induction records generalizing fuel p with
  | nil => simp [readAll_of_none (hd.atEnd p)]
  | cons r records ih =>
    obtain ⟨event, frame⟩ := r
    obtain ⟨hframe, hrest⟩ := List.forall_mem_cons.mp henc
    obtain ⟨fuel, rfl⟩ : ∃ n, fuel = n + 1 := ⟨fuel - 1, by simp at hfuel; omega⟩
    have hlen : records.length ≤ fuel := Nat.le_of_succ_le_succ hfuel
    rw [List.map_cons, List.map_cons, List.flatten_cons, List.forall_mem_cons]
    rcases Nat.lt_or_ge (4 + maxWalRecordPayloadBytes) frame.length with hlt | hle
    · rw [readAll_of_none (hd.above event frame hframe hlt _ p)]
      constructor
      · intro h
        cases h
      · rintro ⟨hle, -⟩
        exact absurd hle (not_le.mpr hlt)
    · obtain ⟨p', hread⟩ := hd.within event frame hframe hle (records.map Prod.snd).flatten p
      rw [readAll, hread]
      dsimp only
      rw [List.cons.injEq, ih hrest hlen]
      exact ⟨fun h => ⟨hle, h.2⟩, fun h => ⟨rfl, h.2⟩⟩

/-- An encoded record is read back by the decoders exactly if it is within their limit, and a
string of encoded records exactly if all of them are. -/
theorem readBack_iff (hbc : bc.RoundTrips) :
    (∀ event frame, encodeInto bc event = .ok frame →
      (ReadBack bc event frame ↔ frame.length ≤ 4 + maxWalRecordPayloadBytes)) ∧
    ∀ records : List (WalEvent × Bytes), (∀ r ∈ records, encodeInto bc r.1 = .ok r.2) →
      ∀ fuel p, records.length ≤ fuel →
        (readAll (decodedEvent bc) fuel ⟨(records.map Prod.snd).flatten, none⟩ p =
            records.map Prod.fst ↔
          ∀ r ∈ records, r.2.length ≤ 4 + maxWalRecordPayloadBytes) ∧
        (readAll (recoveredEvent bc) fuel ⟨(records.map Prod.snd).flatten, none⟩ p =
            records.map Prod.fst ↔
          ∀ r ∈ records, r.2.length ≤ 4 + maxWalRecordPayloadBytes) := by
  constructor
  · intro event frame h
    exact ⟨le_of_readBack h, readBack_of_le hbc h⟩
  · intro records henc fuel p hfuel
    exact ⟨(reads_decodedEvent hbc).readAll_iff henc hfuel p,
      (reads_recoveredEvent hbc).readAll_iff henc hfuel p⟩

theorem readBack_of_shortEvent :
    ∃ frame, encodeInto Bincode.fixint ⟨"a", 1, ""⟩ = .ok frame ∧
      ReadBack Bincode.fixint ⟨"a", 1, ""⟩ frame := by
  obtain ⟨frame, h, hlen⟩ : ∃ frame, encodeInto Bincode.fixint ⟨"a", 1, ""⟩ = .ok frame ∧
      frame.length = 29 := ⟨_, rfl, rfl⟩
  exact ⟨frame, h, ((readBack_iff Bincode.fixint_roundTrips).1 _ _ h).mpr
    (hlen.trans_le (by decide))⟩

/-- An event whose payload alone fills the limit. -/
def longEvent : WalEvent := ⟨"", 0, String.ofList (List.replicate maxWalRecordPayloadBytes 'a')⟩

lemma length_payload_longEvent :
    (Bytes.utf8 longEvent.payload).length = maxWalRecordPayloadBytes := by
  have hone : Char.utf8Size 'a' = 1 := rfl
  rw [Bytes.length_utf8, longEvent, Text.utf8ByteSize_ofList, List.map_replicate, hone]
  simp

lemma serialize_fixint {e : WalEvent} (htopic : (Bytes.utf8 e.topic).length < 2 ^ 64)
    (hpayload : (Bytes.utf8 e.payload).length < 2 ^ 64) :
    Bincode.fixint.serialize e =
      .ok (Bincode.putString e.topic ++ Bincode.putInt64 e.tsMs ++ Bincode.putString e.payload) :=
  if_neg (not_or.mpr ⟨not_le.mpr htopic, not_le.mpr hpayload⟩)

theorem not_readBack_of_longEvent :
    ∃ frame, encodeInto Bincode.fixint longEvent = .ok frame ∧
      ¬ ReadBack Bincode.fixint longEvent frame := by
  have hpayload := length_payload_longEvent
  have htopic : (Bytes.utf8 longEvent.topic).length = 0 := rfl
  have hmax : maxWalRecordPayloadBytes = 2 ^ 20 := rfl
  have hser := serialize_fixint (e := longEvent) (by omega) (by omega)
  generalize hbody : Bincode.putString longEvent.topic ++ Bincode.putInt64 longEvent.tsMs ++
    Bincode.putString longEvent.payload = body at hser
  have hlen : body.length = 24 + maxWalRecordPayloadBytes := by
    rw [← hbody]
    simp only [Bincode.putString, Bincode.putInt64, List.length_append, Bytes.length_ofNatLe,
      hpayload, htopic]
    omega
  have henc : encodeInto Bincode.fixint longEvent = .ok (frameBytes body) := by
    rw [encodeInto, hser]
    exact if_neg (by omega)
  refine ⟨_, henc, fun hread => ?_⟩
  have hle := le_of_readBack henc hread
  rw [length_frameBytes, hlen] at hle
  omega

end SmarthomeIngest
