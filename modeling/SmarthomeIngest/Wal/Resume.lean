import SmarthomeIngest.Wal.RecordRoundTrip
import SmarthomeIngest.Wal.Replay

/-!
# The resumable prefix

What recovery promises the writer: the length it returns is that of the longest prefix of the
segment made of complete frames, and behind it new frames are found by the next recovery as if
nothing had been torn.
-/

namespace SmarthomeIngest

variable {bc : Bincode}

/-! ### Definitions -/

/-- Events with their frames, all of them within the limit of the decoders. -/
def InLimit (bc : Bincode) (records : List (WalEvent × Bytes)) : Prop :=
  ∀ r ∈ records, encodeInto bc r.1 = .ok r.2 ∧ r.2.length ≤ 4 + maxWalRecordPayloadBytes

/-- The frames of the records, one behind the other. -/
def framesOf (records : List (WalEvent × Bytes)) : Bytes := (records.map Prod.snd).flatten

/-- The entries of records written at an offset of a segment. -/
def entriesAt (segmentId : ℕ) : ℕ → List (WalEvent × Bytes) → List WalEntry
  | _, []                          => []
  | off, (event, frame) :: records =>
    ⟨⟨segmentId, off⟩, ⟨segmentId, off + frame.length⟩, event⟩ ::
      entriesAt segmentId (off + frame.length) records

/-- The records that a scan of a segment with the contents `b` finds. -/
def scannedRecords (bc : Bincode) (segmentId : ℕ) (b : Bytes) : List WalEntry :=
  recoveryScanLoop bc segmentId (b.length + 1) ⟨b, none⟩ [] 0

/-- The writer may go on at `v` in a segment with the contents `b`. -/
structure ResumePoint (bc : Bincode) (b : Bytes) (v : ℕ) : Prop where
  le_length : v ≤ b.length
  frames : ∃ payloads : List Bytes, (∀ p ∈ payloads, p.length ≤ maxWalRecordPayloadBytes) ∧
    b.take v = payloads.flatMap frameBytes
  rest : ∀ p : Bytes, p.length ≤ maxWalRecordPayloadBytes → ¬ frameBytes p <+: b.drop v
  idempotent : lastValidOffset bc (some ⟨truncateTo b v, none⟩) = .ok v
  torn : ∀ records torn payload, InLimit bc records → payload.length < 2 ^ 32 →
    torn <+: frameBytes payload → torn ≠ frameBytes payload → b = framesOf records ++ torn →
    v = (framesOf records).length
  append : ∀ records, InLimit bc records →
    lastValidOffset bc (some ⟨truncateTo b v ++ framesOf records, none⟩) =
      .ok (v + (framesOf records).length) ∧
    ∀ id, scannedRecords bc id (truncateTo b v ++ framesOf records) =
      scannedRecords bc id b ++ entriesAt id v records

/-! ### Complete frames -/

/-- A complete frame is that of its payload. -/
lemma take_of_complete {b payload : Bytes} (h : Frame.cut b = .complete payload) :
    b.take (4 + payload.length) = frameBytes payload := by
  obtain ⟨-, hlen, hfour, hpre⟩ := Frame.cut_eq_complete.mp h
  have hprefix : b.take 4 = Bytes.ofNatLe 4 payload.length := by
    have hround := Bytes.ofNatLe_toNatLe (b.take 4)
    rw [List.length_take, Nat.min_eq_left hfour, ← hlen] at hround
    exact hround.symm
  rw [List.take_add, hprefix, ← List.prefix_iff_eq_take.mp hpre, frameBytes]

/-- A string of pieces is a string of frames. -/
lemma exists_payloads_of_whole {b : Bytes} (h : (frames bc).Whole b) :
    ∃ payloads : List Bytes, (∀ p ∈ payloads, p.length ≤ maxWalRecordPayloadBytes) ∧
      b = payloads.flatMap frameBytes := by
  induction b using (frames bc).scan_induction with
  | none b hnext =>
    refine ⟨[], fun p hp => absurd hp List.not_mem_nil, ?_⟩
    exact h.eq_nil_of_scan ((frames bc).scan_of_none hnext 0)
  | some b value n hnext ih =>
    obtain ⟨payload, hcut, -, rfl⟩ := exists_of_frames_next hnext
    obtain ⟨payloads, hlimit, hpayloads⟩ := ih (h.drop hnext)
    refine ⟨payload :: payloads, List.forall_mem_cons.mpr ⟨?_, hlimit⟩, ?_⟩
    · exact (Frame.cut_eq_complete.mp hcut).1
    · rw [List.flatMap_cons, ← hpayloads, ← take_of_complete hcut, List.take_append_drop]

/-- A string that starts with a frame within the limit starts with a piece. -/
lemma next_ne_none_of_frame {b p : Bytes} (hp : p.length ≤ maxWalRecordPayloadBytes)
    (h : frameBytes p <+: b) : (frames bc).next b ≠ none := by
  obtain ⟨rest, rfl⟩ := h
  rw [frames_next_of_complete bc (cut_frameBytes hp rest)]
  exact Option.some_ne_none _

/-- A strict prefix of a frame is no frame. -/
lemma next_of_torn {torn payload : Bytes} (hlen : payload.length < 2 ^ 32)
    (h : torn <+: frameBytes payload) (hne : torn ≠ frameBytes payload) :
    (frames bc).next torn = none := by
  rw [frames_next_eq_none]
  intro body hcut
  obtain ⟨-, hbody, hfour, hpre⟩ := Frame.cut_eq_complete.mp hcut
  obtain ⟨rest, hrest⟩ := h
  have hprefix := toNatLe_frameBytes hlen []
  rw [List.append_nil, ← hrest, List.take_append_of_le_length hfour, ← hbody] at hprefix
  have hle := hpre.length_le
  have htotal := congrArg List.length hrest
  rw [List.length_append, length_frameBytes] at htotal
  rw [List.length_drop] at hle
  have hnil : rest = [] := List.eq_nil_of_length_eq_zero (by omega)
  exact hne (by rw [← hrest, hnil, List.append_nil])

/-! ### New records -/

lemma InLimit.next {event : WalEvent} {frame : Bytes} {records : List (WalEvent × Bytes)}
    (hbc : bc.RoundTrips) (h : InLimit bc ((event, frame) :: records)) :
    (SmarthomeIngest.frames bc).next (framesOf ((event, frame) :: records)) =
      some (some event, frame.length) := by
  obtain ⟨henc, hle⟩ := h _ List.mem_cons_self
  have hnext := next_encodeInto hbc henc hle
  exact (frames bc).next_append hnext (framesOf records)

lemma drop_framesOf (event : WalEvent) (frame : Bytes) (records : List (WalEvent × Bytes)) :
    (framesOf ((event, frame) :: records)).drop frame.length = framesOf records := List.drop_left

lemma whole_framesOf (hbc : bc.RoundTrips) {records : List (WalEvent × Bytes)}
    (h : InLimit bc records) : (frames bc).Whole (framesOf records) := by
  induction records with
  | nil => exact (frames bc).whole_nil
  | cons r records ih =>
    obtain ⟨henc, hle⟩ := h _ List.mem_cons_self
    have hrest := ih fun r' hr' => h r' (List.mem_cons_of_mem _ hr')
    exact (clean_encodeInto hbc henc hle).whole.append hrest

lemma segmentEntries_framesOf (hbc : bc.RoundTrips) {records : List (WalEvent × Bytes)}
    (h : InLimit bc records) (id off : ℕ) :
    segmentEntries bc id off (framesOf records) = entriesAt id off records := by
  induction records generalizing off with
  | nil => exact segmentEntries_nil id off
  | cons r records ih =>
    obtain ⟨event, frame⟩ := r
    rw [segmentEntries_of_record (h.next hbc), drop_framesOf, entriesAt,
      ih fun r' hr' => h r' (List.mem_cons_of_mem _ hr')]

lemma scannedRecords_eq (id : ℕ) (b : Bytes) :
    scannedRecords bc id b = segmentEntries bc id 0 b :=
  recoveryScanLoop_eq (Nat.lt_succ_self _) _ _ _

/-- Behind whole frames, new records are found behind the old ones. -/
lemma scannedRecords_append (hbc : bc.RoundTrips) {b : Bytes} (hb : (frames bc).Whole b)
    {records : List (WalEvent × Bytes)} (h : InLimit bc records) (id : ℕ) :
    scannedRecords bc id (b ++ framesOf records) =
      scannedRecords bc id b ++ entriesAt id b.length records := by
  rw [scannedRecords_eq, scannedRecords_eq, segmentEntries, hb.scan_append, List.filterMap_append,
    ← segmentEntries, ← segmentEntries, Nat.zero_add, segmentEntries_framesOf hbc h]

/-! ### Recovery -/

/-- The recovered length is a resume point, whatever the bytes of the segment. -/
theorem resumePoint_lastValidOffset (hbc : bc.RoundTrips) (b : Bytes) :
    ∃ v, lastValidOffset bc (some ⟨b, none⟩) = .ok v ∧ ResumePoint bc b v := by
  have hwhole := (frames bc).whole_take_stop b
  have hlen : (b.take ((frames bc).stop b)).length = (frames bc).stop b := by
    rw [List.length_take, Nat.min_eq_left ((frames bc).stop_le b)]
  refine ⟨(frames bc).stop b, lastValidOffset_eq b, ?_⟩
  constructor
  case le_length => exact (frames bc).stop_le b
  case frames => exact exists_payloads_of_whole hwhole
  case rest =>
    intro p hp hpre
    exact next_ne_none_of_frame hp hpre ((frames bc).next_drop_stop b)
  case idempotent => rw [truncateTo, lastValidOffset_eq, (frames bc).stop_take_stop]
  case torn =>
    rintro records torn payload hrecords hpayload hpre hne rfl
    have hrecords' := whole_framesOf hbc hrecords
    rw [(frames bc).stop_append, hrecords', List.drop_length, List.nil_append,
      (frames bc).stop_of_none (next_of_torn hpayload hpre hne), Nat.add_zero]
  case append =>
    intro records hrecords
    have happend := hwhole.append (whole_framesOf hbc hrecords)
    constructor
    · rw [truncateTo, lastValidOffset_eq, happend, List.length_append, hlen]
    · intro id
      rw [truncateTo, scannedRecords_append hbc hwhole hrecords, hlen, scannedRecords_eq,
        scannedRecords_eq, segmentEntries, (frames bc).scan_take_stop, segmentEntries]

theorem resumePoint_of_tornSegment :
    ∃ v, lastValidOffset Bincode.fixint (some ⟨[0, 0, 0, 0, 9, 9], none⟩) = .ok v ∧
      ResumePoint Bincode.fixint [0, 0, 0, 0, 9, 9] v :=
  resumePoint_lastValidOffset Bincode.fixint_roundTrips [0, 0, 0, 0, 9, 9]

end SmarthomeIngest
