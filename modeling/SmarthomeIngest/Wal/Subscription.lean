import SmarthomeIngest.Wal.Recover
import SmarthomeIngest.Wal.Segment

/-!
# The WAL subscription

`WalSubscription::next` as a state machine. One step runs up to the next point where the writer may
get in between: a read attempt, the loads of the head, the look at the reference count, the wait
for a notification. What the subscription sees of the writer and the disk is a `WalView`.
-/

namespace SmarthomeIngest

/-! ### Reading one record -/

/-- Outcome of a single blocking read attempt. -/
inductive ReadOutcome where
  | record (event : WalEvent) (bytesConsumed : ℕ)
  | notFound
  | openError (error : String)
  | seekError (error : String)
  | eof
  | corrupt (error : String)
  deriving DecidableEq

/-- The I/O errors a blocking read may run into: opening, seeking, reading (after a number of
bytes), and any of these while the length prefix is read again. -/
structure ReadFaults where
  openError : Option String := none
  seekError : Option String := none
  readError : Option (ℕ × String) := none
  lenPrefix : Bool := false

variable (bc : Bincode)

/-- The reader of a call of `read_one`: the one handed in, or the segment opened at `byteOffset`.
A reader is the position in the file that it has reached. -/
def openReader (segs : Segments) (segmentId byteOffset : ℕ) (faults : ReadFaults) :
    Option ℕ → Except ReadOutcome ℕ
  | some pos => .ok pos
  | none =>
    match faults.openError with
    | some e => .error (.openError e)
    | none =>
      if segmentId ∉ segs then .error .notFound
      else if 0 < byteOffset then
        match faults.seekError with
        | some e => .error (.seekError e)
        | none   => .ok byteOffset
      else .ok 0

/-- The bytes a reader at `pos` delivers. -/
def sourceAt (b : Bytes) (pos : ℕ) (faults : ReadFaults) : ByteSource :=
  match faults.readError with
  | none        => ⟨b.drop pos, none⟩
  | some (n, e) => ⟨(b.drop pos).take n, some e⟩

/-- `read_one`: the outcome, with the reader and the scratch buffer handed back. -/
def readOne (segs : Segments) (segmentId byteOffset : ℕ) (reader : Option ℕ) (payload : Bytes)
    (faults : ReadFaults) : ReadOutcome × Option ℕ × Bytes :=
  match openReader segs segmentId byteOffset faults reader with
  | .error outcome => (outcome, none, payload)
  | .ok pos =>
    let src := sourceAt (segs.content segmentId) pos faults
    match decodeInto bc src payload with
    | (.ok (some (event, consumed)), r, payload) =>
      (.record event consumed, some (pos + (src.rest.length - r.rest.length)), payload)
    | (.ok none, r, payload) =>
      (.eof, some (pos + (src.rest.length - r.rest.length)), payload)
    | (.error e, _, payload) => (.corrupt e, none, payload)

/-- `read_len_prefix`. -/
def readLenPrefix (segs : Segments) (segmentId offset : ℕ) (faults : ReadFaults) : Option ℕ :=
  if faults.lenPrefix ∨ segmentId ∉ segs then none
  else
    let b := (segs.content segmentId).drop offset
    if b.length < 4 then none else some (Bytes.toNatLe (b.take 4))

/-! ### The call of `next` -/

/-- What the subscription can observe: the files, the published head, the notifications so far, and
whether it holds the last reference to the `Notify` handle. -/
structure WalView where
  segments : Segments
  head : WalOffset
  notifications : ℕ
  writerGone : Bool

/-- The points of `next` and `wait_or_advance`. From `loadHead` on they carry the notifications
that had been sent when interest was registered. -/
inductive NextPc where
  | ready
  | readOne (reader : Option ℕ) (payload : Bytes)
  | corrupt
  | skip
  | register
  | loadHead (seen : ℕ)
  | checkClosed (seen : ℕ)
  | reloadHead (seen : ℕ)
  | park (seen : ℕ)
  | ended
  deriving DecidableEq

structure Subscription where
  curSegmentId : ℕ
  curByteOffset : ℕ
  curReader : Option ℕ
  payloadBuf : Bytes
  lastGcSegmentId : ℕ
  pc : NextPc
  deriving DecidableEq

/-- `run` goes on with the call, `drop` drops it at an await point. -/
inductive NextLabel where
  | run (faults : ReadFaults)
  | drop

namespace Subscription

/-- `WalSubscription::new`. -/
def new (start : WalOffset) : Subscription where
  curSegmentId := start.segmentId
  curByteOffset := start.byteOffset
  curReader := none
  payloadBuf := []
  lastGcSegmentId := start.segmentId - 1
  pc := .ready

def position (s : Subscription) : WalOffset := ⟨s.curSegmentId, s.curByteOffset⟩

/-- The top of the loop in `next`: reader and scratch buffer move into the blocking read. -/
def startRead (s : Subscription) : Subscription :=
  { s with curReader := none, payloadBuf := [], pc := .readOne s.curReader s.payloadBuf }

/-- `wait_or_advance` moves on to the next segment and returns `true`. -/
def nextSegment (s : Subscription) : Subscription :=
  startRead { s with curSegmentId := s.curSegmentId + 1, curByteOffset := 0, curReader := none }

/-- `MAX_SKIP_BYTES` in `skip_corrupt_record`. -/
def maxSkipBytes : ℕ := 1024 * 1024

/-- What `next` does with the outcome of a read. -/
def afterRead (s : Subscription) : ReadOutcome × Option ℕ × Bytes →
    Subscription × Option WalEntry
  | (.record event consumed, reader, payload) =>
    let offsetAfter := s.curByteOffset + consumed
    ({ s with
        curByteOffset := offsetAfter, curReader := reader, payloadBuf := payload, pc := .ready },
      some ⟨s.position, ⟨s.curSegmentId, offsetAfter⟩, event⟩)
  | (.corrupt _, reader, payload) =>
    ({ s with curReader := reader, payloadBuf := payload, pc := .corrupt }, none)
  -- `NotFound`, `OpenError`, `SeekError` and `Eof`
  | (_, reader, payload) =>
    ({ s with curReader := reader, payloadBuf := payload, pc := .register }, none)

/-- One step of `next`, and the entry it returns with, if it returns one. -/
def step (v : WalView) (s : Subscription) : NextLabel → Option (Subscription × Option WalEntry)
  | .run faults =>
    match s.pc with
    | .ready => some (s.startRead, none)
    | .readOne reader payload =>
      some (s.afterRead
        (SmarthomeIngest.readOne bc v.segments s.curSegmentId s.curByteOffset reader payload
          faults))
    | .corrupt =>
      let atActiveTail :=
        v.head.segmentId = s.curSegmentId ∧ v.head.byteOffset ≤ s.curByteOffset
      some ({ s with pc := if atActiveTail then .register else .skip }, none)
    | .skip =>
      match readLenPrefix v.segments s.curSegmentId s.curByteOffset faults with
      | none => some ({ s with pc := .register }, none)
      | some len =>
        if maxSkipBytes < len then some ({ s with pc := .register }, none)
        else some (startRead { s with curByteOffset := s.curByteOffset + (4 + len) }, none)
    | .register => some ({ s with pc := .loadHead v.notifications }, none)
    | .loadHead seen =>
      if s.curSegmentId < v.head.segmentId then some (s.nextSegment, none)
      else if v.head.segmentId = s.curSegmentId ∧ s.curByteOffset < v.head.byteOffset then
        some (s.startRead, none)
      else some ({ s with pc := .checkClosed seen }, none)
    | .checkClosed seen =>
      some ({ s with pc := if v.writerGone then .reloadHead seen else .park seen }, none)
    | .reloadHead _ =>
      if s.curSegmentId < v.head.segmentId then some (s.nextSegment, none)
      else if s.curByteOffset < v.head.byteOffset then some (s.startRead, none)
      else some ({ s with pc := .ended }, none)
    | .park seen => if seen < v.notifications then some (s.startRead, none) else none
    | .ended => none
  | .drop =>
    match s.pc with
    | .readOne .. | .skip | .park _ => some ({ s with pc := .ready }, none)
    | _ => none

end Subscription

/-! ### Reading without I/O errors -/

variable {bc}

@[simp] lemma sourceAt_noFaults (b : Bytes) (pos : ℕ) :
    sourceAt b pos {} = ⟨b.drop pos, none⟩ := rfl

/-- A reader that is where the offset is, or has still to be opened there. -/
def ReaderAt (byteOffset : ℕ) (reader : Option ℕ) : Prop := ∀ pos ∈ reader, pos = byteOffset

lemma readerAt_none (byteOffset : ℕ) : ReaderAt byteOffset none := nofun

lemma readerAt_some (byteOffset : ℕ) : ReaderAt byteOffset (some byteOffset) := by
  simp [ReaderAt]

/-- Without faults a read attempt is a look at the bytes behind the offset, or finds no file. -/
lemma openReader_noFaults (segs : Segments) (segmentId : ℕ) {byteOffset : ℕ} {reader : Option ℕ}
    (hr : ReaderAt byteOffset reader) :
    openReader segs segmentId byteOffset {} reader = .ok byteOffset ∨
      openReader segs segmentId byteOffset {} reader = .error .notFound ∧
        reader = none ∧ segmentId ∉ segs := by
  cases reader with
  | some pos =>
    obtain rfl := hr pos rfl
    exact .inl rfl
  | none =>
    by_cases hmem : segmentId ∈ segs
    · left
      simp only [openReader, hmem, not_true_eq_false, if_false]
      split_ifs with hpos
      · rfl
      · rw [Nat.eq_zero_of_not_pos hpos]
    · exact .inr ⟨by simp [openReader, hmem], rfl, hmem⟩

section Outcomes

variable {segs : Segments} {segmentId byteOffset : ℕ} {reader : Option ℕ}

lemma readOne_of_record (bc : Bincode) (hr : ReaderAt byteOffset reader) (p : Bytes)
    {event : WalEvent} {n : ℕ}
    (h : (frames bc).next ((segs.content segmentId).drop byteOffset) = some (some event, n)) :
    ∃ p', readOne bc segs segmentId byteOffset reader p {} =
      (.record event n, some (byteOffset + n), p') := by
  obtain ⟨body, hcut, hvalue, rfl⟩ := exists_of_frames_next h
  have hle := (frames bc).next_le h
  cases hde : bc.deserialize body with
  | error e =>
    rw [hde] at hvalue
    cases hvalue
  | ok ev =>
    rw [hde] at hvalue
    cases hvalue
    rcases openReader_noFaults segs segmentId hr with ho | ⟨-, -, hmem⟩
    · refine ⟨body, ?_⟩
      simp only [readOne, ho, sourceAt_noFaults, decodeInto_of_complete bc hcut, hde]
      simp only [List.length_drop] at hle ⊢
      have hpos : byteOffset + ((segs.content segmentId).length - byteOffset -
          ((segs.content segmentId).length - byteOffset - (4 + body.length))) =
          byteOffset + (4 + body.length) := by omega
      rw [hpos]
    · rw [Segments.content_of_notMem hmem, List.drop_nil] at hcut
      cases hcut

lemma readOne_of_corrupt (bc : Bincode) (hr : ReaderAt byteOffset reader) (p : Bytes) {n : ℕ}
    (h : (frames bc).next ((segs.content segmentId).drop byteOffset) = some (none, n)) :
    ∃ e p', readOne bc segs segmentId byteOffset reader p {} = (.corrupt e, none, p') := by
  obtain ⟨body, hcut, hvalue, -⟩ := exists_of_frames_next h
  cases hde : bc.deserialize body with
  | ok ev =>
    rw [hde] at hvalue
    cases hvalue
  | error e =>
    rcases openReader_noFaults segs segmentId hr with ho | ⟨-, -, hmem⟩
    · refine ⟨e, body, ?_⟩
      simp only [readOne, ho, sourceAt_noFaults, decodeInto_of_complete bc hcut, hde]
    · rw [Segments.content_of_notMem hmem, List.drop_nil] at hcut
      cases hcut

/-- Too few bytes for a frame, or no file: the loop goes to `wait_or_advance`. -/
lemma readOne_of_short (bc : Bincode) (hr : ReaderAt byteOffset reader) (p : Bytes)
    (h : Frame.cut ((segs.content segmentId).drop byteOffset) = .short) :
    ∃ outcome reader' p', readOne bc segs segmentId byteOffset reader p {} =
      (outcome, reader', p') ∧ (outcome = .eof ∨ outcome = .notFound) ∧
      ((segs.content segmentId).length ≤ byteOffset → ReaderAt byteOffset reader') := by
  rcases openReader_noFaults segs segmentId hr with ho | ⟨ho, -, -⟩
  · obtain ⟨p', hdec⟩ := decodeInto_of_short bc h p
    refine ⟨.eof, _, p', by simp only [readOne, ho, sourceAt_noFaults, hdec]; rfl, .inl rfl,
      fun hle => ?_⟩
    have hzero : (segs.content segmentId).length - byteOffset = 0 := by omega
    simp [ReaderAt, hzero]
  · exact ⟨.notFound, none, p, by simp only [readOne, ho], .inr rfl, fun _ => readerAt_none _⟩

lemma readOne_of_oversized (bc : Bincode) (hr : ReaderAt byteOffset reader) (p : Bytes) {len : ℕ}
    (h : Frame.cut ((segs.content segmentId).drop byteOffset) = .oversized len) :
    ∃ e p', readOne bc segs segmentId byteOffset reader p {} = (.corrupt e, none, p') := by
  rcases openReader_noFaults segs segmentId hr with ho | ⟨-, -, hmem⟩
  · obtain ⟨e, r, p', hdec⟩ := decodeInto_of_oversized bc h p
    exact ⟨e, p', by simp only [readOne, ho, sourceAt_noFaults, hdec]⟩
  · rw [Segments.content_of_notMem hmem, List.drop_nil] at h
    cases h

/-- The length prefix of a complete frame, read again. -/
lemma readLenPrefix_of_complete {body : Bytes}
    (h : Frame.cut ((segs.content segmentId).drop byteOffset) = .complete body) :
    readLenPrefix segs segmentId byteOffset {} = some body.length := by
  obtain ⟨-, hlen, hfour, -⟩ := Frame.cut_eq_complete.mp h
  have hmem : segmentId ∈ segs := by
    by_contra hmem
    rw [Segments.content_of_notMem hmem] at hfour
    simp at hfour
  rw [readLenPrefix, if_neg (by simp [hmem])]
  dsimp only
  rw [if_neg (not_lt.mpr hfour), hlen]

lemma readLenPrefix_of_oversized {len : ℕ}
    (h : Frame.cut ((segs.content segmentId).drop byteOffset) = .oversized len) :
    readLenPrefix segs segmentId byteOffset {} = some len ∧ maxWalRecordPayloadBytes < len := by
  unfold Frame.cut at h
  split at h
  · cases h
  · rename_i hfour
    dsimp only at h
    split at h
    · rename_i hlim
      cases h
      have hmem : segmentId ∈ segs := by
        by_contra hmem
        rw [Segments.content_of_notMem hmem] at hfour
        simp at hfour
      refine ⟨?_, hlim⟩
      rw [readLenPrefix, if_neg (by simp [hmem])]
      dsimp only
      rw [if_neg hfour]
    · split at h <;> cases h

end Outcomes

/-! ### What a read attempt finds -/

/-- The outcomes of a read attempt at `pos` of a file `b` without I/O errors, and the reader
afterwards. -/
inductive ReadRule (bc : Bincode) (b : Bytes) (pos : ℕ) : ReadOutcome → Option ℕ → Prop
  | record {event : WalEvent} {n : ℕ}
      (hnext : (frames bc).next (b.drop pos) = some (some event, n)) :
      ReadRule bc b pos (.record event n) (some (pos + n))
  | undecodable {e : String} {n : ℕ} (hnext : (frames bc).next (b.drop pos) = some (none, n)) :
      ReadRule bc b pos (.corrupt e) none
  | oversized {e : String} {len : ℕ} (hcut : Frame.cut (b.drop pos) = .oversized len) :
      ReadRule bc b pos (.corrupt e) none
  | eof (hcut : Frame.cut (b.drop pos) = .short) :
      ReadRule bc b pos .eof (some (pos + (b.length - pos)))
  | notFound (hnil : b = []) : ReadRule bc b pos .notFound none

/-- The place in the file that a read attempt looks at. -/
lemma openReader_eq_ok {segs : Segments} {segmentId byteOffset pos : ℕ} {faults : ReadFaults}
    {reader : Option ℕ} (h : openReader segs segmentId byteOffset faults reader = .ok pos) :
    pos = reader.getD byteOffset := by
  cases reader with
  | some pos' =>
    cases h
    rfl
  | none =>
    simp only [openReader] at h
    split at h
    · cases h
    · split_ifs at h with hmem hpos
      · split at h
        · cases h
        · cases h
          rfl
      · cases h
        exact (Nat.eq_zero_of_not_pos hpos).symm

/-- Without faults the segment is opened, or there is none. -/
lemma openReader_eq_error {segs : Segments} {segmentId byteOffset : ℕ} {reader : Option ℕ}
    {outcome : ReadOutcome} (h : openReader segs segmentId byteOffset {} reader = .error outcome) :
    outcome = .notFound ∧ segmentId ∉ segs := by
  cases reader with
  | some pos => cases h
  | none =>
    simp only [openReader] at h
    split_ifs at h with hmem
    cases h
    exact ⟨rfl, hmem⟩

theorem ReadRule.of_readOne {segs : Segments} {segmentId byteOffset : ℕ}
    {reader reader' : Option ℕ} {p p' : Bytes} {outcome : ReadOutcome}
    (h : readOne bc segs segmentId byteOffset reader p {} = (outcome, reader', p')) :
    ReadRule bc (segs.content segmentId) (reader.getD byteOffset) outcome reader' := by
  unfold readOne at h
  split at h
  · rename_i hopen
    cases h
    obtain ⟨rfl, hmem⟩ := openReader_eq_error hopen
    exact .notFound (Segments.content_of_notMem hmem)
  · rename_i pos hopen
    obtain rfl := openReader_eq_ok hopen
    generalize reader.getD byteOffset = pos at h ⊢
    generalize segs.content segmentId = b at h ⊢
    rw [sourceAt_noFaults] at h
    cases hcut : Frame.cut (b.drop pos) with
    | short =>
      obtain ⟨q, hdec⟩ := decodeInto_of_short bc hcut p
      simp only [hdec, List.length_drop, List.length_nil, Nat.sub_zero] at h
      cases h
      exact .eof hcut
    | oversized len =>
      obtain ⟨e, r, q, hdec⟩ := decodeInto_of_oversized bc hcut p
      simp only [hdec] at h
      cases h
      exact .oversized hcut
    | complete body =>
      have hnext := frames_next_of_complete bc hcut
      have hle := (frames bc).next_le hnext
      simp only [decodeInto_of_complete bc hcut] at h
      cases hde : bc.deserialize body with
      | error e =>
        rw [hde] at hnext h
        cases h
        exact .undecodable hnext
      | ok event =>
        rw [hde] at hnext h
        simp only [List.length_drop] at h hle
        have hpos : pos + (b.length - pos - (b.length - pos - (4 + body.length))) =
            pos + (4 + body.length) := by omega
        rw [hpos] at h
        cases h
        exact .record hnext

/-- What is reported as corrupt is no torn frame, and a frame only if it does not decode. -/
lemma ReadRule.of_corrupt {b : Bytes} {pos : ℕ} {e : String} {reader : Option ℕ}
    (h : ReadRule bc b pos (.corrupt e) reader) :
    reader = none ∧ Frame.cut (b.drop pos) ≠ .short ∧
      ∀ value n, (frames bc).next (b.drop pos) = some (value, n) → value = none := by
  cases h with
  | undecodable hnext =>
    refine ⟨rfl, cut_ne_short_of_next hnext, fun value n h => ?_⟩
    rw [hnext] at h
    cases h
    rfl
  | oversized hcut =>
    refine ⟨rfl, by simp [hcut], fun value n h => ?_⟩
    obtain ⟨body, hbody, -⟩ := exists_of_frames_next h
    rw [hcut] at hbody
    cases hbody

/-- Whatever fails, a record is read where a complete frame lies. -/
lemma complete_of_readOne {segs : Segments} {segmentId byteOffset : ℕ} {reader reader' : Option ℕ}
    {p p' : Bytes} {faults : ReadFaults} {event : WalEvent} {n : ℕ}
    (h : readOne bc segs segmentId byteOffset reader p faults = (.record event n, reader', p')) :
    ∃ body, Frame.cut ((segs.content segmentId).drop (reader.getD byteOffset)) =
      .complete body := by
  unfold readOne at h
  split at h
  · rename_i outcome hopen
    cases h
    cases reader with
    | some pos => cases hopen
    | none =>
      simp only [openReader] at hopen
      split at hopen
      · cases hopen
      · split_ifs at hopen
        · split at hopen <;> cases hopen
        · cases hopen
  · rename_i pos hopen
    obtain rfl := openReader_eq_ok hopen
    dsimp only at h
    split at h
    · rename_i hdec
      obtain ⟨body, hcut⟩ := complete_of_decodeInto bc hdec
      unfold sourceAt at hcut
      split at hcut
      · exact ⟨body, hcut⟩
      · -- a fault only hides what lies behind it
        exact ⟨body, Frame.cut_of_prefix (List.take_prefix _ _) hcut⟩
    · cases h
    · cases h

end SmarthomeIngest
