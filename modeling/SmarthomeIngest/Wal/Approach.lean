import SmarthomeIngest.Wal.Progress
import SmarthomeIngest.Wal.Writer.First
import SmarthomeIngest.Wal.Yield

/-!
# Getting to the first record

The subscription runs through whatever bytes lie in the segments in front of the first record, and
through those in front of it in its own segment frame by frame. `Approaches` says that it has not
got over the place of the record; it stays true until the record is returned, and once the head is
behind the record every step of `next` brings it nearer.
-/

namespace SmarthomeIngest

/-! ### Definitions -/

/-- The record `r` is one that the reader accepts, behind frames in the file that it goes to. -/
structure Record.Follows (bc : Bincode) (base : Segments) (r : Record) : Prop where
  next : (frames bc).next r.frame = some (some r.request.event, r.frame.length)
  length : (base.content r.segmentId).length = r.start
  whole : (frames bc).Whole (base.content r.segmentId)

/-- What the subscription returns for a record. -/
def Record.walEntry (r : Record) : WalEntry := ⟨r.offset, r.offsetAfter, r.request.event⟩

/-- The points of `wait_or_advance`. -/
def NextPc.Waiting : NextPc → Prop
  | .register | .loadHead _ | .checkClosed _ | .reloadHead _ | .park _ => True
  | _ => False

namespace Subscription

/-- A reader at the offset, or in an older segment behind everything there is to read. -/
def ReaderFits (base : Segments) (r : Record) (s : Subscription) (reader : Option ℕ) : Prop :=
  ∀ pos ∈ reader, pos = s.curByteOffset ∨
    s.curSegmentId < r.segmentId ∧ (base.content s.curSegmentId).length ≤ pos

/-- The subscription is in an older segment than `r`, or in that of `r` with nothing but frames in
front of it. It waits there only where the record starts, having seen the file end there. -/
structure Approaches (bc : Bincode) (base : Segments) (r : Record) (seenLen : ℕ)
    (s : Subscription) : Prop where
  place : s.curSegmentId < r.segmentId ∨ s.curSegmentId = r.segmentId ∧
    s.curByteOffset ≤ r.start ∧
    (frames bc).Whole ((base.content r.segmentId).drop s.curByteOffset)
  curReader : s.ReaderFits base r s.curReader
  reader : ∀ reader payload, s.pc = .readOne reader payload → s.ReaderFits base r reader
  corrupt : s.pc = .corrupt ∨ s.pc = .skip → s.curReader = none ∧
    (s.curSegmentId = r.segmentId → ∃ n, (frames bc).next
      ((base.content r.segmentId).drop s.curByteOffset) = some (none, n))
  waits : s.pc.Waiting → s.curSegmentId = r.segmentId →
    s.curByteOffset = r.start ∧ seenLen = r.start

/-- The length of the current segment when the last read attempt looked at it. -/
def seenAfter (v : WalView) (seenLen : ℕ) (s : Subscription) : ℕ :=
  match s.pc with
  | .readOne .. => (v.segments.content s.curSegmentId).length
  | _ => seenLen

/-- The points of the loop before the position moves. In the segment of the record,
`wait_or_advance` leads to one more read. -/
def turnsTo (r : Record) (s : Subscription) : ℕ :=
  let again := if s.curSegmentId = r.segmentId then 8 else 0
  match s.pc with
  | .ready         => 8
  | .readOne _ _   => 7
  | .corrupt       => 6
  | .skip          => 5
  | .register      => 4 + again
  | .loadHead _    => 3 + again
  | .checkClosed _ => 10
  | .reloadHead _  => 9
  | .park _        => 9
  | .ended         => 0

/-- The bytes in front of the end of the record, and the points of the loop. -/
def rankTo (base : Segments) (r : Record) (s : Subscription) : ℕ :=
  8 * bytesLeft base r.offsetAfter s.position + s.turnsTo r

end Subscription

/-! ### What a read attempt finds -/

variable {bc : Bincode} {base : Segments} {r : Record} {v : WalView}

lemma Record.Follows.frame_pos (hf : r.Follows bc base) : 0 < r.frame.length :=
  (frames bc).next_pos hf.next

/-- In front of the record there are frames. -/
lemma exists_next_of_whole {b : Bytes} (h : (frames bc).Whole b) (hne : b ≠ []) :
    ∃ value n, (frames bc).next b = some (value, n) := by
  cases hnext : (frames bc).next b with
  | none => exact absurd (h.eq_nil_of_scan ((frames bc).scan_of_none hnext 0)) hne
  | some p => exact ⟨p.1, p.2, rfl⟩

namespace WalView.Shows

/-- The frames in front of the record are still there. -/
lemma next_before (hv : v.Shows base r) {off : ℕ} {value : Option WalEvent} {n : ℕ}
    (h : (frames bc).next ((base.content r.segmentId).drop off) = some (value, n)) :
    (frames bc).next ((v.segments.content r.segmentId).drop off) = some (value, n) := by
  obtain ⟨c, hc⟩ := hv.base_prefix.drop off
  rw [← hc]
  exact (frames bc).next_append h c

variable (hv : v.Shows base r) (hf : r.Follows bc base)
include hv hf

/-- At its place there is the record, or the file ends inside it. -/
lemma next_at : Frame.cut ((v.segments.content r.segmentId).drop r.start) = .short ∨
    (frames bc).next ((v.segments.content r.segmentId).drop r.start) =
      some (some r.request.event, r.frame.length) := by
  have hdrop : (base.content r.segmentId ++ r.frame).drop r.start = r.frame := by
    rw [← hf.length, List.drop_left]
  rcases hv.comparable with hpart | hfull
  · have hpre := hpart.drop r.start
    rw [hdrop] at hpre
    have htake := List.prefix_iff_eq_take.mp hpre
    have hclean : ∀ len, Frame.cut r.frame ≠ .oversized len := by
      obtain ⟨body, hcut, -⟩ := exists_of_frames_next hf.next
      simp [hcut]
    cases hnext : (frames bc).next ((v.segments.content r.segmentId).drop r.start) with
    | none =>
      rw [htake] at hnext ⊢
      exact .inl (Frame.cut_take_eq_short hclean hnext)
    | some p =>
      obtain ⟨c, hc⟩ := hpre
      have happend := (frames bc).next_append hnext c
      rw [hc, hf.next] at happend
      exact .inr happend.symm
  · obtain ⟨c, hc⟩ := hfull.drop r.start
    rw [hdrop] at hc
    rw [← hc]
    exact .inr ((frames bc).next_append hf.next c)

/-- What was there before reaches to its place. -/
lemma start_le_length : r.start ≤ (v.segments.content r.segmentId).length :=
  hf.length ▸ hv.base_prefix.length_le

lemma length_published (hpub : r.offsetAfter ≤ v.head) :
    r.start < (v.segments.content r.segmentId).length := by
  have hle := (hv.published hpub).length_le
  have hpos := hf.frame_pos
  rw [List.length_append, hf.length] at hle
  omega

end WalView.Shows

namespace Subscription

variable {s s' : Subscription} {entry : Option WalEntry} {seenLen : ℕ}

lemma readerFits_none (base : Segments) (r : Record) (s : Subscription) :
    s.ReaderFits base r none := nofun

/-- A reader that finds something is at the offset. -/
lemma ReaderFits.getD_eq {reader : Option ℕ} (hr : s.ReaderFits base r reader)
    (hv : v.Shows base r) (hcut : Frame.cut ((v.segments.content s.curSegmentId).drop
      (reader.getD s.curByteOffset)) ≠ .short) : reader.getD s.curByteOffset = s.curByteOffset := by
  cases reader with
  | none => rfl
  | some pos =>
    rcases hr pos rfl with hpos | ⟨hseg, hlen⟩
    · exact hpos
    · rw [Option.getD_some, hv.older _ hseg, List.drop_of_length_le hlen] at hcut
      exact absurd rfl hcut

/-- In the segment of the record it is there in any case. -/
lemma ReaderFits.getD_of_eq {reader : Option ℕ} (hr : s.ReaderFits base r reader)
    (hseg : s.curSegmentId = r.segmentId) : reader.getD s.curByteOffset = s.curByteOffset := by
  cases reader with
  | none => rfl
  | some pos => exact (hr pos rfl).resolve_right fun h => absurd hseg h.1.ne

/-- To a later point of the loop. -/
lemma rankTo_of_turn {pc : NextPc} (reader : Option ℕ) (payload : Bytes)
    (h : turnsTo r { s with curReader := reader, payloadBuf := payload, pc := pc } < s.turnsTo r) :
    rankTo base r { s with curReader := reader, payloadBuf := payload, pc := pc } <
      s.rankTo base r := Nat.add_lt_add_left h _

lemma rankTo_of_move (hturns : s'.turnsTo r ≤ 8) (hpos : 0 < s.turnsTo r)
    (hbytes : bytesLeft base r.offsetAfter s'.position < bytesLeft base r.offsetAfter s.position) :
    s'.rankTo base r < s.rankTo base r := by
  simp only [rankTo]
  omega

namespace Approaches

/-- A segment that does not change any more is left for the next one. -/
lemma nextSegment (hf : r.Follows bc base) (hseg : s.curSegmentId < r.segmentId) (n : ℕ) :
    s.nextSegment.Approaches bc base r n where
  place := by
    rcases (Nat.succ_le_of_lt hseg).lt_or_eq with hlt | heq
    · exact .inl hlt
    · exact .inr ⟨heq, Nat.zero_le _, hf.whole⟩
  curReader := readerFits_none _ _ _
  reader reader payload h := by
    cases h
    exact readerFits_none _ _ _
  corrupt h := by rcases h with h | h <;> cases h
  waits h := h.elim

variable (hs : s.Approaches bc base r seenLen)
include hs

/-- In the segment of the record, what there is at the offset. -/
lemma next_cases (hf : r.Follows bc base) (hseg : s.curSegmentId = r.segmentId) :
    s.curByteOffset = r.start ∨ s.curByteOffset < r.start ∧ ∃ value n,
      (frames bc).next ((base.content r.segmentId).drop s.curByteOffset) = some (value, n) ∧
      s.curByteOffset + n ≤ r.start ∧
      (frames bc).Whole ((base.content r.segmentId).drop (s.curByteOffset + n)) := by
  obtain ⟨-, hle, hwhole⟩ := hs.place.resolve_left hseg.not_lt
  refine hle.eq_or_lt.imp_right fun hlt => ⟨hlt, ?_⟩
  have hlen : ((base.content r.segmentId).drop s.curByteOffset).length =
      r.start - s.curByteOffset := by rw [List.length_drop, hf.length]
  obtain ⟨value, n, hnext⟩ := exists_next_of_whole hwhole (List.ne_nil_of_length_pos (by omega))
  have hn := (frames bc).next_le hnext
  refine ⟨value, n, hnext, by omega, ?_⟩
  rw [← List.drop_drop]
  exact hwhole.drop hnext

/-- Once the head is behind the record, it is ahead of the subscription. -/
lemma behind (hf : r.Follows bc base) (hpub : r.offsetAfter ≤ v.head) :
    s.curSegmentId < v.head.segmentId ∨
      v.head.segmentId = s.curSegmentId ∧ s.curSegmentId = r.segmentId ∧
        s.curByteOffset < v.head.byteOffset := by
  have hpos := hf.frame_pos
  rcases hs.place with hlt | ⟨heq, hle, -⟩
  · rcases WalOffset.le_iff.mp hpub with h | ⟨h, -⟩
    · exact .inl (hlt.trans h)
    · exact .inl (hlt.trans_eq h)
  · rcases WalOffset.le_iff.mp hpub with h | ⟨h, hoff⟩
    · exact .inl (heq ▸ h)
    · refine .inr ⟨h.symm.trans heq.symm, heq, hle.trans_lt ?_⟩
      change r.start + r.frame.length ≤ v.head.byteOffset at hoff
      omega

/-! ### The steps -/

lemma startRead (n : ℕ) : s.startRead.Approaches bc base r n where
  place := hs.place
  curReader := readerFits_none _ _ _
  reader reader payload h := by
    cases h
    exact hs.curReader
  corrupt h := by rcases h with h | h <;> cases h
  waits h := h.elim

/-- From a point of `wait_or_advance` to another one, or to the end. -/
lemma goto {pc : NextPc} (hpc : s.pc.Waiting)
    (hread : ∀ reader payload, pc ≠ .readOne reader payload)
    (hcorrupt : ¬ (pc = .corrupt ∨ pc = .skip)) :
    Approaches bc base r seenLen { s with pc := pc } where
  place := hs.place
  curReader := hs.curReader
  reader reader payload h := absurd h (hread reader payload)
  corrupt h := absurd h hcorrupt
  waits _ := hs.waits hpc

/-- Over the frame at the offset, unless it is that of the record. -/
lemma advance (hf : r.Follows bc base) (hv : v.Shows base r) {value : Option WalEvent} {n : ℕ}
    (hnext : (frames bc).next ((v.segments.content s.curSegmentId).drop s.curByteOffset) =
      some (value, n)) {reader : Option ℕ} (hreader : ∀ pos ∈ reader, pos = s.curByteOffset + n)
    (payload : Bytes) (seenLen' : ℕ) :
    (s.position = r.offset ∧ value = some r.request.event ∧ n = r.frame.length) ∨
    Approaches bc base r seenLen' { s with
      curByteOffset := s.curByteOffset + n, curReader := reader, payloadBuf := payload,
      pc := .ready } := by
  have happroaches (hplace : s.curSegmentId < r.segmentId ∨ s.curSegmentId = r.segmentId ∧
      s.curByteOffset + n ≤ r.start ∧
      (frames bc).Whole ((base.content r.segmentId).drop (s.curByteOffset + n))) :
      Approaches bc base r seenLen' { s with
        curByteOffset := s.curByteOffset + n, curReader := reader, payloadBuf := payload,
        pc := .ready } :=
    { place := hplace
      curReader := fun pos hpos => .inl (hreader pos hpos)
      reader := fun _ _ h => by cases h
      corrupt := fun h => by rcases h with h | h <;> cases h
      waits := fun h => h.elim }
  rcases hs.place with hlt | ⟨hseg, -⟩
  · exact .inr (happroaches (.inl hlt))
  · rcases hs.next_cases hf hseg with hoff | ⟨-, value', n', hbefore, hle, hwhole⟩
    · left
      rw [hseg, hoff] at hnext
      rcases hv.next_at hf with hshort | hat
      · exact absurd hshort (cut_ne_short_of_next hnext)
      · rw [hat] at hnext
        cases hnext
        exact ⟨congrArg₂ WalOffset.mk hseg hoff, rfl, rfl⟩
    · rw [hseg, hv.next_before hbefore] at hnext
      cases hnext
      exact .inr (happroaches (.inr ⟨hseg, hle, hwhole⟩))

/-- How far the segment of the subscription reaches, up to the end of the record. -/
lemma lt_publishedLen (hf : r.Follows bc base)
    (hlt : s.curSegmentId < r.segmentId →
      s.curByteOffset < (base.content s.curSegmentId).length) :
    s.curByteOffset < publishedLen base r.offsetAfter s.curSegmentId := by
  rcases hs.place with hseg | ⟨hseg, hle, -⟩
  · rw [publishedLen_of_lt hseg]
    exact hlt hseg
  · have hpos := hf.frame_pos
    have hlen : publishedLen base r.offsetAfter s.curSegmentId = r.start + r.frame.length := by
      rw [hseg]
      exact publishedLen_self
    omega

/-- A read attempt that finds a record. -/
lemma record (hf : r.Follows bc base) (hv : v.Shows base r) {reader reader' : Option ℕ}
    {payload payload' : Bytes} {event : WalEvent} {n : ℕ} (hpc : s.pc = .readOne reader payload)
    (hread : SmarthomeIngest.readOne bc v.segments s.curSegmentId s.curByteOffset reader payload
      {} = (.record event n, reader', payload')) (seenLen' : ℕ) :
    (some ⟨s.position, ⟨s.curSegmentId, s.curByteOffset + n⟩, event⟩ = some r.walEntry) ∨
    Approaches bc base r seenLen' { s with
      curByteOffset := s.curByteOffset + n, curReader := reader', payloadBuf := payload',
      pc := .ready } ∧
    rankTo base r { s with
      curByteOffset := s.curByteOffset + n, curReader := reader', payloadBuf := payload',
      pc := .ready } < s.rankTo base r := by
  cases ReadRule.of_readOne hread with
  | record hnext =>
    have hpos := (hs.reader _ _ hpc).getD_eq hv (cut_ne_short_of_next hnext)
    rw [hpos] at hnext ⊢
    have hreader : ∀ pos ∈ some (s.curByteOffset + n), pos = s.curByteOffset + n :=
      fun pos hpos => (Option.mem_some.mp hpos).symm
    rcases hs.advance hf hv hnext hreader payload' seenLen' with ⟨hplace, hevent, hlen⟩ | happ
    · left
      obtain ⟨hseg, hoff⟩ := WalOffset.mk.inj hplace
      cases hevent
      rw [Record.walEntry, hplace, Record.offsetAfter, hseg, hoff, hlen]
    · refine .inr ⟨happ, rankTo_of_move (by simp [turnsTo]) (by simp [turnsTo, hpc]) ?_⟩
      refine bytesLeft_of_skip ((frames bc).next_pos hnext) (hs.lt_publishedLen hf fun hseg => ?_)
      have hle := (frames bc).next_le hnext
      have hn := (frames bc).next_pos hnext
      rw [List.length_drop, hv.older _ hseg] at hle
      omega

/-- One that finds bytes which are no record. -/
lemma undecodable (hf : r.Follows bc base) (hv : v.Shows base r) {reader reader' : Option ℕ}
    {payload payload' : Bytes} {e : String} (hpc : s.pc = .readOne reader payload)
    (hread : SmarthomeIngest.readOne bc v.segments s.curSegmentId s.curByteOffset reader payload
      {} = (.corrupt e, reader', payload')) (seenLen' : ℕ) :
    Approaches bc base r seenLen'
      { s with curReader := reader', payloadBuf := payload', pc := .corrupt } := by
  obtain ⟨rfl, hcut, hnone⟩ := (ReadRule.of_readOne hread).of_corrupt
  refine ⟨hs.place, readerFits_none _ _ _, fun _ _ h => (by cases h),
    fun _ => ⟨rfl, fun hseg => ?_⟩, fun h => h.elim⟩
  have hpos := (hs.reader _ _ hpc).getD_of_eq hseg
  change s.curSegmentId = r.segmentId at hseg
  show ∃ n, (frames bc).next ((base.content r.segmentId).drop s.curByteOffset) = some (none, n)
  rw [hpos, hseg] at hcut hnone
  rcases hs.next_cases hf hseg with hoff | ⟨-, value, n, hbefore, -⟩
  · -- the record itself decodes
    rw [hoff] at hcut hnone
    rcases hv.next_at hf with hshort | hat
    · exact absurd hshort hcut
    · cases hnone _ _ hat
  · obtain rfl : value = none := hnone value n (hv.next_before hbefore)
    exact ⟨n, hbefore⟩

/-- One that finds the segment read to its end. -/
lemma nothing (hf : r.Follows bc base) (hv : v.Shows base r) {reader reader' : Option ℕ}
    {payload payload' : Bytes} {outcome : ReadOutcome} (hpc : s.pc = .readOne reader payload)
    (hread : SmarthomeIngest.readOne bc v.segments s.curSegmentId s.curByteOffset reader payload
      {} = (outcome, reader', payload')) (hout : outcome.Nothing)
    (hwhole : s.position = r.offset →
      Frame.cut ((v.segments.content s.curSegmentId).drop s.curByteOffset) = .short →
        (v.segments.content s.curSegmentId).length ≤ s.curByteOffset) :
    Approaches bc base r (v.segments.content s.curSegmentId).length
      { s with curReader := reader', payloadBuf := payload', pc := .register } ∧
    (r.offsetAfter ≤ v.head → rankTo base r
      { s with curReader := reader', payloadBuf := payload', pc := .register } <
        s.rankTo base r) := by
  have hreader := hs.reader _ _ hpc
  have hrule := ReadRule.of_readOne hread
  rcases hs.place with hlt | ⟨hseg, -⟩
  · refine ⟨⟨hs.place, fun pos hpos => .inr ⟨hlt, ?_⟩, fun _ _ h => (by cases h),
      fun h => (by rcases h with h | h <;> cases h), fun _ h => absurd h hlt.ne⟩, fun _ => ?_⟩
    · cases hrule with
      | record | undecodable | oversized => cases hout
      | eof hshort =>
        rw [← Option.mem_some.mp hpos, ← hv.older _ hlt]
        show (v.segments.content s.curSegmentId).length ≤ _
        omega
      | notFound => cases hpos
    · exact rankTo_of_turn _ _ (by simp [turnsTo, hpc, hlt.ne])
  · have hpos := hreader.getD_of_eq hseg
    have hshort : Frame.cut ((v.segments.content s.curSegmentId).drop s.curByteOffset) =
        .short := by
      cases hrule with
      | record | undecodable | oversized => cases hout
      | eof hshort => exact hpos ▸ hshort
      | notFound hnil =>
        rw [hnil, List.drop_nil]
        rfl
    have hoff : s.curByteOffset = r.start := by
      rcases hs.next_cases hf hseg with hoff | ⟨-, value, n, hbefore, -⟩
      · exact hoff
      · have hthere := hv.next_before hbefore
        rw [← hseg] at hthere
        exact absurd hshort (cut_ne_short_of_next hthere)
    have hlen : (v.segments.content s.curSegmentId).length = r.start := by
      refine le_antisymm ?_ (hseg ▸ hv.start_le_length hf)
      exact (hwhole (congrArg₂ WalOffset.mk hseg hoff) hshort).trans_eq hoff
    refine ⟨⟨hs.place, fun pos hpos' => .inl ?_, fun _ _ h => (by cases h),
      fun h => (by rcases h with h | h <;> cases h), fun _ _ => ⟨hoff, hlen⟩⟩, fun hpub => ?_⟩
    · cases hrule with
      | record | undecodable | oversized => cases hout
      | eof =>
        rw [← Option.mem_some.mp hpos', hpos]
        show s.curByteOffset + _ = s.curByteOffset
        omega
      | notFound => cases hpos'
    · have hfull := hv.length_published hf hpub
      rw [← hseg] at hfull
      omega

/-- The prefix of a frame in front of the record is read again. -/
lemma readLenPrefix_eq (hf : r.Follows bc base) (hv : v.Shows base r) (hpc : s.pc = .skip)
    (hseg : s.curSegmentId = r.segmentId) :
    s.curByteOffset < r.start ∧ ∃ len, len ≤ maxSkipBytes ∧
      readLenPrefix v.segments s.curSegmentId s.curByteOffset {} = some len := by
  obtain ⟨n, hnext⟩ := (hs.corrupt (.inr hpc)).2 hseg
  have hle := (frames bc).next_le hnext
  have hn := (frames bc).next_pos hnext
  rw [List.length_drop, hf.length] at hle
  have hthere := hv.next_before hnext
  rw [← hseg] at hthere
  obtain ⟨body, hcut, -⟩ := exists_of_frames_next hthere
  exact ⟨by omega, body.length, (Frame.cut_eq_complete.mp hcut).1, readLenPrefix_of_complete hcut⟩

/-- `skip_corrupt_record` gives up in older segments only. -/
lemma giveUp (hpc : s.pc = .corrupt ∨ s.pc = .skip) (hseg : s.curSegmentId ≠ r.segmentId) :
    Approaches bc base r seenLen { s with pc := .register } ∧
      rankTo base r { s with pc := .register } < s.rankTo base r := by
  refine ⟨⟨hs.place, hs.curReader, fun _ _ h => (by cases h),
    fun h => (by rcases h with h | h <;> cases h), fun _ h => absurd h hseg⟩, ?_⟩
  refine rankTo_of_turn _ _ ?_
  rcases hpc with hpc | hpc <;> simp [turnsTo, hpc, hseg]

/-- `skip_corrupt_record` skips a frame. -/
lemma skips (hf : r.Follows bc base) (hv : v.Shows base r) {len : ℕ} (hpc : s.pc = .skip)
    (hlen : readLenPrefix v.segments s.curSegmentId s.curByteOffset {} = some len) (n : ℕ) :
    Approaches bc base r n
      (Subscription.startRead { s with curByteOffset := s.curByteOffset + (4 + len) }) ∧
    rankTo base r
      (Subscription.startRead { s with curByteOffset := s.curByteOffset + (4 + len) }) <
      s.rankTo base r := by
  obtain ⟨hreader, hframe⟩ := hs.corrupt (.inr hpc)
  constructor
  · refine ⟨?_, readerFits_none _ _ _, fun reader payload h => ?_,
      fun h => (by rcases h with h | h <;> cases h), fun h => h.elim⟩
    · rcases hs.place with hlt | ⟨hseg, -⟩
      · exact .inl hlt
      · obtain ⟨k, hnext⟩ := hframe hseg
        have hthere := hv.next_before hnext
        rw [← hseg] at hthere
        obtain ⟨body, hcut, -, rfl⟩ := exists_of_frames_next hthere
        rw [readLenPrefix_of_complete hcut] at hlen
        obtain rfl : body.length = len := Option.some.inj hlen
        obtain ⟨hlt, -⟩ := hs.readLenPrefix_eq hf hv hpc hseg
        rcases hs.next_cases hf hseg with hoff | ⟨-, value, k, hbefore, hle, hwhole⟩
        · exact absurd hoff hlt.ne
        · rw [hnext] at hbefore
          cases hbefore
          exact .inr ⟨hseg, hle, hwhole⟩
    · cases h
      exact hreader ▸ readerFits_none _ _ _
  · refine rankTo_of_move (by simp [turnsTo, Subscription.startRead]) (by simp [turnsTo, hpc]) ?_
    refine bytesLeft_of_skip (by omega) (hs.lt_publishedLen hf fun hseg => ?_)
    rw [← hv.older _ hseg]
    exact lt_of_readLenPrefix hlen

/-- Every step of `next` returns the record, or does not get over it; once the head is behind the
record, it lowers the rank. -/
lemma step (hf : r.Follows bc base) (hv : v.Shows base r)
    (hwhole : ∀ reader payload, s.pc = .readOne reader payload → s.position = r.offset →
      Frame.cut ((v.segments.content s.curSegmentId).drop s.curByteOffset) = .short →
        (v.segments.content s.curSegmentId).length ≤ s.curByteOffset)
    (hup : ∀ seen, s.pc = .loadHead seen ∨ s.pc = .reloadHead seen → s.position = r.offset →
      s.curSegmentId < v.head.segmentId →
        (v.segments.content s.curSegmentId).length = seenLen)
    (h : s.step bc v (.run {}) = some (s', entry)) :
    entry = some r.walEntry ∨ s'.Approaches bc base r (s.seenAfter v seenLen) ∧
      (r.offsetAfter ≤ v.head → s'.rankTo base r < s.rankTo base r) := by
  have hbehind := fun hpub => hs.behind hf (v := v) hpub
  cases NextRule.of_step h with
  | ready hpc =>
    exact .inr ⟨hs.startRead _, fun _ => rankTo_of_turn _ _ (by simp [turnsTo, hpc])⟩
  | record hpc hread =>
    exact (hs.record hf hv hpc hread _).imp_right fun h => ⟨h.1, fun _ => h.2⟩
  | corrupt hpc hread =>
    exact .inr ⟨hs.undecodable hf hv hpc hread _,
      fun _ => rankTo_of_turn _ _ (by simp [turnsTo, hpc])⟩
  | nothing hpc hread hout =>
    rw [seenAfter, hpc]
    exact .inr (hs.nothing hf hv hpc hread hout (hwhole _ _ hpc))
  | activeTail hpc hseg hoff =>
    have hne : s.curSegmentId ≠ r.segmentId := by
      intro heq
      obtain ⟨n, hnext⟩ := (hs.corrupt (.inl hpc)).2 heq
      have hle := (frames bc).next_le hnext
      have hn := (frames bc).next_pos hnext
      have hreached := hv.reached (hseg.trans heq)
      rw [List.length_drop, hf.length] at hle
      omega
    rw [seenAfter, hpc]
    obtain ⟨happ, hrank⟩ := hs.giveUp (.inl hpc) hne
    exact .inr ⟨happ, fun _ => hrank⟩
  | poison hpc =>
    refine .inr ⟨⟨hs.place, hs.curReader, fun _ _ h => (by cases h), fun _ => hs.corrupt (.inl hpc),
      fun h => h.elim⟩, fun _ => rankTo_of_turn _ _ (by simp [turnsTo, hpc])⟩
  | unreadablePrefix hpc hlen =>
    have hne : s.curSegmentId ≠ r.segmentId := fun hseg => by
      obtain ⟨-, len, -, hlen'⟩ := hs.readLenPrefix_eq hf hv hpc hseg
      rw [hlen] at hlen'
      cases hlen'
    rw [seenAfter, hpc]
    obtain ⟨happ, hrank⟩ := hs.giveUp (.inr hpc) hne
    exact .inr ⟨happ, fun _ => hrank⟩
  | tooLong hpc hlen hmax =>
    have hne : s.curSegmentId ≠ r.segmentId := fun hseg => by
      obtain ⟨-, len, hle, hlen'⟩ := hs.readLenPrefix_eq hf hv hpc hseg
      rw [hlen] at hlen'
      cases hlen'
      exact absurd hle (not_le.mpr hmax)
    rw [seenAfter, hpc]
    obtain ⟨happ, hrank⟩ := hs.giveUp (.inr hpc) hne
    exact .inr ⟨happ, fun _ => hrank⟩
  | skip hpc hlen =>
    obtain ⟨happ, hrank⟩ := hs.skips hf hv hpc hlen (s.seenAfter v seenLen)
    exact .inr ⟨happ, fun _ => hrank⟩
  | register hpc =>
    rw [seenAfter, hpc]
    refine .inr ⟨hs.goto (by simp [hpc, NextPc.Waiting]) (by simp) (by simp),
      fun _ => rankTo_of_turn _ _ ?_⟩
    simp [turnsTo, hpc]
  | @nextSegment _ seen hpc hhead =>
    have hlt : s.curSegmentId < r.segmentId := by
      rcases hs.place with hlt | ⟨hseg, -⟩
      · exact hlt
      · -- the record was not there when the end of the segment was seen
        exfalso
        have hwaiting : s.pc.Waiting := by
          rcases hpc with hpc | hpc <;> simp [hpc, NextPc.Waiting]
        obtain ⟨hoff, hseen⟩ := hs.waits hwaiting hseg
        have hlen := hup seen hpc (congrArg₂ WalOffset.mk hseg hoff) hhead
        have hfull := hv.length_published hf (WalOffset.le_iff.mpr (.inl (hseg.ge.trans_lt hhead)))
        rw [← hseg] at hfull
        omega
    refine .inr ⟨.nextSegment hf hlt _, fun _ => rankTo_of_move ?_ ?_ ?_⟩
    · simp [turnsTo, Subscription.nextSegment, Subscription.startRead]
    · rcases hpc with hpc | hpc <;> simp [turnsTo, hpc]
    · exact bytesLeft_of_nextSegment _ hlt
  | ahead hpc hseg hoff =>
    refine .inr ⟨hs.startRead _, fun hpub => rankTo_of_turn _ _ ?_⟩
    rcases hbehind hpub with hlt | ⟨-, heq, -⟩
    · exact absurd hseg hlt.ne'
    · simp [turnsTo, hpc, heq]
  | atHead hpc hseg hoff =>
    rw [seenAfter, hpc]
    refine .inr ⟨hs.goto (by simp [hpc, NextPc.Waiting]) (by simp) (by simp), fun hpub => ?_⟩
    rcases hbehind hpub with hlt | ⟨heq, -, hlt⟩
    · exact absurd hlt (not_lt.mpr hseg)
    · exact absurd hlt (not_lt.mpr (hoff heq))
  | closed hpc | parks hpc =>
    rw [seenAfter, hpc]
    refine .inr ⟨hs.goto (by simp [hpc, NextPc.Waiting]) (by simp) (by simp),
      fun _ => rankTo_of_turn _ _ ?_⟩
    simp [turnsTo, hpc]
  | reloadAhead hpc | notified hpc =>
    exact .inr ⟨hs.startRead _, fun _ => rankTo_of_turn _ _ (by simp [turnsTo, hpc])⟩
  | ended hpc hseg hoff =>
    rw [seenAfter, hpc]
    refine .inr ⟨hs.goto (by simp [hpc, NextPc.Waiting]) (by simp) (by simp), fun hpub => ?_⟩
    rcases hbehind hpub with hlt | ⟨-, -, hlt⟩
    · exact absurd hlt (not_lt.mpr hseg)
    · exact absurd hlt (not_lt.mpr hoff)

end Approaches

end Subscription

end SmarthomeIngest
