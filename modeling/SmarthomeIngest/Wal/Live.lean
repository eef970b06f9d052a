import SmarthomeIngest.Lib.Transition
import SmarthomeIngest.Wal.Bincode
import SmarthomeIngest.Wal.Open
import SmarthomeIngest.Wal.Subscription.Rules
import SmarthomeIngest.Wal.Writer.OnTheWay

/-!
# Reading a log that is being written

Writer thread and subscription as one system: their steps come in any order. The subscription
leaves a segment when it has seen its end and the head is in a later segment. These are two
observations, and the writer may append to the segment between them; then the entries it appended
are skipped. The invariant of the system holds in the runs where this does not happen.
-/

namespace SmarthomeIngest

open Transition

/-! ### The system -/

/-- Writer, subscription and the entries returned so far. `seenLen` is history: the length of the
current segment when the last read attempt looked at it. -/
structure Live where
  writer : Writer
  subscription : Subscription
  yielded : List WalEntry
  seenLen : ℕ

inductive LiveLabel where
  | writer (l : WriterLabel)
  | next
  deriving DecidableEq

namespace Live

def init (w : Wal) : Live := ⟨w.writer, w.subscription, [], 0⟩

variable (bc : Bincode) (segmentBytes : ℕ)

/-- One step of either party; the calls of `next` are repeated and meet no I/O error. -/
def step (s : Live) : LiveLabel → Option Live
  | .writer l => (s.writer.step bc segmentBytes l).map fun w => { s with writer := w }
  | .next =>
    (s.subscription.step bc s.writer.view (.run {})).map fun (sub, entry) =>
      { s with
        subscription := sub
        yielded := s.yielded ++ entry.toList
        seenLen := match s.subscription.pc with
          | .readOne .. => (s.writer.segments.content s.subscription.curSegmentId).length
          | _ => s.seenLen }

/-- The frame of a request, if it encodes, is one that the reader accepts. -/
def WithinLimit (req : WriteRequest) : Prop :=
  ∀ frame, encodeInto bc req.event = .ok frame → frame.length ≤ 4 + maxWalRecordPayloadBytes

/-- No I/O error, and no event over the limit. -/
def FaultFree : LiveLabel → Prop
  | .writer (.flush fault) => fault = none
  | .writer (.openNext error) => error = none
  | .writer (.write flushFault writeFault) => flushFault = none ∧ writeFault = none
  | .writer (.send req) => WithinLimit bc req
  | _ => True

/-- The writer rotates to a later segment, and where a load of the head makes the subscription leave
its segment, the file has not grown since `read_one` saw its end. -/
def UpToDate (s : Live) : LiveLabel → Prop
  | .writer l => s.writer.Ascends l
  | .next =>
    match s.subscription.pc with
    | .loadHead _ | .reloadHead _ =>
      s.subscription.curSegmentId < s.writer.head.segmentId →
        (s.writer.segments.content s.subscription.curSegmentId).length = s.seenLen
    | _ => True

variable {bc}

instance decidableWithinLimit (req : WriteRequest) : Decidable (WithinLimit bc req) :=
  match h : encodeInto bc req.event with
  | .error _  => .isTrue fun frame hframe => by simp [h] at hframe
  | .ok frame => decidable_of_iff (frame.length ≤ 4 + maxWalRecordPayloadBytes)
      ⟨fun hlen frame' h' => by rw [h] at h'; cases h'; exact hlen, fun hlimit => hlimit frame h⟩

instance decidableFaultFree : DecidablePred (FaultFree bc)
  | .writer (.flush fault)    => inferInstanceAs (Decidable (fault = none))
  | .writer (.openNext error) => inferInstanceAs (Decidable (error = none))
  | .writer (.write flushFault writeFault) =>
    inferInstanceAs (Decidable (flushFault = none ∧ writeFault = none))
  | .writer (.send req)       => decidableWithinLimit req
  | .writer .step | .writer (.deadline _) | .writer .recv | .writer .timeout
  | .writer .disconnected | .writer .dropSenders | .next => .isTrue trivial

instance decidableUpToDate (s : Live) : DecidablePred s.UpToDate
  | .writer l => Writer.decidableAscends s.writer l
  | .next =>
    match hpc : s.subscription.pc with
    | .loadHead _ | .reloadHead _ =>
      decidable_of_iff (s.subscription.curSegmentId < s.writer.head.segmentId →
        (s.writer.segments.content s.subscription.curSegmentId).length = s.seenLen)
        (by simp [UpToDate, hpc])
    | .ready | .readOne _ _ | .corrupt | .skip | .register | .checkClosed _ | .park _ | .ended =>
      .isTrue (by simp [UpToDate, hpc])

end Live

/-! ### The writer without faults -/

/-- No I/O error meets the writer, no event over the limit, and its rotations go up. -/
def Writer.Smooth (bc : Bincode) (s : Writer) (l : WriterLabel) : Prop :=
  Live.FaultFree bc (.writer l) ∧ s.Ascends l

variable {bc : Bincode} {segmentBytes : ℕ}

/-- What a write without faults does: some of the bytes, whole frames, reach the file, and the rest
stays buffered. -/
lemma clean_of_writeAll {capacity : ℕ} {data : Bytes} {w w' : BufWriter} {r : Except String Unit}
    (hbuf : Clean bc w.buf) (hdata : Clean bc data)
    (h : w.writeAll capacity data none none = (r, w')) :
    r = .ok () ∧ ∃ b, Clean bc b ∧ w'.file = w.file ++ b ∧ Clean bc w'.buf := by
  unfold BufWriter.writeAll at h
  split at h
  · cases h
    exact ⟨rfl, [], clean_nil, by simp, hbuf.append hdata⟩
  · simp only [BufWriter.flush, BufWriter.writeThrough] at h
    split_ifs at h with hroom hcap hcap
    · cases h
      exact ⟨rfl, w.buf ++ data, hbuf.append hdata, by simp, clean_nil⟩
    · cases h
      exact ⟨rfl, w.buf, hbuf, rfl, by simpa using hdata⟩
    · cases h
      exact ⟨rfl, data, hdata, rfl, hbuf⟩
    · cases h
      exact ⟨rfl, [], clean_nil, by simp, hbuf.append hdata⟩

/-- The writer holds nothing that the reader would not accept. -/
structure Writer.Tidy (bc : Bincode) (pc : WriterPc) (s : Writer) : Prop where
  buf : Clean bc s.buf
  requests : ∀ req ∈ pc.inHand ++ s.queue, Live.WithinLimit bc req
  frame : ∀ frame ∈ pc.frame, Clean bc frame

/-- The log grows by whole frames. -/
structure Writer.GrowsClean (bc : Bincode) (s s' : Writer) : Prop where
  grows : Grows s.segments s.currentSegmentId s'.segments s'.currentSegmentId
  content : ∀ id, ∃ data, Clean bc data ∧
    s'.segments.content id = s.segments.content id ++ data

/-- The writer and its files hold nothing that the reader would not accept, and the files end with
the current segment. -/
structure Writer.Sound (bc : Bincode) (pc : WriterPc) (s : Writer) : Prop where
  files : ∀ id, Clean bc (s.segments.content id)
  buf : Clean bc s.buf
  endsWith : EndsWith s.segments s.currentSegmentId
  head_le : s.head.segmentId ≤ s.currentSegmentId
  requests : ∀ req ∈ pc.inHand ++ s.queue, Live.WithinLimit bc req
  frame : ∀ frame ∈ pc.frame, Clean bc frame

namespace Writer

variable {pc : WriterPc} {s s' : Writer} {l : WriterLabel}

lemma GrowsClean.of_eq (hfiles : s'.segments = s.segments)
    (hcur : s'.currentSegmentId = s.currentSegmentId) : GrowsClean bc s s' where
  grows := by
    rw [hfiles, hcur]
    exact .same
  content id := ⟨[], clean_nil, by rw [hfiles, List.append_nil]⟩

/-- Whole frames that reach the file of the current segment. -/
lemma GrowsClean.append {b : Bytes} (hb : Clean bc b)
    (hfiles : s'.segments = s.segments.write s.currentSegmentId
      (s.segments.content s.currentSegmentId ++ b))
    (hcur : s'.currentSegmentId = s.currentSegmentId) : GrowsClean bc s s' where
  grows := by
    rw [hfiles, hcur]
    exact .append b
  content id := by
    by_cases hid : id = s.currentSegmentId
    · subst hid
      exact ⟨b, hb, by rw [hfiles, Segments.content_write_self]⟩
    · exact ⟨[], clean_nil, by rw [hfiles, Segments.content_write_ne hid, List.append_nil]⟩

lemma GrowsClean.create (hfiles : s'.segments = s.segments.create (s.currentSegmentId + 1))
    (hcur : s'.currentSegmentId = s.currentSegmentId + 1) : GrowsClean bc s s' where
  grows := by
    rw [hfiles, hcur]
    exact .create
  content id := ⟨[], clean_nil, by rw [hfiles, Segments.content_create, List.append_nil]⟩

lemma Tidy.goto {pc' : WriterPc} (hs : Tidy bc pc s) (hbuf : Clean bc s'.buf)
    (hreq : ∀ req ∈ pc'.inHand ++ s'.queue, req ∈ pc.inHand ++ s.queue)
    (hframe : ∀ frame ∈ pc'.frame, Clean bc frame) : Tidy bc pc' s' where
  buf := hbuf
  requests req h := hs.requests req (hreq req h)
  frame := hframe

/-- A flush without faults. -/
lemma flush_none (s : Writer) :
    s.flush none = (.ok (), { s.toSegmentWriter with
      segments := s.segments.write s.currentSegmentId
        (s.segments.content s.currentSegmentId ++ s.buf)
      buf := [] }) := rfl

/-- What a step of the writer does to the files while nothing fails. -/
lemma Tidy.step (hbc : bc.RoundTrips) (hs : Tidy bc s.pc s) (hl : s.Smooth bc l)
    (h : step bc segmentBytes s l = some s') : Tidy bc s'.pc s' ∧ GrowsClean bc s s' := by
  obtain ⟨hl, hasc⟩ := hl
  cases WriterRule.of_step h with
  | send =>
    refine ⟨{ hs with requests := fun r hr => ?_ }, .of_eq rfl rfl⟩
    rw [← List.append_assoc, List.mem_append, List.mem_singleton] at hr
    rcases hr with hr | rfl
    · exact hs.requests r hr
    · exact hl
  | dropSenders => exact ⟨{ hs with }, .of_eq rfl rfl⟩
  | deadlineFlush hpc | deadlineRecv hpc | periodicNotify hpc | periodicAck hpc | timeout hpc
  | disconnected hpc | finalAck hpc | finalNotify hpc | dropNotify hpc | dropWriter hpc
  | periodicPublish hpc | finalPublish hpc =>
    rw [hpc] at hs
    exact ⟨hs.goto hs.buf (fun _ h => h) nofun, .of_eq rfl rfl⟩
  | periodicFlush hpc hflush | finalFlush hpc hflush =>
    rw [hpc] at hs
    obtain rfl : _ = none := hl
    rw [flush_none] at hflush
    cases hflush
    exact ⟨hs.goto clean_nil (fun _ h => h) nofun, .append hs.buf rfl rfl⟩
  | rotateFlush hpc hflush =>
    rw [hpc] at hs
    obtain rfl : _ = none := hl
    rw [flush_none] at hflush
    cases hflush
    exact ⟨hs.goto clean_nil (fun _ h => h) hs.frame, .append hs.buf rfl rfl⟩
  | periodicFlushError _ hflush | rotateFlushError _ hflush | finalFlushError _ hflush =>
    obtain rfl : _ = none := hl
    rw [flush_none] at hflush
    cases hflush
  | rotatePublish hpc | rotateNotify hpc | rotateAck hpc =>
    rw [hpc] at hs
    exact ⟨hs.goto hs.buf (fun _ h => h) hs.frame, .of_eq rfl rfl⟩
  | recv hpc hqueue =>
    rw [hpc] at hs
    refine ⟨hs.goto hs.buf (fun r hr => ?_) nofun, .of_eq rfl rfl⟩
    rw [hqueue]
    exact hr
  | encodeError hpc =>
    rw [hpc] at hs
    exact ⟨hs.goto hs.buf (fun _ hr => List.mem_cons_of_mem _ hr) nofun, .of_eq rfl rfl⟩
  | @encodeRotate req frame hpc hencode | @encodeWrite req frame hpc hencode =>
    rw [hpc] at hs
    have hframe : Clean bc frame :=
      clean_encodeInto hbc hencode (hs.requests req List.mem_cons_self frame hencode)
    refine ⟨hs.goto hs.buf (fun _ h => h) ?_, .of_eq rfl rfl⟩
    simpa [WriterPc.frame] using hframe
  | openNextError => cases hl
  | openNext hpc =>
    rw [hpc] at hs
    have hnext : (s.currentSegmentId + 1) % 2 ^ 64 = s.currentSegmentId + 1 :=
      Nat.mod_eq_of_lt hasc
    refine ⟨hs.goto clean_nil (fun _ h => h) hs.frame, ?_⟩
    exact .create (congrArg s.segments.create hnext) hnext
  | @writeError req frame _ _ _ _ hpc hwrite =>
    rw [hpc] at hs
    obtain ⟨rfl, rfl⟩ := hl
    obtain ⟨b, hb, -⟩ := SegmentWriter.writeAll_error_eq hwrite
    exact absurd (clean_of_writeAll hs.buf (hs.frame frame rfl) hb).1 nofun
  | @write req frame _ _ _ hpc hwrite =>
    rw [hpc] at hs
    obtain ⟨rfl, rfl⟩ := hl
    obtain ⟨b, hb, rfl⟩ := SegmentWriter.writeAll_ok_eq hwrite
    obtain ⟨-, data, hdata, hfile, hbuf⟩ := clean_of_writeAll hs.buf (hs.frame frame rfl) hb
    have hfiles : s.segments.write s.currentSegmentId b.file = s.segments.write s.currentSegmentId
        (s.segments.content s.currentSegmentId ++ data) := congrArg _ hfile
    exact ⟨hs.goto hbuf (fun r hr => List.mem_cons_of_mem _ hr) nofun, .append hdata hfiles rfl⟩
  | dropRx hpc =>
    rw [hpc] at hs
    exact ⟨hs.goto hs.buf nofun nofun, .of_eq rfl rfl⟩
  | dropWriterFlush hpc =>
    rw [hpc] at hs
    obtain rfl : _ = none := hl
    exact ⟨hs.goto clean_nil (fun _ h => h) nofun, .append hs.buf rfl rfl⟩

/-- The head stays, or moves to the position. -/
lemma head_of_step (h : step bc segmentBytes s l = some s') :
    s'.head = s.head ∨ s'.head = s.position ∧ s'.currentSegmentId = s.currentSegmentId := by
  cases WriterRule.of_step h with
  | periodicPublish | rotatePublish | finalPublish => exact .inr ⟨rfl, rfl⟩
  | _ => exact .inl rfl

lemma Sound.step (hbc : bc.RoundTrips) (hs : Sound bc s.pc s) (hl : s.Smooth bc l)
    (h : step bc segmentBytes s l = some s') :
    Sound bc s'.pc s' ∧
    Grows s.segments s.currentSegmentId s'.segments s'.currentSegmentId ∧
    s.head.segmentId ≤ s'.head.segmentId := by
  obtain ⟨htidy, hgrows⟩ := Tidy.step hbc ⟨hs.buf, hs.requests, hs.frame⟩ hl h
  have hfiles : ∀ id, Clean bc (s'.segments.content id) := by
    intro id
    obtain ⟨data, hdata, hcontent⟩ := hgrows.content id
    rw [hcontent]
    exact (hs.files id).append hdata
  obtain ⟨hle, hmono⟩ : s'.head.segmentId ≤ s'.currentSegmentId ∧
      s.head.segmentId ≤ s'.head.segmentId := by
    rcases head_of_step h with hhead | ⟨hhead, hcur⟩
    · rw [hhead]
      exact ⟨hs.head_le.trans hgrows.grows.le_last, le_rfl⟩
    · rw [hhead, hcur]
      exact ⟨le_rfl, hs.head_le⟩
  exact ⟨⟨hfiles, htidy.buf, hgrows.grows.endsWith hs.endsWith, hle, htidy.requests, htidy.frame⟩,
    hgrows.grows, hmono⟩

end Writer

lemma Recovered.inv_spawn {segs segs' : Segments} {active : WalOffset}
    (h : Recovered bc segs segs' active) :
    Writer.Inv bc segmentBytes segs' active .loopTop (.spawn segs' active) :=
  .spawn (fun _ hid => h.le_of_mem hid) h.length_content

/-! ### The reader -/

variable {segs : Segments} {start : WalOffset}

/-- At the end of its segment a position is as good as the start of the next one. -/
lemma entriesFrom_of_end {seg off : ℕ} (h : (segs.content seg).length = off) :
    entriesFrom bc segs ⟨seg, off⟩ = entriesFrom bc segs ⟨seg + 1, 0⟩ := by
  apply entriesFrom_of_none
  rw [List.drop_of_length_le h.le, Scanner.next_nil]

namespace Live

/-- What the points of `next` may rely on while the log is clean: the reader is where the offset
is, and behind a read attempt that found nothing the offset is the length it saw. -/
def AtPc (s : Live) : Prop :=
  ReaderAt s.subscription.curByteOffset s.subscription.curReader ∧
  match s.subscription.pc with
  | .ready | .ended => True
  | .readOne reader _ => ReaderAt s.subscription.curByteOffset reader
  | .corrupt | .skip => False
  | .register | .loadHead _ | .checkClosed _ | .reloadHead _ | .park _ =>
    s.seenLen = s.subscription.curByteOffset

/-- The invariant of reading from `start`: the log is what was returned and what is still to come
at the position of the subscription. -/
structure Reading (bc : Bincode) (start : WalOffset) (s : Live) : Prop where
  writer : s.writer.Sound bc s.writer.pc
  start_le : start.segmentId ≤ s.subscription.curSegmentId
  le_head : s.subscription.curSegmentId ≤ s.writer.head.segmentId
  onBoundary_start : OnBoundary bc s.writer.segments start
  onBoundary : OnBoundary bc s.writer.segments s.subscription.position
  entries : entriesFrom bc s.writer.segments start =
    s.yielded ++ entriesFrom bc s.writer.segments s.subscription.position
  atPc : AtPc s

variable {s s' : Live}

lemma Reading.of_writer (hbc : bc.RoundTrips) (hr : Reading bc start s) {l : WriterLabel}
    {w : Writer} (hl : s.writer.Smooth bc l) (h : s.writer.step bc segmentBytes l = some w) :
    Reading bc start { s with writer := w } := by
  obtain ⟨hsound, hfiles, hhead⟩ := hr.writer.step hbc hl h
  obtain ⟨new, hnew⟩ := hfiles.entries bc hr.writer.endsWith
  have hcur := hr.le_head.trans hr.writer.head_le
  refine ⟨hsound, hr.start_le, hr.le_head.trans hhead, hfiles.onBoundary hr.onBoundary_start,
    hfiles.onBoundary hr.onBoundary, ?_, hr.atPc⟩
  dsimp only
  rw [hnew start hr.onBoundary_start (hr.start_le.trans hcur), hnew _ hr.onBoundary hcur,
    hr.entries, List.append_assoc]

/-- A step of `next` that reads and moves nothing. -/
lemma Reading.goto (hr : Reading bc start s) (sub : Subscription) {seenLen : ℕ}
    (hpos : sub.position = s.subscription.position)
    (hpc : AtPc ⟨s.writer, sub, s.yielded, seenLen⟩) :
    Reading bc start ⟨s.writer, sub, s.yielded, seenLen⟩ := by
  have hseg : sub.curSegmentId = s.subscription.curSegmentId := congrArg WalOffset.segmentId hpos
  refine ⟨hr.writer, hseg ▸ hr.start_le, hseg ▸ hr.le_head, hr.onBoundary_start, ?_, ?_, hpc⟩
  · exact hpos ▸ hr.onBoundary
  · dsimp only
    rw [hpos]
    exact hr.entries

lemma Reading.nextSegment {seenLen : ℕ} (hr : Reading bc start s)
    (hlen : (s.writer.segments.content s.subscription.curSegmentId).length =
      s.subscription.curByteOffset)
    (hhead : s.subscription.curSegmentId < s.writer.head.segmentId) :
    Reading bc start ⟨s.writer, s.subscription.nextSegment, s.yielded, seenLen⟩ where
  writer := hr.writer
  start_le := hr.start_le.trans (Nat.le_succ _)
  le_head := hhead
  onBoundary_start := hr.onBoundary_start
  onBoundary := onBoundary_zero _
  entries := by
    rw [hr.entries, Subscription.position, entriesFrom_of_end hlen]
    rfl
  atPc := ⟨readerAt_none _, readerAt_none _⟩

lemma Reading.startRead {seenLen : ℕ} (hr : Reading bc start s) :
    Reading bc start ⟨s.writer, s.subscription.startRead, s.yielded, seenLen⟩ :=
  hr.goto _ rfl ⟨readerAt_none _, hr.atPc.1⟩

/-- A read attempt returns the next entry, or finds the segment read to its end. -/
lemma Reading.readOne {reader : Option ℕ} {payload : Bytes} (hr : Reading bc start s)
    (hpc : s.subscription.pc = .readOne reader payload) {sub : Subscription}
    {entry : Option WalEntry}
    (h : s.subscription.afterRead (SmarthomeIngest.readOne bc s.writer.segments
      s.subscription.curSegmentId s.subscription.curByteOffset reader payload {}) = (sub, entry)) :
    Reading bc start ⟨s.writer, sub, s.yielded ++ entry.toList,
      (s.writer.segments.content s.subscription.curSegmentId).length⟩ := by
  have hreader : ReaderAt s.subscription.curByteOffset reader := by
    have := hr.atPc.2
    rwa [hpc] at this
  have hbound : s.subscription.curByteOffset ∈
      (frames bc).boundaries (s.writer.segments.content s.subscription.curSegmentId) :=
    hr.onBoundary
  have hoff := ((frames bc).mem_boundaries.mp hbound).1
  rcases ((hr.writer.files _).drop hbound).cases with hnil | ⟨event, n, hnext, hrest⟩
  · have hlen : (s.writer.segments.content s.subscription.curSegmentId).length =
        s.subscription.curByteOffset := le_antisymm (List.drop_eq_nil_iff.mp hnil) hoff
    have hcut : Frame.cut ((s.writer.segments.content s.subscription.curSegmentId).drop
        s.subscription.curByteOffset) = .short := by
      rw [hnil]
      rfl
    obtain ⟨outcome, reader', p', hread, hout, hreader'⟩ := readOne_of_short bc hreader payload hcut
    rw [hread] at h
    rcases hout with rfl | rfl
    all_goals
      cases h
      rw [Option.toList_none, List.append_nil]
      exact hr.goto _ rfl ⟨hreader' hlen.le, hlen⟩
  · obtain ⟨p', hread⟩ := readOne_of_record bc hreader payload hnext
    rw [hread] at h
    cases h
    refine ⟨hr.writer, hr.start_le, hr.le_head, hr.onBoundary_start,
      (frames bc).add_mem_boundaries hbound hnext, ?_, readerAt_some _, trivial⟩
    rw [hr.entries, List.append_assoc]
    exact congrArg _ (entriesFrom_of_record hnext)

lemma Reading.step (hbc : bc.RoundTrips) {l : LiveLabel} (hr : Reading bc start s)
    (hl : FaultFree bc l) (hup : UpToDate s l) (h : step bc segmentBytes s l = some s') :
    Reading bc start s' := by
  cases l with
  | writer l =>
    obtain ⟨w, hw, rfl⟩ := Option.map_eq_some_iff.mp h
    exact hr.of_writer hbc ⟨hl, hup⟩ hw
  | next =>
    obtain ⟨hreader, hatPc⟩ := hr.atPc
    obtain ⟨⟨sub, entry⟩, hsub, rfl⟩ := Option.map_eq_some_iff.mp h
    simp only [UpToDate] at hup
    cases Subscription.NextRule.of_step hsub with
    | ready hpc => simpa [hpc] using hr.startRead
    | record hpc hread | corrupt hpc hread =>
      have hafter := hr.readOne hpc (congrArg s.subscription.afterRead hread)
      simpa [hpc] using hafter
    | nothing hpc hread hout =>
      have hafter := hr.readOne hpc ((congrArg s.subscription.afterRead hread).trans
        (Subscription.afterRead_of_nothing hout _ _))
      simpa [hpc] using hafter
    | activeTail hpc | poison hpc | unreadablePrefix hpc | tooLong hpc | skip hpc =>
      simp only [hpc] at hatPc
    | register hpc =>
      simp only [hpc] at hatPc
      simpa [hpc] using hr.goto { s.subscription with pc := .loadHead _ } rfl ⟨hreader, hatPc⟩
    | nextSegment hpc hhead =>
      rcases hpc with hpc | hpc
      all_goals
        simp only [hpc] at hatPc hup
        simpa [hpc] using hr.nextSegment ((hup hhead).trans hatPc) hhead
    | ahead hpc | reloadAhead hpc | notified hpc => simpa [hpc] using hr.startRead
    | @atHead _ seen hpc =>
      simp only [hpc] at hatPc
      simpa [hpc] using hr.goto { s.subscription with pc := .checkClosed seen } rfl ⟨hreader, hatPc⟩
    | @closed _ seen hpc =>
      simp only [hpc] at hatPc
      simpa [hpc] using hr.goto { s.subscription with pc := .reloadHead seen } rfl ⟨hreader, hatPc⟩
    | @parks _ seen hpc =>
      simp only [hpc] at hatPc
      simpa [hpc] using hr.goto { s.subscription with pc := .park seen } rfl ⟨hreader, hatPc⟩
    | ended hpc =>
      simpa [hpc] using hr.goto { s.subscription with pc := .ended } rfl ⟨hreader, trivial⟩

/-- The state after `Wal::open`. -/
lemma Reading.init {d : WalDir} {w : Wal} (hopen : Wal.open bc d = .ok w)
    (hclean : ∀ id, Clean bc (w.writer.segments.content id))
    (hcursor : ∀ off, readCursor d = .ok (some off) → OnBoundary bc d.segments off) :
    Reading bc w.subscription.position (Live.init w) := by
  obtain ⟨segs, active, start, hr, hstart, rfl⟩ := open_eq_ok hopen
  have hcontent : ∀ id, (segs.create active.segmentId).content id = segs.content id :=
    Segments.content_create _
  have hbound : OnBoundary bc segs start := hr.onBoundary (boundary_of_readStart hstart hcursor)
  have hcreate : OnBoundary bc (segs.create active.segmentId) start := by
    rwa [OnBoundary, hcontent]
  exact {
    writer :=
      { files := hclean
        buf := clean_nil
        endsWith := hr.endsWith_create
        head_le := le_rfl
        requests := fun _ h => absurd h List.not_mem_nil
        frame := nofun }
    start_le := le_rfl
    le_head := le_of_readStart hr hstart
    onBoundary_start := hcreate
    onBoundary := hcreate
    entries := rfl
    atPc := ⟨readerAt_none _, trivial⟩ }

/-! ### Live delivery -/

/-- Runs in which no load of the head makes the subscription leave a segment that has grown since
its end was seen: at every moment the entries returned are the first ones of the log, and a segment
is left only when all its entries have been returned. -/
theorem prefix_of_reach (hbc : bc.RoundTrips) {d : WalDir} {w : Wal}
    (hopen : Wal.open bc d = .ok w)
    (hclean : ∀ id, Clean bc (w.writer.segments.content id))
    (hcursor : ∀ off, readCursor d = .ok (some off) → OnBoundary bc d.segments off)
    (h : Reach (Live.step bc segmentBytes) (fun s l => FaultFree bc l ∧ UpToDate s l)
      (Live.init w) s) :
    s.yielded <+: entriesFrom bc s.writer.segments w.subscription.position ∧
    ∀ l s', FaultFree bc l → UpToDate s l → Live.step bc segmentBytes s l = some s' →
      s'.subscription.curSegmentId ≠ s.subscription.curSegmentId →
      ∀ e ∈ entriesFrom bc s'.writer.segments w.subscription.position,
        e.offset.segmentId ≤ s.subscription.curSegmentId → e ∈ s.yielded := by
  have hinit := Reading.init hopen hclean hcursor
  have hr : Reading bc w.subscription.position s :=
    h.invariant hinit fun t l t' ht hG hstep => ht.step hbc hG.1 hG.2 hstep
  refine ⟨⟨_, hr.entries.symm⟩, fun l s' hl hup hstep hne e he hle => ?_⟩
  have hr' := hr.step hbc hl hup hstep
  cases l with
  | writer l =>
    obtain ⟨t, -, rfl⟩ := Option.map_eq_some_iff.mp hstep
    exact absurd rfl hne
  | next =>
    obtain ⟨⟨sub, entry⟩, hsub, rfl⟩ := Option.map_eq_some_iff.mp hstep
    rcases Subscription.curSegmentId_of_step hsub with hsame | ⟨hnext, rfl⟩
    · exact absurd hsame hne
    · rw [hr'.entries, List.mem_append] at he
      rcases he with he | he
      · simpa using he
      · have hlater := WalOffset.le_iff.mp (le_of_mem_entriesFrom he)
        simp only [Subscription.position] at hlater
        omega

/-- The frame of an event. -/
def oneFrame : Bytes :=
  [25, 0, 0, 0, 1, 0, 0, 0, 0, 0, 0, 0, 97, 1, 0, 0, 0, 0, 0, 0, 0, 0, 0, 0, 0, 0, 0, 0, 0]

def oneFrameDir : WalDir := ⟨(∅ : Segments).write 1 oneFrame, none, none⟩

lemma clean_oneFrameDir (id : ℕ) :
    Clean Bincode.fixint ((oneFrameDir.segments.create 1).content id) := by
  rw [Segments.content_create, oneFrameDir, Segments.content_write]
  split_ifs
  · have henc : encodeInto Bincode.fixint ⟨"a", 1, ""⟩ = .ok oneFrame := rfl
    exact clean_encodeInto Bincode.fixint_roundTrips henc (by decide)
  · exact clean_nil

/-- The one record of a directory, returned by the first call. -/
theorem prefix_of_oneFrameDir :
    ∃ w s, Wal.open Bincode.fixint oneFrameDir = .ok w ∧
      exec (Live.step Bincode.fixint 30) (Live.init w) [.next, .next] = some s ∧
      s.yielded = [⟨⟨1, 0⟩, ⟨1, 29⟩, ⟨"a", 1, ""⟩⟩] ∧
      s.yielded <+: entriesFrom Bincode.fixint s.writer.segments w.subscription.position := by
  obtain ⟨w, s, hopen, hfiles, hexec, hyielded⟩ : ∃ (w : Wal) (s : Live),
      Wal.open Bincode.fixint oneFrameDir = .ok w ∧
      w.writer.segments = oneFrameDir.segments.create 1 ∧
      exec (Live.step Bincode.fixint 30) (Live.init w) [.next, .next] = some s ∧
      s.yielded = [⟨⟨1, 0⟩, ⟨1, 29⟩, ⟨"a", 1, ""⟩⟩] := ⟨_, _, rfl, rfl, rfl, rfl⟩
  have hpc : w.subscription.pc = .ready := by
    obtain ⟨_, _, _, -, -, rfl⟩ := open_eq_ok hopen
    rfl
  have hguard : Always (Live.step Bincode.fixint 30)
      (fun s l => FaultFree Bincode.fixint l ∧ UpToDate s l) (Live.init w) [.next, .next] := by
    refine ⟨⟨trivial, by simp [UpToDate, Live.init, hpc]⟩, ?_⟩
    intro t ht
    refine ⟨⟨trivial, ?_⟩, fun _ _ => trivial⟩
    simp only [Live.step, Live.init, Subscription.step, hpc, Option.map_some,
      Option.some.injEq] at ht
    rw [← ht]
    trivial
  have hcursor : ∀ off, readCursor oneFrameDir = .ok (some off) →
      OnBoundary Bincode.fixint oneFrameDir.segments off := by
    intro off h
    cases h
  refine ⟨w, s, hopen, hexec, hyielded, ?_⟩
  exact (prefix_of_reach Bincode.fixint_roundTrips hopen (fun id => hfiles ▸ clean_oneFrameDir id)
    hcursor (Reach.of_exec hguard hexec)).1

/-- The head load comes after the writer has filled, rotated and published: the first event is
skipped, and the second one returned. -/
def overtaken : List LiveLabel :=
  [.writer (.send ⟨⟨"a", 1, ""⟩, none⟩), .writer (.send ⟨⟨"a", 2, ""⟩, none⟩),
    .writer (.deadline false), .writer .recv, .writer .step, .writer (.write none none),
    -- the file is still empty
    .next, .next,
    .writer (.deadline false), .writer .recv, .writer .step, .writer (.flush none), .writer .step,
    .writer .step, .writer .step, .writer (.openNext none), .writer (.write none none),
    .writer (.deadline true), .writer (.flush none), .writer .step,
    .next, .next, .next]

lemma withinLimit_of_eq {req : WriteRequest} {frame : Bytes}
    (h : encodeInto bc req.event = .ok frame)
    (hlen : frame.length ≤ 4 + maxWalRecordPayloadBytes) : WithinLimit bc req := by
  intro frame' h'
  rw [h] at h'
  cases h'
  exact hlen

lemma faultFree_of_overtaken : ∀ l ∈ overtaken, FaultFree Bincode.fixint l := by
  have hfirst : WithinLimit Bincode.fixint ⟨⟨"a", 1, ""⟩, none⟩ :=
    withinLimit_of_eq rfl (by decide)
  have hsecond : WithinLimit Bincode.fixint ⟨⟨"a", 2, ""⟩, none⟩ :=
    withinLimit_of_eq rfl (by decide)
  simp [overtaken, FaultFree, hfirst, hsecond]

theorem not_prefix_of_overtaken :
    ∃ w s, Wal.open Bincode.fixint ⟨∅, none, none⟩ = .ok w ∧
      (∀ l ∈ overtaken, FaultFree Bincode.fixint l) ∧
      exec (Live.step Bincode.fixint 30) (Live.init w) overtaken = some s ∧
      s.yielded = [⟨⟨2, 0⟩, ⟨2, 29⟩, ⟨"a", 2, ""⟩⟩] ∧
      ¬ s.yielded <+: entriesFrom Bincode.fixint s.writer.segments w.subscription.position := by
  obtain ⟨w, s, hopen, hexec, hyielded, hlog⟩ : ∃ (w : Wal) (s : Live),
      Wal.open Bincode.fixint ⟨∅, none, none⟩ = .ok w ∧
      exec (Live.step Bincode.fixint 30) (Live.init w) overtaken = some s ∧
      s.yielded = [⟨⟨2, 0⟩, ⟨2, 29⟩, ⟨"a", 2, ""⟩⟩] ∧
      entriesFrom Bincode.fixint s.writer.segments w.subscription.position =
        [⟨⟨1, 0⟩, ⟨1, 29⟩, ⟨"a", 1, ""⟩⟩, ⟨⟨2, 0⟩, ⟨2, 29⟩, ⟨"a", 2, ""⟩⟩] :=
    ⟨_, _, rfl, rfl, rfl, rfl⟩
  refine ⟨w, s, hopen, faultFree_of_overtaken, hexec, hyielded, ?_⟩
  rw [hyielded, hlog]
  decide

end Live

end SmarthomeIngest
