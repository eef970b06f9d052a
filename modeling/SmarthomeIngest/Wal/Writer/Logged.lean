import SmarthomeIngest.Wal.Live

/-!
# The writer's records as entries of the log

With the `BufWriter` flushed, the log is what it was when the writer started, followed by the entries
of its records in the order of writing. That holds until `writer_loop` returns, whatever fails; where
nothing fails it holds behind the return as well, with nothing left in the `BufWriter`.
-/

namespace SmarthomeIngest

open Transition

/-! ### The log with the buffer flushed -/

/-- The entry that a record is in the log. -/
def Record.entry (r : Record) : WalEntry := ⟨r.offset, r.offsetAfter, r.request.event⟩

/-- The files as a flush would leave them. -/
def SegmentWriter.flushed (w : SegmentWriter) : Segments :=
  w.segments.write w.currentSegmentId (w.bytes w.currentSegmentId)

/-- The log of a writer that started at `start` on the files `base`: the entries it wrote come behind
those that were there. -/
structure Logged (bc : Bincode) (base : Segments) (start : WalOffset) (w : SegmentWriter) :
    Prop where
  whole : (frames bc).Whole (w.bytes w.currentSegmentId)
  entries : ∀ pos, OnBoundary bc base pos → pos.segmentId ≤ start.segmentId →
    entriesFrom bc w.flushed pos = entriesFrom bc base pos ++ w.records.map Record.entry

variable {bc : Bincode} {segmentBytes : ℕ} {base segs : Segments} {start head pos : WalOffset}

lemma Segments.write_write (id : ℕ) (b b' : Bytes) :
    (segs.write id b).write id b' = segs.write id b' := AList.insert_insert segs

namespace SegmentWriter

variable {w : SegmentWriter}

@[simp] lemma content_flushed (w : SegmentWriter) (id : ℕ) : w.flushed.content id = w.bytes id := by
  rw [flushed, Segments.content_write]
  split_ifs with hid
  · rw [hid]
  · simp [bytes, hid]

lemma mem_flushed {id : ℕ} : id ∈ w.flushed ↔ id = w.currentSegmentId ∨ id ∈ w.segments :=
  Segments.mem_write

/-- With nothing buffered the files are as a flush would leave them. -/
lemma entriesFrom_flushed (hbuf : w.buf = []) (hmem : w.currentSegmentId ∈ w.segments) :
    entriesFrom bc w.flushed pos = entriesFrom bc w.segments pos := by
  apply entriesFrom_congr
  · exact Segments.idsFrom_write hmem _
  · intro id _
    rw [content_flushed, bytes_of_buf_nil hbuf]

/-- A `BufWriter` that holds what it held leaves the same files when flushed. -/
lemma flushed_setBufWriter {b : BufWriter} (hc : b.contents = w.bufWriter.contents) :
    (w.setBufWriter b).flushed = w.flushed := by
  have hbytes : (w.setBufWriter b).bytes w.currentSegmentId = w.bytes w.currentSegmentId := by
    simp [bytes_setBufWriter [] (by simpa using hc)]
  show (w.segments.write w.currentSegmentId b.file).write w.currentSegmentId
    ((w.setBufWriter b).bytes w.currentSegmentId) = w.flushed
  rw [hbytes, Segments.write_write]
  rfl

end SegmentWriter

namespace Logged

variable {w w' : SegmentWriter}

/-- The writer that `Wal::open` spawns. -/
lemma spawn (hr : Recovered bc segs base start) :
    Logged bc base start (Writer.spawn base start).toSegmentWriter := by
  have hcontent : ∀ id, (Writer.spawn base start).bytes id = base.content id := by
    intro id
    rw [SegmentWriter.bytes_of_buf_nil rfl]
    exact Segments.content_create _ _
  constructor
  · rw [hcontent]
    exact hr.whole_active
  · intro pos _ _
    refine (hr.entriesFrom_of_create (fun id => ?_) fun id => ?_).trans (List.append_nil _).symm
    · simp [SegmentWriter.mem_flushed, Writer.spawn]
    · rw [SegmentWriter.content_flushed, hcontent]

/-- A frame boundary of the files at the start is one of the log. -/
lemma onBoundary (hl : Layout base start segmentBytes w head) (hpos : OnBoundary bc base pos) :
    OnBoundary bc w.flushed pos := by
  have hpre : base.content pos.segmentId <+: w.flushed.content pos.segmentId := by
    rw [SegmentWriter.content_flushed, SegmentWriter.bytes]
    exact (hl.base_prefix _).trans (List.prefix_append _ _)
  obtain ⟨t, ht⟩ := hpre
  rw [OnBoundary, ← ht]
  exact (frames bc).boundaries_append hpos t

/-- A flush, whether it succeeds or fails. -/
lemma flush (hs : Logged bc base start w) {fault : Option WriteFault} {r : Except String Unit}
    (h : w.flush fault = (r, w')) : Logged bc base start w' := by
  obtain ⟨b, hb, rfl⟩ := SegmentWriter.flush_eq h
  have hc := BufWriter.contents_of_flush hb
  constructor
  · show (frames bc).Whole ((w.setBufWriter b).bytes w.currentSegmentId)
    rw [SegmentWriter.bytes_setBufWriter [] (by simpa using hc)]
    simpa using hs.whole
  · rw [SegmentWriter.flushed_setBufWriter hc]
    exact hs.entries

/-- A frame that the reader accepts is one more entry. -/
lemma writeAll (hbc : bc.RoundTrips) (hl : Layout base start segmentBytes w head)
    (hs : Logged bc base start w) {req : WriteRequest} {frame : Bytes}
    (hencode : encodeInto bc req.event = .ok frame)
    (hlimit : frame.length ≤ 4 + maxWalRecordPayloadBytes) {ff wf : Option WriteFault}
    (h : w.writeAll req frame ff wf = (.ok (), w')) : Logged bc base start w' := by
  obtain ⟨b, hb, rfl⟩ := SegmentWriter.writeAll_ok_eq h
  have hnext := next_encodeInto hbc hencode hlimit
  have hc := BufWriter.contents_of_writeAll_ok hb
  have hbytes : (w.setBufWriter b).bytes w.currentSegmentId =
      w.bytes w.currentSegmentId ++ frame := by
    rw [SegmentWriter.bytes_setBufWriter frame hc, if_pos rfl]
  have hends : EndsWith w.flushed w.currentSegmentId := by
    refine ⟨SegmentWriter.mem_flushed.mpr (.inl rfl), fun id hid => ?_⟩
    exact (SegmentWriter.mem_flushed.mp hid).elim Eq.le (hl.le_current id)
  have hflushed : (w.setBufWriter b).flushed = w.flushed.write w.currentSegmentId
      (w.flushed.content w.currentSegmentId ++ frame) := by
    rw [SegmentWriter.content_flushed, ← hbytes]
    exact (Segments.write_write _ _ _).trans (Segments.write_write _ _ _).symm
  have hentry : segmentEntries bc w.currentSegmentId w.currentByteOffset frame =
      [⟨w.position, ⟨w.currentSegmentId, w.currentByteOffset + frame.length⟩, req.event⟩] := by
    rw [segmentEntries_of_record hnext, List.drop_length, segmentEntries_nil]
    rfl
  constructor
  · show (frames bc).Whole ((w.setBufWriter b).bytes w.currentSegmentId)
    rw [hbytes]
    exact hs.whole.append (Scanner.whole_of_next hnext)
  · intro pos hpos hle
    show entriesFrom bc (w.setBufWriter b).flushed pos = _
    have hbound := (onBoundary hl hpos).startIn w.currentSegmentId
    rw [hflushed, entriesFrom_write_boundary hends.1 hends.2 (hle.trans hl.start_le) hbound,
      SegmentWriter.content_flushed, hs.whole, List.drop_length, List.nil_append, hl.length_bytes,
      hentry, hs.entries pos hpos hle, List.append_assoc, List.map_append, hl.length_contents]
    rfl

/-- Rotation, with nothing buffered. -/
lemma openNext (hl : Layout base start segmentBytes w head) (hs : Logged bc base start w)
    (hlt : w.currentSegmentId + 1 < 2 ^ 64) (hbuf : w.buf = []) :
    Logged bc base start w.advance.createCurrent := by
  have hnext : w.advance.currentSegmentId = w.currentSegmentId + 1 := Nat.mod_eq_of_lt hlt
  have hnew : ∀ id ∈ w.segments, id < w.currentSegmentId + 1 := fun id hid =>
    Nat.lt_succ_of_le (hl.le_current id hid)
  have hcontent : ∀ id, w.advance.createCurrent.bytes id = w.segments.content id := by
    intro id
    rw [SegmentWriter.bytes_of_buf_nil rfl]
    exact Segments.content_create _ _
  have hempty : w.segments.content w.advance.createCurrent.currentSegmentId = [] :=
    Segments.content_of_notMem fun h => absurd (hnew _ h) (not_lt.mpr hnext.ge)
  constructor
  · rw [hcontent, hempty]
    exact (frames bc).whole_nil
  · intro pos hpos hle
    have hlt : pos.segmentId < w.currentSegmentId + 1 :=
      Nat.lt_succ_of_le (hle.trans hl.start_le)
    calc entriesFrom bc w.advance.createCurrent.flushed pos
        = entriesFrom bc (w.segments.create w.advance.currentSegmentId) pos := by
          apply SegmentWriter.entriesFrom_flushed rfl
          exact Segments.mem_create.mpr (.inl rfl)
      _ = entriesFrom bc (w.segments.create (w.currentSegmentId + 1)) pos := by rw [hnext]
      _ = entriesFrom bc w.segments pos := entriesFrom_create hlt hnew
      _ = entriesFrom bc w.flushed pos :=
          (SegmentWriter.entriesFrom_flushed hbuf hl.current_mem).symm
      _ = _ := hs.entries pos hpos hle

end Logged

/-! ### The thread -/

namespace Writer

variable {s s' : Writer} {l : WriterLabel}

lemma within_of_inHand {pc : WriterPc} (hq : QueueOrder pc s)
    (hsent : ∀ req ∈ s.sent, Live.WithinLimit bc req) :
    ∀ req ∈ pc.inHand, Live.WithinLimit bc req := by
  intro req hreq
  obtain ⟨rest, hsplit, -⟩ := hq
  apply hsent
  rw [← hsplit]
  exact List.mem_append_left _ (List.mem_append_right _ hreq)

/-- Until `writer_loop` returns. -/
lemma logged_of_step (hbc : bc.RoundTrips) (hi : Inv bc segmentBytes base start s.pc s)
    (hs : Logged bc base start s.toSegmentWriter)
    (hsent : ∀ req ∈ s.sent, Live.WithinLimit bc req) (hl : s.Ascends l)
    (h : Writer.step bc segmentBytes s l = some s') (hrun : s'.pc.Running) :
    Logged bc base start s'.toSegmentWriter := by
  have hinHand := within_of_inHand hi.queueOrder hsent
  cases WriterRule.of_step h with
  | periodicFlushError _ hflush | periodicFlush _ hflush | rotateFlush _ hflush
  | finalFlushError _ hflush | finalFlush _ hflush => exact hs.flush hflush
  | @write req frame _ _ _ hpc hwrite =>
    rw [hpc] at hi hinHand
    have hencode := hi.atPc.1
    have hlimit := hinHand req List.mem_cons_self frame hencode
    exact hs.writeAll hbc (hi.layout trivial) hencode hlimit hwrite
  | openNext hpc =>
    rw [hpc] at hi
    exact hs.openNext (hi.layout trivial) hl hi.atPc.2.1
  | rotateFlushError | openNextError | writeError | finalNotify | dropNotify | dropRx | dropWriter
  | dropWriterFlush => exact absurd hrun id
  | _ => exact hs

/-- Only a send adds to the requests. -/
lemma within_of_step (hsent : ∀ req ∈ s.sent, Live.WithinLimit bc req)
    (hl : ∀ req, l = .send req → Live.WithinLimit bc req)
    (h : Writer.step bc segmentBytes s l = some s') :
    ∀ req ∈ s'.sent, Live.WithinLimit bc req := by
  cases WriterRule.of_step h with
  | @send req =>
    intro r hr
    rcases List.mem_append.mp hr with hr | hr
    · exact hsent r hr
    · obtain rfl := List.mem_singleton.mp hr
      exact hl r rfl
  | _ => exact hsent

/-! ### Behind the return -/

/-- Nothing is left to write. -/
structure Closed (s : Writer) : Prop where
  buf : s.buf = []
  head : s.head = s.position
  length : (s.segments.content s.currentSegmentId).length = s.currentByteOffset

/-- Every request has had its turn, and there will be no other. -/
structure Served (s : Writer) : Prop where
  sendersGone : s.sendersGone
  queue : s.queue = []
  taken : s.taken = s.sent

/-- What the points behind the loop may rely on while nothing fails. -/
def Closing : WriterPc → Writer → Prop
  | .finalFlush, s | .finalPublish, s => s.Served
  | .finalAck, s | .finalNotify, s | .dropNotify, s | .dropRx, s | .dropWriter, s | .exited, s =>
    s.Closed ∧ s.Served
  | _, _ => True

/-- Without a fault `write_all` does not fail. -/
lemma writeAll_ne_error {w w' : SegmentWriter} {req : WriteRequest} {frame : Bytes}
    {ff wf : Option WriteFault} {e : String} (hl : Live.FaultFree bc (.writer (.write ff wf))) :
    w.writeAll req frame ff wf ≠ (.error e, w') := by
  obtain ⟨rfl, rfl⟩ := hl
  intro h
  obtain ⟨b, hb, -⟩ := SegmentWriter.writeAll_error_eq h
  simp only [BufWriter.writeAll, BufWriter.flush, BufWriter.writeThrough] at hb
  split_ifs at hb <;> cases hb

lemma Served.of_send (hs : s.Served) (hsenders : s.sendersGone = false) : False := by
  have hgone := hs.sendersGone
  rw [hsenders] at hgone
  cases hgone

/-- No send finds the thread behind `recv`. -/
lemma Closing.send {pc : WriterPc} (hs : Closing pc s) (hsenders : s.sendersGone = false)
    (queue sent : List WriteRequest) : Closing pc { s with queue := queue, sent := sent } := by
  unfold Closing at hs ⊢
  split
  all_goals dsimp only at hs ⊢
  · exact (hs.of_send hsenders).elim
  · exact (hs.of_send hsenders).elim
  all_goals try exact (hs.2.of_send hsenders).elim

lemma Closing.dropSenders {pc : WriterPc} (hs : Closing pc s) :
    Closing pc { s with sendersGone := true } := by
  unfold Closing at hs ⊢
  split
  all_goals dsimp only at hs ⊢
  · exact ⟨rfl, hs.queue, hs.taken⟩
  · exact ⟨rfl, hs.queue, hs.taken⟩
  all_goals
    try exact ⟨⟨hs.1.buf, hs.1.head, hs.1.length⟩, ⟨rfl, hs.2.queue, hs.2.taken⟩⟩

lemma Closing.step (hi : Inv bc segmentBytes base start s.pc s) (hs : Closing s.pc s)
    (hl : Live.FaultFree bc (.writer l)) (h : Writer.step bc segmentBytes s l = some s') :
    Closing s'.pc s' := by
  cases WriterRule.of_step h with
  | send _ _ hsenders => exact hs.send hsenders _ _
  | dropSenders => exact hs.dropSenders
  | disconnected hpc =>
    simp only [Writer.step, hpc] at h
    split_ifs at h with hgone
    rw [hpc] at hi
    obtain ⟨rest, hsplit, hrest⟩ := hi.queueOrder
    rw [hrest trivial, hgone.1] at hsplit
    exact ⟨hgone.2, hgone.1, by simpa [WriterPc.inHand] using hsplit⟩
  | finalFlush hpc hflush =>
    rw [hpc] at hs
    obtain ⟨b, -, rfl⟩ := SegmentWriter.flush_eq hflush
    exact ⟨hs.sendersGone, hs.queue, hs.taken⟩
  | finalPublish hpc =>
    rw [hpc] at hi hs
    have hlength := (hi.layout trivial).length_bytes
    rw [SegmentWriter.bytes_of_buf_nil hi.atPc] at hlength
    exact ⟨⟨hi.atPc, rfl, hlength⟩, ⟨hs.sendersGone, hs.queue, hs.taken⟩⟩
  | finalAck hpc | finalNotify hpc | dropNotify hpc | dropWriter hpc =>
    rw [hpc] at hs
    exact ⟨⟨hs.1.buf, hs.1.head, hs.1.length⟩, ⟨hs.2.sendersGone, hs.2.queue, hs.2.taken⟩⟩
  | dropRx hpc =>
    rw [hpc] at hs
    exact ⟨⟨hs.1.buf, hs.1.head, hs.1.length⟩, ⟨hs.2.sendersGone, rfl, hs.2.taken⟩⟩
  | dropWriterFlush hpc hbuf =>
    rw [hpc] at hs
    exact absurd hs.1.buf hbuf
  | finalFlushError _ hflush | rotateFlushError _ hflush =>
    obtain rfl : _ = none := hl
    rw [flush_none] at hflush
    cases hflush
  | openNextError => cases hl
  | writeError _ hwrite => exact absurd hwrite (writeAll_ne_error hl)
  | _ => trivial

/-- What holds of a writer that no I/O error has met. -/
structure Intact (bc : Bincode) (segmentBytes : ℕ) (base : Segments) (start : WalOffset)
    (s : Writer) : Prop where
  inv : Inv bc segmentBytes base start s.pc s
  sent : ∀ req ∈ s.sent, Live.WithinLimit bc req
  logged : Logged bc base start s.toSegmentWriter
  closing : Closing s.pc s

/-- Behind the return as well, while nothing fails. -/
lemma Intact.logged_of_step (hbc : bc.RoundTrips) (hs : Intact bc segmentBytes base start s)
    (hl : s.Smooth bc l) (h : Writer.step bc segmentBytes s l = some s') :
    Logged bc base start s'.toSegmentWriter := by
  obtain ⟨hl, hasc⟩ := hl
  by_cases hrun : s'.pc.Running
  · exact Writer.logged_of_step hbc hs.inv hs.logged hs.sent hasc h hrun
  · cases WriterRule.of_step h with
    | dropWriterFlush hpc hbuf =>
      have hclosing := hs.closing
      rw [hpc] at hclosing
      exact absurd hclosing.1.buf hbuf
    | rotateFlushError _ hflush =>
      obtain rfl : _ = none := hl
      rw [flush_none] at hflush
      cases hflush
    | openNextError => cases hl
    | writeError _ hwrite => exact absurd hwrite (writeAll_ne_error hl)
    | send | dropSenders | finalNotify | dropNotify | dropRx | dropWriter => exact hs.logged
    | _ => exact absurd trivial hrun

lemma Intact.step (hbc : bc.RoundTrips) (hs : Intact bc segmentBytes base start s)
    (hl : s.Smooth bc l) (h : Writer.step bc segmentBytes s l = some s') :
    Intact bc segmentBytes base start s' where
  inv := hs.inv.step hl.2 h
  sent := by
    refine within_of_step hs.sent ?_ h
    rintro req rfl
    exact hl.1
  logged := hs.logged_of_step hbc hl h
  closing := hs.closing.step hs.inv hl.1 h

lemma Intact.spawn (hr : Recovered bc segs base start) :
    Intact bc segmentBytes base start (Writer.spawn base start) where
  inv := hr.inv_spawn
  sent := nofun
  logged := .spawn hr
  closing := trivial

lemma Intact.reach (hbc : bc.RoundTrips) (hr : Recovered bc segs base start)
    (h : Reach (Writer.step bc segmentBytes) (Writer.Smooth bc) (Writer.spawn base start) s) :
    Intact bc segmentBytes base start s :=
  h.invariant (.spawn hr) fun _ _ _ hs hl hstep => hs.step hbc hl hstep

end Writer

end SmarthomeIngest
