import SmarthomeIngest.Wal.Writer.Invariant

/-!
# The bytes on their way

The files of the log with the bytes that are being written behind them. A flush only moves bytes
out of the `BufWriter`, and behind the return of `writer_loop` nothing more gets on its way.
-/

namespace SmarthomeIngest

/-- The frame in hand. -/
def WriterPc.frame : WriterPc → Option Bytes
  | .rotateFlush _ frame | .rotatePublish _ frame | .rotateNotify _ frame | .rotateAck _ frame
  | .openNext _ frame | .writeAll _ frame => some frame
  | _ => none

namespace Writer

variable {bc : Bincode} {segmentBytes : ℕ} {s s' : Writer} {l : WriterLabel}

/-- The files with everything behind them that is being written: the `BufWriter` and the frame in
hand. A crash leaves no more than this. -/
def onTheWay (s : Writer) : Segments :=
  s.segments.write s.currentSegmentId (s.bytes s.currentSegmentId ++ s.pc.frame.getD [])

lemma content_onTheWay (s : Writer) (id : ℕ) : s.onTheWay.content id =
    s.bytes id ++ if id = s.currentSegmentId then s.pc.frame.getD [] else [] := by
  rw [onTheWay, Segments.content_write]
  split_ifs with hid
  · rw [hid]
  · simp [SegmentWriter.bytes, hid]

lemma bytes_prefix_onTheWay (s : Writer) (id : ℕ) : s.bytes id <+: s.onTheWay.content id := by
  rw [content_onTheWay]
  exact List.prefix_append _ _

lemma content_prefix_onTheWay (s : Writer) (id : ℕ) :
    s.segments.content id <+: s.onTheWay.content id :=
  (List.prefix_append _ _).trans (s.bytes_prefix_onTheWay id)

/-- Without a frame in hand only the buffered bytes are on their way. -/
lemma content_onTheWay_of_none (hframe : s.pc.frame = none) (id : ℕ) :
    s.onTheWay.content id = s.bytes id := by
  simp [content_onTheWay, hframe]

/-- Behind the return of `writer_loop` nothing more gets on its way. -/
lemma onTheWay_of_step (h : Writer.step bc segmentBytes s l = some s') (hrun : ¬ s'.pc.Running)
    (id : ℕ) : s'.onTheWay.content id <+: s.onTheWay.content id := by
  cases WriterRule.of_step h with
  | send | dropSenders => exact List.prefix_rfl
  | rotateFlushError _ hflush =>
    obtain ⟨b, hb, rfl⟩ := SegmentWriter.flush_eq hflush
    have hc := BufWriter.contents_of_flush hb
    rw [content_onTheWay_of_none rfl]
    refine List.IsPrefix.trans ?_ (s.bytes_prefix_onTheWay id)
    show (s.setBufWriter b).bytes id <+: s.bytes id
    rw [SegmentWriter.bytes_setBufWriter [] (by simpa using hc)]
    simp
  | openNextError =>
    rw [content_onTheWay_of_none rfl, SegmentWriter.bytes_of_buf_nil rfl]
    exact s.content_prefix_onTheWay id
  | @writeError req frame _ _ _ _ hpc hwrite =>
    obtain ⟨b, hb, rfl⟩ := SegmentWriter.writeAll_error_eq hwrite
    obtain ⟨n, hc, -⟩ := BufWriter.contents_of_writeAll hb
    rw [content_onTheWay_of_none rfl, content_onTheWay, hpc]
    show (s.setBufWriter b).bytes id <+: _
    rw [SegmentWriter.bytes_setBufWriter _ hc, List.prefix_append_right_inj]
    split_ifs
    · exact List.take_prefix n frame
    · exact List.prefix_rfl
  | finalNotify | dropNotify | dropRx | dropWriter =>
    rw [content_onTheWay_of_none rfl]
    exact s.bytes_prefix_onTheWay id
  | @dropWriterFlush fault =>
    rw [content_onTheWay_of_none rfl, SegmentWriter.bytes_of_buf_nil rfl]
    show (s.flush fault).2.segments.content id <+: _
    rcases hflush : s.flush fault with ⟨r, w⟩
    obtain ⟨b, hb, rfl⟩ := SegmentWriter.flush_eq hflush
    have hc := BufWriter.contents_of_flush hb
    have hbytes := SegmentWriter.bytes_setBufWriter [] (by simpa using hc) id
    rw [ite_self, List.append_nil] at hbytes
    exact (List.prefix_append _ _).trans (hbytes ▸ s.bytes_prefix_onTheWay id)
  | _ => exact absurd trivial hrun

end Writer

end SmarthomeIngest
