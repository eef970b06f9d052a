import SmarthomeIngest.Lib.Transition
import SmarthomeIngest.Wal.Log
import SmarthomeIngest.Wal.Writer

/-!
# What the writer leaves on disk

One invariant ties the segment files, the `BufWriter`, the counters and the published head
together. It is stated for the segment writer alone, so that a step of the thread that touches none
of them keeps it for free; `Writer.Inv` adds what the program counter promises.
-/

namespace SmarthomeIngest

open Transition

/-! ### Definitions -/

/-- The record lies in `b` at the offset it was written for. -/
def Record.In (r : Record) (b : Bytes) : Prop :=
  ∃ before, before.length = r.start ∧ before ++ r.frame <+: b

/-- The bytes that the segment files have and those of `base` have not, in id order. -/
def addedBytes (base segs : Segments) : Bytes :=
  segs.listSegments.flatMap fun id => (segs.content id).drop (base.content id).length

/-- The bytes of a segment, those still in the `BufWriter` included. -/
def SegmentWriter.bytes (w : SegmentWriter) (id : ℕ) : Bytes :=
  w.segments.content id ++ if id = w.currentSegmentId then w.buf else []

/-- A position in front of or behind a frame: where the writer started, the start of a segment, or
the end of a record of `w` that is in its file. -/
def FrameBoundary (start : WalOffset) (w : SegmentWriter) (o : WalOffset) : Prop :=
  o = start ∨ o.byteOffset = 0 ∨
    ∃ r ∈ w.records, r.In (w.segments.content r.segmentId) ∧ o = r.offsetAfter

/-- The layout invariant of a writer that started at `start` on the files `base`. -/
structure Layout (base : Segments) (start : WalOffset) (segmentBytes : ℕ) (w : SegmentWriter)
    (head : WalOffset) : Prop where
  start_le : start.segmentId ≤ w.currentSegmentId
  mem_segments : ∀ id, id ∈ w.segments ↔
    id ∈ base ∨ start.segmentId ≤ id ∧ id ≤ w.currentSegmentId
  le_current : ∀ id ∈ w.segments, id ≤ w.currentSegmentId
  base_prefix : ∀ id, base.content id <+: w.segments.content id
  added : addedBytes base w.segments ++ w.buf = w.records.flatMap Record.frame
  length_bytes : (w.bytes w.currentSegmentId).length = w.currentByteOffset
  record : ∀ r ∈ w.records, r.segmentId ≤ w.currentSegmentId ∧ r.In (w.bytes r.segmentId)
  boundary : w.position = start ∨ w.currentByteOffset = 0 ∨
    ∃ r ∈ w.records, w.position = r.offsetAfter
  head_boundary : FrameBoundary start w head
  head_le : head ≤ w.position
  head_visible : head.byteOffset ≤ (w.segments.content head.segmentId).length
  size : ∀ id, start.segmentId ≤ id → id ≤ w.currentSegmentId → startIn start id = 0 →
    (w.bytes id).length ≤ segmentBytes ∨
      ∃ r ∈ w.records, r.segmentId = id ∧ r.start = 0 ∧ w.bytes id = r.frame

variable {base segs : Segments} {start head : WalOffset} {segmentBytes : ℕ}
  {w w' : SegmentWriter}

/-! ### Records and added bytes -/

lemma Record.In.mono {r : Record} {b b' : Bytes} (h : r.In b) (hb : b <+: b') : r.In b' := by
  obtain ⟨before, hlen, hpre⟩ := h
  exact ⟨before, hlen, hpre.trans hb⟩

lemma Record.In.end_le {r : Record} {b : Bytes} (h : r.In b) :
    r.start + r.frame.length ≤ b.length := by
  obtain ⟨before, hlen, hpre⟩ := h
  have := hpre.length_le
  rw [List.length_append] at this
  omega

lemma FrameBoundary.mono {o : WalOffset} (h : FrameBoundary start w o)
    (hfiles : ∀ id, w.segments.content id <+: w'.segments.content id)
    (hrecords : w.records <+: w'.records) : FrameBoundary start w' o := by
  rcases h with h | h | ⟨r, hr, hin, ho⟩
  · exact .inl h
  · exact .inr (.inl h)
  · exact .inr (.inr ⟨r, hrecords.subset hr, hin.mono (hfiles _), ho⟩)

@[simp] lemma addedBytes_self (base : Segments) : addedBytes base base = [] := by
  simp [addedBytes]

/-- Bytes appended to the last segment are the last added bytes. -/
lemma addedBytes_write_last {last : ℕ} (hmem : last ∈ segs) (hlast : ∀ id ∈ segs, id ≤ last)
    (hbase : base.content last <+: segs.content last) (b : Bytes) :
    addedBytes base (segs.write last (segs.content last ++ b)) = addedBytes base segs ++ b := by
  obtain ⟨init, hsplit, hinit⟩ := Segments.idsFrom_last hmem hlast (Nat.zero_le _)
  have hsplit' := (Segments.idsFrom_write hmem (segs.content last ++ b)).trans hsplit
  rw [Segments.idsFrom_zero] at hsplit hsplit'
  rw [addedBytes, addedBytes, hsplit, hsplit', List.flatMap_append, List.flatMap_append,
    List.flatMap_singleton, List.flatMap_singleton, Segments.content_write_self,
    List.drop_append_of_le_length hbase.length_le, List.append_assoc]
  congr 1
  exact List.flatMap_congr fun id hid => by rw [Segments.content_write_ne (hinit id hid)]

/-- A new file is empty. -/
lemma addedBytes_create (id : ℕ) (hnew : ∀ id' ∈ segs, id' < id) :
    addedBytes base (segs.create id) = addedBytes base segs := by
  have hids := Segments.idsFrom_of_new (Nat.zero_le id) (fun _ => Segments.mem_create) hnew
  have hempty : segs.content id = [] :=
    Segments.content_of_notMem fun h => absurd (hnew id h) (lt_irrefl _)
  rw [Segments.idsFrom_zero, Segments.idsFrom_zero] at hids
  rw [addedBytes, hids, List.flatMap_append, List.flatMap_singleton, addedBytes]
  simp [hempty]

lemma addedBytes_create_of_mem {id : ℕ} (hmem : id ∈ segs) :
    addedBytes base (segs.create id) = addedBytes base segs := by
  rw [Segments.create, if_pos hmem]

/-! ### The operations of the segment writer -/

namespace SegmentWriter

@[simp] lemma setBufWriter_records (w : SegmentWriter) (b : BufWriter) :
    (w.setBufWriter b).records = w.records := rfl

@[simp] lemma setBufWriter_buf (w : SegmentWriter) (b : BufWriter) :
    (w.setBufWriter b).buf = b.buf := rfl

lemma bufWriter_setBufWriter (w : SegmentWriter) (b : BufWriter) :
    (w.setBufWriter b).bufWriter = b := by
  simp [bufWriter, setBufWriter]

lemma bytes_current (w : SegmentWriter) :
    w.bytes w.currentSegmentId = w.bufWriter.contents := by
  simp [bytes, bufWriter, BufWriter.contents]

/-- With an empty buffer everything is in the files. -/
lemma bytes_of_buf_nil (h : w.buf = []) (id : ℕ) : w.bytes id = w.segments.content id := by
  simp [bytes, h]

/-- Only the current segment can change, and it shows what the `BufWriter` was handed. -/
lemma bytes_setBufWriter {b : BufWriter} (data : Bytes)
    (hc : b.contents = w.bufWriter.contents ++ data) (id : ℕ) :
    (w.setBufWriter b).bytes id =
      w.bytes id ++ if id = w.currentSegmentId then data else [] := by
  by_cases hid : id = w.currentSegmentId
  · subst hid
    rw [if_pos rfl, bytes_current, ← hc]
    simp [bytes, setBufWriter, BufWriter.contents]
  · simp [bytes, setBufWriter, hid]

lemma mem_setBufWriter {b : BufWriter} {id : ℕ} :
    id ∈ (w.setBufWriter b).segments ↔ id = w.currentSegmentId ∨ id ∈ w.segments :=
  Segments.mem_write

lemma content_setBufWriter {b : BufWriter} (hp : w.bufWriter.file <+: b.file) (id : ℕ) :
    w.segments.content id <+: (w.setBufWriter b).segments.content id := by
  by_cases hid : id = w.currentSegmentId
  · subst hid
    simpa [setBufWriter, bufWriter] using hp
  · simp [setBufWriter, hid]

/-- Below the last `u64` the next segment is the one with the next id. -/
lemma advance_of_lt (h : w.currentSegmentId + 1 < 2 ^ 64) :
    w.advance = { w with
      buf := [], currentSegmentId := w.currentSegmentId + 1, currentByteOffset := 0 } := by
  rw [advance, Nat.mod_eq_of_lt h]

lemma flush_eq {fault : Option WriteFault} {r : Except String Unit}
    (h : w.flush fault = (r, w')) :
    ∃ b, w.bufWriter.flush fault = (r, b) ∧ w' = w.setBufWriter b := by
  simp only [flush, Prod.mk.injEq] at h
  exact ⟨_, Prod.ext h.1 rfl, h.2.symm⟩

lemma buf_of_flush_ok {fault : Option WriteFault} (h : w.flush fault = (.ok (), w')) :
    w'.buf = [] := by
  obtain ⟨b, hb, rfl⟩ := flush_eq h
  exact BufWriter.buf_of_flush_ok hb

lemma content_of_flush {fault : Option WriteFault} {r : Except String Unit}
    (h : w.flush fault = (r, w')) (id : ℕ) : w.segments.content id <+: w'.segments.content id := by
  obtain ⟨b, hb, rfl⟩ := flush_eq h
  exact content_setBufWriter (BufWriter.file_prefix_of_flush hb) id

lemma records_of_flush {fault : Option WriteFault} {r : Except String Unit}
    (h : w.flush fault = (r, w')) : w'.records = w.records := by
  obtain ⟨b, -, rfl⟩ := flush_eq h
  rfl

lemma writeAll_ok_eq {req : WriteRequest} {frame : Bytes} {ff wf : Option WriteFault}
    (h : w.writeAll req frame ff wf = (.ok (), w')) :
    ∃ b, w.bufWriter.writeAll writerBufCapacity frame ff wf = (.ok (), b) ∧
      w' = { w.setBufWriter b with
        currentByteOffset := w.currentByteOffset + frame.length
        records :=
          w.records ++ [⟨req, frame, w.currentSegmentId, w.bufWriter.contents.length⟩] } := by
  unfold writeAll at h
  split at h
  · cases h
  · rename_i b hb
    cases h
    exact ⟨b, hb, rfl⟩

lemma writeAll_error_eq {req : WriteRequest} {frame : Bytes} {ff wf : Option WriteFault}
    {e : String} (h : w.writeAll req frame ff wf = (.error e, w')) :
    ∃ b, w.bufWriter.writeAll writerBufCapacity frame ff wf = (.error e, b) ∧
      w' = w.setBufWriter b := by
  unfold writeAll at h
  split at h
  · rename_i b hb
    cases h
    exact ⟨b, hb, rfl⟩
  · cases h

lemma content_of_writeAll {req : WriteRequest} {frame : Bytes} {ff wf : Option WriteFault}
    {r : Except String Unit} (h : w.writeAll req frame ff wf = (r, w')) (id : ℕ) :
    w.segments.content id <+: w'.segments.content id := by
  cases r with
  | error e =>
    obtain ⟨b, hb, rfl⟩ := writeAll_error_eq h
    exact content_setBufWriter (BufWriter.file_prefix_of_writeAll hb) id
  | ok u =>
    obtain ⟨b, hb, rfl⟩ := writeAll_ok_eq h
    exact content_setBufWriter (BufWriter.file_prefix_of_writeAll hb) id

end SegmentWriter

/-! ### The operations keep the layout -/

namespace Layout

/-- Files whose last segment holds `start.byteOffset` bytes, with nothing written yet. -/
lemma spawn (hlast : ∀ id ∈ base, id ≤ start.segmentId)
    (hlen : (base.content start.segmentId).length = start.byteOffset) :
    Layout base start segmentBytes (Writer.spawn base start).toSegmentWriter start where
  start_le := le_rfl
  mem_segments id := by
    simp only [Writer.spawn, Segments.mem_create]
    constructor
    · rintro (rfl | h)
      · exact .inr ⟨le_rfl, le_rfl⟩
      · exact .inl h
    · rintro (h | ⟨h, h'⟩)
      · exact .inr h
      · exact .inl (le_antisymm h' h)
  le_current id hid := by
    rcases Segments.mem_create.mp hid with rfl | hid
    · exact le_rfl
    · exact hlast id hid
  base_prefix id := by simp [Writer.spawn]
  added := by
    by_cases hmem : start.segmentId ∈ base
    · simp [Writer.spawn, addedBytes_create_of_mem hmem]
    · have hnew : ∀ id ∈ base, id < start.segmentId := fun id hid =>
        (hlast id hid).lt_of_ne fun h => hmem (h ▸ hid)
      simp [Writer.spawn, addedBytes_create _ hnew]
  length_bytes := by simp [SegmentWriter.bytes, Writer.spawn, hlen]
  record r hr := by simp [Writer.spawn] at hr
  boundary := .inl rfl
  head_boundary := .inl rfl
  head_le := le_rfl
  head_visible := by simp [Writer.spawn, hlen]
  size id h₁ h₂ h₃ := by
    obtain rfl : id = start.segmentId := le_antisymm h₂ h₁
    rw [startIn_self] at h₃
    left
    simp [SegmentWriter.bytes, Writer.spawn, hlen, h₃]

variable (hl : Layout base start segmentBytes w head)
include hl

/-- What the `BufWriter` was handed ends at the position. -/
lemma length_contents : w.bufWriter.contents.length = w.currentByteOffset := by
  rw [← SegmentWriter.bytes_current, hl.length_bytes]

lemma current_mem : w.currentSegmentId ∈ w.segments :=
  (hl.mem_segments _).mpr (.inr ⟨hl.start_le, le_rfl⟩)

/-- The added bytes after the `BufWriter` was handed `data`. -/
lemma added_setBufWriter {b : BufWriter} (data : Bytes)
    (hc : b.contents = w.bufWriter.contents ++ data) (hp : w.bufWriter.file <+: b.file) :
    addedBytes base (w.setBufWriter b).segments ++ b.buf =
      w.records.flatMap Record.frame ++ data := by
  obtain ⟨t, ht⟩ := hp
  have hfile : b.file = w.segments.content w.currentSegmentId ++ t := ht.symm
  have hbuf : t ++ b.buf = w.buf ++ data := by
    have : w.segments.content w.currentSegmentId ++ (t ++ b.buf) =
        w.segments.content w.currentSegmentId ++ (w.buf ++ data) := by
      simpa [BufWriter.contents, hfile, SegmentWriter.bufWriter, List.append_assoc] using hc
    exact List.append_cancel_left this
  rw [SegmentWriter.setBufWriter, hfile,
    addedBytes_write_last hl.current_mem hl.le_current (hl.base_prefix _), List.append_assoc,
    hbuf, ← List.append_assoc, hl.added]

/-- A flush, whether it succeeds or fails. -/
lemma setBufWriter {b : BufWriter} (hc : b.contents = w.bufWriter.contents)
    (hp : w.bufWriter.file <+: b.file) :
    Layout base start segmentBytes (w.setBufWriter b) head := by
  have hbytes : ∀ id, (w.setBufWriter b).bytes id = w.bytes id := fun id => by
    rw [SegmentWriter.bytes_setBufWriter [] (by simpa using hc)]
    simp
  have hfiles := SegmentWriter.content_setBufWriter hp
  have hmem : ∀ id, id ∈ (w.setBufWriter b).segments ↔ id ∈ w.segments := fun id => by
    rw [SegmentWriter.setBufWriter, Segments.mem_write]
    exact ⟨fun h => h.elim (fun h => h ▸ hl.current_mem) fun h => h, .inr⟩
  exact {
    start_le := hl.start_le
    mem_segments := fun id => (hmem id).trans (hl.mem_segments id)
    le_current := fun id hid => hl.le_current id ((hmem id).mp hid)
    base_prefix := fun id => (hl.base_prefix id).trans (hfiles id)
    added := by simpa using hl.added_setBufWriter [] (by simpa using hc) hp
    length_bytes := by
      rw [hbytes]
      exact hl.length_bytes
    record := fun r hr => by
      rw [hbytes]
      exact hl.record r hr
    boundary := hl.boundary
    head_boundary := hl.head_boundary.mono hfiles List.prefix_rfl
    head_le := hl.head_le
    head_visible := hl.head_visible.trans (hfiles _).length_le
    size := fun id h₁ h₂ h₃ => by
      rw [hbytes]
      exact hl.size id h₁ h₂ h₃ }

lemma flush {fault : Option WriteFault} {r : Except String Unit} (h : w.flush fault = (r, w')) :
    Layout base start segmentBytes w' head := by
  obtain ⟨b, hb, rfl⟩ := SegmentWriter.flush_eq h
  exact hl.setBufWriter (BufWriter.contents_of_flush hb) (BufWriter.file_prefix_of_flush hb)

/-- The head may be moved to the position once nothing is buffered. -/
lemma publish (hbuf : w.buf = []) : Layout base start segmentBytes w w.position :=
  { hl with
    head_boundary := by
      rcases hl.boundary with h | h | ⟨r, hr, h⟩
      · exact .inl h
      · exact .inr (.inl h)
      · refine .inr (.inr ⟨r, hr, ?_, h⟩)
        rw [← SegmentWriter.bytes_of_buf_nil hbuf]
        exact (hl.record r hr).2
    head_le := le_rfl
    head_visible := by
      have := hl.length_bytes
      rw [SegmentWriter.bytes_of_buf_nil hbuf] at this
      exact this.ge }

/-- A frame that fits the segment, or is its first one. -/
lemma writeAll {req : WriteRequest} {frame : Bytes} {ff wf : Option WriteFault}
    (hfit : w.currentByteOffset = 0 ∨ w.currentByteOffset + frame.length ≤ segmentBytes)
    (h : w.writeAll req frame ff wf = (.ok (), w')) :
    Layout base start segmentBytes w' head := by
  obtain ⟨b, hb, rfl⟩ := SegmentWriter.writeAll_ok_eq h
  have hc := BufWriter.contents_of_writeAll_ok hb
  have hp := BufWriter.file_prefix_of_writeAll hb
  have hfiles := SegmentWriter.content_setBufWriter hp
  have hbytes : ∀ id, (w.setBufWriter b).bytes id =
      w.bytes id ++ if id = w.currentSegmentId then frame else [] :=
    SegmentWriter.bytes_setBufWriter frame hc
  have hmem : ∀ id, id ∈ (w.setBufWriter b).segments ↔ id ∈ w.segments := fun id => by
    rw [SegmentWriter.setBufWriter, Segments.mem_write]
    exact ⟨fun h => h.elim (fun h => h ▸ hl.current_mem) fun h => h, .inr⟩
  exact {
    start_le := hl.start_le
    mem_segments := fun id => (hmem id).trans (hl.mem_segments id)
    le_current := fun id hid => hl.le_current id ((hmem id).mp hid)
    base_prefix := fun id => (hl.base_prefix id).trans (hfiles id)
    added := by
      rw [List.flatMap_append, List.flatMap_singleton]
      exact hl.added_setBufWriter frame hc hp
    length_bytes := by
      have := congrArg List.length (hbytes w.currentSegmentId)
      rw [List.length_append, hl.length_bytes, if_pos rfl] at this
      exact this
    record := fun r hr => by
      have hbytes' : w.bytes r.segmentId <+: (w.setBufWriter b).bytes r.segmentId := by
        rw [hbytes]
        exact List.prefix_append _ _
      rcases List.mem_append.mp hr with hr | hr
      · exact ⟨(hl.record r hr).1, (hl.record r hr).2.mono hbytes'⟩
      · -- the new record starts where the bytes before it ended
        obtain rfl := List.mem_singleton.mp hr
        refine ⟨le_rfl, w.bytes w.currentSegmentId, congrArg List.length w.bytes_current, ?_⟩
        change _ <+: (w.setBufWriter b).bytes w.currentSegmentId
        rw [hbytes, if_pos rfl]
    boundary := by
      refine .inr (.inr ⟨_, List.mem_append_right _ (List.mem_singleton.mpr rfl), ?_⟩)
      rw [Record.offsetAfter, hl.length_contents]
      rfl
    head_boundary := hl.head_boundary.mono hfiles (List.prefix_append _ _)
    head_le := hl.head_le.trans (WalOffset.le_iff.mpr (.inr ⟨rfl, Nat.le_add_right _ _⟩))
    head_visible := hl.head_visible.trans (hfiles _).length_le
    size := fun id h₁ h₂ h₃ => by
      change ((w.setBufWriter b).bytes id).length ≤ _ ∨
        ∃ r ∈ _, _ ∧ _ ∧ (w.setBufWriter b).bytes id = _
      rw [hbytes]
      by_cases hid : id = w.currentSegmentId
      · subst hid
        rw [if_pos rfl]
        rcases hfit with hzero | hle
        · right
          refine ⟨_, List.mem_append_right _ (List.mem_singleton.mpr rfl), rfl,
            hl.length_contents.trans hzero, ?_⟩
          rw [List.eq_nil_of_length_eq_zero (hl.length_bytes.trans hzero), List.nil_append]
        · left
          rwa [List.length_append, hl.length_bytes]
      · rw [if_neg hid, List.append_nil]
        rcases hl.size id h₁ h₂ h₃ with h | ⟨r, hr, h⟩
        · exact .inl h
        · exact .inr ⟨r, List.mem_append_left _ hr, h⟩ }

/-- Rotation: the buffer is empty, and the next segment is a new file. -/
lemma openNext (hlt : w.currentSegmentId + 1 < 2 ^ 64) (hbuf : w.buf = []) :
    Layout base start segmentBytes w.advance.createCurrent head := by
  have hnew : ∀ id ∈ w.segments, id < w.currentSegmentId + 1 := fun id hid =>
    Nat.lt_succ_of_le (hl.le_current id hid)
  have hempty : w.segments.content (w.currentSegmentId + 1) = [] :=
    Segments.content_of_notMem fun h => absurd (hnew _ h) (lt_irrefl _)
  have hcontent : ∀ id, (w.advance.createCurrent).segments.content id = w.segments.content id :=
    fun id => Segments.content_create _ _
  have hbytes : ∀ id, (w.advance.createCurrent).bytes id = w.bytes id := fun id => by
    rw [SegmentWriter.bytes_of_buf_nil rfl, SegmentWriter.bytes_of_buf_nil hbuf, hcontent]
  rw [SegmentWriter.advance_of_lt hlt] at hcontent hbytes ⊢
  exact {
    start_le := hl.start_le.trans (Nat.le_succ _)
    mem_segments := fun id => by
      have := hl.start_le
      simp only [SegmentWriter.createCurrent, Segments.mem_create, hl.mem_segments id]
      constructor
      · rintro (rfl | h | h)
        · exact .inr ⟨by omega, le_rfl⟩
        · exact .inl h
        · exact .inr ⟨h.1, by omega⟩
      · rintro (h | ⟨h, h'⟩)
        · exact .inr (.inl h)
        · rcases h'.eq_or_lt with rfl | hlt
          · exact .inl rfl
          · exact .inr (.inr ⟨h, by omega⟩)
    le_current := fun id hid => by
      rcases Segments.mem_create.mp hid with rfl | hid
      · exact le_rfl
      · exact (hnew id hid).le
    base_prefix := fun id => by
      rw [hcontent]
      exact hl.base_prefix id
    added := by
      have := hl.added
      rw [hbuf] at this
      rwa [SegmentWriter.createCurrent, addedBytes_create _ hnew]
    length_bytes := by
      rw [hbytes, SegmentWriter.bytes_of_buf_nil hbuf]
      simp [SegmentWriter.createCurrent, hempty]
    record := fun r hr => by
      rw [hbytes]
      exact ⟨(hl.record r hr).1.trans (Nat.le_succ _), (hl.record r hr).2⟩
    boundary := .inr (.inl rfl)
    head_boundary := hl.head_boundary.mono (fun id => (hcontent id).symm ▸ List.prefix_rfl)
      List.prefix_rfl
    head_le := hl.head_le.trans (WalOffset.le_iff.mpr (.inl (Nat.lt_succ_self _)))
    head_visible := by
      rw [hcontent]
      exact hl.head_visible
    size := fun id h₁ h₂ h₃ => by
      rw [hbytes]
      rcases Nat.lt_or_ge w.currentSegmentId id with hlt | hle
      · obtain rfl : id = w.currentSegmentId + 1 := le_antisymm h₂ hlt
        left
        simp [SegmentWriter.bytes_of_buf_nil hbuf, hempty]
      · exact hl.size id h₁ hle h₃ }

end Layout

end SmarthomeIngest
