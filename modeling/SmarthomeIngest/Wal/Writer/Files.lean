import SmarthomeIngest.Wal.Writer.Layout
import SmarthomeIngest.Wal.Writer.Rules

/-!
# What the writer sees of the files

A step of the writer appends to the current segment, or starts the next one, or leaves the files
alone; and of the files it has seen nothing but the current segment. So it makes the same step beside
other files with the same current segment: it does not notice that a commit has removed older ones.
-/

namespace SmarthomeIngest

/-- What a step of the writer does to the files. -/
inductive FileOp where
  | none
  | append (b : Bytes)
  | create

/-- The files afterwards, where `last` is the current segment. -/
def FileOp.apply (last : ℕ) (segs : Segments) : FileOp → Segments
  | .none     => segs
  | .append b => segs.write last (segs.content last ++ b)
  | .create   => segs.create ((last + 1) % 2 ^ 64)

/-- A step from `s` to `s'` that does `op`. -/
structure Writer.Does (op : FileOp) (s s' : Writer) : Prop where
  segments : s'.segments = op.apply s.currentSegmentId s.segments
  append : ∀ b, op = .append b → s'.currentSegmentId = s.currentSegmentId
  create : op = .create → s'.currentSegmentId = (s.currentSegmentId + 1) % 2 ^ 64

namespace SegmentWriter

variable {w w' : SegmentWriter} {log : Segments}

/-- The `BufWriter` of the current segment depends on no other segment. -/
lemma bufWriter_of_content
    (hlog : log.content w.currentSegmentId = w.segments.content w.currentSegmentId) :
    SegmentWriter.bufWriter { w with segments := log } = w.bufWriter := by
  simp [bufWriter, hlog]

lemma flush_of_content {fault : Option WriteFault} {r : Except String Unit}
    (h : w.flush fault = (r, w')) :
    ∃ b, w'.segments = FileOp.apply w.currentSegmentId w.segments (.append b) ∧
      w'.currentSegmentId = w.currentSegmentId ∧ ∀ log : Segments,
        log.content w.currentSegmentId = w.segments.content w.currentSegmentId →
        flush { w with segments := log } fault =
          (r, { w' with segments := FileOp.apply w.currentSegmentId log (.append b) }) := by
  obtain ⟨bw, hflush, rfl⟩ := flush_eq h
  obtain ⟨b, hb⟩ := BufWriter.file_prefix_of_flush hflush
  have hfile : bw.file = w.segments.content w.currentSegmentId ++ b := hb.symm
  refine ⟨b, by simp [setBufWriter, FileOp.apply, hfile], rfl, fun log hlog => ?_⟩
  rw [flush, bufWriter_of_content hlog, hflush]
  simp [setBufWriter, FileOp.apply, hfile, hlog]

lemma writeAll_of_content {req : WriteRequest} {frame : Bytes} {ff wf : Option WriteFault}
    {r : Except String Unit} (h : w.writeAll req frame ff wf = (r, w')) :
    ∃ b, w'.segments = FileOp.apply w.currentSegmentId w.segments (.append b) ∧
      w'.currentSegmentId = w.currentSegmentId ∧ ∀ log : Segments,
        log.content w.currentSegmentId = w.segments.content w.currentSegmentId →
        writeAll { w with segments := log } req frame ff wf =
          (r, { w' with segments := FileOp.apply w.currentSegmentId log (.append b) }) := by
  cases r with
  | error e =>
    obtain ⟨bw, hwrite, rfl⟩ := writeAll_error_eq h
    obtain ⟨b, hb⟩ := BufWriter.file_prefix_of_writeAll hwrite
    have hfile : bw.file = w.segments.content w.currentSegmentId ++ b := hb.symm
    refine ⟨b, by simp [setBufWriter, FileOp.apply, hfile], rfl, fun log hlog => ?_⟩
    rw [writeAll, bufWriter_of_content hlog, hwrite]
    simp [setBufWriter, FileOp.apply, hfile, hlog]
  | ok =>
    obtain ⟨bw, hwrite, rfl⟩ := writeAll_ok_eq h
    obtain ⟨b, hb⟩ := BufWriter.file_prefix_of_writeAll hwrite
    have hfile : bw.file = w.segments.content w.currentSegmentId ++ b := hb.symm
    refine ⟨b, by simp [setBufWriter, FileOp.apply, hfile], rfl, fun log hlog => ?_⟩
    rw [writeAll, bufWriter_of_content hlog, hwrite]
    simp [setBufWriter, FileOp.apply, hfile, hlog]

end SegmentWriter

namespace Writer

variable {bc : Bincode} {segmentBytes : ℕ} {s s' : Writer} {l : WriterLabel}

/-- A step does one thing to the files, and would do it to any files with the same current
segment. -/
theorem fileOp_of_step (h : step bc segmentBytes s l = some s') :
    ∃ op : FileOp, Does op s s' ∧ ∀ log : Segments,
      log.content s.currentSegmentId = s.segments.content s.currentSegmentId →
      step bc segmentBytes { s with segments := log } l =
        some { s' with segments := op.apply s.currentSegmentId log } := by
  cases WriterRule.of_step h with
  | send halive hfresh hsenders =>
    exact ⟨.none, ⟨rfl, nofun, nofun⟩, fun log _ => if_pos ⟨hsenders, halive, hfresh⟩⟩
  | dropSenders => exact ⟨.none, ⟨rfl, nofun, nofun⟩, fun log _ => rfl⟩
  | deadlineFlush hpc | deadlineRecv hpc =>
    refine ⟨.none, ⟨rfl, nofun, nofun⟩, fun log _ => ?_⟩
    have hmap := congrArg (Option.map fun t : Writer => { t with segments := log }) h
    simp only [step, hpc] at hmap ⊢
    exact hmap
  | periodicPublish hpc | periodicNotify hpc | periodicAck hpc | rotatePublish hpc
  | rotateNotify hpc | rotateAck hpc | finalPublish hpc | finalAck hpc | finalNotify hpc
  | dropNotify hpc | dropRx hpc =>
    refine ⟨.none, ⟨rfl, nofun, nofun⟩, fun log _ => ?_⟩
    simp only [step, hpc]
    rfl
  | recv hpc hqueue =>
    refine ⟨.none, ⟨rfl, nofun, nofun⟩, fun log _ => ?_⟩
    simp only [step, hpc, hqueue]
    rfl
  | timeout hpc =>
    refine ⟨.none, ⟨rfl, nofun, nofun⟩, fun log _ => ?_⟩
    simp only [step, hpc] at h ⊢
    split_ifs at h with htimeout
    exact if_pos htimeout
  | disconnected hpc =>
    refine ⟨.none, ⟨rfl, nofun, nofun⟩, fun log _ => ?_⟩
    simp only [step, hpc] at h ⊢
    split_ifs at h with hgone
    exact if_pos hgone
  | encodeError hpc hencode =>
    refine ⟨.none, ⟨rfl, nofun, nofun⟩, fun log _ => ?_⟩
    simp only [step, hpc, hencode]
    rfl
  | encodeRotate hpc hencode | encodeWrite hpc hencode =>
    refine ⟨.none, ⟨rfl, nofun, nofun⟩, fun log _ => ?_⟩
    have hmap := congrArg (Option.map fun t : Writer => { t with segments := log }) h
    simp only [step, hpc, hencode] at hmap ⊢
    exact hmap
  | openNextError hpc =>
    refine ⟨.none, ⟨rfl, nofun, nofun⟩, fun log _ => ?_⟩
    simp only [step, hpc]
    rfl
  | openNext hpc =>
    refine ⟨.create, ⟨rfl, nofun, fun _ => rfl⟩, fun log _ => ?_⟩
    simp only [step, hpc]
    rfl
  | periodicFlushError hpc hflush | periodicFlush hpc hflush | rotateFlush hpc hflush
  | finalFlush hpc hflush =>
    obtain ⟨b, hb, hcur, hlog⟩ := SegmentWriter.flush_of_content hflush
    refine ⟨.append b, ⟨hb, fun _ _ => hcur, nofun⟩, fun log hcontent => ?_⟩
    simp only [step, hpc, hlog log hcontent]
  | rotateFlushError hpc hflush | finalFlushError hpc hflush =>
    obtain ⟨b, hb, hcur, hlog⟩ := SegmentWriter.flush_of_content hflush
    refine ⟨.append b, ⟨hb, fun _ _ => hcur, nofun⟩, fun log hcontent => ?_⟩
    simp only [step, hpc, hlog log hcontent]
    rfl
  | writeError hpc hwrite =>
    obtain ⟨b, hb, hcur, hlog⟩ := SegmentWriter.writeAll_of_content hwrite
    refine ⟨.append b, ⟨hb, fun _ _ => hcur, nofun⟩, fun log hcontent => ?_⟩
    simp only [step, hpc, hlog log hcontent]
    rfl
  | write hpc hwrite =>
    obtain ⟨b, hb, hcur, hlog⟩ := SegmentWriter.writeAll_of_content hwrite
    refine ⟨.append b, ⟨hb, fun _ _ => hcur, nofun⟩, fun log hcontent => ?_⟩
    simp only [step, hpc, hlog log hcontent]
  | dropWriter hpc hbuf =>
    refine ⟨.none, ⟨rfl, nofun, nofun⟩, fun log _ => ?_⟩
    simp only [step, hpc, if_pos hbuf]
    rfl
  | @dropWriterFlush fault hpc hbuf =>
    obtain ⟨b, hb, hcur, hlog⟩ := SegmentWriter.flush_of_content
      (show s.flush fault = ((s.flush fault).1, (s.flush fault).2) from rfl)
    refine ⟨.append b, ⟨hb, fun _ _ => hcur, nofun⟩, fun log hcontent => ?_⟩
    simp only [step, hpc, if_neg hbuf, hlog log hcontent]

end Writer

end SmarthomeIngest
