import SmarthomeIngest.Wal.Writer

/-!
# Inversion of the writer's steps

`WriterRule` lists what a step of the writer thread can do, with the point at which it does it and
the conditions it has checked there. `WriterRule.of_step` is the only place where `Writer.step` is
taken apart; the invariants of the thread go by cases on the rules.
-/

namespace SmarthomeIngest

namespace Writer

variable (bc : Bincode) (segmentBytes : ℕ)

/-- The steps of the thread from `s`, with their labels and their results. -/
inductive WriterRule (s : Writer) : WriterLabel → Writer → Prop
  | send {req : WriteRequest} (halive : s.receiverAlive)
      (hfresh : ∀ id ∈ req.durableAck, id ∉ ackIds s.sent) (hsenders : s.sendersGone = false) :
      WriterRule s (.send req) { s with queue := s.queue ++ [req], sent := s.sent ++ [req] }
  | dropSenders : WriterRule s .dropSenders { s with sendersGone := true }
  | deadlineFlush {elapsed : Bool} (hpc : s.pc = .loopTop) (hdirty : s.dirty) :
      WriterRule s (.deadline elapsed) { s with pc := .periodicFlush }
  | deadlineRecv {elapsed : Bool} (hpc : s.pc = .loopTop) :
      WriterRule s (.deadline elapsed) { s with pc := .recv }
  | periodicFlushError {fault : Option WriteFault} {e : String} {w : SegmentWriter}
      (hpc : s.pc = .periodicFlush) (hflush : s.flush fault = (.error e, w)) :
      WriterRule s (.flush fault) { s with toSegmentWriter := w, pc := .recv }
  | periodicFlush {fault : Option WriteFault} {w : SegmentWriter}
      (hpc : s.pc = .periodicFlush) (hflush : s.flush fault = (.ok (), w)) :
      WriterRule s (.flush fault)
        { s with toSegmentWriter := w, dirty := false, pc := .periodicPublish }
  | periodicPublish (hpc : s.pc = .periodicPublish) :
      WriterRule s .step { s.publish with pc := .periodicNotify }
  | periodicNotify (hpc : s.pc = .periodicNotify) :
      WriterRule s .step { s.notifyWaiters with pc := .periodicAck }
  | periodicAck (hpc : s.pc = .periodicAck) :
      WriterRule s .step { s.acknowledgePendingDurableOk with pc := .recv }
  | recv {req : WriteRequest} {rest : List WriteRequest} (hpc : s.pc = .recv)
      (hqueue : s.queue = req :: rest) :
      WriterRule s .recv { s with queue := rest, pc := .encode req }
  | timeout (hpc : s.pc = .recv) (hdirty : s.dirty) (hsenders : s.sendersGone = false) :
      WriterRule s .timeout { s with pc := .loopTop }
  | disconnected (hpc : s.pc = .recv) :
      WriterRule s .disconnected { s with pc := .finalFlush }
  | encodeError {req : WriteRequest} {e : String} (hpc : s.pc = .encode req)
      (hencode : encodeInto bc req.event = .error e) :
      WriterRule s .step
        { s.sendAcks req.durableAck.toList (.err ("WAL writer encode failed: " ++ e)) with
          taken := s.taken ++ [req], pc := .loopTop }
  | encodeRotate {req : WriteRequest} {frame : Bytes} (hpc : s.pc = .encode req)
      (hencode : encodeInto bc req.event = .ok frame)
      (hfull : 0 < s.currentByteOffset ∧ segmentBytes < s.currentByteOffset + frame.length) :
      WriterRule s .step { s with pc := .rotateFlush req frame }
  | encodeWrite {req : WriteRequest} {frame : Bytes} (hpc : s.pc = .encode req)
      (hencode : encodeInto bc req.event = .ok frame)
      (hroom : s.currentByteOffset = 0 ∨ s.currentByteOffset + frame.length ≤ segmentBytes) :
      WriterRule s .step { s with pc := .writeAll req frame }
  | rotateFlushError {req : WriteRequest} {frame : Bytes} {fault : Option WriteFault} {e : String}
      {w : SegmentWriter} (hpc : s.pc = .rotateFlush req frame)
      (hflush : s.flush fault = (.error e, w)) :
      WriterRule s (.flush fault) (fail { s with toSegmentWriter := w } req
        ("WAL writer flush failed before rotation: " ++ e) .flushBeforeRotation)
  | rotateFlush {req : WriteRequest} {frame : Bytes} {fault : Option WriteFault}
      {w : SegmentWriter} (hpc : s.pc = .rotateFlush req frame)
      (hflush : s.flush fault = (.ok (), w)) :
      WriterRule s (.flush fault) { s with toSegmentWriter := w, pc := .rotatePublish req frame }
  | rotatePublish {req : WriteRequest} {frame : Bytes} (hpc : s.pc = .rotatePublish req frame) :
      WriterRule s .step { s.publish with pc := .rotateNotify req frame }
  | rotateNotify {req : WriteRequest} {frame : Bytes} (hpc : s.pc = .rotateNotify req frame) :
      WriterRule s .step { s.notifyWaiters with pc := .rotateAck req frame }
  | rotateAck {req : WriteRequest} {frame : Bytes} (hpc : s.pc = .rotateAck req frame) :
      WriterRule s .step { s.acknowledgePendingDurableOk with pc := .openNext req frame }
  | openNextError {req : WriteRequest} {frame : Bytes} {e : String}
      (hpc : s.pc = .openNext req frame) :
      WriterRule s (.openNext (some e)) (fail { s with toSegmentWriter := s.advance } req
        ("WAL writer failed to open next segment: " ++ e) .openNextSegment)
  | openNext {req : WriteRequest} {frame : Bytes} (hpc : s.pc = .openNext req frame) :
      WriterRule s (.openNext none)
        { s with toSegmentWriter := s.advance.createCurrent, pc := .writeAll req frame }
  | writeError {req : WriteRequest} {frame : Bytes} {flushFault writeFault : Option WriteFault}
      {e : String} {w : SegmentWriter} (hpc : s.pc = .writeAll req frame)
      (hwrite : s.writeAll req frame flushFault writeFault = (.error e, w)) :
      WriterRule s (.write flushFault writeFault) (fail { s with toSegmentWriter := w } req
        ("WAL writer write_all failed: " ++ e) .writeAll)
  | write {req : WriteRequest} {frame : Bytes} {flushFault writeFault : Option WriteFault}
      {w : SegmentWriter} (hpc : s.pc = .writeAll req frame)
      (hwrite : s.writeAll req frame flushFault writeFault = (.ok (), w)) :
      WriterRule s (.write flushFault writeFault)
        { s with
          toSegmentWriter := w
          pendingDurableAcks := s.pendingDurableAcks ++ req.durableAck.toList
          dirty := true
          taken := s.taken ++ [req]
          pc := .loopTop }
  | finalFlushError {fault : Option WriteFault} {e : String} {w : SegmentWriter}
      (hpc : s.pc = .finalFlush) (hflush : s.flush fault = (.error e, w)) :
      WriterRule s (.flush fault)
        { failPendingDurableAcks { s with toSegmentWriter := w }
            ("WAL writer final flush failed on shutdown: " ++ e) with pc := .finalNotify }
  | finalFlush {fault : Option WriteFault} {w : SegmentWriter}
      (hpc : s.pc = .finalFlush) (hflush : s.flush fault = (.ok (), w)) :
      WriterRule s (.flush fault) { s with toSegmentWriter := w, pc := .finalPublish }
  | finalPublish (hpc : s.pc = .finalPublish) :
      WriterRule s .step { s.publish with pc := .finalAck }
  | finalAck (hpc : s.pc = .finalAck) :
      WriterRule s .step { s.acknowledgePendingDurableOk with pc := .finalNotify }
  | finalNotify (hpc : s.pc = .finalNotify) :
      WriterRule s .step { s.notifyWaiters with pc := .dropNotify }
  | dropNotify (hpc : s.pc = .dropNotify) : WriterRule s .step { s with pc := .dropRx }
  | dropRx (hpc : s.pc = .dropRx) :
      WriterRule s .step
        { s.sendAcks (ackIds s.queue) .dropped with queue := [], pc := .dropWriter }
  | dropWriter {fault : Option WriteFault} (hpc : s.pc = .dropWriter) (hbuf : s.buf = []) :
      WriterRule s (.flush fault) { s with pc := .exited }
  | dropWriterFlush {fault : Option WriteFault} (hpc : s.pc = .dropWriter) (hbuf : s.buf ≠ []) :
      WriterRule s (.flush fault)
        { s with toSegmentWriter := { (s.flush fault).2 with buf := [] }, pc := .exited }

variable {bc : Bincode} {segmentBytes : ℕ} {s s' : Writer} {l : WriterLabel}

/-- The offset check before a write, where it does not rotate. -/
lemma room_of_not_rotate {len : ℕ}
    (h : ¬ (0 < s.currentByteOffset ∧ segmentBytes < s.currentByteOffset + len)) :
    s.currentByteOffset = 0 ∨ s.currentByteOffset + len ≤ segmentBytes := by
  omega

/-- Every step of the writer is by one of the rules. -/
theorem WriterRule.of_step (h : step bc segmentBytes s l = some s') :
    WriterRule bc segmentBytes s l s' := by
  unfold step at h
  split at h
  · split_ifs at h with hsend
    obtain ⟨hsenders, halive, hfresh⟩ := hsend
    cases h
    exact .send halive hfresh hsenders
  · cases h
    exact .dropSenders
  · rename_i hpc
    cases h
    split_ifs with hflush
    · exact .deadlineFlush hpc (Bool.and_eq_true_iff.mp hflush).1
    · exact .deadlineRecv hpc
  · rename_i hpc
    split at h
    · rename_i hflush
      cases h
      exact .periodicFlushError hpc hflush
    · rename_i hflush
      cases h
      exact .periodicFlush hpc hflush
  · cases h
    exact .periodicPublish ‹_›
  · cases h
    exact .periodicNotify ‹_›
  · cases h
    exact .periodicAck ‹_›
  · rename_i hpc
    split at h
    · cases h
    · rename_i hqueue
      cases h
      exact .recv hpc hqueue
  · rename_i hpc
    split_ifs at h with htimeout
    cases h
    exact .timeout hpc htimeout.1 htimeout.2.2
  · rename_i hpc
    split_ifs at h
    cases h
    exact .disconnected hpc
  · rename_i hpc
    split at h
    · rename_i hencode
      cases h
      exact .encodeError hpc hencode
    · rename_i hencode
      cases h
      split_ifs with hrotate
      · exact .encodeRotate hpc hencode hrotate
      · exact .encodeWrite hpc hencode (room_of_not_rotate hrotate)
  · rename_i hpc
    split at h
    · rename_i hflush
      cases h
      exact .rotateFlushError hpc hflush
    · rename_i hflush
      cases h
      exact .rotateFlush hpc hflush
  · cases h
    exact .rotatePublish ‹_›
  · cases h
    exact .rotateNotify ‹_›
  · cases h
    exact .rotateAck ‹_›
  · rename_i error hpc
    cases error with
    | some e =>
      cases h
      exact .openNextError hpc
    | none =>
      cases h
      exact .openNext hpc
  · rename_i hpc
    split at h
    · rename_i hwrite
      cases h
      exact .writeError hpc hwrite
    · rename_i hwrite
      cases h
      exact .write hpc hwrite
  · rename_i hpc
    split at h
    · rename_i hflush
      cases h
      exact .finalFlushError hpc hflush
    · rename_i hflush
      cases h
      exact .finalFlush hpc hflush
  · cases h
    exact .finalPublish ‹_›
  · cases h
    exact .finalAck ‹_›
  · cases h
    exact .finalNotify ‹_›
  · cases h
    exact .dropNotify ‹_›
  · cases h
    exact .dropRx ‹_›
  · rename_i hpc
    split_ifs at h with hbuf
    · cases h
      exact .dropWriter hpc hbuf
    · cases h
      exact .dropWriterFlush hpc hbuf
  · cases h

end Writer

end SmarthomeIngest
