import SmarthomeIngest.Wal.Codec
import SmarthomeIngest.Wal.Segment

/-!
# The WAL writer

`writer_loop` as a state machine. Its program counter names the point the thread has reached; a
label says how the environment answers there: which deadline has passed, what the channel returns,
whether a flush, an open or a write fails. The senders of the channel step in between.

The fields `records`, `sent` and `taken` are history: nothing the thread does depends on them.
-/

namespace SmarthomeIngest

/-- A request to the writer thread. The sender half of the oneshot channel of a durable append is
named by a number of its own. -/
structure WriteRequest where
  event : WalEvent
  durableAck : Option ℕ
  deriving DecidableEq

/-- What the receiver half of a durable append gets: a result, or the news that its sender is
gone. -/
inductive AckResult where
  | ok
  | err (reason : String)
  | dropped
  deriving DecidableEq

inductive WriterFatalReason where
  | flushBeforeRotation
  | openNextSegment
  | writeAll
  deriving DecidableEq, Repr

/-- A frame that `write_all` has accepted: for which request, and where in its segment file it
goes. -/
structure Record where
  request : WriteRequest
  frame : Bytes
  segmentId : ℕ
  start : ℕ
  deriving DecidableEq

/-- Where the frame of a record starts. -/
def Record.offset (r : Record) : WalOffset := ⟨r.segmentId, r.start⟩

/-- The offset right behind a record. -/
def Record.offsetAfter (r : Record) : WalOffset := ⟨r.segmentId, r.start + r.frame.length⟩

/-- Capacity of the `BufWriter`. -/
def writerBufCapacity : ℕ := 64 * 1024

/-! ### The segment being written -/

/-- The files, the `BufWriter` on the current segment and the position behind its last byte. -/
structure SegmentWriter where
  segments : Segments
  buf : Bytes
  currentSegmentId : ℕ
  currentByteOffset : ℕ
  records : List Record

namespace SegmentWriter

def position (w : SegmentWriter) : WalOffset := ⟨w.currentSegmentId, w.currentByteOffset⟩

/-- The `BufWriter` together with the file it appends to. -/
def bufWriter (w : SegmentWriter) : BufWriter := ⟨w.segments.content w.currentSegmentId, w.buf⟩

def setBufWriter (w : SegmentWriter) (b : BufWriter) : SegmentWriter :=
  { w with segments := w.segments.write w.currentSegmentId b.file, buf := b.buf }

def flush (w : SegmentWriter) (fault : Option WriteFault) : Except String Unit × SegmentWriter :=
  let (r, b) := w.bufWriter.flush fault
  (r, w.setBufWriter b)

/-- `write_all` of the frame of a request; on success the position moves behind it. The file is open
for append: whatever the position, the frame goes behind everything the `BufWriter` was handed. -/
def writeAll (w : SegmentWriter) (req : WriteRequest) (frame : Bytes)
    (flushFault writeFault : Option WriteFault) : Except String Unit × SegmentWriter :=
  match w.bufWriter.writeAll writerBufCapacity frame flushFault writeFault with
  | (.error e, b) => (.error e, w.setBufWriter b)
  | (.ok (), b) =>
    (.ok (), { w.setBufWriter b with
      currentByteOffset := w.currentByteOffset + frame.length
      records := w.records ++ [⟨req, frame, w.currentSegmentId, w.bufWriter.contents.length⟩] })

/-- The position at the start of the next segment, with the old `BufWriter` dropped. The release
build does not check `current_segment_id += 1`: behind the last `u64` comes segment 0. -/
def advance (w : SegmentWriter) : SegmentWriter :=
  { w with
    buf := [], currentSegmentId := (w.currentSegmentId + 1) % 2 ^ 64, currentByteOffset := 0 }

def createCurrent (w : SegmentWriter) : SegmentWriter :=
  { w with segments := w.segments.create w.currentSegmentId }

end SegmentWriter

/-! ### The thread -/

/-- The points of `writer_loop` between which other threads may run. The points from `dropNotify`
on lie behind its return, where its parameters are dropped in turn. -/
inductive WriterPc where
  | loopTop
  | periodicFlush
  | periodicPublish
  | periodicNotify
  | periodicAck
  | recv
  | encode (req : WriteRequest)
  | rotateFlush (req : WriteRequest) (frame : Bytes)
  | rotatePublish (req : WriteRequest) (frame : Bytes)
  | rotateNotify (req : WriteRequest) (frame : Bytes)
  | rotateAck (req : WriteRequest) (frame : Bytes)
  | openNext (req : WriteRequest) (frame : Bytes)
  | writeAll (req : WriteRequest) (frame : Bytes)
  | finalFlush
  | finalPublish
  | finalAck
  | finalNotify
  | dropNotify
  | dropRx
  | dropWriter
  | exited
  deriving DecidableEq

structure Writer extends SegmentWriter where
  head : WalOffset
  notifications : ℕ
  dirty : Bool
  pendingDurableAcks : List ℕ
  queue : List WriteRequest
  sendersGone : Bool
  acks : List (ℕ × AckResult)
  fatal : Option WriterFatalReason
  sent : List WriteRequest
  taken : List WriteRequest
  pc : WriterPc

/-- How the environment of the thread acts: `step` lets it go on where nothing else decides. -/
inductive WriterLabel where
  | step
  | deadline (elapsed : Bool)
  | recv
  | timeout
  | disconnected
  | flush (fault : Option WriteFault)
  | openNext (error : Option String)
  | write (flushFault writeFault : Option WriteFault)
  | send (req : WriteRequest)
  | dropSenders
  deriving DecidableEq

namespace Writer

/-- `spawn_writer`: the state in which the thread starts, with the start segment opened. -/
def spawn (segments : Segments) (start : WalOffset) : Writer where
  segments := segments.create start.segmentId
  buf := []
  currentSegmentId := start.segmentId
  currentByteOffset := start.byteOffset
  records := []
  head := start
  notifications := 0
  dirty := false
  pendingDurableAcks := []
  queue := []
  sendersGone := false
  acks := []
  fatal := none
  sent := []
  taken := []
  pc := .loopTop

/-- Acks asked for by requests. -/
def ackIds (reqs : List WriteRequest) : List ℕ := reqs.filterMap WriteRequest.durableAck

/-- `head.store` of the current position. -/
def publish (s : Writer) : Writer := { s with head := s.position }

def notifyWaiters (s : Writer) : Writer := { s with notifications := s.notifications + 1 }

/-- Sends `r` on the oneshot channels `ids`. -/
def sendAcks (s : Writer) (ids : List ℕ) (r : AckResult) : Writer :=
  { s with acks := s.acks ++ ids.map fun id => (id, r) }

def acknowledgePendingDurableOk (s : Writer) : Writer :=
  { s.sendAcks s.pendingDurableAcks .ok with pendingDurableAcks := [] }

def failPendingDurableAcks (s : Writer) (reason : String) : Writer :=
  { s.sendAcks s.pendingDurableAcks (.err reason) with pendingDurableAcks := [] }

/-- Fails the request in hand, then the pending acks, and returns. -/
def fail (s : Writer) (req : WriteRequest) (reason : String) (why : WriterFatalReason) : Writer :=
  { (s.sendAcks req.durableAck.toList (.err reason)).failPendingDurableAcks reason with
    fatal := some why, pc := .dropNotify }

/-- The receiver of the channel exists until the thread has dropped it. -/
def receiverAlive (s : Writer) : Bool :=
  match s.pc with
  | .dropWriter | .exited => false
  | _ => true

/-- The writer's clone of the `Notify` handle exists until the thread has dropped it. -/
def notifyAlive (s : Writer) : Bool :=
  match s.pc with
  | .dropRx | .dropWriter | .exited => false
  | _ => true

variable (bc : Bincode) (segmentBytes : ℕ)

/-- One step of `writer_loop`, or of the threads that hold a sender. -/
def step (s : Writer) (l : WriterLabel) : Option Writer :=
  match s.pc, l with
  -- a oneshot sender is fresh, and a send on a channel without receiver fails
  | _, .send req =>
    if s.sendersGone = false ∧ s.receiverAlive ∧ ∀ id ∈ req.durableAck, id ∉ ackIds s.sent then
      some { s with queue := s.queue ++ [req], sent := s.sent ++ [req] }
    else none
  | _, .dropSenders => some { s with sendersGone := true }
  | .loopTop, .deadline elapsed =>
    some { s with pc := if s.dirty && elapsed then .periodicFlush else .recv }
  | .periodicFlush, .flush fault =>
    match s.flush fault with
    | (.error _, w) => some { s with toSegmentWriter := w, pc := .recv }
    | (.ok (), w) => some { s with toSegmentWriter := w, dirty := false, pc := .periodicPublish }
  | .periodicPublish, .step => some { s.publish with pc := .periodicNotify }
  | .periodicNotify, .step => some { s.notifyWaiters with pc := .periodicAck }
  | .periodicAck, .step => some { s.acknowledgePendingDurableOk with pc := .recv }
  | .recv, .recv =>
    match s.queue with
    | [] => none
    | req :: rest => some { s with queue := rest, pc := .encode req }
  -- `recv_timeout` while dirty, `recv` while clean; both prefer a queued request
  | .recv, .timeout =>
    if s.dirty ∧ s.queue = [] ∧ s.sendersGone = false then some { s with pc := .loopTop } else none
  | .recv, .disconnected =>
    if s.queue = [] ∧ s.sendersGone then some { s with pc := .finalFlush } else none
  | .encode req, .step =>
    match encodeInto bc req.event with
    | .error e =>
      some { s.sendAcks req.durableAck.toList (.err ("WAL writer encode failed: " ++ e)) with
        taken := s.taken ++ [req], pc := .loopTop }
    | .ok frame =>
      some { s with pc :=
        if 0 < s.currentByteOffset ∧ segmentBytes < s.currentByteOffset + frame.length then
          .rotateFlush req frame
        else .writeAll req frame }
  | .rotateFlush req frame, .flush fault =>
    match s.flush fault with
    | (.error e, w) =>
      some (fail { s with toSegmentWriter := w } req
        ("WAL writer flush failed before rotation: " ++ e) .flushBeforeRotation)
    | (.ok (), w) => some { s with toSegmentWriter := w, pc := .rotatePublish req frame }
  | .rotatePublish req frame, .step => some { s.publish with pc := .rotateNotify req frame }
  | .rotateNotify req frame, .step => some { s.notifyWaiters with pc := .rotateAck req frame }
  | .rotateAck req frame, .step =>
    some { s.acknowledgePendingDurableOk with pc := .openNext req frame }
  | .openNext req frame, .openNext error =>
    match error with
    | some e =>
      some (fail { s with toSegmentWriter := s.advance } req
        ("WAL writer failed to open next segment: " ++ e) .openNextSegment)
    | none =>
      some { s with toSegmentWriter := s.advance.createCurrent, pc := .writeAll req frame }
  | .writeAll req frame, .write flushFault writeFault =>
    match s.writeAll req frame flushFault writeFault with
    | (.error e, w) =>
      some (fail { s with toSegmentWriter := w } req ("WAL writer write_all failed: " ++ e)
        .writeAll)
    | (.ok (), w) =>
      some { s with
        toSegmentWriter := w
        pendingDurableAcks := s.pendingDurableAcks ++ req.durableAck.toList
        dirty := true
        taken := s.taken ++ [req]
        pc := .loopTop }
  | .finalFlush, .flush fault =>
    match s.flush fault with
    | (.error e, w) =>
      some { failPendingDurableAcks { s with toSegmentWriter := w }
          ("WAL writer final flush failed on shutdown: " ++ e) with pc := .finalNotify }
    | (.ok (), w) => some { s with toSegmentWriter := w, pc := .finalPublish }
  | .finalPublish, .step => some { s.publish with pc := .finalAck }
  | .finalAck, .step => some { s.acknowledgePendingDurableOk with pc := .finalNotify }
  | .finalNotify, .step => some { s.notifyWaiters with pc := .dropNotify }
  | .dropNotify, .step => some { s with pc := .dropRx }
  -- dropping the receiver drops the requests still queued
  | .dropRx, .step =>
    some { s.sendAcks (ackIds s.queue) .dropped with queue := [], pc := .dropWriter }
  -- `BufWriter` flushes once more when dropped, and ignores the result
  | .dropWriter, .flush fault =>
    if s.buf = [] then some { s with pc := .exited }
    else some { s with toSegmentWriter := { (s.flush fault).2 with buf := [] }, pc := .exited }
  | _, _ => none

/-- A rotation goes up: it is not one out of the last segment id there is. -/
def Ascends (s : Writer) : WriterLabel → Prop
  | .openNext _ => s.currentSegmentId + 1 < 2 ^ 64
  | _ => True

instance decidableAscends (s : Writer) : DecidablePred s.Ascends
  | .openNext _ => inferInstanceAs (Decidable (_ < _))
  | .step | .deadline _ | .recv | .timeout | .disconnected | .flush _ | .write _ _ | .send _
  | .dropSenders => .isTrue trivial

end Writer

end SmarthomeIngest
