import SmarthomeIngest.Wal.Bincode
import SmarthomeIngest.Wal.Writer.Layout
import SmarthomeIngest.Wal.Writer.Rules

/-!
# The invariant of the writer thread

`Writer.Inv` holds in every state of the thread: the layout invariant as long as `writer_loop` has
not returned, and what each point of the loop may rely on. From it follow that the published head
and the files only grow, and the layout of the log before a fatal exit.
-/

namespace SmarthomeIngest

open Transition

/-! ### Definitions -/

/-- `writer_loop` has not returned. -/
def WriterPc.Running : WriterPc → Prop
  | .dropNotify | .dropRx | .dropWriter | .exited => False
  | _ => True

/-- The request that has left the queue and whose turn is not over. -/
def WriterPc.inHand : WriterPc → List WriteRequest
  | .encode req | .rotateFlush req _ | .rotatePublish req _ | .rotateNotify req _
  | .rotateAck req _ | .openNext req _ | .writeAll req _ => [req]
  | _ => []

/-- The requests that encode, with their frames. -/
def encodedFrames (bc : Bincode) (reqs : List WriteRequest) : List (WriteRequest × Bytes) :=
  reqs.filterMap fun req => (encodeInto bc req.event).toOption.map (req, ·)

namespace Writer

/-- What the thread may rely on at a point of the loop. -/
def AtPc (bc : Bincode) (segmentBytes : ℕ) : WriterPc → Writer → Prop
  | .periodicPublish, s | .finalPublish, s => s.buf = []
  | .periodicNotify, s | .periodicAck, s | .finalAck, s => s.buf = [] ∧ s.head = s.position
  | .rotateFlush req frame, _ => encodeInto bc req.event = .ok frame
  | .rotatePublish req frame, s => encodeInto bc req.event = .ok frame ∧ s.buf = []
  | .rotateNotify req frame, s | .rotateAck req frame, s | .openNext req frame, s =>
    encodeInto bc req.event = .ok frame ∧ s.buf = [] ∧ s.head = s.position
  | .writeAll req frame, s => encodeInto bc req.event = .ok frame ∧
      (s.currentByteOffset = 0 ∨ s.currentByteOffset + frame.length ≤ segmentBytes)
  | _, _ => True

/-- The requests are dealt with in the order they were sent. Until `writer_loop` returns, those not
taken are in hand or in the queue. -/
def QueueOrder (pc : WriterPc) (s : Writer) : Prop :=
  ∃ rest, s.taken ++ pc.inHand ++ rest = s.sent ∧ (pc.Running → rest = s.queue)

/-- What the thread keeps at `pc`, whatever the files hold. -/
structure Books (bc : Bincode) (segmentBytes : ℕ) (pc : WriterPc) (s : Writer) : Prop where
  written : s.records.map (fun r => (r.request, r.frame)) = encodedFrames bc s.taken
  queueOrder : QueueOrder pc s
  atPc : AtPc bc segmentBytes pc s

/-- The invariant of a thread at `pc` that was spawned at `start` on the files `base`. -/
structure Inv (bc : Bincode) (segmentBytes : ℕ) (base : Segments) (start : WalOffset)
    (pc : WriterPc) (s : Writer) : Prop extends Books bc segmentBytes pc s where
  layout : pc.Running → Layout base start segmentBytes s.toSegmentWriter s.head

/-- Files, records and head of `s'` extend those of `s`. -/
structure Extends (s s' : Writer) : Prop where
  files : ∀ id, s.segments.content id <+: s'.segments.content id
  records : s.records <+: s'.records
  head : s.head ≤ s'.head

lemma Extends.of_eq {s s' : Writer} (hfiles : s'.segments = s.segments)
    (hrecords : s'.records = s.records) (hhead : s'.head = s.head) : Extends s s' :=
  ⟨fun _ => hfiles ▸ List.prefix_rfl, hrecords ▸ List.prefix_rfl, hhead.ge⟩

lemma Extends.trans {s t u : Writer} (h₁ : Extends s t) (h₂ : Extends t u) : Extends s u :=
  ⟨fun id => (h₁.files id).trans (h₂.files id), h₁.records.trans h₂.records,
    h₁.head.trans h₂.head⟩

variable {bc : Bincode} {segmentBytes : ℕ} {base : Segments} {start : WalOffset}
  {s s' : Writer} {l : WriterLabel}

/-! ### The invariant -/

lemma encodedFrames_append (xs ys : List WriteRequest) :
    encodedFrames bc (xs ++ ys) = encodedFrames bc xs ++ encodedFrames bc ys :=
  List.filterMap_append

lemma encodedFrames_of_ok {req : WriteRequest} {frame : Bytes}
    (h : encodeInto bc req.event = .ok frame) : encodedFrames bc [req] = [(req, frame)] := by
  simp [encodedFrames, h, Except.toOption]

lemma encodedFrames_of_error {req : WriteRequest} {e : String}
    (h : encodeInto bc req.event = .error e) : encodedFrames bc [req] = [] := by
  simp [encodedFrames, h, Except.toOption]

lemma Books.spawn : Books bc segmentBytes .loopTop (spawn base start) where
  written := rfl
  queueOrder := ⟨[], rfl, fun _ => rfl⟩
  atPc := trivial

lemma Inv.spawn (hlast : ∀ id ∈ base, id ≤ start.segmentId)
    (hlen : (base.content start.segmentId).length = start.byteOffset) :
    Inv bc segmentBytes base start .loopTop (spawn base start) where
  toBooks := .spawn
  layout _ := .spawn hlast hlen

/-- After the return the request in hand is lost like those in the queue. -/
lemma QueueOrder.drop {pc pc' : WriterPc} (h : QueueOrder pc s) (htaken : s'.taken = s.taken)
    (hsent : s'.sent = s.sent) (hpc' : pc'.inHand = []) (hrun : ¬ pc'.Running) :
    QueueOrder pc' s' := by
  obtain ⟨rest, hsplit, -⟩ := h
  refine ⟨pc.inHand ++ rest, ?_, fun h => absurd h hrun⟩
  rw [htaken, hsent, hpc', List.append_nil, ← List.append_assoc, hsplit]

lemma QueueOrder.send {pc : WriterPc} (h : QueueOrder pc s) (req : WriteRequest) :
    QueueOrder pc { s with queue := s.queue ++ [req], sent := s.sent ++ [req] } := by
  obtain ⟨rest, hsplit, hqueue⟩ := h
  refine ⟨rest ++ [req], ?_, fun hrun => by rw [hqueue hrun]⟩
  rw [← List.append_assoc, hsplit]

/-- The turn of the request in hand is over. -/
lemma QueueOrder.take {pc pc' : WriterPc} {req : WriteRequest} (h : QueueOrder pc s)
    (hpc : pc.inHand = [req]) (hpc' : pc'.inHand = []) (hrun : pc.Running)
    (htaken : s'.taken = s.taken ++ [req]) (hsent : s'.sent = s.sent)
    (hqueue : s'.queue = s.queue) : QueueOrder pc' s' := by
  obtain ⟨rest, hsplit, hrest⟩ := h
  refine ⟨rest, ?_, fun _ => by rw [hrest hrun, hqueue]⟩
  rw [htaken, hsent, hpc', List.append_nil, ← hpc, hsplit]

/-- A send changes neither the files nor what the thread relies on. -/
lemma AtPc.send {pc : WriterPc} (h : AtPc bc segmentBytes pc s) (queue sent : List WriteRequest) :
    AtPc bc segmentBytes pc { s with queue := queue, sent := sent } := by
  cases pc <;> exact h

lemma AtPc.dropSenders {pc : WriterPc} (h : AtPc bc segmentBytes pc s) :
    AtPc bc segmentBytes pc { s with sendersGone := true } := by
  cases pc <;> exact h

lemma Books.fail {req : WriteRequest} {reason : String} {why : WriterFatalReason}
    {pc : WriterPc} (h : s.records.map (fun r => (r.request, r.frame)) = encodedFrames bc s.taken)
    (hq : QueueOrder pc s) : Books bc segmentBytes .dropNotify (s.fail req reason why) where
  written := h
  queueOrder := hq.drop rfl rfl rfl id
  atPc := trivial

lemma Books.step (hi : Books bc segmentBytes s.pc s)
    (h : step bc segmentBytes s l = some s') : Books bc segmentBytes s'.pc s' := by
  cases WriterRule.of_step h with
  | @send req _ _ _ => exact ⟨hi.written, hi.queueOrder.send req, hi.atPc.send _ _⟩
  | dropSenders => exact ⟨hi.written, hi.queueOrder, hi.atPc.dropSenders⟩
  | deadlineFlush hpc | deadlineRecv hpc | periodicAck hpc | timeout hpc | disconnected hpc
  | finalAck hpc =>
    rw [hpc] at hi
    exact ⟨hi.written, hi.queueOrder, trivial⟩
  | periodicFlushError hpc hflush | finalFlushError hpc hflush =>
    rw [hpc] at hi
    exact ⟨SegmentWriter.records_of_flush hflush ▸ hi.written, hi.queueOrder, trivial⟩
  | periodicFlush hpc hflush | finalFlush hpc hflush =>
    rw [hpc] at hi
    exact ⟨SegmentWriter.records_of_flush hflush ▸ hi.written, hi.queueOrder,
      SegmentWriter.buf_of_flush_ok hflush⟩
  | periodicPublish hpc | finalPublish hpc =>
    rw [hpc] at hi
    exact ⟨hi.written, hi.queueOrder, hi.atPc, rfl⟩
  | periodicNotify hpc | rotateNotify hpc | rotateAck hpc =>
    rw [hpc] at hi
    exact ⟨hi.written, hi.queueOrder, hi.atPc⟩
  | @recv req rest hpc hqueue =>
    rw [hpc] at hi
    obtain ⟨rest', hsplit, hrest⟩ := hi.queueOrder
    refine ⟨hi.written, ⟨rest, ?_, fun _ => rfl⟩, trivial⟩
    rw [hrest trivial, hqueue] at hsplit
    simpa [WriterPc.inHand] using hsplit
  | @encodeError req e hpc hencode =>
    rw [hpc] at hi
    refine ⟨?_, hi.queueOrder.take rfl rfl trivial rfl rfl rfl, trivial⟩
    change _ = encodedFrames bc (s.taken ++ [req])
    rw [encodedFrames_append, encodedFrames_of_error hencode, List.append_nil]
    exact hi.written
  | encodeRotate hpc hencode =>
    rw [hpc] at hi
    exact ⟨hi.written, hi.queueOrder, hencode⟩
  | encodeWrite hpc hencode hroom =>
    rw [hpc] at hi
    exact ⟨hi.written, hi.queueOrder, hencode, hroom⟩
  | rotateFlushError hpc hflush =>
    rw [hpc] at hi
    exact .fail (SegmentWriter.records_of_flush hflush ▸ hi.written) hi.queueOrder
  | rotateFlush hpc hflush =>
    rw [hpc] at hi
    exact ⟨SegmentWriter.records_of_flush hflush ▸ hi.written, hi.queueOrder,
      hi.atPc, SegmentWriter.buf_of_flush_ok hflush⟩
  | rotatePublish hpc =>
    rw [hpc] at hi
    exact ⟨hi.written, hi.queueOrder, hi.atPc.1, hi.atPc.2, rfl⟩
  | openNextError hpc =>
    rw [hpc] at hi
    exact .fail hi.written hi.queueOrder
  | openNext hpc =>
    rw [hpc] at hi
    exact ⟨hi.written, hi.queueOrder, hi.atPc.1, .inl rfl⟩
  | writeError hpc hwrite =>
    rw [hpc] at hi
    obtain ⟨b, -, rfl⟩ := SegmentWriter.writeAll_error_eq hwrite
    exact .fail hi.written hi.queueOrder
  | @write req frame ff wf w hpc hwrite =>
    rw [hpc] at hi
    refine ⟨?_, hi.queueOrder.take rfl rfl trivial rfl rfl rfl, trivial⟩
    obtain ⟨b, -, rfl⟩ := SegmentWriter.writeAll_ok_eq hwrite
    change List.map _ (s.records ++ [_]) = encodedFrames bc (s.taken ++ [req])
    rw [encodedFrames_append, encodedFrames_of_ok hi.atPc.1, List.map_append, hi.written]
    rfl
  | finalNotify hpc | dropNotify hpc | dropRx hpc | dropWriter hpc | dropWriterFlush hpc =>
    rw [hpc] at hi
    exact ⟨hi.written, hi.queueOrder.drop rfl rfl rfl id, trivial⟩

/-- The layout is kept as long as the rotations go up. -/
lemma Inv.layout_of_step (hi : Inv bc segmentBytes base start s.pc s) (hl : s.Ascends l)
    (h : step bc segmentBytes s l = some s') (hrun : s'.pc.Running) :
    Layout base start segmentBytes s'.toSegmentWriter s'.head := by
  cases WriterRule.of_step h with
  | send | dropSenders => exact hi.layout hrun
  | deadlineFlush hpc | deadlineRecv hpc | periodicNotify hpc | periodicAck hpc | recv hpc
  | timeout hpc | disconnected hpc | encodeError hpc | encodeRotate hpc | encodeWrite hpc
  | rotateNotify hpc | rotateAck hpc | finalAck hpc =>
    rw [hpc] at hi
    exact hi.layout trivial
  | periodicFlushError hpc hflush | periodicFlush hpc hflush | rotateFlush hpc hflush
  | finalFlushError hpc hflush | finalFlush hpc hflush =>
    rw [hpc] at hi
    exact (hi.layout trivial).flush hflush
  | periodicPublish hpc | finalPublish hpc =>
    rw [hpc] at hi
    exact (hi.layout trivial).publish hi.atPc
  | rotatePublish hpc =>
    rw [hpc] at hi
    exact (hi.layout trivial).publish hi.atPc.2
  | openNext hpc =>
    rw [hpc] at hi
    exact (hi.layout trivial).openNext hl hi.atPc.2.1
  | write hpc hwrite =>
    rw [hpc] at hi
    exact (hi.layout trivial).writeAll hi.atPc.2 hwrite
  | rotateFlushError | openNextError | writeError | finalNotify | dropNotify | dropRx | dropWriter
  | dropWriterFlush => exact hrun.elim

lemma Inv.step (hi : Inv bc segmentBytes base start s.pc s) (hl : s.Ascends l)
    (h : step bc segmentBytes s l = some s') : Inv bc segmentBytes base start s'.pc s' :=
  ⟨hi.toBooks.step h, hi.layout_of_step hl h⟩

lemma Inv.reachable (hlast : ∀ id ∈ base, id ≤ start.segmentId)
    (hlen : (base.content start.segmentId).length = start.byteOffset)
    (h : Reach (Writer.step bc segmentBytes) Ascends (Writer.spawn base start) s) :
    Inv bc segmentBytes base start s.pc s :=
  h.invariant (P := fun s => Inv bc segmentBytes base start s.pc s) (.spawn hlast hlen)
    fun _ _ _ hi hl => hi.step hl

lemma Books.reachable (h : Reachable (Writer.step bc segmentBytes) (Writer.spawn base start) s) :
    Books bc segmentBytes s.pc s :=
  h.invariant (P := fun s => Books bc segmentBytes s.pc s) .spawn fun _ _ _ hi _ => hi.step

/-! ### Growth -/

/-- Whatever fails, a step only appends to the files. -/
lemma content_of_step (h : Writer.step bc segmentBytes s l = some s') (id : ℕ) :
    s.segments.content id <+: s'.segments.content id := by
  cases WriterRule.of_step h with
  | periodicFlushError _ hflush | periodicFlush _ hflush | rotateFlushError _ hflush
  | rotateFlush _ hflush | finalFlushError _ hflush | finalFlush _ hflush =>
    exact SegmentWriter.content_of_flush hflush id
  | openNext => exact (Segments.content_create _ id).symm ▸ List.prefix_rfl
  | writeError _ hwrite | write _ hwrite => exact SegmentWriter.content_of_writeAll hwrite id
  | @dropWriterFlush fault =>
    have hflush : s.flush fault = ((s.flush fault).1, (s.flush fault).2) := rfl
    exact SegmentWriter.content_of_flush hflush id
  | _ => exact List.prefix_rfl

/-- Only the current segment can change. -/
lemma content_of_lt (h : step bc segmentBytes s l = some s') {id : ℕ}
    (hid : id < s.currentSegmentId) : s'.segments.content id = s.segments.content id := by
  cases WriterRule.of_step h with
  | periodicFlushError _ hflush | periodicFlush _ hflush | rotateFlushError _ hflush
  | rotateFlush _ hflush | finalFlushError _ hflush | finalFlush _ hflush =>
    obtain ⟨b, -, rfl⟩ := SegmentWriter.flush_eq hflush
    exact Segments.content_write_ne hid.ne _
  | writeError _ hwrite =>
    obtain ⟨b, -, rfl⟩ := SegmentWriter.writeAll_error_eq hwrite
    exact Segments.content_write_ne hid.ne _
  | write _ hwrite =>
    obtain ⟨b, -, rfl⟩ := SegmentWriter.writeAll_ok_eq hwrite
    exact Segments.content_write_ne hid.ne _
  | openNext => exact Segments.content_create _ id
  | dropWriterFlush => exact Segments.content_write_ne hid.ne _
  | _ => rfl

lemma records_of_step (h : Writer.step bc segmentBytes s l = some s') :
    s.records <+: s'.records := by
  cases WriterRule.of_step h with
  | periodicFlushError _ hflush | periodicFlush _ hflush | rotateFlushError _ hflush
  | rotateFlush _ hflush | finalFlushError _ hflush | finalFlush _ hflush =>
    exact (SegmentWriter.records_of_flush hflush).symm ▸ List.prefix_rfl
  | writeError _ hwrite =>
    obtain ⟨b, -, rfl⟩ := SegmentWriter.writeAll_error_eq hwrite
    exact List.prefix_rfl
  | write _ hwrite =>
    obtain ⟨b, -, rfl⟩ := SegmentWriter.writeAll_ok_eq hwrite
    exact List.prefix_append _ _
  | _ => exact List.prefix_rfl

/-- A step only appends to files and records, and never moves the head back. -/
lemma Inv.extends (hi : Inv bc segmentBytes base start s.pc s)
    (h : Writer.step bc segmentBytes s l = some s') : Extends s s' := by
  refine ⟨content_of_step h, records_of_step h, ?_⟩
  cases WriterRule.of_step h with
  | periodicPublish hpc | rotatePublish hpc | finalPublish hpc =>
    rw [hpc] at hi
    exact (hi.layout trivial).head_le
  | _ => exact le_rfl

lemma Inv.extends_reachable (hi : Inv bc segmentBytes base start s.pc s)
    (h : Reach (Writer.step bc segmentBytes) Ascends s s') : Extends s s' := by
  suffices hs : Extends s s' ∧ Inv bc segmentBytes base start s'.pc s' from hs.1
  refine h.invariant (P := fun t => Extends s t ∧ Inv bc segmentBytes base start t.pc t)
    ⟨.of_eq rfl rfl rfl, hi⟩ ?_
  rintro t a t' ⟨hext, ht⟩ hl hstep
  exact ⟨hext.trans (ht.extends hstep), ht.step hl hstep⟩

/-- The head is never ahead of the position. -/
lemma head_le_of_step (hhead : s.head ≤ s.position) (hl : s.Ascends l)
    (h : Writer.step bc segmentBytes s l = some s') :
    s.head ≤ s'.head ∧ s'.head ≤ s'.position := by
  cases WriterRule.of_step h with
  | periodicPublish | rotatePublish | finalPublish => exact ⟨hhead, le_rfl⟩
  | periodicFlushError _ hflush | periodicFlush _ hflush | rotateFlushError _ hflush
  | rotateFlush _ hflush | finalFlushError _ hflush | finalFlush _ hflush =>
    obtain ⟨b, -, rfl⟩ := SegmentWriter.flush_eq hflush
    exact ⟨le_rfl, hhead⟩
  | writeError _ hwrite =>
    obtain ⟨b, -, rfl⟩ := SegmentWriter.writeAll_error_eq hwrite
    exact ⟨le_rfl, hhead⟩
  | write _ hwrite =>
    obtain ⟨b, -, rfl⟩ := SegmentWriter.writeAll_ok_eq hwrite
    exact ⟨le_rfl, hhead.trans (WalOffset.le_iff.mpr (.inr ⟨rfl, Nat.le_add_right _ _⟩))⟩
  | openNextError | openNext =>
    refine ⟨le_rfl, hhead.trans (WalOffset.le_iff.mpr (.inl ?_))⟩
    exact (Nat.lt_succ_self _).trans_eq (Nat.mod_eq_of_lt hl).symm
  | _ => exact ⟨le_rfl, hhead⟩

/-- Behind its return the writer neither writes records nor moves the head. -/
lemma of_not_running (h : step bc segmentBytes s l = some s') (hrun : ¬ s'.pc.Running) :
    s'.records = s.records ∧ s'.head = s.head := by
  cases WriterRule.of_step h with
  | send | dropSenders => exact ⟨rfl, rfl⟩
  | rotateFlushError _ hflush =>
    obtain ⟨b, -, rfl⟩ := SegmentWriter.flush_eq hflush
    exact ⟨rfl, rfl⟩
  | writeError _ hwrite =>
    obtain ⟨b, -, rfl⟩ := SegmentWriter.writeAll_error_eq hwrite
    exact ⟨rfl, rfl⟩
  | openNextError | finalNotify | dropNotify | dropRx | dropWriter
  | dropWriterFlush => exact ⟨rfl, rfl⟩
  | _ => exact absurd trivial hrun

/-- A writer that has not returned had not done so before. -/
lemma running_before_step (h : Writer.step bc segmentBytes s l = some s') (hrun : s'.pc.Running) :
    s.pc.Running := by
  cases WriterRule.of_step h with
  | send | dropSenders => exact hrun
  | rotateFlushError | openNextError | writeError | finalNotify | dropNotify | dropRx | dropWriter
  | dropWriterFlush => exact absurd hrun id
  | deadlineFlush hpc | deadlineRecv hpc | periodicFlushError hpc | periodicFlush hpc
  | periodicPublish hpc | periodicNotify hpc | periodicAck hpc | recv hpc | timeout hpc
  | disconnected hpc | encodeError hpc | encodeRotate hpc | encodeWrite hpc | rotateFlush hpc
  | rotatePublish hpc | rotateNotify hpc | rotateAck hpc | openNext hpc | write hpc
  | finalFlushError hpc | finalFlush hpc | finalPublish hpc | finalAck hpc =>
    rw [hpc]
    trivial

/-- Once the handle is gone the writer moves no head. -/
lemma of_notifyGone (h : step bc segmentBytes s l = some s') (hgone : s.notifyAlive = false) :
    s'.notifyAlive = false ∧ s'.head = s.head := by
  cases WriterRule.of_step h with
  | send | dropSenders => exact ⟨hgone, rfl⟩
  | dropRx hpc | dropWriter hpc | dropWriterFlush hpc => exact ⟨rfl, rfl⟩
  | deadlineFlush hpc | deadlineRecv hpc | periodicFlushError hpc | periodicFlush hpc
  | periodicPublish hpc | periodicNotify hpc | periodicAck hpc | recv hpc | timeout hpc
  | disconnected hpc | encodeError hpc | encodeRotate hpc | encodeWrite hpc | rotateFlushError hpc
  | rotateFlush hpc | rotatePublish hpc | rotateNotify hpc | rotateAck hpc | openNextError hpc
  | openNext hpc | writeError hpc | write hpc | finalFlushError hpc | finalFlush hpc
  | finalPublish hpc | finalAck hpc | finalNotify hpc | dropNotify hpc =>
    simp [notifyAlive, hpc] at hgone

lemma notifications_of_step (h : step bc segmentBytes s l = some s') :
    s.notifications ≤ s'.notifications := by
  cases WriterRule.of_step h with
  | periodicNotify | rotateNotify | finalNotify => exact Nat.le_succ _
  | _ => exact le_rfl

/-! ### The set of segments -/

/-- What a step of the writer does to the set of segments. -/
structure KeepsFiles (s s' : Writer) : Prop where
  mem : ∀ id ∈ s.segments, id ∈ s'.segments
  new : ∀ id ∈ s'.segments, id ∈ s.segments ∨ id = s'.currentSegmentId
  fits : s.currentSegmentId < 2 ^ 64 → s'.currentSegmentId < 2 ^ 64

lemma KeepsFiles.of_eq (hfiles : s'.segments = s.segments)
    (hcur : s'.currentSegmentId = s.currentSegmentId) : KeepsFiles s s' :=
  ⟨fun _ h => hfiles ▸ h, fun _ h => .inl (hfiles ▸ h), fun h => hcur ▸ h⟩

lemma KeepsFiles.of_write {b : BufWriter} (hfiles : s'.segments = (s.setBufWriter b).segments)
    (hcur : s'.currentSegmentId = s.currentSegmentId) : KeepsFiles s s' where
  mem id h := hfiles ▸ SegmentWriter.mem_setBufWriter.mpr (.inr h)
  new id h := by
    rw [hfiles, SegmentWriter.mem_setBufWriter, ← hcur] at h
    exact h.symm
  fits h := hcur ▸ h

lemma keepsFiles_of_step (h : Writer.step bc segmentBytes s l = some s') : KeepsFiles s s' := by
  cases WriterRule.of_step h with
  | periodicFlushError _ hflush | periodicFlush _ hflush | rotateFlushError _ hflush
  | rotateFlush _ hflush | finalFlushError _ hflush | finalFlush _ hflush =>
    obtain ⟨b, -, rfl⟩ := SegmentWriter.flush_eq hflush
    exact .of_write (b := b) rfl rfl
  | writeError _ hwrite =>
    obtain ⟨b, -, rfl⟩ := SegmentWriter.writeAll_error_eq hwrite
    exact .of_write (b := b) rfl rfl
  | write _ hwrite =>
    obtain ⟨b, -, rfl⟩ := SegmentWriter.writeAll_ok_eq hwrite
    exact .of_write (b := b) rfl rfl
  | openNextError =>
    exact ⟨fun _ h => h, fun _ h => .inl h, fun _ => Nat.mod_lt _ (Nat.two_pow_pos 64)⟩
  | openNext =>
    refine ⟨fun _ h => Segments.mem_create.mpr (.inr h), fun _ h => ?_,
      fun _ => Nat.mod_lt _ (Nat.two_pow_pos 64)⟩
    exact (Segments.mem_create.mp h).symm
  | @dropWriterFlush fault =>
    exact .of_write (b := (s.bufWriter.flush fault).2) rfl rfl
  | _ => exact .of_eq rfl rfl

/-- The segment ids go up. -/
lemma currentSegmentId_of_step (hl : s.Ascends l) (h : Writer.step bc segmentBytes s l = some s') :
    s.currentSegmentId ≤ s'.currentSegmentId := by
  cases WriterRule.of_step h with
  | periodicFlushError _ hflush | periodicFlush _ hflush | rotateFlushError _ hflush
  | rotateFlush _ hflush | finalFlushError _ hflush | finalFlush _ hflush =>
    obtain ⟨b, -, rfl⟩ := SegmentWriter.flush_eq hflush
    exact le_rfl
  | writeError _ hwrite =>
    obtain ⟨b, -, rfl⟩ := SegmentWriter.writeAll_error_eq hwrite
    exact le_rfl
  | write _ hwrite =>
    obtain ⟨b, -, rfl⟩ := SegmentWriter.writeAll_ok_eq hwrite
    exact le_rfl
  | openNextError | openNext =>
    exact (Nat.le_succ _).trans (Nat.mod_eq_of_lt hl).ge
  | _ => exact le_rfl

/-- Behind the last segment id there is comes segment 0. -/
lemma currentSegmentId_of_not_ascends (hl : ¬ s.Ascends l) (hlt : s.currentSegmentId < 2 ^ 64)
    (h : Writer.step bc segmentBytes s l = some s') : s'.currentSegmentId = 0 := by
  cases WriterRule.of_step h with
  | openNextError | openNext =>
    have hlast : s.currentSegmentId + 1 = 2 ^ 64 := le_antisymm hlt (not_lt.mp hl)
    show (s.currentSegmentId + 1) % 2 ^ 64 = 0
    rw [hlast, Nat.mod_self]
  | _ => exact absurd trivial hl

/-! ### The layout of the log -/

lemma encodedFrames_flatMap (hi : Books bc segmentBytes s.pc s) :
    s.records.flatMap Record.frame = (encodedFrames bc s.taken).flatMap Prod.snd := by
  rw [← hi.written, List.flatMap_map]

lemma encoded_of_mem_records (hi : Books bc segmentBytes s.pc s) {r : Record}
    (hr : r ∈ s.records) : r.request ∈ s.taken ∧ encodeInto bc r.request.event = .ok r.frame := by
  have hmem : (r.request, r.frame) ∈ encodedFrames bc s.taken := by
    rw [← hi.written]
    exact List.mem_map.mpr ⟨r, hr, rfl⟩
  simp only [encodedFrames, List.mem_filterMap, Option.map_eq_some_iff, Prod.mk.injEq] at hmem
  obtain ⟨req, htaken, frame, henc, rfl, rfl⟩ := hmem
  refine ⟨htaken, ?_⟩
  cases h : encodeInto bc r.request.event with
  | error e =>
    rw [h] at henc
    cases henc
  | ok frame =>
    rw [h] at henc
    cases henc
    rfl

/-- In the runs whose rotations go up: before `writer_loop` returns, the added and the buffered bytes
are the frames of the requests it has dealt with, in the order they were sent; the segments are
consecutive and, where the writer started them, bounded; the head only moves forward, to frame
boundaries that are in the files. -/
theorem layout_of_reach (hlast : ∀ id ∈ base, id ≤ start.segmentId)
    (hlen : (base.content start.segmentId).length = start.byteOffset)
    (h : Reach (Writer.step bc segmentBytes) Ascends (Writer.spawn base start) s)
    (hrun : s.pc.Running) :
    addedBytes base s.segments ++ s.buf = (encodedFrames bc s.taken).flatMap Prod.snd ∧
    s.taken ++ s.pc.inHand ++ s.queue = s.sent ∧
    (∀ id, id ∈ s.segments ↔ id ∈ base ∨ start.segmentId ≤ id ∧ id ≤ s.currentSegmentId) ∧
    (∀ s', Reach (Writer.step bc segmentBytes) Ascends s s' → s.head ≤ s'.head) ∧
    FrameBoundary start s.toSegmentWriter s.head ∧
    s.head.byteOffset ≤ (s.segments.content s.head.segmentId).length ∧
    (∀ id, start.segmentId ≤ id → id ≤ s.currentSegmentId → startIn start id = 0 →
      (s.bytes id).length ≤ segmentBytes ∨
        ∃ req ∈ s.taken, encodeInto bc req.event = .ok (s.bytes id)) ∧
    -- any other rotation goes back
    ∀ l s', Writer.step bc segmentBytes s l = some s' → ¬ s.Ascends l →
      s.currentSegmentId < 2 ^ 64 → s'.currentSegmentId = 0 := by
  have hi := Inv.reachable hlast hlen h
  have hl := hi.layout hrun
  obtain ⟨rest, hsplit, hrest⟩ := hi.queueOrder
  refine ⟨?_, hrest hrun ▸ hsplit, hl.mem_segments, fun s' hs' => (hi.extends_reachable hs').head,
    hl.head_boundary, hl.head_visible, fun id h₁ h₂ h₃ => ?_, fun l s' hstep hback hlt => ?_⟩
  · rw [hl.added, encodedFrames_flatMap hi.toBooks]
  · rcases hl.size id h₁ h₂ h₃ with hsize | ⟨r, hr, -, -, hbytes⟩
    · exact .inl hsize
    · obtain ⟨htaken, henc⟩ := encoded_of_mem_records hi.toBooks hr
      exact .inr ⟨_, htaken, hbytes ▸ henc⟩
  · exact currentSegmentId_of_not_ascends hback hlt hstep

/-- Two appends of an event that fills a segment alone, with the rotation between them. -/
def twoAppends : List WriterLabel :=
  [.send ⟨⟨"a", 1, "\x7b\x7d"⟩, none⟩, .send ⟨⟨"a", 2, "\x7b\x7d"⟩, none⟩,
    .deadline true, .recv, .step, .write none none,
    .deadline false, .recv, .step, .flush none, .step, .step, .step, .openNext none,
    .write none none]

theorem layout_of_twoAppends :
    ∃ s, exec (Writer.step Bincode.fixint 30) (Writer.spawn ∅ ⟨1, 0⟩) twoAppends = some s ∧
      s.currentSegmentId = 2 ∧
      addedBytes ∅ s.segments ++ s.buf =
        (encodedFrames Bincode.fixint s.taken).flatMap Prod.snd := by
  obtain ⟨s, hs, hseg, hrun⟩ : ∃ s : Writer,
      exec (Writer.step Bincode.fixint 30) (Writer.spawn ∅ ⟨1, 0⟩) twoAppends = some s ∧
        s.currentSegmentId = 2 ∧ s.pc.Running := ⟨_, rfl, rfl, trivial⟩
  have hguard : Always (Writer.step Bincode.fixint 30) Ascends (Writer.spawn ∅ ⟨1, 0⟩)
      twoAppends := by decide
  exact ⟨s, hs, hseg, (layout_of_reach (by simp) rfl (Reach.of_exec hguard hs) hrun).1⟩

/-- The same in the last segment there is: the head is published there, and behind the rotation once
more in segment 0. -/
theorem head_back_of_twoAppends :
    ∃ s s', exec (Writer.step Bincode.fixint 30) (Writer.spawn ∅ ⟨2 ^ 64 - 1, 0⟩) twoAppends =
        some s ∧
      exec (Writer.step Bincode.fixint 30) (Writer.spawn ∅ ⟨2 ^ 64 - 1, 0⟩)
        (twoAppends ++ [.deadline true, .flush none, .step]) = some s' ∧
      s.pc.Running ∧ s'.pc.Running ∧
      s.head = ⟨2 ^ 64 - 1, 31⟩ ∧ s'.head = ⟨0, 31⟩ ∧ ¬ s.head ≤ s'.head ∧
      2 ^ 64 - 1 ∈ s'.segments ∧ 0 ∈ s'.segments ∧ 1 ∉ s'.segments :=
  ⟨_, _, rfl, rfl, trivial, trivial, rfl, rfl, by decide, by decide, by decide, by decide⟩

end Writer

end SmarthomeIngest
