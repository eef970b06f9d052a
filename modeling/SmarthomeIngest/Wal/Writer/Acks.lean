import SmarthomeIngest.Wal.Writer.Invariant

/-!
# Durable acknowledgements

Every ack asked for is in one place at a time: answered, pending, with the request in hand, or with
a request in the queue. Counting the places shows that no ack is lost and none is answered twice;
the points of the loop that answer `Ok` come behind a flush and the publication of the head. The
head is where the writer counts itself to be: that is the end of the file, unless a rotation out of
the last segment id there is has come upon a file that holds bytes already.
-/

namespace SmarthomeIngest

open Transition

namespace Writer

variable {bc : Bincode} {segmentBytes : ℕ} {base : Segments} {start : WalOffset}
  {s s' : Writer} {l : WriterLabel}

/-! ### Accounting -/

/-- What is left to answer at a point of the loop. -/
def Settled : WriterPc → Writer → Prop
  | .periodicPublish, _ | .periodicNotify, _ | .periodicAck, _ => True
  | .openNext .., s | .finalNotify, s | .dropNotify, s | .dropRx, s => s.pendingDurableAcks = []
  | .dropWriter, s | .exited, s => s.pendingDurableAcks = [] ∧ s.queue = []
  | _, s => s.dirty = false → s.pendingDurableAcks = []

/-- How often an ack occurs: answered, pending, in hand, queued. -/
def occurrences (pc : WriterPc) (s : Writer) (id : ℕ) : ℕ :=
  (s.acks.map Prod.fst).count id + s.pendingDurableAcks.count id + (ackIds pc.inHand).count id +
    (ackIds s.queue).count id

/-- Every ack asked for occurs once, and was asked for once. -/
structure Accounted (pc : WriterPc) (s : Writer) : Prop where
  occurrences_eq : ∀ id, occurrences pc s id = (ackIds s.sent).count id
  sent_nodup : ∀ id, (ackIds s.sent).count id ≤ 1
  settled : Settled pc s

@[simp] lemma ackIds_nil : ackIds [] = [] := rfl

lemma ackIds_cons (req : WriteRequest) (reqs : List WriteRequest) :
    ackIds (req :: reqs) = req.durableAck.toList ++ ackIds reqs := by
  cases h : req.durableAck <;> simp [ackIds, h]

lemma ackIds_append (xs ys : List WriteRequest) : ackIds (xs ++ ys) = ackIds xs ++ ackIds ys :=
  List.filterMap_append

@[simp] lemma map_fst_sendAcks (s : Writer) (ids : List ℕ) (r : AckResult) :
    (s.sendAcks ids r).acks.map Prod.fst = s.acks.map Prod.fst ++ ids := by
  simp [sendAcks, Function.comp_def]

lemma Accounted.spawn : Accounted .loopTop (spawn base start) where
  occurrences_eq _ := rfl
  sent_nodup _ := Nat.zero_le _
  settled _ := rfl

/-- A step of the thread moves acks from place to place. -/
lemma Accounted.move {pc pc' : WriterPc} (ha : Accounted pc s) (hsent : s'.sent = s.sent)
    (hocc : ∀ id, occurrences pc' s' id = occurrences pc s id) (hs : Settled pc' s') :
    Accounted pc' s' where
  occurrences_eq id := by rw [hocc, ha.occurrences_eq, hsent]
  sent_nodup := hsent ▸ ha.sent_nodup
  settled := hs

lemma occurrences_inHand {pc : WriterPc} {req : WriteRequest} (hpc : pc.inHand = [req]) (id : ℕ) :
    occurrences pc s id = (s.acks.map Prod.fst).count id + s.pendingDurableAcks.count id +
      req.durableAck.toList.count id + (ackIds s.queue).count id := by
  rw [occurrences, hpc, ackIds_cons, ackIds_nil, List.append_nil]

lemma occurrences_nothingInHand {pc : WriterPc} (hpc : pc.inHand = []) (id : ℕ) :
    occurrences pc s id = (s.acks.map Prod.fst).count id + s.pendingDurableAcks.count id +
      (ackIds s.queue).count id := by
  rw [occurrences, hpc, ackIds_nil, List.count_nil, Nat.add_zero]

/-- The turn of the request in hand is over: its ack is answered or pending. -/
lemma occurrences_done {pc pc' : WriterPc} {req : WriteRequest} (hpc : pc.inHand = [req])
    (hpc' : pc'.inHand = [])
    (hacks : ∀ id, (s'.acks.map Prod.fst).count id + s'.pendingDurableAcks.count id =
      (s.acks.map Prod.fst).count id + s.pendingDurableAcks.count id +
        req.durableAck.toList.count id)
    (hqueue : s'.queue = s.queue) (id : ℕ) : occurrences pc' s' id = occurrences pc s id := by
  rw [occurrences_inHand hpc, occurrences_nothingInHand hpc', hacks, hqueue]

/-- The pending acks are answered. -/
lemma occurrences_answer {pc pc' : WriterPc} (hpc : pc'.inHand = pc.inHand)
    (hacks : s'.acks.map Prod.fst = s.acks.map Prod.fst ++ s.pendingDurableAcks)
    (hpending : s'.pendingDurableAcks = []) (hqueue : s'.queue = s.queue) (id : ℕ) :
    occurrences pc' s' id = occurrences pc s id := by
  simp [occurrences, hpc, hacks, hpending, hqueue]

/-- A request that fails takes the pending acks with it. -/
lemma Accounted.fail {pc : WriterPc} {req : WriteRequest} {reason : String}
    {why : WriterFatalReason} (ha : Accounted pc s) (hpc : pc.inHand = [req]) :
    Accounted .dropNotify (s.fail req reason why) := by
  refine ha.move rfl (fun id => ?_) rfl
  rw [occurrences_inHand hpc, occurrences_nothingInHand rfl]
  simp [Writer.fail, failPendingDurableAcks, sendAcks, Function.comp_def]
  omega

lemma Accounted.send {req : WriteRequest} (ha : Accounted s.pc s)
    (halive : s.receiverAlive) (hfresh : ∀ id ∈ req.durableAck, id ∉ ackIds s.sent) :
    Accounted s.pc { s with queue := s.queue ++ [req], sent := s.sent ++ [req] } where
  occurrences_eq id := by
    have := ha.occurrences_eq id
    simp only [occurrences] at this ⊢
    simp only [ackIds_append, List.count_append]
    omega
  sent_nodup id := by
    have hle := ha.sent_nodup id
    rw [ackIds_append, List.count_append, ackIds_cons, ackIds_nil, List.append_nil]
    cases hack : req.durableAck with
    | none => simpa using hle
    | some id' =>
      have hnew := List.count_eq_zero.mpr (hfresh id' (by simp [hack]))
      by_cases hid : id' = id
      · subst hid
        simp [hnew]
      · simpa [hid] using hle
  settled := by
    have hs := ha.settled
    rw [receiverAlive] at halive
    -- only the points without receiver promise anything of the queue
    cases hpc : s.pc <;> rw [hpc] at hs halive <;> first | exact hs | cases halive

lemma Accounted.step (ha : Accounted s.pc s) (h : step bc segmentBytes s l = some s') :
    Accounted s'.pc s' := by
  cases WriterRule.of_step h with
  | send halive hfresh => exact ha.send halive hfresh
  | dropSenders =>
    refine ha.move rfl (fun _ => rfl) ?_
    have hs := ha.settled
    cases hpc : s.pc <;> rw [hpc] at hs <;> exact hs
  | deadlineFlush hpc | deadlineRecv hpc | periodicFlushError hpc | timeout hpc
  | disconnected hpc | encodeRotate hpc | encodeWrite hpc | rotateFlush hpc | rotatePublish hpc
  | rotateNotify hpc | finalFlush hpc | finalPublish hpc | finalNotify hpc | dropNotify hpc
  | dropWriter hpc | dropWriterFlush hpc =>
    rw [hpc] at ha
    exact ha.move rfl (fun _ => rfl) ha.settled
  | periodicFlush hpc | periodicPublish hpc | periodicNotify hpc =>
    rw [hpc] at ha
    exact ha.move rfl (fun _ => rfl) trivial
  | periodicAck hpc =>
    rw [hpc] at ha
    exact ha.move rfl (occurrences_answer rfl (map_fst_sendAcks _ _ _) rfl rfl) fun _ => rfl
  | rotateAck hpc | finalFlushError hpc | finalAck hpc =>
    rw [hpc] at ha
    exact ha.move rfl (occurrences_answer rfl (map_fst_sendAcks _ _ _) rfl rfl) rfl
  | recv hpc hqueue =>
    rw [hpc] at ha
    refine ha.move rfl (fun id => ?_) ha.settled
    rw [occurrences_inHand rfl, occurrences_nothingInHand rfl, hqueue, ackIds_cons,
      List.count_append, Nat.add_assoc _ (List.count _ _)]
  | encodeError hpc =>
    rw [hpc] at ha
    refine ha.move rfl (occurrences_done rfl rfl (fun id => ?_) rfl) ha.settled
    simp [sendAcks, Function.comp_def, Nat.add_right_comm]
  | @rotateFlushError req frame fault e w hpc =>
    rw [hpc] at ha
    have ha' : Accounted (.rotateFlush req frame) { s with toSegmentWriter := w } :=
      ha.move rfl (fun _ => rfl) ha.settled
    exact ha'.fail rfl
  | @openNextError req frame e hpc =>
    rw [hpc] at ha
    have ha' : Accounted (.openNext req frame) { s with toSegmentWriter := s.advance } :=
      ha.move rfl (fun _ => rfl) ha.settled
    exact ha'.fail rfl
  | openNext hpc =>
    rw [hpc] at ha
    exact ha.move rfl (fun _ => rfl) fun _ => ha.settled
  | @writeError req frame ff wf e w hpc =>
    rw [hpc] at ha
    have ha' : Accounted (.writeAll req frame) { s with toSegmentWriter := w } :=
      ha.move rfl (fun _ => rfl) ha.settled
    exact ha'.fail rfl
  | write hpc =>
    rw [hpc] at ha
    refine ha.move rfl (occurrences_done rfl rfl (fun id => ?_) rfl) nofun
    simp [Nat.add_assoc]
  | dropRx hpc =>
    rw [hpc] at ha
    refine ha.move rfl (fun id => ?_) ⟨ha.settled, rfl⟩
    rw [occurrences_nothingInHand rfl, occurrences_nothingInHand rfl]
    simp [sendAcks, Function.comp_def]
    omega

/-! ### Soundness of `Ok` -/

/-- A rotation opens a file without bytes. -/
def OpensEmpty (s : Writer) : WriterLabel → Prop
  | .openNext none => s.segments.content ((s.currentSegmentId + 1) % 2 ^ 64) = []
  | _ => True

/-- The frame of the request that asked for the ack is in its file. -/
def Written (s : Writer) (id : ℕ) (r : Record) : Prop :=
  r ∈ s.records ∧ r.request.durableAck = some id ∧ r.In (s.segments.content r.segmentId)

/-- Where the records are, pending acks those of the current segment, and what `Ok` stands for. -/
structure AcksSound (s : Writer) : Prop where
  inBytes : s.pc.Running → ∀ r ∈ s.records, r.In (s.bytes r.segmentId)
  pending : ∀ id ∈ s.pendingDurableAcks, ∃ r ∈ s.records,
    r.request.durableAck = some id ∧ r.segmentId = s.currentSegmentId
  acked : ∀ id, (id, .ok) ∈ s.acks → ∃ r, s.Written id r

/-- What the `BufWriter` was handed is as long as the writer has counted. -/
def Counted (s : Writer) : Prop :=
  s.pc.Running → s.bufWriter.contents.length = s.currentByteOffset

lemma Written.step {id : ℕ} {r : Record} (hr : s.Written id r)
    (h : Writer.step bc segmentBytes s l = some s') : s'.Written id r :=
  ⟨(records_of_step h).subset hr.1, hr.2.1, hr.2.2.mono (content_of_step h _)⟩

/-- The steps that write: what was in the bytes of a segment stays, and the record of the frame in
hand gets there. -/
lemma inBytes_of_step (hb : Books bc segmentBytes s.pc s)
    (hin : s.pc.Running → ∀ r ∈ s.records, r.In (s.bytes r.segmentId))
    (h : Writer.step bc segmentBytes s l = some s') (hrun : s'.pc.Running) :
    ∀ r ∈ s'.records, r.In (s'.bytes r.segmentId) := by
  cases WriterRule.of_step h with
  | send | dropSenders => exact hin hrun
  | deadlineFlush hpc | deadlineRecv hpc | periodicPublish hpc | periodicNotify hpc
  | periodicAck hpc | recv hpc | timeout hpc | disconnected hpc | encodeError hpc
  | encodeRotate hpc | encodeWrite hpc | rotatePublish hpc | rotateNotify hpc | rotateAck hpc
  | finalPublish hpc | finalAck hpc =>
    rw [hpc] at hin
    exact hin trivial
  | periodicFlushError hpc hflush | periodicFlush hpc hflush | rotateFlush hpc hflush
  | finalFlushError hpc hflush | finalFlush hpc hflush =>
    rw [hpc] at hin
    obtain ⟨b, hb, rfl⟩ := SegmentWriter.flush_eq hflush
    have hbytes := SegmentWriter.bytes_setBufWriter (w := s.toSegmentWriter) (b := b) []
      (by rw [List.append_nil, BufWriter.contents_of_flush hb])
    intro r hr
    have hr' := hin trivial r hr
    change r.In ((s.setBufWriter b).bytes r.segmentId)
    rw [hbytes]
    exact hr'.mono (List.prefix_append _ _)
  | openNext hpc =>
    -- nothing is buffered for the segment that is left
    rw [hpc] at hin hb
    intro r hr
    have hr' := hin trivial r hr
    rw [SegmentWriter.bytes_of_buf_nil hb.atPc.2.1] at hr'
    change r.In (s.advance.createCurrent.bytes r.segmentId)
    rw [SegmentWriter.bytes_of_buf_nil rfl]
    change r.In ((s.segments.create _).content _)
    rwa [Segments.content_create]
  | @write req frame ff wf w hpc hwrite =>
    rw [hpc] at hin
    obtain ⟨b, hb, rfl⟩ := SegmentWriter.writeAll_ok_eq hwrite
    have hbytes := SegmentWriter.bytes_setBufWriter (w := s.toSegmentWriter) (b := b) frame
      (BufWriter.contents_of_writeAll_ok hb)
    intro r hr
    change r.In ((s.setBufWriter b).bytes r.segmentId)
    rw [hbytes]
    rcases List.mem_append.mp hr with hr | hr
    · exact (hin trivial r hr).mono (List.prefix_append _ _)
    · obtain rfl := List.mem_singleton.mp hr
      refine ⟨s.bytes s.currentSegmentId, congrArg List.length s.bytes_current, ?_⟩
      rw [if_pos rfl]
  | rotateFlushError | openNextError | writeError | finalNotify | dropNotify | dropRx | dropWriter
  | dropWriterFlush => exact hrun.elim

/-- What a step can do to the acks: a pending ack is an old one of the same segment or that of a
record just written, and `Ok` is sent only on pending acks, with nothing buffered and the head at the
position. -/
lemma acks_of_step (hb : Books bc segmentBytes s.pc s) (ha : Accounted s.pc s)
    (h : Writer.step bc segmentBytes s l = some s') :
    (∀ id ∈ s'.pendingDurableAcks,
      id ∈ s.pendingDurableAcks ∧ s'.currentSegmentId = s.currentSegmentId ∨
      ∃ r ∈ s'.records, r.request.durableAck = some id ∧ r.segmentId = s'.currentSegmentId) ∧
    ∀ id, (id, .ok) ∈ s'.acks → (id, .ok) ∈ s.acks ∨
      (s.pc.Running ∧ s.buf = [] ∧ s.head = s.position ∧ id ∈ s.pendingDurableAcks) ∧
        s'.head = s.head := by
  cases WriterRule.of_step h with
  | periodicAck hpc | finalAck hpc =>
    rw [hpc] at hb ⊢
    refine ⟨nofun, fun id hid => ?_⟩
    simpa [acknowledgePendingDurableOk, sendAcks, hb.atPc.1, hb.atPc.2, WriterPc.Running] using hid
  | rotateAck hpc =>
    rw [hpc] at hb ⊢
    refine ⟨nofun, fun id hid => ?_⟩
    simpa [acknowledgePendingDurableOk, sendAcks, hb.atPc.2.1, hb.atPc.2.2, WriterPc.Running]
      using hid
  | encodeError | dropRx =>
    exact ⟨fun id hid => .inl ⟨hid, rfl⟩, fun id hid => .inl (by simpa [sendAcks] using hid)⟩
  | rotateFlushError | openNextError | writeError | finalFlushError =>
    exact ⟨nofun, fun id hid => .inl
      (by simpa [Writer.fail, failPendingDurableAcks, sendAcks] using hid)⟩
  | openNext hpc =>
    -- a rotation has answered everything
    rw [hpc] at ha
    refine ⟨fun id hid => ?_, fun id hid => .inl hid⟩
    rw [ha.settled] at hid
    cases hid
  | write _ hwrite =>
    obtain ⟨b, -, rfl⟩ := SegmentWriter.writeAll_ok_eq hwrite
    refine ⟨fun id hid => ?_, fun id hid => .inl hid⟩
    rcases List.mem_append.mp hid with hid | hid
    · exact .inl ⟨hid, rfl⟩
    · exact .inr ⟨_, List.mem_append_right _ (List.mem_singleton.mpr rfl), by simpa using hid, rfl⟩
  | periodicFlushError _ hflush | periodicFlush _ hflush | rotateFlush _ hflush
  | finalFlush _ hflush =>
    obtain ⟨b, -, rfl⟩ := SegmentWriter.flush_eq hflush
    exact ⟨fun id hid => .inl ⟨hid, rfl⟩, fun id hid => .inl hid⟩
  | _ => exact ⟨fun id hid => .inl ⟨hid, rfl⟩, fun id hid => .inl hid⟩

/-- Where nothing is buffered, everything pending is written. -/
lemma AcksSound.written (hs : AcksSound s) (hrun : s.pc.Running) (hbuf : s.buf = []) {id : ℕ}
    (hid : id ∈ s.pendingDurableAcks) :
    ∃ r, s.Written id r ∧ r.segmentId = s.currentSegmentId := by
  obtain ⟨r, hr, hack, hseg⟩ := hs.pending id hid
  have hin := hs.inBytes hrun r hr
  rw [SegmentWriter.bytes_of_buf_nil hbuf] at hin
  exact ⟨r, ⟨hr, hack, hin⟩, hseg⟩

lemma AcksSound.step (hb : Books bc segmentBytes s.pc s) (ha : Accounted s.pc s)
    (hs : AcksSound s) (h : Writer.step bc segmentBytes s l = some s') : AcksSound s' := by
  obtain ⟨hpending, hacked⟩ := acks_of_step hb ha h
  constructor
  case inBytes => exact inBytes_of_step hb hs.inBytes h
  case pending =>
    intro id hid
    rcases hpending id hid with ⟨hid, hcur⟩ | hid
    · obtain ⟨r, hr, hack, hseg⟩ := hs.pending id hid
      exact ⟨r, (records_of_step h).subset hr, hack, hseg.trans hcur.symm⟩
    · exact hid
  case acked =>
    intro id hid
    rcases hacked id hid with hid | ⟨⟨hrun, hbuf, -, hid⟩, -⟩
    · obtain ⟨r, hr⟩ := hs.acked id hid
      exact ⟨r, hr.step h⟩
    · obtain ⟨r, hr, -⟩ := hs.written hrun hbuf hid
      exact ⟨r, hr.step h⟩

/-- An `Ok` that a step sends is one for a record in front of the head. -/
lemma AcksSound.le_head (hb : Books bc segmentBytes s.pc s) (ha : Accounted s.pc s)
    (hs : AcksSound s) (hcounted : s.Counted) (h : Writer.step bc segmentBytes s l = some s')
    {id : ℕ} (hid : (id, .ok) ∈ s'.acks) (hnew : (id, .ok) ∉ s.acks) :
    ∃ r, s'.Written id r ∧ r.offsetAfter ≤ s'.head := by
  obtain ⟨⟨hrun, hbuf, hhead, hid⟩, hhead'⟩ := ((acks_of_step hb ha h).2 id hid).resolve_left hnew
  obtain ⟨r, hr, hseg⟩ := hs.written hrun hbuf hid
  have hend := hr.2.2.end_le
  have hlen := hcounted hrun
  rw [BufWriter.contents, SegmentWriter.bufWriter, hbuf, List.append_nil] at hlen
  rw [hseg, hlen] at hend
  refine ⟨r, hr.step h, ?_⟩
  rw [hhead', hhead]
  exact WalOffset.le_iff.mpr (.inr ⟨hseg, hend⟩)

lemma Counted.step (hc : s.Counted) (hl : s.OpensEmpty l)
    (h : Writer.step bc segmentBytes s l = some s') : s'.Counted := by
  intro hrun
  cases WriterRule.of_step h with
  | send | dropSenders => exact hc hrun
  | deadlineFlush hpc | deadlineRecv hpc | periodicPublish hpc | periodicNotify hpc
  | periodicAck hpc | recv hpc | timeout hpc | disconnected hpc | encodeError hpc
  | encodeRotate hpc | encodeWrite hpc | rotatePublish hpc | rotateNotify hpc | rotateAck hpc
  | finalPublish hpc | finalAck hpc =>
    rw [Counted, hpc] at hc
    exact hc trivial
  | periodicFlushError hpc hflush | periodicFlush hpc hflush | rotateFlush hpc hflush
  | finalFlushError hpc hflush | finalFlush hpc hflush =>
    rw [Counted, hpc] at hc
    obtain ⟨b, hb, rfl⟩ := SegmentWriter.flush_eq hflush
    change (SegmentWriter.bufWriter (s.setBufWriter b)).contents.length = s.currentByteOffset
    rw [SegmentWriter.bufWriter_setBufWriter, BufWriter.contents_of_flush hb]
    exact hc trivial
  | openNext =>
    have hempty : s.segments.content ((s.currentSegmentId + 1) % 2 ^ 64) = [] := hl
    simpa [SegmentWriter.bufWriter, SegmentWriter.createCurrent, SegmentWriter.advance,
      BufWriter.contents] using hempty
  | write hpc hwrite =>
    rw [Counted, hpc] at hc
    obtain ⟨b, hb, rfl⟩ := SegmentWriter.writeAll_ok_eq hwrite
    change (SegmentWriter.bufWriter (s.setBufWriter b)).contents.length = _
    rw [SegmentWriter.bufWriter_setBufWriter, BufWriter.contents_of_writeAll_ok hb,
      List.length_append, hc trivial]
  | rotateFlushError | openNextError | writeError | finalNotify | dropNotify | dropRx | dropWriter
  | dropWriterFlush => exact hrun.elim

lemma Inv.counted (hi : Inv bc segmentBytes base start s.pc s) : s.Counted :=
  fun hrun => (hi.layout hrun).length_contents

/-! ### Progress -/

/-- How far a point of the loop is from the end. -/
def rank : WriterPc → ℕ
  | .encode _ => 20
  | .rotateFlush .. => 19
  | .rotatePublish .. => 18
  | .rotateNotify .. => 17
  | .rotateAck .. => 16
  | .openNext .. => 15
  | .writeAll .. => 14
  | .loopTop => 13
  | .periodicFlush => 12
  | .periodicPublish => 11
  | .periodicNotify => 10
  | .periodicAck => 9
  | .recv => 8
  | .finalFlush => 7
  | .finalPublish => 6
  | .finalAck => 5
  | .finalNotify => 4
  | .dropNotify => 3
  | .dropRx => 2
  | .dropWriter => 1
  | .exited => 0

/-- The steps the thread can still make once the senders are gone. -/
def work (s : Writer) : ℕ := 20 * s.queue.length + rank s.pc

/-- Without senders every step of the thread brings it closer to its end, whatever fails. -/
lemma work_of_step (hgone : s.sendersGone) (hl : l ≠ .dropSenders)
    (h : Writer.step bc segmentBytes s l = some s') : s'.work < s.work ∧ s'.sendersGone := by
  cases WriterRule.of_step h with
  | send _ _ hsenders | timeout _ _ hsenders =>
    rw [hsenders] at hgone
    cases hgone
  | dropSenders => contradiction
  | recv hpc hqueue =>
    simp only [work, hpc, hqueue, rank, List.length_cons]
    exact ⟨by omega, hgone⟩
  | dropRx hpc =>
    simp only [work, hpc, rank, sendAcks, List.length_nil]
    exact ⟨by omega, hgone⟩
  | periodicPublish hpc | rotatePublish hpc | finalPublish hpc =>
    simp [work, hpc, rank, hgone, publish]
  | periodicNotify hpc | rotateNotify hpc | finalNotify hpc =>
    simp [work, hpc, rank, hgone, notifyWaiters]
  | periodicAck hpc | rotateAck hpc | finalAck hpc =>
    simp [work, hpc, rank, hgone, acknowledgePendingDurableOk, sendAcks]
  | rotateFlushError hpc | openNextError hpc | writeError hpc | finalFlushError hpc =>
    simp [work, hpc, rank, hgone, Writer.fail, failPendingDurableAcks, sendAcks]
  | encodeError hpc => simp [work, hpc, rank, hgone, sendAcks]
  | deadlineFlush hpc | deadlineRecv hpc | periodicFlushError hpc | periodicFlush hpc
  | disconnected hpc | encodeRotate hpc | encodeWrite hpc | rotateFlush hpc | openNext hpc
  | write hpc | finalFlush hpc | dropNotify hpc | dropWriter hpc | dropWriterFlush hpc =>
    simp [work, hpc, rank, hgone]

/-- Until it has exited, a thread without senders can go on. -/
lemma exists_step (hgone : s.sendersGone) (hpc : s.pc ≠ .exited) :
    ∃ l s', l ≠ .dropSenders ∧ Writer.step bc segmentBytes s l = some s' := by
  suffices h : ∃ l, l ≠ WriterLabel.dropSenders ∧ (Writer.step bc segmentBytes s l).isSome by
    obtain ⟨l, hl, hs⟩ := h
    obtain ⟨s', hs'⟩ := Option.isSome_iff_exists.mp hs
    exact ⟨l, s', hl, hs'⟩
  cases h : s.pc with
  | exited => contradiction
  | loopTop => exact ⟨.deadline false, nofun, by simp [Writer.step, h]⟩
  | recv =>
    cases hq : s.queue with
    | nil => exact ⟨.disconnected, nofun, by simp [Writer.step, h, hq, hgone]⟩
    | cons req rest => exact ⟨.recv, nofun, by simp [Writer.step, h, hq]⟩
  | encode req =>
    refine ⟨.step, nofun, ?_⟩
    simp only [Writer.step, h]
    split <;> rfl
  | openNext req frame =>
    refine ⟨.openNext none, nofun, ?_⟩
    simp only [Writer.step, h]
    rfl
  | writeAll req frame =>
    refine ⟨.write none none, nofun, ?_⟩
    simp only [Writer.step, h]
    split <;> rfl
  | periodicFlush | rotateFlush | finalFlush =>
    refine ⟨.flush none, nofun, ?_⟩
    simp only [Writer.step, h]
    split <;> rfl
  | dropWriter =>
    refine ⟨.flush none, nofun, ?_⟩
    simp only [Writer.step, h]
    split_ifs <;> rfl
  | _ => exact ⟨.step, nofun, by simp [Writer.step, h]⟩

/-- The steps of the thread after the senders are gone are bounded. -/
lemma length_le_work {ls : List WriterLabel} (hgone : s.sendersGone)
    (hls : ∀ l ∈ ls, l ≠ .dropSenders)
    (h : exec (Writer.step bc segmentBytes) s ls = some s') :
    ls.length ≤ s.work ∧ s'.sendersGone := by
  induction ls generalizing s with
  | nil =>
    cases h
    exact ⟨Nat.zero_le _, hgone⟩
  | cons l ls ih =>
    obtain ⟨t, ht, h⟩ := Option.bind_eq_some_iff.mp h
    obtain ⟨hwork, hgone'⟩ := work_of_step hgone (hls l List.mem_cons_self) ht
    obtain ⟨hlen, hs'⟩ := ih hgone' (fun l' hl' => hls l' (List.mem_cons_of_mem _ hl')) h
    rw [List.length_cons]
    exact ⟨by omega, hs'⟩

/-! ### Exactly one outcome -/

lemma Accounted.reachable
    (h : Reachable (Writer.step bc segmentBytes) (Writer.spawn base start) s) :
    Accounted s.pc s :=
  h.invariant (P := fun s => Accounted s.pc s) .spawn fun _ _ _ ha _ => ha.step

lemma AcksSound.spawn : AcksSound (spawn base start) :=
  ⟨fun _ _ hr => absurd hr List.not_mem_nil, fun _ hid => absurd hid List.not_mem_nil,
    fun _ hid => absurd hid List.not_mem_nil⟩

lemma AcksSound.reachable
    (h : Reachable (Writer.step bc segmentBytes) (Writer.spawn base start) s) : AcksSound s := by
  suffices hs : AcksSound s ∧ Books bc segmentBytes s.pc s ∧ Accounted s.pc s from hs.1
  refine h.invariant (P := fun s => AcksSound s ∧ Books bc segmentBytes s.pc s ∧ Accounted s.pc s)
    ⟨.spawn, .spawn, .spawn⟩ ?_
  rintro t a t' ⟨hs, hb, ha⟩ - hstep
  exact ⟨hs.step hb ha hstep, hb.step hstep, ha.step hstep⟩

lemma Counted.reach (hlen : (base.content start.segmentId).length = start.byteOffset)
    (h : Reach (Writer.step bc segmentBytes) OpensEmpty (Writer.spawn base start) s) :
    s.Counted := by
  refine h.invariant (P := Counted) (fun _ => ?_) fun _ _ _ hc hl hstep => hc.step hl hstep
  simp [Writer.spawn, SegmentWriter.bufWriter, BufWriter.contents, hlen]

/-- Where the rotations go up, the head stays behind what has been answered `Ok`. -/
lemma acked_le_head (hlast : ∀ id ∈ base, id ≤ start.segmentId)
    (hlen : (base.content start.segmentId).length = start.byteOffset)
    (h : Reach (Writer.step bc segmentBytes) Ascends (Writer.spawn base start) s) :
    ∀ id, (id, .ok) ∈ s.acks → ∃ r, s.Written id r ∧ r.offsetAfter ≤ s.head := by
  suffices hs : (∀ id, (id, .ok) ∈ s.acks → ∃ r, s.Written id r ∧ r.offsetAfter ≤ s.head) ∧
      Inv bc segmentBytes base start s.pc s ∧ Accounted s.pc s ∧ AcksSound s from hs.1
  refine h.invariant (P := fun s =>
      (∀ id, (id, .ok) ∈ s.acks → ∃ r, s.Written id r ∧ r.offsetAfter ≤ s.head) ∧
        Inv bc segmentBytes base start s.pc s ∧ Accounted s.pc s ∧ AcksSound s)
    ⟨fun _ hid => absurd hid List.not_mem_nil, .spawn hlast hlen, .spawn, .spawn⟩ ?_
  rintro t l t' ⟨hle, hi, ha, hs⟩ hl hstep
  refine ⟨fun id hid => ?_, hi.step hl hstep, ha.step hstep, hs.step hi.toBooks ha hstep⟩
  by_cases hold : (id, .ok) ∈ t.acks
  · obtain ⟨r, hr, hhead⟩ := hle id hold
    exact ⟨r, hr.step hstep, hhead.trans (hi.extends hstep).head⟩
  · exact hs.le_head hi.toBooks ha hi.counted hstep hid hold

/-- With nothing pending, in hand or queued, every ack asked for has been answered. -/
lemma Accounted.answered {pc : WriterPc} (ha : Accounted pc s) (hpc : pc.inHand = [])
    (hpending : s.pendingDurableAcks = []) (hqueue : s.queue = []) {id : ℕ}
    (hid : id ∈ ackIds s.sent) : (s.acks.map Prod.fst).count id = 1 := by
  have hocc := ha.occurrences_eq id
  have hpos : 0 < (ackIds s.sent).count id := List.count_pos_iff.mpr hid
  have hle := ha.sent_nodup id
  rw [occurrences_nothingInHand hpc, hpending, hqueue, List.count_nil, ackIds_nil,
    List.count_nil] at hocc
  omega

/-- Every ack is answered at most once. `Ok` means that the frame of its event is in its file. Once
the thread has exited, or waits with nothing unflushed, every ack asked for has been answered; and
without senders it exits after a bounded number of steps. In the runs in which every rotation opens
a file without bytes, the head is behind the frame when `Ok` is sent, and where the rotations go up
it stays there. -/
theorem acks_of_reachable (hlast : ∀ id ∈ base, id ≤ start.segmentId)
    (hlen : (base.content start.segmentId).length = start.byteOffset)
    (h : Reachable (Writer.step bc segmentBytes) (Writer.spawn base start) s) :
    (∀ id, (s.acks.map Prod.fst).count id ≤ 1 ∧
      (id ∈ s.acks.map Prod.fst → id ∈ ackIds s.sent)) ∧
    (∀ id, (id, .ok) ∈ s.acks → ∃ r, s.Written id r ∧ r.request ∈ s.sent ∧
      encodeInto bc r.request.event = .ok r.frame) ∧
    (s.pc = .exited ∨ s.pc = .recv ∧ s.dirty = false ∧ s.queue = [] →
      ∀ id ∈ ackIds s.sent, (s.acks.map Prod.fst).count id = 1) ∧
    (s.sendersGone → ∀ ls s', exec (Writer.step bc segmentBytes) s ls = some s' →
      (∀ l ∈ ls, l ≠ .dropSenders) → ls.length ≤ s.work ∧
        (s'.pc = .exited ∨ ∃ l s'', l ≠ .dropSenders ∧
          Writer.step bc segmentBytes s' l = some s'')) ∧
    (Reach (Writer.step bc segmentBytes) OpensEmpty (Writer.spawn base start) s →
      ∀ l s' id, Writer.step bc segmentBytes s l = some s' → (id, .ok) ∈ s'.acks →
        (id, .ok) ∉ s.acks → ∃ r, s'.Written id r ∧ r.offsetAfter ≤ s'.head) ∧
    (Reach (Writer.step bc segmentBytes) Ascends (Writer.spawn base start) s →
      ∀ id, (id, .ok) ∈ s.acks → ∃ r, s.Written id r ∧ r.offsetAfter ≤ s.head) := by
  have ha := Accounted.reachable h
  have hb := Books.reachable h
  have hs := AcksSound.reachable h
  refine ⟨fun id => ?_, fun id hid => ?_, ?_, fun hgone ls s' hexec hls => ?_,
    fun hempty l s' id hstep => hs.le_head hb ha (.reach hlen hempty) hstep,
    acked_le_head hlast hlen⟩
  · have hocc := ha.occurrences_eq id
    have hle := ha.sent_nodup id
    rw [occurrences] at hocc
    refine ⟨by omega, fun hid => List.count_pos_iff.mp ?_⟩
    have := List.count_pos_iff.mpr hid
    omega
  · obtain ⟨r, hr⟩ := hs.acked id hid
    obtain ⟨htaken, henc⟩ := encoded_of_mem_records hb hr.1
    obtain ⟨rest, hsplit, -⟩ := hb.queueOrder
    have hsent : r.request ∈ s.sent := by
      rw [← hsplit]
      exact List.mem_append_left _ (List.mem_append_left _ htaken)
    exact ⟨r, hr, hsent, henc⟩
  · have hsettled := ha.settled
    rintro (hpc | ⟨hpc, hclean, hqueue⟩) id hid
    · rw [hpc] at ha hsettled
      exact ha.answered rfl hsettled.1 hsettled.2 hid
    · rw [hpc] at ha hsettled
      exact ha.answered rfl (hsettled hclean) hqueue hid
  · obtain ⟨hwork, hgone'⟩ := length_le_work hgone hls hexec
    refine ⟨hwork, ?_⟩
    by_cases hpc : s'.pc = .exited
    · exact .inl hpc
    · exact .inr (exists_step hgone' hpc)

/-- A flush that fails half way, is retried at shutdown, and then acknowledged. -/
def retriedFlush : List WriterLabel :=
  [.send ⟨⟨"a", 1, "\x7b\x7d"⟩, some 7⟩, .deadline true, .recv, .step, .write none none,
    .deadline true, .flush (some ⟨5, "disk full"⟩), .dropSenders, .disconnected, .flush none,
    .step, .step, .step, .step, .step, .flush none]

theorem acks_of_retriedFlush :
    ∃ s, exec (Writer.step Bincode.fixint 1024) (Writer.spawn ∅ ⟨1, 0⟩) retriedFlush = some s ∧
      s.acks = [(7, .ok)] ∧ s.pc = .exited ∧ ∃ r, s.Written 7 r ∧ r.offsetAfter ≤ s.head := by
  obtain ⟨s, hs, hacks, hpc⟩ : ∃ s : Writer,
      exec (Writer.step Bincode.fixint 1024) (Writer.spawn ∅ ⟨1, 0⟩) retriedFlush = some s ∧
        s.acks = [(7, .ok)] ∧ s.pc = .exited := ⟨_, rfl, rfl, rfl⟩
  have hguard : Always (Writer.step Bincode.fixint 1024) Ascends (Writer.spawn ∅ ⟨1, 0⟩)
      retriedFlush := by decide
  obtain ⟨-, -, -, -, -, hle⟩ := acks_of_reachable (by simp) rfl (Reachable.of_exec hs)
  exact ⟨s, hs, hacks, hpc, hle (.of_exec hguard hs) 7 (by simp [hacks])⟩

/-- Two durable appends in the last segment there is, the second behind a rotation, up to where its
ack is answered. -/
def appendsInLast : List WriterLabel :=
  [.send ⟨⟨"a", 1, ""⟩, some 7⟩, .send ⟨⟨"a", 2, ""⟩, some 8⟩, .deadline false, .recv, .step,
    .write none none, .deadline false, .recv, .step, .flush none, .step, .step, .step,
    .openNext none, .write none none, .deadline true, .flush none, .step, .step]

/-- There is a file of segment 0 with a byte in it. The second frame lies behind that byte, and ends
behind the head with which it is acknowledged. -/
theorem ok_in_front_of_frame :
    ∃ s s', exec (Writer.step Bincode.fixint 30)
        (Writer.spawn ((∅ : Segments).write 0 [0]) ⟨2 ^ 64 - 1, 0⟩) appendsInLast = some s ∧
      exec (Writer.step Bincode.fixint 30)
        (Writer.spawn ((∅ : Segments).write 0 [0]) ⟨2 ^ 64 - 1, 0⟩) (appendsInLast ++ [.step]) =
        some s' ∧
      s.acks = [(7, .ok)] ∧ s'.acks = [(7, .ok), (8, .ok)] ∧ s'.head = ⟨0, 29⟩ ∧
      s'.records.map (fun r => (r.request.durableAck, r.offset, r.offsetAfter)) =
        [(some 7, ⟨2 ^ 64 - 1, 0⟩, ⟨2 ^ 64 - 1, 29⟩), (some 8, ⟨0, 1⟩, ⟨0, 30⟩)] ∧
      ∀ r ∈ s'.records, r.request.durableAck = some 8 → ¬ r.offsetAfter ≤ s'.head :=
  ⟨_, _, rfl, rfl, rfl, rfl, rfl, rfl, by decide⟩

end Writer

end SmarthomeIngest
