import SmarthomeIngest.Wal.Resume
import SmarthomeIngest.Wal.Writer.Acks

/-!
# Rejected records

A failing flush or write answers acks with an error, but what it has got into the file stays there,
and the `BufWriter` writes on when it is dropped. The invariants below follow the frame of every
record that was tried: where it lies, who has been told what about it, and how much of the frame of
a rejected record the file holds.
-/

namespace SmarthomeIngest

/-! ### Definitions -/

/-- A scan of a string that starts with `b` gets no further than one that starts behind `b`. -/
def Aligned (bc : Bincode) (b : Bytes) : Prop :=
  ∀ c, (frames bc).stop (b ++ c) ≤ b.length + (frames bc).stop c

namespace Record

/-- The frame of the record lies in `b` at the offset it was written for. -/
def Tiles (bc : Bincode) (r : Record) (b : Bytes) : Prop :=
  ∃ before, before.length = r.start ∧ Aligned bc before ∧ before ++ r.frame <+: b

/-- As far as `b` reaches, it is a string in which the frame lies. -/
def Fits (bc : Bincode) (r : Record) (b : Bytes) : Prop := ∃ c, b <+: c ∧ r.Tiles bc c

/-- No decoder reads the record in a file `b` that it fits: the file ends in front of the end of
the frame, or the frame is over the limit. -/
def Unreadable (r : Record) (b : Bytes) : Prop :=
  b.length < r.start + r.frame.length ∨ 4 + maxWalRecordPayloadBytes < r.frame.length

/-- The ack of the record has been answered, and not with `Ok`. -/
def Rejected (s : Writer) (r : Record) : Prop :=
  ∃ id ∈ r.request.durableAck, ∃ res, res ≠ .ok ∧ (id, res) ∈ s.acks

end Record

/-- The points behind the last write. -/
def WriterPc.Exiting : WriterPc → Prop
  | .finalNotify | .dropNotify | .dropRx | .dropWriter | .exited => True
  | _ => False

namespace Writer

/-- The record that the step tries to write. -/
def attempt (s : Writer) : WriterLabel → Option Record
  | .write _ _ =>
    match s.pc with
    | .writeAll req frame =>
      some ⟨req, frame, s.currentSegmentId, s.bufWriter.contents.length⟩
    | _ => none
  | _ => none

/-- The file of the current segment behind the I/O of the step. -/
def fileAfter (s : Writer) : WriterLabel → Bytes
  | .flush fault => (s.bufWriter.flush fault).2.file
  | .write flushFault writeFault =>
    match s.pc with
    | .writeAll _ frame =>
      (s.bufWriter.writeAll writerBufCapacity frame flushFault writeFault).2.file
    | _ => s.bufWriter.file
  | _ => s.bufWriter.file

/-- The step answers the acks pending and that of the request in hand with an I/O error. -/
def Rejects (s : Writer) (l : WriterLabel) : Prop :=
  match l, s.pc with
  | .flush fault, .rotateFlush _ _ | .flush fault, .finalFlush => fault ≠ none
  | .write flushFault writeFault, .writeAll _ frame =>
    (s.bufWriter.writeAll writerBufCapacity frame flushFault writeFault).1 ≠ .ok ()
  | _, _ => False

/-- The record has been rejected, or is so by the step. -/
def RejectedBy (s : Writer) (l : WriterLabel) (r : Record) : Prop :=
  r.Rejected s ∨ s.Rejects l ∧
    ∃ id ∈ r.request.durableAck, id ∈ s.pendingDurableAcks ++ ackIds s.pc.inHand

/-- The records tried so far lie where they were written for. -/
structure Placed (bc : Bincode) (attempted : List Record) (s : Writer) : Prop where
  encoded : ∀ r ∈ attempted, encodeInto bc r.request.event = .ok r.frame
  le_current : ∀ r ∈ attempted, r.segmentId ≤ s.currentSegmentId
  aligned : s.pc.Running → Aligned bc s.bufWriter.contents
  tiles : s.pc.Running → ∀ r ∈ attempted, r.segmentId = s.currentSegmentId →
    r.Tiles bc s.bufWriter.contents
  fits : ∀ r ∈ attempted, r.segmentId = s.currentSegmentId → r.Fits bc s.bufWriter.contents

/-- The ack of a record tried so far has been answered, or is pending in the segment of the
record. -/
def Answered (attempted : List Record) (s : Writer) : Prop :=
  ∀ r ∈ attempted, ∀ id ∈ r.request.durableAck, id ∈ s.acks.map Prod.fst ∨
    id ∈ s.pendingDurableAcks ∧ r.segmentId = s.currentSegmentId

/-- The rejected records lie at the end of the log, where they cannot be read, and nothing is
written behind them. -/
def Withholds (attempted : List Record) (s : Writer) : Prop :=
  ∀ r ∈ attempted, r.Rejected s → s.pc.Exiting ∧ r.segmentId = s.currentSegmentId ∧
    r.Unreadable (s.segments.content s.currentSegmentId)

/-- What a step does to the bytes that the `BufWriter` of the current segment was handed. -/
inductive Hands (s : Writer) (l : WriterLabel) (s' : Writer) : Prop
  | keeps (hattempt : s.attempt l = none) (hcur : s'.currentSegmentId = s.currentSegmentId)
      (hbytes : s'.bufWriter.contents <+: s.bufWriter.contents)
      (hrun : s'.pc.Running → s.pc.Running ∧ s'.bufWriter.contents = s.bufWriter.contents)
  | writes (r : Record) (hattempt : s.attempt l = some r)
      (hcur : s'.currentSegmentId = s.currentSegmentId)
      (hbytes : s'.bufWriter.contents = s.bufWriter.contents ++ r.frame)
  | fails (r : Record) (n : ℕ) (hattempt : s.attempt l = some r)
      (hcur : s'.currentSegmentId = s.currentSegmentId)
      (hbytes : s'.bufWriter.contents = s.bufWriter.contents ++ r.frame.take n)
      (hrun : ¬ s'.pc.Running)
  | advances (hattempt : s.attempt l = none)
      (hcur : s'.currentSegmentId = s.currentSegmentId + 1)
      (hbytes : s'.pc.Running → s'.bufWriter.contents = [])

end Writer

variable {bc : Bincode}

/-! ### Aligned strings -/

lemma aligned_of_whole {b : Bytes} (h : (frames bc).Whole b) : Aligned bc b := by
  intro c
  rw [(frames bc).stop_append, h, List.drop_length, List.nil_append]

lemma aligned_nil : Aligned bc [] := aligned_of_whole (frames bc).whole_nil

lemma Aligned.append {b c : Bytes} (hb : Aligned bc b) (hc : Aligned bc c) :
    Aligned bc (b ++ c) := by
  intro d
  have hb' := hb (c ++ d)
  have hc' := hc d
  rw [List.append_assoc, List.length_append]
  omega

/-- The decoders step over a frame within the limit, and stop in front of one over it. -/
lemma aligned_encodeInto {event : WalEvent} {frame : Bytes} (h : encodeInto bc event = .ok frame) :
    Aligned bc frame := by
  obtain ⟨payload, -, hlt, rfl⟩ := frameBytes_of_encodeInto h
  rcases le_or_gt payload.length maxWalRecordPayloadBytes with hle | hgt
  · apply aligned_of_whole
    have hnext := frames_next_of_complete bc (cut_frameBytes hle [])
    rw [List.append_nil, ← length_frameBytes] at hnext
    exact Scanner.whole_of_next hnext
  · intro c
    have hnext : (frames bc).next (frameBytes payload ++ c) = none := by
      simp [frames, cut_frameBytes_oversized hgt hlt]
    rw [(frames bc).stop_of_none hnext]
    exact Nat.zero_le _

/-! ### Where a record lies -/

namespace Record

variable {r : Record} {b b' : Bytes}

lemma Tiles.mono (h : r.Tiles bc b) (hb : b <+: b') : r.Tiles bc b' := by
  obtain ⟨before, hlen, haligned, hpre⟩ := h
  exact ⟨before, hlen, haligned, hpre.trans hb⟩

lemma Tiles.fits (h : r.Tiles bc b) (hb : b' <+: b) : r.Fits bc b' := ⟨b, hb, h⟩

lemma Fits.mono (h : r.Fits bc b) (hb : b' <+: b) : r.Fits bc b' := by
  obtain ⟨c, hc, htiles⟩ := h
  exact ⟨c, hb.trans hc, htiles⟩

/-- At the place of an unreadable record there is nothing to read. -/
lemma Unreadable.next (h : r.Unreadable b) (hr : encodeInto bc r.request.event = .ok r.frame)
    (hfits : r.Fits bc b) : (frames bc).next (b.drop r.start) = none := by
  obtain ⟨payload, -, hlt, hframe⟩ := frameBytes_of_encodeInto hr
  obtain ⟨c, hb, before, hlen, -, hc⟩ := hfits
  obtain ⟨rest, rfl⟩ := hc
  have hpre : b.drop r.start <+: r.frame ++ rest := by
    have := hb.drop r.start
    rwa [List.append_assoc, List.drop_left' hlen] at this
  rcases h with htorn | hlong
  · -- the file ends inside the frame
    have hshort : (b.drop r.start).length < r.frame.length := by
      rw [List.length_drop]
      have := length_frameBytes payload
      rw [← hframe] at this
      omega
    have htorn := List.prefix_of_prefix_length_le hpre (List.prefix_append _ _) hshort.le
    rw [hframe] at htorn
    apply next_of_torn hlt htorn
    intro heq
    rw [heq, ← hframe] at hshort
    exact absurd hshort (lt_irrefl _)
  · -- no longer file holds anything that could be read here
    rw [hframe] at hpre hlong
    rw [length_frameBytes] at hlong
    have hgt := Nat.lt_of_add_lt_add_left hlong
    apply (frames bc).next_of_prefix_none hpre
    simp [frames, cut_frameBytes_oversized hgt hlt]

/-- A recovery scan stops in front of an unreadable record. -/
lemma Unreadable.stop_le (h : r.Unreadable b) (hr : encodeInto bc r.request.event = .ok r.frame)
    (hfits : r.Fits bc b) : (frames bc).stop b ≤ r.start := by
  have hnext := h.next hr hfits
  obtain ⟨c, hb, before, hlen, haligned, hc⟩ := hfits
  rcases le_or_gt b.length r.start with hle | hgt
  · exact ((frames bc).stop_le b).trans hle
  · have hbefore : before <+: b := by
      apply List.prefix_of_prefix_length_le ((List.prefix_append _ _).trans hc) hb
      omega
    have hsplit : before ++ b.drop r.start = b := by
      obtain ⟨t, rfl⟩ := hbefore
      rw [List.drop_left' hlen]
    have hle := haligned (b.drop r.start)
    rwa [hsplit, (frames bc).stop_of_none hnext, Nat.add_zero, hlen] at hle

end Record

/-! ### Steps of the writer -/

namespace Writer

variable {segmentBytes : ℕ} {base : Segments} {start : WalOffset} {s s' : Writer}
  {l : WriterLabel}

/-- The `BufWriter` behind its drop. -/
lemma bufWriter_dropped (w : SegmentWriter) (fault : Option WriteFault) :
    SegmentWriter.bufWriter { (w.flush fault).2 with buf := [] } =
      ⟨(w.bufWriter.flush fault).2.file, []⟩ := by
  simp [SegmentWriter.flush, SegmentWriter.bufWriter, SegmentWriter.setBufWriter]

lemma Hands.of_flush {w : SegmentWriter} {fault : Option WriteFault} {r : Except String Unit}
    (hflush : s.flush fault = (r, w)) (hw : s'.toSegmentWriter = w)
    (hrun : s'.pc.Running → s.pc.Running) : Hands s (.flush fault) s' := by
  obtain ⟨b, hb, rfl⟩ := SegmentWriter.flush_eq hflush
  have hbytes : s'.bufWriter.contents = s.bufWriter.contents := by
    rw [hw, SegmentWriter.bufWriter_setBufWriter, BufWriter.contents_of_flush hb]
  refine .keeps rfl ?_ (hbytes ▸ List.prefix_rfl) fun h => ⟨hrun h, hbytes⟩
  rw [hw]
  rfl

lemma Hands.of_step (hi : Inv bc segmentBytes base start s.pc s) (hl : s.Ascends l)
    (h : step bc segmentBytes s l = some s') : Hands s l s' := by
  cases WriterRule.of_step h with
  | periodicFlushError hpc hflush | periodicFlush hpc hflush | rotateFlushError hpc hflush
  | rotateFlush hpc hflush | finalFlushError hpc hflush | finalFlush hpc hflush =>
    refine .of_flush hflush rfl fun _ => ?_
    rw [hpc]
    trivial
  | send | dropSenders =>
    exact .keeps rfl rfl List.prefix_rfl fun h => ⟨h, rfl⟩
  | openNextError => exact .advances rfl (Nat.mod_eq_of_lt hl) fun h => by cases h
  | openNext hpc =>
    rw [hpc] at hi
    have hlayout := hi.layout trivial
    refine .advances rfl (Nat.mod_eq_of_lt hl) fun _ => ?_
    have hnew : s.currentSegmentId + 1 ∉ s.segments := fun hmem =>
      absurd (hlayout.le_current _ hmem) (Nat.not_succ_le_self _)
    simp [SegmentWriter.advance_of_lt hl, SegmentWriter.bufWriter, SegmentWriter.createCurrent,
      BufWriter.contents, Segments.content_of_notMem hnew]
  | @writeError req frame ff wf e w hpc hwrite =>
    obtain ⟨b, hb, rfl⟩ := SegmentWriter.writeAll_error_eq hwrite
    obtain ⟨n, hn, -⟩ := BufWriter.contents_of_writeAll hb
    refine .fails ⟨req, frame, s.currentSegmentId, s.bufWriter.contents.length⟩ n ?_ rfl ?_ ?_
    · simp [attempt, hpc]
    · rw [← hn]
      exact congrArg BufWriter.contents (SegmentWriter.bufWriter_setBufWriter s.toSegmentWriter b)
    · exact id
  | @write req frame ff wf w hpc hwrite =>
    obtain ⟨b, hb, rfl⟩ := SegmentWriter.writeAll_ok_eq hwrite
    refine .writes ⟨req, frame, s.currentSegmentId, s.bufWriter.contents.length⟩ ?_ rfl ?_
    · simp [attempt, hpc]
    · rw [← BufWriter.contents_of_writeAll_ok hb]
      exact congrArg BufWriter.contents (SegmentWriter.bufWriter_setBufWriter s.toSegmentWriter b)
  | @dropWriterFlush fault =>
    refine .keeps rfl rfl ?_ fun h => by cases h
    -- what the last flush does not write is lost
    obtain ⟨⟨r, b⟩, hflush⟩ : ∃ p, s.bufWriter.flush fault = p := ⟨_, rfl⟩
    have hpre : b.file <+: b.contents := List.prefix_append _ _
    rw [BufWriter.contents_of_flush hflush] at hpre
    change BufWriter.contents (SegmentWriter.bufWriter { (s.flush fault).2 with buf := [] }) <+: _
    rwa [bufWriter_dropped, hflush, BufWriter.contents, List.append_nil]
  | dropNotify | dropRx | dropWriter =>
    exact .keeps rfl rfl List.prefix_rfl fun h => by cases h
  | deadlineFlush hpc | deadlineRecv hpc | periodicPublish hpc | periodicNotify hpc
  | periodicAck hpc | recv hpc | timeout hpc | disconnected hpc | encodeError hpc
  | encodeRotate hpc | encodeWrite hpc | rotatePublish hpc | rotateNotify hpc | rotateAck hpc
  | finalPublish hpc | finalAck hpc | finalNotify hpc =>
    refine .keeps rfl rfl List.prefix_rfl fun _ => ⟨?_, rfl⟩
    rw [hpc]
    trivial

lemma of_attempt {r : Record} (h : s.attempt l = some r) :
    s.pc = .writeAll r.request r.frame ∧ r.segmentId = s.currentSegmentId ∧
      s.bufWriter.contents.length = r.start := by
  unfold attempt at h
  split at h
  · split at h
    · rename_i hpc
      cases h
      exact ⟨hpc, rfl, rfl⟩
    · cases h
  · cases h

/-- A record that is tried goes behind what the `BufWriter` was handed. -/
lemma Placed.attempt {attempted : List Record} {r : Record}
    (hi : Inv bc segmentBytes base start s.pc s) (hp : Placed bc attempted s)
    (hattempt : s.attempt l = some r) :
    (∀ q ∈ attempted ++ [r], encodeInto bc q.request.event = .ok q.frame) ∧
    (∀ q ∈ attempted ++ [r], q.segmentId ≤ s.currentSegmentId) ∧
    Aligned bc (s.bufWriter.contents ++ r.frame) ∧
    ∀ q ∈ attempted ++ [r], q.segmentId = s.currentSegmentId →
      q.Tiles bc (s.bufWriter.contents ++ r.frame) := by
  obtain ⟨hpc, hseg, hlen⟩ := of_attempt hattempt
  rw [hpc] at hi
  have hrun : s.pc.Running := by
    rw [hpc]
    trivial
  have hencode : encodeInto bc r.request.event = .ok r.frame := hi.atPc.1
  have haligned := hp.aligned hrun
  simp only [List.forall_mem_append, List.forall_mem_singleton]
  refine ⟨⟨hp.encoded, hencode⟩, ⟨hp.le_current, hseg.le⟩,
    haligned.append (aligned_encodeInto hencode), fun q hq hqseg => ?_, fun _ => ?_⟩
  · exact (hp.tiles hrun q hq hqseg).mono (List.prefix_append _ _)
  · exact ⟨_, hlen, haligned, List.prefix_rfl⟩

lemma Placed.step {attempted : List Record} (hi : Inv bc segmentBytes base start s.pc s)
    (hp : Placed bc attempted s) (hl : s.Ascends l) (h : Writer.step bc segmentBytes s l = some s') :
    Placed bc (attempted ++ (s.attempt l).toList) s' := by
  cases Hands.of_step hi hl h with
  | keeps hattempt hcur hbytes hrun =>
    rw [hattempt, Option.toList_none, List.append_nil]
    refine ⟨hp.encoded, hcur ▸ hp.le_current, ?_, ?_, ?_⟩
    · intro hrun'
      rw [(hrun hrun').2]
      exact hp.aligned (hrun hrun').1
    · intro hrun' r hr hseg
      rw [(hrun hrun').2]
      exact hp.tiles (hrun hrun').1 r hr (hseg.trans hcur)
    · intro r hr hseg
      exact (hp.fits r hr (hseg.trans hcur)).mono hbytes
  | advances hattempt hcur hbytes =>
    -- the records tried so far lie in earlier segments
    have hearlier : ∀ r ∈ attempted, r.segmentId ≠ s'.currentSegmentId := by
      intro r hr
      rw [hcur]
      exact ((hp.le_current r hr).trans_lt (Nat.lt_succ_self _)).ne
    rw [hattempt, Option.toList_none, List.append_nil]
    refine ⟨hp.encoded, ?_, ?_, ?_, ?_⟩
    · intro r hr
      rw [hcur]
      exact (hp.le_current r hr).trans (Nat.le_succ _)
    · intro hrun
      rw [hbytes hrun]
      exact aligned_nil
    · exact fun _ r hr hseg => absurd hseg (hearlier r hr)
    · exact fun r hr hseg => absurd hseg (hearlier r hr)
  | writes r hattempt hcur hbytes =>
    obtain ⟨hencoded, hle, haligned, htiles⟩ := hp.attempt hi hattempt
    rw [hattempt, Option.toList_some]
    refine ⟨hencoded, hcur ▸ hle, ?_, ?_, ?_⟩
    · exact fun _ => hbytes ▸ haligned
    · exact fun _ q hq hseg => hbytes ▸ htiles q hq (hseg.trans hcur)
    · exact fun q hq hseg => hbytes ▸ (htiles q hq (hseg.trans hcur)).fits List.prefix_rfl
  | fails r n hattempt hcur hbytes hrun =>
    obtain ⟨hencoded, hle, haligned, htiles⟩ := hp.attempt hi hattempt
    rw [hattempt, Option.toList_some]
    refine ⟨hencoded, hcur ▸ hle, fun h => absurd h hrun, fun h => absurd h hrun, ?_⟩
    intro q hq hseg
    have hpre : s.bufWriter.contents ++ r.frame.take n <+: s.bufWriter.contents ++ r.frame :=
      (List.prefix_append_right_inj _).mpr (List.take_prefix n _)
    rw [hbytes]
    exact (htiles q hq (hseg.trans hcur)).fits hpre

/-! ### Who has been answered -/

/-- An ack pending, in hand or queued has not been answered. -/
lemma Accounted.not_answered {pc : WriterPc} (ha : Accounted pc s) {id : ℕ}
    (hid : id ∈ s.pendingDurableAcks ++ (ackIds pc.inHand ++ ackIds s.queue)) :
    id ∉ s.acks.map Prod.fst := by
  have hocc := ha.occurrences_eq id
  have hle := ha.sent_nodup id
  have hpos := List.count_pos_iff.mpr hid
  rw [List.count_append, List.count_append] at hpos
  rw [occurrences] at hocc
  rw [← List.count_eq_zero]
  omega

/-- An ack in hand or queued is not pending. -/
lemma Accounted.not_pending {pc : WriterPc} (ha : Accounted pc s) {id : ℕ}
    (hid : id ∈ ackIds pc.inHand ++ ackIds s.queue) : id ∉ s.pendingDurableAcks := by
  have hocc := ha.occurrences_eq id
  have hle := ha.sent_nodup id
  have hpos := List.count_pos_iff.mpr hid
  rw [List.count_append] at hpos
  rw [occurrences] at hocc
  rw [← List.count_eq_zero]
  omega

@[simp] lemma map_fst_failPendingDurableAcks (s : Writer) (reason : String) :
    (s.failPendingDurableAcks reason).acks.map Prod.fst =
      s.acks.map Prod.fst ++ s.pendingDurableAcks := map_fst_sendAcks _ _ _

@[simp] lemma map_fst_acknowledgePendingDurableOk (s : Writer) :
    s.acknowledgePendingDurableOk.acks.map Prod.fst =
      s.acks.map Prod.fst ++ s.pendingDurableAcks := map_fst_sendAcks _ _ _

lemma map_fst_fail (s : Writer) (req : WriteRequest) (reason : String)
    (why : WriterFatalReason) :
    (s.fail req reason why).acks.map Prod.fst =
      s.acks.map Prod.fst ++ req.durableAck.toList ++ s.pendingDurableAcks := by
  rw [fail, map_fst_failPendingDurableAcks, map_fst_sendAcks]
  rfl

/-- Answers stay, and a pending ack is answered or stays pending in its segment. -/
lemma Accounted.answers (ha : Accounted s.pc s)
    (h : Writer.step bc segmentBytes s l = some s') (id : ℕ) :
    (id ∈ s.acks.map Prod.fst → id ∈ s'.acks.map Prod.fst) ∧
    (id ∈ s.pendingDurableAcks → id ∈ s'.acks.map Prod.fst ∨
      id ∈ s'.pendingDurableAcks ∧ s'.currentSegmentId = s.currentSegmentId) := by
  cases WriterRule.of_step h with
  | periodicAck | rotateAck | finalAck | finalFlushError =>
    dsimp only
    simp only [map_fst_failPendingDurableAcks, map_fst_acknowledgePendingDurableOk,
      List.mem_append]
    exact ⟨.inl, fun hid => .inl (.inr hid)⟩
  | rotateFlushError | openNextError | writeError =>
    simp only [map_fst_fail, List.mem_append]
    exact ⟨fun hid => .inl (.inl hid), fun hid => .inl (.inr hid)⟩
  | encodeError | dropRx =>
    dsimp only
    simp only [map_fst_sendAcks, List.mem_append]
    exact ⟨.inl, fun hid => .inr ⟨hid, rfl⟩⟩
  | openNext hpc =>
    -- a rotation has answered everything
    rw [hpc] at ha
    refine ⟨fun hid => hid, fun hid => ?_⟩
    rw [ha.settled] at hid
    cases hid
  | write _ hwrite =>
    obtain ⟨b, -, rfl⟩ := SegmentWriter.writeAll_ok_eq hwrite
    exact ⟨fun hid => hid, fun hid => .inr ⟨List.mem_append_left _ hid, rfl⟩⟩
  | periodicFlushError _ hflush | periodicFlush _ hflush | rotateFlush _ hflush
  | finalFlush _ hflush =>
    obtain ⟨b, -, rfl⟩ := SegmentWriter.flush_eq hflush
    exact ⟨fun hid => hid, fun hid => .inr ⟨hid, rfl⟩⟩
  | _ => exact ⟨fun hid => hid, fun hid => .inr ⟨hid, rfl⟩⟩

lemma fault_of_flush_error {fault : Option WriteFault} {e : String} {w : SegmentWriter}
    (h : s.flush fault = (.error e, w)) : fault ≠ none := by
  rintro rfl
  cases h

/-- The ack of a record that is tried is answered or gets pending. -/
lemma answers_of_attempt (h : step bc segmentBytes s l = some s') {r : Record}
    (hattempt : s.attempt l = some r) {id : ℕ} (hid : id ∈ r.request.durableAck) :
    id ∈ s'.acks.map Prod.fst ∨
      id ∈ s'.pendingDurableAcks ∧ r.segmentId = s'.currentSegmentId := by
  obtain ⟨hpc', hseg, -⟩ := of_attempt hattempt
  cases WriterRule.of_step h with
  | writeError hpc hwrite =>
    rw [hpc, WriterPc.writeAll.injEq] at hpc'
    rw [map_fst_fail, hpc'.1]
    left
    simp [Option.mem_def.mp hid]
  | write hpc hwrite =>
    rw [hpc, WriterPc.writeAll.injEq] at hpc'
    obtain ⟨b, -, rfl⟩ := SegmentWriter.writeAll_ok_eq hwrite
    dsimp only
    rw [hpc'.1]
    right
    exact ⟨by simp [Option.mem_def.mp hid], hseg⟩
  | _ => cases hattempt

lemma mem_acks_sendAcks {ids : List ℕ} {r : AckResult} {p : ℕ × AckResult} :
    p ∈ (s.sendAcks ids r).acks ↔ p ∈ s.acks ∨ p.1 ∈ ids ∧ p.2 = r := by
  simp only [sendAcks, List.mem_append, List.mem_map]
  constructor
  · rintro (hp | ⟨id, hid, rfl⟩)
    · exact .inl hp
    · exact .inr ⟨hid, rfl⟩
  · rintro (hp | ⟨hid, rfl⟩)
    · exact .inl hp
    · exact .inr ⟨p.1, hid, rfl⟩

lemma mem_acks_fail {req : WriteRequest} {reason : String} {why : WriterFatalReason}
    {p : ℕ × AckResult} (hp : p ∈ (s.fail req reason why).acks) :
    p ∈ s.acks ∨ p.1 ∈ s.pendingDurableAcks ++ ackIds [req] := by
  rw [ackIds_cons, ackIds_nil, List.append_nil, List.mem_append]
  rcases mem_acks_sendAcks.mp hp with hp | ⟨hid, -⟩
  · exact (mem_acks_sendAcks.mp hp).imp_right fun h => .inr h.1
  · exact .inr (.inl hid)

/-- The acks answered with something else than `Ok`: those of an I/O error, and those of requests
that no write is tried for. -/
lemma Accounted.errors (ha : Accounted s.pc s) (h : Writer.step bc segmentBytes s l = some s')
    {id : ℕ} {res : AckResult} (hres : res ≠ .ok) (hid : (id, res) ∈ s'.acks) :
    (id, res) ∈ s.acks ∨
    s.Rejects l ∧ id ∈ s.pendingDurableAcks ++ ackIds s.pc.inHand ∨
    s.attempt l = none ∧ id ∈ ackIds s.pc.inHand ++ ackIds s.queue := by
  cases WriterRule.of_step h with
  | periodicAck | rotateAck | finalAck =>
    rcases mem_acks_sendAcks.mp hid with hid | ⟨-, hok⟩
    · exact .inl hid
    · exact absurd hok hres
  | encodeError hpc =>
    rcases mem_acks_sendAcks.mp hid with hid | ⟨hid, -⟩
    · exact .inl hid
    · right; right
      rw [hpc, WriterPc.inHand, ackIds_cons, ackIds_nil, List.append_nil]
      exact ⟨rfl, List.mem_append_left _ hid⟩
  | dropRx =>
    rcases mem_acks_sendAcks.mp hid with hid | ⟨hid, -⟩
    · exact .inl hid
    · exact .inr (.inr ⟨rfl, List.mem_append_right _ hid⟩)
  | openNextError hpc =>
    rw [hpc] at ha ⊢
    rcases mem_acks_fail hid with hid | hid
    · exact .inl hid
    · -- a rotation has answered everything that was pending
      have hpending : s.pendingDurableAcks = [] := ha.settled
      rw [hpending, List.nil_append] at hid
      exact .inr (.inr ⟨rfl, List.mem_append_left _ hid⟩)
  | rotateFlushError hpc hflush =>
    have hfault := fault_of_flush_error hflush
    rcases mem_acks_fail hid with hid | hid
    · exact .inl hid
    · exact .inr (.inl ⟨by simpa [Rejects, hpc] using hfault, hpc ▸ hid⟩)
  | writeError hpc hwrite =>
    obtain ⟨b, hb, rfl⟩ := SegmentWriter.writeAll_error_eq hwrite
    rcases mem_acks_fail hid with hid | hid
    · exact .inl hid
    · exact .inr (.inl ⟨by simp [Rejects, hpc, hb], hpc ▸ hid⟩)
  | finalFlushError hpc hflush =>
    have hfault := fault_of_flush_error hflush
    rcases mem_acks_sendAcks.mp hid with hid | ⟨hid, -⟩
    · exact .inl hid
    · exact .inr (.inl ⟨by simpa [Rejects, hpc] using hfault, List.mem_append_left _ hid⟩)
  | _ => exact .inl hid

lemma Answered.step {attempted : List Record} (ha : Accounted s.pc s)
    (hans : Answered attempted s) (h : Writer.step bc segmentBytes s l = some s') :
    Answered (attempted ++ (s.attempt l).toList) s' := by
  intro r hr id hid
  rcases List.mem_append.mp hr with hr | hr
  · obtain ⟨hacks, hpending⟩ := ha.answers h id
    rcases hans r hr id hid with hack | ⟨hpend, hseg⟩
    · exact .inl (hacks hack)
    · rcases hpending hpend with hack | ⟨hpend, hcur⟩
      · exact .inl hack
      · exact .inr ⟨hpend, hseg.trans hcur.symm⟩
  · exact answers_of_attempt h (Option.mem_toList.mp hr) hid

/-- The records rejected behind a step are those that it rejects, or that were rejected before. -/
lemma Answered.rejectedBy {attempted : List Record} (ha : Accounted s.pc s)
    (hans : Answered attempted s) (h : Writer.step bc segmentBytes s l = some s') {r : Record}
    (hr : r ∈ attempted ++ (s.attempt l).toList) (hrej : r.Rejected s') : s.RejectedBy l r := by
  obtain ⟨id, hid, res, hres, hack⟩ := hrej
  rcases ha.errors h hres hack with hack | ⟨hrejects, hmem⟩ | ⟨hnone, hmem⟩
  · exact .inl ⟨id, hid, res, hres, hack⟩
  · exact .inr ⟨hrejects, id, hid, hmem⟩
  · -- a request that no write is tried for has left no record
    rw [hnone, Option.toList_none, List.append_nil] at hr
    rcases hans r hr id hid with hack | ⟨hpend, -⟩
    · exact absurd hack (ha.not_answered (List.mem_append_right _ hmem))
    · exact absurd hpend (ha.not_pending hmem)

/-- Rejected records are in the current segment, and the thread is about to exit. -/
lemma Answered.place {attempted : List Record} (ha : Accounted s.pc s)
    (hans : Answered attempted s) (hw : Withholds attempted s) {r : Record}
    (hr : r ∈ attempted ++ (s.attempt l).toList) (hrej : s.RejectedBy l r) :
    r.segmentId = s.currentSegmentId ∧ (s.pc.Exiting ∨ s.Rejects l) := by
  rcases List.mem_append.mp hr with hr | hr
  · rcases hrej with hrej | ⟨hrejects, id, hid, hmem⟩
    · obtain ⟨hexit, hseg, -⟩ := hw r hr hrej
      exact ⟨hseg, .inl hexit⟩
    · refine ⟨?_, .inr hrejects⟩
      rcases hans r hr id hid with hack | ⟨-, hseg⟩
      · rw [List.mem_append] at hmem
        have hmem' : id ∈ s.pendingDurableAcks ++ (ackIds s.pc.inHand ++ ackIds s.queue) := by
          rw [List.mem_append, List.mem_append]
          exact hmem.imp_right .inl
        exact absurd hack (ha.not_answered hmem')
      · exact hseg
  · obtain ⟨hpc, hseg, -⟩ := of_attempt (Option.mem_toList.mp hr)
    refine ⟨hseg, ?_⟩
    rcases hrej with ⟨id, hid, res, -, hack⟩ | ⟨hrejects, -⟩
    · -- the request is still in hand
      have hmem : id ∈ ackIds s.pc.inHand := by
        rw [hpc, WriterPc.inHand, ackIds_cons]
        exact List.mem_append_left _ (Option.mem_toList.mpr hid)
      exact absurd (List.mem_map_of_mem hack)
        (ha.not_answered (List.mem_append_right _ (List.mem_append_left _ hmem)))
    · exact .inr hrejects

/-- What a step leaves in the file when it rejects, or the thread is about to exit. -/
lemma fileAfter_of_step (h : step bc segmentBytes s l = some s')
    (hexit : s.pc.Exiting ∨ s.Rejects l) :
    s'.pc.Exiting ∧ s'.currentSegmentId = s.currentSegmentId ∧
      s'.segments.content s.currentSegmentId = s.fileAfter l := by
  cases WriterRule.of_step h with
  | send | dropSenders => exact ⟨hexit.resolve_right id, rfl, rfl⟩
  | finalNotify | dropNotify | dropRx => exact ⟨trivial, rfl, rfl⟩
  | @dropWriter fault hpc hbuf =>
    refine ⟨trivial, rfl, ?_⟩
    cases fault <;> simp [fileAfter, BufWriter.flush, SegmentWriter.bufWriter, hbuf]
  | @dropWriterFlush fault =>
    refine ⟨trivial, rfl, ?_⟩
    exact congrArg BufWriter.file (bufWriter_dropped s.toSegmentWriter fault)
  | rotateFlushError hpc hflush | finalFlushError hpc hflush =>
    obtain ⟨b, hb, rfl⟩ := SegmentWriter.flush_eq hflush
    refine ⟨trivial, rfl, ?_⟩
    rw [fileAfter, hb]
    exact congrArg BufWriter.file (SegmentWriter.bufWriter_setBufWriter s.toSegmentWriter b)
  | writeError hpc hwrite =>
    obtain ⟨b, hb, rfl⟩ := SegmentWriter.writeAll_error_eq hwrite
    refine ⟨trivial, rfl, ?_⟩
    simp only [fileAfter, hpc, hb]
    exact congrArg BufWriter.file (SegmentWriter.bufWriter_setBufWriter s.toSegmentWriter b)
  | @rotateFlush _ _ fault _ hpc hflush | @finalFlush fault _ hpc hflush =>
    cases fault with
    | none => simp [WriterPc.Exiting, Rejects, hpc] at hexit
    | some f => cases hflush
  | write hpc hwrite =>
    obtain ⟨b, hb, rfl⟩ := SegmentWriter.writeAll_ok_eq hwrite
    simp [WriterPc.Exiting, Rejects, hpc, hb] at hexit
  | deadlineFlush hpc | deadlineRecv hpc | periodicFlushError hpc | periodicFlush hpc
  | periodicPublish hpc | periodicNotify hpc | periodicAck hpc | recv hpc | timeout hpc
  | disconnected hpc | encodeError hpc | encodeRotate hpc | encodeWrite hpc | rotatePublish hpc
  | rotateNotify hpc | rotateAck hpc | openNextError hpc | openNext hpc
  | finalPublish hpc | finalAck hpc =>
    simp [WriterPc.Exiting, Rejects, hpc] at hexit

/-- Rejected records stay unreadable, if the step leaves them so. -/
lemma Withholds.step {attempted : List Record} (ha : Accounted s.pc s)
    (hans : Answered attempted s) (hw : Withholds attempted s)
    (h : Writer.step bc segmentBytes s l = some s')
    (hl : ∀ r ∈ attempted ++ (s.attempt l).toList, s.RejectedBy l r →
      r.Unreadable (s.fileAfter l)) :
    Withholds (attempted ++ (s.attempt l).toList) s' := by
  intro r hr hrej
  have hrej' := hans.rejectedBy ha h hr hrej
  obtain ⟨hseg, hexit⟩ := hans.place ha hw hr hrej'
  obtain ⟨hexit', hcur, hfile⟩ := fileAfter_of_step h hexit
  refine ⟨hexit', hseg.trans hcur.symm, ?_⟩
  rw [hcur, hfile]
  exact hl r hr hrej'

end Writer

end SmarthomeIngest
