import SmarthomeIngest.Lib.Transition
import SmarthomeIngest.Wal.Bincode
import SmarthomeIngest.Wal.Open
import SmarthomeIngest.Wal.Writer.Layout
import SmarthomeIngest.Wal.Writer.Rules

/-!
# Replay

With the writer gone nothing changes any more, and repeated calls of `next` run through the log to
its end. What they return is what a scan of the segments with `decode_for_recovery` finds, although
the subscription decodes, skips and advances by rules of its own.
-/

namespace SmarthomeIngest

open Transition

variable (bc : Bincode)

/-! ### Definitions -/

/-- The valid records that a scan with `decode_for_recovery` finds before its first `CleanEof`. -/
def recoveryScanLoop (segmentId : ℕ) : ℕ → ByteSource → Bytes → ℕ → List WalEntry
  | 0, _, _, _ => []
  | fuel + 1, r, payload, off =>
    match decodeForRecovery bc r payload with
    | (.ok (.validRecord event consumed), r, payload) =>
      ⟨⟨segmentId, off⟩, ⟨segmentId, off + consumed⟩, event⟩ ::
        recoveryScanLoop segmentId fuel r payload (off + consumed)
    | (.ok (.frameCorrupt consumed), r, payload) =>
      recoveryScanLoop segmentId fuel r payload (off + consumed)
    | _ => []

/-- The scan of a segment from an offset. -/
def recoveryScan (segs : Segments) (segmentId off : ℕ) : List WalEntry :=
  let rest := (segs.content segmentId).drop off
  recoveryScanLoop bc segmentId (rest.length + 1) ⟨rest, none⟩ [] off

/-- The scans of all segments from `start` on, in increasing order of the ids. -/
def recoveryLog (segs : Segments) (start : WalOffset) : List WalEntry :=
  (segs.idsFrom start.segmentId).flatMap fun id => recoveryScan bc segs id (startIn start id)

/-- Calls `next` until it returns `None`, with at most `fuel` steps: the entries returned. -/
def Subscription.drain (v : WalView) : ℕ → Subscription → Option (List WalEntry)
  | 0, _ => none
  | fuel + 1, s =>
    if s.pc = .ended then some []
    else
      match s.step bc v (.run {}) with
      | none => none
      | some (s', entry) => (drain v fuel s').map (entry.toList ++ ·)

/-- Enough steps drain the subscription of exactly `entries`. -/
def Subscription.Drains (v : WalView) (s : Subscription) (entries : List WalEntry) : Prop :=
  ∃ fuel, ∀ n, fuel ≤ n → s.drain bc v n = some entries

variable {bc} {segs : Segments} {v : WalView} {s s' : Subscription}

/-! ### The recovery scan -/

lemma recoveryScanLoop_eq {fuel : ℕ} {b : Bytes} (h : b.length < fuel) (p : Bytes) (id off : ℕ) :
    recoveryScanLoop bc id fuel ⟨b, none⟩ p off = segmentEntries bc id off b := by
  induction fuel generalizing b p off with
  | zero => omega
  | succ fuel ih =>
    cases hnext : (frames bc).next b with
    | none =>
      have hdec := decodeForRecovery_of_not_complete bc (frames_next_eq_none.mp hnext) p
      rw [segmentEntries_of_none hnext, recoveryScanLoop]
      split
      · rename_i heq
        rw [heq] at hdec
        cases hdec
      · rename_i heq
        rw [heq] at hdec
        cases hdec
      · rfl
    | some q =>
      obtain ⟨body, hcut, -, -⟩ := exists_of_frames_next hnext
      have hstep := frames_next_of_complete bc hcut
      have hlen : (b.drop (4 + body.length)).length < fuel := by
        have := (frames bc).next_le hstep
        simp only [List.length_drop]
        omega
      rw [recoveryScanLoop, decodeForRecovery_of_complete bc hcut]
      cases hde : bc.deserialize body with
      | error e =>
        rw [hde] at hstep
        rw [segmentEntries_of_corrupt hstep]
        exact ih hlen _ _
      | ok event =>
        rw [hde] at hstep
        rw [segmentEntries_of_record hstep]
        exact congrArg _ (ih hlen _ _)

/-- The log as a scan with `decode_for_recovery` sees it. -/
lemma recoveryLog_eq (segs : Segments) (start : WalOffset) :
    recoveryLog bc segs start = entriesFrom bc segs start :=
  List.flatMap_congr fun _ _ => recoveryScanLoop_eq (Nat.lt_succ_self _) _ _ _

/-! ### Steps of a drain -/

namespace Subscription

lemma Drains.of_step (entry : Option WalEntry) {entries : List WalEntry} (s' : Subscription)
    (hpc : s.pc ≠ .ended)
    (hstep : s.step bc v (.run {}) = some (s', entry)) (h : Drains bc v s' entries) :
    Drains bc v s (entry.toList ++ entries) := by
  obtain ⟨fuel, hfuel⟩ := h
  refine ⟨fuel + 1, fun n hn => ?_⟩
  obtain ⟨m, rfl⟩ : ∃ m, n = m + 1 := ⟨n - 1, by omega⟩
  rw [drain, if_neg hpc, hstep]
  simp only [hfuel m (by omega), Option.map_some]

/-- A step that returns nothing. -/
lemma Drains.of_silent {entries : List WalEntry} (s' : Subscription) (hpc : s.pc ≠ .ended)
    (hstep : s.step bc v (.run {}) = some (s', none)) (h : Drains bc v s' entries) :
    Drains bc v s entries :=
  Drains.of_step none s' hpc hstep h

lemma drains_ended (hpc : s.pc = .ended) : Drains bc v s [] := by
  refine ⟨1, fun n hn => ?_⟩
  obtain ⟨m, rfl⟩ : ∃ m, n = m + 1 := ⟨n - 1, by omega⟩
  rw [drain, if_pos hpc]

/-- From `wait_or_advance` to the next segment, when the head is in a later one. -/
lemma Drains.of_nextSegment {entries : List WalEntry} (hpc : s.pc = .register)
    (hhead : s.curSegmentId < v.head.segmentId) (h : Drains bc v s.nextSegment entries) :
    Drains bc v s entries := by
  refine .of_silent { s with pc := .loadHead v.notifications } (by simp [hpc])
    (by simp only [step, hpc]) ?_
  refine .of_silent s.nextSegment (by simp) ?_ h
  simp only [step, if_pos hhead]
  rfl

/-- From `wait_or_advance` to `None`, when the head is where the subscription is. -/
lemma drains_of_atHead (hpc : s.pc = .register) (hgone : v.writerGone)
    (hhead : v.head = s.position) : Drains bc v s [] := by
  have hseg : ¬ s.curSegmentId < v.head.segmentId := by simp [hhead, position]
  have hoff : ¬ s.curByteOffset < v.head.byteOffset := by simp [hhead, position]
  refine .of_silent { s with pc := .loadHead v.notifications } (by simp [hpc])
    (by simp only [step, hpc]) ?_
  refine .of_silent { s with pc := .checkClosed v.notifications } (by simp)
    (by simp only [step, hseg, hoff, if_false, and_false]) ?_
  refine .of_silent { s with pc := .reloadHead v.notifications } (by simp)
    (by simp only [step, hgone, if_true]) ?_
  refine .of_silent { s with pc := .ended } (by simp)
    (by simp only [step, hseg, hoff, if_false]) (drains_ended rfl)

/-! ### The files without a writer -/

/-- The head is the end of the last segment, which is frames up to there. -/
structure Quiet (bc : Bincode) (v : WalView) : Prop where
  gone : v.writerGone
  le_head : ∀ id ∈ v.segments, id ≤ v.head.segmentId
  length_head : (v.segments.content v.head.segmentId).length = v.head.byteOffset

/-- Where the subscription may be: before the last segment, or in it on a frame boundary. -/
structure Behind (bc : Bincode) (v : WalView) (seg off : ℕ) : Prop where
  le_head : seg ≤ v.head.segmentId
  off_le : seg = v.head.segmentId → off ≤ v.head.byteOffset
  whole : seg = v.head.segmentId → (frames bc).Whole ((v.segments.content seg).drop off)

lemma Behind.drop {seg off n : ℕ} {value : Option WalEvent} (hq : Quiet bc v)
    (h : Behind bc v seg off)
    (hnext : (frames bc).next ((v.segments.content seg).drop off) = some (value, n)) :
    Behind bc v seg (off + n) where
  le_head := h.le_head
  off_le heq := by
    have hle := (frames bc).next_le hnext
    have hoff := h.off_le heq
    rw [heq, List.length_drop, hq.length_head] at hle
    omega
  whole heq := by
    rw [← List.drop_drop]
    exact (h.whole heq).drop hnext

/-- With no frame left, the subscription goes to the next segment or is at the end of the log. -/
lemma drains_of_none (hq : Quiet bc v) (hb : Behind bc v s.curSegmentId s.curByteOffset)
    (hpc : s.pc = .register)
    (hnext : (frames bc).next ((v.segments.content s.curSegmentId).drop s.curByteOffset) = none)
    (hlater : s.curSegmentId < v.head.segmentId →
      Drains bc v s.nextSegment (entriesFrom bc v.segments ⟨s.curSegmentId + 1, 0⟩)) :
    Drains bc v s (entriesFrom bc v.segments s.position) := by
  rw [position, entriesFrom_of_none hnext]
  rcases hb.le_head.lt_or_eq with hlt | heq
  · exact .of_nextSegment hpc hlt (hlater hlt)
  · have hempty := (hb.whole heq).eq_nil_of_scan ((frames bc).scan_of_none hnext 0)
    have hlen := congrArg List.length hempty
    rw [List.length_drop, heq, hq.length_head, List.length_nil] at hlen
    have hoff := hb.off_le heq
    have hbyte : v.head.byteOffset = s.curByteOffset := by omega
    rw [entriesFrom_past_end fun id hid => Nat.lt_succ_of_le (heq ▸ hq.le_head id hid)]
    refine drains_of_atHead hpc hq.gone ?_
    rw [position, heq, ← hbyte]

/-- The drain of one segment, from the top of the loop. -/
lemma drains_segment (hq : Quiet bc v) {seg off : ℕ} (hb : Behind bc v seg off)
    (hlater : seg < v.head.segmentId → ∀ s : Subscription, s.curSegmentId = seg + 1 →
      s.curByteOffset = 0 → (∃ payload, s.pc = .readOne none payload) →
      Drains bc v s (entriesFrom bc v.segments ⟨seg + 1, 0⟩))
    (hseg : s.curSegmentId = seg) (hoff : s.curByteOffset = off) {reader : Option ℕ}
    {payload : Bytes} (hpc : s.pc = .readOne reader payload) (hr : ReaderAt off reader) :
    Drains bc v s (entriesFrom bc v.segments ⟨seg, off⟩) := by
  -- along the frames of the rest of the segment
  induction hrest : (v.segments.content seg).drop off using (frames bc).scan_induction
    generalizing s off reader payload with
  | none b hnext =>
    subst hrest hseg hoff
    have hlater' : ∀ t : Subscription, t.curSegmentId = s.curSegmentId →
        s.curSegmentId < v.head.segmentId →
        Drains bc v t.nextSegment (entriesFrom bc v.segments ⟨s.curSegmentId + 1, 0⟩) :=
      fun t ht hlt => hlater hlt _ (congrArg (· + 1) ht) rfl ⟨_, rfl⟩
    cases hcut : Frame.cut ((v.segments.content s.curSegmentId).drop s.curByteOffset) with
    | complete body => exact absurd hcut (frames_next_eq_none.mp hnext body)
    | short =>
      obtain ⟨outcome, reader', p', hread, hout, -⟩ := readOne_of_short bc hr payload hcut
      refine .of_silent { s with curReader := reader', payloadBuf := p', pc := .register }
        (by simp [hpc]) ?_ ?_
      · simp only [step, hpc, hread]
        rcases hout with rfl | rfl <;> rfl
      · exact drains_of_none hq hb rfl hnext fun hlt => hlater' _ rfl hlt
    | oversized len =>
      -- an oversized prefix cannot lie in the last segment, which is frames to its end
      have hlt : s.curSegmentId < v.head.segmentId := by
        refine hb.le_head.lt_of_ne fun heq => ?_
        rw [(hb.whole heq).eq_nil_of_scan ((frames bc).scan_of_none hnext 0)] at hcut
        cases hcut
      obtain ⟨e, p', hread⟩ := readOne_of_oversized bc hr payload hcut
      obtain ⟨hskip, hlim⟩ := readLenPrefix_of_oversized hcut
      refine .of_silent { s with curReader := none, payloadBuf := p', pc := .corrupt }
        (by simp [hpc]) (by simp only [step, hpc, hread]; rfl) ?_
      refine .of_silent { s with curReader := none, payloadBuf := p', pc := .skip }
        (by simp) (by simp only [step]; rw [if_neg fun h => hlt.ne' h.1]) ?_
      refine .of_silent { s with curReader := none, payloadBuf := p', pc := .register } (by simp)
        ?_ ?_
      · simp only [step, hskip]
        rw [if_pos (show maxSkipBytes < len from hlim)]
      · exact drains_of_none hq hb rfl hnext fun hlt => hlater' _ rfl hlt
  | some b value n hnext ih =>
    subst hrest hseg hoff
    have hb' := hb.drop hq hnext
    cases value with
    | some event =>
      obtain ⟨p', hread⟩ := readOne_of_record bc hr payload hnext
      rw [entriesFrom_of_record hnext]
      refine .of_step (some _) { s with
        curByteOffset := s.curByteOffset + n, curReader := some (s.curByteOffset + n),
        payloadBuf := p', pc := .ready } (by simp [hpc])
        (by simp only [step, hpc, hread]; rfl) ?_
      refine .of_silent _ (by simp) (by simp only [step]; rfl) ?_
      exact ih hb' rfl rfl rfl (readerAt_some _) (by rw [List.drop_drop])
    | none =>
      obtain ⟨e, p', hread⟩ := readOne_of_corrupt bc hr payload hnext
      obtain ⟨body, hcut, -, hn⟩ := exists_of_frames_next hnext
      have hmax : ¬ maxSkipBytes < body.length := not_lt.mpr (Frame.cut_eq_complete.mp hcut).1
      have hpos := (frames bc).next_pos hnext
      rw [entriesFrom_of_corrupt hnext]
      refine .of_silent { s with curReader := none, payloadBuf := p', pc := .corrupt }
        (by simp [hpc]) (by simp only [step, hpc, hread]; rfl) ?_
      refine .of_silent { s with curReader := none, payloadBuf := p', pc := .skip } (by simp) ?_ ?_
      · simp only [step]
        rw [if_neg]
        rintro ⟨hhead, hle⟩
        have := hb'.off_le hhead.symm
        omega
      refine .of_silent _ (by simp) ?_ (ih (s := startRead { s with
        curByteOffset := s.curByteOffset + n, curReader := none, payloadBuf := p', pc := .skip })
        hb' rfl rfl rfl (readerAt_none _) (by rw [List.drop_drop]))
      simp only [step, readLenPrefix_of_complete hcut, if_neg hmax, ← hn]

/-- The drain of the log, from the top of the loop. -/
lemma drains_entriesFrom (hq : Quiet bc v) {seg off : ℕ} (hb : Behind bc v seg off)
    (hseg : s.curSegmentId = seg) (hoff : s.curByteOffset = off) {reader : Option ℕ}
    {payload : Bytes} (hpc : s.pc = .readOne reader payload) (hr : ReaderAt off reader)
    (hwhole : (frames bc).Whole (v.segments.content v.head.segmentId)) :
    Drains bc v s (entriesFrom bc v.segments ⟨seg, off⟩) := by
  -- on the segments ahead
  induction hk : v.head.segmentId - seg generalizing s seg off reader payload with
  | zero =>
    refine drains_segment hq hb (fun hlt => ?_) hseg hoff hpc hr
    omega
  | succ k ih =>
    refine drains_segment hq hb (fun hlt t htseg htoff ⟨p, htpc⟩ => ?_) hseg hoff hpc hr
    refine ih ⟨hlt, fun _ => Nat.zero_le _, fun heq => ?_⟩ htseg htoff htpc (readerAt_none _)
      (by omega)
    rw [heq, List.drop_zero]
    exact hwhole

end Subscription

/-! ### A writer that was sent nothing -/

/-- The points a writer passes that never gets a request. -/
def WriterPc.Idle : WriterPc → Prop
  | .loopTop | .recv | .finalFlush | .finalPublish | .finalAck | .finalNotify
  | .dropNotify | .dropRx | .dropWriter | .exited => True
  | _ => False

/-- The writer has changed nothing since it was spawned on `base` at `start`. -/
structure Writer.Idle (base : Segments) (start : WalOffset) (s : Writer) : Prop where
  content : ∀ id, s.segments.content id = base.content id
  mem_segments : ∀ id, id ∈ s.segments ↔ id = start.segmentId ∨ id ∈ base
  buf : s.buf = []
  position : s.position = start
  head : s.head = start
  queue : s.queue = []
  clean : s.dirty = false
  pc : s.pc.Idle

namespace Writer

variable {segmentBytes : ℕ} {base : Segments} {start : WalOffset} {s s' : Writer} {l : WriterLabel}

/-- Flushing an empty buffer leaves the files as they are, even if it fails. -/
lemma Idle.flush {w : SegmentWriter} {fault : Option WriteFault} {r : Except String Unit}
    (hi : Idle base start s) (h : s.flush fault = (r, w)) :
    (∀ id, w.segments.content id = base.content id) ∧
    (∀ id, id ∈ w.segments ↔ id = start.segmentId ∨ id ∈ base) ∧ w.buf = [] ∧
    w.position = start := by
  obtain ⟨b, hb, rfl⟩ := SegmentWriter.flush_eq h
  have hseg : s.currentSegmentId = start.segmentId := congrArg WalOffset.segmentId hi.position
  obtain ⟨hfile, hbuf⟩ : b.file = s.segments.content s.currentSegmentId ∧ b.buf = [] := by
    cases fault <;> cases hb <;> simp [SegmentWriter.bufWriter, hi.buf]
  refine ⟨fun id => ?_, fun id => ?_, hbuf, hi.position⟩
  · rw [SegmentWriter.setBufWriter, Segments.content_write, hfile]
    split_ifs with hid
    · rw [hid, hi.content]
    · exact hi.content id
  · rw [SegmentWriter.setBufWriter, Segments.mem_write, hseg, hi.mem_segments]
    tauto

lemma Idle.step (hi : Idle base start s) (hl : ∀ req, l ≠ .send req)
    (h : Writer.step bc segmentBytes s l = some s') : Idle base start s' := by
  have hidle := hi.pc
  cases WriterRule.of_step h with
  | send => exact absurd rfl (hl _)
  | dropSenders => exact { hi with }
  -- nothing to flush, no request to receive, and none in hand
  | deadlineFlush _ hdirty | timeout _ hdirty =>
    rw [hi.clean] at hdirty
    cases hdirty
  | recv _ hqueue =>
    rw [hi.queue] at hqueue
    cases hqueue
  | periodicFlushError hpc | periodicFlush hpc | periodicPublish hpc | periodicNotify hpc
  | periodicAck hpc | encodeError hpc | encodeRotate hpc | encodeWrite hpc | rotateFlushError hpc
  | rotateFlush hpc | rotatePublish hpc | rotateNotify hpc | rotateAck hpc
  | openNextError hpc | openNext hpc | writeError hpc | write hpc =>
    rw [hpc] at hidle
    exact hidle.elim
  | finalFlushError _ hflush | finalFlush _ hflush =>
    obtain ⟨hcontent, hmem, hbuf, hpos⟩ := hi.flush hflush
    exact ⟨hcontent, hmem, hbuf, hpos, hi.head, hi.queue, hi.clean, trivial⟩
  | finalPublish => exact { hi with head := hi.position, pc := trivial }
  | dropRx => exact { hi with queue := rfl, pc := trivial }
  | deadlineRecv | disconnected | finalAck | finalNotify | dropNotify | dropWriter =>
    exact { hi with pc := trivial }
  | dropWriterFlush _ hbuf => exact absurd hi.buf hbuf

lemma Idle.spawn : Idle base start (spawn base start) where
  content _ := Segments.content_create _ _
  mem_segments _ := Segments.mem_create
  buf := rfl
  position := rfl
  head := rfl
  queue := rfl
  clean := rfl
  pc := trivial

/-- Files and head of a writer that was sent nothing. -/
lemma idle_of_reach
    (h : Reach (Writer.step bc segmentBytes) (fun _ l => ∀ req, l ≠ .send req)
      (Writer.spawn base start) s) : Idle base start s :=
  h.invariant .spawn fun _ _ _ hi hl => hi.step hl

/-- What the subscription of an opened log sees once such a writer has exited. -/
lemma Idle.quiet {segs : Segments} {active : WalOffset} (hr : Recovered bc segs base active)
    (hi : Idle base active s) (hpc : s.pc = .exited) : Subscription.Quiet bc s.view where
  gone := by simp [view, notifyAlive, hpc]
  le_head id hid := by
    rw [view, hi.head]
    rcases (hi.mem_segments id).mp hid with rfl | hid
    · exact le_rfl
    · exact hr.le_of_mem hid
  length_head := by
    simp only [view, hi.head, hi.content]
    exact hr.length_content

lemma Idle.entriesFrom_eq {segs : Segments} {active pos : WalOffset}
    (hr : Recovered bc segs base active) (hi : Idle base active s) :
    entriesFrom bc s.segments pos = entriesFrom bc base pos :=
  hr.entriesFrom_of_create hi.mem_segments hi.content

end Writer

/-! ### Replay equals the recovery scan -/

/-- After an open that appended nothing, once the writer has exited, repeated `next` ends with
`None` and returns what the recovery scan finds in the segments from the start on. -/
theorem drain_of_open {segmentBytes : ℕ} {d : WalDir} {w : Wal} {s : Writer}
    (hopen : Wal.open bc d = .ok w)
    (hcursor : ∀ off, readCursor d = .ok (some off) → OnBoundary bc d.segments off)
    (hs : Reach (Writer.step bc segmentBytes) (fun _ l => ∀ req, l ≠ .send req) w.writer s)
    (hexit : s.pc = .exited) :
    ∃ fuel, ∀ n, fuel ≤ n →
      w.subscription.drain bc s.view n =
        some (recoveryLog bc d.segments w.subscription.position) := by
  obtain ⟨segs, active, start, hr, hstart, rfl⟩ := open_eq_ok hopen
  have hi := Writer.idle_of_reach hs
  have hq := hi.quiet hr hexit
  have hbound := boundary_of_readStart hstart hcursor
  have hhead : s.view.head = active := hi.head
  have hfile : ∀ id, s.view.segments.content id = segs.content id := hi.content
  have hbehind : Subscription.Behind bc s.view start.segmentId start.byteOffset := by
    refine ⟨hhead ▸ le_of_readStart hr hstart, ?_, ?_⟩
    · intro heq
      rw [OnBoundary, heq, hhead] at hbound
      rw [hhead, hr.byteOffset_eq, (frames bc).stop_of_mem_boundaries hbound]
      exact Nat.le_add_right _ _
    · intro heq
      rw [OnBoundary, heq, hhead] at hbound
      rw [heq, hhead, hfile, hr.content_active, (frames bc).drop_take_stop hbound]
      exact (frames bc).whole_take_stop _
  have hwhole : (frames bc).Whole (s.view.segments.content s.view.head.segmentId) := by
    rw [hhead, hfile]
    exact hr.whole_active
  have hdrain := Subscription.drains_entriesFrom hq hbehind
    (s := (Subscription.new start).startRead) rfl rfl rfl (readerAt_none _) hwhole
  have hall : Subscription.Drains bc s.view (Subscription.new start)
      (entriesFrom bc s.segments start) :=
    .of_silent _ (by simp [Subscription.new]) (by simp only [Subscription.step]; rfl) hdrain
  have hlog : entriesFrom bc s.segments start = recoveryLog bc d.segments start := by
    rw [recoveryLog_eq, hi.entriesFrom_eq hr, hr.entriesFrom_eq hbound]
  rw [hlog] at hall
  exact hall

/-- A segment with a record, a frame without payload and a torn tail. -/
def tornDir : WalDir where
  segments := (∅ : Segments).write 1
    [25, 0, 0, 0, 1, 0, 0, 0, 0, 0, 0, 0, 97, 1, 0, 0, 0, 0, 0, 0, 0, 0, 0, 0, 0, 0, 0, 0, 0,
      0, 0, 0, 0, 9, 9]
  cursor := none
  cursorTmp := none

/-- The run of a writer whose senders are dropped at once. -/
def quietExit : List WriterLabel :=
  [.dropSenders, .deadline false, .disconnected, .flush none, .step, .step, .step, .step, .step,
    .flush none]

theorem drain_of_tornDir :
    ∃ w s fuel, Wal.open Bincode.fixint tornDir = .ok w ∧
      exec (Writer.step Bincode.fixint 1024) w.writer quietExit = some s ∧
      ∀ n, fuel ≤ n → w.subscription.drain Bincode.fixint s.view n =
        some [⟨⟨1, 0⟩, ⟨1, 29⟩, ⟨"a", 1, ""⟩⟩] := by
  obtain ⟨w, s, hopen, hexec, hexit, hpos⟩ : ∃ (w : Wal) (s : Writer),
      Wal.open Bincode.fixint tornDir = .ok w ∧
        exec (Writer.step Bincode.fixint 1024) w.writer quietExit = some s ∧
        s.pc = .exited ∧ w.subscription.position = ⟨1, 0⟩ := ⟨_, _, rfl, rfl, rfl, rfl⟩
  have hsilent : ∀ l ∈ quietExit, ∀ req, l ≠ .send req := by simp [quietExit]
  obtain ⟨fuel, hfuel⟩ :=
    drain_of_open hopen nofun (Reach.of_exec (always_of_forall_mem fun l hl _ => hsilent l hl)
      hexec) hexit
  refine ⟨w, s, fuel, hopen, hexec, fun n hn => ?_⟩
  rw [hfuel n hn, hpos]
  rfl

end SmarthomeIngest
