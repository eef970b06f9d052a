import SmarthomeIngest.Wal.Forwarding.Refines
import SmarthomeIngest.Wal.Writer.Logged

/-!
# The forwarder's return

`run_forwarder` returns when `next` does: when the writer is gone and its last head has been read up
to. By then the sink has accepted every entry there was and every event that was sent, and the cursor
is behind all of them.
-/

namespace SmarthomeIngest

open Transition

/-- The flush behind the loop, and the return. -/
def ForwardingPc.Closing : ForwardingPc → Prop
  | .write _ closing | .commit _ closing => closing
  | .returned => True
  | .select => False

/-- What the forwarder and `next` may rely on at the end of the log. -/
structure Ending (s : Forwarding) : Prop where
  reload : ∀ seen, s.subscription.pc = .reloadHead seen → s.writer.notifyAlive = false
  ended : s.subscription.pc = .ended →
    s.writer.notifyAlive = false ∧ s.subscription.position = s.writer.head
  closing : s.pc.Closing → s.subscription.pc = .ended
  returned : s.pc = .returned → s.batch = []

variable {bc : Bincode} {segmentBytes batchSize : ℕ} {base : Segments} {start : WalOffset}
  {s s' : Forwarding} {f : Forwarder}

namespace Writer

variable {t t' : Writer} {l : WriterLabel}

/-- A writer whose handle is gone, and which nothing has failed, has written everything and
published it. -/
lemma Intact.of_notifyGone (ht : Intact bc segmentBytes base start t)
    (hgone : t.notifyAlive = false) : t.Closed ∧ t.Served := by
  have hclosing := ht.closing
  unfold notifyAlive at hgone
  split at hgone
  · rename_i hpc
    rwa [hpc] at hclosing
  · rename_i hpc
    rwa [hpc] at hclosing
  · rename_i hpc
    rwa [hpc] at hclosing
  · cases hgone

end Writer

namespace Ending

lemma init (w : Wal) (hpc : w.subscription.pc = .ready) : Ending (Forwarding.init w) where
  reload seen h := by simp [Forwarding.init, hpc] at h
  ended h := by simp [Forwarding.init, hpc] at h
  closing := False.elim
  returned := nofun

lemma startFlush (hs : Ending s) {closing : Bool}
    (hclosing : closing → s.subscription.pc = .ended) : Ending (s.startFlush closing) := by
  unfold Forwarding.startFlush
  split
  · exact hs
  · exact { hs with closing := hclosing, returned := nofun }

lemma writer (hs : Ending s) {l : WriterLabel} {w : Writer}
    (h : s.writer.step bc segmentBytes l = some w) : Ending { s with writer := w } where
  reload seen hpc := (Writer.of_notifyGone h (hs.reload seen hpc)).1
  ended hpc := by
    obtain ⟨hgone, hposition⟩ := hs.ended hpc
    obtain ⟨hgone', hhead⟩ := Writer.of_notifyGone h hgone
    exact ⟨hgone', hposition.trans hhead.symm⟩
  closing := hs.closing
  returned := hs.returned

lemma drop (hs : Ending s) {sub : Subscription} {entry : Option WalEntry} (hpc : s.pc = .select)
    (h : s.subscription.step bc s.writer.view .drop = some (sub, entry)) :
    Ending { s with subscription := sub } := by
  have hready : sub.pc = .ready := by
    cases Subscription.NextRule.of_step h <;> rfl
  constructor
  · intro seen hsub
    rw [hready] at hsub
    cases hsub
  · intro hsub
    rw [hready] at hsub
    cases hsub
  · intro hclosing
    rw [hpc] at hclosing
    exact hclosing.elim
  · exact hs.returned

/-- `next` ends at the last head of the writer, which is the end of the log. -/
lemma of_next (hs : Ending s) (hr : s.live.Reading bc start)
    (hclosed : s.writer.notifyAlive = false → s.writer.Closed) {sub : Subscription}
    {entry : Option WalEntry}
    (h : s.subscription.step bc s.writer.view (.run {}) = some (sub, entry)) :
    (∀ seen, sub.pc = .reloadHead seen → s.writer.notifyAlive = false) ∧
    (sub.pc = .ended → s.writer.notifyAlive = false ∧ sub.position = s.writer.head) := by
  cases Subscription.NextRule.of_step h with
  | closed _ hgone => exact ⟨fun _ _ => by simpa [Writer.view] using hgone, nofun⟩
  | ended hpc hseg hoff =>
    refine ⟨nofun, fun _ => ?_⟩
    have hgone := hs.reload _ hpc
    obtain ⟨-, hhead, hlength⟩ := hclosed hgone
    have hsegment : s.subscription.curSegmentId = s.writer.currentSegmentId :=
      (hr.le_head.antisymm hseg).trans (congrArg WalOffset.segmentId hhead)
    have hbound := ((frames bc).mem_boundaries.mp hr.onBoundary).1
    have hoffset : s.subscription.curByteOffset ≤ s.writer.currentByteOffset := by
      rw [← hlength, ← hsegment]
      exact hbound
    refine ⟨hgone, ?_⟩
    change s.writer.head.byteOffset ≤ s.subscription.curByteOffset at hoff
    rw [hhead] at hoff ⊢
    show (⟨s.subscription.curSegmentId, s.subscription.curByteOffset⟩ : WalOffset) =
      ⟨s.writer.currentSegmentId, s.writer.currentByteOffset⟩
    rw [hsegment, hoffset.antisymm hoff]
  | record | corrupt | nothing | activeTail | poison | unreadablePrefix | tooLong | skip | register
  | nextSegment | ahead | atHead | parks | reloadAhead | notified | ready => exact ⟨nofun, nofun⟩

lemma next (hs : Ending s) (hr : s.live.Reading bc start)
    (hclosed : s.writer.notifyAlive = false → s.writer.Closed) (hpc : s.pc = .select)
    {live : Live} (h : s.live.step bc segmentBytes .next = some live) :
    Ending (s.afterNext batchSize live) := by
  obtain ⟨⟨sub, entry⟩, hsub, rfl⟩ := Option.map_eq_some_iff.mp h
  obtain ⟨hreload, hended⟩ := hs.of_next hr hclosed hsub
  have hselect : ∀ {batch : List WalEntry} {seenLen : ℕ},
      Ending { s with subscription := sub, seenLen := seenLen, batch := batch } := by
    intro batch seenLen
    refine ⟨hreload, hended, fun h => ?_, fun h => ?_⟩
    · rw [hpc] at h
      exact h.elim
    · rw [hpc] at h
      cases h
  cases entry with
  | some e =>
    show Ending (Forwarding.received batchSize { s with subscription := sub, seenLen := _ } e)
    dsimp only [Forwarding.received]
    split_ifs
    · exact hselect.startFlush nofun
    · exact hselect
  | none =>
    by_cases hend : sub.pc = .ended
    · refine (Forwarding.afterNext_of_ended hend).symm ▸ ?_
      unfold Forwarding.closed
      split_ifs with hbatch
      · exact { reload := hreload, ended := hended, closing := fun _ => hend,
                returned := fun _ => hbatch }
      · exact hselect.startFlush fun _ => hend
    · exact (Forwarding.afterNext_of_ne hend).symm ▸ hselect

lemma commit (hs : Ending s) {upTo : WalOffset} {closing : Bool} (hpc : s.pc = .commit upTo closing)
    (hbatch : s.batch = []) (faults : CommitFaults) :
    Ending (s.afterCommit upTo closing faults) := by
  have hclosing : closing → s.subscription.pc = .ended := by
    intro h
    apply hs.closing
    rw [hpc]
    exact h
  unfold Forwarding.afterCommit
  generalize SmarthomeIngest.commit s.dir s.subscription.lastGcSegmentId upTo faults = result
  obtain ⟨r, d, gc⟩ := result
  constructor
  · exact hs.reload
  · exact hs.ended
  · intro h
    cases r with
    | error e => exact hclosing h
    | ok =>
      cases closing with
      | false => exact h.elim
      | true => exact hclosing rfl
  · exact fun _ => hbatch

lemma step (hs : Ending s) (hf : Mirrors bc s f) (hd : ∃ pos, f.Durable bc start pos)
    (hclosed : s.writer.notifyAlive = false → s.writer.Closed) {l : ForwardingLabel}
    (h : s.step bc segmentBytes batchSize l = some s') : Ending s' := by
  cases Forwarding.ForwardingRule.of_step h with
  | writer hw => exact hs.writer hw
  | next hpc hlive => exact hs.next hf.reading hclosed hpc hlive
  | tick => exact hs.startFlush nofun
  | tickDrop hpc hsub => exact (hs.drop hpc hsub).startFlush nofun
  | accept hpc =>
    have hclosing := hs.closing
    rw [hpc] at hclosing
    exact { reload := hs.reload, ended := hs.ended, closing := hclosing, returned := nofun }
  | refuse => exact hs
  | @commit upTo closing _ hpc =>
    obtain ⟨pos, hd⟩ := hd
    have hpc' : f.pc = .createTmp upTo closing := by rw [hf.pc, hpc]; rfl
    have hatPc := hd.atPc
    simp only [Forwarder.AtPc, hpc'] at hatPc
    exact hs.commit hpc (hf.batch.symm.trans hatPc.1) _

end Ending

namespace Forwarding

/-- Nothing that the writer has to write is missing from its segment files. -/
lemma Simulated.closed {w : Wal} (h : Simulated bc segmentBytes batchSize w s f)
    (hi : (s.wholeWriter f.log).Intact bc segmentBytes base start)
    (hgone : s.writer.notifyAlive = false) : s.writer.Closed := by
  obtain ⟨⟨hbuf, hhead, hlength⟩, -⟩ := hi.of_notifyGone hgone
  obtain ⟨pos, hd⟩ := h.durable
  exact ⟨hbuf, hhead, (congrArg List.length (h.mirrors.content_current hd)).symm.trans hlength⟩

lemma ending_of_reach (hbc : bc.RoundTrips) {d : WalDir} {w : Wal}
    (hopen : Wal.open bc d = .ok w) (hclean : ∀ id, Clean bc (w.writer.segments.content id))
    (hcursor : ∀ off, readCursor d = .ok (some off) → OnBoundary bc d.segments off)
    (hfits : FitsU64 d.segments)
    (h : Reach (Forwarding.step bc segmentBytes batchSize) (Orderly bc segmentBytes) (init w) s) :
    Ending s := by
  obtain ⟨segs, active, start, hr, -, hw⟩ := open_eq_ok hopen
  induction h with
  | refl => exact .init w (by rw [hw]; rfl)
  | tail hs hG hstep ih =>
    obtain ⟨f, hsim⟩ := simulated_of_reach hbc hopen hclean hcursor hfits hs
    have hwriter := hsim.writer
    rw [hw] at hwriter
    have hintact := Writer.Intact.reach hbc hr hwriter
    exact ih.step hsim.mirrors hsim.durable (hsim.closed hintact) hstep

/-- With the writer gone and closed, the last head is the end of the log. -/
lemma Simulated.entriesFrom_of_ended {w : Wal} (h : Simulated bc segmentBytes batchSize w s f)
    (hclosed : s.writer.Closed) (hposition : s.subscription.position = s.writer.head) :
    entriesFrom bc s.writer.segments s.subscription.position = [] := by
  rw [hposition, hclosed.head]
  refine (entriesFrom_of_end hclosed.length).trans (entriesFrom_past_end fun id hid => ?_)
  exact Nat.lt_succ_of_le (h.mirrors.reading.writer.endsWith.2 id hid)

/-- When `run_forwarder` returns, the writer is gone with nothing left to write, and the sink has
accepted every entry that `Wal::open` found behind the cursor and then every event that was sent and
encodes, each once and in this order; and no other will be sent. The directory opens again, and there
is nothing left to read. -/
theorem drained_of_returned (hbc : bc.RoundTrips) {d : WalDir} {w : Wal}
    (hopen : Wal.open bc d = .ok w) (hclean : ∀ id, Clean bc (w.writer.segments.content id))
    (hcursor : ∀ off, readCursor d = .ok (some off) → OnBoundary bc d.segments off)
    (hfits : FitsU64 d.segments)
    (h : Reach (Forwarding.step bc segmentBytes batchSize) (Orderly bc segmentBytes) (init w) s)
    (hpc : s.pc = .returned) :
    s.writer.notifyAlive = false ∧ s.writer.buf = [] ∧
    s.accepted.map WalEntry.event =
      (entriesFrom bc w.writer.segments w.subscription.position).map WalEntry.event ++
        (encodedFrames bc s.writer.taken).map (fun p => p.1.event) ∧
    s.writer.sendersGone ∧ s.writer.taken = s.writer.sent ∧
    ∃ w', Wal.open bc s.dir = .ok w' ∧
      entriesFrom bc w'.writer.segments w'.subscription.position = [] := by
  obtain ⟨f, hsim⟩ := simulated_of_reach hbc hopen hclean hcursor hfits h
  have hending := ending_of_reach hbc hopen hclean hcursor hfits h
  obtain ⟨hgone, hposition⟩ := hending.ended (hending.closing (by rw [hpc]; trivial))
  obtain ⟨segs, active, start, hr, hstart, rfl⟩ := open_eq_ok hopen
  have hintact := Writer.Intact.reach hbc hr hsim.writer
  have hclosed := hsim.closed hintact hgone
  have hlast := hsim.mirrors.whole.endsWith.1
  have hrest := hsim.entriesFrom_of_ended hclosed hposition
  have huncommitted : s.uncommitted = [] := by
    obtain ⟨pos, hd⟩ := hsim.durable
    have hpc' : f.pc = .returned := by rw [hsim.mirrors.pc, hpc]; rfl
    have hatPc := hd.atPc
    simp only [Forwarder.AtPc, hpc'] at hatPc
    rw [← hsim.mirrors.uncommitted, hatPc]
  have hwritten : s.writer.records.map (fun r => (r.request, r.frame)) =
      encodedFrames bc s.writer.taken := hintact.inv.written
  have haccepted : s.accepted =
      entriesFrom bc segs start ++ s.writer.records.map Record.entry := by
    have hlog := hsim.entries
    rw [hending.returned hpc, hrest, List.append_nil, List.append_nil] at hlog
    have hbound := hr.onBoundary (boundary_of_readStart hstart hcursor)
    have hwhole := hintact.logged.entries start hbound (le_of_readStart hr hstart)
    have hflushed : (s.wholeWriter f.log).buf = [] := hclosed.buf
    rw [SegmentWriter.entriesFrom_flushed hflushed hlast] at hwhole
    exact hlog.symm.trans hwhole
  have hopened : entriesFrom bc (Writer.spawn segs active).segments start =
      entriesFrom bc segs start :=
    hr.entriesFrom_of_create (fun _ => Segments.mem_create) (Segments.content_create _)
  obtain ⟨w', hopen', hreplay⟩ := hsim.reopen
  have hserved := (hintact.of_notifyGone hgone).2
  refine ⟨hgone, hclosed.buf, ?_, hserved.sendersGone, hserved.taken, w', hopen', ?_⟩
  · show _ = (entriesFrom bc (Writer.spawn segs active).segments start).map _ ++ _
    rw [haccepted, hopened, List.map_append, ← hwritten, List.map_map, List.map_map]
    rfl
  · rw [hreplay, huncommitted, hending.returned hpc, hrest]
    rfl

/-- An event is sent and the senders are dropped; what is on disk and what is sent is forwarded in
batches of one, the second one at the second attempt. -/
def lastEvent : List ForwardingLabel :=
  ([.send ⟨⟨"b", 1, ""⟩, none⟩, .deadline false, .recv, .step, .write none none, .dropSenders,
    .deadline false, .disconnected, .flush none, .step, .step, .step, .step].map .writer) ++
  [.next, .next, .sink .ok, .commit {}, .next, .next, .sink .retryable, .sink .ok, .commit {},
    .next, .next, .next, .next, .next, .next]

lemma orderly_lastEvent {w : Wal} (hopen : Wal.open Bincode.fixint Live.oneFrameDir = .ok w) :
    Always (step Bincode.fixint 1024 1) (Orderly Bincode.fixint 1024) (init w) lastEvent := by
  cases hopen
  decide

theorem drained_of_lastEvent :
    ∃ w s, Wal.open Bincode.fixint Live.oneFrameDir = .ok w ∧
      exec (step Bincode.fixint 1024 1) (init w) lastEvent = some s ∧ s.pc = .returned ∧
      s.accepted.map WalEntry.event = [⟨"a", 1, ""⟩, ⟨"b", 1, ""⟩] ∧
      ∃ w', Wal.open Bincode.fixint s.dir = .ok w' ∧
        entriesFrom Bincode.fixint w'.writer.segments w'.subscription.position = [] := by
  obtain ⟨w, s, hopen, hfiles, hexec, hpc, haccepted⟩ :
      ∃ (w : Wal) (s : Forwarding), Wal.open Bincode.fixint Live.oneFrameDir = .ok w ∧
        w.writer.segments = Live.oneFrameDir.segments.create 1 ∧
        exec (step Bincode.fixint 1024 1) (init w) lastEvent = some s ∧ s.pc = .returned ∧
        s.accepted.map WalEntry.event = [⟨"a", 1, ""⟩, ⟨"b", 1, ""⟩] :=
    ⟨_, _, rfl, rfl, rfl, rfl, rfl⟩
  obtain ⟨-, -, -, -, -, hreopen⟩ := drained_of_returned Bincode.fixint_roundTrips hopen
    (fun id => hfiles ▸ Live.clean_oneFrameDir id) nofun fitsU64_oneFrameDir
    (.of_exec (orderly_lastEvent hopen) hexec) hpc
  exact ⟨w, s, hopen, hexec, hpc, haccepted, hreopen⟩

end Forwarding

end SmarthomeIngest
