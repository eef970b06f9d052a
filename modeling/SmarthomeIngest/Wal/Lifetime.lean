import SmarthomeIngest.Wal.Forwarding.Drain
import SmarthomeIngest.Wal.Writer.Acked

/-!
# At-least-once delivery over crashes

Processes that open the same directory one after the other, each with a writer and a forwarder of its
own, each ended by a crash at any point, in the middle of a write as well. What the cursor covers and
what the sink has accepted since is the log in order; every acknowledged entry is part of it or has
still to be forwarded.
-/

namespace SmarthomeIngest

open Transition

/-! ### The system -/

/-- The running process. The other fields are history, of the processes before it: the entries that
were acknowledged, those that the sink has accepted, and those of them that the cursor covered. -/
structure Lifetime where
  node : Forwarding
  acked : List WalEntry
  accepted : List WalEntry
  committed : List WalEntry

inductive LifetimeLabel where
  | node (l : ForwardingLabel)
  | crash (written : Bytes)

namespace Forwarding

/-- The bytes that a write can be about: a crash leaves any first part of them in the file. -/
def inFlight (s : Forwarding) : Bytes := s.writer.buf ++ s.writer.pc.frame.getD []

/-- The directory after a crash. One in the middle of a commit is one behind a commit that fails
there. -/
def crashDir (s : Forwarding) (written : Bytes) : WalDir :=
  { s.dir with
    segments := s.writer.segments.write s.writer.currentSegmentId
      (s.writer.segments.content s.writer.currentSegmentId ++ written) }

/-- The accepted entries that the cursor covers. -/
def committed (s : Forwarding) : List WalEntry :=
  s.accepted.take (s.accepted.length - s.uncommitted.length)

/-- What the forwarder has not yet handed to the sink. -/
def pending (bc : Bincode) (s : Forwarding) : List WalEntry :=
  s.batch ++ entriesFrom bc s.writer.segments s.subscription.position

end Forwarding

namespace Lifetime

def init (w : Wal) : Lifetime := ⟨Forwarding.init w, [], [], []⟩

variable (bc : Bincode) (segmentBytes batchSize : ℕ)

def step (s : Lifetime) : LifetimeLabel → Option Lifetime
  | .node l => (s.node.step bc segmentBytes batchSize l).map fun node => { s with node := node }
  | .crash written =>
    if written <+: s.node.inFlight then
      match Wal.open bc (s.node.crashDir written) with
      | .ok w => some
        { node := Forwarding.init w
          acked := s.acked ++ s.node.writer.ackedEntries
          accepted := s.accepted ++ s.node.accepted
          committed := s.committed ++ s.node.committed }
      | .error _ => none
    else none

/-- The steps of the processes are orderly, and file lengths are `u64` values. -/
def Orderly (s : Lifetime) : LifetimeLabel → Prop
  | .node l => s.node.Orderly bc segmentBytes l
  | .crash written =>
    (s.node.writer.segments.content s.node.writer.currentSegmentId).length + written.length < 2 ^ 64

instance decidableOrderly (s : Lifetime) : DecidablePred (s.Orderly bc segmentBytes)
  | .node l => inferInstanceAs (Decidable (s.node.Orderly bc segmentBytes l))
  | .crash _ => inferInstanceAs (Decidable (_ < _))

variable {bc segmentBytes batchSize} in
/-- What a crash leaves. -/
lemma of_crash {s s' : Lifetime} {written : Bytes}
    (h : s.step bc segmentBytes batchSize (.crash written) = some s') :
    written <+: s.node.inFlight ∧ ∃ w, Wal.open bc (s.node.crashDir written) = .ok w ∧
      s' =
        { node := Forwarding.init w
          acked := s.acked ++ s.node.writer.ackedEntries
          accepted := s.accepted ++ s.node.accepted
          committed := s.committed ++ s.node.committed } := by
  simp only [step] at h
  split_ifs at h with hwritten
  split at h
  · rename_i w hopen
    exact ⟨hwritten, w, hopen, (Option.some.inj h).symm⟩
  · cases h

end Lifetime

variable {bc : Bincode} {segmentBytes batchSize : ℕ} {start base : WalOffset} {segs : Segments}

/-! ### Torn writes -/

/-- What the scan accepts of a part of a clean string is clean. -/
lemma Clean.take_stop {b c : Bytes} (hc : Clean bc c) (hbc : b <+: c) :
    Clean bc (b.take ((frames bc).stop b)) := by
  refine ⟨(frames bc).whole_take_stop b, fun p hp => ?_⟩
  rw [(frames bc).scan_take_stop] at hp
  exact hc.2 p (((frames bc).mem_scan_of_isPrefix hbc).mp hp).1

/-- In a clean log nothing is skipped between two boundaries. -/
lemma le_of_entriesFrom_eq {xs : List WalEntry}
    (hclean : ∀ id, Clean bc (segs.content id)) (hstart : OnBoundary bc segs start)
    (hbase : OnBoundary bc segs base) (hle : start.segmentId ≤ base.segmentId)
    (h : entriesFrom bc segs start = xs ++ entriesFrom bc segs base) : start ≤ base := by
  by_contra hlt
  rw [not_le, WalOffset.lt_iff] at hlt
  rcases hlt with hlt | ⟨heq, hoff⟩
  · exact absurd hle (not_le.mpr hlt)
  · have hlen := ((frames bc).mem_boundaries.mp hstart).1
    rw [← heq] at hlen
    rcases ((hclean _).drop hbase).cases with hnil | ⟨event, n, hnext, -⟩
    · have := List.drop_eq_nil_iff.mp hnil
      omega
    · have hfirst := entriesFrom_of_record hnext
      have hmem : (⟨base, ⟨base.segmentId, base.byteOffset + n⟩, event⟩ : WalEntry) ∈
          entriesFrom bc segs start := by
        rw [h]
        refine List.mem_append_right _ ?_
        rw [show base = ⟨base.segmentId, base.byteOffset⟩ from rfl, hfirst]
        exact List.mem_cons_self
      exact absurd (le_of_mem_entriesFrom hmem)
        (not_le.mpr (WalOffset.lt_iff.mpr (.inr ⟨heq, hoff⟩)))

/-! ### One process -/

/-- A log opened from a directory whose bytes the reader accepts. -/
structure Opened (bc : Bincode) (d : WalDir) (w : Wal) : Prop where
  opens : Wal.open bc d = .ok w
  clean : ∀ id, Clean bc (w.writer.segments.content id)
  cursor : ∀ off, readCursor d = .ok (some off) → OnBoundary bc d.segments off
  fits : FitsU64 d.segments

namespace Forwarding

variable {w : Wal} {s : Forwarding} {f : Forwarder} {d : WalDir}

lemma inFlight_clean (hf : Mirrors bc s f) : Clean bc s.inFlight := by
  refine hf.reading.writer.buf.append ?_
  cases hframe : s.writer.pc.frame with
  | none => exact clean_nil
  | some frame => exact hf.reading.writer.frame frame hframe

namespace Simulated

/-- What was there when the process started is still in its log. -/
lemma content_prefix (hsim : Simulated bc segmentBytes batchSize w s f) (id : ℕ) :
    w.writer.segments.content id <+: f.log.content id :=
  hsim.writer.invariant (P := fun t => w.writer.segments.content id <+: t.segments.content id)
    List.prefix_rfl fun _ _ _ ht _ hstep => ht.trans (Writer.content_of_step hstep id)

/-- What holds of the writer that nothing is removed from. -/
lemma wholeWriter (hbc : bc.RoundTrips) (ho : Opened bc d w)
    (hsim : Simulated bc segmentBytes batchSize w s f) :
    (∃ segs active, Recovered bc d.segments segs active ∧
      Writer.Intact bc segmentBytes segs active (s.wholeWriter f.log)) ∧
    Writer.Accounted s.writer.pc (s.wholeWriter f.log) ∧ (s.wholeWriter f.log).AcksSound := by
  obtain ⟨segs, active, start, hr, -, rfl⟩ := open_eq_ok ho.opens
  have hreach : Reachable (Writer.step bc segmentBytes) (Writer.spawn segs active)
      (s.wholeWriter f.log) := hsim.writer.mono fun _ _ _ => trivial
  exact ⟨⟨segs, active, hr, Writer.Intact.reach hbc hr hsim.writer⟩, .reachable hreach,
    .reachable hreach⟩

/-- The entries that the writer has acknowledged are in its log. -/
lemma acked (hbc : bc.RoundTrips) (ho : Opened bc d w)
    (hsim : Simulated bc segmentBytes batchSize w s f) :
    ∀ e ∈ s.writer.ackedEntries, e ∈ entriesFrom bc f.log w.subscription.position := by
  obtain ⟨segs, active, start, hr, hstart, rfl⟩ := open_eq_ok ho.opens
  have hintact := Writer.Intact.reach hbc hr hsim.writer
  have hreach : Reachable (Writer.step bc segmentBytes) (Writer.spawn segs active)
      (s.wholeWriter f.log) := hsim.writer.mono fun _ _ _ => trivial
  have hsound := Writer.AcksSound.reachable hreach
  intro e he
  obtain ⟨r, hrec, ⟨id, hack, hok⟩, rfl⟩ := Writer.mem_ackedEntries.mp he
  have hin := Writer.in_of_acked hintact.inv (.reachable hreach) hsound hrec hack hok
  have hbound := hr.onBoundary (boundary_of_readStart hstart ho.cursor)
  obtain ⟨pos, hd⟩ := hsim.durable
  have hoff := ((frames bc).mem_boundaries.mp (hd.onBoundary_start.startIn r.segmentId)).1
  have hpre : f.log.content r.segmentId <+: (s.wholeWriter f.log).flushed.content r.segmentId := by
    rw [SegmentWriter.content_flushed]
    exact List.prefix_append _ _
  have hflushed : r.entry ∈ entriesFrom bc (s.wholeWriter f.log).flushed start := by
    rw [hintact.logged.entries start hbound (le_of_readStart hr hstart)]
    exact List.mem_append_right _ (List.mem_map_of_mem hrec)
  exact mem_entriesFrom_of_offsetAfter_le hpre hoff hin.end_le hflushed

/-- The accepted entries that the cursor covers, and what is read behind the cursor. -/
lemma committed (hsim : Simulated bc segmentBytes batchSize w s f) (hd : f.Durable bc start base) :
    entriesFrom bc f.log start = s.committed ++ entriesFrom bc f.log base := by
  obtain ⟨xs, hxs⟩ := hsim.suffix
  have hcommitted : s.committed = xs := by
    rw [Forwarding.committed, ← hxs, List.length_append, Nat.add_sub_cancel, List.take_left' rfl]
  rw [hd.entries, hd.replay, hcommitted, hsim.mirrors.accepted, hsim.mirrors.uncommitted, ← hxs]
  simp only [List.append_assoc]

end Simulated

/-- Recovery leaves only whole frames of what the crash has left. -/
lemma clean_of_crash (hf : Mirrors bc s f) {written : Bytes} (hwritten : written <+: s.inFlight)
    {active : WalOffset} (hr : Recovered bc (s.crashDir written).segments segs active) (id : ℕ) :
    Clean bc (segs.content id) := by
  have hends := hf.reading.writer.endsWith
  have hfiles := hf.reading.writer.files
  by_cases hid : id = active.segmentId
  · rw [hid, hr.content_active]
    by_cases hcur : active.segmentId = s.writer.currentSegmentId
    · rw [hcur, crashDir, Segments.content_write_self]
      apply Clean.take_stop ((hfiles s.writer.currentSegmentId).append (inFlight_clean hf))
      exact (List.prefix_append_right_inj _).mpr hwritten
    · rw [crashDir, Segments.content_write_ne hcur]
      exact Clean.take_stop (hfiles _) List.prefix_rfl
  · rw [hr.content_ne id hid]
    have hcur : id ≠ s.writer.currentSegmentId := by
      rintro rfl
      have hmem : s.writer.currentSegmentId ∈ (s.crashDir written).segments :=
        Segments.mem_write.mpr (.inl rfl)
      rcases hr.active_mem with ⟨hempty, -⟩ | hactive
      · exact hempty _ hmem
      · refine hid ((hr.le_active _ hmem).antisymm ?_)
        exact (Segments.mem_write.mp hactive).elim Eq.le (hends.2 _)
    rw [crashDir, Segments.content_write_ne hcur]
    exact hfiles id

/-- The directory opens after a crash; what comes behind the cursor then is what came there before,
and what a write has finished. -/
lemma Opened.of_crash (hsim : Simulated bc segmentBytes batchSize w s f)
    (hd : f.Durable bc start base) {written : Bytes} (hwritten : written <+: s.inFlight)
    (hlen : (s.writer.segments.content s.writer.currentSegmentId).length + written.length < 2 ^ 64) :
    ∃ w', Opened bc (s.crashDir written) w' ∧ w'.subscription.position = base ∧
      entriesFrom bc f.log base <+: entriesFrom bc w'.writer.segments base := by
  have hf := hsim.mirrors
  have hends := hf.whole.endsWith
  have hcontent := hf.content_current hd
  have hlast : f.lastSegment = some s.writer.currentSegmentId :=
    Forwarder.lastSegment_of_endsWith hends
  have hd' := hd.append (b := written) hlast (hcontent ▸ hlen)
  have hdir : { f.dir with
      segments := f.dir.segments.write s.writer.currentSegmentId
        (f.dir.segments.content s.writer.currentSegmentId ++ written) } = s.crashDir written := by
    rw [hf.dir]
    rfl
  rw [hdir] at hd'
  obtain ⟨w', hopen, hposition, hreplay⟩ := hd'.reopen
  obtain ⟨new, hnew⟩ := (Grows.append written).entries bc hends
  have hlog := hnew base hd.onBoundary_base (hf.base_le hd)
  refine ⟨w', ⟨hopen, fun id => ?_, ?_, ?_⟩, hposition, ?_⟩
  · obtain ⟨segs, active, start', hr, -, rfl⟩ := open_eq_ok hopen
    rw [show (Writer.spawn segs active).segments.content id = segs.content id from
      Segments.content_create _ _]
    exact clean_of_crash hf hwritten hr id
  · intro off hoff
    rcases hd'.cursorAt with hsome | ⟨hnone, -⟩
    · rw [hsome] at hoff
      cases hoff
      exact (hd'.covers.onBoundary_iff le_rfl).mpr hd'.onBoundary_base
    · rw [hnone] at hoff
      cases hoff
  · intro id hid
    rw [hd'.covers.content id hid]
    exact hd'.fits id (hd'.covers.mem_log id hid)
  · rw [hreplay]
    exact ⟨new, hlog.symm⟩

end Forwarding

/-! ### All processes -/

/-- The history of the processes before one that starts to read at `start` in `segs`. -/
structure History (bc : Bincode) (s : Lifetime) (segs : Segments) (start : WalOffset) : Prop where
  acked : ∀ e ∈ s.acked, e ∈ s.committed ∨ e ∈ entriesFrom bc segs start
  sorted : s.committed.Pairwise fun e e' => e.offset < e'.offset
  lt_start : ∀ e ∈ s.committed, e.offset < start
  accepted : ∀ e ∈ s.committed, e ∈ s.accepted

lemma History.init (w : Wal) :
    History bc (Lifetime.init w) w.writer.segments w.subscription.position where
  acked _ he := absurd he List.not_mem_nil
  sorted := .nil
  lt_start _ he := absurd he List.not_mem_nil
  accepted _ he := absurd he List.not_mem_nil

/-- The invariant over all processes. -/
structure Alive (bc : Bincode) (segmentBytes batchSize : ℕ) (s : Lifetime) (d : WalDir) (w : Wal) :
    Prop where
  opened : Opened bc d w
  reach : Reach (Forwarding.step bc segmentBytes batchSize) (Forwarding.Orderly bc segmentBytes)
    (Forwarding.init w) s.node
  history : History bc s w.writer.segments w.subscription.position

namespace Alive

variable {s s' : Lifetime} {d : WalDir} {w : Wal} {f : Forwarder}

lemma simulated (hbc : bc.RoundTrips) (hs : Alive bc segmentBytes batchSize s d w) :
    ∃ f, Forwarding.Simulated bc segmentBytes batchSize w s.node f :=
  Forwarding.simulated_of_reach hbc hs.opened.opens hs.opened.clean hs.opened.cursor hs.opened.fits
    hs.reach

/-- Every acknowledged entry is committed, or in the log that the process reads. -/
lemma acked (hbc : bc.RoundTrips) (hs : Alive bc segmentBytes batchSize s d w)
    (hsim : Forwarding.Simulated bc segmentBytes batchSize w s.node f) :
    ∀ e ∈ s.acked ++ s.node.writer.ackedEntries,
      e ∈ s.committed ∨ e ∈ entriesFrom bc f.log w.subscription.position := by
  intro e he
  rcases List.mem_append.mp he with he | he
  · refine (hs.history.acked e he).imp_right ?_
    exact mem_entriesFrom_of_prefix (hsim.content_prefix _)
  · exact .inr (hsim.acked hbc hs.opened e he)

/-- The next process. -/
lemma crash (hbc : bc.RoundTrips) (hs : Alive bc segmentBytes batchSize s d w) {written : Bytes}
    (hwritten : written <+: s.node.inFlight)
    (hlen : (s.node.writer.segments.content s.node.writer.currentSegmentId).length +
      written.length < 2 ^ 64) :
    ∃ w' s', Wal.open bc (s.node.crashDir written) = .ok w' ∧
      s.step bc segmentBytes batchSize (.crash written) = some s' ∧
      Alive bc segmentBytes batchSize s' (s.node.crashDir written) w' := by
  obtain ⟨f, hsim⟩ := hs.simulated hbc
  obtain ⟨base, hd⟩ := hsim.durable
  obtain ⟨w', hopened, rfl, hpre⟩ := Forwarding.Opened.of_crash hsim hd hwritten hlen
  have hlog := hsim.committed hd
  have hstart_le := le_of_entriesFrom_eq hsim.mirrors.whole.files hd.onBoundary_start
    hd.onBoundary_base hd.start_le hlog
  have hstep : s.step bc segmentBytes batchSize (.crash written) = some
      { node := Forwarding.init w'
        acked := s.acked ++ s.node.writer.ackedEntries
        accepted := s.accepted ++ s.node.accepted
        committed := s.committed ++ s.node.committed } := by
    simp only [Lifetime.step, if_pos hwritten, hopened.opens]
  refine ⟨w', _, hopened.opens, hstep, hopened, .refl, ?_⟩
  constructor
  case acked =>
    intro e he
    rcases hs.acked hbc hsim e he with he | he
    · exact .inl (List.mem_append_left _ he)
    · rw [hlog] at he
      rcases List.mem_append.mp he with he | he
      · exact .inl (List.mem_append_right _ he)
      · exact .inr (hpre.subset he)
  case sorted =>
    have hsorted := pairwise_entriesFrom bc f.log w.subscription.position
    rw [hlog, List.pairwise_append] at hsorted
    refine List.pairwise_append.mpr ⟨hs.history.sorted, hsorted.1, fun e he e' he' => ?_⟩
    have hmem : e' ∈ entriesFrom bc f.log w.subscription.position := by
      rw [hlog]
      exact List.mem_append_left _ he'
    exact (hs.history.lt_start e he).trans_le (le_of_mem_entriesFrom hmem)
  case lt_start =>
    intro e he
    rcases List.mem_append.mp he with he | he
    · exact (hs.history.lt_start e he).trans_le hstart_le
    · exact lt_of_entriesFrom_eq hd.onBoundary_start hd.onBoundary_base hlog he
  case accepted =>
    intro e he
    rcases List.mem_append.mp he with he | he
    · exact List.mem_append_left _ (hs.history.accepted e he)
    · exact List.mem_append_right _ (List.mem_of_mem_take he)

lemma step (hbc : bc.RoundTrips) (hs : ∃ d w, Alive bc segmentBytes batchSize s d w)
    {l : LifetimeLabel} (hl : s.Orderly bc segmentBytes l)
    (h : s.step bc segmentBytes batchSize l = some s') :
    ∃ d w, Alive bc segmentBytes batchSize s' d w := by
  obtain ⟨d, w, hs⟩ := hs
  cases l with
  | node l =>
    obtain ⟨node, hnode, rfl⟩ := Option.map_eq_some_iff.mp h
    exact ⟨d, w, hs.opened, hs.reach.tail hl hnode, ⟨hs.history.acked, hs.history.sorted,
      hs.history.lt_start, hs.history.accepted⟩⟩
  | crash written =>
    obtain ⟨w', t, -, hstep, halive⟩ := hs.crash hbc (Lifetime.of_crash h).1 hl
    rw [h] at hstep
    cases hstep
    exact ⟨_, w', halive⟩

/-- What the process reads is what the sink has accepted and what is pending. -/
lemma log (hsim : Forwarding.Simulated bc segmentBytes batchSize w s.node f) :
    entriesFrom bc f.log w.subscription.position = s.node.accepted ++ s.node.pending bc := by
  rw [hsim.entries, Forwarding.pending, List.append_assoc]

/-- Every acknowledged entry is committed, accepted, or pending. -/
lemma covered (hbc : bc.RoundTrips) (hs : Alive bc segmentBytes batchSize s d w) :
    ∀ e ∈ s.acked ++ s.node.writer.ackedEntries,
      e ∈ s.committed ++ s.node.accepted ++ s.node.pending bc := by
  obtain ⟨f, hsim⟩ := hs.simulated hbc
  intro e he
  rw [List.append_assoc, ← log hsim]
  exact List.mem_append.mpr (hs.acked hbc hsim e he)

/-- `Ok` stands for an entry of the event that was sent with the ack. -/
lemma exists_entry_of_ack (hbc : bc.RoundTrips) (hs : Alive bc segmentBytes batchSize s d w)
    {req : WriteRequest} {id : ℕ} (hreq : req ∈ s.node.writer.sent)
    (hack : req.durableAck = some id) (hok : (id, .ok) ∈ s.node.writer.acks) :
    ∃ e ∈ s.node.writer.ackedEntries, e.event = req.event := by
  obtain ⟨f, hsim⟩ := hs.simulated hbc
  obtain ⟨⟨_, _, -, hintact⟩, haccounted, hsound⟩ := hsim.wholeWriter hbc hs.opened
  exact Writer.exists_entry_of_ack hintact.inv haccounted hsound hreq hack hok

/-- When `run_forwarder` has returned there is nothing left. -/
lemma pending_of_returned (hbc : bc.RoundTrips) (hs : Alive bc segmentBytes batchSize s d w)
    (hpc : s.node.pc = .returned) : s.node.pending bc = [] := by
  obtain ⟨f, hsim⟩ := hs.simulated hbc
  have hending := Forwarding.ending_of_reach hbc hs.opened.opens hs.opened.clean
    hs.opened.cursor hs.opened.fits hs.reach
  obtain ⟨hgone, hposition⟩ := hending.ended (hending.closing (by rw [hpc]; trivial))
  obtain ⟨segs, active, start, hr, -, rfl⟩ := open_eq_ok hs.opened.opens
  have hclosed := hsim.closed (Writer.Intact.reach hbc hr hsim.writer) hgone
  rw [Forwarding.pending, hending.returned hpc, hsim.entriesFrom_of_ended hclosed hposition]
  rfl

end Alive

namespace Lifetime

variable {s : Lifetime}

end Lifetime

end SmarthomeIngest
