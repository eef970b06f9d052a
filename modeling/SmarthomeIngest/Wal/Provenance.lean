import SmarthomeIngest.Wal.Lifetime
import SmarthomeIngest.Wal.Restarts

/-!
# Where the entries come from

No process makes an event up. Whatever fails and whenever the processes crash, in the middle of a
frame as well, what the log holds beyond what it held at first are events that were sent, each at
most as often as it was sent and in the order of sending.
-/

namespace SmarthomeIngest

open Transition

variable {bc : Bincode} {segmentBytes : ℕ} {base segs segs' : Segments} {start pos : WalOffset}

/-- A log of files that have grown has the old entries among its own. -/
lemma entriesFrom_sublist (hpre : ∀ id, segs.content id <+: segs'.content id) :
    (entriesFrom bc segs pos).Sublist (entriesFrom bc segs' pos) := by
  have hsorted := pairwise_entriesFrom bc segs pos
  have hsorted' := pairwise_entriesFrom bc segs' pos
  have hanti : Std.Antisymm fun e e' : WalEntry => e.offset < e'.offset :=
    ⟨fun _ _ h h' => absurd h' h.not_gt⟩
  have hirrefl : Std.Irrefl fun e e' : WalEntry => e.offset < e'.offset := ⟨fun _ => lt_irrefl _⟩
  have hsub : entriesFrom bc segs pos ⊆ entriesFrom bc segs' pos := fun _ he =>
    mem_entriesFrom_of_prefix (hpre _) he
  exact List.sublist_of_subperm_of_pairwise (List.subperm_of_subset hsorted.nodup hsub) hsorted
    hsorted'

/-- What a label sends. -/
def WriterLabel.sends : WriterLabel → List WriteRequest
  | .send req => [req]
  | _         => []

namespace Writer

variable {s s' : Writer} {l : WriterLabel}

/-! ### The bytes on their way -/

/-- The requests of the frames that have been written, and that of the frame in hand. -/
def onTheWayRequests (s : Writer) : List WriteRequest :=
  s.records.map Record.request ++ if s.pc.frame.isSome then s.pc.inHand else []

lemma onTheWayRequests_sublist (hi : Inv bc segmentBytes base start s.pc s) :
    s.onTheWayRequests.Sublist s.sent := by
  obtain ⟨rest, hsplit, -⟩ := hi.queueOrder
  have hhand : (if s.pc.frame.isSome then s.pc.inHand else []).Sublist s.pc.inHand := by
    split_ifs
    · exact .refl _
    · exact List.nil_sublist _
  rw [← hsplit]
  exact ((records_sublist_taken hi).append hhand).trans (List.sublist_append_left _ _)

/-- The frame in hand is that of the request in hand. -/
lemma encode_of_frame (hi : Inv bc segmentBytes base start s.pc s) {frame : Bytes}
    (hframe : s.pc.frame = some frame) :
    ∃ req, s.pc.inHand = [req] ∧ encodeInto bc req.event = .ok frame := by
  have hatPc := hi.atPc
  cases hpc : s.pc <;> rw [hpc] at hframe hatPc <;> cases hframe
  case rotateFlush req => exact ⟨req, rfl, hatPc⟩
  all_goals exact ⟨_, rfl, hatPc.1⟩

/-- Until `writer_loop` returns, the log with the bytes on their way has the entries that were there
at the start, those of the records, and that of the frame in hand. -/
lemma entriesFrom_onTheWay (hbc : bc.RoundTrips) (hs : Keeps bc segmentBytes base start s)
    (hrun : s.pc.Running) (hpos : OnBoundary bc base pos) (hle : pos.segmentId ≤ start.segmentId) :
    ∃ added, entriesFrom bc s.onTheWay pos = entriesFrom bc base pos ++ added ∧
      added.map WalEntry.event = s.onTheWayRequests.map WriteRequest.event := by
  have hl := hs.inv.layout hrun
  have hlogged := hs.logged hrun
  have hentries := hlogged.entries pos hpos hle
  have hflushed : s.onTheWay = s.flushed.write s.currentSegmentId
      (s.flushed.content s.currentSegmentId ++ s.pc.frame.getD []) := by
    rw [SegmentWriter.content_flushed]
    exact (Segments.write_write _ _ _).symm
  cases hframe : s.pc.frame with
  | none =>
    refine ⟨s.records.map Record.entry, ?_, by simp [onTheWayRequests, hframe, Record.entry]⟩
    rw [hflushed, hframe, ← hentries, SegmentWriter.flushed]
    simp [Segments.write_write]
  | some frame =>
    obtain ⟨req, hhand, hencode⟩ := encode_of_frame hs.inv hframe
    have hlimit := within_of_inHand hs.inv.queueOrder hs.sent req (by simp [hhand]) frame hencode
    have hnext := next_encodeInto hbc hencode hlimit
    refine ⟨s.records.map Record.entry ++
      [⟨s.position, ⟨s.currentSegmentId, s.currentByteOffset + frame.length⟩, req.event⟩], ?_,
      by simp [onTheWayRequests, hframe, hhand, Record.entry]⟩
    have hbound := (Logged.onBoundary hl hpos).startIn s.currentSegmentId
    have hends : EndsWith s.flushed s.currentSegmentId := by
      refine ⟨SegmentWriter.mem_flushed.mpr (.inl rfl), fun id hid => ?_⟩
      exact (SegmentWriter.mem_flushed.mp hid).elim Eq.le (hl.le_current id)
    rw [hflushed, hframe, Option.getD_some,
      entriesFrom_write_boundary hends.1 hends.2 (hle.trans hl.start_le) hbound,
      SegmentWriter.content_flushed, hlogged.whole, List.drop_length, List.nil_append,
      hl.length_bytes, segmentEntries_of_record hnext, List.drop_length, segmentEntries_nil,
      hentries, List.append_assoc]
    rfl

/-- What is sent by a step. -/
lemma sent_of_step (h : Writer.step bc segmentBytes s l = some s') :
    s'.sent = s.sent ++ l.sends := by
  cases WriterRule.of_step h with
  | send => rfl
  | _ => exact (List.append_nil _).symm

/-- Whatever a crash leaves, the log from `pos` on has entries that were there when the writer
started, and of the events sent since each at most as often as it was sent, in that order. -/
def Traced (bc : Bincode) (base : Segments) (pos : WalOffset) (s : Writer) : Prop :=
  ∃ added, (entriesFrom bc s.onTheWay pos).Sublist (entriesFrom bc base pos ++ added) ∧
    (added.map WalEntry.event).Sublist (s.sent.map WriteRequest.event)

lemma Keeps.traced (hbc : bc.RoundTrips) (hs : Keeps bc segmentBytes base start s)
    (hrun : s.pc.Running) (hpos : OnBoundary bc base pos) (hle : pos.segmentId ≤ start.segmentId) :
    s.Traced bc base pos := by
  obtain ⟨added, hentries, hevents⟩ := entriesFrom_onTheWay hbc hs hrun hpos hle
  refine ⟨added, hentries ▸ .refl _, ?_⟩
  rw [hevents]
  exact (onTheWayRequests_sublist hs.inv).map _

lemma Traced.step (hbc : bc.RoundTrips) (ht : s.Traced bc base pos)
    (hs : Keeps bc segmentBytes base start s') (hpos : OnBoundary bc base pos)
    (hle : pos.segmentId ≤ start.segmentId) (h : Writer.step bc segmentBytes s l = some s') :
    s'.Traced bc base pos := by
  by_cases hrun : s'.pc.Running
  · exact hs.traced hbc hrun hpos hle
  · obtain ⟨added, hentries, hevents⟩ := ht
    refine ⟨added, (entriesFrom_sublist (onTheWay_of_step h hrun)).trans hentries, ?_⟩
    rw [sent_of_step h, List.map_append]
    exact hevents.trans (List.sublist_append_left _ _)

lemma traced_of_reach (hbc : bc.RoundTrips) (hr : Recovered bc segs base start)
    (hpos : OnBoundary bc base pos) (hle : pos.segmentId ≤ start.segmentId)
    (h : Reach (Writer.step bc segmentBytes) (Smooth bc) (.spawn base start) s) :
    s.Traced bc base pos := by
  have hinv : Keeps bc segmentBytes base start s ∧ s.Traced bc base pos := by
    have hspawn : Keeps bc segmentBytes base start (.spawn base start) := .spawn hr
    refine h.invariant (P := fun t => Keeps bc segmentBytes base start t ∧ t.Traced bc base pos)
      ⟨hspawn, hspawn.traced hbc trivial hpos hle⟩ ?_
    rintro t l t' ⟨hkeeps, htraced⟩ hl hstep
    have hkeeps' : Keeps bc segmentBytes base start t' := by
      refine hkeeps.step hbc hl.2 ?_ hstep
      rintro req rfl
      exact hl.1
    exact ⟨hkeeps', htraced.step hbc hkeeps' hpos hle hstep⟩
  exact hinv.2

/-- What a crash leaves has what the log had at the start, and what was sent. -/
lemma Traced.forall (ht : s.Traced bc base pos) {P : WalEvent → Prop}
    (hbase : ∀ e ∈ entriesFrom bc base pos, P e.event) (hsent : ∀ req ∈ s.sent, P req.event) :
    ∀ e ∈ entriesFrom bc s.onTheWay pos, P e.event := by
  obtain ⟨added, hentries, hevents⟩ := ht
  intro e he
  rcases List.mem_append.mp (hentries.subset he) with he | he
  · exact hbase e he
  · obtain ⟨req, hreq, heq⟩ := List.mem_map.mp (hevents.subset (List.mem_map_of_mem he))
    exact heq ▸ hsent req hreq

end Writer

/-! ### Processes that fail -/

/-- The events that a label sends. -/
def RestartsLabel.sends : RestartsLabel → List WalEvent
  | .writer l => l.sends.map WriteRequest.event
  | .crash    => []

namespace Restarts

variable {s s' : Restarts} {l : RestartsLabel} {events : List WalEvent}

/-- The log, with what is on its way to it, has some of `events` in order. -/
structure Sourced (bc : Bincode) (segmentBytes : ℕ) (events : List WalEvent) (s : Restarts) :
    Prop where
  writer : ∃ base start, s.writer.Keeps bc segmentBytes base start ∧
    s.writer.Traced bc base ⟨0, 0⟩ ∧
    ∃ past, ((entriesFrom bc base ⟨0, 0⟩).map WalEntry.event).Sublist past ∧
      past ++ s.writer.sent.map WriteRequest.event = events

namespace Sourced

lemma onTheWay (hs : s.Sourced bc segmentBytes events) :
    ((entriesFrom bc s.writer.onTheWay ⟨0, 0⟩).map WalEntry.event).Sublist events := by
  obtain ⟨base, start, -, ⟨added, hentries, hadded⟩, past, hpast, rfl⟩ := hs.writer
  refine (hentries.map WalEntry.event).trans ?_
  rw [List.map_append]
  exact hpast.append hadded

/-- So has the log itself. -/
lemma entries (hs : s.Sourced bc segmentBytes events) :
    ((entriesFrom bc s.writer.segments ⟨0, 0⟩).map WalEntry.event).Sublist events :=
  ((entriesFrom_sublist s.writer.content_prefix_onTheWay).map _).trans hs.onTheWay

/-- The log of a process at its start. -/
lemma spawn {active : WalOffset} (hbc : bc.RoundTrips) (hr : Recovered bc segs base active)
    (hevents : ((entriesFrom bc segs ⟨0, 0⟩).map WalEntry.event).Sublist events)
    (cursor tmp : Option Bytes) (acked : List WalEntry) :
    Sourced bc segmentBytes events ⟨.spawn base active, cursor, tmp, acked⟩ where
  writer := by
    have hkeeps : (Writer.spawn base active).Keeps bc segmentBytes base active := .spawn hr
    refine ⟨base, active, hkeeps, ?_, events, ?_, List.append_nil events⟩
    · exact hkeeps.traced hbc trivial (onBoundary_zero 0) (Nat.zero_le _)
    · rw [hr.entriesFrom_eq (onBoundary_zero 0)]
      exact hevents

lemma writer_step (hbc : bc.RoundTrips) (hs : s.Sourced bc segmentBytes events) {l : WriterLabel}
    {w : Writer} (hl : s.Within bc (.writer l)) (h : s.writer.step bc segmentBytes l = some w) :
    Sourced bc segmentBytes (events ++ l.sends.map WriteRequest.event)
      { s with writer := w } where
  writer := by
    obtain ⟨base, start, hkeeps, htraced, past, hpast, rfl⟩ := hs.writer
    have hkeeps' := hkeeps.step hbc hl.writer.1 hl.writer.2 h
    refine ⟨base, start, hkeeps', ?_, past, hpast, ?_⟩
    · exact htraced.step hbc hkeeps' (onBoundary_zero 0) (Nat.zero_le _) h
    · rw [Writer.sent_of_step h, List.map_append, List.append_assoc]

lemma step (hbc : bc.RoundTrips) (hs : s.Sourced bc segmentBytes events) (hl : s.Within bc l)
    (h : s.step bc segmentBytes l = some s') :
    s'.Sourced bc segmentBytes (events ++ l.sends) := by
  cases l with
  | writer l =>
    obtain ⟨w, hw, rfl⟩ := Option.map_eq_some_iff.mp h
    exact hs.writer_step hbc hl hw
  | crash =>
    simp only [Restarts.step] at h
    split at h
    · rename_i w hopen
      cases h
      obtain ⟨segs, active, start, hr, -, rfl⟩ := open_eq_ok hopen
      rw [RestartsLabel.sends, List.append_nil]
      exact spawn hbc hr hs.entries _ _ _
    · cases h

lemma exec (hbc : bc.RoundTrips) {ls : List RestartsLabel} (hs : s.Sourced bc segmentBytes events)
    (hl : Always (Restarts.step bc segmentBytes) (Within bc) s ls)
    (h : exec (Restarts.step bc segmentBytes) s ls = some s') :
    s'.Sourced bc segmentBytes (events ++ ls.flatMap RestartsLabel.sends) := by
  induction ls generalizing s events with
  | nil =>
    cases h
    simpa using hs
  | cons l ls ih =>
    obtain ⟨t, ht, hrest⟩ := Option.bind_eq_some_iff.mp h
    rw [List.flatMap_cons, ← List.append_assoc]
    exact ih (hs.step hbc hl.1 ht) (hl.2 t ht) hrest

end Sourced

/-- Whatever fails and whenever the processes crash, the directory opens again, and the events read
from it are those of the log at the start and of the events sent since, each at most as often as it
was sent and in the order of sending: nothing is made up, repeated or swapped. -/
theorem sourced_of_exec (hbc : bc.RoundTrips) {d : WalDir} {w : Wal} {ls : List RestartsLabel}
    (hopen : Wal.open bc d = .ok w)
    (hcursor : ∀ off, readCursor d = .ok (some off) → OnBoundary bc d.segments off)
    (hwithin : Always (step bc segmentBytes) (Within bc) (init w) ls)
    (h : Transition.exec (step bc segmentBytes) (init w) ls = some s) :
    ∃ w', Wal.open bc s.dir = .ok w' ∧
      ((entriesFrom bc w'.writer.segments ⟨0, 0⟩).map WalEntry.event).Sublist
        ((entriesFrom bc d.segments ⟨0, 0⟩).map WalEntry.event ++
          ls.flatMap RestartsLabel.sends) := by
  have hkept : Kept bc segmentBytes s :=
    (Reach.of_exec hwithin h).invariant (.init hopen hcursor)
      fun _ _ _ ht hl hstep => ht.step hbc hl hstep
  have hsourced : s.Sourced bc segmentBytes ((entriesFrom bc d.segments ⟨0, 0⟩).map WalEntry.event ++
      ls.flatMap RestartsLabel.sends) := by
    obtain ⟨segs, active, start, hr, -, rfl⟩ := open_eq_ok hopen
    exact (Sourced.spawn hbc hr (.refl _) _ _ _).exec hbc hwithin h
  obtain ⟨w', hopen'⟩ := hkept.cursor.open
  refine ⟨w', hopen', ?_⟩
  obtain ⟨segs, active, start, hr, -, rfl⟩ := open_eq_ok hopen'
  show ((entriesFrom bc (segs.create active.segmentId) ⟨0, 0⟩).map WalEntry.event).Sublist _
  rw [hr.entriesFrom_create (onBoundary_zero 0)]
  exact hsourced.entries

/-- The run in which a crash tears the second frame. -/
theorem sourced_of_tornFlush :
    ∃ w s w', Wal.open Bincode.fixint ⟨∅, none, none⟩ = .ok w ∧
      Transition.exec (step Bincode.fixint 1024) (init w) tornFlush = some s ∧
      Wal.open Bincode.fixint s.dir = .ok w' ∧
      ((entriesFrom Bincode.fixint w'.writer.segments ⟨0, 0⟩).map WalEntry.event).Sublist
        [⟨"a", 1, ""⟩, ⟨"b", 2, ""⟩, ⟨"c", 3, ""⟩] := by
  obtain ⟨w, s, hopen, hexec⟩ : ∃ (w : Wal) (s : Restarts),
      Wal.open Bincode.fixint ⟨∅, none, none⟩ = .ok w ∧
      Transition.exec (step Bincode.fixint 1024) (init w) tornFlush = some s :=
    ⟨_, _, rfl, rfl⟩
  obtain ⟨w', hopen', hread⟩ := sourced_of_exec Bincode.fixint_roundTrips hopen nofun
    (within_tornFlush hopen) hexec
  exact ⟨w, s, w', hopen, hexec, hopen', hread⟩

end Restarts

/-! ### Processes that forward -/

/-- What a label sends. -/
def ForwardingLabel.sends : ForwardingLabel → List WriteRequest
  | .writer l => l.sends
  | _         => []

/-- What a label sends. -/
def LifetimeLabel.sends : LifetimeLabel → List WriteRequest
  | .node l  => l.sends
  | .crash _ => []

namespace Forwarding

variable {batchSize : ℕ} {w w' : Wal} {s : Forwarding} {f : Forwarder} {d : WalDir}

/-- What was there or has been sent is all that a crash can leave. -/
lemma forall_onTheWay (hbc : bc.RoundTrips) (ho : Opened bc d w)
    (hsim : Simulated bc segmentBytes batchSize w s f) {P : WalEvent → Prop}
    (hstart : ∀ e ∈ entriesFrom bc w.writer.segments w.subscription.position, P e.event)
    (hsent : ∀ req ∈ s.writer.sent, P req.event) :
    ∀ e ∈ entriesFrom bc (s.wholeWriter f.log).onTheWay w.subscription.position, P e.event := by
  obtain ⟨segs, active, start, hr, hread, rfl⟩ := open_eq_ok ho.opens
  have hbound := hr.onBoundary (boundary_of_readStart hread ho.cursor)
  have htraced := Writer.traced_of_reach hbc hr hbound (le_of_readStart hr hread) hsim.writer
  refine htraced.forall (fun e he => hstart e ?_) hsent
  show e ∈ entriesFrom bc (segs.create active.segmentId) start
  rwa [hr.entriesFrom_of_create (fun _ => Segments.mem_create) (Segments.content_create _)]

/-- The directory of a crash has no more than what was on its way. -/
lemma isPrefix_crashDir (hf : Mirrors bc s f) (hd : f.Durable bc start pos) {written : Bytes}
    (hwritten : written <+: s.inFlight) (id : ℕ) :
    (s.crashDir written).segments.content id <+: (s.wholeWriter f.log).onTheWay.content id := by
  rw [crashDir, Segments.content_write]
  split_ifs with hid
  · subst hid
    obtain ⟨t, ht⟩ := hwritten
    have hcontent : (s.wholeWriter f.log).onTheWay.content s.writer.currentSegmentId =
        s.writer.segments.content s.writer.currentSegmentId ++ (written ++ t) := by
      rw [Writer.content_onTheWay, ht, inFlight, ← hf.content_current hd]
      simp [SegmentWriter.bytes, wholeWriter]
    rw [hcontent, ← List.append_assoc]
    exact List.prefix_append _ _
  · refine List.IsPrefix.trans ?_ (Writer.content_prefix_onTheWay _ id)
    have hcovers := hd.covers.content_eq_or id
    rw [hf.dir] at hcovers
    rcases hcovers with heq | hnil
    · exact heq ▸ List.prefix_rfl
    · exact hnil ▸ List.nil_prefix

/-- Recovery only cuts. -/
lemma content_prefix_of_recovered {active : WalOffset} (hr : Recovered bc segs segs' active)
    (id : ℕ) : segs'.content id <+: segs.content id := by
  by_cases hid : id = active.segmentId
  · subst hid
    rw [hr.content_active]
    exact List.take_prefix _ _
  · exact hr.content_ne id hid ▸ List.prefix_rfl

/-- So the process after a crash reads nothing else. -/
lemma forall_of_crash (hbc : bc.RoundTrips) (ho : Opened bc d w)
    (hsim : Simulated bc segmentBytes batchSize w s f) {written : Bytes}
    (hwritten : written <+: s.inFlight) (hd : f.Durable bc w.subscription.position pos)
    (hopen : Wal.open bc (s.crashDir written) = .ok w') (hposition : w'.subscription.position = pos)
    {P : WalEvent → Prop}
    (hstart : ∀ e ∈ entriesFrom bc w.writer.segments w.subscription.position, P e.event)
    (hsent : ∀ req ∈ s.writer.sent, P req.event) :
    ∀ e ∈ entriesFrom bc w'.writer.segments w'.subscription.position, P e.event := by
  have hall := forall_onTheWay hbc ho hsim hstart hsent
  have hle := le_of_entriesFrom_eq hsim.mirrors.whole.files hd.onBoundary_start
    hd.onBoundary_base hd.start_le (hsim.committed hd)
  have hlog : ∀ id, f.log.content id <+: (s.wholeWriter f.log).onTheWay.content id :=
    Writer.content_prefix_onTheWay (s.wholeWriter f.log)
  obtain ⟨segs, active, start, hr, -, rfl⟩ := open_eq_ok hopen
  have hcontent : ∀ id, (segs.create active.segmentId).content id <+:
      (s.wholeWriter f.log).onTheWay.content id := by
    intro id
    rw [Segments.content_create]
    exact (content_prefix_of_recovered hr id).trans (isPrefix_crashDir hsim.mirrors hd hwritten id)
  intro e he
  rw [hposition] at he
  refine hall e ?_
  have hmem := mem_entriesFrom_of_prefix (hcontent _) he
  have hbase := onBoundary_of_prefix (hlog _) hd.onBoundary_base
  have hstart := onBoundary_of_prefix (hlog _) hd.onBoundary_start
  have hbehind := (mem_entriesFrom_iff hbase).mp hmem
  exact (mem_entriesFrom_iff hstart).mpr
    ⟨hle.trans hbehind.1, hbehind.2⟩

@[simp] lemma writer_received (s : Forwarding) (e : WalEntry) :
    (s.received batchSize e).writer = s.writer := by
  unfold received
  dsimp only
  split <;> simp

@[simp] lemma writer_closed (s : Forwarding) : s.closed.writer = s.writer := by
  unfold closed
  split <;> simp

@[simp] lemma writer_afterNext (s : Forwarding) (live : Live) :
    (s.afterNext batchSize live).writer = live.writer := by
  unfold afterNext
  split <;> simp [setLive]

/-- Only the writer's own steps send. -/
lemma sent_of_step {s' : Forwarding} {l : ForwardingLabel}
    (h : step bc segmentBytes batchSize s l = some s') :
    s'.writer.sent = s.writer.sent ++ l.sends := by
  cases ForwardingRule.of_step h with
  | writer hw => exact Writer.sent_of_step hw
  | next _ hlive => simp [(Live.of_next hlive).1, ForwardingLabel.sends, live]
  | commit =>
    unfold afterCommit
    split
    exact (List.append_nil _).symm
  | _ => simp [ForwardingLabel.sends]

end Forwarding

namespace Lifetime

variable {batchSize : ℕ} {s s' : Lifetime} {l : LifetimeLabel} {P Q : WalEvent → Prop}

/-- All events are of the kind `P`: those that the process found, those that have been sent to it, and
those that the sink took from the processes before it. -/
structure Made (bc : Bincode) (segmentBytes batchSize : ℕ) (P : WalEvent → Prop) (s : Lifetime) :
    Prop where
  alive : ∃ d w, Alive bc segmentBytes batchSize s d w ∧
    ∀ e ∈ entriesFrom bc w.writer.segments w.subscription.position, P e.event
  sent : ∀ req ∈ s.node.writer.sent, P req.event
  accepted : ∀ e ∈ s.accepted, P e.event

namespace Made

lemma mono (hs : s.Made bc segmentBytes batchSize P) (hPQ : ∀ e, P e → Q e) :
    s.Made bc segmentBytes batchSize Q where
  alive := by
    obtain ⟨d, w, halive, hstart⟩ := hs.alive
    exact ⟨d, w, halive, fun e he => hPQ _ (hstart e he)⟩
  sent req hreq := hPQ _ (hs.sent req hreq)
  accepted e he := hPQ _ (hs.accepted e he)

/-- What has been accepted and what is pending. -/
lemma forall_log (hbc : bc.RoundTrips) (hs : s.Made bc segmentBytes batchSize P) :
    ∀ e ∈ s.accepted ++ s.node.accepted ++ s.node.pending bc, P e.event := by
  obtain ⟨d, w, halive, hstart⟩ := hs.alive
  obtain ⟨f, hsim⟩ := halive.simulated hbc
  intro e he
  rw [List.append_assoc, ← Alive.log hsim] at he
  rcases List.mem_append.mp he with he | he
  · exact hs.accepted e he
  · refine Forwarding.forall_onTheWay hbc halive.opened hsim hstart hs.sent e ?_
    exact mem_entriesFrom_of_prefix (Writer.content_prefix_onTheWay (s.node.wholeWriter f.log) _) he

lemma step (hbc : bc.RoundTrips) (hs : s.Made bc segmentBytes batchSize P)
    (hl : s.Orderly bc segmentBytes l) (hsends : ∀ req ∈ l.sends, P req.event)
    (h : s.step bc segmentBytes batchSize l = some s') : s'.Made bc segmentBytes batchSize P := by
  have hall := hs.forall_log hbc
  obtain ⟨d, w, halive, hstart⟩ := hs.alive
  cases l with
  | node l =>
    obtain ⟨node, hnode, rfl⟩ := Option.map_eq_some_iff.mp h
    refine ⟨⟨d, w, ?_, hstart⟩, ?_, hs.accepted⟩
    · exact ⟨halive.opened, halive.reach.tail hl hnode, ⟨halive.history.acked,
        halive.history.sorted, halive.history.lt_start, halive.history.accepted⟩⟩
    · rw [Forwarding.sent_of_step hnode, List.forall_mem_append]
      exact ⟨hs.sent, hsends⟩
  | crash written =>
    obtain ⟨w', t, hopen, hstep, halive'⟩ := halive.crash hbc (of_crash h).1 hl
    obtain ⟨f, hsim⟩ := halive.simulated hbc
    obtain ⟨base, hd⟩ := hsim.durable
    obtain ⟨w'', hopened, hposition, -⟩ := Forwarding.Opened.of_crash hsim hd (of_crash h).1 hl
    obtain rfl : w' = w'' := Except.ok.inj (hopen.symm.trans hopened.opens)
    obtain rfl : s' = t := Option.some.inj (h.symm.trans hstep)
    refine ⟨⟨_, w', halive', ?_⟩, ?_, ?_⟩
    · exact Forwarding.forall_of_crash hbc halive.opened hsim (of_crash h).1 hd hopen hposition
        hstart hs.sent
    · obtain ⟨-, w'', hopen'', rfl⟩ := of_crash h
      obtain ⟨_, _, _, -, -, rfl⟩ := open_eq_ok hopen''
      nofun
    · obtain ⟨-, w'', -, rfl⟩ := of_crash h
      exact fun e he => hall e (List.mem_append_left _ he)

end Made

end Lifetime

end SmarthomeIngest
