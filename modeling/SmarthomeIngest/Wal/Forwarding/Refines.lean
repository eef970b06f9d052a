import SmarthomeIngest.Wal.Forwarding
import SmarthomeIngest.Wal.Writer.Files

/-!
# The forwarder of an open log is a forwarder

Every run of `Forwarding` whose steps are orderly is, step for step, a run of `Forwarder`: bytes that
the writer makes visible are appended to its log, the entry that `next` returns is the first one
behind its position, and a commit is its file operations in turn. So what the invariant of
`Forwarder` says of a crash holds of the real subscription as well.
-/

namespace SmarthomeIngest

open Transition

/-! ### The forwarder -/

namespace Forwarder

variable {s : Forwarder}

@[simp] lemma log_startFlush (s : Forwarder) (closing : Bool) :
    (s.startFlush closing).log = s.log := by
  unfold startFlush
  split <;> rfl

lemma lastSegment_of_endsWith {last : ℕ} (h : EndsWith s.log last) :
    s.lastSegment = some last := by
  cases hlast : s.lastSegment with
  | none => exact absurd h.1 (getLast?_listSegments_eq_none hlast last)
  | some id =>
    obtain ⟨hmem, hle⟩ := endsWith_of_lastSegment hlast
    rw [(h.2 id hmem).antisymm (hle last h.1)]

end Forwarder

/-! ### The simulation -/

/-- A commit starts with the first of its file operations. -/
def ForwardingPc.toForwarder : ForwardingPc → ForwarderPc
  | .select                => .select
  | .write highest closing => .write highest closing
  | .commit upTo closing   => .createTmp upTo closing
  | .returned              => .returned

/-- The writer on all the segments there have been, those removed by commits included. -/
def Forwarding.wholeWriter (s : Forwarding) (log : Segments) : Writer :=
  { s.writer with segments := log }

/-- The forwarder of an open log looks like `f`: same directory, batch and history; what `next` has
still to return is what `f` reads behind its position; and the writer would leave the log of `f`
behind if nothing were removed. -/
structure Mirrors (bc : Bincode) (s : Forwarding) (f : Forwarder) : Prop where
  dir : f.dir = s.dir
  gc : f.lastGcSegmentId = s.subscription.lastGcSegmentId
  batch : f.batch = s.batch
  pc : f.pc = s.pc.toForwarder
  accepted : f.accepted = s.accepted
  uncommitted : f.uncommitted = s.uncommitted
  reading : s.live.Reading bc f.position
  whole : (s.wholeWriter f.log).Sound bc s.writer.pc

variable {bc : Bincode} {segmentBytes batchSize : ℕ} {start base : WalOffset} {s s' : Forwarding}
  {f f' : Forwarder}

/-- The forwarder gets from `f` to a state that looks like `s'`, and the writer that nothing is
removed from makes the step of the writer, if it is one. -/
def Answers (bc : Bincode) (segmentBytes batchSize : ℕ) (s : Forwarding) (f : Forwarder)
    (s' : Forwarding) : Prop :=
  ∃ bs f', exec (Forwarder.step bc batchSize) f bs = some f' ∧ Mirrors bc s' f' ∧
    Reach (Writer.step bc segmentBytes) (Writer.Smooth bc) (s.wholeWriter f.log)
      (s'.wholeWriter f'.log)

lemma Answers.of_silent (hf : Mirrors bc s' f) (hw : s'.wholeWriter f.log = s.wholeWriter f.log) :
    Answers bc segmentBytes batchSize s f s' :=
  ⟨[], f, rfl, hf, hw ▸ .refl⟩

lemma Answers.of_step {b : ForwarderLabel} (hb : Forwarder.step bc batchSize f b = some f')
    (hf : Mirrors bc s' f') (hw : s'.wholeWriter f'.log = s.wholeWriter f.log) :
    Answers bc segmentBytes batchSize s f s' :=
  ⟨[b], f', by simp [exec, hb], hf, hw ▸ .refl⟩

namespace Forwarding

@[simp] lemma writer_startFlush (s : Forwarding) (closing : Bool) :
    (s.startFlush closing).writer = s.writer := by
  unfold startFlush
  split <;> rfl

lemma wholeWriter_congr (log : Segments) (h : s'.writer = s.writer) :
    s'.wholeWriter log = s.wholeWriter log := by
  rw [wholeWriter, h, wholeWriter]

end Forwarding

namespace Mirrors

/-- The segment of the writer is not below the cursor. -/
lemma base_le (hf : Mirrors bc s f) (hd : f.Durable bc start base) :
    base.segmentId ≤ s.writer.currentSegmentId :=
  hd.base_le.trans (hf.reading.start_le.trans (hf.reading.le_head.trans hf.reading.writer.head_le))

lemma content_current (hf : Mirrors bc s f) (hd : f.Durable bc start base) :
    f.log.content s.writer.currentSegmentId =
      s.writer.segments.content s.writer.currentSegmentId := by
  rw [← hd.covers.content_eq (hf.base_le hd), hf.dir]
  rfl

lemma select (hf : Mirrors bc s f) (hpc : s.pc = .select) : f.pc = .select := by
  rw [hf.pc, hpc]
  rfl

lemma startFlush (hf : Mirrors bc s f) (closing : Bool) :
    Mirrors bc (s.startFlush closing) (f.startFlush closing) := by
  unfold Forwarding.startFlush Forwarder.startFlush
  rw [hf.batch]
  cases hlast : s.batch.getLast? with
  | none => exact hf
  | some e => exact { hf with batch := rfl, pc := rfl }

/-- What the writer makes visible is appended, and the segment it starts is created. -/
lemma exec_fileOp (batchSize : ℕ) (hf : Mirrors bc s f) (hd : f.Durable bc start base)
    (op : FileOp)
    (hlen : ∀ b, op = .append b →
      (s.writer.segments.content s.writer.currentSegmentId).length + b.length < 2 ^ 64)
    (hcreate : op = .create → s.writer.currentSegmentId + 1 < 2 ^ 64) :
    ∃ bs, exec (Forwarder.step bc batchSize) f bs = some { f with
      dir := { f.dir with
        segments := op.apply s.writer.currentSegmentId s.writer.segments }
      log := op.apply s.writer.currentSegmentId f.log } := by
  have hlast : f.lastSegment = some s.writer.currentSegmentId :=
    Forwarder.lastSegment_of_endsWith hf.whole.endsWith
  have hsegs : f.dir.segments = s.writer.segments := congrArg WalDir.segments hf.dir
  cases op with
  | none =>
    refine ⟨[], ?_⟩
    simp only [exec, FileOp.apply, ← hsegs]
  | append b =>
    refine ⟨[.append b], ?_⟩
    have hlt := hlen b rfl
    simpa [exec, Forwarder.step, hlast, hf.content_current hd, hsegs, FileOp.apply] using hlt
  | create =>
    refine ⟨[.createSegment], ?_⟩
    have hlt := hcreate rfl
    have hnext := Nat.mod_eq_of_lt hlt
    rw [FileOp.apply, FileOp.apply, hnext]
    simpa [exec, Forwarder.step, hlast, hsegs] using Nat.lt_sub_of_add_lt hlt

/-- A step of the writer. -/
lemma writer (hbc : bc.RoundTrips) (hf : Mirrors bc s f) (hd : f.Durable bc start base)
    {l : WriterLabel} {w : Writer} (hl : s.Orderly bc segmentBytes (.writer l))
    (hw : s.writer.step bc segmentBytes l = some w) :
    Answers bc segmentBytes batchSize s f { s with writer := w } := by
  obtain ⟨hsmooth, hlen⟩ := hl
  obtain ⟨op, hdoes, hlog⟩ := Writer.fileOp_of_step hw
  have hstep := hlog f.log (hf.content_current hd)
  have hwhole : (s.wholeWriter f.log).Smooth bc l := hsmooth
  obtain ⟨hsound, -, -⟩ := hf.whole.step hbc hwhole hstep
  have hcreate : op = .create → s.writer.currentSegmentId + 1 < 2 ^ 64 := by
    intro hop
    have hfits := (hd.fits _ hf.whole.endsWith.1).1
    have hup := Writer.currentSegmentId_of_step hsmooth.2 hw
    have hnext := hdoes.create hop
    change s.writer.currentSegmentId < 2 ^ 64 at hfits
    omega
  have happend : ∀ b, op = .append b →
      (s.writer.segments.content s.writer.currentSegmentId).length + b.length < 2 ^ 64 := by
    intro b hop
    have hlen := hlen w hw
    rw [hdoes.append b hop, hdoes.segments, hop, FileOp.apply, Segments.content_write_self,
      List.length_append] at hlen
    exact hlen
  obtain ⟨bs, hexec⟩ := hf.exec_fileOp batchSize hd op happend hcreate
  refine ⟨bs, _, hexec, ?_, Reach.refl.tail hwhole hstep⟩
  exact { hf with
    dir := by rw [← hdoes.segments, hf.dir]; rfl
    reading := hf.reading.of_writer hbc hsmooth hw
    whole := hsound }

lemma closed (hf : Mirrors bc s f) (hpc : s.pc = .select) :
    Answers bc segmentBytes batchSize s f s.closed := by
  have hpc' := hf.select hpc
  by_cases hbatch : s.batch = []
  · have hbatch' : f.batch = [] := hf.batch.trans hbatch
    have hstep : Forwarder.step bc batchSize f .closed = some { f with pc := .returned } := by
      simp [Forwarder.step, hpc', hbatch']
    refine .of_step hstep ?_ ?_
    · rw [Forwarding.closed, if_pos hbatch]
      exact { hf with pc := rfl }
    · rw [Forwarding.closed, if_pos hbatch]
      rfl
  · have hbatch' : f.batch ≠ [] := fun h => hbatch (hf.batch.symm.trans h)
    have hstep : Forwarder.step bc batchSize f .closed = some (f.startFlush true) := by
      simp [Forwarder.step, hpc', hbatch']
    refine .of_step hstep ?_ ?_
    · rw [Forwarding.closed, if_neg hbatch]
      exact hf.startFlush true
    · rw [Forwarding.closed, if_neg hbatch, Forwarder.log_startFlush]
      exact Forwarding.wholeWriter_congr _ (s.writer_startFlush true)

/-- The ticker. -/
lemma tick (hf : Mirrors bc s f) (hpc : s.pc = .select) :
    Answers bc segmentBytes batchSize s f (s.startFlush false) := by
  have hpc' := hf.select hpc
  refine .of_step (b := .tick) ?_ (hf.startFlush false) ?_
  · simp only [Forwarder.step, hpc', Option.some.injEq, ite_eq_right_iff]
    intro hnil
    simp [Forwarder.startFlush, hnil]
  · rw [Forwarder.log_startFlush]
    exact Forwarding.wholeWriter_congr _ (s.writer_startFlush false)

lemma drop (hf : Mirrors bc s f) {sub : Subscription} {entry : Option WalEntry}
    (h : s.subscription.step bc s.writer.view .drop = some (sub, entry)) :
    Mirrors bc { s with subscription := sub } f := by
  have hgc : sub.lastGcSegmentId = s.subscription.lastGcSegmentId := by
    cases Subscription.NextRule.of_step h <;> rfl
  exact { hf with gc := hf.gc.trans hgc.symm, reading := hf.reading.drop h }

/-- The entry that `next` returns is the first one behind the position. -/
lemma received (hf : Mirrors bc s f) (hpc : s.pc = .select) {sub : Subscription} {e : WalEntry}
    {seenLen : ℕ} (hr : Live.Reading bc f.position ⟨s.writer, sub, [e], seenLen⟩)
    (hafter : e.offsetAfter = sub.position)
    (hgc : sub.lastGcSegmentId = s.subscription.lastGcSegmentId) :
    Answers bc segmentBytes batchSize s f
      (Forwarding.received batchSize { s with subscription := sub, seenLen := seenLen } e) := by
  have hentries := hr.entries
  dsimp only at hentries
  rw [← hafter, List.singleton_append] at hentries
  have hpc' := hf.select hpc
  have hdir : f.dir.segments = s.writer.segments := congrArg WalDir.segments hf.dir
  let s₁ : Forwarding := { s with
    subscription := sub, seenLen := seenLen, batch := s.batch ++ [e] }
  let f₁ : Forwarder := { f with batch := f.batch ++ [e], position := e.offsetAfter }
  have hmirrors : Mirrors bc s₁ f₁ := { hf with
    gc := hf.gc.trans hgc.symm
    batch := congrArg (· ++ [e]) hf.batch
    reading := hr.behind hafter }
  have hbatch : f₁.batch = s₁.batch := hmirrors.batch
  have hreceived : Forwarding.received batchSize
      { s with subscription := sub, seenLen := seenLen } e =
        if batchSize ≤ s₁.batch.length then s₁.startFlush false else s₁ := rfl
  have hstep : Forwarder.step bc batchSize f .entry =
      some (if batchSize ≤ f₁.batch.length then f₁.startFlush false else f₁) := by
    simp [Forwarder.step, hpc', hdir, hentries, f₁]
  refine .of_step hstep ?_ ?_
  · rw [hreceived, hbatch]
    split_ifs
    · exact hmirrors.startFlush false
    · exact hmirrors
  · rw [hreceived, hbatch]
    split_ifs
    · rw [Forwarder.log_startFlush]
      exact Forwarding.wholeWriter_congr _ (s₁.writer_startFlush false)
    · rfl

/-- A step of `next`. -/
lemma next (hbc : bc.RoundTrips) (hf : Mirrors bc s f) (hpc : s.pc = .select)
    (hup : s.live.UpToDate .next) {live : Live}
    (h : s.live.step bc segmentBytes .next = some live) :
    Answers bc segmentBytes batchSize s f (s.afterNext batchSize live) := by
  have hr := hf.reading.step hbc (l := .next) trivial hup h
  obtain ⟨w, sub, yielded, seenLen⟩ := live
  obtain ⟨hwriter, hgc, hyielded⟩ := Live.of_next h
  obtain rfl : w = s.writer := hwriter
  rcases hyielded with hnone | ⟨e, he, hafter⟩
  · obtain rfl : yielded = [] := hnone
    have hsilent : Mirrors bc { s with subscription := sub, seenLen := seenLen } f :=
      { hf with gc := hf.gc.trans hgc.symm, reading := hr }
    by_cases hend : sub.pc = .ended
    · rw [Forwarding.afterNext_of_ended hend]
      exact hsilent.closed hpc
    · rw [Forwarding.afterNext_of_ne hend]
      exact .of_silent hsilent rfl
  · obtain rfl : yielded = [e] := he
    exact hf.received hpc hr hafter hgc

/-- A commit removes nothing that has still to be read. -/
lemma commit (hf : Mirrors bc s f) (hd : f.Durable bc start base) {upTo : WalOffset}
    {closing : Bool} (hpc : s.pc = .commit upTo closing) (faults : CommitFaults) :
    Answers bc segmentBytes batchSize s f (s.afterCommit upTo closing faults) := by
  have hpc' : f.pc = .createTmp upTo closing := by rw [hf.pc, hpc]; rfl
  have hposition : upTo = f.position := by
    have hatPc := hd.atPc
    simp only [Forwarder.AtPc, hpc'] at hatPc
    exact hatPc.2.1
  obtain ⟨bs, hexec⟩ := Forwarder.exec_commit bc batchSize hpc' faults
  have hcovers := Covers.of_commit s.dir s.subscription.lastGcSegmentId upTo faults
  unfold Forwarding.afterCommit
  unfold Forwarder.afterCommit at hexec
  rw [hf.dir, hf.gc] at hexec
  generalize SmarthomeIngest.commit s.dir s.subscription.lastGcSegmentId upTo faults = result
    at hcovers hexec ⊢
  obtain ⟨r, d, gc⟩ := result
  have hreading := hf.reading.of_covers (hposition ▸ hcovers) gc
  refine ⟨bs, _, hexec, ?_, .refl⟩
  exact {
    dir := rfl
    gc := rfl
    batch := hf.batch
    pc := by
      cases r with
      | error e => rfl
      | ok => cases closing <;> rfl
    accepted := hf.accepted
    uncommitted := by
      dsimp only
      rw [hf.uncommitted]
    reading := hreading
    whole := hf.whole }

/-- Every orderly step is answered. -/
lemma step (hbc : bc.RoundTrips) (hf : Mirrors bc s f) (hd : f.Durable bc start base)
    {l : ForwardingLabel} (hl : s.Orderly bc segmentBytes l)
    (h : s.step bc segmentBytes batchSize l = some s') :
    Answers bc segmentBytes batchSize s f s' := by
  cases Forwarding.ForwardingRule.of_step h with
  | writer hw => exact hf.writer hbc hd hl hw
  | next hpc hlive => exact hf.next hbc hpc hl hlive
  | tick hpc => exact hf.tick hpc
  | tickDrop hpc hsub => exact (hf.drop hsub).tick hpc
  | @accept highest closing hpc =>
    have hpc' : f.pc = .write highest closing := by rw [hf.pc, hpc]; rfl
    have haccept : Forwarder.step bc batchSize f (.sink .ok) = some { f with
        batch := []
        accepted := f.accepted ++ f.batch
        uncommitted := f.batch
        pc := .createTmp highest closing } := by
      simp [Forwarder.step, hpc']
    refine .of_step haccept ?_ rfl
    exact { hf with
      batch := rfl
      accepted := by rw [hf.accepted, hf.batch]
      uncommitted := hf.batch
      pc := rfl }
  | refuse => exact .of_silent hf rfl
  | commit hpc => exact hf.commit hd hpc _

/-- The states after `Wal::open`. -/
lemma init {d : WalDir} {w : Wal} (hopen : Wal.open bc d = .ok w)
    (hclean : ∀ id, Clean bc (w.writer.segments.content id))
    (hcursor : ∀ off, readCursor d = .ok (some off) → OnBoundary bc d.segments off) :
    Mirrors bc (Forwarding.init w) (Forwarder.init w) := by
  have hreading := Live.Reading.init hopen hclean hcursor
  exact {
    dir := rfl
    gc := rfl
    batch := rfl
    pc := rfl
    accepted := rfl
    uncommitted := rfl
    reading := hreading
    whole := hreading.writer }

end Mirrors

namespace Forwarding

/-- What holds along an orderly run: the forwarder that the open log looks like is reached by its
own steps and keeps its invariant, and the writer gets to where it is by its own steps alone. -/
structure Simulated (bc : Bincode) (segmentBytes batchSize : ℕ) (w : Wal) (s : Forwarding)
    (f : Forwarder) : Prop where
  mirrors : Mirrors bc s f
  reachable : Reachable (Forwarder.step bc batchSize) (Forwarder.init w) f
  durable : ∃ base, f.Durable bc w.subscription.position base
  writer : Reach (Writer.step bc segmentBytes) (Writer.Smooth bc) w.writer (s.wholeWriter f.log)

lemma simulates (hbc : bc.RoundTrips) (w : Wal) :
    Simulates (step bc segmentBytes batchSize) (Forwarder.step bc batchSize)
      (Orderly bc segmentBytes) (Simulated bc segmentBytes batchSize w) := by
  rintro s f l s' ⟨hf, hreach, ⟨base, hd⟩, hwriter⟩ hl hstep
  obtain ⟨bs, f', hexec, hf', hwriter'⟩ := hf.step hbc hd hl hstep
  have hrun : Reachable (Forwarder.step bc batchSize) f f' := .of_exec hexec
  refine ⟨bs, f', hexec, hf', hreach.trans hrun, ?_, hwriter.trans hwriter'⟩
  exact hrun.invariant (P := fun t => ∃ base, t.Durable bc w.subscription.position base)
    ⟨base, hd⟩ fun t b t' ⟨_, ht⟩ _ hstep => ht.step hstep

lemma simulated_of_reach (hbc : bc.RoundTrips) {d : WalDir} {w : Wal}
    (hopen : Wal.open bc d = .ok w) (hclean : ∀ id, Clean bc (w.writer.segments.content id))
    (hcursor : ∀ off, readCursor d = .ok (some off) → OnBoundary bc d.segments off)
    (hfits : FitsU64 d.segments)
    (h : Reach (step bc segmentBytes batchSize) (Orderly bc segmentBytes) (init w) s) :
    ∃ f, Simulated bc segmentBytes batchSize w s f := by
  have hinit : Simulated bc segmentBytes batchSize w (init w) (Forwarder.init w) :=
    ⟨.init hopen hclean hcursor, .refl, ⟨_, .init hopen hcursor hfits⟩, .refl⟩
  obtain ⟨f, -, hsim⟩ := (simulates hbc w).reach hinit h
  exact ⟨f, hsim⟩

namespace Simulated

variable {w : Wal} (h : Simulated bc segmentBytes batchSize w s f)
include h

/-- What `next` has still to return is the rest of the log. -/
lemma entriesFrom_position : entriesFrom bc f.log f.position =
    entriesFrom bc s.writer.segments s.subscription.position := by
  obtain ⟨base, hd⟩ := h.durable
  rw [← hd.covers.entriesFrom_eq hd.base_le, h.mirrors.dir]
  exact h.mirrors.reading.entries

lemma entries : entriesFrom bc f.log w.subscription.position =
    s.accepted ++ s.batch ++ entriesFrom bc s.writer.segments s.subscription.position := by
  obtain ⟨base, hd⟩ := h.durable
  rw [hd.entries, h.entriesFrom_position, h.mirrors.accepted, h.mirrors.batch]

lemma reopen : ∃ w', Wal.open bc s.dir = .ok w' ∧
    entriesFrom bc w'.writer.segments w'.subscription.position =
      s.uncommitted ++ s.batch ++ entriesFrom bc s.writer.segments s.subscription.position := by
  obtain ⟨base, hd⟩ := h.durable
  obtain ⟨w', hopen, hposition, hreplay⟩ := hd.reopen
  refine ⟨w', h.mirrors.dir ▸ hopen, ?_⟩
  rw [hposition, hreplay, hd.replay, h.entriesFrom_position, h.mirrors.uncommitted,
    h.mirrors.batch]

lemma suffix : s.uncommitted <:+ s.accepted := by
  obtain ⟨base, hd⟩ := h.durable
  rw [← h.mirrors.uncommitted, ← h.mirrors.accepted]
  exact hd.suffix

end Simulated

lemma fitsU64_oneFrameDir : FitsU64 Live.oneFrameDir.segments := by
  intro id hid
  rcases Segments.mem_write.mp hid with rfl | hid
  · exact ⟨by decide, by decide⟩
  · exact absurd hid (AList.notMem_empty id)

end Forwarding

end SmarthomeIngest
