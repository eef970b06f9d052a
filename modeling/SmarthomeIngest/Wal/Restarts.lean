import SmarthomeIngest.Wal.Writer.Acked

/-!
# Acknowledged events survive

Processes that write the same log one after the other, each with whatever I/O errors, each ended by a
crash at any point. A flush that fails half way before the crash leaves a torn frame, which the next
process cuts off. An entry acknowledged by any of them is read by all later ones.
-/

namespace SmarthomeIngest

open Transition

/-! ### The system -/

/-- The log of the running process. `acked` is history: the entries that earlier processes have
acknowledged. -/
structure Restarts where
  writer : Writer
  cursor : Option Bytes
  cursorTmp : Option Bytes
  acked : List WalEntry

inductive RestartsLabel where
  | writer (l : WriterLabel)
  | crash

namespace Restarts

def init (w : Wal) : Restarts := ⟨w.writer, w.cursor, w.cursorTmp, []⟩

/-- The directory as a crash leaves it. -/
def dir (s : Restarts) : WalDir := ⟨s.writer.segments, s.cursor, s.cursorTmp⟩

/-- The entries acknowledged so far. -/
def allAcked (s : Restarts) : List WalEntry := s.acked ++ s.writer.ackedEntries

variable (bc : Bincode) (segmentBytes : ℕ)

/-- A step of the writer thread, or a crash and `Wal::open`. -/
def step (s : Restarts) : RestartsLabel → Option Restarts
  | .writer l => (s.writer.step bc segmentBytes l).map fun w => { s with writer := w }
  | .crash =>
    match Wal.open bc s.dir with
    | .ok w    => some ⟨w.writer, w.cursor, w.cursorTmp, s.allAcked⟩
    | .error _ => none

/-- No event over the limit of the reader is sent, and the rotations go up. -/
def Within (s : Restarts) : RestartsLabel → Prop
  | .writer (.send req) => Live.WithinLimit bc req
  | .writer l => s.writer.Ascends l
  | .crash => True

instance decidableWithin (s : Restarts) : DecidablePred (s.Within bc)
  | .writer (.send req) => Live.decidableWithinLimit req
  | .writer (.openNext error) => Writer.decidableAscends s.writer (.openNext error)
  | .writer .step | .writer (.deadline _) | .writer .recv | .writer .timeout
  | .writer .disconnected | .writer (.flush _) | .writer (.write _ _) | .writer .dropSenders
  | .crash => .isTrue trivial

variable {bc} in
lemma Within.writer {s : Restarts} {l : WriterLabel} (h : s.Within bc (.writer l)) :
    s.writer.Ascends l ∧ ∀ req, l = .send req → Live.WithinLimit bc req := by
  cases l with
  | send req =>
    refine ⟨trivial, fun r hr => ?_⟩
    cases hr
    exact h
  | _ => exact ⟨h, nofun⟩

end Restarts

variable {bc : Bincode} {segmentBytes : ℕ} {base : Segments} {start pos : WalOffset}

/-! ### The writer of one process -/

/-- What holds of the writer of a process that was started on `base`, whatever fails. -/
structure Writer.Keeps (bc : Bincode) (segmentBytes : ℕ) (base : Segments) (start : WalOffset)
    (s : Writer) : Prop where
  inv : Inv bc segmentBytes base start s.pc s
  accounted : Accounted s.pc s
  acksSound : AcksSound s
  sent : ∀ req ∈ s.sent, Live.WithinLimit bc req
  logged : s.pc.Running → Logged bc base start s.toSegmentWriter
  acked : ∀ e ∈ s.ackedEntries, e ∈ entriesFrom bc s.segments ⟨0, 0⟩

namespace Writer

variable {s s' : Writer} {l : WriterLabel}

/-- What is acknowledged with an empty buffer is in the log. -/
lemma acked_of_running (hi : Inv bc segmentBytes base start s.pc s)
    (hs : Logged bc base start s.toSegmentWriter) (hrun : s.pc.Running) (hbuf : s.buf = [])
    {r : Record} (hr : r ∈ s.records) : r.entry ∈ entriesFrom bc s.segments ⟨0, 0⟩ := by
  have hentries := hs.entries ⟨0, 0⟩ (onBoundary_zero 0) (Nat.zero_le _)
  rw [SegmentWriter.entriesFrom_flushed hbuf (hi.layout hrun).current_mem] at hentries
  rw [hentries]
  exact List.mem_append_right _ (List.mem_map_of_mem hr)

/-- An acknowledged entry was acknowledged before, or is that of a record that was pending with
nothing buffered. -/
lemma acked_of_step (hi : Inv bc segmentBytes base start s.pc s)
    (hi' : Inv bc segmentBytes base start s'.pc s') (ha : Accounted s.pc s)
    (hs : AcksSound s) (h : Writer.step bc segmentBytes s l = some s') {e : WalEntry}
    (he : e ∈ s'.ackedEntries) : e ∈ s.ackedEntries ∨
      s.pc.Running ∧ s.buf = [] ∧ ∃ r ∈ s.records, r.entry = e := by
  obtain ⟨r, hr, ⟨id, hid, hok⟩, rfl⟩ := mem_ackedEntries.mp he
  have hrecords := (records_of_step h).subset
  -- the record is an old one, because its ack belongs to an old one
  have hold : ∀ r' ∈ s.records, r'.request.durableAck = some id → r = r' := fun r' hr' hid' =>
    record_unique hi' (ha.step h) hr (hrecords hr') hid hid'
  rcases (acks_of_step hi.toBooks ha h).2 id hok with hbefore | ⟨⟨hrun, hbuf, -, hpending⟩, -⟩
  · obtain ⟨r', hr', hid', -⟩ := hs.acked id hbefore
    obtain rfl := hold r' hr' hid'
    exact .inl (mem_ackedEntries.mpr ⟨r, hr', ⟨id, hid, hbefore⟩, rfl⟩)
  · obtain ⟨r', hr', hid', -⟩ := hs.pending id hpending
    obtain rfl := hold r' hr' hid'
    exact .inr ⟨hrun, hbuf, r, hr', rfl⟩

lemma Keeps.step (hbc : bc.RoundTrips) (hs : Keeps bc segmentBytes base start s)
    (hup : s.Ascends l) (hl : ∀ req, l = .send req → Live.WithinLimit bc req)
    (h : Writer.step bc segmentBytes s l = some s') : Keeps bc segmentBytes base start s' where
  inv := hs.inv.step hup h
  accounted := hs.accounted.step h
  acksSound := hs.acksSound.step hs.inv.toBooks hs.accounted h
  sent := within_of_step hs.sent hl h
  logged hrun :=
    logged_of_step hbc hs.inv (hs.logged (running_before_step h hrun)) hs.sent hup h hrun
  acked e he := by
    have hi' := hs.inv.step hup h
    apply mem_entriesFrom_of_prefix (content_of_step h _)
    rcases acked_of_step hs.inv hi' hs.accounted hs.acksSound h he with hold | ⟨hrun, hbuf, r, hr, rfl⟩
    · exact hs.acked e hold
    · exact acked_of_running hs.inv (hs.logged hrun) hrun hbuf hr

lemma Keeps.spawn {segs : Segments} (hr : Recovered bc segs base start) :
    Keeps bc segmentBytes base start (.spawn base start) where
  inv := hr.inv_spawn
  accounted := .spawn
  acksSound := .spawn
  sent := nofun
  logged _ := .spawn hr
  acked := nofun

end Writer

/-! ### Opening again -/

/-- The cursor file can be read, and a cursor in it is on a frame boundary inside the segments. -/
def CursorInside (bc : Bincode) (d : WalDir) : Prop :=
  ∃ c, readCursor d = .ok c ∧ ∀ off ∈ c, (∃ id ∈ d.segments, id ≤ off.segmentId) ∧
    (∃ id ∈ d.segments, off.segmentId ≤ id) ∧ OnBoundary bc d.segments off

lemma CursorInside.open {d : WalDir} (hd : CursorInside bc d) : ∃ w, Wal.open bc d = .ok w := by
  obtain ⟨c, hread, hinside⟩ := hd
  obtain ⟨segs, active, hrec, hr⟩ := recoverActive_eq bc d.segments
  have hstart : ∃ start, readStart d active.segmentId = .ok start := by
    unfold readStart
    cases c with
    | none => exact ⟨_, by rw [hread]⟩
    | some off =>
      obtain ⟨⟨id, hid, hle⟩, ⟨id', hid', hle'⟩, -⟩ := hinside off rfl
      have hfirst := (head?_listSegments_le hid active.segmentId).trans hle
      have hactive := hle'.trans (hr.le_active id' hid')
      simp only [hread]
      rw [if_neg (by omega)]
      exact ⟨off, rfl⟩
  obtain ⟨start, hstart⟩ := hstart
  refine ⟨⟨.spawn segs active, .new start, d.cursor, d.cursorTmp⟩, ?_⟩
  simp only [Wal.open, hrec, hstart]

/-- The cursor stays inside when the log grows. -/
lemma CursorInside.mono {d : WalDir} (hd : CursorInside bc d) {segs : Segments}
    (hmem : ∀ id ∈ d.segments, id ∈ segs)
    (hbound : ∀ pos, OnBoundary bc d.segments pos → OnBoundary bc segs pos) :
    CursorInside bc { d with segments := segs } := by
  obtain ⟨c, hread, hinside⟩ := hd
  refine ⟨c, hread, fun off hoff => ?_⟩
  obtain ⟨⟨id, hid, hle⟩, ⟨id', hid', hle'⟩, hpos⟩ := hinside off hoff
  exact ⟨⟨id, hmem id hid, hle⟩, ⟨id', hmem id' hid', hle'⟩, hbound off hpos⟩

lemma onBoundary_of_prefix {segs segs' : Segments}
    (hpre : segs.content pos.segmentId <+: segs'.content pos.segmentId)
    (hpos : OnBoundary bc segs pos) : OnBoundary bc segs' pos := by
  obtain ⟨t, ht⟩ := hpre
  rw [OnBoundary, ← ht]
  exact (frames bc).boundaries_append hpos t

/-- What recovery leaves of the directory for the writer to go on with. -/
lemma Recovered.onBoundary_create {segs segs' : Segments} {active : WalOffset}
    (hr : Recovered bc segs segs' active) (hpos : OnBoundary bc segs pos) :
    OnBoundary bc (segs'.create active.segmentId) pos := by
  rw [OnBoundary, Segments.content_create]
  exact hr.onBoundary hpos

lemma Recovered.entriesFrom_create {segs segs' : Segments} {active : WalOffset}
    (hr : Recovered bc segs segs' active) (hpos : OnBoundary bc segs pos) :
    entriesFrom bc (segs'.create active.segmentId) pos = entriesFrom bc segs pos :=
  (hr.entriesFrom_of_create (fun _ => Segments.mem_create) (Segments.content_create _)).trans
    (hr.entriesFrom_eq hpos)

lemma Recovered.mem_create {segs segs' : Segments} {active : WalOffset}
    (hr : Recovered bc segs segs' active) {id : ℕ} (hid : id ∈ segs) :
    id ∈ segs'.create active.segmentId :=
  Segments.mem_create.mpr (.inr ((hr.mem_iff id).mpr hid))

/-! ### All processes -/

/-- The invariant over all processes. -/
structure Kept (bc : Bincode) (segmentBytes : ℕ) (s : Restarts) : Prop where
  writer : ∃ base start, s.writer.Keeps bc segmentBytes base start
  acked : ∀ e ∈ s.acked, e ∈ entriesFrom bc s.writer.segments ⟨0, 0⟩
  cursor : CursorInside bc s.dir

namespace Kept

variable {s s' : Restarts} {l : RestartsLabel}

lemma allAcked (hs : Kept bc segmentBytes s) :
    ∀ e ∈ s.allAcked, e ∈ entriesFrom bc s.writer.segments ⟨0, 0⟩ := by
  obtain ⟨base, start, hkeeps⟩ := hs.writer
  intro e he
  exact (List.mem_append.mp he).elim (hs.acked e) (hkeeps.acked e)

lemma init {d : WalDir} {w : Wal} (hopen : Wal.open bc d = .ok w)
    (hcursor : ∀ off, readCursor d = .ok (some off) → OnBoundary bc d.segments off) :
    Kept bc segmentBytes (Restarts.init w) := by
  obtain ⟨segs, active, start, hr, hstart, rfl⟩ := open_eq_ok hopen
  refine ⟨⟨segs, active, .spawn hr⟩, nofun, ?_⟩
  rcases readStart_eq_ok hstart with ⟨hnone, -⟩ | ⟨hsome, hfirst, hle⟩
  · exact ⟨none, hnone, nofun⟩
  · refine ⟨some start, hsome, ?_⟩
    intro off hoff
    cases hoff
    refine ⟨?_, ⟨_, Segments.mem_create.mpr (.inl rfl), hle⟩,
      hr.onBoundary_create (hcursor _ hsome)⟩
    cases hhead : d.segments.listSegments.head? with
    | none =>
      rw [hhead] at hfirst
      exact ⟨_, Segments.mem_create.mpr (.inl rfl), hfirst⟩
    | some id =>
      rw [hhead] at hfirst
      have hid := Segments.mem_listSegments.mp (List.mem_of_mem_head? hhead)
      exact ⟨id, hr.mem_create hid, hfirst⟩

lemma writer_step (hbc : bc.RoundTrips) (hs : Kept bc segmentBytes s) {l : WriterLabel} {w : Writer}
    (hl : s.Within bc (.writer l)) (h : s.writer.step bc segmentBytes l = some w) :
    Kept bc segmentBytes { s with writer := w } := by
  obtain ⟨hup, hlimit⟩ := hl.writer
  obtain ⟨base, start, hkeeps⟩ := hs.writer
  have hpre := Writer.content_of_step h
  refine ⟨⟨base, start, hkeeps.step hbc hup hlimit h⟩, fun e he => ?_, ?_⟩
  · exact mem_entriesFrom_of_prefix (hpre _) (hs.acked e he)
  · exact hs.cursor.mono (Writer.keepsFiles_of_step h).mem fun pos => onBoundary_of_prefix (hpre _)

lemma crash (hs : Kept bc segmentBytes s) {w : Wal} (hopen : Wal.open bc s.dir = .ok w) :
    Kept bc segmentBytes ⟨w.writer, w.cursor, w.cursorTmp, s.allAcked⟩ := by
  obtain ⟨segs, active, start, hr, -, rfl⟩ := open_eq_ok hopen
  refine ⟨⟨segs, active, .spawn hr⟩, fun e he => ?_, ?_⟩
  · show e ∈ entriesFrom bc (segs.create active.segmentId) ⟨0, 0⟩
    rw [hr.entriesFrom_create (onBoundary_zero 0)]
    exact hs.allAcked e he
  · exact hs.cursor.mono (fun _ => hr.mem_create) fun _ => hr.onBoundary_create

lemma step (hbc : bc.RoundTrips) (hs : Kept bc segmentBytes s) (hl : s.Within bc l)
    (h : s.step bc segmentBytes l = some s') : Kept bc segmentBytes s' := by
  cases l with
  | writer l =>
    obtain ⟨w, hw, rfl⟩ := Option.map_eq_some_iff.mp h
    exact hs.writer_step hbc hl hw
  | crash =>
    simp only [Restarts.step] at h
    split at h
    · rename_i w hopen
      cases h
      exact hs.crash hopen
    · cases h

end Kept

namespace Restarts

variable {s : Restarts}

/-- Whatever fails and whenever the processes crash, the directory opens again, and every entry that
any process has acknowledged and that lies behind the cursor is read. Each `Ok` stands for the entry
of the event that was sent. -/
theorem acked_of_reach (hbc : bc.RoundTrips) {d : WalDir} {w : Wal}
    (hopen : Wal.open bc d = .ok w)
    (hcursor : ∀ off, readCursor d = .ok (some off) → OnBoundary bc d.segments off)
    (h : Reach (Restarts.step bc segmentBytes) (Within bc) (init w) s) :
    (∀ id, (id, .ok) ∈ s.writer.acks → ∃ req ∈ s.writer.sent, req.durableAck = some id ∧
      ∃ e ∈ s.writer.ackedEntries, e.event = req.event) ∧
    ∃ w', Wal.open bc s.dir = .ok w' ∧
      ∀ e ∈ s.allAcked, w'.subscription.position ≤ e.offset →
        e ∈ entriesFrom bc w'.writer.segments w'.subscription.position := by
  have hs : Kept bc segmentBytes s :=
    h.invariant (.init hopen hcursor) fun _ _ _ ht hl hstep => ht.step hbc hl hstep
  obtain ⟨base, start, hkeeps⟩ := hs.writer
  constructor
  · intro id hid
    obtain ⟨r, hr, hack, -⟩ := hkeeps.acksSound.acked id hid
    obtain ⟨htaken, -⟩ := Writer.encoded_of_mem_records hkeeps.inv.toBooks hr
    obtain ⟨rest, hsplit, -⟩ := hkeeps.inv.queueOrder
    have hsent : r.request ∈ s.writer.sent := by
      rw [← hsplit]
      exact List.mem_append_left _ (List.mem_append_left _ htaken)
    exact ⟨r.request, hsent, hack, r.entry,
      Writer.mem_ackedEntries.mpr ⟨r, hr, ⟨id, hack, hid⟩, rfl⟩, rfl⟩
  · obtain ⟨w', hopen'⟩ := hs.cursor.open
    refine ⟨w', hopen', fun e he hle => ?_⟩
    obtain ⟨segs, active, start', hr, hstart, rfl⟩ := open_eq_ok hopen'
    obtain ⟨c, hread, hinside⟩ := hs.cursor
    have hbound : OnBoundary bc s.dir.segments start' := by
      refine boundary_of_readStart hstart fun off hoff => ?_
      rw [hread] at hoff
      cases hoff
      exact (hinside off rfl).2.2
    show e ∈ entriesFrom bc (segs.create active.segmentId) start'
    rw [hr.entriesFrom_create hbound]
    have hall := (mem_entriesFrom_iff (onBoundary_zero 0)).mp (hs.allAcked e he)
    exact (mem_entriesFrom_iff hbound).mpr ⟨hle, hall.2⟩

/-- An acknowledged event; then a flush that leaves the half of the next frame, and a crash; then
another acknowledged event. -/
def tornFlush : List RestartsLabel :=
  ([.send ⟨⟨"a", 1, ""⟩, some 7⟩, .deadline false, .recv, .step, .write none none, .deadline true,
    .flush none, .step, .step, .step, .send ⟨⟨"b", 2, ""⟩, some 8⟩, .recv, .step, .write none none,
    .deadline true, .flush (some ⟨9, "disk full"⟩)].map .writer) ++ [.crash] ++
  ([.send ⟨⟨"c", 3, ""⟩, some 7⟩, .deadline false, .recv, .step, .write none none, .deadline true,
    .flush none, .step, .step, .step].map .writer)

lemma within_tornFlush {w : Wal} (hopen : Wal.open Bincode.fixint ⟨∅, none, none⟩ = .ok w) :
    Always (step Bincode.fixint 1024) (Within Bincode.fixint) (init w) tornFlush := by
  cases hopen
  decide

theorem acked_of_tornFlush :
    ∃ w s w', Wal.open Bincode.fixint ⟨∅, none, none⟩ = .ok w ∧
      exec (step Bincode.fixint 1024) (init w) tornFlush = some s ∧
      s.allAcked = [⟨⟨1, 0⟩, ⟨1, 29⟩, ⟨"a", 1, ""⟩⟩, ⟨⟨1, 29⟩, ⟨1, 58⟩, ⟨"c", 3, ""⟩⟩] ∧
      Wal.open Bincode.fixint s.dir = .ok w' ∧
      ∀ e ∈ s.allAcked, w'.subscription.position ≤ e.offset →
        e ∈ entriesFrom Bincode.fixint w'.writer.segments w'.subscription.position := by
  obtain ⟨w, s, hopen, hexec, hacked⟩ : ∃ (w : Wal) (s : Restarts),
      Wal.open Bincode.fixint ⟨∅, none, none⟩ = .ok w ∧
      exec (step Bincode.fixint 1024) (init w) tornFlush = some s ∧
      s.allAcked = [⟨⟨1, 0⟩, ⟨1, 29⟩, ⟨"a", 1, ""⟩⟩, ⟨⟨1, 29⟩, ⟨1, 58⟩, ⟨"c", 3, ""⟩⟩] :=
    ⟨_, _, rfl, rfl, rfl⟩
  obtain ⟨-, w', hopen', hread⟩ := acked_of_reach Bincode.fixint_roundTrips hopen nofun
    (.of_exec (within_tornFlush hopen) hexec)
  exact ⟨w, s, w', hopen, hexec, hacked, hopen', hread⟩

end Restarts

end SmarthomeIngest
