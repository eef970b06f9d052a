import SmarthomeIngest.Wal.Live
import SmarthomeIngest.Wal.Open
import SmarthomeIngest.Wal.Subscription.Rules
import SmarthomeIngest.Wal.Writer.Rejected

/-!
# Dead letters

A durable append whose ack is not `Ok` ends in the dead-letter queue. The log knows nothing of that:
`next` returns what it finds in the files, also behind the published head, and `Wal::open` keeps
every complete frame. An event is therefore dead-lettered and delivered, unless its frame has not
got into its file as a whole.
-/

namespace SmarthomeIngest

open Transition

/-! ### Definitions -/

/-- Where the bytes lie that a read attempt looks at. The reader may have run ahead of the
offset. -/
def Subscription.readOffset (s : Subscription) : WalOffset :=
  match s.pc with
  | .readOne reader _ => ⟨s.curSegmentId, reader.getD s.curByteOffset⟩
  | _ => s.position

/-- Writer and subscription. The last two fields are history: the records that the writer has tried
to write, and where the frames lay that `next` has returned. -/
structure Delivery where
  writer : Writer
  subscription : Subscription
  attempted : List Record
  delivered : List WalOffset

inductive DeliveryLabel where
  | writer (l : WriterLabel)
  | next (l : NextLabel)

namespace Delivery

/-- The state after `Wal::open`. -/
def init (w : Wal) : Delivery := ⟨w.writer, w.subscription, [], []⟩

variable (bc : Bincode) (segmentBytes : ℕ)

/-- One step of either party, whatever fails. -/
def step (s : Delivery) : DeliveryLabel → Option Delivery
  | .writer l =>
    (s.writer.step bc segmentBytes l).map fun w =>
      { s with writer := w, attempted := s.attempted ++ (s.writer.attempt l).toList }
  | .next l =>
    (s.subscription.step bc s.writer.view l).map fun (sub, entry) =>
      { s with
        subscription := sub
        delivered := s.delivered ++ (entry.map fun _ => s.subscription.readOffset).toList }

/-- The writer rotates to a later segment, and no step of its gets into its file what has been or is
rejected. -/
def Withheld (s : Delivery) : DeliveryLabel → Prop
  | .writer l => s.writer.Ascends l ∧ ∀ r ∈ s.attempted ++ (s.writer.attempt l).toList,
      s.writer.RejectedBy l r → r.Unreadable (s.writer.fileAfter l)
  | .next _ => True

/-- What holds in every state. -/
structure Inv (base : Segments) (start : WalOffset) (s : Delivery) : Prop where
  writer : Writer.Inv bc segmentBytes base start s.writer.pc s.writer
  accounted : Writer.Accounted s.writer.pc s.writer
  placed : Writer.Placed bc s.attempted s.writer
  answered : Writer.Answered s.attempted s.writer
  withholds : Writer.Withholds s.attempted s.writer
  le_current : ∀ id ∈ s.writer.segments, id ≤ s.writer.currentSegmentId
  delivered : ∀ p ∈ s.delivered, ∃ body,
    Frame.cut ((s.writer.segments.content p.segmentId).drop p.byteOffset) = .complete body

end Delivery

/-! ### The invariant -/

variable {bc : Bincode} {segmentBytes : ℕ}

/-- An entry is returned for a complete frame. -/
lemma Subscription.complete_of_step {s s' : Subscription} {v : WalView} {l : NextLabel}
    {e : WalEntry} (h : s.step bc v l = some (s', some e)) : ∃ body,
    Frame.cut ((v.segments.content s.readOffset.segmentId).drop s.readOffset.byteOffset) =
      .complete body := by
  cases NextRule.of_step h with
  | record hpc hread =>
    rw [readOffset, hpc]
    exact complete_of_readOne hread

namespace Delivery

variable {base : Segments} {start : WalOffset} {s s' : Delivery}

lemma Inv.step (hi : Inv bc segmentBytes base start s) {l : DeliveryLabel} (hl : s.Withheld l)
    (h : s.step bc segmentBytes l = some s') : Inv bc segmentBytes base start s' := by
  cases l with
  | writer l =>
    obtain ⟨w, hw, rfl⟩ := Option.map_eq_some_iff.mp h
    have hkeeps := Writer.keepsFiles_of_step hw
    constructor
    case writer => exact hi.writer.step hl.1 hw
    case accounted => exact hi.accounted.step hw
    case placed => exact hi.placed.step hi.writer hl.1 hw
    case answered => exact hi.answered.step hi.accounted hw
    case withholds => exact hi.withholds.step hi.accounted hi.answered hw hl.2
    case le_current =>
      intro id hid
      rcases hkeeps.new id hid with hid | rfl
      · exact (hi.le_current id hid).trans (Writer.currentSegmentId_of_step hl.1 hw)
      · exact le_rfl
    case delivered =>
      intro p hp
      obtain ⟨body, hcut⟩ := hi.delivered p hp
      exact ⟨body, Frame.cut_of_prefix ((Writer.content_of_step hw _).drop _) hcut⟩
  | next l =>
    obtain ⟨⟨sub, entry⟩, hsub, rfl⟩ := Option.map_eq_some_iff.mp h
    refine { hi with delivered := ?_ }
    intro p hp
    rcases List.mem_append.mp hp with hp | hp
    · exact hi.delivered p hp
    · cases entry with
      | none => cases hp
      | some e =>
        obtain rfl := List.mem_singleton.mp hp
        exact Subscription.complete_of_step hsub

/-- The writer goes on behind the recovered frames. -/
lemma Inv.init {d : WalDir} {w : Wal} (hopen : Wal.open bc d = .ok w) :
    ∃ base start, Inv bc segmentBytes base start (init w) := by
  obtain ⟨segs, active, start, hr, -, rfl⟩ := open_eq_ok hopen
  have hcontents : (Writer.spawn segs active).bufWriter.contents =
      segs.content active.segmentId := by
    simp [Writer.spawn, SegmentWriter.bufWriter, BufWriter.contents]
  refine ⟨segs, active, ?_⟩
  constructor
  case writer => exact hr.inv_spawn
  case accounted => exact .spawn
  case placed =>
    refine ⟨?_, ?_, fun _ => ?_, ?_, ?_⟩
    case refine_3 => exact hcontents ▸ aligned_of_whole hr.whole_active
    all_goals simp [Delivery.init]
  case answered => simp [Delivery.init, Writer.Answered]
  case withholds => simp [Delivery.init, Writer.Withholds]
  case le_current => exact hr.endsWith_create.2
  case delivered => simp [Delivery.init]

/-- The file of a rejected record, and what there is to read of the record. -/
lemma Inv.unreadable (hi : Inv bc segmentBytes base start s) {r : Record} (hr : r ∈ s.attempted)
    (hrej : r.Rejected s.writer) :
    r.segmentId = s.writer.currentSegmentId ∧
    (frames bc).next ((s.writer.segments.content r.segmentId).drop r.start) = none ∧
    (frames bc).stop (s.writer.segments.content r.segmentId) ≤ r.start := by
  obtain ⟨-, hseg, hunreadable⟩ := hi.withholds r hr hrej
  have hencoded := hi.placed.encoded r hr
  have hfits := (hi.placed.fits r hr hseg).mono (List.prefix_append _ s.writer.buf)
  rw [hseg]
  exact ⟨rfl, hunreadable.next hencoded hfits, hunreadable.stop_le hencoded hfits⟩

/-- After the log has been opened again, the segment of a rejected record ends in front of it. -/
lemma Inv.reopen (hi : Inv bc segmentBytes base start s) {r : Record} (hr : r ∈ s.attempted)
    (hrej : r.Rejected s.writer) {d : WalDir} {w : Wal}
    (hd : ∀ id ∈ d.segments, id ∈ s.writer.segments ∧
      d.segments.content id = s.writer.segments.content id)
    (hopen : Wal.open bc d = .ok w) :
    (w.writer.segments.content r.segmentId).length ≤ r.start := by
  obtain ⟨hseg, -, hstop⟩ := hi.unreadable hr hrej
  obtain ⟨segs, active, start, hrec, -, rfl⟩ := open_eq_ok hopen
  change ((segs.create active.segmentId).content r.segmentId).length ≤ r.start
  rw [Segments.content_create]
  by_cases hmem : r.segmentId ∈ d.segments
  · -- the last segment that the writer has written is the one that is recovered
    have hactive : active.segmentId = r.segmentId := by
      apply le_antisymm
      · rcases hrec.active_mem with ⟨hempty, -⟩ | hactive
        · exact absurd hmem (hempty _)
        · rw [hseg]
          exact hi.le_current _ (hd _ hactive).1
      · exact hrec.le_active _ hmem
    rw [← hactive, hrec.length_content, hrec.byteOffset_eq, hactive, (hd _ hmem).2]
    exact hstop
  · rw [← hrec.mem_iff] at hmem
    rw [Segments.content_of_notMem hmem]
    exact Nat.zero_le _

/-- In the runs in which the writer rotates to later segments, and gets no frame of a rejected event
into its file as a whole, a record whose ack is not `Ok` is never returned; and after any later
`Wal::open` of the files, or of those that commits have left, the segment ends in front of the
record. -/
theorem not_delivered_of_reach {d : WalDir} {w : Wal} (hopen : Wal.open bc d = .ok w)
    (h : Reach (step bc segmentBytes) Withheld (init w) s) {r : Record} (hr : r ∈ s.attempted)
    (hrej : r.Rejected s.writer) :
    r.offset ∉ s.delivered ∧
    ∀ d' w', (∀ id ∈ d'.segments, id ∈ s.writer.segments ∧
        d'.segments.content id = s.writer.segments.content id) →
      Wal.open bc d' = .ok w' → (w'.writer.segments.content r.segmentId).length ≤ r.start := by
  obtain ⟨base, start, hinit⟩ : ∃ base start, Inv bc segmentBytes base start (init w) :=
    Inv.init hopen
  have hi : Inv bc segmentBytes base start s :=
    h.invariant hinit fun t l t' ht hl hs => ht.step hl hs
  refine ⟨fun hdelivered => ?_, fun d' w' hd hopen' => hi.reopen hr hrej hd hopen'⟩
  obtain ⟨body, hcut⟩ := hi.delivered _ hdelivered
  exact frames_next_eq_none.mp (hi.unreadable hr hrej).2.1 body hcut

/-- Two durable appends. The flush before the rotation fails after five bytes of the first frame, and
`writer_loop` returns. The `BufWriter` is dropped, and `next` reads. -/
def failingRotation (dropFault : Option WriteFault) : List DeliveryLabel :=
  [.writer (.send ⟨⟨"a", 1, ""⟩, some 7⟩), .writer (.send ⟨⟨"a", 2, ""⟩, some 8⟩),
    .writer (.deadline false), .writer .recv, .writer .step, .writer (.write none none),
    .writer (.deadline false), .writer .recv, .writer .step,
    .writer (.flush (some ⟨5, "ENOSPC"⟩)), .writer .step, .writer .step,
    .writer (.flush dropFault), .next (.run {}), .next (.run {})]

/-- The record of the first append. -/
def failedRecord : Record := ⟨⟨⟨"a", 1, ""⟩, some 7⟩, Live.oneFrame, 1, 0⟩

lemma withheld_of_lt {l : WriterLabel} (hl : s.writer.Ascends l)
    (h : ∀ r ∈ s.attempted ++ (s.writer.attempt l).toList,
      (s.writer.fileAfter l).length < r.start + r.frame.length) : s.Withheld (.writer l) :=
  ⟨hl, fun r hr _ => .inl (h r hr)⟩

/-- The flush at the drop fails as well. -/
theorem not_delivered_of_failingDrop :
    ∃ w s, Wal.open Bincode.fixint ⟨∅, none, none⟩ = .ok w ∧
      exec (step Bincode.fixint 30) (init w) (failingRotation (some ⟨0, "ENOSPC"⟩)) = some s ∧
      failedRecord ∈ s.attempted ∧ failedRecord.Rejected s.writer ∧
      failedRecord.offset ∉ s.delivered := by
  obtain ⟨w, s, hopen, hexec, hattempted, hacks, hguard⟩ : ∃ w s,
      Wal.open Bincode.fixint ⟨∅, none, none⟩ = .ok w ∧
      exec (step Bincode.fixint 30) (init w) (failingRotation (some ⟨0, "ENOSPC"⟩)) = some s ∧
      s.attempted = [failedRecord] ∧
      (7, .err "WAL writer flush failed before rotation: ENOSPC") ∈ s.writer.acks ∧
      Always (step Bincode.fixint 30) Withheld (init w)
        (failingRotation (some ⟨0, "ENOSPC"⟩)) := by
    refine ⟨_, _, rfl, rfl, rfl, by decide, ?_⟩
    -- the file never gets longer than five bytes
    iterate 13
      refine ⟨withheld_of_lt trivial (by decide), fun t ht => ?_⟩
      cases ht
    exact always_of_forall_mem (by simp [Withheld])
  have hr : failedRecord ∈ s.attempted := hattempted ▸ List.mem_singleton.mpr rfl
  have hrej : failedRecord.Rejected s.writer := ⟨7, rfl, _, by simp, hacks⟩
  exact ⟨w, s, hopen, hexec, hr, hrej,
    (not_delivered_of_reach hopen (Reach.of_exec hguard hexec) hr hrej).1⟩

/-- The flush at the drop succeeds: the record is returned by the same process and by the next. -/
theorem delivered_of_failingRotation :
    ∃ w s w', Wal.open Bincode.fixint ⟨∅, none, none⟩ = .ok w ∧
      exec (step Bincode.fixint 30) (init w) (failingRotation none) = some s ∧
      failedRecord ∈ s.attempted ∧ failedRecord.Rejected s.writer ∧
      failedRecord.offset ∈ s.delivered ∧
      Wal.open Bincode.fixint ⟨s.writer.segments, none, none⟩ = .ok w' ∧
      entriesFrom Bincode.fixint w'.writer.segments w'.subscription.position =
        [⟨failedRecord.offset, failedRecord.offsetAfter, failedRecord.request.event⟩] := by
  refine ⟨_, _, _, rfl, rfl, List.mem_singleton.mpr rfl, ?_, List.mem_singleton.mpr rfl, rfl, rfl⟩
  exact ⟨7, rfl, .err "WAL writer flush failed before rotation: ENOSPC", by simp, by decide⟩

end Delivery

end SmarthomeIngest
