import SmarthomeIngest.Lib.Stutter
import SmarthomeIngest.Wal.Live
import SmarthomeIngest.Wal.Yield

/-!
# Dropped calls of `next`

The loop of the forwarder drops a call of `next` whenever another branch of its `select!` is ready.
While the files and the head stay as they are, the place where `next` has got to decides what it
returns from there on. A dropped call leaves it in place, so that the entries are those of the run
in which no call is dropped.
-/

namespace SmarthomeIngest

open Transition

variable (bc : Bincode)

/-! ### Definitions -/

/-- A step of `next` while the files and the head stay as they are. -/
structure Turn where
  notifications : ℕ
  writerGone : Bool
  dropped : Bool

namespace Subscription

def turn (segs : Segments) (head : WalOffset) (s : Subscription) (t : Turn) :
    Option (Subscription × Option WalEntry) :=
  s.step bc ⟨segs, head, t.notifications, t.writerGone⟩ (if t.dropped then .drop else .run {})

end Subscription

/-- Where `next` goes to from a place at which it finds nothing. -/
def toNextSegment (head pos : WalOffset) : Option (Option WalEntry × WalOffset) :=
  if pos.segmentId < head.segmentId then some (none, ⟨pos.segmentId + 1, 0⟩) else none

/-- What `next` makes of a place in the log: the entry there, and the place behind it. -/
def advance (segs : Segments) (head pos : WalOffset) : Option (Option WalEntry × WalOffset) :=
  match (frames bc).next ((segs.content pos.segmentId).drop pos.byteOffset) with
  | some (some event, n) =>
    some (some ⟨pos, ⟨pos.segmentId, pos.byteOffset + n⟩, event⟩,
      ⟨pos.segmentId, pos.byteOffset + n⟩)
  | some (none, n) =>
    if head.segmentId = pos.segmentId ∧ head.byteOffset ≤ pos.byteOffset then
      toNextSegment head pos
    else some (none, ⟨pos.segmentId, pos.byteOffset + n⟩)
  | none => toNextSegment head pos

/-- A reader at the offset, or at the end of a file that has no whole frame at the offset. -/
def ReaderFor (b : Bytes) (off : ℕ) (reader : Option ℕ) : Prop :=
  ∀ pos ∈ reader, pos = off ∨ b.length ≤ pos ∧ Frame.cut (b.drop off) = .short

/-- What has been read is not an entry. -/
def NoEntry (b : Bytes) : Prop :=
  (∃ n, (frames bc).next b = some (none, n)) ∨ ∃ len, Frame.cut b = .oversized len

/-- What the point of `next` says about the place in the log. -/
def NextPc.Knows (segs : Segments) (head pos : WalOffset) : NextPc → Prop
  | .ready => True
  | .readOne reader _ => ReaderFor (segs.content pos.segmentId) pos.byteOffset reader
  | .corrupt => NoEntry bc ((segs.content pos.segmentId).drop pos.byteOffset)
  | .skip => NoEntry bc ((segs.content pos.segmentId).drop pos.byteOffset) ∧
      (head.segmentId = pos.segmentId → pos.byteOffset < head.byteOffset)
  | .register | .loadHead _ => advance bc segs head pos = toNextSegment head pos
  | .checkClosed _ | .reloadHead _ | .park _ | .ended => advance bc segs head pos = none

/-- The subscription has read what there is at its place. -/
structure Subscription.Settled (segs : Segments) (head : WalOffset) (s : Subscription) : Prop where
  curReader : ReaderFor (segs.content s.curSegmentId) s.curByteOffset s.curReader
  noReader : s.pc = .corrupt ∨ s.pc = .skip → s.curReader = none
  pc : s.pc.Knows bc segs head s.position

/-- How many points of the loop come before a move. -/
def NextPc.distance : NextPc → ℕ
  | .ready => 6
  | .readOne .. => 5
  | .corrupt => 4
  | .skip => 3
  | .register => 2
  | .loadHead _ => 1
  | .checkClosed _ | .reloadHead _ | .park _ | .ended => 0

variable {bc}

/-! ### Reading at a place -/

lemma readerFor_none (b : Bytes) (off : ℕ) : ReaderFor b off none := nofun

lemma readerFor_some (b : Bytes) (off : ℕ) : ReaderFor b off (some off) := by
  intro pos hpos
  exact .inl (Option.mem_some.mp hpos).symm

/-- Such a reader finds what there is at the offset. -/
lemma ReaderFor.cut_eq {b : Bytes} {off : ℕ} {reader : Option ℕ} (h : ReaderFor b off reader) :
    Frame.cut (b.drop (reader.getD off)) = Frame.cut (b.drop off) := by
  cases reader with
  | none => rfl
  | some pos =>
    rcases h pos rfl with rfl | ⟨hle, hshort⟩
    · rfl
    · rw [hshort, Option.getD_some, List.drop_of_length_le hle]
      rfl

lemma ReaderFor.readerIn {b : Bytes} {off : ℕ} {reader : Option ℕ} (h : ReaderFor b off reader) :
    Subscription.ReaderIn b off reader := fun pos hpos => (h pos hpos).imp_right And.left

/-! ### The next place -/

section Advance

variable {segs : Segments} {head pos : WalOffset}

lemma toNextSegment_of_lt (h : pos.segmentId < head.segmentId) :
    toNextSegment head pos = some (none, ⟨pos.segmentId + 1, 0⟩) := if_pos h

lemma toNextSegment_of_le (h : head.segmentId ≤ pos.segmentId) : toNextSegment head pos = none :=
  if_neg (not_lt.mpr h)

lemma advance_of_record {event : WalEvent} {n : ℕ}
    (h : (frames bc).next ((segs.content pos.segmentId).drop pos.byteOffset) =
      some (some event, n)) :
    advance bc segs head pos =
      some (some ⟨pos, ⟨pos.segmentId, pos.byteOffset + n⟩, event⟩,
        ⟨pos.segmentId, pos.byteOffset + n⟩) := by rw [advance, h]

lemma advance_of_poison {n : ℕ}
    (h : (frames bc).next ((segs.content pos.segmentId).drop pos.byteOffset) = some (none, n))
    (hhead : head.segmentId = pos.segmentId → pos.byteOffset < head.byteOffset) :
    advance bc segs head pos = some (none, ⟨pos.segmentId, pos.byteOffset + n⟩) := by
  rw [advance, h]
  exact if_neg fun htail => not_lt.mpr htail.2 (hhead htail.1)

lemma advance_of_incomplete
    (h : ∀ body, Frame.cut ((segs.content pos.segmentId).drop pos.byteOffset) ≠ .complete body) :
    advance bc segs head pos = toNextSegment head pos := by
  rw [advance, frames_next_eq_none.mpr h]

lemma advance_of_short
    (h : Frame.cut ((segs.content pos.segmentId).drop pos.byteOffset) = .short) :
    advance bc segs head pos = toNextSegment head pos :=
  advance_of_incomplete fun body hbody => by rw [h] at hbody; cases hbody

lemma advance_of_oversized {len : ℕ}
    (h : Frame.cut ((segs.content pos.segmentId).drop pos.byteOffset) = .oversized len) :
    advance bc segs head pos = toNextSegment head pos :=
  advance_of_incomplete fun body hbody => by rw [h] at hbody; cases hbody

/-- At the tail a frame without an entry is waited for. -/
lemma advance_of_activeTail
    (h : NoEntry bc ((segs.content pos.segmentId).drop pos.byteOffset))
    (hseg : head.segmentId = pos.segmentId) (hoff : head.byteOffset ≤ pos.byteOffset) :
    advance bc segs head pos = toNextSegment head pos := by
  rcases h with ⟨n, hnext⟩ | ⟨len, hcut⟩
  · rw [advance, hnext]
    exact if_pos ⟨hseg, hoff⟩
  · exact advance_of_oversized hcut

/-- There is a way on as long as there are segments. -/
lemma le_of_advance_eq_none (h : advance bc segs head pos = none) :
    head.segmentId ≤ pos.segmentId := by
  refine not_lt.mp fun hlt => ?_
  have hsegment : toNextSegment head pos ≠ none := by
    rw [toNextSegment_of_lt hlt]
    exact fun h => by cases h
  unfold advance at h
  split at h
  · cases h
  · split_ifs at h
    exact hsegment h
  · exact hsegment h

end Advance

/-- What `skip_corrupt_record` reads. -/
lemma NoEntry.exists_readLenPrefix {segs : Segments} {segmentId off : ℕ}
    (h : NoEntry bc ((segs.content segmentId).drop off)) :
    ∃ len, readLenPrefix segs segmentId off {} = some len ∧
      (len ≤ Subscription.maxSkipBytes ∧
          (frames bc).next ((segs.content segmentId).drop off) = some (none, 4 + len) ∨
        Subscription.maxSkipBytes < len ∧
          Frame.cut ((segs.content segmentId).drop off) = .oversized len) := by
  rcases h with ⟨n, hnext⟩ | ⟨len, hcut⟩
  · obtain ⟨body, hcut, -, rfl⟩ := exists_of_frames_next hnext
    exact ⟨body.length, readLenPrefix_of_complete hcut,
      .inl ⟨(Frame.cut_eq_complete.mp hcut).1, hnext⟩⟩
  · obtain ⟨hlen, hmax⟩ := readLenPrefix_of_oversized hcut
    exact ⟨len, hlen, .inr ⟨hmax, hcut⟩⟩

/-! ### The steps of `next` -/

namespace Subscription

variable {segs : Segments} {head : WalOffset} {s s' : Subscription}

lemma Settled.new (start : WalOffset) : (new start).Settled bc segs head where
  curReader := readerFor_none _ _
  noReader _ := rfl
  pc := trivial

/-- A step that reads and moves nothing, to a point where the reader may be open. -/
lemma Settled.goto (hs : s.Settled bc segs head) {pc : NextPc} (hcorrupt : pc ≠ .corrupt)
    (hskip : pc ≠ .skip) (hpc : pc.Knows bc segs head s.position) :
    Settled bc segs head { s with pc := pc } where
  curReader := hs.curReader
  noReader h := h.elim (absurd · hcorrupt) (absurd · hskip)
  pc := hpc

lemma Settled.startRead (hs : s.Settled bc segs head) : s.startRead.Settled bc segs head where
  curReader := readerFor_none _ _
  noReader _ := rfl
  pc := hs.curReader

/-- A step moves on to the next place, or leaves the place as it is and, if there is a next one and
the call is not dropped, gets nearer to it. -/
def Moves (bc : Bincode) (segs : Segments) (head : WalOffset) (dropped : Bool)
    (s s' : Subscription) (entry : Option WalEntry) : Prop :=
  entry = none ∧ s'.position = s.position ∧ (dropped = false →
      (advance bc segs head s.position).isSome → s'.pc.distance < s.pc.distance) ∨
    advance bc segs head s.position = some (entry, s'.position)

lemma Moves.nearer {dropped : Bool} (hpos : s'.position = s.position)
    (hlt : s'.pc.distance < s.pc.distance) : Moves bc segs head dropped s s' none :=
  .inl ⟨rfl, hpos, fun _ _ => hlt⟩

/-- There is no next place. -/
lemma Moves.waits {dropped : Bool} (hpos : s'.position = s.position)
    (hnone : advance bc segs head s.position = none) : Moves bc segs head dropped s s' none :=
  .inl ⟨rfl, hpos, fun _ hsome => by rw [hnone] at hsome; cases hsome⟩

/-- What a read makes of the place. -/
lemma Settled.afterRead (hs : s.Settled bc segs head) {reader reader' : Option ℕ}
    {payload payload' : Bytes} (hpc : s.pc = .readOne reader payload) {outcome : ReadOutcome}
    (hread : SmarthomeIngest.readOne bc segs s.curSegmentId s.curByteOffset reader payload {} =
      (outcome, reader', payload')) :
    Settled bc segs head (s.afterRead (outcome, reader', payload')).1 ∧
      Moves bc segs head false s (s.afterRead (outcome, reader', payload')).1
        (s.afterRead (outcome, reader', payload')).2 := by
  have hknows := hs.pc
  rw [hpc] at hknows
  have hreader : ReaderFor (segs.content s.curSegmentId) s.curByteOffset reader := hknows
  have hcut := hreader.cut_eq
  cases ReadRule.of_readOne hread with
  | @record event n hnext =>
    have hpos := hreader.readerIn.getD_eq (cut_ne_short_of_next hnext)
    rw [hpos] at hnext ⊢
    refine ⟨⟨readerFor_some _ _, fun h => ?_, trivial⟩, .inr (advance_of_record hnext)⟩
    rcases h with h | h <;> cases h
  | @undecodable e n hnext =>
    rw [hreader.readerIn.getD_eq (cut_ne_short_of_next hnext)] at hnext
    refine ⟨⟨readerFor_none _ _, fun _ => rfl, .inl ⟨n, hnext⟩⟩, .nearer rfl ?_⟩
    rw [hpc]
    exact Nat.lt_succ_self 4
  | @oversized e len hlong =>
    rw [hcut] at hlong
    refine ⟨⟨readerFor_none _ _, fun _ => rfl, .inr ⟨len, hlong⟩⟩, .nearer rfl ?_⟩
    rw [hpc]
    exact Nat.lt_succ_self 4
  | eof hshort =>
    rw [hcut] at hshort
    refine ⟨⟨fun pos hpos => .inr ⟨?_, hshort⟩, fun h => ?_, advance_of_short hshort⟩,
      .nearer rfl ?_⟩
    · cases hpos
      show (segs.content s.curSegmentId).length ≤ _
      omega
    · rcases h with h | h <;> cases h
    · rw [hpc]
      exact (show 2 < 5 by decide)
  | notFound hnil =>
    have hshort : Frame.cut ((segs.content s.curSegmentId).drop s.curByteOffset) = .short := by
      rw [hnil, List.drop_nil]
      rfl
    refine ⟨⟨readerFor_none _ _, fun _ => rfl, advance_of_short hshort⟩, .nearer rfl ?_⟩
    rw [hpc]
    exact (show 2 < 5 by decide)

theorem Settled.of_turn (hs : s.Settled bc segs head) {t : Turn} {entry : Option WalEntry}
    (h : s.turn bc segs head t = some (s', entry)) :
    s'.Settled bc segs head ∧ Moves bc segs head t.dropped s s' entry := by
  obtain ⟨notifications, writerGone, dropped⟩ := t
  have hknows := hs.pc
  cases dropped with
  | true =>
    cases NextRule.of_step h with
    | dropRead | dropSkip | dropPark =>
      exact ⟨hs.goto nofun nofun trivial, .inl ⟨rfl, rfl, nofun⟩⟩
  | false =>
    cases NextRule.of_step h with
    | ready hpc =>
      refine ⟨hs.startRead, .nearer rfl ?_⟩
      rw [hpc]
      exact Nat.lt_succ_self 5
    | record hpc hread => exact hs.afterRead hpc hread
    | corrupt hpc hread => exact hs.afterRead hpc hread
    | nothing hpc hread hout =>
      have hafter := hs.afterRead hpc hread
      rw [afterRead_of_nothing hout] at hafter
      exact hafter
    | activeTail hpc hseg hoff =>
      rw [hpc] at hknows
      refine ⟨hs.goto nofun nofun (advance_of_activeTail hknows hseg hoff), .nearer rfl ?_⟩
      rw [hpc]
      exact (show 2 < 4 by decide)
    | poison hpc hhead =>
      rw [hpc] at hknows
      refine ⟨⟨hs.curReader, fun _ => hs.noReader (.inl hpc), hknows, hhead⟩, .nearer rfl ?_⟩
      rw [hpc]
      exact Nat.lt_succ_self 3
    | unreadablePrefix hpc hlen =>
      rw [hpc] at hknows
      obtain ⟨len, hsome, -⟩ := hknows.1.exists_readLenPrefix
      cases hlen.symm.trans hsome
    | tooLong hpc hlen hmax =>
      rw [hpc] at hknows
      obtain ⟨len, hsome, hcases⟩ := hknows.1.exists_readLenPrefix
      cases hlen.symm.trans hsome
      rcases hcases with ⟨hle, -⟩ | ⟨-, hcut⟩
      · exact absurd hmax (not_lt.mpr hle)
      · refine ⟨hs.goto nofun nofun (advance_of_oversized hcut), .nearer rfl ?_⟩
        rw [hpc]
        exact Nat.lt_succ_self 2
    | skip hpc hlen hmax =>
      rw [hpc] at hknows
      obtain ⟨len, hsome, hcases⟩ := hknows.1.exists_readLenPrefix
      cases hlen.symm.trans hsome
      rcases hcases with ⟨-, hnext⟩ | ⟨hlt, -⟩
      · refine ⟨⟨readerFor_none _ _, fun _ => rfl, ?_⟩, .inr (advance_of_poison hnext hknows.2)⟩
        show ReaderFor _ _ s.curReader
        rw [hs.noReader (.inr hpc)]
        exact readerFor_none _ _
      · exact absurd hlt (not_lt.mpr hmax)
    | register hpc =>
      rw [hpc] at hknows
      refine ⟨hs.goto nofun nofun hknows, .nearer rfl ?_⟩
      rw [hpc]
      exact Nat.lt_succ_self 1
    | nextSegment hpc hhead =>
      have hadvance : advance bc segs head s.position = some (none, ⟨s.curSegmentId + 1, 0⟩) := by
        rcases hpc with hpc | hpc
        · rw [hpc] at hknows
          exact hknows.trans (toNextSegment_of_lt hhead)
        · rw [hpc] at hknows
          exact absurd hhead (not_lt.mpr (le_of_advance_eq_none hknows))
      exact ⟨⟨readerFor_none _ _, fun _ => rfl, readerFor_none _ _⟩, .inr hadvance⟩
    | ahead hpc hseg hoff =>
      rw [hpc] at hknows
      have hnone := hknows.trans (toNextSegment_of_le hseg.le)
      exact ⟨hs.startRead, .waits rfl hnone⟩
    | atHead hpc hseg hoff =>
      rw [hpc] at hknows
      have hnone := hknows.trans (toNextSegment_of_le hseg)
      exact ⟨hs.goto nofun nofun hnone, .waits rfl hnone⟩
    | closed hpc hgone | parks hpc hgone | ended hpc _ _ =>
      rw [hpc] at hknows
      exact ⟨hs.goto nofun nofun hknows, .waits rfl hknows⟩
    | reloadAhead hpc _ _ | notified hpc _ =>
      rw [hpc] at hknows
      exact ⟨hs.startRead, .waits rfl hknows⟩

/-- Where there is a next place, a call that is not dropped goes on. -/
lemma Settled.isSome_turn (hs : s.Settled bc segs head) {t : Turn} (ht : t.dropped = false)
    (h : (advance bc segs head s.position).isSome) : (s.turn bc segs head t).isSome := by
  have hknows := hs.pc
  rw [turn, ht]
  refine isSome_step (fun seen hpc => ?_) fun hpc => ?_ <;>
  · rw [hpc] at hknows
    rw [show advance bc segs head s.position = none from hknows] at h
    cases h

theorem refines (bc : Bincode) (segs : Segments) (head : WalOffset) :
    Refines (turn bc segs head) (advance bc segs head) position (Settled bc segs head)
      (fun t => t.dropped = false) (fun s => s.pc.distance) where
  keeps hs h := (hs.of_turn h).1
  moves hs h := by
    rcases (hs.of_turn h).2 with ⟨hnone, hpos, -⟩ | hmove
    · exact .inl ⟨hnone, hpos⟩
    · exact .inr hmove
  progress hs ht hsome := by
    obtain ⟨⟨s', entry⟩, hstep⟩ := Option.isSome_iff_exists.mp (hs.isSome_turn ht hsome)
    refine ⟨s', entry, hstep, ?_⟩
    rcases (hs.of_turn hstep).2 with ⟨hnone, hpos, hlt⟩ | hmove
    · exact .inl ⟨hnone, hpos, hlt ht hsome⟩
    · exact .inr hmove

/-! ### Runs with and without dropped calls -/

/-- While the files and the head stay as they are, a run in which calls are dropped returns the
entries of a run without dropped calls, and what any such run has returned on top of them comes next
as soon as calls are not dropped. -/
theorem yielded_of_dropped {start : WalOffset} {turns : List Turn} {entries : List WalEntry}
    (h : exec (record (turn bc segs head)) (new start, []) turns = some (s, entries)) :
    (∃ undropped t, (∀ turn ∈ undropped, turn.dropped = false) ∧
        exec (record (turn bc segs head)) (new start, []) undropped = some (t, entries)) ∧
      ∀ undropped t entries', (∀ turn ∈ undropped, turn.dropped = false) →
        exec (record (turn bc segs head)) (new start, []) undropped = some (t, entries') →
        entries' <+: entries ∨ ∃ e rest, entries' = entries ++ e :: rest ∧
          Returns (turn bc segs head) (fun turn => turn.dropped = false) e s := by
  have hnew : (new start).Settled bc segs head := .new start
  refine ⟨?_, fun undropped t entries' _ h' => (refines bc segs head).agree hnew h h'⟩
  obtain ⟨-, _, rfl, hemits⟩ := (refines bc segs head).emits_of_exec hnew h
  exact (refines bc segs head).exists_exec_of_emits hnew
    (show Turn.dropped ⟨0, false, false⟩ = false from rfl) hemits []

/-- The first call is dropped in its read; the entry comes from the next one. -/
theorem returns_of_droppedRead :
    ∃ s, exec (record (turn Bincode.fixint Live.oneFrameDir.segments ⟨1, 29⟩)) (new ⟨1, 0⟩, [])
        [⟨0, false, false⟩, ⟨0, false, true⟩] = some (s, []) ∧
      Returns (turn Bincode.fixint Live.oneFrameDir.segments ⟨1, 29⟩)
        (fun turn => turn.dropped = false) ⟨⟨1, 0⟩, ⟨1, 29⟩, ⟨"a", 1, ""⟩⟩ s := by
  obtain ⟨s, hdropped⟩ : ∃ s, exec (record (turn Bincode.fixint Live.oneFrameDir.segments ⟨1, 29⟩))
      (new ⟨1, 0⟩, []) [⟨0, false, false⟩, ⟨0, false, true⟩] = some (s, []) := ⟨_, rfl⟩
  have hrun : ∃ t, exec (record (turn Bincode.fixint Live.oneFrameDir.segments ⟨1, 29⟩))
      (new ⟨1, 0⟩, []) [⟨0, false, false⟩, ⟨0, false, false⟩] =
        some (t, [⟨⟨1, 0⟩, ⟨1, 29⟩, ⟨"a", 1, ""⟩⟩]) := ⟨_, rfl⟩
  obtain ⟨t, hrun⟩ := hrun
  have hcases := (yielded_of_dropped hdropped).2 _ t _ (by simp) hrun
  rcases hcases with hnil | ⟨e, rest, heq, hreturns⟩
  · cases List.prefix_nil.mp hnil
  · cases heq
    exact ⟨s, hdropped, hreturns⟩

end Subscription

end SmarthomeIngest
