import Mathlib.Algebra.BigOperators.Intervals
import SmarthomeIngest.Wal.Live

/-!
# The loop of `next` makes progress

Several branches of the loop go on without moving the cursor, in the hope that the next read finds
more. While the head is ahead in the segment of the cursor, that is so if a read attempt finds a
record, or bytes that `skip_corrupt_record` gets over: a rank that counts the published bytes still
in front of the cursor, and the points of the loop before it moves, then falls with every step. From
any other read attempt behind the head the loop comes back to the same place.
-/

namespace SmarthomeIngest

open Transition

/-! ### Definitions -/

namespace Subscription

/-- The head is in the segment of the subscription, and ahead of it. -/
def HeadAhead (head : WalOffset) (s : Subscription) : Prop :=
  head.segmentId = s.curSegmentId ∧ s.curByteOffset < head.byteOffset

/-- `skip_corrupt_record` gets over what lies at the cursor. -/
def Skippable (v : WalView) (s : Subscription) : Prop :=
  ∃ len ∈ readLenPrefix v.segments s.curSegmentId s.curByteOffset {}, len ≤ maxSkipBytes

/-- A read attempt finds a record, or bytes that are none and that can be skipped. An open reader
looks at the place it has reached, the skip at that of the cursor. -/
def Readable (bc : Bincode) (v : WalView) (s : Subscription) (reader : Option ℕ) : Prop :=
  let rest := (v.segments.content s.curSegmentId).drop (reader.getD s.curByteOffset)
  (∃ frame ∈ (frames bc).next rest, frame.1.isSome) ∨ Frame.cut rest ≠ .short ∧ s.Skippable v

instance (head : WalOffset) (s : Subscription) : Decidable (s.HeadAhead head) :=
  inferInstanceAs (Decidable (_ ∧ _))

instance (v : WalView) (s : Subscription) : Decidable (s.Skippable v) :=
  inferInstanceAs (Decidable (∃ len ∈ readLenPrefix _ _ _ _, len ≤ maxSkipBytes))

instance (bc : Bincode) (v : WalView) (s : Subscription) (reader : Option ℕ) :
    Decidable (s.Readable bc v reader) :=
  inferInstanceAs (Decidable ((∃ frame ∈ (frames bc).next _, _) ∨ _))

end Subscription

namespace Live

variable (bc : Bincode) (segmentBytes : ℕ)

/-- The subscription waits for a notification. -/
def Parked (s : Live) : Prop := ∃ seen, s.subscription.pc = .park seen

/-- The subscription is at the top of the loop in `next`. -/
def AtRead (s : Live) : Prop := ∃ reader payload, s.subscription.pc = .readOne reader payload

/-- The writer publishes no new head in the step, and the subscription neither returns an entry nor
comes back from a wait. -/
structure Quiet (s : Live) (l : LiveLabel) : Prop where
  notParked : l = .next → ¬ s.Parked
  silent : ∀ s', step bc segmentBytes s l = some s' →
    s'.writer.head = s.writer.head ∧ s'.yielded = s.yielded

/-- In the runs from `s` whose steps meet `G` the loop in `next` stops only in a wait or at its end,
it does so or returns an entry after finitely many steps if there is no new head, and every
iteration before that moves the cursor. -/
structure NeverSpins (G : Live → LiveLabel → Prop) (s : Live) : Prop where
  moves : ¬ s.Parked → s.subscription.pc ≠ .ended → (step bc segmentBytes s .next).isSome
  finitely : ∃ n, ∀ as s', exec (step bc segmentBytes) s as = some s' →
    Always (step bc segmentBytes) (fun t l => G t l ∧ Quiet bc segmentBytes t l) s as →
    as.count .next ≤ n
  increases : ∀ as s', exec (step bc segmentBytes) s as = some s' →
    Always (step bc segmentBytes) (fun t l => G t l ∧ Quiet bc segmentBytes t l) s as →
    .next ∈ as → s.AtRead → s'.AtRead → s.subscription.position < s'.subscription.position

/-- The writer rotates to a later segment, and a read attempt behind the head in its segment gets
on. -/
def GetsOn (s : Live) : LiveLabel → Prop
  | .writer l => s.writer.Ascends l
  | .next =>
    match s.subscription.pc with
    | .readOne reader _ => s.subscription.HeadAhead s.writer.head →
        s.subscription.Readable bc s.writer.view reader
    | _ => True

instance decidableGetsOn (s : Live) : DecidablePred (s.GetsOn bc)
  | .writer l => Writer.decidableAscends s.writer l
  | .next =>
    match hpc : s.subscription.pc with
    | .readOne reader _ =>
      decidable_of_iff (s.subscription.HeadAhead s.writer.head →
        s.subscription.Readable bc s.writer.view reader) (by simp [GetsOn, hpc])
    | .ready | .corrupt | .skip | .register | .loadHead _ | .checkClosed _ | .reloadHead _
    | .park _ | .ended => .isTrue (by simp [GetsOn, hpc])

end Live

/-! ### The rank -/

/-- How far a segment is published, in the segments up to that of the head. -/
def publishedLen (segs : Segments) (head : WalOffset) (id : ℕ) : ℕ :=
  if id < head.segmentId then (segs.content id).length else head.byteOffset

/-- The published bytes in front of a position, and one for each segment to go to. -/
def bytesLeft (segs : Segments) (head pos : WalOffset) : ℕ :=
  publishedLen segs head pos.segmentId - pos.byteOffset +
    ∑ id ∈ Finset.Ioc pos.segmentId head.segmentId, (publishedLen segs head id + 1)

/-- How many points of the loop come before the cursor moves, with `again` more ones behind those
of `wait_or_advance`, and `stuck` more ones behind a record that cannot be skipped. -/
def NextPc.turns (again stuck : ℕ) : NextPc → ℕ
  | .ready         => 8
  | .readOne _ _   => 7
  | .corrupt       => 6 + stuck
  | .skip          => 5 + stuck
  | .register      => 4 + again
  | .loadHead _    => 3 + again
  | .checkClosed _ => 2 + again
  | .reloadHead _  => 1 + again
  | .park _        => 0
  | .ended         => 0

namespace Subscription

/-- Behind the head, `wait_or_advance` sends the loop back to a read. -/
def again (v : WalView) (s : Subscription) : ℕ := if s.HeadAhead v.head then 8 else 0

/-- So does `skip_corrupt_record`, where it gives up. -/
def stuck (v : WalView) (s : Subscription) : ℕ := if s.Skippable v then 0 else s.again v

/-- A move leads to a read, seven turns before the end. -/
def rank (v : WalView) (s : Subscription) : ℕ :=
  8 * bytesLeft v.segments v.head s.position + s.pc.turns (s.again v) (s.stuck v)

end Subscription

variable {segs segs' : Segments} {head : WalOffset}

lemma publishedLen_of_lt {id : ℕ} (h : id < head.segmentId) :
    publishedLen segs head id = (segs.content id).length := if_pos h

lemma publishedLen_self : publishedLen segs head head.segmentId = head.byteOffset :=
  if_neg (lt_irrefl _)

/-- Only the older segments count in full. -/
lemma bytesLeft_congr (h : ∀ id < head.segmentId, segs'.content id = segs.content id)
    (pos : WalOffset) : bytesLeft segs' head pos = bytesLeft segs head pos := by
  have hlen : publishedLen segs' head = publishedLen segs head := by
    funext id
    unfold publishedLen
    split_ifs with hid
    · rw [h id hid]
    · rfl
  rw [bytesLeft, bytesLeft, hlen]

lemma bytesLeft_of_skip {seg off n : ℕ} (hn : 0 < n) (h : off < publishedLen segs head seg) :
    bytesLeft segs head ⟨seg, off + n⟩ < bytesLeft segs head ⟨seg, off⟩ := by
  simp only [bytesLeft]
  omega

lemma bytesLeft_of_nextSegment {seg : ℕ} (off : ℕ) (h : seg < head.segmentId) :
    bytesLeft segs head ⟨seg + 1, 0⟩ < bytesLeft segs head ⟨seg, off⟩ := by
  have hsum := Finset.sum_Ioc_consecutive (fun id => publishedLen segs head id + 1)
    (Nat.le_succ seg) h
  simp only [Nat.succ_eq_add_one, Nat.Ioc_succ_singleton, Finset.sum_singleton] at hsum
  simp only [bytesLeft]
  omega

/-! ### A step of `next` -/

lemma lt_of_readLenPrefix {segmentId offset len : ℕ} {faults : ReadFaults}
    (h : readLenPrefix segs segmentId offset faults = some len) :
    offset < (segs.content segmentId).length := by
  unfold readLenPrefix at h
  split_ifs at h with hfault
  dsimp only at h
  split_ifs at h with hfour
  rw [List.length_drop] at hfour
  omega

namespace Subscription

variable {bc : Bincode} {v : WalView} {s s' : Subscription} {entry : Option WalEntry}

lemma again_of_headAhead (h : s.HeadAhead v.head) : s.again v = 8 := if_pos h

lemma again_of_not_headAhead (h : ¬ s.HeadAhead v.head) : s.again v = 0 := if_neg h

lemma stuck_of_skippable (h : s.Skippable v) : s.stuck v = 0 := if_pos h

lemma stuck_of_not_skippable (h : ¬ s.Skippable v) : s.stuck v = s.again v := if_neg h

lemma skippable_iff {len : ℕ}
    (hlen : readLenPrefix v.segments s.curSegmentId s.curByteOffset {} = some len) :
    s.Skippable v ↔ len ≤ maxSkipBytes := by
  simp [Skippable, hlen]

/-- A record at the cursor can be skipped. -/
lemma skippable_of_next {p : Option WalEvent × ℕ}
    (h : p ∈ (frames bc).next ((v.segments.content s.curSegmentId).drop s.curByteOffset)) :
    s.Skippable v := by
  obtain ⟨value, n⟩ := p
  obtain ⟨body, hcut, -, -⟩ := exists_of_frames_next h
  exact ⟨_, readLenPrefix_of_complete hcut, (Frame.cut_eq_complete.mp hcut).1⟩

lemma not_readable_of_short {reader : Option ℕ}
    (h : Frame.cut ((v.segments.content s.curSegmentId).drop (reader.getD s.curByteOffset)) =
      .short) : ¬ s.Readable bc v reader := by
  rintro (⟨p, hp, -⟩ | ⟨hne, -⟩)
  · exact cut_ne_short_of_next hp h
  · exact hne h

lemma not_readable_of_not_skippable (h : ¬ s.Skippable v) : ¬ s.Readable bc v none := by
  rintro (⟨p, hp, -⟩ | ⟨-, hskip⟩)
  · exact h (skippable_of_next hp)
  · exact h hskip

/-- A read attempt that finds nothing does not get on, and neither does the one after it. -/
lemma not_readable_of_nothing {reader reader' : Option ℕ} {payload payload' : Bytes}
    {outcome : ReadOutcome}
    (hread : SmarthomeIngest.readOne bc v.segments s.curSegmentId s.curByteOffset reader payload
      {} = (outcome, reader', payload')) (hout : outcome.Nothing) :
    ¬ s.Readable bc v reader ∧ ¬ s.Readable bc v reader' := by
  cases ReadRule.of_readOne hread with
  | record | undecodable | oversized => cases hout
  | eof hshort =>
    refine ⟨not_readable_of_short hshort, not_readable_of_short ?_⟩
    rw [Option.getD_some, List.drop_of_length_le (by omega)]
    rfl
  | notFound hnil =>
    constructor
    all_goals
      apply not_readable_of_short
      rw [hnil, List.drop_nil]
      rfl

/-- One that finds bytes that are no record gets on where they can be skipped. -/
lemma readable_iff_of_corrupt {reader reader' : Option ℕ} {payload payload' : Bytes} {e : String}
    (hread : SmarthomeIngest.readOne bc v.segments s.curSegmentId s.curByteOffset reader payload
      {} = (.corrupt e, reader', payload')) : s.Readable bc v reader ↔ s.Skippable v := by
  obtain ⟨-, hcut, hnone⟩ := (ReadRule.of_readOne hread).of_corrupt
  constructor
  · rintro (⟨⟨value, n⟩, hnext, hsome⟩ | ⟨-, hskip⟩)
    · obtain rfl : value = none := hnone value n hnext
      cases hsome
    · exact hskip
  · exact fun hskip => .inr ⟨hcut, hskip⟩

/-- To a later point of the loop. -/
lemma rank_of_turn {pc : NextPc} (reader : Option ℕ) (payload : Bytes)
    (h : pc.turns (s.again v) (s.stuck v) < s.pc.turns (s.again v) (s.stuck v)) :
    rank v { s with curReader := reader, payloadBuf := payload, pc := pc } < s.rank v :=
  Nat.add_lt_add_left h _

lemma rank_of_move {reader : Option ℕ} {payload : Bytes} (hpc : s'.pc = .readOne reader payload)
    (hbytes : bytesLeft v.segments v.head s'.position < bytesLeft v.segments v.head s.position) :
    s'.rank v < s.rank v := by
  simp only [rank, hpc, NextPc.turns]
  omega

/-- What the points of `next` may rely on. -/
structure Placed (v : WalView) (s : Subscription) : Prop where
  cur_le : s.curSegmentId ≤ v.head.segmentId
  skip : s.pc = .skip → v.head.segmentId = s.curSegmentId → s.curByteOffset < v.head.byteOffset

lemma Placed.step (hs : s.Placed v) (h : s.step bc v (.run {}) = some (s', entry)) :
    s'.Placed v := by
  cases NextRule.of_step h with
  | nextSegment _ hhead => exact ⟨hhead, fun h => by cases h⟩
  | poison _ hhead => exact ⟨hs.cur_le, fun _ => hhead⟩
  | _ => exact ⟨hs.cur_le, fun h => by cases h⟩

/-- Every step but the return from a wait lowers the rank, and moves the cursor forward or leaves it
where it is. -/
lemma Placed.progress (hs : s.Placed v) (hpark : ∀ seen, s.pc ≠ .park seen)
    (hread : ∀ reader payload, s.pc = .readOne reader payload → s.HeadAhead v.head →
      s.Readable bc v reader) (h : s.step bc v (.run {}) = some (s', none)) :
    s'.rank v < s.rank v ∧ (s.position < s'.position ∨ s'.position = s.position) := by
  cases NextRule.of_step h with
  | ready hpc | poison hpc | register hpc | atHead hpc | closed hpc | parks hpc | ended hpc =>
    exact ⟨rank_of_turn _ _ (by simp [hpc, NextPc.turns]), .inr rfl⟩
  | corrupt hpc hcorrupt =>
    have hstuck : s.stuck v = 0 := by
      by_cases hskip : s.Skippable v
      · exact stuck_of_skippable hskip
      · rw [stuck_of_not_skippable hskip, again_of_not_headAhead]
        exact fun hahead => hskip ((readable_iff_of_corrupt hcorrupt).mp (hread _ _ hpc hahead))
    exact ⟨rank_of_turn _ _ (by simp [hpc, NextPc.turns, hstuck]), .inr rfl⟩
  | nothing hpc hnothing hout =>
    have hagain : s.again v = 0 := again_of_not_headAhead fun hahead =>
      (not_readable_of_nothing hnothing hout).1 (hread _ _ hpc hahead)
    exact ⟨rank_of_turn _ _ (by simp [hpc, NextPc.turns, hagain]), .inr rfl⟩
  | activeTail hpc hseg hoff =>
    have hagain : s.again v = 0 := again_of_not_headAhead fun hahead => not_le.mpr hahead.2 hoff
    refine ⟨rank_of_turn _ _ ?_, .inr rfl⟩
    simp only [hpc, NextPc.turns, hagain]
    omega
  | unreadablePrefix hpc hlen =>
    have hstuck : s.stuck v = s.again v := stuck_of_not_skippable (by simp [Skippable, hlen])
    exact ⟨rank_of_turn _ _ (by simp [hpc, NextPc.turns, hstuck]), .inr rfl⟩
  | tooLong hpc hlen hmax =>
    have hstuck : s.stuck v = s.again v :=
      stuck_of_not_skippable fun hskip => not_le.mpr hmax ((skippable_iff hlen).mp hskip)
    exact ⟨rank_of_turn _ _ (by simp [hpc, NextPc.turns, hstuck]), .inr rfl⟩
  | @skip _ len hpc hlen =>
    have hlt : s.curByteOffset < publishedLen v.segments v.head s.curSegmentId := by
      rcases hs.cur_le.lt_or_eq with hseg | hseg
      · rw [publishedLen_of_lt hseg]
        exact lt_of_readLenPrefix hlen
      · rw [hseg, publishedLen_self]
        exact hs.skip hpc hseg.symm
    refine ⟨rank_of_move rfl (bytesLeft_of_skip (by omega) hlt), .inl ?_⟩
    exact WalOffset.lt_iff.mpr (.inr ⟨rfl, Nat.lt_add_of_pos_right (by omega)⟩)
  | nextSegment hpc hhead =>
    refine ⟨rank_of_move rfl (bytesLeft_of_nextSegment _ hhead), .inl ?_⟩
    exact WalOffset.lt_iff.mpr (.inl (Nat.lt_succ_self _))
  | ahead hpc hseg hoff =>
    have hagain : s.again v = 8 := again_of_headAhead ⟨hseg, hoff⟩
    exact ⟨rank_of_turn _ _ (by simp [hpc, NextPc.turns, hagain]), .inr rfl⟩
  | reloadAhead hpc hseg hoff =>
    have hagain : s.again v = 8 := again_of_headAhead ⟨hs.cur_le.antisymm hseg |>.symm, hoff⟩
    exact ⟨rank_of_turn _ _ (by simp [hpc, NextPc.turns, hagain]), .inr rfl⟩
  | notified hpc => exact absurd hpc (hpark _)

end Subscription

/-! ### A step of the writer -/

/-- What a step of the writer without a new head changes of the view: files grow, and those below
the head stay. -/
structure WalView.Grown (v v' : WalView) : Prop where
  head : v'.head = v.head
  mem : ∀ id ∈ v.segments, id ∈ v'.segments
  content : ∀ id, v.segments.content id <+: v'.segments.content id
  older : ∀ id < v.head.segmentId, v'.segments.content id = v.segments.content id

namespace WalView.Grown

variable {v v' : WalView} {s : Subscription}

lemma readLenPrefix (hg : v.Grown v') {segmentId offset len : ℕ}
    (h : readLenPrefix v.segments segmentId offset {} = some len) :
    SmarthomeIngest.readLenPrefix v'.segments segmentId offset {} = some len := by
  have hfile : segmentId ∈ v.segments := by
    by_contra hnot
    simp [SmarthomeIngest.readLenPrefix, hnot] at h
  obtain ⟨t, ht⟩ := hg.content segmentId
  unfold SmarthomeIngest.readLenPrefix at h ⊢
  rw [if_neg (by simpa using hfile)] at h
  rw [if_neg (by simpa using hg.mem _ hfile)]
  dsimp only at h ⊢
  split_ifs at h with hfour
  have hle : offset ≤ (v.segments.content segmentId).length := by
    rw [List.length_drop] at hfour
    omega
  rw [← ht, List.drop_append_of_le_length hle, List.length_append, if_neg (by omega),
    List.take_append_of_le_length (not_lt.mp hfour)]
  exact h

lemma skippable (hg : v.Grown v') (h : s.Skippable v) : s.Skippable v' := by
  obtain ⟨len, hlen, hmax⟩ := h
  exact ⟨len, hg.readLenPrefix hlen, hmax⟩

lemma rank_le (hg : v.Grown v') : s.rank v' ≤ s.rank v := by
  have hagain : s.again v' = s.again v := by rw [Subscription.again, hg.head, Subscription.again]
  have hstuck : s.stuck v' ≤ s.stuck v := by
    by_cases hskip : s.Skippable v
    · rw [Subscription.stuck_of_skippable (hg.skippable hskip)]
      exact Nat.zero_le _
    · rw [Subscription.stuck_of_not_skippable hskip, ← hagain, Subscription.stuck]
      split_ifs
      · exact Nat.zero_le _
      · exact le_rfl
  have hbytes : bytesLeft v'.segments v'.head s.position =
      bytesLeft v.segments v.head s.position := by
    rw [hg.head, bytesLeft_congr hg.older]
  rw [Subscription.rank, Subscription.rank, hbytes, hagain]
  refine Nat.add_le_add_left ?_ _
  cases s.pc with
  | corrupt | skip => exact Nat.add_le_add_left hstuck _
  | _ => exact le_rfl

end WalView.Grown

/-! ### The system -/

namespace Live

variable {bc : Bincode} {segmentBytes : ℕ} {s s' : Live}

/-- The rank of the subscription, as it sees the writer. -/
def rank (s : Live) : ℕ := s.subscription.rank s.writer.view

/-- The invariant of a run whose rotations go up. -/
structure Placed (s : Live) : Prop where
  head_le : s.writer.head ≤ s.writer.position
  subscription : s.subscription.Placed s.writer.view

lemma Placed.init {d : WalDir} {w : Wal} (hopen : Wal.open bc d = .ok w) : Placed (init w) := by
  obtain ⟨segs, active, start, hrec, hstart, rfl⟩ := open_eq_ok hopen
  exact ⟨le_rfl, le_of_readStart hrec hstart, fun h => by cases h⟩

lemma Placed.step (hs : Placed s) {l : LiveLabel} (hl : s.GetsOn bc l)
    (h : step bc segmentBytes s l = some s') : Placed s' := by
  cases l with
  | writer l =>
    obtain ⟨w, hw, rfl⟩ := Option.map_eq_some_iff.mp h
    obtain ⟨hhead, hpos⟩ := Writer.head_le_of_step hs.head_le hl hw
    have hhead := WalOffset.le_iff.mp hhead
    have hcur : s.subscription.curSegmentId ≤ s.writer.head.segmentId := hs.subscription.cur_le
    refine ⟨hpos, show s.subscription.curSegmentId ≤ w.head.segmentId by omega, ?_⟩
    intro hpc hseg
    change w.head.segmentId = s.subscription.curSegmentId at hseg
    have hskip : _ → s.subscription.curByteOffset < s.writer.head.byteOffset :=
      hs.subscription.skip hpc
    show s.subscription.curByteOffset < w.head.byteOffset
    have hsame : s.writer.head.segmentId = s.subscription.curSegmentId := by omega
    have hlt := hskip hsame
    omega
  | next =>
    obtain ⟨⟨sub, entry⟩, hsub, rfl⟩ := Option.map_eq_some_iff.mp h
    exact ⟨hs.head_le, hs.subscription.step hsub⟩

/-- The published part of the log is what it was, and the cursor has not moved back. -/
structure Still (s t : Live) : Prop where
  head : t.writer.head = s.writer.head
  files : ∀ id < s.writer.head.segmentId,
    t.writer.segments.content id = s.writer.segments.content id
  le : s.subscription.position ≤ t.subscription.position

lemma Still.trans {t u : Live} (h₁ : Still s t) (h₂ : Still t u) : Still s u where
  head := h₂.head.trans h₁.head
  files id hid := (h₂.files id (h₁.head.symm ▸ hid)).trans (h₁.files id hid)
  le := h₁.le.trans h₂.le

lemma Still.bytesLeft_eq {t : Live} (h : Still s t) (pos : WalOffset) :
    bytesLeft t.writer.segments t.writer.head pos =
      bytesLeft s.writer.segments s.writer.head pos := by
  rw [h.head, bytesLeft_congr h.files]

/-- A quiet step lowers the rank if it is one of the subscription, and never raises it. -/
lemma Placed.quiet_step (hs : Placed s) {l : LiveLabel} (hl : s.GetsOn bc l)
    (hq : Quiet bc segmentBytes s l) (h : Live.step bc segmentBytes s l = some s') :
    Still s s' ∧ s'.rank ≤ s.rank ∧ (l = .next → s'.rank < s.rank) := by
  obtain ⟨hhead, hyielded⟩ := hq.silent s' h
  cases l with
  | writer l =>
    obtain ⟨w, hw, rfl⟩ := Option.map_eq_some_iff.mp h
    have hcur : s.writer.head.segmentId ≤ s.writer.currentSegmentId := by
      have := WalOffset.le_iff.mp hs.head_le
      change _ < s.writer.currentSegmentId ∨ _ = s.writer.currentSegmentId ∧ _ at this
      omega
    have holder : ∀ id < s.writer.head.segmentId,
        w.segments.content id = s.writer.segments.content id :=
      fun id hid => Writer.content_of_lt hw (hid.trans_le hcur)
    have hgrown : s.writer.view.Grown w.view :=
      ⟨hhead, (Writer.keepsFiles_of_step hw).mem, Writer.content_of_step hw, holder⟩
    exact ⟨⟨hhead, holder, le_rfl⟩, hgrown.rank_le, fun h => by cases h⟩
  | next =>
    obtain ⟨⟨sub, entry⟩, hsub, rfl⟩ := Option.map_eq_some_iff.mp h
    have hnone : entry = none := by
      cases entry with
      | none => rfl
      | some e => simp at hyielded
    rw [hnone] at hsub
    have hpark : ∀ seen, s.subscription.pc ≠ .park seen := fun seen hpc =>
      hq.notParked rfl ⟨seen, hpc⟩
    have hread : ∀ reader payload, s.subscription.pc = .readOne reader payload →
        s.subscription.HeadAhead s.writer.view.head →
        s.subscription.Readable bc s.writer.view reader := by
      intro reader payload hpc
      simp only [GetsOn, hpc] at hl
      exact hl
    obtain ⟨hrank, hpos⟩ := hs.subscription.progress hpark hread hsub
    refine ⟨⟨rfl, fun _ _ => rfl, ?_⟩, hrank.le, fun _ => hrank⟩
    rcases hpos with hlt | heq
    · exact hlt.le
    · exact heq.ge

/-- A quiet run: each step of the subscription is paid for by the rank. -/
lemma Placed.quiet_run (hs : Placed s) {as : List LiveLabel}
    (hexec : exec (Live.step bc segmentBytes) s as = some s')
    (hq : Always (Live.step bc segmentBytes)
      (fun t l => t.GetsOn bc l ∧ Quiet bc segmentBytes t l) s as) :
    Still s s' ∧ s'.rank + as.count .next ≤ s.rank := by
  constructor
  · suffices ht : Still s s' ∧ Placed s' from ht.1
    refine (Reach.of_exec hq hexec).invariant (P := fun t => Still s t ∧ Placed t)
      ⟨⟨rfl, fun _ _ => rfl, le_rfl⟩, hs⟩ ?_
    rintro t l u ⟨hstill, ht⟩ ⟨hl, hquiet⟩ hstep
    exact ⟨hstill.trans (ht.quiet_step hl hquiet hstep).1, ht.step hl hstep⟩
  · refine hq.count_le hs ?_ ?_ ?_ hexec
    · exact fun t l u ht hl hstep => ht.step hl.1 hstep
    · exact fun t l u ht hl hstep => (ht.quiet_step hl.1 hl.2 hstep).2.1
    · exact fun t u ht hl hstep => (ht.quiet_step hl.1 hl.2 hstep).2.2 rfl

lemma rank_of_atRead (hread : s.AtRead) :
    s.rank = 8 * bytesLeft s.writer.segments s.writer.head s.subscription.position + 7 := by
  obtain ⟨reader, payload, hpc⟩ := hread
  rw [rank, Subscription.rank, hpc]
  rfl

lemma Placed.neverSpins (hs : Placed s) : NeverSpins bc segmentBytes (GetsOn bc) s where
  moves hpark hend := by
    rw [Live.step, Option.isSome_map]
    exact Subscription.isSome_step (fun seen hpc => hpark ⟨seen, hpc⟩) hend
  finitely := by
    refine ⟨s.rank, fun as s' hexec hq => ?_⟩
    have := (hs.quiet_run hexec hq).2
    omega
  increases as s' hexec hq hnext hread hread' := by
    obtain ⟨hstill, hrank⟩ := hs.quiet_run hexec hq
    have hcount := List.count_pos_iff.mpr hnext
    refine hstill.le.lt_of_ne fun heq => ?_
    -- at the same place the rank would be the same
    rw [rank_of_atRead hread, rank_of_atRead hread', ← heq, hstill.bytesLeft_eq] at hrank
    omega

/-! ### A loop that spins -/

/-- Some steps of `next` alone, none of which returns anything, lead to `sub`. -/
def LeadsTo (bc : Bincode) (segmentBytes n : ℕ) (s : Live) (sub : Subscription) : Prop :=
  ∃ t, exec (Live.step bc segmentBytes) s (List.replicate n .next) = some t ∧
    Always (Live.step bc segmentBytes) (Quiet bc segmentBytes) s (List.replicate n .next) ∧
    t.writer = s.writer ∧ t.subscription = sub

lemma LeadsTo.refl (s : Live) : LeadsTo bc segmentBytes 0 s s.subscription :=
  ⟨s, rfl, trivial, rfl, rfl⟩

/-- One more step in front. -/
lemma LeadsTo.cons {n : ℕ} {sub' : Subscription} (sub : Subscription)
    (hsub : s.subscription.step bc s.writer.view (.run {}) = some (sub, none))
    (hpark : ¬ s.Parked)
    (h : ∀ seenLen, LeadsTo bc segmentBytes n ⟨s.writer, sub, s.yielded, seenLen⟩ sub') :
    LeadsTo bc segmentBytes (n + 1) s sub' := by
  obtain ⟨seenLen, hstep⟩ : ∃ seenLen, Live.step bc segmentBytes s .next =
      some ⟨s.writer, sub, s.yielded, seenLen⟩ := by
    simp [Live.step, hsub]
  obtain ⟨t, hexec, hquiet, hwriter, rfl⟩ := h seenLen
  refine ⟨t, ?_, ?_, hwriter, rfl⟩
  · rw [List.replicate_succ, exec, hstep]
    exact hexec
  · rw [List.replicate_succ, always_cons_of_some hstep]
    refine ⟨⟨fun _ => hpark, fun t' ht' => ?_⟩, hquiet⟩
    rw [hstep, Option.some.injEq] at ht'
    subst ht'
    exact ⟨rfl, rfl⟩

/-- Behind the head, `wait_or_advance` goes back to a read at once. -/
lemma leadsTo_of_register {sub : Subscription} (hsub : s.subscription = sub)
    (hpc : sub.pc = .register) (hahead : sub.HeadAhead s.writer.head) :
    LeadsTo bc segmentBytes 2 s sub.startRead := by
  subst hsub
  obtain ⟨hseg, hoff⟩ := hahead
  refine LeadsTo.cons { s.subscription with pc := .loadHead s.writer.notifications } ?_ ?_ ?_
  · simp [Subscription.step, hpc, Writer.view]
  · simp [Parked, hpc]
  · refine fun _ => LeadsTo.cons s.subscription.startRead ?_ ?_ fun _ => .refl _
    · simp [Subscription.step, Writer.view, hseg, hoff, Subscription.startRead]
    · simp [Parked]

/-- The loop comes back to the same read with nothing returned, and does not get on there. -/
def Spins (bc : Bincode) (segmentBytes : ℕ) (s : Live) : Prop :=
  s.AtRead ∧ ∃ n t, exec (Live.step bc segmentBytes) s (List.replicate (n + 1) .next) = some t ∧
    Always (Live.step bc segmentBytes) (Quiet bc segmentBytes) s (List.replicate (n + 1) .next) ∧
    t.AtRead ∧ t.subscription.position = s.subscription.position ∧ ¬ t.GetsOn bc .next

lemma Spins.of_leadsTo (n : ℕ) (sub : Subscription) (hread : s.AtRead)
    (h : LeadsTo bc segmentBytes (n + 1) s sub)
    {reader : Option ℕ} {payload : Bytes} (hpc : sub.pc = .readOne reader payload)
    (hpos : sub.position = s.subscription.position)
    (hahead : sub.HeadAhead s.writer.head) (hnot : ¬ sub.Readable bc s.writer.view reader) :
    Spins bc segmentBytes s := by
  obtain ⟨t, hexec, hquiet, hwriter, rfl⟩ := h
  refine ⟨hread, n, t, hexec, hquiet, ⟨_, _, hpc⟩, hpos, fun hgets => ?_⟩
  simp only [GetsOn, hpc, hwriter] at hgets
  exact hnot (hgets hahead)

lemma Spins.not_neverSpins (h : Spins bc segmentBytes s) :
    ¬ NeverSpins bc segmentBytes (fun _ _ => True) s := by
  obtain ⟨hread, n, t, hexec, hquiet, hread', hpos, -⟩ := h
  intro hspins
  have hlt := hspins.increases _ t hexec (Always.mono (fun _ _ hq => ⟨trivial, hq⟩) hquiet)
    (List.mem_replicate.mpr ⟨n.succ_ne_zero, rfl⟩) hread hread'
  exact absurd hpos.symm hlt.ne

/-- A read attempt behind the head that does not get on is made again and again. -/
lemma spins_of_not_getsOn (h : ¬ s.GetsOn bc .next) : Spins bc segmentBytes s := by
  cases hpc : s.subscription.pc with
  | readOne reader payload =>
    simp only [GetsOn, hpc, Classical.not_imp] at h
    obtain ⟨hahead, hnot⟩ := h
    have hread : s.AtRead := ⟨_, _, hpc⟩
    have hpark : ¬ s.Parked := by simp [Parked, hpc]
    have hstep : s.subscription.step bc s.writer.view (.run {}) =
        some (s.subscription.afterRead (SmarthomeIngest.readOne bc s.writer.segments
          s.subscription.curSegmentId s.subscription.curByteOffset reader payload {})) := by
      simp [Subscription.step, hpc, Writer.view]
    generalize hone : SmarthomeIngest.readOne bc s.writer.segments s.subscription.curSegmentId
      s.subscription.curByteOffset reader payload {} = r at hstep
    obtain ⟨outcome, reader', payload'⟩ := r
    cases outcome with
    | record event n =>
      refine absurd (.inl ?_) hnot
      cases ReadRule.of_readOne hone with
      | record hnext => exact ⟨_, hnext, rfl⟩
    | corrupt e =>
      have hskip := (not_congr (Subscription.readable_iff_of_corrupt hone)).mp hnot
      obtain rfl : reader' = none := (ReadRule.of_readOne hone).of_corrupt.1
      let sub (pc : NextPc) : Subscription :=
        { s.subscription with curReader := none, payloadBuf := payload', pc := pc }
      have hpoison : (sub .corrupt).step bc s.writer.view (.run {}) = some (sub .skip, none) := by
        simp [sub, Subscription.step, Writer.view, hahead.1, hahead.2]
      have hgiveUp : (sub .skip).step bc s.writer.view (.run {}) =
          some (sub .register, none) := by
        simp only [sub, Subscription.step]
        split
        · rfl
        · rename_i len hlen
          rw [if_pos (not_le.mp fun hmax => hskip ⟨len, hlen, hmax⟩)]
      refine .of_leadsTo 4 (sub .register).startRead hread ?_ rfl rfl hahead
        (Subscription.not_readable_of_not_skippable hskip)
      refine LeadsTo.cons (sub .corrupt) hstep hpark fun _ => ?_
      refine LeadsTo.cons _ hpoison (by simp [Parked, sub]) fun _ => ?_
      refine LeadsTo.cons _ hgiveUp (by simp [Parked, sub]) fun _ => ?_
      exact leadsTo_of_register rfl rfl hahead
    | notFound | openError | seekError | eof =>
      let sub : Subscription :=
        { s.subscription with curReader := reader', payloadBuf := payload', pc := .register }
      have hnext : ¬ s.subscription.Readable bc s.writer.view reader' :=
        (Subscription.not_readable_of_nothing (v := s.writer.view) hone trivial).2
      refine .of_leadsTo 2 sub.startRead hread ?_ rfl rfl hahead hnext
      refine LeadsTo.cons sub hstep hpark fun _ => ?_
      exact leadsTo_of_register rfl rfl hahead
  | _ => simp [GetsOn, hpc] at h

/-! ### Every run -/

/-- In every run behind a successful `Wal::open`, whatever the directory, the cursor and the events:
as long as every read attempt behind the head gets on, and the rotations go up, the loop does not
spin; and where a read attempt does not get on, it does. -/
theorem neverSpins_of_reach {d : WalDir} {w : Wal} (hopen : Wal.open bc d = .ok w)
    (h : Reach (Live.step bc segmentBytes) (GetsOn bc) (Live.init w) s) :
    NeverSpins bc segmentBytes (GetsOn bc) s ∧
      (¬ s.GetsOn bc .next →
        Spins bc segmentBytes s ∧ ¬ NeverSpins bc segmentBytes (fun _ _ => True) s) := by
  have hs : Placed s := h.invariant (.init hopen) fun _ _ _ ht hl hstep => ht.step hl hstep
  refine ⟨hs.neverSpins, fun hnot => ?_⟩
  have hspins : Spins bc segmentBytes s := spins_of_not_getsOn hnot
  exact ⟨hspins, hspins.not_neverSpins⟩

/-- Behind the one record of a directory without a cursor. -/
theorem neverSpins_of_oneFrameDir :
    ∃ w s, Wal.open Bincode.fixint oneFrameDir = .ok w ∧
      exec (Live.step Bincode.fixint 100) (Live.init w) [.next, .next, .next] = some s ∧
      s.subscription.position = ⟨1, 29⟩ ∧
      NeverSpins Bincode.fixint 100 (GetsOn Bincode.fixint) s := by
  obtain ⟨w, s, hopen, hexec, hpos⟩ : ∃ (w : Wal) (s : Live),
      Wal.open Bincode.fixint oneFrameDir = .ok w ∧
      exec (Live.step Bincode.fixint 100) (Live.init w) [.next, .next, .next] = some s ∧
      s.subscription.position = ⟨1, 29⟩ := ⟨_, _, rfl, rfl, rfl⟩
  have hguard : Always (Live.step Bincode.fixint 100) (GetsOn Bincode.fixint) (Live.init w)
      [.next, .next, .next] := by
    cases hopen
    decide
  exact ⟨w, s, hopen, hexec, hpos, (neverSpins_of_reach hopen (Reach.of_exec hguard hexec)).1⟩

/-- A cursor inside the one frame. -/
def cursorInsideDir : WalDir := { oneFrameDir with cursor := some (WalOffset.toBytes ⟨1, 1⟩) }

/-- The bytes at the cursor are a length prefix that is too long to skip, and the head is ahead: the
first read attempt is made again and again. -/
theorem spins_of_cursorInsideDir :
    ∃ w s, Wal.open Bincode.fixint cursorInsideDir = .ok w ∧
      exec (Live.step Bincode.fixint 100) (Live.init w) [.next] = some s ∧
      Spins Bincode.fixint 100 s ∧ ¬ NeverSpins Bincode.fixint 100 (fun _ _ => True) s := by
  obtain ⟨w, s, hopen, hexec, hnot⟩ : ∃ (w : Wal) (s : Live),
      Wal.open Bincode.fixint cursorInsideDir = .ok w ∧
      exec (Live.step Bincode.fixint 100) (Live.init w) [.next] = some s ∧
      ¬ s.GetsOn Bincode.fixint .next := ⟨_, _, rfl, rfl, by decide⟩
  have hspins : Spins Bincode.fixint 100 s := spins_of_not_getsOn hnot
  exact ⟨w, s, hopen, hexec, hspins, hspins.not_neverSpins⟩

end Live

end SmarthomeIngest
