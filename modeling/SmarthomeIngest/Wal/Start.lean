import SmarthomeIngest.Wal.Approach
import SmarthomeIngest.Wal.RecordRoundTrip

/-!
# Where the reader starts

`Wal::open` compares the segment of the cursor with the segments there are, and takes its byte
offset as it is. Writer and subscription run together from there on. The first event appended behind
the recovered bytes is returned if the reader gets to where its frame starts; from an offset in the
active segment it does so only frame by frame.
-/

namespace SmarthomeIngest

open Transition

/-! ### Definitions -/

/-- The head is published, and those who wait for it are not notified yet. -/
def WriterPc.Notifies : WriterPc → Prop
  | .periodicNotify | .rotateNotify _ _ | .finalAck | .finalNotify => True
  | _ => False

/-- The notifications seen when interest was registered. -/
def NextPc.seen : NextPc → Option ℕ
  | .loadHead seen | .checkClosed seen | .reloadHead seen | .park seen => some seen
  | _ => none

namespace Live

variable (bc : Bincode) (segmentBytes : ℕ)

/-- A read attempt finds no torn frame at the offset: all of it is visible, or nothing. -/
def SeesWhole (s : Live) : Prop :=
  ∀ reader payload, s.subscription.pc = .readOne reader payload →
    let content := s.writer.segments.content s.subscription.curSegmentId
    Frame.cut (content.drop s.subscription.curByteOffset) = .short →
      content.length ≤ s.subscription.curByteOffset

/-- The rotations go up. At `place` no read attempt finds a torn frame, and the subscription does
not leave the segment from there when the file has grown since its end was seen. -/
def LeavesNothing (place : WalOffset) (s : Live) : LiveLabel → Prop
  | .writer l => s.writer.Ascends l
  | .next => s.subscription.position = place → s.SeesWhole ∧ s.UpToDate .next

/-- In every run from `s` whose steps meet `G`, whatever the writer does between them, `e` is
returned after finitely many steps of the subscription, and until then it can go on. -/
structure WillReturn (G : Live → LiveLabel → Prop) (e : WalEntry) (s : Live) : Prop where
  goesOn : ∀ as s', exec (step bc segmentBytes) s as = some s' →
    Always (step bc segmentBytes) G s as → e ∉ s'.yielded → (step bc segmentBytes s' .next).isSome
  finitely : ∃ n, ∀ as s', exec (step bc segmentBytes) s as = some s' →
    Always (step bc segmentBytes) G s as → e ∉ s'.yielded → as.count .next ≤ n

/-- The subscription will see the head once it is behind `r`: it has not registered its interest
too late for the notification, and does not end before the writer. -/
structure WillNotice (r : Record) (s : Live) : Prop where
  seen : ∀ seen ∈ s.subscription.pc.seen, seen ≤ s.writer.notifications
  heard : ∀ seen, s.subscription.pc = .checkClosed seen ∨ s.subscription.pc = .park seen →
    r.offsetAfter ≤ s.writer.head → seen < s.writer.notifications ∨ s.writer.pc.Notifies
  reload : ∀ seen, s.subscription.pc = .reloadHead seen → s.writer.notifyAlive = false
  ended : s.subscription.pc = .ended →
    s.writer.notifyAlive = false ∧ ¬ r.offsetAfter ≤ s.writer.head

end Live

/-- The subscription has started inside the log, and has returned the record `r` in the state `s` or
will do so. -/
structure StartsInside (bc : Bincode) (segmentBytes : ℕ) (w : Wal) (r : Record) (s : Live) :
    Prop where
  le_head : w.subscription.position ≤ w.writer.head
  le_valid : w.subscription.curSegmentId = w.writer.currentSegmentId →
    w.subscription.curByteOffset ≤ (w.writer.segments.content w.writer.currentSegmentId).length
  returned : s.WillReturn bc segmentBytes (Live.LeavesNothing r.offset) r.walEntry

/-- A cursor in the last segment is not behind the bytes that recovery keeps of it, and from it on
these are frames, unless a first record of that length opens a new segment. -/
def CursorFits (bc : Bincode) (segmentBytes : ℕ) (d : WalDir) (len : ℕ) : Prop :=
  ∀ off, readCursor d = .ok (some off) →
    off.segmentId = d.segments.listSegments.getLast?.getD 1 →
    let valid := (d.segments.content off.segmentId).take
      ((frames bc).stop (d.segments.content off.segmentId))
    off.byteOffset ≤ valid.length ∧
      ((frames bc).Whole (valid.drop off.byteOffset) ∨
        0 < valid.length ∧ segmentBytes < valid.length + len)

variable {bc : Bincode} {segmentBytes : ℕ} {base : Segments} {start : WalOffset} {r : Record}

/-! ### Notifications -/

/-- A new head is followed by a notification. -/
lemma Writer.notified_of_step {s s' : Writer} {l : WriterLabel}
    (h : step bc segmentBytes s l = some s') :
    s'.pc.Notifies ∨ s.notifications < s'.notifications ∨
      ¬ s.pc.Notifies ∧ s'.head = s.head := by
  cases WriterRule.of_step h with
  | send | dropSenders =>
    by_cases hpc : s.pc.Notifies
    · exact .inl hpc
    · exact .inr (.inr ⟨hpc, rfl⟩)
  | periodicPublish | rotatePublish | finalPublish | finalAck | finalFlushError =>
    exact .inl trivial
  | periodicNotify | rotateNotify | finalNotify => exact .inr (.inl (Nat.lt_succ_self _))
  | deadlineFlush hpc | deadlineRecv hpc | periodicFlushError hpc | periodicFlush hpc
  | periodicAck hpc | recv hpc | timeout hpc | disconnected hpc | encodeError hpc
  | encodeRotate hpc | encodeWrite hpc | rotateFlushError hpc | rotateFlush hpc | rotateAck hpc
  | openNextError hpc | openNext hpc | writeError hpc | write hpc | finalFlush hpc
  | dropNotify hpc | dropRx hpc | dropWriter hpc | dropWriterFlush hpc =>
    exact .inr (.inr ⟨by simp [hpc, WriterPc.Notifies], rfl⟩)

/-- The subscription gets on to look whether the writer is gone, or to wait, from a load that has
not found the head ahead. -/
lemma Subscription.waits_of_step {v : WalView} {s s' : Subscription} {entry : Option WalEntry}
    {seen : ℕ} (h : s.step bc v (.run {}) = some (s', entry))
    (hpc : s'.pc = .checkClosed seen ∨ s'.pc = .park seen) :
    s.pc = .checkClosed seen ∨ s.pc = .loadHead seen ∧ v.head.segmentId ≤ s.curSegmentId ∧
      (v.head.segmentId = s.curSegmentId → v.head.byteOffset ≤ s.curByteOffset) := by
  cases NextRule.of_step h with
  | atHead hload hseg hoff =>
    rcases hpc with hpc | hpc
    · cases hpc
      exact .inr ⟨hload, hseg, hoff⟩
    · cases hpc
  | parks hcheck =>
    rcases hpc with hpc | hpc
    · cases hpc
    · cases hpc
      exact .inl hcheck
  | _ => rcases hpc with hpc | hpc <;> cases hpc

namespace Live

variable {s s' : Live}

lemma WillNotice.of_writer (hn : WillNotice r s) {l : WriterLabel} {w : Writer}
    (h : s.writer.step bc segmentBytes l = some w) : WillNotice r { s with writer := w } where
  seen seen hseen := (hn.seen seen hseen).trans (Writer.notifications_of_step h)
  heard seen hpc hhead := by
    have hle : seen ≤ s.writer.notifications := by
      refine hn.seen seen ?_
      rcases hpc with hpc | hpc <;> exact hpc ▸ rfl
    rcases Writer.notified_of_step h with hpc' | hlt | ⟨hnot, hsame⟩
    · exact .inr hpc'
    · exact .inl (hle.trans_lt hlt)
    · rw [hsame] at hhead
      have hheard := (hn.heard seen hpc hhead).resolve_right hnot
      exact .inl (hheard.trans_le (Writer.notifications_of_step h))
  reload seen hpc := (Writer.of_notifyGone h (hn.reload seen hpc)).1
  ended hpc := by
    obtain ⟨hgone, hhead⟩ := hn.ended hpc
    obtain ⟨hgone', hsame⟩ := Writer.of_notifyGone h hgone
    exact ⟨hgone', hsame ▸ hhead⟩

lemma WillNotice.next (hn : WillNotice r s) {sub : Subscription} {entry : Option WalEntry}
    (h : s.subscription.step bc s.writer.view (.run {}) = some (sub, entry))
    (hbehind : r.offsetAfter ≤ s.writer.head →
      s.subscription.curSegmentId < s.writer.head.segmentId ∨
        s.writer.head.segmentId = s.subscription.curSegmentId ∧
          s.subscription.curByteOffset < s.writer.head.byteOffset)
    (yielded : List WalEntry) (seenLen : ℕ) :
    WillNotice r ⟨s.writer, sub, yielded, seenLen⟩ where
  seen seen hseen := by
    cases Subscription.NextRule.of_step h with
    | register =>
      cases hseen
      exact le_rfl
    | atHead hpc | closed hpc | parks hpc =>
      cases hseen
      exact hn.seen _ (hpc ▸ rfl)
    | _ => cases hseen
  heard seen hpc hhead := by
    rcases Subscription.waits_of_step h hpc with hpc' | ⟨-, hseg, hoff⟩
    · exact hn.heard seen (.inl hpc') hhead
    · rcases hbehind hhead with hlt | ⟨heq, hlt⟩
      · exact absurd hlt (not_lt.mpr hseg)
      · exact absurd hlt (not_lt.mpr (hoff heq))
  reload seen hpc := by
    cases Subscription.NextRule.of_step h with
    | closed _ hgone => simpa [Writer.view] using hgone
    | _ => cases hpc
  ended hpc := by
    cases Subscription.NextRule.of_step h with
    | ended hreload hseg hoff =>
      refine ⟨hn.reload _ hreload, fun hhead => ?_⟩
      rcases hbehind hhead with hlt | ⟨-, hlt⟩
      · exact absurd hlt (not_lt.mpr hseg)
      · exact absurd hlt (not_lt.mpr hoff)
    | _ => cases hpc

/-! ### Until the record is returned -/

/-- A step of `next` towards the record. -/
lemma approaches_of_next (hf : r.Follows bc base) (hv : s.writer.view.Shows base r)
    (hs : s.subscription.Approaches bc base r s.seenLen) (hl : s.LeavesNothing r.offset .next)
    (h : step bc segmentBytes s .next = some s') :
    r.walEntry ∈ s'.yielded ∨ s'.subscription.Approaches bc base r s'.seenLen ∧
      (r.offsetAfter ≤ s.writer.head →
        s'.subscription.rankTo base r < s.subscription.rankTo base r) := by
  obtain ⟨⟨sub, entry⟩, hsub, rfl⟩ := Option.map_eq_some_iff.mp h
  have hwhole := fun reader payload hpc hplace => (hl hplace).1 reader payload hpc
  have hup : ∀ seen, s.subscription.pc = .loadHead seen ∨ s.subscription.pc = .reloadHead seen →
      s.subscription.position = r.offset →
      s.subscription.curSegmentId < s.writer.view.head.segmentId →
      (s.writer.view.segments.content s.subscription.curSegmentId).length = s.seenLen := by
    intro seen hpc hplace
    have hup := (hl hplace).2
    rcases hpc with hpc | hpc
    all_goals
      simp only [UpToDate, hpc] at hup
      exact hup
  refine (hs.step hf hv hwhole hup hsub).imp_left fun hentry => ?_
  simp [hentry]

lemma yielded_of_step {l : LiveLabel} (h : step bc segmentBytes s l = some s') {e : WalEntry}
    (he : e ∈ s.yielded) : e ∈ s'.yielded := by
  cases l with
  | writer l =>
    obtain ⟨w, -, rfl⟩ := Option.map_eq_some_iff.mp h
    exact he
  | next =>
    obtain ⟨⟨sub, entry⟩, -, rfl⟩ := Option.map_eq_some_iff.mp h
    exact List.mem_append_left _ he

/-- In every run: the record has been returned, or the subscription has not got over its place. -/
lemma approaches_of_reach {w : Wal} (hw : w.writer = .spawn base start)
    (hlast : ∀ id ∈ base, id ≤ start.segmentId)
    (hlen : (base.content start.segmentId).length = start.byteOffset)
    (hplace : r.offset = firstPlace segmentBytes start r.frame.length) (hf : r.Follows bc base)
    (hstart : w.subscription.Approaches bc base r 0) (hready : w.subscription.pc = .ready)
    (h : Reach (step bc segmentBytes) (LeavesNothing r.offset) (init w) s) :
    Reach (Writer.step bc segmentBytes) Writer.Ascends (.spawn base start) s.writer ∧
    (s.writer.Leads r → r.walEntry ∈ s.yielded ∨
      s.subscription.Approaches bc base r s.seenLen ∧ WillNotice r s) := by
  refine h.invariant (P := fun s =>
    Reach (Writer.step bc segmentBytes) Writer.Ascends (.spawn base start) s.writer ∧
    (s.writer.Leads r → r.walEntry ∈ s.yielded ∨
      s.subscription.Approaches bc base r s.seenLen ∧ WillNotice r s)) ⟨?_, fun _ => ?_⟩ ?_
  · rw [← hw]
    exact .refl
  · refine .inr ⟨hstart, fun seen hseen => ?_, fun seen hpc => ?_, fun seen hpc => ?_,
      fun hpc => ?_⟩
    all_goals simp [init, hready, NextPc.seen] at *
  · rintro t l t' ⟨hreach, ht⟩ hl hstep
    cases l with
    | writer l =>
      obtain ⟨w', hw', rfl⟩ := Option.map_eq_some_iff.mp hstep
      refine ⟨hreach.tail hl hw', fun hleads => ?_⟩
      exact (ht (hleads.before hw')).imp_right fun h => ⟨h.1, h.2.of_writer hw'⟩
    | next =>
      have hwriter : t'.writer = t.writer := by
        obtain ⟨p, -, rfl⟩ := Option.map_eq_some_iff.mp hstep
        rfl
      rw [hwriter]
      refine ⟨hreach, fun hleads => ?_⟩
      rcases ht hleads with he | ⟨happ, hnotice⟩
      · exact .inl (yielded_of_step hstep he)
      · have hv := Writer.shows_of_reach hlast hlen hplace
          (List.ne_nil_of_length_pos hf.frame_pos) hreach hleads
        refine (approaches_of_next hf hv happ hl hstep).imp_right fun h => ⟨h.1, ?_⟩
        obtain ⟨⟨sub, entry⟩, hsub, rfl⟩ := Option.map_eq_some_iff.mp hstep
        refine hnotice.next hsub (fun hpub => ?_) _ _
        exact (happ.behind hf (v := t.writer.view) hpub).imp_right fun h => ⟨h.1, h.2.2⟩

/-- The record is published and notified, and has not been returned. -/
structure Due (bc : Bincode) (segmentBytes : ℕ) (base : Segments) (start : WalOffset) (r : Record)
    (s : Live) : Prop where
  writer : Reach (Writer.step bc segmentBytes) Writer.Ascends (.spawn base start) s.writer
  first : ∃ rest, s.writer.records = r :: rest
  published : r.offsetAfter ≤ s.writer.head
  approaches : s.subscription.Approaches bc base r s.seenLen
  notices : WillNotice r s
  notified : ∀ seen, s.subscription.pc = .checkClosed seen ∨ s.subscription.pc = .park seen →
    seen < s.writer.notifications

/-- How far the subscription is from the end of the record. -/
def rankTo (base : Segments) (r : Record) (s : Live) : ℕ := s.subscription.rankTo base r

/-- Only a step of `next` brings the subscription nearer, and each does. -/
lemma Due.step (hlast : ∀ id ∈ base, id ≤ start.segmentId)
    (hlen : (base.content start.segmentId).length = start.byteOffset)
    (hplace : r.offset = firstPlace segmentBytes start r.frame.length) (hf : r.Follows bc base)
    (hs : s.Due bc segmentBytes base start r) {l : LiveLabel} (hl : s.LeavesNothing r.offset l)
    (h : Live.step bc segmentBytes s l = some s') (hnot : r.walEntry ∉ s'.yielded) :
    s'.Due bc segmentBytes base start r ∧
      s'.rankTo base r ≤ s.rankTo base r ∧ (l = .next → s'.rankTo base r < s.rankTo base r) := by
  cases l with
  | writer l =>
    obtain ⟨w, hw, rfl⟩ := Option.map_eq_some_iff.mp h
    have hi := (Writer.first_of_reach hlast hlen hs.writer).1
    refine ⟨⟨hs.writer.tail hl hw, ?_, hs.published.trans (hi.extends hw).head, hs.approaches,
      hs.notices.of_writer hw, fun seen hpc => ?_⟩, le_rfl, fun h => by cases h⟩
    · obtain ⟨rest, hrest⟩ := hs.first
      obtain ⟨more, hmore⟩ := Writer.records_of_step hw
      rw [hrest] at hmore
      exact ⟨rest ++ more, hmore.symm⟩
    · exact (hs.notified seen hpc).trans_le (Writer.notifications_of_step hw)
  | next =>
    have hv := Writer.shows_of_reach hlast hlen hplace (List.ne_nil_of_length_pos hf.frame_pos)
      hs.writer (.inl hs.first)
    obtain ⟨happ, hrank⟩ := (approaches_of_next hf hv hs.approaches hl h).resolve_left hnot
    obtain ⟨⟨sub, entry⟩, hsub, rfl⟩ := Option.map_eq_some_iff.mp h
    have hbehind := hs.approaches.behind hf (v := s.writer.view) hs.published
    refine ⟨⟨hs.writer, hs.first, hs.published, happ, ?_, fun seen hpc => ?_⟩,
      (hrank hs.published).le, fun _ => hrank hs.published⟩
    · exact hs.notices.next hsub (fun _ => hbehind.imp_right fun h => ⟨h.1, h.2.2⟩) _ _
    · rcases Subscription.waits_of_step hsub hpc with hpc' | ⟨-, hseg, hoff⟩
      · exact hs.notified seen (.inl hpc')
      · rcases hbehind with hlt | ⟨heq, -, hlt⟩
        · exact absurd hlt (not_lt.mpr hseg)
        · exact absurd hlt (not_lt.mpr (hoff heq))

/-- It can take a step. -/
lemma Due.isSome (hs : s.Due bc segmentBytes base start r) :
    (Live.step bc segmentBytes s .next).isSome := by
  rw [Live.step, Option.isSome_map]
  cases hpc : s.subscription.pc with
  | park seen =>
    have hlt : seen < s.writer.view.notifications := hs.notified seen (.inr hpc)
    simp [Subscription.step, hpc, hlt]
  | ended => exact absurd hs.published (hs.notices.ended hpc).2
  | _ => exact Subscription.isSome_step (by simp [hpc]) (by simp [hpc])

/-- An entry that has not been returned behind a run was not returned during it. -/
lemma not_yielded_of_exec {e : WalEntry} {as : List LiveLabel}
    (h : exec (Live.step bc segmentBytes) s as = some s') (hnot : e ∉ s'.yielded) :
    e ∉ s.yielded ∧ Always (Live.step bc segmentBytes)
      (fun t l => ∀ t', Live.step bc segmentBytes t l = some t' → e ∉ t'.yielded) s as :=
  always_of_exec (Q := fun t => e ∉ t.yielded)
    (fun _ _ _ hstep hnot he => hnot (yielded_of_step hstep he)) h hnot

lemma WillReturn.of_mem {G : Live → LiveLabel → Prop} {e : WalEntry} (he : e ∈ s.yielded) :
    s.WillReturn bc segmentBytes G e where
  goesOn _ _ hexec _ hnot := absurd he (not_yielded_of_exec hexec hnot).1
  finitely := ⟨0, fun _ _ hexec _ hnot => absurd he (not_yielded_of_exec hexec hnot).1⟩

lemma WillReturn.mono {G H : Live → LiveLabel → Prop} {e : WalEntry} (hGH : ∀ t l, G t l → H t l)
    (h : s.WillReturn bc segmentBytes H e) : s.WillReturn bc segmentBytes G e where
  goesOn as s' hexec hG := h.goesOn as s' hexec (hG.mono hGH)
  finitely := h.finitely.imp fun _ hn as s' hexec hG => hn as s' hexec (hG.mono hGH)

lemma Due.willReturn (hlast : ∀ id ∈ base, id ≤ start.segmentId)
    (hlen : (base.content start.segmentId).length = start.byteOffset)
    (hplace : r.offset = firstPlace segmentBytes start r.frame.length) (hf : r.Follows bc base)
    (hs : s.Due bc segmentBytes base start r) :
    s.WillReturn bc segmentBytes (LeavesNothing r.offset) r.walEntry := by
  have hstep : ∀ t l t', t.Due bc segmentBytes base start r → (t.LeavesNothing r.offset l ∧
      ∀ t', Live.step bc segmentBytes t l = some t' → r.walEntry ∉ t'.yielded) →
      Live.step bc segmentBytes t l = some t' → _ := fun t l t' ht hl hstep =>
    ht.step hlast hlen hplace hf hl.1 hstep (hl.2 t' hstep)
  constructor
  · intro as s' hexec hG hnot
    have hG' := hG.and (not_yielded_of_exec hexec hnot).2
    have hdue := (Reach.of_exec hG' hexec).invariant hs
      fun t l t' ht hl h => (hstep t l t' ht hl h).1
    exact hdue.isSome
  · refine ⟨s.rankTo base r, fun as s' hexec hG hnot => ?_⟩
    have hG' := hG.and (not_yielded_of_exec hexec hnot).2
    have hcount : s'.rankTo base r + as.count .next ≤ s.rankTo base r := hG'.count_le hs
      (fun t l t' ht hl h => (hstep t l t' ht hl h).1)
      (fun t l t' ht hl h => (hstep t l t' ht hl h).2.1)
      (fun t t' ht hl h => (hstep t .next t' ht hl h).2.2 rfl) hexec
    exact (Nat.le_add_left _ _).trans hcount

/-! ### A reader alone -/

/-- The subscription reads on while the writer stands still, and has not returned `e`. -/
structure ReadsAlone (bc : Bincode) (t : Writer) (start : WalOffset) (e : WalEntry) (s : Live) :
    Prop where
  writer : s.writer = t
  readFrom : s.subscription.ReadFrom bc t.view start.segmentId start.byteOffset
  seen : s.subscription.pc.Waiting ∨ s.subscription.pc = .corrupt ∨ s.subscription.pc = .skip →
    s.seenLen = (t.segments.content s.subscription.curSegmentId).length
  notYielded : e ∉ s.yielded

namespace ReadsAlone

variable {t : Writer} {e : WalEntry} {place : WalOffset}

lemma init : (Live.mk t (.new start) [] 0).ReadsAlone bc t start e where
  writer := rfl
  readFrom := .new t.view start
  seen h := by rcases h with h | h | h <;> cases h
  notYielded := List.not_mem_nil

/-- Where no frame of `e` lies at its place, it is not returned. -/
lemma step (hs : s.ReadsAlone bc t start e)
    (hnever : ∀ u, Subscription.ReadFrom bc t.view start.segmentId start.byteOffset u →
      e.offset = u.position → ∀ n, (frames bc).next
        ((t.segments.content u.curSegmentId).drop u.curByteOffset) ≠ some (some e.event, n))
    (h : Live.step bc segmentBytes s .next = some s') : s'.ReadsAlone bc t start e := by
  obtain ⟨⟨sub, entry⟩, hsub, rfl⟩ := Option.map_eq_some_iff.mp h
  obtain ⟨rfl, hread, hseen, hnot⟩ := hs
  obtain ⟨hread', hentry⟩ := hread.step hsub
  refine ⟨rfl, hread', fun hpc => ?_, fun he => ?_⟩
  · cases Subscription.NextRule.of_step hsub with
    | ready | record | skip | nextSegment | ahead | reloadAhead | notified | ended =>
      rcases hpc with hpc | hpc | hpc <;> cases hpc
    | corrupt hread | nothing hread => simp [hread]
    | activeTail hcorrupt | poison hcorrupt =>
      simpa [hcorrupt] using hseen (.inr (.inl hcorrupt))
    | unreadablePrefix hskip | tooLong hskip => simpa [hskip] using hseen (.inr (.inr hskip))
    | register hwait | atHead hwait | closed hwait | parks hwait =>
      simpa [hwait] using hseen (.inl (by simp [hwait, NextPc.Waiting]))
  · rcases List.mem_append.mp he with he | he
    · exact hnot he
    · obtain ⟨hoffset, n, hnext⟩ := hentry e (Option.mem_toList.mp he)
      exact hnever _ hread hoffset n hnext

/-- No step of it is left out, if the file does not end inside a frame at the place. -/
lemma leavesNothing (hs : s.ReadsAlone bc t start e)
    (hcut : Frame.cut ((t.segments.content place.segmentId).drop place.byteOffset) ≠ .short) :
    s.LeavesNothing place .next := by
  obtain ⟨rfl, -, hseen, -⟩ := hs
  intro hplace
  refine ⟨fun reader payload hpc hshort => ?_, ?_⟩
  · rw [← hplace] at hcut
    exact absurd hshort hcut
  · cases hpc : s.subscription.pc with
    | loadHead | reloadHead =>
      simp only [UpToDate, hpc]
      exact fun _ => (hseen (.inl (by simp [hpc, NextPc.Waiting]))).symm
    | _ => simp only [UpToDate, hpc]

lemma not_willReturn (hs : s.ReadsAlone bc t start e)
    (hcut : Frame.cut ((t.segments.content place.segmentId).drop place.byteOffset) ≠ .short)
    (hnever : ∀ u, Subscription.ReadFrom bc t.view start.segmentId start.byteOffset u →
      e.offset = u.position → ∀ n, (frames bc).next
        ((t.segments.content u.curSegmentId).drop u.curByteOffset) ≠ some (some e.event, n)) :
    ¬ s.WillReturn bc segmentBytes (LeavesNothing place) e := by
  rintro ⟨hgoes, n, hfin⟩
  induction n generalizing s with
  | zero =>
    obtain ⟨s₁, hstep⟩ := Option.isSome_iff_exists.mp (hgoes [] s rfl trivial hs.notYielded)
    have hexec : exec (Live.step bc segmentBytes) s [.next] = some s₁ := by simp [exec, hstep]
    have hcount := hfin [.next] s₁ hexec ⟨hs.leavesNothing hcut, fun _ _ => trivial⟩
      (hs.step hnever hstep).notYielded
    simp at hcount
  | succ n ih =>
    obtain ⟨s₁, hstep⟩ := Option.isSome_iff_exists.mp (hgoes [] s rfl trivial hs.notYielded)
    have hfirst : ∀ as s', exec (Live.step bc segmentBytes) s₁ as = some s' →
        Always (Live.step bc segmentBytes) (LeavesNothing place) s₁ as →
        exec (Live.step bc segmentBytes) s (.next :: as) = some s' ∧
          Always (Live.step bc segmentBytes) (LeavesNothing place) s (.next :: as) := by
      intro as s' hexec hG
      refine ⟨?_, (always_cons_of_some hstep).mpr ⟨hs.leavesNothing hcut, hG⟩⟩
      rw [exec, hstep]
      exact hexec
    refine ih (hs.step hnever hstep) (fun as s' hexec hG hnot => ?_) fun as s' hexec hG hnot => ?_
    · obtain ⟨hexec', hG'⟩ := hfirst as s' hexec hG
      exact hgoes _ s' hexec' hG' hnot
    · obtain ⟨hexec', hG'⟩ := hfirst as s' hexec hG
      have hcount := hfin _ s' hexec' hG' hnot
      rw [List.count_cons_self] at hcount
      omega

end ReadsAlone

end Live

/-- Whatever lies behind it, a frame is not a torn one. -/
lemma cut_ne_short_of_encodeInto {event : WalEvent} {frame b : Bytes}
    (h : encodeInto bc event = .ok frame) (hpre : frame <+: b) : Frame.cut b ≠ .short := by
  obtain ⟨payload, -, hlen, rfl⟩ := frameBytes_of_encodeInto h
  obtain ⟨rest, rfl⟩ := hpre
  rcases le_or_gt payload.length maxWalRecordPayloadBytes with hle | hlt
  · rw [cut_frameBytes hle]
    exact fun h => by cases h
  · rw [cut_frameBytes_oversized hlt hlen]
    exact fun h => by cases h

lemma frame_ne_nil {event : WalEvent} {frame : Bytes} (h : encodeInto bc event = .ok frame) :
    frame ≠ [] := by
  obtain ⟨payload, -, -, rfl⟩ := frameBytes_of_encodeInto h
  exact List.ne_nil_of_length_pos (by simp)

/-- The writer may run alone at first. -/
lemma Live.reach_of_writer {w : Wal} {t : Writer} (place : WalOffset)
    (h : Reach (Writer.step bc segmentBytes) Writer.Ascends w.writer t) :
    Reach (Live.step bc segmentBytes) (Live.LeavesNothing place) (Live.init w)
      ⟨t, w.subscription, [], 0⟩ := by
  induction h with
  | refl => exact .refl
  | tail _ hl hstep ih =>
    refine ih.tail (a := .writer _) hl ?_
    rw [Live.step, hstep]
    rfl

/-- What the reader gets from where it starts, if it returns a record that is in the files. -/
lemma of_willReturn {t : Writer} (hencode : encodeInto bc r.request.event = .ok r.frame)
    (hframe : r.frame <+: (t.segments.content r.segmentId).drop r.start)
    (hwill : (Live.mk t (.new start) [] 0).WillReturn bc segmentBytes
      (Live.LeavesNothing r.offset) r.walEntry) :
    r.frame.length ≤ 4 + maxWalRecordPayloadBytes ∧ (r.segmentId = start.segmentId →
      ∃ k ∈ (frames bc).boundaries ((t.segments.content start.segmentId).drop start.byteOffset),
        r.start = start.byteOffset + k) := by
  by_contra hne
  refine Live.ReadsAlone.init.not_willReturn (cut_ne_short_of_encodeInto hencode hframe)
    (fun u hu hoffset n hnext => hne ?_) hwill
  obtain ⟨hseg, hstart⟩ : r.segmentId = u.curSegmentId ∧ r.start = u.curByteOffset := by
    simpa [Record.walEntry, Record.offset, Subscription.position] using hoffset
  constructor
  · by_contra hlt
    obtain ⟨payload, -, hlen, hpayload⟩ := frameBytes_of_encodeInto hencode
    obtain ⟨c, hc⟩ := hframe
    rw [hpayload, length_frameBytes] at hlt
    rw [← hseg, ← hstart, ← hc, hpayload] at hnext
    obtain ⟨body, hcut, -⟩ := exists_of_frames_next hnext
    rw [cut_frameBytes_oversized (by omega) hlen] at hcut
    cases hcut
  · intro hrseg
    rcases hu.position with hlt | ⟨-, k, hk, hoff⟩
    · omega
    · exact ⟨k, hk, hstart.trans hoff⟩

/-- In front of a first record that lies at a boundary there are frames. -/
lemma whole_of_boundary {v : WalView} {off k : ℕ} (hv : v.Shows base r)
    (hlen : (base.content r.segmentId).length = r.start)
    (hk : k ∈ (frames bc).boundaries ((v.segments.content r.segmentId).drop off))
    (hstart : r.start = off + k) : (frames bc).Whole ((base.content r.segmentId).drop off) := by
  obtain ⟨c, hc⟩ := hv.base_prefix
  have hdrop : ((base.content r.segmentId).drop off).length = k := by
    rw [List.length_drop]
    omega
  rw [← hc, List.drop_append_of_le_length (by omega), ← hdrop] at hk
  exact (frames bc).whole_of_length_mem hk

/-! ### The start of the reader -/

lemma cursorFits_iff {d : WalDir} {segs : Segments} {active : WalOffset} {len : ℕ}
    (hrec : Recovered bc d.segments segs active)
    (hstart : readStart d active.segmentId = .ok start) :
    CursorFits bc segmentBytes d len ↔ (start.segmentId = active.segmentId →
      start.byteOffset ≤ active.byteOffset ∧
        ((frames bc).Whole ((segs.content active.segmentId).drop start.byteOffset) ∨
          0 < active.byteOffset ∧ segmentBytes < active.byteOffset + len)) := by
  rw [← hrec.length_content]
  exact lastCursor_iff (P := fun b off => off ≤ b.length ∧
    ((frames bc).Whole (b.drop off) ∨ 0 < b.length ∧ segmentBytes < b.length + len)) hrec hstart
    fun b hb => ⟨Nat.zero_le _, .inl hb⟩

/-- The first record comes behind the recovered bytes. -/
lemma follows_of_firstPlace {segs₀ segs : Segments} {active : WalOffset}
    (hrec : Recovered bc segs₀ segs active) (hbc : bc.RoundTrips)
    (hencode : encodeInto bc r.request.event = .ok r.frame)
    (hlimit : r.frame.length ≤ 4 + maxWalRecordPayloadBytes)
    (hplace : r.offset = firstPlace segmentBytes active r.frame.length) : r.Follows bc segs := by
  have hlength := length_of_firstPlace (fun _ hid => hrec.le_of_mem hid) hrec.length_content hplace
  refine ⟨next_encodeInto hbc hencode hlimit, hlength, ?_⟩
  unfold firstPlace at hplace
  split_ifs at hplace
  · have hstart : r.start = 0 := congrArg WalOffset.byteOffset hplace
    rw [List.eq_nil_of_length_eq_zero (hlength.trans hstart)]
    exact (frames bc).whole_nil
  · have hseg : r.segmentId = active.segmentId := congrArg WalOffset.segmentId hplace
    rw [hseg]
    exact hrec.whole_active

/-- A cursor that fits leads to the first record. -/
lemma approaches_of_fits {segs₀ segs : Segments} {active : WalOffset}
    (hrec : Recovered bc segs₀ segs active) (hle : start.segmentId ≤ active.segmentId)
    (hfits : start.segmentId = active.segmentId → start.byteOffset ≤ active.byteOffset ∧
      ((frames bc).Whole ((segs.content active.segmentId).drop start.byteOffset) ∨
        0 < active.byteOffset ∧ segmentBytes < active.byteOffset + r.frame.length))
    (hplace : r.offset = firstPlace segmentBytes active r.frame.length) :
    (Subscription.new start).Approaches bc segs r 0 where
  place := by
    by_cases hfull : 0 < active.byteOffset ∧ segmentBytes < active.byteOffset + r.frame.length
    · rw [firstPlace_of_full hfull] at hplace
      have hseg : r.segmentId = active.segmentId + 1 := congrArg WalOffset.segmentId hplace
      exact .inl ((Nat.lt_succ_of_le hle).trans_eq hseg.symm)
    · rw [firstPlace_of_room hfull] at hplace
      obtain rfl : ⟨r.segmentId, r.start⟩ = active := hplace
      refine hle.lt_or_eq.imp_right fun heq => ?_
      obtain ⟨hoff, hwhole⟩ := hfits heq
      exact ⟨heq, hoff, hwhole.resolve_right hfull⟩
  curReader := Subscription.readerFits_none _ _ _
  reader reader payload h := by cases h
  corrupt h := by rcases h with h | h <;> cases h
  waits h := h.elim

/-- In every run of writer and subscription from a successful `Wal::open` on, up to a state in which
the writer has published the first record and notified: the subscription has started inside the log
and has returned the record or will do so, if and only if the cursor fits the recovered log and the
record is within the limit. -/
theorem startsInside_iff (hbc : bc.RoundTrips) {d : WalDir} {w : Wal}
    (hopen : Wal.open bc d = .ok w) {t : Writer}
    (h : Reach (Writer.step bc segmentBytes) Writer.Ascends w.writer t) {rest : List Record}
    (hr : t.records = r :: rest) (hhead : r.offsetAfter ≤ t.head) (hnotified : ¬ t.pc.Notifies) :
    (∀ s, Reach (Live.step bc segmentBytes) (Live.LeavesNothing r.offset) (Live.init w) s →
      s.writer = t → StartsInside bc segmentBytes w r s) ↔
      CursorFits bc segmentBytes d r.frame.length ∧
        r.frame.length ≤ 4 + maxWalRecordPayloadBytes := by
  obtain ⟨segs, active, start, hrec, hstart, rfl⟩ := open_eq_ok hopen
  have hlast : ∀ id ∈ segs, id ≤ active.segmentId := fun _ hid => hrec.le_of_mem hid
  obtain ⟨hi, hf, -⟩ := Writer.first_of_reach hlast hrec.length_content h
  have hplace := hf.offset r rest hr
  obtain ⟨-, hencode⟩ := Writer.encoded_of_mem_records hi.toBooks (hr ▸ List.mem_cons_self)
  have hle := le_of_readStart hrec hstart
  have hlen : ((segs.create active.segmentId).content active.segmentId).length =
      active.byteOffset := by
    rw [Segments.content_create, hrec.length_content]
  rw [cursorFits_iff hrec hstart]
  constructor
  · intro hall
    obtain ⟨-, hvalid, hwill⟩ := hall ⟨t, .new start, [], 0⟩ (Live.reach_of_writer _ h) rfl
    have hne : r.frame ≠ [] := frame_ne_nil hencode
    have hshows := Writer.shows_of_reach hlast hrec.length_content hplace hne h (.inl ⟨rest, hr⟩)
    have hlength := length_of_firstPlace hlast hrec.length_content hplace
    have hframe : r.frame <+: (t.segments.content r.segmentId).drop r.start := by
      have hdrop := (hshows.published hhead).drop r.start
      rwa [← hlength, List.drop_left, hlength] at hdrop
    obtain ⟨hlimit, hbound⟩ := of_willReturn hencode hframe hwill
    refine ⟨fun hseg => ?_, hlimit⟩
    have hoff : start.byteOffset ≤ active.byteOffset := hlen ▸ hvalid hseg
    refine ⟨hoff, or_iff_not_imp_right.mpr fun hfull => ?_⟩
    rw [firstPlace_of_room hfull] at hplace
    have hrseg : r.segmentId = active.segmentId := congrArg WalOffset.segmentId hplace
    obtain ⟨k, hk, hrk⟩ := hbound (hrseg.trans hseg.symm)
    rw [hseg, ← hrseg] at hk
    exact hrseg ▸ whole_of_boundary hshows hlength hk hrk
  · rintro ⟨hfits, hlimit⟩ s hs rfl
    have hfollows := follows_of_firstPlace hrec hbc hencode hlimit hplace
    obtain ⟨hreach, hleads⟩ := Live.approaches_of_reach rfl hlast hrec.length_content hplace
      hfollows (approaches_of_fits hrec hle hfits hplace) rfl hs
    refine ⟨WalOffset.le_iff.mpr ?_, fun hseg => hlen.symm ▸ (hfits hseg).1, ?_⟩
    · exact hle.lt_or_eq.imp_right fun heq => ⟨heq, (hfits heq).1⟩
    · rcases hleads (.inl ⟨rest, hr⟩) with he | ⟨happ, hnotice⟩
      · exact .of_mem he
      · refine Live.Due.willReturn hlast hrec.length_content hplace hfollows
          ⟨hreach, ⟨rest, hr⟩, hhead, happ, hnotice, fun seen hpc => ?_⟩
        exact (hnotice.heard seen hpc hhead).resolve_right hnotified

/-- An event is sent, written, flushed and published, and those who wait are notified. -/
def publishOne : List WriterLabel :=
  [.send ⟨⟨"a", 2, ""⟩, none⟩, .deadline false, .recv, .step, .write none none, .deadline true,
    .flush none, .step, .step]

/-- Behind the one record of a directory without a cursor. -/
theorem startsInside_of_oneFrameDir :
    ∃ w t r, Wal.open Bincode.fixint Live.oneFrameDir = .ok w ∧
      exec (Writer.step Bincode.fixint 100) w.writer publishOne = some t ∧ t.records = [r] ∧
      r.offset = ⟨1, 29⟩ ∧ StartsInside Bincode.fixint 100 w r ⟨t, w.subscription, [], 0⟩ := by
  obtain ⟨w, t, r, hopen, hexec, hr, hoffset, hhead, hpc, hlen⟩ : ∃ (w : Wal) (t : Writer)
      (r : Record), Wal.open Bincode.fixint Live.oneFrameDir = .ok w ∧
      exec (Writer.step Bincode.fixint 100) w.writer publishOne = some t ∧ t.records = [r] ∧
      r.offset = ⟨1, 29⟩ ∧ r.offsetAfter ≤ t.head ∧ t.pc = .periodicAck ∧ r.frame.length = 29 :=
    ⟨_, _, _, rfl, rfl, rfl, rfl, WalOffset.le_iff.mpr (.inr ⟨rfl, le_rfl⟩), rfl, rfl⟩
  have hguard : Always (Writer.step Bincode.fixint 100) Writer.Ascends w.writer publishOne := by
    cases hopen
    decide
  have hreach := Reach.of_exec hguard hexec
  refine ⟨w, t, r, hopen, hexec, hr, hoffset, ?_⟩
  refine (startsInside_iff Bincode.fixint_roundTrips hopen hreach hr hhead
    (by simp [hpc, WriterPc.Notifies])).mpr ⟨fun off hoff => ?_, ?_⟩ _
    (Live.reach_of_writer _ hreach) rfl
  · cases hoff
  · rw [hlen]
    decide

/-- The cursor of a longer log. -/
def cursorBehindDir : WalDir := { Live.oneFrameDir with cursor := some (WalOffset.toBytes ⟨1, 40⟩) }

/-- The reader starts behind the recovered 29 bytes, and never gets to the event appended there,
though nothing happens but its own steps. -/
theorem startsBehind_of_cursorBehindDir :
    ∃ w t r, Wal.open Bincode.fixint cursorBehindDir = .ok w ∧
      exec (Writer.step Bincode.fixint 100) w.writer publishOne = some t ∧ t.records = [r] ∧
      w.writer.head = ⟨1, 29⟩ ∧ w.subscription.position = ⟨1, 40⟩ ∧
      (w.writer.segments.content 1).length = 29 ∧
      ¬ (Live.mk t w.subscription [] 0).WillReturn Bincode.fixint 100 (fun _ _ => True)
        r.walEntry := by
  obtain ⟨w, t, r, hopen, hsub, hexec, hr, hhead, hpos, hlen, hoffset, hencode, hframe⟩ :
      ∃ (w : Wal) (t : Writer) (r : Record),
      Wal.open Bincode.fixint cursorBehindDir = .ok w ∧ w.subscription = .new ⟨1, 40⟩ ∧
      exec (Writer.step Bincode.fixint 100) w.writer publishOne = some t ∧ t.records = [r] ∧
      w.writer.head = ⟨1, 29⟩ ∧ w.subscription.position = ⟨1, 40⟩ ∧
      (w.writer.segments.content 1).length = 29 ∧ r.offset = ⟨1, 29⟩ ∧
      encodeInto Bincode.fixint r.request.event = .ok r.frame ∧
      (t.segments.content r.segmentId).drop r.start = r.frame :=
    ⟨_, _, _, rfl, rfl, rfl, rfl, rfl, rfl, rfl, rfl, rfl, rfl⟩
  refine ⟨w, t, r, hopen, hexec, hr, hhead, hpos, hlen, fun hwill => ?_⟩
  rw [hsub] at hwill
  have hwill := hwill.mono (G := Live.LeavesNothing r.offset) fun _ _ _ => trivial
  obtain ⟨k, -, hk⟩ := (of_willReturn hencode (hframe ▸ List.prefix_rfl) hwill).2
    (congrArg WalOffset.segmentId hoffset)
  have hstart : r.start = 29 := congrArg WalOffset.byteOffset hoffset
  dsimp only at hk
  omega

end SmarthomeIngest
