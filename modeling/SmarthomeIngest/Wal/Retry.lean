import SmarthomeIngest.Wal.Live

/-!
# Retrying a failed read

A read that fails leaves the position where it is, and the subscription goes on to wait or to skip.
The run from there comes back to the same position unless it leaves it for the next segment, or
skips a frame whose length prefix it can read.
-/

namespace SmarthomeIngest

open Transition

variable (bc : Bincode)

/-- Opening, seeking or decoding has failed. -/
def ReadOutcome.Failed : ReadOutcome → Prop
  | .openError _ | .seekError _ | .corrupt _ => True
  | _ => False

/-- The frame of `event` is in its file, at the position. -/
def Intact (position : WalOffset) (event : WalEvent) (n : ℕ) (v : WalView) : Prop :=
  (frames bc).next ((v.segments.content position.segmentId).drop position.byteOffset) =
    some (some event, n)

namespace Subscription

/-- One step of `next`, under what it sees of the log and the disk. -/
def stepIn (s : Subscription) (l : WalView × NextLabel) : Option Subscription :=
  (s.step bc l.1 l.2).map Prod.fst

/-- The next step is a read attempt. -/
def AtRead (s : Subscription) : Prop := ∃ reader payload, s.pc = .readOne reader payload

/-- The step does not go on to the next segment, and skips nothing. -/
def Stays (s : Subscription) : WalView × NextLabel → Prop
  | (_, .drop) => True
  | (v, .run faults) =>
    match s.pc with
    | .loadHead _ | .reloadHead _ => v.head.segmentId ≤ s.curSegmentId
    | .skip => faults.lenPrefix
    | _ => True

/-- The subscription is at `position`, and will open the file for its next read. -/
structure Waiting (position : WalOffset) (s : Subscription) : Prop where
  position_eq : s.position = position
  curReader : s.curReader = none
  reader : ∀ reader payload, s.pc = .readOne reader payload → reader = none

variable {bc} {s s' : Subscription} {position : WalOffset} {event : WalEvent} {n : ℕ}
  {v : WalView}

lemma Waiting.goto (h : Waiting position s) {pc : NextPc}
    (hpc : ∀ reader payload, pc ≠ .readOne reader payload) :
    Waiting position { s with pc := pc } :=
  ⟨h.position_eq, h.curReader, fun reader payload hread => absurd hread (hpc reader payload)⟩

lemma Waiting.startRead (h : Waiting position s) : Waiting position s.startRead := by
  refine ⟨h.position_eq, rfl, fun reader payload hread => ?_⟩
  cases hread
  exact h.curReader

lemma waiting_of_failed {reader : Option ℕ} {payload : Bytes} {faults : ReadFaults}
    {outcome : ReadOutcome} {reader' : Option ℕ} {payload' : Bytes}
    (hread : readOne bc v.segments s.curSegmentId s.curByteOffset reader payload faults =
      (outcome, reader', payload')) (hfail : outcome.Failed) :
    Waiting s.position (s.afterRead (outcome, reader', payload')).1 := by
  -- the reader is dropped with the error
  have hnone : reader' = none := by
    unfold readOne at hread
    split at hread
    · cases hread
      rfl
    · dsimp only at hread
      split at hread
      · cases hread
        cases hfail
      · cases hread
        cases hfail
      · cases hread
        rfl
  subst hnone
  cases outcome with
  | record | notFound | eof => cases hfail
  | openError | seekError | corrupt => exact ⟨rfl, rfl, fun _ _ h => by cases h⟩

/-- The length prefix of an intact frame can be read, if the disk lets it be read. -/
lemma readLenPrefix_of_intact (hv : Intact bc position event n v) {faults : ReadFaults}
    (hlen : ¬ faults.lenPrefix) :
    ∃ len, readLenPrefix v.segments position.segmentId position.byteOffset faults = some len ∧
      len ≤ maxSkipBytes := by
  obtain ⟨body, hcut, -, -⟩ := exists_of_frames_next hv
  refine ⟨body.length, ?_, (Frame.cut_eq_complete.mp hcut).1⟩
  rw [← readLenPrefix_of_complete hcut, readLenPrefix, readLenPrefix]
  simp [hlen]

/-- A step that stays. -/
lemma Waiting.step (h : Waiting position s) (hread : ¬ s.AtRead) {l : NextLabel}
    (hstays : s.Stays (v, l)) (hs : s.stepIn bc (v, l) = some s') : Waiting position s' := by
  obtain ⟨⟨t, entry⟩, hstep, rfl⟩ := Option.map_eq_some_iff.mp hs
  cases NextRule.of_step hstep with
  | record hpc | corrupt hpc | nothing hpc | dropRead hpc => exact absurd ⟨_, _, hpc⟩ hread
  | ready | ahead | reloadAhead | notified => exact h.startRead
  | nextSegment hpc hhead =>
    rcases hpc with hpc | hpc
    all_goals
      simp only [Stays, hpc] at hstays
      exact absurd hhead (not_lt.mpr hstays)
  | skip hpc hlen =>
    simp only [Stays, hpc] at hstays
    simp [readLenPrefix, hstays] at hlen
  | _ => exact h.goto (by simp)

/-- A step that does not stay leads to a read attempt at another position. -/
lemma Waiting.leave (h : Waiting position s) {l : NextLabel} (hv : Intact bc position event n v)
    (hstays : ¬ s.Stays (v, l)) (hs : s.stepIn bc (v, l) = some s') :
    s'.AtRead ∧ s'.position ≠ position := by
  obtain ⟨⟨t, entry⟩, hstep, rfl⟩ := Option.map_eq_some_iff.mp hs
  obtain rfl := h.position_eq
  cases NextRule.of_step hstep with
  | nextSegment =>
    refine ⟨⟨_, _, rfl⟩, fun heq => ?_⟩
    have hseg := congrArg WalOffset.segmentId heq
    exact absurd hseg (Nat.succ_ne_self _)
  | skip =>
    refine ⟨⟨_, _, rfl⟩, fun heq => ?_⟩
    have hoff := congrArg WalOffset.byteOffset heq
    dsimp only [Subscription.startRead, Subscription.position] at hoff
    omega
  | unreadablePrefix hpc hlen =>
    simp only [Stays, hpc] at hstays
    obtain ⟨len, hsome, -⟩ := readLenPrefix_of_intact hv hstays
    rw [position, hlen] at hsome
    cases hsome
  | tooLong hpc hlen hmax =>
    simp only [Stays, hpc] at hstays
    obtain ⟨len, hsome, hle⟩ := readLenPrefix_of_intact hv hstays
    rw [position, hlen] at hsome
    cases hsome
    exact absurd hmax (not_lt.mpr hle)
  | ahead hpc hseg =>
    simp only [Stays, hpc] at hstays
    exact absurd hseg.le hstays
  | atHead hpc hseg | reloadAhead hpc hseg | ended hpc hseg =>
    simp only [Stays, hpc] at hstays
    exact absurd hseg hstays
  | dropRead | dropSkip | dropPark => exact absurd trivial hstays
  | ready hpc | record hpc | corrupt hpc | nothing hpc | activeTail hpc | poison hpc
  | register hpc | closed hpc | parks hpc | notified hpc => simp [Stays, hpc] at hstays

/-- What the run up to the next read attempt does to the position. -/
lemma Waiting.run (h : Waiting position s) {as : List (WalView × NextLabel)}
    (hrun : Always (stepIn bc) (fun u l => ¬ u.AtRead ∧ Intact bc position event n l.1) s as)
    (hexec : exec (stepIn bc) s as = some s') :
    Always (stepIn bc) Stays s as ∧ Waiting position s' ∨
      ¬ Always (stepIn bc) Stays s as ∧ s'.position ≠ position := by
  induction as generalizing s with
  | nil =>
    cases hexec
    exact .inl ⟨trivial, h⟩
  | cons a as ih =>
    obtain ⟨v, l⟩ := a
    obtain ⟨⟨hread, hv⟩, hrest⟩ := hrun
    obtain ⟨t, ht, hexec⟩ := Option.bind_eq_some_iff.mp hexec
    rw [always_cons_of_some ht]
    by_cases hstays : s.Stays (v, l)
    · rcases ih (h.step hread hstays ht) (hrest t ht) hexec with ⟨hall, hw⟩ | ⟨hnot, hne⟩
      · exact .inl ⟨⟨hstays, hall⟩, hw⟩
      · exact .inr ⟨fun hall => hnot hall.2, hne⟩
    · obtain ⟨hat, hne⟩ := h.leave hv hstays ht
      refine .inr ⟨fun hall => hstays hall.1, ?_⟩
      -- the run ends at the read attempt
      cases as with
      | nil =>
        cases hexec
        exact hne
      | cons b as => exact absurd hat (hrest t ht).1.1

/-- A read attempt at the position returns the frame. -/
lemma Waiting.step_readOne (h : Waiting position s) {reader : Option ℕ} {payload : Bytes}
    (hpc : s.pc = .readOne reader payload) (hv : Intact bc position event n v) :
    ∃ s', s.step bc v (.run {}) = some (s',
      some ⟨position, ⟨position.segmentId, position.byteOffset + n⟩, event⟩) := by
  obtain rfl := h.reader reader payload hpc
  obtain ⟨p', hread⟩ := readOne_of_record bc (readerAt_none _) payload hv
  rw [← h.position_eq] at hread ⊢
  refine ⟨{ s with
    curByteOffset := s.curByteOffset + n, curReader := some (s.curByteOffset + n),
    payloadBuf := p', pc := .ready }, ?_⟩
  simp only [Subscription.step, hpc]
  exact congrArg (some ∘ s.afterRead) hread

/-- From a failed read attempt up to the next one, with the frame intact: the position stays, and
the next attempt returns the frame if it does not fail, exactly if no step goes on to the next
segment or skips the frame. -/
theorem retried_iff {reader : Option ℕ} {payload : Bytes} {faults : ReadFaults}
    {outcome : ReadOutcome} {reader' : Option ℕ} {payload' : Bytes} {u : Subscription}
    (hread : readOne bc v.segments s.curSegmentId s.curByteOffset reader payload faults =
      (outcome, reader', payload')) (hfail : outcome.Failed)
    {as : List (WalView × NextLabel)}
    (hrun : Always (stepIn bc) (fun u l => ¬ u.AtRead ∧ Intact bc s.position event n l.1)
      (s.afterRead (outcome, reader', payload')).1 as)
    (hexec : exec (stepIn bc) (s.afterRead (outcome, reader', payload')).1 as = some u) :
    (u.position = s.position ∧
      ∀ v, u.AtRead → Intact bc s.position event n v →
        ∃ u', u.step bc v (.run {}) = some (u',
          some ⟨s.position, ⟨s.curSegmentId, s.curByteOffset + n⟩, event⟩)) ↔
    Always (stepIn bc) Stays (s.afterRead (outcome, reader', payload')).1 as := by
  rcases (waiting_of_failed hread hfail).run hrun hexec with ⟨hstays, hw⟩ | ⟨hstays, hne⟩
  · refine ⟨fun _ => hstays, fun _ => ⟨hw.position_eq, ?_⟩⟩
    rintro v ⟨reader, payload, hpc⟩ hv
    exact hw.step_readOne hpc hv
  · exact ⟨fun h => absurd h.1 hne, fun h => absurd h hstays⟩

/-- A subscription at the start of segment 1, about to read. -/
def atFrame : Subscription := (new ⟨1, 0⟩).startRead

/-- A segment with one frame, and the head. -/
def oneFrameView (head : WalOffset) : WalView := ⟨Live.oneFrameDir.segments, head, 0, false⟩

/-- The subscription after a failed open. -/
def failedOpen : Subscription := (atFrame.afterRead (.openError "EMFILE", none, [])).1

/-- Two steps with the head behind the frame. -/
def twoSteps : List (WalView × NextLabel) :=
  [(oneFrameView ⟨1, 29⟩, .run {}), (oneFrameView ⟨1, 29⟩, .run {})]

/-- The open fails while the head is in the segment: the position is read again. -/
theorem retried_of_openError :
    ∃ u, exec (stepIn Bincode.fixint) failedOpen twoSteps = some u ∧ u.position = ⟨1, 0⟩ ∧
      ∃ u', u.step Bincode.fixint (oneFrameView ⟨1, 29⟩) (.run {}) =
        some (u', some ⟨⟨1, 0⟩, ⟨1, 29⟩, ⟨"a", 1, ""⟩⟩) := by
  obtain ⟨u, hexec, hat⟩ : ∃ u, exec (stepIn Bincode.fixint) failedOpen twoSteps = some u ∧
      u.AtRead := ⟨_, rfl, _, _, rfl⟩
  have hread : readOne Bincode.fixint (oneFrameView ⟨1, 29⟩).segments 1 0 none []
      ⟨some "EMFILE", none, none, false⟩ = (.openError "EMFILE", none, []) := rfl
  have hintact : Intact Bincode.fixint ⟨1, 0⟩ ⟨"a", 1, ""⟩ 29 (oneFrameView ⟨1, 29⟩) := rfl
  have hfirst : ¬ failedOpen.AtRead := by
    rintro ⟨_, _, h⟩
    cases h
  have hsecond : ∀ t, stepIn Bincode.fixint failedOpen (oneFrameView ⟨1, 29⟩, .run {}) = some t →
      ¬ t.AtRead ∧ t.Stays (oneFrameView ⟨1, 29⟩, .run {}) := by
    intro t ht
    cases ht
    refine ⟨?_, le_rfl⟩
    rintro ⟨_, _, h⟩
    cases h
  have hrun : Always (stepIn Bincode.fixint) (fun u l => ¬ u.AtRead ∧
      Intact Bincode.fixint ⟨1, 0⟩ ⟨"a", 1, ""⟩ 29 l.1) failedOpen twoSteps :=
    ⟨⟨hfirst, hintact⟩, fun t ht => ⟨⟨(hsecond t ht).1, hintact⟩, fun _ _ => trivial⟩⟩
  have hstays : Always (stepIn Bincode.fixint) Stays failedOpen twoSteps :=
    ⟨trivial, fun t ht => ⟨(hsecond t ht).2, fun _ _ => trivial⟩⟩
  obtain ⟨hpos, hretry⟩ := (retried_iff (s := atFrame) hread trivial hrun hexec).mpr hstays
  exact ⟨u, hexec, hpos, hretry _ hat hintact⟩

/-- The frame is intact, and left behind for the next segment after a failed open, or skipped after
a failed read. -/
theorem not_retried_of_laterHead :
    Intact Bincode.fixint ⟨1, 0⟩ ⟨"a", 1, ""⟩ 29 (oneFrameView ⟨2, 0⟩) ∧
    Intact Bincode.fixint ⟨1, 0⟩ ⟨"a", 1, ""⟩ 29 (oneFrameView ⟨1, 29⟩) ∧
    (∃ u, exec (stepIn Bincode.fixint) atFrame
        [(oneFrameView ⟨2, 0⟩, .run ⟨some "EMFILE", none, none, false⟩),
          (oneFrameView ⟨2, 0⟩, .run {}), (oneFrameView ⟨2, 0⟩, .run {})] = some u ∧
      u.pc = .readOne none [] ∧ u.position = ⟨2, 0⟩) ∧
    ∃ u, exec (stepIn Bincode.fixint) atFrame
        [(oneFrameView ⟨1, 29⟩, .run ⟨none, none, some (4, "EIO"), false⟩),
          (oneFrameView ⟨1, 29⟩, .run {}), (oneFrameView ⟨1, 29⟩, .run {})] = some u ∧
      (∃ payload, u.pc = .readOne none payload) ∧ u.position = ⟨1, 29⟩ :=
  ⟨rfl, rfl, ⟨_, rfl, rfl, rfl⟩, _, rfl, ⟨_, rfl⟩, rfl⟩

end Subscription

end SmarthomeIngest
