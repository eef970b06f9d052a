import SmarthomeIngest.Lib.Simulation
import SmarthomeIngest.Wal.AtLeastOnce
import SmarthomeIngest.Wal.Live

/-!
# Forwarding an open log

`run_forwarder` on the subscription of an open log, with the writer thread beside it: the select of
its loop polls `next` as the state machine it is, and drops it when the ticker comes first. `Forwarder`
takes `next` as what it is for. `Mirrors` relates the two, and in the runs where `next` is not
overtaken every step here is a run of `Forwarder`.
-/

namespace SmarthomeIngest

open Transition

/-! ### The system -/

/-- The points of `run_forwarder`: the select of its loop, `sink.write` and `commit` in `flush`, and
the return. -/
inductive ForwardingPc where
  | select
  | write (highest : WalOffset) (closing : Bool)
  | commit (upTo : WalOffset) (closing : Bool)
  | returned
  deriving DecidableEq

/-- An open log and the forwarder that drains it. The last two fields are history: the entries of
the batches that the sink has accepted, and those that no cursor covers yet. `seenLen` is that of
`Live`. -/
structure Forwarding where
  writer : Writer
  subscription : Subscription
  seenLen : ℕ
  cursor : Option Bytes
  cursorTmp : Option Bytes
  batch : List WalEntry
  pc : ForwardingPc
  accepted : List WalEntry
  uncommitted : List WalEntry

/-- Who moves: the writer, `next` by a step, the ticker, the sink with its answer, or a whole
commit. -/
inductive ForwardingLabel where
  | writer (l : WriterLabel)
  | next
  | tick
  | sink (result : SinkResult)
  | commit (faults : CommitFaults)

namespace Forwarding

def init (w : Wal) : Forwarding where
  writer := w.writer
  subscription := w.subscription
  seenLen := 0
  cursor := w.cursor
  cursorTmp := w.cursorTmp
  batch := []
  pc := .select
  accepted := []
  uncommitted := []

/-- The directory as a crash leaves it. -/
def dir (s : Forwarding) : WalDir := ⟨s.writer.segments, s.cursor, s.cursorTmp⟩

/-- Writer and subscription, before `next` returns anything. -/
def live (s : Forwarding) : Live := ⟨s.writer, s.subscription, [], s.seenLen⟩

def setLive (s : Forwarding) (live : Live) : Forwarding :=
  { s with writer := live.writer, subscription := live.subscription, seenLen := live.seenLen }

/-- `flush`, up to the first `sink.write`; without a batch there is none. -/
def startFlush (s : Forwarding) (closing : Bool) : Forwarding :=
  match s.batch.getLast? with
  | none       => s
  | some entry => { s with pc := .write entry.offsetAfter closing }

/-- `next` has returned an entry. -/
def received (batchSize : ℕ) (s : Forwarding) (entry : WalEntry) : Forwarding :=
  let s := { s with batch := s.batch ++ [entry] }
  if batchSize ≤ s.batch.length then s.startFlush false else s

/-- `next` has returned `None`. -/
def closed (s : Forwarding) : Forwarding :=
  if s.batch = [] then { s with pc := .returned } else s.startFlush true

/-- `next` has gone a step, which may be its last. -/
def afterNext (batchSize : ℕ) (s : Forwarding) (live : Live) : Forwarding :=
  match live.yielded, live.subscription.pc with
  | entry :: _, _ => (s.setLive live).received batchSize entry
  | [], .ended    => (s.setLive live).closed
  | [], _         => s.setLive live

/-- A commit, which is made again if it fails. -/
def afterCommit (s : Forwarding) (upTo : WalOffset) (closing : Bool) (faults : CommitFaults) :
    Forwarding :=
  match SmarthomeIngest.commit s.dir s.subscription.lastGcSegmentId upTo faults with
  | (r, d, gc) =>
    { s with
      writer := { s.writer with segments := d.segments }
      subscription := { s.subscription with lastGcSegmentId := gc }
      cursor := d.cursor
      cursorTmp := d.cursorTmp
      uncommitted := if faults.cursor = none then [] else s.uncommitted
      pc := match r with
        | .ok ()   => if closing then .returned else .select
        | .error _ => .commit upTo closing }

variable (bc : Bincode) (segmentBytes batchSize : ℕ)

def step (s : Forwarding) (l : ForwardingLabel) : Option Forwarding :=
  match s.pc, l with
  | _, .writer l => (s.live.step bc segmentBytes (.writer l)).map s.setLive
  | .select, .next => (s.live.step bc segmentBytes .next).map (s.afterNext batchSize)
  -- the ticker is polled first, and a `next` that waits is dropped
  | .select, .tick =>
    match s.subscription.pc with
    | .ready => some (s.startFlush false)
    | _ =>
      (s.subscription.step bc s.writer.view .drop).map fun (sub, _) =>
        startFlush { s with subscription := sub } false
  | .write highest closing, .sink .ok =>
    some { s with
      batch := []
      accepted := s.accepted ++ s.batch
      uncommitted := s.batch
      pc := .commit highest closing }
  | .write _ _, .sink _ => some s
  | .commit upTo closing, .commit faults => some (s.afterCommit upTo closing faults)
  | _, _ => none

/-- No I/O error in the writer, no event over the limit, rotations that go up, file lengths that are
`u64` values, and no load of the head that makes `next` leave a segment too early. -/
def Orderly (s : Forwarding) : ForwardingLabel → Prop
  | .writer l => s.writer.Smooth bc l ∧ ∀ w, s.writer.step bc segmentBytes l = some w →
      (w.segments.content w.currentSegmentId).length < 2 ^ 64
  | .next => s.live.UpToDate .next
  | _ => True

instance decidableOrderly (s : Forwarding) : DecidablePred (s.Orderly bc segmentBytes)
  | .writer l =>
    inferInstanceAs (Decidable ((Live.FaultFree bc (.writer l) ∧ s.writer.Ascends l) ∧
      ∀ w ∈ s.writer.step bc segmentBytes l,
        (w.segments.content w.currentSegmentId).length < 2 ^ 64))
  | .next => inferInstanceAs (Decidable (s.live.UpToDate .next))
  | .tick | .sink _ | .commit _ => .isTrue trivial

/-! ### Inversion -/

/-- The steps from `s`, with their labels and their results. -/
inductive ForwardingRule (s : Forwarding) : ForwardingLabel → Forwarding → Prop
  | writer {l : WriterLabel} {w : Writer} (hw : s.writer.step bc segmentBytes l = some w) :
      ForwardingRule s (.writer l) { s with writer := w }
  | next {live : Live} (hpc : s.pc = .select)
      (hlive : s.live.step bc segmentBytes .next = some live) :
      ForwardingRule s .next (s.afterNext batchSize live)
  | tick (hpc : s.pc = .select) : ForwardingRule s .tick (s.startFlush false)
  | tickDrop {sub : Subscription} {entry : Option WalEntry} (hpc : s.pc = .select)
      (hsub : s.subscription.step bc s.writer.view .drop = some (sub, entry)) :
      ForwardingRule s .tick (startFlush { s with subscription := sub } false)
  | accept {highest : WalOffset} {closing : Bool} (hpc : s.pc = .write highest closing) :
      ForwardingRule s (.sink .ok) { s with
        batch := []
        accepted := s.accepted ++ s.batch
        uncommitted := s.batch
        pc := .commit highest closing }
  | refuse {highest : WalOffset} {closing : Bool} {result : SinkResult}
      (hpc : s.pc = .write highest closing) : ForwardingRule s (.sink result) s
  | commit {upTo : WalOffset} {closing : Bool} {faults : CommitFaults}
      (hpc : s.pc = .commit upTo closing) :
      ForwardingRule s (.commit faults) (s.afterCommit upTo closing faults)

variable {bc segmentBytes batchSize} {s s' : Forwarding} {l : ForwardingLabel}

section AfterNext

variable {sub : Subscription} {seenLen : ℕ}

lemma afterNext_of_ended (hend : sub.pc = .ended) :
    s.afterNext batchSize ⟨s.writer, sub, [], seenLen⟩ =
      closed { s with subscription := sub, seenLen := seenLen } := by
  simp only [afterNext, hend]
  rfl

lemma afterNext_of_ne (hend : sub.pc ≠ .ended) :
    s.afterNext batchSize ⟨s.writer, sub, [], seenLen⟩ =
      { s with subscription := sub, seenLen := seenLen } := by
  simp [afterNext, setLive]

end AfterNext

/-- Every step is by one of the rules. -/
theorem ForwardingRule.of_step (h : step bc segmentBytes batchSize s l = some s') :
    ForwardingRule bc segmentBytes batchSize s l s' := by
  unfold step at h
  split at h
  · obtain ⟨live, hlive, rfl⟩ := Option.map_eq_some_iff.mp h
    obtain ⟨w, hw, rfl⟩ := Option.map_eq_some_iff.mp hlive
    exact .writer hw
  · obtain ⟨live, hlive, rfl⟩ := Option.map_eq_some_iff.mp h
    exact .next ‹_› hlive
  · rename_i hpc
    split at h
    · cases h
      exact .tick hpc
    · obtain ⟨⟨sub, entry⟩, hsub, rfl⟩ := Option.map_eq_some_iff.mp h
      exact .tickDrop hpc hsub
  · cases h
    exact .accept ‹_›
  · cases h
    exact .refuse ‹_›
  · cases h
    exact .commit ‹_›
  · cases h

end Forwarding

/-! ### Removing segments that nobody reads -/

namespace Covers

variable {segs segs' segs'' : Segments} {n : ℕ}

lemma trans (h₁ : Covers segs segs' n) (h₂ : Covers segs' segs'' n) : Covers segs segs'' n where
  mem_log id hid := h₂.mem_log id (h₁.mem_log id hid)
  mem_dir id hid hle := h₁.mem_dir id (h₂.mem_dir id hid hle) hle
  content id hid := (h₁.content id hid).trans (h₂.content id (h₁.mem_log id hid))

/-- The loop of a commit removes segments below the committed one only. -/
lemma of_reclaim (n : ℕ) (failing ids : List ℕ) (segs : Segments) :
    Covers (reclaim n failing ids segs) segs n := by
  induction ids generalizing segs with
  | nil => exact .refl segs n
  | cons id ids ih =>
    rw [reclaim]
    split_ifs with hle hfail
    · exact .refl segs n
    · exact ih segs
    · exact (ih _).trans ((refl segs n).remove (not_le.mp hle))

lemma of_commit (d : WalDir) (gc : ℕ) (upTo : WalOffset) (faults : CommitFaults) :
    Covers (SmarthomeIngest.commit d gc upTo faults).2.1.segments d.segments upTo.segmentId := by
  unfold SmarthomeIngest.commit
  cases faults.cursor with
  | some fault => cases fault <;> exact .refl _ _
  | none =>
    simp only [writeCursor]
    split_ifs
    · cases faults.list with
      | some e => exact .refl _ _
      | none => exact of_reclaim _ _ _ _
    · exact .refl _ _

lemma content_eq_or (h : Covers segs segs' n) (id : ℕ) :
    segs.content id = segs'.content id ∨ segs.content id = [] := by
  by_cases hid : id ∈ segs
  · exact .inl (h.content id hid)
  · exact .inr (Segments.content_of_notMem hid)

end Covers

namespace Live

variable {bc : Bincode} {start : WalOffset} {s : Live} {segs : Segments}

/-- What is read from `start` on stays when segments below it go. -/
lemma Reading.of_covers (hr : Reading bc start s)
    (hc : Covers segs s.writer.segments start.segmentId) (gc : ℕ) :
    Reading bc start ⟨{ s.writer with segments := segs },
      { s.subscription with lastGcSegmentId := gc }, s.yielded, s.seenLen⟩ where
  writer :=
    { files := fun id => by
        rcases hc.content_eq_or id with heq | hnil
        · exact heq ▸ hr.writer.files id
        · exact hnil ▸ clean_nil
      buf := hr.writer.buf
      endsWith := by
        have hcur := hr.start_le.trans (hr.le_head.trans hr.writer.head_le)
        refine ⟨hc.mem_dir _ hr.writer.endsWith.1 hcur, fun id hid => ?_⟩
        exact hr.writer.endsWith.2 id (hc.mem_log id hid)
      head_le := hr.writer.head_le
      requests := hr.writer.requests
      frame := hr.writer.frame }
  start_le := hr.start_le
  le_head := hr.le_head
  onBoundary_start := (hc.onBoundary_iff le_rfl).mpr hr.onBoundary_start
  onBoundary := (hc.onBoundary_iff hr.start_le).mpr hr.onBoundary
  entries := by
    have hpos : start.segmentId ≤ s.subscription.position.segmentId := hr.start_le
    exact (hc.entriesFrom_eq le_rfl).trans
      (hr.entries.trans (congrArg _ (hc.entriesFrom_eq hpos).symm))
  atPc := hr.atPc

/-- A `next` that is dropped where it waits has moved nothing. -/
lemma Reading.drop (hr : Reading bc start s) {v : WalView} {sub : Subscription}
    {entry : Option WalEntry} (h : s.subscription.step bc v .drop = some (sub, entry)) :
    Reading bc start ⟨s.writer, sub, s.yielded, s.seenLen⟩ := by
  cases Subscription.NextRule.of_step h with
  | dropRead | dropSkip | dropPark => exact hr.goto _ rfl ⟨hr.atPc.1, trivial⟩

/-- Behind the entry that was returned last the log goes on where the subscription is. -/
lemma Reading.behind (hr : Reading bc start s) {e : WalEntry}
    (hafter : e.offsetAfter = s.subscription.position) :
    Reading bc e.offsetAfter ⟨s.writer, s.subscription, [], s.seenLen⟩ where
  writer := hr.writer
  start_le := hafter ▸ le_rfl
  le_head := hr.le_head
  onBoundary_start := hafter ▸ hr.onBoundary
  onBoundary := hr.onBoundary
  entries := by rw [hafter]; rfl
  atPc := hr.atPc

/-- What a step of `next` leaves alone, and what it returns. -/
lemma of_next {segmentBytes : ℕ} {s' : Live} (h : step bc segmentBytes s .next = some s') :
    s'.writer = s.writer ∧
    s'.subscription.lastGcSegmentId = s.subscription.lastGcSegmentId ∧
    (s'.yielded = s.yielded ∨
      ∃ e, s'.yielded = s.yielded ++ [e] ∧ e.offsetAfter = s'.subscription.position) := by
  obtain ⟨⟨sub, entry⟩, hsub, rfl⟩ := Option.map_eq_some_iff.mp h
  refine ⟨rfl, ?_, ?_⟩
  · cases Subscription.NextRule.of_step hsub <;> rfl
  · cases Subscription.NextRule.of_step hsub with
    | record => exact .inr ⟨_, rfl, rfl⟩
    | _ => exact .inl (List.append_nil _)

end Live

end SmarthomeIngest
