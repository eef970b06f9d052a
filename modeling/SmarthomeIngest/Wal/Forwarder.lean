import SmarthomeIngest.Lib.Transition
import SmarthomeIngest.Wal.Commit
import SmarthomeIngest.Wal.Open

/-!
# The forwarder

`run_forwarder` with `flush` and `commit`, one file operation a step. `next` is taken as what it is
for: it returns the first entry behind the last one. Meanwhile the writer appends to the last
segment and starts new ones. A crash may happen in every state: what survives it is `dir`.
`ForwarderRule` lists what a step can do, and `ForwarderRule.of_step` takes it apart; `exec_commit`
says that the file operations of a commit, taken together, are `commit`.
-/

namespace SmarthomeIngest

open Transition

inductive SinkResult where
  | ok
  | retryable
  | permanent
  deriving DecidableEq, Repr

/-- The points of the forwarder. A flush carries the offset it will commit, and whether it is the
last one before the return. -/
inductive ForwarderPc where
  | select
  | write (highest : WalOffset) (closing : Bool)
  | createTmp (upTo : WalOffset) (closing : Bool)
  | writeTmp (upTo : WalOffset) (closing : Bool)
  | rename (upTo : WalOffset) (closing : Bool)
  | list (upTo : WalOffset) (closing : Bool)
  | remove (upTo : WalOffset) (ids : List ℕ) (closing : Bool)
  | committed (upTo : WalOffset) (closing : Bool)
  | returned
  deriving DecidableEq

/-- The forwarder and the directory it works on. The last three fields are history: the segment
files with those deleted meanwhile, the entries of the batches that the sink has accepted, and
those of the batch that it has accepted and no cursor covers yet. -/
structure Forwarder where
  dir : WalDir
  position : WalOffset
  lastGcSegmentId : ℕ
  batch : List WalEntry
  pc : ForwarderPc
  log : Segments
  accepted : List WalEntry
  uncommitted : List WalEntry

/-- How the rest of the world acts: the ticker, `next`, the sink, the file system, the writer. -/
inductive ForwarderLabel where
  | tick
  | entry
  | closed
  | sink (result : SinkResult)
  | createTmp (ok : Bool)
  | writeTmp (written : ℕ)
  | writeTmpDone
  | writeTmpFailed
  | rename (ok : Bool)
  | list (ok : Bool)
  | remove (ok : Bool)
  | done
  | append (b : Bytes)
  | createSegment
  deriving DecidableEq

namespace Forwarder

/-- The forwarder of an open log. -/
def init (w : Wal) : Forwarder where
  dir := ⟨w.writer.segments, w.cursor, w.cursorTmp⟩
  position := w.subscription.position
  lastGcSegmentId := w.subscription.lastGcSegmentId
  batch := []
  pc := .select
  log := w.writer.segments
  accepted := []
  uncommitted := []

/-- `flush`, up to the first `sink.write`. -/
def startFlush (s : Forwarder) (closing : Bool) : Forwarder :=
  match s.batch.getLast? with
  | none       => s
  | some entry => { s with pc := .write entry.offsetAfter closing }

/-- Segments are reclaimed only when the committed segment has advanced. -/
def runGc (s : Forwarder) (upTo : WalOffset) : Bool := decide (s.lastGcSegmentId < upTo.segmentId)

/-- The last segment and its length, as the writer knows them. -/
def lastSegment (s : Forwarder) : Option ℕ := s.log.listSegments.getLast?

variable (bc : Bincode) (batchSize : ℕ)

/-- One step of the forwarder, or of the writer beside it. -/
def step (s : Forwarder) (l : ForwarderLabel) : Option Forwarder :=
  match s.pc, l with
  -- file lengths and segment ids are `u64`
  | _, .append b =>
    match s.lastSegment with
    | none => none
    | some last =>
      if (s.log.content last).length + b.length < 2 ^ 64 then
        some { s with
          dir := { s.dir with
            segments := s.dir.segments.write last (s.dir.segments.content last ++ b) }
          log := s.log.write last (s.log.content last ++ b) }
      else none
  | _, .createSegment =>
    match s.lastSegment with
    | none => none
    | some last =>
      if last + 1 < 2 ^ 64 then
        some { s with
          dir := { s.dir with segments := s.dir.segments.create (last + 1) }
          log := s.log.create (last + 1) }
      else none
  | .select, .tick => some (if s.batch = [] then s else s.startFlush false)
  | .select, .entry =>
    match entriesFrom bc s.dir.segments s.position with
    | [] => none
    | entry :: _ =>
      let s := { s with batch := s.batch ++ [entry], position := entry.offsetAfter }
      some (if batchSize ≤ s.batch.length then s.startFlush false else s)
  | .select, .closed => some (if s.batch = [] then { s with pc := .returned } else s.startFlush true)
  | .write highest closing, .sink .ok =>
    some { s with
      batch := []
      accepted := s.accepted ++ s.batch
      uncommitted := s.batch
      pc := .createTmp highest closing }
  | .write _ _, .sink _ => some s
  -- a failed commit is started again
  | .createTmp upTo closing, .createTmp ok =>
    if ok then
      some { s with dir := { s.dir with cursorTmp := some [] }, pc := .writeTmp upTo closing }
    else some s
  | .writeTmp upTo closing, .writeTmp written =>
    some { s with dir := { s.dir with cursorTmp := some (upTo.toBytes.take written) }
                  pc := .writeTmp upTo closing }
  | .writeTmp upTo closing, .writeTmpDone =>
    some { s with dir := { s.dir with cursorTmp := some upTo.toBytes }, pc := .rename upTo closing }
  | .writeTmp upTo closing, .writeTmpFailed => some { s with pc := .createTmp upTo closing }
  | .rename upTo closing, .rename ok =>
    if ok then
      some { s with
        dir := { s.dir with cursor := s.dir.cursorTmp, cursorTmp := none }
        uncommitted := []
        pc := if s.runGc upTo then .list upTo closing else .committed upTo closing }
    else some { s with pc := .createTmp upTo closing }
  | .list upTo closing, .list ok =>
    if ok then
      some { s with
        pc := .remove upTo (s.dir.segments.listSegments.takeWhile (· < upTo.segmentId)) closing }
    else some { s with pc := .createTmp upTo closing }
  | .remove upTo (id :: ids) closing, .remove ok =>
    some { s with
      dir := { s.dir with segments := if ok then s.dir.segments.remove id else s.dir.segments }
      pc := .remove upTo ids closing }
  | .remove upTo [] closing, .done => some { s with pc := .committed upTo closing }
  | .committed upTo closing, .done =>
    some { s with
      lastGcSegmentId := if s.runGc upTo then upTo.segmentId else s.lastGcSegmentId
      pc := if closing then .returned else .select }
  | _, _ => none

/-- The steps of the forwarder and of the writer beside it from `s`, with their labels and their
results. -/
inductive ForwarderRule (s : Forwarder) : ForwarderLabel → Forwarder → Prop
  | append {last : ℕ} {b : Bytes} (hlast : s.lastSegment = some last)
      (hlen : (s.log.content last).length + b.length < 2 ^ 64) :
      ForwarderRule s (.append b) { s with
        dir := { s.dir with
          segments := s.dir.segments.write last (s.dir.segments.content last ++ b) }
        log := s.log.write last (s.log.content last ++ b) }
  | createSegment {last : ℕ} (hlast : s.lastSegment = some last) (hlt : last + 1 < 2 ^ 64) :
      ForwarderRule s .createSegment { s with
        dir := { s.dir with segments := s.dir.segments.create (last + 1) }
        log := s.log.create (last + 1) }
  | idle (hpc : s.pc = .select) : ForwarderRule s .tick s
  | tick (hpc : s.pc = .select) : ForwarderRule s .tick (s.startFlush false)
  | entry {e : WalEntry} {rest : List WalEntry} (hpc : s.pc = .select)
      (hnext : entriesFrom bc s.dir.segments s.position = e :: rest) :
      ForwarderRule s .entry { s with batch := s.batch ++ [e], position := e.offsetAfter }
  | entryFull {e : WalEntry} {rest : List WalEntry} (hpc : s.pc = .select)
      (hnext : entriesFrom bc s.dir.segments s.position = e :: rest)
      (hfull : batchSize ≤ (s.batch ++ [e]).length) :
      ForwarderRule s .entry
        (startFlush { s with batch := s.batch ++ [e], position := e.offsetAfter } false)
  | closedEmpty (hpc : s.pc = .select) (hbatch : s.batch = []) :
      ForwarderRule s .closed { s with pc := .returned }
  | closed (hpc : s.pc = .select) : ForwarderRule s .closed (s.startFlush true)
  | accept {highest : WalOffset} {closing : Bool} (hpc : s.pc = .write highest closing) :
      ForwarderRule s (.sink .ok) { s with
        batch := []
        accepted := s.accepted ++ s.batch
        uncommitted := s.batch
        pc := .createTmp highest closing }
  | refuse {highest : WalOffset} {closing : Bool} {result : SinkResult}
      (hpc : s.pc = .write highest closing) : ForwarderRule s (.sink result) s
  | createTmp {upTo : WalOffset} {closing : Bool} (hpc : s.pc = .createTmp upTo closing) :
      ForwarderRule s (.createTmp true)
        { s with dir := { s.dir with cursorTmp := some [] }, pc := .writeTmp upTo closing }
  | createTmpFailed {upTo : WalOffset} {closing : Bool} (hpc : s.pc = .createTmp upTo closing) :
      ForwarderRule s (.createTmp false) s
  | writeTmp {upTo : WalOffset} {closing : Bool} {written : ℕ}
      (hpc : s.pc = .writeTmp upTo closing) :
      ForwarderRule s (.writeTmp written) { s with
        dir := { s.dir with cursorTmp := some (upTo.toBytes.take written) }
        pc := .writeTmp upTo closing }
  | writeTmpDone {upTo : WalOffset} {closing : Bool} (hpc : s.pc = .writeTmp upTo closing) :
      ForwarderRule s .writeTmpDone
        { s with dir := { s.dir with cursorTmp := some upTo.toBytes }, pc := .rename upTo closing }
  | writeTmpFailed {upTo : WalOffset} {closing : Bool} (hpc : s.pc = .writeTmp upTo closing) :
      ForwarderRule s .writeTmpFailed { s with pc := .createTmp upTo closing }
  | rename {upTo : WalOffset} {closing : Bool} (hpc : s.pc = .rename upTo closing) :
      ForwarderRule s (.rename true) { s with
        dir := { s.dir with cursor := s.dir.cursorTmp, cursorTmp := none }
        uncommitted := []
        pc := if s.runGc upTo then .list upTo closing else .committed upTo closing }
  | renameFailed {upTo : WalOffset} {closing : Bool} (hpc : s.pc = .rename upTo closing) :
      ForwarderRule s (.rename false) { s with pc := .createTmp upTo closing }
  | list {upTo : WalOffset} {closing : Bool} (hpc : s.pc = .list upTo closing) :
      ForwarderRule s (.list true) { s with
        pc := .remove upTo (s.dir.segments.listSegments.takeWhile (· < upTo.segmentId)) closing }
  | listFailed {upTo : WalOffset} {closing : Bool} (hpc : s.pc = .list upTo closing) :
      ForwarderRule s (.list false) { s with pc := .createTmp upTo closing }
  | remove {upTo : WalOffset} {id : ℕ} {ids : List ℕ} {closing ok : Bool}
      (hpc : s.pc = .remove upTo (id :: ids) closing) :
      ForwarderRule s (.remove ok) { s with
        dir := { s.dir with segments := if ok then s.dir.segments.remove id else s.dir.segments }
        pc := .remove upTo ids closing }
  | removed {upTo : WalOffset} {closing : Bool} (hpc : s.pc = .remove upTo [] closing) :
      ForwarderRule s .done { s with pc := .committed upTo closing }
  | committed {upTo : WalOffset} {closing : Bool} (hpc : s.pc = .committed upTo closing) :
      ForwarderRule s .done { s with
        lastGcSegmentId := if s.runGc upTo then upTo.segmentId else s.lastGcSegmentId
        pc := if closing then .returned else .select }

variable {bc batchSize} {s s' : Forwarder} {l : ForwarderLabel}

/-- Every step is by one of the rules. -/
theorem ForwarderRule.of_step (h : step bc batchSize s l = some s') :
    ForwarderRule bc batchSize s l s' := by
  unfold step at h
  split at h
  · split at h
    · cases h
    · rename_i hlast
      split_ifs at h with hlen
      cases h
      exact .append hlast hlen
  · split at h
    · cases h
    · rename_i hlast
      split_ifs at h with hlt
      cases h
      exact .createSegment hlast hlt
  · cases h
    split_ifs
    · exact .idle ‹_›
    · exact .tick ‹_›
  · rename_i hpc
    split at h
    · cases h
    · rename_i hnext
      cases h
      split_ifs with hfull
      · exact .entryFull hpc hnext hfull
      · exact .entry hpc hnext
  · rename_i hpc
    cases h
    split_ifs with hbatch
    · exact .closedEmpty hpc hbatch
    · exact .closed hpc
  · cases h
    exact .accept ‹_›
  · cases h
    exact .refuse ‹_›
  · rename_i ok hpc
    cases ok with
    | true =>
      cases h
      exact .createTmp hpc
    | false =>
      cases h
      exact .createTmpFailed hpc
  · cases h
    exact .writeTmp ‹_›
  · cases h
    exact .writeTmpDone ‹_›
  · cases h
    exact .writeTmpFailed ‹_›
  · rename_i ok hpc
    cases ok with
    | true =>
      cases h
      exact .rename hpc
    | false =>
      cases h
      exact .renameFailed hpc
  · rename_i ok hpc
    cases ok with
    | true =>
      cases h
      exact .list hpc
    | false =>
      cases h
      exact .listFailed hpc
  · cases h
    exact .remove ‹_›
  · cases h
    exact .removed ‹_›
  · cases h
    exact .committed ‹_›
  · cases h

end Forwarder

/-! ### A whole commit -/

/-- One round of the loop of a commit. -/
def tryRemove (failing : List ℕ) (segs : Segments) (id : ℕ) : Segments :=
  if id ∈ failing then segs else segs.remove id

lemma reclaim_eq_foldl (n : ℕ) (failing ids : List ℕ) (segs : Segments) :
    reclaim n failing ids segs =
      (ids.takeWhile (· < n)).foldl (tryRemove failing) segs := by
  induction ids generalizing segs with
  | nil => rfl
  | cons id ids ih =>
    rw [reclaim]
    split_ifs with hle hfail
    · simp [not_lt.mpr hle]
    · simp [not_le.mp hle, ih, tryRemove, hfail]
    · simp [not_le.mp hle, ih, tryRemove, hfail]

namespace Forwarder

variable {bc : Bincode} {batchSize : ℕ} {s : Forwarder} {upTo : WalOffset} {closing : Bool}

lemma exec_remove (failing : List ℕ) {ids : List ℕ} (hpc : s.pc = .remove upTo ids closing) :
    exec (step bc batchSize) s (ids.map fun id => .remove (id ∉ failing)) = some { s with
      dir := { s.dir with segments := ids.foldl (tryRemove failing) s.dir.segments }
      pc := .remove upTo [] closing } := by
  induction ids generalizing s with
  | nil =>
    simp only [List.map_nil, exec, List.foldl_nil, ← hpc]
  | cons id ids ih =>
    have hstep : step bc batchSize s (.remove (id ∉ failing)) = some { s with
        dir := { s.dir with segments := tryRemove failing s.dir.segments id }
        pc := .remove upTo ids closing } := by
      simp only [step, hpc]
      by_cases hid : id ∈ failing <;> simp [tryRemove, hid]
    rw [List.map_cons, exec, hstep, Option.bind_some, ih rfl]
    rfl

/-- The state behind the rename. -/
def renamed (s : Forwarder) (upTo : WalOffset) (closing : Bool) : Forwarder :=
  { s with
    dir := { s.dir with cursor := some upTo.toBytes, cursorTmp := none }
    uncommitted := []
    pc := if s.runGc upTo then .list upTo closing else .committed upTo closing }

lemma exec_writeCursor (hpc : s.pc = .createTmp upTo closing) :
    exec (step bc batchSize) s [.createTmp true, .writeTmpDone, .rename true] =
      some (s.renamed upTo closing) := by
  simp [exec, step, hpc]
  rfl

lemma exec_writeCursor_error (hpc : s.pc = .createTmp upTo closing) (fault : CursorFault) :
    ∃ as e, exec (step bc batchSize) s as =
        some { s with dir := (writeCursor s.dir upTo (some fault)).2 } ∧
      (writeCursor s.dir upTo (some fault)).1 = .error e := by
  cases fault with
  | create e =>
    refine ⟨[.createTmp false], e, ?_, rfl⟩
    simp [exec, step, hpc, writeCursor]
    rw [← hpc]
  | write n e =>
    refine ⟨[.createTmp true, .writeTmp n, .writeTmpFailed], e, ?_, rfl⟩
    simp [exec, step, hpc, writeCursor]
  | rename e =>
    refine ⟨[.createTmp true, .writeTmpDone, .rename false], e, ?_, rfl⟩
    simp [exec, step, hpc, writeCursor]

/-- The state behind a commit, with what `commit` returns. -/
def afterCommit (s : Forwarder) (upTo : WalOffset) (closing : Bool) (faults : CommitFaults) :
    Forwarder :=
  match SmarthomeIngest.commit s.dir s.lastGcSegmentId upTo faults with
  | (r, d, gc) =>
    { s with
      dir := d
      lastGcSegmentId := gc
      uncommitted := if faults.cursor = none then [] else s.uncommitted
      pc := match r with
        | .ok ()   => if closing then .returned else .select
        | .error _ => .createTmp upTo closing }

lemma exec_of_cursorFault (hpc : s.pc = .createTmp upTo closing) (fault : CursorFault)
    (list : Option String) (failing : List ℕ) :
    ∃ as, exec (step bc batchSize) s as =
      some (s.afterCommit upTo closing ⟨some fault, list, failing⟩) := by
  obtain ⟨as, e, hexec, herror⟩ := exec_writeCursor_error hpc fault
  refine ⟨as, hexec.trans ?_⟩
  have hwrite : writeCursor s.dir upTo (some fault) =
      (.error e, (writeCursor s.dir upTo (some fault)).2) := Prod.ext herror rfl
  simp only [afterCommit, SmarthomeIngest.commit]
  rw [hwrite]
  simp [← hpc]

/-- The file operations of a commit, one step each, do what `commit` does. -/
theorem exec_commit (bc : Bincode) (batchSize : ℕ) (hpc : s.pc = .createTmp upTo closing)
    (faults : CommitFaults) :
    ∃ as, exec (step bc batchSize) s as = some (s.afterCommit upTo closing faults) := by
  obtain ⟨cursor, list, failing⟩ := faults
  cases cursor with
  | some fault => exact exec_of_cursorFault hpc fault list failing
  | none =>
    have hcursor : exec (step bc batchSize) s [.createTmp true, .writeTmpDone, .rename true] =
        some (s.renamed upTo closing) := exec_writeCursor hpc
    cases hgc : s.runGc upTo with
    | false =>
      have hpc' : (s.renamed upTo closing).pc = .committed upTo closing := by simp [renamed, hgc]
      have hgc' : (s.renamed upTo closing).runGc upTo = false := hgc
      have hnot : ¬ s.lastGcSegmentId < upTo.segmentId := of_decide_eq_false hgc
      have hdone : exec (step bc batchSize) (s.renamed upTo closing) [.done] = some
          { s.renamed upTo closing with pc := if closing then .returned else .select } := by
        simp [exec, step, hpc', hgc']
      refine ⟨[.createTmp true, .writeTmpDone, .rename true] ++ [.done], ?_⟩
      rw [exec_append, hcursor, Option.bind_some, hdone]
      simp [afterCommit, SmarthomeIngest.commit, writeCursor, SmarthomeIngest.runGc, renamed, hnot]
    | true =>
      have hpc' : (s.renamed upTo closing).pc = .list upTo closing := by simp [renamed, hgc]
      have hlt : s.lastGcSegmentId < upTo.segmentId := of_decide_eq_true hgc
      cases list with
      | some e =>
        have hfailed : exec (step bc batchSize) (s.renamed upTo closing) [.list false] =
            some { s.renamed upTo closing with pc := .createTmp upTo closing } := by
          simp [exec, step, hpc']
        refine ⟨[.createTmp true, .writeTmpDone, .rename true] ++ [.list false], ?_⟩
        rw [exec_append, hcursor, Option.bind_some, hfailed]
        simp [afterCommit, SmarthomeIngest.commit, writeCursor, SmarthomeIngest.runGc, renamed, hlt]
      | none =>
        let ids := s.dir.segments.listSegments.takeWhile (· < upTo.segmentId)
        have hlist : exec (step bc batchSize) (s.renamed upTo closing) [.list true] =
            some { s.renamed upTo closing with pc := .remove upTo ids closing } := by
          simp [exec, step, hpc', ids]
          rfl
        refine ⟨[.createTmp true, .writeTmpDone, .rename true] ++ ([.list true] ++
          ((ids.map fun id => .remove (id ∉ failing)) ++ [.done, .done])), ?_⟩
        rw [exec_append, hcursor, Option.bind_some, exec_append, hlist, Option.bind_some,
          exec_append, exec_remove failing rfl, Option.bind_some]
        simp [exec, step, afterCommit, SmarthomeIngest.commit, writeCursor,
          SmarthomeIngest.runGc, Forwarder.runGc, renamed, hlt, reclaim_eq_foldl, ids]

end Forwarder

end SmarthomeIngest
