import SmarthomeIngest.Lib.Transition
import SmarthomeIngest.Wal.Cursor
import SmarthomeIngest.Wal.Subscription

/-!
# Commits

`WalSubscription::commit` writes the cursor and then removes the segments below it, but it looks
for such segments only when the committed segment is above the last one it has looked for. A
segment whose removal failed is then found again by the next commit that looks, and not before.
-/

namespace SmarthomeIngest

open Transition

/-! ### The commit -/

/-- The I/O errors a commit may run into: writing the cursor, listing the directory, and removing
the segments named. -/
structure CommitFaults where
  cursor : Option CursorFault := none
  list : Option String := none
  remove : List ℕ := []
  deriving DecidableEq

/-- Segments are looked for only when the committed segment is above the last one. -/
def runGc (lastGcSegmentId : ℕ) (upTo : WalOffset) : Bool :=
  decide (lastGcSegmentId < upTo.segmentId)

/-- The loop over the listed segments. Those whose removal fails are passed over. -/
def reclaim (upTo : ℕ) (failing : List ℕ) : List ℕ → Segments → Segments
  | [], segs => segs
  | id :: ids, segs =>
    if upTo ≤ id then segs
    else reclaim upTo failing ids (if id ∈ failing then segs else segs.remove id)

/-- `commit`: the result, the directory and the field `last_gc_segment_id` afterwards. -/
def commit (d : WalDir) (lastGcSegmentId : ℕ) (upTo : WalOffset) (faults : CommitFaults) :
    Except String Unit × WalDir × ℕ :=
  match writeCursor d upTo faults.cursor with
  | (.error e, d) => (.error e, d, lastGcSegmentId)
  | (.ok (), d) =>
    if runGc lastGcSegmentId upTo then
      match faults.list with
      | some e => (.error e, d, lastGcSegmentId)
      | none =>
        (.ok (), { d with
          segments := reclaim upTo.segmentId faults.remove d.segments.listSegments d.segments },
          upTo.segmentId)
    else (.ok (), d, lastGcSegmentId)

/-- The segments of the directory that a commit tries to remove and cannot. -/
def failedRemovals (d : WalDir) (lastGcSegmentId : ℕ) (upTo : WalOffset) (faults : CommitFaults) :
    List ℕ :=
  if runGc lastGcSegmentId upTo then
    d.segments.listSegments.filter fun id => id < upTo.segmentId ∧ id ∈ faults.remove
  else []

variable {d : WalDir} {lastGcSegmentId : ℕ} {upTo : WalOffset} {faults : CommitFaults}

/-- In an ascending listing the loop removes what is below the committed segment and can be
removed. -/
lemma mem_reclaim {n : ℕ} {failing ids : List ℕ} (hids : ids.Pairwise (· < ·)) {segs : Segments}
    {id : ℕ} :
    id ∈ reclaim n failing ids segs ↔ id ∈ segs ∧ ¬ (id ∈ ids ∧ id < n ∧ id ∉ failing) := by
  induction ids generalizing segs with
  | nil => simp [reclaim]
  | cons first ids ih =>
    obtain ⟨hfirst, hsorted⟩ := List.pairwise_cons.mp hids
    rw [reclaim]
    split_ifs with hle hfail
    · -- the rest of the listing is above as well
      have habove : ∀ id ∈ first :: ids, n ≤ id := by
        intro id hid
        rcases List.mem_cons.mp hid with rfl | hid
        · exact hle
        · exact hle.trans (hfirst id hid).le
      refine ⟨fun h => ⟨h, fun hrem => ?_⟩, fun h => h.1⟩
      exact absurd (habove id hrem.1) (not_le.mpr hrem.2.1)
    · rw [ih hsorted, List.mem_cons]
      refine and_congr_right fun _ => not_congr ?_
      constructor
      · exact fun h => ⟨.inr h.1, h.2⟩
      · rintro ⟨rfl | hid, hlt, hnot⟩
        · exact absurd hfail hnot
        · exact ⟨hid, hlt, hnot⟩
    · rw [ih hsorted, Segments.mem_remove, List.mem_cons]
      have hlt := not_le.mp hle
      constructor
      · rintro ⟨⟨hne, hmem⟩, hnot⟩
        refine ⟨hmem, ?_⟩
        rintro ⟨rfl | hid, hrem⟩
        · exact hne rfl
        · exact hnot ⟨hid, hrem⟩
      · rintro ⟨hmem, hnot⟩
        refine ⟨⟨?_, hmem⟩, fun hrem => hnot ⟨.inr hrem.1, hrem.2⟩⟩
        rintro rfl
        exact hnot ⟨.inl rfl, hlt, hfail⟩

/-- What a commit that succeeds has done. -/
structure Committed (d : WalDir) (lastGcSegmentId : ℕ) (upTo : WalOffset) (faults : CommitFaults)
    (d' : WalDir) (lastGcSegmentId' : ℕ) : Prop where
  cursor : d'.cursor = some upTo.toBytes
  mem_segments : ∀ id, id ∈ d'.segments ↔ id ∈ d.segments ∧
    ¬ (lastGcSegmentId < upTo.segmentId ∧ id < upTo.segmentId ∧ id ∉ faults.remove)
  lastGc : lastGcSegmentId' = max lastGcSegmentId upTo.segmentId

lemma committed_of_ok {d' : WalDir} {lastGcSegmentId' : ℕ}
    (h : commit d lastGcSegmentId upTo faults = (.ok (), d', lastGcSegmentId')) :
    Committed d lastGcSegmentId upTo faults d' lastGcSegmentId' := by
  unfold commit at h
  cases hcursor : faults.cursor with
  | some fault =>
    rw [hcursor] at h
    cases fault <;> cases h
  | none =>
    simp only [hcursor, writeCursor, runGc, decide_eq_true_eq] at h
    split_ifs at h with hgc
    · cases hlist : faults.list with
      | some e =>
        rw [hlist] at h
        cases h
      | none =>
        rw [hlist] at h
        cases h
        refine ⟨rfl, fun id => ?_, (max_eq_right hgc.le).symm⟩
        rw [mem_reclaim d.segments.pairwise_listSegments, Segments.mem_listSegments]
        tauto
    · cases h
      refine ⟨rfl, fun id => ?_, (max_eq_left (not_lt.mp hgc)).symm⟩
      tauto

/-- A commit that fails removes no segment. -/
lemma segments_of_error {d' : WalDir} {lastGcSegmentId' : ℕ} {e : String}
    (h : commit d lastGcSegmentId upTo faults = (.error e, d', lastGcSegmentId')) :
    d'.segments = d.segments ∧ lastGcSegmentId' = lastGcSegmentId := by
  unfold commit at h
  cases hcursor : faults.cursor with
  | some fault =>
    rw [hcursor] at h
    cases fault <;> cases h <;> exact ⟨rfl, rfl⟩
  | none =>
    simp only [hcursor, writeCursor, runGc, decide_eq_true_eq] at h
    split_ifs at h
    · cases hlist : faults.list with
      | some e =>
        rw [hlist] at h
        cases h
        exact ⟨rfl, rfl⟩
      | none =>
        rw [hlist] at h
        cases h
    · cases h

/-! ### Sequences of commits -/

/-- A directory and the commits made on it. The last two fields are history: the offset of the last
commit, the start of the subscription at first, and the segments that the last look for segments to
remove has found and not removed. -/
structure Commits where
  dir : WalDir
  lastGcSegmentId : ℕ
  last : WalOffset
  failed : List ℕ

namespace Commits

/-- No commit yet, and a subscription that starts at `start`. -/
def init (d : WalDir) (start : WalOffset) : Commits :=
  ⟨d, (Subscription.new start).lastGcSegmentId, start, []⟩

/-- The next commit, with its offset and the errors it meets. -/
def step (s : Commits) (l : WalOffset × CommitFaults) : Option Commits :=
  match commit s.dir s.lastGcSegmentId l.1 l.2 with
  | (.error _, dir, gc) => some ⟨dir, gc, l.1, s.failed⟩
  | (.ok (), dir, gc) =>
    some ⟨dir, gc, l.1, if runGc s.lastGcSegmentId l.1 then
      failedRemovals s.dir s.lastGcSegmentId l.1 l.2 else s.failed⟩

/-- If the commit succeeds and removes all it tries to, no segment below it is left. -/
def Reclaims (s : Commits) (l : WalOffset × CommitFaults) : Prop :=
  ∀ dir gc, commit s.dir s.lastGcSegmentId l.1 l.2 = (.ok (), dir, gc) →
    failedRemovals s.dir s.lastGcSegmentId l.1 l.2 = [] → ∀ id ∈ dir.segments, l.1.segmentId ≤ id

/-- A commit that looks for no segments and writes the cursor comes behind a look that has removed
all it has found. -/
def NothingLeft (s : Commits) (l : WalOffset × CommitFaults) : Prop :=
  l.2.cursor = none → ¬ runGc s.lastGcSegmentId l.1 → s.failed = []

/-- What has been left behind is in the directory, below the last commit; and nothing else is below
the last segment looked for. -/
structure Inv (start : WalOffset) (s : Commits) : Prop where
  start_le : start.segmentId ≤ s.last.segmentId
  failed : ∀ id ∈ s.failed, id ∈ s.dir.segments ∧ id < s.last.segmentId
  below : s.lastGcSegmentId = start.segmentId - 1 ∨
    ∀ id ∈ s.dir.segments, id < s.lastGcSegmentId → id ∈ s.failed

variable {start : WalOffset} {s s' : Commits} {l : WalOffset × CommitFaults}

lemma mem_failedRemovals {id : ℕ} : id ∈ failedRemovals d lastGcSegmentId upTo faults ↔
    lastGcSegmentId < upTo.segmentId ∧ id ∈ d.segments ∧ id < upTo.segmentId ∧
      id ∈ faults.remove := by
  rw [failedRemovals]
  split_ifs with hgc
  · have hlt : lastGcSegmentId < upTo.segmentId := of_decide_eq_true hgc
    simp [hlt]
  · have hge : ¬ lastGcSegmentId < upTo.segmentId := fun hlt => hgc (decide_eq_true hlt)
    simp [hge]

lemma Inv.step (hi : Inv start s) (hle : s.last.segmentId ≤ l.1.segmentId)
    (h : s.step l = some s') : Inv start s' := by
  obtain ⟨upTo, faults⟩ := l
  rw [Commits.step] at h
  dsimp only at h hle
  split at h
  · rename_i e dir gc hcommit
    cases h
    obtain ⟨hsegs, rfl⟩ := segments_of_error hcommit
    refine ⟨hi.start_le.trans hle, fun id hid => ?_, ?_⟩
    · obtain ⟨hmem, hlt⟩ := hi.failed id hid
      exact ⟨hsegs ▸ hmem, hlt.trans_le hle⟩
    · dsimp only
      rw [hsegs]
      exact hi.below
  · rename_i dir gc hcommit
    cases h
    have hc := committed_of_ok hcommit
    have hstart := hi.start_le.trans hle
    by_cases hgc : s.lastGcSegmentId < upTo.segmentId
    · have hrun : runGc s.lastGcSegmentId upTo = true := decide_eq_true hgc
      refine ⟨hstart, fun id hid => ?_, .inr fun id hid hlt => ?_⟩
      · dsimp only at hid ⊢
        rw [if_pos hrun, mem_failedRemovals] at hid
        exact ⟨(hc.mem_segments id).mpr ⟨hid.2.1, fun h => h.2.2 hid.2.2.2⟩, hid.2.2.1⟩
      · dsimp only at hid hlt ⊢
        rw [hc.lastGc, max_eq_right hgc.le] at hlt
        rw [if_pos hrun, mem_failedRemovals]
        obtain ⟨hmem, hkept⟩ := (hc.mem_segments id).mp hid
        refine ⟨hgc, hmem, hlt, ?_⟩
        by_contra hnot
        exact hkept ⟨hgc, hlt, hnot⟩
    · have hrun : ¬ runGc s.lastGcSegmentId upTo = true := by simpa [runGc] using hgc
      have hsame : ∀ id, id ∈ dir.segments ↔ id ∈ s.dir.segments := fun id => by
        rw [hc.mem_segments]
        exact ⟨fun h => h.1, fun h => ⟨h, fun h' => hgc h'.1⟩⟩
      have hlast : gc = s.lastGcSegmentId := hc.lastGc.trans (max_eq_left (not_lt.mp hgc))
      refine ⟨hstart, fun id hid => ?_, ?_⟩
      · dsimp only at hid ⊢
        rw [if_neg hrun] at hid
        obtain ⟨hmem, hlt⟩ := hi.failed id hid
        exact ⟨(hsame id).mpr hmem, hlt.trans_le hle⟩
      · dsimp only
        rw [if_neg hrun, hlast]
        refine hi.below.imp_right fun hbelow id hid hlt => ?_
        exact hbelow id ((hsame id).mp hid) hlt

/-- A commit that looks for segments reclaims them; one that does not reclaims them if they are all
gone already. -/
lemma Inv.reclaims_iff_nothingLeft (hi : Inv start s) (hle : s.last.segmentId ≤ l.1.segmentId) :
    s.Reclaims l ↔ s.NothingLeft l := by
  obtain ⟨upTo, faults⟩ := l
  dsimp only at hle
  by_cases hgc : s.lastGcSegmentId < upTo.segmentId
  · have hrun : runGc s.lastGcSegmentId upTo = true := decide_eq_true hgc
    refine ⟨fun _ _ hnot => absurd hrun hnot, fun _ dir gc hcommit hfailed id hid => ?_⟩
    obtain ⟨hmem, hkept⟩ := ((committed_of_ok hcommit).mem_segments id).mp hid
    by_contra hlt
    have hlt := not_le.mp hlt
    have hnone : id ∉ failedRemovals s.dir s.lastGcSegmentId upTo faults := by
      rw [show failedRemovals s.dir s.lastGcSegmentId upTo faults = [] from hfailed]
      exact List.not_mem_nil
    rw [mem_failedRemovals] at hnone
    exact hkept ⟨hgc, hlt, fun h => hnone ⟨hgc, hmem, hlt, h⟩⟩
  · have hrun : ¬ runGc s.lastGcSegmentId upTo = true := by simpa [runGc] using hgc
    have hnone : failedRemovals s.dir s.lastGcSegmentId upTo faults = [] := if_neg hrun
    constructor
    · intro hrec hcursor _
      have hcommit : commit s.dir s.lastGcSegmentId upTo faults = (.ok (),
          { s.dir with cursor := some upTo.toBytes, cursorTmp := none }, s.lastGcSegmentId) := by
        rw [commit, show faults.cursor = none from hcursor, writeCursor]
        exact if_neg hrun
      have hall := hrec _ _ hcommit hnone
      rw [List.eq_nil_iff_forall_not_mem]
      intro id hid
      obtain ⟨hmem, hlt⟩ := hi.failed id hid
      exact absurd (hall id hmem) (not_le.mpr (hlt.trans_le hle))
    · intro hleft dir gc hcommit _ id hid
      have hcursor : faults.cursor = none := by
        cases hcursor : faults.cursor with
        | none => rfl
        | some fault =>
          rw [commit, hcursor] at hcommit
          cases fault <;> cases hcommit
      have hempty := hleft hcursor hrun
      have hmem := (((committed_of_ok hcommit).mem_segments id).mp hid).1
      have hstart := hi.start_le.trans hle
      dsimp only
      rcases hi.below with hfirst | hbelow
      · omega
      · by_contra hlt
        have := hbelow id hmem (by omega)
        rw [hempty] at this
        exact absurd this List.not_mem_nil

/-- Commits with ascending offsets from the start of the subscription on: every commit that
succeeds and removes all it tries to leaves no segment below it, exactly if those that look for no
segments come behind a look that has removed all it has found. -/
theorem reclaims_iff (d : WalDir) (start : WalOffset) {ls : List (WalOffset × CommitFaults)}
    (hls : Always step (fun s l => s.last ≤ l.1) (init d start) ls) :
    Always step Reclaims (init d start) ls ↔ Always step NothingLeft (init d start) ls := by
  have hinit : Inv start (init d start) := ⟨le_rfl, nofun, .inl rfl⟩
  have hseg : ∀ {a b : WalOffset}, a ≤ b → a.segmentId ≤ b.segmentId := fun h =>
    (WalOffset.le_iff.mp h).elim (fun h => h.le) fun h => h.1.le
  exact always_iff hinit (fun s l s' hi hle _ hs => hi.step (hseg hle) hs)
    (fun s l hi hle => hi.reclaims_iff_nothingLeft (hseg hle)) hls

/-- Two segments, the first of which a crash has left behind. -/
def leftoverDir : WalDir := ⟨((∅ : Segments).create 1).create 2, none, none⟩

/-- A commit whose removal of segment 1 fails, then one that looks for no segments, and one in the
next segment. -/
def failingRemoval : List (WalOffset × CommitFaults) :=
  [(⟨2, 0⟩, ⟨none, none, [1]⟩), (⟨2, 29⟩, {}), (⟨3, 0⟩, {})]

theorem reclaims_of_noFaults :
    Always step Reclaims (init leftoverDir ⟨1, 0⟩) [(⟨2, 0⟩, {}), (⟨2, 29⟩, {})] := by
  have hls : Always step (fun s l => s.last ≤ l.1) (init leftoverDir ⟨1, 0⟩)
      [(⟨2, 0⟩, {}), (⟨2, 29⟩, {})] := by
    decide
  refine (reclaims_iff leftoverDir ⟨1, 0⟩ hls).mpr ⟨fun _ hgc => absurd rfl hgc, fun t ht => ?_⟩
  cases ht
  exact ⟨fun _ _ => rfl, fun _ _ => trivial⟩

/-- The second commit succeeds and tries to remove nothing, and segment 1 is still there. -/
theorem not_reclaims_of_failingRemoval :
    Always step (fun s l => s.last ≤ l.1) (init leftoverDir ⟨1, 0⟩) failingRemoval ∧
    (∃ s dir gc, exec step (init leftoverDir ⟨1, 0⟩) (failingRemoval.take 1) = some s ∧
      commit s.dir s.lastGcSegmentId ⟨2, 29⟩ {} = (.ok (), dir, gc) ∧
      failedRemovals s.dir s.lastGcSegmentId ⟨2, 29⟩ {} = [] ∧ 1 ∈ dir.segments) ∧
    ¬ Always step Reclaims (init leftoverDir ⟨1, 0⟩) failingRemoval := by
  have hleft : ∃ s dir gc, exec step (init leftoverDir ⟨1, 0⟩) (failingRemoval.take 1) = some s ∧
      commit s.dir s.lastGcSegmentId ⟨2, 29⟩ {} = (.ok (), dir, gc) ∧
      failedRemovals s.dir s.lastGcSegmentId ⟨2, 29⟩ {} = [] ∧ 1 ∈ dir.segments :=
    ⟨_, _, _, rfl, rfl, rfl, by decide⟩
  refine ⟨by decide, hleft, fun hall => ?_⟩
  have hsecond := (hall.2 _ rfl).1 _ _ rfl rfl 1 (by decide)
  exact absurd hsecond (by decide)

end Commits

end SmarthomeIngest
