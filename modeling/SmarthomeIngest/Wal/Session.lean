import SmarthomeIngest.Wal.Commit
import SmarthomeIngest.Wal.Live
import SmarthomeIngest.Wal.Open

/-!
# Commits of an open log

Writer, subscription and commits as one system. The offsets that are committed have been returned
by `next`, in whatever order. A commit that names a later segment than all before it removes the
segments below; one behind it may name a segment that is gone, and then the log cannot be opened
again.
-/

namespace SmarthomeIngest

open Transition

/-! ### The system -/

/-- An open log. The last two fields are history: the entries returned, and the commits made. -/
structure Session where
  writer : Writer
  subscription : Subscription
  cursor : Option Bytes
  cursorTmp : Option Bytes
  yielded : List WalEntry
  commits : List (WalOffset × CommitFaults)

inductive SessionLabel where
  | writer (l : WriterLabel)
  | next (l : NextLabel)
  | commit (upTo : WalOffset) (faults : CommitFaults)

namespace Session

def init (w : Wal) : Session := ⟨w.writer, w.subscription, w.cursor, w.cursorTmp, [], []⟩

/-- The directory as a crash, or the end of the process, leaves it. -/
def dir (s : Session) : WalDir := ⟨s.writer.segments, s.cursor, s.cursorTmp⟩

variable (bc : Bincode) (segmentBytes : ℕ)

/-- One step of the writer or of `next`, or a whole commit. -/
def step (s : Session) : SessionLabel → Option Session
  | .writer l => (s.writer.step bc segmentBytes l).map fun w => { s with writer := w }
  | .next l =>
    (s.subscription.step bc s.writer.view l).map fun (sub, entry) =>
      { s with subscription := sub, yielded := s.yielded ++ entry.toList }
  | .commit upTo faults =>
    -- `next` and `commit` both borrow the subscription
    if s.subscription.pc = .ready ∨ s.subscription.pc = .ended then
      match commit s.dir s.subscription.lastGcSegmentId upTo faults with
      | (_, d, gc) =>
        some { s with
          writer := { s.writer with segments := d.segments }
          subscription := { s.subscription with lastGcSegmentId := gc }
          cursor := d.cursor
          cursorTmp := d.cursorTmp
          commits := s.commits ++ [(upTo, faults)] }
    else none

/-- Commits are made between calls of `next`, name offsets it has returned, and succeed. -/
def Commits (s : Session) : SessionLabel → Prop
  | .commit upTo faults =>
    (s.subscription.pc = .ready ∨ s.subscription.pc = .ended) ∧
    (∃ e ∈ s.yielded, e.offsetAfter = upTo) ∧
    (commit s.dir s.subscription.lastGcSegmentId upTo faults).1 = .ok ()
  | _ => True

/-- A rotation of the writer goes up. -/
def Ascends (s : Session) : SessionLabel → Prop
  | .writer l => s.writer.Ascends l
  | _ => True

/-- One of the commits `cs` has reclaimed the segment `id`: it names a later segment than those
before it, so that it looks for segments to remove, and a later one than `id`, whose removal does
not fail. -/
def Reclaimed (cs : List (WalOffset × CommitFaults)) (id : ℕ) : Prop :=
  ∃ before upTo faults after, cs = before ++ (upTo, faults) :: after ∧
    (∀ c ∈ before, c.1.segmentId < upTo.segmentId) ∧ id < upTo.segmentId ∧ id ∉ faults.remove

/-- A commit does not name a segment that an earlier one has reclaimed. -/
def NamesNoReclaimed (s : Session) (l : SessionLabel) : Prop :=
  ∀ upTo faults, l = .commit upTo faults → ¬ Reclaimed s.commits upTo.segmentId

/-- The cursor names a segment that exists, and the log can be opened again. -/
def Safe (s : Session) : Prop :=
  ∃ off w, readCursor s.dir = .ok (some off) ∧ off.segmentId ∈ s.writer.segments ∧
    Wal.open bc s.dir = .ok w

/-- Every state from the first commit on is safe. -/
def StaysSafe (s : Session) (l : SessionLabel) : Prop :=
  ∀ s', s.step bc segmentBytes l = some s' → s'.commits ≠ [] → s'.Safe bc

end Session

/-! ### The segment of a returned entry -/

variable {bc : Bincode} {segmentBytes : ℕ}

/-- A record is read from a file that exists. -/
lemma mem_of_readOne {segs : Segments} {id off : ℕ} {reader reader' : Option ℕ} {p p' : Bytes}
    {faults : ReadFaults} {event : WalEvent} {n : ℕ}
    (h : readOne bc segs id off reader p faults = (.record event n, reader', p')) : id ∈ segs := by
  obtain ⟨body, hcut⟩ := complete_of_readOne h
  by_contra hmem
  rw [Segments.content_of_notMem hmem, List.drop_nil] at hcut
  cases hcut

/-- An entry is returned from a segment that exists. -/
lemma Subscription.mem_of_step {s s' : Subscription} {v : WalView} {l : NextLabel} {e : WalEntry}
    (h : s.step bc v l = some (s', some e)) : e.offsetAfter.segmentId ∈ v.segments := by
  cases NextRule.of_step h with
  | record hpc hread => exact mem_of_readOne hread

/-! ### The invariant -/

namespace Session

variable {start : WalOffset} {s s' : Session} {upTo : WalOffset} {faults : CommitFaults}

lemma not_reclaimed_nil (id : ℕ) : ¬ Reclaimed [] id := by
  rintro ⟨before, upTo, faults, after, h, -⟩
  simp at h

/-- One more commit reclaims what it removes, if it looks. -/
lemma reclaimed_append {cs : List (WalOffset × CommitFaults)} {id : ℕ} :
    Reclaimed (cs ++ [(upTo, faults)]) id ↔ Reclaimed cs id ∨
      (∀ c ∈ cs, c.1.segmentId < upTo.segmentId) ∧ id < upTo.segmentId ∧ id ∉ faults.remove := by
  constructor
  · rintro ⟨before, upTo', faults', after, h, hlast, hlt, hremove⟩
    rcases List.eq_nil_or_concat after with rfl | ⟨after, last, rfl⟩
    · obtain ⟨rfl, hc⟩ := List.append_inj' h rfl
      cases hc
      exact .inr ⟨hlast, hlt, hremove⟩
    · rw [List.concat_eq_append, ← List.cons_append, ← List.append_assoc] at h
      obtain ⟨rfl, -⟩ := List.append_inj' h rfl
      exact .inl ⟨before, upTo', faults', after, rfl, hlast, hlt, hremove⟩
  · rintro (⟨before, upTo', faults', after, rfl, hrest⟩ | hnew)
    · exact ⟨before, upTo', faults', after ++ [(upTo, faults)], by simp, hrest⟩
    · exact ⟨cs, upTo, faults, [], rfl, hnew⟩

/-- What holds in every state of a log whose subscription started at `start`. -/
structure Inv (start : WalOffset) (s : Session) : Prop where
  fits : ∀ id ∈ s.writer.segments, id < 2 ^ 64
  current_fits : s.writer.currentSegmentId < 2 ^ 64
  start_le : start.segmentId ≤ s.subscription.curSegmentId
  start_le_yielded : ∀ e ∈ s.yielded, start.segmentId ≤ e.offsetAfter.segmentId
  lastGc : ∀ n, s.subscription.lastGcSegmentId < n ↔
    start.segmentId - 1 < n ∧ ∀ c ∈ s.commits, c.1.segmentId < n
  yielded : ∀ e ∈ s.yielded, e.offsetAfter.segmentId ∈ s.writer.segments ∨
    Reclaimed s.commits e.offsetAfter.segmentId

/-- While the rotations go up, a segment that is reclaimed is gone for good. -/
structure Gone (s : Session) : Prop where
  le_current : ∀ id ∈ s.writer.segments, id ≤ s.writer.currentSegmentId
  yielded_le : ∀ e ∈ s.yielded, e.offsetAfter.segmentId ≤ s.writer.currentSegmentId
  reclaimed : ∀ id, Reclaimed s.commits id →
    id ∉ s.writer.segments ∧ id < s.writer.currentSegmentId

/-- The cursor has been written, and names a segment that exists. -/
def CursorSafe (s : Session) : Prop :=
  s.commits ≠ [] → ∃ upTo : WalOffset,
    s.cursor = some upTo.toBytes ∧ upTo.segmentId ∈ s.writer.segments

lemma Inv.writer (hi : Inv start s) {l : WriterLabel} {w : Writer}
    (h : s.writer.step bc segmentBytes l = some w) : Inv start { s with writer := w } := by
  have hk := Writer.keepsFiles_of_step h
  refine { hi with
    fits := fun id hid => ?_
    current_fits := hk.fits hi.current_fits
    yielded := fun e he => (hi.yielded e he).imp_left (hk.mem _) }
  rcases hk.new id hid with hid | rfl
  · exact hi.fits id hid
  · exact hk.fits hi.current_fits

lemma Gone.writer (hg : Gone s) {l : WriterLabel} {w : Writer} (hl : s.writer.Ascends l)
    (h : s.writer.step bc segmentBytes l = some w) : Gone { s with writer := w } := by
  have hk := Writer.keepsFiles_of_step h
  have hup := Writer.currentSegmentId_of_step hl h
  refine ⟨fun id hid => ?_, fun e he => (hg.yielded_le e he).trans hup, fun id hid => ?_⟩
  · rcases hk.new id hid with hid | rfl
    · exact (hg.le_current id hid).trans hup
    · exact le_rfl
  · obtain ⟨hnot, hlt⟩ := hg.reclaimed id hid
    refine ⟨fun hmem => ?_, hlt.trans_le hup⟩
    rcases hk.new id hmem with hmem | rfl
    · exact hnot hmem
    · exact absurd hup (not_le.mpr hlt)

lemma mem_yielded_append {entry : Option WalEntry} {e : WalEntry}
    (h : e ∈ s.yielded ++ entry.toList) : e ∈ s.yielded ∨ entry = some e := by
  simpa using h

lemma Inv.next (hi : Inv start s) {l : NextLabel} {sub : Subscription} {entry : Option WalEntry}
    (h : s.subscription.step bc s.writer.view l = some (sub, entry)) :
    Inv start { s with subscription := sub, yielded := s.yielded ++ entry.toList } where
  fits := hi.fits
  current_fits := hi.current_fits
  start_le := by
    rcases Subscription.curSegmentId_of_step h with hsame | ⟨hnext, -⟩
    · exact hi.start_le.trans hsame.ge
    · exact hi.start_le.trans ((Nat.le_succ _).trans hnext.ge)
  start_le_yielded e he := by
    rcases mem_yielded_append he with he | rfl
    · exact hi.start_le_yielded e he
    · cases Subscription.NextRule.of_step h with
      | record => exact hi.start_le
  lastGc := by
    have hgc : sub.lastGcSegmentId = s.subscription.lastGcSegmentId := by
      cases Subscription.NextRule.of_step h <;> rfl
    exact hgc ▸ hi.lastGc
  yielded e he := by
    rcases mem_yielded_append he with he | rfl
    · exact hi.yielded e he
    · exact .inl (Subscription.mem_of_step h)

lemma Gone.next (hg : Gone s) {l : NextLabel} {sub : Subscription} {entry : Option WalEntry}
    (h : s.subscription.step bc s.writer.view l = some (sub, entry)) :
    Gone { s with subscription := sub, yielded := s.yielded ++ entry.toList } where
  le_current := hg.le_current
  yielded_le e he := by
    rcases mem_yielded_append he with he | rfl
    · exact hg.yielded_le e he
    · exact hg.le_current _ (Subscription.mem_of_step h)
  reclaimed := hg.reclaimed

/-- What a commit that succeeds does. -/
structure AfterCommit (s : Session) (upTo : WalOffset) (faults : CommitFaults) (s' : Session) :
    Prop where
  commits : s'.commits = s.commits ++ [(upTo, faults)]
  cursor : s'.cursor = some upTo.toBytes
  yielded : s'.yielded = s.yielded
  current : s'.writer.currentSegmentId = s.writer.currentSegmentId
  curSegmentId : s'.subscription.curSegmentId = s.subscription.curSegmentId
  lastGc : s'.subscription.lastGcSegmentId = max s.subscription.lastGcSegmentId upTo.segmentId
  mem_segments : ∀ id, id ∈ s'.writer.segments ↔ id ∈ s.writer.segments ∧
    ¬ (s.subscription.lastGcSegmentId < upTo.segmentId ∧ id < upTo.segmentId ∧
      id ∉ faults.remove)

lemma AfterCommit.of_step (h : s.step bc segmentBytes (.commit upTo faults) = some s')
    (hok : (commit s.dir s.subscription.lastGcSegmentId upTo faults).1 = .ok ()) :
    AfterCommit s upTo faults s' := by
  simp only [step] at h
  split_ifs at h
  generalize hcommit : commit s.dir s.subscription.lastGcSegmentId upTo faults = r at h hok
  obtain ⟨result, d, gc⟩ := r
  obtain rfl : result = .ok () := hok
  have hc := committed_of_ok hcommit
  cases h
  exact ⟨rfl, hc.cursor, rfl, rfl, rfl, hc.lastGc, hc.mem_segments⟩

/-- What a commit removes it reclaims: it looks for segments if it names a later one than all before
it. -/
lemma Inv.mem_segments_iff (hi : Inv start s) (hle : start.segmentId ≤ upTo.segmentId)
    (hc : AfterCommit s upTo faults s') (id : ℕ) :
    id ∈ s'.writer.segments ↔ id ∈ s.writer.segments ∧
      ¬ ((∀ c ∈ s.commits, c.1.segmentId < upTo.segmentId) ∧ id < upTo.segmentId ∧
        id ∉ faults.remove) := by
  rw [hc.mem_segments, hi.lastGc]
  refine and_congr_right fun _ => not_congr ?_
  constructor
  · exact fun h => ⟨h.1.2, h.2⟩
  · exact fun h => ⟨⟨by omega, h.1⟩, h.2⟩

lemma Inv.commit (hi : Inv start s) (hle : start.segmentId ≤ upTo.segmentId)
    (hc : AfterCommit s upTo faults s') : Inv start s' where
  fits id hid := hi.fits id ((hc.mem_segments id).mp hid).1
  current_fits := hc.current ▸ hi.current_fits
  start_le := hc.curSegmentId ▸ hi.start_le
  start_le_yielded := hc.yielded ▸ hi.start_le_yielded
  lastGc n := by
    rw [hc.lastGc, hc.commits, max_lt_iff, hi.lastGc]
    simp only [List.mem_append, List.mem_singleton, or_imp, forall_and, forall_eq, and_assoc]
  yielded e he := by
    rw [hc.yielded] at he
    rw [hc.commits, reclaimed_append, hi.mem_segments_iff hle hc]
    have hmem := hi.yielded e he
    tauto

lemma Gone.commit (hg : Gone s) (hi : Inv start s) (hle : start.segmentId ≤ upTo.segmentId)
    (hup : upTo.segmentId ≤ s.writer.currentSegmentId) (hc : AfterCommit s upTo faults s') :
    Gone s' where
  le_current id hid := hc.current ▸ hg.le_current id ((hc.mem_segments id).mp hid).1
  yielded_le e he := by
    rw [hc.yielded] at he
    exact hc.current ▸ hg.yielded_le e he
  reclaimed id hid := by
    rw [hc.commits, reclaimed_append] at hid
    rw [hi.mem_segments_iff hle hc, hc.current]
    rcases hid with hid | hnew
    · obtain ⟨hnot, hlt⟩ := hg.reclaimed id hid
      exact ⟨fun h => hnot h.1, hlt⟩
    · exact ⟨fun h => h.2 hnew, hnew.2.1.trans_le hup⟩

/-! ### The cursor -/

/-- A directory whose cursor names one of its segments can be opened. -/
lemma safe_iff_mem (hcursor : s.cursor = some upTo.toBytes)
    (hfits : upTo.segmentId < 2 ^ 64) : s.Safe bc ↔ upTo.segmentId ∈ s.writer.segments := by
  have hread : readCursor s.dir = .ok (some (WalOffset.fromBytes upTo.toBytes)) := by
    simp [readCursor, dir, hcursor]
  have hseg : (WalOffset.fromBytes upTo.toBytes).segmentId = upTo.segmentId := by
    have hlt : upTo.segmentId < 256 ^ 8 := hfits.trans_eq (by norm_num)
    simp [WalOffset.fromBytes, WalOffset.toBytes, Bytes.toNatBe_ofNatBe hlt]
  constructor
  · rintro ⟨off, w, hoff, hmem, -⟩
    rw [hread] at hoff
    cases hoff
    rwa [hseg] at hmem
  · intro hmem
    obtain ⟨segs, active, hrec, hr⟩ := recoverActive_eq bc s.dir.segments
    have hfirst : ¬ (upTo.segmentId < s.dir.segments.listSegments.head?.getD active.segmentId ∨
        active.segmentId < upTo.segmentId) :=
      not_or.mpr ⟨not_lt.mpr (head?_listSegments_le hmem _), not_lt.mpr (hr.le_active _ hmem)⟩
    have hstart : readStart s.dir active.segmentId =
        .ok (WalOffset.fromBytes upTo.toBytes) := by
      simp only [readStart, hread, hseg, if_neg hfirst]
    have hopen : Wal.open bc s.dir = .ok ⟨.spawn segs active,
        .new (WalOffset.fromBytes upTo.toBytes), s.dir.cursor, s.dir.cursorTmp⟩ := by
      simp only [Wal.open, hrec, hstart]
    exact ⟨_, _, hread, hseg ▸ hmem, hopen⟩

/-- A step that is no commit keeps the cursor safe. -/
lemma CursorSafe.keep (h : s.CursorSafe) (hcommits : s'.commits = s.commits)
    (hcursor : s'.cursor = s.cursor) (hmem : ∀ id ∈ s.writer.segments, id ∈ s'.writer.segments) :
    s'.CursorSafe := by
  intro hc
  obtain ⟨upTo, hup, hin⟩ := h (hcommits ▸ hc)
  exact ⟨upTo, hcursor.trans hup, hmem _ hin⟩

lemma Inv.safe (hi : Inv start s) (h : s.CursorSafe) (hc : s.commits ≠ []) : s.Safe bc := by
  obtain ⟨upTo, hup, hin⟩ := h hc
  exact (safe_iff_mem hup (hi.fits _ hin)).mpr hin

/-- One step: the invariant is kept, and so is the safety of the cursor unless a commit names a
segment that is reclaimed. -/
lemma Inv.step {l : SessionLabel} (hi : Inv start s) (hl : s.Commits l)
    (h : s.step bc segmentBytes l = some s') :
    Inv start s' ∧ (s.NamesNoReclaimed l → s.CursorSafe → s'.CursorSafe) := by
  cases l with
  | writer l =>
    obtain ⟨w, hw, rfl⟩ := Option.map_eq_some_iff.mp h
    exact ⟨hi.writer hw, fun _ hsafe => hsafe.keep rfl rfl (Writer.keepsFiles_of_step hw).mem⟩
  | next l =>
    obtain ⟨⟨sub, entry⟩, hsub, rfl⟩ := Option.map_eq_some_iff.mp h
    exact ⟨hi.next hsub, fun _ hsafe => hsafe.keep rfl rfl fun _ h => h⟩
  | commit upTo faults =>
    obtain ⟨-, ⟨e, he, rfl⟩, hok⟩ := hl
    have hc := AfterCommit.of_step h hok
    have hle := hi.start_le_yielded e he
    refine ⟨hi.commit hle hc, fun hnames _ _ => ⟨_, hc.cursor, ?_⟩⟩
    rw [hc.mem_segments]
    exact ⟨(hi.yielded e he).resolve_right (hnames _ _ rfl), fun h => lt_irrefl _ h.2.1⟩

lemma Gone.step {l : SessionLabel} (hg : Gone s) (hi : Inv start s) (hl : s.Commits l)
    (hup : s.Ascends l) (h : s.step bc segmentBytes l = some s') : Gone s' := by
  cases l with
  | writer l =>
    obtain ⟨w, hw, rfl⟩ := Option.map_eq_some_iff.mp h
    exact hg.writer hup hw
  | next l =>
    obtain ⟨⟨sub, entry⟩, hsub, rfl⟩ := Option.map_eq_some_iff.mp h
    exact hg.next hsub
  | commit upTo faults =>
    obtain ⟨-, ⟨e, he, rfl⟩, hok⟩ := hl
    exact hg.commit hi (hi.start_le_yielded e he) (hg.yielded_le e he) (.of_step h hok)

/-- Where no commit names a reclaimed segment, what follows a commit is safe. -/
lemma Inv.staysSafe {l : SessionLabel} (hi : Inv start s) (hsafe : s.CursorSafe) (hl : s.Commits l)
    (hnames : s.NamesNoReclaimed l) : s.StaysSafe bc segmentBytes l := by
  intro s' hs' hc
  obtain ⟨hi', hsafe'⟩ := hi.step hl hs'
  exact hi'.safe (hsafe' hnames hsafe) hc

/-- A commit that names a segment that is gone does not lead to a safe state. -/
lemma Gone.namesNoReclaimed {l : SessionLabel} (hg : Gone s) (hi : Inv start s) (hl : s.Commits l)
    (hstays : s.StaysSafe bc segmentBytes l) : s.NamesNoReclaimed l := by
  rintro upTo faults rfl hgone
  obtain ⟨hpc, ⟨e, he, rfl⟩, hok⟩ := hl
  obtain ⟨s', hs'⟩ : ∃ s', s.step bc segmentBytes (.commit e.offsetAfter faults) = some s' :=
    ⟨_, if_pos hpc⟩
  have hc := AfterCommit.of_step hs' hok
  have hsafe := hstays s' hs' (by simp [hc.commits])
  have hfits := (hg.yielded_le e he).trans_lt hi.current_fits
  rw [safe_iff_mem hc.cursor hfits, hc.mem_segments] at hsafe
  exact (hg.reclaimed _ hgone).1 hsafe.1

/-- The state after `Wal::open`, on segments with `u64` ids. -/
lemma Inv.init {d : WalDir} {w : Wal} (hopen : Wal.open bc d = .ok w)
    (hfits : ∀ id ∈ d.segments, id < 2 ^ 64) :
    Inv w.subscription.position (init w) ∧ Gone (init w) := by
  obtain ⟨segs, active, start, hr, -, rfl⟩ := open_eq_ok hopen
  have hactive : active.segmentId < 2 ^ 64 := by
    rcases hr.active_mem with ⟨-, rfl⟩ | hmem
    · norm_num
    · exact hfits _ hmem
  have hends := hr.endsWith_create
  refine ⟨⟨fun id hid => (hends.2 id hid).trans_lt hactive, hactive, le_rfl, nofun, fun n => ?_,
    nofun⟩, hends.2, nofun, fun id hid => absurd hid (not_reclaimed_nil id)⟩
  simp [Session.init, Subscription.new, Subscription.position]

/-- Commits of offsets that `next` has returned, in any order and with repeats, with steps of the
writer and of `next` between them: if no commit names a segment that an earlier one has reclaimed,
then in every state from the first commit on the cursor names a segment that exists, and the log can
be opened again; and only then, as long as the rotations go up. -/
theorem staysSafe_iff {d : WalDir} {w : Wal} (hopen : Wal.open bc d = .ok w)
    (hfits : ∀ id ∈ d.segments, id < 2 ^ 64) {ls : List SessionLabel}
    (hls : Always (step bc segmentBytes) Commits (init w) ls) :
    (Always (step bc segmentBytes) NamesNoReclaimed (init w) ls →
      Always (step bc segmentBytes) (StaysSafe bc segmentBytes) (init w) ls) ∧
    (Always (step bc segmentBytes) Ascends (init w) ls →
      Always (step bc segmentBytes) (StaysSafe bc segmentBytes) (init w) ls →
      Always (step bc segmentBytes) NamesNoReclaimed (init w) ls) := by
  obtain ⟨hi, hg⟩ := Inv.init hopen hfits
  constructor
  · intro hnames
    refine (hls.and hnames).imp
      (I := fun s => Inv w.subscription.position s ∧ s.CursorSafe) ⟨hi, fun h => (h rfl).elim⟩ ?_ ?_
    · rintro s l s' ⟨hi, hsafe⟩ ⟨hl, hnames⟩ hs
      obtain ⟨hi', hsafe'⟩ := hi.step hl hs
      exact ⟨hi', hsafe' hnames hsafe⟩
    · exact fun s l ⟨hi, hsafe⟩ ⟨hl, hnames⟩ => hi.staysSafe hsafe hl hnames
  · intro hup hstays
    refine ((hls.and hup).and hstays).imp
      (I := fun s => Inv w.subscription.position s ∧ Gone s) ⟨hi, hg⟩ ?_ ?_
    · exact fun s l s' ⟨hi, hg⟩ ⟨⟨hl, hup⟩, _⟩ hs => ⟨(hi.step hl hs).1, hg.step hi hl hup hs⟩
    · exact fun s l ⟨hi, hg⟩ ⟨⟨hl, _⟩, hstays⟩ => hg.namesNoReclaimed hi hl hstays

/-- Two segments with a record each. -/
def twoFramesDir : WalDir :=
  ⟨((∅ : Segments).write 1 Live.oneFrame).write 2 Live.oneFrame, none, none⟩

/-- The first record is returned and committed. -/
def commitFirst : List SessionLabel :=
  [.next (.run {}), .next (.run {}), .commit ⟨1, 29⟩ {}]

/-- Both records are returned. The offset behind the second is committed, then that behind the
first. -/
def commitBack : List SessionLabel :=
  [.next (.run {}), .next (.run {}), .next (.run {}), .next (.run {}), .next (.run {}),
    .next (.run {}), .next (.run {}), .commit ⟨2, 29⟩ {}, .commit ⟨1, 29⟩ {}]

/-- Steps of `next` in front of a run, where they meet the condition anyway. -/
lemma always_of_next {P : Session → SessionLabel → Prop} (hP : ∀ s l, P s (.next l)) (s : Session)
    (n : ℕ) {ls : List SessionLabel}
    (h : ∀ t, exec (step bc segmentBytes) s (List.replicate n (.next (.run {}))) = some t →
      Always (step bc segmentBytes) P t ls) :
    Always (step bc segmentBytes) P s (List.replicate n (.next (.run {})) ++ ls) := by
  induction n generalizing s with
  | zero => exact h s rfl
  | succ n ih =>
    refine ⟨hP _ _, fun t ht => ih t fun u hu => h u ?_⟩
    rw [List.replicate_succ, exec, ht]
    exact hu

theorem staysSafe_of_commitFirst :
    ∃ w s, Wal.open Bincode.fixint twoFramesDir = .ok w ∧
      exec (step Bincode.fixint 1024) (init w) commitFirst = some s ∧ s.Safe Bincode.fixint := by
  obtain ⟨w, hopen⟩ : ∃ w, Wal.open Bincode.fixint twoFramesDir = .ok w := ⟨_, rfl⟩
  have hfits : ∀ id ∈ twoFramesDir.segments, id < 2 ^ 64 := by decide
  have hls : Always (step Bincode.fixint 1024) Commits (init w) commitFirst := by
    cases hopen
    refine always_of_next (fun _ _ => trivial) _ 2 fun t ht => ⟨?_, fun _ _ => trivial⟩
    cases ht
    exact ⟨.inl rfl, ⟨_, List.mem_singleton.mpr rfl, rfl⟩, rfl⟩
  have hnames : Always (step Bincode.fixint 1024) NamesNoReclaimed (init w) commitFirst := by
    cases hopen
    refine always_of_next (fun _ _ _ _ h => by cases h) _ 2 fun t ht => ⟨?_, fun _ _ => trivial⟩
    cases ht
    exact fun _ _ _ => not_reclaimed_nil _
  have hall := (staysSafe_iff hopen hfits hls).1 hnames
  cases hopen
  exact ⟨_, _, rfl, rfl, ((hall.2 _ rfl).2 _ rfl).1 _ rfl (List.cons_ne_nil _ _)⟩

theorem not_staysSafe_of_commitBack :
    ∃ w s, Wal.open Bincode.fixint twoFramesDir = .ok w ∧
      exec (step Bincode.fixint 1024) (init w) commitBack = some s ∧
      Always (step Bincode.fixint 1024) Commits (init w) commitBack ∧
      s.yielded.map WalEntry.offsetAfter = [⟨1, 29⟩, ⟨2, 29⟩] ∧
      s.cursor = some (WalOffset.toBytes ⟨1, 29⟩) ∧ 1 ∉ s.writer.segments ∧
      (∀ w', Wal.open Bincode.fixint s.dir ≠ .ok w') := by
  refine ⟨_, _, rfl, rfl, ?_, rfl, rfl, by decide, ?_⟩
  · refine always_of_next (fun _ _ => trivial) _ 7 fun t ht => ?_
    cases ht
    refine ⟨⟨.inl rfl, ⟨_, List.mem_cons_of_mem _ List.mem_cons_self, rfl⟩, rfl⟩, fun t ht => ?_⟩
    cases ht
    exact ⟨⟨.inl rfl, ⟨_, List.mem_cons_self, rfl⟩, rfl⟩, fun _ _ => trivial⟩
  · intro w' h
    cases h

end Session

end SmarthomeIngest
