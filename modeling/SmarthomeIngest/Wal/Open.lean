import SmarthomeIngest.Wal.Cursor
import SmarthomeIngest.Wal.Log
import SmarthomeIngest.Wal.Subscription
import SmarthomeIngest.Wal.Writer

/-!
# Opening the log

`Wal::open` recovers the active segment, reads the cursor, spawns the writer behind the recovered
bytes and starts the subscription at the cursor. The lemmas state what recovery changes: the torn
tail of the last segment, and nothing that a reader of the log would have returned.
-/

namespace SmarthomeIngest

/-- An open log: its writer thread, its subscription, and the cursor files beside the segments. -/
structure Wal where
  writer : Writer
  subscription : Subscription
  cursor : Option Bytes
  cursorTmp : Option Bytes

/-- What the subscription sees of the writer. -/
def Writer.view (s : Writer) : WalView := ⟨s.segments, s.head, s.notifications, !s.notifyAlive⟩

variable (bc : Bincode)

/-- The active segment of `Wal::open` and its valid length, with the torn tail cut off. -/
def recoverActive (segs : Segments) : Except String (Segments × WalOffset) :=
  match segs.listSegments.getLast? with
  | none => .ok (segs, ⟨1, 0⟩)
  | some id =>
    let fileLen := (segs.content id).length
    match lastValidOffset bc ((segs.lookup id).map fun b => ⟨b, none⟩) with
    | .error e => .error e
    | .ok valid =>
      if valid < fileLen then
        .ok (segs.write id (truncateTo (segs.content id) valid), ⟨id, valid⟩)
      else .ok (segs, ⟨id, valid⟩)

/-- Where `Wal::open` lets the subscription start. -/
def readStart (d : WalDir) (activeId : ℕ) : Except String WalOffset :=
  let segments := d.segments.listSegments
  let firstId := segments.head?.getD activeId
  match readCursor d with
  | .error e => .error e
  | .ok none => .ok ⟨firstId, 0⟩
  | .ok (some off) =>
    if off.segmentId < firstId ∨ activeId < off.segmentId then
      .error ("WAL cursor points outside available segments: cursor=" ++ off.debug ++
        ", segments=" ++ toString segments)
    else .ok off

/-- `Wal::open`, on a directory without I/O errors. -/
def Wal.open (d : WalDir) : Except String Wal :=
  match recoverActive bc d.segments with
  | .error e => .error e
  | .ok (segs, active) =>
    match readStart d active.segmentId with
    | .error e => .error e
    | .ok start => .ok ⟨.spawn segs active, .new start, d.cursor, d.cursorTmp⟩

/-! ### Recovery -/

/-- The segments after recovery, and the position behind the valid bytes of the active one. -/
structure Recovered (segs segs' : Segments) (active : WalOffset) : Prop where
  mem_iff : ∀ id, id ∈ segs' ↔ id ∈ segs
  le_active : ∀ id ∈ segs, id ≤ active.segmentId
  content_ne : ∀ id, id ≠ active.segmentId → segs'.content id = segs.content id
  content_active : segs'.content active.segmentId =
    (segs.content active.segmentId).take ((frames bc).stop (segs.content active.segmentId))
  byteOffset_eq : active.byteOffset = (frames bc).stop (segs.content active.segmentId)
  active_mem : (∀ id, id ∉ segs) ∧ active = ⟨1, 0⟩ ∨ active.segmentId ∈ segs

variable {bc} {segs segs' : Segments} {active : WalOffset}

lemma getLast?_listSegments {id : ℕ} (h : segs.listSegments.getLast? = some id) :
    id ∈ segs ∧ ∀ id' ∈ segs, id' ≤ id := by
  obtain ⟨init, hinit⟩ := List.getLast?_eq_some_iff.mp h
  have hsorted := segs.pairwise_listSegments
  rw [hinit, List.pairwise_append] at hsorted
  refine ⟨Segments.mem_listSegments.mp (hinit ▸ by simp), fun id' hid' => ?_⟩
  have hmem := Segments.mem_listSegments.mpr hid'
  rw [hinit, List.mem_append, List.mem_singleton] at hmem
  rcases hmem with hmem | rfl
  · exact (hsorted.2.2 id' hmem id (List.mem_singleton.mpr rfl)).le
  · exact le_rfl

lemma getLast?_listSegments_eq_none (h : segs.listSegments.getLast? = none) (id : ℕ) :
    id ∉ segs := by
  rw [List.getLast?_eq_none_iff] at h
  intro hid
  rw [← Segments.mem_listSegments, h] at hid
  exact absurd hid List.not_mem_nil

/-- Recovery never fails, and cuts the last segment where its scan stops. -/
lemma recoverActive_eq (bc : Bincode) (segs : Segments) :
    ∃ segs' active, recoverActive bc segs = .ok (segs', active) ∧
      Recovered bc segs segs' active := by
  unfold recoverActive
  cases hlast : segs.listSegments.getLast? with
  | none =>
    have hempty := getLast?_listSegments_eq_none hlast
    refine ⟨segs, ⟨1, 0⟩, rfl, fun _ => Iff.rfl, fun id hid => absurd hid (hempty id),
      fun _ _ => rfl, ?_, ?_, .inl ⟨hempty, rfl⟩⟩ <;>
    simp [Segments.content_of_notMem (hempty 1)]
  | some id =>
    obtain ⟨hmem, hle⟩ := getLast?_listSegments hlast
    have hstop := (frames bc).stop_le (segs.content id)
    simp only [Segments.lookup_of_mem hmem, Option.map_some, lastValidOffset_eq, truncateTo]
    split_ifs with htorn
    · refine ⟨_, _, rfl, fun id' => ?_, hle, fun id' hid' => Segments.content_write_ne hid' _,
        Segments.content_write_self _ _, rfl, .inr hmem⟩
      rw [Segments.mem_write]
      exact ⟨fun h => h.elim (fun h => h ▸ hmem) fun h => h, .inr⟩
    · refine ⟨_, _, rfl, fun _ => Iff.rfl, hle, fun _ _ => rfl, ?_, rfl, .inr hmem⟩
      rw [List.take_of_length_le (not_lt.mp htorn)]

namespace Recovered

variable (h : Recovered bc segs segs' active)
include h

lemma length_content : (segs'.content active.segmentId).length = active.byteOffset := by
  rw [h.content_active, h.byteOffset_eq, List.length_take,
    Nat.min_eq_left ((frames bc).stop_le _)]

lemma whole_active : (frames bc).Whole (segs'.content active.segmentId) := by
  rw [h.content_active]
  exact (frames bc).whole_take_stop _

/-- Recovery takes no entry from the log, seen from a frame boundary. -/
lemma entriesFrom_eq {start : WalOffset} (hstart : OnBoundary bc segs start) :
    entriesFrom bc segs' start = entriesFrom bc segs start := by
  have hids : segs'.idsFrom start.segmentId = segs.idsFrom start.segmentId :=
    Segments.idsFrom_congr fun id _ => h.mem_iff id
  rw [entriesFrom, hids, entriesFrom]
  refine List.flatMap_congr fun id _ => ?_
  by_cases hid : id = active.segmentId
  · subst hid
    rw [h.content_active, segmentEntries, segmentEntries,
      (frames bc).drop_take_stop (hstart.startIn _), (frames bc).scan_take_stop]
  · rw [h.content_ne id hid]

/-- The active segment is the last one listed, or the first one there will be. -/
lemma getLast?_eq : segs.listSegments.getLast?.getD 1 = active.segmentId := by
  cases hlast : segs.listSegments.getLast? with
  | none =>
    rcases h.active_mem with ⟨-, rfl⟩ | hmem
    · rfl
    · exact absurd hmem (getLast?_listSegments_eq_none hlast _)
  | some id =>
    obtain ⟨hmem, hmax⟩ := getLast?_listSegments hlast
    rcases h.active_mem with ⟨hempty, -⟩ | hactive
    · exact absurd hmem (hempty id)
    · exact (h.le_active id hmem).antisymm (hmax _ hactive)

lemma le_of_mem {id : ℕ} (hid : id ∈ segs') : id ≤ active.segmentId :=
  h.le_active id ((h.mem_iff id).mp hid)

/-- The segments the writer works on are those of the directory, and the one it starts in. -/
lemma endsWith_create : EndsWith (segs'.create active.segmentId) active.segmentId := by
  constructor
  · exact Segments.mem_create.mpr (.inl rfl)
  · intro id hid
    rcases Segments.mem_create.mp hid with rfl | hid
    · exact le_rfl
    · exact h.le_of_mem hid

/-- The file of the active segment, created if there was none, holds nothing new. -/
lemma entriesFrom_of_create {segs'' : Segments} {pos : WalOffset}
    (hmem : ∀ id, id ∈ segs'' ↔ id = active.segmentId ∨ id ∈ segs')
    (hcontent : ∀ id, segs''.content id = segs'.content id) :
    entriesFrom bc segs'' pos = entriesFrom bc segs' pos := by
  rcases h.active_mem with ⟨hempty, -⟩ | hactive
  · have hnil : ∀ id, segs'.content id = [] := fun id =>
      Segments.content_of_notMem fun hid => hempty id ((h.mem_iff id).mp hid)
    simp [entriesFrom, hcontent, hnil, List.flatMap_eq_nil_iff.mpr]
  · apply entriesFrom_congr
    · apply Segments.idsFrom_congr
      intro id _
      rw [hmem]
      exact ⟨fun hid => hid.elim (fun heq => heq ▸ (h.mem_iff _).mpr hactive) fun hid => hid, .inr⟩
    · intro id _
      exact hcontent id

/-- A frame boundary stays one. -/
lemma onBoundary {pos : WalOffset} (hpos : OnBoundary bc segs pos) : OnBoundary bc segs' pos := by
  unfold OnBoundary at hpos ⊢
  by_cases hactive : pos.segmentId = active.segmentId
  · rwa [hactive, h.content_active, Scanner.boundaries_take_stop, ← hactive]
  · rwa [h.content_ne _ hactive]

end Recovered

/-- The subscription starts at the cursor, inside the segments, or in front of the first one. -/
lemma readStart_eq_ok {d : WalDir} {activeId : ℕ} {start : WalOffset}
    (h : readStart d activeId = .ok start) :
    readCursor d = .ok none ∧ start = ⟨d.segments.listSegments.head?.getD activeId, 0⟩ ∨
    readCursor d = .ok (some start) ∧
      d.segments.listSegments.head?.getD activeId ≤ start.segmentId ∧
      start.segmentId ≤ activeId := by
  unfold readStart at h
  cases hcursor : readCursor d with
  | error e => simp [hcursor] at h
  | ok cursor =>
    cases cursor with
    | none =>
      simp only [hcursor, Except.ok.injEq] at h
      exact .inl ⟨rfl, h.symm⟩
    | some off =>
      simp only [hcursor] at h
      split_ifs at h with hout
      cases h
      exact .inr ⟨rfl, by omega, by omega⟩

/-- What a successful `Wal::open` returns. -/
lemma open_eq_ok {d : WalDir} {w : Wal} (h : Wal.open bc d = .ok w) :
    ∃ segs active start, Recovered bc d.segments segs active ∧
      readStart d active.segmentId = .ok start ∧
      w = ⟨.spawn segs active, .new start, d.cursor, d.cursorTmp⟩ := by
  obtain ⟨segs, active, hrec, hr⟩ := recoverActive_eq bc d.segments
  simp only [Wal.open, hrec] at h
  split at h
  · cases h
  · rename_i start hstart
    cases h
    exact ⟨segs, active, start, hr, hstart, rfl⟩

section Start

variable {d : WalDir} {start : WalOffset}

/-- The first segment listed is the least one. -/
lemma head?_listSegments_le {id : ℕ} (hid : id ∈ segs) (default : ℕ) :
    segs.listSegments.head?.getD default ≤ id := by
  have hmem := Segments.mem_listSegments.mpr hid
  have hsorted := segs.pairwise_listSegments
  cases hlist : segs.listSegments with
  | nil =>
    rw [hlist] at hmem
    cases hmem
  | cons first rest =>
    rw [hlist] at hmem hsorted
    rcases List.mem_cons.mp hmem with rfl | hrest
    · exact le_rfl
    · exact ((List.pairwise_cons.mp hsorted).1 id hrest).le

lemma head?_listSegments {id : ℕ} (hid : id ∈ segs) (hle : ∀ id' ∈ segs, id ≤ id') :
    segs.listSegments.head? = some id := by
  cases hhead : segs.listSegments.head? with
  | none =>
    rw [List.head?_eq_none_iff] at hhead
    have hmem := Segments.mem_listSegments.mpr hid
    rw [hhead] at hmem
    cases hmem
  | some first =>
    have hfirst := head?_listSegments_le hid first
    rw [hhead, Option.getD_some] at hfirst
    exact congrArg some (hfirst.antisymm
      (hle first (Segments.mem_listSegments.mp (List.mem_of_mem_head? hhead))))

lemma le_of_readStart (hr : Recovered bc d.segments segs active)
    (h : readStart d active.segmentId = .ok start) : start.segmentId ≤ active.segmentId := by
  rcases readStart_eq_ok h with ⟨-, rfl⟩ | ⟨-, -, hle⟩
  · cases hhead : d.segments.listSegments.head? with
    | none => exact le_rfl
    | some id => exact hr.le_active id (Segments.mem_listSegments.mp (List.mem_of_mem_head? hhead))
  · exact hle

/-- The start is a frame boundary of its segment, if the cursor is one. -/
lemma boundary_of_readStart (h : readStart d active.segmentId = .ok start)
    (hcursor : ∀ off, readCursor d = .ok (some off) → OnBoundary bc d.segments off) :
    OnBoundary bc d.segments start := by
  rcases readStart_eq_ok h with ⟨-, rfl⟩ | ⟨hoff, -, -⟩
  · exact onBoundary_zero _
  · exact hcursor _ hoff

/-- What holds of a cursor in the last segment and the bytes that recovery keeps of it. -/
lemma lastCursor_iff {P : Bytes → ℕ → Prop}
    (hr : Recovered bc d.segments segs active)
    (h : readStart d active.segmentId = .ok start)
    (hzero : ∀ b, (frames bc).Whole b → P b 0) :
    (∀ off, readCursor d = .ok (some off) →
      off.segmentId = d.segments.listSegments.getLast?.getD 1 →
      P ((d.segments.content off.segmentId).take
        ((frames bc).stop (d.segments.content off.segmentId))) off.byteOffset) ↔
    (start.segmentId = active.segmentId → P (segs.content active.segmentId) start.byteOffset) := by
  rw [hr.getLast?_eq]
  rcases readStart_eq_ok h with ⟨hcursor, rfl⟩ | ⟨hcursor, -, -⟩
  · simp only [hcursor, Except.ok.injEq, reduceCtorEq, false_implies, implies_true, true_iff]
    intro _
    exact hzero _ hr.whole_active
  · simp only [hcursor, Except.ok.injEq, Option.some.injEq, forall_eq']
    refine imp_congr_right fun hseg => ?_
    rw [hseg, ← hr.content_active]

end Start

end SmarthomeIngest
