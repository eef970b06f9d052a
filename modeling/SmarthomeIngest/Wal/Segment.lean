import SmarthomeIngest.Lib.Bytes
import Mathlib.Data.List.AList
import Mathlib.Data.List.Sort

/-!
# Segment files

The segment files of a log directory, by id, with the operations the log performs on them. An
association list with distinct keys stands for the directory: the order of its entries, like that
of `read_dir`, means nothing, and `listSegments` sorts the ids.
-/

namespace SmarthomeIngest

/-- The contents of the segment files by segment id. -/
abbrev Segments := AList fun _ : ℕ => Bytes

namespace Segments

variable (segs : Segments)

/-- The bytes of a segment; a missing file has none. -/
def content (id : ℕ) : Bytes := (segs.lookup id).getD []

/-- Opening for append with `create(true)`: a missing file is created empty. -/
def create (id : ℕ) : Segments := if id ∈ segs then segs else segs.insert id []

/-- Replacing the contents of a file: an append or a truncation. -/
def write (id : ℕ) (b : Bytes) : Segments := segs.insert id b

/-- `fs::remove_file`. -/
def remove (id : ℕ) : Segments := segs.erase id

/-- `list_segments`: the ids in ascending order. -/
def listSegments : List ℕ := segs.keys.insertionSort (· ≤ ·)

/-- The ids at or above `n` in ascending order. -/
def idsFrom (n : ℕ) : List ℕ := segs.listSegments.filter (n ≤ ·)

variable {segs}

@[simp] lemma content_write_self (id : ℕ) (b : Bytes) : (segs.write id b).content id = b := by
  simp [content, write]

@[simp] lemma content_write_ne {id id' : ℕ} (h : id' ≠ id) (b : Bytes) :
    (segs.write id b).content id' = segs.content id' := by
  simp [content, write, AList.lookup_insert_ne h]

lemma content_write (id id' : ℕ) (b : Bytes) :
    (segs.write id b).content id' = if id' = id then b else segs.content id' := by
  split_ifs with h
  · rw [h, content_write_self]
  · exact content_write_ne h b

lemma content_of_notMem {id : ℕ} (h : id ∉ segs) : segs.content id = [] := by
  rw [content, AList.lookup_eq_none.mpr h]
  rfl

lemma content_of_lookup {id : ℕ} {b : Bytes} (h : segs.lookup id = some b) :
    segs.content id = b := by
  rw [content, h]
  rfl

lemma lookup_of_mem {id : ℕ} (h : id ∈ segs) : segs.lookup id = some (segs.content id) := by
  obtain ⟨b, hb⟩ := Option.isSome_iff_exists.mp (AList.lookup_isSome.mpr h)
  rw [content_of_lookup hb, hb]

@[simp] lemma content_create (id id' : ℕ) : (segs.create id).content id' = segs.content id' := by
  unfold create
  split_ifs with h
  · rfl
  · by_cases hid : id' = id
    · rw [hid, content_of_notMem h]
      simp [content]
    · simp [content, AList.lookup_insert_ne hid]

@[simp] lemma mem_write {id id' : ℕ} {b : Bytes} :
    id' ∈ segs.write id b ↔ id' = id ∨ id' ∈ segs := by
  simp [write]

@[simp] lemma mem_create {id id' : ℕ} : id' ∈ segs.create id ↔ id' = id ∨ id' ∈ segs := by
  unfold create
  split_ifs with h
  · constructor
    · exact .inr
    · rintro (rfl | h') <;> assumption
  · simp

@[simp] lemma mem_remove {id id' : ℕ} : id' ∈ segs.remove id ↔ id' ≠ id ∧ id' ∈ segs := by
  simp [remove, AList.mem_erase]

lemma content_remove {id id' : ℕ} (h : id' ≠ id) :
    (segs.remove id).content id' = segs.content id' := by
  simp [content, remove, AList.lookup_erase_ne h]

/-! ### Listing -/

@[simp] lemma mem_listSegments {id : ℕ} : id ∈ segs.listSegments ↔ id ∈ segs := by
  rw [listSegments, List.mem_insertionSort, AList.mem_keys]

lemma pairwise_listSegments : segs.listSegments.Pairwise (· < ·) := by
  have hnodup : segs.listSegments.Nodup :=
    (List.perm_insertionSort _ _).nodup_iff.mpr segs.keys_nodup
  have hle : segs.listSegments.Pairwise (· ≤ ·) := List.pairwise_insertionSort _ _
  exact (hle.and hnodup).imp fun h => lt_of_le_of_ne h.1 h.2

@[simp] lemma mem_idsFrom {id n : ℕ} : id ∈ segs.idsFrom n ↔ n ≤ id ∧ id ∈ segs := by
  simp [idsFrom, and_comm]

lemma pairwise_idsFrom (n : ℕ) : (segs.idsFrom n).Pairwise (· < ·) :=
  pairwise_listSegments.filter _

/-- A strictly ascending list of the right ids is the listing. -/
lemma idsFrom_eq {n : ℕ} {l : List ℕ} (hl : l.Pairwise (· < ·))
    (hmem : ∀ id, id ∈ l ↔ n ≤ id ∧ id ∈ segs) : segs.idsFrom n = l :=
  (pairwise_idsFrom n).eq_of_mem_iff hl fun id => by rw [mem_idsFrom, hmem]

/-- The listing sees only which files there are. -/
lemma idsFrom_congr {segs' : Segments} {n : ℕ} (h : ∀ id, n ≤ id → (id ∈ segs' ↔ id ∈ segs)) :
    segs'.idsFrom n = segs.idsFrom n :=
  idsFrom_eq (pairwise_idsFrom n) fun id => by
    rw [mem_idsFrom]
    exact ⟨fun ⟨hn, hid⟩ => ⟨hn, (h id hn).mpr hid⟩, fun ⟨hn, hid⟩ => ⟨hn, (h id hn).mp hid⟩⟩

lemma idsFrom_of_mem {n : ℕ} (h : n ∈ segs) : segs.idsFrom n = n :: segs.idsFrom (n + 1) := by
  refine idsFrom_eq (List.pairwise_cons.mpr ⟨fun id hid => ?_, pairwise_idsFrom _⟩) fun id => ?_
  · exact (mem_idsFrom.mp hid).1
  · rw [List.mem_cons, mem_idsFrom]
    constructor
    · rintro (rfl | ⟨hlt, hid⟩)
      · exact ⟨le_rfl, h⟩
      · exact ⟨by omega, hid⟩
    · rintro ⟨hle, hid⟩
      rcases hle.eq_or_lt with rfl | hlt
      · exact .inl rfl
      · exact .inr ⟨hlt, hid⟩

lemma idsFrom_of_notMem {n : ℕ} (h : n ∉ segs) : segs.idsFrom n = segs.idsFrom (n + 1) := by
  refine idsFrom_eq (pairwise_idsFrom _) fun id => ?_
  rw [mem_idsFrom]
  constructor
  · exact fun ⟨hlt, hid⟩ => ⟨by omega, hid⟩
  · rintro ⟨hle, hid⟩
    rcases hle.eq_or_lt with rfl | hlt
    · exact absurd hid h
    · exact ⟨hlt, hid⟩

/-- A file created above all others is listed last. -/
lemma idsFrom_of_new {segs' : Segments} {n last : ℕ} (hn : n ≤ last)
    (hmem : ∀ id, id ∈ segs' ↔ id = last ∨ id ∈ segs) (hnew : ∀ id ∈ segs, id < last) :
    segs'.idsFrom n = segs.idsFrom n ++ [last] := by
  refine idsFrom_eq ?_ fun id => ?_
  · rw [List.pairwise_append]
    refine ⟨pairwise_idsFrom n, List.pairwise_singleton _ _, fun a ha b hb => ?_⟩
    rw [List.mem_singleton.mp hb]
    exact hnew a (mem_idsFrom.mp ha).2
  · rw [List.mem_append, mem_idsFrom, List.mem_singleton, hmem]
    constructor
    · rintro (⟨hle, hid⟩ | rfl)
      · exact ⟨hle, .inr hid⟩
      · exact ⟨hn, .inl rfl⟩
    · rintro ⟨hle, rfl | hid⟩
      · exact .inr rfl
      · exact .inl ⟨hle, hid⟩

@[simp] lemma idsFrom_zero : segs.idsFrom 0 = segs.listSegments := by simp [idsFrom]

/-- Writing to a file that exists does not change the listing. -/
lemma idsFrom_write {id n : ℕ} (h : id ∈ segs) (b : Bytes) :
    (segs.write id b).idsFrom n = segs.idsFrom n :=
  idsFrom_congr fun id' _ => by
    rw [mem_write]
    exact ⟨fun hid => hid.elim (fun hid => hid ▸ h) fun hid => hid, .inr⟩

/-- The highest id closes the listing. -/
lemma idsFrom_last {n last : ℕ} (hmem : last ∈ segs) (hlast : ∀ id ∈ segs, id ≤ last)
    (hn : n ≤ last) : ∃ init, segs.idsFrom n = init ++ [last] ∧ ∀ id ∈ init, id ≠ last := by
  refine ⟨(segs.idsFrom n).filter (· < last), ?_, fun id hid => ?_⟩
  · refine idsFrom_eq ?_ fun id => ?_
    · rw [List.pairwise_append]
      refine ⟨(pairwise_idsFrom _).filter _, List.pairwise_singleton _ _, ?_⟩
      intro a ha c hc
      rw [List.mem_singleton.mp hc]
      exact of_decide_eq_true (List.mem_filter.mp ha).2
    · simp only [List.mem_append, List.mem_filter, mem_idsFrom, decide_eq_true_eq,
        List.mem_singleton]
      constructor
      · rintro (⟨h, -⟩ | rfl)
        · exact h
        · exact ⟨hn, hmem⟩
      · rintro ⟨hle, hid⟩
        rcases (hlast id hid).lt_or_eq with hlt | rfl
        · exact .inl ⟨⟨hle, hid⟩, hlt⟩
        · exact .inr rfl
  · have := of_decide_eq_true (List.mem_filter.mp hid).2
    omega

lemma idsFrom_eq_nil {n : ℕ} (h : ∀ id ∈ segs, id < n) : segs.idsFrom n = [] :=
  idsFrom_eq List.Pairwise.nil fun id => by
    constructor
    · intro hid
      exact absurd hid List.not_mem_nil
    · rintro ⟨hle, hid⟩
      exact absurd (h id hid) (by omega)

end Segments

end SmarthomeIngest
