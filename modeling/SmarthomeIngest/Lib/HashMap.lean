import Mathlib.Data.Finmap
import Mathlib.Data.List.MinMax

/-!
# Hash maps

A hash map is a finite map, iterated in an order that the program does not control. A list of keys
says in which order; what is proved for every such list does not depend on it.
-/

/-- The values of some keys. -/
abbrev HashMap (K V : Type*) := Finmap fun _ : K => V

namespace HashMap

variable {K V : Type*} [DecidableEq K]

/-- The map may be iterated in this order. -/
def IterOrder (m : HashMap K V) (order : List K) : Prop :=
  order.Nodup ∧ order.toFinset = m.keys

instance (m : HashMap K V) (order : List K) : Decidable (m.IterOrder order) :=
  inferInstanceAs (Decidable (_ ∧ _))

/-- The entries in that order. -/
def iter (m : HashMap K V) (order : List K) : List (K × V) :=
  order.filterMap fun k => (m.lookup k).map fun v => (k, v)

/-- The number of entries. -/
def size (m : HashMap K V) : ℕ := m.keys.card

/-- The first key in the order that has a least value. -/
def minBy (m : HashMap K V) (f : V → ℕ) (order : List K) : Option K :=
  ((m.iter order).argmin fun entry => f entry.2).map Prod.fst

variable {m : HashMap K V} {order order' : List K} {k k' : K} {v v' : V}

/-! ### Iterating -/

lemma IterOrder.mem (h : m.IterOrder order) : k ∈ order ↔ k ∈ m := by
  rw [← List.mem_toFinset, h.2, Finmap.mem_keys]

/-- Every map can be iterated, from any of its keys on. -/
lemma exists_iterOrder (h : k ∈ m) : ∃ order, m.IterOrder (k :: order) := by
  have hmem : k ∈ m.keys := Finmap.mem_keys.mpr h
  refine ⟨(m.keys.erase k).toList, ?_, ?_⟩
  · rw [List.nodup_cons, Finset.mem_toList]
    exact ⟨Finset.notMem_erase k m.keys, Finset.nodup_toList _⟩
  · rw [List.toFinset_cons, Finset.toList_toFinset, Finset.insert_erase hmem]

lemma iterOrder_toList (m : HashMap K V) : m.IterOrder m.keys.toList :=
  ⟨Finset.nodup_toList _, Finset.toList_toFinset _⟩

lemma mem_iter (h : m.IterOrder order) : (k, v) ∈ m.iter order ↔ m.lookup k = some v := by
  rw [iter, List.mem_filterMap]
  constructor
  · rintro ⟨k', -, hv⟩
    obtain ⟨v', hlookup, heq⟩ := Option.map_eq_some_iff.mp hv
    cases heq
    exact hlookup
  · intro hlookup
    refine ⟨k, h.mem.mpr (Finmap.mem_of_lookup_eq_some hlookup), ?_⟩
    rw [hlookup]
    rfl

lemma iter_cons (hlookup : m.lookup k = some v) :
    m.iter (k :: order) = (k, v) :: m.iter order := by
  rw [iter, List.filterMap_cons, hlookup]
  rfl

/-- The entries, put into another map one after the other. -/
lemma lookup_foldl_insert (h : m.lookup k = some v) (order : List K) (m' : HashMap K V)
    (hk : k ∈ order ∨ m'.lookup k = some v) :
    ((m.iter order).foldl (fun m' entry => m'.insert entry.1 entry.2) m').lookup k = some v := by
  induction order generalizing m' with
  | nil =>
    rcases hk with hk | hk
    · cases hk
    · exact hk
  | cons k' order ih =>
    cases hlookup : m.lookup k' with
    | none =>
      have hiter : m.iter (k' :: order) = m.iter order := by simp [iter, hlookup]
      rw [hiter]
      apply ih
      refine hk.imp_left fun hmem => (List.mem_cons.mp hmem).resolve_left fun heq => ?_
      rw [← heq, h] at hlookup
      cases hlookup
    | some w =>
      rw [iter_cons hlookup, List.foldl_cons]
      apply ih
      by_cases heq : k = k'
      · subst heq
        rw [h] at hlookup
        cases hlookup
        exact .inr (Finmap.lookup_insert _)
      · refine hk.imp (fun hmem => (List.mem_cons.mp hmem).resolve_left heq) fun hold => ?_
        rwa [Finmap.lookup_insert_of_ne _ heq]

/-! ### Least values -/

/-- What `minBy` finds is there, and nothing is less. -/
lemma of_minBy {f : V → ℕ} (h : m.IterOrder order) (hmin : m.minBy f order = some k) :
    ∃ v, m.lookup k = some v ∧ ∀ k' v', m.lookup k' = some v' → f v ≤ f v' := by
  obtain ⟨⟨k, v⟩, hargmin, rfl⟩ := Option.map_eq_some_iff.mp hmin
  refine ⟨v, (mem_iter h).mp (List.argmin_mem hargmin), fun k' v' hlookup => ?_⟩
  have hentry := (mem_iter h).mpr hlookup
  exact List.le_of_mem_argmin (f := fun entry : K × V => f entry.2) hentry hargmin

lemma exists_minBy (f : V → ℕ) (h : m.IterOrder order) (hmem : k ∈ m) :
    ∃ k', m.minBy f order = some k' := by
  obtain ⟨v, hlookup⟩ := Finmap.mem_iff.mp hmem
  have hentry := (mem_iter h).mpr hlookup
  cases hargmin : (m.iter order).argmin fun entry => f entry.2 with
  | none =>
    rw [List.argmin_eq_none.mp hargmin] at hentry
    cases hentry
  | some entry => exact ⟨entry.1, by rw [minBy, hargmin]; rfl⟩

/-! ### Size -/

omit [DecidableEq K] in
@[simp] lemma size_empty : size (∅ : HashMap K V) = 0 := rfl

lemma keys_insert : (m.insert k v).keys = insert k m.keys := by
  ext k'
  rw [Finmap.mem_keys, Finmap.mem_insert, Finset.mem_insert, Finmap.mem_keys]

lemma size_insert_of_mem (h : k ∈ m) : size (m.insert k v) = m.size := by
  rw [size, keys_insert, Finset.insert_eq_of_mem (Finmap.mem_keys.mpr h)]
  rfl

lemma size_insert_of_notMem (h : k ∉ m) : size (m.insert k v) = m.size + 1 := by
  have hkeys : k ∉ m.keys := fun hmem => h (Finmap.mem_keys.mp hmem)
  rw [size, keys_insert, Finset.card_insert_of_notMem hkeys]
  rfl

lemma size_erase (h : k ∈ m) : size (m.erase k) + 1 = m.size := by
  rw [size, Finmap.keys_erase, Finset.card_erase_add_one (Finmap.mem_keys.mpr h)]
  rfl

omit [DecidableEq K] in
lemma exists_mem_of_size (h : 0 < m.size) : ∃ k, k ∈ m := by
  obtain ⟨k, hk⟩ := Finset.card_pos.mp h
  exact ⟨k, Finmap.mem_keys.mp hk⟩

end HashMap
