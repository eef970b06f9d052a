import Mathlib.Data.List.Basic
import Mathlib.Data.Rat.Floor
import Mathlib.Data.Int.Sqrt

/-!
# JSON values

`f64` as a type with the operations the program uses, and the values of `serde_json`. Objects are
association lists; the order of the entries, which the program never looks at, is not modelled.
-/

namespace SmarthomeIngest

/-! ### Floating point -/

/-- Arithmetic and comparison of `f64`. `ofRat` is the value nearest to a rational. -/
class FloatArith (F : Type) extends Add F, Sub F, Mul F, Div F where
  ofRat : ℚ → F
  ln : F → F
  sqrt : F → F
  abs : F → F
  lt : F → F → Bool
  le : F → F → Bool

/-- `f64`: classification and `Display` besides the arithmetic. -/
class F64 (F : Type) extends FloatArith F where
  isFinite : F → Bool
  isIntegral : F → Bool
  display : F → String

/-! ### Values -/

/-- `serde_json::Number` without arbitrary precision. -/
inductive Number (F : Type) where
  | posInt (n : UInt64)
  | negInt (i : Int64)
  | float (x : F)

inductive Value (F : Type) where
  | null
  | bool (b : Bool)
  | number (n : Number F)
  | string (s : String)
  | array (items : List (Value F))
  | object (entries : List (String × Value F))

variable {F : Type}

/-- The entries of a `serde_json::Map`. -/
abbrev Object (F : Type) := List (String × Value F)

namespace Object

def get (o : Object F) (key : String) : Option (Value F) := o.lookup key

def insert (o : Object F) (key : String) (v : Value F) : Object F :=
  match o with
  | [] => [(key, v)]
  | (key', v') :: o => if key' = key then (key, v) :: o else (key', v') :: insert o key v

/-- The entries that are there. -/
def ofEntries (entries : List (String × Option (Value F))) : Object F :=
  entries.filterMap fun (key, v) => v.map fun v => (key, v)

lemma get_cons (key key' : String) (v : Value F) (o : Object F) :
    get ((key', v) :: o) key = if key = key' then some v else get o key := by
  by_cases hkey : key = key'
  · rw [get, hkey, List.lookup_cons_self, if_pos rfl]
  · have hbeq : (key == key') = false := beq_eq_false_iff_ne.mpr hkey
    rw [get, List.lookup_cons, hbeq, if_neg hkey, get]

lemma get_insert (o : Object F) (key key' : String) (v : Value F) :
    get (insert o key v) key' = if key' = key then some v else get o key' := by
  induction o with
  | nil => rw [insert, get_cons]
  | cons entry o ih =>
    obtain ⟨k, w⟩ := entry
    rw [insert]
    split_ifs with hk hkey hkey
    · rw [get_cons, if_pos hkey]
    · rw [get_cons, if_neg hkey, get_cons, hk, if_neg hkey]
    · rw [get_cons, ih, if_pos hkey, if_neg fun h => hk (h.symm.trans hkey)]
    · rw [get_cons, ih, if_neg hkey, get_cons]

@[simp] lemma get_insert_self (o : Object F) (key : String) (v : Value F) :
    get (insert o key v) key = some v := by rw [get_insert, if_pos rfl]

lemma get_insert_ne {key key' : String} (h : key' ≠ key) (o : Object F) (v : Value F) :
    get (insert o key v) key' = get o key' := by rw [get_insert, if_neg h]

/-- Removing other entries does not change what is found. -/
lemma get_filter {p : String → Bool} {key : String} (h : p key) (o : Object F) :
    get (o.filter fun entry => p entry.1) key = get o key := by
  induction o with
  | nil => rfl
  | cons entry o ih =>
    obtain ⟨k, v⟩ := entry
    by_cases hk : p k
    · rw [List.filter_cons_of_pos (by exact hk), get_cons, get_cons, ih]
    · have hne : key ≠ k := fun heq => hk (heq ▸ h)
      rw [List.filter_cons_of_neg (by exact hk), get_cons, if_neg hne, ih]

lemma get_eq_none {o : Object F} {key : String} (h : ∀ entry ∈ o, entry.1 ≠ key) :
    get o key = none := by
  induction o with
  | nil => rfl
  | cons entry o ih =>
    obtain ⟨k, v⟩ := entry
    rw [get_cons, if_neg (Ne.symm (h (k, v) List.mem_cons_self)),
      ih fun entry hentry => h entry (List.mem_cons_of_mem _ hentry)]

/-- With distinct names, what is found is what was listed. -/
lemma get_ofEntries {entries : List (String × Option (Value F))} (h : (entries.map Prod.fst).Nodup)
    {key : String} {v : Option (Value F)} (hmem : (key, v) ∈ entries) :
    get (ofEntries entries) key = v := by
  induction entries with
  | nil => cases hmem
  | cons entry entries ih =>
    obtain ⟨k, w⟩ := entry
    rw [List.map_cons, List.nodup_cons] at h
    have hfresh : get (ofEntries entries) k = none := by
      apply get_eq_none
      intro entry hentry heq
      obtain ⟨⟨k', w'⟩, hentries, hsome⟩ := List.mem_filterMap.mp hentry
      obtain ⟨u, -, rfl⟩ := Option.map_eq_some_iff.mp hsome
      exact h.1 (List.mem_map.mpr ⟨_, hentries, heq⟩)
    rcases List.mem_cons.mp hmem with heq | hrest
    · cases heq
      cases v with
      | none => exact hfresh
      | some u => exact (get_cons key key u _).trans (if_pos rfl)
    · have hne : key ≠ k := fun heq => h.1 (List.mem_map.mpr ⟨_, hrest, heq⟩)
      cases w with
      | none => exact ih h.2 hrest
      | some u => exact (get_cons key k u _).trans ((if_neg hne).trans (ih h.2 hrest))

end Object

namespace Value

/-- `get` with a string index: `None` unless the value is an object that has the key. -/
def get (v : Value F) (key : String) : Option (Value F) :=
  match v with
  | .object o => Object.get o key
  | _ => none

def asStr : Value F → Option String
  | .string s => some s
  | _ => none

def asObject : Value F → Option (Object F)
  | .object o => some o
  | _ => none

end Value

/-- `as_f64` of a number. -/
def Number.asF64 [F64 F] : Number F → F
  | .posInt n => FloatArith.ofRat n.toNat
  | .negInt i => FloatArith.ofRat i.toInt
  | .float x  => x

def Value.asF64 [F64 F] : Value F → Option F
  | .number n => some n.asF64
  | _ => none

/-- `Number::from_f64`. -/
def Number.fromF64 [F64 F] (x : F) : Option (Number F) :=
  if F64.isFinite x then some (.float x) else none

/-- Whole numbers as floats, finite in the range of `f64`. -/
instance : F64 ℤ where
  ofRat q := q.floor
  ln x := x
  sqrt x := x.sqrt
  abs x := x.natAbs
  lt x y := x < y
  le x y := x ≤ y
  isFinite x := x.natAbs < 2 ^ 1024
  isIntegral _ := true
  display x := toString x

end SmarthomeIngest
