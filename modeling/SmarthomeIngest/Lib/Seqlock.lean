import Mathlib.Algebra.Group.Nat.Even
import Mathlib.Data.List.Forall2
import Mathlib.Logic.Function.Iterate
import SmarthomeIngest.Lib.Transition

/-!
# Sequence locks

Two words that one writer stores and any number of readers load, each word on its own. A counter is
raised before and after a store. A load reads the counter, then the words, then the counter again,
and starts over if a store was under way or the counter has changed. The steps of the system are
single operations on the counter or on a word.

The counter may wrap around. A load that meets fewer steps of the counter than there are values
cannot take one value for another.
-/

namespace Seqlock

open Transition

variable {ν α β : Type*}

/-! ### Definitions -/

structure Counter (ν : Type*) where
  zero : ν
  next : ν → ν
  /-- A store is under way. -/
  busy : ν → Bool

/-- The counter after `n` steps. -/
def Counter.at (c : Counter ν) (n : ℕ) : ν := c.next^[n] c.zero

/-- Every other value is busy, and the values within a period are different. -/
structure Counter.Lawful (c : Counter ν) (period : ℕ) : Prop where
  busy_iff : ∀ n, c.busy (c.at n) = true ↔ Odd n
  eq_of_at_eq : ∀ m n, m ≤ n → n < m + period → c.at m = c.at n → m = n

/-- How far the writer has got with a store. -/
inductive WriterPc (α β : Type*) where
  | idle
  | writeFst (a : α) (b : β)
  | writeSnd (b : β)
  | finish

/-- How far a reader has got with a load, and what it has read. -/
inductive ReaderPc (ν α β : Type*) where
  | idle
  | again
  | readFst (start : ν)
  | readSnd (start : ν) (a : α)
  | finish (start : ν) (a : α) (b : β)

/-- The counter, the words, and where the writer and the readers are. The last four fields are the
history: the steps of the counter, the initial value and the arguments of the stores, and for each
reader the steps of the counter when its load began, and what its loads have returned. -/
structure State (ν α β : Type*) where
  version : ν
  fst : α
  snd : β
  writer : WriterPc α β
  readers : ℕ → ReaderPc ν α β
  increments : ℕ
  stored : List (α × β)
  begun : ℕ → ℕ
  returned : ℕ → List (α × β)

/-- Who moves: the writer with the first operation of a store or with a later one, or a reader. -/
inductive Label (α β : Type*) where
  | store (a : α) (b : β)
  | write
  | load (r : ℕ)

variable (c : Counter ν)

def init (a : α) (b : β) : State ν α β where
  version := c.zero
  fst := a
  snd := b
  writer := .idle
  readers _ := .idle
  increments := 0
  stored := [(a, b)]
  begun _ := 0
  returned _ := []

def State.raise (s : State ν α β) : State ν α β :=
  { s with version := c.next s.version, increments := s.increments + 1 }

def State.goto (s : State ν α β) (r : ℕ) (pc : ReaderPc ν α β) : State ν α β :=
  { s with readers := Function.update s.readers r pc }

/-- The first operation of an attempt. -/
def State.readVersion (s : State ν α β) (r : ℕ) : State ν α β :=
  s.goto r (if c.busy s.version then .again else .readFst s.version)

/-- The next operation of a reader. -/
def State.read [DecidableEq ν] (s : State ν α β) (r : ℕ) : State ν α β :=
  match s.readers r with
  | .idle => { s with begun := Function.update s.begun r s.increments }.readVersion c r
  | .again => s.readVersion c r
  | .readFst start => s.goto r (.readSnd start s.fst)
  | .readSnd start a => s.goto r (.finish start a s.snd)
  | .finish start a b =>
    if start = s.version then
      { s.goto r .idle with
        returned := Function.update s.returned r (s.returned r ++ [(a, b)]) }
    else s.goto r .again

def step [DecidableEq ν] (s : State ν α β) : Label α β → Option (State ν α β)
  | .store a b =>
    match s.writer with
    | .idle => some { s.raise c with writer := .writeFst a b, stored := s.stored ++ [(a, b)] }
    | _ => none
  | .write =>
    match s.writer with
    | .idle => none
    | .writeFst a b => some { s with fst := a, writer := .writeSnd b }
    | .writeSnd b => some { s with snd := b, writer := .finish }
    | .finish => some { s.raise c with writer := .idle }
  | .load r => some (s.read c r)

/-- A load that is under way has met fewer steps of the counter than there are values. -/
def Few (period : ℕ) (s : State ν α β) : Label α β → Prop
  | .load r => s.readers r ≠ .idle → s.increments < s.begun r + period
  | .store _ _ | .write => True

instance : ∀ pc : ReaderPc ν α β, Decidable (pc = .idle)
  | .idle => isTrue rfl
  | .again | .readFst _ | .readSnd _ _ | .finish _ _ _ => isFalse nofun

instance (period : ℕ) (s : State ν α β) : ∀ l, Decidable (Few period s l)
  | .load _ => inferInstanceAs (Decidable (_ → _))
  | .store _ _ | .write => isTrue trivial

/-- The values are those at the places `ks`, which do not go back. -/
def Selects (stored : List (α × β)) (ks : List ℕ) (values : List (α × β)) : Prop :=
  ks.Pairwise (· ≤ ·) ∧ List.Forall₂ (fun k v => stored[k]? = some v) ks values

/-! ### The invariant -/

/-- The value stored last is that at place `m`. Between the steps of the counter the words need not
hold it yet. -/
def State.Latest (s : State ν α β) (m : ℕ) : Prop :=
  s.stored.length = m + 1 ∧
    match s.writer with
    | .idle => s.increments = 2 * m ∧ s.stored[m]? = some (s.fst, s.snd)
    | .writeFst a b => s.increments + 1 = 2 * m ∧ s.stored[m]? = some (a, b)
    | .writeSnd b => s.increments + 1 = 2 * m ∧ s.stored[m]? = some (s.fst, b)
    | .finish => s.increments + 1 = 2 * m ∧ s.stored[m]? = some (s.fst, s.snd)

/-- A load that began at `begun`, behind the ones that returned the places `ks`, has read a value of
the counter at `n`, when no store was under way. -/
structure Saw (c : Counter ν) (increments : ℕ) (ks : List ℕ) (begun : ℕ) (start : ν) (n : ℕ) :
    Prop where
  start_eq : start = c.at n
  even : Even n
  le : n ≤ increments
  begun_le : begun ≤ n
  places : ∀ k ∈ ks, 2 * k ≤ n

/-- What a reader has read is there still, unless the counter has changed. -/
def ReaderPc.Holds (c : Counter ν) (s : State ν α β) (ks : List ℕ) (begun : ℕ) :
    ReaderPc ν α β → Prop
  | .idle => ∀ k ∈ ks, 2 * k ≤ s.increments
  | .again => begun ≤ s.increments ∧ ∀ k ∈ ks, 2 * k ≤ s.increments
  | .readFst start => ∃ n, Saw c s.increments ks begun start n
  | .readSnd start a =>
    ∃ n, Saw c s.increments ks begun start n ∧ (s.increments = n → s.fst = a)
  | .finish start a b =>
    ∃ n, Saw c s.increments ks begun start n ∧ (s.increments = n → s.fst = a ∧ s.snd = b)

structure Inv (c : Counter ν) (s : State ν α β) : Prop where
  version_eq : s.version = c.at s.increments
  writer : ∃ m, s.Latest m
  readers : ∀ r, ∃ ks, Selects s.stored ks (s.returned r) ∧
    (s.readers r).Holds c s ks (s.begun r)

variable {c} {period : ℕ} {s s' : State ν α β} {l : Label α β}

lemma Counter.at_succ (n : ℕ) : c.next (c.at n) = c.at (n + 1) :=
  (Function.iterate_succ_apply' c.next n c.zero).symm

lemma Selects.append {stored values : List (α × β)} {ks : List ℕ} (h : Selects stored ks values)
    (v : α × β) : Selects (stored ++ [v]) ks values := by
  refine ⟨h.1, h.2.imp fun k w hk => ?_⟩
  rw [List.getElem?_append_left (List.getElem?_eq_some_iff.mp hk).1, hk]

lemma Selects.concat {stored values : List (α × β)} {ks : List ℕ} (h : Selects stored ks values)
    {m : ℕ} {v : α × β} (hle : ∀ k ∈ ks, k ≤ m) (hv : stored[m]? = some v) :
    Selects stored (ks ++ [m]) (values ++ [v]) := by
  refine ⟨List.pairwise_append.mpr ⟨h.1, List.pairwise_singleton _ _, ?_⟩,
    List.rel_append h.2 (.cons hv .nil)⟩
  intro k hk m' hm'
  rw [List.mem_singleton.mp hm']
  exact hle k hk

lemma Inv.init (c : Counter ν) (a : α) (b : β) : Inv c (init c a b) where
  version_eq := rfl
  writer := ⟨0, rfl, rfl, rfl⟩
  readers _ := ⟨[], ⟨List.Pairwise.nil, .nil⟩, nofun⟩

/-- While a store is under way the counter is odd. -/
lemma State.Latest.even_iff {m : ℕ} (h : s.Latest m) : Even s.increments ↔ s.writer = .idle := by
  obtain ⟨-, h⟩ := h
  cases hw : s.writer with
  | idle =>
    rw [hw] at h
    exact iff_of_true ⟨m, by omega⟩ rfl
  | _ =>
    rw [hw] at h
    refine iff_of_false (fun ⟨k, hk⟩ => ?_) nofun
    have := h.1
    omega

/-- A step of the writer leaves it to the counter to tell the readers of a change. -/
lemma ReaderPc.Holds.mono {pc : ReaderPc ν α β} {ks : List ℕ} {begun : ℕ}
    (h : pc.Holds c s ks begun) (hle : s.increments ≤ s'.increments)
    (hwords : Even s'.increments → s'.increments = s.increments →
      s'.fst = s.fst ∧ s'.snd = s.snd) : pc.Holds c s' ks begun := by
  have hsaw : ∀ {start n}, Saw c s.increments ks begun start n →
      Saw c s'.increments ks begun start n := fun h =>
    ⟨h.start_eq, h.even, h.le.trans hle, h.begun_le, h.places⟩
  have hsame : ∀ {start n}, Saw c s.increments ks begun start n → s'.increments = n →
      s.increments = n ∧ s'.fst = s.fst ∧ s'.snd = s.snd := by
    rintro start n h rfl
    have heq := hle.antisymm h.le
    exact ⟨heq, hwords h.even heq.symm⟩
  cases pc with
  | idle => exact fun k hk => (h k hk).trans hle
  | again => exact ⟨h.1.trans hle, fun k hk => (h.2 k hk).trans hle⟩
  | readFst start =>
    obtain ⟨n, hn⟩ := h
    exact ⟨n, hsaw hn⟩
  | readSnd start a =>
    obtain ⟨n, hn, hfst⟩ := h
    refine ⟨n, hsaw hn, fun heq => ?_⟩
    obtain ⟨hinc, hfst', -⟩ := hsame hn heq
    rw [hfst', hfst hinc]
  | finish start a b =>
    obtain ⟨n, hn, hwords⟩ := h
    refine ⟨n, hsaw hn, fun heq => ?_⟩
    obtain ⟨hinc, hfst', hsnd'⟩ := hsame hn heq
    rw [hfst', hsnd']
    exact hwords hinc

/-! ### The steps -/

/-- A step of the writer. -/
lemma Inv.of_writer (hs : Inv c s) {m : ℕ} (hversion : s'.version = c.at s'.increments)
    (hlatest : s'.Latest m) (hle : s.increments ≤ s'.increments)
    (hwords : Even s'.increments → s'.increments = s.increments →
      s'.fst = s.fst ∧ s'.snd = s.snd)
    (hstored : ∀ ks values, Selects s.stored ks values → Selects s'.stored ks values)
    (hreaders : s'.readers = s.readers) (hbegun : s'.begun = s.begun)
    (hreturned : s'.returned = s.returned) : Inv c s' where
  version_eq := hversion
  writer := ⟨m, hlatest⟩
  readers r := by
    obtain ⟨ks, hks, hholds⟩ := hs.readers r
    rw [hreaders, hbegun, hreturned]
    exact ⟨ks, hstored ks _ hks, hholds.mono hle hwords⟩

lemma Inv.store (hs : Inv c s) (hw : s.writer = .idle) (a : α) (b : β) :
    Inv c { s.raise c with writer := .writeFst a b, stored := s.stored ++ [(a, b)] } := by
  obtain ⟨m, hlen, hlatest⟩ := hs.writer
  rw [hw] at hlatest
  refine hs.of_writer (m := m + 1) ?_ ⟨?_, ?_, ?_⟩ (Nat.le_succ _)
    (fun _ h => absurd h (Nat.succ_ne_self _)) (fun ks values h => h.append _) rfl rfl rfl
  · exact (congrArg c.next hs.version_eq).trans (Counter.at_succ _)
  · rw [List.length_append, hlen]
    rfl
  · show s.increments + 1 + 1 = _
    rw [hlatest.1]
    rfl
  · show (s.stored ++ [(a, b)])[m + 1]? = _
    rw [← hlen, List.getElem?_concat_length]

/-- A step of the reader `r`, with what holds for `r` behind it. -/
lemma Inv.of_reader (hs : Inv c s) {r : ℕ} {pc : ReaderPc ν α β} {begun : ℕ}
    {values : List (α × β)} {ks : List ℕ} (hks : Selects s.stored ks values)
    (hholds : pc.Holds c s ks begun) :
    Inv c { s with
      readers := Function.update s.readers r pc
      begun := Function.update s.begun r begun
      returned := Function.update s.returned r values } where
  version_eq := hs.version_eq
  writer := hs.writer
  readers r' := by
    by_cases heq : r' = r
    · subst heq
      simp only [Function.update_self]
      exact ⟨ks, hks, hholds.mono le_rfl fun _ _ => ⟨rfl, rfl⟩⟩
    · simp only [Function.update_of_ne heq]
      obtain ⟨ks', hks', hholds'⟩ := hs.readers r'
      exact ⟨ks', hks', hholds'.mono le_rfl fun _ _ => ⟨rfl, rfl⟩⟩

lemma Inv.goto (hs : Inv c s) {r : ℕ} {pc : ReaderPc ν α β} {ks : List ℕ}
    (hks : Selects s.stored ks (s.returned r)) (hholds : pc.Holds c s ks (s.begun r)) :
    Inv c (s.goto r pc) := by
  have hinv := hs.of_reader (r := r) hks hholds
  rwa [Function.update_eq_self, Function.update_eq_self] at hinv

/-- What a load reads off the counter when no store is under way. -/
lemma Inv.holds_version (hs : Inv c s) (hc : c.Lawful period) {ks : List ℕ} {begun : ℕ}
    (hbegun : begun ≤ s.increments) (hplaces : ∀ k ∈ ks, 2 * k ≤ s.increments) :
    (if c.busy s.version then .again else .readFst s.version : ReaderPc ν α β).Holds c s ks
      begun := by
  split_ifs with hbusy
  · exact ⟨hbegun, hplaces⟩
  · rw [hs.version_eq, hc.busy_iff, Nat.not_odd_iff_even] at hbusy
    exact ⟨_, hs.version_eq, hbusy, le_rfl, hbegun, hplaces⟩

/-- A load that finds the counter as it was returns the value stored last. -/
lemma Inv.latest_of_same (hs : Inv c s) (hc : c.Lawful period) {ks : List ℕ} {begun n : ℕ}
    {start : ν} {a : α} {b : β} (hsaw : Saw c s.increments ks begun start n)
    (hwords : s.increments = n → s.fst = a ∧ s.snd = b) (hfew : s.increments < begun + period)
    (hsame : start = s.version) :
    ∃ m, s.stored[m]? = some (a, b) ∧ s.increments = 2 * m ∧ ∀ k ∈ ks, k ≤ m := by
  obtain rfl : n = s.increments := by
    have hlt : s.increments < n + period :=
      hfew.trans_le (Nat.add_le_add_right hsaw.begun_le period)
    refine hc.eq_of_at_eq n s.increments hsaw.le hlt ?_
    rw [← hsaw.start_eq, hsame, hs.version_eq]
  obtain ⟨m, hlatest⟩ := hs.writer
  have hidle := hlatest.even_iff.mp hsaw.even
  obtain ⟨-, hlatest⟩ := hlatest
  rw [hidle] at hlatest
  obtain ⟨rfl, rfl⟩ := hwords rfl
  refine ⟨m, hlatest.2, hlatest.1, fun k hk => ?_⟩
  have := hsaw.places k hk
  have := hlatest.1
  omega

variable [DecidableEq ν]

/-- The steps of `s`, with their labels and their results. -/
inductive Rule (c : Counter ν) (s : State ν α β) : Label α β → State ν α β → Prop
  | store {a : α} {b : β} (hw : s.writer = .idle) : Rule c s (.store a b)
      { s.raise c with writer := .writeFst a b, stored := s.stored ++ [(a, b)] }
  | writeFst {a : α} {b : β} (hw : s.writer = .writeFst a b) :
      Rule c s .write { s with fst := a, writer := .writeSnd b }
  | writeSnd {b : β} (hw : s.writer = .writeSnd b) :
      Rule c s .write { s with snd := b, writer := .finish }
  | finish (hw : s.writer = .finish) : Rule c s .write { s.raise c with writer := .idle }
  | load {r : ℕ} : Rule c s (.load r) (s.read c r)

lemma Rule.of_step (h : step c s l = some s') : Rule c s l s' := by
  cases l with
  | store a b =>
    cases hw : s.writer <;> simp only [step, hw] at h <;> cases h
    exact .store hw
  | write =>
    cases hw : s.writer <;> simp only [step, hw] at h <;> cases h
    · exact .writeFst hw
    · exact .writeSnd hw
    · exact .finish hw
  | load r =>
    cases h
    exact .load

lemma Inv.read (hs : Inv c s) (hc : c.Lawful period) {r : ℕ} (hfew : Few period s (.load r)) :
    Inv c (s.read c r) := by
  obtain ⟨ks, hks, hholds⟩ := hs.readers r
  unfold State.read
  cases hpc : s.readers r with
  | idle =>
    rw [hpc] at hholds
    have hinv := hs.of_reader (r := r) hks (hs.holds_version hc le_rfl hholds)
    rwa [Function.update_eq_self] at hinv
  | again =>
    rw [hpc] at hholds
    exact hs.goto hks (hs.holds_version hc hholds.1 hholds.2)
  | readFst start =>
    rw [hpc] at hholds
    obtain ⟨n, hsaw⟩ := hholds
    exact hs.goto hks ⟨n, hsaw, fun _ => rfl⟩
  | readSnd start a =>
    rw [hpc] at hholds
    obtain ⟨n, hsaw, hfst⟩ := hholds
    exact hs.goto hks ⟨n, hsaw, fun heq => ⟨hfst heq, rfl⟩⟩
  | finish start a b =>
    rw [hpc] at hholds
    obtain ⟨n, hsaw, hwords⟩ := hholds
    have hfew : s.increments < s.begun r + period := hfew (by rw [hpc]; exact nofun)
    dsimp only
    split_ifs with hsame
    · obtain ⟨m, hstored, hm, hle⟩ := hs.latest_of_same hc hsaw hwords hfew hsame
      have hplaces : ∀ k ∈ ks ++ [m], 2 * k ≤ s.increments := by
        intro k hk
        rcases List.mem_append.mp hk with hk | hk
        · exact (hsaw.places k hk).trans hsaw.le
        · rw [List.mem_singleton.mp hk, hm]
      have hidle : (ReaderPc.idle : ReaderPc ν α β).Holds c s (ks ++ [m]) (s.begun r) := hplaces
      have hinv := hs.of_reader (r := r) (hks.concat hle hstored) hidle
      rwa [Function.update_eq_self] at hinv
    · refine hs.goto hks ⟨hsaw.begun_le.trans hsaw.le, fun k hk => ?_⟩
      exact (hsaw.places k hk).trans hsaw.le

theorem Inv.step (hc : c.Lawful period) (hs : Inv c s) (hfew : Few period s l)
    (h : step c s l = some s') : Inv c s' := by
  obtain ⟨m, hlatest⟩ := hs.writer
  have heven := hlatest.even_iff
  obtain ⟨hlen, hlatest⟩ := hlatest
  cases Rule.of_step h with
  | store hw => exact hs.store hw _ _
  | writeFst hw | writeSnd hw =>
    -- the counter is odd, so that no load relies on the words
    rw [hw] at hlatest heven
    exact hs.of_writer hs.version_eq ⟨hlen, hlatest⟩ le_rfl (fun h => nomatch heven.mp h)
      (fun _ _ h => h) rfl rfl rfl
  | finish hw =>
    rw [hw] at hlatest
    refine hs.of_writer ?_ ⟨hlen, hlatest⟩ (Nat.le_succ _)
      (fun _ h => absurd h (Nat.succ_ne_self _)) (fun _ _ h => h) rfl rfl rfl
    exact (congrArg c.next hs.version_eq).trans (Counter.at_succ _)
  | load => exact hs.read hc hfew

/-- What the loads of a reader have returned are values that were stored, one not older than the
one before. -/
theorem selects_of_reach (hc : c.Lawful period) {a : α} {b : β}
    (h : Reach (step c) (Few period) (init c a b) s) (r : ℕ) :
    ∃ ks, Selects s.stored ks (s.returned r) := by
  have hinv : Inv c s :=
    h.invariant (.init c a b) fun _ _ _ hs hfew hstep => hs.step hc hfew hstep
  obtain ⟨ks, hks, -⟩ := hinv.readers r
  exact ⟨ks, hks⟩

/-- The arguments of the stores of a run. -/
def arguments (ls : List (Label α β)) : List (α × β) :=
  ls.filterMap fun
    | .store a b => some (a, b)
    | _ => none

lemma arguments_append (ls ls' : List (Label α β)) :
    arguments (ls ++ ls') = arguments ls ++ arguments ls' := List.filterMap_append

lemma stored_read (s : State ν α β) (r : ℕ) : (s.read c r).stored = s.stored := by
  unfold State.read
  split
  · rfl
  · rfl
  · rfl
  · rfl
  · split_ifs <;> rfl

lemma stored_of_step (h : Seqlock.step c s l = some s') :
    s'.stored = s.stored ++ arguments [l] := by
  cases Rule.of_step h with
  | store => rfl
  | writeFst | writeSnd | finish => exact (List.append_nil _).symm
  | load =>
    rw [stored_read]
    exact (List.append_nil _).symm

lemma stored_of_exec {ls : List (Label α β)} (h : exec (step c) s ls = some s') :
    s'.stored = s.stored ++ arguments ls := by
  induction ls generalizing s with
  | nil =>
    cases h
    exact (List.append_nil _).symm
  | cons l ls ih =>
    obtain ⟨t, ht, h⟩ := Option.bind_eq_some_iff.mp h
    rw [ih h, stored_of_step ht, List.append_assoc, ← arguments_append]
    rfl

end Seqlock
