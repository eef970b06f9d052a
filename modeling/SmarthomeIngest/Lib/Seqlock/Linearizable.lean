import SmarthomeIngest.Lib.Register
import SmarthomeIngest.Lib.Seqlock

/-!
# Sequence locks are linearizable

A store takes effect with its last operation, the second step of the counter, and a load with the one
that finds the counter unchanged. Executed one after the other in this order, the stores and loads of
a run are those of an atomic register. Each takes effect between its first and its last operation, so
the order agrees with the one in which they follow each other.
-/

namespace Seqlock

open Transition

variable {ν α β : Type*} {c : Counter ν} {period : ℕ} {s s' : State ν α β}
  {t : Register (α × β)} {l : Label α β}

/-- The register holds the value of the last store that is done, and has returned the same. -/
structure State.Shows (s : State ν α β) (t : Register (α × β)) : Prop where
  value : s.stored[s.increments / 2]? = some t.value
  returned : t.returned = s.returned

lemma shows_init (c : Counter ν) (a : α) (b : β) : (init c a b).Shows (.init (a, b)) where
  value := by simp [init, Register.init]
  returned := rfl

/-- While no store is under way the words are the value. -/
lemma State.Shows.value_of_idle (hs : Inv c s) (h : s.Shows t) (hw : s.writer = .idle) :
    t.value = (s.fst, s.snd) := by
  obtain ⟨m, -, hlatest⟩ := hs.writer
  rw [hw] at hlatest
  have hshown := h.value
  rw [hlatest.1, Nat.mul_div_cancel_left m Nat.two_pos, hlatest.2] at hshown
  exact (Option.some.inj hshown).symm

variable [DecidableEq ν]

/-- What takes effect with the operation of a label. -/
def State.effect (s : State ν α β) : Label α β → List (Register.Op (α × β))
  | .store _ _ => []
  | .write =>
    match s.writer with
    | .finish => [.write (s.fst, s.snd)]
    | _ => []
  | .load r =>
    match s.readers r with
    | .finish start _ _ => if start = s.version then [.read r] else []
    | _ => []

/-- What takes effect in a run, in its order. -/
def effects (c : Counter ν) : State ν α β → List (Label α β) → List (Register.Op (α × β))
  | _, []      => []
  | s, l :: ls =>
    s.effect l ++
      match step c s l with
      | some s' => effects c s' ls
      | none    => []

/-- The last operation of a load. -/
lemma State.Shows.read (hs : Inv c s) (hc : c.Lawful period) {r : ℕ}
    (hfew : Few period s (.load r)) (h : s.Shows t) :
    (s.read c r).Shows (t.run (s.effect (.load r))) := by
  cases hpc : s.readers r with
  | idle | again | readFst | readSnd =>
    simp only [State.effect, State.read, hpc]
    exact ⟨h.value, h.returned⟩
  | finish start a b =>
    simp only [State.effect, State.read, hpc]
    split_ifs with hsame
    · obtain ⟨ks, -, hholds⟩ := hs.readers r
      rw [hpc] at hholds
      obtain ⟨n, hsaw, hwords⟩ := hholds
      have hfew : s.increments < s.begun r + period := hfew (by simp [hpc])
      obtain ⟨m, hstored, hm, -⟩ := hs.latest_of_same hc hsaw hwords hfew hsame
      have hvalue : t.value = (a, b) := by
        have hshown := h.value
        rw [hm, Nat.mul_div_cancel_left m Nat.two_pos, hstored] at hshown
        exact (Option.some.inj hshown).symm
      refine ⟨h.value, ?_⟩
      show Function.update t.returned r (t.returned r ++ [t.value]) = _
      rw [hvalue, h.returned]
    · exact ⟨h.value, h.returned⟩

/-- One step of a run. -/
lemma State.Shows.step (hs : Inv c s) (hc : c.Lawful period) (hfew : Few period s l)
    (h : s.Shows t) (hstep : Seqlock.step c s l = some s') : s'.Shows (t.run (s.effect l)) := by
  obtain ⟨m, hlen, hlatest⟩ := hs.writer
  cases Rule.of_step hstep with
  | store hw =>
    rw [hw] at hlatest
    refine ⟨?_, h.returned⟩
    have hshown := h.value
    show (s.stored ++ [_])[(s.increments + 1) / 2]? = some t.value
    have hhalf : (s.increments + 1) / 2 = s.increments / 2 := by
      have := hlatest.1
      omega
    rw [hhalf, List.getElem?_append_left (List.getElem?_eq_some_iff.mp hshown).1, hshown]
  | writeFst hw | writeSnd hw =>
    simp only [State.effect, hw]
    exact ⟨h.value, h.returned⟩
  | finish hw =>
    rw [hw] at hlatest
    simp only [State.effect, hw]
    refine ⟨?_, h.returned⟩
    show s.stored[(s.increments + 1) / 2]? = some (s.fst, s.snd)
    rw [hlatest.1, Nat.mul_div_cancel_left m Nat.two_pos, hlatest.2]
  | load => exact h.read hs hc hfew

/-- Every run is one of the register, with what takes effect in its order. -/
theorem shows_of_exec (hc : c.Lawful period) {ls : List (Label α β)} (hs : Inv c s)
    (h : s.Shows t) (hfew : Always (Seqlock.step c) (Few period) s ls)
    (hexec : exec (Seqlock.step c) s ls = some s') : s'.Shows (t.run (effects c s ls)) := by
  induction ls generalizing s t with
  | nil =>
    cases hexec
    exact h
  | cons l ls ih =>
    obtain ⟨u, hu, hexec⟩ := Option.bind_eq_some_iff.mp hexec
    rw [effects, hu, Register.run_append]
    exact ih (hs.step hc hfew.1 hu) (h.step hs hc hfew.1 hu) (hfew.2 u hu) hexec

end Seqlock
