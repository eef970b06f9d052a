import Mathlib.Algebra.Order.Ring.Nat
import Mathlib.Logic.Relation

/-!
# Labelled transition systems

A system is a partial step function `σ → ι → Option σ`: the label says who moves and how the
environment answers, the function says whether the move is possible and where it leads. Runs are
lists of labels. Reachability is relative to a guard on the steps, so that a result about every
run and a result about the runs that avoid some steps are instances of one rule.
-/

namespace Transition

variable {σ ι : Type*} (step : σ → ι → Option σ)

/-- The state at the end of a run, if every one of its labels is possible. -/
def exec : σ → List ι → Option σ
  | s, []      => some s
  | s, a :: as => (step s a).bind fun s' => exec s' as

/-- Every step of the run satisfies `P`, read off the state before it and its label. -/
def Always (P : σ → ι → Prop) : σ → List ι → Prop
  | _, []      => True
  | s, a :: as => P s a ∧ ∀ s', step s a = some s' → Always P s' as

/-- The states reached from `s₀` by steps that satisfy the guard `G`. -/
inductive Reach (G : σ → ι → Prop) (s₀ : σ) : σ → Prop where
  | refl : Reach G s₀ s₀
  | tail {s s' : σ} {a : ι} (h : Reach G s₀ s) (hG : G s a) (hs : step s a = some s') :
      Reach G s₀ s'

/-- Reachability by any steps. -/
abbrev Reachable (s₀ s : σ) : Prop := Reach step (fun _ _ => True) s₀ s

variable {step} {G : σ → ι → Prop} {s₀ s s' : σ}

lemma exec_append (as bs : List ι) (s : σ) :
    exec step s (as ++ bs) = (exec step s as).bind fun t => exec step t bs := by
  induction as generalizing s with
  | nil => rfl
  | cons a as ih => simp [exec, ih, Option.bind_assoc]

lemma always_cons_of_some {P : σ → ι → Prop} {a : ι} {as : List ι} (h : step s a = some s') :
    Always step P s (a :: as) ↔ P s a ∧ Always step P s' as := by
  simp [Always, h]

lemma always_cons_of_none {P : σ → ι → Prop} {a : ι} {as : List ι} (h : step s a = none) :
    Always step P s (a :: as) ↔ P s a := by
  simp [Always, h]

instance decidableAlways {P : σ → ι → Prop} [∀ s a, Decidable (P s a)] :
    ∀ s as, Decidable (Always step P s as)
  | _, []      => .isTrue trivial
  | s, a :: as =>
    match h : step s a with
    | none    => decidable_of_iff' _ (always_cons_of_none h)
    | some s' =>
      have := decidableAlways (P := P) s' as
      decidable_of_iff' _ (always_cons_of_some h)

/-- The invariant rule: what holds at the start and is kept by every guarded step holds of every
state reached. -/
theorem Reach.invariant {P : σ → Prop} (h₀ : P s₀)
    (hstep : ∀ s a s', P s → G s a → step s a = some s' → P s')
    (h : Reach step G s₀ s) : P s := by
  induction h with
  | refl => exact h₀
  | tail _ hG hs ih => exact hstep _ _ _ ih hG hs

/-- A run under a guard is one under a weaker guard. -/
lemma Reach.mono {H : σ → ι → Prop} (hGH : ∀ s a, G s a → H s a) (h : Reach step G s₀ s) :
    Reach step H s₀ s := by
  induction h with
  | refl => exact .refl
  | tail _ hG hs ih => exact ih.tail (hGH _ _ hG) hs

lemma Reach.trans (h₁ : Reach step G s₀ s) (h₂ : Reach step G s s') : Reach step G s₀ s' := by
  induction h₂ with
  | refl => exact h₁
  | tail _ hG hs ih => exact ih.tail hG hs

/-- A run all of whose steps satisfy the guard ends in a state reached under it. -/
lemma Reach.of_exec {as : List ι} (hG : Always step G s₀ as) (h : exec step s₀ as = some s) :
    Reach step G s₀ s := by
  induction as generalizing s₀ with
  | nil =>
    cases h
    exact .refl
  | cons a as ih =>
    obtain ⟨t, ht, h⟩ := Option.bind_eq_some_iff.mp h
    exact (Reach.refl.tail hG.1 ht).trans (ih (hG.2 t ht) h)

/-- A run that stops where the guard does not hold, if it does not stop, is one under the guard. -/
lemma of_exec_guarded {P : σ → ι → Prop} [∀ s a, Decidable (P s a)] {as : List ι}
    (h : exec (fun s a => if P s a then step s a else none) s as = some s') :
    Always step P s as ∧ exec step s as = some s' := by
  induction as generalizing s with
  | nil => exact ⟨trivial, h⟩
  | cons a as ih =>
    obtain ⟨t, ht, h⟩ := Option.bind_eq_some_iff.mp h
    obtain ⟨hP, ht⟩ := Option.ite_none_right_eq_some.mp ht
    obtain ⟨hrest, hexec⟩ := ih h
    refine ⟨(always_cons_of_some ht).mpr ⟨hP, hrest⟩, ?_⟩
    rw [exec, ht, Option.bind_some, hexec]

lemma Always.and {P Q : σ → ι → Prop} {as : List ι} (hP : Always step P s as)
    (hQ : Always step Q s as) : Always step (fun s a => P s a ∧ Q s a) s as := by
  induction as generalizing s with
  | nil => trivial
  | cons a as ih => exact ⟨⟨hP.1, hQ.1⟩, fun s' hs' => ih (hP.2 s' hs') (hQ.2 s' hs')⟩

/-- A property of steps that follows under an invariant, if the steps keep it. -/
lemma Always.imp {I : σ → Prop} {P Q : σ → ι → Prop} {as : List ι} (hI : I s)
    (hstep : ∀ s a s', I s → P s a → step s a = some s' → I s')
    (hPQ : ∀ s a, I s → P s a → Q s a) (h : Always step P s as) : Always step Q s as := by
  induction as generalizing s with
  | nil => trivial
  | cons a as ih =>
    exact ⟨hPQ s a hI h.1, fun t ht => ih (hstep s a t hI h.1 ht) (h.2 t ht)⟩

lemma Always.mono {P Q : σ → ι → Prop} {as : List ι} (hPQ : ∀ s a, P s a → Q s a)
    (h : Always step P s as) : Always step Q s as :=
  h.imp (I := fun _ => True) trivial (fun _ _ _ _ _ _ => trivial) fun s a _ => hPQ s a

/-- A guard that the labels of the run meet in every state. -/
lemma always_of_forall_mem {P : σ → ι → Prop} {as : List ι} (h : ∀ a ∈ as, ∀ s, P s a) :
    Always step P s as := by
  induction as generalizing s with
  | nil => trivial
  | cons a as ih =>
    exact ⟨h a List.mem_cons_self s, fun _ _ => ih fun b hb => h b (List.mem_cons_of_mem a hb)⟩

/-- The labels of a run that gets to its end are possible. -/
lemma always_isSome_of_exec {as : List ι} (h : exec step s as = some s') :
    Always step (fun s a => (step s a).isSome) s as := by
  induction as generalizing s with
  | nil => trivial
  | cons a as ih =>
    obtain ⟨t, ht, h⟩ := Option.bind_eq_some_iff.mp h
    refine ⟨Option.isSome_of_eq_some ht, fun u hu => ?_⟩
    rw [ht] at hu
    cases hu
    exact ih h

/-- What holds at the end of a run, and in front of a step if behind it, holds behind every step. -/
lemma always_of_exec {Q : σ → Prop} {as : List ι}
    (hback : ∀ s a s', step s a = some s' → Q s' → Q s) (h : exec step s as = some s')
    (hQ : Q s') : Q s ∧ Always step (fun s a => ∀ t, step s a = some t → Q t) s as := by
  induction as generalizing s with
  | nil =>
    cases h
    exact ⟨hQ, trivial⟩
  | cons a as ih =>
    obtain ⟨t, ht, h⟩ := Option.bind_eq_some_iff.mp h
    obtain ⟨hQt, hrest⟩ := ih h
    refine ⟨hback s a t ht hQt, (always_cons_of_some ht).mpr ⟨fun u hu => ?_, hrest⟩⟩
    rw [ht] at hu
    cases hu
    exact hQt

/-- The ranking rule: where no step raises the rank, the steps with the label `c`, which lower it,
are no more than the rank at the start. -/
theorem Always.count_le [DecidableEq ι] {I : σ → Prop} {P : σ → ι → Prop} {rank : σ → ℕ} {c : ι}
    {as : List ι} (hI : I s) (hstep : ∀ s a s', I s → P s a → step s a = some s' → I s')
    (hle : ∀ s a s', I s → P s a → step s a = some s' → rank s' ≤ rank s)
    (hlt : ∀ s s', I s → P s c → step s c = some s' → rank s' < rank s)
    (hP : Always step P s as) (h : exec step s as = some s') :
    rank s' + as.count c ≤ rank s := by
  induction as generalizing s with
  | nil =>
    cases h
    exact le_rfl
  | cons a as ih =>
    obtain ⟨t, ht, h⟩ := Option.bind_eq_some_iff.mp h
    have hrest := ih (hstep s a t hI hP.1 ht) (hP.2 t ht) h
    by_cases ha : a = c
    · subst ha
      have := hlt s t hI hP.1 ht
      rw [List.count_cons_self]
      omega
    · have := hle s a t hI hP.1 ht
      rw [List.count_cons_of_ne ha]
      omega

/-- Two properties of steps that agree under an invariant agree over runs, if the steps that have
them keep it. -/
lemma always_iff {I : σ → Prop} {H P Q : σ → ι → Prop} {as : List ι} (hI : I s)
    (hstep : ∀ s a s', I s → H s a → Q s a → step s a = some s' → I s')
    (hiff : ∀ s a, I s → H s a → (P s a ↔ Q s a)) (hH : Always step H s as) :
    Always step P s as ↔ Always step Q s as := by
  induction as generalizing s with
  | nil => exact Iff.rfl
  | cons a as ih =>
    rw [Always, Always, hiff s a hI hH.1]
    refine and_congr_right fun hQ => forall_congr' fun t => imp_congr_right fun ht => ?_
    exact ih (hstep s a t hI hH.1 hQ ht) (hH.2 t ht)

lemma Reachable.of_exec {as : List ι} (h : exec step s₀ as = some s) : Reachable step s₀ s :=
  Reach.of_exec (always_of_forall_mem fun _ _ _ => trivial) h

end Transition
