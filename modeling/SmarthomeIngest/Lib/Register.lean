import Mathlib.Data.Nat.Notation
import Mathlib.Logic.Function.Basic

/-!
# An atomic register

What a shared variable is for: a write and a read are one step each. `returned` lists what the reads
of each reader have returned, in their order.
-/

structure Register (ν : Type*) where
  value : ν
  returned : ℕ → List ν

namespace Register

variable {ν μ : Type*}

inductive Op (ν : Type*) where
  | write (value : ν)
  | read (r : ℕ)
  deriving DecidableEq

def init (value : ν) : Register ν := ⟨value, fun _ => []⟩

def step (t : Register ν) : Op ν → Register ν
  | .write value => { t with value := value }
  | .read r      =>
    { t with returned := Function.update t.returned r (t.returned r ++ [t.value]) }

/-- A sequential history. -/
def run (t : Register ν) (ops : List (Op ν)) : Register ν := ops.foldl step t

lemma run_append (t : Register ν) (ops ops' : List (Op ν)) :
    t.run (ops ++ ops') = (t.run ops).run ops' := List.foldl_append

def Op.map (f : ν → μ) : Op ν → Op μ
  | .write value => .write (f value)
  | .read r      => .read r

def map (f : ν → μ) (t : Register ν) : Register μ := ⟨f t.value, fun r => (t.returned r).map f⟩

lemma step_map (f : ν → μ) (t : Register ν) (op : Op ν) :
    (t.map f).step (op.map f) = (t.step op).map f := by
  cases op with
  | write value => rfl
  | read r =>
    refine congrArg (Register.mk (f t.value)) (funext fun r' => ?_)
    by_cases hr : r' = r
    · subst hr
      simp [map, step]
    · simp [map, step, hr]

lemma run_map (f : ν → μ) (t : Register ν) (ops : List (Op ν)) :
    (t.map f).run (ops.map (Op.map f)) = (t.run ops).map f := by
  induction ops generalizing t with
  | nil => rfl
  | cons op ops ih =>
    show ((t.map f).step (op.map f)).run _ = ((t.step op).run ops).map f
    rw [step_map]
    exact ih _

end Register
