import SmarthomeIngest.Lib.Transition

/-!
# Forward simulations

One system follows another if it can answer each of the other's steps with a run of its own, so that
related states stay related. Then it gets to a state related to every state that the other reaches,
and what holds of its own states comes down along the relation.
-/

namespace Transition

variable {σ τ ι κ : Type*}

/-- Every step of the first system under the guard `G` is answered by a run of the second one that
leads back into the relation `R`. -/
def Simulates (step₁ : σ → ι → Option σ) (step₂ : τ → κ → Option τ) (G : σ → ι → Prop)
    (R : σ → τ → Prop) : Prop :=
  ∀ ⦃s : σ⦄ ⦃t : τ⦄ ⦃a : ι⦄ ⦃s' : σ⦄, R s t → G s a → step₁ s a = some s' →
    ∃ bs t', exec step₂ t bs = some t' ∧ R s' t'

variable {step₁ : σ → ι → Option σ} {step₂ : τ → κ → Option τ} {G : σ → ι → Prop}
  {R : σ → τ → Prop} {s₀ s : σ} {t₀ t t' : τ}

namespace Simulates

/-- Every state reached is related to one that the second system reaches. -/
theorem reach (h : Simulates step₁ step₂ G R) (h₀ : R s₀ t₀) (hs : Reach step₁ G s₀ s) :
    ∃ t, Reachable step₂ t₀ t ∧ R s t := by
  induction hs with
  | refl => exact ⟨t₀, .refl, h₀⟩
  | tail _ hG hstep ih =>
    obtain ⟨t, ht, hR⟩ := ih
    obtain ⟨bs, t', hexec, hR'⟩ := h hR hG hstep
    exact ⟨t', ht.trans (Reachable.of_exec hexec), hR'⟩

end Simulates

end Transition
