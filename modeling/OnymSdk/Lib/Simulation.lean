/-
  File:      OnymSdk/Lib/Simulation.lean
  Subject:   FORWARD SIMULATION between two step relations.

  * `Forward` -- every step of the concrete system is matched by some steps of the
    abstract one, none included, and the relation holds again;
  * `Forward.steps` -- **then every run is matched by a run**;
  * `Forward.and_inv` -- a simulation may use an invariant of the abstract system.
-/
import Mathlib.Logic.Relation

namespace Simulation

open Relation

variable {σ τ : Type*} {R : σ → τ → Prop} {cstep : σ → σ → Prop} {astep : τ → τ → Prop}

/-- `R` is a forward simulation. -/
def Forward (R : σ → τ → Prop) (cstep : σ → σ → Prop) (astep : τ → τ → Prop) : Prop :=
  ∀ c c' a, R c a → cstep c c' → ∃ a', ReflTransGen astep a a' ∧ R c' a'

/-- **Runs are matched by runs.** -/
theorem Forward.steps (h : Forward R cstep astep) {c c' : σ} {a : τ} (hr : R c a)
    (hc : ReflTransGen cstep c c') : ∃ a', ReflTransGen astep a a' ∧ R c' a' := by
  induction hc with
  | refl => exact ⟨a, .refl, hr⟩
  | tail _ hstep ih =>
    obtain ⟨a₁, ha, hr₁⟩ := ih
    obtain ⟨a₂, ha', hr₂⟩ := h _ _ _ hr₁ hstep
    exact ⟨a₂, ha.trans ha', hr₂⟩

/-- An invariant holds along every run. -/
theorem inv_steps {inv : τ → Prop} (hinv : ∀ a a', inv a → astep a a' → inv a') {a a' : τ}
    (h : inv a) (hs : ReflTransGen astep a a') : inv a' := by
  induction hs with
  | refl => exact h
  | tail _ hstep ih => exact hinv _ _ ih hstep

/-- If the steps are matched wherever the abstract system's invariant holds, the relation and
    the invariant together are a simulation. -/
theorem Forward.and_inv {inv : τ → Prop} (hinv : ∀ a a', inv a → astep a a' → inv a')
    (h : ∀ c c' a, R c a → inv a → cstep c c' → ∃ a', ReflTransGen astep a a' ∧ R c' a') :
    Forward (fun c a => R c a ∧ inv a) cstep astep := by
  intro c c' a hr hc
  obtain ⟨a', ha, hr'⟩ := h c c' a hr.1 hr.2 hc
  exact ⟨a', ha, hr', inv_steps hinv hr.2 ha⟩

end Simulation
