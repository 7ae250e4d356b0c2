/-
  File:      OnymSdk/Lib/Traces.lean
  Subject:   TRACES of a labelled transition system.

  * `Exec` -- the labels and states a system goes through from a state;
  * `Along` -- something holds of every step of a trace;
  * `along_mono` -- what every step does, given an invariant, holds along a trace;
  * `along_iff` -- **when a property of states and steps holds along a trace**:
    exactly if every step meets what, step by step, is needed for it.
-/
import Mathlib.Tactic.Common

namespace Traces

variable {σ ε : Type*}

/-- The trace is one of the system, from `s`. -/
def Exec (step : σ → ε → σ → Prop) (s : σ) : List (ε × σ) → Prop
  | [] => True
  | (e, s') :: tr => step s e s' ∧ Exec step s' tr

/-- Every step of the trace has the property. -/
def Along (p : σ → ε → σ → Prop) (s : σ) : List (ε × σ) → Prop
  | [] => True
  | (e, s') :: tr => p s e s' ∧ Along p s' tr

/-- The state at the end. -/
def final (s : σ) : List (ε × σ) → σ
  | [] => s
  | (_, s') :: tr => final s' tr

variable {step : σ → ε → σ → Prop} (inv : σ → Prop)

/-- Every step of a trace is one of the system. -/
theorem along_exec {s : σ} {tr : List (ε × σ)} (h : Exec step s tr) : Along step s tr := by
  induction tr generalizing s with
  | nil => trivial
  | cons x tr ih => exact ⟨h.1, ih h.2⟩

/-- The run rule: from the steps that meet `p`, under an invariant they keep, to the trace. -/
theorem along_mono (p q : σ → ε → σ → Prop)
    (hstep : ∀ s e s', inv s → step s e s' → p s e s' → inv s' ∧ q s e s') {s : σ}
    {tr : List (ε × σ)} (hs : inv s) (h : Exec step s tr) (hp : Along p s tr) : Along q s tr := by
  induction tr generalizing s with
  | nil => trivial
  | cons x tr ih =>
    obtain ⟨h₁, htr⟩ := h
    obtain ⟨p₁, hptr⟩ := hp
    obtain ⟨hs', q₁⟩ := hstep _ _ _ hs h₁ p₁
    exact ⟨q₁, ih hs' htr hptr⟩

/-- **The exact rule**: `good` holds of every state and `kept` of every step of a trace,
    exactly if every step meets `safe`. -/
theorem along_iff (good : σ → Prop) (kept : σ → σ → Prop) (safe : σ → ε → Prop)
    (hinv : ∀ s e s', inv s → step s e s' → inv s')
    (hstep : ∀ s e s', inv s → good s → step s e s' → (good s' ∧ kept s s' ↔ safe s e)) {s : σ}
    {tr : List (ε × σ)} (hs : inv s) (hg : good s) (h : Exec step s tr) :
    Along (fun s _ s' => good s' ∧ kept s s') s tr ↔ Along (fun s e _ => safe s e) s tr := by
  induction tr generalizing s with
  | nil => exact Iff.rfl
  | cons x tr ih =>
    obtain ⟨h₁, htr⟩ := h
    have hiff := hstep _ _ _ hs hg h₁
    have hs' := hinv _ _ _ hs h₁
    constructor
    · intro hx
      obtain ⟨hgood, hrest⟩ := hx
      exact ⟨hiff.mp hgood, (ih hs' hgood.1 htr).mp hrest⟩
    · intro hx
      obtain ⟨hsafe, hrest⟩ := hx
      exact ⟨hiff.mpr hsafe, (ih hs' (hiff.mpr hsafe).1 htr).mpr hrest⟩

end Traces
