/-
  File:      OnymSdk/Lib/FastForward.lean
  Subject:   FAST-FORWARD PUSHES: optimistic publication to a shared branch.

  A branch is its history, newest item first; the absent branch is `[]`. A push
  without force is accepted when it creates the branch or extends it.

  * `Accepts` -- the acceptance rule;
  * `accepts_cases` -- **no lost update**: one new item on top of a snapshot of
    the branch is accepted only if the branch did not move since the snapshot,
    or already is the pushed history.
-/
import Mathlib.Data.List.Infix
import Mathlib.Tactic.Common

namespace FastForward

variable {κ : Type}

/-- A push of `pushed` to a branch at `remote` is accepted. -/
def Accepts (remote pushed : List κ) : Prop := pushed ≠ [] ∧ remote <:+ pushed

instance [DecidableEq κ] (remote pushed : List κ) : Decidable (Accepts remote pushed) := by
  unfold Accepts
  infer_instance

/-- Creating the branch is always accepted. -/
theorem accepts_absent {pushed : List κ} (h : pushed ≠ []) : Accepts [] pushed :=
  ⟨h, List.nil_suffix⟩

/-- One more item on top of the branch is accepted. -/
theorem accepts_cons (c : κ) (remote : List κ) : Accepts remote (c :: remote) :=
  ⟨List.cons_ne_nil _ _, List.suffix_cons _ _⟩

/-- **No lost update.** -/
theorem accepts_cases {c : κ} {base remote : List κ} (hbase : base <:+ remote)
    (h : Accepts remote (c :: base)) : remote = base ∨ remote = c :: base := by
  rcases List.suffix_cons_iff.mp h.2 with e | hs
  · exact Or.inr e
  · exact Or.inl (hs.eq_of_length (Nat.le_antisymm hs.length_le hbase.length_le))

end FastForward
