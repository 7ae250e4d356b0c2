/-
  File:      OnymSdk/Threads.lean
  Subject:   OWNERSHIP under concurrent calls: many Java threads, one C allocator.

  Each thread calls exports one after the other, over its own `JNIEnv`; the C side
  hands out allocations of one heap. The operations of the threads interleave in
  any order.

  * `threadOps` -- what a thread does to C memory, in its calls;
  * `Between` -- a thread is not inside a call;
  * `threads_ledger` -- **in every interleaving** what is live belongs to a call in
    progress, the rest is freed exactly once by its own function, and nothing is
    read or freed again.
-/
import OnymSdk.Ownership
import OnymSdk.Lib.SharedLedger

namespace OnymSdk

open Ledger Relation

variable {t : Target} {ι : Type}

/-! ## 1. A thread -/

/-- What a thread that makes these calls does to C memory, under its own numbers. -/
def threadOps (calls : ι → List (Env t × ExportCall)) (i : ι) : List (Op Kind) :=
  (runCalls (calls i) {}).ops

/-- The thread has returned from every call it entered. -/
def Between (calls : ι → List (Env t × ExportCall)) (p : Process ι Kind) (i : ι) : Prop :=
  ∃ n, p.own i = (runCalls ((calls i).take n) {}).ops

/-- The allocation belongs to a thread that is inside a call. -/
def InProgress (calls : ι → List (Env t × ExportCall)) (p : Process ι Kind) (g : Nat) (k : Kind) :
    Prop :=
  ∃ i n, p.name i n = g ∧ .handOut n k ∈ p.own i ∧ ¬ Between calls p i

/-- After any calls of one thread nothing is live. -/
theorem runCalls_not_live (calls : List (Env t × ExportCall)) :
    ∃ b, run empty (runCalls calls {}).ops = some b ∧ ∀ n k, b n ≠ some (k, .live) := by
  obtain ⟨block, ho, hb⟩ := runCalls_settles calls ({} : BridgeState t)
  rw [ho]
  exact closed_run hb

/-! ## 2. All threads -/

variable {calls : ι → List (Env t × ExportCall)} {p : Process ι Kind} {b : Book Kind}
  {bs : ι → Book Kind}

/-- A thread between two calls has no live entry. -/
theorem Between.not_live {i : ι} (hi : Between calls p i) (h : Shadows p b bs) (n : Nat)
    (k : Kind) : bs i n ≠ some (k, .live) := by
  obtain ⟨m, hm⟩ := hi
  obtain ⟨b', hb', hlive⟩ := runCalls_not_live ((calls i).take m)
  have e := h.own i
  rw [hm, hb'] at e
  cases e
  exact hlive n k

/-- What is live belongs to a call in progress. -/
theorem inProgress_of_live (h : Shadows p b bs) {g : Nat} {k : Kind} (hg : b g = some (k, .live)) :
    InProgress calls p g k := by
  obtain ⟨i, n, hn, rfl⟩ := h.owner_of_live hg
  exact ⟨i, n, rfl, (mem_of_entry (h.own i) hn).1, fun hi => hi.not_live h n k hn⟩

/-- **Ownership over every interleaving of any number of threads.** The shared ledger accepts
    what the process does; what is live belongs to a call in progress; every other allocation
    is freed exactly once, by the function of its kind; and after a free nobody reads the
    allocation or frees it again. -/
theorem threads_ledger [DecidableEq ι] (calls : ι → List (Env t × ExportCall))
    (h : Steps (threadOps calls) (Process.start ι Kind) p) :
    (∃ b, run empty p.ops = some b ∧
      ∀ g k, b g = some (k, .live) → InProgress calls p g k) ∧
    (∀ g k, .handOut g k ∈ p.ops → InProgress calls p g k ∨
      (p.ops.countP (frees g) = 1 ∧ .free g k ∈ p.ops)) ∧
    ∀ pre g k post, p.ops = pre ++ .free g k :: post →
      .read g ∉ post ∧ ∀ l, .free g l ∉ post := by
  have hacc : ∀ i, ∃ b, run empty (threadOps calls i) = some b := by
    intro i
    obtain ⟨b, hb, -⟩ := runCalls_not_live (calls i)
    exact ⟨b, hb⟩
  obtain ⟨b, bs, hsh⟩ := steps_shadows hacc shadows_start h
  refine ⟨⟨b, hsh.shared, fun g k hg => inProgress_of_live hsh hg⟩, ?_, ?_⟩
  · intro g k hm
    obtain ⟨st, hst⟩ := handOut_kind hsh.shared hm
    cases st with
    | live => exact Or.inl (inProgress_of_live hsh hst)
    | freed => exact Or.inr (freed_once hsh.shared hst)
  · intro pre g k post e
    have hrun := hsh.shared
    rw [e] at hrun
    exact (run_after_free hrun).2

/-! ## 3. Two threads -/

/-- Two threads, each baking a verifying key of one byte. -/
def twoBakes (_ : Bool) : List (Env .w64 × ExportCall) :=
  [(.answering .w64 (.owned [7]), .bytes (.tyrannyBakeCreateVk 5))]

/-- Their calls overlap: the second thread is handed its buffer while the first reads its own. -/
theorem threads_ledger_two :
    ∃ p : Process Bool Kind, Steps (threadOps twoBakes) (Process.start Bool Kind) p ∧
      p.ops = [.handOut 0 .buffer, .handOut 1 .buffer, .read 0, .read 1, .free 1 .buffer,
        .free 0 .buffer] ∧
      ∀ g k, .handOut g k ∈ p.ops → InProgress twoBakes p g k ∨
        (p.ops.countP (frees g) = 1 ∧ .free g k ∈ p.ops) := by
  let prog : List (Op Kind) := [.handOut 0 .buffer, .read 0, .free 0 .buffer]
  have hprog : ∀ i, threadOps twoBakes i = prog := fun i => by cases i <;> decide
  have next : ∀ i os, os <+: prog → os <+: threadOps twoBakes i := fun i os h => by
    rw [hprog]
    exact h
  have h₁ := ReflTransGen.refl.tail (Step.handOut (p := Process.start Bool Kind) (i := false)
    (n := 0) (k := .buffer) (next _ _ (by decide)))
  have h₂ := h₁.tail (.handOut (i := true) (n := 0) (k := .buffer) (next _ _ (by decide)))
  have h₃ := h₂.tail (.use (i := false) (o := .read 0) (next _ _ (by decide)) (by simp))
  have h₄ := h₃.tail (.use (i := true) (o := .read 0) (next _ _ (by decide)) (by simp))
  have h₅ := h₄.tail (.use (i := true) (o := .free 0 .buffer) (next _ _ (by decide)) (by simp))
  have h₆ := h₅.tail (.use (i := false) (o := .free 0 .buffer) (next _ _ (by decide)) (by simp))
  exact ⟨_, h₆, rfl, (threads_ledger twoBakes h₆).2.1⟩

end OnymSdk
