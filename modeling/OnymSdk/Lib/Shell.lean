/-
  File:      OnymSdk/Lib/Shell.lean
  Subject:   COMMANDS UNDER `set -e`, and rules of pre- and postconditions for them.

  * `Command` -- a command ends with a value or exits with an error, and leaves a state
    behind in both cases; `exit`, `check`, `modify`, `asks`, `forEach`;
  * `Triple` -- from the precondition it ends in the postcondition, or exits in the
    error condition;
  * one rule a command, each with its strongest postcondition; `Triple.forEach` -- **the
    loop rule**: an invariant of the items done so far;
  * `Triple.of_ok`, `Triple.of_error` -- from a triple to what a run leaves.
-/
import Mathlib.Tactic.Common

namespace Shell

universe u v w

variable {ε : Type u} {σ : Type v} {α β : Type w}

/-! ## 1. Commands -/

/-- A command: how it ends, and the state it leaves. -/
def Command (ε : Type u) (σ : Type v) (α : Type w) := σ → Except ε α × σ

instance : Monad (Command ε σ) where
  pure a := fun s => (.ok a, s)
  bind m k := fun s =>
    match m s with
    | (.ok a, s') => k a s'
    | (.error e, s') => (.error e, s')

/-- Exit with an error. -/
def exit (e : ε) : Command ε σ α := fun s => (.error e, s)

/-- `[ condition ] || exit`. -/
def check (p : σ → Prop) [DecidablePred p] (e : ε) : Command ε σ Unit := fun s =>
  if p s then (.ok (), s) else (.error e, s)

def modify (f : σ → σ) : Command ε σ Unit := fun s => (.ok (), f s)

def asks (f : σ → α) : Command ε σ α := fun s => (.ok (f s), s)

/-- A command on a part of the state. -/
def zoom {τ : Type v} (get : σ → τ) (set : τ → σ → σ) (m : Command ε τ α) : Command ε σ α :=
  fun s => ((m (get s)).1, set (m (get s)).2 s)

/-- `for x in xs; do body; done`. -/
def forEach : List α → (α → Command ε σ Unit) → Command ε σ Unit
  | [], _ => pure ()
  | x :: xs, body => do
    body x
    forEach xs body

/-! ## 2. Pre- and postconditions -/

/-- From `pre` the command ends in `post`, or exits in `err`. -/
def Triple (pre : σ → Prop) (m : Command ε σ α) (post : α → σ → Prop) (err : ε → σ → Prop) : Prop :=
  ∀ s, pre s →
    match m s with
    | (.ok a, s') => post a s'
    | (.error e, s') => err e s'

namespace Triple

variable {pre pre' : σ → Prop} {post post' : α → σ → Prop} {err err' : ε → σ → Prop}
  {m : Command ε σ α}

/-- A run that ends well ends in the postcondition ... -/
theorem of_ok (h : Triple pre m post err) {s s' : σ} {a : α} (hs : pre s) (hm : m s = (.ok a, s')) :
    post a s' := by
  have hx := h s hs
  rwa [hm] at hx

/-- ... and one that exits does so in the error condition. -/
theorem of_error (h : Triple pre m post err) {s s' : σ} {e : ε} (hs : pre s)
    (hm : m s = (.error e, s')) : err e s' := by
  have hx := h s hs
  rwa [hm] at hx

theorem mono (h : Triple pre m post err) (hpre : ∀ s, pre' s → pre s)
    (hpost : ∀ a s, post a s → post' a s) (herr : ∀ e s, err e s → err' e s) :
    Triple pre' m post' err' := by
  intro s hs
  have hx := h s (hpre s hs)
  split at hx
  · exact hpost _ _ hx
  · exact herr _ _ hx

/-- What holds after every good end. -/
theorem post_mono (h : Triple pre m post err) (hpost : ∀ a s, post a s → post' a s) :
    Triple pre m post' err :=
  h.mono (fun _ hs => hs) hpost fun _ _ he => he

/-- The error condition may be given up. -/
theorem any_error (h : Triple pre m post err) : Triple pre m post (fun _ _ => True) :=
  h.mono (fun _ hs => hs) (fun _ _ hs => hs) fun _ _ _ => trivial

/-- What holds before. -/
theorem pre_mono (h : Triple pre m post err) (hpre : ∀ s, pre' s → pre s) :
    Triple pre' m post err :=
  h.mono hpre (fun _ _ hs => hs) fun _ _ he => he

theorem pure {a : α} (h : ∀ s, pre s → post a s) :
    Triple pre (Pure.pure a : Command ε σ α) post err := h

theorem exit {e : ε} (h : ∀ s, pre s → err e s) :
    Triple pre (Shell.exit e : Command ε σ α) post err := h

theorem check {p : σ → Prop} [DecidablePred p] {e : ε} (h : ∀ s, pre s → ¬ p s → err e s) :
    Triple pre (Shell.check p e) (fun _ s => pre s ∧ p s) err := by
  intro s hs
  unfold Shell.check
  by_cases hp : p s
  · rw [if_pos hp]
    exact ⟨hs, hp⟩
  · rw [if_neg hp]
    exact h s hs hp

theorem modify {f : σ → σ} :
    Triple pre (Shell.modify f : Command ε σ Unit) (fun _ s => ∃ s₀, pre s₀ ∧ s = f s₀) err :=
  fun s hs => ⟨s, hs, rfl⟩

theorem asks {f : σ → α} :
    Triple pre (Shell.asks f : Command ε σ α) (fun a s => pre s ∧ a = f s) err :=
  fun _ hs => ⟨hs, rfl⟩

theorem bind {k : α → Command ε σ β} {post' : β → σ → Prop} (hm : Triple pre m post err)
    (hk : ∀ a, Triple (post a) (k a) post' err) : Triple pre (m >>= k) post' err := by
  intro s hs
  have hx := hm s hs
  show match (match m s with
    | (.ok a, s') => k a s'
    | (.error e, s') => (.error e, s')) with
    | (.ok b, s') => post' b s'
    | (.error e, s') => err e s'
  cases hms : m s with
  | mk r s' =>
    rw [hms] at hx
    cases r with
    | ok a => exact hk a s' hx
    | error e => exact hx

/-- A command on a part of the state, by what it does from that part. -/
theorem zoom {τ : Type v} {get : σ → τ} {set : τ → σ → σ} {m : Command ε τ α}
    {post : σ → α → τ → Prop} {err : σ → ε → τ → Prop}
    (h : ∀ s, pre s → Triple (fun x => x = get s) m (post s) (err s)) :
    Triple pre (Shell.zoom get set m) (fun a s => ∃ s₀ x, pre s₀ ∧ post s₀ a x ∧ s = set x s₀)
      (fun e s => ∃ s₀ x, pre s₀ ∧ err s₀ e x ∧ s = set x s₀) := by
  intro s hs
  have hx := h s hs (get s) rfl
  unfold Shell.zoom
  cases hm : m (get s) with
  | mk r x =>
    rw [hm] at hx
    cases r with
    | ok a => exact ⟨s, x, hs, hx, rfl⟩
    | error e => exact ⟨s, x, hs, hx, rfl⟩

/-- **The loop rule.** The invariant speaks of the items done so far; the body takes it from one
    prefix of the list to the next. -/
theorem forEach {xs : List α} {body : α → Command ε σ Unit} (inv : List α → σ → Prop)
    (h : ∀ done x rest, xs = done ++ x :: rest →
      Triple (inv done) (body x) (fun _ => inv (done ++ [x])) err) :
    Triple (inv []) (Shell.forEach xs body) (fun _ => inv xs) err := by
  have hgen : ∀ rest done, xs = done ++ rest →
      Triple (inv done) (Shell.forEach rest body) (fun _ => inv xs) err := by
    intro rest
    induction rest with
    | nil =>
      intro done e
      rw [List.append_nil] at e
      subst e
      exact Triple.pure fun _ hs => hs
    | cons x rest ih =>
      intro done e
      refine Triple.bind (h done x rest e) fun _ => ih (done ++ [x]) ?_
      rw [e, List.append_assoc, List.singleton_append]
  exact hgen xs [] rfl

end Triple

end Shell
