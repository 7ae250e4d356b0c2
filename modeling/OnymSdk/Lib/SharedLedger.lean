/-
  File:      OnymSdk/Lib/SharedLedger.lean
  Subject:   ONE LEDGER FOR MANY THREADS: programs over a shared allocator.

  Every thread has its own list of ledger operations, in which it numbers its
  allocations itself. A process interleaves the threads one operation at a time;
  its allocator gives each allocation the next number of the process.

  * `Process`, `Step` -- the process and its steps, in any order of the threads;
  * `Shadows` -- the shared ledger holds, under the process's numbers, exactly what
    the ledgers of the threads hold under theirs;
  * `step_shadows`, `steps_shadows` -- **if every thread keeps to its ledger on its
    own, every interleaving keeps to the shared one**.
-/
import OnymSdk.Lib.Ledger
import Mathlib.Data.List.Induction
import Mathlib.Logic.Relation

namespace Ledger

open Relation

variable {ι κ : Type}

/-! ## 1. The process -/

/-- A process: what each thread did, under its own numbers; the process's number of each
    allocation; how many numbers are given out; and what the process did. -/
structure Process (ι κ : Type) where
  own : ι → List (Op κ)
  name : ι → Nat → Nat
  count : Nat
  ops : List (Op κ)

/-- Before any thread took a step. -/
def Process.start (ι κ : Type) : Process ι κ := ⟨fun _ => [], fun _ n => n, 0, []⟩

/-- An operation under other numbers. -/
def Op.rename (f : Nat → Nat) : Op κ → Op κ
  | .handOut n k => .handOut (f n) k
  | .read n => .read (f n)
  | .free n k => .free (f n) k

/-- One operation of one thread, the next one of its program. -/
inductive Step [DecidableEq ι] (prog : ι → List (Op κ)) : Process ι κ → Process ι κ → Prop where
  | handOut {p i n k} (h : p.own i ++ [.handOut n k] <+: prog i) :
      Step prog p
        ⟨Function.update p.own i (p.own i ++ [.handOut n k]),
          Function.update p.name i (Function.update (p.name i) n p.count), p.count + 1,
          p.ops ++ [.handOut p.count k]⟩
  | use {p i o} (h : p.own i ++ [o] <+: prog i) (ho : ∀ n k, o ≠ .handOut n k) :
      Step prog p
        ⟨Function.update p.own i (p.own i ++ [o]), p.name, p.count,
          p.ops ++ [o.rename (p.name i)]⟩

/-- Any number of steps. -/
abbrev Steps [DecidableEq ι] (prog : ι → List (Op κ)) : Process ι κ → Process ι κ → Prop :=
  ReflTransGen (Step prog)

/-! ## 2. The shared ledger and the threads' -/

variable [DecidableEq κ]

/-- The shared ledger `b` and the ledgers `bs` of the threads are those of what was done, and
    an entry stands in the shared one exactly if it stands in that of one thread. -/
structure Shadows (p : Process ι κ) (b : Book κ) (bs : ι → Book κ) : Prop where
  own : ∀ i, run empty (p.own i) = some (bs i)
  shared : run empty p.ops = some b
  entry : ∀ i n, bs i n ≠ none → b (p.name i n) = bs i n
  alone : ∀ i n j m, bs i n ≠ none → bs j m ≠ none → p.name i n = p.name j m → i = j ∧ n = m
  owner : ∀ g, b g ≠ none → ∃ i n, bs i n ≠ none ∧ p.name i n = g
  fresh : ∀ g, p.count ≤ g → b g = none

theorem run_snoc (b : Book κ) (os : List (Op κ)) (o : Op κ) :
    run b (os ++ [o]) = (run b os).bind fun b' => step b' o := by
  rw [run_append]
  congr 1
  funext b'
  rw [run_cons]
  cases step b' o <;> rfl

/-- A part of an accepted program is accepted. -/
theorem run_of_prefix {os ps : List (Op κ)} {b b' : Book κ} (h : os <+: ps)
    (hp : run b ps = some b') : ∃ b₁, run b os = some b₁ := by
  obtain ⟨rest, rfl⟩ := h
  rw [run_append] at hp
  obtain ⟨b₁, hb, -⟩ := Option.bind_eq_some_iff.mp hp
  exact ⟨b₁, hb⟩

/-- What is on the ledger was handed out, and freed if it is on it as freed. -/
theorem mem_of_entry {os : List (Op κ)} {b : Book κ} (h : run empty os = some b) {i : Nat} {k : κ}
    {st : Status} (hi : b i = some (k, st)) :
    .handOut i k ∈ os ∧ (st = .freed → .free i k ∈ os) := by
  induction os using List.reverseRecOn generalizing b st with
  | nil =>
    cases h
    cases hi
  | append_singleton os o ih =>
    rw [run_snoc] at h
    obtain ⟨b₁, h₁, h₂⟩ := Option.bind_eq_some_iff.mp h
    have old : ∀ {st'}, b₁ i = some (k, st') →
        .handOut i k ∈ os ++ [o] ∧ (st' = .freed → .free i k ∈ os ++ [o]) := by
      intro st' hst
      obtain ⟨hh, hf⟩ := ih h₁ hst
      exact ⟨List.mem_append_left _ hh, fun e => List.mem_append_left _ (hf e)⟩
    rcases step_cases h₂ with ⟨j, l, rfl, -, rfl⟩ | ⟨j, l, rfl, -, rfl⟩ | ⟨j, l, rfl, hj, rfl⟩
    · by_cases hij : i = j
      · subst hij
        rw [Function.update_self] at hi
        cases hi
        exact ⟨by simp, fun e => by cases e⟩
      · rw [Function.update_of_ne hij] at hi
        exact old hi
    · exact old hi
    · by_cases hij : i = j
      · subst hij
        rw [Function.update_self] at hi
        cases hi
        exact ⟨(old hj).1, fun _ => by simp⟩
      · rw [Function.update_of_ne hij] at hi
        exact old hi

/-- A freed entry was freed exactly once. -/
theorem freed_once {os : List (Op κ)} {b : Book κ} (h : run empty os = some b) {i : Nat} {k : κ}
    (hi : b i = some (k, .freed)) : os.countP (frees i) = 1 ∧ .free i k ∈ os := by
  have hc := countP_frees h i
  rw [hi] at hc
  exact ⟨by simpa [empty, isFreed] using hc, (mem_of_entry h hi).2 rfl⟩

theorem shadows_start : Shadows (Process.start ι κ) empty (fun _ => empty) :=
  ⟨fun _ => rfl, rfl, fun _ _ h => absurd rfl h, fun _ _ _ _ h => absurd rfl h,
    fun _ h => absurd rfl h, fun _ _ => rfl⟩

section Steps

variable {p p' : Process ι κ} {b : Book κ} {bs : ι → Book κ}

/-- A thread's entry has a number that is given out. -/
theorem Shadows.name_lt (h : Shadows p b bs) {i : ι} {n : Nat} (hn : bs i n ≠ none) :
    p.name i n < p.count := by
  by_contra hge
  have hnone := h.fresh (p.name i n) (by omega)
  rw [h.entry i n hn] at hnone
  exact hn hnone

/-- A thread's next operation is one its own ledger accepts. -/
theorem Shadows.next (h : Shadows p b bs) {prog : ι → List (Op κ)} {i : ι} {o : Op κ} {b₁ : Book κ}
    (hacc : run empty (prog i) = some b₁) (ho : p.own i ++ [o] <+: prog i) :
    ∃ b', step (bs i) o = some b' ∧ run empty (p.own i ++ [o]) = some b' := by
  obtain ⟨b', hb⟩ := run_of_prefix ho hacc
  refine ⟨b', ?_, hb⟩
  rw [run_snoc, h.own i] at hb
  exact hb

variable [DecidableEq ι]

/-- The thread's ledger after a step, and that of the others. -/
theorem own_update {i : ι} {o : Op κ} {b' : Book κ} (h : Shadows p b bs)
    (hb : run empty (p.own i ++ [o]) = some b') (j : ι) :
    run empty (Function.update p.own i (p.own i ++ [o]) j) =
      some (Function.update bs i b' j) := by
  by_cases hj : j = i
  · subst hj
    rw [Function.update_self, Function.update_self, hb]
  · rw [Function.update_of_ne hj, Function.update_of_ne hj, h.own j]

/-- **A hand-out** enters the allocation in both ledgers, under a number nobody has. -/
theorem shadows_handOut (h : Shadows p b bs) {i : ι} {n : Nat} {k : κ}
    (hb : run empty (p.own i ++ [.handOut n k]) =
      some (Function.update (bs i) n (some (k, .live)))) :
    Shadows
      ⟨Function.update p.own i (p.own i ++ [.handOut n k]),
        Function.update p.name i (Function.update (p.name i) n p.count), p.count + 1,
        p.ops ++ [.handOut p.count k]⟩
      (Function.update b p.count (some (k, .live)))
      (Function.update bs i (Function.update (bs i) n (some (k, .live)))) := by
  have hfresh : b p.count = none := h.fresh p.count (Nat.le_refl _)
  -- entries and numbers other than the new ones stay
  have hbs : ∀ j m, ¬ (j = i ∧ m = n) →
      Function.update bs i (Function.update (bs i) n (some (k, .live))) j m = bs j m := by
    intro j m hne
    by_cases hj : j = i
    · subst hj
      rw [Function.update_self, Function.update_of_ne fun e => hne ⟨rfl, e⟩]
    · rw [Function.update_of_ne hj]
  have hname : ∀ j m, ¬ (j = i ∧ m = n) →
      Function.update p.name i (Function.update (p.name i) n p.count) j m = p.name j m := by
    intro j m hne
    by_cases hj : j = i
    · subst hj
      rw [Function.update_self, Function.update_of_ne fun e => hne ⟨rfl, e⟩]
    · rw [Function.update_of_ne hj]
  have hnew : Function.update p.name i (Function.update (p.name i) n p.count) i n = p.count := by
    rw [Function.update_self, Function.update_self]
  refine ⟨own_update h hb, ?_, ?_, ?_, ?_, ?_⟩
  · show run empty (p.ops ++ [.handOut p.count k]) = _
    rw [run_snoc, h.shared, Option.bind_some, step, if_pos hfresh]
  · intro j m hm
    show Function.update b p.count (some (k, .live))
      (Function.update p.name i (Function.update (p.name i) n p.count) j m) = _
    by_cases hjm : j = i ∧ m = n
    · obtain ⟨rfl, rfl⟩ := hjm
      rw [hnew, Function.update_self, Function.update_self, Function.update_self]
    · rw [hbs j m hjm] at hm ⊢
      rw [hname j m hjm, Function.update_of_ne (Nat.ne_of_lt (h.name_lt hm)), h.entry j m hm]
  · intro j m j' m' hm hm' e
    simp only at e
    by_cases hjm : j = i ∧ m = n <;> by_cases hjm' : j' = i ∧ m' = n
    · exact ⟨hjm.1.trans hjm'.1.symm, hjm.2.trans hjm'.2.symm⟩
    · obtain ⟨rfl, rfl⟩ := hjm
      rw [hbs j' m' hjm'] at hm'
      rw [hnew, hname j' m' hjm'] at e
      exact absurd (h.name_lt hm') (by omega)
    · obtain ⟨rfl, rfl⟩ := hjm'
      rw [hbs j m hjm] at hm
      rw [hnew, hname j m hjm] at e
      exact absurd (h.name_lt hm) (by omega)
    · rw [hbs j m hjm] at hm
      rw [hbs j' m' hjm'] at hm'
      rw [hname j m hjm, hname j' m' hjm'] at e
      exact h.alone j m j' m' hm hm' e
  · intro g hg
    by_cases hgc : g = p.count
    · subst hgc
      refine ⟨i, n, ?_, hnew⟩
      rw [Function.update_self, Function.update_self]
      exact Option.some_ne_none _
    · rw [Function.update_of_ne hgc] at hg
      obtain ⟨j, m, hm, hjm⟩ := h.owner g hg
      have hne : ¬ (j = i ∧ m = n) := by
        intro e
        obtain ⟨rfl, rfl⟩ := e
        -- the thread's own ledger has no entry for what it is just handed
        have hacc := hb
        rw [run_snoc, h.own j, Option.bind_some] at hacc
        simp [step, hm] at hacc
      exact ⟨j, m, by rw [hbs j m hne]; exact hm, (hname j m hne).trans hjm⟩
  · intro g hg
    have hlt : p.count + 1 ≤ g := hg
    rw [Function.update_of_ne (by omega), h.fresh g (by omega)]

/-- A use of an allocation has the same effect in both ledgers. -/
theorem shadows_use (h : Shadows p b bs) {i : ι} {o : Op κ} {b' : Book κ}
    (ho : ∀ n k, o ≠ .handOut n k) (hs : step (bs i) o = some b')
    (hb : run empty (p.own i ++ [o]) = some b') :
    ∃ c, Shadows ⟨Function.update p.own i (p.own i ++ [o]), p.name, p.count,
      p.ops ++ [o.rename (p.name i)]⟩ c (Function.update bs i b') := by
  rcases step_cases hs with ⟨n, k, rfl, -⟩ | ⟨n, k, rfl, hlive, rfl⟩ | ⟨n, k, rfl, hlive, rfl⟩
  · exact absurd rfl (ho n k)
  · have hg : b (p.name i n) = some (k, .live) := by
      rw [h.entry i n (by rw [hlive]; exact Option.some_ne_none _), hlive]
    rw [Function.update_eq_self]
    refine ⟨b, ⟨fun j => ?_, ?_, h.entry, h.alone, h.owner, h.fresh⟩⟩
    · have e := own_update h hb j
      rwa [Function.update_eq_self] at e
    · show run empty (p.ops ++ [.read (p.name i n)]) = some b
      rw [run_snoc, h.shared, Option.bind_some, step, hg]
  · have hn : bs i n ≠ none := by rw [hlive]; exact Option.some_ne_none _
    have hg : b (p.name i n) = some (k, .live) := by rw [h.entry i n hn, hlive]
    -- which entries there are does not change
    have hdom : ∀ j m,
        Function.update bs i (Function.update (bs i) n (some (k, .freed))) j m ≠ none ↔
          bs j m ≠ none := by
      intro j m
      by_cases hj : j = i
      · subst hj
        by_cases hm : m = n
        · subst hm
          simp [hn]
        · rw [Function.update_self, Function.update_of_ne hm]
      · rw [Function.update_of_ne hj]
    refine ⟨Function.update b (p.name i n) (some (k, .freed)),
      ⟨own_update h hb, ?_, ?_, ?_, ?_, ?_⟩⟩
    · show run empty (p.ops ++ [.free (p.name i n) k]) = _
      rw [run_snoc, h.shared, Option.bind_some, step, if_pos hg]
    · intro j m hm
      have hm := (hdom j m).mp hm
      show Function.update b (p.name i n) (some (k, .freed)) (p.name j m) = _
      by_cases hjm : j = i ∧ m = n
      · obtain ⟨rfl, rfl⟩ := hjm
        rw [Function.update_self, Function.update_self, Function.update_self]
      · have hne : p.name j m ≠ p.name i n := fun e => hjm (h.alone j m i n hm hn e)
        rw [Function.update_of_ne hne, h.entry j m hm]
        by_cases hj : j = i
        · subst hj
          rw [Function.update_self, Function.update_of_ne fun e => hjm ⟨rfl, e⟩]
        · rw [Function.update_of_ne hj]
    · intro j m j' m' hm hm' e
      exact h.alone j m j' m' ((hdom j m).mp hm) ((hdom j' m').mp hm') e
    · intro g hgn
      by_cases hgc : g = p.name i n
      · exact ⟨i, n, (hdom i n).mpr hn, hgc.symm⟩
      · rw [Function.update_of_ne hgc] at hgn
        obtain ⟨j, m, hm, hjm⟩ := h.owner g hgn
        exact ⟨j, m, (hdom j m).mpr hm, hjm⟩
    · intro g hge
      have hlt := h.name_lt hn
      have hge' : p.count ≤ g := hge
      rw [Function.update_of_ne (by omega), h.fresh g hge']

/-- **The step lemma.** -/
theorem step_shadows {prog : ι → List (Op κ)} (hacc : ∀ i, ∃ b, run empty (prog i) = some b)
    (h : Shadows p b bs) (hs : Step prog p p') : ∃ b' bs', Shadows p' b' bs' := by
  cases hs with
  | handOut hp =>
    rename_i i n k
    obtain ⟨b₁, hb₁⟩ := hacc i
    obtain ⟨b', hstep, hrun⟩ := h.next hb₁ hp
    rcases step_cases hstep with ⟨m, l, e, -, rfl⟩ | ⟨m, l, e, -⟩ | ⟨m, l, e, -⟩
    · cases e
      exact ⟨_, _, shadows_handOut h hrun⟩
    · cases e
    · cases e
  | use hp ho =>
    rename_i i o
    obtain ⟨b₁, hb₁⟩ := hacc i
    obtain ⟨b', hstep, hrun⟩ := h.next hb₁ hp
    obtain ⟨c, hc⟩ := shadows_use h ho hstep hrun
    exact ⟨c, _, hc⟩

/-- **The run lemma**: every interleaving of threads that keep to their own ledgers keeps to
    the shared one. -/
theorem steps_shadows {prog : ι → List (Op κ)} (hacc : ∀ i, ∃ b, run empty (prog i) = some b)
    (h : Shadows p b bs) (hs : Steps prog p p') : ∃ b' bs', Shadows p' b' bs' := by
  induction hs with
  | refl => exact ⟨b, bs, h⟩
  | tail _ hstep ih =>
    obtain ⟨b₁, bs₁, h₁⟩ := ih
    exact step_shadows hacc h₁ hstep

end Steps

/-- A live entry of the process is a live entry of a thread. -/
theorem Shadows.owner_of_live {p : Process ι κ} {b : Book κ} {bs : ι → Book κ} (h : Shadows p b bs)
    {g : Nat} {k : κ} (hg : b g = some (k, .live)) :
    ∃ i n, bs i n = some (k, .live) ∧ p.name i n = g := by
  obtain ⟨i, n, hn, rfl⟩ := h.owner g (by rw [hg]; exact Option.some_ne_none _)
  exact ⟨i, n, by rw [← h.entry i n hn, hg], rfl⟩

end Ledger
