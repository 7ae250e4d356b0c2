/-
  File:      OnymSdk/Lib/Ledger.lean
  Subject:   THE OWNERSHIP LEDGER: resources handed out, read and freed.

  A run of a program over resources that another party hands out is a list of
  `Op`s. The ledger (`Book`) says of each handle whether it is unknown, live or
  freed, and under which kind. `step` is the discipline: a fresh handle is
  handed out, a live one is read, a live one is freed under its own kind; it
  answers `none` on a read after free, a double free or a free by the wrong
  function. `run` folds it.

  * `no_read_after_free`, `frees_once` -- what an accepted run with no live
    entry left guarantees about the list of operations itself;
  * `Closed lo hi ops` -- `ops` hands out exactly the handles `lo .. hi-1` and
    frees every one of them again, over any ledger that does not know them;
    closed blocks compose (`closed_append`), which is the rule for a run made
    of calls.
-/
import Mathlib.Logic.Function.Basic
import Mathlib.Tactic.Common

namespace Ledger

variable {κ : Type} [DecidableEq κ]

/-! ## 1. Operations and the ledger -/

/-- One thing that happens to a resource; the kind says which free function
    it belongs to. -/
inductive Op (κ : Type) where
  | handOut (i : Nat) (k : κ)
  | read (i : Nat)
  | free (i : Nat) (k : κ)
  deriving DecidableEq, Repr

/-- What became of a resource that was handed out. -/
inductive Status where
  | live
  | freed
  deriving DecidableEq, Repr

/-- The ledger: the entry of each handle, `none` for one never handed out. -/
abbrev Book (κ : Type) := Nat → Option (κ × Status)

/-- The ledger before anything was handed out. -/
def empty : Book κ := fun _ => none

/-- The discipline, one operation at a time: `none` is a breach. -/
def step (b : Book κ) : Op κ → Option (Book κ)
  | .handOut i k => if b i = none then some (Function.update b i (some (k, .live))) else none
  | .read i => match b i with
    | some (_, .live) => some b
    | _ => none
  | .free i k =>
    if b i = some (k, .live) then some (Function.update b i (some (k, .freed))) else none

/-- The ledger after a list of operations, `none` once one breaches. -/
def run (b : Book κ) : List (Op κ) → Option (Book κ)
  | [] => some b
  | o :: os => (step b o).bind fun b' => run b' os

@[simp] theorem run_nil (b : Book κ) : run b [] = some b := rfl

theorem run_cons (b : Book κ) (o : Op κ) (os : List (Op κ)) :
    run b (o :: os) = (step b o).bind fun b' => run b' os := rfl

theorem run_append (b : Book κ) (os ps : List (Op κ)) :
    run b (os ++ ps) = (run b os).bind fun b' => run b' ps := by
  induction os generalizing b with
  | nil => rfl
  | cons o os ih =>
    rw [List.cons_append, run_cons, run_cons]
    cases step b o with
    | none => rfl
    | some b' => exact ih b'

/-- An accepted run of a nonempty list takes its first step. -/
theorem run_cons_some {b b' : Book κ} {o : Op κ} {os : List (Op κ)}
    (h : run b (o :: os) = some b') : ∃ b₁, step b o = some b₁ ∧ run b₁ os = some b' := by
  rw [run_cons] at h
  exact Option.bind_eq_some_iff.mp h

/-- **What one accepted operation does**, guards included. -/
theorem step_cases {b b' : Book κ} {o : Op κ} (h : step b o = some b') :
    (∃ i k, o = .handOut i k ∧ b i = none ∧ b' = Function.update b i (some (k, .live))) ∨
    (∃ i k, o = .read i ∧ b i = some (k, .live) ∧ b' = b) ∨
    (∃ i k, o = .free i k ∧ b i = some (k, .live) ∧
      b' = Function.update b i (some (k, .freed))) := by
  cases o with
  | handOut i k =>
    simp only [step] at h
    split at h
    · rename_i hi
      exact Or.inl ⟨i, k, rfl, hi, by simpa using h.symm⟩
    · cases h
  | read i =>
    simp only [step] at h
    split at h
    · rename_i k hi
      exact Or.inr (Or.inl ⟨i, k, rfl, hi, by simpa using h.symm⟩)
    · cases h
  | free i k =>
    simp only [step] at h
    split at h
    · rename_i hi
      exact Or.inr (Or.inr ⟨i, k, rfl, hi, by simpa using h.symm⟩)
    · cases h

/-! ## 2. What an accepted run says about its operations -/

/-- An entry keeps its kind over one operation. -/
theorem step_kind {b b' : Book κ} {o : Op κ} (h : step b o = some b') {i : Nat} {k : κ}
    {st : Status} (hi : b i = some (k, st)) : ∃ st', b' i = some (k, st') := by
  rcases step_cases h with ⟨j, l, -, hj, rfl⟩ | ⟨j, l, -, -, rfl⟩ | ⟨j, l, -, hj, rfl⟩
  · have hne : i ≠ j := by rintro rfl; rw [hi] at hj; cases hj
    exact ⟨st, by rw [Function.update_of_ne hne, hi]⟩
  · exact ⟨st, hi⟩
  · by_cases hij : i = j
    · subst hij
      rw [hi] at hj
      cases hj
      exact ⟨.freed, by rw [Function.update_self]⟩
    · exact ⟨st, by rw [Function.update_of_ne hij, hi]⟩

/-- An entry keeps its kind over a run. -/
theorem run_kind {os : List (Op κ)} {b b' : Book κ} (h : run b os = some b') {i : Nat} {k : κ}
    {st : Status} (hi : b i = some (k, st)) : ∃ st', b' i = some (k, st') := by
  induction os generalizing b st with
  | nil => cases h; exact ⟨st, hi⟩
  | cons o os ih =>
    obtain ⟨b₁, h1, h2⟩ := run_cons_some h
    obtain ⟨st₁, hi₁⟩ := step_kind h1 hi
    exact ih h2 hi₁

/-- What was handed out is on the ledger under its kind. -/
theorem handOut_kind {os : List (Op κ)} {b b' : Book κ} (h : run b os = some b') {i : Nat}
    {k : κ} (hm : Op.handOut i k ∈ os) : ∃ st, b' i = some (k, st) := by
  induction os generalizing b with
  | nil => cases hm
  | cons o os ih =>
    obtain ⟨b₁, h1, h2⟩ := run_cons_some h
    rcases List.mem_cons.mp hm with rfl | hm
    · rcases step_cases h1 with ⟨j, l, e, _, rfl⟩ | ⟨j, l, e, _⟩ | ⟨j, l, e, _⟩
      · cases e
        exact run_kind h2 (Function.update_self ..)
      · cases e
      · cases e
    · exact ih h2 hm

/-- A freed entry stays freed, and nothing more happens to its handle. -/
theorem run_freed {os : List (Op κ)} {b b' : Book κ} (h : run b os = some b') {i : Nat} {k : κ}
    (hi : b i = some (k, .freed)) :
    b' i = some (k, .freed) ∧ Op.read i ∉ os ∧ ∀ l, Op.free i l ∉ os := by
  induction os generalizing b with
  | nil => cases h; exact ⟨hi, List.not_mem_nil, fun _ => List.not_mem_nil⟩
  | cons o os ih =>
    obtain ⟨b₁, h1, h2⟩ := run_cons_some h
    obtain ⟨j, l, rfl, hj, rfl⟩ | ⟨j, l, rfl, hj, rfl⟩ | ⟨j, l, rfl, hj, rfl⟩ := step_cases h1
    all_goals
      have hne : i ≠ j := by rintro rfl; rw [hi] at hj; cases hj
    · obtain ⟨e, hr, hf⟩ := ih h2 (by rw [Function.update_of_ne hne, hi])
      exact ⟨e, by simp [hr], by simp [hf]⟩
    · obtain ⟨e, hr, hf⟩ := ih h2 hi
      exact ⟨e, by simp [hr, hne], by simp [hf]⟩
    · obtain ⟨e, hr, hf⟩ := ih h2 (by rw [Function.update_of_ne hne, hi])
      exact ⟨e, by simp [hr], by simp [hf, hne]⟩

/-- A free moves the entry to freed, under the kind it was freed by. -/
theorem run_after_free {b b' : Book κ} {pre post : List (Op κ)} {i : Nat} {k : κ}
    (h : run b (pre ++ .free i k :: post) = some b') :
    b' i = some (k, .freed) ∧ Op.read i ∉ post ∧ ∀ l, Op.free i l ∉ post := by
  rw [run_append] at h
  obtain ⟨b₁, _, h2⟩ := Option.bind_eq_some_iff.mp h
  obtain ⟨b₂, h3, h4⟩ := run_cons_some h2
  rcases step_cases h3 with ⟨j, l, e, _⟩ | ⟨j, l, e, _⟩ | ⟨j, l, e, _, rfl⟩
  · cases e
  · cases e
  · cases e
    exact run_freed h4 (Function.update_self ..)

/-- **No read after free.** -/
theorem no_read_after_free {b b' : Book κ} {pre post : List (Op κ)} {i : Nat} {k : κ}
    (h : run b (pre ++ .free i k :: post) = some b') : Op.read i ∉ post :=
  (run_after_free h).2.1

/-- Does an operation pass handle `i` to a free function? -/
def frees (i : Nat) : Op κ → Bool
  | .free j _ => i == j
  | _ => false

/-- Is the entry a freed one? -/
def isFreed : Option (κ × Status) → Nat
  | some (_, .freed) => 1
  | _ => 0

/-- The ledger counts the frees of a handle. -/
theorem countP_frees {os : List (Op κ)} {b b' : Book κ} (h : run b os = some b') (i : Nat) :
    os.countP (frees i) + isFreed (b i) = isFreed (b' i) := by
  induction os generalizing b with
  | nil => cases h; simp
  | cons o os ih =>
    obtain ⟨b₁, h1, h2⟩ := run_cons_some h
    have ih := ih h2
    obtain ⟨j, l, rfl, hj, rfl⟩ | ⟨j, l, rfl, hj, rfl⟩ | ⟨j, l, rfl, hj, rfl⟩ := step_cases h1
    · by_cases hij : i = j
      · subst hij
        rw [Function.update_self] at ih
        simpa [List.countP_cons, frees, hj, isFreed] using ih
      · rw [Function.update_of_ne hij] at ih
        simpa [List.countP_cons, frees] using ih
    · simpa [List.countP_cons, frees] using ih
    · by_cases hij : i = j
      · subst hij
        rw [Function.update_self] at ih
        simpa [List.countP_cons, frees, hj, isFreed] using ih
      · rw [Function.update_of_ne hij] at ih
        simpa [List.countP_cons, frees, hij] using ih

/-- **Exactly one free, by the right function**: a resource handed out in an
    accepted run that leaves nothing live. -/
theorem frees_once {os : List (Op κ)} {b : Book κ} (h : run empty os = some b)
    (hlive : ∀ i k, b i ≠ some (k, .live)) {i : Nat} {k : κ} (hm : Op.handOut i k ∈ os) :
    os.countP (frees i) = 1 ∧ Op.free i k ∈ os := by
  obtain ⟨st, hst⟩ := handOut_kind h hm
  have hfreed : b i = some (k, .freed) := by
    cases st with
    | live => exact absurd hst (hlive i k)
    | freed => exact hst
  have hone : os.countP (frees i) = 1 := by
    have hc := countP_frees h i
    rw [hfreed] at hc
    simpa [empty, isFreed] using hc
  refine ⟨hone, ?_⟩
  obtain ⟨o, ho, hf⟩ := List.countP_pos_iff.mp (by rw [hone]; exact Nat.one_pos)
  match o, hf with
  | .free j l, hf =>
    obtain rfl : i = j := by simpa [frees] using hf
    obtain ⟨pre, post, rfl⟩ := List.append_of_mem ho
    have e := (run_after_free h).1
    rw [hfreed] at e
    cases e
    exact ho

/-! ## 3. Closed blocks -/

/-- `ops` hands out exactly the handles `lo .. hi-1`, frees all of them again and
    touches nothing else -- over every ledger that knows no handle from `lo` on. -/
def Closed (lo hi : Nat) (ops : List (Op κ)) : Prop :=
  lo ≤ hi ∧ ∀ b : Book κ, (∀ i, lo ≤ i → b i = none) →
    ∃ b', run b ops = some b' ∧ (∀ i, i < lo → b' i = b i) ∧
      (∀ i, lo ≤ i → i < hi → ∃ k, b' i = some (k, .freed)) ∧ ∀ i, hi ≤ i → b' i = none

theorem closed_nil (lo : Nat) : Closed lo lo ([] : List (Op κ)) :=
  ⟨Nat.le_refl lo, fun b hb => ⟨b, rfl, fun _ _ => rfl, fun _ _ _ => by omega, hb⟩⟩

/-- **Closed blocks compose.** -/
theorem closed_append {lo mid hi : Nat} {os ps : List (Op κ)} (h1 : Closed lo mid os)
    (h2 : Closed mid hi ps) : Closed lo hi (os ++ ps) := by
  refine ⟨Nat.le_trans h1.1 h2.1, fun b hb => ?_⟩
  obtain ⟨b₁, r1, old1, new1, fresh1⟩ := h1.2 b hb
  obtain ⟨b₂, r2, old2, new2, fresh2⟩ := h2.2 b₁ fresh1
  have hle := h1.1
  refine ⟨b₂, by rw [run_append, r1]; exact r2, fun i hi => ?_, fun i hlo hhi => ?_, fresh2⟩
  · rw [old2 i (by omega), old1 i hi]
  · by_cases hmid : i < mid
    · rw [old2 i hmid]
      exact new1 i hlo hmid
    · exact new2 i (by omega) hhi

/-- A closed block over the empty ledger leaves nothing live. -/
theorem closed_run {n : Nat} {os : List (Op κ)} (h : Closed 0 n os) :
    ∃ b, run empty os = some b ∧ ∀ i k, b i ≠ some (k, .live) := by
  obtain ⟨b, hr, _, hnew, hfresh⟩ := h.2 empty (fun _ _ => rfl)
  refine ⟨b, hr, fun i k hi => ?_⟩
  by_cases hlt : i < n
  · obtain ⟨k', hk⟩ := hnew i (Nat.zero_le i) hlt
    rw [hk] at hi
    cases hi
  · rw [hfresh i (by omega)] at hi
    cases hi

/-! ## 4. The bracket: hand out, read, free -/

/-- `m` resources handed out under the handles from `lo` on. -/
def handOutAll (k : κ) (lo m : Nat) : List (Op κ) := (List.range' lo m).map (.handOut · k)

/-- The same resources freed, in the same order. -/
def freeAll (k : κ) (lo m : Nat) : List (Op κ) := (List.range' lo m).map (.free · k)

/-- The ledger with one entry written over a range of handles. -/
def setRange (b : Book κ) (lo m : Nat) (e : κ × Status) : Book κ := fun i =>
  if lo ≤ i ∧ i < lo + m then some e else b i

omit [DecidableEq κ] in
theorem setRange_zero (b : Book κ) (lo : Nat) (e : κ × Status) : setRange b lo 0 e = b := by
  funext i
  exact if_neg (by omega)

omit [DecidableEq κ] in
theorem setRange_succ (b : Book κ) (lo m : Nat) (e : κ × Status) :
    setRange (Function.update b lo (some e)) (lo + 1) m e = setRange b lo (m + 1) e := by
  funext i
  unfold setRange
  by_cases h : i = lo
  · subst h
    rw [if_neg (by omega), if_pos (by omega), Function.update_self]
  · rw [Function.update_of_ne h]
    by_cases hr : lo + 1 ≤ i ∧ i < lo + 1 + m
    · rw [if_pos hr, if_pos (by omega)]
    · rw [if_neg hr, if_neg (by omega)]

theorem run_handOutAll (k : κ) (m : Nat) {lo : Nat} {b : Book κ}
    (hb : ∀ i, lo ≤ i → b i = none) :
    run b (handOutAll k lo m) = some (setRange b lo m (k, .live)) := by
  induction m generalizing lo b with
  | zero => simp [handOutAll, setRange_zero]
  | succ m ih =>
    have h0 : step b (.handOut lo k) = some (Function.update b lo (some (k, .live))) := by
      simp [step, hb lo (Nat.le_refl lo)]
    have ih := @ih (lo + 1) (Function.update b lo (some (k, .live))) fun i hi => by
      rw [Function.update_of_ne (by omega), hb i (by omega)]
    rw [handOutAll, List.range'_succ, List.map_cons, run_cons, h0, Option.bind_some, ← handOutAll,
      ih, setRange_succ]

theorem run_reads {rs : List Nat} {b : Book κ} (h : ∀ i ∈ rs, ∃ k, b i = some (k, .live)) :
    run b (rs.map .read) = some b := by
  induction rs with
  | nil => rfl
  | cons r rs ih =>
    obtain ⟨k, hk⟩ := h r List.mem_cons_self
    rw [List.map_cons, run_cons, step, hk]
    exact ih fun i hi => h i (List.mem_cons_of_mem _ hi)

theorem run_freeAll (k : κ) (m : Nat) {lo : Nat} {b : Book κ}
    (hb : ∀ i, lo ≤ i → i < lo + m → b i = some (k, .live)) :
    run b (freeAll k lo m) = some (setRange b lo m (k, .freed)) := by
  induction m generalizing lo b with
  | zero => simp [freeAll, setRange_zero]
  | succ m ih =>
    have h0 : step b (.free lo k) = some (Function.update b lo (some (k, .freed))) := by
      simp [step, hb lo (Nat.le_refl lo) (by omega)]
    have ih := @ih (lo + 1) (Function.update b lo (some (k, .freed))) fun i h1 h2 => by
      rw [Function.update_of_ne (by omega), hb i (by omega) (by omega)]
    rw [freeAll, List.range'_succ, List.map_cons, run_cons, h0, Option.bind_some, ← freeAll, ih,
      setRange_succ]

/-- The kinds of what was handed out, in order. -/
def handOuts (os : List (Op κ)) : List κ := os.filterMap fun
  | .handOut _ k => some k
  | _ => none

omit [DecidableEq κ] in
@[simp] theorem handOuts_append (os ps : List (Op κ)) :
    handOuts (os ++ ps) = handOuts os ++ handOuts ps := List.filterMap_append

omit [DecidableEq κ] in
theorem handOuts_handOutAll (k : κ) (lo m : Nat) :
    handOuts (handOutAll k lo m) = List.replicate m k := by
  induction m generalizing lo with
  | zero => rfl
  | succ m ih =>
    rw [handOutAll, List.range'_succ, List.map_cons, List.replicate_succ, ← ih (lo + 1)]
    rfl

omit [DecidableEq κ] in
/-- A bracket hands out its range. -/
theorem handOuts_bracket (k : κ) (lo m : Nat) (rs : List Nat) :
    handOuts (handOutAll k lo m ++ (rs.map .read ++ freeAll k lo m)) = List.replicate m k := by
  have hreads : handOuts (rs.map .read : List (Op κ)) = [] := by
    simp [handOuts, List.filterMap_map]
  have hfrees : handOuts (freeAll k lo m) = [] := by
    simp [handOuts, freeAll, List.filterMap_map]
  rw [handOuts_append, handOuts_append, hreads, hfrees, handOuts_handOutAll, List.append_nil,
    List.append_nil]

/-- **The bracket is closed**: hand out a range, read any of it, free the range. -/
theorem closed_bracket (k : κ) (lo m : Nat) (rs : List Nat)
    (hrs : ∀ i ∈ rs, lo ≤ i ∧ i < lo + m) :
    Closed lo (lo + m) (handOutAll k lo m ++ (rs.map .read ++ freeAll k lo m)) := by
  refine ⟨by omega, fun b hb => ?_⟩
  have hlive : ∀ i, lo ≤ i → i < lo + m → setRange b lo m (k, .live) i = some (k, .live) :=
    fun i h1 h2 => if_pos ⟨h1, h2⟩
  have hrun : run b (handOutAll k lo m ++ (rs.map .read ++ freeAll k lo m)) =
      some (setRange (setRange b lo m (k, .live)) lo m (k, .freed)) := by
    rw [run_append, run_handOutAll k m hb, Option.bind_some, run_append,
      run_reads fun i hi => ⟨k, hlive i (hrs i hi).1 (hrs i hi).2⟩, Option.bind_some,
      run_freeAll k m hlive]
  refine ⟨_, hrun, fun i hi => ?_, fun i h1 h2 => ⟨k, if_pos ⟨h1, h2⟩⟩, fun i hi => ?_⟩
  · unfold setRange
    rw [if_neg (by omega), if_neg (by omega)]
  · unfold setRange
    rw [if_neg (by omega), if_neg (by omega), hb i (by omega)]

end Ledger
