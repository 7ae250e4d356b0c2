/-
  File:      OnymSdk/Release/Branch.lean
  Subject:   THE RELEASES BRANCH under concurrent and interrupted publishes.

  Any number of runs of the script, each from its own fresh clone, take their
  steps in any order; each can be abandoned at any step, and a lookup that fails
  counts as an absent branch.

  * `Step` -- the steps: look up, stage, regenerate, commit, push;
  * `Inv` -- what every reachable state satisfies; a run's tree is always
    prepared from a snapshot of the branch;
  * `step_inv` -- the step lemma; the push is the only step that moves the branch;
  * `releases_branch` -- **no version is lost, each holds the files of its last
    accepted run, and the metadata is consistent**.
-/
import OnymSdk.Release.Publish
import OnymSdk.Lib.FastForward
import Mathlib.Logic.Relation

namespace OnymSdk.Release

open FastForward Relation

/-! ## 1. The system -/

/-- Where a run is. -/
inductive Phase where
  | queued
  | checkedOut (base : History)
  | staged (base : History) (tree : Tree)
  | regenerated (base : History) (tree : Tree)
  | committed (history : History)
  | ended

/-- The remote branch, the runs, and the runs whose push was accepted, newest first. -/
structure System (ι : Type) where
  remote : History
  phase : ι → Phase
  accepted : List ι

/-- Before anything was published. -/
def initial (ι : Type) : System ι := ⟨[], fun _ => .queued, []⟩

section System

variable {ι : Type}

def System.move [DecidableEq ι] (s : System ι) (i : ι) (p : Phase) : System ι :=
  { s with phase := Function.update s.phase i p }

@[simp] theorem phase_move [DecidableEq ι] (s : System ι) (i : ι) (p : Phase) :
    (s.move i p).phase i = p := by
  simp [System.move]

/-- One step of one run. -/
inductive Step [DecidableEq ι] (tools : Tools) (args : ι → Args) : System ι → System ι → Prop where
  | lookUp {s i} (hi : s.phase i = .queued) (hr : s.remote ≠ []) :
      Step tools args s (s.move i (.checkedOut s.remote))
  -- the branch is not there, or the lookup failed
  | lookUpAbsent {s i} (hi : s.phase i = .queued) :
      Step tools args s (s.move i (.checkedOut []))
  | stage {s i base} (hi : s.phase i = .checkedOut base) (hf : (args i).files ≠ ∅) :
      Step tools args s (s.move i (.staged base
        (stage (args i).version (args i).files (checkedOut (args i) base))))
  | regenerate {s i base tree tree' now} (hi : s.phase i = .staged base tree)
      (h : regenerate tools now tree = some tree') :
      Step tools args s (s.move i (.regenerated base tree'))
  | commit {s i base tree stamp} (hi : s.phase i = .regenerated base tree)
      (hc : Changes base tree) :
      Step tools args s
        (s.move i (.committed (⟨tree, commitMessage (args i).version, stamp⟩ :: base)))
  | noChanges {s i base tree} (hi : s.phase i = .regenerated base tree)
      (hc : ¬ Changes base tree) : Step tools args s (s.move i .ended)
  | push {s i history} (hi : s.phase i = .committed history) (ha : Accepts s.remote history) :
      Step tools args s { s.move i .ended with remote := history, accepted := i :: s.accepted }
  | rejected {s i history} (hi : s.phase i = .committed history)
      (ha : ¬ Accepts s.remote history) : Step tools args s (s.move i .ended)
  | abandon {s i} : Step tools args s (s.move i .ended)

/-- Any number of steps, in any order. -/
abbrev Steps [DecidableEq ι] (tools : Tools) (args : ι → Args) :
    System ι → System ι → Prop :=
  ReflTransGen (Step tools args)

/-- The files staged by the last accepted run for the version of that name. -/
def lastAccepted (args : ι → Args) (accepted : List ι) (n : String) : Option Files :=
  (accepted.find? fun i => (args i).version.name = n).map fun i => (args i).files

/-! ## 2. The invariant -/

/-- A run's tree is what the script makes of a snapshot of the branch. -/
def PhaseOk (tools : Tools) (a : Args) (remote : History) : Phase → Prop
  | .queued | .ended => True
  | .checkedOut base => base <:+ remote
  | .staged base tree => base <:+ remote ∧ tree = stage a.version a.files (checkedOut a base)
  | .regenerated base tree => base <:+ remote ∧ Prepared tools a (checkedOut a base) tree
  | .committed history => ∃ c base, history = c :: base ∧ base <:+ remote ∧
      Prepared tools a (checkedOut a base) c.tree

theorem phaseOk_mono {tools : Tools} {a : Args} {remote remote' : History} (h : remote <:+ remote')
    {p : Phase} (hp : PhaseOk tools a remote p) : PhaseOk tools a remote' p := by
  cases p with
  | queued | ended => trivial
  | checkedOut base => exact hp.trans h
  | staged base tree => exact ⟨hp.1.trans h, hp.2⟩
  | regenerated base tree => exact ⟨hp.1.trans h, hp.2⟩
  | committed history =>
    obtain ⟨c, base, e, hb, ht⟩ := hp
    exact ⟨c, base, e, hb.trans h, ht⟩

/-- What every reachable state satisfies. -/
structure Inv (tools : Tools) (args : ι → Args) (s : System ι) : Prop where
  phases : ∀ i, PhaseOk tools (args i) s.remote (s.phase i)
  commits : ∀ c ∈ s.remote, OnlyVersions c.tree ∧ ∃ text, Consistent tools c.tree text
  ruleless : ∀ c ∈ s.remote, Ruleless c.tree
  contents : ∀ n, dirAt s.remote n = lastAccepted args s.accepted n

variable {tools : Tools} {args : ι → Args} {s s' : System ι}

theorem inv_initial : Inv tools args (initial ι) :=
  ⟨fun _ => trivial, fun _ h => absurd h List.not_mem_nil, fun _ h => absurd h List.not_mem_nil,
    fun _ => rfl⟩

theorem phaseOk_of (h : Inv tools args s) {i : ι} {p : Phase} (hi : s.phase i = p) :
    PhaseOk tools (args i) s.remote p := hi ▸ h.phases i

/-- The snapshots a run starts from hold version directories only. -/
theorem onlyVersions_checkedOut (h : Inv tools args s) (a : Args) {base : History}
    (hb : base <:+ s.remote) : OnlyVersions (checkedOut a base) := by
  cases base with
  | nil => exact onlyVersions_orphanTree a
  | cons c rest => exact (h.commits c (hb.subset List.mem_cons_self)).1

/-- Nor do they hold ignore rules or attributes. -/
theorem Inv.ruleless_treeOf (h : Inv tools args s) {base : History} (hb : base <:+ s.remote) :
    Ruleless (treeOf base) := by
  cases base with
  | nil => exact ruleless_empty
  | cons c rest => exact h.ruleless c (hb.subset List.mem_cons_self)

/-- A version with an accepted run keeps one. -/
theorem lastAccepted_mono {l l' : List ι} (h : l <:+ l') {n : String} {files : Files}
    (hl : lastAccepted args l n = some files) : ∃ files', lastAccepted args l' n = some files' := by
  obtain ⟨i, hi, -⟩ := Option.map_eq_some_iff.mp hl
  have hname := List.find?_some hi
  have hfound : (l'.find? fun i => (args i).version.name = n).isSome := by
    rw [List.find?_isSome]
    exact ⟨i, h.subset (List.mem_of_find?_eq_some hi), hname⟩
  obtain ⟨k, hk⟩ := Option.isSome_iff_exists.mp hfound
  exact ⟨(args k).files, by rw [lastAccepted, hk]; rfl⟩

variable [DecidableEq ι]

/-- A step that only moves a run keeps the invariant if the run's new phase is in order. -/
theorem inv_move (h : Inv tools args s) {i : ι} {p : Phase}
    (hp : PhaseOk tools (args i) s.remote p) : Inv tools args (s.move i p) := by
  refine ⟨?_, h.commits, h.ruleless, h.contents⟩
  intro j
  by_cases hj : j = i
  · subst hj
    simpa [System.move] using hp
  · simpa [System.move, Function.update_of_ne hj] using h.phases j

/-- **An accepted push** keeps the invariant: it extends the branch by the run's commit
    on top of the very history the run started from, or the branch is there already. -/
theorem inv_push (h : Inv tools args s) {i : ι} {history : History}
    (hi : s.phase i = .committed history) (ha : Accepts s.remote history) :
    Inv tools args { s.move i .ended with remote := history, accepted := i :: s.accepted } := by
  obtain ⟨c, base, rfl, hbase, hprep⟩ := phaseOk_of h hi
  obtain ⟨hdir, hother, -⟩ := prepared_spec hprep
  have hcons := prepared_consistent (onlyVersions_checkedOut h (args i) hbase) hprep
  -- every other directory is the one the branch had before the push
  have hrest : ∀ n, n ≠ (args i).version.name → c.tree.dir? n = dirAt s.remote n := by
    intro n hn
    rcases accepts_cases hbase ha with e | e
    · rw [hother n hn, e, dirAt_checkedOut]
    · rw [e]
      rfl
  refine ⟨?_, ?_, ?_, ?_⟩
  · intro j
    exact phaseOk_mono ha.2 ((inv_move (p := .ended) h trivial).phases j)
  · intro d hd
    rcases List.mem_cons.mp hd with rfl | hd
    · exact hcons
    · exact h.commits d (hbase.subset hd)
  · intro d hd
    rcases List.mem_cons.mp hd with rfl | hd
    · exact ruleless_prepared (ruleless_checkedOut (h.ruleless_treeOf hbase) _) hprep
    · exact h.ruleless d (hbase.subset hd)
  · intro n
    simp only [dirAt_cons, lastAccepted, List.find?_cons]
    by_cases hn : (args i).version.name = n
    · subst hn
      simp [hdir]
    · rw [hrest n (Ne.symm hn), h.contents n]
      simp [lastAccepted, hn]

/-- **The step lemma.** -/
theorem step_inv (h : Inv tools args s) (hs : Step tools args s s') : Inv tools args s' := by
  cases hs with
  | lookUp hi hr => exact inv_move h (List.suffix_refl _)
  | lookUpAbsent hi => exact inv_move h List.nil_suffix
  | stage hi hf => exact inv_move h ⟨phaseOk_of h hi, rfl⟩
  | regenerate hi hr =>
    obtain ⟨hb, rfl⟩ := phaseOk_of h hi
    exact inv_move h ⟨hb, _, hr⟩
  | commit hi hc =>
    obtain ⟨hb, ht⟩ := phaseOk_of h hi
    exact inv_move h ⟨_, _, rfl, hb, ht⟩
  | noChanges hi hc => exact inv_move h trivial
  | push hi ha => exact inv_push h hi ha
  | rejected hi ha => exact inv_move h trivial
  | abandon => exact inv_move h trivial

/-- **The run lemma.** -/
theorem steps_inv (h : Inv tools args s) (hs : Steps tools args s s') : Inv tools args s' := by
  induction hs with
  | refl => exact h
  | tail _ hstep ih => exact step_inv ih hstep

/-! ## 3. Presence -/

/-- The log of accepted runs only grows. -/
theorem steps_accepted (hs : Steps tools args s s') : s.accepted <:+ s'.accepted := by
  induction hs with
  | refl => exact List.suffix_refl _
  | tail _ hstep ih =>
    cases hstep with
    | push => exact ih.trans (List.suffix_cons _ _)
    | _ => exact ih

/-- **The releases branch over all interleavings.** In every reachable state: no version
    directory ever disappears; each holds the files staged by the last run for it whose
    push was accepted; and the metadata at the tip is consistent. -/
theorem releases_branch (h : Steps tools args (initial ι) s) :
    (∀ s', Steps tools args s s' → ∀ n files, dirAt s.remote n = some files →
      ∃ files', dirAt s'.remote n = some files') ∧
    (∀ n, dirAt s.remote n = lastAccepted args s.accepted n) ∧
    ∀ c rest, s.remote = c :: rest → ∃ text, Consistent tools c.tree text := by
  have hinv := steps_inv inv_initial h
  refine ⟨?_, hinv.contents, ?_⟩
  · intro s' hs n files hn
    have hinv' := steps_inv hinv hs
    rw [hinv.contents] at hn
    obtain ⟨files', hf⟩ := lastAccepted_mono (steps_accepted hs) hn
    exact ⟨files', by rw [hinv'.contents, hf]⟩
  · intro c rest e
    exact (hinv.commits c (by rw [e]; exact List.mem_cons_self)).2

end System

/-- A run on its own publishes to an absent branch. -/
theorem exists_first_publish (tools : Tools) (a : Args) (hf : a.files ≠ ∅) :
    ∃ s : System Unit, Steps tools (fun _ => a) (initial Unit) s ∧ s.accepted = [()] := by
  obtain ⟨tree, htree⟩ := exists_prepared tools "20260101000000" a (orphanTree a) ⟨rfl, rfl, rfl⟩
  let s₁ := (initial Unit).move () (.checkedOut [])
  let s₂ := s₁.move () (.staged [] (stage a.version a.files (orphanTree a)))
  let s₃ := s₂.move () (.regenerated [] tree)
  let s₄ := s₃.move () (.committed [⟨tree, commitMessage a.version, 0⟩])
  have h₁ : Step tools (fun _ => a) (initial Unit) s₁ := .lookUpAbsent rfl
  have h₂ : Step tools (fun _ => a) s₁ s₂ := .stage (phase_move ..) hf
  have h₃ : Step tools (fun _ => a) s₂ s₃ := .regenerate (phase_move ..) htree
  have h₄ : Step tools (fun _ => a) s₃ s₄ :=
    .commit (phase_move ..) (changes_prepared rfl ⟨_, htree⟩)
  have h₅ : Step tools (fun _ => a) s₄ _ :=
    .push (phase_move ..) (accepts_absent (List.cons_ne_nil _ _))
  exact ⟨_, ((((ReflTransGen.single h₁).tail h₂).tail h₃).tail h₄).tail h₅, rfl⟩

/-- The invocation that publishes 0.0.1 with one file. -/
def firstRelease : Args where
  version := ⟨['0'], ['0'], ['1'], by decide, by decide, by decide⟩
  repo := "onymchat/onym-sdk-kotlin"
  branch := "releases"
  files := Finmap.singleton "onym-sdk-0.0.1.aar" [1]

/-- It can reach a branch that holds its files. -/
theorem releases_branch_first :
    ∃ s : System Unit,
      Steps ⟨fun _ => "", fun _ => ""⟩ (fun _ => firstRelease) (initial Unit) s ∧
        dirAt s.remote "0.0.1" = some firstRelease.files := by
  obtain ⟨s, hs, hacc⟩ := exists_first_publish ⟨fun _ => "", fun _ => ""⟩ firstRelease (by decide)
  refine ⟨s, hs, ?_⟩
  have hname : firstRelease.version.name = "0.0.1" := by decide
  rw [(releases_branch hs).2.1, hacc, lastAccepted]
  simp [hname]

end OnymSdk.Release
