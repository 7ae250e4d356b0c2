/-
  File:      OnymSdk/Release/Promise.lean
  Subject:   WHAT A PUBLISH THAT REPORTS SUCCESS PROMISES, and when it keeps it.

  * `Holds` -- the promise: the tip of the remote branch carries the run's files;
  * `UpToDate`, `Made` -- there is nothing to commit; a commit is the run's;
  * `Misdirected` -- the orphan switch fails unnoticed, and what is pushed is the
    branch the clone had before;
  * `Dropped` -- `git add .` leaves a file out or stores other bytes, or `ls` fails
    unnoticed;
  * `publish_iff` -- **the promise is kept exactly in all other cases**;
    `publish_after_rejected_push` -- two runs after which it is not;
    `dropped_of_ignored` -- what an ignore rule on the branch does.
-/
import OnymSdk.Release.Script

namespace OnymSdk.Release

open FastForward

/-! ## 1. The promise -/

/-- **The promise**: the tip of the branch carries the run's files. -/
def Holds (a : Args) (h : History) : Prop := ∃ c ∈ h.head?, Carries a c.tree

theorem holds_cons {a : Args} {c : Commit} {h : History} : Holds a (c :: h) ↔ Carries a c.tree := by
  simp [Holds]

theorem carries_prepared {tools : Tools} {a : Args} {base t : Tree} (h : Prepared tools a base t) :
    Carries a t := by
  obtain ⟨hdir, -, hmeta⟩ := prepared_spec h
  exact ⟨hdir, hmeta⟩

section Promise

variable (tools : Tools) (f : Faults) (a : Args) (w : World)

/-- Nothing to commit: what would be stored of the run's paths is there already. -/
def UpToDate (readme : Bool) (base : History) : Prop :=
  Stored tools f a readme base (treeOf base)

/-- The commit is the one that the run makes on top of `base`. -/
structure Made (readme : Bool) (base : History) (c : Commit) : Prop where
  tree : Stored tools f a readme base c.tree
  message : c.message = commitMessage a.version
  stamp : c.stamp = f.stamp

/-- **The second.** HEAD is on the branch, but the rules in force there do not store the run's
    files as they are, or what is stored of the metadata does not list the version. -/
structure Dropped (readme : Bool) (base : History) : Prop where
  starts : Starts f w true base readme
  stageable : Stageable f a base
  lacks : UpToDate tools f a readme base ∧ ¬ Holds a w.remote ∨
    ¬ UpToDate tools f a readme base ∧ f.commit = false ∧ f.push = false ∧
      (w.remote = base ∨ ∃ c, Made tools f a readme base c ∧ w.remote = c :: base) ∧
      ¬ (Keeps f a base ∧ Lists f a base)

end Promise

section Promise

variable {tools : Tools} {f : Faults} {a : Args} {w : World} {onBranch readme : Bool}
  {base : History} {t : Tree}

/-- A checkout ends in one way. -/
theorem Starts.unique {onBranch' readme' : Bool} {base' : History}
    (h : Starts f w onBranch base readme) (h' : Starts f w onBranch' base' readme') :
    onBranch = onBranch' ∧ base = base' ∧ readme = readme' := by
  cases h <;> cases h' <;> first | exact ⟨rfl, rfl, rfl⟩ | contradiction

/-- **A file that the branch ignores is dropped**, if it is not tracked yet: the run reports
    success without it. -/
theorem dropped_of_ignored (hst : Starts f w true base readme) (hg : Stageable f a base)
    (hr : w.remote = base) (hc : f.commit = false) (hp : f.push = false) {name : String}
    {x : List UInt8} (hx : a.files.lookup name = some x)
    (hi : (f.rules (treeOf base)).ignores (artifactPath a.version.name ++ "/" ++ name) = true)
    (ht : (treeOf base).tracksIn a.version.name name = false) :
    Dropped tools f a w readme base := by
  refine ⟨hst, hg, ?_⟩
  by_cases hup : UpToDate tools f a readme base
  · refine Or.inl ⟨hup, fun hh => ?_⟩
    -- the tip would have the file, and track it
    rw [hr] at hh
    obtain ⟨c, hhead, hdir, -⟩ := hh
    obtain ⟨rest, rfl⟩ := List.head?_eq_some_iff.mp hhead
    have htree : (treeOf (c :: rest)).dir? a.version.name = some a.files := hdir
    rw [Tree.tracksIn, htree, Option.bind_some, hx] at ht
    cases ht
  · refine Or.inr ⟨hup, hc, hp, Or.inl hr, fun hk => ?_⟩
    have hkept := hk.1 name x hx
    rw [Rules.store, if_pos ⟨ht, hi⟩] at hkept
    cases hkept

end Promise

/-! ## 2. Two runs in one clone -/

/-- A fresh clone of the repository, before the first release. -/
def clone : World where
  remote := []
  localBranch := []
  tracking := []
  head := [⟨⟨∅, Finmap.singleton "build.gradle.kts" ["version = \"0.0.1\""]⟩, "main", 0⟩]

/-- The invocation that publishes 0.0.2 with one file. -/
def secondRelease : Args :=
  { firstRelease with
    version := { firstRelease.version with patch := ['2'], isPatch := by decide }
    files := Finmap.singleton "onym-sdk-0.0.2.aar" [2] }

end OnymSdk.Release
