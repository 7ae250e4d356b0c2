/-
  File:      OnymSdk/Release/Script.lean
  Subject:   ONE RUN OF publish-to-releases-branch.sh, over the refs of its clone.

  * `Sh` -- a shell computation under `set -e`: it ends, or exits with an error,
    and in both cases leaves a world behind;
  * `World`, `Worktree` -- the branch on the remote and in the clone, the scratch
    worktree; the commands, with what they need of the refs; `publish` -- the script;
  * `Starts`, `Stageable` -- how the checkout can end, and when staging works;
    `publish_starts` -- **what a run comes to**;
  * `publish_cases` -- a run in a fresh clone; `publish_succeeds` -- when it succeeds;
  * `publish_steps` -- in a fresh clone **the script takes the steps of the system**
    of Branch.lean.

  Hooks of the clone can only refuse.
-/
import OnymSdk.Release.Branch
import OnymSdk.Release.Index

namespace OnymSdk.Release

open FastForward Relation

/-! ## 1. The shell -/

/-- The refs a run works on: the branch on the remote, in the clone and as last fetched,
    and the commit checked out in the clone itself. A missing ref is `[]`. -/
structure World where
  remote : History
  localBranch : History
  tracking : History
  head : History

/-- The scratch worktree: whether HEAD is the branch or detached, the history under HEAD,
    whether the run has written the README, and the files. -/
structure Worktree where
  onBranch : Bool
  base : History
  readme : Bool
  files : Tree

/-- A shell computation; `none` is an exit with an error. -/
def Sh (α : Type) := World → Option α × World

instance : Monad Sh where
  pure a := fun w => (some a, w)
  bind m f := fun w =>
    match m w with
    | (some a, w') => f a w'
    | (none, w') => (none, w')

/-- A failing command under `set -e`. -/
def exitError {α : Type} : Sh α := fun w => (none, w)

/-- A command that fails unless the condition holds. -/
def need (p : World → Prop) [DecidablePred p] : Sh Unit := fun w =>
  if p w then (some (), w) else (none, w)

def update (f : World → World) : Sh Unit := fun w => (some (), f w)

def observe {α : Type} (f : World → α) : Sh α := fun w => (some (f w), w)

/-! ## 2. The commands -/

section Commands

variable (f : Faults)

/-- `git ls-remote --exit-code --heads origin "$BRANCH"`, as the condition of an `if`: it also
    finds a branch whose name only ends in that of the branch. -/
def lsRemote : Sh Bool := observe fun w => !f.lsRemote && (w.remote ≠ [] || f.namesake)

/-- `git fetch origin "$BRANCH:refs/remotes/origin/$BRANCH"`: no force, so the tracking ref
    has to be behind. -/
def fetch : Sh Unit := do
  need fun w => f.fetch = false ∧ w.remote ≠ [] ∧ w.tracking <:+ w.remote
  update fun w => { w with tracking := w.remote }

/-- `git worktree add -B "$BRANCH" "$SCRATCH" "origin/$BRANCH"`. -/
def worktreeAddBranch : Sh Worktree := do
  need fun _ => f.worktreeAdd = false
  update fun w => { w with localBranch := w.tracking }
  observe fun w => ⟨true, w.tracking, false, treeOf w.tracking⟩

/-- `git worktree add --detach "$SCRATCH" HEAD`: there has to be a commit. -/
def worktreeAddDetach : Sh Worktree := do
  need fun w => f.worktreeAdd = false ∧ w.head ≠ []
  observe fun w => ⟨false, w.head, false, treeOf w.head⟩

/-- `( cd "$SCRATCH" && git switch --orphan "$BRANCH" && git rm -rf . || true )`: the switch
    fails if the clone has a branch of that name, and the failure is dropped. -/
def switchOrphan (wt : Worktree) : Sh Worktree := observe fun w =>
  if f.switch = false ∧ w.localBranch = [] then ⟨true, [], false, treeOf []⟩ else wt

/-- `git add .`: the index. -/
def add (v : Version) (wt : Worktree) : Sh Tree := do
  need fun _ => f.add = false
  return gitAdd (f.rules (treeOf wt.base)) v wt.readme (treeOf wt.base) wt.files

/-- `git commit`: it moves the branch if HEAD is the branch. -/
def commit (v : Version) (onBranch : Bool) (base : History) (tree : Tree) : Sh Unit := do
  need fun _ => f.commit = false
  if onBranch then
    update fun w => { w with localBranch := ⟨tree, commitMessage v, f.stamp⟩ :: base }

/-- `git push -u origin "$BRANCH"`: it pushes the branch of the clone, wherever HEAD is. -/
def push : Sh Unit := do
  need fun w => f.push = false ∧ Accepts w.remote w.localBranch
  update fun w => { w with remote := w.localBranch, tracking := w.localBranch }

end Commands

/-! ## 3. The script -/

section Script

variable (tools : Tools) (f : Faults) (a : Args)

/-- `cat > "$SCRATCH/README.md"`. -/
def Worktree.withReadme (wt : Worktree) : Worktree :=
  { wt with readme := true, files := writeReadme a wt.files }

/-- Worktree the branch, or create it as an orphan. -/
def checkout : Sh Worktree := do
  if ← lsRemote f then
    fetch f
    worktreeAddBranch f
  else
    let wt ← worktreeAddDetach f
    let wt ← switchOrphan f wt
    return wt.withReadme a

/-- Stage the version and regenerate the metadata. -/
def prepare (wt : Worktree) : Sh Worktree := do
  need fun _ => f.cp = false ∧ a.files ≠ ∅
  match regenerateWith f.silent tools f.now (stage a.version a.files wt.files) with
  | none => exitError
  | some files => return { wt with files := files }

/-- Commit and push, unless there is nothing to publish. -/
def commitAndPush (onBranch : Bool) (base : History) (tree : Tree) : Sh Unit := do
  if Changes base tree then
    commit f a.version onBranch base tree
    push f

/-- **The script.** Its end is an exit 0, with `Published` printed. -/
def publish : Sh Unit := do
  let wt ← checkout f a
  let wt ← prepare tools f a wt
  let tree ← add f a.version wt
  commitAndPush f a wt.onBranch wt.base tree

end Script

/-! ## 4. What each part does -/

@[simp] theorem sh_pure {α : Type} (x : α) (w : World) : (pure x : Sh α) w = (some x, w) := rfl

theorem sh_bind {α β : Type} (m : Sh α) (k : α → Sh β) (w : World) :
    (m >>= k) w =
      match m w with
      | (some x, w') => k x w'
      | (none, w') => (none, w') := rfl

/-- A command that does one thing or fails, and what follows it. -/
theorem sh_bind_if {α β : Type} {m : Sh α} {w w₁ w₂ : World} {p : Prop} [Decidable p] {x : α}
    (k : α → Sh β) (h : m w = if p then (some x, w₁) else (none, w₂)) :
    (m >>= k) w = if p then k x w₁ else (none, w₂) := by
  rw [sh_bind, h]
  by_cases hp : p
  · rw [if_pos hp, if_pos hp]
  · rw [if_neg hp, if_neg hp]

theorem need_bind {α : Type} (p : World → Prop) [DecidablePred p] (m : Sh α) (w : World) :
    (need p >>= fun _ => m) w = if p w then m w else (none, w) := sh_bind_if _ rfl

/-- The branch is looked up and not found, nor a namesake. -/
def Absent (f : Faults) (w : World) : Prop :=
  f.lsRemote = true ∨ w.remote = [] ∧ f.namesake = false

/-- The orphan switch fails. -/
def SwitchFails (f : Faults) (w : World) : Prop := f.switch = true ∨ w.localBranch ≠ []

instance {f : Faults} {w : World} : Decidable (Absent f w) := by
  unfold Absent
  infer_instance

instance {f : Faults} {w : World} : Decidable (SwitchFails f w) := by
  unfold SwitchFails
  infer_instance

/-- The worktree after the checkout. -/
def Worktree.of (a : Args) (onBranch : Bool) (base : History) (readme : Bool) : Worktree :=
  ⟨onBranch, base, readme, Release.withReadme a readme (treeOf base)⟩

/-- **How the checkout of a run can end**: whether HEAD is the branch, the history under it, and
    whether the run has written the README. -/
inductive Starts (f : Faults) (w : World) : Bool → History → Bool → Prop where
  | found (ha : ¬ Absent f w) (hf : f.fetch = false) (hr : w.remote ≠ [])
      (ht : w.tracking <:+ w.remote) (hw : f.worktreeAdd = false) : Starts f w true w.remote false
  | orphan (ha : Absent f w) (hw : f.worktreeAdd = false) (hh : w.head ≠ [])
      (hs : ¬ SwitchFails f w) : Starts f w true [] true
  | detached (ha : Absent f w) (hw : f.worktreeAdd = false) (hh : w.head ≠ [])
      (hs : SwitchFails f w) : Starts f w false w.head true

/-- The run stages its version, prints the metadata and fills the index. -/
def Stageable (f : Faults) (a : Args) (base : History) : Prop :=
  f.cp = false ∧ a.files ≠ ∅ ∧ (treeOf base).Free ∧ f.add = false

instance {f : Faults} {a : Args} {base : History} : Decidable (Stageable f a base) := by
  unfold Stageable
  infer_instance

section Parts

variable {tools : Tools} {f : Faults} {a : Args} {w : World} {onBranch readme : Bool}
  {base : History} {t : Tree}

theorem lsRemote_eq : lsRemote f w = (some (decide ¬ Absent f w), w) := by
  by_cases h : f.lsRemote <;> simp [lsRemote, observe, Absent, h]

theorem fetch_eq :
    fetch f w =
      if f.fetch = false ∧ w.remote ≠ [] ∧ w.tracking <:+ w.remote then
        (some (), { w with tracking := w.remote })
      else (none, w) := by
  rw [fetch, need_bind]
  rfl

theorem worktreeAddBranch_eq (a : Args) :
    worktreeAddBranch f w =
      if f.worktreeAdd = false then
        (some (.of a true w.tracking false), { w with localBranch := w.tracking })
      else (none, w) := by
  rw [worktreeAddBranch, need_bind]
  rfl

theorem worktreeAddDetach_eq :
    worktreeAddDetach f w =
      if f.worktreeAdd = false ∧ w.head ≠ [] then
        (some ⟨false, w.head, false, treeOf w.head⟩, w)
      else (none, w) := by
  rw [worktreeAddDetach, need_bind]
  rfl

/-- A switch that fails leaves the worktree as it is. -/
theorem switchOrphan_eq (wt : Worktree) :
    switchOrphan f wt w =
      (some (if SwitchFails f w then wt else ⟨true, [], false, treeOf []⟩), w) := by
  have hiff : (f.switch = false ∧ w.localBranch = []) ↔ ¬ SwitchFails f w := by
    simp [SwitchFails]
  by_cases h : SwitchFails f w <;> simp [switchOrphan, observe, hiff, h]

theorem add_eq (v : Version) (wt : Worktree) :
    add f v wt w =
      if f.add = false then
        (some (gitAdd (f.rules (treeOf wt.base)) v wt.readme (treeOf wt.base) wt.files), w)
      else (none, w) := by
  rw [add, need_bind]
  rfl

/-- A branch that is found is checked out at its tip, in the clone as well. -/
theorem checkout_found (h : ¬ Absent f w) :
    checkout f a w =
      if f.fetch = false ∧ w.remote ≠ [] ∧ w.tracking <:+ w.remote then
        if f.worktreeAdd = false then
          (some (.of a true w.remote false),
            { w with tracking := w.remote, localBranch := w.remote })
        else (none, { w with tracking := w.remote })
      else (none, w) := by
  rw [checkout, sh_bind, lsRemote_eq, decide_eq_true h]
  simp only [if_true, sh_bind, fetch_eq]
  by_cases hf : f.fetch = false ∧ w.remote ≠ [] ∧ w.tracking <:+ w.remote
  · simp only [if_pos hf]
    exact worktreeAddBranch_eq a
  · simp only [if_neg hf]

/-- A branch that is not found becomes an orphan, unless the switch fails: then HEAD stays
    detached at the clone's commit. -/
theorem checkout_absent (h : Absent f w) :
    checkout f a w =
      if f.worktreeAdd = false ∧ w.head ≠ [] then
        (some (if SwitchFails f w then .of a false w.head true else .of a true [] true), w)
      else (none, w) := by
  rw [checkout, sh_bind, lsRemote_eq, decide_eq_false (not_not_intro h)]
  simp only [Bool.false_eq_true, if_false, sh_bind, worktreeAddDetach_eq]
  by_cases hw : f.worktreeAdd = false ∧ w.head ≠ []
  · simp only [if_pos hw, switchOrphan_eq]
    by_cases hs : SwitchFails f w
    · simp only [if_pos hs]
      rfl
    · simp only [if_neg hs]
      rfl
  · simp only [if_neg hw]

/-- How the checkout ends. The remote stays, and so does the clone's branch if HEAD does not get
    onto it. -/
theorem checkout_starts (h : Starts f w onBranch base readme) :
    ∃ w', w'.remote = w.remote ∧ (onBranch = false → w' = w) ∧
      checkout f a w = (some (.of a onBranch base readme), w') := by
  cases h with
  | found ha hf hr ht hw =>
    refine ⟨{ w with tracking := w.remote, localBranch := w.remote }, rfl, ?_, ?_⟩
    · intro e
      cases e
    · rw [checkout_found ha, if_pos ⟨hf, hr, ht⟩, if_pos hw]
  | orphan ha hw hh hs =>
    refine ⟨w, rfl, fun _ => rfl, ?_⟩
    rw [checkout_absent ha, if_pos ⟨hw, hh⟩, if_neg hs]
  | detached ha hw hh hs =>
    refine ⟨w, rfl, fun _ => rfl, ?_⟩
    rw [checkout_absent ha, if_pos ⟨hw, hh⟩, if_pos hs]

/-- Otherwise the run ends there. -/
theorem checkout_not_starts (h : ∀ onBranch base readme, ¬ Starts f w onBranch base readme) :
    ∃ w', w'.remote = w.remote ∧ w'.head = w.head ∧
      (w'.localBranch = w.localBranch) ∧ checkout f a w = (none, w') := by
  by_cases ha : Absent f w
  · rw [checkout_absent ha]
    refine ⟨w, rfl, rfl, rfl, if_neg fun hw => ?_⟩
    by_cases hs : SwitchFails f w
    · exact h _ _ _ (.detached ha hw.1 hw.2 hs)
    · exact h _ _ _ (.orphan ha hw.1 hw.2 hs)
  · rw [checkout_found ha]
    by_cases hf : f.fetch = false ∧ w.remote ≠ [] ∧ w.tracking <:+ w.remote
    · rw [if_pos hf]
      refine ⟨{ w with tracking := w.remote }, rfl, rfl, rfl, if_neg fun hw => ?_⟩
      exact h _ _ _ (.found ha hf.1 hf.2.1 hf.2.2 hw)
    · exact ⟨w, rfl, rfl, rfl, if_neg hf⟩

theorem prepare_of :
    prepare tools f a (.of a onBranch base readme) w =
      if f.cp = false ∧ a.files ≠ ∅ ∧ (treeOf base).Free then
        (some { Worktree.of a onBranch base readme with
          files := worktreeOf tools f a (withReadme a readme (treeOf base)) }, w)
      else (none, w) := by
  have hfree : (stage a.version a.files (withReadme a readme (treeOf base))).Free ↔
      (treeOf base).Free := by
    rw [free_stage_iff]
    cases readme <;> rfl
  rw [prepare, need_bind]
  by_cases h : f.cp = false ∧ a.files ≠ ∅
  · rw [if_pos h]
    by_cases hf : (treeOf base).Free
    · rw [if_pos ⟨h.1, h.2, hf⟩]
      simp only [Worktree.of, regenerateWith_free (hfree.mpr hf)]
      rfl
    · rw [if_neg fun hx => hf hx.2.2]
      simp only [Worktree.of, regenerateWith_not_free fun hx => hf (hfree.mp hx)]
      rfl
  · rw [if_neg h, if_neg fun hx => h ⟨hx.1, hx.2.1⟩]

/-- The refs after the commit. -/
def committed (f : Faults) (a : Args) (onBranch : Bool) (base : History) (t : Tree) (w : World) :
    World :=
  if onBranch then { w with localBranch := ⟨t, commitMessage a.version, f.stamp⟩ :: base } else w

@[simp] theorem committed_remote : (committed f a onBranch base t w).remote = w.remote := by
  unfold committed
  split <;> rfl

theorem committed_localBranch :
    (committed f a true base t w).localBranch = ⟨t, commitMessage a.version, f.stamp⟩ :: base :=
  rfl

theorem commit_eq :
    commit f a.version onBranch base t w =
      if f.commit = false then (some (), committed f a onBranch base t w) else (none, w) := by
  rw [commit, need_bind]
  cases onBranch <;> rfl

/-- The branch a push pushes is the clone's. -/
theorem push_eq :
    push f w =
      if f.push = false ∧ Accepts w.remote w.localBranch then
        (some (), { w with remote := w.localBranch, tracking := w.localBranch })
      else (none, w) := by
  rw [push, need_bind]
  rfl

/-- The script reports success if there is nothing to publish; the remote stays. -/
theorem commitAndPush_unchanged (h : ¬ Changes base t) :
    commitAndPush f a onBranch base t w = (some (), w) := by
  rw [commitAndPush, if_neg h]
  rfl

/-- Otherwise it needs the commit and the push. -/
theorem commitAndPush_changed (h : Changes base t) :
    commitAndPush f a onBranch base t w =
      if f.commit = false then push f (committed f a onBranch base t w) else (none, w) := by
  rw [commitAndPush, if_pos h]
  exact sh_bind_if _ commit_eq

/-- **What a run comes to** from where the checkout ended: it commits the index, if it gets
    that far. -/
theorem publish_checkout {w' : World}
    (h : checkout f a w = (some (.of a onBranch base readme), w')) :
    publish tools f a w =
      if Stageable f a base then
        commitAndPush f a onBranch base (index tools f a readme base) w'
      else (none, w') := by
  rw [publish, sh_bind, h]
  simp only [sh_bind, prepare_of]
  by_cases hp : f.cp = false ∧ a.files ≠ ∅ ∧ (treeOf base).Free
  · simp only [if_pos hp, add_eq]
    by_cases ha : f.add = false
    · rw [if_pos ha, if_pos ⟨hp.1, hp.2.1, hp.2.2, ha⟩]
      rfl
    · rw [if_neg ha, if_neg fun hx => ha hx.2.2.2]
  · rw [if_neg hp, if_neg fun hx => hp ⟨hx.1, hx.2.1, hx.2.2.1⟩]

/-- A run whose checkout fails. -/
theorem publish_not_starts (tools : Tools) (a : Args)
    (h : ∀ onBranch base readme, ¬ Starts f w onBranch base readme) :
    ∃ w', w'.remote = w.remote ∧ w'.head = w.head ∧ w'.localBranch = w.localBranch ∧
      publish tools f a w = (none, w') := by
  obtain ⟨w', hr, hh, hl, hco⟩ := checkout_not_starts (a := a) h
  exact ⟨w', hr, hh, hl, by rw [publish, sh_bind, hco]⟩

end Parts

/-! ## 5. A run in a fresh clone -/

section Fresh

variable {tools : Tools} {f : Faults} {a : Args} {w : World} {onBranch readme : Bool}
  {base : History} {t : Tree}

/-- Where the orphan switch works, HEAD ends on the branch, on top of the remote's tip or of
    nothing. -/
theorem starts_fresh (hs : ¬ SwitchFails f w) (h : Starts f w onBranch base readme) :
    onBranch = true := by
  cases h with
  | found | orphan => rfl
  | detached _ _ _ hs' => exact absurd hs' hs

theorem starts_base (h : Starts f w true base readme) :
    withReadme a readme (treeOf base) = checkedOut a base ∧
      (base = [] ∨ base = w.remote ∧ w.remote ≠ []) := by
  cases h with
  | found ha hf hr ht hw =>
    refine ⟨?_, Or.inr ⟨rfl, hr⟩⟩
    cases hw : w.remote with
    | nil => exact absurd hw hr
    | cons c rest => rfl
  | orphan => exact ⟨rfl, Or.inl rfl⟩

/-- With HEAD on the branch, success leaves the remote at a commit with the tree, and what the
    remote was before is what the run started from, or this already. -/
theorem commitAndPush_onBranch {text : Text} (hb : base = [] ∨ base = w.remote)
    (hm : t.file? META = some text) (h : (commitAndPush f a true base t w).1 = some ()) :
    ∃ c rest, (commitAndPush f a true base t w).2.remote = c :: rest ∧ c.tree = t ∧
      (w.remote = base ∨ w.remote = c :: rest) := by
  by_cases hc : Changes base t
  · rw [commitAndPush_changed hc] at h ⊢
    split at h
    · rename_i hcommit
      rw [if_pos hcommit]
      rw [push_eq, committed_localBranch, committed_remote] at h ⊢
      split at h
      · rename_i hpush
        rw [if_pos hpush]
        have hsuffix : base <:+ w.remote := by
          rcases hb with rfl | rfl
          · exact List.nil_suffix
          · exact List.suffix_refl _
        exact ⟨_, base, rfl, rfl, accepts_cases hsuffix hpush.2⟩
      · cases h
    · cases h
  · rw [commitAndPush_unchanged hc]
    obtain ⟨c, rest, e, rfl⟩ := exists_head_of_not_changes hm hc
    rcases hb with rfl | rfl
    · cases e
    · exact ⟨c, rest, e, rfl, Or.inl rfl⟩

/-- On a branch without rules the index of the run is its worktree. -/
theorem index_fresh (hb : f.Bare) (hr : Ruleless (treeOf w.remote))
    (h : Starts f w true base readme) (hf : a.files ≠ ∅) :
    index tools f a readme base = worktreeOf tools f a (checkedOut a base) := by
  obtain ⟨htree, hbase⟩ := starts_base (a := a) h
  have hnone : f.rules (treeOf base) = .none := by
    rcases hbase with rfl | ⟨rfl, -⟩
    · exact hb _ ruleless_empty
    · exact hb _ hr
  rw [index_of_none hf hnone, htree]

theorem free_checkedOut (h : (treeOf base).Free) (a : Args) : (checkedOut a base).Free := by
  cases base <;> exact h

/-- **A run in a fresh clone**, on a branch without rules: it leaves the remote alone, or commits
    its worktree on top of what the remote had. -/
theorem publish_cases (tools : Tools) (a : Args) (hs : ¬ SwitchFails f w) (hb : f.Bare)
    (hr : Ruleless (treeOf w.remote)) :
    (∃ w', w'.remote = w.remote ∧ publish tools f a w = (none, w')) ∨
      ∃ base w', (base = [] ∨ base = w.remote ∧ w.remote ≠ []) ∧ w'.remote = w.remote ∧
        a.files ≠ ∅ ∧ (checkedOut a base).Free ∧
        publish tools f a w =
          commitAndPush f a true base (worktreeOf tools f a (checkedOut a base)) w' := by
  by_cases hx : ∃ onBranch base readme, Starts f w onBranch base readme
  · obtain ⟨onBranch, base, readme, hst⟩ := hx
    obtain rfl := starts_fresh hs hst
    obtain ⟨w', hw', -, hco⟩ := checkout_starts (a := a) hst
    rw [publish_checkout hco]
    by_cases hg : Stageable f a base
    · rw [if_pos hg, index_fresh hb hr hst hg.2.1]
      exact Or.inr ⟨base, w', (starts_base (a := a) hst).2, hw', hg.2.1,
        free_checkedOut hg.2.2.1 a, rfl⟩
    · rw [if_neg hg]
      exact Or.inl ⟨w', hw', rfl⟩
  · simp only [not_exists] at hx
    obtain ⟨w', hw', -, -, hp⟩ := publish_not_starts tools a hx
    exact Or.inl ⟨w', hw', hp⟩

/-- What its success means: the tip of the remote is the worktree, and the remote had not moved
    in between. -/
theorem publish_fresh (hs : ¬ SwitchFails f w) (hb : f.Bare) (hr : Ruleless (treeOf w.remote))
    (hp : (publish tools f a w).1 = some ()) :
    ∃ c rest base, (publish tools f a w).2.remote = c :: rest ∧ (checkedOut a base).Free ∧
      c.tree = worktreeOf tools f a (checkedOut a base) ∧
      (w.remote = base ∨ w.remote = c :: rest) := by
  rcases publish_cases tools a hs hb hr with
    ⟨w', -, e⟩ | ⟨base, w', hbase, hw', -, hfree, e⟩
  · rw [e] at hp
    cases hp
  · rw [e] at hp ⊢
    rw [← hw'] at hbase ⊢
    obtain ⟨c, rest, hrem, htree, hor⟩ :=
      commitAndPush_onBranch (hbase.imp_right And.left) file?_worktreeOf hp
    exact ⟨c, rest, base, hrem, hfree, htree, hor⟩

/-- A publish that reports success changes no other directory. -/
theorem publish_dirs (hs : ¬ SwitchFails f w) (hb : f.Bare) (hr : Ruleless (treeOf w.remote))
    (hp : (publish tools f a w).1 = some ()) :
    dirAt (publish tools f a w).2.remote a.version.name = some a.files ∧
      ∀ n, n ≠ a.version.name → dirAt (publish tools f a w).2.remote n = dirAt w.remote n := by
  obtain ⟨c, rest, base, e, hfree, htree, he⟩ := publish_fresh hs hb hr hp
  rw [e]
  refine ⟨?_, fun n hn => ?_⟩
  · rw [dirAt_cons, htree, dir?_worktreeOf hfree, dir?_stage_self]
  · rcases he with rfl | he
    · rw [dirAt_cons, htree, dir?_worktreeOf hfree, dir?_stage_of_ne _ _ hn, dirAt_checkedOut]
    · rw [he]

/-- Nor does it add a rule. -/
theorem ruleless_publish (hs : ¬ SwitchFails f w) (hb : f.Bare) (hr : Ruleless (treeOf w.remote))
    (hp : (publish tools f a w).1 = some ()) :
    Ruleless (treeOf (publish tools f a w).2.remote) := by
  obtain ⟨c, rest, base, e, hfree, htree, he⟩ := publish_fresh hs hb hr hp
  rw [e]
  rcases he with rfl | he
  · show Ruleless c.tree
    rw [htree]
    exact ruleless_worktreeOf (ruleless_checkedOut hr a)
  · rwa [← he]

/-- In a fresh clone, with every command working, a publish succeeds. -/
theorem publish_succeeds (tools : Tools) (a : Args) (w : World) (hf : a.files ≠ ∅)
    (hl : w.localBranch = []) (ht : w.tracking <:+ w.remote) (hh : w.head ≠ [])
    (hm : (treeOf w.remote).Free) :
    (publish tools {} a w).1 = some () := by
  have hg : ∀ base, (treeOf base).Free → Stageable {} a base := fun base h => ⟨rfl, hf, h, rfl⟩
  by_cases hr : w.remote = []
  · have hst : Starts {} w true [] true :=
      .orphan (Or.inr ⟨hr, rfl⟩) rfl hh (by simp [SwitchFails, hl])
    obtain ⟨w', hw', -, hco⟩ := checkout_starts (a := a) hst
    rw [publish_checkout hco, if_pos (hg _ (by rwa [hr] at hm))]
    by_cases hc : Changes [] (index tools {} a true [])
    · rw [commitAndPush_changed hc, if_pos rfl, push_eq, committed_localBranch, committed_remote,
        hw', hr, if_pos ⟨rfl, accepts_cons _ _⟩]
    · rw [commitAndPush_unchanged hc]
  · have hst : Starts {} w true w.remote false :=
      .found (by simp [Absent, hr]) rfl hr ht rfl
    obtain ⟨w', hw', -, hco⟩ := checkout_starts (a := a) hst
    rw [publish_checkout hco, if_pos (hg _ hm)]
    by_cases hc : Changes w.remote (index tools {} a false w.remote)
    · rw [commitAndPush_changed hc, if_pos rfl, push_eq, committed_localBranch, committed_remote,
        hw', if_pos ⟨rfl, accepts_cons _ _⟩]
    · rw [commitAndPush_unchanged hc]

end Fresh

/-! ## 6. The script is a run of the system -/

section Refinement

variable {ι : Type} [DecidableEq ι] {tools : Tools} {args : ι → Args} {f : Faults} {w : World}

/-- Staging and regenerating. -/
theorem prepare_steps {s : System ι} {i : ι} {base : History} (hi : s.phase i = .checkedOut base)
    (hf : (args i).files ≠ ∅) (hfree : (checkedOut (args i) base).Free) (hs : f.silent = {}) :
    ∃ s', Steps tools args s s' ∧ s'.remote = s.remote ∧
      s'.phase i =
        .regenerated base (worktreeOf tools f (args i) (checkedOut (args i) base)) := by
  let s₁ := s.move i (.staged base
    (stage (args i).version (args i).files (checkedOut (args i) base)))
  have h₁ : Step tools args s s₁ := .stage hi hf
  have h₂ : Step tools args s₁ (s₁.move i _) :=
    .regenerate (phase_move ..) (regenerate_worktreeOf hs hfree)
  exact ⟨_, (ReflTransGen.single h₁).tail h₂, rfl, phase_move ..⟩

/-- Committing and pushing; where the script stops early, so does the run. -/
theorem commitAndPush_steps {s : System ι} {i : ι} {base : History} {t : Tree}
    (hi : s.phase i = .regenerated base t) (hr : s.remote = w.remote) :
    ∃ s', Steps tools args s s' ∧
      s'.remote = (commitAndPush f (args i) true base t w).2.remote := by
  by_cases hc : Changes base t
  · rw [commitAndPush_changed hc]
    by_cases hcommit : f.commit = false
    · rw [if_pos hcommit, push_eq, committed_localBranch, committed_remote]
      let s₁ := s.move i (.committed (⟨t, commitMessage (args i).version, f.stamp⟩ :: base))
      have h₁ : Step tools args s s₁ := .commit hi hc
      split
      · rename_i hpush
        have h₂ : Step tools args s₁ _ :=
          .push (phase_move ..) (by rw [← hr] at hpush; exact hpush.2)
        exact ⟨_, (ReflTransGen.single h₁).tail h₂, rfl⟩
      · exact ⟨s, .refl, by rw [committed_remote, hr]⟩
    · rw [if_neg hcommit]
      exact ⟨s, .refl, hr⟩
  · rw [commitAndPush_unchanged hc]
    exact ⟨s, .refl, hr⟩

/-- **A publish in a fresh clone is a run of the system**: it takes steps of the system that
    end with the remote branch as the script leaves it. -/
theorem publish_steps {s : System ι} {i : ι} (hi : s.phase i = .queued) (hr : s.remote = w.remote)
    (hs : ¬ SwitchFails f w) (hb : f.Bare) (hsil : f.silent = {}) (hrl : Ruleless (treeOf w.remote)) :
    ∃ s', Steps tools args s s' ∧ s'.remote = (publish tools f (args i) w).2.remote := by
  rcases publish_cases tools (args i) hs hb hrl with
    ⟨w', hw', e⟩ | ⟨base, w', hbase, hw', hf, hfree, e⟩
  · exact ⟨s, .refl, by rw [e, hw', hr]⟩
  · have h₁ : Step tools args s (s.move i (.checkedOut base)) := by
      rcases hbase with rfl | ⟨rfl, hne⟩
      · exact .lookUpAbsent hi
      · rw [← hr] at hne ⊢
        exact .lookUp hi hne
    obtain ⟨s₂, h₂, hr₂, hi₂⟩ := prepare_steps (f := f) (phase_move s i _) hf hfree hsil
    obtain ⟨s₃, h₃, hr₃⟩ := commitAndPush_steps (f := f) (w := w') hi₂ (hr₂.trans (hr.trans hw'.symm))
    exact ⟨s₃, ((ReflTransGen.single h₁).trans h₂).trans h₃, by rw [e, hr₃]⟩

end Refinement

end OnymSdk.Release
