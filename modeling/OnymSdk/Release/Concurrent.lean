/-
  File:      OnymSdk/Release/Concurrent.lean
  Subject:   CONCURRENT RUNS of publish-to-releases-branch.sh, command by command.

  Script.lean runs the script in one go. Here any number of runs, each in its own
  fresh clone, take turns after every command, and each can be killed between two.

  * `Pc`, `next`, `advance` -- where a run is, and its next command;
  * `advance_publish` -- **seven commands on end are the script** of Script.lean;
  * `Runs`, `Runs.Step` -- the runs and the branch on the remote they share;
  * `Published` -- at a turn of its own the run left, or found, its files at the tip;
  * `Matches`, `runs_match` -- **every interleaving of the commands is a run of the
    system** of Branch.lean;
  * `run_alone` -- a run that nobody interrupts is the script;
  * `scripts_branch` -- what follows for the branch, and for a run that exits with 0.
-/
import OnymSdk.Release.Serializable
import OnymSdk.Lib.Simulation

namespace OnymSdk.Release

open FastForward Relation

/-! ## 1. The script, one command at a time -/

/-- Where a run is: the command it comes to next, with the worktree it has, or what is in the
    index and under HEAD. -/
inductive Pc where
  | start
  | found
  | fetched
  | absent
  | detached (wt : Worktree)
  | checkedOut (wt : Worktree)
  | prepared (wt : Worktree)
  | added (onBranch : Bool) (base : History) (tree : Tree)
  | committed
  | exited (ok : Bool)

section Script

variable (tools : Tools) (f : Faults) (a : Args)

/-- The next command, and where the script goes on after it. -/
def next : Pc → Sh Pc
  | .start => do
    if ← lsRemote f then return .found
    return .absent
  | .found => do
    fetch f
    return .fetched
  | .fetched => do return .checkedOut (← worktreeAddBranch f)
  | .absent => do return .detached (← worktreeAddDetach f)
  | .detached wt => do
    let wt ← switchOrphan f wt
    return .checkedOut (wt.withReadme a)
  | .checkedOut wt => do return .prepared (← prepare tools f a wt)
  | .prepared wt => do return .added wt.onBranch wt.base (← add f a.version wt)
  | .added onBranch base tree => do
    if Changes base tree then
      commit f a.version onBranch base tree
      return .committed
    return .exited true
  | .committed => do
    push f
    return .exited true
  | .exited ok => return .exited ok

/-- One command; a failing one ends the run with an error. -/
def advance (r : Pc × World) : Pc × World :=
  match next tools f a r.1 r.2 with
  | (some pc, w) => (pc, w)
  | (none, w) => (.exited false, w)

end Script

section Advance

variable {tools : Tools} {f : Faults} {a : Args} {w : World}

/-- A command and what comes of it. -/
theorem advance_eq (pc : Pc) :
    advance tools f a (pc, w) =
      match next tools f a pc w with
      | (some pc, w) => (pc, w)
      | (none, w) => (.exited false, w) := rfl

/-! What each command does. -/

theorem next_start :
    next tools f a .start w = if Absent f w then (some .absent, w) else (some .found, w) := by
  by_cases h : Absent f w <;> simp [next, sh_bind, lsRemote_eq, h]

theorem next_found :
    next tools f a .found w =
      if f.fetch = false ∧ w.remote ≠ [] ∧ w.tracking <:+ w.remote then
        (some .fetched, { w with tracking := w.remote })
      else (none, w) := by
  rw [next]
  exact sh_bind_if _ fetch_eq

theorem next_fetched :
    next tools f a .fetched w =
      if f.worktreeAdd = false then
        (some (.checkedOut (.of a true w.tracking false)), { w with localBranch := w.tracking })
      else (none, w) := by
  rw [next]
  exact sh_bind_if _ (worktreeAddBranch_eq a)

theorem next_absent :
    next tools f a .absent w =
      if f.worktreeAdd = false ∧ w.head ≠ [] then
        (some (.detached ⟨false, w.head, false, treeOf w.head⟩), w)
      else (none, w) := by
  rw [next]
  exact sh_bind_if _ worktreeAddDetach_eq

theorem next_detached (wt : Worktree) :
    next tools f a (.detached wt) w =
      if SwitchFails f w then (some (.checkedOut (wt.withReadme a)), w)
      else (some (.checkedOut (.of a true [] true)), w) := by
  simp only [next, sh_bind, switchOrphan_eq]
  by_cases h : SwitchFails f w
  · simp only [if_pos h]
    rfl
  · simp only [if_neg h]
    rfl

theorem next_checkedOut (wt : Worktree) :
    next tools f a (.checkedOut wt) w =
      match prepare tools f a wt w with
      | (some wt, w) => (some (.prepared wt), w)
      | (none, w) => (none, w) := by
  simp only [next, sh_bind]
  rcases prepare tools f a wt w with ⟨r, w'⟩
  cases r <;> rfl

theorem next_prepared (wt : Worktree) :
    next tools f a (.prepared wt) w =
      if f.add = false then
        (some (.added wt.onBranch wt.base
          (gitAdd (f.rules (treeOf wt.base)) a.version wt.readme (treeOf wt.base) wt.files)), w)
      else (none, w) := by
  rw [next]
  exact sh_bind_if _ (add_eq a.version wt)

theorem next_added (onBranch : Bool) (base : History) (t : Tree) :
    next tools f a (.added onBranch base t) w =
      if Changes base t then
        if f.commit = false then (some .committed, committed f a onBranch base t w) else (none, w)
      else (some (.exited true), w) := by
  by_cases h : Changes base t
  · by_cases hc : f.commit = false <;> simp [next, h, sh_bind, commit_eq, hc]
  · simp [next, h]

theorem next_committed :
    next tools f a .committed w =
      if f.push = false ∧ Accepts w.remote w.localBranch then
        (some (.exited true), { w with remote := w.localBranch, tracking := w.localBranch })
      else (none, w) := by
  rw [next]
  exact sh_bind_if _ push_eq

/-- A run that is over stays so. -/
@[simp] theorem iterate_exited (n : Nat) (ok : Bool) :
    (advance tools f a)^[n] (.exited ok, w) = (.exited ok, w) :=
  Function.iterate_fixed rfl n

theorem advance_committed :
    advance tools f a (.committed, w) = (.exited (push f w).1.isSome, (push f w).2) := by
  simp only [advance, next_committed, push_eq]
  by_cases h : f.push = false ∧ Accepts w.remote w.localBranch
  · simp only [if_pos h]
    rfl
  · simp only [if_neg h]
    rfl

/-- Commit and push are two commands. -/
theorem advance_added (onBranch : Bool) (base : History) (t : Tree) :
    (advance tools f a)^[2] (.added onBranch base t, w) =
      (.exited (commitAndPush f a onBranch base t w).1.isSome,
        (commitAndPush f a onBranch base t w).2) := by
  have h : (advance tools f a)^[2] (.added onBranch base t, w) =
      advance tools f a (advance tools f a (.added onBranch base t, w)) := rfl
  rw [h, advance_eq (.added onBranch base t), next_added]
  by_cases hc : Changes base t
  · rw [commitAndPush_changed hc, if_pos hc]
    by_cases hcommit : f.commit = false
    · rw [if_pos hcommit, if_pos hcommit]
      exact advance_committed
    · rw [if_neg hcommit, if_neg hcommit]
      rfl
  · rw [commitAndPush_unchanged hc, if_neg hc]
    rfl

/-- So are staging and `git add .` before them. -/
theorem advance_of (onBranch readme : Bool) (base : History) :
    (advance tools f a)^[4] (.checkedOut (.of a onBranch base readme), w) =
      if Stageable f a base then
        (.exited (commitAndPush f a onBranch base (index tools f a readme base) w).1.isSome,
          (commitAndPush f a onBranch base (index tools f a readme base) w).2)
      else (.exited false, w) := by
  have h : (advance tools f a)^[4] (.checkedOut (.of a onBranch base readme), w) =
      (advance tools f a)^[2] (advance tools f a
        (advance tools f a (.checkedOut (.of a onBranch base readme), w))) := rfl
  rw [h, advance_eq (.checkedOut _), next_checkedOut, prepare_of]
  by_cases hp : f.cp = false ∧ a.files ≠ ∅ ∧ (treeOf base).Free
  · simp only [if_pos hp, advance_eq (.prepared _), next_prepared]
    by_cases ha : f.add = false
    · rw [if_pos ha, if_pos ⟨hp.1, hp.2.1, hp.2.2, ha⟩]
      exact advance_added ..
    · rw [if_neg ha, if_neg fun hx => ha hx.2.2.2]
      exact iterate_exited 2 false
  · rw [if_neg hp, if_neg fun hx => hp ⟨hx.1, hx.2.1, hx.2.2.1⟩]
    exact iterate_exited 3 false

/-- The checkout takes three commands. -/
theorem advance_start :
    (advance tools f a)^[3] (.start, w) =
      match checkout f a w with
      | (some wt, w') => (.checkedOut wt, w')
      | (none, w') => (.exited false, w') := by
  have h : (advance tools f a)^[3] (.start, w) =
      advance tools f a (advance tools f a (advance tools f a (.start, w))) := rfl
  rw [h, advance_eq .start, next_start]
  by_cases ha : Absent f w
  · simp only [if_pos ha, checkout_absent ha, advance_eq .absent, next_absent]
    by_cases hw : f.worktreeAdd = false ∧ w.head ≠ []
    · simp only [if_pos hw, advance, next_detached]
      by_cases hs : SwitchFails f w
      · simp only [if_pos hs]
        rfl
      · simp only [if_neg hs]
    · simp only [if_neg hw]
      rfl
  · simp only [if_neg ha, checkout_found ha, advance_eq .found, next_found]
    by_cases hf : f.fetch = false ∧ w.remote ≠ [] ∧ w.tracking <:+ w.remote
    · simp only [if_pos hf, advance, next_fetched]
      by_cases hw : f.worktreeAdd = false
      · simp only [if_pos hw]
      · simp only [if_neg hw]
    · simp only [if_neg hf]
      rfl

/-- **The script is its commands**: on its own, a run is over after seven of them, as the
    script is. -/
theorem advance_publish :
    (advance tools f a)^[7] (.start, w) =
      (.exited (publish tools f a w).1.isSome, (publish tools f a w).2) := by
  have h : (advance tools f a)^[7] (.start, w) =
      (advance tools f a)^[4] ((advance tools f a)^[3] (.start, w)) := rfl
  rw [h, advance_start]
  by_cases hx : ∃ onBranch base readme, Starts f w onBranch base readme
  · obtain ⟨onBranch, base, readme, hst⟩ := hx
    obtain ⟨w', -, -, hco⟩ := checkout_starts (a := a) hst
    rw [hco, publish_checkout hco, advance_of]
    split <;> rfl
  · simp only [not_exists] at hx
    obtain ⟨w', -, -, -, hco⟩ := checkout_not_starts (a := a) hx
    rw [hco, publish, sh_bind, hco]
    exact iterate_exited 4 false

end Advance

/-! ## 2. The runs -/

/-- The refs of a clone. -/
structure Clone where
  localBranch : History
  tracking : History
  head : History

/-- The branch on the remote, each run's clone and where the run is, and the runs whose push
    was accepted, newest first. -/
structure Runs (ι : Type) where
  remote : History
  clone : ι → Clone
  pc : ι → Pc
  accepted : List ι

/-- Before anything was published. -/
def Runs.start {ι : Type} (clone : ι → Clone) : Runs ι := ⟨[], clone, fun _ => .start, []⟩

/-- What can be relied on in a clone of one's own: the orphan switch, `ls` and the checksum
    programs work, and there are no ignore rules or attributes besides those of the branch. -/
structure Faults.Sound (f : Faults) : Prop where
  switch : f.switch = false
  silent : f.silent = {}
  bare : f.Bare

section Runs

variable {ι : Type}

/-- What a run sees: the remote and its own clone. -/
def Runs.world (s : Runs ι) (i : ι) : World :=
  ⟨s.remote, (s.clone i).localBranch, (s.clone i).tracking, (s.clone i).head⟩

def World.clone (w : World) : Clone := ⟨w.localBranch, w.tracking, w.head⟩

/-- The command was a push, and it went through. -/
def pushed : Pc → Pc → Bool
  | .committed, .exited ok => ok
  | _, _ => false

variable [DecidableEq ι] (tools : Tools) (faults : ι → Faults) (args : ι → Args)

/-- A run takes its next command. -/
def Runs.turn (s : Runs ι) (i : ι) : Runs ι :=
  let r := advance tools (faults i) (args i) (s.pc i, s.world i)
  ⟨r.2.remote, Function.update s.clone i r.2.clone, Function.update s.pc i r.1,
    if pushed (s.pc i) r.1 then i :: s.accepted else s.accepted⟩

/-- A run is killed. -/
def Runs.kill (s : Runs ι) (i : ι) : Runs ι :=
  { s with pc := Function.update s.pc i (.exited false) }

/-- The runs take turns in any order. -/
inductive Runs.Step : Runs ι → Runs ι → Prop where
  | turn (s : Runs ι) (i : ι) : Runs.Step s (s.turn tools faults args i)
  | kill (s : Runs ι) (i : ι) : Runs.Step s (s.kill i)

/-! ## 3. What has happened -/

/-- On the way from `start` to `s` the run took its turn at `s₁`. -/
structure Took (start : Runs ι) (i : ι) (s₁ s : Runs ι) : Prop where
  before : ReflTransGen (Runs.Step tools faults args) start s₁
  after : ReflTransGen (Runs.Step tools faults args) (s₁.turn tools faults args i) s

/-- The run has fetched the branch at this history. -/
def Fetched (start : Runs ι) (i : ι) (s : Runs ι) (base : History) : Prop :=
  ∃ s₁, Took tools faults args start i s₁ s ∧ s₁.pc i = .found ∧
    (s₁.turn tools faults args i).pc i = .fetched ∧ s₁.remote = base

/-- **The run has published**: its push went through and left its files at the tip of the branch,
    or its fetch found them there. -/
inductive Published (start : Runs ι) (i : ι) (s : Runs ι) : Prop where
  | pushed {s₁} (h : Took tools faults args start i s₁ s) (hpc : s₁.pc i = .committed)
      (hok : (s₁.turn tools faults args i).pc i = .exited true)
      (hh : Holds (args i) (s₁.turn tools faults args i).remote)
  | found {s₁} (h : Took tools faults args start i s₁ s) (hpc : s₁.pc i = .found)
      (hok : (s₁.turn tools faults args i).pc i = .fetched) (hh : Holds (args i) s₁.remote)

variable {tools faults args} {start s s' : Runs ι} {a : System ι} {i : ι} {base : History}

theorem Fetched.step (h : Fetched tools faults args start i s base)
    (hs : Runs.Step tools faults args s s') : Fetched tools faults args start i s' base := by
  obtain ⟨s₁, ht, hf⟩ := h
  exact ⟨s₁, ⟨ht.before, ht.after.tail hs⟩, hf⟩

theorem Published.step (h : Published tools faults args start i s)
    (hs : Runs.Step tools faults args s s') : Published tools faults args start i s' := by
  cases h with
  | pushed h hpc hok hh => exact .pushed ⟨h.before, h.after.tail hs⟩ hpc hok hh
  | found h hpc hok hh => exact .found ⟨h.before, h.after.tail hs⟩ hpc hok hh

/-- If what the run fetched holds its files, it has published. -/
theorem Fetched.published (h : Fetched tools faults args start i s base) (hh : Holds (args i) base) :
    Published tools faults args start i s := by
  obtain ⟨s₁, ht, hpc, hok, rfl⟩ := h
  exact .found ht hpc hok hh

/-! ## 4. The simulation -/

/-- What a run works on: nothing, or what it fetched. -/
def Based (tools : Tools) (faults : ι → Faults) (args : ι → Args) (start : Runs ι) (i : ι)
    (s : Runs ι) (base : History) : Prop :=
  base = [] ∨ Fetched tools faults args start i s base

/-- Where the run is in the abstract system, by where it is in the script. -/
def At (tools : Tools) (faults : ι → Faults) (args : ι → Args) (start : Runs ι) (i : ι)
    (s : Runs ι) (c : Clone) : Pc → Phase → Prop
  | .start, p => p = .queued ∧ c.localBranch = []
  | .found, p => p = .queued
  | .fetched, p => p = .checkedOut c.tracking ∧ c.tracking ≠ [] ∧
      Fetched tools faults args start i s c.tracking
  | .absent, p | .detached _, p => p = .checkedOut [] ∧ c.localBranch = []
  | .checkedOut wt, p => ∃ base, wt = .of (args i) true base base.isEmpty ∧
      p = .checkedOut base ∧ Based tools faults args start i s base
  | .prepared wt, p => ∃ base,
      wt = ⟨true, base, base.isEmpty,
        worktreeOf tools (faults i) (args i) (checkedOut (args i) base)⟩ ∧
      (args i).files ≠ ∅ ∧ p = .regenerated base wt.files ∧
      Based tools faults args start i s base
  | .added onBranch base t, p => onBranch = true ∧ p = .regenerated base t ∧
      Based tools faults args start i s base
  | .committed, p => p = .committed c.localBranch
  | .exited true, _ => Published tools faults args start i s
  | .exited false, _ => True

/-- The relation between the runs and the abstract system. -/
structure Matches (tools : Tools) (faults : ι → Faults) (args : ι → Args) (start s : Runs ι)
    (a : System ι) : Prop where
  reached : ReflTransGen (Runs.Step tools faults args) start s
  remote : a.remote = s.remote
  accepted : a.accepted = s.accepted
  runs : ∀ i, At tools faults args start i s (s.clone i) (s.pc i) (a.phase i)

/-- The tree a run checks out is that of Branch.lean. -/
theorem withReadme_isEmpty (b : Args) (base : History) :
    withReadme b base.isEmpty (treeOf base) = checkedOut b base := by
  cases base <;> rfl

theorem Based.step (h : Based tools faults args start i s base)
    (hs : Runs.Step tools faults args s s') : Based tools faults args start i s' base :=
  h.imp_right fun h => h.step hs

/-- What others do changes nothing of where a run is. -/
theorem at_step {c : Clone} {pc : Pc} {p : Phase} (hs : Runs.Step tools faults args s s')
    (h : At tools faults args start i s c pc p) : At tools faults args start i s' c pc p := by
  cases pc with
  | fetched => exact ⟨h.1, h.2.1, h.2.2.step hs⟩
  | checkedOut wt =>
    obtain ⟨base, hwt, hp, hb⟩ := h
    exact ⟨base, hwt, hp, hb.step hs⟩
  | prepared wt =>
    obtain ⟨base, hwt, hf, hp, hb⟩ := h
    exact ⟨base, hwt, hf, hp, hb.step hs⟩
  | added onBranch base t => exact ⟨h.1, h.2.1, h.2.2.step hs⟩
  | exited ok =>
    cases ok with
    | true => exact Published.step h hs
    | false => trivial
  | _ => exact h

/-- A command that leaves the remote alone, matched by moving the run in the abstract system. -/
theorem matches_move (hM : Matches tools faults args start s a) {pc pc' : Pc} {w : World}
    {p : Phase} (hpc : s.pc i = pc)
    (hnext : next tools (faults i) (args i) pc (s.world i) = (some pc', w))
    (hw : w.remote = s.remote) (hp : pushed pc pc' = false)
    (hat : At tools faults args start i (s.turn tools faults args i) w.clone pc' p) :
    Matches tools faults args start (s.turn tools faults args i) (a.move i p) := by
  have hstep : Runs.Step tools faults args s (s.turn tools faults args i) := .turn s i
  have hturn : s.turn tools faults args i = ⟨s.remote, Function.update s.clone i w.clone,
      Function.update s.pc i pc', s.accepted⟩ := by
    simp only [Runs.turn, advance, hpc, hnext, hw, hp, Bool.false_eq_true, if_false]
  refine ⟨hM.reached.tail hstep, ?_, ?_, fun j => ?_⟩
  · rw [hturn]
    exact hM.remote
  · rw [hturn]
    exact hM.accepted
  · have hclone : (s.turn tools faults args i).clone j =
        if j = i then w.clone else s.clone j := by
      rw [hturn]
      exact Function.update_apply ..
    have hpcs : (s.turn tools faults args i).pc j = if j = i then pc' else s.pc j := by
      rw [hturn]
      exact Function.update_apply ..
    rw [hclone, hpcs]
    by_cases hj : j = i
    · subst hj
      simpa [System.move] using hat
    · simpa [System.move, hj] using at_step hstep (hM.runs j)

/-- A command the abstract system takes no step for. -/
theorem matches_stutter (hM : Matches tools faults args start s a) {pc pc' : Pc} {w : World}
    (hpc : s.pc i = pc) (hnext : next tools (faults i) (args i) pc (s.world i) = (some pc', w))
    (hw : w.remote = s.remote) (hp : pushed pc pc' = false)
    (hat : At tools faults args start i (s.turn tools faults args i) w.clone pc' (a.phase i)) :
    ∃ a', Steps tools args a a' ∧
      Matches tools faults args start (s.turn tools faults args i) a' := by
  have h := matches_move hM hpc hnext hw hp hat
  have e : a.move i (a.phase i) = a := by
    simp [System.move, Function.update_eq_self]
  exact ⟨a, .refl, by rwa [e] at h⟩

/-- A failing command ends the run; nothing else changes. -/
theorem matches_fail (hM : Matches tools faults args start s a) {pc : Pc} (hpc : s.pc i = pc)
    (hnext : next tools (faults i) (args i) pc (s.world i) = (none, s.world i)) :
    ∃ a', Steps tools args a a' ∧
      Matches tools faults args start (s.turn tools faults args i) a' := by
  have hstep : Runs.Step tools faults args s (s.turn tools faults args i) := .turn s i
  have hp : pushed pc (.exited false) = false := by cases pc <;> rfl
  have hclone : (s.world i).clone = s.clone i := rfl
  have hturn : s.turn tools faults args i = s.kill i := by
    simp only [Runs.turn, advance, hpc, hnext, hp, hclone, Function.update_eq_self,
      Bool.false_eq_true, if_false]
    rfl
  refine ⟨a, .refl, hM.reached.tail hstep, ?_, ?_, fun j => ?_⟩
  · rw [hturn]
    exact hM.remote
  · rw [hturn]
    exact hM.accepted
  · have hat := at_step hstep (hM.runs j)
    rw [hturn] at hat ⊢
    by_cases hj : j = i
    · subst hj
      simp [Runs.kill, At]
    · simpa [Runs.kill, Function.update_of_ne hj] using hat

/-- **An accepted push** is one of the abstract system, and leaves the run's files at the tip. -/
theorem matches_push (hM : Matches tools faults args start s a) (hinv : Inv tools args a)
    (hpc : s.pc i = .committed)
    (ha : (faults i).push = false ∧ Accepts s.remote (s.clone i).localBranch) :
    ∃ a', Steps tools args a a' ∧
      Matches tools faults args start (s.turn tools faults args i) a' := by
  have hphase : a.phase i = .committed (s.clone i).localBranch := by
    have h := hM.runs i
    rwa [hpc] at h
  obtain ⟨c, base, hc, -, hprep⟩ := phaseOk_of hinv hphase
  have hstep : Step tools args a { a.move i .ended with
      remote := (s.clone i).localBranch, accepted := i :: a.accepted } :=
    .push hphase (by rw [hM.remote]; exact ha.2)
  have hstep' : Runs.Step tools faults args s (s.turn tools faults args i) := .turn s i
  have hturn : s.turn tools faults args i = ⟨(s.clone i).localBranch,
      Function.update s.clone i ⟨(s.clone i).localBranch, (s.clone i).localBranch,
        (s.clone i).head⟩, Function.update s.pc i (.exited true), i :: s.accepted⟩ := by
    have hnext : next tools (faults i) (args i) .committed (s.world i) =
        (some (.exited true), { s.world i with
          remote := (s.clone i).localBranch, tracking := (s.clone i).localBranch }) :=
      next_committed.trans (if_pos ha)
    simp only [Runs.turn, advance, hpc, hnext]
    rfl
  have hpub : Published tools faults args start i (s.turn tools faults args i) := by
    refine .pushed ⟨hM.reached, .refl⟩ hpc ?_ ?_
    · rw [hturn]
      exact Function.update_self ..
    · rw [hturn, hc]
      exact holds_cons.mpr (carries_prepared hprep)
  refine ⟨_, .single hstep, hM.reached.tail hstep', ?_, ?_, fun j => ?_⟩
  · rw [hturn]
  · rw [hturn, ← hM.accepted]
  · have hat := at_step hstep' (hM.runs j)
    by_cases hj : j = i
    · subst hj
      have hend : (s.turn tools faults args j).pc j = .exited true := by
        rw [hturn]
        exact Function.update_self ..
      rw [hend]
      exact hpub
    · have hclone : (s.turn tools faults args i).clone j = s.clone j := by
        rw [hturn]
        exact Function.update_of_ne hj ..
      have hpcs : (s.turn tools faults args i).pc j = s.pc j := by
        rw [hturn]
        exact Function.update_of_ne hj ..
      rw [hclone, hpcs]
      simpa [System.move, Function.update_of_ne hj] using hat

/-- Looking the branch up: only a branch that is not found is a step of the abstract system,
    the other takes its step with the fetch. -/
theorem start_matches (hM : Matches tools faults args start s a) (hpc : s.pc i = .start) :
    ∃ a', Steps tools args a a' ∧
      Matches tools faults args start (s.turn tools faults args i) a' := by
  have hat := hM.runs i
  rw [hpc] at hat
  obtain ⟨hq, hl⟩ := hat
  by_cases ha : Absent (faults i) (s.world i)
  · exact ⟨_, .single (.lookUpAbsent hq),
      matches_move hM hpc (next_start.trans (if_pos ha)) rfl rfl ⟨rfl, hl⟩⟩
  · exact matches_stutter hM hpc (next_start.trans (if_neg ha)) rfl rfl hq

theorem found_matches (hM : Matches tools faults args start s a) (hpc : s.pc i = .found) :
    ∃ a', Steps tools args a a' ∧
      Matches tools faults args start (s.turn tools faults args i) a' := by
  have hq := hM.runs i
  rw [hpc] at hq
  by_cases hf : (faults i).fetch = false ∧ (s.world i).remote ≠ [] ∧
      (s.world i).tracking <:+ (s.world i).remote
  · have hnext : next tools (faults i) (args i) .found (s.world i) =
        (some .fetched, { s.world i with tracking := s.remote }) := next_found.trans (if_pos hf)
    have hturn : (s.turn tools faults args i).pc i = .fetched := by
      simp [Runs.turn, advance, hpc, hnext]
    have hfetch : Fetched tools faults args start i (s.turn tools faults args i) s.remote :=
      ⟨s, ⟨hM.reached, .refl⟩, hpc, hturn, rfl⟩
    refine ⟨_, .single (.lookUp hq (by rw [hM.remote]; exact hf.2.1)),
      matches_move hM hpc hnext rfl rfl ?_⟩
    rw [hM.remote]
    exact ⟨rfl, hf.2.1, hfetch⟩
  · exact matches_fail hM hpc (next_found.trans (if_neg hf))

theorem fetched_matches (hM : Matches tools faults args start s a) (hpc : s.pc i = .fetched) :
    ∃ a', Steps tools args a a' ∧
      Matches tools faults args start (s.turn tools faults args i) a' := by
  have hat := hM.runs i
  rw [hpc] at hat
  obtain ⟨hp, hne, hfetch⟩ := hat
  by_cases hf : (faults i).worktreeAdd = false
  · refine matches_stutter hM hpc (next_fetched.trans (if_pos hf)) rfl rfl
      ⟨(s.clone i).tracking, ?_, hp, Or.inr (hfetch.step (.turn s i))⟩
    rw [List.isEmpty_eq_false_iff.mpr hne]
    rfl
  · exact matches_fail hM hpc (next_fetched.trans (if_neg hf))

theorem absent_matches (hM : Matches tools faults args start s a) (hpc : s.pc i = .absent) :
    ∃ a', Steps tools args a a' ∧
      Matches tools faults args start (s.turn tools faults args i) a' := by
  have hat := hM.runs i
  rw [hpc] at hat
  by_cases hf : (faults i).worktreeAdd = false ∧ (s.world i).head ≠ []
  · exact matches_stutter hM hpc (next_absent.trans (if_pos hf)) rfl rfl hat
  · exact matches_fail hM hpc (next_absent.trans (if_neg hf))

/-- In a fresh clone the orphan switch works. -/
theorem detached_matches (hs : (faults i).switch = false)
    (hM : Matches tools faults args start s a) {wt : Worktree} (hpc : s.pc i = .detached wt) :
    ∃ a', Steps tools args a a' ∧
      Matches tools faults args start (s.turn tools faults args i) a' := by
  have hat := hM.runs i
  rw [hpc] at hat
  obtain ⟨hp, hl⟩ := hat
  have hsw : ¬ SwitchFails (faults i) (s.world i) := by
    simp [SwitchFails, hs, Runs.world, hl]
  exact matches_stutter hM hpc ((next_detached wt).trans (if_neg hsw)) rfl rfl
    ⟨[], rfl, hp, Or.inl rfl⟩

/-- Staging and regenerating are two steps of the abstract system. -/
theorem checkedOut_matches (hs : (faults i).silent = {})
    (hM : Matches tools faults args start s a) {wt : Worktree} (hpc : s.pc i = .checkedOut wt) :
    ∃ a', Steps tools args a a' ∧
      Matches tools faults args start (s.turn tools faults args i) a' := by
  have hat := hM.runs i
  rw [hpc] at hat
  obtain ⟨base, rfl, hp, hb⟩ := hat
  have hnext : next tools (faults i) (args i) (.checkedOut (.of (args i) true base base.isEmpty))
      (s.world i) = _ := next_checkedOut _
  rw [prepare_of] at hnext
  by_cases hg : (faults i).cp = false ∧ (args i).files ≠ ∅ ∧ (treeOf base).Free
  · rw [if_pos hg, withReadme_isEmpty] at hnext
    let a₁ := a.move i (.staged base
      (stage (args i).version (args i).files (checkedOut (args i) base)))
    have h₁ : Step tools args a a₁ := .stage hp hg.2.1
    have h₂ : Step tools args a₁ (a₁.move i _) :=
      .regenerate (phase_move ..) (regenerate_worktreeOf hs (free_checkedOut hg.2.2 _))
    have hM₁ := matches_move hM hpc hnext rfl rfl
      ⟨base, rfl, hg.2.1, rfl, hb.step (.turn s i)⟩
    refine ⟨_, (ReflTransGen.single h₁).tail h₂, ?_⟩
    simpa [a₁, System.move] using hM₁
  · rw [if_neg hg] at hnext
    exact matches_fail hM hpc hnext

/-- On a branch without rules `git add .` takes the worktree as it is. -/
theorem prepared_matches (hs : (faults i).Bare) (hM : Matches tools faults args start s a)
    (hinv : Inv tools args a) {wt : Worktree} (hpc : s.pc i = .prepared wt) :
    ∃ a', Steps tools args a a' ∧
      Matches tools faults args start (s.turn tools faults args i) a' := by
  have hat := hM.runs i
  rw [hpc] at hat
  obtain ⟨base, rfl, hf, hp, hb⟩ := hat
  have hnone : (faults i).rules (treeOf base) = .none :=
    hs _ (hinv.ruleless_treeOf (phaseOk_of hinv hp).1)
  have hindex : gitAdd ((faults i).rules (treeOf base)) (args i).version base.isEmpty (treeOf base)
      (worktreeOf tools (faults i) (args i) (checkedOut (args i) base)) =
      worktreeOf tools (faults i) (args i) (checkedOut (args i) base) := by
    rw [← withReadme_isEmpty]
    exact index_of_none hf hnone
  by_cases ha : (faults i).add = false
  · refine matches_stutter hM hpc ((next_prepared _).trans (if_pos ha)) rfl rfl
      ⟨rfl, ?_, hb.step (.turn s i)⟩
    rw [hindex]
    exact hp
  · exact matches_fail hM hpc ((next_prepared _).trans (if_neg ha))

/-- With nothing to commit, what the run fetched has its files already. -/
theorem added_matches (hM : Matches tools faults args start s a) (hinv : Inv tools args a)
    {onBranch : Bool} {t : Tree} (hpc : s.pc i = .added onBranch base t) :
    ∃ a', Steps tools args a a' ∧
      Matches tools faults args start (s.turn tools faults args i) a' := by
  have hat := hM.runs i
  rw [hpc] at hat
  obtain ⟨rfl, hp, hb⟩ := hat
  by_cases hc : Changes base t
  · by_cases hcommit : (faults i).commit = false
    · have h₁ : Step tools args a (a.move i (.committed
          (⟨t, commitMessage (args i).version, (faults i).stamp⟩ :: base))) := .commit hp hc
      exact ⟨_, .single h₁, matches_move hM hpc
        ((next_added ..).trans ((if_pos hc).trans (if_pos hcommit))) (committed_remote ..) rfl rfl⟩
    · exact matches_fail hM hpc ((next_added ..).trans ((if_pos hc).trans (if_neg hcommit)))
  · have hcarries := carries_prepared (phaseOk_of hinv hp).2
    obtain ⟨text, hm, -⟩ := hcarries.2
    obtain ⟨c, rest, rfl, rfl⟩ := exists_head_of_not_changes hm hc
    refine matches_stutter hM hpc ((next_added ..).trans (if_neg hc)) rfl rfl ?_
    rcases hb with e | hfetch
    · cases e
    · exact (hfetch.step (.turn s i)).published (holds_cons.mpr hcarries)

theorem committed_matches (hM : Matches tools faults args start s a) (hinv : Inv tools args a)
    (hpc : s.pc i = .committed) :
    ∃ a', Steps tools args a a' ∧
      Matches tools faults args start (s.turn tools faults args i) a' := by
  by_cases ha : (faults i).push = false ∧ Accepts s.remote (s.clone i).localBranch
  · exact matches_push hM hinv hpc ha
  · exact matches_fail hM hpc (by rw [next_committed]; exact if_neg ha)

/-- **The step lemma**: one command of one run is some steps of the abstract system. -/
theorem step_matches (hs : ∀ i, (faults i).Sound) (hM : Matches tools faults args start s a)
    (hinv : Inv tools args a) (h : Runs.Step tools faults args s s') :
    ∃ a', Steps tools args a a' ∧ Matches tools faults args start s' a' := by
  cases h with
  | kill i =>
    refine ⟨a, .refl, hM.reached.tail (.kill s i), hM.remote, hM.accepted, fun j => ?_⟩
    have hat := at_step (.kill s i) (hM.runs j)
    by_cases hj : j = i
    · subst hj
      simp [Runs.kill, At]
    · simpa [Runs.kill, Function.update_of_ne hj] using hat
  | turn i =>
    cases hpc : s.pc i with
    | start => exact start_matches hM hpc
    | found => exact found_matches hM hpc
    | fetched => exact fetched_matches hM hpc
    | absent => exact absent_matches hM hpc
    | detached wt => exact detached_matches (hs i).switch hM hpc
    | checkedOut wt => exact checkedOut_matches (hs i).silent hM hpc
    | prepared wt => exact prepared_matches (hs i).bare hM hinv hpc
    | added onBranch base t => exact added_matches hM hinv hpc
    | committed => exact committed_matches hM hinv hpc
    | exited ok =>
      have hat := at_step (.turn s i) (hM.runs i)
      rw [hpc] at hat
      exact matches_stutter hM hpc rfl rfl rfl hat

/-! ## 5. Every interleaving -/

/-- A turn is the run's next command on what the run sees. -/
theorem turn_advance (s : Runs ι) (i : ι) :
    ((s.turn tools faults args i).pc i, (s.turn tools faults args i).world i) =
      advance tools (faults i) (args i) (s.pc i, s.world i) := by
  simp [Runs.turn, Runs.world, World.clone]

theorem exists_turns (s : Runs ι) (i : ι) (n : Nat) :
    ∃ s', ReflTransGen (Runs.Step tools faults args) s s' ∧
      (s'.pc i, s'.world i) = (advance tools (faults i) (args i))^[n] (s.pc i, s.world i) := by
  induction n with
  | zero => exact ⟨s, .refl, rfl⟩
  | succ n ih =>
    obtain ⟨s', hs, e⟩ := ih
    refine ⟨_, hs.tail (.turn s' i), ?_⟩
    rw [turn_advance, e, Function.iterate_succ_apply']

/-- **A run that nobody interrupts is the script**: it ends as the script does, and leaves what
    the script leaves. -/
theorem run_alone (tools : Tools) (faults : ι → Faults) (args : ι → Args) (hi : s.pc i = .start) :
    ∃ s', ReflTransGen (Runs.Step tools faults args) s s' ∧
      (s'.pc i, s'.world i) =
        (.exited (publish tools (faults i) (args i) (s.world i)).1.isSome,
          (publish tools (faults i) (args i) (s.world i)).2) := by
  obtain ⟨s', hs, e⟩ := exists_turns s i 7
  rw [hi, advance_publish] at e
  exact ⟨s', hs, e⟩

/-- Every run starts in a clone without the branch. -/
theorem matches_start {clone : ι → Clone} (hl : ∀ i, (clone i).localBranch = []) :
    Matches tools faults args (Runs.start clone) (Runs.start clone) (initial ι) :=
  ⟨.refl, rfl, rfl, fun i => ⟨rfl, hl i⟩⟩

/-- **Every interleaving of the commands is a run of the abstract system**, with the same branch
    and the same pushes accepted. -/
theorem runs_match (hs : ∀ i, (faults i).Sound) :
    Simulation.Forward (fun s a => Matches tools faults args start s a ∧ Inv tools args a)
      (Runs.Step tools faults args) (Step tools args) :=
  Simulation.Forward.and_inv (fun _ _ => step_inv) fun _ _ _ hM hinv => step_matches hs hM hinv

/-- **The releases branch under every interleaving of the script's commands**, each run in a
    fresh clone and any run killed anywhere. The interleaving is a run of the system of pushes,
    so the branch is the one that the runs with an accepted push make one after the other; each
    version directory holds the files of the last of them for it, and the metadata at the tip is
    consistent. A run that exits with 0 has published its files. And the history is only ever
    added to. -/
theorem scripts_branch (tools : Tools) (faults : ι → Faults) (args : ι → Args)
    (hs : ∀ i, (faults i).Sound) (clone : ι → Clone)
    (hl : ∀ i, (clone i).localBranch = [])
    (h : ReflTransGen (Runs.Step tools faults args) (Runs.start clone) s) :
    (∃ a, Steps tools args (initial ι) a ∧ a.remote = s.remote ∧ a.accepted = s.accepted) ∧
    Sequential tools args s.accepted s.remote ∧
    (∀ n, dirAt s.remote n = lastAccepted args s.accepted n) ∧
    (∀ c rest, s.remote = c :: rest → ∃ text, Consistent tools c.tree text) ∧
    (∀ i, s.pc i = .exited true → Published tools faults args (Runs.start clone) i s) ∧
    ∀ s', ReflTransGen (Runs.Step tools faults args) s s' → s.remote <:+ s'.remote := by
  obtain ⟨a, ha, hM, hinv⟩ := (runs_match hs).steps ⟨matches_start hl, inv_initial⟩ h
  refine ⟨⟨a, ha, hM.remote, hM.accepted⟩, ?_, ?_, ?_, ?_, ?_⟩
  · rw [← hM.remote, ← hM.accepted]
    exact (sequential_steps ha).2.2
  · intro n
    rw [← hM.remote, ← hM.accepted]
    exact hinv.contents n
  · intro c rest e
    exact (hinv.commits c (by rw [hM.remote, e]; exact List.mem_cons_self)).2
  · intro i hi
    have hat := hM.runs i
    rwa [hi] at hat
  · intro s' hs'
    obtain ⟨a', ha', hM', -⟩ := (runs_match hs).steps ⟨hM, hinv⟩ hs'
    rw [← hM.remote, ← hM'.remote]
    exact steps_remote ha'

end Runs

/-- A run that publishes 0.0.1 on its own, in a fresh clone. -/
theorem scripts_branch_first :
    ∃ (tools : Tools) (faults : Unit → Faults) (fresh s : Runs Unit),
      ReflTransGen (Runs.Step tools faults fun _ => firstRelease) fresh s ∧
      s.pc () = .exited true ∧
      Published tools faults (fun _ => firstRelease) fresh () s := by
  let tools : Tools := ⟨fun _ => "", fun _ => ""⟩
  let fresh : Runs Unit := Runs.start fun _ => ⟨[], [], clone.head⟩
  obtain ⟨s, hs, hend⟩ := run_alone tools (fun _ => {}) (fun _ => firstRelease) (s := fresh)
    (i := ()) rfl
  have hok : (publish tools {} firstRelease (fresh.world ())).1 = some () :=
    publish_succeeds tools firstRelease _ (by decide) rfl List.nil_suffix (List.cons_ne_nil _ _)
      ⟨rfl, rfl, rfl⟩
  rw [hok] at hend
  have hpc : s.pc () = .exited true := congrArg Prod.fst hend
  have hsound : ∀ _ : Unit, Faults.Sound {} := fun _ => ⟨rfl, rfl, fun _ _ => rfl⟩
  exact ⟨tools, fun _ => {}, fresh, s, hs, hpc, (scripts_branch tools (fun _ => {})
    (fun _ => firstRelease) hsound _ (fun _ => rfl) hs).2.2.2.2.1 () hpc⟩

end OnymSdk.Release
