/-
  File:      OnymSdk/Release/Index.lean
  Subject:   `git add .`: WHAT OF A WORKTREE GETS INTO THE COMMIT.

  Git leaves out an untracked file that an ignore rule covers, and attributes decide
  what it stores of a file (line ends, filters). The rules are those of the clone and of
  the files that were checked out; a run writes no file of theirs.

  * `Rules` -- what the rules in force do to a file;
  * `Faults` -- the environment of a run: the rules, the clock, the failing commands;
  * `gitAdd`, `index` -- the index of a worktree, and of the worktree of a run;
  * `Stored`, `stored_iff` -- the index of a run, each path by itself;
  * `carries_iff` -- **when it carries the run's files**;
  * `index_of_none` -- without rules it is the worktree.
-/
import OnymSdk.Release.Publish
import OnymSdk.Lib.FiniteMaps

namespace OnymSdk.Release

open FiniteMaps

/-! ## 1. Rules -/

/-- What ignore rules and attributes do to the files a run writes: which of them are left out if
    untracked, and what is stored of the others. -/
structure Rules where
  ignores : String → Bool
  bytes : String → List UInt8 → List UInt8
  text : String → Text → Text

/-- No rules. -/
def Rules.none : Rules := ⟨fun _ => false, fun _ x => x, fun _ x => x⟩

/-- The environment of a run: the commands that fail for reasons outside the refs (network,
    permissions, hooks, disk), with a notice or without; whether the remote has a branch whose
    name goes on in front of that of the branch, as `old/releases`; the rules where a tree is
    checked out; and the clock. `cp` stands for all commands from `rm -rf` to the last checksum, and
    so for a file of the branch in the place of a directory on the way to the version's; a clean-up
    of the scratch directory that fails shows as the `fetch` or the `worktreeAdd` after it. -/
structure Faults where
  lsRemote : Bool := false
  namesake : Bool := false
  fetch : Bool := false
  worktreeAdd : Bool := false
  switch : Bool := false
  cp : Bool := false
  add : Bool := false
  commit : Bool := false
  push : Bool := false
  silent : Silent := {}
  rules : Tree → Rules := fun _ => .none
  now : String := ""
  stamp : Nat := 0

/-- The clone and its user have no rules of their own. -/
def Faults.Bare (f : Faults) : Prop := ∀ t, Ruleless t → f.rules t = .none

/-- A name of the artifact's directory as a path. -/
def artifactPath (n : String) : String := "chat/onym/" ++ ARTIFACT ++ "/" ++ n

def README : String := "README.md"

/-- The index has the file of that name. -/
def Tree.tracks (t : Tree) (n : String) : Bool := (t.file? n).isSome

/-- The index has the file in the directory. -/
def Tree.tracksIn (t : Tree) (dir name : String) : Bool :=
  ((t.dir? dir).bind fun files => files.lookup name).isSome

/-! ## 2. The index -/

/-- What is stored of a file, if anything. -/
def Rules.store {α : Type} (r : Rules) (convert : String → α → α) (path : String) (tracked : Bool)
    (x : α) : Option α :=
  if tracked = false ∧ r.ignores path = true then .none else some (convert path x)

/-- What is stored under a name of the artifact's directory; there are no empty directories. -/
def Rules.entry (r : Rules) (index : Tree) (n : String) : Entry → Option Entry
  | .dir files =>
    let kept : Files := filterMap (fun name x =>
      r.store r.bytes (artifactPath n ++ "/" ++ name) (index.tracksIn n name) x) files
    if kept = ∅ then .none else some (.dir kept)
  | .file text => (r.store r.text (artifactPath n) (index.tracks n) text).map .file

/-- `git add .`: what was written since the checkout is stored, and the rest is in the index as it
    was checked out. -/
def gitAdd (r : Rules) (v : Version) (readme : Bool) (index files : Tree) : Tree where
  artifact := filterMap (fun n e => if writes v n then r.entry index n e else some e) files.artifact
  others := filterMap (fun path text =>
    if readme = true ∧ path = README then
      r.store r.text path (index.others.lookup path).isSome text
    else some text) files.others

section Run

variable (tools : Tools) (f : Faults) (a : Args)

/-- The metadata a run prints. -/
def metadataOf (t : Tree) : Text := f.silent.metadata f.now (stage a.version a.files t)

/-- The worktree after staging and printing. -/
def worktreeOf (t : Tree) : Tree :=
  (stage a.version a.files t).print (metadataOf f a t) (f.silent.md5 tools (metadataOf f a t))
    (f.silent.sha1 tools (metadataOf f a t))

/-- The tree that was checked out, with the README if the run has written one. -/
def withReadme (readme : Bool) (t : Tree) : Tree := if readme then writeReadme a t else t

/-- The index of a run that started from the commit. -/
def index (readme : Bool) (base : History) : Tree :=
  gitAdd (f.rules (treeOf base)) a.version readme (treeOf base)
    (worktreeOf tools f a (withReadme a readme (treeOf base)))

/-- The tree is the index of the run: each path that the run writes to has what is stored
    there, and every other one what was checked out. -/
structure Stored (readme : Bool) (base : History) (t : Tree) : Prop where
  version : t.artifact.lookup a.version.name =
    (f.rules (treeOf base)).entry (treeOf base) a.version.name (.dir a.files)
  metadata : t.artifact.lookup META =
    (f.rules (treeOf base)).entry (treeOf base) META (.file (metadataOf f a (treeOf base)))
  md5 : t.artifact.lookup META_MD5 = (f.rules (treeOf base)).entry (treeOf base) META_MD5
    (.file (f.silent.md5 tools (metadataOf f a (treeOf base))))
  sha1 : t.artifact.lookup META_SHA1 = (f.rules (treeOf base)).entry (treeOf base) META_SHA1
    (.file (f.silent.sha1 tools (metadataOf f a (treeOf base))))
  notice : readme = true → t.others.lookup README =
    (f.rules (treeOf base)).store (f.rules (treeOf base)).text README
      ((treeOf base).others.lookup README).isSome (readmeText a.repo a.branch)
  artifact : ∀ n, writes a.version n = false →
    t.artifact.lookup n = (treeOf base).artifact.lookup n
  others : ∀ path, readme = false ∨ path ≠ README →
    t.others.lookup path = (treeOf base).others.lookup path

end Run

section Lookups

variable {tools : Tools} {f : Faults} {a : Args} {readme : Bool} {base : History}

/-- Writing the README changes nothing in the artifact's directory. -/
theorem artifact_withReadme (t : Tree) : (withReadme a readme t).artifact = t.artifact := by
  cases readme <;> rfl

/-- Nor any other file. -/
theorem others_withReadme (t : Tree) {path : String} (h : readme = false ∨ path ≠ README) :
    (withReadme a readme t).others.lookup path = t.others.lookup path := by
  cases readme with
  | false => rfl
  | true =>
    have hne : path ≠ README := by simpa using h
    exact Finmap.lookup_insert_of_ne _ hne

theorem metadataOf_withReadme (t : Tree) :
    metadataOf f a (withReadme a readme t) = metadataOf f a t := by
  cases readme <;> rfl

/-- What the worktree of a run has under the names the run writes under. -/
theorem lookup_worktreeOf (t : Tree) {n : String} {e : Entry}
    (h : (n = a.version.name ∧ e = .dir a.files) ∨ (n = META ∧ e = .file (metadataOf f a t)) ∨
      (n = META_MD5 ∧ e = .file (f.silent.md5 tools (metadataOf f a t))) ∨
      (n = META_SHA1 ∧ e = .file (f.silent.sha1 tools (metadataOf f a t)))) :
    (worktreeOf tools f a t).artifact.lookup n = some e := by
  unfold worktreeOf
  rcases h with ⟨rfl, rfl⟩ | ⟨rfl, rfl⟩ | ⟨rfl, rfl⟩ | ⟨rfl, rfl⟩
  · have hne : ∀ m, VersionNames.glob versionGlob m.toList = false → a.version.name ≠ m :=
      fun m hm => (name_ne_of_glob _ hm).symm
    rw [Tree.lookup_print_of_ne _ _ _ _ ⟨hne _ (by decide), hne _ (by decide), hne _ (by decide)⟩,
      stage, Tree.lookup_write, if_pos rfl]
  · rw [Tree.print, Tree.lookup_write, if_neg (by decide), Tree.lookup_write, if_neg (by decide),
      Tree.lookup_write, if_pos rfl]
  · rw [Tree.print, Tree.lookup_write, if_neg (by decide), Tree.lookup_write, if_pos rfl]
  · rw [Tree.print, Tree.lookup_write, if_pos rfl]

theorem lookup_worktreeOf_of_not_writes (t : Tree) {n : String} (h : writes a.version n = false) :
    (worktreeOf tools f a t).artifact.lookup n = t.artifact.lookup n := by
  obtain ⟨hv, hmeta⟩ := writes_eq_false.mp h
  rw [worktreeOf, Tree.lookup_print_of_ne _ _ _ _ hmeta, stage, Tree.lookup_write, if_neg hv]

/-- A path the run writes to is stored by the rules. -/
theorem lookup_index {n : String} {e : Entry} (hw : writes a.version n = true)
    (h : (worktreeOf tools f a (treeOf base)).artifact.lookup n = some e) :
    (index tools f a readme base).artifact.lookup n =
      (f.rules (treeOf base)).entry (treeOf base) n e := by
  have he : (worktreeOf tools f a (withReadme a readme (treeOf base))).artifact.lookup n = some e := by
    rw [← h]
    cases readme <;> rfl
  rw [index, gitAdd, lookup_filterMap, he, Option.bind_some, if_pos hw]

theorem writes_names (v : Version) : writes v v.name = true ∧ writes v META = true ∧
    writes v META_MD5 = true ∧ writes v META_SHA1 = true := by
  simp [writes]

/-- **The index of a run, each path by itself.** -/
theorem stored_index : Stored tools f a readme base (index tools f a readme base) := by
  obtain ⟨hv, hmeta, hmd5, hsha1⟩ := writes_names a.version
  refine ⟨lookup_index hv ?_, lookup_index hmeta ?_, lookup_index hmd5 ?_, lookup_index hsha1 ?_,
    ?_, ?_, ?_⟩
  · exact lookup_worktreeOf _ (Or.inl ⟨rfl, rfl⟩)
  · exact lookup_worktreeOf _ (Or.inr (Or.inl ⟨rfl, rfl⟩))
  · exact lookup_worktreeOf _ (Or.inr (Or.inr (Or.inl ⟨rfl, rfl⟩)))
  · exact lookup_worktreeOf _ (Or.inr (Or.inr (Or.inr ⟨rfl, rfl⟩)))
  · rintro rfl
    have hr : (writeReadme a (treeOf base)).others.lookup README =
        some (readmeText a.repo a.branch) := Finmap.lookup_insert _
    have hw : (worktreeOf tools f a (withReadme a true (treeOf base))).others.lookup README =
        some (readmeText a.repo a.branch) := hr
    rw [index, gitAdd, lookup_filterMap, hw, Option.bind_some, if_pos ⟨rfl, rfl⟩]
  · intro n hn
    rw [index, gitAdd, lookup_filterMap, lookup_worktreeOf_of_not_writes _ hn, artifact_withReadme]
    cases (treeOf base).artifact.lookup n with
    | none => rfl
    | some e => rw [Option.bind_some, hn, if_neg Bool.false_ne_true]
  · intro path hp
    have hsame : (worktreeOf tools f a (withReadme a readme (treeOf base))).others.lookup path =
        (treeOf base).others.lookup path := others_withReadme _ hp
    have hnot : ¬ (readme = true ∧ path = README) := by
      rcases hp with rfl | hne
      · simp
      · exact fun h => hne h.2
    rw [index, gitAdd, lookup_filterMap, hsame]
    cases (treeOf base).others.lookup path with
    | none => rfl
    | some text => rw [Option.bind_some, if_neg hnot]

/-- The paths determine the tree. -/
theorem Stored.unique {t t' : Tree} (h : Stored tools f a readme base t)
    (h' : Stored tools f a readme base t') : t = t' := by
  have hart : t.artifact = t'.artifact := by
    apply Finmap.ext_lookup
    intro n
    by_cases hw : writes a.version n = false
    · rw [h.artifact n hw, h'.artifact n hw]
    · rw [writes_eq_false, not_and_or, not_and_or, not_and_or] at hw
      simp only [not_not] at hw
      rcases hw with rfl | rfl | rfl | rfl
      · rw [h.version, h'.version]
      · rw [h.metadata, h'.metadata]
      · rw [h.md5, h'.md5]
      · rw [h.sha1, h'.sha1]
  have hoth : t.others = t'.others := by
    apply Finmap.ext_lookup
    intro path
    by_cases hp : readme = false ∨ path ≠ README
    · rw [h.others path hp, h'.others path hp]
    · obtain ⟨hr, rfl⟩ : readme = true ∧ path = README := by simpa using hp
      rw [h.notice hr, h'.notice hr]
  cases t
  cases t'
  exact congrArg₂ Tree.mk hart hoth

theorem stored_iff {t : Tree} : Stored tools f a readme base t ↔ t = index tools f a readme base := by
  constructor
  · intro h
    exact h.unique stored_index
  · rintro rfl
    exact stored_index

end Lookups

/-! ## 3. What the index carries -/

/-- The tree holds the run's files and lists its version. -/
def Carries (a : Args) (t : Tree) : Prop :=
  t.dir? a.version.name = some a.files ∧
    ∃ text, t.file? META = some text ∧ a.version.name ∈ versionsIn text

/-- The rules store the run's files as they are. -/
def Keeps (f : Faults) (a : Args) (base : History) : Prop :=
  ∀ name x, a.files.lookup name = some x →
    (f.rules (treeOf base)).store (f.rules (treeOf base)).bytes
      (artifactPath a.version.name ++ "/" ++ name)
      ((treeOf base).tracksIn a.version.name name) x = some x

/-- What the rules store of the metadata lists the version. -/
def Lists (f : Faults) (a : Args) (base : History) : Prop :=
  ∃ text, (f.rules (treeOf base)).store (f.rules (treeOf base)).text (artifactPath META)
      ((treeOf base).tracks META) (metadataOf f a (treeOf base)) = some text ∧
    a.version.name ∈ versionsIn text

section Carries

variable {tools : Tools} {f : Faults} {a : Args} {readme : Bool} {base : History} {t : Tree}

theorem Rules.none_store {α : Type} (convert : String → α → α) (path : String) (b : Bool)
    (x : α) : Rules.none.store convert path b x = some (convert path x) := by
  simp [Rules.store, Rules.none]

theorem Rules.none_entry_file (t : Tree) (n : String) (text : Text) :
    Rules.none.entry t n (.file text) = some (.file text) := by
  rw [Rules.entry, Rules.none_store, Option.map_some]
  rfl

theorem Rules.none_entry_dir (t : Tree) (n : String) {files : Files} (h : files ≠ ∅) :
    Rules.none.entry t n (.dir files) = some (.dir files) := by
  have hkept : filterMap (fun name x => Rules.none.store Rules.none.bytes
      (artifactPath n ++ "/" ++ name) (t.tracksIn n name) x) files = files :=
    filterMap_eq_self.mpr fun _ _ _ => Rules.none_store ..
  rw [Rules.entry, hkept, if_neg h]

/-- **Without rules the index is the worktree.** -/
theorem index_of_none (hf : a.files ≠ ∅) (hr : f.rules (treeOf base) = .none) :
    index tools f a readme base = worktreeOf tools f a (withReadme a readme (treeOf base)) := by
  refine (stored_iff.mp ⟨?_, ?_, ?_, ?_, ?_, ?_, ?_⟩).symm
  · rw [hr, Rules.none_entry_dir _ _ hf]
    exact lookup_worktreeOf _ (Or.inl ⟨rfl, rfl⟩)
  · rw [hr, Rules.none_entry_file]
    exact lookup_worktreeOf _ (Or.inr (Or.inl ⟨rfl, by rw [metadataOf_withReadme]⟩))
  · rw [hr, Rules.none_entry_file]
    exact lookup_worktreeOf _ (Or.inr (Or.inr (Or.inl ⟨rfl, by rw [metadataOf_withReadme]⟩)))
  · rw [hr, Rules.none_entry_file]
    exact lookup_worktreeOf _ (Or.inr (Or.inr (Or.inr ⟨rfl, by rw [metadataOf_withReadme]⟩)))
  · rintro rfl
    rw [hr, Rules.none_store]
    exact Finmap.lookup_insert _
  · intro n hn
    rw [lookup_worktreeOf_of_not_writes _ hn, artifact_withReadme]
  · intro path hp
    exact others_withReadme _ hp

end Carries

/-! ## 4. The worktree of a run -/

section Worktree

variable {tools : Tools} {f : Faults} {a : Args} {t : Tree}

/-- If `ls` and the checksum programs work, the worktree is that of Publish.lean. -/
theorem regenerate_worktreeOf (hs : f.silent = {}) (h : t.Free) :
    regenerate tools f.now (stage a.version a.files t) = some (worktreeOf tools f a t) := by
  have hfree : (stage a.version a.files t).Free := (free_stage_iff ..).mpr h
  rw [regenerate, regenerateWith_free hfree, worktreeOf, metadataOf, hs]

/-- Its directories, whatever fails. -/
theorem dir?_worktreeOf (h : t.Free) (n : String) :
    (worktreeOf tools f a t).dir? n = (stage a.version a.files t).dir? n :=
  Tree.dir?_print _ _ _ ((free_stage_iff ..).mpr h) n

theorem file?_worktreeOf : (worktreeOf tools f a t).file? META = some (metadataOf f a t) :=
  Tree.file?_print_meta ..

theorem ruleless_worktreeOf (h : Ruleless t) : Ruleless (worktreeOf tools f a t) := by
  have hfile : (worktreeOf tools f a t).file? a.version.name = none := by
    rw [Tree.file?, lookup_worktreeOf t (Or.inl ⟨rfl, rfl⟩)]
  exact ruleless_of_same (v := a.version) h (fun _ hn => lookup_worktreeOf_of_not_writes t hn)
    hfile rfl

end Worktree

end OnymSdk.Release
