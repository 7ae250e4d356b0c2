/-
  File:      OnymSdk/Release/Publish.lean
  Subject:   What one publish works on: its arguments, commits, and the trees it
             starts from.

  * `Args` -- the script's arguments and the staged source directory;
  * `Commit`, `History` -- a branch as its commits, newest first, `[]` if absent;
  * `checkedOut` -- the tree in the worktree before staging;
  * `Prepared` -- the tree a publish is about to commit;
  * `prepared_spec` -- **what such a tree holds**;
  * `Ruleless` -- no ignore or attribute file stands in a tree; a publish adds none.
-/
import OnymSdk.Release.Tree

namespace OnymSdk.Release

open VersionNames

/-! ## 1. Arguments, commits -/

/-- One invocation: `--version`, `--repo`, `--branch`, and the files of
    `$SRC_VERSION_DIR` that `*` matches. -/
structure Args where
  version : Version
  repo : String
  branch : String
  files : Files

/-- A commit of the branch, without its parent. -/
structure Commit where
  tree : Tree
  message : String
  stamp : Nat
  deriving DecidableEq

/-- A branch: its commits, newest first. -/
abbrev History := List Commit

/-- The tree of a commit; an unborn branch has none. -/
def treeOf : History → Tree
  | [] => ⟨∅, ∅⟩
  | c :: _ => c.tree

/-- A directory at the tip of a branch. -/
def dirAt (h : History) (n : String) : Option Files :=
  match h with
  | [] => none
  | c :: _ => c.tree.dir? n

@[simp] theorem dirAt_cons (c : Commit) (h : History) (n : String) :
    dirAt (c :: h) n = c.tree.dir? n := rfl

theorem dir?_treeOf (h : History) (n : String) : (treeOf h).dir? n = dirAt h n := by
  cases h <;> rfl

/-- The `-m` of the commit. -/
def commitMessage (v : Version) : String :=
  "publish chat.onym:" ++ ARTIFACT ++ ":" ++ v.name ++ " (Maven static repo)"

/-! ## 2. The tree before staging -/

/-- The README of a fresh branch. -/
def readmeText (repo branch : String) : Text :=
  ["# OnymSDK Kotlin — Maven repository",
    "",
    "This branch is a **static Maven repository** for OnymSDK Kotlin",
    "releases. Do not commit here directly — `scripts/publish-to-releases-branch.sh`",
    "in the `main` branch overwrites everything here on every release.",
    "",
    "## Consume from a Gradle project",
    "",
    "```kotlin",
    "repositories \x7b",
    "    maven \x7b url = uri(\"https://raw.githubusercontent.com/" ++ repo ++ "/" ++ branch ++
      "/\") \x7d",
    "\x7d",
    "dependencies \x7b",
    "    implementation(\"chat.onym:onym-sdk:0.0.1\")",
    "\x7d",
    "```",
    "",
    "Released versions are listed in `chat/onym/" ++ ARTIFACT ++ "/maven-metadata.xml`."]

/-- `cat > "$SCRATCH/README.md"`. -/
def writeReadme (a : Args) (t : Tree) : Tree :=
  { t with others := t.others.insert "README.md" (readmeText a.repo a.branch) }

/-- The tree of a fresh orphan branch. -/
def orphanTree (a : Args) : Tree := writeReadme a ⟨∅, ∅⟩

/-- The worktree before staging: the branch's tip, or a fresh orphan. -/
def checkedOut (a : Args) : History → Tree
  | [] => orphanTree a
  | c :: _ => c.tree

/-- No directory stands in a fresh orphan, so what is checked out has those of the tip. -/
theorem dirAt_checkedOut (a : Args) (h : History) (n : String) :
    (checkedOut a h).dir? n = dirAt h n := by
  cases h <;> rfl

/-! ## 3. The tree to commit -/

/-- `git diff --cached --quiet` says no: the tree is not that of HEAD. -/
def Changes (base : History) (tree : Tree) : Prop := tree ≠ treeOf base

instance (base : History) (tree : Tree) : Decidable (Changes base tree) := by
  unfold Changes
  infer_instance

/-- With nothing to commit HEAD has the tree already. -/
theorem exists_head_of_not_changes {base : History} {tree : Tree} {text : Text}
    (hm : tree.file? META = some text) (h : ¬ Changes base tree) :
    ∃ c rest, base = c :: rest ∧ c.tree = tree := by
  obtain rfl : tree = treeOf base := not_ne_iff.mp h
  cases base with
  | nil => cases hm
  | cons c rest => exact ⟨c, rest, rfl, rfl⟩

/-- The names a run writes under. -/
def writes (v : Version) (n : String) : Bool :=
  n = v.name || n = META || n = META_MD5 || n = META_SHA1

theorem writes_eq_false {v : Version} {n : String} :
    writes v n = false ↔ n ≠ v.name ∧ n ≠ META ∧ n ≠ META_MD5 ∧ n ≠ META_SHA1 := by
  simp [writes, and_assoc]

/-- The tree is what staging and regenerating make of `base`. -/
def Prepared (tools : Tools) (a : Args) (base t : Tree) : Prop :=
  ∃ now, regenerate tools now (stage a.version a.files base) = some t

section Prepared

variable {tools : Tools} {a : Args} {base t : Tree}

/-- It holds the staged files under the version's name and lists the version, and every
    other directory is that of `base`. -/
theorem prepared_spec (h : Prepared tools a base t) :
    t.dir? a.version.name = some a.files ∧
      (∀ n, n ≠ a.version.name → t.dir? n = base.dir? n) ∧
      ∃ text, t.file? META = some text ∧ a.version.name ∈ versionsIn text := by
  obtain ⟨now, h⟩ := h
  refine ⟨?_, fun n hn => ?_, ?_⟩
  · rw [regenerate_dir? h, dir?_stage_self]
  · rw [regenerate_dir? h, dir?_stage_of_ne _ _ hn]
  · obtain ⟨text, rfl, hmeta, -, -⟩ := regenerate_file? h
    refine ⟨_, hmeta, ?_⟩
    rw [versionsIn_metadataText, mem_listVersions_name]
    exact ⟨a.files, dir?_stage_self ..⟩

/-- Where HEAD has no metadata there is something to commit. -/
theorem changes_prepared {h : History} (hh : (treeOf h).file? META = none)
    (hp : Prepared tools a base t) : Changes h t := by
  intro e
  obtain ⟨-, -, text, hmeta, -⟩ := prepared_spec hp
  rw [e, hh] at hmeta
  cases hmeta

/-- What has none of the names a run writes under is as in `base`. -/
theorem prepared_lookup (h : Prepared tools a base t) {n : String}
    (hn : writes a.version n = false) : t.artifact.lookup n = base.artifact.lookup n := by
  obtain ⟨now, h⟩ := h
  obtain ⟨hv, hmeta⟩ := writes_eq_false.mp hn
  obtain ⟨-, text, -, rfl⟩ := regenerate_cases h
  rw [Tree.lookup_print_of_ne _ _ _ _ hmeta, stage, Tree.lookup_write, if_neg hv]

theorem prepared_others (h : Prepared tools a base t) : t.others = base.others := by
  obtain ⟨now, h⟩ := h
  obtain ⟨-, text, -, rfl⟩ := regenerate_cases h
  rfl

/-- If the directories of `base` are versions, the tree is consistent. -/
theorem prepared_consistent (hb : OnlyVersions base) (h : Prepared tools a base t) :
    OnlyVersions t ∧ ∃ text, Consistent tools t text := by
  obtain ⟨now, h⟩ := h
  have hs : OnlyVersions (stage a.version a.files base) := onlyVersions_stage hb _ _
  refine ⟨?_, regenerate_consistent hs ?_ h⟩
  · intro n files hn
    rw [regenerate_dir? h] at hn
    exact hs n files hn
  · exact ⟨a.version.name, a.files, dir?_stage_self ..⟩

end Prepared

theorem onlyVersions_orphanTree (a : Args) : OnlyVersions (orphanTree a) := by
  intro n files h
  cases h

theorem name_ne_of_glob (v : Version) {n : String} (h : glob versionGlob n.toList = false) :
    n ≠ v.name := by
  intro e
  subst e
  rw [glob_name] at h
  cases h

/-- Regenerating works wherever no directory has one of the metadata names. -/
theorem exists_regenerate (tools : Tools) (now : String) {t : Tree} (h : t.Free) :
    ∃ t', regenerate tools now t = some t' := by
  unfold regenerate regenerateWith
  rw [if_pos h]
  exact ⟨_, rfl⟩

/-- The metadata names are not version names, so staging leaves them free. -/
theorem free_stage_iff (v : Version) (files : Files) {t : Tree} :
    (stage v files t).Free ↔ t.Free := by
  unfold Tree.Free
  rw [dir?_stage_of_ne _ _ (name_ne_of_glob _ (by decide)),
    dir?_stage_of_ne _ _ (name_ne_of_glob _ (by decide)),
    dir?_stage_of_ne _ _ (name_ne_of_glob _ (by decide))]

theorem exists_prepared (tools : Tools) (now : String) (a : Args) (base : Tree) (h : base.Free) :
    ∃ t, regenerate tools now (stage a.version a.files base) = some t :=
  exists_regenerate tools now ((free_stage_iff ..).mpr h)

/-! ## 4. Ignore rules and attributes -/

/-- The file sets ignore rules or attributes. -/
def isRuleFile (path : String) : Bool :=
  ".gitignore".toList.isSuffixOf path.toList || ".gitattributes".toList.isSuffixOf path.toList

/-- No such file stands in the tree. (One in a version's directory is about that directory only,
    which a publish of the version makes anew.) -/
structure Ruleless (t : Tree) : Prop where
  artifact : ∀ n text, t.file? n = some text → isRuleFile n = false
  others : ∀ path ∈ t.others, isRuleFile path = false

theorem ruleless_empty : Ruleless ⟨∅, ∅⟩ := by
  constructor
  · intro _ _ h
    cases h
  · intro _ h
    cases Finmap.notMem_empty h

theorem ruleless_writeReadme {t : Tree} (h : Ruleless t) (a : Args) : Ruleless (writeReadme a t) := by
  refine ⟨h.artifact, fun path hp => ?_⟩
  rcases Finmap.mem_insert.mp hp with rfl | hp
  · decide
  · exact h.others path hp

/-- The trees a run starts from are without rules if the tip is. -/
theorem ruleless_checkedOut {h : History} (hr : Ruleless (treeOf h)) (a : Args) :
    Ruleless (checkedOut a h) := by
  cases h with
  | nil => exact ruleless_writeReadme ruleless_empty a
  | cons c rest => exact hr

/-- A publish adds no rule. -/
theorem ruleless_of_same {v : Version} {t base : Tree} (h : Ruleless base)
    (hsame : ∀ n, writes v n = false → t.artifact.lookup n = base.artifact.lookup n)
    (hdir : t.file? v.name = none) (hothers : t.others = base.others) :
    Ruleless t := by
  refine ⟨fun n text hn => ?_, by rw [hothers]; exact h.others⟩
  by_cases hw : writes v n = false
  · have hfile : base.file? n = some text := by
      rw [← hn, Tree.file?, Tree.file?, hsame n hw]
    exact h.artifact n text hfile
  · rw [writes_eq_false, not_and_or, not_and_or, not_and_or] at hw
    simp only [not_not] at hw
    rcases hw with rfl | rfl | rfl | rfl
    · rw [hdir] at hn
      cases hn
    · decide
    · decide
    · decide

theorem ruleless_prepared {tools : Tools} {a : Args} {base t : Tree} (h : Ruleless base)
    (hp : Prepared tools a base t) : Ruleless t :=
  ruleless_of_same h (fun _ hn => prepared_lookup hp hn)
    (Tree.file?_of_dir? (prepared_spec hp).1) (prepared_others hp)

end OnymSdk.Release
