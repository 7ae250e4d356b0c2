/-
  File:      OnymSdk/Release/Workflow.lean
  Subject:   THE RELEASE WORKFLOW: validate, build, publish, tag.

  Any number of runs, for any tags and main commits, take their steps in any
  order; each can stop after any step.

  * `validate` -- the checks on the tag, with their messages;
  * `Step` -- the steps of the runs; publishing is the script of Script.lean in
    the run's own clone;
  * `Pinned`, `Frozen` -- a tag's directory holds an artifact built from the
    tagged commit, and stays as it is;
  * `Safe` -- what a step has to find: the tag still absent when it publishes, and
    its own commit published last when it tags;
  * `tag_pins_iff` -- **a run keeps tags and artifacts together exactly if all its
    steps are safe**; `tag_overwritten` -- one that does not;
  * `serialized_safe` -- runs that do not overlap on a tag are safe.
-/
import OnymSdk.Release.Promise
import OnymSdk.Lib.Traces

namespace OnymSdk.Release

open VersionNames Traces

/-! ## 1. The validation -/

/-- The tag of a version. -/
def tagOf (v : Version) : String := "v" ++ v.name

/-- `^v[0-9]+\.[0-9]+\.[0-9]+$` matches the line. -/
def isTagLine : List Char → Bool
  | 'v' :: rest =>
    match rest.splitOn '.' with
    | [x, y, z] => decide (IsNumeral x ∧ IsNumeral y ∧ IsNumeral z)
    | _ => false
  | _ => false

/-- `grep -Eq '^v[0-9]+\.[0-9]+\.[0-9]+$'`: some line matches. -/
def looksLikeTag (tag : String) : Bool := (tag.toList.splitOn '\n').any isTagLine

/-- `${TAG#v}`. -/
def withoutV (tag : String) : String :=
  match tag.toList with
  | 'v' :: rest => String.ofList rest
  | _ => tag

/-- `\s`. -/
def isBlank (c : Char) : Bool := c = ' ' || (9 ≤ c.toNat && c.toNat ≤ 13)

/-- What follows `^version\s*=`. -/
def afterVersionEq (line : List Char) : Option (List Char) := do
  let rest ← "version".toList.isPrefixOf? line
  match rest.dropWhile isBlank with
  | '=' :: rest => some rest
  | _ => none

/-- What `version\s*=\s*"([^"]+)"` matches at the start of the text, as the group and the rest. -/
def matchVersion (cs : List Char) : Option (List Char × List Char) := do
  let rest ← afterVersionEq cs
  match rest.dropWhile isBlank with
  | '"' :: quoted =>
    match quoted.span (· ≠ '"') with
    | (c :: group, _ :: rest) => some (c :: group, rest)
    | _ => none
  | _ => none

/-- `sed -E 's/version\s*=\s*"([^"]+)"/\1/'` on a line. -/
def sedVersion : List Char → List Char
  | [] => []
  | c :: cs =>
    match matchVersion (c :: cs) with
    | some (group, rest) => group ++ rest
    | none => c :: sedVersion cs

/-- `GRADLE_VERSION`, from the lines of `build.gradle.kts`. -/
def gradleVersion (gradle : Text) : String :=
  match gradle.find? fun line => (afterVersionEq line.toList).isSome with
  | some line => String.ofList (sedVersion line.toList)
  | none => ""

/-- `build.gradle.kts` of a main commit. -/
def gradleText (head : History) : Text :=
  ((treeOf head).others.lookup "build.gradle.kts").getD []

/-- **Validate tag input**: what the clone and origin have under the tag's name, and the build
    file. -/
def validate (tag : String) (localTag originTag : Option History) (gradle : Text) :
    Except String Unit :=
  if looksLikeTag tag = false then
    .error ("tag must look like vX.Y.Z (got: " ++ tag ++ ")")
  else if localTag.isSome then
    .error ("tag " ++ tag ++ " already exists locally")
  else if originTag.isSome then
    .error ("tag " ++ tag ++ " already exists on origin")
  else if gradleVersion gradle ≠ withoutV tag then
    .error ("tag " ++ tag ++ " implies version " ++ withoutV tag ++
      " but build.gradle.kts says " ++ gradleVersion gradle)
  else .ok ()

/-- What a validated tag comes with. -/
theorem validate_ok {tag : String} {localTag originTag : Option History} {gradle : Text}
    (h : validate tag localTag originTag gradle = .ok ()) :
    looksLikeTag tag = true ∧ localTag = none ∧ originTag = none ∧
      gradleVersion gradle = withoutV tag := by
  unfold validate at h
  split at h
  · cases h
  · split at h
    · cases h
    · split at h
      · cases h
      · split at h
        · cases h
        · simp_all

theorem toList_tagOf (v : Version) : (tagOf v).toList = 'v' :: dotted v.major v.minor v.patch := by
  simp [tagOf, Version.name]

theorem dot_not_mem {ds : List Char} (h : IsNumeral ds) : '.' ∉ ds := fun hd =>
  absurd (h.2 _ hd) (by decide)

theorem splitOn_dotted (v : Version) :
    (dotted v.major v.minor v.patch).splitOn '.' = [v.major, v.minor, v.patch] := by
  rw [dotted, List.splitOn_append_cons_self_of_not_mem (dot_not_mem v.isMajor),
    List.splitOn_append_cons_self_of_not_mem (dot_not_mem v.isMinor),
    List.splitOn_eq_singleton (dot_not_mem v.isPatch)]

theorem isTagLine_iff {line : List Char} :
    isTagLine line = true ↔ ∃ v : Version, line = (tagOf v).toList := by
  constructor
  · intro h
    unfold isTagLine at h
    split at h
    · rename_i rest
      split at h
      · rename_i x y z hsplit
        obtain ⟨hx, hy, hz⟩ := of_decide_eq_true h
        refine ⟨⟨x, y, z, hx, hy, hz⟩, ?_⟩
        have hrest : ['.'].intercalate (rest.splitOn '.') = rest := List.intercalate_splitOn '.'
        rw [toList_tagOf, ← hrest, hsplit]
        simp [dotted]
      · cases h
    · cases h
  · intro hx
    obtain ⟨v, rfl⟩ := hx
    rw [toList_tagOf]
    unfold isTagLine
    simp only [splitOn_dotted]
    exact decide_eq_true ⟨v.isMajor, v.isMinor, v.isPatch⟩

/-- **The tags of the right form** have the tag of a version X.Y.Z as one of their lines ... -/
theorem looksLikeTag_iff {tag : String} :
    looksLikeTag tag = true ↔ ∃ v : Version, (tagOf v).toList ∈ tag.toList.splitOn '\n' := by
  simp only [looksLikeTag, List.any_eq_true, isTagLine_iff]
  constructor
  · rintro ⟨line, hline, v, rfl⟩
    exact ⟨v, hline⟩
  · rintro ⟨v, hv⟩
    exact ⟨_, hv, v, rfl⟩

/-- ... and if they have one line, they are the tags of the versions. -/
theorem looksLikeTag_iff_of_line {tag : String} (h : '\n' ∉ tag.toList) :
    looksLikeTag tag = true ↔ ∃ v : Version, tag = tagOf v := by
  rw [looksLikeTag_iff, List.splitOn_eq_singleton h]
  simp only [List.mem_singleton, String.toList_inj, eq_comm]

/-! ## 2. The system -/

/-- What the runs have in common, the version each is started for, and what the build makes of
    a main commit on a given occasion. -/
structure Workflow (ι : Type) where
  repo : String
  tools : Tools
  version : ι → Version
  build : History → Nat → Files

/-- Where a run is, with what it has at hand. -/
inductive Stage where
  | queued
  | checkedOut (head : History) (localTag : Option History)
  | validated (head : History)
  | built (head : History) (files : Files)
  | published (head : History)
  | ended

/-- An entry of the publication log. -/
structure Publication where
  version : String
  files : Files

/-- Origin's tags, by name, and its releases branch; the runs; and what was published so far,
    newest first. -/
structure Origin (ι : Type) where
  tags : String → Option History
  releases : History
  phase : ι → Stage
  log : List Publication

/-- Before the first release. -/
def origin (ι : Type) : Origin ι := ⟨fun _ => none, [], fun _ => .queued, []⟩

/-- The steps a run can take; a validation with whether its lookup of the tag was answered. -/
inductive Event (ι : Type) where
  | checkout (i : ι)
  | validate (i : ι) (answered : Bool)
  | build (i : ι)
  | publish (i : ι)
  | tag (i : ι)
  | stop (i : ι)

section System

variable {ι : Type}

namespace Origin

variable [DecidableEq ι]

def move (s : Origin ι) (i : ι) (p : Stage) : Origin ι :=
  { s with phase := Function.update s.phase i p }

/-- After an accepted publish. -/
def publish (s : Origin ι) (i : ι) (head releases : History) (p : Publication) : Origin ι :=
  { s.move i (.published head) with releases := releases, log := p :: s.log }

/-- After an accepted push of the tag. -/
def pushTag (s : Origin ι) (i : ι) (tag : String) (head : History) : Origin ι :=
  { s.move i .ended with tags := Function.update s.tags tag (some head) }

theorem tags_pushTag_self (s : Origin ι) (i : ι) (tag : String) (head : History) :
    (s.pushTag i tag head).tags tag = some head := Function.update_self ..

theorem tags_pushTag_of_ne (s : Origin ι) (i : ι) {tag tag' : String} (h : tag' ≠ tag)
    (head : History) : (s.pushTag i tag head).tags tag' = s.tags tag' := Function.update_of_ne h ..

end Origin

/-- The arguments the workflow calls the script with. -/
def Workflow.args (W : Workflow ι) (i : ι) (files : Files) : Args :=
  ⟨W.version i, W.repo, "releases", files⟩

/-- One step of one run. The clone of a run is its own: no releases branch, what the checkout
    fetched of origin's, and no ignore rules or attributes besides those that are checked out. -/
inductive Workflow.Step [DecidableEq ι] (W : Workflow ι) : Origin ι → Event ι → Origin ι → Prop where
  | checkout {s i head} (hi : s.phase i = .queued) :
      W.Step s (.checkout i) (s.move i (.checkedOut head (s.tags (tagOf (W.version i)))))
  | validate {s i head localTag answered} (hi : s.phase i = .checkedOut head localTag)
      (hv : validate (tagOf (W.version i)) localTag
        (if answered then s.tags (tagOf (W.version i)) else none) (gradleText head) = .ok ()) :
      W.Step s (.validate i answered) (s.move i (.validated head))
  | build {s i head} (k : Nat) (hi : s.phase i = .validated head) :
      W.Step s (.build i) (s.move i (.built head (W.build head k)))
  | publish {s i head files f tracking w'} (hi : s.phase i = .built head files)
      (hf : f.switch = false) (hb : f.Bare)
      (hp : publish W.tools f (W.args i files) ⟨s.releases, [], tracking, head⟩ = (some (), w')) :
      W.Step s (.publish i) (s.publish i head w'.remote ⟨(W.version i).name, files⟩)
  | tag {s i head} (hi : s.phase i = .published head) (ht : s.tags (tagOf (W.version i)) = none) :
      W.Step s (.tag i) (s.pushTag i (tagOf (W.version i)) head)
  -- a failed step, a rejected push, a cancelled run
  | stop {s i} : W.Step s (.stop i) (s.move i .ended)

/-! ## 3. Pinned artifacts -/

/-- The directory of every tagged version holds an artifact built from the tagged commit. -/
def Workflow.Pinned (W : Workflow ι) (s : Origin ι) : Prop :=
  ∀ (v : Version) (c : History), s.tags (tagOf v) = some c →
    ∃ k, dirAt s.releases v.name = some (W.build c k)

/-- The directories of the tagged versions stay as they are. -/
def Frozen (s s' : Origin ι) : Prop :=
  ∀ (v : Version) (c : History), s.tags (tagOf v) = some c →
    dirAt s'.releases v.name = dirAt s.releases v.name

/-- The files last published for the version of that name. -/
def lastPublished (log : List Publication) (n : String) : Option Files :=
  (log.find? fun p => p.version = n).map fun p => p.files

theorem lastPublished_self (n : String) (files : Files) (log : List Publication) :
    lastPublished (⟨n, files⟩ :: log) n = some files := by
  simp [lastPublished]

theorem lastPublished_of_ne {n m : String} (h : m ≠ n) (files : Files) (log : List Publication) :
    lastPublished (⟨n, files⟩ :: log) m = lastPublished log m := by
  simp [lastPublished, h.symm]

/-- **What a step has to find.** A run that publishes finds its tag still absent, or its files
    published last; a run that tags finds that what was published last for its version is a
    build of its own commit. -/
def Workflow.Safe (W : Workflow ι) (s : Origin ι) : Event ι → Prop
  | .publish i => ∀ head files, s.phase i = .built head files →
      s.tags (tagOf (W.version i)) = none ∨
        lastPublished s.log (W.version i).name = some files
  | .tag i => ∀ head, s.phase i = .published head →
      ∃ k, lastPublished s.log (W.version i).name = some (W.build head k)
  | _ => True

/-- The invariant: the releases branch holds what the log says was published last, and no
    rules. -/
structure Logged (s : Origin ι) : Prop where
  contents : ∀ n, dirAt s.releases n = lastPublished s.log n
  ruleless : Ruleless (treeOf s.releases)

theorem tagOf_eq {v w : Version} (h : tagOf v = tagOf w) : v.name = w.name :=
  (String.append_right_inj "v").mp h

/-- What the script does to the branch in a run's own clone. -/
theorem publish_step_dirs {W : Workflow ι} {s : Origin ι} {i : ι} {head : History} {files : Files}
    {f : Faults} {tracking : History} {w' : World} (hl : Logged s) (hf : f.switch = false)
    (hb : f.Bare)
    (hp : publish W.tools f (W.args i files) ⟨s.releases, [], tracking, head⟩ = (some (), w')) :
    dirAt w'.remote (W.version i).name = some files ∧
      (∀ n, n ≠ (W.version i).name → dirAt w'.remote n = dirAt s.releases n) ∧
      Ruleless (treeOf w'.remote) := by
  have hs : ¬ SwitchFails f ⟨s.releases, [], tracking, head⟩ := by simp [SwitchFails, hf]
  have hok := congrArg Prod.fst hp
  have hdirs := publish_dirs hs hb hl.ruleless hok
  have hrules := ruleless_publish hs hb hl.ruleless hok
  rw [hp] at hdirs hrules
  exact ⟨hdirs.1, hdirs.2, hrules⟩

theorem logged_origin : Logged (origin ι) := ⟨fun _ => rfl, ruleless_empty⟩

theorem pinned_origin (W : Workflow ι) : W.Pinned (origin ι) := fun _ _ h => by cases h

/-- A step that leaves tags alone and the tagged directories as they are keeps pins. -/
theorem pinned_of_frozen {W : Workflow ι} {s s' : Origin ι} (h : W.Pinned s)
    (ht : s'.tags = s.tags) (hf : Frozen s s') : W.Pinned s' := by
  intro v c hv
  rw [ht] at hv
  rw [hf v c hv]
  exact h v c hv

section Steps

variable [DecidableEq ι] {W : Workflow ι} {s s' : Origin ι} {e : Event ι}

theorem logged_step (h : Logged s) (hs : W.Step s e s') : Logged s' := by
  cases hs with
  | publish hi hf hb hp =>
    rename_i i _ files _ _ _
    obtain ⟨hdir, hother, hrules⟩ := publish_step_dirs h hf hb hp
    refine ⟨fun n => ?_, hrules⟩
    by_cases hn : n = (W.version i).name
    · subst hn
      exact hdir.trans (lastPublished_self ..).symm
    · exact (hother n hn).trans ((h.contents n).trans (lastPublished_of_ne hn ..).symm)
  | _ => exact ⟨h.contents, h.ruleless⟩

/-- A publish leaves the tagged directories as they are exactly if it is safe. -/
theorem frozen_publish_iff (hl : Logged s) {i : ι} {head : History} {files : Files} {f : Faults}
    {tracking : History} {w' : World} {p : Publication} (hi : s.phase i = .built head files)
    (hf : f.switch = false) (hb : f.Bare)
    (hp : publish W.tools f (W.args i files) ⟨s.releases, [], tracking, head⟩ = (some (), w')) :
    Frozen s (s.publish i head w'.remote p) ↔ W.Safe s (.publish i) := by
  obtain ⟨hdir, hother, -⟩ := publish_step_dirs hl hf hb hp
  constructor
  · intro hfrozen head' files' hi'
    cases hi.symm.trans hi'
    cases ht : s.tags (tagOf (W.version i)) with
    | none => exact Or.inl rfl
    | some c =>
      refine Or.inr ?_
      rw [← hl.contents, ← hdir]
      exact (hfrozen _ c ht).symm
  · intro hsafe v c ht
    show dirAt w'.remote v.name = dirAt s.releases v.name
    by_cases hn : v.name = (W.version i).name
    · have htag : tagOf v = tagOf (W.version i) := congrArg ("v" ++ ·) hn
      rcases hsafe head files hi with habs | hlast
      · rw [← htag, ht] at habs
        cases habs
      · rw [hn, hdir, hl.contents, hlast]
    · exact hother _ hn

/-- A tag is pinned from the start exactly if its push is safe. -/
theorem pinned_tag_iff (hl : Logged s) (h : W.Pinned s) {i : ι} {head : History}
    (hi : s.phase i = .published head) :
    W.Pinned (s.pushTag i (tagOf (W.version i)) head) ↔ W.Safe s (.tag i) := by
  constructor
  · intro hp head' hi'
    cases hi.symm.trans hi'
    rw [← hl.contents]
    exact hp _ head (Origin.tags_pushTag_self ..)
  · intro hsafe v c hv
    show ∃ k, dirAt s.releases v.name = some (W.build c k)
    by_cases hn : tagOf v = tagOf (W.version i)
    · rw [hn, Origin.tags_pushTag_self] at hv
      cases hv
      rw [tagOf_eq hn, hl.contents]
      exact hsafe head hi
    · rw [Origin.tags_pushTag_of_ne _ _ hn] at hv
      exact h v c hv

/-- **The step lemma**: the step keeps tags and artifacts together exactly if it is safe. -/
theorem pins_step_iff (hl : Logged s) (h : W.Pinned s) (hs : W.Step s e s') :
    (W.Pinned s' ∧ Frozen s s') ↔ W.Safe s e := by
  cases hs with
  | publish hi hf hb hp =>
    rw [← frozen_publish_iff hl hi hf hb hp]
    exact and_iff_right_of_imp (pinned_of_frozen h rfl)
  | tag hi ht =>
    rw [← pinned_tag_iff hl h hi]
    exact and_iff_left fun _ _ _ => rfl
  | _ => exact iff_of_true ⟨h, fun _ _ _ => rfl⟩ trivial

/-- **When a release tag pins its artifact.** Along every run, whenever a tag exists its
    directory holds an artifact built from the tagged commit and no step changes it, exactly
    if every step of the run is safe. -/
theorem tag_pins_iff {tr : List (Event ι × Origin ι)} (h : Exec W.Step (origin ι) tr) :
    Along (fun s _ s' => W.Pinned s' ∧ Frozen s s') (origin ι) tr ↔
      Along (fun s e _ => W.Safe s e) (origin ι) tr :=
  along_iff Logged W.Pinned Frozen W.Safe (fun _ _ _ hl hs => logged_step hl hs)
    (fun _ _ _ hl hp hs => pins_step_iff hl hp hs) logged_origin (pinned_origin W) h

/-- Without failing commands and rules a publish succeeds, wherever the branch has no directory
    under a metadata name. -/
theorem exists_publish_step (W : Workflow ι) (i : ι) {head : History} {files : Files}
    (hl : Logged s) (hi : s.phase i = .built head files) (hne : files ≠ ∅) (hh : head ≠ [])
    (hm : (treeOf s.releases).Free) :
    ∃ r, W.Step s (.publish i) (s.publish i head r ⟨(W.version i).name, files⟩) ∧
      dirAt r (W.version i).name = some files ∧
      ∀ n, n ≠ (W.version i).name → dirAt r n = dirAt s.releases n := by
  have hok := publish_succeeds W.tools (W.args i files) ⟨s.releases, [], [], head⟩ hne rfl
    List.nil_suffix hh hm
  have hp : publish W.tools {} (W.args i files) ⟨s.releases, [], [], head⟩ = (some (), _) :=
    Prod.ext hok rfl
  have hb : Faults.Bare {} := fun _ _ => rfl
  obtain ⟨hdir, hother, -⟩ := publish_step_dirs hl rfl hb hp
  exact ⟨_, .publish hi rfl hb hp, hdir, hother⟩

/-- A run on its own releases its version, safely. -/
theorem exists_release (W : Workflow ι) (i : ι) (head : History)
    (hv : validate (tagOf (W.version i)) none none (gradleText head) = .ok ())
    (hne : W.build head 0 ≠ ∅) (hh : head ≠ []) :
    ∃ tr, Exec W.Step (origin ι) tr ∧ Along (fun s e _ => W.Safe s e) (origin ι) tr ∧
      (final (origin ι) tr).tags (tagOf (W.version i)) = some head := by
  let s₁ := (origin ι).move i (.checkedOut head none)
  let s₂ := s₁.move i (.validated head)
  let s₃ := s₂.move i (.built head (W.build head 0))
  have hi₁ : s₁.phase i = .checkedOut head none := Function.update_self ..
  have hi₂ : s₂.phase i = .validated head := Function.update_self ..
  have hi₃ : s₃.phase i = .built head (W.build head 0) := Function.update_self ..
  have hl₃ : Logged s₃ := ⟨fun _ => rfl, ruleless_empty⟩
  obtain ⟨r, h₄, -, -⟩ := exists_publish_step W i hl₃ hi₃ hne hh ⟨rfl, rfl, rfl⟩
  let s₄ := s₃.publish i head r ⟨(W.version i).name, W.build head 0⟩
  have hi₄ : s₄.phase i = .published head := Function.update_self ..
  refine ⟨[(.checkout i, s₁), (.validate i true, s₂), (.build i, s₃), (.publish i, s₄),
    (.tag i, s₄.pushTag i (tagOf (W.version i)) head)], ?_, ?_, Origin.tags_pushTag_self ..⟩
  · exact ⟨.checkout rfl, .validate hi₁ hv, .build 0 hi₂, h₄, .tag hi₄ rfl, trivial⟩
  · refine ⟨trivial, trivial, trivial, fun _ _ _ => Or.inl rfl, fun head' hi' => ?_, trivial⟩
    cases hi₄.symm.trans hi'
    exact ⟨0, lastPublished_self ..⟩

end Steps

end System

/-! ## 4. Two runs for one tag -/

/-- The build file of the first release. -/
def gradleFile : Text :=
  ["plugins \x7b", "    kotlin(\"jvm\") version \"1.9.22\"", "\x7d", "version = \"0.0.1\""]

def firstHead : History :=
  [⟨⟨∅, Finmap.singleton "build.gradle.kts" gradleFile⟩, "prepare 0.0.1", 0⟩]

def secondHead : History :=
  ⟨⟨∅, Finmap.singleton "build.gradle.kts" gradleFile⟩, "fix", 1⟩ :: firstHead

/-- Two runs, started for v0.0.1 both; the artifact shows how many commits went into it. -/
def twoRuns : Workflow Bool where
  repo := "onymchat/onym-sdk-kotlin"
  tools := ⟨fun _ => "", fun _ => ""⟩
  version _ := firstRelease.version
  build head _ := Finmap.singleton "onym-sdk-0.0.1.aar" [UInt8.ofNat head.length]

theorem validate_heads (head : History) (h : head = firstHead ∨ head = secondHead) :
    validate (tagOf firstRelease.version) none none (gradleText head) = .ok () := by
  rcases h with rfl | rfl <;> decide

/-- On its own the first run releases v0.0.1, and the tag pins its artifact. -/
theorem tag_pins_first_run :
    ∃ tr, Exec twoRuns.Step (origin Bool) tr ∧
      (final (origin Bool) tr).tags "v0.0.1" = some firstHead ∧
      Along (fun s _ s' => twoRuns.Pinned s' ∧ Frozen s s') (origin Bool) tr := by
  obtain ⟨tr, hexec, hsafe, htag⟩ := exists_release twoRuns false firstHead
    (validate_heads _ (Or.inl rfl)) (by decide) (List.cons_ne_nil _ _)
  have hname : tagOf (twoRuns.version false) = "v0.0.1" := by decide
  rw [hname] at htag
  exact ⟨tr, hexec, htag, (tag_pins_iff hexec).mpr hsafe⟩

/-- **A tag that does not pin its artifact**: both runs validate v0.0.1, the first publishes and
    tags, and then the second publishes what it built from another commit. -/
theorem tag_overwritten :
    ∃ tr, Exec twoRuns.Step (origin Bool) tr ∧
      ¬ Along (fun s _ s' => twoRuns.Pinned s' ∧ Frozen s s') (origin Bool) tr := by
  let a := twoRuns.build firstHead 0
  let b := twoRuns.build secondHead 0
  let s₁ := (origin Bool).move false (.checkedOut firstHead none)
  let s₂ := s₁.move true (.checkedOut secondHead none)
  let s₃ := s₂.move false (.validated firstHead)
  let s₄ := s₃.move true (.validated secondHead)
  let s₅ := s₄.move false (.built firstHead a)
  let s₆ := s₅.move true (.built secondHead b)
  have hl₆ : Logged s₆ := ⟨fun _ => rfl, ruleless_empty⟩
  have hi₆ : s₆.phase false = .built firstHead a := rfl
  obtain ⟨r, hpub, hdir, hother⟩ := exists_publish_step twoRuns false hl₆ hi₆ (by decide)
    (List.cons_ne_nil _ _) ⟨rfl, rfl, rfl⟩
  let s₇ := s₆.publish false firstHead r ⟨"0.0.1", a⟩
  have hl₇ : Logged s₇ := logged_step hl₆ hpub
  let s₈ := s₇.pushTag false "v0.0.1" firstHead
  have hl₈ : Logged s₈ := ⟨hl₇.contents, hl₇.ruleless⟩
  have hi₈ : s₈.phase true = .built secondHead b := rfl
  -- the branch has no directory under a metadata name, before as after the first publish
  have hfree : ∀ n, n ≠ "0.0.1" → (treeOf s₈.releases).dir? n = none := fun n hn =>
    (dir?_treeOf _ n).trans (hother n hn)
  obtain ⟨r', hpub', hdir', -⟩ := exists_publish_step twoRuns true hl₈ hi₈ (by decide)
    (List.cons_ne_nil _ _) ⟨hfree _ (by decide), hfree _ (by decide), hfree _ (by decide)⟩
  let s₉ := s₈.publish true secondHead r' ⟨"0.0.1", b⟩
  refine ⟨[(.checkout false, s₁), (.checkout true, s₂), (.validate false true, s₃),
    (.validate true true, s₄), (.build false, s₅), (.build true, s₆), (.publish false, s₇),
    (.tag false, s₈), (.publish true, s₉)], ?_, ?_⟩
  · refine ⟨.checkout rfl, .checkout rfl, .validate rfl ?_, .validate rfl ?_, .build 0 rfl,
      .build 0 rfl, hpub, .tag rfl rfl, hpub', trivial⟩
    · exact validate_heads _ (Or.inl rfl)
    · exact validate_heads _ (Or.inr rfl)
  · intro h
    obtain ⟨-, -, -, -, -, -, -, -, ⟨-, hfrozen⟩, -⟩ := h
    have htag : s₈.tags (tagOf firstRelease.version) = some firstHead := rfl
    have hsame : dirAt r' "0.0.1" = dirAt r "0.0.1" := hfrozen firstRelease.version _ htag
    have hab : some b = some a := hdir'.symm.trans (hsame.trans hdir)
    exact absurd (Option.some.inj hab) (by decide)

/-! ## 5. Runs that do not overlap on a tag -/

/-- Between its validation and its end. -/
def Stage.active : Stage → Bool
  | .validated _ | .built _ _ | .published _ => true
  | _ => false

section Serialized

variable {ι : Type}

/-- A validation gets an answer from origin, and no other run for its tag is active. -/
def Workflow.Serial (W : Workflow ι) (s : Origin ι) : Event ι → Prop
  | .validate i answered => answered = true ∧
      ∀ j, (s.phase j).active = true → tagOf (W.version j) ≠ tagOf (W.version i)
  | _ => True

/-- The invariant of serialized runs: an active run is the only one for its tag, which is absent,
    and what it built or published last is of its own commit. -/
structure Workflow.Exclusive (W : Workflow ι) (s : Origin ι) : Prop where
  free : ∀ i, (s.phase i).active = true → s.tags (tagOf (W.version i)) = none
  alone : ∀ i j, (s.phase i).active = true → (s.phase j).active = true →
    tagOf (W.version i) = tagOf (W.version j) → i = j
  made : ∀ i head files, s.phase i = .built head files → ∃ k, files = W.build head k
  mine : ∀ i head, s.phase i = .published head →
    ∃ k, lastPublished s.log (W.version i).name = some (W.build head k)

theorem exclusive_origin (W : Workflow ι) : W.Exclusive (origin ι) := by
  constructor <;> intros <;> simp_all [origin, Stage.active]

/-- An active run has its tag to itself. -/
theorem Workflow.Exclusive.of_active {W : Workflow ι} {s : Origin ι} (h : W.Exclusive s) {i : ι}
    (hi : (s.phase i).active = true) :
    s.tags (tagOf (W.version i)) = none ∧
      ∀ j, j ≠ i → (s.phase j).active = true → tagOf (W.version j) ≠ tagOf (W.version i) :=
  ⟨h.free i hi, fun j hne hj e => hne (h.alone j i hj hi e)⟩

variable [DecidableEq ι] {W : Workflow ι} {s s' : Origin ι} {i : ι}

theorem phase_move_cases (s : Origin ι) (i j : ι) (p : Stage) :
    (s.move i p).phase j = if j = i then p else s.phase j := Function.update_apply ..

/-- A run moves on: it was active already, or its tag is free. -/
theorem exclusive_move (h : W.Exclusive s) {p : Stage} {log : List Publication}
    (hact : p.active = true → s.tags (tagOf (W.version i)) = none ∧
      ∀ j, j ≠ i → (s.phase j).active = true → tagOf (W.version j) ≠ tagOf (W.version i))
    (hmade : ∀ head files, p = .built head files → ∃ k, files = W.build head k)
    (hmine : ∀ j head, (s.move i p).phase j = .published head →
      ∃ k, lastPublished log (W.version j).name = some (W.build head k)) :
    W.Exclusive { s.move i p with log := log } := by
  refine ⟨?_, ?_, ?_, hmine⟩
  · intro j hj
    rw [phase_move_cases] at hj
    by_cases hji : j = i
    · subst hji
      exact (hact (by simpa using hj)).1
    · exact h.free j (by simpa [hji] using hj)
  · intro j k hj hk e
    rw [phase_move_cases] at hj hk
    by_cases hji : j = i <;> by_cases hki : k = i
    · rw [hji, hki]
    · subst hji
      exact absurd e.symm ((hact (by simpa using hj)).2 k hki (by simpa [hki] using hk))
    · subst hki
      exact absurd e ((hact (by simpa using hk)).2 j hji (by simpa [hji] using hj))
    · exact h.alone j k (by simpa [hji] using hj) (by simpa [hki] using hk) e
  · intro j head files hj
    rw [phase_move_cases] at hj
    by_cases hji : j = i
    · exact hmade head files (by simpa [hji] using hj)
    · exact h.made j head files (by simpa [hji] using hj)

/-- A run moves on without publishing. -/
theorem exclusive_step (h : W.Exclusive s) {p : Stage}
    (hact : p.active = true → s.tags (tagOf (W.version i)) = none ∧
      ∀ j, j ≠ i → (s.phase j).active = true → tagOf (W.version j) ≠ tagOf (W.version i))
    (hmade : ∀ head files, p = .built head files → ∃ k, files = W.build head k)
    (hp : ∀ head, p ≠ .published head) : W.Exclusive (s.move i p) := by
  refine exclusive_move h hact hmade fun j head hj => ?_
  rw [phase_move_cases] at hj
  by_cases hji : j = i
  · exact absurd (by simpa [hji] using hj) (hp head)
  · exact h.mine j head (by simpa [hji] using hj)

theorem exclusive_inactive (h : W.Exclusive s) {p : Stage} (hp : p.active = false) :
    W.Exclusive (s.move i p) := by
  refine exclusive_step h (fun ha => ?_) (fun head files e => ?_) fun head e => ?_
  · rw [hp] at ha
    cases ha
  · rw [e] at hp
    cases hp
  · rw [e] at hp
    cases hp

/-- A run publishes what it built. -/
theorem exclusive_publish (h : W.Exclusive s) {head r : History} {files : Files}
    (hi : s.phase i = .built head files) :
    W.Exclusive (s.publish i head r ⟨(W.version i).name, files⟩) := by
  have hown := h.of_active (i := i) (by rw [hi]; rfl)
  have hmoved : W.Exclusive { s.move i (.published head) with
      log := ⟨(W.version i).name, files⟩ :: s.log } := by
    refine exclusive_move h (fun _ => hown) (fun _ _ hp => by cases hp) fun j head' hj => ?_
    rw [phase_move_cases] at hj
    by_cases hji : j = i
    · subst hji
      obtain ⟨k, rfl⟩ := h.made j head files hi
      rw [if_pos rfl] at hj
      cases hj
      exact ⟨k, lastPublished_self ..⟩
    · rw [if_neg hji] at hj
      have htag := hown.2 j hji (by rw [hj]; rfl)
      rw [lastPublished_of_ne fun e => htag (congrArg ("v" ++ ·) e)]
      exact h.mine j head' hj
  exact ⟨hmoved.free, hmoved.alone, hmoved.made, hmoved.mine⟩

/-- A run pushes its tag. -/
theorem exclusive_tag (h : W.Exclusive s) {head : History} (hi : s.phase i = .published head) :
    W.Exclusive (s.pushTag i (tagOf (W.version i)) head) := by
  have hown := h.of_active (i := i) (by rw [hi]; rfl)
  have hmoved : W.Exclusive (s.move i .ended) := exclusive_inactive h rfl
  refine ⟨?_, hmoved.alone, hmoved.made, hmoved.mine⟩
  intro j hj
  have hj' : ((s.move i .ended).phase j).active = true := hj
  have hfree := hmoved.free j hj'
  rw [phase_move_cases] at hj'
  by_cases hji : j = i
  · simp [hji, Stage.active] at hj'
  · rw [if_neg hji] at hj'
    rwa [Origin.tags_pushTag_of_ne _ _ (hown.2 j hji hj')]

/-- The step lemma of serialized runs. -/
theorem serial_step {e : Event ι} (h : W.Exclusive s) (hs : W.Step s e s') (hser : W.Serial s e) :
    W.Exclusive s' ∧ W.Safe s e := by
  cases hs with
  | checkout hi => exact ⟨exclusive_inactive h rfl, trivial⟩
  | validate hi hv =>
    obtain ⟨rfl, hothers⟩ := hser
    have hfree := (validate_ok hv).2.2.1
    refine ⟨exclusive_step h (fun _ => ⟨hfree, fun j _ hj => hothers j hj⟩) ?_ ?_, trivial⟩
    · intro _ _ hp
      cases hp
    · intro _ hp
      cases hp
  | build k hi =>
    refine ⟨exclusive_step h (fun _ => h.of_active (by rw [hi]; rfl)) ?_ ?_, trivial⟩
    · intro _ _ hp
      cases hp
      exact ⟨k, rfl⟩
    · intro _ hp
      cases hp
  | publish hi hf hb hp =>
    exact ⟨exclusive_publish h hi, fun _ _ _ => Or.inl (h.of_active (by rw [hi]; rfl)).1⟩
  | tag hi ht => exact ⟨exclusive_tag h hi, h.mine _⟩
  | stop => exact ⟨exclusive_inactive h rfl, trivial⟩

/-- **Runs that do not overlap on a tag are safe**: where every validation finds no other run
    for its tag active, all steps are safe. -/
theorem serialized_safe {tr : List (Event ι × Origin ι)} (h : Exec W.Step (origin ι) tr)
    (hser : Along (fun s e _ => W.Serial s e) (origin ι) tr) :
    Along (fun s e _ => W.Safe s e) (origin ι) tr :=
  along_mono W.Exclusive _ _ (fun _ _ _ he hs hp => serial_step he hs hp) (exclusive_origin W) h
    hser

end Serialized

end OnymSdk.Release
