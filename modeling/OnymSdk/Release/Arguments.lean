/-
  File:      OnymSdk/Release/Arguments.lean
  Subject:   THE ARGUMENTS OF publish-to-releases-branch.sh.

  A loop that takes two words at a time, under `set -u`; then what the script checks
  before it touches anything.

  * `Settings`, `parse`, `front` -- the loop, and the checks after it;
  * `words` -- a list of flags with their values, as the caller writes it;
  * `parse_words`, `exists_words` -- the loop on such a list, and every argument list
    as one with a rest that stops it;
  * `settings_iff` -- **what is accepted, with which settings, and what is said of
    everything else**; `workflow_settings` -- the workflow's own call.
-/
import OnymSdk.Release.Workflow

namespace OnymSdk.Release

/-! ## 1. The loop -/

/-- The flags of the script. -/
inductive Flag where
  | version
  | repo
  | branch
  | mavenLocal
  deriving DecidableEq

def Flag.text : Flag → String
  | .version => "--version"
  | .repo => "--repo"
  | .branch => "--branch"
  | .mavenLocal => "--maven-local"

/-- The pattern of the `case` that a word matches. -/
def flag? (arg : String) : Option Flag :=
  match arg with
  | "--version" => some .version
  | "--repo" => some .repo
  | "--branch" => some .branch
  | "--maven-local" => some .mavenLocal
  | _ => none

theorem flag?_eq_some_iff {arg : String} {f : Flag} : flag? arg = some f ↔ arg = f.text := by
  constructor
  · intro h
    unfold flag? at h
    split at h <;> cases h <;> rfl
  · intro h
    subst h
    cases f <;> rfl

/-- The variables the loop sets. -/
structure Settings where
  version : String
  repo : String
  branch : String
  mavenLocal : String
  deriving DecidableEq

/-- Before the loop. -/
def defaults : Settings := ⟨"", "", "releases", ""⟩

def Settings.get (s : Settings) : Flag → String
  | .version => s.version
  | .repo => s.repo
  | .branch => s.branch
  | .mavenLocal => s.mavenLocal

def Settings.set (s : Settings) (x : Flag × String) : Settings :=
  match x.1 with
  | .version => { s with version := x.2 }
  | .repo => { s with repo := x.2 }
  | .branch => { s with branch := x.2 }
  | .mavenLocal => { s with mavenLocal := x.2 }

theorem get_set (s : Settings) (x : Flag × String) (f : Flag) :
    (s.set x).get f = if x.1 = f then x.2 else s.get f := by
  obtain ⟨g, value⟩ := x
  cases g <;> cases f <;> rfl

/-- `while [ $# -gt 0 ]`. A flag without a value is an unset `$2`; what the shell says of it is
    its own. -/
def parse : List String → Settings → Except Text Settings
  | [], s => .ok s
  | [arg], _ =>
    match flag? arg with
    | some _ => .error []
    | none => .error ["unknown arg: " ++ arg]
  | arg :: value :: rest, s =>
    match flag? arg with
    | some f => parse rest (s.set (f, value))
    | none => .error ["unknown arg: " ++ arg]

/-! ## 2. The checks after it -/

/-- Where the publication is to be. -/
def Settings.source (s : Settings) : String :=
  s.mavenLocal ++ "/chat/onym/onym-sdk/" ++ s.version

/-- `[ -z "$MAVEN_LOCAL" ] && MAVEN_LOCAL="$REPO_ROOT/build/maven-local"`. -/
def Settings.withLocal (s : Settings) (root : String) : Settings :=
  if s.mavenLocal = "" then { s with mavenLocal := root ++ "/build/maven-local" } else s

/-- **The script up to its first command.** -/
def front (isDir : String → Bool) (root : String) (args : List String) : Except Text Settings := do
  let s ← parse args defaults
  if s.version = "" then throw ["--version required (e.g. 0.0.1)"]
  if s.repo = "" then throw ["--repo required (OWNER/REPO)"]
  let s := s.withLocal root
  if isDir s.source = false then
    throw ["expected Maven publication at " ++ s.source,
      "(run: ./gradlew publishAarPublicationToReleaseRepository -PreleaseRepoUrl=file://" ++
        s.mavenLocal ++ ")"]
  return s

/-! ## 3. What is accepted -/

/-- Flags and values, as words. -/
def words (given : List (Flag × String)) : List String := given.flatMap fun x => [x.1.text, x.2]

/-- The loop takes flags and values in turn. -/
theorem parse_words (given : List (Flag × String)) (rest : List String) (s : Settings) :
    parse (words given ++ rest) s = parse rest (given.foldl Settings.set s) := by
  induction given generalizing s with
  | nil => rfl
  | cons x given ih =>
    show parse (x.1.text :: x.2 :: (words given ++ rest)) s = _
    rw [parse, flag?_eq_some_iff.mpr rfl]
    exact ih (s.set x)

/-- What stops the loop early: a flag without its value, or a word in place of a flag. -/
def Stops (rest : List String) : Prop :=
  (∃ f : Flag, rest = [f.text]) ∨ ∃ arg more, rest = arg :: more ∧ flag? arg = none

/-- Every argument list is flags with values, and then nothing or what stops the loop. -/
theorem exists_words (args : List String) :
    ∃ given rest, args = words given ++ rest ∧ (rest = [] ∨ Stops rest) := by
  induction args using List.twoStepInduction with
  | nil => exact ⟨[], [], rfl, Or.inl rfl⟩
  | singleton arg =>
    refine ⟨[], [arg], rfl, Or.inr ?_⟩
    cases h : flag? arg with
    | none => exact Or.inr ⟨arg, [], rfl, h⟩
    | some f => exact Or.inl ⟨f, by rw [flag?_eq_some_iff.mp h]⟩
  | cons_cons arg value rest ih _ =>
    cases h : flag? arg with
    | none => exact ⟨[], arg :: value :: rest, rfl, Or.inr (Or.inr ⟨arg, value :: rest, rfl, h⟩)⟩
    | some f =>
      obtain ⟨given, rest', rfl, hrest⟩ := ih
      exact ⟨(f, value) :: given, rest', by rw [flag?_eq_some_iff.mp h]; rfl, hrest⟩

/-- A flag has the value given last, or its default. -/
theorem get_foldl (given : List (Flag × String)) (s : Settings) (f : Flag) :
    (given.foldl Settings.set s).get f =
      ((given.reverse.find? fun x => x.1 = f).map Prod.snd).getD (s.get f) := by
  induction given using List.reverseRecOn with
  | nil => rfl
  | append_singleton given x ih =>
    rw [List.foldl_append, List.foldl_cons, List.foldl_nil, get_set, List.reverse_append,
      List.reverse_singleton, List.singleton_append, List.find?_cons]
    by_cases hx : x.1 = f
    · rw [if_pos hx, decide_eq_true hx]
      rfl
    · rw [if_neg hx, decide_eq_false hx, ih]

/-- The value a flag ends with: the one given last, or the default. -/
def valueOf (given : List (Flag × String)) (f : Flag) : String :=
  ((given.reverse.find? fun x => x.1 = f).map Prod.snd).getD (defaults.get f)

/-- The settings that are given. -/
def settingsOf (root : String) (given : List (Flag × String)) : Settings :=
  ⟨valueOf given .version, valueOf given .repo, valueOf given .branch,
    if valueOf given .mavenLocal = "" then root ++ "/build/maven-local"
    else valueOf given .mavenLocal⟩

/-- How the script answers flags with values and a rest. -/
inductive Answers (isDir : String → Bool) (root : String) (given : List (Flag × String)) :
    List String → Except Text Settings → Prop where
  | unknown {arg more} (h : flag? arg = none) :
      Answers isDir root given (arg :: more) (.error ["unknown arg: " ++ arg])
  | unset (f : Flag) : Answers isDir root given [f.text] (.error [])
  | noVersion (hv : valueOf given .version = "") :
      Answers isDir root given [] (.error ["--version required (e.g. 0.0.1)"])
  | noRepo (hv : valueOf given .version ≠ "") (hr : valueOf given .repo = "") :
      Answers isDir root given [] (.error ["--repo required (OWNER/REPO)"])
  | noPublication (hv : valueOf given .version ≠ "") (hr : valueOf given .repo ≠ "")
      (hd : isDir (settingsOf root given).source = false) :
      Answers isDir root given [] (.error
        ["expected Maven publication at " ++ (settingsOf root given).source,
          "(run: ./gradlew publishAarPublicationToReleaseRepository -PreleaseRepoUrl=file://" ++
            (settingsOf root given).mavenLocal ++ ")"])
  | accepted (hv : valueOf given .version ≠ "") (hr : valueOf given .repo ≠ "")
      (hd : isDir (settingsOf root given).source = true) :
      Answers isDir root given [] (.ok (settingsOf root given))

section Answers

variable {isDir : String → Bool} {root : String} {given : List (Flag × String)}

/-- The settings after the loop. -/
theorem withLocal_foldl : (given.foldl Settings.set defaults).withLocal root =
    settingsOf root given := by
  have hget := get_foldl given defaults
  have hv : (given.foldl Settings.set defaults).version = _ := hget .version
  have hr : (given.foldl Settings.set defaults).repo = _ := hget .repo
  have hb : (given.foldl Settings.set defaults).branch = _ := hget .branch
  have hm : (given.foldl Settings.set defaults).mavenLocal = _ := hget .mavenLocal
  unfold Settings.withLocal settingsOf valueOf
  rw [← hv, ← hr, ← hb, ← hm]
  split <;> rfl

/-- After a loop that is not stopped. -/
theorem front_words :
    front isDir root (words given) =
      if valueOf given .version = "" then .error ["--version required (e.g. 0.0.1)"]
      else if valueOf given .repo = "" then .error ["--repo required (OWNER/REPO)"]
      else if isDir (settingsOf root given).source = false then
        .error ["expected Maven publication at " ++ (settingsOf root given).source,
          "(run: ./gradlew publishAarPublicationToReleaseRepository -PreleaseRepoUrl=file://" ++
            (settingsOf root given).mavenLocal ++ ")"]
      else .ok (settingsOf root given) := by
  have hparse := parse_words given [] defaults
  rw [List.append_nil] at hparse
  have hv : (given.foldl Settings.set defaults).version = valueOf given .version :=
    get_foldl given defaults .version
  have hr : (given.foldl Settings.set defaults).repo = valueOf given .repo :=
    get_foldl given defaults .repo
  rw [front, hparse]
  show (do
    if (given.foldl Settings.set defaults).version = "" then throw _
    if (given.foldl Settings.set defaults).repo = "" then throw _
    if isDir ((given.foldl Settings.set defaults).withLocal root).source = false then throw _
    pure ((given.foldl Settings.set defaults).withLocal root) : Except Text Settings) = _
  rw [hv, hr, withLocal_foldl]
  split
  · rfl
  · split
    · rfl
    · split <;> rfl

/-- What the relation says is what the script does. -/
theorem front_of_answers {rest : List String} {r : Except Text Settings}
    (h : Answers isDir root given rest r) : front isDir root (words given ++ rest) = r := by
  cases h with
  | unknown h =>
    rename_i arg more
    rw [front, parse_words]
    cases more with
    | nil => rw [parse, h]; rfl
    | cons value more => rw [parse, h]; rfl
  | unset f =>
    rw [front, parse_words, parse, flag?_eq_some_iff.mpr rfl]
    rfl
  | noVersion hv => rw [List.append_nil, front_words, if_pos hv]
  | noRepo hv hr => rw [List.append_nil, front_words, if_neg hv, if_pos hr]
  | noPublication hv hr hd => rw [List.append_nil, front_words, if_neg hv, if_neg hr, if_pos hd]
  | accepted hv hr hd =>
    rw [List.append_nil, front_words, if_neg hv, if_neg hr, if_neg (by simp [hd])]

/-- It answers everything. -/
theorem exists_answer {rest : List String} (h : rest = [] ∨ Stops rest) :
    ∃ r, Answers isDir root given rest r := by
  rcases h with rfl | ⟨f, rfl⟩ | ⟨arg, more, rfl, h⟩
  · by_cases hv : valueOf given .version = ""
    · exact ⟨_, .noVersion hv⟩
    · by_cases hr : valueOf given .repo = ""
      · exact ⟨_, .noRepo hv hr⟩
      · cases hd : isDir (settingsOf root given).source with
        | false => exact ⟨_, .noPublication hv hr hd⟩
        | true => exact ⟨_, .accepted hv hr hd⟩
  · exact ⟨_, .unset f⟩
  · exact ⟨_, .unknown h⟩

/-- **The arguments.** For every argument list: the script accepts it exactly if it is flags with
    values that name a version, a repository and a publication that is there, and then each flag
    has the value given last or its default; and each of the five errors comes with exactly the
    lists it is about. -/
theorem settings_iff {args : List String} {r : Except Text Settings} :
    front isDir root args = r ↔
      ∃ given rest, args = words given ++ rest ∧ Answers isDir root given rest r := by
  constructor
  · intro h
    obtain ⟨given, rest, rfl, hrest⟩ := exists_words args
    have hanswer : ∃ r', Answers isDir root given rest r' := exists_answer hrest
    obtain ⟨r', hr'⟩ := hanswer
    rw [front_of_answers hr'] at h
    exact ⟨given, rest, rfl, h ▸ hr'⟩
  · intro hx
    obtain ⟨given, rest, rfl, hr⟩ := hx
    exact front_of_answers hr

end Answers

/-- The workflow's own call, and the arguments it stands for. -/
theorem workflow_settings {ι : Type} (W : Workflow ι) (i : ι) (files : Files)
    {isDir : String → Bool} {root : String} (hr : W.repo ≠ "")
    (hd : isDir (root ++ "/build/maven-local/chat/onym/onym-sdk/" ++ (W.version i).name) = true) :
    ∃ s, front isDir root ["--version", (W.version i).name, "--repo", W.repo] = .ok s ∧
      s.version = (W.args i files).version.name ∧ s.repo = (W.args i files).repo ∧
      s.branch = (W.args i files).branch := by
  have hv : (W.version i).name ≠ "" := by
    intro e
    have hlist := congrArg String.toList e
    simp [Version.name, VersionNames.dotted] at hlist
  have hsource : (settingsOf root [(.version, (W.version i).name), (.repo, W.repo)]).source =
      root ++ "/build/maven-local/chat/onym/onym-sdk/" ++ (W.version i).name := by
    show root ++ "/build/maven-local" ++ "/chat/onym/onym-sdk/" ++ _ = _
    rw [@String.append_assoc root]
    rfl
  have haccepted : Answers isDir root [(.version, (W.version i).name), (.repo, W.repo)] []
      (.ok (settingsOf root [(.version, (W.version i).name), (.repo, W.repo)])) :=
    .accepted hv hr (by rw [hsource]; exact hd)
  exact ⟨_, front_of_answers haccepted, rfl, rfl, rfl⟩

end OnymSdk.Release
