/-
  File:      OnymSdk/Release/Tree.lean
  Subject:   THE TREE OF THE RELEASES BRANCH and what a publish makes of it.

  * `Version` -- X.Y.Z, its three numerals with the proof that they are;
  * `Tree` -- the directory `chat/onym/onym-sdk` and every other file;
  * `stage`, `listVersions`, `regenerate` -- the script's steps on the tree it
    checked out; `Silent`, `regenerateWith` -- and if a command fails unnoticed;
  * `Consistent` -- the metadata of a tree: it lists the version directories and
    nothing else, each once, in ascending order, names the largest one, and its
    checksum files match;
  * `regenerate_consistent` -- **regenerating makes a tree consistent**, whatever
    its metadata was, and leaves its directories alone.
-/
import OnymSdk.Release.Metadata
import OnymSdk.Lib.VersionNames
import Mathlib.Data.Finmap
import Mathlib.Data.Finset.Sort
import Mathlib.Data.Set.List

namespace OnymSdk.Release

open VersionNames

/-! ## 1. Versions and trees -/

/-- A version of the form X.Y.Z. -/
structure Version where
  major : List Char
  minor : List Char
  patch : List Char
  isMajor : IsNumeral major
  isMinor : IsNumeral minor
  isPatch : IsNumeral patch

namespace Version

/-- The version as it is written. -/
def name (v : Version) : String := String.ofList (dotted v.major v.minor v.patch)

/-- The version as three numbers. -/
def number (v : Version) : Nat ×ₗ Nat ×ₗ Nat := numeric v.major v.minor v.patch

end Version

/-- The files of a directory, by name. -/
abbrev Files := Finmap fun _ : String => List UInt8

/-- What stands under a name of the artifact's directory. -/
inductive Entry where
  | dir (files : Files)
  | file (text : Text)
  deriving DecidableEq

/-- A tree of the branch: the artifact's directory, and every other file by path. -/
structure Tree where
  artifact : Finmap fun _ : String => Entry
  others : Finmap fun _ : String => Text
  deriving DecidableEq

/-- The checksum programs, on a text file. -/
structure Tools where
  md5 : Text → String
  sha1 : Text → String

namespace Tree

/-- The directory of the given name. -/
def dir? (t : Tree) (n : String) : Option Files :=
  match t.artifact.lookup n with
  | some (.dir files) => some files
  | _ => none

/-- The text file of the given name. -/
def file? (t : Tree) (n : String) : Option Text :=
  match t.artifact.lookup n with
  | some (.file text) => some text
  | _ => none

/-- Write an entry over whatever has its name. -/
def write (t : Tree) (n : String) (e : Entry) : Tree :=
  { t with artifact := t.artifact.insert n e }

@[simp] theorem dir?_write_self (t : Tree) (n : String) (files : Files) :
    (t.write n (.dir files)).dir? n = some files := by
  simp [dir?, write]

@[simp] theorem dir?_write_file (t : Tree) (n : String) (text : Text) :
    (t.write n (.file text)).dir? n = none := by
  simp [dir?, write]

theorem dir?_write_of_ne (t : Tree) {n m : String} (e : Entry) (h : m ≠ n) :
    (t.write n e).dir? m = t.dir? m := by
  simp [dir?, write, Finmap.lookup_insert_of_ne _ h]

@[simp] theorem file?_write_self (t : Tree) (n : String) (text : Text) :
    (t.write n (.file text)).file? n = some text := by
  simp [file?, write]

theorem file?_write_of_ne (t : Tree) {n m : String} (e : Entry) (h : m ≠ n) :
    (t.write n e).file? m = t.file? m := by
  simp [file?, write, Finmap.lookup_insert_of_ne _ h]

theorem lookup_write (t : Tree) (n m : String) (e : Entry) :
    (t.write n e).artifact.lookup m = if m = n then some e else t.artifact.lookup m := by
  by_cases h : m = n
  · rw [if_pos h, h]
    exact Finmap.lookup_insert _
  · rw [if_neg h]
    exact Finmap.lookup_insert_of_ne _ h

/-- A directory is no file. -/
theorem file?_of_dir? {t : Tree} {n : String} {files : Files} (h : t.dir? n = some files) :
    t.file? n = none := by
  unfold dir? at h
  unfold file?
  split at h
  · rename_i e
    rw [e]
  · cases h

/-- Writing a file where no directory stands leaves the directories alone. -/
theorem dir?_write_file_of_none {t : Tree} {n : String} (h : t.dir? n = none) (text : Text)
    (m : String) : (t.write n (.file text)).dir? m = t.dir? m := by
  by_cases hm : m = n
  · rw [hm, dir?_write_file, h]
  · exact dir?_write_of_ne t _ hm

end Tree

/-! ## 2. The script's steps on the tree -/

def META : String := "maven-metadata.xml"
def META_MD5 : String := "maven-metadata.xml.md5"
def META_SHA1 : String := "maven-metadata.xml.sha1"

/-- `rm -rf "$DST_VERSION_DIR"; mkdir -p ..; cp "$SRC_VERSION_DIR"/* ..`. -/
def stage (v : Version) (files : Files) (t : Tree) : Tree := t.write v.name (.dir files)

/-- `[0-9]*.[0-9]*.[0-9]*`. -/
def versionGlob : List Glob :=
  [.digit, .star, .lit '.', .digit, .star, .lit '.', .digit, .star]

/-- The directories that match the pattern, in the order of `sort -V`. -/
def listVersions (t : Tree) : List String :=
  (t.artifact.keys.filter fun n => (t.dir? n).isSome && glob versionGlob n.toList).sort versionLe

/-- What goes wrong without a notice, in a pipeline that ends with another command: a failing
    `ls` prints some lines of its own, a failing `md5sum` or `shasum` nothing. -/
structure Silent where
  ls : Option (List String) := none
  md5sum : Bool := false
  shasum : Bool := false

/-- `VERSIONS`. -/
def Silent.versions (q : Silent) (t : Tree) : List String :=
  match q.ls with
  | none => listVersions t
  | some lines => (lines.filter fun n => (t.dir? n).isSome && glob versionGlob n.toList).mergeSort
      fun n m => decide (versionLe n m)

/-- The metadata that is printed for a tree. -/
def Silent.metadata (q : Silent) (now : String) (t : Tree) : Text :=
  metadataText (q.versions t) ((q.versions t).getLastD "") now

/-- No directory has one of the three names; it would make the redirection fail. -/
def Tree.Free (t : Tree) : Prop :=
  t.dir? META = none ∧ t.dir? META_MD5 = none ∧ t.dir? META_SHA1 = none

instance (t : Tree) : Decidable t.Free := by
  unfold Tree.Free
  infer_instance

/-- Write the metadata and its two checksum files. -/
def Tree.print (t : Tree) (text md5 sha1 : Text) : Tree :=
  ((t.write META (.file text)).write META_MD5 (.file md5)).write META_SHA1 (.file sha1)

section Print

variable (t : Tree) (text md5 sha1 : Text)

@[simp] theorem Tree.file?_print_meta : (t.print text md5 sha1).file? META = some text := by
  rw [print, file?_write_of_ne _ _ (by decide), file?_write_of_ne _ _ (by decide), file?_write_self]

@[simp] theorem Tree.file?_print_md5 : (t.print text md5 sha1).file? META_MD5 = some md5 := by
  rw [print, file?_write_of_ne _ _ (by decide), file?_write_self]

@[simp] theorem Tree.file?_print_sha1 : (t.print text md5 sha1).file? META_SHA1 = some sha1 :=
  file?_write_self ..

/-- What has another name stays. -/
theorem Tree.lookup_print_of_ne {n : String} (h : n ≠ META ∧ n ≠ META_MD5 ∧ n ≠ META_SHA1) :
    (t.print text md5 sha1).artifact.lookup n = t.artifact.lookup n := by
  rw [print, lookup_write, if_neg h.2.2, lookup_write, if_neg h.2.1, lookup_write, if_neg h.1]

/-- The directories stay, where the names are free. -/
theorem Tree.dir?_print {t : Tree} (h : t.Free) (n : String) :
    (t.print text md5 sha1).dir? n = t.dir? n := by
  obtain ⟨h1, h2, h3⟩ := h
  have e1 : ∀ m, (t.write META (.file text)).dir? m = t.dir? m := dir?_write_file_of_none h1 _
  have e2 : ∀ m, ((t.write META (.file text)).write META_MD5 (.file md5)).dir? m = t.dir? m :=
    fun m => by rw [dir?_write_file_of_none (by rw [e1, h2]), e1]
  rw [print, dir?_write_file_of_none (by rw [e2, h3]), e2]

end Print

/-- The two checksum files. -/
def Silent.md5 (q : Silent) (tools : Tools) (text : Text) : Text :=
  if q.md5sum then [] else [tools.md5 text]

def Silent.sha1 (q : Silent) (tools : Tools) (text : Text) : Text :=
  if q.shasum then [] else [tools.sha1 text]

/-- Print the metadata and its checksum files, whatever fails unnoticed. -/
def regenerateWith (q : Silent) (tools : Tools) (now : String) (t : Tree) : Option Tree :=
  if t.Free then
    let text := q.metadata now t
    some (t.print text (q.md5 tools text) (q.sha1 tools text))
  else none

theorem regenerateWith_free {q : Silent} {t : Tree} (h : t.Free) (tools : Tools) (now : String) :
    regenerateWith q tools now t = some (t.print (q.metadata now t)
      (q.md5 tools (q.metadata now t)) (q.sha1 tools (q.metadata now t))) := if_pos h

theorem regenerateWith_not_free {q : Silent} {t : Tree} (h : ¬ t.Free) (tools : Tools)
    (now : String) : regenerateWith q tools now t = none := if_neg h

/-- Print the metadata and its checksum files. -/
def regenerate (tools : Tools) (now : String) (t : Tree) : Option Tree :=
  regenerateWith {} tools now t

/-! ## 3. Consistency -/

/-- Every directory is that of a version. -/
def OnlyVersions (t : Tree) : Prop := ∀ n files, t.dir? n = some files → ∃ v : Version, v.name = n

/-- **The metadata of the tree is right.** -/
structure Consistent (tools : Tools) (t : Tree) (text : Text) : Prop where
  onDisk : t.file? META = some text
  nodup : (versionsIn text).Nodup
  lists : ∀ n, n ∈ versionsIn text ↔ ∃ files, t.dir? n = some files
  ascending : ∃ vs : List Version, versionsIn text = vs.map Version.name ∧
    vs.Pairwise (·.number ≤ ·.number) ∧
    ∃ top ∈ vs, latestIn text = [top.name] ∧ releaseIn text = [top.name] ∧
      ∀ v ∈ vs, v.number ≤ top.number
  md5 : t.file? META_MD5 = some [tools.md5 text]
  sha1 : t.file? META_SHA1 = some [tools.sha1 text]

theorem glob_numeral {x : List Char} (h : IsNumeral x) {ps : List Glob} {rest : List Char}
    (hrest : glob ps rest = true) : glob (.digit :: .star :: ps) (x ++ rest) = true := by
  obtain ⟨hne, hd⟩ := h
  match x, hne with
  | d :: ds, _ =>
    have hdig := hd d List.mem_cons_self
    simp only [List.cons_append, glob, hdig, Bool.true_and]
    exact globStar_append ds hrest

/-- A version's name matches the pattern. -/
theorem glob_name (v : Version) : glob versionGlob v.name.toList = true := by
  have hz : glob [.digit, .star] v.patch = true := by
    have e : glob [.digit, .star] (v.patch ++ []) = true := glob_numeral v.isPatch rfl
    rwa [List.append_nil] at e
  have hy : glob [.digit, .star, .lit '.', .digit, .star] (v.minor ++ '.' :: v.patch) = true :=
    glob_numeral v.isMinor (by simpa [glob] using hz)
  rw [Version.name, String.toList_ofList]
  exact glob_numeral v.isMajor (by simpa [glob] using hy)

theorem mem_keys_of_dir? {t : Tree} {n : String} {files : Files} (h : t.dir? n = some files) :
    n ∈ t.artifact.keys := by
  rw [Finmap.mem_keys, ← Finmap.lookup_isSome]
  unfold Tree.dir? at h
  split at h
  · rename_i e
    rw [e]
    rfl
  · cases h

/-- The script lists a version directory exactly if it is there. -/
theorem mem_listVersions_name {t : Tree} (v : Version) :
    v.name ∈ listVersions t ↔ ∃ files, t.dir? v.name = some files := by
  rw [listVersions, Finset.mem_sort, Finset.mem_filter, glob_name, Bool.and_true,
    Option.isSome_iff_exists]
  constructor
  · intro h
    exact h.2
  · intro hx
    obtain ⟨files, hf⟩ := hx
    exact ⟨mem_keys_of_dir? hf, files, hf⟩

theorem mem_listVersions {t : Tree} (h : OnlyVersions t) (n : String) :
    n ∈ listVersions t ↔ ∃ files, t.dir? n = some files := by
  constructor
  · intro hn
    rw [listVersions, Finset.mem_sort, Finset.mem_filter, Bool.and_eq_true,
      Option.isSome_iff_exists] at hn
    exact hn.2.1
  · intro hx
    obtain ⟨files, hf⟩ := hx
    obtain ⟨v, rfl⟩ := h n files hf
    exact (mem_listVersions_name v).mpr ⟨files, hf⟩

/-- The listed names are versions in ascending order. -/
theorem listVersions_ascending {t : Tree} (h : OnlyVersions t) :
    ∃ vs : List Version, listVersions t = vs.map Version.name ∧
      vs.Pairwise (·.number ≤ ·.number) := by
  have hall : listVersions t ∈ Set.range (List.map Version.name) := by
    rw [Set.range_list_map]
    intro n hn
    obtain ⟨files, hf⟩ := (mem_listVersions h n).mp hn
    exact h n files hf
  obtain ⟨vs, hvs⟩ := hall
  have hsort : (listVersions t).Pairwise versionLe := Finset.pairwise_sort _ _
  rw [← hvs, List.pairwise_map] at hsort
  refine ⟨vs, hvs.symm, hsort.imp fun {a b} hab => ?_⟩
  exact versionLe_numeric a.isMajor a.isMinor a.isPatch b.isMajor b.isMinor b.isPatch hab

/-- The last of an ascending list of versions is the largest. -/
theorem getLast_top {vs : List Version} (h : vs.Pairwise (·.number ≤ ·.number)) (hne : vs ≠ []) :
    (vs.map Version.name).getLastD "" = (vs.getLast hne).name ∧
      ∀ v ∈ vs, v.number ≤ (vs.getLast hne).number := by
  have hrefl : Std.Refl fun v w : Version => v.number ≤ w.number := ⟨fun v => le_refl v.number⟩
  refine ⟨?_, fun v hv => h.rel_getLast hv⟩
  rw [List.getLastD_eq_getLast?, List.getLast?_map, List.getLast?_eq_some_getLast hne]
  rfl

/-! ## 4. What a publish makes of a tree -/

section Regenerate

variable {tools : Tools} {now : String} {t t' : Tree}

/-- What regenerating does, guards included. -/
theorem regenerate_cases (h : regenerate tools now t = some t') :
    t.Free ∧ ∃ text, text = metadataText (listVersions t) ((listVersions t).getLastD "") now ∧
      t' = t.print text [tools.md5 text] [tools.sha1 text] := by
  unfold regenerate regenerateWith at h
  split at h
  · rename_i hg
    cases h
    exact ⟨hg, _, rfl, rfl⟩
  · cases h

/-- The directories stay what they are. -/
theorem regenerate_dir? (h : regenerate tools now t = some t') (n : String) :
    t'.dir? n = t.dir? n := by
  obtain ⟨hfree, text, -, rfl⟩ := regenerate_cases h
  exact Tree.dir?_print _ _ _ hfree n

/-- The files that were printed are there. -/
theorem regenerate_file? (h : regenerate tools now t = some t') :
    ∃ text, text = metadataText (listVersions t) ((listVersions t).getLastD "") now ∧
      t'.file? META = some text ∧ t'.file? META_MD5 = some [tools.md5 text] ∧
      t'.file? META_SHA1 = some [tools.sha1 text] := by
  obtain ⟨-, text, htext, rfl⟩ := regenerate_cases h
  exact ⟨text, htext, Tree.file?_print_meta .., Tree.file?_print_md5 .., Tree.file?_print_sha1 ..⟩

/-- **Regenerating makes a tree consistent.** -/
theorem regenerate_consistent (hv : OnlyVersions t) (hne : ∃ n files, t.dir? n = some files)
    (h : regenerate tools now t = some t') : ∃ text, Consistent tools t' text := by
  obtain ⟨text, rfl, hmeta, hmd5, hsha1⟩ := regenerate_file? h
  obtain ⟨vs, hvs, hasc⟩ := listVersions_ascending hv
  have hvsne : vs ≠ [] := by
    intro e
    subst e
    obtain ⟨n, files, hf⟩ := hne
    have hn := (mem_listVersions hv n).mpr ⟨files, hf⟩
    rw [hvs] at hn
    cases hn
  obtain ⟨hlast, htop⟩ := getLast_top hasc hvsne
  rw [hvs, hlast] at hmeta hmd5 hsha1
  refine ⟨_, hmeta, ?_, fun n => ?_, ⟨vs, ?_, hasc, vs.getLast hvsne, List.getLast_mem hvsne,
    latestIn_metadataText .., releaseIn_metadataText .., htop⟩, hmd5, hsha1⟩
  · rw [versionsIn_metadataText, ← hvs]
    exact Finset.sort_nodup _ _
  · rw [versionsIn_metadataText, ← hvs, mem_listVersions hv, regenerate_dir? h]
  · rw [versionsIn_metadataText]

end Regenerate

@[simp] theorem dir?_stage_self (v : Version) (files : Files) (t : Tree) :
    (stage v files t).dir? v.name = some files := Tree.dir?_write_self ..

theorem dir?_stage_of_ne {v : Version} (files : Files) (t : Tree) {n : String} (h : n ≠ v.name) :
    (stage v files t).dir? n = t.dir? n := Tree.dir?_write_of_ne t _ h

/-- Staging a version keeps the directories versions. -/
theorem onlyVersions_stage {t : Tree} (h : OnlyVersions t) (v : Version) (files : Files) :
    OnlyVersions (stage v files t) := by
  intro n fs hn
  by_cases e : n = v.name
  · exact ⟨v, e.symm⟩
  · rw [dir?_stage_of_ne files t e] at hn
    exact h n fs hn

end OnymSdk.Release
