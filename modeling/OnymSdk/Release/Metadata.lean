/-
  File:      OnymSdk/Release/Metadata.lean
  Subject:   `maven-metadata.xml`, as the publish script prints it and as a
             consumer reads it.

  * `metadataText` -- the printed file, line by line;
  * `between`, `element` -- reading an element that stands alone on its line;
  * `versionsIn_metadataText`, `latestIn_metadataText`,
    `releaseIn_metadataText` -- **what is read back is what was printed**.
-/
import Mathlib.Data.List.Infix
import Mathlib.Tactic.Common

namespace OnymSdk.Release

/-- A text file by its lines, each of them ended by a newline. -/
abbrev Text := List String

/-! ## 1. Printing -/

def ARTIFACT : String := "onym-sdk"

/-- The lines before the versions; `latest` is printed twice. -/
def headLines (latest : String) : Text :=
  ["<?xml version=\"1.0\" encoding=\"UTF-8\"?>",
    "<metadata>",
    "  <groupId>chat.onym</groupId>",
    "  <artifactId>" ++ (ARTIFACT ++ "</artifactId>"),
    "  <versioning>",
    "    <latest>" ++ (latest ++ "</latest>"),
    "    <release>" ++ (latest ++ "</release>"),
    "    <versions>"]

def versionLines (versions : List String) : Text :=
  versions.map fun v => "      <version>" ++ (v ++ "</version>")

def tailLines (now : String) : Text :=
  ["    </versions>",
    "    <lastUpdated>" ++ (now ++ "</lastUpdated>"),
    "  </versioning>",
    "</metadata>"]

/-- The metadata of the given versions. -/
def metadataText (versions : List String) (latest now : String) : Text :=
  headLines latest ++ (versionLines versions ++ tailLines now)

/-! ## 2. Reading -/

/-- What stands between an opening and a closing tag on a line, if the line is that. -/
def between (opening closing line : String) : Option String := do
  let rest ← line.toList.dropPrefix? opening.toList
  let body ← rest.dropSuffix? closing.toList
  return String.ofList body

/-- The contents of all lines that are one element. -/
def element (opening closing : String) (text : Text) : List String :=
  text.filterMap (between opening closing)

/-- The listed versions, in order. -/
def versionsIn : Text → List String := element "      <version>" "</version>"

def latestIn : Text → List String := element "    <latest>" "</latest>"

def releaseIn : Text → List String := element "    <release>" "</release>"

/-- The tag does not stand at the head of a line that starts with `head`. -/
def Apart (opening head : String) : Prop :=
  ¬ opening.toList <+: head.toList ∧ ¬ head.toList <+: opening.toList

instance (opening head : String) : Decidable (Apart opening head) := by
  unfold Apart
  infer_instance

theorem between_self (opening v closing : String) :
    between opening closing (opening ++ (v ++ closing)) = some v := by
  have h1 : (opening ++ (v ++ closing)).toList.dropPrefix? opening.toList =
      some (v.toList ++ closing.toList) := by
    rw [List.dropPrefix?_eq_some_iff]
    exact ⟨opening.toList, by simp, by simp⟩
  have h2 : (v.toList ++ closing.toList).dropSuffix? closing.toList = some v.toList := by
    rw [List.dropSuffix?_eq_some_iff]
    exact ⟨closing.toList, by simp, by simp⟩
  rw [between, h1]
  simp [h2]

theorem between_apart {opening head : String} (h : Apart opening head) (closing tail : String) :
    between opening closing (head ++ tail) = none := by
  have h1 : (head ++ tail).toList.dropPrefix? opening.toList = none := by
    rw [Option.eq_none_iff_forall_not_mem]
    intro rest hr
    obtain ⟨p, e, hp⟩ := List.dropPrefix?_eq_some_iff.mp hr
    obtain rfl : p = opening.toList := by simpa using hp
    have hpre : opening.toList <+: head.toList ++ tail.toList :=
      ⟨rest, by rw [← e, String.toList_append]⟩
    rcases List.prefix_or_prefix_of_prefix hpre (List.prefix_append _ _) with h' | h'
    · exact h.1 h'
    · exact h.2 h'
  rw [between, h1]
  rfl

/-! ## 3. Reading what was printed -/

theorem element_append (opening closing : String) (s t : Text) :
    element opening closing (s ++ t) = element opening closing s ++ element opening closing t :=
  List.filterMap_append

theorem element_tailLines {opening : String} (closing now : String)
    (h : ∀ line ∈ ["    </versions>", "  </versioning>", "</metadata>"],
      between opening closing line = none)
    (hnow : Apart opening "    <lastUpdated>") : element opening closing (tailLines now) = [] := by
  simp only [List.forall_mem_cons] at h
  obtain ⟨h1, h2, h3, -⟩ := h
  simp only [element, tailLines, List.filterMap_cons, h1, between_apart hnow, h2, h3,
    List.filterMap_nil]

/-- Of the lines before the versions only two hold an element read here. -/
theorem element_headLines {opening : String} (closing latest : String)
    (h : ∀ line ∈ ["<?xml version=\"1.0\" encoding=\"UTF-8\"?>", "<metadata>",
        "  <groupId>chat.onym</groupId>", "  <artifactId>" ++ (ARTIFACT ++ "</artifactId>"),
        "  <versioning>", "    <versions>"], between opening closing line = none) :
    element opening closing (headLines latest) =
      (between opening closing ("    <latest>" ++ (latest ++ "</latest>"))).toList ++
        (between opening closing ("    <release>" ++ (latest ++ "</release>"))).toList := by
  simp only [List.forall_mem_cons] at h
  obtain ⟨h1, h2, h3, h4, h5, h6, -⟩ := h
  simp only [element, headLines, List.filterMap_cons, h1, h2, h3, h4, h5, h6, List.filterMap_nil]
  cases between opening closing ("    <latest>" ++ (latest ++ "</latest>")) <;>
    cases between opening closing ("    <release>" ++ (latest ++ "</release>")) <;> rfl

/-- Version lines hold no other element. -/
theorem element_versionLines {opening : String} (h : Apart opening "      <version>")
    (closing : String) (versions : List String) :
    element opening closing (versionLines versions) = [] := by
  rw [element, versionLines, List.filterMap_map, List.filterMap_eq_nil_iff]
  exact fun v _ => between_apart h _ _

theorem versionsIn_versionLines (versions : List String) :
    versionsIn (versionLines versions) = versions := by
  rw [versionsIn, element, versionLines, List.filterMap_map]
  have e : (between "      <version>" "</version>") ∘
      (fun v => "      <version>" ++ (v ++ "</version>")) = some :=
    funext fun v => between_self _ v _
  rw [e, List.filterMap_some]

section Printed

variable (versions : List String) (latest now : String)

/-- **The listed versions are the printed ones.** -/
theorem versionsIn_metadataText : versionsIn (metadataText versions latest now) = versions := by
  have hh : versionsIn (headLines latest) = [] := by
    rw [versionsIn, element_headLines _ _ (by decide), between_apart (by decide),
      between_apart (by decide)]
    rfl
  have hv := versionsIn_versionLines versions
  have ht : versionsIn (tailLines now) = [] := element_tailLines _ _ (by decide) (by decide)
  rw [versionsIn] at *
  rw [metadataText, element_append, element_append, hh, hv, ht, List.nil_append, List.append_nil]

/-- The one `latest` element is the printed one. -/
theorem latestIn_metadataText : latestIn (metadataText versions latest now) = [latest] := by
  have hh : latestIn (headLines latest) = [latest] := by
    rw [latestIn, element_headLines _ _ (by decide), between_self, between_apart (by decide)]
    rfl
  have hv : latestIn (versionLines versions) = [] := element_versionLines (by decide) _ _
  have ht : latestIn (tailLines now) = [] := element_tailLines _ _ (by decide) (by decide)
  rw [latestIn] at *
  rw [metadataText, element_append, element_append, hh, hv, ht]
  rfl

/-- So is the one `release` element. -/
theorem releaseIn_metadataText : releaseIn (metadataText versions latest now) = [latest] := by
  have hh : releaseIn (headLines latest) = [latest] := by
    rw [releaseIn, element_headLines _ _ (by decide), between_apart (by decide), between_self]
    rfl
  have hv : releaseIn (versionLines versions) = [] := element_versionLines (by decide) _ _
  have ht : releaseIn (tailLines now) = [] := element_tailLines _ _ (by decide) (by decide)
  rw [releaseIn] at *
  rw [metadataText, element_append, element_append, hh, hv, ht]
  rfl

end Printed

end OnymSdk.Release
