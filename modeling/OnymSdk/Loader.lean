/-
  File:      OnymSdk/Loader.lean
  Subject:   THE TWO-TIER NATIVE LOADER of `OnymJni.kt`.

  * `Platform` -- what the loader meets: the two system properties, the bundled
    resources, extraction, `System.load` and `System.loadLibrary`;
  * `detectOs`, `detectArch`, `createTempLibFile`, `loadNativeLibrary` -- the
    loader, as written there;
  * `Contract` -- its documented contract: it loads when one of the tiers can,
    and otherwise throws an `UnsatisfiedLinkError` that names both locations;
  * `contract_iff` -- **when it meets the contract**: the second tier is only
    tried when the resource is absent;
  * `contract_fails_foreignResource` -- a bundled library of another platform
    hides a working `java.library.path`.
-/
import OnymSdk.Jvm
import Mathlib.Data.List.Infix

namespace OnymSdk

/-! ## 1. The platform -/

/-- What the loader meets. `lowercase` and `mapLibraryName` are the JVM's; `resolve` is
    `File(parent, child).absolutePath`; `copyTo path bytes` opens a file and copies a
    resource into it; `load path bytes` is `System.load` of a file with these bytes. The
    text of an `error` is the message of the exception: an `IOException` of the file
    operations, an `UnsatisfiedLinkError` of the two load calls. -/
structure Platform where
  osName : Option String
  osArch : Option String
  lowercase : String → String
  mapLibraryName : String → String
  getResourceAsStream : String → Option (List UInt8)
  createTempDirectory : String → Except String String
  resolve : String → String → String
  copyTo : String → List UInt8 → Except String Unit
  load : String → List UInt8 → Except String Unit
  loadLibrary : String → Except String Unit

/-- `sub` stands somewhere in `s`. -/
def Within (sub s : String) : Prop := sub.toList <:+: s.toList

instance (sub s : String) : Decidable (Within sub s) := by unfold Within; infer_instance

/-- `s.contains(sub)`. -/
def contains (s sub : String) : Bool := decide (Within sub s)

/-- `s.replace(old, new)`. -/
def replaceChar (s : String) (old new : Char) : String :=
  String.ofList (s.toList.map fun c => if c = old then new else c)

namespace Platform

variable (p : Platform)

/-! ## 2. The loader -/

def detectOs : String :=
  let name := p.lowercase (p.osName.getD "")
  if contains name "mac" || contains name "darwin" then "darwin"
  else if contains name "linux" then "linux"
  else if contains name "windows" then "windows"
  else replaceChar name ' ' '-'

def detectArch : String :=
  let arch := p.lowercase (p.osArch.getD "")
  if arch = "aarch64" ∨ arch = "arm64" then "aarch64"
  else if arch = "x86_64" ∨ arch = "amd64" then "x86_64"
  else arch

def libName : String := p.mapLibraryName "onym_sdk_jni"

def platformDir : String := p.detectOs ++ "/" ++ p.detectArch

def resourcePath : String := "/native/" ++ p.platformDir ++ "/" ++ p.libName

/-- The permissions computed here are not used for the file. -/
def createTempLibFile (libName : String) : Except Throwable String := do
  let tempDir ← (p.createTempDirectory "onym-sdk-jni-").mapError .IOException
  return p.resolve tempDir libName

/-- Extraction of a resource to a temporary file. -/
def extract (resource : List UInt8) : Except Throwable String := do
  let tempFile ← p.createTempLibFile p.libName
  (p.copyTo tempFile resource).mapError .IOException
  return tempFile

/-- The message of the loader's own error; `cause` is that of `loadLibrary`'s. -/
def notFoundMessage (cause : String) : String :=
  "Failed to load native library 'onym_sdk_jni'. Tried:\n" ++
    ("  1. Bundled resource at JAR path '" ++ p.resourcePath ++ "' — not found.\n") ++
    "     Run scripts/build-host-jni.sh to populate " ++
    ("src/main/resources/native/" ++ p.platformDir ++ "/.\n") ++
    ("  2. System.loadLibrary fallback — failed: " ++ cause ++ ".\n") ++
    ("     Set java.library.path to a directory containing " ++ p.libName ++ ".")

/-- `loadNativeLibrary`. -/
def loadNativeLibrary : Except Throwable Unit := do
  match p.getResourceAsStream p.resourcePath with
  | some resource =>
    let tempFile ← p.extract resource
    (p.load tempFile resource).mapError .UnsatisfiedLinkError
  | none =>
    match p.loadLibrary "onym_sdk_jni" with
    | .ok () => return ()
    | .error message => throw (.UnsatisfiedLinkError (p.notFoundMessage message))

/-! ## 3. The contract -/

/-- The bundled resource is there, can be extracted and loads. -/
def BundledLoads : Prop :=
  ∃ resource file, p.getResourceAsStream p.resourcePath = some resource ∧
    p.extract resource = .ok file ∧ p.load file resource = .ok ()

/-- The library is on `java.library.path` and loads. -/
def FallbackLoads : Prop := p.loadLibrary "onym_sdk_jni" = .ok ()

/-- A message names both attempted locations. -/
def NamesBoth (message : String) : Prop :=
  Within p.resourcePath message ∧ Within "java.library.path" message

/-- **The documented contract**: the loader loads whenever one of the tiers can, and
    throws an `UnsatisfiedLinkError` that names both locations otherwise. -/
def Contract : Prop :=
  (p.BundledLoads ∨ p.FallbackLoads → p.loadNativeLibrary = .ok ()) ∧
  (¬ (p.BundledLoads ∨ p.FallbackLoads) →
    ∃ message, p.loadNativeLibrary = .error (.UnsatisfiedLinkError message) ∧
      p.NamesBoth message)

/-! ## 4. When it holds -/

variable {p}

theorem within_append_left {sub s : String} (r : String) (h : Within sub s) : Within sub (r ++ s) := by
  unfold Within
  rw [String.toList_append]
  exact h.trans (List.suffix_append _ _).isInfix

theorem within_append_right {sub s : String} (r : String) (h : Within sub s) :
    Within sub (s ++ r) := by
  unfold Within
  rw [String.toList_append]
  exact h.trans (List.prefix_append _ _).isInfix

theorem within_refl (s : String) : Within s s := List.infix_rfl

/-- The loader's own error names both locations. -/
theorem namesBoth_notFoundMessage (cause : String) : p.NamesBoth (p.notFoundMessage cause) := by
  have hset : Within "java.library.path"
      "     Set java.library.path to a directory containing " :=
    ⟨"     Set ".toList, " to a directory containing ".toList, by decide⟩
  unfold NamesBoth notFoundMessage
  refine ⟨?_, ?_⟩
  · -- the path stands in the second of the six parts, between its two quotes
    apply within_append_right
    apply within_append_right
    apply within_append_right
    apply within_append_right
    apply within_append_left
    exact within_append_right _ (within_append_left _ (within_refl _))
  · apply within_append_left
    exact within_append_right _ (within_append_right _ hset)

/-- Without a bundled resource the loader is its second tier. -/
theorem loadNativeLibrary_absent (h : p.getResourceAsStream p.resourcePath = none) :
    p.loadNativeLibrary =
      match p.loadLibrary "onym_sdk_jni" with
      | .ok () => .ok ()
      | .error message => .error (.UnsatisfiedLinkError (p.notFoundMessage message)) := by
  rw [loadNativeLibrary, h]
  dsimp only
  cases p.loadLibrary "onym_sdk_jni" <;> rfl

/-- Extraction fails with an `IOException`. -/
theorem extract_error {resource : List UInt8} {e : Throwable} (h : p.extract resource = .error e) :
    ∃ message, e = .IOException message := by
  simp only [extract, createTempLibFile] at h
  cases hd : p.createTempDirectory "onym-sdk-jni-" with
  | error m =>
    rw [hd] at h
    cases h
    exact ⟨m, rfl⟩
  | ok dir =>
    rw [hd] at h
    cases hc : p.copyTo (p.resolve dir p.libName) resource with
    | error m =>
      simp only [Except.mapError, bind, Except.bind, pure, Except.pure, hc] at h
      cases h
      exact ⟨m, rfl⟩
    | ok u =>
      simp only [Except.mapError, bind, Except.bind, pure, Except.pure, hc] at h
      cases h

section Present

variable {resource : List UInt8} (h : p.getResourceAsStream p.resourcePath = some resource)

include h

/-- With a bundled resource the loader is its first tier. -/
theorem loadNativeLibrary_present :
    p.loadNativeLibrary =
      match p.extract resource with
      | .ok file => (p.load file resource).mapError .UnsatisfiedLinkError
      | .error e => .error e := by
  rw [loadNativeLibrary, h]
  dsimp only
  cases p.extract resource <;> rfl

/-- The three ways that tier ends. -/
theorem loadNativeLibrary_present_cases :
    (∃ message, p.extract resource = .error (.IOException message) ∧
      p.loadNativeLibrary = .error (.IOException message)) ∨
    (∃ file, p.extract resource = .ok file ∧ p.load file resource = .ok () ∧
      p.loadNativeLibrary = .ok ()) ∨
    (∃ file message, p.extract resource = .ok file ∧ p.load file resource = .error message ∧
      p.loadNativeLibrary = .error (.UnsatisfiedLinkError message)) := by
  rw [loadNativeLibrary_present h]
  cases he : p.extract resource with
  | error e =>
    obtain ⟨m, rfl⟩ := extract_error he
    exact Or.inl ⟨m, rfl, rfl⟩
  | ok file =>
    cases hld : p.load file resource with
    | ok u => exact Or.inr (Or.inl ⟨file, rfl, hld, by simp only [hld]; rfl⟩)
    | error m => exact Or.inr (Or.inr ⟨file, m, rfl, hld, by simp only [hld]; rfl⟩)

/-- Then it loads exactly when that tier does. -/
theorem loads_present_iff : p.loadNativeLibrary = .ok () ↔ p.BundledLoads := by
  constructor
  · intro hl
    rcases loadNativeLibrary_present_cases h with
      ⟨m, -, hx⟩ | ⟨file, he, hld, -⟩ | ⟨_, m, -, -, hx⟩
    · rw [hl] at hx
      cases hx
    · exact ⟨resource, file, h, he, hld⟩
    · rw [hl] at hx
      cases hx
  · intro hx
    obtain ⟨r, file, hr, he, hl⟩ := hx
    rw [h] at hr
    cases hr
    rw [loadNativeLibrary_present h]
    simp only [he, hl]
    rfl

/-- So it loads exactly when the resource can be extracted and loads. -/
theorem loads_bundled_iff :
    p.loadNativeLibrary = .ok () ↔
      ∃ file, p.extract resource = .ok file ∧ p.load file resource = .ok () := by
  rw [loads_present_iff h]
  constructor
  · intro hb
    obtain ⟨r, file, hr, hx, hl⟩ := hb
    obtain rfl : resource = r := Option.some.inj (h.symm.trans hr)
    exact ⟨file, hx, hl⟩
  · intro hx
    obtain ⟨file, hx, hl⟩ := hx
    exact ⟨resource, file, h, hx, hl⟩

/-- Then its `UnsatisfiedLinkError` is the one `System.load` throws. -/
theorem linkError_present_iff (message : String) :
    p.loadNativeLibrary = .error (.UnsatisfiedLinkError message) ↔
      ∃ file, p.extract resource = .ok file ∧ p.load file resource = .error message := by
  constructor
  · intro hl
    rcases loadNativeLibrary_present_cases h with
      ⟨m, -, hx⟩ | ⟨_, -, -, hx⟩ | ⟨file, m, he, hld, hx⟩
    · rw [hl] at hx
      cases hx
    · rw [hl] at hx
      cases hx
    · rw [hl] at hx
      cases hx
      exact ⟨file, he, hld⟩
  · intro hx
    obtain ⟨file, he, hl⟩ := hx
    rw [loadNativeLibrary_present h]
    simp only [he, hl]
    rfl

end Present

/-- Without a bundled resource it loads exactly when the second tier does. -/
theorem loads_fallback_iff (h : p.getResourceAsStream p.resourcePath = none) :
    p.loadNativeLibrary = .ok () ↔ p.FallbackLoads := by
  rw [loadNativeLibrary_absent h, FallbackLoads]
  cases p.loadLibrary "onym_sdk_jni" with
  | ok u => exact iff_of_true rfl rfl
  | error cause => exact iff_of_false (fun hx => by cases hx) (fun hx => by cases hx)

theorem contract_of_absent (h : p.getResourceAsStream p.resourcePath = none) : p.Contract := by
  have hno : ¬ p.BundledLoads := by
    intro hx
    obtain ⟨_, _, hr, -⟩ := hx
    rw [h] at hr
    cases hr
  have hl := loadNativeLibrary_absent h
  cases hlib : p.loadLibrary "onym_sdk_jni" with
  | ok u =>
    rw [hlib] at hl
    exact ⟨fun _ => hl, fun hnone => absurd (Or.inr hlib) hnone⟩
  | error m =>
    rw [hlib] at hl
    constructor
    · intro hsome
      rcases hsome with hb | hf
      · exact absurd hb hno
      · rw [FallbackLoads, hlib] at hf
        cases hf
    · intro _
      exact ⟨_, hl, namesBoth_notFoundMessage m⟩

/-- **When the loader meets its contract**: exactly when there is no bundled resource, or
    it loads, or `System.load` happens to reject it with a text naming both locations
    while the second tier could not have helped. -/
theorem contract_iff (p : Platform) :
    p.Contract ↔
      p.getResourceAsStream p.resourcePath = none ∨ p.BundledLoads ∨
        (¬ p.FallbackLoads ∧ ∃ resource file message,
          p.getResourceAsStream p.resourcePath = some resource ∧
          p.extract resource = .ok file ∧ p.load file resource = .error message ∧
          p.NamesBoth message) := by
  cases hres : p.getResourceAsStream p.resourcePath with
  | none => exact iff_of_true (contract_of_absent hres) (Or.inl rfl)
  | some resource =>
    have hloads := loads_present_iff hres
    by_cases hb : p.BundledLoads
    · have hc : p.Contract := ⟨fun _ => hloads.mpr hb, fun hnone => absurd (Or.inl hb) hnone⟩
      exact iff_of_true hc (Or.inr (Or.inl hb))
    · constructor
      · intro hx
        obtain ⟨hsome, hnone⟩ := hx
        have hf : ¬ p.FallbackLoads := fun hf => hb (hloads.mp (hsome (Or.inr hf)))
        obtain ⟨m, hl, hm⟩ := hnone (by simp [hb, hf])
        obtain ⟨file, he, hld⟩ := (linkError_present_iff hres m).mp hl
        exact Or.inr (Or.inr ⟨hf, resource, file, m, rfl, he, hld, hm⟩)
      · intro hcond
        rcases hcond with h | h | ⟨hf, r, file, m, hr, he, hld, hm⟩
        · cases h
        · exact absurd h hb
        · cases hr
          refine ⟨fun hsome => absurd hsome (by simp [hb, hf]), fun _ => ⟨m, ?_, hm⟩⟩
          exact (linkError_present_iff hres m).mpr ⟨file, he, hld⟩

/-- A Linux machine with a working `java.library.path` and a jar that bundles a library of
    another platform under the Linux path. -/
def foreignResource : Platform where
  osName := some "Linux"
  osArch := some "amd64"
  lowercase s := String.ofList (s.toList.map Char.toLower)
  mapLibraryName s := "lib" ++ s ++ ".so"
  getResourceAsStream path :=
    if path = "/native/linux/x86_64/libonym_sdk_jni.so" then some [0xCF, 0xFA, 0xED, 0xFE] else none
  createTempDirectory stem := .ok ("/tmp/" ++ stem ++ "1")
  resolve parent child := parent ++ "/" ++ child
  copyTo _ _ := .ok ()
  load path _ := .error (path ++ ": invalid ELF header")
  loadLibrary _ := .ok ()

/-- There the loader throws what `System.load` threw, though its second tier would load. -/
theorem contract_fails_foreignResource :
    foreignResource.FallbackLoads ∧
      foreignResource.loadNativeLibrary = .error (.UnsatisfiedLinkError
        "/tmp/onym-sdk-jni-1/libonym_sdk_jni.so: invalid ELF header") ∧
      ¬ foreignResource.Contract := by
  have hl : foreignResource.loadNativeLibrary = .error (.UnsatisfiedLinkError
      "/tmp/onym-sdk-jni-1/libonym_sdk_jni.so: invalid ELF header") := by
    have hres : foreignResource.getResourceAsStream foreignResource.resourcePath =
        some [0xCF, 0xFA, 0xED, 0xFE] := by decide
    rw [linkError_present_iff hres]
    exact ⟨"/tmp/onym-sdk-jni-1/libonym_sdk_jni.so", rfl, rfl⟩
  refine ⟨rfl, hl, fun hc => ?_⟩
  have hok := hc.1 (Or.inr rfl)
  rw [hl] at hok
  cases hok

end Platform

end OnymSdk
