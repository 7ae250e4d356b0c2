/-
  File:      OnymSdk/Ffi.lean
  Subject:   THE C ABI of the four sep-*-ffi libraries, as `mod ffi` declares it.

  * `Target`, `Usize` -- the two widths of `usize` the bridge is built for;
  * `FfiCall` -- one call of a C function, each argument under its own
    parameter name; `InBuf` is a `(*const u8, usize)` pair; `FfiFn` -- the C
    functions by name;
  * `Outcome` -- what a C function that follows the ABI comes back with: `true`
    with its out buffers populated and no error string, or `false` with no out
    buffer and an error string or none;
  * `Env` -- everything outside the bridge that one JNI call meets: the C
    functions and the JNI calls that can fail. The C functions and the `jni`
    crate are not part of the repository, so they are parameters here.
-/
import OnymSdk.Jvm

namespace OnymSdk

/-! ## 1. Integers -/

/-- The builds: armv7/i686 and the 64-bit targets. -/
inductive Target where
  | w32 | w64
  deriving DecidableEq, Repr

/-- The width of `usize`. -/
def Target.bits : Target → Nat
  | .w32 => 32
  | .w64 => 64

/-- Rust's `usize` (C's `size_t`). -/
abbrev Usize (t : Target) := BitVec t.bits

/-- Rust's `depth as usize` on a `jint`. -/
def jintAsUsize (t : Target) (x : Int32) : Usize t := x.toBitVec.signExtend t.bits

/-- Rust's `epoch as u64` on a `jlong`. -/
def jlongAsU64 (x : Int64) : UInt64 := x.toUInt64

/-! ## 2. Arguments -/

/-- A `*const u8`: null, or the address of some bytes. -/
inductive ConstPtr where
  | null
  | to (bytes : List UInt8)
  deriving DecidableEq, Repr

/-- A pointer and a length, as every byte argument is passed. -/
structure InBuf (t : Target) where
  ptr : ConstPtr
  len : Usize t
  deriving DecidableEq, Repr

/-- `(v.as_ptr(), v.len())`. The pointer of a `Vec` is never null, also when it
    is empty. -/
def vecArg (t : Target) (v : List UInt8) : InBuf t := ⟨.to v, BitVec.ofNat t.bits v.length⟩

/-- `(ptr::null(), 0)`. -/
def nullArg (t : Target) : InBuf t := ⟨.null, 0⟩

/-- One call of a C function. -/
inductive FfiCall (t : Target) where
  -- sep-common-ffi
  | onymComputeLeafHash (sk : InBuf t)
  | onymComputePublicKey (sk : InBuf t)
  | onymComputeMerkleRoot (leafHashes : InBuf t) (depth : Usize t)
  | onymComputeSha256Commitment (root : InBuf t) (epoch : UInt64) (salt : InBuf t)
  | onymComputePoseidonCommitment (root : InBuf t) (epoch : UInt64) (salt : InBuf t)
  | onymParsePlonkProof (proof : InBuf t)
  | onymNostrDerivePublicKey (sk : InBuf t)
  | onymNostrSignEventId (sk eventId : InBuf t)
  | onymNostrVerifyEventSignature (pk eventId sig : InBuf t)
  -- sep-anarchy-ffi
  | onymAnarchyBakeMembershipVk (depth : Usize t)
  | onymAnarchyBakeUpdateVk (depth : Usize t)
  | onymAnarchyPinnedMembershipVkSha256Hex (depth : Usize t)
  | onymAnarchyPinnedUpdateVkSha256Hex (depth : Usize t)
  | onymAnarchyProveMembership (depth : Usize t) (leaves sk : InBuf t) (proverIndex : Usize t)
      (epoch : UInt64) (salt : InBuf t)
  | onymAnarchyProveUpdate (depth : Usize t) (leavesOld leavesNew sk : InBuf t)
      (proverIndexOld : Usize t) (epochOld : UInt64) (saltOld saltNew : InBuf t)
  -- sep-oneonone-ffi
  | onymOneononeBakeCreateVk
  | onymOneononeProveCreate (sk0 sk1 salt : InBuf t)
  -- sep-tyranny-ffi
  | onymTyrannyBakeCreateVk (depth : Usize t)
  | onymTyrannyBakeUpdateVk (depth : Usize t)
  | onymTyrannyPinnedCreateVkSha256Hex (depth : Usize t)
  | onymTyrannyPinnedUpdateVkSha256Hex (depth : Usize t)
  | onymTyrannyProveCreate (depth : Usize t) (leaves adminSk : InBuf t) (adminIndex : Usize t)
      (groupIdFr salt : InBuf t)
  | onymTyrannyProveUpdate (depth : Usize t) (leavesOld adminSk : InBuf t)
      (adminIndexOld : Usize t) (epochOld : UInt64)
      (memberRootNew groupIdFr saltOld saltNew : InBuf t)
  deriving DecidableEq, Repr

/-- The C functions, by name. -/
inductive FfiFn where
  | onymComputeLeafHash | onymComputePublicKey | onymComputeMerkleRoot
  | onymComputeSha256Commitment | onymComputePoseidonCommitment | onymParsePlonkProof
  | onymNostrDerivePublicKey | onymNostrSignEventId | onymNostrVerifyEventSignature
  | onymAnarchyBakeMembershipVk | onymAnarchyBakeUpdateVk | onymAnarchyPinnedMembershipVkSha256Hex
  | onymAnarchyPinnedUpdateVkSha256Hex | onymAnarchyProveMembership | onymAnarchyProveUpdate
  | onymOneononeBakeCreateVk | onymOneononeProveCreate
  | onymTyrannyBakeCreateVk | onymTyrannyBakeUpdateVk | onymTyrannyPinnedCreateVkSha256Hex
  | onymTyrannyPinnedUpdateVkSha256Hex | onymTyrannyProveCreate | onymTyrannyProveUpdate
  deriving DecidableEq, Repr

/-- The C function a call is of. -/
def FfiCall.fn {t : Target} : FfiCall t → FfiFn
  | .onymComputeLeafHash .. => .onymComputeLeafHash
  | .onymComputePublicKey .. => .onymComputePublicKey
  | .onymComputeMerkleRoot .. => .onymComputeMerkleRoot
  | .onymComputeSha256Commitment .. => .onymComputeSha256Commitment
  | .onymComputePoseidonCommitment .. => .onymComputePoseidonCommitment
  | .onymParsePlonkProof .. => .onymParsePlonkProof
  | .onymNostrDerivePublicKey .. => .onymNostrDerivePublicKey
  | .onymNostrSignEventId .. => .onymNostrSignEventId
  | .onymNostrVerifyEventSignature .. => .onymNostrVerifyEventSignature
  | .onymAnarchyBakeMembershipVk .. => .onymAnarchyBakeMembershipVk
  | .onymAnarchyBakeUpdateVk .. => .onymAnarchyBakeUpdateVk
  | .onymAnarchyPinnedMembershipVkSha256Hex .. => .onymAnarchyPinnedMembershipVkSha256Hex
  | .onymAnarchyPinnedUpdateVkSha256Hex .. => .onymAnarchyPinnedUpdateVkSha256Hex
  | .onymAnarchyProveMembership .. => .onymAnarchyProveMembership
  | .onymAnarchyProveUpdate .. => .onymAnarchyProveUpdate
  | .onymOneononeBakeCreateVk => .onymOneononeBakeCreateVk
  | .onymOneononeProveCreate .. => .onymOneononeProveCreate
  | .onymTyrannyBakeCreateVk .. => .onymTyrannyBakeCreateVk
  | .onymTyrannyBakeUpdateVk .. => .onymTyrannyBakeUpdateVk
  | .onymTyrannyPinnedCreateVkSha256Hex .. => .onymTyrannyPinnedCreateVkSha256Hex
  | .onymTyrannyPinnedUpdateVkSha256Hex .. => .onymTyrannyPinnedUpdateVkSha256Hex
  | .onymTyrannyProveCreate .. => .onymTyrannyProveCreate
  | .onymTyrannyProveUpdate .. => .onymTyrannyProveUpdate

/-- The C functions with two out buffers. -/
def FfiCall.isProve {t : Target} : FfiCall t → Bool
  | .onymAnarchyProveMembership .. | .onymAnarchyProveUpdate .. | .onymOneononeProveCreate ..
  | .onymTyrannyProveCreate .. | .onymTyrannyProveUpdate .. => true
  | _ => false

/-- The C function without out buffers. -/
def FfiCall.isVerify {t : Target} : FfiCall t → Bool
  | .onymNostrVerifyEventSignature .. => true
  | _ => false

/-- The byte arguments of a C call, in parameter order. -/
def FfiCall.byteArgs {t : Target} : FfiCall t → List (InBuf t)
  | .onymComputeLeafHash sk => [sk]
  | .onymComputePublicKey sk => [sk]
  | .onymComputeMerkleRoot leafHashes _ => [leafHashes]
  | .onymComputeSha256Commitment root _ salt => [root, salt]
  | .onymComputePoseidonCommitment root _ salt => [root, salt]
  | .onymParsePlonkProof proof => [proof]
  | .onymNostrDerivePublicKey sk => [sk]
  | .onymNostrSignEventId sk eventId => [sk, eventId]
  | .onymNostrVerifyEventSignature pk eventId sig => [pk, eventId, sig]
  | .onymAnarchyBakeMembershipVk _ => []
  | .onymAnarchyBakeUpdateVk _ => []
  | .onymAnarchyPinnedMembershipVkSha256Hex _ => []
  | .onymAnarchyPinnedUpdateVkSha256Hex _ => []
  | .onymAnarchyProveMembership _ leaves sk _ _ salt => [leaves, sk, salt]
  | .onymAnarchyProveUpdate _ leavesOld leavesNew sk _ _ saltOld saltNew =>
      [leavesOld, leavesNew, sk, saltOld, saltNew]
  | .onymOneononeBakeCreateVk => []
  | .onymOneononeProveCreate sk0 sk1 salt => [sk0, sk1, salt]
  | .onymTyrannyBakeCreateVk _ => []
  | .onymTyrannyBakeUpdateVk _ => []
  | .onymTyrannyPinnedCreateVkSha256Hex _ => []
  | .onymTyrannyPinnedUpdateVkSha256Hex _ => []
  | .onymTyrannyProveCreate _ leaves adminSk _ groupIdFr salt =>
      [leaves, adminSk, groupIdFr, salt]
  | .onymTyrannyProveUpdate _ leavesOld adminSk _ _ memberRootNew groupIdFr saltOld saltNew =>
      [leavesOld, adminSk, memberRootNew, groupIdFr, saltOld, saltNew]

/-! ## 3. Outcomes -/

/-- What a C function stores through an out pointer on success: a buffer the
    caller owns, or a null one. -/
inductive OutBuf where
  | null (len : Nat)
  | owned (bytes : List UInt8)
  deriving DecidableEq, Repr

/-- The bytes of an out buffer; null and zero length both are the empty buffer. -/
def OutBuf.contents : OutBuf → List UInt8
  | .null _ => []
  | .owned bytes => bytes

/-- What a C function comes back with: `true` and its out buffers, or `false`
    and its error string (the bytes before the NUL), if it set one. -/
inductive Outcome (α : Type) where
  | success (out : α)
  | failure (err : Option (List UInt8))
  deriving DecidableEq, Repr

/-- An outcome with its out buffers read. -/
def Outcome.map {α β : Type} (f : α → β) : Outcome α → Outcome β
  | .success out => .success (f out)
  | .failure err => .failure err

/-- **What one JNI call meets outside the bridge.** An `error` carries the
    exception the failing JNI call left pending, if it left one.

    * `convert k` -- the `k`-th `convert_byte_array` of the call;
    * `verify`, `oneOut`, `twoOut` -- the C functions, by their out buffers;
    * `newByteArray n` -- allocating a `byte[]` of `n` bytes, which the JVM can
      only do below `2 ^ 31`;
    * `throwNew m` -- `throw_new` of `OnymException` with message `m`: class
      lookup, construction and throw. -/
structure Env (t : Target) where
  convert : Nat → Except (Option Throwable) Unit
  verify : FfiCall t → Outcome Unit
  oneOut : FfiCall t → Outcome OutBuf
  twoOut : FfiCall t → Outcome (OutBuf × OutBuf)
  newByteArray : (n : Nat) → Except (Option Throwable) (PLift (n < 2 ^ 31))
  throwNew : String → Except (Option Throwable) Unit

namespace Env

variable {t : Target}

/-- Every array of the call can be read. -/
def Readable (env : Env t) : Prop := ∀ k, env.convert k = .ok ()

/-- No read of an array leaves a Java exception behind. -/
def QuietReads (env : Env t) : Prop := ∀ k e, env.convert k ≠ .error (some e)

/-- JNI's error convention: a JNI call that fails has thrown. -/
structure FailuresThrow (env : Env t) : Prop where
  newByteArray : ∀ n p, env.newByteArray n = .error p → p ≠ none
  throwNew : ∀ m p, env.throwNew m = .error p → p ≠ none

/-- Nothing outside the bridge fails, and every C function hands out `out`. -/
def answering (t : Target) (out : OutBuf) : Env t where
  convert _ := .ok ()
  verify _ := .success ()
  oneOut _ := .success out
  twoOut _ := .success (out, out)
  newByteArray n :=
    if h : n < 2 ^ 31 then .ok ⟨h⟩ else .error (some (.other "java.lang.OutOfMemoryError"))
  throwNew _ := .ok ()

/-- The same, and a C function with two out buffers hands out `a` and `b`. -/
def proving (t : Target) (a b : OutBuf) : Env t :=
  { answering t a with twoOut := fun _ => .success (a, b) }

theorem newByteArray_proving (t : Target) (a b : OutBuf) {n : Nat} (h : n < 2 ^ 31) :
    (proving t a b).newByteArray n = .ok ⟨h⟩ := dif_pos h

theorem readable_answering (t : Target) (out : OutBuf) : (answering t out).Readable := fun _ => rfl

theorem failuresThrow_answering (t : Target) (out : OutBuf) : (answering t out).FailuresThrow where
  newByteArray n p h := by
    by_cases hn : n < 2 ^ 31
    · have e : (answering t out).newByteArray n = .ok ⟨hn⟩ := dif_pos hn
      rw [e] at h
      cases h
    · have e : (answering t out).newByteArray n =
          .error (some (.other "java.lang.OutOfMemoryError")) := dif_neg hn
      rw [e] at h
      cases h
      exact Option.some_ne_none _
  throwNew m p h := by cases h

theorem Readable.quiet {env : Env t} (h : env.Readable) : env.QuietReads := by
  intro k e hk
  rw [h k] at hk
  cases hk

end Env

end OnymSdk
