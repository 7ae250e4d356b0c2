/-
  File:      OnymSdk/Kotlin.lean
  Subject:   THE KOTLIN API over the bridge: Common, Anarchy, OneOnOne, Tyranny.

  * `Kotlin t α` -- a Kotlin call: a value or the exception it throws;
  * `external` -- calling a native method: the JVM throws what the method left
    pending when it returns, and its value otherwise, null included;
  * `OnymJni` -- the native declarations and the decoder;
  * the public objects, one definition for each function; the five prove
    functions share `proveWrapper`;
  * `ApiCall` -- a public call with its arguments; `ApiCall.run_eq` -- **every
    public function is one native call and a pure step on what it returned**.
-/
import OnymSdk.Ownership

namespace OnymSdk

variable {t : Target}

/-! ## 1. Kotlin computations -/

/-- A Kotlin call over the bridge's state. -/
def Kotlin (t : Target) (α : Type) := Env t → BridgeState t → Except Throwable α × BridgeState t

instance (t : Target) : Monad (Kotlin t) where
  pure a := fun _ s => (.ok a, s)
  bind m f := fun env s =>
    match (m env s).1 with
    | .ok a => f a env (m env s).2
    | .error e => (.error e, (m env s).2)

theorem kotlin_bind {α β : Type} (m : Kotlin t α) (f : α → Kotlin t β) (env : Env t)
    (s : BridgeState t) :
    (m >>= f) env s =
      match (m env s).1 with
      | .ok a => f a env (m env s).2
      | .error e => (.error e, (m env s).2) := rfl

/-- Kotlin code that does not reach the bridge. -/
def plain {α : Type} (x : Except Throwable α) : Kotlin t α := fun _ s => (x, s)

/-- What the JVM makes of a native method's return: a pending exception is
    thrown, whatever was returned with it. -/
def onReturn {α : Type} (r : α × BridgeState t) : Except Throwable α :=
  match r.2.pending with
  | some e => .error e
  | none => .ok r.1

/-- An `external fun`. -/
def external {α : Type} (m : Bridge t α) : Kotlin t α := fun env s =>
  (onReturn (m env s.atEntry), (m env s.atEntry).2)

/-- Handing a reference to a parameter of non-null type. -/
def checkNotNull : JRef → Except Throwable JByteArray
  | none => .error .NullPointerException
  | some a => .ok a

/-! ## 2. The native declarations -/

namespace OnymJni

def computeLeafHash (secretKey : JByteArray) : Kotlin t JRef :=
  external (Exports.computeLeafHash (some secretKey))

def computePublicKey (secretKey : JByteArray) : Kotlin t JRef :=
  external (Exports.computePublicKey (some secretKey))

def computeMerkleRoot (leafHashes : JByteArray) (depth : Int32) : Kotlin t JRef :=
  external (Exports.computeMerkleRoot (some leafHashes) depth)

def computeSha256Commitment (root : JByteArray) (epoch : Int64) (salt : JByteArray) :
    Kotlin t JRef :=
  external (Exports.computeSha256Commitment (some root) epoch (some salt))

def computePoseidonCommitment (root : JByteArray) (epoch : Int64) (salt : JByteArray) :
    Kotlin t JRef :=
  external (Exports.computePoseidonCommitment (some root) epoch (some salt))

def parsePlonkProof (proof : JByteArray) : Kotlin t JRef :=
  external (Exports.parsePlonkProof (some proof))

def nostrDerivePublicKey (secretKey : JByteArray) : Kotlin t JRef :=
  external (Exports.nostrDerivePublicKey (some secretKey))

def nostrSignEventId (secretKey eventId : JByteArray) : Kotlin t JRef :=
  external (Exports.nostrSignEventId (some secretKey) (some eventId))

def nostrVerifyEventSignature (publicKey eventId signature : JByteArray) : Kotlin t Bool :=
  external (Exports.nostrVerifyEventSignature (some publicKey) (some eventId) (some signature))

def anarchyBakeMembershipVk (depth : Int32) : Kotlin t JRef :=
  external (Exports.anarchyBakeMembershipVk depth)

def anarchyBakeUpdateVk (depth : Int32) : Kotlin t JRef :=
  external (Exports.anarchyBakeUpdateVk depth)

def anarchyPinnedMembershipVkSha256Hex (depth : Int32) : Kotlin t JRef :=
  external (Exports.anarchyPinnedMembershipVkSha256Hex depth)

def anarchyPinnedUpdateVkSha256Hex (depth : Int32) : Kotlin t JRef :=
  external (Exports.anarchyPinnedUpdateVkSha256Hex depth)

def anarchyProveMembership (depth : Int32) (leaves proverSk : JByteArray) (proverIndex : Int32)
    (epoch : Int64) (salt : JByteArray) : Kotlin t JRef :=
  external (Exports.anarchyProveMembership depth (some leaves) (some proverSk) proverIndex epoch
    (some salt))

def anarchyProveUpdate (depth : Int32) (leavesOld : JByteArray) (leavesNew : JRef)
    (proverSk : JByteArray) (proverIndexOld : Int32) (epochOld : Int64)
    (saltOld saltNew : JByteArray) : Kotlin t JRef :=
  external (Exports.anarchyProveUpdate depth (some leavesOld) leavesNew (some proverSk)
    proverIndexOld epochOld (some saltOld) (some saltNew))

def oneOnOneBakeCreateVk : Kotlin t JRef := external Exports.oneOnOneBakeCreateVk

def oneOnOneProveCreate (sk0 sk1 salt : JByteArray) : Kotlin t JRef :=
  external (Exports.oneOnOneProveCreate (some sk0) (some sk1) (some salt))

def tyrannyBakeCreateVk (depth : Int32) : Kotlin t JRef :=
  external (Exports.tyrannyBakeCreateVk depth)

def tyrannyBakeUpdateVk (depth : Int32) : Kotlin t JRef :=
  external (Exports.tyrannyBakeUpdateVk depth)

def tyrannyPinnedCreateVkSha256Hex (depth : Int32) : Kotlin t JRef :=
  external (Exports.tyrannyPinnedCreateVkSha256Hex depth)

def tyrannyPinnedUpdateVkSha256Hex (depth : Int32) : Kotlin t JRef :=
  external (Exports.tyrannyPinnedUpdateVkSha256Hex depth)

def tyrannyProveCreate (depth : Int32) (leaves adminSk : JByteArray) (adminIndex : Int32)
    (groupIdFr salt : JByteArray) : Kotlin t JRef :=
  external (Exports.tyrannyProveCreate depth (some leaves) (some adminSk) adminIndex
    (some groupIdFr) (some salt))

def tyrannyProveUpdate (depth : Int32) (leavesOld adminSk : JByteArray) (adminIndexOld : Int32)
    (epochOld : Int64) (memberRootNew groupIdFr saltOld saltNew : JByteArray) : Kotlin t JRef :=
  external (Exports.tyrannyProveUpdate depth (some leavesOld) (some adminSk) adminIndexOld epochOld
    (some memberRootNew) (some groupIdFr) (some saltOld) (some saltNew))

/-- `splitTwoBuffers`, on a reference. -/
def splitTwoBuffers (concat : JRef) : Except Throwable (JByteArray × JByteArray) := do
  OnymSdk.splitTwoBuffers (← checkNotNull concat)

end OnymJni

/-- `decodeToString()`. -/
def decodeToString (r : JRef) : Except Throwable String := do
  return Utf8Lossy.lossy Utf8Lossy.surrogates (← checkNotNull r).contents

/-! ## 3. The public objects -/

/-- The body of the prove functions: the native call, the decoder, the record. -/
def proveWrapper {β : Type} (concat : Kotlin t JRef) (record : JByteArray → JByteArray → β) :
    Kotlin t β := do
  let concat ← concat
  let (first, second) ← plain (OnymJni.splitTwoBuffers concat)
  return record first second

/-- The body of the pinned-hash functions. -/
def hexWrapper (bytes : Kotlin t JRef) : Kotlin t String := do
  plain (decodeToString (← bytes))

namespace Common

def leafHash (secretKey : JByteArray) : Kotlin t JRef := OnymJni.computeLeafHash secretKey

def publicKey (secretKey : JByteArray) : Kotlin t JRef := OnymJni.computePublicKey secretKey

def merkleRoot (leafHashes : JByteArray) (depth : Int32) : Kotlin t JRef :=
  OnymJni.computeMerkleRoot leafHashes depth

def sha256Commitment (poseidonRoot : JByteArray) (epoch : Int64) (salt : JByteArray) :
    Kotlin t JRef :=
  OnymJni.computeSha256Commitment poseidonRoot epoch salt

def poseidonCommitment (poseidonRoot : JByteArray) (epoch : Int64) (salt : JByteArray) :
    Kotlin t JRef :=
  OnymJni.computePoseidonCommitment poseidonRoot epoch salt

def parsePlonkProof (proof : JByteArray) : Kotlin t JRef := OnymJni.parsePlonkProof proof

def nostrDerivePublicKey (secretKey : JByteArray) : Kotlin t JRef :=
  OnymJni.nostrDerivePublicKey secretKey

def nostrSignEventId (secretKey eventId : JByteArray) : Kotlin t JRef :=
  OnymJni.nostrSignEventId secretKey eventId

def nostrVerifyEventSignature (publicKey eventId signature : JByteArray) : Kotlin t Bool :=
  OnymJni.nostrVerifyEventSignature publicKey eventId signature

end Common

namespace Anarchy

structure MembershipProof where
  proof : JByteArray
  commitment : JByteArray
  deriving DecidableEq

structure UpdateProof where
  proof : JByteArray
  publicInputs : JByteArray
  deriving DecidableEq

def bakeMembershipVK (depth : Int32) : Kotlin t JRef := OnymJni.anarchyBakeMembershipVk depth

def bakeUpdateVK (depth : Int32) : Kotlin t JRef := OnymJni.anarchyBakeUpdateVk depth

def pinnedMembershipVKSha256Hex (depth : Int32) : Kotlin t String :=
  hexWrapper (OnymJni.anarchyPinnedMembershipVkSha256Hex depth)

def pinnedUpdateVKSha256Hex (depth : Int32) : Kotlin t String :=
  hexWrapper (OnymJni.anarchyPinnedUpdateVkSha256Hex depth)

def proveMembership (depth : Int32) (memberLeafHashes proverSecretKey : JByteArray)
    (proverIndex : Int32) (epoch : Int64) (salt : JByteArray) : Kotlin t MembershipProof :=
  proveWrapper
    (OnymJni.anarchyProveMembership depth memberLeafHashes proverSecretKey proverIndex epoch salt)
    MembershipProof.mk

def proveUpdate (depth : Int32) (memberLeafHashesOld : JByteArray) (memberLeafHashesNew : JRef)
    (proverSecretKey : JByteArray) (proverIndexOld : Int32) (epochOld : Int64)
    (saltOld saltNew : JByteArray) : Kotlin t UpdateProof :=
  proveWrapper
    (OnymJni.anarchyProveUpdate depth memberLeafHashesOld memberLeafHashesNew proverSecretKey
      proverIndexOld epochOld saltOld saltNew)
    UpdateProof.mk

end Anarchy

namespace OneOnOne

structure CreateProof where
  proof : JByteArray
  commitment : JByteArray
  deriving DecidableEq

def bakeCreateVK : Kotlin t JRef := OnymJni.oneOnOneBakeCreateVk

def proveCreate (secretKey0 secretKey1 salt : JByteArray) : Kotlin t CreateProof :=
  proveWrapper (OnymJni.oneOnOneProveCreate secretKey0 secretKey1 salt) CreateProof.mk

end OneOnOne

namespace Tyranny

structure CreateProof where
  proof : JByteArray
  publicInputs : JByteArray
  deriving DecidableEq

structure UpdateProof where
  proof : JByteArray
  publicInputs : JByteArray
  deriving DecidableEq

def bakeCreateVK (depth : Int32) : Kotlin t JRef := OnymJni.tyrannyBakeCreateVk depth

def bakeUpdateVK (depth : Int32) : Kotlin t JRef := OnymJni.tyrannyBakeUpdateVk depth

def pinnedCreateVKSha256Hex (depth : Int32) : Kotlin t String :=
  hexWrapper (OnymJni.tyrannyPinnedCreateVkSha256Hex depth)

def pinnedUpdateVKSha256Hex (depth : Int32) : Kotlin t String :=
  hexWrapper (OnymJni.tyrannyPinnedUpdateVkSha256Hex depth)

def proveCreate (depth : Int32) (memberLeafHashes adminSecretKey : JByteArray)
    (adminIndex : Int32) (groupIdFr salt : JByteArray) : Kotlin t CreateProof :=
  proveWrapper
    (OnymJni.tyrannyProveCreate depth memberLeafHashes adminSecretKey adminIndex groupIdFr salt)
    CreateProof.mk

def proveUpdate (depth : Int32) (memberLeafHashesOld adminSecretKey : JByteArray)
    (adminIndexOld : Int32) (epochOld : Int64)
    (memberRootNew groupIdFr saltOld saltNew : JByteArray) : Kotlin t UpdateProof :=
  proveWrapper
    (OnymJni.tyrannyProveUpdate depth memberLeafHashesOld adminSecretKey adminIndexOld epochOld
      memberRootNew groupIdFr saltOld saltNew)
    UpdateProof.mk

end Tyranny

/-! ## 4. A public call with its arguments -/

/-- A call of a public function. -/
inductive ApiCall where
  | leafHash (secretKey : JByteArray)
  | publicKey (secretKey : JByteArray)
  | merkleRoot (leafHashes : JByteArray) (depth : Int32)
  | sha256Commitment (poseidonRoot : JByteArray) (epoch : Int64) (salt : JByteArray)
  | poseidonCommitment (poseidonRoot : JByteArray) (epoch : Int64) (salt : JByteArray)
  | parsePlonkProof (proof : JByteArray)
  | nostrDerivePublicKey (secretKey : JByteArray)
  | nostrSignEventId (secretKey eventId : JByteArray)
  | nostrVerifyEventSignature (publicKey eventId signature : JByteArray)
  | anarchyBakeMembershipVK (depth : Int32)
  | anarchyBakeUpdateVK (depth : Int32)
  | anarchyPinnedMembershipVKSha256Hex (depth : Int32)
  | anarchyPinnedUpdateVKSha256Hex (depth : Int32)
  | anarchyProveMembership (depth : Int32) (memberLeafHashes proverSecretKey : JByteArray)
      (proverIndex : Int32) (epoch : Int64) (salt : JByteArray)
  | anarchyProveUpdate (depth : Int32) (memberLeafHashesOld : JByteArray)
      (memberLeafHashesNew : JRef) (proverSecretKey : JByteArray) (proverIndexOld : Int32)
      (epochOld : Int64) (saltOld saltNew : JByteArray)
  | oneOnOneBakeCreateVK
  | oneOnOneProveCreate (secretKey0 secretKey1 salt : JByteArray)
  | tyrannyBakeCreateVK (depth : Int32)
  | tyrannyBakeUpdateVK (depth : Int32)
  | tyrannyPinnedCreateVKSha256Hex (depth : Int32)
  | tyrannyPinnedUpdateVKSha256Hex (depth : Int32)
  | tyrannyProveCreate (depth : Int32) (memberLeafHashes adminSecretKey : JByteArray)
      (adminIndex : Int32) (groupIdFr salt : JByteArray)
  | tyrannyProveUpdate (depth : Int32) (memberLeafHashesOld adminSecretKey : JByteArray)
      (adminIndexOld : Int32) (epochOld : Int64)
      (memberRootNew groupIdFr saltOld saltNew : JByteArray)

/-- What a public function returns. -/
inductive ApiResult where
  | bytes (r : JRef)
  | bool (b : Bool)
  | text (s : String)
  | membershipProof (p : Anarchy.MembershipProof)
  | anarchyUpdateProof (p : Anarchy.UpdateProof)
  | oneOnOneCreateProof (p : OneOnOne.CreateProof)
  | tyrannyCreateProof (p : Tyranny.CreateProof)
  | tyrannyUpdateProof (p : Tyranny.UpdateProof)
  deriving DecidableEq

/-- The public function's body. -/
def ApiCall.run : ApiCall → Kotlin t ApiResult
  | .leafHash secretKey => do return .bytes (← Common.leafHash secretKey)
  | .publicKey secretKey => do return .bytes (← Common.publicKey secretKey)
  | .merkleRoot leafHashes depth => do return .bytes (← Common.merkleRoot leafHashes depth)
  | .sha256Commitment poseidonRoot epoch salt => do
      return .bytes (← Common.sha256Commitment poseidonRoot epoch salt)
  | .poseidonCommitment poseidonRoot epoch salt => do
      return .bytes (← Common.poseidonCommitment poseidonRoot epoch salt)
  | .parsePlonkProof proof => do return .bytes (← Common.parsePlonkProof proof)
  | .nostrDerivePublicKey secretKey => do
      return .bytes (← Common.nostrDerivePublicKey secretKey)
  | .nostrSignEventId secretKey eventId => do
      return .bytes (← Common.nostrSignEventId secretKey eventId)
  | .nostrVerifyEventSignature pk eventId signature => do
      return .bool (← Common.nostrVerifyEventSignature pk eventId signature)
  | .anarchyBakeMembershipVK depth => do return .bytes (← Anarchy.bakeMembershipVK depth)
  | .anarchyBakeUpdateVK depth => do return .bytes (← Anarchy.bakeUpdateVK depth)
  | .anarchyPinnedMembershipVKSha256Hex depth => do
      return .text (← Anarchy.pinnedMembershipVKSha256Hex depth)
  | .anarchyPinnedUpdateVKSha256Hex depth => do
      return .text (← Anarchy.pinnedUpdateVKSha256Hex depth)
  | .anarchyProveMembership depth memberLeafHashes proverSecretKey proverIndex epoch salt => do
      return .membershipProof (← Anarchy.proveMembership depth memberLeafHashes proverSecretKey
        proverIndex epoch salt)
  | .anarchyProveUpdate depth memberLeafHashesOld memberLeafHashesNew proverSecretKey
      proverIndexOld epochOld saltOld saltNew => do
      return .anarchyUpdateProof (← Anarchy.proveUpdate depth memberLeafHashesOld
        memberLeafHashesNew proverSecretKey proverIndexOld epochOld saltOld saltNew)
  | .oneOnOneBakeCreateVK => do return .bytes (← OneOnOne.bakeCreateVK)
  | .oneOnOneProveCreate secretKey0 secretKey1 salt => do
      return .oneOnOneCreateProof (← OneOnOne.proveCreate secretKey0 secretKey1 salt)
  | .tyrannyBakeCreateVK depth => do return .bytes (← Tyranny.bakeCreateVK depth)
  | .tyrannyBakeUpdateVK depth => do return .bytes (← Tyranny.bakeUpdateVK depth)
  | .tyrannyPinnedCreateVKSha256Hex depth => do
      return .text (← Tyranny.pinnedCreateVKSha256Hex depth)
  | .tyrannyPinnedUpdateVKSha256Hex depth => do
      return .text (← Tyranny.pinnedUpdateVKSha256Hex depth)
  | .tyrannyProveCreate depth memberLeafHashes adminSecretKey adminIndex groupIdFr salt => do
      return .tyrannyCreateProof (← Tyranny.proveCreate depth memberLeafHashes adminSecretKey
        adminIndex groupIdFr salt)
  | .tyrannyProveUpdate depth memberLeafHashesOld adminSecretKey adminIndexOld epochOld
      memberRootNew groupIdFr saltOld saltNew => do
      return .tyrannyUpdateProof (← Tyranny.proveUpdate depth memberLeafHashesOld adminSecretKey
        adminIndexOld epochOld memberRootNew groupIdFr saltOld saltNew)

/-! ## 5. The shape of every public function -/

/-- The native method a public function calls, with its arguments. -/
def ApiCall.toExport : ApiCall → ExportCall
  | .leafHash secretKey => .bytes (.computeLeafHash (some secretKey))
  | .publicKey secretKey => .bytes (.computePublicKey (some secretKey))
  | .merkleRoot leafHashes depth => .bytes (.computeMerkleRoot (some leafHashes) depth)
  | .sha256Commitment poseidonRoot epoch salt =>
      .bytes (.computeSha256Commitment (some poseidonRoot) epoch (some salt))
  | .poseidonCommitment poseidonRoot epoch salt =>
      .bytes (.computePoseidonCommitment (some poseidonRoot) epoch (some salt))
  | .parsePlonkProof proof => .bytes (.parsePlonkProof (some proof))
  | .nostrDerivePublicKey secretKey => .bytes (.nostrDerivePublicKey (some secretKey))
  | .nostrSignEventId secretKey eventId =>
      .bytes (.nostrSignEventId (some secretKey) (some eventId))
  | .nostrVerifyEventSignature pk eventId signature =>
      .nostrVerifyEventSignature (some pk) (some eventId) (some signature)
  | .anarchyBakeMembershipVK depth => .bytes (.anarchyBakeMembershipVk depth)
  | .anarchyBakeUpdateVK depth => .bytes (.anarchyBakeUpdateVk depth)
  | .anarchyPinnedMembershipVKSha256Hex depth =>
      .bytes (.anarchyPinnedMembershipVkSha256Hex depth)
  | .anarchyPinnedUpdateVKSha256Hex depth => .bytes (.anarchyPinnedUpdateVkSha256Hex depth)
  | .anarchyProveMembership depth memberLeafHashes proverSecretKey proverIndex epoch salt =>
      .bytes (.anarchyProveMembership depth (some memberLeafHashes) (some proverSecretKey)
        proverIndex epoch (some salt))
  | .anarchyProveUpdate depth memberLeafHashesOld memberLeafHashesNew proverSecretKey
      proverIndexOld epochOld saltOld saltNew =>
      .bytes (.anarchyProveUpdate depth (some memberLeafHashesOld) memberLeafHashesNew
        (some proverSecretKey) proverIndexOld epochOld (some saltOld) (some saltNew))
  | .oneOnOneBakeCreateVK => .bytes .oneOnOneBakeCreateVk
  | .oneOnOneProveCreate secretKey0 secretKey1 salt =>
      .bytes (.oneOnOneProveCreate (some secretKey0) (some secretKey1) (some salt))
  | .tyrannyBakeCreateVK depth => .bytes (.tyrannyBakeCreateVk depth)
  | .tyrannyBakeUpdateVK depth => .bytes (.tyrannyBakeUpdateVk depth)
  | .tyrannyPinnedCreateVKSha256Hex depth => .bytes (.tyrannyPinnedCreateVkSha256Hex depth)
  | .tyrannyPinnedUpdateVKSha256Hex depth => .bytes (.tyrannyPinnedUpdateVkSha256Hex depth)
  | .tyrannyProveCreate depth memberLeafHashes adminSecretKey adminIndex groupIdFr salt =>
      .bytes (.tyrannyProveCreate depth (some memberLeafHashes) (some adminSecretKey) adminIndex
        (some groupIdFr) (some salt))
  | .tyrannyProveUpdate depth memberLeafHashesOld adminSecretKey adminIndexOld epochOld
      memberRootNew groupIdFr saltOld saltNew =>
      .bytes (.tyrannyProveUpdate depth (some memberLeafHashesOld) (some adminSecretKey)
        adminIndexOld epochOld (some memberRootNew) (some groupIdFr) (some saltOld)
        (some saltNew))

/-- The record a prove function builds. -/
def buildRecord {β : Type} (record : JByteArray → JByteArray → β) (r : JRef) :
    Except Throwable β := do
  let (first, second) ← OnymJni.splitTwoBuffers r
  return record first second

/-- What a public function makes of the array its native method returned. -/
def ApiCall.build : ApiCall → JRef → Except Throwable ApiResult
  | .anarchyPinnedMembershipVKSha256Hex _, r | .anarchyPinnedUpdateVKSha256Hex _, r
  | .tyrannyPinnedCreateVKSha256Hex _, r | .tyrannyPinnedUpdateVKSha256Hex _, r =>
      .text <$> decodeToString r
  | .anarchyProveMembership .., r => .membershipProof <$> buildRecord Anarchy.MembershipProof.mk r
  | .anarchyProveUpdate .., r => .anarchyUpdateProof <$> buildRecord Anarchy.UpdateProof.mk r
  | .oneOnOneProveCreate .., r => .oneOnOneCreateProof <$> buildRecord OneOnOne.CreateProof.mk r
  | .tyrannyProveCreate .., r => .tyrannyCreateProof <$> buildRecord Tyranny.CreateProof.mk r
  | .tyrannyProveUpdate .., r => .tyrannyUpdateProof <$> buildRecord Tyranny.UpdateProof.mk r
  | _, r => .ok (.bytes r)

/-- What a public function makes of what its native method returned. -/
def ApiCall.finish (api : ApiCall) : ExportResult → Except Throwable ApiResult
  | .array r => api.build r
  | .bool b => .ok (.bool b)

section Shape

variable (m : Bridge t JRef) (env : Env t) (s : BridgeState t)

/-- A prove wrapper, by what its native method returns. -/
theorem proveWrapper_eq {β : Type} (record : JByteArray → JByteArray → β) :
    proveWrapper (external m) record env s =
      ((onReturn (m env s.atEntry)).bind (buildRecord record), (m env s.atEntry).2) := by
  simp only [proveWrapper, kotlin_bind, external, plain]
  cases onReturn (m env s.atEntry) with
  | error e => rfl
  | ok r =>
    simp only [Except.bind, buildRecord]
    cases OnymJni.splitTwoBuffers r <;> rfl

theorem hexWrapper_eq :
    hexWrapper (external m) env s =
      ((onReturn (m env s.atEntry)).bind decodeToString, (m env s.atEntry).2) := by
  simp only [hexWrapper, kotlin_bind, external, plain]
  cases onReturn (m env s.atEntry) <;> rfl

theorem external_eq :
    external m env s = ((onReturn (m env s.atEntry)).bind .ok, (m env s.atEntry).2) := by
  rw [external]
  cases onReturn (m env s.atEntry) <;> rfl

variable {m env s}

/-- Tagging a wrapper's result tags what it builds. -/
theorem tag_eq {β : Type} {w : Kotlin t β} {decode : JRef → Except Throwable β}
    (tag : β → ApiResult)
    (hw : w env s = ((onReturn (m env s.atEntry)).bind decode, (m env s.atEntry).2)) :
    (do return tag (← w) : Kotlin t ApiResult) env s =
      ((onReturn (m env s.atEntry)).bind fun r => tag <$> decode r, (m env s.atEntry).2) := by
  rw [kotlin_bind, hw]
  cases onReturn (m env s.atEntry) with
  | error e => rfl
  | ok r =>
    simp only [Except.bind]
    cases decode r <;> rfl

/-- An export's result reaches `finish` as its array reaches `build`. -/
theorem finish_bytes (api : ApiCall) (e : ByteExport) :
    ((onReturn ((ExportCall.bytes e).run env s)).bind api.finish,
        ((ExportCall.bytes e).run env s).2) =
      ((onReturn (e.run env s)).bind api.build, (e.run env s).2) := by
  simp only [ExportCall.run, bridge_bind, bridge_pure, onReturn]
  cases (e.run env s).2.pending <;> rfl

end Shape

/-- **The shape of every public function**: its native method, then a pure step on
    what that returned. -/
theorem ApiCall.run_eq (api : ApiCall) (env : Env t) (s : BridgeState t) :
    api.run env s =
      ((onReturn (api.toExport.run env s.atEntry)).bind api.finish,
        (api.toExport.run env s.atEntry).2) := by
  cases api with
  | nostrVerifyEventSignature pk eventId signature =>
    simp only [ApiCall.run, kotlin_bind, Common.nostrVerifyEventSignature,
      OnymJni.nostrVerifyEventSignature, external, ApiCall.toExport, ExportCall.run, bridge_bind,
      bridge_pure, onReturn]
    cases (Exports.nostrVerifyEventSignature (some pk) (some eventId) (some signature) env
      s.atEntry).2.pending <;> rfl
  | anarchyProveMembership | anarchyProveUpdate | oneOnOneProveCreate | tyrannyProveCreate
  | tyrannyProveUpdate =>
    rw [ApiCall.toExport, finish_bytes]
    exact tag_eq _ (proveWrapper_eq _ env s _)
  | anarchyPinnedMembershipVKSha256Hex | anarchyPinnedUpdateVKSha256Hex
  | tyrannyPinnedCreateVKSha256Hex | tyrannyPinnedUpdateVKSha256Hex =>
    rw [ApiCall.toExport, finish_bytes]
    exact tag_eq _ (hexWrapper_eq _ env s)
  | _ =>
    rw [ApiCall.toExport, finish_bytes]
    exact tag_eq _ (external_eq _ env s)

end OnymSdk
