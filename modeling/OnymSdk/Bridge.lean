/-
  File:      OnymSdk/Bridge.lean
  Subject:   THE JNI BRIDGE'S MACHINE and the helpers of `rust-jni/src/lib.rs`.

  A bridge computation (`Bridge t α`) runs against an `Env` and threads a
  `BridgeState`: the pending Java exception, the C calls made so far, and the
  list of ledger operations on what the C side handed out. The bytes of a C
  allocation travel with its pointer (`Block`); reading them records a `read`,
  so a read after free is a breach of the ledger, not a different value.

  * `convertByteArray`, `byteArrayFromSlice`, `throwNew` -- the `jni` calls;
  * `ffiVerify`, `ffiOneOut`, `ffiTwoOut` -- a C call, by its out buffers;
  * `throwFfiError`, `bufferToJbytearray`, `jbytearrayToVec`,
    `twoBuffersToConcat` -- the helpers of lib.rs, as written there;
  * `callOneOut`, `callTwoOut`, `callVerify` -- the tail every export repeats:
    the C call, its error branch, its result.
-/
import OnymSdk.Ffi
import OnymSdk.Wire
import OnymSdk.Lib.Ledger
import OnymSdk.Lib.Utf8Lossy

namespace OnymSdk

/-! ## 1. The machine -/

/-- The two kinds of C allocation, by the function that frees them. -/
inductive Kind where
  | buffer
  | string
  deriving DecidableEq, Repr

/-- The state one thread's JNI calls run over. -/
structure BridgeState (t : Target) where
  pending : Option Throwable := none
  conversions : Nat := 0
  next : Nat := 0
  calls : List (FfiCall t) := []
  ops : List (Ledger.Op Kind) := []

/-- A computation of the bridge. -/
def Bridge (t : Target) (α : Type) := Env t → BridgeState t → α × BridgeState t

instance (t : Target) : Monad (Bridge t) where
  pure a := fun _ s => (a, s)
  bind m f := fun env s => f (m env s).1 env (m env s).2

variable {t : Target}

@[simp] theorem bridge_pure {α : Type} (a : α) (env : Env t) (s : BridgeState t) :
    (pure a : Bridge t α) env s = (a, s) := rfl

@[simp] theorem bridge_bind {α β : Type} (m : Bridge t α) (f : α → Bridge t β) (env : Env t)
    (s : BridgeState t) : (m >>= f) env s = f (m env s).1 env (m env s).2 := rfl

/-- What a failing JNI call leaves pending; a call that leaves nothing keeps
    what was pending. -/
def raise (p : Option Throwable) : Bridge t Unit := fun _ s =>
  ((), match p with
    | some e => { s with pending := some e }
    | none => s)

/-- Record a ledger operation. -/
def log (o : Ledger.Op Kind) : Bridge t Unit := fun _ s => ((), { s with ops := s.ops ++ [o] })

/-! ## 2. Memory of the C side -/

/-- A C allocation: its ledger handle and the bytes it holds. -/
structure Block where
  handle : Nat
  bytes : List UInt8
  deriving DecidableEq, Repr

/-- `ffi::OnymByteBuffer`. -/
structure OnymByteBuffer where
  ptr : Option Block
  len : Nat
  deriving DecidableEq, Repr

/-- `OnymByteBuffer { ptr: ptr::null_mut(), len: 0 }`. -/
def OnymByteBuffer.NULL : OnymByteBuffer := ⟨none, 0⟩

/-- A `*mut c_char`. -/
abbrev CString := Option Block

/-- A borrowed byte slice: `&[]`, or `from_raw_parts`. -/
inductive Slice where
  | empty
  | fromRawParts (block : Block) (len : Nat)
  deriving DecidableEq, Repr

def Slice.len : Slice → Nat
  | .empty => 0
  | .fromRawParts _ len => len

/-- Copying out of a slice reads the memory behind it. -/
def Slice.read : Slice → Bridge t (List UInt8)
  | .empty => pure []
  | .fromRawParts block len => do
    log (.read block.handle)
    pure (block.bytes.take len)

/-- `if ptr.is_null() || len == 0 { &[] } else { from_raw_parts(ptr, len) }`. -/
def sliceOf (buf : OnymByteBuffer) : Slice :=
  match buf.ptr with
  | none => .empty
  | some block => if buf.len = 0 then .empty else .fromRawParts block buf.len

/-- `onym_byte_buffer_free`: a null buffer is a no-op. -/
def onymByteBufferFree (buffer : OnymByteBuffer) : Bridge t Unit :=
  match buffer.ptr with
  | none => pure ()
  | some block => log (.free block.handle .buffer)

/-- `onym_string_free`. -/
def onymStringFree (ptr : CString) : Bridge t Unit :=
  match ptr with
  | none => pure ()
  | some block => log (.free block.handle .string)

/-- The C side hands an allocation of the given kind to the caller. -/
def handOut (k : Kind) (bytes : List UInt8) : Bridge t Block := fun _ s =>
  (⟨s.next, bytes⟩, { s with next := s.next + 1, ops := s.ops ++ [.handOut s.next k] })

/-- What the C side stores through an out pointer. -/
def handOutBuffer : OutBuf → Bridge t OnymByteBuffer
  | .null len => pure ⟨none, len⟩
  | .owned bytes => do
    let block ← handOut .buffer bytes
    pure ⟨some block, bytes.length⟩

/-- What the C side stores through the error pointer. -/
def handOutString : Option (List UInt8) → Bridge t CString
  | none => pure none
  | some bytes => do
    let block ← handOut .string bytes
    pure (some block)

/-! ## 3. C calls -/

/-- The C function is entered. -/
def enter (c : FfiCall t) : Bridge t Unit := fun _ s => ((), { s with calls := s.calls ++ [c] })

/-- What the C side answers. -/
def answer {α : Type} (f : Env t → Outcome α) : Bridge t (Outcome α) := fun env s => (f env, s)

/-- A C function without out buffers: its `bool` and its error string. -/
def ffiVerify (c : FfiCall t) : Bridge t (Bool × CString) := do
  enter c
  match ← answer (·.verify c) with
  | .success () => pure (true, none)
  | .failure err => pure (false, ← handOutString err)

/-- A C function with one out buffer. -/
def ffiOneOut (c : FfiCall t) : Bridge t (Bool × OnymByteBuffer × CString) := do
  enter c
  match ← answer (·.oneOut c) with
  | .success out => pure (true, ← handOutBuffer out, none)
  | .failure err => pure (false, .NULL, ← handOutString err)

/-- A C function with two out buffers. -/
def ffiTwoOut (c : FfiCall t) :
    Bridge t (Bool × OnymByteBuffer × OnymByteBuffer × CString) := do
  enter c
  match ← answer (·.twoOut c) with
  | .success (a, b) => pure (true, ← handOutBuffer a, ← handOutBuffer b, none)
  | .failure err => pure (false, .NULL, .NULL, ← handOutString err)

/-! ## 4. JNI calls -/

/-- `env.convert_byte_array`. A null reference fails without an exception. -/
def convertByteArray (arr : JRef) : Bridge t (Option (List UInt8)) := fun env s =>
  match arr with
  | none => (none, { s with conversions := s.conversions + 1 })
  | some a =>
    match env.convert s.conversions with
    | .ok () => (some a.contents, { s with conversions := s.conversions + 1 })
    | .error p => (none, (raise p env { s with conversions := s.conversions + 1 }).2)

/-- `env.byte_array_from_slice(..).map(into_raw).unwrap_or_else(|_| null_mut())`. -/
def byteArrayFromSlice (slice : List UInt8) : Bridge t JRef := fun env s =>
  match env.newByteArray slice.length with
  | .ok h => (some (.ofUnsigned slice h.down), s)
  | .error p => (none, (raise p env s).2)

/-- `const ONYM_EXCEPTION` with its message, as a throwable. -/
def ONYM_EXCEPTION (msg : String) : Throwable := .OnymException msg

/-- `let _ = env.throw_new(ONYM_EXCEPTION, &msg);` -/
def throwNew (msg : String) : Bridge t Unit := fun env s =>
  match env.throwNew msg with
  | .ok () => ((), { s with pending := some (ONYM_EXCEPTION msg) })
  | .error p => raise p env s

/-! ## 5. The helpers of lib.rs -/

/-- `throw_ffi_error`. -/
def throwFfiError (err : CString) : Bridge t Unit := do
  let msg ← match err with
    | none => pure "FFI returned false but populated no error message"
    | some block => do
      log (.read block.handle)
      let m := Utf8Lossy.lossy Utf8Lossy.maximal block.bytes
      onymStringFree err
      pure m
  throwNew msg

/-- `buffer_to_jbytearray`. -/
def bufferToJbytearray (buf : OnymByteBuffer) : Bridge t JRef := do
  match sliceOf buf with
  | .empty => do
    onymByteBufferFree buf
    byteArrayFromSlice []
  | slice => do
    let bytes ← slice.read
    onymByteBufferFree buf
    byteArrayFromSlice bytes

/-- `jbytearray_to_vec`: a failed conversion is the empty vector. -/
def jbytearrayToVec (arr : JRef) : Bridge t (List UInt8) := do
  return (← convertByteArray arr).getD []

/-- `two_buffers_to_concat`. -/
def twoBuffersToConcat (a b : OnymByteBuffer) : Bridge t JRef := do
  let aSlice := sliceOf a
  let bSlice := sliceOf b
  let out := BigEndian.toBytes 4 (aSlice.len % 2 ^ 32)
  let out := out ++ (← aSlice.read)
  let out := out ++ (← bSlice.read)
  onymByteBufferFree a
  onymByteBufferFree b
  byteArrayFromSlice out

/-! ## 6. The tail of an export -/

/-- `let ok = ffi::f(.., &mut out, &mut err); if !ok { throw_ffi_error(..); return null }
    buffer_to_jbytearray(&mut env, out)`. -/
def callOneOut (c : FfiCall t) : Bridge t JRef := do
  let (ok, out, err) ← ffiOneOut c
  if !ok then
    throwFfiError err
    return none
  bufferToJbytearray out

/-- The same tail with two out buffers. -/
def callTwoOut (c : FfiCall t) : Bridge t JRef := do
  let (ok, a, b, err) ← ffiTwoOut c
  if !ok then
    throwFfiError err
    return none
  twoBuffersToConcat a b

/-- The tail of `nostrVerifyEventSignature`: a failed verification is `false`,
    its error string is freed and not thrown. -/
def callVerify (c : FfiCall t) : Bridge t Bool := do
  let (ok, err) ← ffiVerify c
  if !ok then
    if err.isSome then
      onymStringFree err
    return false
  return true

end OnymSdk
