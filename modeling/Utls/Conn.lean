import Utls.Lib.Exec
import Utls.ClientHello

/-!
# The client connection

`UConn` is the state the client works on: the configuration, the extension list, the public
handshake state, the session controller and the ECH context.  Extensions are objects that
several owners point to (the list, the session controller, a caller's `ClientHelloSpec`), so they
live in a heap and the owners hold references.

Functions of the source become programs `M` on this state, which keep the state on errors and
tell panics apart from errors.  Everything that is not part of the package (the random source,
the hash functions, the key exchanges, HPKE, address parsing) is a parameter, `Deps`.
-/

namespace Utls

open Wire Exec

/-! ## Code outside the package -/

/-- A specification of a ClientHello as a table gives it, with its extensions as values. -/
structure SpecData where
  cipherSuites : List UInt16
  extensions : List Ext
  tlsVersMin : UInt16 := 0
  tlsVersMax : UInt16 := 0
  greaseSeed : List UInt16 := []

/-- The functions of other packages that the client calls, with the facts about them that the
client relies on, and the table of presets. -/
structure Deps where
  /-- `UTLSIdToSpec`, and `generateRandomizedSpec` for the randomized ones. -/
  utlsIdToSpec : Nat → Option SpecData
  utlsIdToSpec_regular : ∀ n data, utlsIdToSpec n = some data → ∀ e ∈ data.extensions, e.Regular
  /-- What `bufio.Writer` makes of a hello with extensions whose `Read` stores other bytes than it
  counts. -/
  inexactHello : ClientHelloMsg → List Ext → Int → Except (Fault Err) Bytes
  /-- `net.ParseIP(s) != nil`. -/
  parseIP : GoString → Bool
  /-- The `k`-th read of `n` bytes from the random source. -/
  rand : Nat → Nat → Option Bytes
  rand_length : ∀ k n b, rand k n = some b → b.length = n
  /-- The transcript hash of a cipher suite. -/
  hash : HashId → Bytes → Bytes
  hash_length : ∀ h b, (hash h b).length = h.size
  /-- `finishedHash(baseKey, transcript)`, given the base key and the sum of the transcript. -/
  finishedHash : HashId → Bytes → Bytes → Bytes
  finishedHash_length : ∀ h k s, (finishedHash h k s).length = h.size
  /-- `tls13.NewEarlySecret(hash, psk).Secret()`. -/
  earlySecret : HashId → Bytes → Bytes
  /-- `(*EarlySecret).ResumptionBinderKey()`. -/
  resumptionBinderKey : HashId → Bytes → Bytes
  resumptionBinderKey_length : ∀ h s, (resumptionBinderKey h s).length = h.size
  /-- The private key made from the `k`-th read of the random source for a curve. -/
  ecdhKey : Nat → UInt16 → Option Bytes
  /-- The public key of a private key. -/
  ecdhPublic : UInt16 → Bytes → Bytes
  /-- The encapsulation key of the ML-KEM key with a given seed. -/
  mlkemPublic : Bytes → Bytes
  /-- `hpke.ParseHPKEPublicKey` accepts the key. -/
  hpkeParsePublicKey : UInt16 → Bytes → Bool
  /-- `hpke.SetupSender` (KEM, KDF, AEAD, public key, info) with the `k`-th random read: the
  encapsulated key and the secret of the context. -/
  hpkeSetupSender : Nat → UInt16 → UInt16 → UInt16 → Bytes → Bytes → Option (Bytes × Bytes)
  /-- The ciphertext of a context (AEAD, secret, sequence number, additional data, plaintext). -/
  hpkeSeal : UInt16 → Bytes → Nat → Bytes → Bytes → Bytes
  /-- All AEADs that are supported have a 16-byte tag. -/
  hpkeSeal_length : ∀ a k n aad pt, (hpkeSeal a k n aad pt).length = pt.length + 16
  /-- What the receiver of a context makes of a ciphertext. -/
  hpkeOpen : UInt16 → Bytes → Nat → Bytes → Bytes → Option Bytes
  hpkeOpen_seal : ∀ a k n aad pt, hpkeOpen a k n aad (hpkeSeal a k n aad pt) = some pt
  /-- How a wait for QUIC transport parameters ends: they are set, or the wait is cancelled. -/
  quicWait : Option Bytes
  /-- The environment variable `UTLS_ECH_PSK_FALLBACK` is set. -/
  echPskFallback : Bool
  /-- `cert.VerifyHostname(name) == nil` for the leaf certificate of a session. -/
  verifyHostname : SessionState → GoString → Bool
  /-- The cipher suites of TLS 1.2 and below (`cipherSuiteByID(id) != nil`). -/
  isCipherSuite : UInt16 → Bool
  isCipherSuite_tls13 : ∀ id, isCipherSuite id = true → cipherSuiteTLS13ByID id = none

/-- An environment with simple functions in the place of the real ones.  The facts that are asked of
an environment hold in it, and the model can be run in it. -/
def Deps.sample : Deps where
  utlsIdToSpec _ := none
  utlsIdToSpec_regular _ _ h := by cases h
  inexactHello _ _ _ := .ok []
  parseIP _ := false
  rand k n := some (List.replicate n (UInt8.ofNat k))
  rand_length k n b h := by
    cases h
    exact List.length_replicate
  hash h _ := List.replicate h.size 0x48
  hash_length _ _ := List.length_replicate
  finishedHash h _ _ := List.replicate h.size 0x46
  finishedHash_length _ _ _ := List.length_replicate
  earlySecret h _ := List.replicate h.size 0x45
  resumptionBinderKey h _ := List.replicate h.size 0x42
  resumptionBinderKey_length _ _ := List.length_replicate
  ecdhKey k _ := some [UInt8.ofNat k]
  ecdhPublic _ secret := secret
  mlkemPublic seed := seed
  hpkeParsePublicKey _ _ := true
  hpkeSetupSender k _ _ _ _ _ := some ([UInt8.ofNat k], [UInt8.ofNat k])
  hpkeSeal _ _ _ _ pt := pt ++ List.replicate 16 0
  hpkeSeal_length _ _ _ _ pt := by simp
  hpkeOpen _ _ _ _ ct := some (ct.take (ct.length - 16))
  hpkeOpen_seal _ _ _ _ pt := by simp
  quicWait := some []
  echPskFallback := false
  verifyHostname _ _ := true
  isCipherSuite id := (cipherSuiteTLS13ByID id).isNone
  isCipherSuite_tls13 _ h := Option.isNone_iff_eq_none.mp h

/-! ## Keys and contexts -/

/-- An ECDH private key. -/
structure EcdhKey where
  curve : UInt16
  secret : Bytes
  deriving DecidableEq, Repr

/-- An ML-KEM-768 decapsulation key, given by its seed. -/
structure MlkemKey where
  seed : Bytes
  deriving DecidableEq, Repr

/-- `KeySharePrivateKeys`. -/
structure KeySharePrivateKeys where
  curveID : UInt16 := 0
  ecdhe : Option EcdhKey := none
  mlkem : Option MlkemKey := none
  mlkemEcdhe : Option EcdhKey := none
  deriving DecidableEq, Repr

/-- `echCipher`. -/
structure EchCipher where
  kdfID : UInt16
  aeadID : UInt16
  deriving DecidableEq, Repr

/-- `echConfig`. -/
structure EchConfig where
  raw : Bytes
  version : UInt16
  length : UInt16
  configID : UInt8
  kemID : UInt16
  publicKey : Bytes
  symmetricCipherSuite : List EchCipher
  maxNameLength : UInt8
  publicName : GoString
  extensions : List RawExtension
  deriving DecidableEq, Repr

/-- The sending half of an HPKE context: its secret and the number of messages sealed. -/
structure HpkeSender where
  secret : Bytes
  seqNum : Nat
  deriving DecidableEq, Repr

/-- `echClientContext`. -/
structure EchClientContext where
  config : EchConfig
  hpkeContext : HpkeSender
  encapsulatedKey : Bytes
  innerHello : Option ClientHelloMsg := none
  kdfID : UInt16
  aeadID : UInt16
  expandedInnerHello : Bytes := []
  encodedInnerHello : Bytes := []
  pskInOuterOnly : Bool := false
  deriving DecidableEq

/-! ## Configuration -/

/-- A session cache: what `Get` returns for a key. -/
abbrev ClientSessionCache := GoString → Option SessionState

/-- `Config`, as far as the client path reads it. -/
structure Config where
  serverName : GoString := []
  nextProtos : List GoString := []
  insecureSkipVerify : Bool := false
  insecureSkipTimeVerify : Bool := false
  insecureServerNameToVerify : GoString := []
  minVersion : UInt16 := 0
  maxVersion : UInt16 := 0
  curvePreferences : List UInt16 := []
  sessionTicketsDisabled : Bool := false
  clientSessionCache : Option ClientSessionCache := none
  renegotiation : RenegotiationSupport := .never
  omitEmptyPsk : Bool := false
  preferSkipResumptionOnNilExtension : Bool := false
  encryptedClientHelloConfigList : Option Bytes := none

/-! ## The session controller's state -/

inductive SessionControllerState where
  | noSession
  | sessionTicketExtInitialized
  | sessionTicketExtAllSet
  | pskExtInitialized
  | pskExtAllSet
  deriving DecidableEq, Repr

inductive LoadSessionTrackerState where
  | neverCalled
  | utlsAboutToCall
  | calledByULoadSession
  | calledByGoTLS
  deriving DecidableEq, Repr

/-- A reference to an extension object. -/
abbrev Ref := Nat

/-- `sessionController`; its two extensions are references into the heap. -/
structure SessionController where
  sessionTicketExt : Option Ref := none
  pskExtension : Option Ref := none
  state : SessionControllerState := .noSession
  loadSessionTracker : LoadSessionTrackerState := .neverCalled
  callingLoadSession : Bool := false
  locked : Bool := false

/-! ## The connection -/

inductive ClientHelloBuildStatus where
  | notBuilt
  | buildByUtls
  | buildByGoTLS
  deriving DecidableEq, Repr

/-- `ClientHelloSpec`. -/
structure ClientHelloSpec where
  cipherSuites : List UInt16
  compressionMethods : List UInt8 := [0]
  extensions : List Ref
  tlsVersMin : UInt16
  tlsVersMax : UInt16
  greaseSeed : List UInt16

/-- Where a ClientHello comes from: Go's own, the caller's (`HelloCustom`), or a preset. -/
inductive ClientHelloID where
  | golang
  | custom
  | preset (n : Nat)
  deriving DecidableEq, Repr

/-- `HandshakeState.Hello.PskIdentities` is either a slice of its own or the very slice of a
pre-shared key extension, whose later changes it then shows. -/
inductive PskIdentities where
  | own (l : List PskIdentity)
  | ofExt (r : Ref)

/-- `UConn`, with the parts of `Conn` and `PubClientHandshakeState` that the client path uses. -/
structure UConn where
  heap : Ref → Ext
  nextRef : Ref
  /-- The number of reads from the random source so far. -/
  draws : Nat := 0
  /-- The clock, in milliseconds. -/
  now : Nat := 0
  config : Config
  quic : Bool := false
  quicTransportParams : Option Bytes := none
  remoteAddr : Option GoString := none
  extensions : List Ref := []
  clientHelloID : ClientHelloID
  sessionController : SessionController := {}
  clientHelloBuildStatus : ClientHelloBuildStatus := .notBuilt
  clientHelloSpec : Option ClientHelloSpec := none
  hello : ClientHelloMsg := {}
  /-- `HandshakeState.Hello.PskIdentities`. -/
  helloPskIdentities : PskIdentities := .own []
  session : Option SessionState := none
  earlySecret : Bytes := []
  binderKey : Bytes := []
  keyShareKeys : KeySharePrivateKeys := {}
  greaseSeed : List UInt16 := []
  omitSNIExtension : Bool := false
  skipResumptionOnNilExtension : Bool := false
  certCompressionAlgs : List UInt16 := []
  ech : Option Ref := none
  echCtx : Option EchClientContext := none
  pskBinderKey : Bytes := []
  pskCipherSuite : Option CipherSuiteTLS13 := none
  handshakes : Nat := 0
  clientFinished : Bytes := []

/-- Programs on a connection. -/
abbrev M := Prog Err UConn

namespace UConn

/-- The extensions of the connection. -/
def exts (c : UConn) : List Ext := c.extensions.map c.heap

/-- `HandshakeState.Hello.Raw`. -/
def raw (c : UConn) : Bytes := c.hello.original.getD []

/-- Writes to an extension object. -/
def store (c : UConn) (r : Ref) (e : Ext) : UConn := { c with heap := Function.update c.heap r e }

/-- Moves to the `n`-th read of the random source. -/
def atDraw (c : UConn) (n : Nat) : UConn := { c with draws := n }

/-- Changes fields of `HandshakeState.Hello`. -/
def updHello (c : UConn) (f : ClientHelloMsg → ClientHelloMsg) : UConn :=
  { c with hello := f c.hello }

/-- Sets `HandshakeState.Hello.Raw`. -/
def setRaw (c : UConn) (b : Bytes) : UConn := c.updHello fun h => { h with original := some b }

/-- Changes fields of the configuration. -/
def updConfig (c : UConn) (f : Config → Config) : UConn := { c with config := f c.config }

/-- Changes the session controller. -/
def updSC (c : UConn) (f : SessionController → SessionController) : UConn :=
  { c with sessionController := f c.sessionController }

/-- The pre-shared key identities that the public hello shows. -/
def pskIdentities (c : UConn) : List PskIdentity :=
  match c.helloPskIdentities with
  | .own l => l
  | .ofExt r =>
    match c.heap r with
    | .utlsPreSharedKey e => e.identities
    | .fakePreSharedKey e => e.identities.getD []
    | _ => []

section Projections

variable (c : UConn) (r : Ref) (e : Ext) (n : Nat) (k : SessionController → SessionController)

@[simp] lemma store_heap : (c.store r e).heap = Function.update c.heap r e := rfl
@[simp] lemma store_extensions : (c.store r e).extensions = c.extensions := rfl
@[simp] lemma store_sessionController :
    (c.store r e).sessionController = c.sessionController := rfl
@[simp] lemma atDraw_heap : (c.atDraw n).heap = c.heap := rfl
@[simp] lemma atDraw_extensions : (c.atDraw n).extensions = c.extensions := rfl
@[simp] lemma updSC_heap : (c.updSC k).heap = c.heap := rfl
@[simp] lemma updSC_extensions : (c.updSC k).extensions = c.extensions := rfl
@[simp] lemma updSC_config : (c.updSC k).config = c.config := rfl
@[simp] lemma updSC_sessionController :
    (c.updSC k).sessionController = k c.sessionController := rfl

lemma store_self (c : UConn) (r : Ref) : c.store r (c.heap r) = c := by
  rw [store, Function.update_eq_self]

/-- What the stored object shares with the old one is kept everywhere. -/
lemma store_same {c : UConn} {r : Ref} {e : Ext} {α : Type} (p : Ext → α)
    (h : p e = p (c.heap r)) (r' : Ref) : p ((c.store r e).heap r') = p (c.heap r') := by
  by_cases hr : r' = r
  · subst hr
    rw [store_heap, Function.update_self, h]
  · rw [store_heap, Function.update_of_ne hr]

end Projections

end UConn

/-! ## Heap and randomness -/

/-- Reads an extension object. -/
def loadExt (r : Ref) : M Ext := do
  let c ← get
  return c.heap r

/-- Writes an extension object. -/
def storeExt (r : Ref) (e : Ext) : M Unit := modify (·.store r e)

/-- Allocates an extension object. -/
def allocExt (e : Ext) : M Ref := do
  let c ← get
  set { c.store c.nextRef e with nextRef := c.nextRef + 1 }
  return c.nextRef

@[simp] lemma run_loadExt (r : Ref) (c : UConn) : loadExt r c = .ok (c.heap r) c := rfl

lemma run_loadExt_bind {α : Type} (r : Ref) (f : Ext → M α) (c : UConn) :
    (loadExt r >>= f) c = f (c.heap r) c := rfl

@[simp] lemma run_storeExt (r : Ref) (e : Ext) (c : UConn) :
    storeExt r e c = .ok () (c.store r e) := rfl

@[simp] lemma run_allocExt (e : Ext) (c : UConn) :
    allocExt e c = .ok c.nextRef { c.store c.nextRef e with nextRef := c.nextRef + 1 } := rfl

section Deps

variable (d : Deps)

/-- Reads `n` bytes from the random source; `none` if it fails. -/
def tryRand (n : Nat) : M (Option Bytes) := do
  let c ← get
  set (c.atDraw (c.draws + 1))
  return d.rand c.draws n

/-- Reads `n` bytes from the random source. -/
def readRand (n : Nat) : M Bytes := do
  let b ← tryRand d n
  ofOption (.dependency "tls: short read from Rand") b

@[simp] lemma run_tryRand (n : Nat) (c : UConn) :
    tryRand d n c = .ok (d.rand c.draws n) (c.atDraw (c.draws + 1)) := rfl

/-- `hostnameInSNI` with the address parser of the environment. -/
abbrev Deps.hostname (name : GoString) : GoString := hostnameInSNI d.parseIP name

end Deps

end Utls
