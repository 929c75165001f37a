import Utls.Preset

/-!
# Building the handshake state

`marshalClientHello` writes `Hello.Raw`.  With ECH configured it makes an inner hello, replaces the
placeholder in the extension list by the real extension with a zeroed payload, marshals, seals the
encoded inner hello with the result as additional data, marshals again with the sealed payload and
puts the placeholder back.  `buildHandshakeState` is what callers use: it applies the specification,
loads the session, marshals and patches the binders.
-/

namespace Utls

open Wire Exec

/-! ## The outer ECH extension -/

section Deps

variable (d : Deps)

/-- The type that `extensionsList` sees for an extension: the first two bytes of a zeroed buffer of
2000 bytes after `Read`. -/
def listedType (e : Ext) : UInt16 :=
  match e.read d.parseIP 2000 with
  | .ok (a :: b :: _) => UInt16.ofNat (a.toNat * 256 + b.toNat)
  | _ => 0

/-- `extensionsList`, on the extensions themselves. -/
def listTypes (exts : List Ext) : List UInt16 :=
  (exts.map (listedType d)).filter fun t => t ≠ extensionSupportedVersions

/-- A hello without its message header, with the header put back. -/
def withHeader (b : Bytes) : Bytes := 1 :: (u24 b.length ++ b)

/-- The error of a builder whose length prefix is too short. -/
def errBuilder : Err := .dependency "cryptobyte: length exceeds its prefix"

/-- Calls `Read` on every extension, as `extensionsList` does; a GREASE ECH extension draws its
values then. -/
def readAllExts : List Ref → M Unit
  | [] => return ()
  | r :: rs => do
    let _ ← extLen d r
    readAllExts rs

/-- `extensionsList`. -/
def extensionsList : M (List UInt16) := do
  let c ← get
  readAllExts d c.extensions
  let c ← get
  return listTypes d c.exts

/-- The binder over the reconstructed inner hello, and the hello it is computed over. -/
def innerBinder (suite : CipherSuiteTLS13) (binderKey recon : Bytes) (binders : List Bytes) :
    Bytes :=
  pskBinder d suite binderKey (recon.take (recon.length - bindersSize binders))

/-- The part of `computeAndUpdateOuterECHExtensionWithOuterExts` that corrects the binder of the
inner hello before it is sealed: it is computed over the inner hello that a server will
reconstruct.  Whatever fails leaves everything as it was. -/
def fixInnerBinder (c : UConn) (serializedOuter : Bytes) (outerExts : List UInt16)
    (inner : ClientHelloMsg) (ech : EchClientContext) : ClientHelloMsg × EchClientContext :=
  match c.pskCipherSuite, ClientHelloMsg.unmarshal (withHeader serializedOuter) with
  | some suite, some outer =>
    if inner.pskIdentities.length = 0 ∨ c.pskBinderKey.length = 0 then (inner, ech)
    else
      match decodeInnerClientHelloWithRaw outer ech.encodedInnerHello with
      | none => (inner, ech)
      | some (decoded, recon) =>
        let correct := innerBinder d suite c.pskBinderKey recon decoded.pskBinders
        if decoded.pskBinders.length = 0 ∨ decoded.pskBinders.head? = some correct then (inner, ech)
        else
          let inner := { inner with pskBinders := inner.pskBinders.set 0 correct, original := none }
          match encodeInnerClientHelloReorderOuterExts inner ech.config.maxNameLength.toNat
              (some outerExts) with
          | none => (inner, ech)
          | some encoded =>
            let ech := { ech with encodedInnerHello := encoded }
            match decodeInnerClientHelloWithRaw outer encoded with
            | none => (inner, ech)
            | some (_, fixed) => (inner, { ech with expandedInnerHello := fixed })
  | _, _ => (inner, ech)

/-- The index of the first ECH placeholder of the list. -/
def echIndex (exts : List Ext) : Option Nat := exts.findIdx? (·.isGreaseECH)

/-- Puts a generic extension with the given ECH data at index `i` of the list and marshals. -/
def marshalWithEch (i : Nat) (data : Bytes) : M Unit := do
  let r ← allocExt (.generic extensionEncryptedClientHello data)
  modify fun c => { c with extensions := c.extensions.set i r }
  marshalClientHelloNoECH d

/-- What the fallback mode stores: the outer hello, with the pre-shared key, stands for the inner
one. -/
def fallbackContext (pskExt : Option UtlsPreSharedKeyExtension) (serializedOuter : Bytes)
    (ech : EchClientContext) : EchClientContext :=
  match pskExt with
  | some e =>
    if e.cipherSuite.isSome ∧ e.binderKey.length > 0 ∧ d.echPskFallback = true then
      { ech with expandedInnerHello := withHeader serializedOuter, pskInOuterOnly := true }
    else ech
  | none => ech

/-- `Seal` of the context: the ciphertext, and the context with the next sequence number. -/
def sealInner (ech : EchClientContext) (aad : Bytes) : Bytes × EchClientContext :=
  (d.hpkeSeal ech.aeadID ech.hpkeContext.secret ech.hpkeContext.seqNum aad ech.encodedInnerHello,
    { ech with hpkeContext := { ech.hpkeContext with seqNum := ech.hpkeContext.seqNum + 1 } })

/-- The inner hello as a server decodes it from the final outer hello, if it can. -/
def storeExpanded (raw : Bytes) (ech : EchClientContext) : EchClientContext :=
  match (ClientHelloMsg.unmarshal raw).bind fun outer =>
      (decodeInnerClientHello outer ech.encodedInnerHello).bind fun inner => inner.marshal with
  | some b => { ech with expandedInnerHello := b }
  | none => ech

/-- The outer ECH extension of a context for a payload. -/
def outerECHExt (ech : EchClientContext) (useKey : Bool) (payload : Bytes) : Option Bytes :=
  generateOuterECHExt ech.config.configID ech.kdfID ech.aeadID
    (if useKey then ech.encapsulatedKey else []) payload

/-- The sealing half of `computeAndUpdateOuterECHExtensionWithOuterExts`: the placeholder at index
`i` is replaced, the hello marshalled with a zeroed payload, sealed, and marshalled again. -/
def sealOuter (i : Nat) (zeroed : Bytes) (inner : ClientHelloMsg) (ech : EchClientContext)
    (useKey : Bool) (outerExts : List UInt16) (pskExt : Option UtlsPreSharedKeyExtension) :
    M EchClientContext := do
  marshalWithEch d i zeroed
  let c ← get
  let serializedOuter := c.raw.drop 4
  let fixed := fixInnerBinder d c serializedOuter outerExts inner
    (fallbackContext d pskExt serializedOuter ech)
  let sealed := sealInner d fixed.2 serializedOuter
  let data ← ofOption errBuilder (outerECHExt sealed.2 useKey sealed.1)
  marshalWithEch d i data
  let c ← get
  return { storeExpanded c.raw sealed.2 with innerHello := some fixed.1 }

/-- `computeAndUpdateOuterECHExtensionWithOuterExts`; returns the context it changes. -/
def computeAndUpdateOuterECHExtensionWithOuterExts (inner : ClientHelloMsg)
    (ech : EchClientContext) (useKey : Bool) (outerExts : List UInt16)
    (pskExt : Option UtlsPreSharedKeyExtension) : M EchClientContext := do
  let outerExts := if pskExt.isNone then outerExts.filter (· ≠ extensionEarlyData) else outerExts
  let encoded ← ofOption errBuilder (encodeInnerClientHelloReorderOuterExts inner
    ech.config.maxNameLength.toNat (some outerExts))
  let zeroed ← ofOption errBuilder
    (outerECHExt ech useKey (List.replicate (encoded.length + 16) 0))
  let c ← get
  let i ← ofOption (.text "extension satisfying EncryptedClientHelloExtension not present")
    (echIndex c.exts)
  let ech ← sealOuter d i zeroed inner { ech with encodedInnerHello := encoded } useKey outerExts
    pskExt
  modify fun c' => { c' with extensions := c'.extensions.set i (c.extensions.getD i 0) }
  return ech

/-- `computeAndUpdateOuterECHExtension` of the connection. -/
def computeAndUpdateOuterECHExtension (inner : ClientHelloMsg) (ech : EchClientContext)
    (useKey : Bool) : M EchClientContext := do
  let outerExts ← extensionsList d
  computeAndUpdateOuterECHExtensionWithOuterExts d inner ech useKey outerExts none

/-! ## `MarshalClientHello` -/

/-- The first extension of the list that `f` picks, with its reference. -/
def UConn.firstExt {α : Type} (c : UConn) (f : Ext → Option α) : Option (Ref × α) :=
  c.extensions.findSome? fun r => (f (c.heap r)).map fun a => (r, a)

def Ext.asUtlsPreSharedKey : Ext → Option UtlsPreSharedKeyExtension
  | .utlsPreSharedKey e => some e
  | _ => none

def Ext.asQUICTransportParameters : Ext → Option QUICTransportParametersExtension
  | .quicTransportParameters e => some e
  | _ => none

def Ext.asSNI : Ext → Option GoString
  | .sni name => some name
  | _ => none

/-- The inner hello with the fields it takes from the outer one. -/
def innerFromOuter (c : UConn) (inner : ClientHelloMsg) : ClientHelloMsg :=
  { inner with
    cipherSuites := c.hello.cipherSuites
    keyShares := c.hello.keyShares
    supportedSignatureAlgorithms := c.hello.supportedSignatureAlgorithms
    supportedSignatureAlgorithmsCert := c.hello.supportedSignatureAlgorithmsCert
    sessionId := c.hello.sessionId
    supportedCurves := c.hello.supportedCurves
    pskModes := c.hello.pskModes
    alpnProtocols := c.hello.alpnProtocols
    earlyData := c.hello.earlyData
    ticketSupported := c.hello.ticketSupported
    secureRenegotiationSupported := c.hello.secureRenegotiationSupported
    secureRenegotiation := c.hello.secureRenegotiation
    quicTransportParameters :=
      match c.firstExt Ext.asQUICTransportParameters with
      | some (_, e) => if e.data.length > 0 then some e.data else inner.quicTransportParameters
      | none => inner.quicTransportParameters }

/-- The pre-shared key extension can be moved to the inner hello. -/
def UtlsPreSharedKeyExtension.offersPsk (e : UtlsPreSharedKeyExtension) : Bool :=
  e.cipherSuite.isSome && decide (e.binderKey.length > 0) && decide (e.identities.length > 0)

/-- The inner hello with the pre-shared key of the extension and a first binder, computed over the
inner hello as the standard writer writes it. -/
def innerWithPsk (c : UConn) (e : UtlsPreSharedKeyExtension) (inner : ClientHelloMsg) :
    M ClientHelloMsg := do
  let inner := { inner with
    pskIdentities := e.identities
    pskBinders := e.binders.map fun b => List.replicate b.length 0 }
  match c.pskCipherSuite with
  | none => return inner
  | some suite =>
    if c.pskBinderKey.length = 0 then return inner
    else
      let helloBytes ← ofOption errBuilder inner.marshalWithoutBinders
      assert (inner.pskBinders ≠ []) "index out of range [0] with length 0"
      return { inner with
        pskBinders := inner.pskBinders.set 0 (pskBinder d suite c.pskBinderKey helloBytes) }

/-- `n` random bytes; zeros if the random source fails. -/
def randOrZero (n : Nat) : M Bytes := do
  let b ← tryRand d n
  return b.getD (List.replicate n 0)

/-- Random identities of the same lengths. -/
def greaseIdentities : List PskIdentity → M (List PskIdentity)
  | [] => return []
  | i :: is => do
    let label ← randOrZero d i.label.length
    let age ← randOrZero d 4
    let rest ← greaseIdentities is
    return ⟨label, UInt32.ofNat (beNat age)⟩ :: rest

/-- Random binders of the same lengths. -/
def greaseBinders : List Bytes → M (List Bytes)
  | [] => return []
  | b :: bs => do
    let b' ← randOrZero d b.length
    let rest ← greaseBinders bs
    return b' :: rest

/-- Replaces the pre-shared key of the outer hello by random values of the same lengths. -/
def greasePsk (r : Ref) (e : UtlsPreSharedKeyExtension) : M Unit := do
  let identities ← greaseIdentities d e.identities
  let binders ← greaseBinders d e.binders
  storeExt r (.utlsPreSharedKey
    { e with identities := identities, binders := binders, skipBinderPatching := true })

/-- The pre-shared key half of `MarshalClientHello`: the inner hello, and the list of outer
extensions if the pre-shared key is offered. -/
def moveToInner (inner : ClientHelloMsg) : M (ClientHelloMsg × Option (List UInt16)) := do
  let c ← get
  match c.firstExt Ext.asUtlsPreSharedKey with
  | none => return (inner, none)
  | some (r, e) =>
    if e.offersPsk = false then return (inner, none)
    else if d.echPskFallback then
      let l ← extensionsList d
      return (inner, some (l.filter (· ≠ extensionEncryptedClientHello)))
    else
      let inner ← innerWithPsk d c e inner
      greasePsk d r e
      let l ← extensionsList d
      return (inner, some (l.filter fun t =>
        t ≠ extensionEncryptedClientHello ∧ t ≠ extensionPreSharedKey))

/-- Points the first `server_name` extension at a name. -/
def setFirstSNI (name : GoString) : M Unit := do
  let c ← get
  match c.firstExt Ext.asSNI with
  | some (r, _) => storeExt r (.sni name)
  | none => return ()

/-- Seals the inner hello into the outer one. -/
def sealInnerHello (moved : ClientHelloMsg × Option (List UInt16)) (ech : EchClientContext) :
    M EchClientContext := do
  let c ← get
  match moved.2 with
  | some outerExts =>
    computeAndUpdateOuterECHExtensionWithOuterExts d moved.1 ech true outerExts
      ((c.firstExt Ext.asUtlsPreSharedKey).map Prod.snd)
  | none => computeAndUpdateOuterECHExtension d moved.1 ech true

/-- Sets the server name of the configuration. -/
def setServerName (name : GoString) : M Unit :=
  modify (·.updConfig fun cfg => { cfg with serverName := name })

/-- `MarshalClientHello` with ECH.  The configured server name is the public name while the hello is
marshalled, and is put back on errors as well. -/
def marshalClientHelloECH : M Unit := do
  let made ← makeClientHello d
  match made.2 with
  | none => panicWith "nil pointer dereference"
  | some ech =>
    let c ← get
    let moved ← moveToInner d (innerFromOuter c made.1)
    setServerName ech.config.publicName
    setFirstSNI ech.config.publicName
    let result ← attempt (sealInnerHello d moved { ech with innerHello := some moved.1 })
    setServerName c.config.serverName
    let ech ← ofExcept result
    modify fun c => { c with echCtx := some ech }

/-- `MarshalClientHello`. -/
def marshalClientHello : M Unit := do
  applyConfig d
  let c ← get
  if (c.config.encryptedClientHelloConfigList.getD []).length > 0 then marshalClientHelloECH d
  else marshalClientHelloNoECH d

/-! ## `BuildHandshakeState` -/

/-- `removeSNIExtension`. -/
def removeSNIExtension : M Unit :=
  modify fun c => { c with extensions := c.extensions.filter fun r => (c.heap r).asSNI.isNone }

/-- What a first build does before the configuration is applied. -/
def prepareBuild : M Unit := do
  applyPresetByID d
  let c ← get
  runIf (c.omitSNIExtension = true) removeSNIExtension

/-- The end of a build that loads a session. -/
def finishSession : M Unit := do
  uApplyPatch d
  finalCheck

/-- `buildHandshakeState` of a connection whose hello is not Go's own. -/
def buildHandshakeState (loadSession : Bool) : M Unit := do
  let c ← get
  assert (c.clientHelloBuildStatus = .buildByUtls ∨ c.clientHelloBuildStatus = .notBuilt)
    ("BuildHandshakeState failed: invalid call, client hello has already been built by go-tls")
  runIf (c.clientHelloBuildStatus = .notBuilt) (prepareBuild d)
  applyConfig d
  runIf (loadSession = true) (uLoadSession d)
  -- only a hello that has not been built yet is marshalled
  runIf (c.clientHelloBuildStatus ≠ .buildByUtls) (marshalClientHello d)
  runIf (loadSession = true) (finishSession d)
  modify fun c => { c with clientHelloBuildStatus := .buildByUtls }

end Deps

/-! ## New connections -/

/-- What a new connection finds: the clock, the address of the peer, the QUIC transport parameters that
are set, and whether `RemoveSNIExtension` was called. -/
structure Surroundings where
  now : Nat := 0
  quic : Bool := false
  quicTransportParams : Option Bytes := none
  remoteAddr : Option GoString := none
  omitSNIExtension : Bool := false

/-- `UClient`, with the extension objects that exist when it is called. -/
def uClient (heap : Ref → Ext) (nextRef : Ref) (config : Config) (env : Surroundings)
    (clientHelloID : ClientHelloID) : UConn where
  heap := heap
  nextRef := nextRef
  now := env.now
  quic := env.quic
  quicTransportParams := env.quicTransportParams
  remoteAddr := env.remoteAddr
  omitSNIExtension := env.omitSNIExtension
  config := config
  clientHelloID := clientHelloID
  skipResumptionOnNilExtension :=
    config.preferSkipResumptionOnNilExtension || clientHelloID != .custom

/-! ## What callers may change -/

/-- `SetClientRandom`. -/
def setClientRandom (random : Bytes) : M Unit := do
  if random.length ≠ 32 then
    fail (.text "Incorrect client random length! Expected: 32")
  else modify (·.updHello fun h => { h with random := random })

/-- The new name of an extension, if it is a `server_name` extension. -/
def Ext.withSNI (name : GoString) : Ext → Ext
  | .sni _ => .sni name
  | e => e

/-- `SetSNI`. -/
def setSNI (d : Deps) (sni : GoString) : M Unit :=
  modify fun c =>
    { c.updConfig fun cfg => { cfg with serverName := d.hostname sni } with
      heap := fun r => if r ∈ c.extensions then (c.heap r).withSNI (d.hostname sni) else c.heap r }

end Utls
