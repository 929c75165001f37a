import Utls.LoadSession

/-!
# Applying a ClientHello specification

`makeClientHelloForApplyPreset` starts a hello from the configuration, with an ECH context if ECH is
configured.  `applyPreset` then overwrites it with the specification: it fills in GREASE values, the
server name and the key shares, whose private keys go to the handshake state, and hands the session
extensions to the session controller.
-/

namespace Utls

open Wire Exec

/-! ## The hello of the configuration -/

/-- `(*Config).supportedVersions` of a client. -/
def Config.supportedVersions (cfg : Config) : List UInt16 :=
  [VersionTLS13, VersionTLS12, VersionTLS11, VersionTLS10].filter fun v =>
    !(cfg.minVersion == 0 && decide (v < VersionTLS12)) &&
    !(cfg.encryptedClientHelloConfigList.isSome && decide (v < VersionTLS13)) &&
    !(cfg.minVersion != 0 && decide (v < cfg.minVersion)) &&
    !(cfg.maxVersion != 0 && decide (v > cfg.maxVersion))

/-- `(*Config).curvePreferences`. -/
def Config.curvePreferencesFor (cfg : Config) (version : UInt16) : List UInt16 :=
  [X25519MLKEM768, X25519, CurveP256, CurveP384, CurveP521].filter fun x =>
    (cfg.curvePreferences.length == 0 || cfg.curvePreferences.contains x) &&
    !(decide (version < VersionTLS13) && x == X25519MLKEM768)

/-- `defaultSupportedSignatureAlgorithms`. -/
def defaultSupportedSignatureAlgorithms : List UInt16 :=
  [0x0804, 0x0403, 0x0807, 0x0805, 0x0806, 0x0401, 0x0501, 0x0601, 0x0503, 0x0603, 0x0201, 0x0203]

/-- The checks of the configured names, before a hello is made and before it is sent. -/
def checkNames (cfg : Config) : Except Err Unit :=
  if cfg.serverName.length = 0 ∧ cfg.insecureSkipVerify = false ∧
      cfg.insecureServerNameToVerify.length = 0 then
    .error (.text ("tls: at least one of ServerName, InsecureSkipVerify or " ++
      "InsecureServerNameToVerify must be specified in the tls.Config"))
  else if cfg.nextProtos.any fun p => p.length == 0 || decide (p.length > 255) then
    .error (.text "tls: invalid NextProtos value")
  else if (cfg.nextProtos.map fun p => 1 + p.length).sum > 0xffff then
    .error (.text "tls: NextProtos values too large")
  else .ok ()

/-- The checks of the configuration before a hello is made. -/
def checkConfig (cfg : Config) : Except Err Unit := do
  checkNames cfg
  if cfg.supportedVersions.length = 0 then
    .error (.text "tls: no supported versions satisfy MinVersion and MaxVersion")
  else .ok ()

section Deps

variable (d : Deps)

/-- The hello of the configuration, before its random values.  The cipher suites are left out:
callers replace them. -/
def configHello (c : UConn) : ClientHelloMsg :=
  let maxVersion := c.config.supportedVersions.headD 0
  { vers := if maxVersion > VersionTLS12 then VersionTLS12 else maxVersion
    compressionMethods := [0]
    serverName := d.hostname c.config.serverName
    supportedCurves := c.config.curvePreferencesFor maxVersion
    alpnProtocols := c.config.nextProtos
    supportedVersions := c.config.supportedVersions
    extendedMasterSecret := !c.quic
    ocspStapling := !c.quic
    scts := !c.quic
    supportedPoints := if c.quic then [] else [0]
    secureRenegotiationSupported := !c.quic
    secureRenegotiation := if c.handshakes > 0 then c.clientFinished else []
    supportedSignatureAlgorithms :=
      if maxVersion ≥ VersionTLS12 then defaultSupportedSignatureAlgorithms else [] }

/-- The random values of a hello; a QUIC hello has no session id. -/
def drawSessionId : M Bytes := do
  let c ← get
  if c.quic then return [] else readRand d 32

/-- The common beginning of `makeClientHello` and `makeClientHelloForApplyPreset`. -/
def startClientHello : M ClientHelloMsg := do
  let c ← get
  ofExcept (checkConfig c.config)
  let random ← readRand d 32
  let sessionId ← drawSessionId d
  let hello := { configHello d c with random := random, sessionId := sessionId }
  if hello.supportedVersions.head? = some VersionTLS13 ∧ hello.supportedCurves.length = 0 then
    fail (.text "tls: no supported elliptic curves for ECDHE")
  else return hello

/-- The checks of the configured versions when ECH is configured. -/
def checkEchVersions (cfg : Config) : Except Err Unit :=
  if cfg.minVersion ≠ 0 ∧ cfg.minVersion < VersionTLS13 then
    .error (.text
      "tls: MinVersion must be >= VersionTLS13 if EncryptedClientHelloConfigList is populated")
  else if cfg.maxVersion ≠ 0 ∧ cfg.maxVersion ≤ VersionTLS12 then
    .error (.text
      "tls: MaxVersion must be >= VersionTLS13 if EncryptedClientHelloConfigList is populated")
  else .ok ()

/-- The configuration and cipher suite that are picked from an ECH configuration list. -/
def pickEch (list : Bytes) : M (EchConfig × EchCipher) := do
  match parseECHConfigList list with
  | none => panicWith "parseECHConfigList does not return"
  | some configs =>
    let configs ← ofExcept configs
    let config ← ofOption
      (.text "tls: EncryptedClientHelloConfigList contains no valid configs") (pickECHConfig configs)
    runIf (d.hpkeParsePublicKey config.kemID config.publicKey = false)
      (fail (.dependency "hpke: invalid public key"))
    let suite ← ofOption (.text "tls: no supported symmetric ciphersuites for ECH")
      (pickECHCipherSuite config.symmetricCipherSuite)
    return (config, suite)

/-- The info string of the HPKE context of a configuration. -/
def echInfo (config : EchConfig) : Bytes := [116, 108, 115, 32, 101, 99, 104, 0] ++ config.raw

/-- Sets the HPKE context of a configuration up. -/
def setupEchContext (config : EchConfig) (suite : EchCipher) : M EchClientContext := do
  let c ← get
  set (c.atDraw (c.draws + 1))
  let sender ← ofOption (.dependency "hpke: SetupSender")
    (d.hpkeSetupSender c.draws config.kemID suite.kdfID suite.aeadID config.publicKey
      (echInfo config))
  return { config := config
           hpkeContext := { secret := sender.2, seqNum := 0 }
           encapsulatedKey := sender.1
           kdfID := suite.kdfID
           aeadID := suite.aeadID }

/-- The common end of `makeClientHello` and `makeClientHelloForApplyPreset`: with ECH configured
the hello becomes an inner hello, and a context is set up. -/
def finishClientHello (hello : ClientHelloMsg) :
    M (ClientHelloMsg × Option EchClientContext) := do
  let c ← get
  match c.config.encryptedClientHelloConfigList with
  | none => return (hello, none)
  | some list =>
    ofExcept (checkEchVersions c.config)
    let picked ← pickEch d list
    let ctx ← setupEchContext d picked.1 picked.2
    return ({ hello with
        encryptedClientHello := [1]
        supportedPoints := []
        ticketSupported := false
        secureRenegotiationSupported := false
        extendedMasterSecret := false }, some ctx)

/-- `makeClientHelloForApplyPreset`. -/
def makeClientHelloForApplyPreset : M (ClientHelloMsg × Option EchClientContext) := do
  let hello ← startClientHello d
  finishClientHello d hello

/-! ## Keys -/

/-- The curves of `curveForCurveID`. -/
def classicalCurves : List UInt16 := [X25519, CurveP256, CurveP384, CurveP521]

/-- `generateECDHEKey`; `none` for a curve that is not supported or a failing random source. -/
def generateECDHEKey (curve : UInt16) : M (Option EcdhKey) := do
  if classicalCurves.contains curve then
    let c ← get
    set (c.atDraw (c.draws + 1))
    return (d.ecdhKey c.draws curve).map fun secret => ⟨curve, secret⟩
  else return none

/-- The error of a failed `generateECDHEKey`. -/
def errGenerateKey : Err := .dependency "ecdh: GenerateKey"

/-- `key.PublicKey().Bytes()`. -/
def EcdhKey.publicKey (k : EcdhKey) : Bytes := d.ecdhPublic k.curve k.secret

/-- `key.EncapsulationKey().Bytes()`. -/
def MlkemKey.encapsulationKey (k : MlkemKey) : Bytes := d.mlkemPublic k.seed

/-- The size of an ML-KEM seed. -/
def mlkemSeedSize : Nat := 64

/-- Makes the ML-KEM key of a hybrid share. -/
def generateMlkemKey : M MlkemKey := do
  let seed ← readRand d mlkemSeedSize
  return ⟨seed⟩

/-- The key shares that `makeClientHello` itself makes; the package keeps none of them. -/
def makeKeyShares (hello : ClientHelloMsg) : M (List KeyShare) := do
  match hello.supportedCurves with
  | [] => return []
  | curve :: _ =>
    if hello.supportedVersions.head? ≠ some VersionTLS13 then return []
    else if curve = X25519MLKEM768 then
      let key ← generateECDHEKey d X25519
      let ecdhe ← ofOption errGenerateKey key
      let mlkem ← generateMlkemKey d
      let x25519 := ecdhe.publicKey d
      return ⟨X25519MLKEM768, mlkem.encapsulationKey d ++ x25519⟩ ::
        if hello.supportedCurves.contains X25519 then [⟨X25519, x25519⟩] else []
    else
      let key ← generateECDHEKey d curve
      let ecdhe ← ofOption errGenerateKey key
      return [⟨curve, ecdhe.publicKey d⟩]

/-- The error of a wait that is cancelled. -/
def errWaitCancelled : Err := .alert "close_notify" "close notify"

/-- `quicGetTransportParameters`: parameters that were not set before are waited for.  All waits of a
connection end alike: what has been set stays, and so does a cancellation. -/
def quicGetTransportParameters : M Bytes := do
  let c ← get
  match c.quicTransportParams with
  | some params => return params
  | none => ofOption errWaitCancelled d.quicWait

/-- The transport parameters of the hello. -/
def makeTransportParameters : M (Option Bytes) := do
  let c ← get
  if c.quic then return some (← quicGetTransportParameters d) else return none

/-- `makeClientHello`. -/
def makeClientHello : M (ClientHelloMsg × Option EchClientContext) := do
  let hello ← startClientHello d
  let shares ← makeKeyShares d hello
  let params ← makeTransportParameters d
  finishClientHello d { hello with keyShares := shares, quicTransportParameters := params }

end Deps

/-! ## Versions and GREASE values -/

/-- The smallest and the largest version of a list, GREASE values left out; 0 for an empty one. -/
def versionRange (versions : List UInt16) : UInt16 × UInt16 :=
  (versions.filter fun v => !isGREASEUint16 v).foldl
    (fun (lo, hi) v => (if lo > v ∨ lo = 0 then v else lo, if hi < v ∨ hi = 0 then v else hi)) (0, 0)

/-- The lists of the `supported_versions` extensions. -/
def versionLists (exts : List Ext) : List (List UInt16) :=
  exts.filterMap fun | .supportedVersions vs => some vs | _ => none

/-- The version range of a specification that does not set one. -/
def rangeOfExtensions (exts : List Ext) : Except Err (UInt16 × UInt16) :=
  if (versionLists exts).any fun vs => decide (versionRange vs = (0, 0)) then
    .error (.text "SupportedVersions extension has invalid Versions field")
  else
    match versionLists exts with
    | [] => .ok (VersionTLS10, VersionTLS12)
    | [vs] => .ok (versionRange vs)
    | _ => .error (.text "uconn.Extensions contains separate SupportedVersions extensions")

/-- `makeSupportedVersions`; the number of versions is a sixteen-bit sum. -/
def makeSupportedVersions (minVers maxVers : UInt16) : List UInt16 :=
  (List.range (maxVers - minVers + 1).toNat).map fun i => maxVers - UInt16.ofNat i

/-- The range is one the package supports. -/
def checkRange (r : UInt16 × UInt16) : Except Err Unit :=
  if r.1 < VersionTLS10 ∨ r.1 > VersionTLS13 then
    .error (.text "uTLS does not support this min version")
  else if r.2 < VersionTLS10 ∨ r.2 > VersionTLS13 then
    .error (.text "uTLS does not support this max version")
  else .ok ()

/-- `SetTLSVers`. -/
def setTLSVers (minTLSVers maxTLSVers : UInt16) (specExtensions : List Ref) : M Unit := do
  let c ← get
  let r ← ofExcept (if minTLSVers = 0 ∧ maxTLSVers = 0 then
    rangeOfExtensions (specExtensions.map c.heap) else .ok (minTLSVers, maxTLSVers))
  ofExcept (checkRange r)
  modify (·.updHello fun h => { h with supportedVersions := makeSupportedVersions r.1 r.2 })
  runIf c.config.encryptedClientHelloConfigList.isNone
    (modify (·.updConfig fun cfg => { cfg with minVersion := r.1, maxVersion := r.2 }))

def ssl_grease_cipher : Nat := 0
def ssl_grease_group : Nat := 1
def ssl_grease_extension1 : Nat := 2
def ssl_grease_extension2 : Nat := 3
def ssl_grease_version : Nat := 4
def ssl_grease_signature_algorithm : Nat := 7
def ssl_grease_seed_len : Nat := 8

/-- `GetBoringGREASEValue`. -/
def getBoringGREASEValue (seed : List UInt16) (index : Nat) : UInt16 :=
  let ret := (seed.getD index 0 &&& 0xf0) ||| 0x0a
  ret ||| ret <<< 8

/-- Replaces GREASE values of a list by the one for the connection. -/
def regrease (seed : List UInt16) (index : Nat) (l : List UInt16) : List UInt16 :=
  l.map fun v => if isGREASEUint16 v then getBoringGREASEValue seed index else v

/-- The seed made of 16 random bytes. -/
def seedOfBytes (b : Bytes) : List UInt16 :=
  let seed := (List.range ssl_grease_seed_len).map fun i =>
    UInt16.ofNat ((b.getD (2 * i) 0).toNat + 256 * (b.getD (2 * i + 1) 0).toNat)
  if getBoringGREASEValue seed ssl_grease_extension1 =
      getBoringGREASEValue seed ssl_grease_extension2 then
    seed.set ssl_grease_extension2 (seed.getD ssl_grease_extension2 0 ^^^ 0x1010)
  else seed

/-! ## `ApplyPreset` -/

section Deps

variable (d : Deps)

/-- The GREASE seed: the one of the specification, if it has one. -/
def chooseGreaseSeed (specSeed : List UInt16) : M Unit := do
  if specSeed.any (· ≠ 0) then modify fun c => { c with greaseSeed := specSeed }
  else
    let b ← readRand d (2 * ssl_grease_seed_len)
    modify fun c => { c with greaseSeed := seedOfBytes b }

/-- The groups with an ML-KEM part. -/
def isHybrid (curve : UInt16) : Bool := curve == X25519MLKEM768 || curve == X25519Kyber768Draft00

/-- The public value of a hybrid share; the draft version has the parts the other way round. -/
def hybridShare (curve : UInt16) (ecdhe : EcdhKey) (mlkem : MlkemKey) : Bytes :=
  if curve = X25519Kyber768Draft00 then ecdhe.publicKey d ++ mlkem.encapsulationKey d
  else mlkem.encapsulationKey d ++ ecdhe.publicKey d

/-- Changes the private keys of the key shares. -/
def modifyKeys (f : KeySharePrivateKeys → KeySharePrivateKeys) : M Unit :=
  modify fun c => { c with keyShareKeys := f c.keyShareKeys }

/-- Makes the share of one group that is not a GREASE value and stores its private keys.  Of the
groups without an ML-KEM part only the key of the first one is stored. -/
def fillKeyShare (curve : UInt16) (preferredCurveIsSet : Bool) : M (Bytes × Bool) := do
  if isHybrid curve then
    let key ← generateECDHEKey d X25519
    let ecdhe ← ofOption errGenerateKey key
    let mlkem ← generateMlkemKey d
    modifyKeys fun k => { k with mlkem := some mlkem, mlkemEcdhe := some ecdhe }
    return (hybridShare d curve ecdhe mlkem, preferredCurveIsSet)
  else
    let key ← generateECDHEKey d curve
    let ecdhe ← ofOption (.text ("unsupported Curve in KeyShareExtension." ++
      "To mimic it, fill the Data(key) field manually")) key
    runIf (preferredCurveIsSet = false) (modifyKeys fun k => { k with ecdhe := some ecdhe })
    return (ecdhe.publicKey d, true)

/-- The loop over the shares of a `key_share` extension: `done` have been filled. -/
def fillKeyShares (seed : List UInt16) (r : Ref) :
    List KeyShare → List KeyShare → Bool → M Unit
  | _, [], _ => return ()
  | done, ks :: rest, preferred => do
    if isGREASEUint16 ks.group then
      let ks' : KeyShare :=
        ⟨getBoringGREASEValue seed ssl_grease_group, if ks.data.length = 0 then [0] else ks.data⟩
      storeExt r (.keyShare (done ++ ks' :: rest))
      fillKeyShares seed r (done ++ [ks']) rest preferred
    else
      storeExt r (.keyShare (done ++ ⟨ks.group, []⟩ :: rest))
      let share ← fillKeyShare d ks.group preferred
      storeExt r (.keyShare (done ++ ⟨ks.group, share.1⟩ :: rest))
      fillKeyShares seed r (done ++ [⟨ks.group, share.1⟩]) rest share.2

/-- The name that a `server_name` extension of the specification gets. -/
def sniName (c : UConn) (name : GoString) : GoString :=
  match c.config.encryptedClientHelloConfigList, c.echCtx with
  | some _, some ctx => ctx.config.publicName
  | _, _ => if name.length = 0 then c.config.serverName else name

/-- Adapts the extension at index `i` to the connection; counts the GREASE extensions. -/
def adaptExt (i : Nat) (r : Ref) (greaseSeen : Nat) : M Nat := do
  let c ← get
  match c.heap r with
  | .sni name =>
    storeExt r (.sni (sniName c name))
    return greaseSeen
  | .utlsGrease _ body =>
    if greaseSeen = 0 then
      storeExt r (.utlsGrease (getBoringGREASEValue c.greaseSeed ssl_grease_extension1) body)
      return 1
    else if greaseSeen = 1 then
      storeExt r (.utlsGrease (getBoringGREASEValue c.greaseSeed ssl_grease_extension2) [0])
      return 2
    else fail (.text "at most 2 grease extensions are supported")
  | .supportedCurves l =>
    storeExt r (.supportedCurves (regrease c.greaseSeed ssl_grease_group l))
    return greaseSeen
  | .signatureAlgorithms l =>
    storeExt r (.signatureAlgorithms (regrease c.greaseSeed ssl_grease_signature_algorithm l))
    return greaseSeen
  | .keyShare shares =>
    fillKeyShares d c.greaseSeed r [] shares false
    return greaseSeen
  | .supportedVersions l =>
    storeExt r (.supportedVersions (regrease c.greaseSeed ssl_grease_version l))
    return greaseSeen
  | .quicTransportParameters _ =>
    match if c.quic then c.quicTransportParams else none with
    | some tp =>
      let r' ← allocExt (.quicTransportParameters { rawData := some tp, marshalled := [] })
      modify fun c => { c with extensions := c.extensions.set i r' }
      return greaseSeen
    | none => return greaseSeen
  | _ => return greaseSeen

/-- The loop over the extensions. -/
def adaptExts : Nat → List Ref → Nat → M Unit
  | _, [], _ => return ()
  | i, r :: rs, greaseSeen => do
    let seen ← adaptExt d i r greaseSeen
    adaptExts (i + 1) rs seen

/-- The extension is an NPN extension. -/
def Ext.isNPN : Ext → Bool
  | .npn _ => true
  | _ => false

/-- The hello that `ApplyPreset` starts with: the one of the configuration, which already has a
random of 32 bytes and the null compression method. -/
def UConn.withHello (c : UConn) (made : ClientHelloMsg × Option EchClientContext) : UConn :=
  { c with
    hello := made.1, helloPskIdentities := .own [], keyShareKeys := {}, echCtx := made.2 }

/-- `ApplyPreset` up to the loop over the extensions. -/
def startPreset (p : ClientHelloSpec) : M Unit := do
  setTLSVers p.tlsVersMin p.tlsVersMax p.extensions
  let made ← makeClientHelloForApplyPreset d
  modify (·.withHello made)
  chooseGreaseSeed d p.greaseSeed
  modify fun c => c.updHello fun h =>
    { h with cipherSuites := regrease c.greaseSeed ssl_grease_cipher p.cipherSuites }
  let sessionId ← drawSessionId d
  modify fun c => { c.updHello fun h => { h with sessionId := sessionId } with
    extensions := p.extensions }

/-- `ApplyPreset`. -/
def applyPreset (p : ClientHelloSpec) : M Unit := do
  startPreset d p
  adaptExts d 0 p.extensions 0
  modify fun c => c.updHello fun h => { h with nextProtoNeg := c.exts.any (·.isNPN) }
  syncSessionExts

/-- Puts the extensions of a table on the heap. -/
def allocExts : List Ext → M (List Ref)
  | [] => return []
  | e :: es => do
    let r ← allocExt e
    let rs ← allocExts es
    return r :: rs

/-- Generates the specification of a preset. -/
def generateSpec (n : Nat) : M ClientHelloSpec := do
  let data ← ofOption (.text "tls: unknown ClientHelloID") (d.utlsIdToSpec n)
  let refs ← allocExts data.extensions
  return { cipherSuites := data.cipherSuites
           extensions := refs
           tlsVersMin := data.tlsVersMin
           tlsVersMax := data.tlsVersMax
           greaseSeed := data.greaseSeed }

/-- The specification of the connection; a preset's is generated once, `HelloCustom` has none. -/
def specOfID : M (Option ClientHelloSpec) := do
  let c ← get
  match c.clientHelloSpec, c.clientHelloID with
  | some spec, _ => return some spec
  | none, .preset n => do
    let spec ← generateSpec d n
    modify fun c => { c with clientHelloSpec := some spec }
    return some spec
  | none, _ => return none

/-- `applyPresetByID`. -/
def applyPresetByID : M Unit := do
  match ← specOfID d with
  | some spec => applyPreset d spec
  | none => return ()

end Deps

end Utls
