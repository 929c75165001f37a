import Utls.Extension

/-!
# The ClientHello message

`ClientHelloMsg` is `clientHelloMsg`, the private form of a ClientHello; its public twin
`PubClientHelloMsg` has the same fields, and the conversions between the two copy them one by
one, so that one record serves for both.

* `marshalMsgReorderOuterExts` is the writer of the standard library as the package changed it:
  with `echInner` it writes the encoded inner hello of ECH, which refers to extensions of the
  outer hello through `ech_outer_extensions`.
* `unmarshal` is the reader a server uses; it refuses repeated extensions and trailing bytes.
-/

namespace Utls

open Wire

/-- `clientHelloMsg` and `PubClientHelloMsg`; `original` is `PubClientHelloMsg.Raw`. -/
structure ClientHelloMsg where
  original : Option Bytes := none
  vers : UInt16 := 0
  random : Bytes := []
  sessionId : Bytes := []
  cipherSuites : List UInt16 := []
  compressionMethods : List UInt8 := []
  nextProtoNeg : Bool := false
  serverName : GoString := []
  ocspStapling : Bool := false
  supportedCurves : List UInt16 := []
  supportedPoints : List UInt8 := []
  ticketSupported : Bool := false
  sessionTicket : Bytes := []
  supportedSignatureAlgorithms : List UInt16 := []
  supportedSignatureAlgorithmsCert : List UInt16 := []
  secureRenegotiationSupported : Bool := false
  secureRenegotiation : Bytes := []
  extendedMasterSecret : Bool := false
  alpnProtocols : List GoString := []
  scts : Bool := false
  supportedVersions : List UInt16 := []
  cookie : Bytes := []
  keyShares : List KeyShare := []
  earlyData : Bool := false
  pskModes : List UInt8 := []
  pskIdentities : List PskIdentity := []
  pskBinders : List Bytes := []
  quicTransportParameters : Option Bytes := none
  encryptedClientHello : Bytes := []
  extensions : List UInt16 := []
  deriving DecidableEq

/-- The fields in front of the extensions. -/
def ClientHelloMsg.header (h : ClientHelloMsg) :
    UInt16 × Bytes × Bytes × List UInt16 × List UInt8 :=
  (h.vers, h.random, h.sessionId, h.cipherSuites, h.compressionMethods)

/-! ## Writing -/

/-- Concatenates what a checked builder was given; a failed part fails the whole. -/
def concatOpt : List (Option Bytes) → Option Bytes
  | [] => some []
  | x :: xs => x.bind fun b => (concatOpt xs).map (b ++ ·)

/-- A part that is only written when `c` holds. -/
def whenOpt (c : Bool) (x : Option Bytes) : Option Bytes := if c then x else some []

/-- An extension of a checked builder. -/
def extOpt (id : UInt16) (body : Option Bytes) : Option Bytes :=
  body.bind fun b => (lp16 b).map (u16 id.toNat ++ ·)

/-- Vectors of vectors: each entry is length-prefixed by `pre`, the whole by `lp16`. -/
def vecOpt (pre : Bytes → Option Bytes) (l : List Bytes) : Option Bytes :=
  (concatOpt (l.map pre)).bind lp16

/-- The extension types a client may refer to in `ech_outer_extensions`. -/
def echCompressible : List UInt16 :=
  [extensionPSKModes, extensionSupportedCurves, extensionALPN, extensionSignatureAlgorithms,
    extensionQUICTransportParameters, extensionKeyShare, extensionRenegotiationInfo, extensionSCT,
    extensionSupportedPoints, extensionSessionTicket, extensionStatusRequest,
    extensionExtendedMasterSecret, extensionSignatureAlgorithmsCert,
    utlsExtensionCompressCertificate, utlsExtensionApplicationSettings,
    utlsExtensionApplicationSettingsNew, extensionSupportedVersions, extensionEarlyData]

namespace ClientHelloMsg

variable (m : ClientHelloMsg)

/-- `server_name`. -/
def serverNameExt : Option Bytes :=
  whenOpt (m.serverName.length > 0) <|
    extOpt extensionServerName ((lp16 m.serverName).bind fun n => lp16 (0 :: n))

/-- `pre_shared_key`, always the last extension. -/
def preSharedKeyExt : Option Bytes :=
  whenOpt (m.pskIdentities.length > 0) <|
    extOpt extensionPreSharedKey <| concatOpt
      [(concatOpt (m.pskIdentities.map fun i =>
          (lp16 i.label).map (· ++ u32 i.obfuscatedTicketAge.toNat))).bind lp16,
        vecOpt lp8 m.pskBinders]

/-- `ech_outer_extensions` with the types `l`. -/
def echOuterExtensionsExt (l : List UInt16) : Option Bytes :=
  whenOpt (l.length > 0) (extOpt extensionECHOuterExtensions (lp8 (u16s l)))

/-- The types of `outerExts` that the inner hello refers to, in their order. -/
def echOuterTypes (outerExts : List UInt16) : List UInt16 :=
  outerExts.filter fun t => t &&& 0x0f0f == 0x0a0a || echCompressible.contains t

/-- The extension block of an encoded inner hello: the ECH marker, the real server name, the
references to the outer extensions, TLS 1.3 as the only version, and the pre-shared key. -/
def innerExtensions (outerExts : List UInt16) : Option Bytes :=
  let echOuterExts := echOuterTypes outerExts
  concatOpt
    [whenOpt (m.encryptedClientHello.length > 0)
        (extOpt extensionEncryptedClientHello (some m.encryptedClientHello)),
      m.serverNameExt,
      echOuterExtensionsExt echOuterExts,
      whenOpt (!echOuterExts.contains extensionSupportedVersions && m.supportedVersions.length > 0)
        (extOpt extensionSupportedVersions (lp8 (u16 VersionTLS13.toNat))),
      m.preSharedKeyExt]

/-- The types the inner hello of the standard path refers to. -/
def echOuterFields : List UInt16 :=
  (if m.quicTransportParameters.isSome then [extensionQUICTransportParameters] else []) ++
  (if m.ocspStapling then [extensionStatusRequest] else []) ++
  (if m.supportedCurves.length > 0 then [extensionSupportedCurves] else []) ++
  (if m.supportedSignatureAlgorithms.length > 0 then [extensionSignatureAlgorithms] else []) ++
  (if m.supportedSignatureAlgorithmsCert.length > 0 then [extensionSignatureAlgorithmsCert]
    else []) ++
  (if m.alpnProtocols.length > 0 then [extensionALPN] else []) ++
  (if m.cookie.length > 0 then [extensionCookie] else []) ++
  (if m.keyShares.length > 0 then [extensionKeyShare] else []) ++
  (if m.pskModes.length > 0 then [extensionPSKModes] else [])

/-- The extension block of the standard path. -/
def standardExtensions (echInner : Bool) : Option Bytes :=
  let versions := if echInner then
      m.supportedVersions.filter fun v => v == VersionTLS13 || v &&& 0x0f0f == 0x0a0a
    else m.supportedVersions
  concatOpt
    [m.serverNameExt,
      whenOpt (m.supportedPoints.length > 0 && !echInner)
        (extOpt extensionSupportedPoints (lp8 m.supportedPoints)),
      whenOpt (m.ticketSupported && !echInner) (extOpt extensionSessionTicket (some m.sessionTicket)),
      whenOpt (m.secureRenegotiationSupported && !echInner)
        (extOpt extensionRenegotiationInfo (lp8 m.secureRenegotiation)),
      whenOpt (m.extendedMasterSecret && !echInner) (extOpt extensionExtendedMasterSecret (some [])),
      whenOpt (m.scts && !echInner) (extOpt extensionSCT (some [])),
      whenOpt (m.earlyData && !echInner) (extOpt extensionEarlyData (some [])),
      whenOpt (m.quicTransportParameters.isSome && !echInner)
        (extOpt extensionQUICTransportParameters m.quicTransportParameters),
      whenOpt (m.encryptedClientHello.length > 0 && !echInner)
        (extOpt extensionEncryptedClientHello (some m.encryptedClientHello)),
      whenOpt (m.ocspStapling && !echInner) (extOpt extensionStatusRequest (some [1, 0, 0, 0, 0])),
      whenOpt (m.supportedCurves.length > 0 && !echInner)
        (extOpt extensionSupportedCurves (lp16 (u16s m.supportedCurves))),
      whenOpt (m.supportedSignatureAlgorithms.length > 0 && !echInner)
        (extOpt extensionSignatureAlgorithms (lp16 (u16s m.supportedSignatureAlgorithms))),
      whenOpt (m.supportedSignatureAlgorithmsCert.length > 0 && !echInner)
        (extOpt extensionSignatureAlgorithmsCert (lp16 (u16s m.supportedSignatureAlgorithmsCert))),
      whenOpt (m.alpnProtocols.length > 0 && !echInner)
        (extOpt extensionALPN (vecOpt lp8 m.alpnProtocols)),
      whenOpt (versions.length > 0) (extOpt extensionSupportedVersions (lp8 (u16s versions))),
      whenOpt (m.cookie.length > 0 && !echInner) (extOpt extensionCookie (lp16 m.cookie)),
      whenOpt (m.keyShares.length > 0 && !echInner)
        (extOpt extensionKeyShare ((concatOpt (m.keyShares.map fun ks =>
          (lp16 ks.data).map (u16 ks.group.toNat ++ ·))).bind lp16)),
      whenOpt (m.pskModes.length > 0 && !echInner) (extOpt extensionPSKModes (lp8 m.pskModes)),
      if echInner then echOuterExtensionsExt m.echOuterFields else some [],
      m.preSharedKeyExt]

/-- `marshalMsgReorderOuterExts`; `none` for `outerExts` is a nil slice, and the result is `none`
when a length does not fit its prefix or the random is not 32 bytes long. -/
def marshalMsgReorderOuterExts (echInner : Bool) (outerExts : Option (List UInt16)) :
    Option Bytes :=
  let exts := match echInner, outerExts with
    | true, some l => m.innerExtensions l
    | _, _ => m.standardExtensions echInner
  exts.bind fun extBytes =>
    (concatOpt
      [some (u16 m.vers.toNat),
        if m.random.length = 32 then some m.random else none,
        lp8 (if echInner then [] else m.sessionId),
        lp16 (u16s m.cipherSuites),
        lp8 m.compressionMethods,
        whenOpt (extBytes.length > 0) (lp16 extBytes)]).bind fun body =>
      (lp24 body).map (1 :: ·)

/-- `marshalMsg`. -/
def marshalMsg (echInner : Bool) : Option Bytes := m.marshalMsgReorderOuterExts echInner none

/-- `marshal`: the original bytes if there are any. -/
def marshal : Option Bytes :=
  match m.original with
  | some b => some b
  | none => m.marshalMsg false

/-- The length of the binders vector at the end of the message. -/
def bindersLen : Nat := 2 + (m.pskBinders.map fun b => 1 + b.length).sum

/-- `marshalWithoutBinders`: the message up to the identities of the pre-shared keys. -/
def marshalWithoutBinders : Option Bytes :=
  m.marshal.map fun full => full.take (full.length - m.bindersLen)

/-- `updateBinders` accepts new binders only with the lengths of the old ones. -/
def updateBinders (pskBinders : List Bytes) : Option ClientHelloMsg :=
  if pskBinders.map List.length = m.pskBinders.map List.length then
    some { m with pskBinders := pskBinders }
  else none

end ClientHelloMsg

/-! ## Reading -/

/-- `rawExtension`. -/
structure RawExtension where
  extType : UInt16
  data : Bytes
  deriving DecidableEq, Repr

/-- Takes one extension from the front of an extension block. -/
def readRawExtension (s : Bytes) : Option (RawExtension × Bytes) :=
  (readU16 s).bind fun (t, s) => (readLP16 s).map fun (d, r) => (⟨t, d⟩, r)

/-- `none` unless everything was consumed. -/
def atEnd {α : Type} : α × Bytes → Option α
  | (a, []) => some a
  | _ => none

/-- A non-empty list. -/
def nonEmpty {α : Type} (l : List α) : Option (List α) := if l.length = 0 then none else some l

lemma nonEmpty_eq_some {α : Type} {l l' : List α} : nonEmpty l = some l' ↔ l ≠ [] ∧ l = l' := by
  unfold nonEmpty
  cases l <;> simp

/-- The names of a `server_name` list: entries with an empty name are refused. -/
def readServerName (s : Bytes) : Option ((UInt8 × Bytes) × Bytes) :=
  (readU8 s).bind fun (t, s) => (readLP16 s).bind fun (n, r) =>
    (nonEmpty n).map fun n => ((t, n), r)

/-- The host name of a `server_name` list; a second one, or a trailing dot, is refused. -/
def pickServerName : GoString → List (UInt8 × Bytes) → Option GoString
  | cur, [] => some cur
  | cur, (t, n) :: rest =>
    if t ≠ 0 then pickServerName cur rest
    else if cur.length ≠ 0 ∨ n.getLast? = some 46 then none
    else pickServerName n rest

/-- One entry of a `key_share` list; an empty key is refused. -/
def readKeyShare (s : Bytes) : Option (KeyShare × Bytes) :=
  (readU16 s).bind fun (g, s) => (readLP16 s).bind fun (d, r) =>
    (nonEmpty d).map fun d => (⟨g, d⟩, r)

/-- One pre-shared key identity; an empty label is refused. -/
def readPskIdentity (s : Bytes) : Option (PskIdentity × Bytes) :=
  (readLP16 s).bind fun (l, s) => (readU32 s).bind fun (a, r) =>
    (nonEmpty l).map fun l => (⟨l, a⟩, r)

/-- A name or binder with a one-byte length, which may not be empty. -/
def readNonEmpty8 (s : Bytes) : Option (Bytes × Bytes) :=
  (readLP8 s).bind fun (n, r) => (nonEmpty n).map fun n => (n, r)

/-- A two-byte length-prefixed list that fills `data` and holds at least one sixteen-bit value. -/
def parseU16List (data : Bytes) : Option (List UInt16) :=
  (readLP16 data).bind atEnd |>.bind fun l => (nonEmpty l).bind (parseAll readU16)

/-- The pre-shared key identities and binders of an extension body. -/
def parsePreSharedKey (data : Bytes) : Option (List PskIdentity × List Bytes) :=
  (readLP16 data).bind fun (ids, r) =>
    (nonEmpty ids).bind fun ids => (parseAll readPskIdentity ids).bind fun ids =>
      (readLP16 r).bind atEnd |>.bind fun bs =>
        (nonEmpty bs).bind fun bs => (parseAll readNonEmpty8 bs).map fun bs => (ids, bs)

/-- The entries of a `key_share` extension body. -/
def parseKeyShares (data : Bytes) : Option (List KeyShare) :=
  (readLP16 data).bind atEnd |>.bind (parseAll readKeyShare)

namespace ClientHelloMsg

/-- Records one extension in the message.  `last` says that no extension follows. -/
def applyExtension (m : ClientHelloMsg) (e : RawExtension) (last : Bool) : Option ClientHelloMsg :=
  let data := e.data
  if e.extType = extensionServerName then
    ((readLP16 data).bind atEnd |>.bind nonEmpty |>.bind (parseAll readServerName)
      |>.bind (pickServerName m.serverName)).map fun n => { m with serverName := n }
  else if e.extType = extensionStatusRequest then
    (readU8 data).bind fun (t, s) => (readLP16 s).bind fun (_, s) => ((readLP16 s).bind atEnd).map
      fun _ => { m with ocspStapling := t == 1 }
  else if e.extType = extensionSupportedCurves then
    (parseU16List data).map fun l => { m with supportedCurves := m.supportedCurves ++ l }
  else if e.extType = extensionSupportedPoints then
    ((readLP8 data).bind atEnd |>.bind nonEmpty).map fun l => { m with supportedPoints := l }
  else if e.extType = extensionSessionTicket then
    some { m with ticketSupported := true, sessionTicket := data }
  else if e.extType = extensionSignatureAlgorithms then
    (parseU16List data).map fun l =>
      { m with supportedSignatureAlgorithms := m.supportedSignatureAlgorithms ++ l }
  else if e.extType = extensionSignatureAlgorithmsCert then
    (parseU16List data).map fun l =>
      { m with supportedSignatureAlgorithmsCert := m.supportedSignatureAlgorithmsCert ++ l }
  else if e.extType = extensionRenegotiationInfo then
    ((readLP8 data).bind atEnd).map fun b =>
      { m with secureRenegotiation := b, secureRenegotiationSupported := true }
  else if e.extType = extensionExtendedMasterSecret then
    if data.length = 0 then some { m with extendedMasterSecret := true } else none
  else if e.extType = extensionALPN then
    ((readLP16 data).bind atEnd |>.bind nonEmpty |>.bind (parseAll readNonEmpty8)).map fun l =>
      { m with alpnProtocols := m.alpnProtocols ++ l }
  else if e.extType = extensionSCT then
    if data.length = 0 then some { m with scts := true } else none
  else if e.extType = extensionSupportedVersions then
    ((readLP8 data).bind atEnd |>.bind nonEmpty |>.bind (parseAll readU16)).map fun l =>
      { m with supportedVersions := m.supportedVersions ++ l }
  else if e.extType = extensionCookie then
    ((readLP16 data).bind atEnd |>.bind nonEmpty).map fun c => { m with cookie := c }
  else if e.extType = extensionKeyShare then
    (parseKeyShares data).map fun l => { m with keyShares := m.keyShares ++ l }
  else if e.extType = extensionEarlyData then
    if data.length = 0 then some { m with earlyData := true } else none
  else if e.extType = extensionPSKModes then
    ((readLP8 data).bind atEnd).map fun l => { m with pskModes := l }
  else if e.extType = extensionQUICTransportParameters then
    some { m with quicTransportParameters := some data }
  else if e.extType = extensionPreSharedKey then
    if last then
      (parsePreSharedKey data).map fun (ids, bs) =>
        { m with pskIdentities := m.pskIdentities ++ ids, pskBinders := m.pskBinders ++ bs }
    else none
  else if e.extType = extensionEncryptedClientHello then
    some { m with encryptedClientHello := data }
  else
    -- unknown extensions are ignored
    some m

/-- Records the extensions one after the other; a repeated type is refused. -/
def applyExtensions (m : ClientHelloMsg) : List RawExtension → Option ClientHelloMsg
  | [] => some m
  | e :: rest =>
    if m.extensions.contains e.extType then none
    else (applyExtension { m with extensions := m.extensions ++ [e.extType] } e rest.isEmpty).bind
      fun m' => m'.applyExtensions rest

/-- `unmarshal`; `none` is a refused message. -/
def unmarshal (data : Bytes) : Option ClientHelloMsg :=
  (readN 4 data).bind fun (_, s) => (readU16 s).bind fun (vers, s) =>
  (readN 32 s).bind fun (random, s) => (readLP8 s).bind fun (sessionId, s) =>
  (readLP16 s).bind fun (suites, s) => (parseAll readU16 suites).bind fun cipherSuites =>
  (readLP8 s).bind fun (compressionMethods, s) =>
    let m : ClientHelloMsg :=
      { original := some data
        vers := vers
        random := random
        sessionId := sessionId
        cipherSuites := cipherSuites
        compressionMethods := compressionMethods
        secureRenegotiationSupported := cipherSuites.contains scsvRenegotiation }
    if s.length = 0 then some m
    else
      ((readLP16 s).bind atEnd).bind fun exts =>
        (parseAll readRawExtension exts).bind m.applyExtensions

end ClientHelloMsg

end Utls
