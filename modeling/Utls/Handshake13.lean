import Utls.Handshake12

/-!
# The TLS 1.3 handshake up to the second ClientHello

`Handshake` builds the handshake state and sends `Hello.Raw`; `startHandshake13` is the state that
the TLS 1.3 handshake begins with.  A server may answer with a HelloRetryRequest, and the client
then sends a second ClientHello: `processHelloRetryRequest` edits the private hello, then the
extension objects, and marshals the hello again.  With ECH it also decides whether the inner hello
was accepted, and seals the inner hello once more.

The messages of the server are the parameter `ServerHelloMsg`.  A transcript is the list of the
bytes that were written to the hash.
-/

namespace Utls

open Wire Exec

/-! ## The messages of the server -/

/-- `serverHelloMsg`, as far as the client reads it.  A cookie is only accepted if it is not empty.
-/
structure ServerHelloMsg where
  original : Bytes
  vers : UInt16
  random : Bytes
  sessionId : Bytes
  cipherSuite : UInt16
  compressionMethod : UInt8 := 0
  ocspStapling : Bool := false
  ticketSupported : Bool := false
  extendedMasterSecret : Bool := false
  secureRenegotiationSupported : Bool := false
  secureRenegotiation : Bytes := []
  alpnProtocol : GoString := []
  scts : List Bytes := []
  serverNameAck : Bool := false
  supportedVersion : UInt16
  /-- Group 0 is a missing key share. -/
  serverShare : KeyShare := ⟨0, []⟩
  selectedIdentityPresent : Bool := false
  selectedIdentity : UInt16 := 0
  cookie : Option Bytes := none
  selectedGroup : UInt16 := 0
  encryptedClientHello : Option Bytes := none
  cookie_ne : cookie ≠ some [] := by decide

lemma noCookie_ne : (none : Option Bytes) ≠ some [] := nofun

/-- `helloRetryRequestRandom`. -/
def helloRetryRequestRandom : Bytes :=
  [0xCF, 0x21, 0xAD, 0x74, 0xE5, 0x9A, 0x61, 0x11, 0xBE, 0x1D, 0x8C, 0x02, 0x1E, 0x65, 0xB8, 0x91,
    0xC2, 0xA2, 0x11, 0x16, 0x7A, 0xBB, 0x8C, 0x5E, 0x07, 0x9E, 0x09, 0xE2, 0xC8, 0xA8, 0x33, 0x9C]

/-! ## The state of the handshake -/

/-- `clientHandshakeStateTLS13`, with the fields of `Conn` that it sets. -/
structure HandshakeState13 where
  hello : ClientHelloMsg
  serverHello : ServerHelloMsg
  keyShareKeys : KeySharePrivateKeys
  session : Option SessionState
  binderKey : Bytes
  suite : Option CipherSuiteTLS13 := none
  transcript : Bytes := []
  echContext : Option EchClientContext := none
  innerTranscript : Bytes := []
  serverName : GoString := []
  echAccepted : Bool := false

/-- `mutualCipherSuiteTLS13`. -/
def mutualCipherSuiteTLS13 (have_ : List UInt16) (want : UInt16) : Option CipherSuiteTLS13 :=
  if have_.contains want then cipherSuiteTLS13ByID want else none

/-- The message has an extension that TLS 1.3 does not allow in it. -/
def ServerHelloMsg.forbidden (s : ServerHelloMsg) : Bool :=
  s.ocspStapling || s.ticketSupported || s.extendedMasterSecret || s.secureRenegotiationSupported ||
    s.secureRenegotiation.length != 0 || s.alpnProtocol.length != 0 || s.scts.length != 0

/-- `checkServerHelloOrHRR`. -/
def HandshakeState13.checkServerHelloOrHRR (hs : HandshakeState13) : Except Err HandshakeState13 :=
  let sh := hs.serverHello
  if sh.supportedVersion = 0 then
    .error (.alert "missing_extension" "tls: server selected TLS 1.3 using the legacy version field")
  else if sh.supportedVersion ≠ VersionTLS13 then
    .error (.alert "illegal_parameter"
      "tls: server selected an invalid version after a HelloRetryRequest")
  else if sh.vers ≠ VersionTLS12 then
    .error (.alert "illegal_parameter" "tls: server sent an incorrect legacy version")
  else if sh.forbidden then
    .error (.alert "unsupported_extension"
      "tls: server sent a ServerHello extension forbidden in TLS 1.3")
  else if hs.hello.sessionId ≠ sh.sessionId then
    .error (.alert "illegal_parameter" "tls: server did not echo the legacy session ID")
  else if sh.compressionMethod ≠ 0 then
    .error (.alert "illegal_parameter" "tls: server selected unsupported compression format")
  else
    let selected := mutualCipherSuiteTLS13 hs.hello.cipherSuites sh.cipherSuite
    if hs.suite.isSome ∧ selected ≠ hs.suite then
      .error (.alert "illegal_parameter" "tls: server changed cipher suite after a HelloRetryRequest")
    else
      match selected with
      | none => .error (.alert "illegal_parameter" "tls: server chose an unconfigured cipher suite")
      | some suite => .ok { hs with suite := some suite }

/-- The bytes of a message, as they are sent and hashed. -/
def HandshakeState13.helloBytes (hs : HandshakeState13) : M Bytes :=
  ofOption errBuilder hs.hello.marshal

section Deps

variable (d : Deps)

/-! ## The transcript of the inner hello -/

/-- `echTranscriptMsg`: the bytes that are written to the inner transcript. -/
def echTranscriptMsg (outer : ClientHelloMsg) (ech : EchClientContext) : M Bytes := do
  let inner ←
    if ech.expandedInnerHello.length > 0 ∧ ech.encodedInnerHello.length > 0 then
      ofOption (.text "tls: malformed encrypted client hello extension")
        (decodeInnerClientHello outer ech.encodedInnerHello)
    else do
      let outerExts ← extensionsList d
      let encoded ← ofOption errBuilder ((ech.innerHello).bind fun inner =>
        encodeInnerClientHelloReorderOuterExts inner ech.config.maxNameLength.toNat (some outerExts))
      ofOption (.text "tls: malformed encrypted client hello extension")
        (decodeInnerClientHello outer encoded)
  ofOption errBuilder inner.marshal

/-! ## The first ClientHello -/

/-- The private hello that `clientHandshake` makes from the public one.  Without a session the mark
for early data is removed; the bytes stay as they are. -/
def UConn.privateHello (c : UConn) : ClientHelloMsg :=
  { c.hello with
    secureRenegotiation :=
      if c.handshakes > 0 then c.clientFinished else c.hello.secureRenegotiation
    earlyData := c.hello.earlyData && c.session.isSome
    pskIdentities := c.pskIdentities }

/-- `Handshake` up to the point where the server negotiates TLS 1.3: the handshake state is built,
the hello sent, and `sh` is the answer. -/
def startHandshake13 (sh : ServerHelloMsg) : M HandshakeState13 := do
  buildHandshakeState d true
  let c ← get
  ofExcept (checkNames c.config)
  let hello := c.privateHello
  return { hello := hello
           serverHello := sh
           keyShareKeys := c.keyShareKeys
           session := c.session
           binderKey := c.binderKey
           echContext := c.echCtx
           serverName := hello.serverName }

/-- `handshake` of TLS 1.3 up to a HelloRetryRequest: the checks, and the transcripts of the hello.
-/
def beginHandshake13 (hs : HandshakeState13) : M HandshakeState13 := do
  let c ← get
  if c.handshakes > 0 then
    fail (.alert "protocol_version" "tls: server selected TLS 1.3 in a renegotiation")
  else if hs.keyShareKeys.ecdhe.isNone ∨ hs.hello.keyShares.length = 0 then
    fail (.alert "internal_error" "tls: internal error")
  else
    let hs ← ofExcept hs.checkServerHelloOrHRR
    let transcript ← hs.helloBytes
    match hs.echContext with
    | none => return { hs with transcript := transcript }
    | some ech =>
      let inner ← echTranscriptMsg d hs.hello ech
      return { hs with transcript := transcript, innerTranscript := inner }

/-! ## HelloRetryRequest -/

/-- What takes the place of the first hello in a transcript. -/
def messageHash (suite : CipherSuiteTLS13) (transcript : Bytes) : Bytes :=
  let chHash := d.hash suite.hash transcript
  [254, 0, 0, UInt8.ofNat chHash.length] ++ chHash

/-- Replaces the first occurrence of `old` by `new`, which has the same length. -/
def replaceFirst (old new : Bytes) : Bytes → Bytes
  | [] => []
  | x :: xs =>
    if (x :: xs).take old.length = old then new ++ (x :: xs).drop old.length
    else x :: replaceFirst old new xs

-- the confirmation value of ECH, `ExpandLabel(Extract(random), label, transcriptHash, 8)`
variable (confirmation : HashId → Bytes → String → Bytes → Bytes)

/-- Whether a HelloRetryRequest confirms that the inner hello was accepted. -/
def acceptsInner (suite : CipherSuiteTLS13) (hs : HandshakeState13) (ech : EchClientContext) :
    Except Err Bool :=
  match hs.serverHello.encryptedClientHello with
  | none => .ok false
  | some value =>
    if value.length ≠ 8 then
      .error (.alert "decode_error" "tls: malformed encrypted client hello extension")
    else
      let hrrHello := replaceFirst value (List.replicate 8 0) hs.serverHello.original
      .ok (confirmation suite.hash ((ech.innerHello.map fun m => m.random).getD [])
        "hrr ech accept confirmation"
        (d.hash suite.hash (messageHash d suite hs.innerTranscript ++ hrrHello)) == value)

/-- The transcripts after a HelloRetryRequest, and whether the inner hello goes on. -/
def retryTranscripts (suite : CipherSuiteTLS13) (hs : HandshakeState13) :
    M (HandshakeState13 × Bool) := do
  let c ← get
  let hs' := { hs with transcript := messageHash d suite hs.transcript ++ hs.serverHello.original }
  match hs.echContext with
  | some ech =>
    let accepted ← ofExcept (acceptsInner d confirmation suite hs ech)
    let hs' := { hs' with
      innerTranscript := messageHash d suite hs.innerTranscript ++ hs.serverHello.original }
    if accepted then
      return ({ hs' with serverName := c.config.serverName, echAccepted := true }, true)
    else return (hs', false)
  | none =>
    if hs.serverHello.encryptedClientHello.isSome then
      fail (.alert "unsupported_extension"
        "tls: unexpected encrypted client hello extension in serverHello")
    else return (hs', false)

/-- The key share of the request, in the hello that goes on: a key is made for a group that was
listed and had no share.  `sent` are the key shares of the hello that was sent. -/
def retryKeyShare (curveID : UInt16) (sent : List KeyShare) (keys : KeySharePrivateKeys)
    (hello : ClientHelloMsg) : M (ClientHelloMsg × KeySharePrivateKeys) := do
  if curveID = 0 then return (hello, keys)
  else if !hello.supportedCurves.contains curveID then
    fail (.alert "illegal_parameter" "tls: server selected unsupported group")
  else if sent.any (fun ks => ks.group == curveID) then
    fail (.alert "illegal_parameter" "tls: server sent an unnecessary HelloRetryRequest key_share")
  else if !classicalCurves.contains curveID then
    fail (.alert "internal_error" "tls: CurvePreferences includes unsupported curve")
  else
    let key ← generateECDHEKey d curveID
    let key ← ofOption errGenerateKey key
    return ({ hello with keyShares := [⟨curveID, key.publicKey d⟩] },
      { curveID := curveID, ecdhe := some key })

/-- The cookie and the key share of the request, in the hello that goes on. -/
def retryHello (sh : ServerHelloMsg) (sent : List KeyShare) (keys : KeySharePrivateKeys)
    (hello : ClientHelloMsg) : M (ClientHelloMsg × KeySharePrivateKeys) := do
  if sh.selectedGroup = 0 ∧ sh.cookie = none then
    fail (.alert "illegal_parameter" "tls: server sent an unnecessary HelloRetryRequest message")
  else if sh.serverShare.group ≠ 0 then
    fail (.alert "decode_error" "tls: received malformed key_share extension")
  else
    retryKeyShare d sh.selectedGroup sent keys { hello with cookie := sh.cookie.getD hello.cookie }

/-- The pre-shared key of the request: its age and binder are renewed, or it is dropped if the
server has chosen another hash.  `hashed` is the transcript in front of the second hello. -/
def retryPsk (suite : CipherSuiteTLS13) (hs : HandshakeState13) (hashed : Bytes)
    (hello : ClientHelloMsg) : M ClientHelloMsg := do
  if hello.pskIdentities.length = 0 then return hello
  else
    match hs.session with
    | none => panicWith "nil pointer dereference"
    | some s =>
      let pskSuite ← ofOption (.alert "internal_error" "tls: internal error")
        (cipherSuiteTLS13ByID s.cipherSuite)
      if pskSuite.hash ≠ suite.hash then return { hello with pskIdentities := [], pskBinders := [] }
      else
        let c ← get
        let hello := { hello with
          pskIdentities := hello.pskIdentities.modify 0 fun i =>
            { i with obfuscatedTicketAge := (sessionIdentity c s).obfuscatedTicketAge } }
        ofOption errBuilder (hello.marshalWithoutBinders.bind fun helloBytes =>
          hello.updateBinders [pskBinder d suite hs.binderKey (hashed ++ helloBytes)])

def Ext.isKeyShare : Ext → Bool
  | .keyShare _ => true
  | _ => false

def Ext.isCookie : Ext → Bool
  | .cookie _ => true
  | _ => false

/-- Writes `e` to every extension object of the list that is of its kind; the result says if there
is one. -/
def storeAll (kind : Ext → Bool) (e : Ext) : List Ref → M Bool
  | [] => return false
  | r :: rs => do
    let x ← loadExt r
    if kind x then
      storeExt r e
      let _ ← storeAll kind e rs
      return true
    else storeAll kind e rs

/-- Gives the key shares to every `KeyShareExtension` of the list. -/
def setKeyShareExts (shares : List KeyShare) : List Ref → M Bool :=
  storeAll Ext.isKeyShare (.keyShare shares)

/-- Gives the cookie to every `CookieExtension` of the list. -/
def setCookieExts (cookie : Bytes) : List Ref → M Bool := storeAll Ext.isCookie (.cookie cookie)

/-- `positionInvariantExtension`. -/
def Ext.positionInvariant : Ext → Bool
  | .utlsGrease _ _ | .utlsPadding _ | .utlsPreSharedKey _ | .fakePreSharedKey _ => true
  | _ => false

/-- `cookieSpliceRange`: the first and the last index at which the cookie may be put. -/
def cookieSpliceRange (exts : List Ext) : Nat × Nat :=
  match exts.findIdx? fun e => !e.positionInvariant with
  | none => if exts.length = 0 then (0, 0) else (1, 1)
  | some first =>
    (first, exts.length - (exts.reverse.findIdx? fun e => !e.positionInvariant).getD 0)

/-- Puts a new extension with the cookie into the list, at a random index of the range. -/
def spliceCookie (cookie : Bytes) : M Unit := do
  let c ← get
  let (lo, hi) := cookieSpliceRange c.exts
  let drawn ← tryIndex d (hi - lo + 1)
  let i ← ofOption (.dependency "newPRNG") drawn
  let r ← allocExt (.cookie cookie)
  modify fun c =>
    { c with extensions := c.extensions.take (lo + i) ++ r :: c.extensions.drop (lo + i) }

/-- Echoes the cookie: in the extensions for it, or in a new one. -/
def echoCookie (cookie : Bytes) : M Unit := do
  if cookie.length = 0 then return ()
  else
    let c ← get
    let found ← setCookieExts cookie c.extensions
    runIf (found = false) (spliceCookie d cookie)

/-- The part for hellos of the package: the extension objects get the key shares and the cookie, and
the hello is marshalled again. -/
def retryExtensions (sh : ServerHelloMsg) (hello : ClientHelloMsg) : M ClientHelloMsg := do
  if hello.pskIdentities.length > 0 then
    fail (.text "uTLS does not support reprocessing of PSK key triggered by HelloRetryRequest")
  else
    let c ← get
    let found ← setKeyShareExts hello.keyShares c.extensions
    if !found then
      fail (.text ("uTLS: received HelloRetryRequest, but keyshare not found among client's " ++
        "uconn.Extensions"))
    else
      echoCookie d (sh.cookie.getD [])
      marshalClientHelloNoECH d
      let c ← get
      return { hello with original := some c.raw }

/-- Seals the inner hello again and adds it to the inner transcript. -/
def retryInner (hs : HandshakeState13) (ech : EchClientContext) (inner : ClientHelloMsg) :
    M HandshakeState13 := do
  let ech ← computeAndUpdateOuterECHExtension d inner { ech with innerHello := some inner } false
  let c ← get
  let hello := { hs.hello with keyShares := inner.keyShares, original := some c.raw }
  let bytes ← echTranscriptMsg d hello ech
  return { hs with
    hello := hello, echContext := some ech, innerTranscript := hs.innerTranscript ++ bytes }

/-- `processHelloRetryRequest` of a connection whose hello is not Go's own, up to the point where
the second hello is sent.  The hello that goes on is the inner one if the server accepted it, and
then only that one is edited. -/
def processHelloRetryRequest (suite : CipherSuiteTLS13) (hs : HandshakeState13) :
    M HandshakeState13 := do
  let (hs', isInner) ← retryTranscripts d confirmation suite hs
  let chosen := if isInner then
      ((hs'.echContext.bind fun ech => ech.innerHello).getD hs'.hello) else hs'.hello
  let (hello, keys) ← retryHello d hs.serverHello hs'.hello.keyShares hs'.keyShareKeys chosen
  -- with ECH the hash of the first inner hello is used for the outer one as well
  let hashed := if hs'.echContext.isSome then hs'.innerTranscript else hs'.transcript
  let hello ← retryPsk d suite hs' hashed hello
  -- the extensions are edited from the outer hello
  let outer ← retryExtensions d hs.serverHello (if isInner then hs'.hello else hello)
  let hs' := { hs' with keyShareKeys := keys }
  let hs' ←
    match isInner, hs'.echContext with
    | true, some ech => retryInner d { hs' with hello := outer } ech { hello with earlyData := false }
    | _, _ => pure { hs' with hello := { outer with earlyData := false } }
  let bytes ← hs'.helloBytes
  return { hs' with transcript := hs'.transcript ++ bytes }

/-- `Handshake` up to the second hello; there is none if the server does not ask for it. -/
def secondHello (sh : ServerHelloMsg) : M (Option HandshakeState13) := do
  let hs ← startHandshake13 d sh
  let hs ← beginHandshake13 d hs
  match hs.suite with
  | none => panicWith "nil pointer dereference"
  | some suite =>
    if sh.random = helloRetryRequestRandom then
      let hs ← processHelloRetryRequest d confirmation suite hs
      return some hs
    else return none

end Deps

end Utls
