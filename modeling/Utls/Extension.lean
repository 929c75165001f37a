import Utls.Types

/-!
# ClientHello extensions

`Ext` has one constructor for every extension type of the package.  For each of them the
source has a method `Len`, which announces a length, and a method `Read`, which writes that
many bytes into a buffer; `Ext.len` and `Ext.read` are these two methods.  `Ext.wire` is the
encoding itself, the bytes `Read` leaves in a zeroed buffer that is large enough.

The lengths that `Read` writes are converted to bytes without a check, so the frames below use
the truncating writers `u8` and `u16`.
-/

namespace Utls

open Wire List

/-! ## Host names -/

/-- The host inside `[...]`, if the name is bracketed. -/
def stripBrackets (name : GoString) : GoString :=
  if name.head? = some 91 ∧ name.getLast? = some 93 then name.tail.dropLast else name

/-- Cuts an IPv6 zone: everything from the last `%`, unless that is the first character. -/
def stripZone (host : GoString) : GoString :=
  let upTo := host.reverse.dropWhile (· ≠ 37)
  if upTo.length ≤ 1 then host else upTo.tail.reverse

/-- `hostnameInSNI`: the empty string for IP addresses, otherwise the name without its trailing
dots.  `parseIP` is `net.ParseIP(host) != nil`. -/
def hostnameInSNI (parseIP : GoString → Bool) (name : GoString) : GoString :=
  if parseIP (stripZone (stripBrackets name)) then []
  else (name.reverse.dropWhile (· = 46)).reverse

/-- A name of `hostnameInSNI` does not end in a dot. -/
lemma getLast_hostnameInSNI (parseIP : GoString → Bool) (name : GoString) :
    (hostnameInSNI parseIP name).getLast? ≠ some 46 := by
  rw [hostnameInSNI]
  split_ifs
  · simp
  · rw [getLast?_reverse]
    intro h
    have hdrop := head?_dropWhile_not (fun b : UInt8 => decide (b = 46)) name.reverse
    rw [h] at hdrop
    simp at hdrop

/-! ## The data of the larger extensions -/

/-- `UtlsPaddingExtension`.  The lengths are signed, and nothing keeps a caller from a negative one. -/
structure UtlsPaddingExtension where
  paddingLen : Int
  willPad : Bool
  getPaddingLen : Option (Int → Int × Bool)

/-- `(*UtlsPaddingExtension).Update`. -/
def UtlsPaddingExtension.update (e : UtlsPaddingExtension) (unpaddedLen : Int) :
    UtlsPaddingExtension :=
  match e.getPaddingLen with
  | none => e
  | some f => { e with paddingLen := (f unpaddedLen).1, willPad := (f unpaddedLen).2 }

/-- `(*UtlsPaddingExtension).Len`. -/
def UtlsPaddingExtension.len (e : UtlsPaddingExtension) : Int :=
  if e.willPad then 4 + e.paddingLen else 0

/-- `BoringPaddingStyle`. -/
def boringPaddingStyle (unpaddedLen : Int) : Int × Bool :=
  if unpaddedLen > 0xff ∧ unpaddedLen < 0x200 then
    let paddingLen := 0x200 - unpaddedLen
    (if paddingLen ≥ 4 + 1 then paddingLen - 4 else 1, true)
  else (0, false)

lemma boringPaddingStyle_nonneg (n : Int) : 0 ≤ (boringPaddingStyle n).1 := by
  dsimp only [boringPaddingStyle]
  split_ifs <;> dsimp only <;> omega

/-- `SessionTicketExtension`. -/
structure SessionTicketExtension where
  session : Option SessionState
  ticket : Bytes
  initialized : Bool
  deriving DecidableEq

/-- `UtlsPreSharedKeyExtension` with the embedded `PreSharedKeyCommon`. -/
structure UtlsPreSharedKeyExtension where
  identities : List PskIdentity
  binders : List Bytes
  binderKey : Bytes
  earlySecret : Bytes
  session : Option SessionState
  cipherSuite : Option CipherSuiteTLS13
  cachedLength : Option Nat
  omitEmptyPsk : Bool
  skipBinderPatching : Bool
  deriving DecidableEq

/-- `FakePreSharedKeyExtension`; `none` is a nil slice. -/
structure FakePreSharedKeyExtension where
  identities : Option (List PskIdentity)
  binders : Option (List Bytes)
  omitEmptyPsk : Bool
  deriving DecidableEq

/-- `GREASEEncryptedClientHelloExtension`; `initDone` is the state of its `sync.Once`. -/
structure GREASEEncryptedClientHelloExtension where
  candidateCipherSuites : List HPKESymmetricCipherSuite
  cipherSuite : HPKESymmetricCipherSuite
  candidateConfigIds : List UInt8
  configId : UInt8
  encapsulatedKey : Bytes
  candidatePayloadLens : List UInt16
  payload : Bytes
  initDone : Bool
  deriving DecidableEq

/-- `TrustAnchorsExtension`.  The order for this connection is independent of the identifiers, which
may have been assigned again since it was chosen; `none` is the nil slice. -/
structure TrustAnchorsExtension where
  trustAnchors : List Bytes
  shuffle : Bool
  emitOrder : Option (List Bytes)
  deriving DecidableEq

/-- `QUICTransportParametersExtension`.  The transport parameters are marshalled once, by the
first call of `Len`; `marshalled` is the result of that call. -/
structure QUICTransportParametersExtension where
  rawData : Option Bytes
  marshalled : Bytes
  deriving DecidableEq

/-! ## The extension type -/

/-- The extensions of the package, under the names of their Go types. -/
inductive Ext where
  | sni (serverName : GoString)
  | statusRequest
  | supportedCurves (curves : List UInt16)
  | supportedPoints (supportedPoints : List UInt8)
  | signatureAlgorithms (supportedSignatureAlgorithms : List UInt16)
  | statusRequestV2
  | signatureAlgorithmsCert (supportedSignatureAlgorithms : List UInt16)
  | alpn (alpnProtocols : List GoString)
  | applicationSettings (supportedProtocols : List GoString)
  | applicationSettingsNew (supportedProtocols : List GoString)
  | sct
  | generic (id : UInt16) (data : Bytes)
  | extendedMasterSecret
  | utlsGrease (value : UInt16) (body : Bytes)
  | utlsPadding (e : UtlsPaddingExtension)
  | utlsCompressCert (algorithms : List UInt16)
  | keyShare (keyShares : List KeyShare)
  | quicTransportParameters (e : QUICTransportParametersExtension)
  | pskKeyExchangeModes (modes : List UInt8)
  | supportedVersions (versions : List UInt16)
  | cookie (cookie : Bytes)
  | npn (nextProtos : List GoString)
  | renegotiationInfo (renegotiation : RenegotiationSupport) (renegotiatedConnection : Bytes)
  | fakeChannelID (oldExtensionID : Bool)
  | fakeRecordSizeLimit (limit : UInt16)
  | fakeTokenBinding (majorVersion minorVersion : UInt8) (keyParameters : List UInt8)
  | fakeDelegatedCredentials (supportedSignatureAlgorithms : List UInt16)
  | fakeEarlyData
  | sessionTicket (e : SessionTicketExtension)
  | utlsPreSharedKey (e : UtlsPreSharedKeyExtension)
  | fakePreSharedKey (e : FakePreSharedKeyExtension)
  | greaseECH (e : GREASEEncryptedClientHelloExtension)
  | trustAnchors (e : TrustAnchorsExtension)

/-! ## Frames -/

/-- A vector with an unchecked one-byte length. -/
def vec8 (b : Bytes) : Bytes := u8 b.length ++ b

/-- A vector with an unchecked two-byte length. -/
def vec16 (b : Bytes) : Bytes := u16 b.length ++ b

@[simp] lemma length_vec8 (b : Bytes) : (vec8 b).length = 1 + b.length := by
  simp [vec8]

@[simp] lemma length_vec16 (b : Bytes) : (vec16 b).length = 2 + b.length := by
  simp [vec16]

/-- An extension: its type, the length of its body and the body. -/
def extFrame (id : UInt16) (body : Bytes) : Bytes := u16 id.toNat ++ vec16 body

@[simp] lemma length_extFrame (id : UInt16) (body : Bytes) :
    (extFrame id body).length = 4 + body.length := by
  simp [extFrame]; omega

/-- A list of sixteen-bit values. -/
def u16s (l : List UInt16) : Bytes := l.flatMap fun x => u16 x.toNat

@[simp] lemma length_u16s (l : List UInt16) : (u16s l).length = 2 * l.length := by
  induction l with
  | nil => rfl
  | cons x l ih => simp only [u16s, flatMap_cons, length_append, length_u16,
      length_cons] at ih ⊢; omega

/-- The entries of a `key_share` vector. -/
def keyShareEntries (l : List KeyShare) : Bytes :=
  l.flatMap fun ks => u16 ks.group.toNat ++ vec16 ks.data

/-- The names of a protocol list. -/
def protocolNames (l : List GoString) : Bytes := l.flatMap vec8

lemma length_protocolNames (l : List GoString) :
    (protocolNames l).length = (l.map fun s => 1 + s.length).sum := by
  simp only [protocolNames, length_flatMap, length_vec8]

/-- `pskExtLen`. -/
def pskExtLen (identities : List PskIdentity) (binders : List Bytes) : Nat :=
  if identities.length = 0 ∨ binders.length = 0 then 0
  else 4 + 2 + (identities.map fun i => 2 + i.label.length + 4).sum
    + 2 + (binders.map fun b => b.length + 1).sum

/-- The identities of a `pre_shared_key` extension. -/
def pskIdentityBytes (identities : List PskIdentity) : Bytes :=
  identities.flatMap fun i => vec16 i.label ++ u32 i.obfuscatedTicketAge.toNat

/-- The binders of a `pre_shared_key` extension. -/
def pskBinderBytes (binders : List Bytes) : Bytes := binders.flatMap vec8

/-- What `readPskIntoBytes` writes. -/
def pskWire (identities : List PskIdentity) (binders : List Bytes) : Bytes :=
  if identities.length = 0 ∨ binders.length = 0 then []
  else extFrame extensionPreSharedKey
    (vec16 (pskIdentityBytes identities) ++ vec16 (pskBinderBytes binders))

lemma length_pskIdentityBytes (l : List PskIdentity) :
    (pskIdentityBytes l).length = (l.map fun i => 2 + i.label.length + 4).sum := by
  simp [pskIdentityBytes, length_flatMap, Nat.add_assoc]

lemma length_pskBinderBytes (l : List Bytes) :
    (pskBinderBytes l).length = (l.map fun b => b.length + 1).sum := by
  simp [pskBinderBytes, length_flatMap, Nat.add_comm]

/-- `Read` of a pre-shared key extension writes as many bytes as `pskExtLen` computes. -/
lemma length_pskWire (identities : List PskIdentity) (binders : List Bytes) :
    (pskWire identities binders).length = pskExtLen identities binders := by
  unfold pskWire pskExtLen
  split_ifs with h
  · rfl
  · simp only [length_extFrame, length_append, length_vec16, length_pskIdentityBytes,
      length_pskBinderBytes]
    omega

namespace TrustAnchorsExtension

/-- `list`: the identifiers in the order they are emitted. -/
def list (e : TrustAnchorsExtension) : List Bytes := e.emitOrder.getD e.trustAnchors

/-- `Len`. -/
def len (e : TrustAnchorsExtension) : Nat :=
  2 + 2 + 2 + (e.trustAnchors.map fun ta => 1 + ta.length).sum

/-- The order, if there is one, is one of the present identifiers. -/
def Current (e : TrustAnchorsExtension) : Prop := ∀ o ∈ e.emitOrder, o.Perm e.trustAnchors

lemma Current.list_perm {e : TrustAnchorsExtension} (h : e.Current) :
    e.list.Perm e.trustAnchors := by
  unfold list
  cases ho : e.emitOrder with
  | none => exact Perm.refl _
  | some o => exact h o ho

end TrustAnchorsExtension

/-- The condition under which `Len` of a `UtlsPreSharedKeyExtension` is 0 without looking at the
cache: no session, and no identities or no binders. -/
def UtlsPreSharedKeyExtension.isBlank (e : UtlsPreSharedKeyExtension) : Bool :=
  e.session.isNone && (e.identities.length == 0 || e.binders.length == 0)

/-- The transport parameters that are sent. -/
def QUICTransportParametersExtension.data (e : QUICTransportParametersExtension) : Bytes :=
  e.rawData.getD e.marshalled

namespace Ext

variable (parseIP : GoString → Bool)

/-- The bytes of an extension. -/
def wire : Ext → Bytes
  | sni name =>
    let hostName := hostnameInSNI parseIP name
    if hostName.length = 0 then []
    else extFrame extensionServerName (vec16 (0 :: vec16 hostName))
  | statusRequest => extFrame extensionStatusRequest [1, 0, 0, 0, 0]
  | supportedCurves curves => extFrame extensionSupportedCurves (vec16 (u16s curves))
  | supportedPoints pts => extFrame extensionSupportedPoints (vec8 pts)
  | signatureAlgorithms algs => extFrame extensionSignatureAlgorithms (vec16 (u16s algs))
  | statusRequestV2 => extFrame extensionStatusRequestV2 [0, 7, 2, 0, 4, 0, 0, 0, 0]
  | signatureAlgorithmsCert algs => extFrame extensionSignatureAlgorithmsCert (vec16 (u16s algs))
  | alpn protos => extFrame extensionALPN (vec16 (protocolNames protos))
  | applicationSettings protos =>
    extFrame utlsExtensionApplicationSettings (vec16 (protocolNames protos))
  | applicationSettingsNew protos =>
    extFrame utlsExtensionApplicationSettingsNew (vec16 (protocolNames protos))
  | sct => extFrame extensionSCT []
  | generic id data => extFrame id data
  | extendedMasterSecret => extFrame extensionExtendedMasterSecret []
  | utlsGrease value body => extFrame value body
  | utlsPadding e =>
    if e.willPad then extFrame utlsExtensionPadding (List.replicate e.paddingLen.toNat 0) else []
  | utlsCompressCert algs => extFrame utlsExtensionCompressCertificate (vec8 (u16s algs))
  | keyShare shares => extFrame extensionKeyShare (vec16 (keyShareEntries shares))
  | quicTransportParameters e => extFrame extensionQUICTransportParameters e.data
  | pskKeyExchangeModes modes => extFrame extensionPSKModes (vec8 modes)
  | supportedVersions vs => extFrame extensionSupportedVersions (vec8 (u16s vs))
  | cookie c => extFrame extensionCookie (vec16 c)
  | npn _ => extFrame extensionNextProtoNeg []
  | renegotiationInfo _ conn => extFrame extensionRenegotiationInfo (vec8 conn)
  | fakeChannelID old =>
    extFrame (if old then fakeOldExtensionChannelID else fakeExtensionChannelID) []
  | fakeRecordSizeLimit limit => extFrame Utls.fakeRecordSizeLimit (u16 limit.toNat)
  | fakeTokenBinding major minor params =>
    extFrame fakeExtensionTokenBinding (major :: minor :: vec8 params)
  | fakeDelegatedCredentials algs =>
    extFrame fakeExtensionDelegatedCredentials (vec16 (u16s algs))
  | fakeEarlyData => extFrame extensionEarlyData []
  | sessionTicket e => extFrame extensionSessionTicket e.ticket
  | utlsPreSharedKey e => pskWire e.identities e.binders
  | fakePreSharedKey e => pskWire (e.identities.getD []) (e.binders.getD [])
  | greaseECH e =>
    extFrame extensionEncryptedClientHello
      (0 :: (u16 e.cipherSuite.kdfId.toNat ++ (u16 e.cipherSuite.aeadId.toNat ++
        (e.configId :: (vec16 e.encapsulatedKey ++ vec16 e.payload)))))
  | trustAnchors e => extFrame utlsExtensionTrustAnchors (vec16 (protocolNames e.list))

/-- The type that an extension is written under. -/
def typeId : Ext → UInt16
  | sni _ => extensionServerName
  | statusRequest => extensionStatusRequest
  | supportedCurves _ => extensionSupportedCurves
  | supportedPoints _ => extensionSupportedPoints
  | signatureAlgorithms _ => extensionSignatureAlgorithms
  | statusRequestV2 => extensionStatusRequestV2
  | signatureAlgorithmsCert _ => extensionSignatureAlgorithmsCert
  | alpn _ => extensionALPN
  | applicationSettings _ => utlsExtensionApplicationSettings
  | applicationSettingsNew _ => utlsExtensionApplicationSettingsNew
  | sct => extensionSCT
  | generic id _ => id
  | extendedMasterSecret => extensionExtendedMasterSecret
  | utlsGrease value _ => value
  | utlsPadding _ => utlsExtensionPadding
  | utlsCompressCert _ => utlsExtensionCompressCertificate
  | keyShare _ => extensionKeyShare
  | quicTransportParameters _ => extensionQUICTransportParameters
  | pskKeyExchangeModes _ => extensionPSKModes
  | supportedVersions _ => extensionSupportedVersions
  | cookie _ => extensionCookie
  | npn _ => extensionNextProtoNeg
  | renegotiationInfo _ _ => extensionRenegotiationInfo
  | fakeChannelID old => if old then fakeOldExtensionChannelID else fakeExtensionChannelID
  | fakeRecordSizeLimit _ => Utls.fakeRecordSizeLimit
  | fakeTokenBinding _ _ _ => fakeExtensionTokenBinding
  | fakeDelegatedCredentials _ => fakeExtensionDelegatedCredentials
  | fakeEarlyData => extensionEarlyData
  | sessionTicket _ => extensionSessionTicket
  | utlsPreSharedKey _ | fakePreSharedKey _ => extensionPreSharedKey
  | greaseECH _ => extensionEncryptedClientHello
  | trustAnchors _ => utlsExtensionTrustAnchors

/-- `Len`.  The caches that some `Len` methods fill are filled by `prepare`; here they are read.  Only a
padding extension can announce a negative length, which counts as 0 here. -/
def len : Ext → Nat
  | sni name =>
    let hostName := hostnameInSNI parseIP name
    if hostName.length = 0 then 0 else 4 + 2 + 1 + 2 + hostName.length
  | statusRequest => 9
  | supportedCurves curves => 6 + 2 * curves.length
  | supportedPoints pts => 5 + pts.length
  | signatureAlgorithms algs => 6 + 2 * algs.length
  | statusRequestV2 => 13
  | signatureAlgorithmsCert algs => 6 + 2 * algs.length
  | alpn protos | applicationSettings protos | applicationSettingsNew protos =>
    2 + 2 + 2 + (protos.map fun s => 1 + s.length).sum
  | sct => 4
  | generic _ data => 4 + data.length
  | extendedMasterSecret => 4
  | utlsGrease _ body => 4 + body.length
  | utlsPadding e => e.len.toNat
  | utlsCompressCert algs => 4 + 1 + 2 * algs.length
  | keyShare shares => 4 + 2 + (shares.map fun ks => 4 + ks.data.length).sum
  | quicTransportParameters e => 4 + e.data.length
  | pskKeyExchangeModes modes => 4 + 1 + modes.length
  | supportedVersions vs => 4 + 1 + 2 * vs.length
  | cookie c => 6 + c.length
  | npn _ => 4
  | renegotiationInfo _ conn => 5 + conn.length
  | fakeChannelID _ => 4
  | fakeRecordSizeLimit _ => 6
  | fakeTokenBinding _ _ params => 2 + 2 + 2 + 1 + params.length
  | fakeDelegatedCredentials algs => 6 + 2 * algs.length
  | fakeEarlyData => 4
  | sessionTicket e => 4 + e.ticket.length
  | utlsPreSharedKey e =>
    if e.isBlank then 0
    else e.cachedLength.getD (pskExtLen e.identities e.binders)
  | fakePreSharedKey e => pskExtLen (e.identities.getD []) (e.binders.getD [])
  | greaseECH e => 2 + 2 + 1 + 4 + 1 + 2 + e.encapsulatedKey.length + 2 + e.payload.length
  | trustAnchors e => e.len

/-- The conditions, apart from a short buffer, under which `Read` returns an error.  The two
pre-shared key extensions check them before they look at the buffer, the others after. -/
def readError : Ext → Option Err
  | utlsCompressCert algs =>
    if 2 * algs.length > 255 then some (.text "too many certificate compression methods") else none
  | pskKeyExchangeModes modes =>
    if modes.length > 255 then some (.text "too many PSK Key Exchange modes") else none
  | supportedVersions vs =>
    if 2 * vs.length > 255 then some (.text "too many supported versions") else none
  | utlsPreSharedKey e =>
    if !e.omitEmptyPsk ∧ (utlsPreSharedKey e).len parseIP = 0 then some .emptyPsk else none
  | fakePreSharedKey e =>
    if !e.omitEmptyPsk ∧ (fakePreSharedKey e).len parseIP = 0 then some .emptyPsk
    else if (e.binders.getD []).all fun b => (cipherSuitesTLS13.any fun c => b.length == c.hash.size)
    then none
    else some (.text "tls: FakePreSharedKeyExtension.Read failed: invalid binder size")
  | trustAnchors e =>
    if e.len - 6 > 0xffff - 2 then
      some (.text "tls: trust_anchors list does not fit a uint16 length")
    else none
  | _ => none

/-- The extensions whose `Read` looks at the size of the buffer last. -/
def checksBufferLast : Ext → Bool
  | utlsPreSharedKey _ | fakePreSharedKey _ => true
  | _ => false

/-- `Read` stores as many bytes as it counts.  A padding extension of a negative length stores four
bytes, and a trust anchors extension stores its order and counts its identifiers. -/
def exact : Ext → Bool
  | utlsPadding e => !e.willPad || decide (0 ≤ e.paddingLen)
  | trustAnchors e => (protocolNames e.list).length + 6 == e.len
  | _ => true

/-- What makes `Read` exact in every connection: padding lengths that are not negative, now and when
they are chosen anew, and an order of the present identifiers. -/
def Regular : Ext → Prop
  | utlsPadding e => 0 ≤ e.paddingLen ∧ ∀ f ∈ e.getPaddingLen, ∀ n, 0 ≤ (f n).1
  | trustAnchors e => e.Current
  | _ => True

/-- `Read` of an exact extension into a zeroed buffer of `avail` bytes: the first check that fails
decides the error. -/
def read (e : Ext) (avail : Nat) : Except Err Bytes :=
  let short := if avail < (e.wire parseIP).length then some .shortBuffer else none
  let failed :=
    if e.checksBufferLast then (e.readError parseIP).or short else short.or (e.readError parseIP)
  match failed with
  | some err => .error err
  | none => .ok (e.wire parseIP)

/-! ## What `Read` returns -/

lemma read_eq_ok {e : Ext} {avail : Nat} {b : Bytes} :
    e.read parseIP avail = .ok b ↔
      e.readError parseIP = none ∧ b = e.wire parseIP ∧ b.length ≤ avail := by
  unfold read
  by_cases hs : avail < (e.wire parseIP).length
  · have hne : ¬(e.readError parseIP = none ∧ b = e.wire parseIP ∧ b.length ≤ avail) := by
      rintro ⟨-, rfl, hle⟩
      omega
    cases hr : e.readError parseIP <;> cases e.checksBufferLast <;> simp_all
  · cases hr : e.readError parseIP <;> cases e.checksBufferLast <;> simp [hs]
    all_goals
      constructor
      · rintro rfl
        exact ⟨rfl, by omega⟩
      · rintro ⟨rfl, -⟩
        rfl

lemma Regular.exact {e : Ext} (h : e.Regular) : e.exact = true := by
  cases e with
  | utlsPadding e => simp [Ext.exact, h.1]
  | trustAnchors e =>
    have hsum := (h.list_perm.map fun ta => 1 + ta.length).sum_eq
    rw [Ext.exact, length_protocolNames, hsum, TrustAnchorsExtension.len, beq_iff_eq]
    omega
  | _ => rfl

lemma regular_update {p : UtlsPaddingExtension} (h : (utlsPadding p).Regular) (n : Int) :
    (utlsPadding (p.update n)).Regular := by
  obtain ⟨paddingLen, willPad, getPaddingLen⟩ := p
  cases getPaddingLen with
  | none => exact h
  | some f => exact ⟨h.2 f rfl n, h.2⟩

/-- Except for the cached length of a pre-shared key extension, `Len` announces exactly the
bytes that an exact `Read` writes. -/
lemma length_wire {e : Ext} (h : ∀ p, e ≠ utlsPreSharedKey p) (hx : e.exact = true) :
    (e.wire parseIP).length = e.len parseIP := by
  cases e with
  | utlsPreSharedKey p => exact absurd rfl (h p)
  | sni name => simp only [wire, len]; split_ifs <;> simp; omega
  | utlsPadding e =>
    simp only [wire, len, UtlsPaddingExtension.len]
    split_ifs with hpad
    · have hpos : 0 ≤ e.paddingLen := by simpa [Ext.exact, hpad] using hx
      rw [length_extFrame, length_replicate]
      omega
    · rfl
  | fakeChannelID old => simp [wire, len]
  | fakePreSharedKey e => simp [wire, len, length_pskWire]
  | trustAnchors e =>
    rw [Ext.exact, beq_iff_eq] at hx
    rw [wire, len, length_extFrame, length_vec16]
    omega
  | _ =>
    simp [wire, len, protocolNames, keyShareEntries, length_flatMap, u16s] <;> omega

end Ext

end Utls
