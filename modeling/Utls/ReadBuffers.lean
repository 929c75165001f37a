import Utls.PskExtension

/-!
# `Read` and what the buffer held before

`Ext.readInto` is `Read` of every extension type, into a buffer with any contents: the count it
returns, the buffer it leaves and its error, or a panic.  Most methods store every byte they count, so
that the front of the buffer afterwards is the encoding of the extension.  A few leave out bytes that
they expect to be zero already (`Ext.skipped`), and what the buffer held there before is sent instead.
Two can store bytes behind those they count (`Ext.exact`), which panics in a buffer of just the counted
length.  `readsAfresh_iff` says which values are read the same into every buffer.

The value is one whose `Len` has been called, which a caller needs to do to know how long the buffer
has to be: a GREASE ECH extension has drawn its bytes, and a QUIC one has marshalled its parameters.
-/

namespace Utls

open Wire List Option

/-- What a call of `Read` leaves behind, where `none` is `io.EOF`; the count is a signed `int`. -/
structure ReadOutcome where
  n : Int
  buf : Bytes
  err : Option Err

/-- The outcome of a method that does not touch the buffer before it fails, and does not panic. -/
def outcome (b : Bytes) : Except Err (Nat × Bytes) → Option ReadOutcome
  | .ok (n, b') => some ⟨n, b', none⟩
  | .error err => some ⟨0, b, some err⟩

/-! ## The methods that have not been followed by index yet -/

variable (parseIP : GoString → Bool)

/-- `SNIExtension.Read`. -/
def readSNI (serverName : GoString) (b : Bytes) : Except Err (Nat × Bytes) :=
  let hostName := hostnameInSNI parseIP serverName
  if hostName.length = 0 then .ok (0, b)
  else if b.length < 4 + 2 + 1 + 2 + hostName.length then .error .shortBuffer
  else
    let b := putU16 b 0 extensionServerName.toNat
    let b := putU16 b 2 (hostName.length + 5)
    let b := putU16 b 4 (hostName.length + 3)
    -- the type of the name, at 6, is not stored
    let b := putU16 b 7 hostName.length
    .ok (4 + 2 + 1 + 2 + hostName.length, copyAt b 9 hostName)

/-- `StatusRequestExtension.Read`. -/
def readStatusRequestInto (b : Bytes) : Except Err (Nat × Bytes) :=
  if b.length < 9 then .error .shortBuffer
  else
    let b := putU16 b 0 extensionStatusRequest.toNat
    .ok (9, ((b.set 2 0).set 3 5).set 4 1)

/-- `StatusRequestV2Extension.Read`. -/
def readStatusRequestV2Into (b : Bytes) : Except Err (Nat × Bytes) :=
  if b.length < 13 then .error .shortBuffer
  else
    let b := putU16 b 0 extensionStatusRequestV2.toNat
    let b := (((b.set 2 0).set 3 9).set 4 0).set 5 7
    .ok (13, ((b.set 6 2).set 7 0).set 8 4)

/-- `Read` of the extensions without a body that store their type only. -/
def readBare (id : UInt16) (b : Bytes) : Except Err (Nat × Bytes) :=
  if b.length < 4 then .error .shortBuffer else .ok (4, putU16 b 0 id.toNat)

/-- `FakeEarlyDataExtension.Read`. -/
def readEarlyData (b : Bytes) : Except Err (Nat × Bytes) :=
  if b.length < 4 then .error .shortBuffer
  else .ok (4, ((putU16 b 0 extensionEarlyData.toNat).set 2 0).set 3 0)

/-- `Read` of the extensions whose body is a string. -/
def readData (id : UInt16) (data b : Bytes) : Except Err (Nat × Bytes) :=
  if b.length < 4 + data.length then .error .shortBuffer
  else
    let b := putU16 b 0 id.toNat
    let b := putU16 b 2 data.length
    .ok (4 + data.length, if data.length > 0 then copyAt b 4 data else b)

/-- `QUICTransportParametersExtension.Read`. -/
def QUICTransportParametersExtension.readInto (e : QUICTransportParametersExtension) (b : Bytes) :
    Except Err (Nat × Bytes) :=
  if b.length < 4 + e.data.length then .error .shortBuffer
  else
    let b := putU16 b 0 extensionQUICTransportParameters.toNat
    let b := putU16 b 2 e.data.length
    .ok (4 + e.data.length, copyAt b 4 e.data)

/-- `UtlsPaddingExtension.Read`; the body is not stored.  `none` is a panic: a negative length may ask
for fewer than the four bytes that are stored. -/
def UtlsPaddingExtension.readInto (e : UtlsPaddingExtension) (b : Bytes) : Option ReadOutcome :=
  if !e.willPad then some ⟨0, b, none⟩
  else if (b.length : Int) < e.len then some ⟨0, b, some .shortBuffer⟩
  else if b.length < 4 then none
  else
    let b := putU16 b 0 utlsExtensionPadding.toNat
    some ⟨e.len, putU16 b 2 (e.paddingLen % 65536).toNat, none⟩

/-- Stores key shares. -/
def putKeyShares (b : Bytes) (i : Nat) (l : List KeyShare) : Bytes :=
  putEach (fun b i ks => copyAt (putU16 (putU16 b i ks.group.toNat) (i + 2) ks.data.length) (i + 4)
    ks.data) (fun ks => 4 + ks.data.length) b i l

/-- `KeyShareExtension.Read`. -/
def readKeyShares (keyShares : List KeyShare) : Bytes → Except Err (Nat × Bytes) :=
  readVec16 extensionKeyShare (keyShares.map fun ks => 4 + ks.data.length).sum
    (putKeyShares · · keyShares)

/-- `CookieExtension.Read`. -/
def readCookie (cookie : Bytes) : Bytes → Except Err (Nat × Bytes) :=
  readVec16 extensionCookie cookie.length (copyAt · · cookie)

/-- `RenegotiationInfoExtension.Read`. -/
def readRenegotiationInfo (conn : Bytes) : Bytes → Except Err (Nat × Bytes) :=
  readVec8 extensionRenegotiationInfo conn.length (copyAt · · conn) none

/-- `FakePreSharedKeyExtension.Read`. -/
def FakePreSharedKeyExtension.readInto (e : FakePreSharedKeyExtension) (b : Bytes) :
    Except Err (Nat × Bytes) :=
  let identities := e.identities.getD []
  let binders := e.binders.getD []
  if !e.omitEmptyPsk ∧ pskExtLen identities binders = 0 then .error .emptyPsk
  else if binders.all fun x => cipherSuitesTLS13.any fun c => x.length == c.hash.size then
    readPskIntoBytes b identities binders
  else .error (.text "tls: FakePreSharedKeyExtension.Read failed: invalid binder size")

/-- `GREASEEncryptedClientHelloExtension.Read`. -/
def GREASEEncryptedClientHelloExtension.readInto (g : GREASEEncryptedClientHelloExtension)
    (b : Bytes) : Except Err (Nat × Bytes) :=
  let len := 2 + 2 + 1 + 4 + 1 + 2 + g.encapsulatedKey.length + 2 + g.payload.length
  if b.length < len then .error .shortBuffer
  else
    let b := putU16 b 0 extensionEncryptedClientHello.toNat
    let b := putU16 b 2 (len - 4)
    let b := b.set 4 0
    let b := putU16 b 5 g.cipherSuite.kdfId.toNat
    let b := putU16 b 7 g.cipherSuite.aeadId.toNat
    let b := b.set 9 g.configId
    let b := putU16 b 10 g.encapsulatedKey.length
    let b := copyAt b 12 g.encapsulatedKey
    let b := putU16 b (12 + g.encapsulatedKey.length) g.payload.length
    .ok (len, copyAt b (12 + g.encapsulatedKey.length + 2) g.payload)

/-- `UtlsCompressCertExtension.Read`; the type is stored before the number of algorithms is
checked. -/
def readCompressCert (algorithms : List UInt16) (b : Bytes) : Option ReadOutcome :=
  if b.length < 4 + 1 + 2 * algorithms.length then some ⟨0, b, some .shortBuffer⟩
  else
    let b := putU16 b 0 utlsExtensionCompressCertificate.toNat
    let extLen := 2 * algorithms.length
    if extLen > 255 then some ⟨0, b, some (.text "too many certificate compression methods")⟩
    else
      let b := putU16 b 2 (extLen + 1)
      let b := b.set 4 (UInt8.ofNat extLen)
      some ⟨↑(4 + 1 + 2 * algorithms.length), putU16s b 5 algorithms, none⟩

/-- `Read`; `none` is a panic. -/
def Ext.readInto (e : Ext) (b : Bytes) : Option ReadOutcome :=
  match e with
  | sni name => outcome b (readSNI parseIP name b)
  | statusRequest => outcome b (readStatusRequestInto b)
  | supportedCurves curves => outcome b (readU16Vector16 extensionSupportedCurves curves b)
  | supportedPoints pts => outcome b (readPoints pts b)
  | signatureAlgorithms algs => outcome b (readU16Vector16 extensionSignatureAlgorithms algs b)
  | statusRequestV2 => outcome b (readStatusRequestV2Into b)
  | signatureAlgorithmsCert algs => outcome b (readU16Vector16 extensionSignatureAlgorithmsCert algs b)
  | alpn protos => outcome b (readProtocols extensionALPN protos b)
  | applicationSettings protos => outcome b (readProtocols utlsExtensionApplicationSettings protos b)
  | applicationSettingsNew protos =>
    outcome b (readProtocols utlsExtensionApplicationSettingsNew protos b)
  | sct => outcome b (readBare extensionSCT b)
  | generic id data => outcome b (readData id data b)
  | extendedMasterSecret => outcome b (readBare extensionExtendedMasterSecret b)
  | utlsGrease value body => outcome b (readData value body b)
  | utlsPadding e => e.readInto b
  | utlsCompressCert algs => readCompressCert algs b
  | keyShare shares => outcome b (readKeyShares shares b)
  | quicTransportParameters e => outcome b (e.readInto b)
  | pskKeyExchangeModes modes => outcome b (readModes modes b)
  | supportedVersions vs =>
    outcome b (readU16Vector8 extensionSupportedVersions vs "too many supported versions" b)
  | cookie c => outcome b (readCookie c b)
  | npn _ => outcome b (readBare extensionNextProtoNeg b)
  | renegotiationInfo _ conn => outcome b (readRenegotiationInfo conn b)
  | fakeChannelID old =>
    outcome b (readBare (if old then fakeOldExtensionChannelID else fakeExtensionChannelID) b)
  | fakeRecordSizeLimit limit => outcome b (readRecordSizeLimit limit b)
  | fakeTokenBinding major minor params => outcome b (readTokenBindingInto major minor params b)
  | fakeDelegatedCredentials algs => outcome b (readU16Vector16 fakeExtensionDelegatedCredentials algs b)
  | fakeEarlyData => outcome b (readEarlyData b)
  | sessionTicket e => outcome b (readData extensionSessionTicket e.ticket b)
  | utlsPreSharedKey e => outcome b (e.read b).2
  | fakePreSharedKey e => outcome b (e.readInto b)
  | greaseECH g => outcome b (g.readInto b)
  | trustAnchors e => (e.readInto b).bind (outcome b)

/-! ## The methods that store every byte -/

/-- A frame with one string behind its type and length. -/
lemma copyAt_frame {id : UInt16} {data b : Bytes} (h : 4 + data.length ≤ b.length) :
    copyAt (putU16 (putU16 b 0 id.toNat) 2 data.length) 4 data =
      extFrame id data ++ b.drop (4 + data.length) := by
  obtain ⟨a, c, d, v, r, ha, hc, hd, hv, rfl, hr⟩ :=
    exists_fields (b := b) (k := 0) (n := data.length) (by omega)
  obtain rfl := length_eq_zero_iff.mp hd
  have h4 : copyAt (u16 id.toNat ++ (u16 data.length ++ (v ++ r))) 4 data =
      u16 id.toNat ++ (u16 data.length ++ (data ++ r)) :=
    copyAt_mid (p := u16 id.toNat ++ u16 data.length) hv
  rw [hr, nil_append, putU16_type_length ha hc, h4, extFrame, vec16]
  simp only [append_assoc]

lemma readData_eq (id : UInt16) (data b : Bytes) :
    readData id data b =
      if b.length < 4 + data.length then .error .shortBuffer
      else .ok (filled (extFrame id data) b) := by
  dsimp only [readData]
  split_ifs with hshort hpos
  · rfl
  · rw [copyAt_frame (by omega), filled, length_extFrame]
  · rw [filled, length_extFrame, ← copyAt_frame (by omega),
      copyAt_nil (length_eq_zero_iff.mp (by omega))]

lemma QUICTransportParametersExtension.readInto_eq (e : QUICTransportParametersExtension)
    (b : Bytes) :
    e.readInto b =
      if b.length < 4 + e.data.length then .error .shortBuffer
      else .ok (filled (extFrame extensionQUICTransportParameters e.data) b) := by
  dsimp only [readInto]
  split_ifs with hshort
  · rfl
  · rw [copyAt_frame (by omega), filled, length_extFrame]

lemma readEarlyData_eq (b : Bytes) :
    readEarlyData b =
      if b.length < 4 then .error .shortBuffer else .ok (filled (extFrame extensionEarlyData []) b) := by
  unfold readEarlyData
  split_ifs with hshort
  · rfl
  · match b, hshort with
    | _ :: _ :: _ :: _ :: _, _ => rfl
    | [], h | [_], h | [_, _], h | [_, _, _], h => simp at h

lemma putKeyShares_mid (l : List KeyShare) (p a r : Bytes)
    (ha : a.length = (keyShareEntries l).length) :
    putKeyShares (p ++ (a ++ r)) p.length l = p ++ (keyShareEntries l ++ r) := by
  apply putEach_mid fun ks : KeyShare => u16 ks.group.toNat ++ vec16 ks.data
  · intro p a r ks hks
    obtain ⟨x, a, hx, rfl⟩ := exists_room (b := a) (n := 2) (by simp at hks; omega)
    obtain ⟨y, z, hy, rfl⟩ := exists_room (b := a) (n := 2) (by simp at hks; omega)
    have hz : z.length = ks.data.length := by simp at hks; omega
    have h1 : putU16 (p ++ (x ++ (y ++ (z ++ r)))) p.length ks.group.toNat =
        p ++ (u16 ks.group.toNat ++ (y ++ (z ++ r))) := putU16_mid hx _
    have h2 := putU16_mid (p := p ++ u16 ks.group.toNat) (r := z ++ r) hy ks.data.length
    have h3 := copyAt_mid (p := p ++ (u16 ks.group.toNat ++ u16 ks.data.length)) (r := r) hz
    simp only [append_assoc, length_append, length_u16, ← Nat.add_assoc] at h1 h2 h3 ⊢
    rw [h1, h2, h3, vec16]
    simp only [append_assoc]
  · intro ks
    simp
    omega
  · exact ha

lemma length_keyShareEntries (l : List KeyShare) :
    (keyShareEntries l).length = (l.map fun ks => 4 + ks.data.length).sum := by
  simp only [keyShareEntries, length_flatMap, length_append, length_u16, length_vec16,
    ← Nat.add_assoc]

/-- The fixed fields of a GREASE ECH extension. -/
lemma putFixed {d r : Bytes} (hd : d.length = 8) (s t kdf aead key : Nat) (configId : UInt8) :
    putU16 ((putU16 (putU16 ((u16 s ++ (u16 t ++ (d ++ r))).set 4 0) 5 kdf) 7 aead).set 9 configId)
      10 key =
    u16 s ++ (u16 t ++ ((0 :: (u16 kdf ++ (u16 aead ++ (configId :: u16 key)))) ++ r)) := by
  match d, hd with
  | [_, _, _, _, _, _, _, _], _ => rfl

lemma GREASEEncryptedClientHelloExtension.readInto_eq
    (g : GREASEEncryptedClientHelloExtension) (b : Bytes) :
    g.readInto b =
      if b.length < (Ext.greaseECH g).len parseIP then .error .shortBuffer
      else .ok (filled ((Ext.greaseECH g).wire parseIP) b) := by
  have hlen : ((Ext.greaseECH g).wire parseIP).length =
      4 + 8 + (g.encapsulatedKey.length + (2 + g.payload.length)) := by
    rw [Ext.length_wire parseIP (by simp) rfl, Ext.len]
    omega
  rw [Ext.len]
  dsimp only [readInto]
  split_ifs with hshort
  · rfl
  · obtain ⟨a, c, d, v, r, ha, hc, hd, hv, rfl, hr⟩ :=
      exists_fields (b := b) (k := 8) (n := g.encapsulatedKey.length + (2 + g.payload.length))
        (by omega)
    obtain ⟨w, v, hw, rfl⟩ := exists_room (b := v) (n := g.encapsulatedKey.length) (by omega)
    obtain ⟨x, y, hx, rfl⟩ := exists_room (b := v) (n := 2)
      (by rw [length_append] at hv; omega)
    have hy : y.length = g.payload.length := by
      simp only [length_append] at hv
      omega
    -- the fixed fields, and then the two strings
    generalize hfixed : (0 :: (u16 g.cipherSuite.kdfId.toNat ++ (u16 g.cipherSuite.aeadId.toNat ++
      (g.configId :: u16 g.encapsulatedKey.length))) : Bytes) = fixed
    have hfixedLen : fixed.length = 8 := by
      rw [← hfixed]
      rfl
    have h12 (s t : Nat) := copyAt_mid (p := u16 s ++ (u16 t ++ fixed)) (r := x ++ (y ++ r)) hw
    have h13 (s t : Nat) := putU16_mid (p := u16 s ++ (u16 t ++ (fixed ++ g.encapsulatedKey)))
      (r := y ++ r) hx g.payload.length
    have h15 (s t n : Nat) := copyAt_mid
      (p := u16 s ++ (u16 t ++ (fixed ++ (g.encapsulatedKey ++ u16 n)))) (r := r) hy
    simp only [append_assoc, length_append, length_u16, hfixedLen, ← Nat.add_assoc,
      Nat.reduceAdd] at h12 h13 h15
    rw [filled_eq hlen hr, append_assoc w, append_assoc x, putU16_type_length ha hc, putFixed hd,
      hfixed, h12, h13, h15, ← hfixed]
    have hbody : 2 + 2 + 1 + 4 + 1 + 2 + g.encapsulatedKey.length + 2 + g.payload.length - 4 =
        (0 :: (u16 g.cipherSuite.kdfId.toNat ++ (u16 g.cipherSuite.aeadId.toNat ++
          (g.configId :: (vec16 g.encapsulatedKey ++ vec16 g.payload))))).length := by
      simp
      omega
    have htotal : 2 + 2 + 1 + 4 + 1 + 2 + g.encapsulatedKey.length + 2 + g.payload.length =
        4 + 8 + (g.encapsulatedKey.length + (2 + g.payload.length)) := by
      omega
    rw [hbody, htotal, Ext.wire, extFrame, vec16]
    simp only [vec16, append_assoc, cons_append]

lemma FakePreSharedKeyExtension.readInto_eq
    {e : FakePreSharedKeyExtension} (h : (Ext.fakePreSharedKey e).readError parseIP = none)
    (b : Bytes) : e.readInto b = readPskIntoBytes b (e.identities.getD []) (e.binders.getD []) := by
  have hfull : ¬(!e.omitEmptyPsk ∧ (Ext.fakePreSharedKey e).len parseIP = 0) := fun hempty => by
    rw [Ext.readError, if_pos hempty] at h
    cases h
  rw [Ext.readError, if_neg hfull] at h
  rw [Ext.len] at hfull
  dsimp only [readInto]
  split_ifs at h ⊢ with hvalid
  rfl

lemma len_utlsPreSharedKey (e : UtlsPreSharedKeyExtension) :
    (Ext.utlsPreSharedKey e).len parseIP = e.len.1 := by
  rw [Ext.len, UtlsPreSharedKeyExtension.len]
  split_ifs <;> rfl

lemma UtlsPreSharedKeyExtension.read_eq
    {e : UtlsPreSharedKeyExtension} (h : (Ext.utlsPreSharedKey e).readError parseIP = none)
    (b : Bytes) : (e.read b).2 = readPskIntoBytes b e.identities e.binders := by
  rw [read]
  split_ifs with homit
  · rfl
  · have hfull : ¬e.len.1 = 0 := fun hzero => by
      rw [Ext.readError, len_utlsPreSharedKey, if_pos ⟨by simpa using homit, hzero⟩] at h
      cases h
    dsimp only
    rw [if_neg hfull, e.len_same.1, e.len_same.2]

lemma readCompressCert_eq {algorithms : List UInt16} (h : ¬2 * algorithms.length > 255)
    (b : Bytes) :
    readCompressCert algorithms b = outcome b (readU16Vector8 utlsExtensionCompressCertificate algorithms
      "too many certificate compression methods" b) := by
  dsimp only [readCompressCert, readU16Vector8, readVec8]
  have hnone : (some "too many certificate compression methods").filter
      (fun _ => 2 * algorithms.length > 255) = none := by simpa using h
  rw [hnone, if_neg h, Nat.add_comm 1 (2 * _)]
  split_ifs <;> rfl

lemma outcome_filled {w b : Bytes} {f : Except Err (Nat × Bytes)}
    (h : f = .ok (filled w b)) : outcome b f = some ⟨w.length, w ++ b.drop w.length, none⟩ := by
  rw [h]
  rfl

/-! ## The bytes that are left out -/

namespace Ext

variable (parseIP : GoString → Bool)

/-- The first byte that `Read` counts and does not store. -/
def skipped : Ext → Option Nat
  | sni name => if (hostnameInSNI parseIP name).length = 0 then none else some 6
  | statusRequest => some 5
  | statusRequestV2 => some 9
  | sct | extendedMasterSecret | npn _ | fakeChannelID _ => some 2
  | utlsPadding e => if e.willPad ∧ 0 < e.paddingLen then some 4 else none
  | trustAnchors e =>
    let stored := (protocolNames e.list).length + 6
    if stored < e.len then some stored else none
  | _ => none

variable {parseIP} {e : Ext} {b : Bytes}

lemma trustAnchors_fits {t : TrustAnchorsExtension}
    (h : (trustAnchors t).readError parseIP = none) : ¬t.len - 6 > 0xffff - 2 := fun hmany => by
  rw [readError, if_pos hmany] at h
  cases h

/-- A padding extension that stores all it counts pads with no byte. -/
lemma paddingLen_eq_zero {p : UtlsPaddingExtension} (hx : (utlsPadding p).exact = true)
    (hskip : (utlsPadding p).skipped parseIP = none) (hpad : p.willPad = true) :
    p.paddingLen = 0 := by
  have hpos : 0 ≤ p.paddingLen := by simpa [exact, hpad] using hx
  have hbody : ¬(p.willPad = true ∧ 0 < p.paddingLen) := fun h => by
    rw [skipped, if_pos h] at hskip
    cases hskip
  exact le_antisymm (not_lt.mp fun h => hbody ⟨hpad, h⟩) hpos

/-- A value of which no byte is left out: its encoding stands at the front of the buffer. -/
lemma readInto_written (hx : e.exact = true) (hskip : e.skipped parseIP = none)
    (herr : e.readError parseIP = none) (hlen : (e.wire parseIP).length ≤ b.length) :
    e.readInto parseIP b =
      some ⟨(e.wire parseIP).length, e.wire parseIP ++ b.drop (e.wire parseIP).length, none⟩ := by
  have hlong : e.checksBufferLast = false → ¬b.length < e.len parseIP := fun h => by
    rw [← length_wire parseIP (fun p hp => by rw [hp] at h; cases h) hx]
    omega
  have hfew {n : Nat} {err : Err} (h : e.readError parseIP = if n > 255 then some err else none) :
      ¬n > 255 := fun hmany => by
    rw [h, if_pos hmany] at herr
    cases herr
  cases e with
  | sni name =>
    rw [skipped] at hskip
    split_ifs at hskip with hnone
    simp only [readInto, readSNI, wire, hnone, if_true]
    rfl
  | statusRequest | statusRequestV2 | sct | extendedMasterSecret | npn | fakeChannelID => cases hskip
  | utlsPadding e =>
    cases hpad : e.willPad with
    | false => simp [readInto, UtlsPaddingExtension.readInto, wire, hpad]
    | true =>
      have hzero := paddingLen_eq_zero hx hskip hpad
      have hwire : (utlsPadding e).wire parseIP = extFrame utlsExtensionPadding [] := by
        simp [wire, hpad, hzero]
      rw [hwire] at hlen ⊢
      have hsame : e.readInto b = outcome b (readData utlsExtensionPadding [] b) := by
        have h4 : ¬b.length < 4 := by simpa using hlen
        have h4' : ¬(b.length : Int) < 4 := by omega
        simp [UtlsPaddingExtension.readInto, UtlsPaddingExtension.len, readData, hpad, hzero, h4, h4',
          outcome]
      exact hsame.trans (outcome_filled ((readData_eq _ _ b).trans (if_neg (by simpa using hlen))))
  | utlsCompressCert algs =>
    rw [readInto, readCompressCert_eq (hfew rfl)]
    exact outcome_filled ((readU16Vector8_eq _ _ _ b).trans
      ((if_neg (hlong rfl)).trans (if_neg (hfew rfl))))
  | supportedVersions =>
    exact outcome_filled ((readU16Vector8_eq _ _ _ b).trans
      ((if_neg (hlong rfl)).trans (if_neg (hfew rfl))))
  | pskKeyExchangeModes modes =>
    exact outcome_filled ((readModes_eq modes b).trans
      ((if_neg (hlong rfl)).trans (if_neg (hfew rfl))))
  | supportedCurves | signatureAlgorithms | signatureAlgorithmsCert | fakeDelegatedCredentials =>
    exact outcome_filled ((readU16Vector16_eq _ _ b).trans (if_neg (hlong rfl)))
  | supportedPoints pts => exact outcome_filled ((readPoints_eq pts b).trans (if_neg (hlong rfl)))
  | alpn | applicationSettings | applicationSettingsNew =>
    exact outcome_filled ((readProtocols_eq _ _ b).trans (if_neg (hlong rfl)))
  | fakeRecordSizeLimit limit =>
    exact outcome_filled ((readRecordSizeLimit_eq limit b).trans (if_neg (hlong rfl)))
  | fakeTokenBinding major minor params =>
    exact outcome_filled ((readTokenBindingInto_eq major minor params b).trans (if_neg (hlong rfl)))
  | trustAnchors e =>
    have hwire := length_wire parseIP (by simp) hx
    have hroom : ¬b.length < e.len := hlong rfl
    rw [readInto, e.readInto_eq (w := (trustAnchors e).wire parseIP) rfl b, if_neg hroom,
      if_neg (trustAnchors_fits herr), if_neg (not_lt.mpr hlen)]
    exact outcome_filled (congrArg (fun n => Except.ok (n, _)) hwire.symm)
  | generic | utlsGrease | sessionTicket =>
    exact outcome_filled ((readData_eq _ _ b).trans (if_neg (hlong rfl)))
  | keyShare shares =>
    exact outcome_filled ((readVec16_eq _ _ b (length_keyShareEntries shares)
      (putKeyShares_mid shares)).trans (if_neg (hlong rfl)))
  | quicTransportParameters e => exact outcome_filled ((e.readInto_eq b).trans (if_neg (hlong rfl)))
  | cookie c =>
    exact outcome_filled ((readVec16_eq _ c b rfl fun _ _ _ => copyAt_mid).trans (if_neg (hlong rfl)))
  | renegotiationInfo kind conn =>
    exact outcome_filled ((readVec8_eq _ conn b none rfl fun _ _ _ => copyAt_mid).trans
      (if_neg (hlong rfl)))
  | fakeEarlyData => exact outcome_filled ((readEarlyData_eq b).trans (if_neg (hlong rfl)))
  | greaseECH g => exact outcome_filled ((g.readInto_eq parseIP b).trans (if_neg (hlong rfl)))
  | utlsPreSharedKey e =>
    rw [wire, length_pskWire] at hlen
    refine outcome_filled ((UtlsPreSharedKeyExtension.read_eq parseIP herr b).trans ?_)
    rw [readPskIntoBytes_eq, if_neg (by omega), wire]
  | fakePreSharedKey e =>
    rw [wire, length_pskWire] at hlen
    refine outcome_filled ((FakePreSharedKeyExtension.readInto_eq parseIP herr b).trans ?_)
    rw [readPskIntoBytes_eq, if_neg (by omega), wire]

/-- A value that is refused: no byte is counted, and the buffer is only touched if there is something
to announce. -/
lemma readInto_refused {err : Err} (herr : e.readError parseIP = some err) :
    ∃ r, e.readInto parseIP b = some r ∧ r.n = 0 ∧ (e.len parseIP = 0 → r.buf = b) := by
  have hrefused {f : Except Err (Nat × Bytes)} {err : Err} (h : f = .error err) :
      ∃ r, outcome b f = some r ∧ r.n = 0 ∧ (e.len parseIP = 0 → r.buf = b) := by
    rw [h]
    exact ⟨_, rfl, rfl, fun _ => rfl⟩
  cases e with
  | utlsCompressCert algs =>
    rw [readError] at herr
    split_ifs at herr with hmany
    dsimp only [readInto, readCompressCert]
    rw [if_pos hmany]
    split_ifs <;> exact ⟨_, rfl, rfl, fun hlen => by simp [len] at hlen⟩
  | supportedVersions vs =>
    rw [readError] at herr
    split_ifs at herr with hmany
    rw [readInto, readU16Vector8_eq, if_pos hmany]
    split_ifs <;> exact hrefused rfl
  | pskKeyExchangeModes modes =>
    rw [readError] at herr
    split_ifs at herr with hmany
    rw [readInto, readModes_eq, if_pos hmany]
    split_ifs <;> exact hrefused rfl
  | trustAnchors e =>
    rw [readError] at herr
    split_ifs at herr with hmany
    rw [readInto, e.readInto_eq rfl, if_pos hmany]
    split_ifs <;> exact hrefused rfl
  | utlsPreSharedKey e =>
    rw [readError] at herr
    split_ifs at herr with hempty
    rw [len_utlsPreSharedKey] at hempty
    have homit : ¬e.omitEmptyPsk = true := by simpa using hempty.1
    refine @hrefused _ .emptyPsk ?_
    rw [UtlsPreSharedKeyExtension.read, if_neg homit]
    exact if_pos hempty.2
  | fakePreSharedKey e =>
    rw [readError, len] at herr
    split_ifs at herr with hempty hvalid
    · exact hrefused (if_pos hempty)
    · exact hrefused ((if_neg hempty).trans (if_neg hvalid))
  | _ => cases herr

/-- A value of which a byte is left out: what was there before stays. -/
lemma readInto_skips {j : Nat} (hskip : e.skipped parseIP = some j)
    (herr : e.readError parseIP = none) (hlen : e.len parseIP ≤ b.length) :
    ∃ n buf, e.readInto parseIP b = some ⟨n, buf, none⟩ ∧ buf[j]? = b[j]? ∧
      j < e.len parseIP := by
  cases e with
  | sni name =>
    rw [skipped] at hskip
    split_ifs at hskip with hnone
    cases hskip
    rw [len, if_neg hnone] at hlen ⊢
    dsimp only [readInto, readSNI]
    rw [if_neg hnone, if_neg (by omega)]
    refine ⟨_, _, rfl, ?_, by omega⟩
    rw [getElem?_copyAt (by omega) (by simp only [length_putU16]; omega)]
    simp [putU16]
  | statusRequest | statusRequestV2 | sct | extendedMasterSecret | npn | fakeChannelID =>
    cases hskip
    rw [len] at hlen ⊢
    refine ⟨_, _, congrArg (outcome b) (if_neg (by omega)), ?_, by omega⟩
    simp [putU16]
  | utlsPadding e =>
    rw [skipped] at hskip
    split_ifs at hskip with hbody
    cases hskip
    rw [len, UtlsPaddingExtension.len, if_pos hbody.1] at hlen ⊢
    have hpad : ¬(!e.willPad) = true := by simpa using hbody.1
    have hroom : ¬(b.length : Int) < e.len := by
      rw [UtlsPaddingExtension.len, if_pos hbody.1]
      omega
    refine ⟨_, _, (if_neg hpad).trans ((if_neg hroom).trans (if_neg (by omega))), ?_, by omega⟩
    simp [putU16]
  | trustAnchors e =>
    dsimp only [skipped] at hskip
    split_ifs at hskip with hfew
    cases hskip
    rw [len] at hlen ⊢
    have hwire : (extFrame utlsExtensionTrustAnchors (vec16 (protocolNames e.list))).length =
        (protocolNames e.list).length + 6 := by
      rw [length_extFrame, length_vec16]
      omega
    rw [readInto, e.readInto_eq rfl b, if_neg (by omega), if_neg (trustAnchors_fits herr),
      if_neg (by omega)]
    refine ⟨_, _, rfl, ?_, hfew⟩
    rw [← hwire, getElem?_append_right le_rfl, Nat.sub_self, getElem?_drop, Nat.add_zero]
  | _ => cases hskip

/-- A value that stores bytes behind those it counts panics in a buffer of just the counted length. -/
lemma readInto_panics (hx : e.exact ≠ true) (hskip : e.skipped parseIP = none)
    (herr : e.readError parseIP = none) (hlen : b.length = e.len parseIP) :
    e.readInto parseIP b = none := by
  cases e with
  | utlsPadding e =>
    obtain ⟨hpad, hneg⟩ : e.willPad = true ∧ e.paddingLen < 0 := by simpa [exact] using hx
    rw [len, UtlsPaddingExtension.len, if_pos hpad] at hlen
    have hpad' : ¬(!e.willPad) = true := by simpa using hpad
    have hroom : ¬(b.length : Int) < e.len := by
      rw [UtlsPaddingExtension.len, if_pos hpad]
      omega
    exact (if_neg hpad').trans ((if_neg hroom).trans (if_pos (by omega)))
  | trustAnchors e =>
    rw [exact, ne_eq, beq_iff_eq] at hx
    dsimp only [skipped] at hskip
    split_ifs at hskip with hfew
    rw [len] at hlen
    have hmore : b.length < (extFrame utlsExtensionTrustAnchors
        (vec16 (protocolNames e.list))).length := by
      rw [length_extFrame, length_vec16]
      omega
    rw [readInto, e.readInto_eq rfl b, if_neg (by omega), if_neg (trustAnchors_fits herr),
      if_pos hmore]
    rfl
  | _ => exact absurd rfl hx

end Ext

/-! ## Every type of the package -/

/-- A value of an extension type: one of `Ext`, or one of the two placeholders that implementations
of the interfaces embed. -/
inductive ExtensionValue where
  | ext (e : Ext)
  | unimplementedECH
  | unimplementedPreSharedKey

namespace ExtensionValue

variable (parseIP : GoString → Bool)

/-- `Len`, a signed `int`; `none` is a panic. -/
def len : ExtensionValue → Option Int
  | ext (.utlsPadding e) => some e.len
  | ext e => some (e.len parseIP)
  | unimplementedECH => some 0
  | unimplementedPreSharedKey => none

/-- `Read`; `none` is a panic. -/
def readInto (v : ExtensionValue) (b : Bytes) : Option ReadOutcome :=
  match v with
  | ext e => e.readInto parseIP b
  | unimplementedECH => some ⟨0, b, some (.text "tls: unimplemented ECHExtension")⟩
  | unimplementedPreSharedKey => none

/-- `Read` into two buffers of one length, long enough for `Len`: both times `Len` is returned, the
bytes it counts are the same, and those behind them stay. -/
def ReadsAfresh (v : ExtensionValue) : Prop :=
  ∃ n, v.len parseIP = some n ∧ ∀ b₁ b₂ : Bytes, b₁.length = b₂.length → n ≤ b₁.length →
    ∃ r₁ r₂, v.readInto parseIP b₁ = some r₁ ∧ v.readInto parseIP b₂ = some r₂ ∧
      r₁.n = n ∧ r₂.n = n ∧ r₁.buf.take n.toNat = r₂.buf.take n.toNat ∧
      r₁.buf.drop n.toNat = b₁.drop n.toNat ∧ r₂.buf.drop n.toNat = b₂.drop n.toNat

/-- The value is refused and announces nothing, or it is accepted, none of its bytes is left out or
stored behind the others, and a cached length is right. -/
def StoresAll : ExtensionValue → Prop
  | ext e =>
    if (e.readError parseIP).isSome then e.len parseIP = 0
    else e.exact = true ∧ e.skipped parseIP = none ∧
      ∀ p, e = .utlsPreSharedKey p → p.isBlank = true ∨ p.CacheFits p.identities p.binders
  | unimplementedECH => True
  | unimplementedPreSharedKey => False

end ExtensionValue

lemma length_wire_iff {e : Ext} (hx : e.exact = true) : (e.wire parseIP).length = e.len parseIP ↔
      ∀ p, e = .utlsPreSharedKey p → p.isBlank = true ∨ p.CacheFits p.identities p.binders := by
  by_cases hpsk : ∀ p, e ≠ .utlsPreSharedKey p
  · exact iff_of_true (Ext.length_wire parseIP hpsk hx) fun p hp => absurd hp (hpsk p)
  · push Not at hpsk
    obtain ⟨p, rfl⟩ := hpsk
    rw [len_utlsPreSharedKey, Ext.wire, length_pskWire, eq_comm,
      UtlsPreSharedKeyExtension.len_eq_iff]
    exact ⟨fun h p' hp' => Ext.utlsPreSharedKey.inj hp' ▸ h, fun h => h p rfl⟩

namespace ExtensionValue

variable {parseIP : GoString → Bool} {e : Ext}

/-- `Len` is the number of bytes a buffer needs, and only less for a negative padding length. -/
lemma len_ext (parseIP : GoString → Bool) (e : Ext) : ∃ n, (ext e).len parseIP = some n ∧
    n.toNat = e.len parseIP ∧ (e.exact = true → n = e.len parseIP) := by
  cases e with
  | utlsPadding e =>
    refine ⟨_, rfl, rfl, fun hx => ?_⟩
    rw [Ext.len, UtlsPaddingExtension.len]
    cases hpad : e.willPad with
    | false => rfl
    | true =>
      have hpos : 0 ≤ e.paddingLen := by simpa [Ext.exact, hpad] using hx
      rw [if_pos rfl]
      omega
  | _ => exact ⟨_, rfl, rfl, fun _ => rfl⟩

/-- What two buffers of the announced length show. -/
lemma ReadsAfresh.counted (h : (ext e).ReadsAfresh parseIP) (x y : UInt8) :
    ∃ r₁ r₂, e.readInto parseIP (replicate (e.len parseIP) x) = some r₁ ∧
      e.readInto parseIP (replicate (e.len parseIP) y) = some r₂ ∧ r₁.n.toNat = e.len parseIP ∧
      r₁.buf.take (e.len parseIP) = r₂.buf.take (e.len parseIP) := by
  obtain ⟨n, hn, hread⟩ := h
  obtain ⟨n', hn', hnat, -⟩ := len_ext parseIP e
  cases hn.symm.trans hn'
  obtain ⟨r₁, r₂, h₁, h₂, hlen, -, htake, -⟩ := hread (replicate (e.len parseIP) x)
    (replicate (e.len parseIP) y) (by simp) (by rw [length_replicate]; omega)
  rw [hnat] at htake
  exact ⟨r₁, r₂, h₁, h₂, hlen ▸ hnat, htake⟩

/-- A byte that is left out is 0 in one buffer and 1 in the other. -/
theorem ReadsAfresh.skipped (h : (ext e).ReadsAfresh parseIP) (herr : e.readError parseIP = none) :
    e.skipped parseIP = none := by
  by_contra hsome
  obtain ⟨j, hj⟩ := ne_none_iff_exists'.mp hsome
  have hlen (x : UInt8) : e.len parseIP ≤ (replicate (e.len parseIP) x).length := by simp
  obtain ⟨r₁, r₂, h₁, h₂, -, htake⟩ := h.counted 0 1
  obtain ⟨_, buf₁, hbuf₁, hj₁, hlt⟩ := Ext.readInto_skips hj herr (hlen 0)
  obtain ⟨_, buf₂, hbuf₂, hj₂, -⟩ := Ext.readInto_skips hj herr (hlen 1)
  cases h₁.symm.trans hbuf₁
  cases h₂.symm.trans hbuf₂
  have hbyte := congrArg (·[j]?) htake
  simp only [getElem?_take_of_lt hlt, hj₁, hj₂] at hbyte
  simp [hlt] at hbyte

/-- What is stored behind the counted bytes does not fit a buffer of their number. -/
theorem ReadsAfresh.exact (h : (ext e).ReadsAfresh parseIP) (herr : e.readError parseIP = none) :
    e.exact = true := by
  by_contra hx
  obtain ⟨r, -, hr, -⟩ := h.counted 0 0
  rw [Ext.readInto_panics hx (h.skipped herr) herr (by simp)] at hr
  cases hr

end ExtensionValue

/-- The values whose `Read` does not depend on what the buffer held before. -/
theorem readsAfresh_iff (parseIP : GoString → Bool) (v : ExtensionValue) :
    v.ReadsAfresh parseIP ↔ v.StoresAll parseIP := by
  cases v with
  | unimplementedECH => exact iff_of_true ⟨0, rfl, fun b1 b2 _ _ => ⟨_, _, rfl, rfl, by simp⟩⟩ trivial
  | unimplementedPreSharedKey => exact iff_of_false (fun ⟨_, h, _⟩ => by cases h) id
  | ext e =>
    rw [ExtensionValue.StoresAll]
    obtain ⟨n, hn, hnat, hexact⟩ := ExtensionValue.len_ext parseIP e
    cases herr : e.readError parseIP with
    | some err =>
      simp only [isSome_some, if_true]
      constructor
      · intro h
        obtain ⟨r, -, hr, -, hlen, -⟩ := h.counted 0 0
        obtain ⟨r', hr', hzero, -⟩ := Ext.readInto_refused herr
        cases hr.symm.trans hr'
        rw [← hlen, hzero]
        rfl
      · intro hzero
        have hx : e.exact = true := by
          cases e with
          | utlsPadding => cases herr
          | trustAnchors e => simp [Ext.len, TrustAnchorsExtension.len] at hzero
          | _ => rfl
        obtain rfl : n = 0 := by rw [hexact hx, hzero]; rfl
        refine ⟨0, hn, fun b₁ b₂ _ _ => ?_⟩
        obtain ⟨r₁, h₁, hn₁, hbuf₁⟩ := Ext.readInto_refused (b := b₁) herr
        obtain ⟨r₂, h₂, hn₂, hbuf₂⟩ := Ext.readInto_refused (b := b₂) herr
        refine ⟨r₁, r₂, h₁, h₂, hn₁, hn₂, by simp, ?_, ?_⟩
        · rw [hbuf₁ hzero]
        · rw [hbuf₂ hzero]
    | none =>
      constructor
      · intro h
        have hx := h.exact herr
        have hskip := h.skipped herr
        refine ⟨hx, hskip, (length_wire_iff parseIP hx).mp ?_⟩
        obtain ⟨n', hn', hread⟩ := h
        cases hn'.symm.trans hn
        obtain ⟨r, -, hr, -, hlen, -⟩ := hread
          (replicate (e.len parseIP + (e.wire parseIP).length) 0) _ rfl
          (by rw [hexact hx, length_replicate]; omega)
        cases hr.symm.trans (Ext.readInto_written hx hskip herr (by simp))
        rw [hexact hx] at hlen
        exact Int.ofNat.inj hlen
      · rintro ⟨hx, hskip, hcache⟩
        have hlen := (length_wire_iff parseIP hx).mpr hcache
        refine ⟨n, hn, fun b₁ b₂ heq hle => ?_⟩
        rw [hexact hx, ← hlen] at hle ⊢
        have hle₁ : (e.wire parseIP).length ≤ b₁.length := by omega
        refine ⟨_, _, Ext.readInto_written hx hskip herr hle₁,
          Ext.readInto_written hx hskip herr (heq ▸ hle₁), ?_⟩
        simp

/-- The two lengths of a `status_request` are whatever the buffer held. -/
theorem statusRequest_leaks :
    (Ext.statusRequest.readInto (fun _ => false) [0, 0, 0, 0, 0, 0, 0, 0, 0]).map (·.buf) =
        some [0, 5, 0, 5, 1, 0, 0, 0, 0] ∧
      (Ext.statusRequest.readInto (fun _ => false) [9, 9, 9, 9, 9, 9, 9, 9, 9]).map (·.buf) =
        some [0, 5, 0, 5, 1, 9, 9, 9, 9] ∧
      ¬ExtensionValue.ReadsAfresh (fun _ => false) (.ext .statusRequest) := by
  refine ⟨rfl, rfl, fun ⟨n, hn, hread⟩ => ?_⟩
  cases hn
  obtain ⟨r1, r2, h1, h2, -, -, htake, -⟩ :=
    hread [0, 0, 0, 0, 0, 0, 0, 0, 0] [9, 9, 9, 9, 9, 9, 9, 9, 9] rfl (by decide)
  cases h1
  cases h2
  exact absurd htake (by decide)

end Utls
