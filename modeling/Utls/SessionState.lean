import Utls.InnerRoundTrip

/-!
# Serialized sessions

`SessionState.Bytes` writes a session with a checked builder and `ParseSessionState` reads it back.
The layout depends on the role, the version and the early-data flag, the certificate list is the
one of a TLS 1.3 `Certificate` message with the staples in the leaf's entry, and the leaf of each
verified chain is left out.

`Session` is the whole record, where the client model uses the part `SessionState` of it; the type
of parsed certificates is a parameter with its `Raw` bytes and its parser.  The main result is
`parseSessionState_bytes`: what `Bytes` wrote is read back as `Session.stored`, the session without
the fields that its role and version do not serialize.
-/

namespace Utls

open Wire List Option

/-! ## Certificates -/

/-- `statusTypeOCSP`. -/
def statusTypeOCSP : UInt8 := 1

/-- The fields of a `Certificate` that a TLS 1.3 certificate list holds; a nil staple and a nil list
of timestamps are `none`. -/
structure Certificate where
  certificate : List Bytes := []
  ocspStaple : Option Bytes := none
  signedCertificateTimestamps : Option (List Bytes) := none
  deriving DecidableEq, Repr

namespace Certificate

/-- The extensions of the leaf's entry. -/
def leafExtensions (c : Certificate) : Option Bytes :=
  concatOpt
    [match c.ocspStaple with
      | none => some []
      | some staple => extOpt extensionStatusRequest ((lp24 staple).map (statusTypeOCSP :: ·)),
    match c.signedCertificateTimestamps with
      | none => some []
      | some scts => extOpt extensionSCT (vecOpt lp16 scts)]

/-- One entry of the list: a certificate and its extensions. -/
def marshalEntry (cert : Bytes) (exts : Option Bytes) : Option Bytes :=
  concatOpt [lp24 cert, exts.bind lp16]

/-- `marshalCertificate`: only the first entry has extensions. -/
def marshal (c : Certificate) : Option Bytes :=
  (concatOpt (c.certificate.mapIdx fun i cert =>
    marshalEntry cert (if i > 0 then some [] else c.leafExtensions))).bind lp24

/-- Takes one signed certificate timestamp; an empty one is refused. -/
def readSCT (scts : List Bytes) (s : Bytes) : Option (List Bytes × Bytes) :=
  (readLP16 s).bind fun (sct, r) => (nonEmpty sct).map fun sct => (scts ++ [sct], r)

/-- What `unmarshalCertificate` does with an extension of the leaf.  A second stapled response
replaces the first one, further timestamps are appended, and an unknown extension is passed over. -/
def applyExtension (c : Certificate) (e : RawExtension) : Option Certificate :=
  if e.extType = extensionStatusRequest then
    (readU8 e.data).bind fun (statusType, s) =>
      if statusType ≠ statusTypeOCSP then none
      else (readLP24 s).bind fun (staple, r) => (nonEmpty staple).bind fun staple =>
        atEnd ({ c with ocspStaple := some staple }, r)
  else if e.extType = extensionSCT then
    (readLP16 e.data).bind fun (sctList, r) => (nonEmpty sctList).bind fun sctList =>
      (drainAll none readSCT (c.signedCertificateTimestamps.getD []) sctList).bind fun scts =>
        atEnd ({ c with signedCertificateTimestamps := some scts }, r)
  else some c

/-- Takes one extension of the entry read last; those of later entries are not looked at. -/
def readEntryExtension (c : Certificate) (s : Bytes) : Option (Certificate × Bytes) :=
  (readRawExtension s).bind fun (e, r) =>
    if c.certificate.length > 1 then some (c, r) else (c.applyExtension e).map (·, r)

/-- Takes one entry of the list. -/
def readEntry (c : Certificate) (s : Bytes) : Option (Certificate × Bytes) :=
  (readLP24 s).bind fun (cert, s) => (readLP16 s).bind fun (extensions, r) =>
    (drainAll none readEntryExtension { c with certificate := c.certificate ++ [cert] }
      extensions).map (·, r)

/-- `unmarshalCertificate`, from the zero value. -/
def unmarshal (s : Bytes) : Option (Certificate × Bytes) :=
  (readLP24 s).bind fun (certList, r) => (drainAll none readEntry {} certList).map (·, r)

end Certificate

/-! ## Sessions -/

/-- Parsed certificates: their `Raw` bytes and `newCert` of the certificate cache, which parses
bytes or returns what it parsed from the same bytes before. -/
structure X509 (C : Type) where
  raw : C → Bytes
  newCert : Bytes → Except Err C

/-- `SessionState`; the handles that keep certificates in the cache are left out. -/
structure Session (C : Type) where
  extra : List Bytes := []
  earlyData : Bool := false
  version : UInt16 := 0
  isClient : Bool := false
  cipherSuite : UInt16 := 0
  createdAt : UInt64 := 0
  secret : Bytes := []
  extMasterSecret : Bool := false
  peerCertificates : List C := []
  ocspResponse : Option Bytes := none
  scts : Option (List Bytes) := none
  verifiedChains : List (List C) := []
  alpnProtocol : GoString := []
  useBy : UInt64 := 0
  ageAdd : UInt32 := 0
  ticket : Option Bytes := none
  deriving DecidableEq, Repr

/-- `addUint64`. -/
def addUint64 (v : UInt64) : Bytes := u32 (v.toNat / 4294967296) ++ u32 v.toNat

/-- `readUint64`, and `ReadUint64` of the byte string. -/
def readUint64 (s : Bytes) : Option (UInt64 × Bytes) :=
  (readU32 s).bind fun (hi, s) => (readU32 s).map fun (lo, r) =>
    (UInt64.ofNat (hi.toNat * 4294967296 + lo.toNat), r)

/-- A flag of one byte. -/
def flagByte (b : Bool) : Bytes := if b then [1] else [0]

/-- The error of a builder whose part did not fit its length. -/
def built (x : Option Bytes) : Except Err Bytes :=
  match x with
  | some b => .ok b
  | none => .error (.dependency "cryptobyte: length exceeds its prefix")

def errEmptyVerifiedChain : Err := .text "tls: internal error: empty verified chain"
def errInvalidSession : Err := .text "tls: invalid session encoding"
def errNoServerCertificates : Err := .text "tls: no server certificates in client session"

namespace Session

variable {C : Type} (x : X509 C)

/-- A verified chain without its leaf. -/
def chainBytes : List C → Except Err Bytes
  | [] => .error errEmptyVerifiedChain
  | _ :: rest => built ((concatOpt (rest.map fun cert => lp24 (x.raw cert))).bind lp24)

/-- The verified chains, one after the other. -/
def chainsBytes : List (List C) → Except Err Bytes
  | [] => .ok []
  | chain :: chains => do
    let b ← chainBytes x chain
    let rest ← chainsBytes chains
    return b ++ rest

/-- The certificate list that is stored with the session. -/
def certificate (s : Session C) : Certificate where
  certificate := s.peerCertificates.map x.raw
  ocspStaple := s.ocspResponse
  signedCertificateTimestamps := s.scts

/-- The application protocol, which is only stored for early data. -/
def alpnBytes (s : Session C) : Except Err Bytes :=
  if s.earlyData then built (lp8 s.alpnProtocol) else .ok []

/-- `Bytes`. -/
def bytes (s : Session C) : Except Err Bytes := do
  let secret ← built (lp8 s.secret)
  let extra ← built ((concatOpt (s.extra.map lp24)).bind lp24)
  let certificate ← built (s.certificate x).marshal
  let chains ← chainsBytes x s.verifiedChains
  let verifiedChains ← built (lp24 chains)
  let alpn ← s.alpnBytes
  return u16 s.version.toNat ++ ((if s.isClient then [2] else [1]) ++ (u16 s.cipherSuite.toNat ++
    (addUint64 s.createdAt ++ (secret ++ (extra ++ (flagByte s.extMasterSecret ++
      (flagByte s.earlyData ++ (certificate ++ (verifiedChains ++ (alpn ++
        if s.isClient ∧ s.version ≥ VersionTLS13 then
          addUint64 s.useBy ++ u32 s.ageAdd.toNat
        else []))))))))))

/-- What `ParseSessionState` reads before it looks into the parts. -/
structure Front where
  version : UInt16
  typ : UInt8
  cipherSuite : UInt16
  createdAt : UInt64
  secret : Bytes
  extra : Bytes
  extMasterSecret : UInt8
  earlyData : UInt8
  cert : Certificate

/-- The first condition of `ParseSessionState`. -/
def readFront (s : Bytes) : Option (Front × Bytes) :=
  (readU16 s).bind fun (version, s) => (readU8 s).bind fun (typ, s) =>
  if typ ≠ 1 ∧ typ ≠ 2 then none
  else (readU16 s).bind fun (cipherSuite, s) => (readUint64 s).bind fun (createdAt, s) =>
    (readLP8 s).bind fun (secret, s) => (readLP24 s).bind fun (extra, s) =>
    (readU8 s).bind fun (extMasterSecret, s) => (readU8 s).bind fun (earlyData, s) =>
    (nonEmpty secret).bind fun secret => (Certificate.unmarshal s).map fun (cert, r) =>
      (⟨version, typ, cipherSuite, createdAt, secret, extra, extMasterSecret, earlyData, cert⟩, r)

/-- A failed read is an invalid encoding. -/
def encoded {α : Type} : Option α → Except Err α
  | some a => .ok a
  | none => .error errInvalidSession

/-- A flag must be zero or one. -/
def readFlag (b : UInt8) : Except Err Bool :=
  if b = 0 then .ok false else if b = 1 then .ok true else .error errInvalidSession

/-- Takes one certificate of a chain. -/
def readChainCert (chain : List C) (s : Bytes) : Except Err (List C × Bytes) := do
  let (cert, r) ← encoded (readLP24 s)
  let c ← x.newCert cert
  return (chain ++ [c], r)

/-- Takes one verified chain and puts the leaf in front of it. -/
def readChain (peerCertificates : List C) (chains : List (List C)) (s : Bytes) :
    Except Err (List (List C) × Bytes) := do
  let (certList, r) ← encoded (readLP24 s)
  match peerCertificates with
  | [] => throw errInvalidSession
  | leaf :: _ =>
    let chain ← drainAll (throw errInvalidSession) (readChainCert x) [leaf] certList
    return (chains ++ [chain], r)

/-- Takes the application protocol, which is only there for early data. -/
def readAlpn (earlyData : Bool) (s : Bytes) : Except Err (Bytes × Bytes) :=
  if earlyData then encoded (readLP8 s) else .ok ([], s)

/-- The fields at the end, which depend on the role and the version. -/
def readTail (ss : Session C) (typ : UInt8) (s : Bytes) : Except Err (Session C) :=
  if typ ≠ 2 then
    if s ≠ [] then throw errInvalidSession else return ss
  else if ss.peerCertificates.length = 0 then throw errNoServerCertificates
  else if ss.version < VersionTLS13 then
    if s ≠ [] then throw errInvalidSession else return { ss with isClient := true }
  else do
    let (useBy, s) ← encoded (readUint64 s)
    let (ageAdd, s) ← encoded (readU32 s)
    if s ≠ [] then throw errInvalidSession
    return { ss with isClient := true, useBy := useBy, ageAdd := ageAdd }

end Session

/-- `ParseSessionState`. -/
def parseSessionState {C : Type} (x : X509 C) (data : Bytes) : Except Err (Session C) := do
  let (front, s) ← Session.encoded (Session.readFront data)
  let extra ← Session.encoded (parseAll readLP24 front.extra)
  let extMasterSecret ← Session.readFlag front.extMasterSecret
  let earlyData ← Session.readFlag front.earlyData
  let peerCertificates ← front.cert.certificate.mapM x.newCert
  let (chainList, s) ← Session.encoded (readLP24 s)
  let verifiedChains ←
    drainAll (throw errInvalidSession) (Session.readChain x peerCertificates) [] chainList
  let (alpnProtocol, s) ← Session.readAlpn earlyData s
  Session.readTail
    { extra := extra
      earlyData := earlyData
      version := front.version
      cipherSuite := front.cipherSuite
      createdAt := front.createdAt
      secret := front.secret
      extMasterSecret := extMasterSecret
      peerCertificates := peerCertificates
      ocspResponse := front.cert.ocspStaple
      scts := front.cert.signedCertificateTimestamps
      verifiedChains := verifiedChains
      alpnProtocol := alpnProtocol } front.typ s

/-! ## What a checked builder writes -/

/-- A vector with an unchecked three-byte length. -/
def vec24 (b : Bytes) : Bytes := u24 b.length ++ b

@[simp] lemma length_vec24 (b : Bytes) : (vec24 b).length = 3 + b.length := by
  simp [vec24]

lemma vec24_ne_nil (b : Bytes) : vec24 b ≠ [] := by
  simp [vec24, u24]

variable {b : Bytes}

lemma readLP24_vec24 (h : b.length < 16777216) (r : Bytes) :
    readLP24 (vec24 b ++ r) = some (b, r) := by
  exact readLP24_u24 h r

/-- The builder `x` succeeds exactly when `P` holds, and then it has written `b`. -/
def Builds (x : Option Bytes) (P : Prop) (b : Bytes) : Prop :=
  ∀ c, x = some c ↔ P ∧ c = b

namespace Builds

variable {x : Option Bytes} {xs : List (Option Bytes)} {P Q : Prop} {b b' : Bytes}

lemma of_some (b : Bytes) : Builds (some b) True b := by
  intro c
  rw [some.injEq, true_and]
  exact eq_comm

lemma nil : Builds (concatOpt []) True [] := of_some []

lemma congr (h : Builds x P b) (hPQ : P ↔ Q) : Builds x Q b := by
  intro c
  rw [h c, hPQ]

lemma map (h : Builds x P b) (f : Bytes → Bytes) : Builds (x.map f) P (f b) := by
  intro c
  rw [map_eq_some_iff]
  constructor
  · rintro ⟨a, ha, rfl⟩
    obtain ⟨hP, rfl⟩ := (h a).mp ha
    exact ⟨hP, rfl⟩
  · rintro ⟨hP, rfl⟩
    exact ⟨b, (h b).mpr ⟨hP, rfl⟩, rfl⟩

/-- A length prefix in front of what was built adds the bound on its length. -/
lemma lp (h : Builds x P b) (bound : Nat) (pre : Nat → Bytes) :
    Builds (x.bind (Wire.lp bound pre)) (P ∧ b.length < bound) (pre b.length ++ b) := by
  intro c
  rw [bind_eq_some_iff]
  constructor
  · rintro ⟨a, ha, hc⟩
    obtain ⟨hP, rfl⟩ := (h a).mp ha
    obtain ⟨hlen, rfl⟩ := lp_eq_some.mp hc
    exact ⟨⟨hP, hlen⟩, rfl⟩
  · rintro ⟨⟨hP, hlen⟩, rfl⟩
    exact ⟨b, (h b).mpr ⟨hP, rfl⟩, lp_eq_some.mpr ⟨hlen, rfl⟩⟩

lemma lp16 (h : Builds x P b) : Builds (x.bind Wire.lp16) (P ∧ b.length < 65536) (vec16 b) :=
  h.lp 65536 u16

lemma lp24 (h : Builds x P b) : Builds (x.bind Wire.lp24) (P ∧ b.length < 16777216) (vec24 b) :=
  h.lp 16777216 u24

lemma of_lp24 (b : Bytes) : Builds (Wire.lp24 b) (b.length < 16777216) (vec24 b) :=
  fun _ => lp24_eq_some

lemma extOpt (h : Builds x P b) (id : UInt16) :
    Builds (Utls.extOpt id x) (P ∧ b.length < 65536) (extFrame id b) := by
  have hext : Utls.extOpt id x = (x.bind Wire.lp16).map (u16 id.toNat ++ ·) := by
    cases x <;> rfl
  rw [hext]
  exact h.lp16.map _

lemma cons (h : Builds x P b) (hs : Builds (concatOpt xs) Q b') :
    Builds (concatOpt (x :: xs)) (P ∧ Q) (b ++ b') := by
  intro c
  constructor
  · intro hc
    obtain ⟨b1, b2, h1, h2, rfl⟩ := concatOpt_cons_eq_some hc
    obtain ⟨hP, rfl⟩ := (h b1).mp h1
    obtain ⟨hQ, rfl⟩ := (hs b2).mp h2
    exact ⟨⟨hP, hQ⟩, rfl⟩
  · rintro ⟨⟨hP, hQ⟩, rfl⟩
    rw [concatOpt, (h b).mpr ⟨hP, rfl⟩, bind_some, (hs b').mpr ⟨hQ, rfl⟩]
    rfl

/-- The parts that are written for the items of a list. -/
lemma concat {α : Type} {f : α → Option Bytes} {p : α → Prop} {g : α → Bytes}
    (h : ∀ a, Builds (f a) (p a) (g a)) (l : List α) :
    Builds (concatOpt (l.map f)) (∀ a ∈ l, p a) (l.flatMap g) := by
  induction l with
  | nil => exact nil.congr (by simp)
  | cons a l ih => exact ((h a).cons ih).congr (by simp)

end Builds

/-! ## The certificate list -/

namespace Certificate

/-- The extensions of the leaf's entry that `marshal` writes. -/
def staples (c : Certificate) : List RawExtension :=
  (c.ocspStaple.map fun staple =>
    (⟨extensionStatusRequest, statusTypeOCSP :: vec24 staple⟩ : RawExtension)).toList ++
  (c.signedCertificateTimestamps.map fun scts =>
    (⟨extensionSCT, vec16 (scts.flatMap vec16)⟩ : RawExtension)).toList

/-- The block of these extensions. -/
def staplesBlock (c : Certificate) : Bytes := c.staples.flatMap rawExtensionBytes

/-- One entry with the extension block `exts`. -/
def entryBytes (exts cert : Bytes) : Bytes := vec24 cert ++ vec16 exts

/-- The entries that `marshal` writes. -/
def wire (c : Certificate) : Bytes :=
  match c.certificate with
  | [] => []
  | leaf :: rest => entryBytes c.staplesBlock leaf ++ rest.flatMap (entryBytes [])

/-- The staples fit the length of the leaf's extension block, and the list fits its own. -/
structure Fits (c : Certificate) : Prop where
  leaf : c.certificate ≠ [] → c.staplesBlock.length < 65536
  list : c.wire.length < 16777216

lemma length_entryBytes (exts cert : Bytes) :
    (entryBytes exts cert).length = 5 + cert.length + exts.length := by
  rw [entryBytes, length_append, length_vec24, length_vec16]
  omega

/-- A staple that fits the extension block fits its own length. -/
lemma length_ocsp {c : Certificate} {staple : Bytes} (hc : c.ocspStaple = some staple)
    (h : c.staplesBlock.length < 65536) : 8 + staple.length < 65536 := by
  rw [staplesBlock, staples, hc] at h
  simp only [map_some, toList_some, cons_append, nil_append, flatMap_cons, rawExtensionBytes,
    length_append, length_extFrame, length_cons, length_vec24] at h
  omega

lemma length_scts {c : Certificate} {scts : List Bytes}
    (hc : c.signedCertificateTimestamps = some scts) (h : c.staplesBlock.length < 65536) :
    6 + (scts.flatMap vec16).length < 65536 := by
  rw [staplesBlock, staples, hc] at h
  simp only [map_some, toList_some, flatMap_append, flatMap_cons, flatMap_nil, append_nil,
    rawExtensionBytes, length_append, length_extFrame, length_vec16] at h
  omega

lemma length_sct {scts : List Bytes} (h : 6 + (scts.flatMap vec16).length < 65536) :
    ∀ sct ∈ scts, sct.length < 65536 := by
  intro sct hsct
  have hle := length_le_flatMap vec16 hsct
  rw [length_vec16] at hle
  omega

/-- The stapled response is written if it fits. -/
lemma builds_ocsp (ocsp : Option Bytes) :
    Builds (match ocsp with
      | none => some []
      | some staple => extOpt extensionStatusRequest ((lp24 staple).map (statusTypeOCSP :: ·)))
      (∀ staple, ocsp = some staple → staple.length < 16777216 ∧ 4 + staple.length < 65536)
      ((ocsp.map fun staple => (⟨extensionStatusRequest, statusTypeOCSP :: vec24 staple⟩ :
        RawExtension)).toList.flatMap rawExtensionBytes) := by
  cases ocsp with
  | none => exact (Builds.of_some []).congr (by simp)
  | some staple =>
    have h := ((Builds.of_lp24 staple).map (statusTypeOCSP :: ·)).extOpt extensionStatusRequest
    simp only [map_some, toList_some, flatMap_cons, flatMap_nil, append_nil]
    apply h.congr
    simp only [length_cons, length_vec24, some.injEq, forall_eq']
    constructor <;> rintro ⟨h1, h2⟩ <;> constructor <;> omega

/-- The timestamps are written if each one and their list fit. -/
lemma builds_scts (scts : Option (List Bytes)) :
    Builds (match scts with
      | none => some []
      | some scts => extOpt extensionSCT (vecOpt lp16 scts))
      (∀ l, scts = some l → (∀ sct ∈ l, sct.length < 65536) ∧ 2 + (l.flatMap vec16).length < 65536)
      ((scts.map fun scts => (⟨extensionSCT, vec16 (scts.flatMap vec16)⟩ :
        RawExtension)).toList.flatMap rawExtensionBytes) := by
  cases scts with
  | none => exact (Builds.of_some []).congr (by simp)
  | some l =>
    have hsct : ∀ sct, Builds (lp16 sct) (sct.length < 65536) (vec16 sct) := fun _ _ => lp16_eq_some
    have h := ((Builds.concat hsct l).lp16).extOpt extensionSCT
    simp only [map_some, toList_some, flatMap_cons, flatMap_nil, append_nil]
    apply h.congr
    simp only [length_vec16, some.injEq, forall_eq']
    constructor
    · rintro ⟨⟨h1, -⟩, h2⟩
      exact ⟨h1, h2⟩
    · rintro ⟨h1, h2⟩
      exact ⟨⟨h1, by omega⟩, h2⟩

/-- The extension block of the leaf is written if it fits. -/
lemma builds_leafExtensions (c : Certificate) :
    Builds (c.leafExtensions.bind lp16) (c.staplesBlock.length < 65536) (vec16 c.staplesBlock) := by
  have h := (((builds_ocsp c.ocspStaple).cons ((builds_scts c.signedCertificateTimestamps).cons
    Builds.nil)).lp16)
  rw [append_nil, ← flatMap_append] at h
  apply h.congr
  constructor
  · exact fun h => h.2
  · intro hlen
    refine ⟨⟨fun staple hs => ?_, fun l hl => ?_, trivial⟩, hlen⟩
    · have := length_ocsp hs hlen
      omega
    · have hl := length_scts hl hlen
      exact ⟨length_sct hl, by omega⟩

lemma builds_entry {exts : Option Bytes} {P : Prop} {b : Bytes}
    (h : Builds (exts.bind lp16) P (vec16 b)) (cert : Bytes) :
    Builds (marshalEntry cert exts) (cert.length < 16777216 ∧ P) (entryBytes b cert) := by
  have hentry := (Builds.of_lp24 cert).cons (h.cons Builds.nil)
  rw [append_nil] at hentry
  exact hentry.congr (by simp)

/-- `marshal` succeeds exactly on the lists that fit, and writes the entries behind their length. -/
lemma builds_marshal (c : Certificate) : Builds c.marshal c.Fits (vec24 c.wire) := by
  have hbare : ∀ cert, Builds (marshalEntry cert (some [])) (cert.length < 16777216)
      (entryBytes [] cert) := by
    intro cert
    have h := builds_entry ((Builds.of_some []).lp16) cert
    exact h.congr (by simp)
  obtain ⟨certs, ocsp, scts⟩ := c
  cases certs with
  | nil =>
    apply ((Builds.of_some []).lp24).congr
    constructor
    · intro _
      exact ⟨fun h => absurd rfl h, by simp [wire]⟩
    · intro _
      simp
  | cons leaf rest =>
    set c : Certificate := ⟨leaf :: rest, ocsp, scts⟩ with hc
    have h := ((builds_entry c.builds_leafExtensions leaf).cons (Builds.concat hbare rest)).lp24
    have hmarshal : c.marshal = (concatOpt (marshalEntry leaf c.leafExtensions ::
        rest.map fun cert => marshalEntry cert (some []))).bind lp24 := by
      have hrest : rest.mapIdx (fun i cert => marshalEntry cert
          (if i + 1 > 0 then some [] else c.leafExtensions)) =
          rest.map fun cert => marshalEntry cert (some []) := by
        apply ext_getElem <;> simp
      rw [marshal, hc, mapIdx_cons, hrest]
      rfl
    have hwire : c.wire = entryBytes c.staplesBlock leaf ++ rest.flatMap (entryBytes []) := rfl
    rw [hmarshal, hwire]
    apply h.congr
    constructor
    · rintro ⟨⟨⟨-, hleaf⟩, -⟩, hlen⟩
      exact ⟨fun _ => hleaf, hlen⟩
    · rintro ⟨hleaf, hlen⟩
      rw [hwire] at hlen
      refine ⟨⟨⟨?_, hleaf (cons_ne_nil _ _)⟩, fun cert hcert => ?_⟩, hlen⟩
      · rw [length_append, length_entryBytes] at hlen
        omega
      · have hle := length_le_flatMap (entryBytes []) hcert
        rw [length_entryBytes] at hle
        rw [length_append] at hlen
        omega

end Certificate

/-! ## Reading the certificate list back -/

namespace Certificate

/-- Staples as a handshake stores them: not empty where they are present, and present only with a
certificate. -/
structure Stapled (c : Certificate) : Prop where
  ocsp : ∀ staple, c.ocspStaple = some staple → staple ≠ []
  scts : ∀ l, c.signedCertificateTimestamps = some l → l ≠ [] ∧ ∀ sct ∈ l, sct ≠ []
  bare : c.certificate = [] → c.ocspStaple = none ∧ c.signedCertificateTimestamps = none

lemma applyExtension_ocsp (c : Certificate) {staple : Bytes} (hne : staple ≠ [])
    (hlen : 8 + staple.length < 65536) :
    c.applyExtension ⟨extensionStatusRequest, statusTypeOCSP :: vec24 staple⟩ =
      some { c with ocspStaple := some staple } := by
  have hread : readLP24 (vec24 staple) = some (staple, []) := by
    rw [← readLP24_vec24 (show staple.length < 16777216 by omega) [], append_nil]
  have hstaple : nonEmpty staple = some staple := nonEmpty_eq_some.mpr ⟨hne, rfl⟩
  have htype : readU8 (statusTypeOCSP :: vec24 staple) = some (statusTypeOCSP, vec24 staple) := rfl
  have hocsp : ¬ statusTypeOCSP ≠ statusTypeOCSP := not_not.mpr rfl
  rw [applyExtension, if_pos rfl]
  refine bind_eq_some_iff.mpr ⟨_, htype, ?_⟩
  refine (if_neg hocsp).trans ?_
  refine bind_eq_some_iff.mpr ⟨_, hread, ?_⟩
  exact bind_eq_some_iff.mpr ⟨_, hstaple, rfl⟩

lemma readSCT_vec16 {sct : Bytes} (hne : sct ≠ []) (hlen : sct.length < 65536)
    (acc : List Bytes) (r : Bytes) : readSCT acc (vec16 sct ++ r) = some (acc ++ [sct], r) := by
  have hsct : nonEmpty sct = some sct := nonEmpty_eq_some.mpr ⟨hne, rfl⟩
  simp only [readSCT, ClientHelloMsg.readLP16_vec16 hlen, bind_some, hsct, map_some]

lemma vec16_ne_nil (b : Bytes) : vec16 b ≠ [] := by
  simp [vec16, u16]

lemma applyExtension_scts (c : Certificate) {scts : List Bytes} (hne : scts ≠ [])
    (hscts : ∀ sct ∈ scts, sct ≠ []) (hlen : 6 + (scts.flatMap vec16).length < 65536) :
    c.applyExtension ⟨extensionSCT, vec16 (scts.flatMap vec16)⟩ =
      some { c with
        signedCertificateTimestamps := some (c.signedCertificateTimestamps.getD [] ++ scts) } := by
  have hread : readLP16 (vec16 (scts.flatMap vec16)) = some (scts.flatMap vec16, []) := by
    rw [← ClientHelloMsg.readLP16_vec16 (show (scts.flatMap vec16).length < 65536 by omega) [],
      append_nil]
  have hlist : nonEmpty (scts.flatMap vec16) = some (scts.flatMap vec16) := by
    refine nonEmpty_eq_some.mpr ⟨?_, rfl⟩
    obtain ⟨sct, rest, rfl⟩ := exists_cons_of_ne_nil hne
    simp [vec16_ne_nil]
  have hdrain : drainAll none readSCT (c.signedCertificateTimestamps.getD [])
      (scts.flatMap vec16) = some (c.signedCertificateTimestamps.getD [] ++ scts) := by
    refine drainAll_append (fun sct hsct acc r => ?_) (fun sct _ => vec16_ne_nil sct) _
    exact readSCT_vec16 (hscts sct hsct) (length_sct hlen sct hsct) acc r
  have htype : ¬ extensionSCT = extensionStatusRequest := by decide
  simp only [applyExtension, if_neg htype, if_pos, hread, bind_some, hlist, hdrain, atEnd]

/-- The leaf's extensions restore the staples. -/
lemma drainAll_staplesBlock {c : Certificate} {leaf : Bytes} (h : c.Stapled)
    (hlen : c.staplesBlock.length < 65536) :
    drainAll none readEntryExtension { certificate := [leaf] } c.staplesBlock =
      some { c with certificate := [leaf] } := by
  have hdata : ∀ e ∈ c.staples, e.data.length < 65536 := by
    intro e he
    have hle := length_le_flatMap rawExtensionBytes he
    rw [rawExtensionBytes, length_extFrame] at hle
    rw [staplesBlock] at hlen
    omega
  -- every staple is accepted, whatever was read before it
  have happly : ∀ e ∈ c.staples, ∀ acc : Certificate, ∃ acc', acc.applyExtension e = some acc' ∧
      acc'.certificate = acc.certificate := by
    intro e he acc
    rcases mem_append.mp he with he | he
    · obtain ⟨staple, hs, rfl⟩ := map_eq_some_iff.mp (mem_toList.mp he)
      exact ⟨_, applyExtension_ocsp acc (h.ocsp staple hs) (length_ocsp hs hlen), rfl⟩
    · obtain ⟨l, hl, rfl⟩ := map_eq_some_iff.mp (mem_toList.mp he)
      obtain ⟨hne, hscts⟩ := h.scts l hl
      exact ⟨_, applyExtension_scts acc hne hscts (length_scts hl hlen), rfl⟩
  have hdrain : drainAll none readEntryExtension { certificate := [leaf] } c.staplesBlock =
      pure (c.staples.foldl (fun acc e => (acc.applyExtension e).getD acc)
        { certificate := [leaf] }) := by
    refine drain_flatMap (fun acc => acc.certificate = [leaf]) ?_ ?_ ?_ _ _ rfl le_rfl
    · intro e he acc r hacc
      obtain ⟨acc', hacc', -⟩ := happly e he acc
      simp only [readEntryExtension, readRawExtension_bytes (hdata e he), bind_some, hacc, hacc',
        length_singleton, gt_iff_lt, Nat.lt_irrefl, if_false, map_some, getD_some]
      rfl
    · intro e he acc hacc
      obtain ⟨acc', hacc', hcert⟩ := happly e he acc
      simp only [hacc', getD_some, hcert, hacc]
    · intro e _
      simp [rawExtensionBytes, extFrame, u16]
  rw [hdrain]
  obtain ⟨certs, ocsp, scts⟩ := c
  cases ocsp with
  | none =>
    cases scts with
    | none => rfl
    | some l =>
      obtain ⟨hne, hscts⟩ := h.scts l rfl
      simp [staples, applyExtension_scts _ hne hscts (length_scts rfl hlen)]
  | some staple =>
    have hocsp := fun acc => applyExtension_ocsp acc (h.ocsp staple rfl) (length_ocsp rfl hlen)
    cases scts with
    | none => simp [staples, hocsp]
    | some l =>
      obtain ⟨hne, hscts⟩ := h.scts l rfl
      simp [staples, hocsp, applyExtension_scts _ hne hscts (length_scts rfl hlen)]

lemma entryBytes_ne_nil (exts cert : Bytes) : entryBytes exts cert ≠ [] := by
  simp [entryBytes, vec24_ne_nil]

/-- What an entry adds to the list. -/
lemma readEntry_entryBytes (acc : Certificate) {acc' : Certificate} {exts cert : Bytes}
    (hcert : cert.length < 16777216) (hexts : exts.length < 65536)
    (h : drainAll none readEntryExtension { acc with certificate := acc.certificate ++ [cert] }
      exts = some acc') (r : Bytes) :
    readEntry acc (entryBytes exts cert ++ r) = some (acc', r) := by
  simp only [readEntry, entryBytes, append_assoc, readLP24_vec24 hcert, bind_some,
    ClientHelloMsg.readLP16_vec16 hexts, h, map_some]

/-- `unmarshal` gives back what `marshal` wrote. -/
lemma unmarshal_wire {c : Certificate} (hfits : c.Fits) (h : c.Stapled) (r : Bytes) :
    unmarshal (vec24 c.wire ++ r) = some (c, r) := by
  rw [unmarshal, readLP24_vec24 hfits.list, bind_some]
  suffices hdrain : drainAll none readEntry {} c.wire = some c by
    simp only [hdrain, map_some]
  obtain ⟨certs, ocsp, scts⟩ := c
  cases certs with
  | nil =>
    obtain ⟨hocsp, hscts⟩ := h.bare rfl
    cases hocsp
    cases hscts
    rfl
  | cons leaf rest =>
    set c : Certificate := ⟨leaf :: rest, ocsp, scts⟩
    have hwire : c.wire = entryBytes c.staplesBlock leaf ++ rest.flatMap (entryBytes []) := rfl
    have hlist := hfits.list
    rw [hwire, length_append, length_entryBytes] at hlist
    have hleaf := hfits.leaf (cons_ne_nil _ _)
    rw [hwire]
    refine drainAll_step
      (readEntry_entryBytes {} (by omega) hleaf (drainAll_staplesBlock h hleaf) _)
      (entryBytes_ne_nil _ _) fun fuel hfuel => ?_
    -- the entries behind the leaf have no extensions
    have hrest : drain none readEntry fuel { c with certificate := [leaf] }
        (rest.flatMap (entryBytes [])) = pure (rest.foldl
          (fun acc cert => { acc with certificate := acc.certificate ++ [cert] })
          { c with certificate := [leaf] }) := by
      refine drain_flatMap (fun _ => True) ?_ (fun _ _ _ _ => trivial)
        (fun cert _ => entryBytes_ne_nil [] cert) fuel _ trivial hfuel
      intro cert hcert acc r _
      have hle := length_le_flatMap (entryBytes []) hcert
      rw [length_entryBytes] at hle
      exact readEntry_entryBytes acc (by omega) (by simp) (drainAll_nil _) r
    rw [hrest]
    have hfold : ∀ (l : List Bytes) (acc : Certificate),
        l.foldl (fun acc cert => { acc with certificate := acc.certificate ++ [cert] }) acc =
          { acc with certificate := acc.certificate ++ l } := by
      intro l
      induction l with
      | nil => simp
      | cons cert l ih =>
        intro acc
        rw [foldl_cons, ih]
        simp
    rw [hfold]
    rfl

end Certificate

/-! ## Writing a session -/

lemma built_eq_ok {x : Option Bytes} : built x = .ok b ↔ x = some b := by
  cases x <;> simp [built]

lemma except_bind_eq_ok {ε α β : Type} {x : Except ε α} {f : α → Except ε β} {b : β} :
    x >>= f = .ok b ↔ ∃ a, x = .ok a ∧ f a = .ok b := by
  cases x with
  | error e =>
    constructor
    · intro h
      cases h
    · rintro ⟨a, h, -⟩
      cases h
  | ok a =>
    constructor
    · exact fun h => ⟨a, rfl, h⟩
    · rintro ⟨a', h, hf⟩
      cases h
      exact hf

namespace Session

variable {C : Type} (x : X509 C)

/-- A chain on the wire: its certificates behind the leaf. -/
def chainWire (chain : List C) : Bytes := vec24 (chain.tail.flatMap fun cert => vec24 (x.raw cert))

/-- The fields at the end of the encoding. -/
def tailWire (s : Session C) : Bytes :=
  if s.isClient ∧ s.version ≥ VersionTLS13 then addUint64 s.useBy ++ u32 s.ageAdd.toNat else []

/-- The application protocol on the wire. -/
def alpnWire (s : Session C) : Bytes := if s.earlyData then vec8 s.alpnProtocol else []

/-- The bytes of a session. -/
def wire (s : Session C) : Bytes :=
  u16 s.version.toNat ++ ((if s.isClient then [2] else [1]) ++ (u16 s.cipherSuite.toNat ++
    (addUint64 s.createdAt ++ (vec8 s.secret ++ (vec24 (s.extra.flatMap vec24) ++
      (flagByte s.extMasterSecret ++ (flagByte s.earlyData ++ (vec24 (s.certificate x).wire ++
        (vec24 (s.verifiedChains.flatMap (chainWire x)) ++ (s.alpnWire ++ s.tailWire))))))))))

/-- Every part of the session fits the length in front of it, and no verified chain is empty. -/
structure Fits (s : Session C) : Prop where
  secret : s.secret.length < 256
  extra : (s.extra.flatMap vec24).length < 16777216
  certificate : (s.certificate x).Fits
  chains : ∀ chain ∈ s.verifiedChains, chain ≠ []
  chainList : (s.verifiedChains.flatMap (chainWire x)).length < 16777216
  alpn : s.earlyData = true → s.alpnProtocol.length < 256

variable {x}

variable {b : Bytes}

/-- A chain is written unless it is empty or does not fit. -/
lemma chainBytes_eq_ok {chain : List C} :
    chainBytes x chain = .ok b ↔
      (chain ≠ [] ∧ (chainWire x chain).length < 16777219) ∧ b = chainWire x chain := by
  cases chain with
  | nil => simp [chainBytes]
  | cons leaf rest =>
    have h := (Builds.concat (fun cert : C => Builds.of_lp24 (x.raw cert)) rest).lp24
    rw [chainBytes, built_eq_ok, h b]
    simp only [chainWire, length_vec24, tail_cons, ne_eq, reduceCtorEq, not_false_eq_true, true_and]
    constructor
    · rintro ⟨⟨-, hlen⟩, hb⟩
      exact ⟨by omega, hb⟩
    · rintro ⟨hlen, hb⟩
      refine ⟨⟨fun cert hcert => ?_, by omega⟩, hb⟩
      have hle := length_le_flatMap (fun cert => vec24 (x.raw cert)) hcert
      rw [length_vec24] at hle
      omega

lemma chainsBytes_eq_ok {chains : List (List C)} :
    chainsBytes x chains = .ok b ↔
      (∀ chain ∈ chains, chain ≠ [] ∧ (chainWire x chain).length < 16777219) ∧
        b = chains.flatMap (chainWire x) := by
  induction chains generalizing b with
  | nil =>
    simp only [chainsBytes, Except.ok.injEq, not_mem_nil, false_implies, implies_true,
      true_and, flatMap_nil]
    exact eq_comm
  | cons chain chains ih =>
    rw [chainsBytes, except_bind_eq_ok]
    constructor
    · rintro ⟨b1, h1, hrest⟩
      obtain ⟨b2, h2, h3⟩ := except_bind_eq_ok.mp hrest
      obtain ⟨hchain, rfl⟩ := chainBytes_eq_ok.mp h1
      obtain ⟨hchains, rfl⟩ := ih.mp h2
      cases h3
      exact ⟨forall_mem_cons.mpr ⟨hchain, hchains⟩, rfl⟩
    · rintro ⟨hall, rfl⟩
      obtain ⟨hchain, hchains⟩ := forall_mem_cons.mp hall
      refine ⟨_, chainBytes_eq_ok.mpr ⟨hchain, rfl⟩, ?_⟩
      exact except_bind_eq_ok.mpr ⟨_, ih.mpr ⟨hchains, rfl⟩, rfl⟩

lemma alpnBytes_eq_ok {s : Session C} :
    s.alpnBytes = .ok b ↔
      (s.earlyData = true → s.alpnProtocol.length < 256) ∧ b = s.alpnWire := by
  rw [alpnBytes, alpnWire]
  split_ifs with hearly
  · rw [built_eq_ok, lp8_eq_some]
    simp only [hearly, forall_const]
    rfl
  · simp only [Except.ok.injEq, hearly, Bool.false_eq_true, false_implies, true_and]
    exact eq_comm

/-- `Bytes` succeeds exactly on the sessions whose parts fit. -/
lemma bytes_eq_ok {s : Session C} : s.bytes x = .ok b ↔ s.Fits x ∧ b = s.wire x := by
  have hextra := (Builds.concat Builds.of_lp24 s.extra).lp24
  constructor
  · intro h
    obtain ⟨secret, hsecret, h⟩ := except_bind_eq_ok.mp h
    obtain ⟨extra, hex, h⟩ := except_bind_eq_ok.mp h
    obtain ⟨certificate, hcert, h⟩ := except_bind_eq_ok.mp h
    obtain ⟨chains, hchains, h⟩ := except_bind_eq_ok.mp h
    obtain ⟨verified, hverified, h⟩ := except_bind_eq_ok.mp h
    obtain ⟨alpn, halpn, h⟩ := except_bind_eq_ok.mp h
    obtain ⟨hsecretLen, rfl⟩ := lp8_eq_some.mp (built_eq_ok.mp hsecret)
    obtain ⟨⟨-, hextraLen⟩, rfl⟩ := (hextra _).mp (built_eq_ok.mp hex)
    obtain ⟨hcertFits, rfl⟩ := ((s.certificate x).builds_marshal _).mp (built_eq_ok.mp hcert)
    obtain ⟨hall, rfl⟩ := chainsBytes_eq_ok.mp hchains
    obtain ⟨hlist, rfl⟩ := lp24_eq_some.mp (built_eq_ok.mp hverified)
    obtain ⟨halpnLen, rfl⟩ := alpnBytes_eq_ok.mp halpn
    cases h
    exact ⟨⟨hsecretLen, hextraLen, hcertFits, fun chain hc => (hall chain hc).1, hlist, halpnLen⟩,
      rfl⟩
  · rintro ⟨hfits, rfl⟩
    have hall : ∀ chain ∈ s.verifiedChains,
        chain ≠ [] ∧ (chainWire x chain).length < 16777219 := by
      intro chain hc
      have hle := length_le_flatMap (chainWire x) hc
      have hlist := hfits.chainList
      exact ⟨hfits.chains chain hc, by omega⟩
    have hexts : ∀ e ∈ s.extra, e.length < 16777216 := by
      intro e he
      have hle := length_le_flatMap vec24 he
      have hlist := hfits.extra
      rw [length_vec24] at hle
      omega
    refine except_bind_eq_ok.mpr ⟨_, built_eq_ok.mpr (lp8_eq_some.mpr ⟨hfits.secret, rfl⟩), ?_⟩
    refine except_bind_eq_ok.mpr
      ⟨_, built_eq_ok.mpr ((hextra _).mpr ⟨⟨hexts, hfits.extra⟩, rfl⟩), ?_⟩
    refine except_bind_eq_ok.mpr
      ⟨_, built_eq_ok.mpr (((s.certificate x).builds_marshal _).mpr ⟨hfits.certificate, rfl⟩), ?_⟩
    refine except_bind_eq_ok.mpr ⟨_, chainsBytes_eq_ok.mpr ⟨hall, rfl⟩, ?_⟩
    refine except_bind_eq_ok.mpr
      ⟨_, built_eq_ok.mpr (lp24_eq_some.mpr ⟨hfits.chainList, rfl⟩), ?_⟩
    exact except_bind_eq_ok.mpr ⟨_, alpnBytes_eq_ok.mpr ⟨hfits.alpn, rfl⟩, rfl⟩

end Session

/-! ## Reading a session back -/

lemma readUint64_addUint64 (v : UInt64) (r : Bytes) :
    readUint64 (addUint64 v ++ r) = some (v, r) := by
  have hlt := v.toNat_lt
  have hhi : u32 (v.toNat / 4294967296) =
      u32 (UInt32.ofNat (v.toNat / 4294967296)).toNat := by
    rw [UInt32.toNat_ofNat', Nat.mod_eq_of_lt (by omega)]
  have hlo : u32 v.toNat = u32 (UInt32.ofNat v.toNat).toNat := by
    rw [UInt32.toNat_ofNat']
    simp only [u32, List.cons.injEq, and_true]
    refine ⟨?_, ?_, ?_, ?_⟩ <;> apply UInt8.toNat.inj <;> simp only [UInt8.toNat_ofNat'] <;> omega
  rw [addUint64, hhi, hlo, append_assoc]
  simp only [readUint64, readU32_u32_toNat, bind_some, map_some, some.injEq,
    Prod.mk.injEq, and_true]
  apply UInt64.toNat.inj
  simp only [UInt64.toNat_ofNat', UInt32.toNat_ofNat']
  omega

namespace Session

variable {C : Type} (x : X509 C)

/-- A session that can be read back: the secret is not empty, every verified chain starts with the
peer's certificate, a client session has one, the staples are as a handshake stores them, and the
certificates parse back to themselves. -/
structure Storable (s : Session C) : Prop where
  secret : 1 ≤ s.secret.length ∧ s.secret.length ≤ 255
  chains : ∀ chain ∈ s.verifiedChains, chain ≠ [] ∧ chain.head? = s.peerCertificates.head?
  client : s.isClient = true → s.peerCertificates ≠ []
  ocsp : ∀ staple, s.ocspResponse = some staple → staple ≠ []
  scts : ∀ l, s.scts = some l → l ≠ [] ∧ ∀ sct ∈ l, sct ≠ []
  staples : s.peerCertificates = [] → s.ocspResponse = none ∧ s.scts = none
  peer : ∀ cert ∈ s.peerCertificates, x.newCert (x.raw cert) = .ok cert
  verified : ∀ chain ∈ s.verifiedChains, ∀ cert ∈ chain, x.newCert (x.raw cert) = .ok cert

variable {x}

variable {s : Session C}

lemma Storable.stapled (h : s.Storable x) : (s.certificate x).Stapled where
  ocsp := h.ocsp
  scts := h.scts
  bare hnil := h.staples (map_eq_nil_iff.mp hnil)

/-- What `ParseSessionState` restores: the application protocol only with early data, the lifetime
only for a client of TLS 1.3, and never the ticket. -/
def stored (s : Session C) : Session C :=
  { s with
    alpnProtocol := if s.earlyData then s.alpnProtocol else []
    useBy := if s.isClient ∧ s.version ≥ VersionTLS13 then s.useBy else 0
    ageAdd := if s.isClient ∧ s.version ≥ VersionTLS13 then s.ageAdd else 0
    ticket := none }

lemma mapM_newCert {certs : List C} (h : ∀ cert ∈ certs, x.newCert (x.raw cert) = .ok cert) :
    (certs.map x.raw).mapM x.newCert = .ok certs := by
  induction certs with
  | nil => rfl
  | cons cert certs ih =>
    rw [map_cons, mapM_cons, h cert (mem_cons_self ..), ih fun c hc => h c (mem_cons_of_mem _ hc)]
    rfl

/-- A chain that starts with the leaf is read back. -/
lemma readChain_chainWire {leaf : C} {rest certs : List C}
    (h : ∀ cert ∈ rest, x.newCert (x.raw cert) = .ok cert)
    (hlen : (chainWire x (leaf :: rest)).length < 16777219) (chains : List (List C)) (r : Bytes) :
    readChain x (leaf :: certs) chains (chainWire x (leaf :: rest) ++ r) =
      .ok (chains ++ [leaf :: rest], r) := by
  rw [chainWire, length_vec24, tail_cons] at hlen
  have hread := readLP24_vec24
    (show (rest.flatMap fun cert => vec24 (x.raw cert)).length < 16777216 by omega) r
  have hdrain : drainAll (throw errInvalidSession) (readChainCert x) [leaf]
      (rest.flatMap fun cert => vec24 (x.raw cert)) =
        (.ok ([leaf] ++ rest) : Except Err (List C)) := by
    refine drainAll_append (fun cert hcert acc r => ?_) (fun cert _ => vec24_ne_nil _) _
    have hle := length_le_flatMap (fun cert => vec24 (x.raw cert)) hcert
    rw [length_vec24] at hle
    rw [readChainCert, readLP24_vec24 (by omega), encoded]
    change x.newCert (x.raw cert) >>= _ = _
    rw [h cert hcert]
    rfl
  rw [readChain, chainWire, tail_cons, hread, encoded]
  change drainAll (throw errInvalidSession) (readChainCert x) [leaf] _ >>= _ = _
  rw [hdrain]
  rfl

/-- The verified chains are read back. -/
lemma drainAll_chains (hfits : s.Fits x) (h : s.Storable x) :
    drainAll (throw errInvalidSession) (readChain x s.peerCertificates) []
      (s.verifiedChains.flatMap (chainWire x)) = .ok s.verifiedChains := by
  refine drainAll_append (fun chain hchain acc r => ?_) (fun chain _ => vec24_ne_nil _) []
  obtain ⟨hne, hhead⟩ := h.chains chain hchain
  obtain ⟨leaf, rest, rfl⟩ := exists_cons_of_ne_nil hne
  obtain ⟨certs, hcerts⟩ : ∃ certs, s.peerCertificates = leaf :: certs :=
    ⟨_, (cons_head?_tail (hhead ▸ rfl)).symm⟩
  have hle := length_le_flatMap (chainWire x) hchain
  have hlist := hfits.chainList
  rw [hcerts]
  exact readChain_chainWire
    (fun cert hcert => h.verified _ hchain cert (mem_cons_of_mem _ hcert)) (by omega) acc r

/-- The front of the encoding, up to the certificate list. -/
lemma readFront_wire (hfits : s.Fits x) (h : s.Storable x) :
    readFront (s.wire x) = some
      (⟨s.version, if s.isClient then 2 else 1, s.cipherSuite, s.createdAt, s.secret,
        s.extra.flatMap vec24, if s.extMasterSecret then 1 else 0, if s.earlyData then 1 else 0,
        s.certificate x⟩,
      vec24 (s.verifiedChains.flatMap (chainWire x)) ++ (s.alpnWire ++ s.tailWire)) := by
  have htyp : ∀ r : Bytes, readU8 ((if s.isClient then [2] else [1]) ++ r) =
      some (if s.isClient then 2 else 1, r) := by
    intro r
    cases s.isClient <;> rfl
  have hflag : ∀ (b : Bool) (r : Bytes), readU8 (flagByte b ++ r) =
      some (if b then 1 else 0, r) := by
    intro b r
    cases b <;> rfl
  have hrole : ¬ ((if s.isClient then 2 else 1 : UInt8) ≠ 1 ∧
      (if s.isClient then 2 else 1 : UInt8) ≠ 2) := by
    cases s.isClient <;> decide
  have hsecret : nonEmpty s.secret = some s.secret :=
    nonEmpty_eq_some.mpr ⟨ne_nil_of_length_pos h.secret.1, rfl⟩
  rw [readFront]
  refine bind_eq_some_iff.mpr ⟨_, readU16_u16_toNat _ _, ?_⟩
  refine bind_eq_some_iff.mpr ⟨_, htyp _, ?_⟩
  refine (if_neg hrole).trans ?_
  refine bind_eq_some_iff.mpr ⟨_, readU16_u16_toNat _ _, ?_⟩
  refine bind_eq_some_iff.mpr ⟨_, readUint64_addUint64 _ _, ?_⟩
  refine bind_eq_some_iff.mpr ⟨_, ClientHelloMsg.readLP8_vec8 hfits.secret _, ?_⟩
  refine bind_eq_some_iff.mpr ⟨_, readLP24_vec24 hfits.extra _, ?_⟩
  refine bind_eq_some_iff.mpr ⟨_, hflag _ _, ?_⟩
  refine bind_eq_some_iff.mpr ⟨_, hflag _ _, ?_⟩
  refine bind_eq_some_iff.mpr ⟨_, hsecret, ?_⟩
  exact map_eq_some_iff.mpr
    ⟨_, Certificate.unmarshal_wire hfits.certificate h.stapled _, rfl⟩

end Session

namespace Session

variable {C : Type} {x : X509 C}

lemma readAlpn_alpnWire {s : Session C} (hfits : s.Fits x) (r : Bytes) :
    readAlpn s.earlyData (s.alpnWire ++ r) =
      .ok (if s.earlyData then s.alpnProtocol else [], r) := by
  rw [readAlpn, alpnWire]
  split_ifs with hearly
  · rw [ClientHelloMsg.readLP8_vec8 (hfits.alpn hearly), encoded]
  · rfl

lemma readFlag_flag (b : Bool) : readFlag (if b then 1 else 0) = .ok b := by
  cases b <;> rfl

/-- The end of the encoding restores the role and, for a client of TLS 1.3, the lifetime. -/
lemma readTail_tailWire {s ss : Session C} (hss : ss.version = s.version)
    (hrole : ss.isClient = false) (huse : ss.useBy = 0) (hage : ss.ageAdd = 0)
    (hpeer : s.isClient = true → ss.peerCertificates ≠ []) :
    readTail ss (if s.isClient then 2 else 1) s.tailWire = .ok
      { ss with
        isClient := s.isClient
        useBy := if s.isClient ∧ s.version ≥ VersionTLS13 then s.useBy else 0
        ageAdd := if s.isClient ∧ s.version ≥ VersionTLS13 then s.ageAdd else 0 } := by
  obtain ⟨ex, ed, v, ic, cs, ca, se, em, pc, oc, sc, vc, al, ub, aa, ti⟩ := ss
  cases hss
  cases hrole
  cases huse
  cases hage
  cases hclient : s.isClient with
  | false => simp [readTail, tailWire, hclient, pure, Except.pure]
  | true =>
    have hne : ¬ pc.length = 0 := fun h => hpeer hclient (length_eq_zero_iff.mp h)
    by_cases hv : s.version ≥ VersionTLS13
    · have hlt : ¬ s.version < VersionTLS13 := UInt16.not_lt.mpr hv
      have huse := readUint64_addUint64 s.useBy (u32 s.ageAdd.toNat)
      have hage := readU32_u32_toNat s.ageAdd []
      rw [append_nil] at hage
      simp only [readTail, tailWire, hclient, hv, and_self, if_true, ne_eq, not_true_eq_false,
        if_false, hne, hlt, huse, encoded, bind, Except.bind, hage]
      rfl
    · have hlt : s.version < VersionTLS13 := UInt16.not_le.mp hv
      simp [readTail, tailWire, hclient, hv, hne, hlt, pure, Except.pure]

end Session

/-- What `Bytes` wrote is read back. -/
theorem parseSessionState_bytes {C : Type} {x : X509 C} {s : Session C} (h : s.Storable x)
    (hb : s.bytes x = .ok b) : parseSessionState x b = .ok s.stored := by
  obtain ⟨hfits, rfl⟩ := Session.bytes_eq_ok.mp hb
  have hextra : parseAll readLP24 (s.extra.flatMap vec24) = some s.extra := by
    refine parseAll_flatMap (fun e he r => readLP24_vec24 ?_ r) fun e _ => vec24_ne_nil e
    have hle := length_le_flatMap vec24 he
    have hlist := hfits.extra
    rw [length_vec24] at hle
    omega
  have hcerts : (s.certificate x).certificate.mapM x.newCert = .ok s.peerCertificates :=
    Session.mapM_newCert h.peer
  refine except_bind_eq_ok.mpr ⟨_, congrArg Session.encoded (Session.readFront_wire hfits h), ?_⟩
  refine except_bind_eq_ok.mpr ⟨_, congrArg Session.encoded hextra, ?_⟩
  refine except_bind_eq_ok.mpr ⟨_, Session.readFlag_flag _, ?_⟩
  refine except_bind_eq_ok.mpr ⟨_, Session.readFlag_flag _, ?_⟩
  refine except_bind_eq_ok.mpr ⟨_, hcerts, ?_⟩
  refine except_bind_eq_ok.mpr
    ⟨_, congrArg Session.encoded (readLP24_vec24 hfits.chainList _), ?_⟩
  refine except_bind_eq_ok.mpr ⟨_, Session.drainAll_chains hfits h, ?_⟩
  refine except_bind_eq_ok.mpr ⟨_, Session.readAlpn_alpnWire hfits _, ?_⟩
  exact Session.readTail_tailWire rfl rfl rfl rfl h.client

/-- A session that `Bytes` could write is restored by `ParseSessionState`, with every field that its
role, its version and its early-data flag let it store. -/
theorem session_round_trip {C : Type} (x : X509 C) (s : Session C) (h : s.Storable x) (b : Bytes)
    (hb : s.bytes x = .ok b) :
    ∃ s' : Session C, parseSessionState x b = .ok s' ∧
      s'.version = s.version ∧ s'.isClient = s.isClient ∧ s'.cipherSuite = s.cipherSuite ∧
      s'.createdAt = s.createdAt ∧ s'.secret = s.secret ∧ s'.extra = s.extra ∧
      s'.extMasterSecret = s.extMasterSecret ∧ s'.earlyData = s.earlyData ∧
      s'.peerCertificates = s.peerCertificates ∧ s'.ocspResponse = s.ocspResponse ∧
      s'.scts = s.scts ∧ s'.verifiedChains = s.verifiedChains ∧
      (s.earlyData = true → s'.alpnProtocol = s.alpnProtocol) ∧
      (s.isClient = true → s.version ≥ VersionTLS13 →
        s'.useBy = s.useBy ∧ s'.ageAdd = s.ageAdd) := by
  refine ⟨s.stored, parseSessionState_bytes h hb, rfl, rfl, rfl, rfl, rfl, rfl, rfl, rfl, rfl, rfl,
    rfl, rfl, fun hearly => ?_, fun hclient hv => ?_⟩
  · simp [Session.stored, hearly]
  · simp [Session.stored, hclient, hv]

/-- Certificates that are their own bytes; an empty one does not parse. -/
def rawCertificates : X509 Bytes where
  raw := id
  newCert b := if b = [] then .error (.dependency "x509: malformed certificate") else .ok b

/-- A client session of TLS 1.3 with every field in use. -/
def fullSession : Session Bytes where
  extra := [[1, 2, 3], []]
  earlyData := true
  version := VersionTLS13
  isClient := true
  cipherSuite := 0x1301
  createdAt := 1700000000
  secret := List.replicate 32 7
  extMasterSecret := true
  peerCertificates := [[48, 1], [48, 2]]
  ocspResponse := some [9, 9]
  scts := some [[5], [6, 6]]
  verifiedChains := [[[48, 1], [48, 2], [48, 3]], [[48, 1]]]
  alpnProtocol := [104, 51]
  useBy := 1700600000
  ageAdd := 12345
  ticket := some [1]

lemma fullSession_storable : fullSession.Storable rawCertificates where
  secret := by decide
  chains := by decide
  client := by decide
  ocsp := by
    rintro staple ⟨⟩
    decide
  scts := by
    rintro l ⟨⟩
    decide
  staples := by decide
  peer := by decide
  verified := by decide

theorem session_round_trip_full :
    ∃ b s', fullSession.bytes rawCertificates = .ok b ∧
      parseSessionState rawCertificates b = .ok s' ∧
      s'.verifiedChains = fullSession.verifiedChains ∧ s'.useBy = fullSession.useBy := by
  have hb : fullSession.bytes rawCertificates = .ok (fullSession.wire rawCertificates) :=
    Session.bytes_eq_ok.mpr
      ⟨⟨by decide, by decide, ⟨by decide, by decide⟩, by decide, by decide, by decide⟩, rfl⟩
  obtain ⟨s', hs', -, -, -, -, -, -, -, -, -, -, -, hchains, -, huse⟩ :=
    session_round_trip rawCertificates fullSession fullSession_storable _ hb
  exact ⟨_, s', hb, hs', hchains, (huse rfl (by decide)).1⟩

end Utls
