import Utls.HelloParse

/-!
# Extensions read from a captured body

A captured ClientHello is turned back into extensions by the `Write` methods: each takes the body
of one extension, reads it through a `cryptobyte.String` and stores what it found.
`ExtKind.parse` is the reading part.  It also returns what is left of the string, which the
methods drop: `ExtKind.write` reports the whole body as written.

`ExtKind.Body k e body` says that `body` is a complete body of kind `k` and that `e` is the
extension it stands for.  A string is accepted exactly when it begins with such a body, and what
is left is the rest of it (`ExtKind.exists_body_of_parse`, `ExtKind.Body.parse`).
-/

namespace Utls

open Wire List Option

variable {b r s : Bytes} {l : List UInt16} {n n' : UInt16}

/-- `unGREASEUint16`. -/
def unGREASEUint16 (v : UInt16) : UInt16 := if isGREASEUint16 v then GREASE_PLACEHOLDER else v

/-- The extensions whose `Write` parses the body. -/
inductive ExtKind where
  | statusRequest
  | supportedCurves
  | supportedPoints
  | signatureAlgorithms
  | signatureAlgorithmsCert
  | alpn
  | applicationSettings
  | applicationSettingsNew
  | utlsCompressCert
  | keyShare
  | pskKeyExchangeModes
  | supportedVersions
  | fakeRecordSizeLimit
  | fakeTokenBinding
  | fakeDelegatedCredentials
  | trustAnchors
  | fakePreSharedKey
  deriving DecidableEq, Repr

/-! ## Vectors -/

/-- The shape of most `Write` methods.  `outer` takes a vector from the front of the data; an
empty vector is refused unless `mayBeEmpty`, and `item` is repeated until the vector is used up.
Returns the items and the data behind the vector. -/
def writeVector {α : Type} (outer : Bytes → Option (Bytes × Bytes)) (mayBeEmpty : Bool)
    (item : Bytes → Option (α × Bytes)) (msg itemMsg : String) (extData : Bytes) :
    Except Err (List α × Bytes) :=
  match outer extData with
  | none => .error (.text msg)
  | some (list, rest) =>
    if mayBeEmpty = false ∧ list = [] then .error (.text msg)
    else match parseAll item list with
      | none => .error (.text itemMsg)
      | some xs => .ok (xs, rest)

/-- The vectors of single bytes, which are copied as they are. -/
def writeBytes8 (mayBeEmpty : Bool) (msg : String) (extData : Bytes) : Except Err (Bytes × Bytes) :=
  match readLP8 extData with
  | none => .error (.text msg)
  | some (list, rest) =>
    if mayBeEmpty = false ∧ list = [] then .error (.text msg) else .ok (list, rest)

/-- A two-byte vector of at least one sixteen-bit value. -/
def writeU16s (msg : String) : Bytes → Except Err (List UInt16 × Bytes) :=
  writeVector readLP16 false readU16 msg msg

/-- A two-byte vector of at least one name. -/
def writeProtocols : Bytes → Except Err (List GoString × Bytes) :=
  writeVector readLP16 false readNonEmpty8 "unable to read ALPN extension data"
    "unable to read ALPN extension data"

/-- What `KeyShareExtension.Write` keeps of a share: the data only under a GREASE group. -/
def storedKeyShare (ks : KeyShare) : KeyShare :=
  let group := unGREASEUint16 ks.group
  ⟨group, if group ≠ GREASE_PLACEHOLDER then [] else ks.data⟩

/-! ## Pre-shared keys -/

/-- One round of the loop over the identities of `FakePreSharedKeyExtension.Write`.  The counter is
a `uint16` that wraps below zero. -/
def identityRound (identitiesLength : UInt16) (s : Bytes) :
    Option ((PskIdentity × UInt16) × Bytes) :=
  (readU16 s).bind fun (identityLength, s) =>
    if identityLength > identitiesLength - 2 then none
    else (readN identityLength.toNat s).bind fun (identity, s) =>
      (readU32 s).map fun (obfuscatedTicketAge, s) =>
        ((⟨identity, obfuscatedTicketAge⟩, identitiesLength - 2 - identityLength - 4), s)

/-- One round of the loop over the binders, with the same kind of counter. -/
def binderRound (bindersLength : UInt16) (s : Bytes) : Option ((Bytes × UInt16) × Bytes) :=
  (readU8 s).bind fun (binderLength, s) =>
    if binderLength.toUInt16 > bindersLength - 1 then none
    else (readN binderLength.toNat s).map fun (binder, s) =>
      ((binder, bindersLength - 1 - binderLength.toUInt16), s)

/-- The reads of `FakePreSharedKeyExtension.Write`. -/
def readFakePsk (s : Bytes) : Option ((List PskIdentity × List Bytes) × Bytes) :=
  (readU16 s).bind fun (identitiesLength, s) =>
    (readCounted identityRound s.length identitiesLength s).bind fun (identities, s) =>
      (readU16 s).bind fun (bindersLength, s) =>
        (readCounted binderRound s.length bindersLength s).map fun (binders, r) =>
          ((identities, binders), r)

/-- A slice that was nil before the loop and got one entry in every round. -/
def appendedSlice {α : Type} (l : List α) : Option (List α) := if l = [] then none else some l

/-! ## The methods -/

/-- The reads of `StatusRequestExtension.Write`. -/
def readStatusRequest (s : Bytes) : Option (UInt8 × Bytes) :=
  (readU8 s).bind fun (statusType, s) => (readLP16 s).bind fun (_, s) =>
    (readLP16 s).map fun (_, r) => (statusType, r)

/-- The reads of `FakeTokenBindingExtension.Write`. -/
def readTokenBinding (s : Bytes) : Option ((UInt8 × UInt8 × Bytes) × Bytes) :=
  (readU8 s).bind fun (major, s) => (readU8 s).bind fun (minor, s) =>
    (readLP8 s).map fun (params, r) => ((major, minor, params), r)

/-- Reads that either succeed or fail with one message. -/
def orText {α : Type} (msg : String) : Option α → Except Err α
  | some a => .ok a
  | none => .error (.text msg)

namespace ExtKind

/-- The parse of `Write` on a fresh extension: the extension with what was read, and what is left
of `extData`. -/
def parse : ExtKind → Bytes → Except Err (Ext × Bytes)
  | statusRequest, b =>
    match readStatusRequest b with
    | none => .error (.text "unable to read status request extension data")
    | some (statusType, r) =>
      if statusType ≠ 1 then
        .error (.text "status request extension statusType is not statusTypeOCSP(1)")
      else .ok (.statusRequest, r)
  | supportedCurves, b =>
    (writeU16s "unable to read supported curves extension data" b).map fun (curves, r) =>
      (.supportedCurves (curves.map unGREASEUint16), r)
  | supportedPoints, b =>
    (writeBytes8 false "unable to read supported points extension data" b).map fun (pts, r) =>
      (.supportedPoints pts, r)
  | signatureAlgorithms, b =>
    (writeU16s "unable to read signature algorithms extension data" b).map fun (algs, r) =>
      (.signatureAlgorithms algs, r)
  | signatureAlgorithmsCert, b =>
    (writeU16s "unable to read signature algorithms extension data" b).map fun (algs, r) =>
      (.signatureAlgorithmsCert algs, r)
  | alpn, b => (writeProtocols b).map fun (protos, r) => (.alpn protos, r)
  | applicationSettings, b =>
    (writeProtocols b).map fun (protos, r) => (.applicationSettings protos, r)
  | applicationSettingsNew, b =>
    (writeProtocols b).map fun (protos, r) => (.applicationSettingsNew protos, r)
  | utlsCompressCert, b =>
    (writeVector readLP8 true readU16 "unable to read cert compression algorithms extension data"
      "unable to read cert compression algorithms extension data" b).map fun (methods, r) =>
        (.utlsCompressCert methods, r)
  | keyShare, b =>
    (writeVector readLP16 true readKeyShare "unable to read key share extension data"
      "unable to read key share extension data" b).map fun (shares, r) =>
        (.keyShare (shares.map storedKeyShare), r)
  | pskKeyExchangeModes, b =>
    (writeBytes8 true "unable to read PSK extension data" b).map fun (modes, r) =>
      (.pskKeyExchangeModes modes, r)
  | supportedVersions, b =>
    (writeVector readLP8 false readU16 "unable to read supported versions extension data"
      "unable to read supported versions extension data" b).map fun (vers, r) =>
        (.supportedVersions (vers.map unGREASEUint16), r)
  | fakeRecordSizeLimit, b =>
    (orText "unable to read record size limit extension data" (readU16 b)).map fun (limit, r) =>
      (.fakeRecordSizeLimit limit, r)
  | fakeTokenBinding, b =>
    (orText "unable to read token binding extension data" (readTokenBinding b)).map
      fun ((major, minor, params), r) => (.fakeTokenBinding major minor params, r)
  | fakeDelegatedCredentials, b =>
    (writeU16s "unable to read signature algorithms extension data" b).map fun (algs, r) =>
      (.fakeDelegatedCredentials algs, r)
  | trustAnchors, b =>
    (writeVector readLP16 true readNonEmpty8 "unable to read trust_anchors extension data"
      "unable to read a trust_anchors entry" b).map fun (anchors, r) =>
        (.trustAnchors ⟨anchors, false, none⟩, r)
  | fakePreSharedKey, b =>
    (orText "tls: invalid PSK extension" (readFakePsk b)).map fun ((ids, bs), r) =>
      (.fakePreSharedKey ⟨appendedSlice ids, appendedSlice bs, false⟩, r)

/-- `Write` on a fresh extension: the number of bytes it reports and its outcome.  A failed
`StatusRequestExtension.Write` reports the whole string, the others report 0 bytes. -/
def write (k : ExtKind) (b : Bytes) : Nat × Except Err Ext :=
  match k.parse b with
  | .ok (e, _) => (b.length, .ok e)
  | .error err => (if k = statusRequest then b.length else 0, .error err)

end ExtKind

/-! ## Complete bodies -/

/-- The bytes of one identity, where the loop of `FakePreSharedKeyExtension.Write` accepts it at the
counter `n`, and the next counter.  The counter is subtracted from without a check, so it may pass
below zero and the identities may be longer than it said. -/
inductive IdentityRound : UInt16 → PskIdentity → UInt16 → Bytes → Prop
  | intro {n : UInt16} {i : PskIdentity} (hlen : i.label.length < 65536)
      (hle : UInt16.ofNat i.label.length ≤ n - 2) :
      IdentityRound n i (n - 2 - UInt16.ofNat i.label.length - 4)
        (vec16 i.label ++ u32 i.obfuscatedTicketAge.toNat)

/-- The same for one binder. -/
inductive BinderRound : UInt16 → Bytes → UInt16 → Bytes → Prop
  | intro {n : UInt16} {x : Bytes} (hlen : x.length < 256) (hle : UInt16.ofNat x.length ≤ n - 1) :
      BinderRound n x (n - 1 - UInt16.ofNat x.length) (vec8 x)

/-- A name of 1 to 255 bytes. -/
def ShortName (n : Bytes) : Prop := n ≠ [] ∧ n.length < 256

/-- A key share with a key of 1 to 65535 bytes. -/
def SoundShare (ks : KeyShare) : Prop := ks.data ≠ [] ∧ ks.data.length < 65536

namespace ExtKind

/-- The complete bodies of each kind, with the extensions they stand for. -/
inductive Body : ExtKind → Ext → Bytes → Prop
  | statusRequest {responders exts : Bytes} (hr : responders.length < 65536)
      (he : exts.length < 65536) :
      Body .statusRequest .statusRequest (1 :: (vec16 responders ++ vec16 exts))
  | supportedCurves {l : List UInt16} (hne : l ≠ []) (hlen : (u16s l).length < 65536) :
      Body .supportedCurves (.supportedCurves (l.map unGREASEUint16)) (vec16 (u16s l))
  | supportedPoints {l : Bytes} (hne : l ≠ []) (hlen : l.length < 256) :
      Body .supportedPoints (.supportedPoints l) (vec8 l)
  | signatureAlgorithms {l : List UInt16} (hne : l ≠ []) (hlen : (u16s l).length < 65536) :
      Body .signatureAlgorithms (.signatureAlgorithms l) (vec16 (u16s l))
  | signatureAlgorithmsCert {l : List UInt16} (hne : l ≠ []) (hlen : (u16s l).length < 65536) :
      Body .signatureAlgorithmsCert (.signatureAlgorithmsCert l) (vec16 (u16s l))
  | alpn {l : List GoString} (hne : l ≠ []) (hl : ∀ n ∈ l, ShortName n)
      (hlen : (protocolNames l).length < 65536) : Body .alpn (.alpn l) (vec16 (protocolNames l))
  | applicationSettings {l : List GoString} (hne : l ≠ []) (hl : ∀ n ∈ l, ShortName n)
      (hlen : (protocolNames l).length < 65536) :
      Body .applicationSettings (.applicationSettings l) (vec16 (protocolNames l))
  | applicationSettingsNew {l : List GoString} (hne : l ≠ []) (hl : ∀ n ∈ l, ShortName n)
      (hlen : (protocolNames l).length < 65536) :
      Body .applicationSettingsNew (.applicationSettingsNew l) (vec16 (protocolNames l))
  | utlsCompressCert {l : List UInt16} (hlen : (u16s l).length < 256) :
      Body .utlsCompressCert (.utlsCompressCert l) (vec8 (u16s l))
  | keyShare {l : List KeyShare} (hl : ∀ ks ∈ l, SoundShare ks)
      (hlen : (keyShareEntries l).length < 65536) :
      Body .keyShare (.keyShare (l.map storedKeyShare)) (vec16 (keyShareEntries l))
  | pskKeyExchangeModes {l : Bytes} (hlen : l.length < 256) :
      Body .pskKeyExchangeModes (.pskKeyExchangeModes l) (vec8 l)
  | supportedVersions {l : List UInt16} (hne : l ≠ []) (hlen : (u16s l).length < 256) :
      Body .supportedVersions (.supportedVersions (l.map unGREASEUint16)) (vec8 (u16s l))
  | fakeRecordSizeLimit (limit : UInt16) :
      Body .fakeRecordSizeLimit (.fakeRecordSizeLimit limit) (u16 limit.toNat)
  | fakeTokenBinding (major minor : UInt8) {params : Bytes} (hlen : params.length < 256) :
      Body .fakeTokenBinding (.fakeTokenBinding major minor params)
        (major :: minor :: vec8 params)
  | fakeDelegatedCredentials {l : List UInt16} (hne : l ≠ []) (hlen : (u16s l).length < 65536) :
      Body .fakeDelegatedCredentials (.fakeDelegatedCredentials l) (vec16 (u16s l))
  | trustAnchors {l : List Bytes} (hl : ∀ n ∈ l, ShortName n)
      (hlen : (protocolNames l).length < 65536) :
      Body .trustAnchors (.trustAnchors ⟨l, false, none⟩) (vec16 (protocolNames l))
  | fakePreSharedKey {n m : UInt16} {ids : List PskIdentity} {bs : List Bytes} {b b' : Bytes}
      (hids : CountedRun IdentityRound n ids b) (hbs : CountedRun BinderRound m bs b') :
      Body .fakePreSharedKey (.fakePreSharedKey ⟨appendedSlice ids, appendedSlice bs, false⟩)
        (u16 n.toNat ++ (b ++ (u16 m.toNat ++ b')))

end ExtKind

/-! ## What the readers accept -/

lemma readLP8_eq_vec8 :
    readLP8 s = some (b, r) ↔ b.length < 256 ∧ s = vec8 b ++ r := by
  rw [readLP8_eq_some, vec8, append_assoc]

lemma readLP16_eq_vec16 :
    readLP16 s = some (b, r) ↔ b.length < 65536 ∧ s = vec16 b ++ r := by
  rw [readLP16_eq_some, vec16, append_assoc]

lemma readNonEmpty8_eq_some {n : Bytes} :
    readNonEmpty8 s = some (n, r) ↔ ShortName n ∧ s = vec8 n ++ r := by
  constructor
  · intro h
    obtain ⟨⟨n', r'⟩, hread, h'⟩ := bind_eq_some_iff.mp h
    obtain ⟨n'', hne, heq⟩ := map_eq_some_iff.mp h'
    obtain ⟨hn, rfl⟩ := nonEmpty_eq_some.mp hne
    cases heq
    obtain ⟨hlen, rfl⟩ := readLP8_eq_vec8.mp hread
    exact ⟨⟨hn, hlen⟩, rfl⟩
  · rintro ⟨⟨hn, hlen⟩, rfl⟩
    simp only [readNonEmpty8, readLP8_eq_vec8.mpr ⟨hlen, rfl⟩, bind_some,
      nonEmpty_eq_some.mpr ⟨hn, rfl⟩, map_some]

lemma readKeyShare_eq_some {ks : KeyShare} :
    readKeyShare s = some (ks, r) ↔
      SoundShare ks ∧ s = (u16 ks.group.toNat ++ vec16 ks.data) ++ r := by
  constructor
  · intro h
    obtain ⟨⟨g, s'⟩, hg, h1⟩ := bind_eq_some_iff.mp h
    obtain ⟨⟨d, r'⟩, hread, h2⟩ := bind_eq_some_iff.mp h1
    obtain ⟨d', hne, heq⟩ := map_eq_some_iff.mp h2
    obtain ⟨hd, rfl⟩ := nonEmpty_eq_some.mp hne
    cases heq
    obtain ⟨hlen, rfl⟩ := readLP16_eq_vec16.mp hread
    refine ⟨⟨hd, hlen⟩, ?_⟩
    rw [readU16_eq_some.mp hg, append_assoc]
  · rintro ⟨⟨hd, hlen⟩, rfl⟩
    simp only [readKeyShare, append_assoc, readU16_u16_toNat, bind_some,
      readLP16_eq_vec16.mpr ⟨hlen, rfl⟩, nonEmpty_eq_some.mpr ⟨hd, rfl⟩, map_some]

lemma parseAll_readU16_eq_some :
    parseAll readU16 s = some l ↔ s = u16s l := by
  have hitem : ∀ s x r, readU16 s = some (x, r) ↔ True ∧ s = u16 x.toNat ++ r := by
    intro s x r
    rw [readU16_eq_some, true_and]
  rw [parseAll_eq_some hitem (fun x _ => by simp [u16])]
  simp [u16s]

lemma parseAll_readNonEmpty8_eq_some {l : List Bytes} :
    parseAll readNonEmpty8 s = some l ↔ (∀ n ∈ l, ShortName n) ∧ s = protocolNames l :=
  parseAll_eq_some (fun _ _ _ => readNonEmpty8_eq_some) (fun _ _ => by simp [vec8, u8])

lemma parseAll_readKeyShare_eq_some {l : List KeyShare} :
    parseAll readKeyShare s = some l ↔ (∀ ks ∈ l, SoundShare ks) ∧ s = keyShareEntries l :=
  parseAll_eq_some (fun _ _ _ => readKeyShare_eq_some) (fun _ _ => by simp [u16])

section Vectors

variable {α : Type} {outer : Bytes → Option (Bytes × Bytes)} {item : Bytes → Option (α × Bytes)}
  {pre : Bytes → Bytes} {bound : Nat} {enc : List α → Bytes} {P : α → Prop} {mayBeEmpty : Bool}
  {msg itemMsg : String}

/-- A vector is accepted exactly when it is the encoding of acceptable items and, where the method
asks for it, not empty. -/
lemma writeVector_eq_ok
    (houter : ∀ s v r, outer s = some (v, r) ↔ v.length < bound ∧ s = pre v ++ r)
    (hitems : ∀ s l, parseAll item s = some l ↔ (∀ x ∈ l, P x) ∧ s = enc l)
    (henc : ∀ l, enc l = [] ↔ l = []) {l : List α} :
    writeVector outer mayBeEmpty item msg itemMsg s = .ok (l, r) ↔
      (∀ x ∈ l, P x) ∧ (mayBeEmpty = false → l ≠ []) ∧ (enc l).length < bound ∧
        s = pre (enc l) ++ r := by
  constructor
  · intro h
    unfold writeVector at h
    split at h
    · cases h
    · rename_i v r' hv
      obtain ⟨hlen, hs⟩ := (houter _ _ _).mp hv
      split_ifs at h with hempty
      split at h
      · cases h
      · rename_i l' hl
        cases h
        obtain ⟨hP, rfl⟩ := (hitems _ _).mp hl
        exact ⟨hP, fun hm hnil => hempty ⟨hm, (henc l).mpr hnil⟩, hlen, hs⟩
  · rintro ⟨hP, hne, hlen, hs⟩
    have hnot : ¬(mayBeEmpty = false ∧ enc l = []) := fun ⟨hm, hnil⟩ => hne hm ((henc l).mp hnil)
    simp only [writeVector, (houter _ _ _).mpr ⟨hlen, hs⟩, if_neg hnot, (hitems _ _).mpr ⟨hP, rfl⟩]

lemma writeBytes8_eq_ok {l : Bytes} :
    writeBytes8 mayBeEmpty msg s = .ok (l, r) ↔
      (mayBeEmpty = false → l ≠ []) ∧ l.length < 256 ∧ s = vec8 l ++ r := by
  constructor
  · intro h
    unfold writeBytes8 at h
    split at h
    · cases h
    · rename_i v r' hv
      obtain ⟨hlen, hs⟩ := readLP8_eq_vec8.mp hv
      split_ifs at h with hempty
      cases h
      exact ⟨fun hm hnil => hempty ⟨hm, hnil⟩, hlen, hs⟩
  · rintro ⟨hne, hlen, hs⟩
    have hnot : ¬(mayBeEmpty = false ∧ l = []) := fun ⟨hm, hnil⟩ => hne hm hnil
    simp only [writeBytes8, readLP8_eq_vec8.mpr ⟨hlen, hs⟩, if_neg hnot]

end Vectors

lemma u16s_eq_nil : u16s l = [] ↔ l = [] := by
  rw [← length_eq_zero_iff, length_u16s, ← length_eq_zero_iff]
  omega

lemma protocolNames_eq_nil {l : List GoString} : protocolNames l = [] ↔ l = [] := by
  cases l <;> simp [protocolNames, vec8, u8]

lemma keyShareEntries_eq_nil {l : List KeyShare} : keyShareEntries l = [] ↔ l = [] := by
  cases l <;> simp [keyShareEntries, u16]

/-- A vector of sixteen-bit values, for both widths of its length. -/
lemma writeVector_readU16_eq_ok {outer : Bytes → Option (Bytes × Bytes)} {pre : Bytes → Bytes}
    {bound : Nat} {mayBeEmpty : Bool} {msg : String}
    (houter : ∀ s v r, outer s = some (v, r) ↔ v.length < bound ∧ s = pre v ++ r) :
    writeVector outer mayBeEmpty readU16 msg msg s = .ok (l, r) ↔
      (mayBeEmpty = false → l ≠ []) ∧ (u16s l).length < bound ∧ s = pre (u16s l) ++ r := by
  have hitems : ∀ s l, parseAll readU16 s = some l ↔ (∀ x ∈ l, True) ∧ s = u16s l := by
    intro s l
    simp [parseAll_readU16_eq_some]
  rw [writeVector_eq_ok houter hitems fun l => u16s_eq_nil]
  simp

lemma writeU16s_eq_ok {msg : String} :
    writeU16s msg s = .ok (l, r) ↔
      l ≠ [] ∧ (u16s l).length < 65536 ∧ s = vec16 (u16s l) ++ r := by
  rw [writeU16s, writeVector_readU16_eq_ok fun _ _ _ => readLP16_eq_vec16]
  simp

lemma writeProtocols_eq_ok {l : List GoString} :
    writeProtocols s = .ok (l, r) ↔
      l ≠ [] ∧ (∀ n ∈ l, ShortName n) ∧ (protocolNames l).length < 65536 ∧
        s = vec16 (protocolNames l) ++ r := by
  rw [writeProtocols, writeVector_eq_ok (fun _ _ _ => readLP16_eq_vec16)
    (fun _ _ => parseAll_readNonEmpty8_eq_some) fun l => protocolNames_eq_nil]
  tauto

/-! ## The loops over identities and binders -/

lemma identityRound_eq_some {i : PskIdentity} :
    identityRound n s = some ((i, n'), r) ↔ ∃ b, IdentityRound n i n' b ∧ s = b ++ r := by
  constructor
  · intro h
    obtain ⟨⟨len, s1⟩, hlen, h1⟩ := bind_eq_some_iff.mp h
    dsimp only at h1
    split_ifs at h1 with hle
    obtain ⟨⟨label, s2⟩, hlabel, h2⟩ := bind_eq_some_iff.mp h1
    obtain ⟨⟨age, s3⟩, hage, heq⟩ := map_eq_some_iff.mp h2
    obtain ⟨hl, rfl⟩ := readN_eq_some.mp hlabel
    obtain rfl : UInt16.ofNat label.length = len := by rw [hl, UInt16.ofNat_toNat]
    have hlt := (UInt16.ofNat label.length).toNat_lt
    rw [← hl] at hlt
    cases heq
    refine ⟨_, .intro hlt (UInt16.not_lt.mp hle), ?_⟩
    have hs2 : s2 = u32 age.toNat ++ s3 := readU32_eq_some.mp hage
    rw [readU16_eq_some.mp hlen, hs2, vec16, ← hl]
    simp only [append_assoc]
  · rintro ⟨b, hb, rfl⟩
    cases hb with
    | intro hlen hle =>
      have hcast : (UInt16.ofNat i.label.length).toNat = i.label.length := by
        rw [UInt16.toNat_ofNat']; omega
      simp only [identityRound, vec16, append_assoc, readU16_u16, bind_some, hcast,
        readN_append, readU32_u32_toNat, map_some, if_neg (UInt16.not_lt.mpr hle)]

lemma binderRound_eq_some {x : Bytes} :
    binderRound n s = some ((x, n'), r) ↔ ∃ b, BinderRound n x n' b ∧ s = b ++ r := by
  constructor
  · intro h
    obtain ⟨⟨len, s1⟩, hlen, h1⟩ := bind_eq_some_iff.mp h
    dsimp only at h1
    split_ifs at h1 with hle
    obtain ⟨⟨binder, s2⟩, hbinder, heq⟩ := map_eq_some_iff.mp h1
    obtain ⟨hl, rfl⟩ := readN_eq_some.mp hbinder
    have hlt : binder.length < 256 := hl ▸ len.toNat_lt
    have hcast : len.toUInt16 = UInt16.ofNat binder.length := by
      apply UInt16.toNat.inj
      rw [UInt8.toNat_toUInt16, ← hl, UInt16.toNat_ofNat', Nat.mod_eq_of_lt (by omega)]
    have hlen' : u8 binder.length = [len] := by rw [hl, u8, UInt8.ofNat_toNat]
    cases heq
    rw [hcast] at hle ⊢
    refine ⟨_, .intro hlt (UInt16.not_lt.mp hle), ?_⟩
    rw [readU8_eq_some.mp hlen, vec8, hlen']
    rfl
  · rintro ⟨b, hb, rfl⟩
    cases hb with
    | intro hlen hle =>
      have hcast : (UInt8.ofNat x.length).toNat = x.length := by
        rw [UInt8.toNat_ofNat']; omega
      have hcast16 : (UInt8.ofNat x.length).toUInt16 = UInt16.ofNat x.length := by
        apply UInt16.toNat.inj
        rw [UInt8.toNat_toUInt16, hcast, UInt16.toNat_ofNat']
        omega
      simp only [binderRound, vec8, append_assoc, readU8_u8, bind_some, hcast, hcast16,
        readN_append, map_some, if_neg (UInt16.not_lt.mpr hle)]

lemma identityRound_ne_nil {i : PskIdentity} (h : IdentityRound n i n' b): b ≠ [] := by
  cases h
  simp [vec16, u16]

lemma binderRound_ne_nil {x : Bytes} (h : BinderRound n x n' b) : b ≠ [] := by
  cases h
  simp [vec8, u8]

lemma readFakePsk_eq_some {ids : List PskIdentity} {bs : List Bytes} :
    readFakePsk s = some ((ids, bs), r) ↔
      ∃ n m b b', CountedRun IdentityRound n ids b ∧ CountedRun BinderRound m bs b' ∧
        s = u16 n.toNat ++ (b ++ (u16 m.toNat ++ b')) ++ r := by
  have hids := @readCounted_eq_some _ identityRound IdentityRound
    (fun _ _ _ _ _ => identityRound_eq_some) (fun _ _ _ _ => identityRound_ne_nil)
  have hbs := @readCounted_eq_some _ binderRound BinderRound
    (fun _ _ _ _ _ => binderRound_eq_some) (fun _ _ _ _ => binderRound_ne_nil)
  constructor
  · intro h
    obtain ⟨⟨n, s1⟩, hn, h1⟩ := bind_eq_some_iff.mp h
    obtain ⟨⟨ids', s2⟩, hread, h2⟩ := bind_eq_some_iff.mp h1
    obtain ⟨⟨m, s3⟩, hm, h3⟩ := bind_eq_some_iff.mp h2
    obtain ⟨⟨bs', r'⟩, hread', heq⟩ := map_eq_some_iff.mp h3
    cases heq
    obtain ⟨b, hrun, rfl⟩ := (hids _ le_rfl).mp hread
    obtain ⟨b', hrun', rfl⟩ := (hbs _ le_rfl).mp hread'
    refine ⟨n, m, b, b', hrun, hrun', ?_⟩
    have hs2 : s2 = u16 m.toNat ++ (b' ++ r) := readU16_eq_some.mp hm
    rw [readU16_eq_some.mp hn, hs2]
    simp only [append_assoc]
  · rintro ⟨n, m, b, b', hrun, hrun', rfl⟩
    have hread : readCounted identityRound _ n (b ++ (u16 m.toNat ++ (b' ++ r))) = some (ids, _) :=
      (hids _ le_rfl).mpr ⟨b, hrun, rfl⟩
    have hread' : readCounted binderRound _ m (b' ++ r) = some (bs, r) :=
      (hbs _ le_rfl).mpr ⟨b', hrun', rfl⟩
    simp only [readFakePsk, append_assoc, readU16_u16_toNat, bind_some, hread, hread', map_some]

/-! ## What the methods accept -/

lemma readStatusRequest_eq_some {t : UInt8} :
    readStatusRequest s = some (t, r) ↔
      ∃ responders exts, responders.length < 65536 ∧ exts.length < 65536 ∧
        s = (t :: (vec16 responders ++ vec16 exts)) ++ r := by
  constructor
  · intro h
    obtain ⟨⟨t', s1⟩, ht, h1⟩ := bind_eq_some_iff.mp h
    obtain ⟨⟨a, s2⟩, ha, h2⟩ := bind_eq_some_iff.mp h1
    obtain ⟨⟨b, r'⟩, hb, heq⟩ := map_eq_some_iff.mp h2
    cases heq
    obtain ⟨ha', rfl⟩ := readLP16_eq_vec16.mp ha
    obtain ⟨hb', hs2⟩ := readLP16_eq_vec16.mp hb
    refine ⟨a, b, ha', hb', ?_⟩
    rw [readU8_eq_some.mp ht, show s2 = vec16 b ++ r from hs2]
    simp only [cons_append, append_assoc]
  · rintro ⟨a, b, ha, hb, rfl⟩
    simp only [readStatusRequest, cons_append, append_assoc, readU8, bind_some,
      readLP16_eq_vec16.mpr ⟨ha, rfl⟩, readLP16_eq_vec16.mpr ⟨hb, rfl⟩, map_some]

lemma readTokenBinding_eq_some {params : Bytes} {major minor : UInt8} :
    readTokenBinding s = some ((major, minor, params), r) ↔
      params.length < 256 ∧ s = (major :: minor :: vec8 params) ++ r := by
  constructor
  · intro h
    obtain ⟨⟨a, s1⟩, ha, h1⟩ := bind_eq_some_iff.mp h
    obtain ⟨⟨b, s2⟩, hb, h2⟩ := bind_eq_some_iff.mp h1
    obtain ⟨⟨p, r'⟩, hp, heq⟩ := map_eq_some_iff.mp h2
    cases heq
    obtain ⟨hlen, hs2⟩ := readLP8_eq_vec8.mp hp
    refine ⟨hlen, ?_⟩
    rw [readU8_eq_some.mp ha, show s1 = minor :: s2 from readU8_eq_some.mp hb,
      show s2 = vec8 params ++ r from hs2]
    rfl
  · rintro ⟨hlen, rfl⟩
    simp only [readTokenBinding, cons_append, readU8, bind_some,
      readLP8_eq_vec8.mpr ⟨hlen, rfl⟩, map_some]

lemma except_map_eq_ok {ε α β : Type} {x : Except ε α} {f : α → β} {b : β} :
    x.map f = .ok b ↔ ∃ a, x = .ok a ∧ f a = b := by
  cases x <;> simp [Except.map]

lemma orText_eq_ok {α : Type} {msg : String} {x : Option α} {a : α} :
    orText msg x = .ok a ↔ x = some a := by
  cases x <;> simp [orText]

namespace ExtKind

/-- A string that `Write` parses begins with a complete body, and the body is all that it reads. -/
theorem exists_body_of_parse {k : ExtKind} {e : Ext} (h : k.parse s = .ok (e, r)) :
    ∃ body, Body k e body ∧ s = body ++ r := by
  cases k with
  | statusRequest =>
    simp only [parse] at h
    split at h
    · cases h
    · rename_i t r' ht
      split_ifs at h with h1
      cases h
      obtain ⟨a, b, ha, hb, rfl⟩ := readStatusRequest_eq_some.mp ht
      rw [not_not.mp h1]
      exact ⟨_, .statusRequest ha hb, rfl⟩
  | supportedCurves | signatureAlgorithms | signatureAlgorithmsCert | fakeDelegatedCredentials =>
    obtain ⟨⟨l, r'⟩, hl, heq⟩ := except_map_eq_ok.mp h
    cases heq
    obtain ⟨hne, hlen, rfl⟩ := writeU16s_eq_ok.mp hl
    exact ⟨_, by constructor <;> assumption, rfl⟩
  | alpn | applicationSettings | applicationSettingsNew =>
    obtain ⟨⟨l, r'⟩, hl, heq⟩ := except_map_eq_ok.mp h
    cases heq
    obtain ⟨hne, hshort, hlen, rfl⟩ := writeProtocols_eq_ok.mp hl
    exact ⟨_, by constructor <;> assumption, rfl⟩
  | supportedPoints =>
    obtain ⟨⟨l, r'⟩, hl, heq⟩ := except_map_eq_ok.mp h
    cases heq
    obtain ⟨hne, hlen, rfl⟩ := writeBytes8_eq_ok.mp hl
    exact ⟨_, .supportedPoints (hne rfl) hlen, rfl⟩
  | pskKeyExchangeModes =>
    obtain ⟨⟨l, r'⟩, hl, heq⟩ := except_map_eq_ok.mp h
    cases heq
    obtain ⟨-, hlen, rfl⟩ := writeBytes8_eq_ok.mp hl
    exact ⟨_, .pskKeyExchangeModes hlen, rfl⟩
  | utlsCompressCert =>
    obtain ⟨⟨l, r'⟩, hl, heq⟩ := except_map_eq_ok.mp h
    cases heq
    obtain ⟨-, hlen, rfl⟩ := (writeVector_readU16_eq_ok fun _ _ _ => readLP8_eq_vec8).mp hl
    exact ⟨_, .utlsCompressCert hlen, rfl⟩
  | supportedVersions =>
    obtain ⟨⟨l, r'⟩, hl, heq⟩ := except_map_eq_ok.mp h
    cases heq
    obtain ⟨hne, hlen, rfl⟩ := (writeVector_readU16_eq_ok fun _ _ _ => readLP8_eq_vec8).mp hl
    exact ⟨_, .supportedVersions (hne rfl) hlen, rfl⟩
  | keyShare =>
    obtain ⟨⟨l, r'⟩, hl, heq⟩ := except_map_eq_ok.mp h
    cases heq
    obtain ⟨hsound, -, hlen, rfl⟩ := (writeVector_eq_ok (fun _ _ _ => readLP16_eq_vec16)
      (fun _ _ => parseAll_readKeyShare_eq_some) fun _ => keyShareEntries_eq_nil).mp hl
    exact ⟨_, .keyShare hsound hlen, rfl⟩
  | trustAnchors =>
    obtain ⟨⟨l, r'⟩, hl, heq⟩ := except_map_eq_ok.mp h
    cases heq
    obtain ⟨hshort, -, hlen, rfl⟩ := (writeVector_eq_ok (fun _ _ _ => readLP16_eq_vec16)
      (fun _ _ => parseAll_readNonEmpty8_eq_some) fun _ => protocolNames_eq_nil).mp hl
    exact ⟨_, .trustAnchors hshort hlen, rfl⟩
  | fakeRecordSizeLimit =>
    obtain ⟨⟨limit, r'⟩, hl, heq⟩ := except_map_eq_ok.mp h
    cases heq
    exact ⟨_, .fakeRecordSizeLimit limit, readU16_eq_some.mp (orText_eq_ok.mp hl)⟩
  | fakeTokenBinding =>
    obtain ⟨⟨⟨major, minor, params⟩, r'⟩, hl, heq⟩ := except_map_eq_ok.mp h
    cases heq
    obtain ⟨hlen, rfl⟩ := readTokenBinding_eq_some.mp (orText_eq_ok.mp hl)
    exact ⟨_, .fakeTokenBinding major minor hlen, rfl⟩
  | fakePreSharedKey =>
    obtain ⟨⟨⟨ids, bs⟩, r'⟩, hl, heq⟩ := except_map_eq_ok.mp h
    cases heq
    obtain ⟨n, m, b, b', hids, hbs, rfl⟩ := readFakePsk_eq_some.mp (orText_eq_ok.mp hl)
    exact ⟨_, .fakePreSharedKey hids hbs, rfl⟩

/-- A complete body is parsed, whatever follows it. -/
theorem Body.parse {k : ExtKind} {e : Ext} {body : Bytes} (hbody : Body k e body) (r : Bytes) :
    k.parse (body ++ r) = .ok (e, r) := by
  cases hbody with
  | statusRequest ha hb =>
    simp only [ExtKind.parse, readStatusRequest_eq_some.mpr ⟨_, _, ha, hb, rfl⟩, ne_eq, not_true,
      if_false]
  | supportedCurves hne hlen | signatureAlgorithms hne hlen | signatureAlgorithmsCert hne hlen
  | fakeDelegatedCredentials hne hlen =>
    exact except_map_eq_ok.mpr ⟨_, writeU16s_eq_ok.mpr ⟨hne, hlen, rfl⟩, rfl⟩
  | alpn hne hl hlen | applicationSettings hne hl hlen | applicationSettingsNew hne hl hlen =>
    exact except_map_eq_ok.mpr ⟨_, writeProtocols_eq_ok.mpr ⟨hne, hl, hlen, rfl⟩, rfl⟩
  | supportedPoints hne hlen =>
    exact except_map_eq_ok.mpr ⟨_, writeBytes8_eq_ok.mpr ⟨fun _ => hne, hlen, rfl⟩, rfl⟩
  | pskKeyExchangeModes hlen =>
    exact except_map_eq_ok.mpr ⟨_, writeBytes8_eq_ok.mpr ⟨nofun, hlen, rfl⟩, rfl⟩
  | utlsCompressCert hlen =>
    exact except_map_eq_ok.mpr ⟨_, (writeVector_readU16_eq_ok fun _ _ _ => readLP8_eq_vec8).mpr
      ⟨nofun, hlen, rfl⟩, rfl⟩
  | supportedVersions hne hlen =>
    exact except_map_eq_ok.mpr ⟨_, (writeVector_readU16_eq_ok fun _ _ _ => readLP8_eq_vec8).mpr
      ⟨fun _ => hne, hlen, rfl⟩, rfl⟩
  | keyShare hl hlen =>
    exact except_map_eq_ok.mpr ⟨_, (writeVector_eq_ok (fun _ _ _ => readLP16_eq_vec16)
      (fun _ _ => parseAll_readKeyShare_eq_some) fun _ => keyShareEntries_eq_nil).mpr
        ⟨hl, nofun, hlen, rfl⟩, rfl⟩
  | trustAnchors hl hlen =>
    exact except_map_eq_ok.mpr ⟨_, (writeVector_eq_ok (fun _ _ _ => readLP16_eq_vec16)
      (fun _ _ => parseAll_readNonEmpty8_eq_some) fun _ => protocolNames_eq_nil).mpr
        ⟨hl, nofun, hlen, rfl⟩, rfl⟩
  | fakeRecordSizeLimit limit =>
    rw [ExtKind.parse, readU16_u16_toNat]
    rfl
  | fakeTokenBinding major minor hlen =>
    exact except_map_eq_ok.mpr ⟨_, orText_eq_ok.mpr (readTokenBinding_eq_some.mpr ⟨hlen, rfl⟩), rfl⟩
  | fakePreSharedKey hids hbs =>
    exact except_map_eq_ok.mpr ⟨_, orText_eq_ok.mpr
      (readFakePsk_eq_some.mpr ⟨_, _, _, _, hids, hbs, rfl⟩), rfl⟩

end ExtKind

/-! ## Bytes behind a body -/

lemma ExtKind.write_eq_ok {k : ExtKind} {n : Nat} {e : Ext} :
    k.write b = (n, .ok e) ↔ n = b.length ∧ ∃ r, k.parse b = .ok (e, r) := by
  unfold write
  split
  · rename_i e' r h
    simp only [Prod.mk.injEq, Except.ok.injEq, h, exists_and_left, exists_eq', and_true]
    constructor
    · rintro ⟨rfl, rfl⟩
      exact ⟨rfl, rfl⟩
    · rintro ⟨rfl, rfl⟩
      exact ⟨rfl, rfl⟩
  · rename_i h
    simp [h]

/-- `Write` reports success with bytes left over exactly on the strings that go on behind a complete
body. -/
theorem write_reads_all_iff (k : ExtKind) (b : Bytes) :
    (∀ n e, k.write b = (n, .ok e) → k.parse b = .ok (e, [])) ↔
      ∀ e body t, k.Body e body → b = body ++ t → t = [] := by
  constructor
  · rintro h e body t hbody rfl
    have hparse := hbody.parse t
    have hall := h _ e (ExtKind.write_eq_ok.mpr ⟨rfl, t, hparse⟩)
    rw [hparse] at hall
    cases hall
    rfl
  · intro h n e hwrite
    obtain ⟨-, r, hparse⟩ := ExtKind.write_eq_ok.mp hwrite
    obtain ⟨body, hbody, hb⟩ := ExtKind.exists_body_of_parse hparse
    rw [hparse, h e body r hbody hb]

/-- A byte behind the list of groups is dropped without an error. -/
theorem write_drops_trailing_byte :
    ¬∀ n e, ExtKind.supportedCurves.write [0, 2, 0, 29, 0xff] = (n, .ok e) →
      ExtKind.supportedCurves.parse [0, 2, 0, 29, 0xff] = .ok (e, []) := by
  intro h
  have hparse : ExtKind.supportedCurves.parse [0, 2, 0, 29, 0xff] =
      .ok (.supportedCurves [29], [0xff]) := rfl
  have hall := h 5 (.supportedCurves [29]) rfl
  cases hall

end Utls
