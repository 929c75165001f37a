import Utls.Conn

/-!
# Encrypted ClientHello: configurations and encodings

The part of ECH that works on byte strings: the list of configurations a client is given, the
encoded inner hello with its padding, the extension that carries the sealed inner hello, and the
way a server reconstructs the inner hello from its encoding and from the outer hello.
-/

namespace Utls

open Wire Exec Option

/-! ## Configurations -/

def supportedKEMs : List UInt16 := [0x0020]
def supportedKDFs : List UInt16 := [0x0001]

/-- The AEADs of the HPKE package. -/
def supportedAEADs : List UInt16 := [0x0001, 0x0002, 0x0003]

/-- One cipher suite of a configuration. -/
def readEchCipher (s : Bytes) : Option (EchCipher × Bytes) :=
  (readU16 s).bind fun (kdf, s) => (readU16 s).map fun (aead, s) => (⟨kdf, aead⟩, s)

/-- The fields behind the length of a configuration.  They are read from everything that follows,
not only from the bytes the length announces. -/
def parseECHConfigFields (raw : Bytes) (version length : UInt16) (s : Bytes) : Option EchConfig :=
  (readU8 s).bind fun (configID, s) => (readU16 s).bind fun (kemID, s) =>
  (readLP16 s).bind fun (publicKey, s) => (readLP16 s).bind fun (suites, s) =>
  (parseAll readEchCipher suites).bind fun symmetricCipherSuite =>
  (readU8 s).bind fun (maxNameLength, s) => (readLP8 s).bind fun (publicName, s) =>
  (readLP16 s).bind fun (exts, _) => (parseAll readRawExtension exts).map fun extensions =>
    { raw, version, length, configID, kemID, publicKey, symmetricCipherSuite, maxNameLength,
      publicName, extensions }

/-- The error of a malformed configuration. -/
def errMalformedECHConfig : Err := .text "tls: malformed ECHConfigList"

/-- `parseECHConfig`; `none` is a configuration of another version, which is skipped.  The length
of the raw bytes is a sixteen-bit sum. -/
def parseECHConfig (enc : Bytes) : Except Err (Option EchConfig) :=
  match (readU16 enc).bind fun (version, s) => (readU16 s).map fun (length, s) =>
      (version, length, s) with
  | none => .error errMalformedECHConfig
  | some (version, length, s) =>
    if enc.length < length.toNat + 4 then .error errMalformedECHConfig
    else if version ≠ extensionEncryptedClientHello then .ok none
    else
      match parseECHConfigFields (enc.take (length + 4).toNat) version length s with
      | none => .error errMalformedECHConfig
      | some ec => .ok (some ec)

/-- The loop of `parseECHConfigList`, cut off after a number of rounds: `none` is a loop that has
not ended by then.  The cursor moves by a sixteen-bit sum. -/
def parseECHConfigs : Nat → Bytes → Option (Except Err (List EchConfig))
  | _, [] => some (.ok [])
  | 0, _ :: _ => none
  | n + 1, s@(_ :: _) =>
    if s.length < 4 then some (.error (.text "tls: malformed ECHConfig"))
    else
      let configLen := UInt16.ofNat ((s.getD 2 0).toNat * 256 + (s.getD 3 0).toNat)
      match parseECHConfig s with
      | .error e => some (.error e)
      | .ok ec =>
        (parseECHConfigs n (s.drop (configLen + 4).toNat)).map fun rest =>
          rest.map fun l => ec.toList ++ l

/-- `parseECHConfigList`; `none` is a loop that does not end. -/
def parseECHConfigList (data : Bytes) : Option (Except Err (List EchConfig)) :=
  match readU16 data with
  | none => some (.error errMalformedECHConfig)
  | some (length, s) =>
    if length ≠ UInt16.ofNat (data.length - 2) then some (.error errMalformedECHConfig)
    else parseECHConfigs s.length s

/-- A label of a DNS name: letters, digits and inner hyphens. -/
def validLabel (l : Bytes) : Bool :=
  l.length ≠ 0 && l.head? ≠ some 45 && l.getLast? ≠ some 45 &&
    l.all fun b => (48 ≤ b && b ≤ 57) || (97 ≤ b && b ≤ 122) || (65 ≤ b && b ≤ 90) || b == 45

/-- `validDNSName`. -/
def validDNSName (name : GoString) : Bool :=
  name.length ≤ 253 && 1 < (name.splitOn 46).length && (name.splitOn 46).all validLabel

/-- The client supports both algorithms of a cipher suite. -/
def EchCipher.supported (s : EchCipher) : Bool :=
  supportedAEADs.contains s.aeadID && supportedKDFs.contains s.kdfID

/-- The client can use a configuration. -/
def EchConfig.usable (ec : EchConfig) : Bool :=
  supportedKEMs.contains ec.kemID && ec.symmetricCipherSuite.any (·.supported) &&
    validDNSName ec.publicName && ec.extensions.all fun e => e.extType < 0x8000

/-- `pickECHConfig`. -/
def pickECHConfig (list : List EchConfig) : Option EchConfig := list.find? (·.usable)

/-- `pickECHCipherSuite`. -/
def pickECHCipherSuite (suites : List EchCipher) : Option EchCipher := suites.find? (·.supported)

/-! ## The encoded inner hello -/

/-- `encodeInnerClientHelloReorderOuterExts`: the inner hello without its message header, padded to
a multiple of 32 bytes. -/
def encodeInnerClientHelloReorderOuterExts (inner : ClientHelloMsg) (maxNameLength : Nat)
    (outerExts : Option (List UInt16)) : Option Bytes :=
  (inner.marshalMsgReorderOuterExts true outerExts).map fun m =>
    let h := m.drop 4
    let paddingLen :=
      if inner.serverName.length ≠ 0 then maxNameLength - inner.serverName.length
      else maxNameLength + 9
    h ++ List.replicate (31 - (h.length + paddingLen - 1) % 32) 0

/-- `extractRawExtensions`. -/
def extractRawExtensions (original : Bytes) : Option (List RawExtension) :=
  (readN 38 original).bind fun (_, s) => (readLP8 s).bind fun (_, s) =>
  (readLP16 s).bind fun (_, s) => (readLP8 s).bind fun (_, s) =>
  (readLP16 s).bind fun (exts, _) => parseAll readRawExtension exts

/-- Looks the listed types up in the outer extensions, in order.  The cursor stays on the extension
that was found. -/
def takeOuterExtensions : List RawExtension → List UInt16 → Option (List RawExtension)
  | _, [] => some []
  | outer, t :: ts =>
    if t = extensionEncryptedClientHello then none
    else
      match outer.dropWhile fun e => e.extType ≠ t with
      | [] => none
      | e :: rest => (takeOuterExtensions (e :: rest) ts).map (e :: ·)

/-- Replaces `ech_outer_extensions` by the extensions it names. -/
def expandExtension (outer : List RawExtension) (e : RawExtension) : Option (List RawExtension) :=
  if e.extType = extensionECHOuterExtensions then
    (readLP8 e.data).bind fun (types, _) =>
      (parseAll readU16 types).bind fun types => takeOuterExtensions outer types
  else some [e]

/-- The bytes of an extension. -/
def rawExtensionBytes (e : RawExtension) : Bytes := extFrame e.extType e.data

/-- The parts of an encoded inner hello. -/
structure EncodedInner where
  versionAndRandom : Bytes
  cipherSuites : Bytes
  compressionMethods : Bytes
  extensions : List RawExtension

/-- Takes an encoded inner hello apart; its session id must be empty and its padding zero. -/
def parseEncodedInner (encoded : Bytes) : Option EncodedInner :=
  (readN 34 encoded).bind fun (versionAndRandom, s) => (readLP8 s).bind fun (sessionID, s) =>
  if sessionID.length ≠ 0 then none else
  (readLP16 s).bind fun (cipherSuites, s) => (readLP8 s).bind fun (compressionMethods, s) =>
  (readLP16 s).bind fun (exts, pad) =>
  if pad.any (· ≠ 0) then none else
  (parseAll readRawExtension exts).map fun extensions =>
    { versionAndRandom, cipherSuites, compressionMethods, extensions }

/-- The bytes of the reconstructed inner hello. -/
def reconstructInner (outerSessionId : Bytes) (outer : List RawExtension) (p : EncodedInner) :
    Option Bytes :=
  (p.extensions.mapM (expandExtension outer)).bind fun exts =>
  (lp8 outerSessionId).bind fun sid => (lp16 p.cipherSuites).bind fun suites =>
  (lp8 p.compressionMethods).bind fun comp =>
  (lp16 (exts.flatten.flatMap rawExtensionBytes)).bind fun block =>
  (lp24 (p.versionAndRandom ++ (sid ++ (suites ++ (comp ++ block))))).map fun body => 1 :: body

/-- `decodeInnerClientHelloWithRaw`: the inner hello a server obtains, and its bytes. -/
def decodeInnerClientHelloWithRaw (outer : ClientHelloMsg) (encoded : Bytes) :
    Option (ClientHelloMsg × Bytes) :=
  (parseEncodedInner encoded).bind fun p =>
  (extractRawExtensions (outer.original.getD [])).bind fun outerExts =>
  (reconstructInner outer.sessionId outerExts p).bind fun recon =>
  (ClientHelloMsg.unmarshal recon).bind fun inner =>
    if inner.encryptedClientHello = [1] ∧ inner.supportedVersions = [VersionTLS13] then
      some (inner, recon)
    else none

/-- `decodeInnerClientHello`. -/
def decodeInnerClientHello (outer : ClientHelloMsg) (encoded : Bytes) : Option ClientHelloMsg :=
  (decodeInnerClientHelloWithRaw outer encoded).map Prod.fst

/-! ## The extension of the outer hello -/

/-- `generateOuterECHExt`. -/
def generateOuterECHExt (id : UInt8) (kdfID aeadID : UInt16) (encodedKey payload : Bytes) :
    Option Bytes :=
  (lp16 encodedKey).bind fun key => (lp16 payload).map fun pl =>
    0 :: (u16 kdfID.toNat ++ (u16 aeadID.toNat ++ (id :: (key ++ pl))))

/-- The contents of an outer ECH extension. -/
structure OuterECH where
  cipherSuite : EchCipher
  configID : UInt8
  encap : Bytes
  payload : Bytes
  deriving DecidableEq, Repr

/-- `parseECHExt` on an outer extension.  What follows the payload is not looked at. -/
def parseOuterECHExt (ext : Bytes) : Option OuterECH :=
  (readU8 ext).bind fun (t, s) => if t ≠ 0 then none else
  (readU16 s).bind fun (kdf, s) => (readU16 s).bind fun (aead, s) =>
  (readU8 s).bind fun (configID, s) => (readLP16 s).bind fun (encap, s) =>
  (readLP16 s).map fun (payload, _) =>
    { cipherSuite := ⟨kdf, aead⟩, configID, encap, payload }

/-- What is generated is read back. -/
lemma parseOuterECHExt_generate {id : UInt8} {kdf aead : UInt16} {key payload ext : Bytes}
    (h : generateOuterECHExt id kdf aead key payload = some ext) :
    parseOuterECHExt ext = some ⟨⟨kdf, aead⟩, id, key, payload⟩ := by
  unfold generateOuterECHExt at h
  obtain ⟨k, hk, h⟩ := bind_eq_some_iff.mp h
  obtain ⟨p, hp, h⟩ := map_eq_some_iff.mp h
  obtain ⟨hkl, rfl⟩ := lp16_eq_some.mp hk
  obtain ⟨hpl, rfl⟩ := lp16_eq_some.mp hp
  subst h
  have hpay : readLP16 (u16 payload.length ++ payload) = some (payload, []) := by
    simpa using readLP16_u16 hpl []
  simp [parseOuterECHExt, readU8, List.append_assoc, readLP16_u16 hkl, hpay]

/-- The extension only depends on the payload through its bytes and length. -/
lemma length_generateOuterECHExt {id : UInt8} {kdf aead : UInt16} {key payload ext : Bytes}
    (h : generateOuterECHExt id kdf aead key payload = some ext) :
    ext.length = 10 + key.length + payload.length := by
  unfold generateOuterECHExt at h
  obtain ⟨k, hk, h⟩ := bind_eq_some_iff.mp h
  obtain ⟨p, hp, h⟩ := map_eq_some_iff.mp h
  obtain ⟨-, rfl⟩ := lp16_eq_some.mp hk
  obtain ⟨-, rfl⟩ := lp16_eq_some.mp hp
  subst h
  simp
  omega

end Utls
