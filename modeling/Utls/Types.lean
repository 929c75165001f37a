import Utls.Lib.Bytes

/-!
# Data shared by the whole model

Code points, errors and the small records that extensions, messages and sessions carry.
Go strings are byte strings.  A `nil` slice is told apart from an empty one (`Option`) only
where the source looks at the difference.
-/

namespace Utls

open Wire

/-- A Go string. -/
abbrev GoString := Bytes

/-! ## Errors -/

/-- The error values the modelled functions return.  The sentinels that callers compare are
constructors of their own; `text` is an error made from a message, `alert` a failed
handshake that sent the named alert, and `dependency` an error handed up by code outside the
model (the random source, HPKE, a key generator). -/
inductive Err where
  | text (msg : String)
  | alert (name msg : String)
  | shortBuffer
  | emptyPsk
  | dependency (what : String)
  deriving DecidableEq, Repr

/-! ## Code points -/

def extensionServerName : UInt16 := 0
def extensionStatusRequest : UInt16 := 5
def extensionSupportedCurves : UInt16 := 10
def extensionSupportedPoints : UInt16 := 11
def extensionSignatureAlgorithms : UInt16 := 13
def extensionALPN : UInt16 := 16
def extensionStatusRequestV2 : UInt16 := 17
def extensionSCT : UInt16 := 18
def utlsExtensionPadding : UInt16 := 21
def extensionExtendedMasterSecret : UInt16 := 23
def fakeExtensionTokenBinding : UInt16 := 24
def utlsExtensionCompressCertificate : UInt16 := 27
def fakeRecordSizeLimit : UInt16 := 28
def fakeExtensionDelegatedCredentials : UInt16 := 34
def extensionSessionTicket : UInt16 := 35
def extensionPreSharedKey : UInt16 := 41
def extensionEarlyData : UInt16 := 42
def extensionSupportedVersions : UInt16 := 43
def extensionCookie : UInt16 := 44
def extensionPSKModes : UInt16 := 45
def extensionSignatureAlgorithmsCert : UInt16 := 50
def extensionKeyShare : UInt16 := 51
def extensionQUICTransportParameters : UInt16 := 57
def extensionNextProtoNeg : UInt16 := 13172
def utlsExtensionApplicationSettings : UInt16 := 17513
def utlsExtensionApplicationSettingsNew : UInt16 := 17613
def fakeOldExtensionChannelID : UInt16 := 30031
def fakeExtensionChannelID : UInt16 := 30032
def utlsExtensionTrustAnchors : UInt16 := 0xca34
def extensionECHOuterExtensions : UInt16 := 0xfd00
def extensionEncryptedClientHello : UInt16 := 0xfe0d
def extensionRenegotiationInfo : UInt16 := 0xff01

def VersionTLS10 : UInt16 := 0x0301
def VersionTLS11 : UInt16 := 0x0302
def VersionTLS12 : UInt16 := 0x0303
def VersionTLS13 : UInt16 := 0x0304

def CurveP256 : UInt16 := 23
def CurveP384 : UInt16 := 24
def CurveP521 : UInt16 := 25
def X25519 : UInt16 := 29
def X25519MLKEM768 : UInt16 := 4588
def X25519Kyber768Draft00 : UInt16 := 0x6399

def scsvRenegotiation : UInt16 := 0x00ff
def GREASE_PLACEHOLDER : UInt16 := 0x0a0a

/-- The code points reserved for GREASE: two equal bytes of the form `0x?a`. -/
def isGREASEUint16 (v : UInt16) : Bool :=
  (v >>> 8 == v &&& 0xff) && (v &&& 0xf == 0xa)

/-! ## Small records -/

/-- A `KeyShareEntry`. -/
structure KeyShare where
  group : UInt16
  data : Bytes
  deriving DecidableEq, Repr

/-- A `PskIdentity`. -/
structure PskIdentity where
  label : Bytes
  obfuscatedTicketAge : UInt32
  deriving DecidableEq, Repr

/-- The hash of a TLS 1.3 cipher suite. -/
inductive HashId where
  | sha256
  | sha384
  deriving DecidableEq, Repr

/-- `hash.Size()`. -/
def HashId.size : HashId → Nat
  | .sha256 => 32
  | .sha384 => 48

/-- A TLS 1.3 cipher suite. -/
structure CipherSuiteTLS13 where
  id : UInt16
  hash : HashId
  deriving DecidableEq, Repr

/-- The table `cipherSuitesTLS13`. -/
def cipherSuitesTLS13 : List CipherSuiteTLS13 :=
  [⟨0x1301, .sha256⟩, ⟨0x1303, .sha256⟩, ⟨0x1302, .sha384⟩]

/-- Looks a suite up by its code point. -/
def cipherSuiteTLS13ByID (id : UInt16) : Option CipherSuiteTLS13 :=
  cipherSuitesTLS13.find? fun c => c.id == id

/-- A `SessionState`, as far as the client reads it.  `ident` tells two session objects apart:
comparing pointers to sessions is comparing these records. -/
structure SessionState where
  ident : Nat
  version : UInt16
  cipherSuite : UInt16
  secret : Bytes
  ticket : Option Bytes
  createdAt : Nat
  useBy : Nat
  ageAdd : UInt32
  peerCertNotAfter : Nat
  hasVerifiedChains : Bool
  earlyData : Bool := false
  alpnProtocol : GoString := []
  deriving DecidableEq, Repr

/-- The `Renegotiation` setting; `other` stands for a value that is none of the three. -/
inductive RenegotiationSupport where
  | never
  | onceAsClient
  | freelyAsClient
  | other
  deriving DecidableEq, Repr

/-- A pair of HPKE code points. -/
structure HPKESymmetricCipherSuite where
  kdfId : UInt16
  aeadId : UInt16
  deriving DecidableEq, Repr

end Utls
