import Utls.EchBuild
import Utls.HelloRetry

/-!
# The ServerHello of the TLS 1.3 handshake

After its ClientHello the client reads a ServerHello.  With ECH the message also says if the inner
hello was accepted (`confirmEch`); `processServerHello` checks the key share and the pre-shared key
that the server has chosen, and `establishHandshakeKeys` computes the shared secret.  The client
keeps three private keys for its shares: one of a group without an ML-KEM part, and the two of a
hybrid group.

ECDH and ML-KEM are abstract key pairs.  A shared secret is the list of its parts, and a part names
the private key and the value of the server that it was computed from.
-/

namespace Utls

open Wire Exec

/-! ## Shared secrets -/

/-- A part of a shared secret.  `kyber` is the result of a decapsulation with the final hash of the
draft version. -/
inductive SecretPart where
  | ecdh (key : EcdhKey) (peer : Bytes)
  | mlkem (key : MlkemKey) (ciphertext : Bytes)
  | kyber (key : MlkemKey) (ciphertext : Bytes)
  deriving DecidableEq, Repr

/-- `mlkem.CiphertextSize768`. -/
def ciphertextSize768 : Nat := 1088

def x25519PublicKeySize : Nat := 32

/-- The length of the public keys of a curve; there are none for a curve that is not supported. -/
def publicKeySize (curve : UInt16) : Option Nat :=
  if curve = X25519 then some x25519PublicKeySize
  else if curve = CurveP256 then some 65
  else if curve = CurveP384 then some 97
  else if curve = CurveP521 then some 133
  else none

/-- What `crypto/ecdh` says about the values of a server: which are points of a curve, and with
which of them `ECDH` fails. -/
structure KeyExchange where
  isPublicKey : UInt16 → Bytes → Bool
  isPublicKey_length : ∀ curve b, isPublicKey curve b = true → publicKeySize curve = some b.length
  ecdhFails : EcdhKey → Bytes → Bool

/-- The error of a key share that is no point of the curve. -/
def errInvalidShare : Err := .alert "illegal_parameter" "tls: invalid server key share"

/-- `getSharedKey`. -/
def getSharedKey (x : KeyExchange) (peerData : Bytes) (key : EcdhKey) :
    Except Err (List SecretPart) :=
  if x.isPublicKey key.curve peerData = false then .error errInvalidShare
  else if x.ecdhFails key peerData = true then .error errInvalidShare
  else .ok [.ecdh key peerData]

/-- The ECDH half of the share of the server. -/
def ecdhePeerData (share : KeyShare) : Except Err Bytes :=
  if share.group = X25519MLKEM768 then
    if share.data.length ≠ ciphertextSize768 + x25519PublicKeySize then
      .error (.alert "illegal_parameter" "tls: invalid server X25519MLKEM768 key share")
    else .ok (share.data.drop ciphertextSize768)
  else if share.group = X25519Kyber768Draft00 then
    if share.data.length ≠ x25519PublicKeySize + ciphertextSize768 then
      .error (.alert "illegal_parameter" "tls: invalid server X25519Kyber768Draft00 key share")
    else .ok (share.data.take x25519PublicKeySize)
  else .ok share.data

/-- The ML-KEM half of the share of the server, for a hybrid group. -/
def ciphertextPart (share : KeyShare) : Bytes :=
  if share.group = X25519Kyber768Draft00 then share.data.drop x25519PublicKeySize
  else share.data.take ciphertextSize768

/-- The shared secret of a hybrid group from its two parts; the draft version has them the other way
round. -/
def joinSecrets (group : UInt16) (key : MlkemKey) (ciphertext : Bytes) (ecdh : List SecretPart) :
    List SecretPart :=
  if group = X25519Kyber768Draft00 then ecdh ++ [.kyber key ciphertext]
  else .mlkem key ciphertext :: ecdh

/-- The ECDH part of the secret of a hybrid group: a hello of the package has a key of its own for
it. -/
def hybridEcdh (x : KeyExchange) (keys : KeySharePrivateKeys) (peer : Bytes)
    (sharedKey : List SecretPart) (c : UConn) : M (List SecretPart) :=
  if c.clientHelloBuildStatus = .buildByUtls then
    match keys.mlkemEcdhe with
    | none => panicWith "nil pointer dereference"
    | some key => ofExcept (getSharedKey x peer key)
  else pure sharedKey

/-- The part of `establishHandshakeKeys` for a hybrid group; it is the same for both of them up to
the order of the parts.  Decapsulation fails on a ciphertext of a wrong length only. -/
def hybridSecret (x : KeyExchange) (share : KeyShare) (keys : KeySharePrivateKeys) (peer : Bytes)
    (sharedKey : List SecretPart) : M (List SecretPart) := do
  let mlkem ← ofOption (.alert "internal_error" "tls: internal error") keys.mlkem
  let c ← get
  let ecdh ← hybridEcdh x keys peer sharedKey c
  if (ciphertextPart share).length ≠ ciphertextSize768 then
    fail (.alert "illegal_parameter"
      (if share.group = X25519Kyber768Draft00 then "tls: invalid X25519Kyber768Draft00 server key share"
        else "tls: invalid X25519MLKEM768 server key share"))
  else return joinSecrets share.group mlkem (ciphertextPart share) ecdh

/-- `establishHandshakeKeys` up to the shared secret.  The key of a group without an ML-KEM part is
used in any case. -/
def establishHandshakeKeys (x : KeyExchange) (hs : HandshakeState13) : M (List SecretPart) := do
  let share := hs.serverHello.serverShare
  let peer ← ofExcept (ecdhePeerData share)
  match hs.keyShareKeys.ecdhe with
  | none => panicWith "nil pointer dereference"
  | some key =>
    let sharedKey ← ofExcept (getSharedKey x peer key)
    if isHybrid share.group then hybridSecret x share hs.keyShareKeys peer sharedKey
    else return sharedKey

/-! ## The checks of the ServerHello -/

/-- The end of `processServerHello`: whether the pre-shared key is used. -/
def HandshakeState13.selectPsk (hs : HandshakeState13) : Except Err Bool :=
  if hs.serverHello.selectedIdentityPresent = false then .ok false
  else if hs.serverHello.selectedIdentity.toNat ≥ hs.hello.pskIdentities.length then
    .error (.alert "illegal_parameter" "tls: server selected an invalid PSK")
  else if hs.hello.pskIdentities.length ≠ 1 then
    .error (.alert "internal_error" "tls: internal error")
  else
    match hs.session.bind fun s => cipherSuiteTLS13ByID s.cipherSuite with
    | none => .error (.alert "internal_error" "tls: internal error")
    | some pskSuite =>
      if some pskSuite.hash ≠ hs.suite.map fun suite => suite.hash then
        .error (.alert "illegal_parameter" "tls: server selected an invalid PSK and cipher suite pair")
      else .ok true

/-- `processServerHello`; the result is `usingPSK`. -/
def HandshakeState13.processServerHello (hs : HandshakeState13) : Except Err Bool :=
  let sh := hs.serverHello
  if sh.random = helloRetryRequestRandom then
    .error (.alert "unexpected_message" "tls: server sent two HelloRetryRequest messages")
  else if sh.cookie.isSome then
    .error (.alert "unsupported_extension" "tls: server sent a cookie in a normal ServerHello")
  else if sh.selectedGroup ≠ 0 then
    .error (.alert "decode_error" "tls: malformed key_share extension")
  else if sh.serverShare.group = 0 then
    .error (.alert "illegal_parameter" "tls: server did not send a key share")
  else if !hs.hello.keyShares.any fun ks => ks.group == sh.serverShare.group then
    .error (.alert "illegal_parameter" "tls: server selected unsupported group")
  else hs.selectPsk

section Deps

variable (d : Deps) (confirmation : HashId → Bytes → String → Bytes → Bytes)

/-- The ServerHello confirms that the inner hello was accepted.  The confirmation value is the end
of the random of the server, and is zero in the transcript that it is computed from. -/
def HandshakeState13.confirms (suite : CipherSuiteTLS13) (hs : HandshakeState13)
    (inner : ClientHelloMsg) : Bool :=
  let sh := hs.serverHello
  let confTranscript := hs.innerTranscript ++ sh.original.take 30 ++ List.replicate 8 0 ++
    sh.original.drop 38
  confirmation suite.hash inner.random "ech accept confirmation" (d.hash suite.hash confTranscript) ==
    sh.random.drop (sh.random.length - 8)

/-- The handshake goes on with the inner hello. -/
def HandshakeState13.acceptInner (hs : HandshakeState13) (inner : ClientHelloMsg)
    (serverName : GoString) : HandshakeState13 :=
  { hs with
    hello := inner, serverName := serverName, transcript := hs.innerTranscript, echAccepted := true }

/-- The ECH half of `handshake` after the last ServerHello; the second component is `echRejected`.
-/
def confirmEch (suite : CipherSuiteTLS13) (hs : HandshakeState13) :
    M (HandshakeState13 × Bool) := do
  let c ← get
  match hs.echContext with
  | none => return (hs, false)
  | some ech =>
    if ech.pskInOuterOnly then return (hs, true)
    else
      match ech.innerHello with
      | none => panicWith "nil pointer dereference"
      | some inner =>
        if hs.confirms d confirmation suite inner then
          if hs.serverHello.encryptedClientHello.isSome then
            fail (.alert "unsupported_extension" ("tls: unexpected encrypted client hello extension " ++
              "in server hello despite ECH being accepted"))
          else if inner.serverName.length = 0 ∧ hs.serverHello.serverNameAck = true then
            fail (.alert "unsupported_extension"
              "tls: unexpected server_name extension in server hello")
          else return (hs.acceptInner inner c.config.serverName, false)
        else return (hs, true)

/-- The state after the ServerHello was read. -/
def confirmedHello (hs : HandshakeState13) : M HandshakeState13 := do
  match hs.suite with
  | none => panicWith "nil pointer dereference"
  | some suite =>
    let r ← confirmEch d confirmation suite hs
    return r.1

/-- `handshake` of TLS 1.3 up to the shared secret, when the server sends no HelloRetryRequest. -/
def handshakeSecret (x : KeyExchange) (hs : HandshakeState13) : M (List SecretPart) := do
  let hs ← beginHandshake13 d hs
  let hs ← confirmedHello d confirmation hs
  let _ ← ofExcept hs.processServerHello
  establishHandshakeKeys x hs

end Deps

/-! ## What reading a ServerHello keeps -/

lemma publicKeySize_inj {a b : UInt16} {n : Nat} (ha : publicKeySize a = some n)
    (hb : publicKeySize b = some n) : a = b := by
  unfold publicKeySize at ha hb
  split_ifs at ha hb <;> simp_all [x25519PublicKeySize] <;> omega

section Deps

variable {d : Deps} {confirmation : HashId → Bytes → String → Bytes → Bytes}

/-- The checks and the transcripts of `beginHandshake13`, without the check of the keys. -/
def checkedHello (d : Deps) (hs : HandshakeState13) : M HandshakeState13 := do
  let hs ← ofExcept hs.checkServerHelloOrHRR
  let transcript ← hs.helloBytes
  match hs.echContext with
  | none => return { hs with transcript := transcript }
  | some ech =>
    let inner ← echTranscriptMsg d hs.hello ech
    return { hs with transcript := transcript, innerTranscript := inner }

lemma beginHandshake13_eq (hs : HandshakeState13) (c : UConn) :
    beginHandshake13 d hs c =
      if c.handshakes > 0 then
        fail (.alert "protocol_version" "tls: server selected TLS 1.3 in a renegotiation") c
      else if hs.keyShareKeys.ecdhe.isNone ∨ hs.hello.keyShares.length = 0 then
        fail (.alert "internal_error" "tls: internal error") c
      else checkedHello d hs c := by
  rw [beginHandshake13, run_get_bind]
  split_ifs <;> rfl

lemma keeps_echTranscriptMsg (outer : ClientHelloMsg) (ech : EchClientContext) :
    Keeps MarshalStep (echTranscriptMsg d outer ech) := by
  unfold echTranscriptMsg
  refine Keeps.ite ((Keeps.ofOption _ _).bind fun _ => .ofOption _ _) ?_
  exact (keeps_extensionsList d).bind fun _ => (Keeps.ofOption _ _).bind fun _ =>
    (Keeps.ofOption _ _).bind fun _ => .ofOption _ _

/-- The parts of the handshake state that reading a ServerHello does not touch. -/
structure HelloRead (hs : HandshakeState13) (c : UConn) (hs' : HandshakeState13) (c' : UConn) : Prop where
  keys : hs'.keyShareKeys = hs.keyShareKeys
  serverHello : hs'.serverHello = hs.serverHello
  hello : hs'.hello = hs.hello ∨ ∃ ech inner, hs.echContext = some ech ∧
    ech.innerHello = some inner ∧ hs'.hello = inner
  status : c'.clientHelloBuildStatus = c.clientHelloBuildStatus

lemma checkedHello_ok {hs hs' : HandshakeState13} {c c' : UConn}
    (h : checkedHello d hs c = .ok hs' c') :
    HelloRead hs c hs' c' ∧ hs'.hello = hs.hello ∧ hs'.echContext = hs.echContext := by
  obtain ⟨hs1, hcheck, h⟩ := ofExcept_bind_eq_ok.mp h
  obtain ⟨suite, -, rfl⟩ := checkServerHelloOrHRR_ok hcheck
  obtain ⟨transcript, -, h⟩ := ofOption_bind_eq_ok.mp h
  cases hech : hs.echContext with
  | none =>
    simp only [hech] at h
    cases h
    exact ⟨⟨rfl, rfl, .inl rfl, rfl⟩, rfl, rfl⟩
  | some ech =>
    simp only [hech] at h
    obtain ⟨inner, c3, h3, h⟩ := bind_eq_ok.mp h
    cases h
    obtain ⟨heap, draws, raw, rfl, -⟩ := (keeps_echTranscriptMsg hs.hello ech).of_ok h3
    exact ⟨⟨rfl, rfl, .inl rfl, rfl⟩, rfl, rfl⟩

variable (d confirmation) in
/-- What `confirmEch` returns. -/
inductive EchConfirmed (suite : CipherSuiteTLS13) (hs : HandshakeState13) (c : UConn) :
    HandshakeState13 × Bool → Prop where
  | without (hech : hs.echContext = none) : EchConfirmed suite hs c (hs, false)
  | outerOnly {ech : EchClientContext} (hech : hs.echContext = some ech)
      (ho : ech.pskInOuterOnly = true) : EchConfirmed suite hs c (hs, true)
  | accepted {ech : EchClientContext} {inner : ClientHelloMsg} (hech : hs.echContext = some ech)
      (ho : ech.pskInOuterOnly = false) (hinner : ech.innerHello = some inner)
      (hc : hs.confirms d confirmation suite inner = true) :
      EchConfirmed suite hs c (hs.acceptInner inner c.config.serverName, false)
  | rejected {ech : EchClientContext} {inner : ClientHelloMsg} (hech : hs.echContext = some ech)
      (ho : ech.pskInOuterOnly = false) (hinner : ech.innerHello = some inner)
      (hc : hs.confirms d confirmation suite inner = false) : EchConfirmed suite hs c (hs, true)

lemma confirmEch_ok {suite : CipherSuiteTLS13} {hs : HandshakeState13} {c c' : UConn}
    {r : HandshakeState13 × Bool} (h : confirmEch d confirmation suite hs c = .ok r c') :
    EchConfirmed d confirmation suite hs c r ∧ c' = c := by
  rw [confirmEch, run_get_bind] at h
  cases hech : hs.echContext with
  | none =>
    rw [hech] at h
    cases h
    exact ⟨.without hech, rfl⟩
  | some ech =>
    simp only [hech] at h
    cases ho : ech.pskInOuterOnly with
    | true =>
      rw [ho, if_pos rfl] at h
      cases h
      exact ⟨.outerOnly hech ho, rfl⟩
    | false =>
      rw [ho, if_neg Bool.false_ne_true] at h
      cases hinner : ech.innerHello with
      | none =>
        rw [hinner] at h
        cases h
      | some inner =>
        simp only [hinner] at h
        cases hc : hs.confirms d confirmation suite inner with
        | true =>
          rw [hc, if_pos rfl] at h
          split_ifs at h
          · cases h
          · cases h
          · cases h
            exact ⟨.accepted hech ho hinner hc, rfl⟩
        | false =>
          rw [hc, if_neg Bool.false_ne_true] at h
          cases h
          exact ⟨.rejected hech ho hinner hc, rfl⟩

lemma confirmedHello_ok {hs hs' : HandshakeState13} {c c' : UConn}
    (h : confirmedHello d confirmation hs c = .ok hs' c') : HelloRead hs c hs' c' := by
  unfold confirmedHello at h
  cases hsuite : hs.suite with
  | none =>
    rw [hsuite] at h
    cases h
  | some suite =>
    rw [hsuite] at h
    obtain ⟨r, c1, h1, h⟩ := bind_eq_ok.mp h
    cases h
    obtain ⟨hr, rfl⟩ := confirmEch_ok h1
    cases hr with
    | accepted hech _ hinner _ => exact ⟨rfl, rfl, .inr ⟨_, _, hech, hinner, rfl⟩, rfl⟩
    | _ => exact ⟨rfl, rfl, .inl rfl, rfl⟩

end Deps

end Utls
