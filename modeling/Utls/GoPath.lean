import Utls.EchSent
import Utls.InnerDecode
import Utls.SentHello

/-!
# ECH on the path of the standard library

A plain `Conn` makes its hello with `makeClientHello`, keeps a copy as the inner hello, and turns
the hello itself into the outer one: `Conn.clientHelloToSend`.  The inner hello is sealed in the
encoding that refers to the extensions of the outer one, and the inner transcript gets the bytes of
the ordinary writer.

The two have their extensions in different orders.  What a server puts together begins with the ECH
marker (`front_of_decoded`), and the ordinary writer never begins with it (`marshal_of_offering`),
so that the transcripts of the two sides differ whenever ECH is offered (`go_transcripts_differ`).
-/

namespace Utls

open Wire Exec List Option ClientHelloMsg

/-! ## The types of the extensions of a message -/

/-- The sixteen-bit number at an offset. -/
def uint16At (b : Bytes) (i : Nat) : Nat := (b.getD i 0).toNat * 256 + (b.getD (i + 1) 0).toNat

/-- The loop of `extractExtensionTypes`; every round moves the offset by at least four. -/
def extensionTypesFrom (hello : Bytes) (endOffset : Nat) : Nat → Nat → List UInt16
  | 0, _ => []
  | n + 1, offset =>
    if offset + 4 ≤ hello.length ∧ offset < endOffset then
      UInt16.ofNat (uint16At hello offset) ::
        extensionTypesFrom hello endOffset n (offset + 4 + uint16At hello (offset + 2))
    else []

/-- `extractExtensionTypes`, on a message without its header; a nil slice is an empty list. -/
def extractExtensionTypes (hello : Bytes) : List UInt16 :=
  if hello.length < 38 then [] else
  let suites := 35 + (hello.getD 34 0).toNat
  if suites + 2 > hello.length then [] else
  let comp := suites + 2 + uint16At hello suites
  if comp + 1 > hello.length then [] else
  let exts := comp + 1 + (hello.getD comp 0).toNat
  if exts + 2 > hello.length then [] else
  extensionTypesFrom hello (exts + 2 + uint16At hello exts) hello.length (exts + 2)

/-- A slice that was only appended to is nil exactly if it is empty. -/
def nilIfEmpty {α : Type} (l : List α) : Option (List α) := if l.length = 0 then none else some l

lemma getD_append_length (a : Bytes) (x : UInt8) (b : Bytes) :
    (a ++ (x :: b)).getD a.length 0 = x := by
  simp [getD_eq_getElem?_getD]

lemma uint16At_append (a b : Bytes) {n : Nat} (h : n < 65536) :
    uint16At (a ++ (u16 n ++ b)) a.length = n := by
  have h1 : (a ++ (u16 n ++ b)).getD a.length 0 = UInt8.ofNat (n / 256) := getD_append_length a _ _
  have h2 : (a ++ (u16 n ++ b)).getD (a.length + 1) 0 = UInt8.ofNat n := by
    simp [getD_eq_getElem?_getD, u16]
  rw [uint16At, h1, h2, UInt8.toNat_ofNat', UInt8.toNat_ofNat']
  omega

/-- The list of a message with an extension block that holds an extension is not empty. -/
lemma extractExtensionTypes_ne_nil {header random sessionId comp block : Bytes} {vers : UInt16}
    {suites : List UInt16} (hh : header.length = 4) (hr : random.length = 32)
    (hs : sessionId.length < 256) (hc : (u16s suites).length < 65536) (hm : comp.length < 256)
    (hb : block.length < 65536) (h4 : 4 ≤ block.length) :
    extractExtensionTypes ((front header vers random sessionId suites comp
      (vec16 block)).drop 4) ≠ [] := by
  set hello := (front header vers random sessionId suites comp (vec16 block)).drop 4
    with hhello
  have hdrop : hello = u16 vers.toNat ++ (random ++ (vec8 sessionId ++ (vec16 (u16s suites) ++
      (vec8 comp ++ vec16 block)))) := by
    rw [hhello, front, drop_left' hh]
  -- the message around each of the lengths it holds
  have h1 : hello = (u16 vers.toNat ++ random) ++ (UInt8.ofNat sessionId.length :: (sessionId ++
      (vec16 (u16s suites) ++ (vec8 comp ++ vec16 block)))) := by
    rw [hdrop]
    simp [vec8, u8]
  have h2 : hello = (u16 vers.toNat ++ (random ++ vec8 sessionId)) ++ (u16 (u16s suites).length ++
      (u16s suites ++ (vec8 comp ++ vec16 block))) := by
    rw [hdrop]
    simp [vec16]
  have h3 : hello = (u16 vers.toNat ++ (random ++ (vec8 sessionId ++ vec16 (u16s suites)))) ++
      (UInt8.ofNat comp.length :: (comp ++ vec16 block)) := by
    rw [hdrop]
    simp [vec8, u8]
  have h₄ : hello = (u16 vers.toNat ++ (random ++ (vec8 sessionId ++ (vec16 (u16s suites) ++
      vec8 comp)))) ++ (u16 block.length ++ block) := by
    rw [hdrop]
    simp [vec16]
  have hlen : hello.length = 42 + sessionId.length + (u16s suites).length + comp.length - 2 +
      block.length := by
    rw [hdrop]
    simp only [length_append, length_u16, length_vec8, length_vec16, hr]
    omega
  have g1 : (hello.getD 34 0).toNat = sessionId.length := by
    have h := getD_append_length (u16 vers.toNat ++ random) (UInt8.ofNat sessionId.length) (sessionId ++
      (vec16 (u16s suites) ++ (vec8 comp ++ vec16 block)))
    rw [← h1, length_append, length_u16, hr] at h
    rw [h, UInt8.toNat_ofNat', Nat.mod_eq_of_lt hs]
  have g2 : uint16At hello (35 + sessionId.length) = (u16s suites).length := by
    have h := uint16At_append (u16 vers.toNat ++ (random ++ vec8 sessionId))
      (u16s suites ++ (vec8 comp ++ vec16 block)) hc
    rw [← h2] at h
    rw [← h]
    congr 1
    simp only [length_append, length_u16, length_vec8, hr]
    omega
  have g3 : (hello.getD (35 + sessionId.length + 2 + (u16s suites).length) 0).toNat = comp.length := by
    have h := getD_append_length (u16 vers.toNat ++ (random ++ (vec8 sessionId ++ vec16 (u16s suites))))
      (UInt8.ofNat comp.length) (comp ++ vec16 block)
    rw [← h3] at h
    have hpos : (u16 vers.toNat ++ (random ++ (vec8 sessionId ++ vec16 (u16s suites)))).length =
        35 + sessionId.length + 2 + (u16s suites).length := by
      simp only [length_append, length_u16, length_vec8, length_vec16, hr]
      omega
    rw [hpos] at h
    rw [h, UInt8.toNat_ofNat', Nat.mod_eq_of_lt hm]
  have g4 : uint16At hello (35 + sessionId.length + 2 + (u16s suites).length + 1 + comp.length) =
      block.length := by
    have h := uint16At_append (u16 vers.toNat ++ (random ++ (vec8 sessionId ++ (vec16 (u16s suites) ++
      vec8 comp)))) block hb
    rw [← h₄] at h
    rw [← h]
    congr 1
    simp only [length_append, length_u16, length_vec8, length_vec16, hr]
    omega
  have hfuel : ∃ n, hello.length = n + 1 := ⟨hello.length - 1, by omega⟩
  obtain ⟨n, hn⟩ := hfuel
  rw [extractExtensionTypes, if_neg (by omega)]
  simp only [g1]
  rw [if_neg (by omega), g2, if_neg (by omega), g3, if_neg (by omega), g4, hn, extensionTypesFrom,
    if_pos (by omega)]
  simp

/-! ## The hello that is sent -/

namespace Conn

section Deps

variable (d : Deps)

/-- `computeAndUpdatePSK`. -/
def computeAndUpdatePSK (m : ClientHelloMsg) (suite : CipherSuiteTLS13) (binderKey : Bytes) :
    Option ClientHelloMsg :=
  m.marshalWithoutBinders.bind fun helloBytes =>
    m.updateBinders [pskBinder d suite binderKey helloBytes]

/-- 0-RTT data may be sent with a session over QUIC. -/
def offersEarlyData (hello : ClientHelloMsg) (s : SessionState) : Bool :=
  s.earlyData && hello.cipherSuites.contains s.cipherSuite &&
    hello.alpnProtocols.contains s.alpnProtocol

/-- The fields `loadSession` sets before it looks for a session. -/
def withTickets (hello : ClientHelloMsg) : ClientHelloMsg :=
  { hello with
    ticketSupported := hello.encryptedClientHello != [1]
    pskModes := if hello.supportedVersions.head? = some VersionTLS13 then [1] else hello.pskModes }

/-- The hello that offers an accepted session. -/
def withSession (c : UConn) (hello : ClientHelloMsg) (s : SessionState) : Option ClientHelloMsg :=
  if s.version = VersionTLS13 then
    (cipherSuiteTLS13ByID s.cipherSuite).bind fun suite =>
      computeAndUpdatePSK d
        { hello with
          earlyData := hello.earlyData || c.quic && offersEarlyData hello s
          pskIdentities := [sessionIdentity c s]
          pskBinders := [List.replicate suite.hash.size 0] }
        suite (d.resumptionBinderKey suite.hash (d.earlySecret suite.hash s.secret))
  else some { hello with sessionTicket := s.ticket.getD [] }

/-- `loadSession` of a `Conn` without a session controller: the hello it leaves. -/
def loadSession (hello : ClientHelloMsg) : M ClientHelloMsg := do
  let c ← get
  if c.config.sessionsOff then return hello
  else
    assert (hello.supportedVersions ≠ []) "index out of range [0] with length 0"
    match judgeSession d { c with hello := withTickets hello } with
    | .skip => return withTickets hello
    | .forget =>
      set (c.updConfig fun cfg => cfg.forget c.clientSessionCacheKey)
      return withTickets hello
    | .accept s => ofOption errBuilder (withSession d c (withTickets hello) s)

/-- `computeAndUpdateOuterECHExtension` of `ech.go`: the types of the outer hello are listed, the
inner hello is encoded with them and sealed. -/
def computeAndUpdateOuterECHExtension (outer inner : ClientHelloMsg) (ech : EchClientContext)
    (useKey : Bool) : Option (ClientHelloMsg × EchClientContext) :=
  outer.marshal.bind fun tempOuter =>
  (encodeInnerClientHelloReorderOuterExts inner ech.config.maxNameLength.toNat
    (nilIfEmpty (extractExtensionTypes (tempOuter.drop 4)))).bind fun encodedInner =>
  (outerECHExt ech useKey (List.replicate (encodedInner.length + 16) 0)).bind fun zeroed =>
  { outer with encryptedClientHello := zeroed }.marshal.bind fun serializedOuter =>
  let encryptedInner := d.hpkeSeal ech.aeadID ech.hpkeContext.secret ech.hpkeContext.seqNum
    (serializedOuter.drop 4) encodedInner
  (outerECHExt ech useKey encryptedInner).map fun ext =>
    ({ outer with encryptedClientHello := ext },
      { ech with hpkeContext := { ech.hpkeContext with seqNum := ech.hpkeContext.seqNum + 1 } })

/-- `clientHandshake` up to the point where the hello is sent.  `suites` are the cipher suites of
the configuration, which depend on the hardware too. -/
def clientHelloToSend (suites : List UInt16) : M (ClientHelloMsg × Option EchClientContext) := do
  let made ← makeClientHello d
  let hello ← loadSession d { made.1 with cipherSuites := suites }
  match made.2 with
  | none => return (hello, none)
  | some ech =>
    let random ← readRand d 32
    let sent ← ofOption errBuilder (computeAndUpdateOuterECHExtension d
      { hello with serverName := ech.config.publicName, random := random } hello ech true)
    return (sent.1, some { sent.2 with innerHello := some hello })

end Deps

end Conn

/-! ## The first extension that is written -/

/-- What is written begins with an extension of a type in `p`. -/
def LeadsWith (p : UInt16 → Prop) (x : Option Bytes) : Prop :=
  ∀ b, x = some b → ∃ t rest, p t ∧ 2 ≤ rest.length ∧ b = u16 t.toNat ++ rest

/-- What is written is empty or begins with an extension of a type in `p`. -/
def MayLeadWith (p : UInt16 → Prop) (x : Option Bytes) : Prop :=
  ∀ b, x = some b → b = [] ∨ ∃ t rest, p t ∧ 2 ≤ rest.length ∧ b = u16 t.toNat ++ rest

section Leads

variable {p : UInt16 → Prop} {x : Option Bytes} {xs : List (Option Bytes)}

lemma LeadsWith.ext {id : UInt16} (h : p id) (body : Option Bytes) :
    LeadsWith p (extOpt id body) := by
  intro b hb
  obtain ⟨data, -, hb⟩ := bind_eq_some_iff.mp hb
  obtain ⟨block, hblock, rfl⟩ := map_eq_some_iff.mp hb
  obtain ⟨-, rfl⟩ := lp16_eq_some.mp hblock
  refine ⟨id, _, h, ?_, rfl⟩
  simp

lemma LeadsWith.when (h : LeadsWith p x) (c : Bool) : MayLeadWith p (whenOpt c x) := by
  intro b hb
  cases c with
  | false =>
    cases hb
    exact .inl rfl
  | true => exact .inr (h b hb)

lemma LeadsWith.concat (h : LeadsWith p x) : LeadsWith p (concatOpt (x :: xs)) := by
  intro b hb
  obtain ⟨b1, b2, hb1, -, rfl⟩ := concatOpt_cons_eq_some hb
  obtain ⟨t, rest, ht, hrest, rfl⟩ := h b1 hb1
  refine ⟨t, rest ++ b2, ht, ?_, append_assoc _ _ _⟩
  rw [length_append]
  omega

lemma MayLeadWith.concat (h : MayLeadWith p x) (hs : LeadsWith p (concatOpt xs)) :
    LeadsWith p (concatOpt (x :: xs)) := by
  intro b hb
  obtain ⟨b1, b2, hb1, hb2, rfl⟩ := concatOpt_cons_eq_some hb
  rcases h b1 hb1 with rfl | ⟨t, rest, ht, hrest, rfl⟩
  · exact hs b2 hb2
  · refine ⟨t, rest ++ b2, ht, ?_, append_assoc _ _ _⟩
    rw [length_append]
    omega

end Leads

/-- A hello of `makeClientHello` that is to be an inner hello.  Over QUIC it has transport
parameters, and otherwise it asks for certificate timestamps. -/
structure Offering (m : ClientHelloMsg) : Prop where
  original : m.original = none
  marker : m.encryptedClientHello = [1]
  ahead : m.scts = true ∨ m.quicTransportParameters.isSome = true

/-- The ordinary writer never begins with the ECH marker of such a hello. -/
lemma Offering.leads {m : ClientHelloMsg} (h : Offering m) :
    LeadsWith (· ≠ extensionEncryptedClientHello) (m.standardExtensions false) := by
  have skip (id : UInt16) (hid : id ≠ extensionEncryptedClientHello) (c : Bool) (body : Option Bytes) :
      MayLeadWith (· ≠ extensionEncryptedClientHello) (whenOpt c (extOpt id body)) :=
    (LeadsWith.ext (p := (· ≠ extensionEncryptedClientHello)) hid body).when c
  refine (skip extensionServerName (by decide) _ _).concat <|
    (skip extensionSupportedPoints (by decide) _ _).concat <|
    (skip extensionSessionTicket (by decide) _ _).concat <|
    (skip extensionRenegotiationInfo (by decide) _ _).concat <|
    (skip extensionExtendedMasterSecret (by decide) _ _).concat ?_
  have here {id : UInt16} (hid : id ≠ extensionEncryptedClientHello) (body : Option Bytes)
      (xs : List (Option Bytes)) : LeadsWith (· ≠ extensionEncryptedClientHello)
        (concatOpt (whenOpt (true && !false) (extOpt id body) :: xs)) :=
    (LeadsWith.ext (p := (· ≠ extensionEncryptedClientHello)) hid body).concat
  rcases h.ahead with hscts | hquic
  · rw [hscts]
    exact here (by decide) _ _
  · refine (skip extensionSCT (by decide) _ _).concat <|
      (skip extensionEarlyData (by decide) _ _).concat ?_
    rw [hquic]
    exact here (by decide) _ _

/-- The bytes of such a hello, in front of its first extension. -/
lemma Offering.marshal {m : ClientHelloMsg} (h : Offering m) {b : Bytes} (hb : m.marshal = some b) :
    m.random.length = 32 ∧ m.sessionId.length < 256 ∧ (u16s m.cipherSuites).length < 65536 ∧
      m.compressionMethods.length < 256 ∧ ∃ header t rest, header.length = 4 ∧
        t ≠ extensionEncryptedClientHello ∧ 2 ≤ rest.length ∧ (u16 t.toNat ++ rest).length < 65536 ∧
        b = front header m.vers m.random m.sessionId m.cipherSuites
          m.compressionMethods (vec16 (u16 t.toNat ++ rest)) := by
  rw [ClientHelloMsg.marshal, h.original] at hb
  obtain ⟨extBytes, hexts, hb⟩ := bind_eq_some_iff.mp hb
  obtain ⟨t, rest, ht, hrest, rfl⟩ := h.leads extBytes hexts
  obtain ⟨hr, hs, hc, hm, hblock, header, hheader, hfront⟩ :=
    m.helloMessage_eq_some hb (by simp)
  exact ⟨hr, hs, hc, hm, header, t, rest, hheader, ht, hrest, hblock, hfront⟩

/-- What a server puts together begins with the ECH marker. -/
theorem front_of_decoded {m outer r : ClientHelloMsg} {types : List UInt16} {e recon : Bytes}
    (hp : EncodedParts m types e) (hech : m.encryptedClientHello = [1])
    (h : decodeInnerClientHelloWithRaw outer e = some (r, recon)) :
    outer.sessionId.length < 256 ∧ ∃ header rest, header.length = 4 ∧
      (u16 extensionEncryptedClientHello.toNat ++ rest).length < 65536 ∧
      recon = front header m.vers m.random outer.sessionId m.cipherSuites
        m.compressionMethods (vec16 (u16 extensionEncryptedClientHello.toNat ++ rest)) := by
  obtain ⟨p, hparse, h⟩ := bind_eq_some_iff.mp h
  obtain ⟨outerExts, -, h⟩ := bind_eq_some_iff.mp h
  obtain ⟨recon', hrecon, h⟩ := bind_eq_some_iff.mp h
  obtain ⟨inner, -, h⟩ := bind_eq_some_iff.mp h
  split_ifs at h
  cases h
  obtain ⟨exts, hexts, hs, hlen, rfl⟩ := reconstructInner_eq_some hrecon
  obtain ⟨n, hmessage⟩ := innerMessage_eq p outer.sessionId exts.flatten
  cases hp.parsed.symm.trans hparse
  -- the marker is the first extension, and it stands for itself
  have hfirst : ∃ rest, exts.flatten.flatMap rawExtensionBytes =
      u16 extensionEncryptedClientHello.toNat ++ rest := by
    rw [innerRawExts, echMarkerExts, if_pos (by simp [hech]), cons_append, mapM_cons] at hexts
    obtain ⟨l, hl, hexts⟩ := bind_eq_some_iff.mp hexts
    obtain ⟨ls, -, hexts⟩ := bind_eq_some_iff.mp hexts
    rw [expandExtension_of_ne
      (show extensionEncryptedClientHello ≠ extensionECHOuterExtensions by decide)] at hl
    cases hl
    cases hexts
    refine ⟨vec16 m.encryptedClientHello ++ ls.flatten.flatMap rawExtensionBytes, ?_⟩
    simp [rawExtensionBytes, extFrame, vec16]
  obtain ⟨rest, hrest⟩ := hfirst
  rw [hrest] at hlen
  refine ⟨hs, 1 :: u24 n, rest, rfl, hlen, ?_⟩
  rw [hmessage, hrest, front]
  simp only [cons_append, append_assoc]

/-! ## The transcripts of the two sides -/

section Deps

variable (d : Deps)

/-- The hello that is made for ECH is one of the above. -/
lemma offering_of_makeClientHello {c c' : UConn} {m : ClientHelloMsg} {ech : EchClientContext}
    (h : makeClientHello d c = .ok (m, some ech) c') : Offering m := by
  obtain ⟨-, random, sessionId, shares, params, hparams, hmade | ⟨ctx, -, -, hmade⟩⟩ :=
    makeClientHello_ok d h
  · cases hmade
  · cases hmade
    refine ⟨rfl, rfl, ?_⟩
    change (!c.quic) = true ∨ params.isSome = true
    rw [hparams]
    cases c.quic
    · exact .inl rfl
    · exact .inr rfl

namespace Conn

/-- Loading a session changes none of the fields that count. -/
lemma offering_of_loadSession {c c' : UConn} {hello m : ClientHelloMsg}
    (h : loadSession d hello c = .ok m c') (ho : Offering hello) : Offering m := by
  have ht : Offering (withTickets hello) := ⟨ho.original, ho.marker, ho.ahead⟩
  rw [loadSession, run_get_bind] at h
  split_ifs at h
  · cases h
    exact ho
  · rw [assert_bind_eq_ok] at h
    obtain ⟨-, h⟩ := h
    cases hj : judgeSession d { c with hello := withTickets hello } with
    | skip =>
      rw [hj] at h
      cases h
      exact ht
    | forget =>
      rw [hj] at h
      cases h
      exact ht
    | accept s =>
      rw [hj] at h
      obtain ⟨h, -⟩ := ofOption_eq_ok.mp h
      unfold withSession at h
      split_ifs at h
      · obtain ⟨suite, -, h⟩ := bind_eq_some_iff.mp h
        obtain ⟨bytes, -, h⟩ := bind_eq_some_iff.mp h
        unfold ClientHelloMsg.updateBinders at h
        split_ifs at h
        cases h
        exact ⟨ht.original, ht.marker, ht.ahead⟩
      · cases h
        exact ⟨ht.original, ht.marker, ht.ahead⟩

/-- The bytes that are hashed into the inner transcript: `transcriptMsg(ech.innerHello, …)`. -/
def innerTranscript (ech : EchClientContext) : Option Bytes :=
  ech.innerHello.bind fun m => m.marshal

/-- What a server obtains from the hello: it opens the payload of the ECH extension with the hello
with a zeroed payload as additional data, and decodes the inner hello. -/
def serverDecode (hello : ClientHelloMsg) (ech : EchClientContext) :
    Option (ClientHelloMsg × Bytes) :=
  hello.marshal.bind fun raw => (ClientHelloMsg.unmarshal raw).bind fun outer =>
  (parseOuterECHExt hello.encryptedClientHello).bind fun sealed =>
  (outerECHExt ech true (List.replicate sealed.payload.length 0)).bind fun zeroed =>
  { hello with encryptedClientHello := zeroed }.marshal.bind fun aad =>
  (d.hpkeOpen ech.aeadID ech.hpkeContext.secret 0 (aad.drop 4) sealed.payload).bind fun encoded =>
  decodeInnerClientHelloWithRaw outer encoded

/-- The two sides have the same inner hello. -/
def TranscriptsAgree (hello : ClientHelloMsg) (ech : EchClientContext) : Prop :=
  ∃ inner recon, serverDecode d hello ech = some (inner, recon) ∧ innerTranscript ech = some recon

/-- A hello and an inner hello that has been encoded for the types the hello lists. -/
lemma encodedParts_of_outer {o m : ClientHelloMsg} {tempOuter encoded : Bytes} {n : Nat}
    (ho : Offering o) (hm : Offering m) (htemp : o.marshal = some tempOuter)
    (h : encodeInnerClientHelloReorderOuterExts m n
      (nilIfEmpty (extractExtensionTypes (tempOuter.drop 4))) = some encoded) :
    EncodedParts m (extractExtensionTypes (tempOuter.drop 4)) encoded := by
  obtain ⟨hr, hs, hc, hcm, header, t, rest, hh, -, hrest, hblock, hfront⟩ := ho.marshal htemp
  have hne : extractExtensionTypes (tempOuter.drop 4) ≠ [] := by
    rw [hfront]
    refine extractExtensionTypes_ne_nil hh hr hs hc hcm hblock ?_
    rw [length_append, length_u16]
    omega
  have hlist : nilIfEmpty (extractExtensionTypes (tempOuter.drop 4)) =
      some (extractExtensionTypes (tempOuter.drop 4)) := by
    rw [nilIfEmpty, if_neg]
    rwa [length_eq_zero_iff]
  rw [hlist] at h
  refine EncodedParts.of_encoded ?_ h
  rw [hm.marker]
  decide

/-- The bytes the ordinary writer gives are not those that a server puts together. -/
lemma ne_of_decoded {m outer r : ClientHelloMsg} {types : List UInt16} {e recon : Bytes}
    (hm : Offering m) (hp : EncodedParts m types e)
    (h : decodeInnerClientHelloWithRaw outer e = some (r, recon)) : m.marshal ≠ some recon := by
  intro hmarshal
  obtain ⟨hr, hs, hc, hcm, header, t, rest, hh, ht, -, hblock, hfront⟩ := hm.marshal hmarshal
  obtain ⟨hs', header', rest', hh', hblock', hfront'⟩ := front_of_decoded hp hm.marker h
  obtain ⟨-, hvec⟩ := front_inj hh hh' hr hr hs hs' hc hc hcm hcm
    (hfront.symm.trans hfront')
  have hread := congrArg readLP16 hvec
  have hend (b : Bytes) (hb : b.length < 65536) : readLP16 (vec16 b) = some (b, []) := by
    simpa using readLP16_vec16 hb []
  rw [hend _ hblock, hend _ hblock'] at hread
  have htype := congrArg readU16 (Prod.mk.inj (some.inj hread)).1
  rw [readU16_u16_toNat, readU16_u16_toNat] at htype
  exact ht (Prod.mk.inj (some.inj htype)).1

/-- On the path of the standard library the transcripts never agree. -/
lemma not_transcriptsAgree {suites : List UInt16} {c c' : UConn} {hello : ClientHelloMsg}
    {ech : EchClientContext} (h : clientHelloToSend d suites c = .ok (hello, some ech) c') :
    ¬ TranscriptsAgree d hello ech := by
  obtain ⟨⟨made, ctx⟩, c1, hmake, h⟩ := bind_eq_ok.mp h
  obtain ⟨inner, c2, hload, h⟩ := bind_eq_ok.mp h
  cases ctx with
  | none => cases h
  | some ctx =>
    obtain ⟨random, c3, hrandom, h⟩ := bind_eq_ok.mp h
    obtain ⟨⟨sent, ctx'⟩, hsent, h⟩ := ofOption_bind_eq_ok.mp h
    cases h
    have hmade := offering_of_makeClientHello d hmake
    have hinner : Offering inner :=
      offering_of_loadSession d hload ⟨hmade.original, hmade.marker, hmade.ahead⟩
    obtain ⟨tempOuter, htemp, hsent⟩ := bind_eq_some_iff.mp hsent
    obtain ⟨encoded, hencoded, hsent⟩ := bind_eq_some_iff.mp hsent
    obtain ⟨zeroed, hzeroed, hsent⟩ := bind_eq_some_iff.mp hsent
    obtain ⟨serialized, hserialized, hsent⟩ := bind_eq_some_iff.mp hsent
    obtain ⟨ext, hext, hsent⟩ := map_eq_some_iff.mp hsent
    cases hsent
    have hparts := encodedParts_of_outer
      (o := { inner with serverName := ctx.config.publicName, random := random })
      ⟨hinner.original, hinner.marker, hinner.ahead⟩ hinner htemp hencoded
    have hseq : ctx.hpkeContext.seqNum = 0 := (yields_makeClientHello d _ _ _ hmake).2 ctx rfl
    rintro ⟨r, recon, hdecode, htranscript⟩
    obtain ⟨raw, -, hdecode⟩ := bind_eq_some_iff.mp hdecode
    obtain ⟨outer, -, hdecode⟩ := bind_eq_some_iff.mp hdecode
    obtain ⟨sealed, hsealed, hdecode⟩ := bind_eq_some_iff.mp hdecode
    cases (parseOuterECHExt_generate hext).symm.trans hsealed
    obtain ⟨zeroed', hzeroed', hdecode⟩ := bind_eq_some_iff.mp hdecode
    rw [d.hpkeSeal_length] at hzeroed'
    cases hzeroed.symm.trans hzeroed'
    obtain ⟨aad, haad, hdecode⟩ := bind_eq_some_iff.mp hdecode
    cases hserialized.symm.trans haad
    obtain ⟨encoded', hopen, hdecode⟩ := bind_eq_some_iff.mp hdecode
    have hopened := d.hpkeOpen_seal ctx.aeadID ctx.hpkeContext.secret 0 (serialized.drop 4) encoded
    rw [hseq] at hopen
    cases hopened.symm.trans hopen
    exact ne_of_decoded hinner hparts hdecode htranscript

end Conn

/-- The part of the `clientHandshake` of a `HelloGolang` connection that puts an ECH extension into
the outer hello.  It is the one of the package, which works on `Extensions`. -/
def golangRebuildECH (hello : ClientHelloMsg) (ech : EchClientContext) :
    M (ClientHelloMsg × EchClientContext) := do
  let random ← readRand d 32
  let outerExts ← extensionsList d
  let ech ← computeAndUpdateOuterECHExtensionWithOuterExts d hello ech true
    (if hello.pskIdentities.length > 0 then outerExts.filter (· ≠ extensionPreSharedKey)
      else outerExts) none
  return ({ hello with serverName := ech.config.publicName, random := random }, ech)

/-- A connection without extensions has no placeholder, so that no ECH extension can be made. -/
lemma not_golangRebuildECH {hello : ClientHelloMsg} {ech : EchClientContext} {c c' : UConn}
    {x : ClientHelloMsg × EchClientContext} (hc : c.extensions = []) :
    golangRebuildECH d hello ech c ≠ .ok x c' := by
  intro h
  obtain ⟨random, c1, hrandom, h⟩ := bind_eq_ok.mp h
  obtain ⟨n, rfl⟩ := (keeps_readRand d 32).of_ok hrandom
  obtain ⟨outerExts, c2, hlist, h⟩ := bind_eq_ok.mp h
  have hc2 : c2.extensions = [] := by
    rw [extensionsList, run_get_bind, UConn.atDraw_extensions, hc] at hlist
    cases hlist
    exact hc
  obtain ⟨ctx, c3, hcompute, -⟩ := bind_eq_ok.mp h
  obtain ⟨encoded, -, hcompute⟩ := ofOption_bind_eq_ok.mp hcompute
  obtain ⟨zeroed, -, hcompute⟩ := ofOption_bind_eq_ok.mp hcompute
  rw [run_get_bind] at hcompute
  obtain ⟨i, c6, hi, -⟩ := bind_eq_ok.mp hcompute
  obtain ⟨hi, -⟩ := ofOption_eq_ok.mp hi
  rw [UConn.exts, hc2] at hi
  cases hi

/-- Whenever a plain connection offers ECH, the bytes it hashes into the inner transcript are not
those a server obtains; and a `HelloGolang` connection, which has no extensions of its own, offers
none. -/
theorem go_transcripts_differ :
    (∀ suites c c' hello ech, Conn.clientHelloToSend d suites c = .ok (hello, some ech) c' →
      ¬ Conn.TranscriptsAgree d hello ech) ∧
    ∀ hello ech c x c', c.extensions = [] → golangRebuildECH d hello ech c ≠ .ok x c' :=
  ⟨fun _ _ _ _ _ h => Conn.not_transcriptsAgree d h, fun _ _ _ _ _ hc => not_golangRebuildECH d hc⟩

end Deps

/-- A plain connection to the server `a` that is to use ECH. -/
def goClient : UConn where
  heap _ := .generic 0 []
  nextRef := 0
  clientHelloID := .golang
  config :=
    { serverName := [0x61]
      encryptedClientHelloConfigList := some sampleEchConfigList }

/-- A server decodes the inner hello of a plain connection, but not to the bytes that were hashed.
-/
theorem go_transcript_mismatch :
    ∃ hello ech c' inner recon, Conn.clientHelloToSend .sample [0x1301] goClient =
        .ok (hello, some ech) c' ∧ Conn.serverDecode .sample hello ech = some (inner, recon) ∧
      Conn.innerTranscript ech ≠ some recon := by
  obtain ⟨⟨hello, ech⟩, c', hrun, hresult⟩ := exists_eq_ok_of_returnsWith
    (show returnsWith (fun x _ => (x.2.bind fun ech => (Conn.serverDecode .sample x.1 ech).map fun y =>
        decide (Conn.innerTranscript ech ≠ some y.2)) = some true)
      (Conn.clientHelloToSend .sample [0x1301] goClient) = true by decide +kernel)
  obtain ⟨ctx, rfl, hdecode⟩ := bind_eq_some_iff.mp (of_decide_eq_true hresult)
  obtain ⟨⟨inner, recon⟩, hdecode, hne⟩ := map_eq_some_iff.mp hdecode
  exact ⟨hello, ctx, c', inner, recon, hrun, hdecode, of_decide_eq_true hne⟩

/-- A plain connection offers ECH, and the transcripts differ. -/
theorem go_transcripts_differ_sample :
    ∃ hello ech c', Conn.clientHelloToSend .sample [0x1301] goClient = .ok (hello, some ech) c' ∧
      ¬ Conn.TranscriptsAgree .sample hello ech := by
  obtain ⟨⟨hello, ech⟩, c', hrun, hresult⟩ := exists_eq_ok_of_returnsWith
    (show returnsWith (fun x _ => x.2.isSome) (Conn.clientHelloToSend .sample [0x1301] goClient) = true by
      decide +kernel)
  obtain ⟨ctx, rfl⟩ := isSome_iff_exists.mp hresult
  exact ⟨hello, ctx, c', hrun, (go_transcripts_differ .sample).1 _ _ _ _ _ hrun⟩

end Utls
