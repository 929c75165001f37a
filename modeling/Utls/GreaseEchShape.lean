import Utls.Marshal

/-!
# GREASE ECH extensions that are made from captured ones

`Write` takes the cipher suite of a captured extension over, and of its encapsulated key and its
payload the lengths; the first `Len` then draws new values.  The length of the payload is kept
without the tag that `init` adds to it again, as a sixteen-bit number, and an empty encapsulated key
is replaced by one of the default KEM.

So the extension has the shape of the captured one exactly if the captured one had an encapsulated
key and a payload that can hold a tag (`greaseEch_shape`).
-/

namespace Utls

open Wire Exec List Option

/-! ## `Write` -/

/-- The parts of the body of an outer `encrypted_client_hello` extension. -/
structure GreaseEchBody where
  kdfId : UInt16
  aeadId : UInt16
  configId : UInt8
  encapsulatedKey : Bytes
  payload : Bytes

namespace GreaseEchBody

/-- The body: the type of an outer hello, the cipher suite, the identifier, and two vectors. -/
def bytes (x : GreaseEchBody) : Bytes :=
  0 :: (u16 x.kdfId.toNat ++ (u16 x.aeadId.toNat ++
    (x.configId :: (vec16 x.encapsulatedKey ++ vec16 x.payload))))

/-- The lengths fit their fields. -/
def Fits (x : GreaseEchBody) : Prop := x.encapsulatedKey.length < 65536 ∧ x.payload.length < 65536

lemma length_bytes (x : GreaseEchBody) :
    x.bytes.length = 10 + x.encapsulatedKey.length + x.payload.length := by
  simp [bytes]
  omega

/-- The parts can be told from the bytes, whatever follows. -/
lemma bytes_inj {x y : GreaseEchBody} (hx : x.Fits) (hy : y.Fits) {s t : Bytes}
    (h : x.bytes ++ s = y.bytes ++ t) : x = y := by
  simp only [bytes, vec16, cons_append, append_assoc, List.cons.injEq, true_and] at h
  have hkdf := congrArg readU16 h
  rw [readU16_u16_toNat, readU16_u16_toNat] at hkdf
  obtain ⟨hkdf, h⟩ := Prod.mk.injEq .. ▸ some.inj hkdf
  have haead := congrArg readU16 h
  rw [readU16_u16_toNat, readU16_u16_toNat] at haead
  obtain ⟨haead, h⟩ := Prod.mk.injEq .. ▸ some.inj haead
  obtain ⟨hid, h⟩ := List.cons.injEq .. ▸ h
  have hkey := congrArg readLP16 h
  rw [readLP16_u16 hx.1, readLP16_u16 hy.1] at hkey
  obtain ⟨hkey, h⟩ := Prod.mk.injEq .. ▸ some.inj hkey
  have hpayload := congrArg readLP16 h
  rw [readLP16_u16 hx.2, readLP16_u16 hy.2] at hpayload
  obtain ⟨hpayload, -⟩ := Prod.mk.injEq .. ▸ some.inj hpayload
  cases x
  cases y
  cases hkdf
  cases haead
  cases hid
  cases hkey
  cases hpayload
  rfl

end GreaseEchBody

/-- The KDFs that `Write` accepts. -/
def knownKDFs : List UInt16 := [0x0001, 0x0002, 0x0003]

/-- The AEADs that `Write` accepts. -/
def knownAEADs : List UInt16 := [0x0001, 0x0002, 0x0003]

section Deps

variable (d : Deps)

/-- `Write` of a new GREASE ECH extension. -/
def writeGreaseECH (b : Bytes) : M GREASEEncryptedClientHelloExtension := do
  let (chType, s) ← ofOption (.text "bad Client Hello type, expected 0, got 0") (readU8 b)
  runIf (chType ≠ 0)
    (fail (.text ("bad Client Hello type, expected 0, got " ++ toString chType.toNat)))
  let (kdfId, s) ← ofOption (.text "bad cipher suite") (readU16 s)
  let (aeadId, s) ← ofOption (.text "bad cipher suite") (readU16 s)
  runIf (kdfId ∉ knownKDFs) (fail (.text ("bad KDF ID: " ++ toString kdfId.toNat)))
  runIf (aeadId ∉ knownAEADs) (fail (.text ("bad AEAD ID: " ++ toString aeadId.toNat)))
  let (configId, s) ← ofOption (.text "bad config ID") (readU8 s)
  let (ignored, s) ← ofOption (.text "bad encapsulated key") (readLP16 s)
  let key ← tryRand d ignored.length
  let encapsulatedKey ← ofOption (.dependency "tls: generating grease ech encapsulated key") key
  let (ignored, _) ← ofOption (.text "bad payload") (readLP16 s)
  return {
    candidateCipherSuites := [⟨kdfId, aeadId⟩]
    cipherSuite := ⟨kdfId, aeadId⟩
    candidateConfigIds := []
    configId := configId
    encapsulatedKey := encapsulatedKey
    -- the length of an empty ciphertext is that of the tag
    candidatePayloadLens := [UInt16.ofNat ignored.length - 16]
    payload := []
    initDone := false }

/-- The extension that `Write` makes of a body, with a drawn encapsulated key. -/
def writtenGreaseECH (x : GreaseEchBody) (key : Bytes) : GREASEEncryptedClientHelloExtension where
  candidateCipherSuites := [⟨x.kdfId, x.aeadId⟩]
  cipherSuite := ⟨x.kdfId, x.aeadId⟩
  candidateConfigIds := []
  configId := x.configId
  encapsulatedKey := key
  candidatePayloadLens := [UInt16.ofNat x.payload.length - 16]
  payload := []
  initDone := false

variable {d}

lemma runIf_fail_eq_ok {p : Prop} [Decidable p] {e : Err} {c c' : UConn} {u : Unit} :
    runIf p (fail e) c = .ok u c' ↔ ¬p ∧ c = c' := by
  rw [runIf_eq_ok]
  refine ⟨?_, fun h => .inr h⟩
  rintro (⟨-, h⟩ | h)
  · cases h
  · exact h

lemma writeGreaseECH_ok {b : Bytes} {c c' : UConn} {g : GREASEEncryptedClientHelloExtension}
    (h : writeGreaseECH d b c = .ok g c') :
    ∃ x rest key, b = x.bytes ++ rest ∧ x.Fits ∧ x.aeadId ∈ knownAEADs ∧
      key.length = x.encapsulatedKey.length ∧ g = writtenGreaseECH x key := by
  obtain ⟨⟨chType, s1⟩, hb, h⟩ := ofOption_bind_eq_ok.mp h
  obtain ⟨_, _, h1, h⟩ := bind_eq_ok.mp h
  obtain ⟨hzero, rfl⟩ := runIf_fail_eq_ok.mp h1
  obtain ⟨⟨kdfId, s2⟩, hkdf, h⟩ := ofOption_bind_eq_ok.mp h
  obtain ⟨⟨aeadId, s3⟩, haead, h⟩ := ofOption_bind_eq_ok.mp h
  obtain ⟨_, _, h1, h⟩ := bind_eq_ok.mp h
  obtain ⟨-, rfl⟩ := runIf_fail_eq_ok.mp h1
  obtain ⟨_, _, h1, h⟩ := bind_eq_ok.mp h
  obtain ⟨hknown, rfl⟩ := runIf_fail_eq_ok.mp h1
  obtain ⟨⟨configId, s4⟩, hid, h⟩ := ofOption_bind_eq_ok.mp h
  obtain ⟨⟨enc, s5⟩, henc, h⟩ := ofOption_bind_eq_ok.mp h
  obtain ⟨o, _, h1, h⟩ := bind_eq_ok.mp h
  cases h1
  obtain ⟨key, hkey, h⟩ := ofOption_bind_eq_ok.mp h
  obtain ⟨⟨payload, rest⟩, hpayload, h⟩ := ofOption_bind_eq_ok.mp h
  cases h
  rw [readU8_eq_some] at hb hid
  rw [readU16_eq_some] at hkdf haead
  rw [readLP16_eq_some] at henc hpayload
  refine ⟨⟨kdfId, aeadId, configId, enc, payload⟩, rest, key, ?_, ⟨henc.1, hpayload.1⟩,
    not_not.mp hknown, d.rand_length _ _ _ hkey, rfl⟩
  rw [hb, not_not.mp hzero, hkdf, haead, hid, henc.2, hpayload.2]
  simp [GreaseEchBody.bytes, vec16]

/-! ## `init` -/

variable (d) in
/-- The sources of randomness do not fail, and an encapsulated key has bytes. -/
structure Deps.RandomWorks : Prop where
  rand : ∀ k n, ∃ b, d.rand k n = some b
  setup : ∀ k, ∃ enc secret, d.hpkeSetupSender k defaultHpkeKem defaultHpkeKdf defaultHpkeAead
    dummyX25519PublicKey [] = some (enc, secret) ∧ enc ≠ []

lemma tryIndex_one (hd : d.RandomWorks) (c : UConn) :
    tryIndex d 1 c = .ok (some 0) (c.atDraw (c.draws + 1)) := by
  obtain ⟨b, hb⟩ := hd.rand c.draws 8
  rw [tryIndex, run_bind, run_tryRand, hb]
  simp [Nat.mod_one]

lemma initPayload_one (hd : d.RandomWorks) {g : GREASEEncryptedClientHelloExtension} {n : UInt16}
    (hpayload : g.payload = []) (hlens : g.candidatePayloadLens = [n])
    (haead : g.cipherSuite.aeadId ∈ supportedAEADs) (c : UConn) :
    ∃ payload c', initPayload d g c = .ok { g with payload := payload } c' ∧
      payload.length = n.toNat + 16 := by
  obtain ⟨b, hb⟩ := hd.rand (c.draws + 1) (n.toNat + 16)
  refine ⟨b, (c.atDraw (c.draws + 1)).atDraw (c.draws + 2), ?_, d.rand_length _ _ _ hb⟩
  rw [initPayload, if_pos (by rw [hpayload]; rfl), hlens, run_bind, length_singleton,
    if_neg Nat.one_ne_zero, length_singleton, tryIndex_one hd]
  change randomizePayload d { g with candidatePayloadLens := [n] } n (c.atDraw (c.draws + 1)) = _
  rw [randomizePayload, run_bind, run_assert_true haead]
  change (tryRand d (n.toNat + 16) >>= _) (c.atDraw (c.draws + 1)) = _
  rw [run_bind, run_tryRand]
  change (pure _ : M _) _ = _
  have hb' : d.rand (c.atDraw (c.draws + 1)).draws (n.toNat + 16) = some b := hb
  rw [hb', ← hlens]
  rfl

/-- What `init` makes of an extension that was written: the cipher suite stays, the encapsulated key
stays unless it is empty, and the payload is as long as `Write` has noted, and the tag. -/
lemma initGreaseECH_written (hd : d.RandomWorks) {x : GreaseEchBody} (haead : x.aeadId ∈ knownAEADs)
    (key : Bytes) (c : UConn) :
    ∃ g c', initGreaseECH d (writtenGreaseECH x key) c = .ok g c' ∧ g.initDone = true ∧
      g.cipherSuite = ⟨x.kdfId, x.aeadId⟩ ∧ (key ≠ [] → g.encapsulatedKey = key) ∧
      (key = [] → g.encapsulatedKey ≠ []) ∧
      g.payload.length = (UInt16.ofNat x.payload.length - 16).toNat + 16 := by
  obtain ⟨b, hb⟩ := hd.rand c.draws 1
  set g1 : GREASEEncryptedClientHelloExtension :=
    { writtenGreaseECH x key with initDone := true, configId := b.headD 0 } with hg1
  set c1 := (c.atDraw (c.draws + 1)).atDraw (c.draws + 2)
  -- the identifier and the cipher suite are drawn first
  have hinit : initGreaseECH d (writtenGreaseECH x key) c = initEncapsulatedKey d g1 c1 := by
    change (tryRand d 1 >>= _) c = _
    rw [run_bind, run_tryRand, hb]
    change initCipherSuite d g1 (c.atDraw (c.draws + 1)) = _
    change (tryIndex d 1 >>= _) (c.atDraw (c.draws + 1)) = _
    rw [run_bind, tryIndex_one hd]
    rfl
  have hpayload : ∀ enc c2, ∃ payload c', initPayload d { g1 with encapsulatedKey := enc } c2 =
      .ok { g1 with encapsulatedKey := enc, payload := payload } c' ∧
        payload.length = (UInt16.ofNat x.payload.length - 16).toNat + 16 :=
    fun enc c2 => initPayload_one hd rfl rfl haead c2
  rw [hinit, initEncapsulatedKey]
  by_cases hkey : key = []
  · obtain ⟨enc, secret, hsetup, henc⟩ := hd.setup c1.draws
    obtain ⟨payload, c', hrun, hlen⟩ := hpayload enc (c1.atDraw (c1.draws + 1))
    refine ⟨{ g1 with encapsulatedKey := enc, payload := payload }, c', ?_, rfl, rfl,
      fun hne => absurd hkey hne, fun _ => henc, hlen⟩
    rw [if_pos (by rw [hg1, hkey]; rfl), run_get_bind]
    rw [hsetup]
    exact hrun
  · obtain ⟨payload, c', hrun, hlen⟩ := hpayload key c1
    refine ⟨{ g1 with payload := payload }, c', ?_, rfl, rfl, fun _ => rfl,
      fun h => absurd h hkey, hlen⟩
    have hlen1 : g1.encapsulatedKey.length ≠ 0 := fun h => hkey (length_eq_zero_iff.mp h)
    rw [if_neg hlen1]
    exact hrun

/-! ## The shape -/

variable (d) in
/-- The extension `g` is written with the shape of the body `x`: `Len` counts as many bytes, `Read`
writes a body of the same length with the same cipher suite and lengths, and another call of `init`
changes nothing. -/
structure KeepsShape (x : GreaseEchBody) (g : GREASEEncryptedClientHelloExtension) : Prop where
  len : (Ext.greaseECH g).len d.parseIP = 4 + x.bytes.length
  body : ∃ y : GreaseEchBody,
    (Ext.greaseECH g).wire d.parseIP = extFrame extensionEncryptedClientHello y.bytes ∧
      y.bytes.length = x.bytes.length ∧ y.kdfId = x.kdfId ∧ y.aeadId = x.aeadId ∧
      y.encapsulatedKey.length = x.encapsulatedKey.length ∧ y.payload.length = x.payload.length
  again : ∀ c, initGreaseECH d g c = .ok g c

/-- The parts that an extension is written with. -/
def bodyOf (g : GREASEEncryptedClientHelloExtension) : GreaseEchBody :=
  ⟨g.cipherSuite.kdfId, g.cipherSuite.aeadId, g.configId, g.encapsulatedKey, g.payload⟩

lemma wire_bodyOf (parseIP : GoString → Bool) (g : GREASEEncryptedClientHelloExtension) :
    (Ext.greaseECH g).wire parseIP = extFrame extensionEncryptedClientHello (bodyOf g).bytes := rfl

/-- The length that the payload gets; a length below that of the tag wraps around. -/
lemma payloadLen_eq {n : Nat} (h : n < 65536) :
    (UInt16.ofNat n - 16).toNat + 16 = if 16 ≤ n then n else n + 65536 := by
  have hsixteen : (16 : UInt16).toNat = 16 := rfl
  rw [UInt16.toNat_sub, UInt16.toNat_ofNat', hsixteen]
  split_ifs <;> omega

/-- An extension that was written from a captured body has the shape of that body, once its values
are drawn, exactly if the body has an encapsulated key and its payload is not shorter than a
tag. -/
theorem greaseEch_shape (hd : d.RandomWorks) {b : Bytes} {c c₁ : UConn}
    {g : GREASEEncryptedClientHelloExtension} (h : writeGreaseECH d b c = .ok g c₁) :
    ∃ (x : GreaseEchBody) (rest : Bytes), b = x.bytes ++ rest ∧ x.Fits ∧
      ∃ g' c₂, initGreaseECH d g c₁ = .ok g' c₂ ∧
        (KeepsShape d x g' ↔ x.encapsulatedKey ≠ [] ∧ 16 ≤ x.payload.length) := by
  obtain ⟨x, rest, key, hb, hfits, haead, hkey, rfl⟩ := writeGreaseECH_ok h
  obtain ⟨g', c₂, hinit, hdone, hsuite, hsame, hnew, hlen⟩ := initGreaseECH_written hd haead key c₁
  refine ⟨x, rest, hb, hfits, g', c₂, hinit, ?_⟩
  rw [payloadLen_eq hfits.2] at hlen
  have hempty : key = [] ↔ x.encapsulatedKey = [] := by
    rw [← length_eq_zero_iff, hkey, length_eq_zero_iff]
  constructor
  · intro hshape
    have htotal := hshape.len
    rw [GreaseEchBody.length_bytes, Ext.len] at htotal
    have hne : x.encapsulatedKey ≠ [] := by
      intro hnil
      have hpos := length_pos_iff.mpr (hnew (hempty.mpr hnil))
      rw [hnil, length_nil] at htotal
      split_ifs at hlen <;> omega
    refine ⟨hne, ?_⟩
    rw [hsame (mt hempty.mp hne), hkey] at htotal
    split_ifs at hlen with hle
    · exact hle
    · omega
  · rintro ⟨hne, hle⟩
    have hkey' : g'.encapsulatedKey.length = x.encapsulatedKey.length := by
      rw [hsame (mt hempty.mp hne), hkey]
    rw [if_pos hle] at hlen
    refine ⟨?_, ⟨bodyOf g', wire_bodyOf _ _, ?_, ?_, ?_, hkey', hlen⟩, fun c => ?_⟩
    · rw [GreaseEchBody.length_bytes, Ext.len]
      omega
    · rw [GreaseEchBody.length_bytes, GreaseEchBody.length_bytes]
      exact congrArg₂ (· + ·) (congrArg (10 + ·) hkey') hlen
    · exact congrArg HPKESymmetricCipherSuite.kdfId hsuite
    · exact congrArg HPKESymmetricCipherSuite.aeadId hsuite
    · rw [initGreaseECH, if_pos hdone]
      rfl

end Deps

lemma Deps.randomWorks_sample : Deps.sample.RandomWorks where
  rand _ _ := ⟨_, rfl⟩
  setup _ := ⟨_, _, rfl, cons_ne_nil _ _⟩

/-- A connection that has not been touched. -/
def greaseEchClient : UConn where
  heap := fun _ => .sct
  nextRef := 0
  config := {}
  clientHelloID := .custom

/-- A captured body with a payload of `n` bytes. -/
def capturedBody (n : Nat) : GreaseEchBody :=
  ⟨0x0001, 0x0001, 7, [9], List.replicate n 0⟩

/-- A payload of five bytes becomes one of 65541 bytes. -/
theorem shortPayload_grows :
    ∃ g c₁ g' c₂, writeGreaseECH .sample (capturedBody 5).bytes greaseEchClient = .ok g c₁ ∧
      initGreaseECH .sample g c₁ = .ok g' c₂ ∧ g'.payload.length = 65541 ∧
      ¬KeepsShape .sample (capturedBody 5) g' := by
  obtain ⟨g', c₂, hinit, -, -, hkey, -, hlen⟩ := initGreaseECH_written Deps.randomWorks_sample
    (x := capturedBody 5) (by decide) [0] (greaseEchClient.atDraw 1)
  have hpayload : g'.payload.length = 65541 := hlen
  refine ⟨_, _, g', c₂, rfl, hinit, hpayload, fun hshape => ?_⟩
  have htotal := hshape.len
  rw [Ext.len, hkey (cons_ne_nil _ _), hpayload] at htotal
  revert htotal
  decide

/-- A payload of sixteen bytes keeps its length. -/
theorem longPayload_kept :
    ∃ g c₁ g' c₂, writeGreaseECH .sample (capturedBody 16).bytes greaseEchClient = .ok g c₁ ∧
      initGreaseECH .sample g c₁ = .ok g' c₂ ∧ KeepsShape .sample (capturedBody 16) g' := by
  have hwrite : writeGreaseECH .sample (capturedBody 16).bytes greaseEchClient =
      .ok (writtenGreaseECH (capturedBody 16) [0]) (greaseEchClient.atDraw 1) := rfl
  obtain ⟨x, rest, hb, hfits, g', c₂, hinit, hiff⟩ :=
    greaseEch_shape Deps.randomWorks_sample hwrite
  obtain rfl : capturedBody 16 = x := by
    rw [← append_nil (capturedBody 16).bytes] at hb
    exact GreaseEchBody.bytes_inj ⟨by decide, by decide⟩ hfits hb
  exact ⟨_, _, g', c₂, hwrite, hinit, hiff.mpr ⟨by decide, by decide⟩⟩

end Utls
