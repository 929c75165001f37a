import Utls.Preset
import Utls.RandomizedCiphers

/-!
# Randomized ClientHello specs

`generateRandomizedSpec` draws a spec: its versions, its cipher suites and its extensions.  The parts
of the function are definitions of their own, in the order in which they draw, since the meaning of a
draw depends on how many were made before it.

The extensions agree with each other but for one pair.  Whether X25519MLKEM768 is among the supported
groups and whether it has a key share are decided by two different coins, so a spec can have a share
for a group that it does not list (`generateRandomizedSpec_consistent_iff`).
-/

namespace Utls

open Exec Wire List

/-! ## Constants -/

def PKCS1WithSHA1 : UInt16 := 0x0201
def ECDSAWithSHA1 : UInt16 := 0x0203
def PKCS1WithSHA256 : UInt16 := 0x0401
def ECDSAWithP256AndSHA256 : UInt16 := 0x0403
def PKCS1WithSHA384 : UInt16 := 0x0501
def ECDSAWithP384AndSHA384 : UInt16 := 0x0503
def PKCS1WithSHA512 : UInt16 := 0x0601
def ECDSAWithP521AndSHA512 : UInt16 := 0x0603
def PSSWithSHA256 : UInt16 := 0x0804
def PSSWithSHA384 : UInt16 := 0x0805
def PSSWithSHA512 : UInt16 := 0x0806

def pointFormatUncompressed : UInt8 := 0
def pskModeDHE : UInt8 := 1

/-- The name "h2". -/
def protoH2 : GoString := [0x68, 0x32]

/-- The name "http/1.1". -/
def protoHTTP11 : GoString := [0x68, 0x74, 0x74, 0x70, 0x2f, 0x31, 0x2e, 0x31]

/-! ## The identifier and its weights -/

/-- `Weights`. -/
structure Weights where
  extensionsAppendALPN : Float
  tlsVersMaxSetVersionTLS13 : Float
  cipherSuitesRemoveRandomCiphers : Float
  sigAndHashAlgosAppendECDSAWithSHA1 : Float
  sigAndHashAlgosAppendECDSAWithP521AndSHA512 : Float
  sigAndHashAlgosAppendPSSWithSHA256 : Float
  sigAndHashAlgosAppendPSSWithSHA384PSSWithSHA512 : Float
  curveIDsAppendX25519 : Float
  curveIDsAppendCurveP521 : Float
  extensionsAppendPadding : Float
  extensionsAppendStatus : Float
  extensionsAppendSCT : Float
  extensionsAppendReneg : Float
  extensionsAppendEMS : Float
  firstKeyShareSetCurveP256 : Float
  keyShareAppendRandomGroups : Float
  extensionsAppendALPS : Float

/-- `DefaultWeights`. -/
def defaultWeights : Weights where
  extensionsAppendALPN := 0.7
  tlsVersMaxSetVersionTLS13 := 0.4
  cipherSuitesRemoveRandomCiphers := 0.4
  sigAndHashAlgosAppendECDSAWithSHA1 := 0.63
  sigAndHashAlgosAppendECDSAWithP521AndSHA512 := 0.59
  sigAndHashAlgosAppendPSSWithSHA256 := 0.51
  sigAndHashAlgosAppendPSSWithSHA384PSSWithSHA512 := 0.9
  curveIDsAppendX25519 := 0.71
  curveIDsAppendCurveP521 := 0.46
  extensionsAppendPadding := 0.62
  extensionsAppendStatus := 0.74
  extensionsAppendSCT := 0.46
  extensionsAppendReneg := 0.75
  extensionsAppendEMS := 0.77
  firstKeyShareSetCurveP256 := 0.00
  keyShareAppendRandomGroups := 0.50
  extensionsAppendALPS := 0.33

/-- The field `Client` of a `ClientHelloID`, as far as randomized specs tell its values apart. -/
inductive HelloClient where
  | helloRandomized
  | helloRandomizedALPN
  | helloRandomizedNoALPN
  | other (name : String)
  deriving DecidableEq

/-- A `ClientHelloID`, with the fields that randomized specs use. -/
structure RandomizedID where
  client : HelloClient
  seed : Option Bytes
  weights : Option Weights

/-- A `ClientHelloSpec` that has not been applied to a connection yet, so that its extensions are
values. -/
structure GeneratedSpec where
  cipherSuites : List UInt16
  extensions : List Ext
  tlsVersMin : UInt16
  tlsVersMax : UInt16

/-- What the function takes from elsewhere: seeds, generators made from them, and sorting. -/
structure Randomness where
  newPRNGSeed : Except String Bytes
  newPRNGWithSeed : Bytes → Except String Prng
  newPRNGWithSaltedSeed : Bytes → String → Except String Prng
  sorting : Sorting

/-! ## The parts of the function -/

section Parts

variable (r : Prng) (w : Weights)

/-- Whether the spec has ALPN. -/
def chooseALPN : HelloClient → Drawing Bool
  | .helloRandomizedALPN => pure true
  | .helloRandomizedNoALPN => pure false
  | .helloRandomized => r.flipWeightedCoin w.extensionsAppendALPN
  | .other name =>
    fail ("using non-randomized ClientHelloID " ++ name ++ " to generate randomized spec")

def minTLSVersCandidates : List UInt16 := [VersionTLS10, VersionTLS12]

/-- The lowest and the highest version, and the suites for them. -/
def chooseVersions (shuffledSuites : List UInt16) :
    Drawing (UInt16 × UInt16 × List UInt16) := do
  let tls13 ← r.flipWeightedCoin w.tlsVersMaxSetVersionTLS13
  if tls13 then
    let i ← r.intn minTLSVersCandidates.length
    match minTLSVersCandidates[i]? with
    | none => panicWith "index out of range"
    | some minVers =>
      let tls13ciphers ← r.shuffle defaultCipherSuitesTLS13
      let suites ← removeRC4Ciphers (tls13ciphers ++ shuffledSuites)
      pure (minVers, VersionTLS13, suites)
  else pure (VersionTLS10, VersionTLS12, shuffledSuites)

/-- The signature algorithms. -/
def chooseSigAndHashAlgos (maxVers : UInt16) : Drawing (List UInt16) := do
  let sha1 ← r.flipWeightedCoin w.sigAndHashAlgosAppendECDSAWithSHA1
  let p521 ← r.flipWeightedCoin w.sigAndHashAlgosAppendECDSAWithP521AndSHA512
  let algos := [ECDSAWithP256AndSHA256, PKCS1WithSHA256, ECDSAWithP384AndSHA384, PKCS1WithSHA384,
    PKCS1WithSHA1, PKCS1WithSHA512] ++ (if sha1 then [ECDSAWithSHA1] else []) ++
    (if p521 then [ECDSAWithP521AndSHA512] else [])
  let pss ← r.flipWeightedCoin w.sigAndHashAlgosAppendPSSWithSHA256
  if pss || maxVers == VersionTLS13 then
    let longer ← r.flipWeightedCoin w.sigAndHashAlgosAppendPSSWithSHA384PSSWithSHA512
    r.shuffle (algos ++ [PSSWithSHA256] ++ if longer then [PSSWithSHA384, PSSWithSHA512] else [])
  else r.shuffle algos

/-- The supported groups. -/
def chooseCurveIDs (maxVers : UInt16) : Drawing (List UInt16) := do
  let hybrid ← r.flipWeightedCoin w.curveIDsAppendX25519
  let x25519 ← r.flipWeightedCoin w.curveIDsAppendX25519
  let p521 ← r.flipWeightedCoin w.curveIDsAppendCurveP521
  pure ((if hybrid && maxVers == VersionTLS13 then [X25519MLKEM768] else []) ++
    (if x25519 || maxVers == VersionTLS13 then [X25519] else []) ++ [CurveP256, CurveP384] ++
    (if p521 then [CurveP521] else []))

/-- An extension that is appended if `b` holds. -/
def Ext.when (b : Bool) (e : Ext) : List Ext := if b then [e] else []

/-- The extensions that do not depend on the version. -/
def commonExtensions (serverName : GoString) (nextProtos : List GoString) (withALPN : Bool)
    (algos curveIDs : List UInt16) (padding status sct reneg ems : Bool) : List Ext :=
  [.sni serverName, .sessionTicket ⟨none, [], false⟩, .signatureAlgorithms algos,
    .supportedPoints [pointFormatUncompressed], .supportedCurves curveIDs] ++
  Ext.when withALPN
    (.alpn (if nextProtos.length = 0 then [protoH2, protoHTTP11] else nextProtos)) ++
  Ext.when padding (.utlsPadding ⟨0, false, some boringPaddingStyle⟩) ++
  Ext.when status .statusRequest ++ Ext.when sct .sct ++
  Ext.when reneg (.renegotiationInfo .onceAsClient []) ++ Ext.when ems .extendedMasterSecret

/-- The key shares, whose keys are generated later. -/
def chooseKeyShares : Drawing (List KeyShare) := do
  let p256 ← r.flipWeightedCoin w.firstKeyShareSetCurveP256
  if p256 then pure [⟨CurveP256, []⟩]
  else
    let second ← r.flipWeightedCoin w.keyShareAppendRandomGroups
    let hybrid ← r.flipWeightedCoin w.keyShareAppendRandomGroups
    pure ((if hybrid then [⟨X25519MLKEM768, []⟩] else []) ++ [⟨X25519, []⟩] ++
      (if second then [⟨CurveP256, []⟩] else []))

/-- The extensions of TLS 1.3.  The coin for ALPS comes from a generator of its own. -/
def chooseTLS13Extensions (R : Randomness) (seed : Bytes) (withALPN : Bool)
    (minVers maxVers : UInt16) : Drawing (List Ext) := do
  let keyShares ← chooseKeyShares r w
  let exts := [.keyShare keyShares, .pskKeyExchangeModes [pskModeDHE],
    .supportedVersions (makeSupportedVersions minVers maxVers)]
  if withALPN then
    let salted ← Exec.ofExcept (R.newPRNGWithSaltedSeed seed "ALPS")
    pure (if (salted 0).coin w.extensionsAppendALPS then
      exts ++ [.applicationSettings [protoH2]] else exts)
  else pure exts

end Parts

/-! ## The function -/

/-- `generateRandomizedSpec`, from the making of the generator on. -/
def randomizedSpec (R : Randomness) (r : Prng) (seed : Bytes) (w : Weights) (client : HelloClient)
    (serverName : GoString) (nextProtos : List GoString) : Drawing GeneratedSpec := do
  let withALPN ← chooseALPN r w client
  let shuffledSuites ← shuffledCiphers R.sorting r
  let (minVers, maxVers, suites) ← chooseVersions r w shuffledSuites
  let suites ← removeRandomCiphers r suites w.cipherSuitesRemoveRandomCiphers
  let algos ← chooseSigAndHashAlgos r w maxVers
  let curveIDs ← chooseCurveIDs r w maxVers
  let padding ← r.flipWeightedCoin w.extensionsAppendPadding
  let status ← r.flipWeightedCoin w.extensionsAppendStatus
  let sct ← r.flipWeightedCoin w.extensionsAppendSCT
  let reneg ← r.flipWeightedCoin w.extensionsAppendReneg
  let ems ← r.flipWeightedCoin w.extensionsAppendEMS
  let tls13Exts ← if maxVers == VersionTLS13 then
    chooseTLS13Extensions r w R seed withALPN minVers maxVers else pure []
  let extensions ← r.shuffle (commonExtensions serverName nextProtos withALPN algos curveIDs
    (padding || maxVers == VersionTLS13) status sct reneg ems ++ tls13Exts)
  pure ⟨suites, extensions, minVers, maxVers⟩

/-- The seed of an identifier, or a new one. -/
def Randomness.seedOf (R : Randomness) (id : RandomizedID) : Except String Bytes :=
  match id.seed with
  | some seed => .ok seed
  | none => R.newPRNGSeed

/-- `generateRandomizedSpec`; the identifier is returned with the seed and the weights that have been
stored in it. -/
def generateRandomizedSpec (R : Randomness) (id : RandomizedID) (serverName : GoString)
    (nextProtos : List GoString) : Except (Fault String) (GeneratedSpec × RandomizedID) :=
  match R.seedOf id with
  | .error err => .error (.error err)
  | .ok seed =>
    match R.newPRNGWithSeed seed with
    | .error err => .error (.error err)
    | .ok r =>
      let w := id.weights.getD defaultWeights
      match randomizedSpec R r seed w id.client serverName nextProtos 0 with
      | .ok p _ => .ok (p, ⟨id.client, some seed, some w⟩)
      | .error err _ => .error err


/-! ## What the parts draw -/

/-- The identifiers of randomized specs. -/
def HelloClient.Randomized : HelloClient → Prop
  | .other _ => False
  | _ => True

/-- The number of draws that decide about ALPN. -/
def HelloClient.alpnDraws : HelloClient → Nat
  | .helloRandomized => 1
  | _ => 0

section Runs

variable (r : Prng) (w : Weights)

lemma chooseALPN_ok {client : HelloClient} (h : client.Randomized) (k : Nat) :
    ∃ withALPN, chooseALPN r w client k = .ok withALPN (k + client.alpnDraws) := by
  cases client with
  | helloRandomized => exact ⟨_, rfl⟩
  | helloRandomizedALPN => exact ⟨_, rfl⟩
  | helloRandomizedNoALPN => exact ⟨_, rfl⟩
  | other name => exact h.elim

lemma chooseVersions_tls12 {k : Nat} (h : (r k).coin w.tlsVersMaxSetVersionTLS13 = false)
    (l : List UInt16) : chooseVersions r w l k = .ok (VersionTLS10, VersionTLS12, l) (k + 1) := by
  simp [chooseVersions, h]

lemma chooseVersions_tls13 {k : Nat} (h : (r k).coin w.tlsVersMaxSetVersionTLS13 = true)
    {l : List UInt16} (hperm : l.Perm (cipherSuites.map (·.id)))
    (hfirst : AllBefore isTLS12Only isLegacy l) :
    ∃ minVers suites, chooseVersions r w l k = .ok (minVers, VersionTLS13, suites) (k + 3) ∧
      GoodCiphers VersionTLS13 suites ∧ suites.length = 22 := by
  have hlt : (r (k + 1)).intn minTLSVersCandidates.length < minTLSVersCandidates.length :=
    (r (k + 1)).intn_lt _ (by decide)
  have hget := getElem?_eq_getElem hlt
  have ht := Swaps.swapAll_perm ((r (k + 2)).swaps defaultCipherSuitesTLS13.length)
    defaultCipherSuitesTLS13
  generalize minTLSVersCandidates[(r (k + 1)).intn minTLSVersCandidates.length] = minVers at hget
  refine ⟨minVers, _, ?_, goodCiphers_tls13 ht hperm hfirst, length_tls13 ht hperm⟩
  simp only [chooseVersions, run_bind, Prng.run_flipWeightedCoin, h, if_true, Prng.run_intn, hget,
    Prng.run_shuffle, removeRC4Ciphers_eq, run_pure]

/-- The signature algorithms take five draws for TLS 1.3. -/
lemma chooseSigAndHashAlgos_ok (maxVers : UInt16) (k : Nat) :
    ∃ algos k', chooseSigAndHashAlgos r w maxVers k = .ok algos k' ∧
      (maxVers = VersionTLS13 → k' = k + 5) := by
  simp only [chooseSigAndHashAlgos, run_bind, Prng.run_flipWeightedCoin]
  by_cases hpss : ((r (k + 1 + 1)).coin w.sigAndHashAlgosAppendPSSWithSHA256 ||
      maxVers == VersionTLS13) = true
  · rw [if_pos hpss]
    exact ⟨_, _, rfl, fun _ => rfl⟩
  · rw [if_neg hpss]
    exact ⟨_, _, rfl, fun hv => absurd (by simp [hv]) hpss⟩

/-- The groups that `chooseCurveIDs` draws from the draw `k` on. -/
def Prng.curveIDs (maxVers : UInt16) (k : Nat) : List UInt16 :=
  (if (r k).coin w.curveIDsAppendX25519 && maxVers == VersionTLS13 then [X25519MLKEM768] else []) ++
    (if (r (k + 1)).coin w.curveIDsAppendX25519 || maxVers == VersionTLS13 then [X25519] else []) ++
    [CurveP256, CurveP384] ++ (if (r (k + 2)).coin w.curveIDsAppendCurveP521 then [CurveP521] else [])

lemma chooseCurveIDs_eq (maxVers : UInt16) (k : Nat) :
    chooseCurveIDs r w maxVers k = .ok (r.curveIDs w maxVers k) (k + 3) := rfl

/-- The shares that `chooseKeyShares` draws from the draw `k` on. -/
def Prng.keyShares (k : Nat) : List KeyShare :=
  if (r k).coin w.firstKeyShareSetCurveP256 then [⟨CurveP256, []⟩]
  else
    (if (r (k + 2)).coin w.keyShareAppendRandomGroups then [⟨X25519MLKEM768, []⟩] else []) ++
      [⟨X25519, []⟩] ++
      (if (r (k + 1)).coin w.keyShareAppendRandomGroups then [⟨CurveP256, []⟩] else [])

lemma chooseKeyShares_ok (k : Nat) : ∃ k', chooseKeyShares r w k = .ok (r.keyShares w k) k' := by
  cases hp256 : (r k).coin w.firstKeyShareSetCurveP256 with
  | true => exact ⟨k + 1, by simp [chooseKeyShares, Prng.keyShares, hp256]⟩
  | false => exact ⟨k + 3, by simp [chooseKeyShares, Prng.keyShares, hp256]⟩

/-- The extensions of TLS 1.3 are three, and ALPS only after ALPN. -/
lemma chooseTLS13Extensions_ok {R : Randomness} {seed : Bytes} {salted : Prng}
    (h : R.newPRNGWithSaltedSeed seed "ALPS" = .ok salted) (withALPN : Bool)
    (minVers maxVers : UInt16) (k : Nat) :
    ∃ alps k', chooseTLS13Extensions r w R seed withALPN minVers maxVers k =
        .ok ([.keyShare (r.keyShares w k), .pskKeyExchangeModes [pskModeDHE],
          .supportedVersions (makeSupportedVersions minVers maxVers)] ++ alps) k' ∧
      (alps = [] ∨ withALPN = true ∧ alps = [.applicationSettings [protoH2]]) := by
  obtain ⟨k', hshares⟩ := chooseKeyShares_ok r w k
  cases withALPN with
  | false => exact ⟨[], k', by simp [chooseTLS13Extensions, hshares], .inl rfl⟩
  | true =>
    cases hcoin : (salted 0).coin w.extensionsAppendALPS with
    | true =>
      exact ⟨_, k', by simp [chooseTLS13Extensions, hshares, h, Exec.ofExcept, hcoin], .inr ⟨rfl, rfl⟩⟩
    | false =>
      exact ⟨[], k', by simp [chooseTLS13Extensions, hshares, h, Exec.ofExcept, hcoin], .inl rfl⟩

end Runs

/-! ## The spec as a whole -/

/-- What is promised of the extensions of a spec. -/
structure SelfConsistent (p : GeneratedSpec) : Prop where
  sharesListed : ∀ shares, .keyShare shares ∈ p.extensions → ∀ ks ∈ shares,
    ∃ curves, .supportedCurves curves ∈ p.extensions ∧ ks.group ∈ curves
  keyShare_iff : (∃ shares, .keyShare shares ∈ p.extensions) ↔ p.tlsVersMax = VersionTLS13
  pskKeyExchangeModes_iff :
    (∃ modes, .pskKeyExchangeModes modes ∈ p.extensions) ↔ p.tlsVersMax = VersionTLS13
  supportedVersions_iff :
    (∃ versions, .supportedVersions versions ∈ p.extensions) ↔ p.tlsVersMax = VersionTLS13
  alps : ((∃ protos, .applicationSettings protos ∈ p.extensions) ∨
    ∃ protos, .applicationSettingsNew protos ∈ p.extensions) → ∃ protos, .alpn protos ∈ p.extensions

/-- The extension types that are only in specs for TLS 1.3. -/
def Ext.isTLS13 : Ext → Bool
  | .keyShare _ | .pskKeyExchangeModes _ | .supportedVersions _ | .applicationSettings _
  | .applicationSettingsNew _ => true
  | _ => false

@[simp] lemma mem_when {b : Bool} {e e' : Ext} : e' ∈ Ext.when b e ↔ b = true ∧ e' = e := by
  cases b <;> simp [Ext.when]

section Common

variable {serverName : GoString} {nextProtos : List GoString} {withALPN : Bool}
  {algos curveIDs : List UInt16} {padding status sct reneg ems : Bool}

lemma isTLS13_of_mem_common {e : Ext} (h : e ∈ commonExtensions serverName nextProtos withALPN algos
    curveIDs padding status sct reneg ems) : e.isTLS13 = false := by
  simp only [commonExtensions, mem_append, mem_cons, not_mem_nil, or_false, mem_when] at h
  rcases h with ((((((h | h | h | h | h) | h) | h) | h) | h) | h) | h
  all_goals first | rw [h]; rfl | rw [h.2]; rfl

lemma supportedCurves_mem_common {curves : List UInt16} :
    .supportedCurves curves ∈ commonExtensions serverName nextProtos withALPN algos curveIDs padding
      status sct reneg ems ↔ curves = curveIDs := by
  simp [commonExtensions]

lemma alpn_mem_common (h : withALPN = true) : ∃ protos, .alpn protos ∈ commonExtensions serverName
    nextProtos withALPN algos curveIDs padding status sct reneg ems := by
  simp [commonExtensions, h]

/-- A spec without extensions of TLS 1.3. -/
lemma selfConsistent_tls12 {p : GeneratedSpec} (hmax : p.tlsVersMax ≠ VersionTLS13)
    (hperm : p.extensions.Perm (commonExtensions serverName nextProtos withALPN algos curveIDs padding
      status sct reneg ems)) : SelfConsistent p := by
  have hnone : ∀ e : Ext, e.isTLS13 = true → e ∉ p.extensions := fun e he hmem => by
    rw [isTLS13_of_mem_common (hperm.mem_iff.mp hmem)] at he
    cases he
  refine ⟨fun shares h => absurd h (hnone _ rfl), ?_, ?_, ?_, ?_⟩
  · exact iff_of_false (fun ⟨_, h⟩ => hnone _ rfl h) hmax
  · exact iff_of_false (fun ⟨_, h⟩ => hnone _ rfl h) hmax
  · exact iff_of_false (fun ⟨_, h⟩ => hnone _ rfl h) hmax
  · rintro (⟨_, h⟩ | ⟨_, h⟩)
    · exact absurd h (hnone _ rfl)
    · exact absurd h (hnone _ rfl)

/-- A spec with them: all that is left open is whether the shares are among the groups. -/
lemma selfConsistent_tls13 {p : GeneratedSpec} {shares : List KeyShare} {modes : List UInt8}
    {versions : List UInt16} {alps : List Ext} (hmax : p.tlsVersMax = VersionTLS13)
    (halps : alps = [] ∨ withALPN = true ∧ alps = [.applicationSettings [protoH2]])
    (hperm : p.extensions.Perm (commonExtensions serverName nextProtos withALPN algos curveIDs padding
      status sct reneg ems ++ ([.keyShare shares, .pskKeyExchangeModes modes,
        .supportedVersions versions] ++ alps))) :
    SelfConsistent p ↔ ∀ ks ∈ shares, ks.group ∈ curveIDs := by
  have hcurves : ∀ curves, .supportedCurves curves ∈ p.extensions ↔ curves = curveIDs := by
    intro curves
    rw [hperm.mem_iff, mem_append, supportedCurves_mem_common]
    rcases halps with rfl | ⟨-, rfl⟩ <;> simp
  have hshares : ∀ shares', .keyShare shares' ∈ p.extensions ↔ shares' = shares := by
    intro shares'
    have hnot : .keyShare shares' ∉ commonExtensions serverName nextProtos withALPN algos curveIDs
        padding status sct reneg ems := fun h => by cases isTLS13_of_mem_common h
    rw [hperm.mem_iff, mem_append, or_iff_right hnot]
    rcases halps with rfl | ⟨-, rfl⟩ <;> simp
  constructor
  · intro h ks hks
    obtain ⟨curves, hmem, hgroup⟩ := h.sharesListed shares ((hshares shares).mpr rfl) ks hks
    rwa [(hcurves curves).mp hmem] at hgroup
  · intro h
    refine ⟨fun shares' hmem ks hks => ?_, ?_, ?_, ?_, fun hmem => ?_⟩
    · rw [(hshares shares').mp hmem] at hks
      exact ⟨curveIDs, (hcurves curveIDs).mpr rfl, h ks hks⟩
    · exact iff_of_true ⟨shares, (hshares shares).mpr rfl⟩ hmax
    · exact iff_of_true ⟨modes, hperm.mem_iff.mpr (by simp)⟩ hmax
    · exact iff_of_true ⟨versions, hperm.mem_iff.mpr (by simp)⟩ hmax
    · -- neither of the two ALPS types is among the other extensions
      rcases halps with rfl | ⟨hALPN, -⟩
      · rcases hmem with ⟨protos, hmem⟩ | ⟨protos, hmem⟩
        all_goals
          rcases mem_append.mp (hperm.mem_iff.mp hmem) with hmem | hmem
          · cases isTLS13_of_mem_common hmem
          · simp at hmem
      · obtain ⟨protos, hprotos⟩ := alpn_mem_common hALPN
        exact ⟨protos, hperm.mem_iff.mpr (mem_append_left _ hprotos)⟩

end Common

/-- A share for X25519MLKEM768 without the group: for TLS 1.3, the first share is not set to P-256,
the second coin for more shares is true, and the first of the two coins for X25519 groups is not.  The
coins are told by their places in the stream; a list of 22 suites is left for the removal, which flips
21 coins. -/
def Prng.HybridShareAlone (r : Prng) (w : Weights) (client : HelloClient) : Prop :=
  (r (client.alpnDraws + 1)).coin w.tlsVersMaxSetVersionTLS13 = true ∧
    (r (client.alpnDraws + 30)).coin w.curveIDsAppendX25519 = false ∧
    (r (client.alpnDraws + 38)).coin w.firstKeyShareSetCurveP256 = false ∧
    (r (client.alpnDraws + 40)).coin w.keyShareAppendRandomGroups = true

/-- The shares that are drawn are among the groups that are drawn, but for that case. -/
lemma keyShares_listed_iff (r : Prng) (w : Weights) (k k' : Nat) :
    (∀ ks ∈ r.keyShares w k', ks.group ∈ r.curveIDs w VersionTLS13 k) ↔
      ¬((r k).coin w.curveIDsAppendX25519 = false ∧
        (r k').coin w.firstKeyShareSetCurveP256 = false ∧
        (r (k' + 2)).coin w.keyShareAppendRandomGroups = true) := by
  have hx25519 : X25519 ∈ r.curveIDs w VersionTLS13 k := by simp [Prng.curveIDs]
  have hp256 : CurveP256 ∈ r.curveIDs w VersionTLS13 k := by simp [Prng.curveIDs]
  have hhybrid : X25519MLKEM768 ∈ r.curveIDs w VersionTLS13 k ↔
      (r k).coin w.curveIDsAppendX25519 = true := by
    cases h : (r k).coin w.curveIDsAppendX25519 <;>
      simp [Prng.curveIDs, h, X25519MLKEM768, X25519, CurveP256, CurveP384, CurveP521]
  rw [Prng.keyShares]
  split_ifs with hfirst hlast hsecond hsecond
  all_goals simp [*]

section Spec

variable {R : Randomness} {r salted : Prng} {seed : Bytes} {w : Weights} {client : HelloClient}
  (serverName : GoString) (nextProtos : List GoString)

/-- A run for TLS 1.2. -/
lemma randomizedSpec_tls12 (hclient : client.Randomized)
    (hcoin : (r (client.alpnDraws + 1)).coin w.tlsVersMaxSetVersionTLS13 = false) :
    ∃ p k, randomizedSpec R r seed w client serverName nextProtos 0 = .ok p k ∧
      GoodCiphers p.tlsVersMax p.cipherSuites ∧ SelfConsistent p := by
  obtain ⟨withALPN, hALPN⟩ := chooseALPN_ok r w hclient 0
  rw [Nat.zero_add] at hALPN
  obtain ⟨l, hl, hperm, hfirst⟩ := shuffledCiphers_ok R.sorting r client.alpnDraws
  have hvers := chooseVersions_tls12 r w hcoin l
  obtain ⟨kept, hkept, hsub, hhead⟩ := removeRandomCiphers_ok r l w.cipherSuitesRemoveRandomCiphers
    (client.alpnDraws + 1 + 1)
  obtain ⟨algos, k, halgos, -⟩ := chooseSigAndHashAlgos_ok r w VersionTLS12
    (client.alpnDraws + 1 + 1 + (l.length - 1))
  have hnot : (VersionTLS12 == VersionTLS13) = false := rfl
  have hmax : VersionTLS12 ≠ VersionTLS13 := by decide
  simp only [randomizedSpec, run_bind, hALPN, hl, hvers, hkept, halgos, chooseCurveIDs_eq,
    Prng.run_flipWeightedCoin, hnot, Bool.false_eq_true, if_false, run_pure, Prng.run_shuffle,
    append_nil]
  refine ⟨_, _, rfl, (goodCiphers_tls12 hperm hfirst).sublist hsub hhead, ?_⟩
  exact selfConsistent_tls12 hmax (Swaps.swapAll_perm _ _)

/-- A run for TLS 1.3. -/
lemma randomizedSpec_tls13 (hclient : client.Randomized)
    (hsalted : R.newPRNGWithSaltedSeed seed "ALPS" = .ok salted)
    (hcoin : (r (client.alpnDraws + 1)).coin w.tlsVersMaxSetVersionTLS13 = true) :
    ∃ p k, randomizedSpec R r seed w client serverName nextProtos 0 = .ok p k ∧
      GoodCiphers p.tlsVersMax p.cipherSuites ∧
      (SelfConsistent p ↔ ∀ ks ∈ r.keyShares w (client.alpnDraws + 38),
        ks.group ∈ r.curveIDs w VersionTLS13 (client.alpnDraws + 30)) := by
  obtain ⟨withALPN, hALPN⟩ := chooseALPN_ok r w hclient 0
  rw [Nat.zero_add] at hALPN
  obtain ⟨l, hl, hperm, hfirst⟩ := shuffledCiphers_ok R.sorting r client.alpnDraws
  obtain ⟨minVers, suites, hvers, hgood, hlen⟩ := chooseVersions_tls13 r w hcoin hperm hfirst
  obtain ⟨kept, hkept, hsub, hhead⟩ := removeRandomCiphers_ok r suites
    w.cipherSuitesRemoveRandomCiphers (client.alpnDraws + 1 + 3)
  rw [hlen] at hkept
  obtain ⟨algos, k, halgos, hk⟩ := chooseSigAndHashAlgos_ok r w VersionTLS13
    (client.alpnDraws + 1 + 3 + (22 - 1))
  rw [hk rfl] at halgos
  obtain ⟨alps, k', htls13, halps⟩ := chooseTLS13Extensions_ok r w hsalted withALPN minVers
    VersionTLS13 (client.alpnDraws + 1 + 3 + (22 - 1) + 5 + 3 + 1 + 1 + 1 + 1 + 1)
  have hthen : (VersionTLS13 == VersionTLS13) = true := rfl
  simp only [randomizedSpec, run_bind, hALPN, hl, hvers, hkept, halgos, chooseCurveIDs_eq,
    Prng.run_flipWeightedCoin, hthen, if_true, htls13, Prng.run_shuffle, run_pure]
  refine ⟨_, _, rfl, hgood.sublist hsub hhead, ?_⟩
  exact selfConsistent_tls13 rfl halps (Swaps.swapAll_perm _ _)

/-- Every run returns a spec. -/
lemma randomizedSpec_ok (hclient : client.Randomized)
    (hsalted : R.newPRNGWithSaltedSeed seed "ALPS" = .ok salted) :
    ∃ p k, randomizedSpec R r seed w client serverName nextProtos 0 = .ok p k ∧
      GoodCiphers p.tlsVersMax p.cipherSuites ∧
      (SelfConsistent p ↔ ¬r.HybridShareAlone w client) := by
  cases hcoin : (r (client.alpnDraws + 1)).coin w.tlsVersMaxSetVersionTLS13 with
  | false =>
    obtain ⟨p, k, hrun, hgood, hp⟩ := randomizedSpec_tls12 serverName nextProtos hclient hcoin
    refine ⟨p, k, hrun, hgood, iff_of_true hp fun halone => ?_⟩
    cases hcoin.symm.trans halone.1
  | true =>
    obtain ⟨p, k, hrun, hgood, hp⟩ := randomizedSpec_tls13 serverName nextProtos hclient hsalted hcoin
    refine ⟨p, k, hrun, hgood, hp.trans ?_⟩
    rw [keyShares_listed_iff, Prng.HybridShareAlone, eq_true hcoin, true_and]

end Spec

/-! ## A steady generator -/

/-- A draw that gives `b` for every coin, 0 for every number and leaves everything in its place. -/
def steadyDraw (b : Bool) : Draw where
  coin _ := b
  intn _ := 0
  perm := List.range
  swaps _ := []
  intn_lt _ h := h
  perm_range _ := .refl _

lemma SortableCipher.less_total (a b : SortableCipher) : b.less a = false ∨ a.less b = false := by
  obtain ⟨oa, ta, _⟩ := a
  obtain ⟨ob, tb, _⟩ := b
  cases oa <;> cases ob <;> simp [less]
  all_goals omega

lemma SortableCipher.less_trans {a b c : SortableCipher} (hab : b.less a = false)
    (hbc : c.less b = false) : c.less a = false := by
  obtain ⟨oa, ta, _⟩ := a
  obtain ⟨ob, tb, _⟩ := b
  obtain ⟨oc, tc, _⟩ := c
  cases oa <;> cases ob <;> cases oc <;> simp [less] at hab hbc ⊢
  all_goals omega

/-- Sorting by insertion. -/
def insertionSorting : Sorting where
  sort l := l.insertionSort fun a b => b.less a = false
  perm l := List.perm_insertionSort _ l
  sorted l :=
    have : Std.Total fun a b : SortableCipher => b.less a = false := ⟨SortableCipher.less_total⟩
    have : IsTrans SortableCipher fun a b => b.less a = false :=
      ⟨fun _ _ _ => SortableCipher.less_trans⟩
    List.pairwise_insertionSort _ l

/-- A generator that gives true for the coins at the places in `l`. -/
def steadyRandomness (l : List Nat) : Randomness where
  newPRNGSeed := .ok []
  newPRNGWithSeed _ := .ok fun k => steadyDraw (l.contains k)
  newPRNGWithSaltedSeed _ _ := .ok fun _ => steadyDraw false
  sorting := insertionSorting

/-- `HelloRandomizedALPN` with a seed. -/
def seededALPN : RandomizedID := ⟨.helloRandomizedALPN, some [], none⟩

/-! ## Results -/

section Results

variable {R : Randomness} {id : RandomizedID} {seed : Bytes} {r salted : Prng}

/-- What a run of the whole function is, once the generators have been made. -/
lemma generateRandomizedSpec_run (hseed : R.seedOf id = .ok seed)
    (hr : R.newPRNGWithSeed seed = .ok r) {serverName : GoString} {nextProtos : List GoString}
    {p : GeneratedSpec} {k : Nat}
    (h : randomizedSpec R r seed (id.weights.getD defaultWeights) id.client serverName nextProtos 0 =
      .ok p k) :
    generateRandomizedSpec R id serverName nextProtos =
      .ok (p, ⟨id.client, some seed, some (id.weights.getD defaultWeights)⟩) := by
  simp only [generateRandomizedSpec, hseed, hr, h]

/-- Every randomized spec agrees with itself, unless the coins give a share for X25519MLKEM768 and do
not list the group. -/
theorem generateRandomizedSpec_consistent_iff (hclient : id.client.Randomized)
    (hseed : R.seedOf id = .ok seed) (hr : R.newPRNGWithSeed seed = .ok r)
    (hsalted : R.newPRNGWithSaltedSeed seed "ALPS" = .ok salted) (serverName : GoString)
    (nextProtos : List GoString) :
    ∃ p id', generateRandomizedSpec R id serverName nextProtos = .ok (p, id') ∧
      (SelfConsistent p ↔ ¬r.HybridShareAlone (id.weights.getD defaultWeights) id.client) := by
  obtain ⟨p, k, hrun, -, hp⟩ := randomizedSpec_ok serverName nextProtos hclient hsalted
  exact ⟨p, _, generateRandomizedSpec_run hseed hr hrun, hp⟩

end Results

theorem steadySpec_consistent :
    ∃ p id', generateRandomizedSpec (steadyRandomness []) seededALPN [] [] = .ok (p, id') ∧
      SelfConsistent p := by
  obtain ⟨p, id', hgen, hp⟩ := generateRandomizedSpec_consistent_iff (R := steadyRandomness [])
    (show seededALPN.client.Randomized from trivial) rfl rfl rfl [] []
  refine ⟨p, id', hgen, hp.mpr fun halone => ?_⟩
  cases halone.1

/-- The extension at a place of the spec that is returned. -/
def extensionAt (i : Nat) (out : Except (Fault String) (GeneratedSpec × RandomizedID)) :
    Option Ext :=
  out.toOption.bind fun result => result.1.extensions[i]?

/-- The share comes from the coin at 40, while the coin at 30 has not listed its group. -/
theorem hybridShare_unlisted :
    ∃ p id', generateRandomizedSpec (steadyRandomness [1, 40]) seededALPN [] [] = .ok (p, id') ∧
      .keyShare [⟨X25519MLKEM768, []⟩, ⟨X25519, []⟩] ∈ p.extensions ∧
      .supportedCurves [X25519, CurveP256, CurveP384] ∈ p.extensions ∧ ¬SelfConsistent p := by
  have hclient : seededALPN.client.Randomized := trivial
  have hseed : (steadyRandomness [1, 40]).seedOf seededALPN = .ok [] := rfl
  have hr : (steadyRandomness [1, 40]).newPRNGWithSeed [] =
      .ok fun k => steadyDraw ([1, 40].contains k) := rfl
  have hsalted : (steadyRandomness [1, 40]).newPRNGWithSaltedSeed [] "ALPS" =
      .ok fun _ => steadyDraw false := rfl
  obtain ⟨p, k, hrun, -, hp⟩ := randomizedSpec_ok [] [] hclient hsalted
  have hgen := generateRandomizedSpec_run hseed hr hrun
  have hshares := (congrArg (extensionAt 7) hgen).symm.trans
    (show _ = some (.keyShare [⟨X25519MLKEM768, []⟩, ⟨X25519, []⟩]) from rfl)
  have hcurves := (congrArg (extensionAt 4) hgen).symm.trans
    (show _ = some (.supportedCurves [X25519, CurveP256, CurveP384]) from rfl)
  refine ⟨p, _, hgen, mem_of_getElem? hshares, mem_of_getElem? hcurves, fun h => ?_⟩
  exact hp.mp h ⟨rfl, rfl, rfl, rfl⟩

section Results

variable {R : Randomness} {id : RandomizedID} {seed : Bytes} {r salted : Prng}

/-- The cipher suites of every randomized spec are as they should be.  The loops that remove suites
never leave their slices; the one for RC4 looks at every element, and the random one at every element
but the first, which always stays. -/
theorem generateRandomizedSpec_ciphers (hclient : id.client.Randomized)
    (hseed : R.seedOf id = .ok seed) (hr : R.newPRNGWithSeed seed = .ok r)
    (hsalted : R.newPRNGWithSaltedSeed seed "ALPS" = .ok salted) (serverName : GoString)
    (nextProtos : List GoString) :
    (∃ p id', generateRandomizedSpec R id serverName nextProtos = .ok (p, id') ∧
      GoodCiphers p.tlsVersMax p.cipherSuites) ∧
    (∀ s k, ∃ kept, removeRC4Loop s k = .ok (kept, s) k) ∧
    (∀ (g : Prng) s weight k, ∃ kept, removeRandomLoop g s weight k =
      .ok (kept, s.tail) (k + (s.length - 1)) ∧ kept.head? = s.head?) := by
  refine ⟨?_, fun s k => ⟨_, congrFun (removeRC4Loop_eq s) k⟩, fun g s weight k => ?_⟩
  · obtain ⟨p, k, hrun, hp, -⟩ := randomizedSpec_ok serverName nextProtos hclient hsalted
    exact ⟨p, _, generateRandomizedSpec_run hseed hr hrun, hp⟩
  · obtain ⟨kept, hkept, -, hhead⟩ := removeRandomLoop_ok g s weight k
    exact ⟨kept, hkept, hhead⟩

end Results

theorem steadySpec_ciphers :
    ∃ p id', generateRandomizedSpec (steadyRandomness [1]) seededALPN [] [] = .ok (p, id') ∧
      GoodCiphers p.tlsVersMax p.cipherSuites :=
  (generateRandomizedSpec_ciphers (R := steadyRandomness [1])
    (show seededALPN.client.Randomized from trivial) rfl rfl rfl [] []).1

/-- The first suite is not looked at. -/
theorem firstCipher_passed_over :
    removeRandomLoop (fun _ => steadyDraw false) [TLS_AES_128_GCM_SHA256, TLS_AES_256_GCM_SHA384] 1 0 =
        .ok ([TLS_AES_128_GCM_SHA256, TLS_AES_256_GCM_SHA384], [TLS_AES_256_GCM_SHA384]) 1 ∧
      TLS_AES_128_GCM_SHA256 ∉ [TLS_AES_256_GCM_SHA384] :=
  ⟨rfl, by decide⟩

end Utls
