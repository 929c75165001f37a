import Utls.EchPsk
import Utls.SentHello

/-!
# The binder of the inner hello

The binder of a pre-shared key covers the hello up to the binders.  Under ECH it is the inner hello
that counts, as the server reconstructs it: the client encodes the inner hello with some binder,
expands the encoding against the outer hello that it is about to send, computes the binder over the
result and encodes once more.  The last encoding is sealed, and the payload of the outer hello is
not known before.

The binder is right nevertheless (`inner_binder_correct`): exchanging a binder for another of the
same length leaves everything in front of the binders as it was (`beforeBinders_congr`), and the
server does not take the ECH extension from the outer hello.
-/

namespace Utls

open Wire Exec List Option ClientHelloMsg UtlsPreSharedKeyExtension

variable {suite : CipherSuiteTLS13} {inner outer : ClientHelloMsg}

/-! ## The reconstructed hello up to its binders -/

namespace ClientHelloMsg

/-- The extensions of the reconstructed hello without the pre-shared keys. -/
def unboundExts (m : ClientHelloMsg) (q : UInt16 → Bool) (outer : List RawExtension) :
    List RawExtension :=
  m.echMarkerExts ++ (m.nameExts ++ (referredExts q outer ++
    m.innerVersionExts (echOuterTypes (outerTypes q outer))))

lemma expandedExts_eq_append (m : ClientHelloMsg) (q : UInt16 → Bool) (outer : List RawExtension) :
    m.expandedExts q outer = m.unboundExts q outer ++ m.pskExts := by
  simp only [expandedExts, unboundExts, append_assoc]

/-- The reconstructed hello up to its binders. -/
def beforeBinders (m : ClientHelloMsg) (sessionId : Bytes) (q : UInt16 → Bool)
    (outer : List RawExtension) : Bytes :=
  let ids := vec16 (pskIdentityBytes m.pskIdentities)
  let dataLen := (ids ++ vec16 (pskBinderBytes m.pskBinders)).length
  let blockLen := ((m.expandedExts q outer).flatMap rawExtensionBytes).length
  let body := front [] m.vers m.random sessionId m.cipherSuites m.compressionMethods
    (u16 blockLen ++ ((m.unboundExts q outer).flatMap rawExtensionBytes ++
      (u16 extensionPreSharedKey.toNat ++ (u16 dataLen ++ ids))))
  1 :: (u24 (body.length + (2 + (pskBinderBytes m.pskBinders).length)) ++ body)

/-- The binders are at the end. -/
lemma reconstructed_eq_append {m : ClientHelloMsg} (hids : m.pskIdentities ≠ []) (sessionId : Bytes)
    (q : UInt16 → Bool) (outer : List RawExtension) :
    m.reconstructed sessionId q outer =
      m.beforeBinders sessionId q outer ++ vec16 (pskBinderBytes m.pskBinders) := by
  have hpsk : m.pskExts.flatMap rawExtensionBytes = u16 extensionPreSharedKey.toNat ++
      (u16 (vec16 (pskIdentityBytes m.pskIdentities) ++ vec16 (pskBinderBytes m.pskBinders)).length ++
        (vec16 (pskIdentityBytes m.pskIdentities) ++ vec16 (pskBinderBytes m.pskBinders))) := by
    have hpos : m.pskIdentities.length > 0 := length_pos_iff.mpr hids
    rw [pskExts, if_pos hpos]
    simp [rawExtensionBytes, extFrame, vec16]
  have hblock : vec16 ((m.expandedExts q outer).flatMap rawExtensionBytes) =
      u16 ((m.expandedExts q outer).flatMap rawExtensionBytes).length ++
        ((m.unboundExts q outer).flatMap rawExtensionBytes ++ m.pskExts.flatMap rawExtensionBytes) := by
    rw [vec16, m.expandedExts_eq_append, flatMap_append]
  rw [reconstructed, beforeBinders, hblock, hpsk]
  simp only [front, nil_append, length_append, length_vec16, append_assoc,
    cons_append, Nat.add_assoc]

/-- What is in front of the binders depends on their lengths only. -/
theorem beforeBinders_congr (m : ClientHelloMsg) {binders : List Bytes}
    (h : binders.map List.length = m.pskBinders.map List.length) (o : Option Bytes)
    (sessionId : Bytes) (q : UInt16 → Bool) (outer : List RawExtension) :
    beforeBinders { m with pskBinders := binders, original := o } sessionId q outer =
      m.beforeBinders sessionId q outer := by
  have hlen : (pskBinderBytes binders).length = (pskBinderBytes m.pskBinders).length := by
    have hsum : ∀ l : List Bytes, (pskBinderBytes l).length =
        ((l.map List.length).map fun n => n + 1).sum := by
      intro l
      rw [length_pskBinderBytes, List.map_map]
      rfl
    rw [hsum, hsum, h]
  have hexts : unboundExts { m with pskBinders := binders, original := o } q outer =
      m.unboundExts q outer := rfl
  have hblock : ((expandedExts { m with pskBinders := binders, original := o } q outer).flatMap
      rawExtensionBytes).length = ((m.expandedExts q outer).flatMap rawExtensionBytes).length := by
    rw [expandedExts_eq_append, expandedExts_eq_append, hexts, flatMap_append,
      flatMap_append, length_append, length_append]
    simp only [pskExts]
    split_ifs
    · simp [rawExtensionBytes, hlen]
    · rfl
  simp only [beforeBinders, hblock, hexts, length_append, length_vec16, hlen]

/-- The part of the reconstructed hello that the binder covers. -/
lemma take_reconstructed {m : ClientHelloMsg} (hids : m.pskIdentities ≠ []) (sessionId : Bytes)
    (q : UInt16 → Bool) (outer : List RawExtension) :
    (m.reconstructed sessionId q outer).take
      ((m.reconstructed sessionId q outer).length - bindersSize m.pskBinders) =
        m.beforeBinders sessionId q outer := by
  have hsize : bindersSize m.pskBinders = (vec16 (pskBinderBytes m.pskBinders)).length := by
    rw [length_vec16, length_pskBinderBytes, bindersSize]
    simp only [Nat.add_comm]
  rw [hsize, reconstructed_eq_append hids, length_append, Nat.add_sub_cancel, take_left]

end ClientHelloMsg

/-! ## The size of the reconstructed hello -/

/-- Extensions that are left out of a block make it shorter. -/
lemma length_filter_add_le {p : RawExtension → Bool} {x : RawExtension} {l : List RawExtension}
    (hx : x ∈ l) (hp : p x = false) :
    ((l.filter p).flatMap rawExtensionBytes).length + (rawExtensionBytes x).length ≤
      (l.flatMap rawExtensionBytes).length := by
  have hsub : ∀ l : List RawExtension, ((l.filter p).flatMap rawExtensionBytes).length ≤
      (l.flatMap rawExtensionBytes).length := fun l =>
    ((filter_sublist (p := p) (l := l)).flatMap rawExtensionBytes).length_le
  obtain ⟨pre, post, rfl⟩ := append_of_mem hx
  have h1 := hsub pre
  have h2 := hsub post
  rw [filter_append, filter_cons_of_neg (by simp [hp])]
  simp only [flatMap_append, flatMap_cons, length_append]
  omega

/-- The reconstructed hello fits because the outer one does: what it has of its own is in the
payload. -/
lemma expanded_fits {m : ClientHelloMsg} {q : UInt16 → Bool} {l : List RawExtension}
    {e data : Bytes}
    (hp : EncodedParts m (outerTypes q l) e) (hx : ⟨extensionEncryptedClientHello, data⟩ ∈ l)
    (hdata : e.length ≤ data.length) (hl : (l.flatMap rawExtensionBytes).length < 65536) :
    ((m.expandedExts q l).flatMap rawExtensionBytes).length < 65536 := by
  have hsize := hp.size
  have hfilter := length_filter_add_le (p := fun e => compressible e.extType && q e.extType) hx
    (by simp [show compressible extensionEncryptedClientHello = false by decide])
  simp only [rawExtensionBytes, length_extFrame] at hfilter
  simp only [innerRawExts, flatMap_append, length_append] at hsize
  simp only [expandedExts, referredExts, flatMap_append, length_append]
  omega

/-! ## An inner hello that offers a pre-shared key -/

/-- An inner hello with readable identities and the binder `b`. -/
structure InnerOffer (m : ClientHelloMsg) (b : Bytes) : Prop where
  ech : m.encryptedClientHello = [1]
  versions : m.supportedVersions ≠ []
  dot : m.serverName.getLast? ≠ some 46
  identities : m.pskIdentities ≠ []
  labels : ∀ i ∈ m.pskIdentities, i.label ≠ []
  binders : m.pskBinders = [b]
  binder : b ≠ []

/-- The inner hello with another binder. -/
def ClientHelloMsg.withBinder (m : ClientHelloMsg) (b : Bytes) (o : Option Bytes) :
    ClientHelloMsg :=
  { m with pskBinders := [b], original := o }

namespace InnerOffer

variable {m : ClientHelloMsg} {b : Bytes}

lemma withBinder (h : InnerOffer m b) {b' : Bytes} (hb' : b' ≠ []) (o : Option Bytes) :
    InnerOffer (m.withBinder b' o) b' :=
  ⟨h.ech, h.versions, h.dot, h.identities, h.labels, rfl, hb'⟩

lemma readable (h : InnerOffer m b) : m.PskReadable := by
  refine .inr ⟨h.identities, ?_, h.labels, ?_⟩
  · rw [h.binders]
    simp
  · intro b' hb'
    rw [h.binders, mem_singleton] at hb'
    rw [hb']
    exact h.binder

/-- The pre-shared key is the last extension of the reconstructed hello. -/
lemma getLast_expandedExts (h : InnerOffer m b) (q : UInt16 → Bool) (l : List RawExtension) :
    ((m.expandedExts q l).map (·.extType)).getLast? = some extensionPreSharedKey := by
  have hpos : m.pskIdentities.length > 0 := length_pos_iff.mpr h.identities
  rw [m.expandedExts_eq_append, pskExts, if_pos hpos, map_append]
  simp

/-- A server decodes what was encoded, whatever data the ECH extension of the outer hello has, as
long as it has room for the encoding. -/
lemma decodes (h : InnerOffer m b) {outerExts : List UInt16} {n : Nat} {e sessionId data : Bytes}
    {l : List RawExtension} (hver : extensionSupportedVersions ∉ outerExts)
    (henc : encodeInnerClientHelloReorderOuterExts m n (some outerExts) = some e)
    (hread : ReadsAs outer sessionId l)
    (hlisted : (echOuterTypes outerExts).Sublist (l.map (·.extType)))
    (hx : ⟨extensionEncryptedClientHello, data⟩ ∈ l) (hdata : e.length ≤ data.length) :
    ∃ r recon, decodeInnerClientHelloWithRaw outer e = some (r, recon) ∧
      Decoded m outer (referredType outerExts) l r recon ∧ r.pskIdentities = m.pskIdentities ∧
      r.pskBinders = [b] := by
  obtain ⟨raw, horiginal, hl⟩ := hread.original
  have hp : EncodedParts m (outerTypes (referredType outerExts) l) e := by
    refine (EncodedParts.of_encoded (by rw [h.ech]; decide) henc).congr ?_
    rw [outerTypes_referredType hlisted hread.nodup, echOuterTypes_idem]
  have hq : referredType outerExts extensionSupportedVersions = false := by
    have hmem : extensionSupportedVersions ∉ echOuterTypes outerExts :=
      fun hmem => hver (mem_of_mem_filter hmem)
    simpa [referredType] using hmem
  obtain ⟨r, recon, hdecode, hdecoded⟩ := decodeWithRaw_encoded horiginal
    (hread.sid ▸ hread.short) hl hread.nodup h.ech h.versions hq h.dot hp hread.accepted h.readable
    (expanded_fits hp hx hdata hread.block)
  obtain ⟨hids, hbinders⟩ := hdecoded.back.psk_eq hp h.readable
  exact ⟨r, recon, hdecode, hdecoded, hids, hbinders.trans h.binders⟩

end InnerOffer

/-! ## Correcting the binder -/

section Deps

variable (d : Deps)

variable {c c' : UConn} {ech : EchClientContext}

/-- What `fixInnerBinder` does if the hello of the first encoding can be decoded: the encoding that
it returns is that of the inner hello with the binder over the decoded one. -/
lemma fixInnerBinder_eq {outerBytes encoded recon b : Bytes} {outerExts : List UInt16}
    {decoded : ClientHelloMsg} (hsuite : c.pskCipherSuite = some suite)
    (hkey : c.pskBinderKey.length ≠ 0) (houter : unmarshal (withHeader outerBytes) = some outer)
    (hids : inner.pskIdentities ≠ []) (hb : inner.pskBinders = [b])
    (hlen : b.length = suite.hash.size) (hech : ech.encodedInnerHello = encoded)
    (henc : encodeInnerClientHelloReorderOuterExts inner ech.config.maxNameLength.toNat
      (some outerExts) = some encoded)
    (hdecode : decodeInnerClientHelloWithRaw outer encoded = some (decoded, recon))
    (hdb : decoded.pskBinders = [b]) :
    ∃ o, encodeInnerClientHelloReorderOuterExts
        (inner.withBinder (innerBinder d suite c.pskBinderKey recon [b]) o)
        ech.config.maxNameLength.toNat (some outerExts) =
      some (fixInnerBinder d c outerBytes outerExts inner ech).2.encodedInnerHello := by
  have hno : ¬(inner.pskIdentities.length = 0 ∨ c.pskBinderKey.length = 0) := by
    rintro (h | h)
    · exact hids (length_eq_zero_iff.mp h)
    · exact hkey h
  set correct := innerBinder d suite c.pskBinderKey recon [b] with hcorrect
  unfold fixInnerBinder
  simp only [hsuite, houter, if_neg hno, hech, hdecode, hdb, ← hcorrect]
  by_cases hsame : [b].head? = some correct
  · -- the binder was right
    have hbc : b = correct := some.inj hsame
    rw [if_pos (.inr hsame)]
    refine ⟨inner.original, ?_⟩
    have hinner : inner.withBinder correct inner.original = inner := by
      rw [withBinder, ← hbc, ← hb]
    rw [hinner, hech]
    exact henc
  · have hneg : ¬([b].length = 0 ∨ [b].head? = some correct) := by
      rintro (h | h)
      · cases h
      · exact hsame h
    rw [if_neg hneg, hb, set_cons_zero]
    refine ⟨none, ?_⟩
    -- the second encoding has the length of the first one
    have hcl : [correct].map List.length = inner.pskBinders.map List.length := by
      rw [hb, hcorrect, innerBinder, map_singleton, map_singleton, length_pskBinder, hlen]
    have hsl := sameLen_encodeInner inner [correct] hcl none ech.config.maxNameLength.toNat outerExts
    rw [henc] at hsl
    obtain ⟨encoded', henc'⟩ : ∃ e, encodeInnerClientHelloReorderOuterExts
        { inner with pskBinders := [correct], original := none } ech.config.maxNameLength.toNat
        (some outerExts) = some e := by
      cases he : encodeInnerClientHelloReorderOuterExts
          { inner with pskBinders := [correct], original := none } ech.config.maxNameLength.toNat
          (some outerExts) with
      | none =>
        rw [he] at hsl
        cases hsl
      | some e => exact ⟨e, rfl⟩
    rw [withBinder]
    simp only [henc']
    cases decodeInnerClientHelloWithRaw outer encoded' with
    | none => rfl
    | some x => rfl

/-- The inner hello that is sealed with a corrected binder, as a server decodes it from the outer
hello that is sent. -/
lemma binder_of_corrected {h : ClientHelloMsg} {exts : List Ext} {i : Nat}
    {data zeroed encoded b : Bytes} {outerExts : List UInt16} (hh : h.HeaderFits)
    (hi : i < exts.length) (ho : unmarshal (clientHelloEncoding d.parseIP h
      (exts.set i (.generic extensionEncryptedClientHello data))) = some outer)
    (hz : zeroed.length = data.length) (hroom : encoded.length ≤ data.length)
    (hlisted : (echOuterTypes outerExts).Sublist ((rawExts d.parseIP
      (exts.set i (.generic extensionEncryptedClientHello data))).map (·.extType)))
    (hver : extensionSupportedVersions ∉ outerExts) (hoffer : InnerOffer inner b)
    (hsuite : c.pskCipherSuite = some suite) (hkey : c.pskBinderKey.length ≠ 0)
    (hlen : b.length = suite.hash.size) (hech : ech.encodedInnerHello = encoded)
    (henc : encodeInnerClientHelloReorderOuterExts inner ech.config.maxNameLength.toNat
      (some outerExts) = some encoded) :
    ∃ r recon, decodeInnerClientHelloWithRaw outer (fixInnerBinder d c ((clientHelloEncoding d.parseIP h
        (exts.set i (.generic extensionEncryptedClientHello zeroed))).drop 4) outerExts inner
          ech).2.encodedInnerHello = some (r, recon) ∧
      r.pskIdentities = inner.pskIdentities ∧ r.extensions.getLast? = some extensionPreSharedKey ∧
      r.pskBinders = [pskBinder d suite c.pskBinderKey
        (recon.take (recon.length - bindersSize r.pskBinders))] := by
  set l := rawExts d.parseIP (exts.set i (.generic extensionEncryptedClientHello data)) with hl
  have hread : ReadsAs outer h.sessionId l := readsAs_of_unmarshal hh (ne_nil_of_mem (mem_set hi _)) ho
  have hx : ⟨extensionEncryptedClientHello, data⟩ ∈ l := mem_rawExts_set hi _ _
  have hmem : ∀ z, ⟨extensionEncryptedClientHello, z⟩ ∈ withEchData z l := by
    intro z
    have hmap := List.mem_map_of_mem (f := fun x : RawExtension =>
      if x.extType = extensionEncryptedClientHello then (⟨x.extType, z⟩ : RawExtension) else x) hx
    rwa [if_pos rfl] at hmap
  -- the first encoding, decoded with zeros in the place of the payload
  obtain ⟨outer', ho', hread'⟩ := readsAs_withEchData hh hi hz ho
  obtain ⟨r', recon', hdecode', hdecoded', -, hbinders'⟩ := hoffer.decodes hver henc hread'
    (by rw [types_withEchData]; exact hlisted) (hmem zeroed) (hz ▸ hroom)
  -- the second encoding, decoded with the payload
  have hzeros : unmarshal (withHeader ((clientHelloEncoding d.parseIP h
      (exts.set i (.generic extensionEncryptedClientHello zeroed))).drop 4)) = some outer' := by
    exact ho'
  obtain ⟨o, henc2⟩ := fixInnerBinder_eq d hsuite hkey hzeros hoffer.identities hoffer.binders hlen hech
    henc hdecode' hbinders'
  set b2 := innerBinder d suite c.pskBinderKey recon' [b] with hb2
  have hb₂len : b2.length = suite.hash.size := length_pskBinder d _ _ _
  have hoffer2 : InnerOffer (inner.withBinder b2 o) b2 := by
    refine hoffer.withBinder (fun hnil => ?_) o
    rw [hnil, ← hlen] at hb₂len
    exact hoffer.binder (length_eq_zero_iff.mp hb₂len.symm)
  have hsame : [b2].map List.length = inner.pskBinders.map List.length := by
    rw [hoffer.binders, map_singleton, map_singleton, hb₂len, hlen]
  have hroom2 : (fixInnerBinder d c ((clientHelloEncoding d.parseIP h
      (exts.set i (.generic extensionEncryptedClientHello zeroed))).drop 4) outerExts inner
        ech).2.encodedInnerHello.length ≤ data.length := by
    have hsl := sameLen_encodeInner inner [b2] hsame o ech.config.maxNameLength.toNat outerExts
    rw [withBinder] at henc2
    rw [henc2, henc] at hsl
    rw [some.inj hsl]
    exact hroom
  obtain ⟨r, recon, hdecode, hdecoded, hids, hbinders⟩ := hoffer2.decodes hver henc2 hread hlisted hx
    hroom2
  refine ⟨r, recon, hdecode, hids, ?_, ?_⟩
  · rw [hdecoded.types]
    exact hoffer2.getLast_expandedExts _ _
  · -- both binders cover the same bytes
    have hcover : recon.take (recon.length - bindersSize [b2]) =
        recon'.take (recon'.length - bindersSize [b]) := by
      have h1 := take_reconstructed hoffer2.identities outer.sessionId
        (referredType outerExts) l
      have h2 := take_reconstructed hoffer.identities outer'.sessionId
        (referredType outerExts) (withEchData zeroed l)
      rw [hoffer2.binders, ← hdecoded.recon] at h1
      rw [hoffer.binders, ← hdecoded'.recon] at h2
      rw [h1, h2, hread.sid, hread'.sid, withBinder, beforeBinders_congr inner hsame]
      simp only [beforeBinders, expandedExts_withEchData, unboundExts,
        referredExts_withEchData, outerTypes, types_withEchData]
    rw [hbinders, hcover]
    rfl

/-! ## The inner hello of a build -/

/-- The inner hello that is made for ECH. -/
lemma makeClientHello_inner (h : makeClientHello d c = .ok (inner, some ech) c') :
    inner.encryptedClientHello = [1] ∧ inner.supportedVersions ≠ [] ∧
      inner.serverName.getLast? ≠ some 46 := by
  obtain ⟨hcheck, random, sessionId, shares, params, -, hmade | ⟨ctx, -, -, hmade⟩⟩ :=
    makeClientHello_ok d h
  · cases hmade
  · cases hmade
    refine ⟨rfl, ?_, getLast_hostnameInSNI _ _⟩
    change c.config.supportedVersions ≠ []
    intro hnil
    unfold checkConfig at hcheck
    cases hn : checkNames c.config with
    | error err =>
      rw [hn] at hcheck
      cases hcheck
    | ok _ =>
      rw [hn, hnil] at hcheck
      cases hcheck

/-- The inner hello gets the identities of the extension and a binder of the right length. -/
lemma innerWithPsk_eq_ok {c1 c2 : UConn} {e : UtlsPreSharedKeyExtension} {inner' : ClientHelloMsg}
    {b0 : Bytes} (hsuite : c.pskCipherSuite = some suite) (hkey : c.pskBinderKey.length ≠ 0)
    (hb0 : e.binders = [b0]) (h : innerWithPsk d c e inner c1 = .ok inner' c2) :
    ∃ b, b.length = suite.hash.size ∧
      inner' = { inner with pskIdentities := e.identities, pskBinders := [b] } := by
  unfold innerWithPsk at h
  simp only [hsuite, if_neg hkey] at h
  obtain ⟨bytes, _, h1, h⟩ := bind_eq_ok.mp h
  rw [assert_bind_eq_ok] at h
  cases h.2
  refine ⟨pskBinder d suite c.pskBinderKey bytes, length_pskBinder d _ _ _, ?_⟩
  simp only [hb0, map_singleton, set_cons_zero]

/-- The list that `extensionsList` returns is that of the extensions it leaves. -/
lemma extensionsList_eq_ok {l : List UInt16} (h : extensionsList d c = .ok l c') :
    l = listTypes d c'.exts := by
  rw [extensionsList, run_get_bind] at h
  obtain ⟨_, c1, -, h⟩ := bind_eq_ok.mp h
  cases h
  rfl

lemma listedType_of_type {e : Ext} {t : UInt16} (ht : compressible t = false)
    (he : ∀ x, e.rawExt d.parseIP = some x → x.extType = t) :
    compressible (listedType d e) = false := by
  rcases listedType_cases d e with h | h
  · rw [h]
    decide
  · obtain ⟨x, hx, hxt⟩ := map_eq_some_iff.mp h
    rw [← hxt, he x hx, ht]

lemma listedType_sni (name : GoString) : compressible (listedType d (.sni name)) = false := by
  refine listedType_of_type d (show compressible extensionServerName = false by decide) fun x hx => ?_
  simp only [Ext.rawExt, Ext.wire] at hx
  split_ifs at hx
  · cases hx
  · rw [rawExtOf_extFrame] at hx
    cases hx
    rfl

lemma listedType_greaseECH {e : Ext} (h : e.isGreaseECH = true) :
    compressible (listedType d e) = false := by
  cases e with
  | greaseECH g =>
    refine listedType_of_type d (show compressible extensionEncryptedClientHello = false by decide)
      fun x hx => ?_
    rw [Ext.rawExt, Ext.wire, rawExtOf_extFrame] at hx
    cases hx
    rfl
  | _ => cases h

/-- Setting the name changes `server_name` extensions only. -/
lemma setFirstSNI_listedKept {name : GoString} {u : Unit}
    (h : setFirstSNI name c = .ok u c') (r : Ref) : ListedKept d (c.heap r) (c'.heap r) := by
  obtain rfl | ⟨r', old, hr', rfl⟩ := setFirstSNI_cases h
  · exact fun _ => rfl
  · by_cases hr : r = r'
    · intro hc
      rw [hr, hr', listedType_sni] at hc
      cases hc
    · exact fun _ => Function.update_of_ne hr _ _

namespace EchPskRun

variable {d : Deps} {c c' : UConn} {r : Ref} {e : UtlsPreSharedKeyExtension}

variable (run : EchPskRun d c r e c')

include run

/-- The types that are passed to the encoder are found in the hello that is sent. -/
lemma listed_sublist (hs : c.ShowsPsk r e) {i : Nat}
    (hi : echIndex run.c₃.exts = some i) (data : Bytes) :
    (echOuterTypes (run.listed.filter fun t =>
      t ≠ extensionEncryptedClientHello ∧ t ≠ extensionPreSharedKey)).Sublist
      ((rawExts d.parseIP (run.c₄.exts.set i (.generic extensionEncryptedClientHello data))).map
        (·.extType)) := by
  have hext3 : run.c₃.extensions = run.c₂.extensions := (setFirstSNI_ok run.named).extensions
  have hstep4 := run.echStep4 hs
  have hkept : Forall₂ (ListedKept d) run.c₂.exts
      (run.c₄.exts.set i (.generic extensionEncryptedClientHello data)) := by
    rw [forall₂_iff_get]
    have hlen : run.c₂.exts.length = run.c₄.exts.length := by
      rw [UConn.exts, UConn.exts, length_map, length_map, hstep4.extensions, hext3]
    refine ⟨by rw [length_set, hlen], fun j hj2 hj4 => ?_⟩
    rw [length_set] at hj4
    -- the object at index `j` before and after
    have hj : j < run.c₂.extensions.length := by simpa [UConn.exts] using hj2
    set ρ := run.c₂.extensions.get ⟨j, hj⟩ with hρ
    have h2 : run.c₂.exts.get ⟨j, hj2⟩ = run.c₂.heap ρ := by
      simp [UConn.exts, hρ]
    have hlt : ρ < run.c₃.nextRef := by
      refine (run.tidy3 hs).extensions ρ ?_
      rw [hext3]
      exact List.get_mem _ _
    have hsni := setFirstSNI_listedKept d run.named ρ
    have hsni : ListedKept d (run.c₂.heap ρ) (run.c₃.heap ρ) := hsni
    rw [h2]
    by_cases hij : j = i
    · -- the placeholder
      subst hij
      intro hc
      have hgrease : (run.c₃.heap ρ).isGreaseECH = true := by
        obtain ⟨hlt3, hat, -⟩ := findIdx?_eq_some_iff_getElem.mp hi
        have hget : run.c₃.exts[j] = run.c₃.heap ρ := by
          simp [UConn.exts, hext3, hρ]
        rwa [hget] at hat
      rw [hsni hc] at hgrease
      rw [listedType_greaseECH d hgrease] at hc
      cases hc
    · intro hc
      have h4 : (run.c₄.exts.set i (.generic extensionEncryptedClientHello data)).get
          ⟨j, by rwa [length_set]⟩ = run.c₄.heap ρ := by
        simp [UConn.exts, getElem_set_ne (Ne.symm hij), hstep4.extensions, hext3, hρ]
      have hkeep3 := hsni hc
      rw [h4, ← hkeep3]
      rw [← hkeep3] at hc
      exact (hstep4.heap ρ hlt).eq_of_listed d hc
  have hsub := Utls.listed_sublist d hkept
  refine Sublist.trans ?_ hsub
  rw [extensionsList_eq_ok d run.lists]
  exact (filter_sublist.trans filter_sublist).filter _

variable {id : PskIdentity}

/-- The random pre-shared key is an extension of the hello that is sent. -/
lemma psk_mem_rawExts (hs : c.ShowsPsk r e)
    {b : Bytes} (hids : e.identities = [id]) (hbs : e.binders = [b]) {i : Nat}
    (hi : echIndex run.c₃.exts = some i) (data : Bytes) :
    ⟨extensionPreSharedKey, vec16 (pskIdentityBytes (randomIdentities d run.c₁.draws [id])) ++
        vec16 (pskBinderBytes (randomBinders d (run.c₁.draws + 2) [b]))⟩ ∈
      rawExts d.parseIP (run.c₄.exts.set i (.generic extensionEncryptedClientHello data)) := by
  obtain ⟨e4, he4, hu⟩ := run.greased4 hs
  have hstep4 := run.echStep4 hs
  have hmem : r ∈ run.c₄.extensions := by
    rw [hstep4.extensions, (run.outerStep3 hs).extensions]
    exact (run.shows1 hs).mem
  obtain ⟨j, hj, hr⟩ := mem_iff_getElem.mp hmem
  have hne : i ≠ j := by
    rintro rfl
    obtain ⟨e3, he3, -⟩ := run.greased3 hs
    obtain ⟨hlt3, hat, -⟩ := findIdx?_eq_some_iff_getElem.mp hi
    have hget : run.c₃.exts[i] = run.c₃.heap r := by
      simp [UConn.exts, ← hr, hstep4.extensions]
    rw [hget, he3] at hat
    cases hat
  have hexts : Ext.utlsPreSharedKey e4 ∈
      run.c₄.exts.set i (.generic extensionEncryptedClientHello data) := by
    refine mem_iff_getElem.mpr ⟨j, by simpa [UConn.exts] using hj, ?_⟩
    simp [UConn.exts, getElem_set_ne hne, hr, he4]
  refine mem_filterMap.mpr ⟨_, hexts, ?_⟩
  have hids4 : e4.identities = randomIdentities d run.c₁.draws [id] := by
    rw [field_of_uncached hu identities, ← hids]
    rfl
  have hbs4 : e4.binders = randomBinders d (run.c₁.draws + 2) [b] := by
    rw [field_of_uncached hu binders, ← hbs]
    change randomBinders d (run.c₁.draws + 2 * e.identities.length) e.binders = _
    rw [hids]
    rfl
  rw [Ext.rawExt, Ext.wire, hids4, hbs4, pskWire, if_neg (by simp [randomIdentities, randomBinders]),
    rawExtOf_extFrame]

/-- The inner hello that is sealed offers the identity with some binder of the right length. -/
lemma innerOffer {b0 : Bytes} (hsuite : c.pskCipherSuite = some suite)
    (hkey : c.pskBinderKey.length ≠ 0) (hids : e.identities = [id]) (hbs : e.binders = [b0]) :
    ∃ b, b.length = suite.hash.size ∧ (id.label ≠ [] → InnerOffer run.inner b) ∧
      run.inner.pskIdentities = [id] ∧ run.inner.cipherSuites = c.hello.cipherSuites ∧
      run.inner.encryptedClientHello = [1] := by
  obtain ⟨k, hk⟩ := run.drawn
  have hsuite1 : run.c₁.pskCipherSuite = some suite := by
    rw [hk]
    exact hsuite
  have hkey1 : run.c₁.pskBinderKey.length ≠ 0 := by
    rw [hk]
    exact hkey
  obtain ⟨b, hb, hinner⟩ := innerWithPsk_eq_ok d hsuite1 hkey1 hbs run.moved
  obtain ⟨hech, hversions, hdot⟩ := makeClientHello_inner d run.made
  refine ⟨b, hb, fun hlabel => ?_, ?_, ?_, ?_⟩
  · rw [hinner, hids]
    refine ⟨hech, hversions, hdot, by simp, fun i hi => ?_, rfl, fun hnil => ?_⟩
    · rw [mem_singleton] at hi
      rw [hi]
      exact hlabel
    · rw [hnil] at hb
      cases hh : suite.hash <;> rw [hh] at hb <;> cases hb
  · rw [hinner]
    exact hids
  · rw [hinner, hk]
    rfl
  · rw [hinner]
    exact hech

/-- The fields in front of the extensions are those of the connection. -/
lemma header4 (hs : c.ShowsPsk r e) : run.c₄.hello.header = c.hello.header := by
  obtain ⟨k, hk⟩ := run.drawn
  have h1 : run.c₁.hello.header = c.hello.header := by
    rw [hk]
    rfl
  rw [(run.echStep4 hs).field fun c => c.hello.header, (run.outerStep3 hs).header, h1]

/-- The lengths in front of the extensions fit their fields. -/
lemma headerFits4 (hs : c.ShowsPsk r e)
    (hsid : c.hello.sessionId.length < 256) (hsuites : (u16s c.hello.cipherSuites).length < 65536)
    (hcomp : c.hello.compressionMethods.length < 256) : run.c₄.hello.HeaderFits :=
  HeaderFits.of_header ⟨hs.prepared.random, hsid, hsuites, hcomp⟩ (run.header4 hs)

/-- The hello is sealed with the cipher suite and the key of the connection. -/
lemma keys3 (hs : c.ShowsPsk r e) :
    run.c₃.pskCipherSuite = c.pskCipherSuite ∧ run.c₃.pskBinderKey = c.pskBinderKey := by
  obtain ⟨k, hk⟩ := run.drawn
  have hkeys := (run.outerStep3 hs).keys
  rw [hk] at hkeys
  exact Prod.mk.inj hkeys

/-- The extension is still found when the hello is sealed. -/
lemma isNone_psk3 (hs : c.ShowsPsk r e) :
    ((run.c₃.firstExt Ext.asUtlsPreSharedKey).map Prod.snd).isNone = false := by
  obtain ⟨e3, he3, -⟩ := run.greased3 hs
  have hmem : r ∈ run.c₃.extensions := by
    rw [(run.outerStep3 hs).extensions]
    exact (run.shows1 hs).mem
  cases hx : run.c₃.firstExt Ext.asUtlsPreSharedKey with
  | none =>
    have hnone := findSome?_eq_none_iff.mp hx r hmem
    rw [he3] at hnone
    cases hnone
  | some x => rfl

/-- The versions are never referred to. -/
lemma versions_not_listed : extensionSupportedVersions ∉ run.listed.filter fun t =>
      t ≠ extensionEncryptedClientHello ∧ t ≠ extensionPreSharedKey := by
  intro hmem
  have hin := mem_of_mem_filter hmem
  rw [extensionsList_eq_ok d run.lists, listTypes, mem_filter] at hin
  simp at hin

/-- The outer hello has the random identity and the random binder, and the label is not empty. -/
lemma outer_psk (hs : c.ShowsPsk r e) (hids : e.identities = [id])
    (hbs : e.binders = [List.replicate suite.hash.size 0]) {i : Nat}
    (hi : echIndex run.c₃.exts = some i) {data : Bytes} {m₀ : ClientHelloMsg}
    (hm₀ : (m₀.pskIdentities, m₀.pskBinders) = ([], []))
    (hblock : ((rawExts d.parseIP (run.c₄.exts.set i
      (.generic extensionEncryptedClientHello data))).flatMap rawExtensionBytes).length < 65536)
    (happly : m₀.applyExtensions (rawExts d.parseIP (run.c₄.exts.set i
      (.generic extensionEncryptedClientHello data))) = some outer) :
    id.label ≠ [] ∧ outer.pskIdentities = randomIdentities d run.c₁.draws [id] ∧
      outer.pskBinders = [d.randAt (run.c₁.draws + 2) suite.hash.size] := by
  have hmem := run.psk_mem_rawExts hs hids hbs hi data
  have hparse := psk_of_applyExtensions happly hm₀ hmem
  have hdlen := data_lt_of_block hblock _ hmem
  have hbinder : randomBinders d (run.c₁.draws + 2) [replicate suite.hash.size 0] =
      [d.randAt (run.c₁.draws + 2) suite.hash.size] := by
    rw [randomBinders, length_replicate]
    rfl
  rw [hbinder] at hparse hdlen
  have hidlen : (pskIdentityBytes (randomIdentities d run.c₁.draws [id])).length < 65536 := by
    simp only [length_append, length_vec16] at hdlen
    omega
  have hrandom := label_ne_of_parsePreSharedKey hidlen hparse
  have hsize : suite.hash.size ≠ 0 ∧ suite.hash.size < 256 := by
    cases suite.hash <;> decide
  rw [parsePreSharedKey_bytes (by simp [randomIdentities]) (by simp) (by simpa [randomIdentities])
    (by simpa [← length_eq_zero_iff, d.length_randAt] using hsize.1)
    (by simpa [d.length_randAt] using hsize.2) hdlen] at hparse
  obtain ⟨houterIds, houterBinders⟩ := Prod.mk.inj (some.inj hparse)
  refine ⟨fun hnil => ?_, houterIds.symm, houterBinders.symm⟩
  have hlen : (d.randAt run.c₁.draws id.label.length).length = 0 := by
    rw [d.length_randAt, hnil]
    rfl
  exact hrandom (length_eq_zero_iff.mp hlen)

/-- A server that reads the outer hello decodes the inner one with the identity and the right
binder, and sees random values of the same lengths in the outer one. -/
lemma binder (hs : c.ShowsPsk r e) (hf : d.echPskFallback = false)
    (hsuite : c.pskCipherSuite = some suite) (hkey : c.pskBinderKey.length ≠ 0)
    (hids : e.identities = [id]) (hbs : e.binders = [List.replicate suite.hash.size 0])
    (hsid : c.hello.sessionId.length < 256) (hcomp : c.hello.compressionMethods.length < 256)
    (ho : unmarshal c'.raw = some outer) :
    ∃ i payload inner recon, SealedAt d c' i true run.ctx 0 payload ∧
      parseOuterECHExt outer.encryptedClientHello = some ⟨⟨run.ctx.kdfID, run.ctx.aeadID⟩,
        run.ctx.config.configID, run.ctx.encapsulatedKey, payload⟩ ∧
      decodeInnerClientHelloWithRaw outer run.ctx.encodedInnerHello = some (inner, recon) ∧
      inner.pskIdentities = [id] ∧ inner.extensions.getLast? = some extensionPreSharedKey ∧
      inner.pskBinders = [pskBinder d suite c.pskBinderKey
        (recon.take (recon.length - bindersSize inner.pskBinders))] ∧
      outer.pskIdentities = randomIdentities d run.c₁.draws inner.pskIdentities ∧
      outer.pskBinders = randomBinders d (run.c₁.draws + 2) inner.pskBinders := by
  obtain ⟨i, payload, hi, -, hstep, hsealed, encoded, zeroed, hcorr⟩ := computeOuterECH_ok d
    run.sealed (run.tidy3 hs).extensions (run.tidy3 hs).regularExts (run.random3 hs)
    (run.binderSized3 hs)
  obtain ⟨data, hdata, hraw⟩ := hsealed.raw
  have hlt : i < run.c₄.exts.length := by
    rw [UConn.exts, length_map, hstep.extensions]
    exact echIndex_lt hi
  have hsend : c'.raw = clientHelloEncoding d.parseIP run.c₄.hello
      (run.c₄.exts.set i (.generic extensionEncryptedClientHello data)) := by
    have hsame : c'.raw = run.c₄.raw := (congrArg UConn.raw run.result :)
    rw [hsame, UConn.raw, hraw, getD_some]
  rw [hsend] at ho
  rw [run.isNone_psk3 hs, if_neg (by simp)] at hcorr
  obtain ⟨b, hb, hoffer, hinner, hsuites, hech⟩ := run.innerOffer hsuite hkey hids hbs
  have hfits := run.headerFits4 hs hsid
    (hsuites ▸ (EncodedParts.of_encoded (by rw [hech]; decide) hcorr.encodes).suites) hcomp
  obtain ⟨hblock, -, happly⟩ :=
    unmarshal_clientHelloEncoding_eq_some hfits (ne_nil_of_mem (mem_set hlt _)) ho
  obtain ⟨hlabel, houterIds, houterBinders⟩ := run.outer_psk hs hids hbs hi rfl hblock happly
  -- the inner hello is sealed with the corrected binder
  have hzlen : zeroed.length = data.length := by
    have hz := length_generateOuterECHExt hcorr.zeros
    rw [length_replicate] at hz
    rw [length_generateOuterECHExt hdata]
    exact hz
  have hroom : encoded.length ≤ data.length := by
    have hsize := hcorr.size
    rw [length_generateOuterECHExt hdata]
    omega
  have hencoded := hcorr.corrected _ rfl
  rw [fallbackContext_eq d hf] at hencoded
  obtain ⟨hsuite3, hkey3⟩ := run.keys3 hs
  have hctx : ({ run.ech with innerHello := some run.inner, encodedInnerHello := encoded } :
      EchClientContext).encodedInnerHello = encoded := rfl
  obtain ⟨inner, recon, hdecode, hinnerIds, hlast, hbinders⟩ := binder_of_corrected d hfits hlt ho
    hzlen hroom (run.listed_sublist hs hi data) run.versions_not_listed (hoffer hlabel)
    (hsuite3.trans hsuite) (by rw [hkey3]; exact hkey) hb hctx hcorr.encodes
  have hsealed' : SealedAt d c' i true run.ctx 0 payload := by
    rw [(yields_makeClientHello d _ _ _ run.made).2 run.ech rfl] at hsealed
    exact hsealed.of_view d (congrArg (UConn.view d) run.result :)
  rw [hencoded]
  refine ⟨i, payload, inner, recon, hsealed', ?_, hdecode, hinnerIds.trans hinner, hlast,
    by rw [← hkey3]; exact hbinders, ?_, ?_⟩
  · rw [ech_of_applyExtensions happly (mem_rawExts_set hlt _ _)]
    exact parseOuterECHExt_generate hdata
  · rw [hinnerIds, hinner, houterIds]
  · rw [hbinders, randomBinders, length_pskBinder, houterBinders]
    rfl

end EchPskRun

/-! ## The first build -/

/-- After a first build with ECH and a session of TLS 1.3 that has been accepted, a server that
reads the outer hello and opens its payload decodes an inner hello that offers the identity of the
session in its last extension, with the binder of the session's key over the decoded bytes without
their binders.  The outer hello has random values of the same lengths in their places. -/
theorem inner_binder_correct {c c₁ c₂ c' : UConn} {r : Ref} {e : UtlsPreSharedKeyExtension}
    {s : SessionState} {outer : ClientHelloMsg} (hc : Fresh d c)
    (hech : 0 < (c.config.encryptedClientHelloConfigList.getD []).length)
    (hf : d.echPskFallback = false) (hp : prepareBuild d c = .ok () c₁)
    (hlast : c₁.extensions.getLast? = some r) (he : c₁.heap r = .utlsPreSharedKey e)
    (ha : applyConfig d c₁ = .ok () c₂) (hon : c₂.config.sessionsOff = false)
    (hj : judgeSession d c₂ = .accept s) (hv : s.version = VersionTLS13)
    (h : buildHandshakeState d true c = .ok () c')
    (ho : ClientHelloMsg.unmarshal c'.raw = some outer) :
    ∃ ctx i payload suite inner recon k, c'.echCtx = some ctx ∧ SealedAt d c' i true ctx 0 payload ∧
      parseOuterECHExt outer.encryptedClientHello =
        some ⟨⟨ctx.kdfID, ctx.aeadID⟩, ctx.config.configID, ctx.encapsulatedKey, payload⟩ ∧
      decodeInnerClientHelloWithRaw outer ctx.encodedInnerHello = some (inner, recon) ∧
      inner.pskIdentities = [sessionIdentity c₂ s] ∧
      inner.extensions.getLast? = some extensionPreSharedKey ∧
      cipherSuiteTLS13ByID s.cipherSuite = some suite ∧
      inner.pskBinders = [d.finishedHash suite.hash
        (d.resumptionBinderKey suite.hash (d.earlySecret suite.hash s.secret))
        (d.hash suite.hash (recon.take (recon.length - bindersSize inner.pskBinders)))] ∧
      outer.pskIdentities = randomIdentities d k inner.pskIdentities ∧
      outer.pskBinders = randomBinders d (k + 2) inner.pskBinders := by
  obtain ⟨build⟩ := exists_echBuildRun d hc.sound hc.notBuilt hech hf h
  cases hp.symm.trans build.prepares
  cases ha.symm.trans build.applies
  -- the session is offered by the extension
  obtain ⟨hprep, hst⟩ := hc.sound.prepareBuild d hp
  have hstep2 := (keeps_applyConfig d).of_ok ha
  have hmem : r ∈ build.c₁.extensions := mem_of_getLast? hlast
  have howner := hprep.only r hmem (by rw [he]; rfl)
  have hsc : build.c₂.sessionController = build.c₁.sessionController :=
    hstep2.field UConn.sessionController
  have hidle : build.c₂.Idle := by
    have h1 := hc.idle.of_standing hst
    exact ⟨(hstep2.field UConn.clientHelloBuildStatus).trans h1.notBuilt, by rw [hsc]; exact h1.notLocked,
      by rw [hsc]; exact h1.noSession, by rw [hsc]; exact h1.neverCalled⟩
  obtain ⟨e3, suite, hoffers⟩ := offersSession_of_accept d (hprep.configStep hstep2) hidle
    (by rw [hsc]; exact howner) hon hj hv build.loads
  -- the configuration is applied once more
  have hstep4 := (keeps_applyConfig d).of_ok build.again
  obtain ⟨e4, hu4, hshows4⟩ := hoffers.shows.applyConfig d build.again
  have hids4 : e4.identities = [sessionIdentity build.c₂ s] := by
    rw [field_of_uncached hu4 identities]
    exact hoffers.identities
  have hbinders4 : e4.binders = [replicate suite.hash.size 0] := by
    rw [field_of_uncached hu4 binders]
    exact hoffers.binders
  have hsuite4 : build.c₄.pskCipherSuite = some suite :=
    (hstep4.field UConn.pskCipherSuite).trans hoffers.cipherSuite
  have hkey4 : build.c₄.pskBinderKey = build.c₃.pskBinderKey := hstep4.field UConn.pskBinderKey
  -- the fields in front of the extensions are those of the specification
  have hheader : build.c₄.hello.header = build.c₁.hello.header := by
    rw [hstep4.header, (uLoadSession_cases d build.loads).sessionStep.header, hstep2.header]
  have hshort : build.c₁.hello.sessionId.length ≤ 32 ∧ build.c₁.hello.compressionMethods = [0] := by
    obtain ⟨p, x, y, happlied, -, hy⟩ := hc.applied d hp
    rcases hy with hy | hy <;> rw [hy] <;> exact happlied.short
  simp only [header, Prod.mk.injEq] at hheader
  obtain ⟨-, -, hsid, -, hcomp⟩ := hheader
  obtain ⟨run⟩ := exists_echPskRun d hshows4 hf build.marshals
  have hraw : c'.raw = build.c₅.raw := by
    have hview := congrArg (fun v => v.2.1) build.view
    exact congrArg (fun o : Option Bytes => o.getD []) hview
  rw [hraw] at ho
  obtain ⟨i, payload, inner, recon, hsealed, hparse, hdecode, hids, hlast', hbinders, houter⟩ :=
    run.binder hshows4 hf hsuite4 (by rw [hkey4]; exact hoffers.key_ne) hids4 hbinders4
      (by rw [hsid]; omega) (by rw [hcomp, hshort.2]; decide) ho
  rw [hkey4, hoffers.binderKey] at hbinders
  have hctx : c'.echCtx = some run.ctx := by
    rw [build.echCtx]
    have hres := congrArg UConn.echCtx run.result
    exact hres
  exact ⟨run.ctx, i, payload, suite, inner, recon, run.c₁.draws, hctx, hsealed.of_view d build.view,
    hparse, hdecode, hids, hlast', hoffers.suite_eq, hbinders, houter.1, houter.2⟩

end Deps

/-! ## Clients with ECH and a session -/

/-- A client with ECH, the given extensions and the given session in its cache. -/
def cachedClient (extensions : List Ref) (s : SessionState) : UConn :=
  endState (applyPreset .sample { pskSpec with extensions := extensions } (uClient pskSpecExts 4
    { serverName := [0x61]
      encryptedClientHelloConfigList := some sampleEchConfigList
      clientSessionCache := some fun _ => some s
      omitEmptyPsk := true } {} .custom))

lemma fresh_cachedClient : Fresh .sample (cachedClient [0, 1, 2, 3] sampleSession) := by
  refine Fresh.custom _ 4 _ _ { pskSpec with extensions := [0, 1, 2, 3] } ?_ ?_
    (eq_ok_of_returns (by decide +kernel))
  · exact fun r _ => regular_pskSpecExts r
  · simp

/-- What a server decodes from the hello of a connection and the sealed inner hello. -/
def decodedInner (c : UConn) : Option (ClientHelloMsg × Bytes) :=
  (ClientHelloMsg.unmarshal c.raw).bind fun outer =>
    c.echCtx.bind fun ctx => decodeInnerClientHelloWithRaw outer ctx.encodedInnerHello

/-- The inner hello of a client offers the session in its cache. -/
theorem inner_binder_correct_cached :
    ∃ c' inner recon, buildHandshakeState .sample true (cachedClient [0, 1, 2, 3] sampleSession) =
        .ok () c' ∧ decodedInner c' = some (inner, recon) ∧
      inner.pskIdentities.map (·.label) = [[7, 7]] ∧
      inner.extensions.getLast? = some extensionPreSharedKey := by
  set c := cachedClient [0, 1, 2, 3] sampleSession
  have hprep : prepareBuild .sample c = .ok () c := rfl
  have happly := eq_ok_of_returns (show returns (applyConfig .sample c) = true by decide +kernel)
  have haccept : judgeSession .sample (endState (applyConfig .sample c)) = .accept sampleSession := by
    decide +kernel
  have hbuild := eq_ok_of_returns (show returns (buildHandshakeState .sample true c) = true by
    decide +kernel)
  set c' := endState (buildHandshakeState .sample true c)
  obtain ⟨outer, houter⟩ := isSome_iff_exists.mp
    (show (unmarshal c'.raw).isSome = true by decide +kernel)
  obtain ⟨ctx, i, payload, suite, inner, recon, k, hctx, -, -, hdecode, hids, hlast, -⟩ :=
    inner_binder_correct .sample fresh_cachedClient (by decide +kernel) rfl hprep rfl rfl happly
      (by decide +kernel) haccept rfl hbuild houter
  refine ⟨c', inner, recon, hbuild, ?_, ?_, hlast⟩
  · rw [decodedInner, houter, bind_some, hctx, bind_some, hdecode]
  · rw [hids]
    rfl

/-- A session of another hash is not offered, and a hello with a repeated extension is not read. -/
theorem inner_binder_missing :
    (∃ c' inner recon, buildHandshakeState .sample true
        (cachedClient [0, 1, 2, 3] { sampleSession with cipherSuite := 0x1302 }) = .ok () c' ∧
      decodedInner c' = some (inner, recon) ∧ inner.pskIdentities = []) ∧
    ∃ c', buildHandshakeState .sample true (cachedClient [0, 1, 1, 2, 3] sampleSession) = .ok () c' ∧
      decodedInner c' = none := by
  constructor
  · have hbuild := eq_ok_of_returns (show returns (buildHandshakeState .sample true
      (cachedClient [0, 1, 2, 3] { sampleSession with cipherSuite := 0x1302 })) = true by decide +kernel)
    set c' := endState (buildHandshakeState .sample true
      (cachedClient [0, 1, 2, 3] { sampleSession with cipherSuite := 0x1302 }))
    obtain ⟨⟨inner, recon⟩, hinner, hids⟩ := map_eq_some_iff.mp
      (show (decodedInner c').map (fun x => x.1.pskIdentities) = some [] by decide +kernel)
    exact ⟨c', inner, recon, hbuild, hinner, hids⟩
  · have hbuild := eq_ok_of_returns (show returns (buildHandshakeState .sample true
      (cachedClient [0, 1, 1, 2, 3] sampleSession)) = true by decide +kernel)
    exact ⟨_, hbuild, by decide +kernel⟩

end Utls
