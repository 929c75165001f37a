import Utls.InnerRoundTrip

/-!
# Reading a marshalled hello back

Outside ECH `marshalMsg` writes up to twenty extensions, each if the message has something for it
(`sentExts`), and `unmarshal` reads them one by one.  Both go through the list in the same order, so
both halves are a chain with one link for each extension: what is written is the list
(`standardExtensions_eq`), and reading an extension puts the field back that it was written from
(`recordAll_sentExts`).  The message that is read differs from the one that was written in the
fields that are not on the wire (`unmarshal_marshalMsg`).
-/

namespace Utls

open Wire List Option

variable {b data : Bytes} {l : List UInt16} {p : Prop} {t : UInt16}

/-! ## The extensions of a hello -/

/-- An extension that is written if `p` holds. -/
def optExt (p : Prop) [Decidable p] (t : UInt16) (data : Bytes) : List RawExtension :=
  if p then [⟨t, data⟩] else []

namespace ClientHelloMsg

/-- The extensions of a hello outside ECH, in the order in which they are written. -/
def sentExts (m : ClientHelloMsg) : List RawExtension :=
  optExt (m.serverName ≠ []) extensionServerName (vec16 (0 :: vec16 m.serverName)) ++
  (optExt (m.supportedPoints ≠ []) extensionSupportedPoints (vec8 m.supportedPoints) ++
  (optExt m.ticketSupported extensionSessionTicket m.sessionTicket ++
  (optExt m.secureRenegotiationSupported extensionRenegotiationInfo (vec8 m.secureRenegotiation) ++
  (optExt m.extendedMasterSecret extensionExtendedMasterSecret [] ++
  (optExt m.scts extensionSCT [] ++
  (optExt m.earlyData extensionEarlyData [] ++
  (optExt m.quicTransportParameters.isSome extensionQUICTransportParameters
    (m.quicTransportParameters.getD []) ++
  (optExt (m.encryptedClientHello ≠ []) extensionEncryptedClientHello m.encryptedClientHello ++
  (optExt m.ocspStapling extensionStatusRequest [1, 0, 0, 0, 0] ++
  (optExt (m.supportedCurves ≠ []) extensionSupportedCurves (vec16 (u16s m.supportedCurves)) ++
  (optExt (m.supportedSignatureAlgorithms ≠ []) extensionSignatureAlgorithms
    (vec16 (u16s m.supportedSignatureAlgorithms)) ++
  (optExt (m.supportedSignatureAlgorithmsCert ≠ []) extensionSignatureAlgorithmsCert
    (vec16 (u16s m.supportedSignatureAlgorithmsCert)) ++
  (optExt (m.alpnProtocols ≠ []) extensionALPN (vec16 (protocolNames m.alpnProtocols)) ++
  (optExt (m.supportedVersions ≠ []) extensionSupportedVersions (vec8 (u16s m.supportedVersions)) ++
  (optExt (m.cookie ≠ []) extensionCookie (vec16 m.cookie) ++
  (optExt (m.keyShares ≠ []) extensionKeyShare (vec16 (keyShareEntries m.keyShares)) ++
  (optExt (m.pskModes ≠ []) extensionPSKModes (vec8 m.pskModes) ++
  optExt (m.pskIdentities ≠ []) extensionPreSharedKey (vec16 (pskIdentityBytes m.pskIdentities) ++
    vec16 (pskBinderBytes m.pskBinders)))))))))))))))))))

/-- The message respects the limits of the wire format. -/
structure WireLimits (m : ClientHelloMsg) : Prop where
  random : m.random.length = 32
  sessionId : m.sessionId.length < 256
  cipherSuites : 2 * m.cipherSuites.length < 65536
  compressionMethods : m.compressionMethods.length < 256
  /-- The server name has no trailing dot. -/
  serverName : m.serverName.getLast? ≠ some 46
  supportedPoints : m.supportedPoints.length < 256
  sessionTicket : m.ticketSupported = false → m.sessionTicket = []
  secureRenegotiation : m.secureRenegotiation.length < 256
  unannounced : m.secureRenegotiationSupported = false →
    m.secureRenegotiation = [] ∧ scsvRenegotiation ∉ m.cipherSuites
  alpnProtocols : ∀ name ∈ m.alpnProtocols, name ≠ [] ∧ name.length < 256
  supportedVersions : 2 * m.supportedVersions.length < 256
  keyShares : ∀ ks ∈ m.keyShares, ks.data ≠ []
  pskModes : m.pskModes.length < 256
  labels : ∀ i ∈ m.pskIdentities, i.label ≠ []
  binders : ∀ b ∈ m.pskBinders, b ≠ [] ∧ b.length < 256
  /-- There are binders exactly if there are identities. -/
  psk : m.pskBinders = [] ↔ m.pskIdentities = []
  /-- The extension block has a length of two bytes. -/
  block : (m.sentExts.flatMap rawExtensionBytes).length < 65536

end ClientHelloMsg

/-! ## Writing -/

/-- The block of an optional extension and those behind it. -/
lemma length_optExt_append [Decidable p] {rest : List RawExtension}
    (h : ((optExt p t data ++ rest).flatMap rawExtensionBytes).length < 65536) :
    (p → data.length < 65536) ∧ (rest.flatMap rawExtensionBytes).length < 65536 := by
  have hdata := data_lt_of_block h
  rw [flatMap_append, length_append] at h
  refine ⟨fun hp => hdata ⟨t, data⟩ ?_, by omega⟩
  rw [optExt, if_pos hp]
  exact mem_append_left _ (mem_singleton_self _)

/-- One link of the chain: if the body of the extension can be written, and the rest can, then all
of it can. -/
lemma concatOpt_optExt [Decidable p] {c : Bool} (hc : c = true ↔ p)
    {body : Option Bytes} {xs : List (Option Bytes)} {rest : List RawExtension}
    (hlen : ((optExt p t data ++ rest).flatMap rawExtensionBytes).length < 65536)
    (hbody : p → data.length < 65536 → body = some data)
    (hrest : (rest.flatMap rawExtensionBytes).length < 65536 →
      concatOpt xs = some (rest.flatMap rawExtensionBytes)) :
    concatOpt (whenOpt c (extOpt t body) :: xs) =
      some ((optExt p t data ++ rest).flatMap rawExtensionBytes) := by
  obtain ⟨hdata, hlen'⟩ := length_optExt_append hlen
  rw [concatOpt, hrest hlen', flatMap_append]
  by_cases hp : p
  · have hext : extOpt t body = some (rawExtensionBytes ⟨t, data⟩) := by
      rw [extOpt, hbody hp (hdata hp), bind_some, lp16_eq_some.mpr ⟨hdata hp, rfl⟩]
      rfl
    rw [whenOpt, if_pos (hc.mpr hp), hext, optExt, if_pos hp, flatMap_singleton]
    rfl
  · rw [whenOpt, if_neg fun h => hp (hc.mp h), optExt, if_neg hp]
    rfl

/-- A vector of parts that can all be written. -/
lemma concatOpt_map_eq {α : Type} {f : α → Option Bytes} {g : α → Bytes} {l : List α}
    (h : ∀ a ∈ l, f a = some (g a)) : concatOpt (l.map f) = some (l.flatMap g) := by
  induction l with
  | nil => rfl
  | cons a l ih =>
    rw [map_cons, concatOpt, h a (mem_cons_self ..), bind_some,
      ih fun b hb => h b (mem_cons_of_mem _ hb), flatMap_cons]
    rfl

lemma lp8_of_lt (h : b.length < 256) : lp8 b = some (vec8 b) :=
  lp8_eq_some.mpr ⟨h, rfl⟩

/-- A vector with a length of two bytes can be written if it fits. -/
lemma lp16_of_vec16 (h : (vec16 b).length < 65536) : lp16 b = some (vec16 b) := by
  rw [length_vec16] at h
  exact lp16_eq_some.mpr ⟨by omega, rfl⟩

/-- The vector of key shares can be written if it fits. -/
lemma keyShareVector_eq {l : List KeyShare} (h : (vec16 (keyShareEntries l)).length < 65536) :
    (concatOpt (l.map fun ks => (lp16 ks.data).map (u16 ks.group.toNat ++ ·))).bind lp16 =
      some (vec16 (keyShareEntries l)) := by
  have hentry : ∀ ks ∈ l, (lp16 ks.data).map (u16 ks.group.toNat ++ ·) =
      some (u16 ks.group.toNat ++ vec16 ks.data) := by
    intro ks hks
    have hle : (u16 ks.group.toNat ++ vec16 ks.data).length ≤ (keyShareEntries l).length :=
      length_le_flatMap (fun ks : KeyShare => u16 ks.group.toNat ++ vec16 ks.data) hks
    rw [length_append] at hle
    rw [length_vec16] at h
    rw [lp16_of_vec16 (by omega)]
    rfl
  rw [concatOpt_map_eq hentry, bind_some]
  exact lp16_of_vec16 h

/-- The vector of identities can be written if it fits. -/
lemma identityVector_eq {l : List PskIdentity} (h : (vec16 (pskIdentityBytes l)).length < 65536) :
    (concatOpt (l.map fun i => (lp16 i.label).map (· ++ u32 i.obfuscatedTicketAge.toNat))).bind
      lp16 = some (vec16 (pskIdentityBytes l)) := by
  have hentry : ∀ i ∈ l, (lp16 i.label).map (· ++ u32 i.obfuscatedTicketAge.toNat) =
      some (vec16 i.label ++ u32 i.obfuscatedTicketAge.toNat) := by
    intro i hi
    have hle : (vec16 i.label ++ u32 i.obfuscatedTicketAge.toNat).length ≤
        (pskIdentityBytes l).length :=
      length_le_flatMap (fun i : PskIdentity => vec16 i.label ++ u32 i.obfuscatedTicketAge.toNat) hi
    rw [length_append] at hle
    rw [length_vec16] at h
    rw [lp16_of_vec16 (by omega)]
    rfl
  rw [concatOpt_map_eq hentry, bind_some]
  exact lp16_of_vec16 h

namespace ClientHelloMsg

variable {m : ClientHelloMsg}

/-- Within the limits of the wire format all extensions are written. -/
theorem standardExtensions_eq (h : m.WireLimits) :
    m.standardExtensions false = some (m.sentExts.flatMap rawExtensionBytes) := by
  have hpos : ∀ {α : Type} (l : List α), l.length > 0 ↔ l ≠ [] := fun l => length_pos_iff
  refine concatOpt_optExt (by simp [hpos]) h.block (fun _ hd => ?_) fun h1 => ?_
  · have hname : (vec16 m.serverName).length < 65536 := by
      rw [length_vec16, length_cons] at hd
      omega
    rw [lp16_of_vec16 hname, bind_some]
    exact lp16_of_vec16 hd
  refine concatOpt_optExt (by simp [hpos]) h1 (fun _ hd => lp8_of_lt h.supportedPoints) fun h2 => ?_
  refine concatOpt_optExt (by simp) h2 (fun _ _ => rfl) fun h3 => ?_
  refine concatOpt_optExt (by simp) h3 (fun _ _ => lp8_of_lt h.secureRenegotiation) fun h4 => ?_
  refine concatOpt_optExt (by simp) h4 (fun _ _ => rfl) fun h5 => ?_
  refine concatOpt_optExt (by simp) h5 (fun _ _ => rfl) fun h6 => ?_
  refine concatOpt_optExt (by simp) h6 (fun _ _ => rfl) fun h7 => ?_
  refine concatOpt_optExt (by simp) h7 (fun hp _ => ?_) fun h8 => ?_
  · obtain ⟨params, hparams⟩ := isSome_iff_exists.mp hp
    rw [hparams, getD_some]
  refine concatOpt_optExt (by simp [hpos]) h8 (fun _ _ => rfl) fun h9 => ?_
  refine concatOpt_optExt (by simp) h9 (fun _ _ => rfl) fun h10 => ?_
  refine concatOpt_optExt (by simp [hpos]) h10 (fun _ hd => lp16_of_vec16 hd) fun h11 => ?_
  refine concatOpt_optExt (by simp [hpos]) h11 (fun _ hd => lp16_of_vec16 hd) fun h12 => ?_
  refine concatOpt_optExt (by simp [hpos]) h12 (fun _ hd => lp16_of_vec16 hd) fun h13 => ?_
  refine concatOpt_optExt (by simp [hpos]) h13 (fun _ hd => ?_) fun h14 => ?_
  · rw [vecOpt, concatOpt_map_eq fun name hname => lp8_of_lt (h.alpnProtocols name hname).2,
      bind_some]
    exact lp16_of_vec16 hd
  refine concatOpt_optExt (by simp [hpos]) h14 (fun _ _ => lp8_of_lt ?_) fun h15 => ?_
  · rw [length_u16s]
    exact h.supportedVersions
  refine concatOpt_optExt (by simp [hpos]) h15 (fun _ hd => lp16_of_vec16 hd) fun h16 => ?_
  refine concatOpt_optExt (by simp [hpos]) h16 (fun _ hd => ?_) fun h17 => ?_
  · exact keyShareVector_eq hd
  refine concatOpt_optExt (by simp [hpos]) h17 (fun _ _ => lp8_of_lt h.pskModes) fun h18 => ?_
  have hlast : concatOpt [m.preSharedKeyExt] = some ((optExt (m.pskIdentities ≠ [])
      extensionPreSharedKey (vec16 (pskIdentityBytes m.pskIdentities) ++
        vec16 (pskBinderBytes m.pskBinders)) ++ []).flatMap rawExtensionBytes) := by
    refine concatOpt_optExt (by simp [hpos]) (by rwa [append_nil]) (fun _ hd => ?_)
      fun _ => rfl
    rw [length_append] at hd
    have hids : (vec16 (pskIdentityBytes m.pskIdentities)).length < 65536 := by omega
    have hbinders : (vec16 (pskBinderBytes m.pskBinders)).length < 65536 := by omega
    have hbinder : vecOpt lp8 m.pskBinders = some (vec16 (pskBinderBytes m.pskBinders)) := by
      rw [vecOpt, concatOpt_map_eq fun b hb => lp8_of_lt (h.binders b hb).2, bind_some]
      exact lp16_of_vec16 hbinders
    rw [concatOpt, identityVector_eq hids, bind_some, concatOpt, hbinder]
    simp [concatOpt]
  rw [append_nil] at hlast
  rw [concatOpt, hlast]
  rfl

end ClientHelloMsg

/-! ## Reading -/

namespace ClientHelloMsg

/-- The extensions `l`, if they fit into a block, turn the message `x` into `target`, apart from the types
that are recorded, when they are read behind extensions whose types are among `seen`. -/
def Reads (x : ClientHelloMsg) (seen : List UInt16) (l : List RawExtension)
    (target : ClientHelloMsg) : Prop :=
  (l.flatMap rawExtensionBytes).length < 65536 → ∀ ts, (∀ t ∈ ts, t ∈ seen) →
    ∃ ts', applyExtensions { x with extensions := ts } l = some { target with extensions := ts' }

namespace Reads

variable {x target : ClientHelloMsg} {seen : List UInt16} {rest : List RawExtension}

/-- One link of the chain: an optional extension of a new type changes the message by `f`. -/
lemma optExt [Decidable p] (f : ClientHelloMsg → ClientHelloMsg)
    (hyes : p → data.length < 65536 → ∀ ts, applyExtension { x with extensions := ts } ⟨t, data⟩
      rest.isEmpty = some { f x with extensions := ts })
    (hno : ¬p → f x = x) (hrest : let y := f x; Reads y (t :: seen) rest target)
    (hnew : t ∉ seen := by decide) : Reads x seen (Utls.optExt p t data ++ rest) target := by
  intro hlen ts hts
  obtain ⟨hdata, hlen'⟩ := length_optExt_append hlen
  by_cases hp : p
  · have hfresh : ts.contains t = false := by simpa using fun hmem => hnew (hts t hmem)
    have hseen : ∀ u ∈ ts ++ [t], u ∈ t :: seen := by
      intro u hu
      rcases mem_append.mp hu with hu | hu
      · exact mem_cons_of_mem _ (hts u hu)
      · rw [mem_singleton.mp hu]
        exact mem_cons_self ..
    obtain ⟨ts', hr⟩ := hrest hlen' (ts ++ [t]) hseen
    refine ⟨ts', ?_⟩
    rw [Utls.optExt, if_pos hp, singleton_append, applyExtensions]
    simp only [hfresh, Bool.false_eq_true, if_false]
    rw [hyes hp (hdata hp), bind_some, hr]
  · obtain ⟨ts', hr⟩ := hrest hlen' ts fun u hu => mem_cons_of_mem _ (hts u hu)
    refine ⟨ts', ?_⟩
    rw [Utls.optExt, if_neg hp, nil_append, ← hno hp, hr]

/-- A link for a list that is written unless it is empty. -/
lemma list {α : Type} {l : List α} [Decidable (l ≠ [])]
    (f : List α → ClientHelloMsg → ClientHelloMsg)
    (hyes : l ≠ [] → data.length < 65536 → ∀ ts, applyExtension { x with extensions := ts }
      ⟨t, data⟩ rest.isEmpty = some { f l x with extensions := ts })
    (hrest : let y := f l x; Reads y (t :: seen) rest target) (hno : f [] x = x := by rfl)
    (hnew : t ∉ seen := by decide) : Reads x seen (Utls.optExt (l ≠ []) t data ++ rest) target :=
  optExt (f l) hyes (fun hp => by rw [not_not.mp hp, hno]) hrest hnew

/-- A link for a flag. -/
lemma flag {b : Bool} (f : Bool → ClientHelloMsg → ClientHelloMsg)
    (hyes : ∀ ts, applyExtension { x with extensions := ts } ⟨t, data⟩ rest.isEmpty =
      some { f true x with extensions := ts })
    (hrest : let y := f b x; Reads y (t :: seen) rest target) (hno : f false x = x := by rfl)
    (hnew : t ∉ seen := by decide) : Reads x seen (Utls.optExt (b = true) t data ++ rest) target :=
  optExt (f b) (fun hp _ => by rw [hp]; exact hyes)
    (fun hp => by rw [Bool.eq_false_of_not_eq_true hp, hno]) hrest hnew

end Reads

lemma readLP8_vec8_end (h : b.length < 256) : (readLP8 (vec8 b)).bind atEnd = some b := by
  rw [readLP8_vec8_nil h]
  rfl

lemma readLP16_vec16_end (h : (vec16 b).length < 65536) :
    (readLP16 (vec16 b)).bind atEnd = some b := by
  rw [length_vec16] at h
  rw [readLP16_vec16_nil (by omega)]
  rfl

lemma nonEmpty_of_ne {α : Type} {l : List α} (h : l ≠ []) : nonEmpty l = some l :=
  nonEmpty_eq_some.mpr ⟨h, rfl⟩

lemma u16s_ne_nil (h : l ≠ []) : u16s l ≠ [] := by
  obtain ⟨a, l, rfl⟩ := exists_cons_of_ne_nil h
  simp [u16s, u16]

lemma parseU16List_vec16 (hne : l ≠ []) (h : (vec16 (u16s l)).length < 65536) :
    parseU16List (vec16 (u16s l)) = some l := by
  rw [parseU16List, readLP16_vec16_end h, bind_some, nonEmpty_of_ne (u16s_ne_nil hne),
    bind_some, parseAll_u16s]

lemma parseAll_protocolNames {l : List GoString} (h : ∀ name ∈ l, name ≠ [] ∧ name.length < 256) :
    parseAll readNonEmpty8 (protocolNames l) = some l :=
  parseAll_pskBinders (fun name hname => (h name hname).2) fun name hname => (h name hname).1

lemma parseKeyShares_vec16 {l : List KeyShare} (hne : ∀ ks ∈ l, ks.data ≠ [])
    (h : (vec16 (keyShareEntries l)).length < 65536) :
    parseKeyShares (vec16 (keyShareEntries l)) = some l := by
  rw [parseKeyShares, readLP16_vec16_end h, bind_some]
  refine parseAll_flatMap (fun ks hks r => ?_) fun ks _ => by simp [u16]
  have hle : (u16 ks.group.toNat ++ vec16 ks.data).length ≤ (keyShareEntries l).length :=
    length_le_flatMap (fun ks : KeyShare => u16 ks.group.toNat ++ vec16 ks.data) hks
  rw [length_vec16] at h
  rw [length_append, length_vec16] at hle
  have hread : readLP16 (vec16 ks.data ++ r) = some (ks.data, r) := readLP16_vec16 (by omega) r
  simp only [readKeyShare, append_assoc, readU16_u16_toNat, bind_some, hread,
    nonEmpty_of_ne (hne ks hks), map_some]

section Single

variable (m : ClientHelloMsg) (last : Bool)

lemma applyExtension_points {points : List UInt8} (hne : points ≠ []) (h : points.length < 256) :
    m.applyExtension ⟨extensionSupportedPoints, vec8 points⟩ last =
      some { m with supportedPoints := points } := by
  change (((readLP8 (vec8 points)).bind atEnd).bind nonEmpty).map _ = _
  rw [readLP8_vec8_end h, bind_some, nonEmpty_of_ne hne]
  rfl

lemma applyExtension_renegotiation (h : b.length < 256) :
    m.applyExtension ⟨extensionRenegotiationInfo, vec8 b⟩ last =
      some { m with secureRenegotiation := b, secureRenegotiationSupported := true } := by
  change ((readLP8 (vec8 b)).bind atEnd).map _ = _
  rw [readLP8_vec8_end h]
  rfl

lemma applyExtension_curves (hne : l ≠ []) (h : (vec16 (u16s l)).length < 65536):
    m.applyExtension ⟨extensionSupportedCurves, vec16 (u16s l)⟩ last =
      some { m with supportedCurves := m.supportedCurves ++ l } := by
  change (parseU16List (vec16 (u16s l))).map _ = _
  rw [parseU16List_vec16 hne h]
  rfl

lemma applyExtension_signatures (hne : l ≠ []) (h : (vec16 (u16s l)).length < 65536):
    m.applyExtension ⟨extensionSignatureAlgorithms, vec16 (u16s l)⟩ last =
      some { m with supportedSignatureAlgorithms := m.supportedSignatureAlgorithms ++ l } := by
  change (parseU16List (vec16 (u16s l))).map _ = _
  rw [parseU16List_vec16 hne h]
  rfl

lemma applyExtension_signaturesCert (hne : l ≠ []) (h : (vec16 (u16s l)).length < 65536):
    m.applyExtension ⟨extensionSignatureAlgorithmsCert, vec16 (u16s l)⟩ last =
      some { m with
        supportedSignatureAlgorithmsCert := m.supportedSignatureAlgorithmsCert ++ l } := by
  change (parseU16List (vec16 (u16s l))).map _ = _
  rw [parseU16List_vec16 hne h]
  rfl

lemma applyExtension_alpn {l : List GoString} (hne : l ≠ [])
    (hnames : ∀ name ∈ l, name ≠ [] ∧ name.length < 256)
    (h : (vec16 (protocolNames l)).length < 65536) :
    m.applyExtension ⟨extensionALPN, vec16 (protocolNames l)⟩ last =
      some { m with alpnProtocols := m.alpnProtocols ++ l } := by
  have hbytes : protocolNames l ≠ [] := by
    obtain ⟨name, l, rfl⟩ := exists_cons_of_ne_nil hne
    simp [protocolNames, vec8, u8]
  change ((((readLP16 (vec16 (protocolNames l))).bind atEnd).bind nonEmpty).bind
    (parseAll readNonEmpty8)).map _ = _
  rw [readLP16_vec16_end h, bind_some, nonEmpty_of_ne hbytes, bind_some,
    parseAll_protocolNames hnames]
  rfl

lemma applyExtension_supportedVersions (hne : l ≠ []) (h : 2 * l.length < 256) :
    m.applyExtension ⟨extensionSupportedVersions, vec8 (u16s l)⟩ last =
      some { m with supportedVersions := m.supportedVersions ++ l } := by
  change ((((readLP8 (vec8 (u16s l))).bind atEnd).bind nonEmpty).bind (parseAll readU16)).map _ = _
  rw [readLP8_vec8_end (by rwa [length_u16s]), bind_some, nonEmpty_of_ne (u16s_ne_nil hne),
    bind_some, parseAll_u16s]
  rfl

lemma applyExtension_cookie (hne : b ≠ []) (h : (vec16 b).length < 65536) :
    m.applyExtension ⟨extensionCookie, vec16 b⟩ last = some { m with cookie := b } := by
  change (((readLP16 (vec16 b)).bind atEnd).bind nonEmpty).map _ = _
  rw [readLP16_vec16_end h, bind_some, nonEmpty_of_ne hne]
  rfl

lemma applyExtension_keyShares {l : List KeyShare} (hne : ∀ ks ∈ l, ks.data ≠ [])
    (h : (vec16 (keyShareEntries l)).length < 65536) :
    m.applyExtension ⟨extensionKeyShare, vec16 (keyShareEntries l)⟩ last =
      some { m with keyShares := m.keyShares ++ l } := by
  change (parseKeyShares (vec16 (keyShareEntries l))).map _ = _
  rw [parseKeyShares_vec16 hne h]
  rfl

lemma applyExtension_pskModes (h : b.length < 256) :
    m.applyExtension ⟨extensionPSKModes, vec8 b⟩ last = some { m with pskModes := b } := by
  change ((readLP8 (vec8 b)).bind atEnd).map _ = _
  rw [readLP8_vec8_end h]
  rfl

end Single

variable {m : ClientHelloMsg}

/-- What is recorded is the message that was written, apart from the fields that are not on the
wire. -/
lemma reads_sentExts (h : m.WireLimits) (raw : Bytes) :
    Reads (start raw m.vers m.random m.sessionId m.cipherSuites m.compressionMethods) [] m.sentExts
      { m with original := some raw, nextProtoNeg := false, extensions := [] } := by
  refine .list (fun l x => { x with serverName := l })
    (fun hp hd _ => applyExtension_name _ hp h.serverName hd rfl _) ?_
  intro x
  refine .list (fun l x => { x with supportedPoints := l })
    (fun hp _ _ => applyExtension_points _ _ hp h.supportedPoints) ?_
  intro x
  refine .optExt (fun x => { x with
      ticketSupported := m.ticketSupported
      sessionTicket := m.sessionTicket }) (fun hp _ _ => ?_) (fun hp => ?_) ?_
  · rw [hp]
    rfl
  · have hoff := Bool.eq_false_of_not_eq_true hp
    rw [hoff, h.sessionTicket hoff]
    rfl
  intro x
  refine .optExt (fun x => { x with
      secureRenegotiationSupported := m.secureRenegotiationSupported
      secureRenegotiation := m.secureRenegotiation }) (fun hp _ _ => ?_) (fun hp => ?_) ?_
  · rw [hp]
    exact applyExtension_renegotiation _ _ h.secureRenegotiation
  · -- the flag is set without the extension if the suites contain the signalling value
    have hoff := Bool.eq_false_of_not_eq_true hp
    obtain ⟨hdata, hscsv⟩ := h.unannounced hoff
    have hstart : m.cipherSuites.contains scsvRenegotiation = false := by simpa using hscsv
    rw [hoff, hdata, ← hstart]
    rfl
  intro x
  refine .flag (fun b x => { x with extendedMasterSecret := b }) (fun _ => rfl) ?_
  intro x
  refine .flag (fun b x => { x with scts := b }) (fun _ => rfl) ?_
  intro x
  refine .flag (fun b x => { x with earlyData := b }) (fun _ => rfl) ?_
  intro x
  refine .optExt (fun x => { x with quicTransportParameters := m.quicTransportParameters })
    (fun hp _ _ => ?_) (fun hp => ?_) ?_
  · obtain ⟨params, hparams⟩ := isSome_iff_exists.mp hp
    rw [hparams]
    rfl
  · rw [not_isSome_iff_eq_none.mp hp]
    rfl
  intro x
  refine .list (fun l x => { x with encryptedClientHello := l }) (fun _ _ _ => rfl) ?_
  intro x
  refine .flag (fun b x => { x with ocspStapling := b }) (fun _ => rfl) ?_
  intro x
  refine .list (fun l x => { x with supportedCurves := l })
    (fun hp hd _ => applyExtension_curves _ _ hp hd) ?_
  intro x
  refine .list (fun l x => { x with supportedSignatureAlgorithms := l })
    (fun hp hd _ => applyExtension_signatures _ _ hp hd) ?_
  intro x
  refine .list (fun l x => { x with supportedSignatureAlgorithmsCert := l })
    (fun hp hd _ => applyExtension_signaturesCert _ _ hp hd) ?_
  intro x
  refine .list (fun l x => { x with alpnProtocols := l })
    (fun hp hd _ => applyExtension_alpn _ _ hp h.alpnProtocols hd) ?_
  intro x
  refine .list (fun l x => { x with supportedVersions := l })
    (fun hp _ _ => applyExtension_supportedVersions _ _ hp h.supportedVersions) ?_
  intro x
  refine .list (fun l x => { x with cookie := l })
    (fun hp hd _ => applyExtension_cookie _ _ hp hd) ?_
  intro x
  refine .list (fun l x => { x with keyShares := l })
    (fun _ hd _ => applyExtension_keyShares _ _ h.keyShares hd) ?_
  intro x
  refine .list (fun l x => { x with pskModes := l })
    (fun _ _ _ => applyExtension_pskModes _ _ h.pskModes) ?_
  intro x
  rw [← append_nil (optExt (m.pskIdentities ≠ []) _ _)]
  refine .optExt (fun x => { x with pskIdentities := m.pskIdentities, pskBinders := m.pskBinders })
    (fun hp hd _ => ?_) (fun hp => ?_) fun _ ts _ => ⟨ts, rfl⟩
  · have hbinders : m.pskBinders ≠ [] := fun hnil => hp (h.psk.mp hnil)
    have hread := parsePreSharedKey_bytes hp hbinders h.labels (fun b hb => (h.binders b hb).1)
      (fun b hb => (h.binders b hb).2) hd
    change (parsePreSharedKey _).map _ = _
    rw [hread]
    rfl
  · have hids := not_not.mp hp
    rw [hids, h.psk.mpr hids]
    rfl

/-- A hello without extensions. -/
lemma unmarshal_front_nil {header random sessionId compressionMethods : Bytes}
    {cipherSuites : List UInt16} (hh : header.length = 4) (vers : UInt16) (hr : random.length = 32)
    (hs : sessionId.length < 256) (hc : (u16s cipherSuites).length < 65536)
    (hm : compressionMethods.length < 256) :
    unmarshal (front header vers random sessionId cipherSuites compressionMethods []) =
      some (start (front header vers random sessionId cipherSuites compressionMethods []) vers
        random sessionId cipherSuites compressionMethods) := by
  rw [unmarshal]
  generalize hdata : front header vers random sessionId cipherSuites compressionMethods [] = data
  have h1 : readN 4 data = some (header, u16 vers.toNat ++ (random ++ (vec8 sessionId ++
      (vec16 (u16s cipherSuites) ++ (vec8 compressionMethods ++ []))))) := by
    rw [← hdata]
    exact readN_eq_some.mpr ⟨hh, rfl⟩
  simp only [h1, bind_some, readU16_u16_toNat, readN_eq_some.mpr ⟨hr, rfl⟩, readLP8_vec8 hs,
    readLP16_vec16 hc, parseAll_u16s, readLP8_vec8 hm, length_nil, if_true]
  rfl

/-- The extension block behind the other fields, or nothing. -/
def sentBlock (m : ClientHelloMsg) : Bytes :=
  if m.sentExts = [] then [] else vec16 (m.sentExts.flatMap rawExtensionBytes)

lemma whenOpt_sentBlock (h : m.WireLimits) :
    whenOpt ((m.sentExts.flatMap rawExtensionBytes).length > 0)
      (lp16 (m.sentExts.flatMap rawExtensionBytes)) = some m.sentBlock := by
  rw [sentBlock]
  split_ifs with hnil
  · rw [hnil]
    rfl
  · obtain ⟨e, l, hl⟩ := exists_cons_of_ne_nil hnil
    have hpos : (m.sentExts.flatMap rawExtensionBytes).length > 0 := by
      rw [hl, flatMap_cons, length_append, rawExtensionBytes, length_extFrame]
      omega
    rw [whenOpt, if_pos (decide_eq_true hpos), lp16_eq_some.mpr ⟨h.block, rfl⟩]
    rfl

lemma length_sentBlock_le (h : m.WireLimits) : m.sentBlock.length < 65538 := by
  have hblock := h.block
  rw [sentBlock]
  split_ifs
  · simp
  · rw [length_vec16]
    omega

/-- Within the limits of the wire format the message can be written. -/
lemma marshalMsg_eq (h : m.WireLimits) :
    ∃ header, header.length = 4 ∧ m.marshalMsg false = some (front header m.vers m.random
      m.sessionId m.cipherSuites m.compressionMethods m.sentBlock) := by
  set body := u16 m.vers.toNat ++ (m.random ++ (vec8 m.sessionId ++ (vec16 (u16s m.cipherSuites) ++
    (vec8 m.compressionMethods ++ m.sentBlock)))) with hbody
  have hsuites : (u16s m.cipherSuites).length < 65536 := by
    rw [length_u16s]
    exact h.cipherSuites
  have hparts : concatOpt [some (u16 m.vers.toNat),
      if m.random.length = 32 then some m.random else none, lp8 m.sessionId,
      lp16 (u16s m.cipherSuites), lp8 m.compressionMethods,
      whenOpt ((m.sentExts.flatMap rawExtensionBytes).length > 0)
        (lp16 (m.sentExts.flatMap rawExtensionBytes))] = some body := by
    rw [whenOpt_sentBlock h, if_pos h.random, lp8_of_lt h.sessionId, lp8_of_lt h.compressionMethods,
      lp16_eq_some.mpr ⟨hsuites, rfl⟩]
    simp only [concatOpt, bind_some, map_some, append_nil]
    rfl
  have hlen : body.length < 16777216 := by
    have hblock := length_sentBlock_le h
    have hsession := h.sessionId
    have hmethods := h.compressionMethods
    rw [hbody]
    simp only [length_append, length_u16, length_vec8, length_vec16, h.random]
    omega
  refine ⟨1 :: u24 body.length, rfl, ?_⟩
  change (m.standardExtensions false).bind _ = _
  rw [standardExtensions_eq h, bind_some]
  change m.helloMessage m.sessionId _ = _
  rw [helloMessage, hparts, bind_some, lp24_eq_some.mpr ⟨hlen, rfl⟩]
  rfl

/-- Within the limits of the wire format, a message that is marshalled outside ECH is read back with
the same fields; only the bytes, the types of its extensions and the marker of NPN are not those of
the message. -/
theorem unmarshal_marshalMsg (m : ClientHelloMsg) (h : m.WireLimits) :
    ∃ raw, m.marshalMsg false = some raw ∧ unmarshal raw =
      some { m with
        original := some raw
        extensions := m.sentExts.map (·.extType)
        nextProtoNeg := false } := by
  obtain ⟨header, hh, hmsg⟩ := marshalMsg_eq h
  refine ⟨_, hmsg, ?_⟩
  have hsuites : (u16s m.cipherSuites).length < 65536 := by
    rw [length_u16s]
    exact h.cipherSuites
  set raw := front header m.vers m.random m.sessionId m.cipherSuites m.compressionMethods
    m.sentBlock with hraw
  obtain ⟨ts, hreads⟩ := reads_sentExts h raw h.block [] (by simp)
  have hts : ts = m.sentExts.map (·.extType) := (applyExtensions_types hreads).1
  rw [hts] at hreads
  rw [← hreads]
  by_cases hnil : m.sentExts = []
  · rw [hraw, sentBlock, if_pos hnil, hnil, applyExtensions,
      unmarshal_front_nil hh m.vers h.random h.sessionId hsuites h.compressionMethods]
    rfl
  · rw [hraw, sentBlock, if_neg hnil,
      unmarshal_front hh m.vers h.random h.sessionId hsuites h.compressionMethods h.block,
      parseAll_rawExtensions (data_lt_of_block h.block), bind_some]
    rfl

/-- A hello with every extension. -/
def fullHello : ClientHelloMsg where
  vers := VersionTLS12
  random := List.replicate 32 5
  sessionId := [1, 2]
  cipherSuites := [0x1301, scsvRenegotiation]
  compressionMethods := [0]
  nextProtoNeg := true
  serverName := [0x61]
  ocspStapling := true
  supportedCurves := [X25519]
  supportedPoints := [0]
  ticketSupported := true
  sessionTicket := [7]
  supportedSignatureAlgorithms := [0x0403]
  supportedSignatureAlgorithmsCert := [0x0804]
  secureRenegotiationSupported := true
  secureRenegotiation := [9]
  extendedMasterSecret := true
  alpnProtocols := [[0x68, 0x32]]
  scts := true
  supportedVersions := [VersionTLS13]
  cookie := [4]
  keyShares := [⟨X25519, [6]⟩]
  earlyData := true
  pskModes := [1]
  pskIdentities := [⟨[0x74], 3⟩]
  pskBinders := [List.replicate 32 8]
  quicTransportParameters := some []
  encryptedClientHello := [1]

/-- It is read back with all of them. -/
theorem unmarshal_marshalMsg_full :
    ∃ raw, fullHello.marshalMsg false = some raw ∧ unmarshal raw =
      some { fullHello with
        original := some raw
        extensions := fullHello.sentExts.map (·.extType)
        nextProtoNeg := false } :=
  unmarshal_marshalMsg fullHello
    { random := by decide
      sessionId := by decide
      cipherSuites := by decide
      compressionMethods := by decide
      serverName := by decide
      supportedPoints := by decide
      sessionTicket := by decide
      secureRenegotiation := by decide
      unannounced := by decide
      alpnProtocols := by decide
      supportedVersions := by decide
      keyShares := by decide
      pskModes := by decide
      labels := by decide
      binders := by decide
      psk := by decide
      block := by decide +kernel }

end ClientHelloMsg

end Utls
