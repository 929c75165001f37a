import Utls.HelloParse
import Utls.InnerHello

/-!
# Reading the encoded inner hello back

A server puts the inner hello together from its encoding and the extensions of the outer hello.
`innerRawExts` are the extensions that the encoding holds, with one that refers to the outer hello,
and `expandedExts` those the server ends up with.  What the client wrote is read back, apart from
the cookie: it is neither written nor referred to (`decode_encoded_iff`).
-/

namespace Utls

variable {l outer : List RawExtension} {m : ClientHelloMsg} {e : RawExtension}

open Wire List Option ClientHelloMsg

/-! ## What is written -/

/-- If the part can be written, it is the given extensions. -/
def Writes (x : Option Bytes) (l : List RawExtension) : Prop :=
  ∀ b, x = some b → b = l.flatMap rawExtensionBytes ∧ ∀ e ∈ l, e.data.length < 65536

namespace Writes

lemma nil : Writes (some []) [] := by
  intro b h
  cases h
  exact ⟨rfl, by simp⟩

lemma ext (id : UInt16) {body : Option Bytes} {data : Bytes}
    (h : ∀ b, body = some b → b = data) : Writes (extOpt id body) [⟨id, data⟩] := by
  intro b hb
  obtain ⟨b', hb', hb⟩ := bind_eq_some_iff.mp hb
  obtain ⟨block, hblock, rfl⟩ := map_eq_some_iff.mp hb
  obtain ⟨hlen, rfl⟩ := lp16_eq_some.mp hblock
  cases h b' hb'
  refine ⟨?_, ?_⟩
  · simp [rawExtensionBytes, extFrame, vec16]
  · intro e he
    rw [mem_singleton] at he
    subst he
    exact hlen

lemma when {x : Option Bytes} {l : List RawExtension} {p : Prop} [Decidable p] {b : Bool}
    (hb : b = true ↔ p) (h : Writes x l) : Writes (whenOpt b x) (if p then l else []) := by
  by_cases hp : p
  · rw [if_pos hp, whenOpt, if_pos (hb.mpr hp)]
    exact h
  · rw [if_neg hp, whenOpt, if_neg fun h => hp (hb.mp h)]
    exact nil

lemma concat {x : Option Bytes} {xs : List (Option Bytes)} {l l' : List RawExtension}
    (h : Writes x l) (hs : Writes (concatOpt xs) l') : Writes (concatOpt (x :: xs)) (l ++ l') := by
  intro b hb
  obtain ⟨b1, b2, hb1, hb2, rfl⟩ := concatOpt_cons_eq_some hb
  obtain ⟨h1, hlen1⟩ := h b1 hb1
  obtain ⟨h2, hlen2⟩ := hs b2 hb2
  refine ⟨by rw [h1, h2, flatMap_append], fun e he => ?_⟩
  rcases mem_append.mp he with he | he
  · exact hlen1 e he
  · exact hlen2 e he

end Writes

variable {b : Bytes} {outerExts : List UInt16} {q : UInt16 → Bool} {t : UInt16}

/-- A vector of parts that are all written. -/
lemma concatOpt_map {α : Type} {f : α → Option Bytes} {g : α → Bytes}
    (h : ∀ a b, f a = some b → b = g a) {l : List α}
    (hb : concatOpt (l.map f) = some b) : b = l.flatMap g := by
  induction l generalizing b with
  | nil =>
    cases hb
    rfl
  | cons a l ih =>
    obtain ⟨b1, b2, hb1, hb2, rfl⟩ := concatOpt_cons_eq_some hb
    rw [h a b1 hb1, ih hb2, flatMap_cons]

lemma lp8_eq_vec8 {c : Bytes} (h : lp8 b = some c) : c = vec8 b := (lp8_eq_some.mp h).2

lemma lp16_eq_vec16 {c : Bytes} (h : lp16 b = some c) : c = vec16 b := (lp16_eq_some.mp h).2

namespace ClientHelloMsg

variable (m : ClientHelloMsg)

/-- `server_name` with the name of the hello. -/
def nameExts : List RawExtension :=
  if m.serverName.length > 0 then [⟨extensionServerName, vec16 (0 :: vec16 m.serverName)⟩] else []

/-- `pre_shared_key` with the identities and binders of the hello. -/
def pskExts : List RawExtension :=
  if m.pskIdentities.length > 0 then
    [⟨extensionPreSharedKey, vec16 (pskIdentityBytes m.pskIdentities) ++
      vec16 (pskBinderBytes m.pskBinders)⟩]
  else []

/-- `ech_outer_extensions` with the types `l`. -/
def outerRefExts (l : List UInt16) : List RawExtension :=
  if l.length > 0 then [⟨extensionECHOuterExtensions, vec8 (u16s l)⟩] else []

/-- `supported_versions` of an inner hello that does not refer to that of the outer one. -/
def innerVersionExts (types : List UInt16) : List RawExtension :=
  if (!types.contains extensionSupportedVersions && decide (m.supportedVersions.length > 0)) = true then
    [⟨extensionSupportedVersions, vec8 (u16 VersionTLS13.toNat)⟩]
  else []

/-- The marker of an inner hello. -/
def echMarkerExts : List RawExtension :=
  if m.encryptedClientHello.length > 0 then
    [⟨extensionEncryptedClientHello, m.encryptedClientHello⟩]
  else []

/-- The extensions of the encoded inner hello. -/
def innerRawExts (outerExts : List UInt16) : List RawExtension :=
  m.echMarkerExts ++ (m.nameExts ++ (outerRefExts (echOuterTypes outerExts) ++
    (m.innerVersionExts (echOuterTypes outerExts) ++ m.pskExts)))

lemma writes_serverNameExt : Writes m.serverNameExt m.nameExts := by
  refine .when (by simp) (.ext _ fun b hb => ?_)
  obtain ⟨n, hn, hb⟩ := bind_eq_some_iff.mp hb
  rw [lp16_eq_vec16 hb, lp16_eq_vec16 hn]

lemma writes_preSharedKeyExt : Writes m.preSharedKeyExt m.pskExts := by
  refine .when (by simp) (.ext _ fun b hb => ?_)
  obtain ⟨b1, b2, hb1, hb2, rfl⟩ := concatOpt_cons_eq_some hb
  obtain ⟨b3, b4, hb3, hb4, rfl⟩ := concatOpt_cons_eq_some hb2
  cases hb4
  obtain ⟨ids, hids, hb1⟩ := bind_eq_some_iff.mp hb1
  obtain ⟨binders, hbinders, hb3⟩ := bind_eq_some_iff.mp hb3
  -- the entries of the two vectors
  have hids := concatOpt_map (g := fun i => vec16 i.label ++ u32 i.obfuscatedTicketAge.toNat)
    (fun i b h => by
      obtain ⟨label, hlabel, rfl⟩ := map_eq_some_iff.mp h
      rw [lp16_eq_vec16 hlabel]) hids
  have hbinders := concatOpt_map (g := vec8) (fun _ _ h => lp8_eq_vec8 h) hbinders
  rw [lp16_eq_vec16 hb1, lp16_eq_vec16 hb3, hids, hbinders, append_nil]
  rfl

lemma writes_innerExtensions (outerExts : List UInt16) :
    Writes (m.innerExtensions outerExts) (m.innerRawExts outerExts) := by
  have hmarker : Writes (whenOpt (m.encryptedClientHello.length > 0)
      (extOpt extensionEncryptedClientHello (some m.encryptedClientHello))) m.echMarkerExts :=
    .when (by simp) (.ext _ fun b hb => (some.inj hb).symm)
  have houter : Writes (echOuterExtensionsExt (echOuterTypes outerExts))
      (outerRefExts (echOuterTypes outerExts)) :=
    .when (by simp) (.ext _ fun b hb => lp8_eq_vec8 hb)
  have hversions : Writes (whenOpt (!(echOuterTypes outerExts).contains extensionSupportedVersions &&
      m.supportedVersions.length > 0)
      (extOpt extensionSupportedVersions (lp8 (u16 VersionTLS13.toNat))))
      (m.innerVersionExts (echOuterTypes outerExts)) :=
    .when Iff.rfl (.ext _ fun b hb => lp8_eq_vec8 hb)
  have hlast : Writes (concatOpt [m.preSharedKeyExt]) m.pskExts := by
    have hnil : Writes (concatOpt []) [] := .nil
    have h := m.writes_preSharedKeyExt.concat hnil
    rwa [append_nil] at h
  exact hmarker.concat (m.writes_serverNameExt.concat (houter.concat (hversions.concat hlast)))

/-- The message around an extension block, with a session id of its own. -/
def helloMessage (sessionId extBytes : Bytes) : Option Bytes :=
  (concatOpt
    [some (u16 m.vers.toNat),
      if m.random.length = 32 then some m.random else none,
      lp8 sessionId,
      lp16 (u16s m.cipherSuites),
      lp8 m.compressionMethods,
      whenOpt (extBytes.length > 0) (lp16 extBytes)]).bind fun body => (lp24 body).map (1 :: ·)

lemma helloMessage_eq_some {sessionId extBytes b : Bytes}
    (h : m.helloMessage sessionId extBytes = some b) (hpos : 0 < extBytes.length) :
    m.random.length = 32 ∧ sessionId.length < 256 ∧ (u16s m.cipherSuites).length < 65536 ∧
      m.compressionMethods.length < 256 ∧ extBytes.length < 65536 ∧
        ∃ header, header.length = 4 ∧ b = front header m.vers m.random sessionId m.cipherSuites
          m.compressionMethods (vec16 extBytes) := by
  obtain ⟨body, hbody, h⟩ := bind_eq_some_iff.mp h
  obtain ⟨block, hblock, rfl⟩ := map_eq_some_iff.mp h
  obtain ⟨-, rfl⟩ := lp24_eq_some.mp hblock
  obtain ⟨b1, r1, h1, hr1, e1⟩ := concatOpt_cons_eq_some hbody
  obtain ⟨b2, r2, h2, hr2, e2⟩ := concatOpt_cons_eq_some hr1
  obtain ⟨b3, r3, h3, hr3, e3⟩ := concatOpt_cons_eq_some hr2
  obtain ⟨b4, r4, h4, hr4, e4⟩ := concatOpt_cons_eq_some hr3
  obtain ⟨b5, r5, h5, hr5, e5⟩ := concatOpt_cons_eq_some hr4
  obtain ⟨b6, r6, h6, hr6, e6⟩ := concatOpt_cons_eq_some hr5
  cases hr6
  cases h1
  have hrandom : m.random.length = 32 ∧ b2 = m.random := by
    split_ifs at h2 with hr
    exact ⟨hr, (some.inj h2).symm⟩
  rw [whenOpt, if_pos (by simpa using hpos)] at h6
  obtain ⟨hr, hb2⟩ := hrandom
  obtain ⟨hs, hb3⟩ := lp8_eq_some.mp h3
  obtain ⟨hc, hb4⟩ := lp16_eq_some.mp h4
  obtain ⟨hm, hb5⟩ := lp8_eq_some.mp h5
  obtain ⟨he, hb6⟩ := lp16_eq_some.mp h6
  refine ⟨hr, hs, hc, hm, he, 1 :: u24 body.length, rfl, ?_⟩
  rw [front, cons_append, e1, e2, e3, e4, e5, e6, hb2, hb3, hb4, hb5, hb6]
  simp only [vec8, vec16, append_nil, append_assoc]

/-- The message around the extensions of an inner hello has an empty session id. -/
lemma echInnerMessage_eq_some {extBytes b : Bytes} (h : m.echInnerMessage extBytes = some b)
    (hpos : 0 < extBytes.length) :
    m.random.length = 32 ∧ (u16s m.cipherSuites).length < 65536 ∧ m.compressionMethods.length < 256 ∧
      extBytes.length < 65536 ∧ ∃ header, header.length = 4 ∧
        b = front header m.vers m.random [] m.cipherSuites m.compressionMethods (vec16 extBytes) := by
  obtain ⟨hr, -, hrest⟩ := m.helloMessage_eq_some (show m.helloMessage [] extBytes = some b from h) hpos
  exact ⟨hr, hrest⟩

end ClientHelloMsg

/-! ## Taking the encoding apart -/

lemma readRawExtension_bytes (he : e.data.length < 65536) (s : Bytes) :
    readRawExtension (rawExtensionBytes e ++ s) = some (e, s) := by
  simp only [readRawExtension, rawExtensionBytes, extFrame, append_assoc, readU16_u16_toNat,
    bind_some, readLP16_vec16 he, map_some]

lemma parseAll_rawExtensions (h : ∀ e ∈ l, e.data.length < 65536) :
    parseAll readRawExtension (l.flatMap rawExtensionBytes) = some l :=
  parseAll_flatMap (fun e he s => readRawExtension_bytes (h e he) s) fun e _ => by
    simp [rawExtensionBytes, extFrame, u16]

/-- The data of an extension is shorter than the block that it stands in. -/
lemma data_lt_of_block (h : (l.flatMap rawExtensionBytes).length < 65536):
    ∀ x ∈ l, x.data.length < 65536 := by
  intro x hx
  have hle : (rawExtensionBytes x).length ≤ (l.flatMap rawExtensionBytes).length := by
    exact (sublist_flatten_of_mem (List.mem_map_of_mem hx)).length_le
  rw [rawExtensionBytes, length_extFrame] at hle
  omega

/-- A padded hello without its header is taken apart. -/
lemma parseEncodedInner_front {header random compressionMethods : Bytes}
    {cipherSuites : List UInt16} (hh : header.length = 4) (vers : UInt16) (hr : random.length = 32)
    (hc : (u16s cipherSuites).length < 65536) (hm : compressionMethods.length < 256)
    (he : (l.flatMap rawExtensionBytes).length < 65536) (hl : ∀ e ∈ l, e.data.length < 65536)
    (k : Nat) :
    parseEncodedInner ((front header vers random [] cipherSuites compressionMethods
      (vec16 (l.flatMap rawExtensionBytes))).drop 4 ++ List.replicate k 0) = some
        { versionAndRandom := u16 vers.toNat ++ random
          cipherSuites := u16s cipherSuites
          compressionMethods := compressionMethods
          extensions := l } := by
  have hpad : (replicate k (0 : UInt8)).any (fun x => decide (x ≠ 0)) = false := by simp
  have hvr : readN 34 ((front header vers random [] cipherSuites compressionMethods
      (vec16 (l.flatMap rawExtensionBytes))).drop 4 ++ replicate k 0) =
      some (u16 vers.toNat ++ random, vec8 [] ++ (vec16 (u16s cipherSuites) ++
        (vec8 compressionMethods ++ (vec16 (l.flatMap rawExtensionBytes) ++
          replicate k 0)))) := by
    refine readN_eq_some.mpr ⟨by simp [hr], ?_⟩
    rw [front, ← hh, drop_left]
    simp only [append_assoc]
  have hsid : readLP8 (vec8 [] ++ (vec16 (u16s cipherSuites) ++ (vec8 compressionMethods ++
      (vec16 (l.flatMap rawExtensionBytes) ++ replicate k 0)))) = some ([], _) :=
    readLP8_vec8 (by simp) _
  simp only [parseEncodedInner, hvr, bind_some, hsid, length_nil, ne_eq, not_true,
    if_false, readLP16_vec16 hc, readLP8_vec8 hm,
    readLP16_vec16 he, hpad, parseAll_rawExtensions hl, map_some]
  rfl

/-- What is known about an inner hello that has been encoded. -/
structure EncodedParts (m : ClientHelloMsg) (outerExts : List UInt16) (e : Bytes) : Prop where
  random : m.random.length = 32
  suites : (u16s m.cipherSuites).length < 65536
  compression : m.compressionMethods.length < 256
  data : ∀ x ∈ m.innerRawExts outerExts, x.data.length < 65536
  types : (u16s (ClientHelloMsg.echOuterTypes outerExts)).length < 256
  binders : m.pskIdentities.length > 0 → ∀ b ∈ m.pskBinders, b.length < 256
  parsed : parseEncodedInner e = some
    { versionAndRandom := u16 m.vers.toNat ++ m.random
      cipherSuites := u16s m.cipherSuites
      compressionMethods := m.compressionMethods
      extensions := m.innerRawExts outerExts }
  size : ((m.innerRawExts outerExts).flatMap rawExtensionBytes).length ≤ e.length

lemma EncodedParts.of_encoded {maxNameLength : Nat}
    {e : Bytes} (hech : m.encryptedClientHello.length > 0)
    (h : encodeInnerClientHelloReorderOuterExts m maxNameLength (some outerExts) = some e) :
    EncodedParts m outerExts e := by
  obtain ⟨b, hb, rfl⟩ := map_eq_some_iff.mp h
  obtain ⟨extBytes, hexts, hb⟩ := bind_eq_some_iff.mp hb
  obtain ⟨rfl, hdata⟩ := m.writes_innerExtensions outerExts extBytes hexts
  have hpos : 0 < ((m.innerRawExts outerExts).flatMap rawExtensionBytes).length := by
    rw [innerRawExts, echMarkerExts, if_pos hech]
    simp [rawExtensionBytes]
  obtain ⟨hr, hc, hm, he, header, hh, rfl⟩ := m.echInnerMessage_eq_some hb hpos
  refine ⟨hr, hc, hm, hdata, ?_, fun hi b hb => ?_,
    parseEncodedInner_front hh m.vers hr hc hm he hdata _, ?_⟩
  · -- the list of types has a one-byte length
    by_cases hne : (echOuterTypes outerExts).length > 0
    · obtain ⟨p, hp, -⟩ := length_le_concatOpt hexts (echOuterExtensionsExt
        (echOuterTypes outerExts)) (by simp)
      rw [echOuterExtensionsExt, whenOpt, if_pos (by simpa using hne)] at hp
      obtain ⟨body, hbody, -⟩ := bind_eq_some_iff.mp hp
      exact (lp8_eq_some.mp hbody).1
    · simp only [length_u16s]
      omega
  · -- and so has every binder
    obtain ⟨p, hp, -⟩ := length_le_concatOpt hexts m.preSharedKeyExt (by simp)
    rw [preSharedKeyExt, whenOpt, if_pos (by simpa using hi)] at hp
    obtain ⟨body, hbody, -⟩ := bind_eq_some_iff.mp hp
    obtain ⟨vec, hvec, -⟩ := length_le_concatOpt hbody (vecOpt lp8 m.pskBinders) (by simp)
    obtain ⟨all, hall, -⟩ := bind_eq_some_iff.mp hvec
    obtain ⟨q, hq, -⟩ := length_le_concatOpt hall (lp8 b) (List.mem_map_of_mem hb)
    exact (lp8_eq_some.mp hq).1
  · simp only [front, length_append, length_drop, length_vec16]
    omega

/-! ## The extensions of the outer hello -/

/-- A client refers to extensions of this type. -/
def compressible (t : UInt16) : Bool := t &&& 0x0f0f == 0x0a0a || echCompressible.contains t

/-- The cursor does not have to stop at an extension that is not asked for. -/
lemma takeOuterExtensions_skip {ts : List UInt16}
    (h : ∀ t ∈ ts, e.extType ≠ t) : takeOuterExtensions (e :: l) ts = takeOuterExtensions l ts := by
  cases ts with
  | nil => rfl
  | cons t ts =>
    have ht : e.extType ≠ t := h t (by simp)
    rw [takeOuterExtensions, takeOuterExtensions, dropWhile_cons_of_pos (by simpa using ht)]

/-- Types that are taken from the outer hello in their order are found there. -/
lemma takeOuterExtensions_filter {p : UInt16 → Bool}
    (hech : p extensionEncryptedClientHello = false) (hnodup : (l.map (·.extType)).Nodup) :
    takeOuterExtensions l ((l.map (·.extType)).filter p) = some (l.filter fun e => p e.extType) := by
  induction l with
  | nil => rfl
  | cons e l ih =>
    rw [map_cons, nodup_cons] at hnodup
    have hnot : ∀ t ∈ (l.map (·.extType)).filter p, e.extType ≠ t := by
      rintro t ht rfl
      exact hnodup.1 (mem_of_mem_filter ht)
    have ih := ih hnodup.2
    cases hp : p e.extType with
    | true =>
      have hne : e.extType ≠ extensionEncryptedClientHello := by
        rintro heq
        rw [heq, hech] at hp
        cases hp
      have hfilter : (e :: l).filter (fun e => p e.extType) = e :: l.filter fun e => p e.extType :=
        filter_cons_of_pos hp
      rw [hfilter, map_cons, filter_cons_of_pos hp, takeOuterExtensions, if_neg hne,
        dropWhile_cons_of_neg (by simp)]
      simp only
      rw [takeOuterExtensions_skip hnot, ih]
      rfl
    | false =>
      have hfilter : (e :: l).filter (fun e => p e.extType) = l.filter fun e => p e.extType :=
        filter_cons_of_neg (by simp [hp])
      rw [hfilter, map_cons, filter_cons_of_neg (by simp [hp]), takeOuterExtensions_skip hnot, ih]

/-- The types `q` of the outer hello are passed to the encoder. -/
def outerTypes (q : UInt16 → Bool) (outer : List RawExtension) : List UInt16 :=
  (outer.map (·.extType)).filter q

/-- The extensions of the outer hello that the inner one refers to. -/
def referredExts (q : UInt16 → Bool) (outer : List RawExtension) : List RawExtension :=
  outer.filter fun e => compressible e.extType && q e.extType

lemma echOuterTypes_outerTypes (q : UInt16 → Bool) (outer : List RawExtension) :
    echOuterTypes (outerTypes q outer) =
      (outer.map (·.extType)).filter fun t => compressible t && q t := by
  rw [echOuterTypes, outerTypes, List.filter_filter]
  rfl

/-- The extensions the server ends up with. -/
def ClientHelloMsg.expandedExts (m : ClientHelloMsg) (q : UInt16 → Bool)
    (outer : List RawExtension) :
    List RawExtension :=
  m.echMarkerExts ++ (m.nameExts ++ (referredExts q outer ++
    (m.innerVersionExts (echOuterTypes (outerTypes q outer)) ++ m.pskExts)))

lemma expandExtension_of_ne
    (h : e.extType ≠ extensionECHOuterExtensions) : expandExtension outer e = some [e] := by
  rw [expandExtension, if_neg h]

/-- Extensions that refer to nothing stay as they are. -/
lemma mapM_expandExtension (h : ∀ e ∈ l, e.extType ≠ extensionECHOuterExtensions):
    l.mapM (expandExtension outer) = some (l.map fun e => [e]) := by
  induction l with
  | nil => rfl
  | cons e l ih =>
    rw [mapM_cons, expandExtension_of_ne (h e (by simp)), ih fun e he => h e (by simp [he])]
    rfl

lemma expand_innerRawExts (m : ClientHelloMsg) (hnodup : (outer.map (·.extType)).Nodup)
    (hlen : (u16s (echOuterTypes (outerTypes q outer))).length < 256) :
    ∃ ls, (m.innerRawExts (outerTypes q outer)).mapM (expandExtension outer) = some ls ∧
      ls.flatten = m.expandedExts q outer := by
  have hflat : ∀ l : List RawExtension, (l.map fun e => [e]).flatten = l := by
    intro l
    rw [← flatMap_def, flatMap_singleton']
  have hone : ∀ (b : Prop) [Decidable b] (t : UInt16) (data : Bytes), t ≠ extensionECHOuterExtensions →
      (if b then [(⟨t, data⟩ : RawExtension)] else []).mapM (expandExtension outer) =
        some ((if b then [⟨t, data⟩] else []).map fun e => [e]) := by
    intro b _ t data ht
    refine mapM_expandExtension fun x hx => ?_
    split_ifs at hx
    · rwa [mem_singleton.mp hx]
    · simp at hx
  -- the reference is replaced by what it refers to
  have href : ∃ ls, (outerRefExts (echOuterTypes
      (outerTypes q outer))).mapM (expandExtension outer) = some ls ∧
      ls.flatten = referredExts q outer := by
    have htake : takeOuterExtensions outer (echOuterTypes (outerTypes q outer)) =
        some (referredExts q outer) := by
      rw [echOuterTypes_outerTypes]
      refine takeOuterExtensions_filter ?_ hnodup
      have hc : compressible extensionEncryptedClientHello = false := by decide
      simp [hc]
    rw [outerRefExts]
    by_cases hne : (echOuterTypes (outerTypes q outer)).length > 0
    · rw [if_pos hne]
      refine ⟨[referredExts q outer], ?_, by simp⟩
      rw [mapM_cons, mapM_nil, expandExtension, if_pos rfl, readLP8_vec8_nil hlen]
      simp only [bind_some, parseAll_u16s, htake]
      rfl
    · rw [if_neg hne]
      have hnil : echOuterTypes (outerTypes q outer) = [] :=
        length_eq_zero_iff.mp (by omega)
      rw [hnil] at htake
      exact ⟨[], rfl, some.inj htake⟩
  obtain ⟨ls, hls, hflatten⟩ := href
  have hmarker : m.echMarkerExts.mapM (expandExtension outer) = some (m.echMarkerExts.map fun e => [e]) :=
    hone _ _ _ (by decide)
  have hname : m.nameExts.mapM (expandExtension outer) = some (m.nameExts.map fun e => [e]) :=
    hone _ _ _ (by decide)
  have hversions : ∀ ts, (m.innerVersionExts ts).mapM (expandExtension outer) =
      some ((m.innerVersionExts ts).map fun e => [e]) := fun ts => hone _ _ _ (by decide)
  have hpsk : m.pskExts.mapM (expandExtension outer) = some (m.pskExts.map fun e => [e]) :=
    hone _ _ _ (by decide)
  refine ⟨m.echMarkerExts.map (fun e => [e]) ++ (m.nameExts.map (fun e => [e]) ++ (ls ++
    ((m.innerVersionExts (echOuterTypes (outerTypes q outer))).map (fun e => [e]) ++
      m.pskExts.map fun e => [e]))), ?_, ?_⟩
  · rw [innerRawExts, mapM_append, hmarker, mapM_append, hname,
      mapM_append, hls, mapM_append, hversions, hpsk]
    rfl
  · simp only [flatten_append, hflat, hflatten]
    rfl

/-! ## Reading the single extensions -/

namespace ClientHelloMsg

variable (m : ClientHelloMsg)

lemma applyExtension_ech (data : Bytes) (last : Bool) :
    m.applyExtension ⟨extensionEncryptedClientHello, data⟩ last =
      some { m with encryptedClientHello := data } := rfl

lemma applyExtension_name {name : GoString} (hne : name ≠ []) (hdot : name.getLast? ≠ some 46)
    (hlen : (vec16 (0 :: vec16 name)).length < 65536) (hm : m.serverName = []) (last : Bool) :
    m.applyExtension ⟨extensionServerName, vec16 (0 :: vec16 name)⟩ last =
      some { m with serverName := name } := by
  simp only [length_vec16, length_cons] at hlen
  have hn : name.length < 65536 := by omega
  have hlist : readLP16 (vec16 (0 :: vec16 name)) = some (0 :: vec16 name, []) :=
    readLP16_vec16_nil (by simp; omega)
  have hname : ∀ r, readServerName (0 :: vec16 name ++ r) = some ((0, name), r) := by
    intro r
    have h := readLP16_vec16 hn r
    have hpos : name.length ≠ 0 := fun h => hne (length_eq_zero_iff.mp h)
    simp only [readServerName, cons_append, readU8, bind_some, h, nonEmpty, if_neg hpos, map_some]
  have hall : parseAll readServerName (0 :: vec16 name) = some [(0, name)] := by
    have h : parseAll readServerName ([((0 : UInt8), name)].flatMap fun _ => 0 :: vec16 name) =
        some [(0, name)] := by
      refine parseAll_flatMap (fun x hx r => ?_) fun _ _ => by simp
      rw [mem_singleton.mp hx]
      exact hname r
    rwa [flatMap_cons, flatMap_nil, append_nil] at h
  have hpick : pickServerName m.serverName [(0, name)] = some name := by
    rw [pickServerName, if_neg (by simp), if_neg (by simp [hm, hdot]), pickServerName]
  rw [applyExtension, if_pos rfl]
  simp only [hlist, bind_some, atEnd, nonEmpty, length_cons, Nat.succ_ne_zero, if_false, hall,
    hpick, map_some]

/-- The pre-shared keys of a hello can be read: there are none, or there are identities and binders,
and none of them is empty. -/
def PskReadable : Prop :=
  (m.pskIdentities = [] ∧ m.pskBinders = []) ∨
    (m.pskIdentities ≠ [] ∧ m.pskBinders ≠ [] ∧ (∀ i ∈ m.pskIdentities, i.label ≠ []) ∧
      ∀ b ∈ m.pskBinders, b ≠ [])

variable {ids : List PskIdentity} {binders : List Bytes} {data : Bytes}

lemma parseAll_pskIdentities (hlen : (pskIdentityBytes ids).length < 65536)
    (hne : ∀ i ∈ ids, i.label ≠ []) :
    parseAll readPskIdentity (pskIdentityBytes ids) = some ids := by
  refine parseAll_flatMap (fun i hi r => ?_) fun i _ => by simp [vec16, u16]
  have hlabel : i.label.length < 65536 := by
    rw [length_pskIdentityBytes] at hlen
    have hle := single_le_sum (fun _ _ => Nat.zero_le _) _
      (List.mem_map_of_mem (f := fun i : PskIdentity => 2 + i.label.length + 4) hi)
    omega
  have hpos : i.label.length ≠ 0 := fun h => hne i hi (length_eq_zero_iff.mp h)
  simp only [readPskIdentity, append_assoc, readLP16_vec16 hlabel, bind_some,
    readU32_u32_toNat, nonEmpty, if_neg hpos, map_some]

lemma parseAll_pskBinders (hlen : ∀ b ∈ binders, b.length < 256) (hne : ∀ b ∈ binders, b ≠ []) :
    parseAll readNonEmpty8 (pskBinderBytes binders) = some binders := by
  refine parseAll_flatMap (fun b hb r => ?_) fun b _ => by simp [vec8, u8]
  have hpos : b.length ≠ 0 := fun h => hne b hb (length_eq_zero_iff.mp h)
  simp only [readNonEmpty8, readLP8_vec8 (hlen b hb), bind_some, nonEmpty, if_neg hpos, map_some]

/-- Readable pre-shared keys are read back. -/
lemma parsePreSharedKey_bytes (hids : ids ≠ [])
    (hbinders : binders ≠ []) (hlabel : ∀ i ∈ ids, i.label ≠ []) (hbinder : ∀ b ∈ binders, b ≠ [])
    (hshort : ∀ b ∈ binders, b.length < 256)
    (hlen : (vec16 (pskIdentityBytes ids) ++ vec16 (pskBinderBytes binders)).length < 65536) :
    parsePreSharedKey (vec16 (pskIdentityBytes ids) ++ vec16 (pskBinderBytes binders)) =
      some (ids, binders) := by
  simp only [length_append, length_vec16] at hlen
  have h1 : (pskIdentityBytes ids).length < 65536 := by omega
  have h2 : (pskBinderBytes binders).length < 65536 := by omega
  have hids : nonEmpty (pskIdentityBytes ids) = some (pskIdentityBytes ids) := by
    refine nonEmpty_eq_some.mpr ⟨?_, rfl⟩
    obtain ⟨i, is, rfl⟩ := exists_cons_of_ne_nil hids
    simp [pskIdentityBytes, vec16, u16]
  have hbinders : nonEmpty (pskBinderBytes binders) = some (pskBinderBytes binders) := by
    refine nonEmpty_eq_some.mpr ⟨?_, rfl⟩
    obtain ⟨b, bs, rfl⟩ := exists_cons_of_ne_nil hbinders
    simp [pskBinderBytes, vec8, u8]
  simp only [parsePreSharedKey, readLP16_vec16 h1, bind_some, hids,
    parseAll_pskIdentities h1 hlabel, readLP16_vec16_nil h2, atEnd, hbinders,
    parseAll_pskBinders hshort hbinder,
    map_some]

/-- An identity with an empty label is refused. -/
lemma label_ne_of_parsePreSharedKey {i : PskIdentity} {rest : Bytes}
    {x : List PskIdentity × List Bytes} (hlen : (pskIdentityBytes [i]).length < 65536)
    (h : parsePreSharedKey (vec16 (pskIdentityBytes [i]) ++ rest) = some x) : i.label ≠ [] := by
  intro hnil
  obtain ⟨⟨ids, s⟩, hids, h⟩ := bind_eq_some_iff.mp h
  rw [readLP16_vec16 hlen] at hids
  cases hids
  obtain ⟨ids', hsome, h⟩ := bind_eq_some_iff.mp h
  obtain ⟨hne, rfl⟩ := nonEmpty_eq_some.mp hsome
  obtain ⟨l, hl, -⟩ := bind_eq_some_iff.mp h
  have hread : readPskIdentity (pskIdentityBytes [i]) = none := by
    rw [pskIdentityBytes, flatMap_singleton, hnil, readPskIdentity, readLP16_vec16 (by decide),
      bind_some]
    cases readU32 (u32 i.obfuscatedTicketAge.toNat) <;> rfl
  rw [parseAll_eq_none hne hread] at hl
  cases hl

/-- Pre-shared keys that were read are readable. -/
lemma readable_of_parsePreSharedKey (h : parsePreSharedKey data = some (ids, binders)) :
    ids ≠ [] ∧ binders ≠ [] ∧ (∀ i ∈ ids, i.label ≠ []) ∧ ∀ b ∈ binders, b ≠ [] := by
  obtain ⟨⟨idBytes, r⟩, -, h⟩ := bind_eq_some_iff.mp h
  obtain ⟨idBytes', hid, h⟩ := bind_eq_some_iff.mp h
  obtain ⟨hidne, rfl⟩ := nonEmpty_eq_some.mp hid
  obtain ⟨ids', hids, h⟩ := bind_eq_some_iff.mp h
  obtain ⟨binderBytes, -, h⟩ := bind_eq_some_iff.mp h
  obtain ⟨binderBytes', hb, h⟩ := bind_eq_some_iff.mp h
  obtain ⟨hbne, rfl⟩ := nonEmpty_eq_some.mp hb
  obtain ⟨binders', hbinders, h⟩ := map_eq_some_iff.mp h
  cases h
  refine ⟨ne_nil_of_parseAll hids hidne, ne_nil_of_parseAll hbinders hbne,
    forall_of_parseAll (fun s i r hi => ?_) hids, forall_of_parseAll (fun s b r hb => ?_) hbinders⟩
  · obtain ⟨⟨l, s'⟩, -, hi⟩ := bind_eq_some_iff.mp hi
    obtain ⟨⟨a, r'⟩, -, hi⟩ := bind_eq_some_iff.mp hi
    obtain ⟨l', hl', hi⟩ := map_eq_some_iff.mp hi
    cases hi
    obtain ⟨hl, rfl⟩ := nonEmpty_eq_some.mp hl'
    exact hl
  · obtain ⟨⟨n, r'⟩, -, hb⟩ := bind_eq_some_iff.mp hb
    obtain ⟨n', hn', hb⟩ := map_eq_some_iff.mp hb
    cases hb
    obtain ⟨hn, rfl⟩ := nonEmpty_eq_some.mp hn'
    exact hn

lemma applyExtension_psk_eq_some {last : Bool} {m' : ClientHelloMsg}
    (h : m.applyExtension ⟨extensionPreSharedKey, data⟩ last = some m') :
    last = true ∧ ∃ ids binders, parsePreSharedKey data = some (ids, binders) ∧
      m'.pskIdentities = m.pskIdentities ++ ids ∧ m'.pskBinders = m.pskBinders ++ binders := by
  have h : (if last = true then (parsePreSharedKey data).map fun x =>
      { m with pskIdentities := m.pskIdentities ++ x.1, pskBinders := m.pskBinders ++ x.2 }
    else none) = some m' := h
  split_ifs at h with hl
  obtain ⟨⟨ids, binders⟩, hp, rfl⟩ := map_eq_some_iff.mp h
  exact ⟨hl, ids, binders, hp, rfl, rfl⟩

/-- The pre-shared keys of a hello that was read are those of its extension. -/
lemma psk_of_applyExtensions {m0 r : ClientHelloMsg} {l : List RawExtension}
    (h : m0.applyExtensions l = some r) (h0 : (m0.pskIdentities, m0.pskBinders) = ([], []))
    (hx : ⟨extensionPreSharedKey, data⟩ ∈ l) :
    parsePreSharedKey data = some (r.pskIdentities, r.pskBinders) := by
  obtain ⟨m1, m2, last, h1, h2, h3⟩ := (field_of_applyExtensions
    (fun m => (m.pskIdentities, m.pskBinders)) extensionPreSharedKey
    (fun _ _ _ _ h hne => (applyExtension_frame h).psk hne) (fun _ _ => rfl) h).2 _ hx rfl
  obtain ⟨-, ids, binders, hparse, hi, hb⟩ := m1.applyExtension_psk_eq_some h2
  simp only [h0, Prod.mk.injEq] at h1
  rw [h1.1, nil_append] at hi
  rw [h1.2, nil_append] at hb
  simp only [Prod.mk.injEq] at h3
  rw [hparse, h3.1, h3.2, hi, hb]

/-- The data of the ECH extension of a hello that was read. -/
lemma ech_of_applyExtensions {m0 r : ClientHelloMsg} {l : List RawExtension}
    (h : m0.applyExtensions l = some r) (hx : ⟨extensionEncryptedClientHello, data⟩ ∈ l) :
    r.encryptedClientHello = data := by
  obtain ⟨m1, m2, last, -, h2, h3⟩ := (field_of_applyExtensions (·.encryptedClientHello)
    extensionEncryptedClientHello (fun _ _ _ _ h hne => (applyExtension_frame h).ech hne)
    (fun _ _ => rfl) h).2 _ hx rfl
  cases h2
  exact h3

end ClientHelloMsg

/-! ## The types of the reconstructed hello -/

lemma ne_of_compressible {t' : UInt16} (h : compressible t = true) (h' : compressible t' = false) :
    t ≠ t' := by
  rintro rfl
  rw [h'] at h
  cases h

lemma mem_referredExts (h : e ∈ referredExts q outer):
    e ∈ outer ∧ compressible e.extType = true ∧ q e.extType = true := by
  rw [referredExts, mem_filter, Bool.and_eq_true] at h
  exact h

/-- An extension of the reconstructed hello. -/
lemma mem_expandedExts (h : e ∈ m.expandedExts q outer):
    e ∈ m.echMarkerExts ∨ e ∈ m.nameExts ∨ e ∈ referredExts q outer ∨
      e ∈ m.innerVersionExts (echOuterTypes (outerTypes q outer)) ∨ e ∈ m.pskExts := by
  simpa only [expandedExts, mem_append] using h

lemma extType_of_mem_ite {b : Prop} [Decidable b] {data : Bytes}
    (h : e ∈ (if b then [(⟨t, data⟩ : RawExtension)] else [])) : e = ⟨t, data⟩ := by
  split_ifs at h
  · exact mem_singleton.mp h
  · simp at h

/-- No type is repeated. -/
lemma nodup_expandedExts (m : ClientHelloMsg) (q : UInt16 → Bool)
    (hnodup : (outer.map (·.extType)).Nodup) :
    ((m.expandedExts q outer).map (·.extType)).Nodup := by
  have hone : ∀ (b : Prop) [Decidable b] (t : UInt16) (data : Bytes),
      ((if b then [(⟨t, data⟩ : RawExtension)] else []).map (·.extType)).Sublist [t] := by
    intro b _ t data
    split_ifs
    · exact Sublist.refl _
    · exact nil_sublist _
  set T := (referredExts q outer).map (·.extType) with hT
  have hTnodup : T.Nodup := hnodup.sublist (filter_sublist.map _)
  have hTne : ∀ t, compressible t = false → t ∉ T := by
    intro t ht hmem
    obtain ⟨e, he, rfl⟩ := List.mem_map.mp hmem
    rw [(mem_referredExts he).2.1] at ht
    cases ht
  have hech : extensionEncryptedClientHello ∉ T := hTne _ (by decide)
  have hname : extensionServerName ∉ T := hTne _ (by decide)
  have hpsk : extensionPreSharedKey ∉ T := hTne _ (by decide)
  -- `supported_versions` is written unless the outer one is referred to
  have hversions : ((m.innerVersionExts (echOuterTypes (outerTypes q outer))).map
      (·.extType)) = [] ∨ ((m.innerVersionExts (echOuterTypes
        (outerTypes q outer))).map (·.extType) = [extensionSupportedVersions] ∧
          extensionSupportedVersions ∉ T) := by
    have hTeq : echOuterTypes (outerTypes q outer) = T := by
      rw [echOuterTypes_outerTypes, hT, referredExts, List.filter_map]
      rfl
    rw [hTeq, innerVersionExts]
    split_ifs with hv
    · right
      simp only [Bool.and_eq_true, Bool.not_eq_true', contains_eq_mem, decide_eq_false_iff_not] at hv
      exact ⟨rfl, hv.1⟩
    · exact .inl rfl
  have hsub : ((m.expandedExts q outer).map (·.extType)).Sublist
      ([extensionEncryptedClientHello] ++ ([extensionServerName] ++ (T ++
        ((m.innerVersionExts (echOuterTypes (outerTypes q outer))).map (·.extType) ++
          [extensionPreSharedKey])))) := by
    simp only [expandedExts, map_append]
    exact (hone _ _ _).append ((hone _ _ _).append ((Sublist.refl T).append
      ((Sublist.refl _).append (hone _ _ _))))
  refine Nodup.sublist hsub ?_
  have hd1 : extensionEncryptedClientHello ≠ extensionServerName := by decide
  have hd2 : extensionEncryptedClientHello ≠ extensionPreSharedKey := by decide
  have hd3 : extensionServerName ≠ extensionPreSharedKey := by decide
  have hd4 : extensionEncryptedClientHello ≠ extensionSupportedVersions := by decide
  have hd5 : extensionServerName ≠ extensionSupportedVersions := by decide
  have hd6 : extensionSupportedVersions ≠ extensionPreSharedKey := by decide
  rcases hversions with hv | ⟨hv, hvT⟩
  · rw [hv]
    simp [nodup_append, hTnodup, hech, hname, hd1, hd2, hd3]
    rintro t ht rfl
    exact hpsk ht
  · rw [hv]
    simp [nodup_append, hTnodup, hech, hname, hd1, hd2, hd3, hd4, hd5, hd6]
    rintro t ht
    exact ⟨fun h => hvT (h ▸ ht), fun h => hpsk (h ▸ ht)⟩

/-! ## The reconstructed hello -/

/-- The message that has the fields of an inner hello, the session id of the outer one and the
extensions the server ends up with. -/
def ClientHelloMsg.reconstructed (m : ClientHelloMsg) (sessionId : Bytes) (q : UInt16 → Bool)
    (outer : List RawExtension) : Bytes :=
  let body := ClientHelloMsg.front [] m.vers m.random sessionId m.cipherSuites m.compressionMethods
    (vec16 ((m.expandedExts q outer).flatMap rawExtensionBytes))
  1 :: (u24 body.length ++ body)

lemma ClientHelloMsg.reconstructed_eq_front (m : ClientHelloMsg) (sessionId : Bytes)
    (q : UInt16 → Bool) (outer : List RawExtension) :
    ∃ header, header.length = 4 ∧ m.reconstructed sessionId q outer =
      front header m.vers m.random sessionId m.cipherSuites m.compressionMethods
        (vec16 ((m.expandedExts q outer).flatMap rawExtensionBytes)) :=
  ⟨1 :: u24 _, rfl, rfl⟩

/-- The bytes the server puts together, if the extensions fit. -/
lemma reconstructInner_encoded {e sessionId : Bytes} (hp : EncodedParts m (outerTypes q outer) e)
    (hnodup : (outer.map (·.extType)).Nodup) (hs : sessionId.length < 256) :
    ∃ p, parseEncodedInner e = some p ∧
      ((((m.expandedExts q outer).flatMap rawExtensionBytes).length < 65536 ∧
        reconstructInner sessionId outer p = some (m.reconstructed sessionId q outer)) ∨
      (¬((m.expandedExts q outer).flatMap rawExtensionBytes).length < 65536 ∧
        reconstructInner sessionId outer p = none)) := by
  refine ⟨_, hp.parsed, ?_⟩
  obtain ⟨ls, hls, hflat⟩ := expand_innerRawExts m hnodup hp.types
  have hsid : lp8 sessionId = some (vec8 sessionId) := lp8_eq_some.mpr ⟨hs, rfl⟩
  have hsuites : lp16 (u16s m.cipherSuites) = some (vec16 (u16s m.cipherSuites)) :=
    lp16_eq_some.mpr ⟨hp.suites, rfl⟩
  have hcomp : lp8 m.compressionMethods = some (vec8 m.compressionMethods) :=
    lp8_eq_some.mpr ⟨hp.compression, rfl⟩
  simp only [reconstructInner, hls, bind_some, hsid, hsuites, hcomp, hflat]
  by_cases hblock : ((m.expandedExts q outer).flatMap rawExtensionBytes).length < 65536
  · left
    have hlp : lp16 ((m.expandedExts q outer).flatMap rawExtensionBytes) =
        some (vec16 ((m.expandedExts q outer).flatMap rawExtensionBytes)) :=
      lp16_eq_some.mpr ⟨hblock, rfl⟩
    set body := u16 m.vers.toNat ++ m.random ++ (vec8 sessionId ++ (vec16 (u16s m.cipherSuites) ++
      (vec8 m.compressionMethods ++ vec16 ((m.expandedExts q outer).flatMap rawExtensionBytes))))
      with hbody
    have hbodylen : body.length < 16777216 := by
      have h1 := hp.random
      have h2 := hp.suites
      have h3 := hp.compression
      simp only [hbody, length_append, length_u16, length_vec8, length_vec16]
      omega
    refine ⟨hblock, ?_⟩
    rw [hlp, bind_some, lp24_eq_some.mpr ⟨hbodylen, rfl⟩, map_some, reconstructed, front, hbody]
    simp only [append_assoc, nil_append]
  · right
    refine ⟨hblock, ?_⟩
    have hlp : lp16 ((m.expandedExts q outer).flatMap rawExtensionBytes) = none := by
      rw [eq_none_iff_forall_ne_some]
      intro c hc
      exact hblock (lp16_eq_some.mp hc).1
    rw [hlp]
    rfl

/-- What the hello says that is read from the extensions of an inner hello. -/
structure ReadBack (m r : ClientHelloMsg) : Prop where
  cookie : r.cookie = []
  ech : r.encryptedClientHello = [1]
  versions : r.supportedVersions = [VersionTLS13]
  serverName : r.serverName = m.serverName
  noPsk : m.pskIdentities = [] → r.pskIdentities = [] ∧ r.pskBinders = []
  psk : m.pskIdentities ≠ [] → parsePreSharedKey (vec16 (pskIdentityBytes m.pskIdentities) ++
    vec16 (pskBinderBytes m.pskBinders)) = some (r.pskIdentities, r.pskBinders)

/-- Types the inner hello does not have. -/
lemma notMem_types_expandedExts (hc : compressible t = false)
    (h1 : t ≠ extensionEncryptedClientHello) (h2 : t = extensionServerName → m.serverName = [])
    (h3 : t ≠ extensionSupportedVersions) (h4 : t = extensionPreSharedKey → m.pskIdentities = []) :
    t ∉ (m.expandedExts q outer).map (·.extType) := by
  intro hmem
  obtain ⟨e, he, rfl⟩ := List.mem_map.mp hmem
  rcases mem_expandedExts he with he | he | he | he | he
  · exact h1 (by rw [extType_of_mem_ite he])
  · have hname := h2 (by rw [extType_of_mem_ite he])
    rw [nameExts, hname] at he
    simp at he
  · rw [(mem_referredExts he).2.1] at hc
    cases hc
  · exact h3 (by rw [extType_of_mem_ite he])
  · have hids := h4 (by rw [extType_of_mem_ite he])
    rw [pskExts, hids] at he
    simp at he

lemma readBack_of_expanded {m0 r : ClientHelloMsg} (hech : m.encryptedClientHello = [1])
    (hv : m.supportedVersions ≠ []) (hq : q extensionSupportedVersions = false)
    (hdot : m.serverName.getLast? ≠ some 46) {e : Bytes} (hp : EncodedParts m outerExts e)
    (h0 : m0.cookie = [] ∧ m0.supportedVersions = [] ∧ m0.serverName = [] ∧
      (m0.pskIdentities, m0.pskBinders) = ([], []))
    (h : m0.applyExtensions (m.expandedExts q outer) = some r) : ReadBack m r := by
  obtain ⟨hcookie, hversions, hname, hpsk⟩ := h0
  have hframe := fun (m e last m') (h : applyExtension m e last = some m') =>
    applyExtension_frame h
  have hcookieF := field_of_applyExtensions (·.cookie) extensionCookie
    (fun m e last m' h hne => (hframe m e last m' h).cookie hne) (fun _ _ => rfl) h
  have hversionsF := field_of_applyExtensions (·.supportedVersions)
    extensionSupportedVersions (fun m e last m' h hne => (hframe m e last m' h).versions hne)
    (fun _ _ => rfl) h
  have hnameF := field_of_applyExtensions (·.serverName) extensionServerName
    (fun m e last m' h hne => (hframe m e last m' h).serverName hne) (fun _ _ => rfl) h
  have hpskF := field_of_applyExtensions (fun m => (m.pskIdentities, m.pskBinders))
    extensionPreSharedKey (fun m e last m' h hne => (hframe m e last m' h).psk hne) (fun _ _ => rfl) h
  refine ⟨?_, ?_, ?_, ?_, fun hids => ?_, fun hids => ?_⟩
  · exact (hcookieF.1 (notMem_types_expandedExts (by decide) (by decide) (fun h => by cases h)
      (by decide) fun h => by cases h)).trans hcookie
  · -- the marker
    have hmem : (⟨extensionEncryptedClientHello, [1]⟩ : RawExtension) ∈ m.expandedExts q outer := by
      simp [expandedExts, echMarkerExts, hech]
    exact ech_of_applyExtensions h hmem
  · have hmem : (⟨extensionSupportedVersions, vec8 (u16 VersionTLS13.toNat)⟩ : RawExtension) ∈
        m.expandedExts q outer := by
      have hnot : extensionSupportedVersions ∉ echOuterTypes (outerTypes q outer) := by
        rw [echOuterTypes_outerTypes, mem_filter]
        simp [hq]
      have hlen : m.supportedVersions.length > 0 := length_pos_iff.mpr hv
      have hin : (⟨extensionSupportedVersions, vec8 (u16 VersionTLS13.toNat)⟩ : RawExtension) ∈
          m.innerVersionExts (echOuterTypes (outerTypes q outer)) := by
        rw [innerVersionExts, if_pos (by simpa [hnot] using hlen)]
        exact mem_singleton_self _
      simp [expandedExts, hin]
    obtain ⟨m1, m2, last, h1, h2, h3⟩ := hversionsF.2 _ hmem rfl
    cases h2
    rw [h3]
    rw [h1, hversions]
    rfl
  · by_cases hne : m.serverName = []
    · rw [hne, ← hname]
      exact hnameF.1 (notMem_types_expandedExts (by decide) (by decide) (fun _ => hne) (by decide)
        fun h => by cases h)
    · have hin : (⟨extensionServerName, vec16 (0 :: vec16 m.serverName)⟩ : RawExtension) ∈
          m.nameExts := by
        rw [nameExts, if_pos (length_pos_iff.mpr hne)]
        exact mem_singleton_self _
      have hmem : (⟨extensionServerName, vec16 (0 :: vec16 m.serverName)⟩ : RawExtension) ∈
          m.expandedExts q outer := by
        simp [expandedExts, hin]
      obtain ⟨m1, m2, last, h1, h2, h3⟩ := hnameF.2 _ hmem rfl
      have hlen := hp.data ⟨extensionServerName, vec16 (0 :: vec16 m.serverName)⟩
        (by simp [innerRawExts, hin])
      rw [m1.applyExtension_name hne hdot hlen (h1.trans hname)] at h2
      cases h2
      exact h3
  · have hnone := hpskF.1 (notMem_types_expandedExts (by decide) (by decide) (fun h => by cases h)
      (by decide) fun _ => hids)
    rw [hpsk] at hnone
    exact Prod.mk.inj hnone
  · have hmem : (⟨extensionPreSharedKey, vec16 (pskIdentityBytes m.pskIdentities) ++
        vec16 (pskBinderBytes m.pskBinders)⟩ : RawExtension) ∈ m.expandedExts q outer := by
      have hlen : m.pskIdentities.length > 0 := length_pos_iff.mpr hids
      simp [expandedExts, pskExts, hlen]
    exact psk_of_applyExtensions h hpsk hmem

/-- Readable pre-shared keys of an encoded hello are read back. -/
lemma ReadBack.psk_eq {r : ClientHelloMsg} {e : Bytes}
    (hback : ReadBack m r) (hp : EncodedParts m outerExts e) (hpsk : m.PskReadable) :
    r.pskIdentities = m.pskIdentities ∧ r.pskBinders = m.pskBinders := by
  rcases hpsk with ⟨hnil, hbnil⟩ | ⟨hids, hbinders, hlabel, hbinder⟩
  · rw [hnil, hbnil]
    exact hback.noPsk hnil
  · have hpos : m.pskIdentities.length > 0 := length_pos_iff.mpr hids
    have hlen := hp.data ⟨extensionPreSharedKey, vec16 (pskIdentityBytes m.pskIdentities) ++
      vec16 (pskBinderBytes m.pskBinders)⟩ (by
        simp [innerRawExts, pskExts, hpos])
    have hread := hback.psk hids
    rw [parsePreSharedKey_bytes hids hbinders hlabel hbinder (hp.binders hpos) hlen]
      at hread
    obtain ⟨h1, h2⟩ := Prod.mk.inj (some.inj hread)
    exact ⟨h1.symm, h2.symm⟩

/-- The pre-shared key extension is the last one. -/
lemma psk_last_expandedExts (hnodup : ((m.expandedExts q outer).map (·.extType)).Nodup)
    {pre post : List RawExtension} (h : m.expandedExts q outer = pre ++ e :: post)
    (he : e.extType = extensionPreSharedKey) : post = [] := by
  by_contra hpost
  have hmem : e ∈ m.expandedExts q outer := by simp [h]
  -- the last extension of the list is one of this type, and it is not this one
  have hids : m.pskIdentities.length > 0 := by
    by_contra hids
    have hnil : m.pskIdentities = [] := length_eq_zero_iff.mp (by omega)
    have hnot : extensionPreSharedKey ∉ (m.expandedExts q outer).map (·.extType) :=
      notMem_types_expandedExts (by decide) (by decide) (fun h => by cases h) (by decide) fun _ => hnil
    exact hnot (List.mem_map.mpr ⟨e, hmem, he⟩)
  have hlast : (m.expandedExts q outer).getLast? = some ⟨extensionPreSharedKey,
      vec16 (pskIdentityBytes m.pskIdentities) ++ vec16 (pskBinderBytes m.pskBinders)⟩ := by
    simp [expandedExts, pskExts, if_pos hids, getLast?_append]
  have hin : (⟨extensionPreSharedKey, vec16 (pskIdentityBytes m.pskIdentities) ++
      vec16 (pskBinderBytes m.pskBinders)⟩ : RawExtension) ∈ post := by
    obtain ⟨post', x, rfl⟩ := (eq_nil_or_concat post).resolve_left hpost
    rw [h, concat_eq_append, ← cons_append, ← append_assoc, getLast?_concat] at hlast
    rw [← some.inj hlast]
    simp
  rw [h, map_append, map_cons] at hnodup
  have hcons := (nodup_append.mp hnodup).2.1
  rw [nodup_cons] at hcons
  exact hcons.1 (List.mem_map.mpr ⟨_, hin, he.symm⟩)

/-- Every extension of the reconstructed hello is accepted in its place, if those of the outer hello
are and the pre-shared keys can be read. -/
lemma accepted_expandedExts {e : Bytes} (hp : EncodedParts m outerExts e)
    (hpsk : m.pskIdentities ≠ [] → m.PskReadable) (hdot : m.serverName.getLast? ≠ some 46)
    (hnodup : ((m.expandedExts q outer).map (·.extType)).Nodup)
    (hacc : ∀ x ∈ outer, x.extType ≠ extensionServerName → x.extType ≠ extensionPreSharedKey →
      ∀ m1 last, (applyExtension m1 x last).isSome = true) {pre post : List RawExtension}
    {x : RawExtension} (h : m.expandedExts q outer = pre ++ x :: post) :
    (applyExtension {} x post.isEmpty).isSome = true := by
  have hmem : x ∈ m.expandedExts q outer := by simp [h]
  rcases mem_expandedExts hmem with hx | hx | hx | hx | hx
  · rw [extType_of_mem_ite hx]
    rfl
  · have hne : m.serverName ≠ [] := by
      rintro hne
      rw [nameExts, hne] at hx
      simp at hx
    have hlen := hp.data x (by simp [innerRawExts, hx])
    have hxeq := extType_of_mem_ite hx
    rw [hxeq] at hlen ⊢
    rw [applyExtension_name _ hne hdot hlen rfl]
    rfl
  · obtain ⟨hin, hc, -⟩ := mem_referredExts hx
    exact hacc x hin (ne_of_compressible hc (by decide)) (ne_of_compressible hc (by decide)) _ _
  · rw [extType_of_mem_ite hx]
    rfl
  · have hids : m.pskIdentities ≠ [] := by
      rintro hids
      rw [pskExts, hids] at hx
      simp at hx
    have hlen := hp.data x (by simp [innerRawExts, hx])
    have hxeq := extType_of_mem_ite hx
    have hpost : post = [] := psk_last_expandedExts hnodup h (by rw [hxeq])
    rcases hpsk hids with ⟨hnil, -⟩ | ⟨-, hbinders, hlabel, hbinder⟩
    · exact absurd hnil hids
    rw [hxeq] at hlen ⊢
    subst hpost
    have hparse := parsePreSharedKey_bytes hids hbinders hlabel hbinder
      (hp.binders (length_pos_iff.mpr hids)) hlen
    change (Option.map _ (parsePreSharedKey _)).isSome = true
    rw [hparse]
    rfl

/-! ## The round trip -/

/-- The types that the inner hello may refer to; `supported_versions`, ECH and the pre-shared key
are left out. -/
def passedType (t : UInt16) : Bool :=
  t != extensionSupportedVersions && t != extensionEncryptedClientHello && t != extensionPreSharedKey

/-- A hello with these bytes has an extension block. -/
def ClientHelloMsg.HasBlock (outer : ClientHelloMsg) (raw : Bytes) : Prop :=
  42 + outer.sessionId.length + 2 * outer.cipherSuites.length + outer.compressionMethods.length <
    raw.length

/-- The raw extensions of a hello that was accepted. -/
lemma rawExtensions_of_unmarshal {raw : Bytes} {outer : ClientHelloMsg}
    (h : unmarshal raw = some outer) :
    outer.original = some raw ∧ outer.sessionId.length < 256 ∧
      ((¬outer.HasBlock raw ∧ extractRawExtensions raw = none ∧ outer.extensions = []) ∨
        (outer.HasBlock raw ∧ ∃ l, extractRawExtensions raw = some l ∧
          outer.extensions = l.map (·.extType) ∧ (l.map (·.extType)).Nodup ∧
          ∀ x ∈ l, x.extType ≠ extensionServerName → x.extType ≠ extensionPreSharedKey →
            ∀ m1 last, (applyExtension m1 x last).isSome = true)) := by
  obtain ⟨header, rest, hh, hr, hs, hc, hm, hraw, horiginal, hrest⟩ :=
    unmarshal_eq_some h
  have hextract := extractRawExtensions_front hh outer.vers hr hs hc hm rest
  rw [← hraw] at hextract
  have hlen : raw.length = 42 + outer.sessionId.length + 2 * outer.cipherSuites.length +
      outer.compressionMethods.length + rest.length := by
    rw [hraw]
    simp only [front, length_append, length_u16, length_vec8, length_vec16, length_u16s]
    omega
  refine ⟨horiginal, hs, ?_⟩
  unfold HasBlock
  rcases hrest with ⟨rfl, hnone⟩ | ⟨exts, l, hexts, rfl, hl, happly⟩
  · refine .inl ⟨?_, by rw [hextract]; rfl, hnone⟩
    rw [hlen, length_nil]
    omega
  · obtain ⟨htypes, hnodup, -⟩ := applyExtensions_types happly
    refine .inr ⟨?_, l, ?_, htypes, hnodup, accepted_of_applyExtensions happly⟩
    · rw [hlen, length_vec16]
      omega
    · rw [hextract, readLP16_vec16_nil hexts]
      exact hl

/-- What is decoded from an encoding of `m`: the bytes, with the extensions put together from those
of `m` and the extensions `l` of the outer hello, and the hello that is read from them. -/
structure Decoded (m outer : ClientHelloMsg) (q : UInt16 → Bool) (l : List RawExtension)
    (r : ClientHelloMsg) (recon : Bytes) : Prop where
  recon : recon = m.reconstructed outer.sessionId q l
  header : r.header = (m.vers, m.random, outer.sessionId, m.cipherSuites, m.compressionMethods)
  types : r.extensions = (m.expandedExts q l).map (·.extType)
  back : ReadBack m r

/-- The encoding of an inner hello is refused if the extensions do not fit; otherwise the extensions
put together are read one by one. -/
lemma decodeWithRaw_eq {outer : ClientHelloMsg} {raw e : Bytes}
    (horiginal : outer.original = some raw) (hsid : outer.sessionId.length < 256)
    (hl : extractRawExtensions raw = some l) (hnodup : (l.map (·.extType)).Nodup)
    (hp : EncodedParts m (outerTypes q l) e) :
    (((m.expandedExts q l).flatMap rawExtensionBytes).length < 65536 ∧
      decodeInnerClientHelloWithRaw outer e =
        ((start (m.reconstructed outer.sessionId q l) m.vers m.random outer.sessionId
          m.cipherSuites m.compressionMethods).applyExtensions (m.expandedExts q l)).bind fun inner =>
            if inner.encryptedClientHello = [1] ∧ inner.supportedVersions = [VersionTLS13] then
              some (inner, m.reconstructed outer.sessionId q l) else none) ∨
    (¬ ((m.expandedExts q l).flatMap rawExtensionBytes).length < 65536 ∧
      decodeInnerClientHelloWithRaw outer e = none) := by
  obtain ⟨p, hparse, hrecon⟩ := reconstructInner_encoded hp hnodup hsid
  have hdecode : decodeInnerClientHelloWithRaw outer e = (reconstructInner outer.sessionId l p).bind
      fun recon => (unmarshal recon).bind fun inner =>
        if inner.encryptedClientHello = [1] ∧ inner.supportedVersions = [VersionTLS13] then
          some (inner, recon) else none := by
    rw [decodeInnerClientHelloWithRaw, horiginal, getD_some, hl, hparse]
    rfl
  rcases hrecon with ⟨hfit, hrecon⟩ | ⟨hbig, hrecon⟩
  · refine .inl ⟨hfit, ?_⟩
    obtain ⟨header, hh, hfront⟩ := m.reconstructed_eq_front outer.sessionId q l
    have hunmarshal := unmarshal_front hh m.vers hp.random hsid hp.suites
      hp.compression hfit
    rw [← hfront, parseAll_rawExtensions (data_lt_of_block hfit), bind_some] at hunmarshal
    rw [hdecode, hrecon, bind_some, hunmarshal]
  · refine .inr ⟨hbig, ?_⟩
    rw [hdecode, hrecon]
    rfl

section Decode

variable {m outer : ClientHelloMsg} {raw e : Bytes} {q : UInt16 → Bool} {l : List RawExtension}
  (horiginal : outer.original = some raw) (hsid : outer.sessionId.length < 256)
  (hl : extractRawExtensions raw = some l) (hnodup : (l.map (·.extType)).Nodup)
  (hech : m.encryptedClientHello = [1]) (hv : m.supportedVersions ≠ [])
  (hq : q extensionSupportedVersions = false) (hdot : m.serverName.getLast? ≠ some 46)
  (hp : EncodedParts m (outerTypes q l) e)

include horiginal hsid hl hnodup hech hv hq hdot hp

/-- What is decoded from the encoding of an inner hello. -/
lemma decoded_of_decodeWithRaw {r : ClientHelloMsg} {recon : Bytes}
    (h : decodeInnerClientHelloWithRaw outer e = some (r, recon)) :
    Decoded m outer q l r recon ∧
      ((m.expandedExts q l).flatMap rawExtensionBytes).length < 65536 := by
  rcases decodeWithRaw_eq horiginal hsid hl hnodup hp with
    ⟨hfit, hdecode⟩ | ⟨-, hdecode⟩
  rotate_left
  · rw [hdecode] at h
    cases h
  rw [hdecode] at h
  obtain ⟨inner, hinner, hif⟩ := bind_eq_some_iff.mp h
  split_ifs at hif
  cases hif
  have hback := readBack_of_expanded hech hv hq hdot hp ⟨rfl, rfl, rfl, rfl⟩ hinner
  exact ⟨⟨rfl, (applyExtensions_header hinner).1,
    (applyExtensions_types hinner).1, hback⟩, hfit⟩

/-- An inner hello that has been encoded is decoded if its pre-shared keys can be read and the
extensions fit. -/
lemma decodeWithRaw_encoded
    (hacc : ∀ x ∈ l, x.extType ≠ extensionServerName → x.extType ≠ extensionPreSharedKey →
      ∀ m1 last, (applyExtension m1 x last).isSome = true) (hpsk : m.PskReadable)
    (hfit : ((m.expandedExts q l).flatMap rawExtensionBytes).length < 65536) :
    ∃ r recon, decodeInnerClientHelloWithRaw outer e = some (r, recon) ∧
      Decoded m outer q l r recon := by
  rcases decodeWithRaw_eq horiginal hsid hl hnodup hp with
    ⟨-, hdecode⟩ | ⟨hbig, -⟩
  rotate_left
  · exact absurd hfit hbig
  have hnodupExts := nodup_expandedExts m q hnodup
  have hsome := isSome_applyExtensions (m := start
    (m.reconstructed outer.sessionId q l) m.vers m.random
    outer.sessionId m.cipherSuites m.compressionMethods) hnodupExts (fun x _ h => by cases h)
    (fun _ => rfl) fun pre x post h => accepted_expandedExts hp (fun _ => hpsk) hdot hnodupExts hacc h
  obtain ⟨r, hr⟩ := isSome_iff_exists.mp hsome
  have hback := readBack_of_expanded hech hv hq hdot hp ⟨rfl, rfl, rfl, rfl⟩ hr
  have hsuccess : decodeInnerClientHelloWithRaw outer e =
      some (r, m.reconstructed outer.sessionId q l) := by
    rw [hdecode, hr, bind_some, if_pos (And.intro hback.ech hback.versions)]
  exact ⟨r, _, hsuccess,
    (decoded_of_decodeWithRaw horiginal hsid hl hnodup hech hv hq hdot hp hsuccess).1⟩

end Decode

/-- The decoded hello has the fields of the inner one and the session id of the outer one. -/
structure ClientHelloMsg.Recovers (m outer r : ClientHelloMsg) : Prop where
  random : r.random = m.random
  cipherSuites : r.cipherSuites = m.cipherSuites
  compressionMethods : r.compressionMethods = m.compressionMethods
  serverName : r.serverName = m.serverName
  cookie : r.cookie = m.cookie
  pskIdentities : r.pskIdentities = m.pskIdentities
  pskBinders : r.pskBinders = m.pskBinders
  supportedVersions : r.supportedVersions = [VersionTLS13]
  sessionId : r.sessionId = outer.sessionId

/-- An inner hello that has been encoded is decoded and has all its fields, exactly if it has no
cookie, its pre-shared keys can be read, the outer hello has an extension block, and the extensions
fit. -/
theorem decode_encoded_iff {parseIP : GoString → Bool} {m outer : ClientHelloMsg} {raw : Bytes}
    {name : GoString} {maxNameLength : Nat} {e : Bytes}
    (houter : ClientHelloMsg.unmarshal raw = some outer) (hech : m.encryptedClientHello = [1])
    (hv : m.supportedVersions ≠ []) (hname : m.serverName = hostnameInSNI parseIP name)
    (he : encodeInnerClientHelloReorderOuterExts m maxNameLength
      (some (outer.extensions.filter passedType)) = some e) :
    (∃ r, decodeInnerClientHello outer e = some r ∧ m.Recovers outer r) ↔
      m.cookie = [] ∧ m.PskReadable ∧ outer.HasBlock raw ∧
        ((m.expandedExts passedType ((extractRawExtensions raw).getD [])).flatMap
          rawExtensionBytes).length < 65536 := by
  have hdot : m.serverName.getLast? ≠ some 46 := hname ▸ getLast_hostnameInSNI parseIP name
  obtain ⟨horiginal, hsid, hblock⟩ := rawExtensions_of_unmarshal houter
  rcases hblock with ⟨hno, hnone, -⟩ | ⟨hhas, l, hl, htypes, hnodup, hacc⟩
  · -- without an extension block the outer hello is refused
    have hdecode : decodeInnerClientHello outer e = none := by
      rw [decodeInnerClientHello, decodeInnerClientHelloWithRaw, horiginal, getD_some, hnone]
      cases parseEncodedInner e <;> rfl
    constructor
    · rintro ⟨r, hr, -⟩
      rw [hdecode] at hr
      cases hr
    · rintro ⟨-, -, hhas, -⟩
      exact absurd hhas hno
  rw [htypes] at he
  have hp : EncodedParts m (outerTypes passedType l) e := .of_encoded (by rw [hech]; decide) he
  rw [hl, getD_some]
  constructor
  · rintro ⟨r, hr, hrec⟩
    obtain ⟨⟨inner, recon⟩, hinner, rfl⟩ := map_eq_some_iff.mp hr
    obtain ⟨hdecoded, hfit⟩ := decoded_of_decodeWithRaw horiginal hsid hl hnodup hech hv (by decide)
      hdot hp hinner
    have hback := hdecoded.back
    refine ⟨hrec.cookie.symm.trans hback.cookie, ?_, hhas, hfit⟩
    by_cases hids : m.pskIdentities = []
    · exact .inl ⟨hids, hrec.pskBinders.symm.trans (hback.noPsk hids).2⟩
    · have hread := readable_of_parsePreSharedKey (hback.psk hids)
      rw [hrec.pskIdentities, hrec.pskBinders] at hread
      exact .inr hread
  · rintro ⟨hcookie, hpsk, -, hfit⟩
    obtain ⟨r, recon, hr, hdecoded⟩ := decodeWithRaw_encoded horiginal hsid hl hnodup hech hv
      (by decide) hdot hp hacc hpsk hfit
    have hback := hdecoded.back
    refine ⟨r, ?_, ?_⟩
    · rw [decodeInnerClientHello, hr]
      rfl
    · have hheader := hdecoded.header
      simp only [header, Prod.mk.injEq] at hheader
      obtain ⟨-, hrandom, hsessionId, hsuites, hcompression⟩ := hheader
      have hids := hback.psk_eq hp hpsk
      exact ⟨hrandom, hsuites, hcompression, hback.serverName, hback.cookie.trans hcookie.symm,
        hids.1, hids.2, hback.versions, hsessionId⟩

/-- The bytes of an outer hello with one extension, `supported_groups`. -/
def sampleOuterBytes : Bytes :=
  ClientHelloMsg.front [1, 0, 0, 51] VersionTLS12 (List.replicate 32 9) [] [0x1301] [0]
    (vec16 (rawExtensionBytes ⟨extensionSupportedCurves, vec16 (u16 0x001d)⟩))

/-- The outer hello of these bytes. -/
def sampleOuter : ClientHelloMsg :=
  (ClientHelloMsg.unmarshal sampleOuterBytes).getD {}

lemma unmarshal_sampleOuterBytes :
    unmarshal sampleOuterBytes = some sampleOuter := by
  decide +kernel

/-- A hello with a name and without a cookie is recovered. -/
theorem decode_encoded_named :
    ∃ e r, encodeInnerClientHelloReorderOuterExts { sampleInner with serverName := [97, 46, 98] } 8
        (some (sampleOuter.extensions.filter passedType)) = some e ∧
      decodeInnerClientHello sampleOuter e = some r ∧
      ClientHelloMsg.Recovers { sampleInner with serverName := [97, 46, 98] } sampleOuter r := by
  obtain ⟨e, he⟩ := isSome_iff_exists.mp (show (encodeInnerClientHelloReorderOuterExts
    { sampleInner with serverName := [97, 46, 98] } 8
    (some (sampleOuter.extensions.filter passedType))).isSome = true by decide +kernel)
  have hname : [97, 46, 98] = hostnameInSNI (fun _ => false) [97, 46, 98] := by decide +kernel
  have hblock : sampleOuter.HasBlock sampleOuterBytes := by
    unfold HasBlock
    decide +kernel
  obtain ⟨r, hr, hrec⟩ := (decode_encoded_iff unmarshal_sampleOuterBytes rfl (by decide) hname he).mpr
    ⟨rfl, .inl ⟨rfl, rfl⟩, hblock, by decide +kernel⟩
  exact ⟨e, r, he, hr, hrec⟩

/-- The cookie of an inner hello is lost. -/
theorem decode_encoded_loses_cookie :
    ClientHelloMsg.unmarshal sampleOuterBytes = some sampleOuter ∧
      ∃ e r, encodeInnerClientHelloReorderOuterExts { sampleInner with cookie := [1, 2, 3] } 8
          (some (sampleOuter.extensions.filter passedType)) = some e ∧
        decodeInnerClientHello sampleOuter e = some r ∧ r.cookie = [] := by
  refine ⟨unmarshal_sampleOuterBytes, ?_⟩
  have hrun : ((encodeInnerClientHelloReorderOuterExts { sampleInner with cookie := [1, 2, 3] } 8
      (some (sampleOuter.extensions.filter passedType))).bind
        (decodeInnerClientHello sampleOuter)).map (·.cookie) = some [] := by decide +kernel
  obtain ⟨r, hr, hcookie⟩ := map_eq_some_iff.mp hrun
  obtain ⟨e, he, hr⟩ := bind_eq_some_iff.mp hr
  exact ⟨e, r, he, hr, hcookie⟩

end Utls
