import Utls.InnerRoundTrip

/-!
# What decoding an inner hello accepts

`decodeInnerClientHelloWithRaw` on arbitrary bytes.  What it accepts is described on the wire:
`EncodedLayout` is the layout of an encoded inner hello, `Names` that of an `ech_outer_extensions`
entry, and `Expansion` says which list of extensions may take the place of the encoded one.

The cursor of the search in the outer hello stays on the extension that was found, so the search
alone would find a type that is named twice.  That each entry is replaced by a sublist of the outer
extensions (`takeOuterExtensions_sublist`) needs that no type occurs twice in the result, which
`unmarshal` checks on the reconstructed message.
-/

namespace Utls

open Wire List Option ClientHelloMsg

variable {chosen exts outer result : List RawExtension} {e : RawExtension} {types : List UInt16}
  {encoded raw : Bytes}

/-! ## Layouts -/

/-- The encoded inner hello consists of these parts, an empty session id, and zeros at its end. -/
structure EncodedLayout (encoded : Bytes) (p : EncodedInner) : Prop where
  versionAndRandom : p.versionAndRandom.length = 34
  cipherSuites : p.cipherSuites.length < 65536
  compressionMethods : p.compressionMethods.length < 256
  block : (p.extensions.flatMap rawExtensionBytes).length < 65536
  bytes : ∃ pad : Nat, encoded = p.versionAndRandom ++ (vec8 [] ++ (vec16 p.cipherSuites ++
    (vec8 p.compressionMethods ++ (vec16 (p.extensions.flatMap rawExtensionBytes) ++
      List.replicate pad 0))))

/-- The bytes of a hello that holds these extensions. -/
def HelloLayout (raw : Bytes) (m : ClientHelloMsg) (l : List RawExtension) : Prop :=
  ∃ header, header.length = 4 ∧ (l.flatMap rawExtensionBytes).length < 65536 ∧
    raw = ClientHelloMsg.front header m.vers m.random m.sessionId m.cipherSuites
      m.compressionMethods (vec16 (l.flatMap rawExtensionBytes))

/-- The entry is an `ech_outer_extensions` that names these types.  What follows the list in its
data is not looked at. -/
def Names (e : RawExtension) (types : List UInt16) : Prop :=
  e.extType = extensionECHOuterExtensions ∧ (u16s types).length < 256 ∧
    ∃ rest, e.data = vec8 (u16s types) ++ rest

/-- The extensions `result` that `exts` stands for: each `ech_outer_extensions` is replaced by the
extensions that it names, which are taken from `outer` in their order and are not ECH. -/
inductive Expansion (outer : List RawExtension) : List RawExtension → List RawExtension → Prop
  | nil : Expansion outer [] []
  | keep {e : RawExtension} {exts result : List RawExtension}
      (hne : e.extType ≠ extensionECHOuterExtensions) (hrest : Expansion outer exts result) :
      Expansion outer (e :: exts) (e :: result)
  | replace {e : RawExtension} {chosen exts result : List RawExtension}
      (hnames : Names e (chosen.map (·.extType))) (hsub : chosen.Sublist outer)
      (hech : ∀ x ∈ chosen, x.extType ≠ extensionEncryptedClientHello)
      (hrest : Expansion outer exts result) : Expansion outer (e :: exts) (chosen ++ result)

/-- An extension of the result was written out, or is one of the outer hello. -/
lemma Expansion.mem (h : Expansion outer exts result) (he : e ∈ result) : e ∈ exts ∨ e ∈ outer := by
  induction h with
  | nil => exact .inl he
  | keep _ _ ih =>
    rcases mem_cons.mp he with rfl | he
    · exact .inl mem_cons_self
    · exact (ih he).imp_left (mem_cons_of_mem _)
  | replace _ hsub _ _ ih =>
    rcases mem_append.mp he with he | he
    · exact .inr (hsub.subset he)
    · exact (ih he).imp_left (mem_cons_of_mem _)

lemma readRawExtension_eq_some {s r : Bytes} :
    readRawExtension s = some (e, r) ↔ e.data.length < 65536 ∧ s = rawExtensionBytes e ++ r := by
  constructor
  · intro h
    obtain ⟨⟨t, s1⟩, ht, h⟩ := bind_eq_some_iff.mp h
    obtain ⟨⟨d, s2⟩, hd, h⟩ := map_eq_some_iff.mp h
    cases h
    obtain ⟨hlen, hs1⟩ := readLP16_eq_some.mp hd
    refine ⟨hlen, ?_⟩
    rw [readU16_eq_some.mp ht, hs1, rawExtensionBytes, extFrame, vec16]
    simp only [append_assoc]
  · rintro ⟨hlen, rfl⟩
    exact readRawExtension_bytes hlen r

lemma parseAll_rawExtension_eq_some {s : Bytes} {l : List RawExtension} :
    parseAll readRawExtension s = some l ↔
      (∀ e ∈ l, e.data.length < 65536) ∧ s = l.flatMap rawExtensionBytes :=
  parseAll_eq_some (fun _ _ _ => readRawExtension_eq_some) fun e _ => by
    simp [rawExtensionBytes, extFrame, u16]

lemma any_ne_zero_eq_false {pad : Bytes} :
    pad.any (fun x => decide (x ≠ 0)) = false ↔ pad = List.replicate pad.length 0 := by
  rw [eq_replicate_iff]
  simp

/-- `parseEncodedInner` accepts exactly the encoded inner hellos. -/
lemma parseEncodedInner_eq_some {p : EncodedInner} :
    parseEncodedInner encoded = some p ↔ EncodedLayout encoded p := by
  constructor
  · intro h
    obtain ⟨⟨versionAndRandom, s1⟩, h1, h⟩ := bind_eq_some_iff.mp h
    obtain ⟨⟨sessionID, s2⟩, h2, h⟩ := bind_eq_some_iff.mp h
    dsimp only at h
    by_cases hsid : sessionID.length ≠ 0
    · rw [if_pos hsid] at h
      cases h
    rw [if_neg hsid] at h
    obtain ⟨⟨suites, s3⟩, h3, h⟩ := bind_eq_some_iff.mp h
    obtain ⟨⟨comp, s4⟩, h4, h⟩ := bind_eq_some_iff.mp h
    obtain ⟨⟨exts, pad⟩, h5, h⟩ := bind_eq_some_iff.mp h
    dsimp only at h
    by_cases hpad : pad.any (fun x => decide (x ≠ 0)) = true
    · rw [if_pos hpad] at h
      cases h
    rw [if_neg hpad] at h
    obtain ⟨l, hl, rfl⟩ := map_eq_some_iff.mp h
    obtain ⟨hvr, hs1⟩ := readN_eq_some.mp h1
    obtain ⟨-, hs2⟩ := readLP8_eq_some.mp h2
    obtain ⟨hsuites, hs3⟩ := readLP16_eq_some.mp h3
    obtain ⟨hcomp, hs4⟩ := readLP8_eq_some.mp (show readLP8 s3 = some (comp, s4) from h4)
    obtain ⟨hexts, hs5⟩ := readLP16_eq_some.mp (show readLP16 s4 = some (exts, pad) from h5)
    obtain ⟨-, rfl⟩ := parseAll_rawExtension_eq_some.mp hl
    obtain rfl : sessionID = [] := length_eq_zero_iff.mp (not_not.mp hsid)
    refine ⟨hvr, hsuites, hcomp, hexts, pad.length, ?_⟩
    rw [← any_ne_zero_eq_false.mp (Bool.not_eq_true _ ▸ hpad), hs1, hs2, hs3, hs4, hs5]
    simp only [vec8, vec16, append_assoc]
  · rintro ⟨hvr, hsuites, hcomp, hblock, pad, rfl⟩
    have hpad : (replicate pad (0 : UInt8)).any (fun x => decide (x ≠ 0)) = false := by simp
    simp only [parseEncodedInner, readN_eq_some.mpr ⟨hvr, rfl⟩, bind_some,
      readLP8_vec8 (b := []) (by simp), length_nil, ne_eq, not_true, if_false,
      readLP16_vec16 hsuites, readLP8_vec8 hcomp, readLP16_vec16 hblock, hpad,
      parseAll_rawExtensions (data_lt_of_block hblock), map_some]
    rfl

/-- An accepted hello from which extensions can be extracted: its bytes, and how it is read. -/
lemma rawParts_of_unmarshal {m : ClientHelloMsg} {l : List RawExtension}
    (h : unmarshal raw = some m) (hl : extractRawExtensions raw = some l) :
    HelloLayout raw m l ∧ (start raw m.vers m.random m.sessionId m.cipherSuites
      m.compressionMethods).applyExtensions l = some m := by
  obtain ⟨header, rest, hh, hr, hs, hc, hm, hraw, -, hrest⟩ := unmarshal_eq_some h
  have hextract := extractRawExtensions_front hh m.vers hr hs hc hm rest
  rw [← hraw, hl] at hextract
  rcases hrest with ⟨rfl, -⟩ | ⟨exts, l', hexts, rfl, hl', happly⟩
  · cases hextract
  · have hread := readLP16_vec16 hexts []
    rw [append_nil] at hread
    rw [hread, bind_some, hl'] at hextract
    cases hextract
    obtain ⟨-, rfl⟩ := parseAll_rawExtension_eq_some.mp hl'
    exact ⟨⟨header, hh, hexts, hraw⟩, happly⟩


/-! ## The search in the outer hello -/

/-- The first step of the search: the cursor is put on an extension of the first type. -/
lemma takeOuterExtensions_cons {t : UInt16} {ts : List UInt16}
    (h : takeOuterExtensions outer (t :: ts) = some chosen) :
    t ≠ extensionEncryptedClientHello ∧ ∃ e rest chosen', e.extType = t ∧
      (e :: rest).Sublist outer ∧ takeOuterExtensions (e :: rest) ts = some chosen' ∧
      chosen = e :: chosen' := by
  rw [takeOuterExtensions] at h
  by_cases hech : t = extensionEncryptedClientHello
  · rw [if_pos hech] at h
    cases h
  rw [if_neg hech] at h
  cases hdrop : outer.dropWhile fun e => e.extType ≠ t with
  | nil =>
    rw [hdrop] at h
    cases h
  | cons e rest =>
    rw [hdrop] at h
    obtain ⟨chosen', hrest, rfl⟩ := map_eq_some_iff.mp h
    have he : e.extType = t := by
      have hhead := head?_dropWhile_not (fun e : RawExtension => decide (e.extType ≠ t)) outer
      rw [hdrop] at hhead
      simpa using hhead
    have hsub : (e :: rest).Sublist outer := by
      rw [← hdrop]
      exact dropWhile_sublist _
    exact ⟨hech, e, rest, chosen', he, hsub, hrest, rfl⟩

/-- What the search finds has the types that were asked for, and none of them is ECH. -/
lemma takeOuterExtensions_types (h : takeOuterExtensions outer types = some chosen):
    chosen.map (·.extType) = types ∧
      ∀ x ∈ chosen, x.extType ≠ extensionEncryptedClientHello := by
  induction types generalizing outer chosen with
  | nil =>
    cases h
    exact ⟨rfl, fun x hx => absurd hx not_mem_nil⟩
  | cons t ts ih =>
    obtain ⟨hech, e, rest, chosen', rfl, -, hrest, rfl⟩ := takeOuterExtensions_cons h
    obtain ⟨htypes, hall⟩ := ih hrest
    exact ⟨by rw [map_cons, htypes], forall_mem_cons.mpr ⟨hech, hall⟩⟩

/-- The cursor stays where it is, but if no type is asked for twice, then it moves on before the
next extension is found. -/
theorem takeOuterExtensions_sublist (h : takeOuterExtensions outer types = some chosen)
    (hnodup : types.Nodup) : chosen.Sublist outer := by
  induction types generalizing outer chosen with
  | nil =>
    cases h
    exact nil_sublist _
  | cons t ts ih =>
    obtain ⟨-, e, rest, chosen', rfl, hsub, hrest, rfl⟩ := takeOuterExtensions_cons h
    obtain ⟨hnew, hts⟩ := nodup_cons.mp hnodup
    have hskip : ∀ t ∈ ts, e.extType ≠ t := by
      rintro t ht rfl
      exact hnew ht
    rw [takeOuterExtensions_skip hskip] at hrest
    exact ((ih hrest hts).cons_cons e).trans hsub

/-! ## Replacing the entries -/

lemma names_iff (he : e.extType = extensionECHOuterExtensions):
    Names e types ↔ ∃ list rest, readLP8 e.data = some (list, rest) ∧
      parseAll readU16 list = some types := by
  constructor
  · rintro ⟨-, hlen, rest, hdata⟩
    refine ⟨u16s types, rest, ?_, parseAll_u16s types⟩
    rw [hdata]
    exact readLP8_vec8 hlen rest
  · rintro ⟨list, rest, hlist, htypes⟩
    obtain ⟨hlen, hdata⟩ := readLP8_eq_some.mp hlist
    obtain rfl : list = u16s types :=
      eq_flatMap_of_parseAll (fun s x r hx => readU16_eq_some.mp hx) htypes
    refine ⟨he, hlen, rest, ?_⟩
    rw [hdata, vec8, append_assoc]

/-- The types that an entry names are determined by its data. -/
lemma Names.unique {types' : List UInt16} (h : Names e types)
    (h' : Names e types') : types = types' := by
  obtain ⟨list, rest, hlist, htypes⟩ := (names_iff h.1).mp h
  obtain ⟨list', rest', hlist', htypes'⟩ := (names_iff h.1).mp h'
  rw [hlist] at hlist'
  cases hlist'
  exact some.inj (htypes.symm.trans htypes')

/-- What one entry is replaced by. -/
lemma expandExtension_eq_some (h : expandExtension outer e = some chosen):
    (e.extType ≠ extensionECHOuterExtensions ∧ chosen = [e]) ∨
      (Names e (chosen.map (·.extType)) ∧
        takeOuterExtensions outer (chosen.map (·.extType)) = some chosen) := by
  rw [expandExtension] at h
  by_cases he : e.extType = extensionECHOuterExtensions
  · rw [if_pos he] at h
    obtain ⟨⟨list, rest⟩, hlist, h⟩ := bind_eq_some_iff.mp h
    obtain ⟨types, htypes, h⟩ := bind_eq_some_iff.mp h
    have hnames : Names e types := (names_iff he).mpr ⟨list, rest, hlist, htypes⟩
    rw [(takeOuterExtensions_types h).1]
    exact .inr ⟨hnames, h⟩
  · rw [if_neg he] at h
    exact .inl ⟨he, (some.inj h).symm⟩

/-- If no type occurs twice in the result, then the entries are replaced as they should be. -/
lemma expansion_of_mapM
    {parts : List (List RawExtension)} (h : exts.mapM (expandExtension outer) = some parts)
    (hnodup : (parts.flatten.map (·.extType)).Nodup) : Expansion outer exts parts.flatten := by
  induction exts generalizing parts with
  | nil =>
    cases h
    exact .nil
  | cons e exts ih =>
    rw [mapM_cons] at h
    obtain ⟨chosen, he, h⟩ := bind_eq_some_iff.mp h
    obtain ⟨parts', hrest, h⟩ := bind_eq_some_iff.mp h
    cases h
    rw [flatten_cons, map_append, nodup_append'] at hnodup
    obtain ⟨hchosen, hparts, -⟩ := hnodup
    have hexp := ih hrest hparts
    rw [flatten_cons]
    rcases expandExtension_eq_some he with ⟨hne, rfl⟩ | ⟨hnames, htake⟩
    · exact .keep hne hexp
    · exact .replace hnames (takeOuterExtensions_sublist htake hchosen)
        (takeOuterExtensions_types htake).2 hexp

/-- The `ech_outer_extensions` entries name types of the outer hello: each entry names types that
occur there, in their order and not twice, never ECH, and no two entries name the same type. -/
structure NamesProperly (outerTypes : List UInt16) (exts : List RawExtension) : Prop where
  each : ∀ e ∈ exts, ∀ types, Names e types → types.Sublist outerTypes ∧
    extensionEncryptedClientHello ∉ types
  apart : exts.Pairwise fun e e' => ∀ types types', Names e types → Names e' types' →
    types.Disjoint types'

/-- Every type that is named is in the result. -/
lemma Expansion.subset (h : Expansion outer exts result) (he : e ∈ exts) (hnames : Names e types):
    types ⊆ result.map (·.extType) := by
  induction h with
  | nil => cases he
  | keep hne _ ih =>
    rcases mem_cons.mp he with rfl | he
    · exact absurd hnames.1 hne
    · rw [map_cons]
      exact subset_cons_of_subset _ (ih he)
  | replace hnames' _ _ _ ih =>
    rw [map_append]
    rcases mem_cons.mp he with rfl | he
    · rw [hnames.unique hnames']
      exact subset_append_left _ _
    · exact subset_append_of_subset_right _ (ih he)

lemma Expansion.namesProperly (h : Expansion outer exts result)
    (hnodup : (result.map (·.extType)).Nodup) : NamesProperly (outer.map (·.extType)) exts := by
  induction h with
  | nil => exact ⟨fun e he => absurd he not_mem_nil, List.Pairwise.nil⟩
  | keep hne hrest ih =>
    have ih := ih (nodup_cons.mp hnodup).2
    refine ⟨forall_mem_cons.mpr ⟨fun types hnames => absurd hnames.1 hne, ih.each⟩,
      pairwise_cons.mpr ⟨fun e' _ types types' hnames => absurd hnames.1 hne, ih.apart⟩⟩
  | replace hnames hsub hech hrest ih =>
    rw [map_append, nodup_append'] at hnodup
    obtain ⟨-, hresult, hdisjoint⟩ := hnodup
    have ih := ih hresult
    refine ⟨forall_mem_cons.mpr ⟨fun types hnames' => ?_, ih.each⟩,
      pairwise_cons.mpr ⟨fun e' he' types types' hnames' hother => ?_, ih.apart⟩⟩
    · obtain rfl := hnames.unique hnames'
      refine ⟨hsub.map _, fun hmem => ?_⟩
      obtain ⟨x, hx, htype⟩ := List.mem_map.mp hmem
      exact hech x hx htype
    · obtain rfl := hnames.unique hnames'
      exact fun t ht ht' => hdisjoint ht (hrest.subset he' hother ht')


/-! ## The reconstructed message -/

/-- The message with these parts. -/
def innerMessage (p : EncodedInner) (sessionId : Bytes) (result : List RawExtension) : Bytes :=
  let body := p.versionAndRandom ++ (vec8 sessionId ++ (vec16 p.cipherSuites ++
    (vec8 p.compressionMethods ++ vec16 (result.flatMap rawExtensionBytes))))
  1 :: (u24 body.length ++ body)

lemma innerMessage_eq (p : EncodedInner) (sessionId : Bytes) (result : List RawExtension) :
    ∃ n, innerMessage p sessionId result =
      (1 :: (u24 n ++ p.versionAndRandom)) ++ (vec8 sessionId ++ (vec16 p.cipherSuites ++
        (vec8 p.compressionMethods ++ vec16 (result.flatMap rawExtensionBytes)))) :=
  ⟨_, by rw [innerMessage, cons_append, append_assoc]⟩

lemma reconstructInner_eq_some {sessionId : Bytes}
    {p : EncodedInner} (h : reconstructInner sessionId outer p = some raw) :
    ∃ parts, p.extensions.mapM (expandExtension outer) = some parts ∧ sessionId.length < 256 ∧
      (parts.flatten.flatMap rawExtensionBytes).length < 65536 ∧
      raw = innerMessage p sessionId parts.flatten := by
  obtain ⟨parts, hparts, h⟩ := bind_eq_some_iff.mp h
  obtain ⟨sid, hsid, h⟩ := bind_eq_some_iff.mp h
  obtain ⟨suites, hsuites, h⟩ := bind_eq_some_iff.mp h
  obtain ⟨comp, hcomp, h⟩ := bind_eq_some_iff.mp h
  obtain ⟨block, hblock, h⟩ := bind_eq_some_iff.mp h
  obtain ⟨body, hbody, rfl⟩ := map_eq_some_iff.mp h
  obtain ⟨hsidLen, rfl⟩ := lp8_eq_some.mp hsid
  obtain ⟨-, rfl⟩ := lp16_eq_some.mp hsuites
  obtain ⟨-, rfl⟩ := lp8_eq_some.mp hcomp
  obtain ⟨hblockLen, rfl⟩ := lp16_eq_some.mp hblock
  obtain ⟨-, rfl⟩ := lp24_eq_some.mp hbody
  exact ⟨parts, hparts, hsidLen, hblockLen, rfl⟩

lemma extractRawExtensions_innerMessage {sessionId : Bytes} {p : EncodedInner}
    (hp : EncodedLayout encoded p) (hsid : sessionId.length < 256)
    (hblock : (result.flatMap rawExtensionBytes).length < 65536) :
    extractRawExtensions (innerMessage p sessionId result) = some result := by
  obtain ⟨n, hmessage⟩ := innerMessage_eq p sessionId result
  have hlen : (1 :: (u24 n ++ p.versionAndRandom)).length = 38 := by
    rw [length_cons, length_append, hp.versionAndRandom]
    rfl
  have hfront := readN_eq_some.mpr ⟨hlen, hmessage⟩
  simp only [extractRawExtensions, hfront, bind_some, readLP8_vec8 hsid,
    readLP16_vec16 hp.cipherSuites, readLP8_vec8 hp.compressionMethods, readLP16_vec16_nil hblock,
    parseAll_rawExtensions (data_lt_of_block hblock)]

/-- What is known of a successful reconstruction. -/
structure Reconstruction (outerRaw : Bytes) (outer : ClientHelloMsg) (encoded raw : Bytes)
    (p : EncodedInner) (l result : List RawExtension) : Prop where
  layout : EncodedLayout encoded p
  outerLayout : HelloLayout outerRaw outer l
  outerTypes : outer.extensions = l.map (·.extType)
  expansion : Expansion l p.extensions result
  nodup : (result.map (·.extType)).Nodup
  bytes : raw = innerMessage p outer.sessionId result

/-- A reconstruction that succeeds, and the extensions that the two hellos hold. -/
lemma extracted_of_decode {outerRaw : Bytes} {outer inner : ClientHelloMsg}
    (houter : unmarshal outerRaw = some outer)
    (h : decodeInnerClientHelloWithRaw outer encoded = some (inner, raw)) :
    unmarshal raw = some inner ∧
      ∃ p l result, Reconstruction outerRaw outer encoded raw p l result ∧
        extractRawExtensions outerRaw = some l ∧ extractRawExtensions raw = some result := by
  obtain ⟨p, hp, h⟩ := bind_eq_some_iff.mp h
  obtain ⟨l, hl, h⟩ := bind_eq_some_iff.mp h
  obtain ⟨recon, hrecon, h⟩ := bind_eq_some_iff.mp h
  obtain ⟨m, hm, h⟩ := bind_eq_some_iff.mp h
  obtain ⟨rfl, rfl⟩ : m = inner ∧ recon = raw := by
    split_ifs at h
    cases h
    exact ⟨rfl, rfl⟩
  have hlayout := parseEncodedInner_eq_some.mp hp
  obtain ⟨parts, hparts, hsid, hblock, rfl⟩ := reconstructInner_eq_some hrecon
  obtain ⟨horiginal, -, houterExts⟩ := rawExtensions_of_unmarshal houter
  rw [horiginal] at hl
  have htypes : outer.extensions = l.map (·.extType) := by
    rcases houterExts with ⟨-, hnone, -⟩ | ⟨-, l', hl', htypes, -⟩
    · cases hl.symm.trans hnone
    · cases hl.symm.trans hl'
      exact htypes
  have hextract := extractRawExtensions_innerMessage hlayout hsid hblock
  have hnodup : (parts.flatten.map (·.extType)).Nodup := by
    rcases (rawExtensions_of_unmarshal hm).2.2 with ⟨-, hnone, -⟩ | ⟨-, l', hl', -, hnodup, -⟩
    · cases hextract.symm.trans hnone
    · cases hextract.symm.trans hl'
      exact hnodup
  exact ⟨hm, p, l, parts.flatten, ⟨hlayout, (rawParts_of_unmarshal houter hl).1, htypes,
    expansion_of_mapM hparts hnodup, hnodup, rfl⟩, hl, hextract⟩

lemma reconstruction_of_decode {outerRaw : Bytes} {outer inner : ClientHelloMsg}
    (houter : unmarshal outerRaw = some outer)
    (h : decodeInnerClientHelloWithRaw outer encoded = some (inner, raw)) :
    unmarshal raw = some inner ∧
      ∃ p l result, Reconstruction outerRaw outer encoded raw p l result := by
  obtain ⟨hraw, p, l, result, hrec, -⟩ := extracted_of_decode houter h
  exact ⟨hraw, p, l, result, hrec⟩

/-- Decoding with a hello that was accepted as the outer one.  If it succeeds, then the bytes are
the message with the encoded version, random, cipher suites and compression methods, the session id
of the outer hello, and the encoded extensions with the `ech_outer_extensions` entries replaced.
If the entries name a type that is absent, not in its order or repeated, or ECH, then it fails. -/
theorem decodeInnerClientHelloWithRaw_spec {outerRaw : Bytes} {outer : ClientHelloMsg}
    (houter : ClientHelloMsg.unmarshal outerRaw = some outer) (encoded : Bytes) :
    (∀ inner raw, decodeInnerClientHelloWithRaw outer encoded = some (inner, raw) →
      ClientHelloMsg.unmarshal raw = some inner ∧
        ∃ p l result, Reconstruction outerRaw outer encoded raw p l result) ∧
      ∀ p, EncodedLayout encoded p → ¬NamesProperly outer.extensions p.extensions →
        decodeInnerClientHelloWithRaw outer encoded = none := by
  refine ⟨fun inner raw h => reconstruction_of_decode houter h, fun p hp hbad => ?_⟩
  rw [eq_none_iff_forall_ne_some]
  rintro ⟨inner, raw⟩ h
  obtain ⟨-, p', l, result, hrec⟩ := reconstruction_of_decode houter h
  obtain rfl : p = p' := some.inj
    ((parseEncodedInner_eq_some.mpr hp).symm.trans (parseEncodedInner_eq_some.mpr hrec.layout))
  rw [hrec.outerTypes] at hbad
  exact hbad (hrec.expansion.namesProperly hrec.nodup)

/-- An encoded inner hello that refers to the `supported_groups` of the outer hello, with two bytes
of padding. -/
def sampleEncoded : Bytes :=
  List.replicate 34 7 ++ (vec8 [] ++ (vec16 (u16 0x1301) ++ (vec8 [0] ++
    (vec16 ([⟨extensionSupportedVersions, [2, 3, 4]⟩, ⟨extensionEncryptedClientHello, [1]⟩,
      ⟨extensionECHOuterExtensions, vec8 (u16s [extensionSupportedCurves])⟩].flatMap
        rawExtensionBytes) ++ [0, 0]))))

theorem decode_sampleEncoded :
    ∃ inner raw, decodeInnerClientHelloWithRaw sampleOuter sampleEncoded = some (inner, raw) ∧
      ClientHelloMsg.unmarshal raw = some inner ∧
        ∃ p l result, Reconstruction sampleOuterBytes sampleOuter sampleEncoded raw p l result := by
  have hsome : (decodeInnerClientHelloWithRaw sampleOuter sampleEncoded).isSome = true := by
    decide +kernel
  obtain ⟨⟨inner, raw⟩, h⟩ := isSome_iff_exists.mp hsome
  exact ⟨inner, raw, h,
    (decodeInnerClientHelloWithRaw_spec unmarshal_sampleOuterBytes sampleEncoded).1 inner raw h⟩

/-! ## What a parsed hello was -/

/-- A `pre_shared_key` is only accepted at the end. -/
lemma psk_last_of_applyExtensions {m r : ClientHelloMsg} {pre post : List RawExtension}
    {e : RawExtension} (h : m.applyExtensions (pre ++ e :: post) = some r)
    (he : e.extType = extensionPreSharedKey) : post = [] := by
  induction pre generalizing m with
  | nil =>
    obtain ⟨-, m1, h1, -⟩ := applyExtensions_cons h
    obtain ⟨t, data⟩ := e
    cases he
    exact isEmpty_iff.mp (applyExtension_psk_eq_some _ h1).1
  | cons e0 pre ih =>
    obtain ⟨-, m1, -, h⟩ := applyExtensions_cons h
    exact ih h

/-- An accepted hello is its fields one behind another, and nothing else, and each of them fits its
length.  The types of its extensions are recorded in their order, none of them twice, and a
`pre_shared_key` is the last. -/
theorem unmarshal_wellFormed {data : Bytes} {m : ClientHelloMsg} (h : unmarshal data = some m) :
    ∃ (header block : Bytes) (l : List RawExtension), header.length = 4 ∧
      data = front header m.vers m.random m.sessionId m.cipherSuites m.compressionMethods block ∧
      (m.random.length = 32 ∧ m.sessionId.length < 256 ∧ (u16s m.cipherSuites).length < 65536 ∧
        m.compressionMethods.length < 256 ∧ (l.flatMap rawExtensionBytes).length < 65536 ∧
        ∀ e ∈ l, e.data.length < 65536) ∧
      (block = vec16 (l.flatMap rawExtensionBytes) ∨ (block = [] ∧ l = [])) ∧
      m.extensions = l.map (·.extType) ∧ m.extensions.Nodup ∧
      ∀ pre e post, l = pre ++ e :: post → e.extType = extensionPreSharedKey → post = [] := by
  obtain ⟨header, block, hh, hrandom, hsid, hsuites, hcomp, hdata, -,
    ⟨hnil, hexts⟩ | ⟨exts, l, hlen, hblock, hparse, happly⟩⟩ := unmarshal_eq_some h
  · exact ⟨header, block, [], hh, hdata, ⟨hrandom, hsid, hsuites, hcomp, by simp⟩,
      .inr ⟨hnil, rfl⟩, hexts, by simp [hexts], by simp⟩
  · obtain ⟨hr, hnodup, -⟩ := applyExtensions_types happly
    obtain ⟨hfit, rfl⟩ := parseAll_rawExtension_eq_some.mp hparse
    refine ⟨header, block, l, hh, hdata, ⟨hrandom, hsid, hsuites, hcomp, hlen, hfit⟩,
      .inl hblock, hr, ?_, ?_⟩
    · rw [hr]
      exact hnodup
    · rintro pre e post rfl
      exact psk_last_of_applyExtensions happly

/-- A hello with `extended_master_secret`. -/
theorem unmarshal_wellFormed_ems :
    ∃ m, unmarshal (replicate 42 0 ++ [0, 4, 0, 23, 0, 0]) = some m ∧ m.extensions.Nodup := by
  obtain ⟨m, hm⟩ := isSome_iff_exists.mp (show (unmarshal
    (replicate 42 0 ++ [0, 4, 0, 23, 0, 0])).isSome = true by decide +kernel)
  obtain ⟨_, _, _, -, -, -, -, -, hnodup, -⟩ := unmarshal_wellFormed hm
  exact ⟨m, hm, hnodup⟩

end Utls
