import Utls.InnerRoundTrip
import Utls.EchBuild

/-!
# The hello as a server reads it

A server that accepts a marshalled hello sees the raw extensions of the extension objects
(`unmarshal_clientHelloEncoding`).  Extensions that are empty on the wire, such as the name of an IP
address or padding that is not needed, leave no raw extension.

An ECH client lists the types of its extensions before it seals the inner hello.  What the inner
hello refers to is taken from that list, and the server finds the same types in the same order in
the outer hello (`listed_sublist`), although the list was made before the public name and the ECH
extension itself were filled in.
-/

namespace Utls

open Wire Exec List Option ClientHelloMsg

/-! ## Raw extensions -/

/-- The raw extension that stands at the front of some bytes; nothing stands in no bytes. -/
def rawExtOf (b : Bytes) : Option RawExtension :=
  if b.length = 0 then none
  else some ⟨UInt16.ofNat ((b.getD 0 0).toNat * 256 + (b.getD 1 0).toNat), b.drop 4⟩

lemma ofNat_u16 (t : UInt16) :
    UInt16.ofNat (((u16 t.toNat).getD 0 0).toNat * 256 + ((u16 t.toNat).getD 1 0).toNat) = t := by
  have h := readU16_u16_toNat t []
  simpa [readU16, u16] using h

lemma rawExtOf_extFrame (t : UInt16) (data : Bytes) :
    rawExtOf (extFrame t data) = some ⟨t, data⟩ := by
  have hpos : (extFrame t data).length ≠ 0 := by
    rw [length_extFrame]
    omega
  rw [rawExtOf, if_neg hpos]
  have htype : UInt16.ofNat (((extFrame t data).getD 0 0).toNat * 256 +
      ((extFrame t data).getD 1 0).toNat) = t := ofNat_u16 t
  rw [htype]
  rfl

section ParseIP

variable (parseIP : GoString → Bool)

/-- The bytes of an extension are empty or form one raw extension of its type. -/
lemma Ext.wire_eq (e : Ext) :
    e.wire parseIP = [] ∨ ∃ data, e.wire parseIP = extFrame e.typeId data := by
  cases e with
  | sni name =>
    simp only [Ext.wire]
    split_ifs
    · exact .inl rfl
    · exact .inr ⟨_, rfl⟩
  | utlsPadding e =>
    simp only [Ext.wire]
    split_ifs
    · exact .inr ⟨_, rfl⟩
    · exact .inl rfl
  | utlsPreSharedKey e =>
    simp only [Ext.wire, pskWire]
    split_ifs
    · exact .inl rfl
    · exact .inr ⟨_, rfl⟩
  | fakePreSharedKey e =>
    simp only [Ext.wire, pskWire]
    split_ifs
    · exact .inl rfl
    · exact .inr ⟨_, rfl⟩
  | _ => exact .inr ⟨_, rfl⟩

/-- The bytes of an extension are empty or form one raw extension. -/
lemma Ext.wire_cases (e : Ext) : e.wire parseIP = [] ∨ ∃ t data, e.wire parseIP = extFrame t data :=
  (e.wire_eq parseIP).imp_right fun ⟨data, h⟩ => ⟨_, data, h⟩

/-- The raw extension of an extension object. -/
def Ext.rawExt (e : Ext) : Option RawExtension := rawExtOf (e.wire parseIP)

/-- The raw extensions of the extension list. -/
def rawExts (exts : List Ext) : List RawExtension := exts.filterMap fun e => e.rawExt parseIP

/-- A raw extension has the type of the extension. -/
lemma Ext.extType_of_rawExt {e : Ext} {x : RawExtension} (h : e.rawExt parseIP = some x) :
    x.extType = e.typeId := by
  rw [Ext.rawExt] at h
  rcases e.wire_eq parseIP with hw | ⟨data, hw⟩
  · rw [hw] at h
    cases h
  · rw [hw, rawExtOf_extFrame] at h
    cases h
    rfl

lemma Ext.wire_eq_rawExt (e : Ext) :
    e.wire parseIP = (e.rawExt parseIP).toList.flatMap rawExtensionBytes := by
  rcases e.wire_cases parseIP with h | ⟨t, data, h⟩
  · rw [Ext.rawExt, h]
    rfl
  · rw [Ext.rawExt, h, rawExtOf_extFrame]
    simp [rawExtensionBytes]

/-- The bytes of the extension list are those of its raw extensions. -/
lemma flatMap_wire (exts : List Ext) :
    exts.flatMap (fun e => e.wire parseIP) = (rawExts parseIP exts).flatMap rawExtensionBytes := by
  induction exts with
  | nil => rfl
  | cons e exts ih =>
    rw [flatMap_cons, ih, e.wire_eq_rawExt]
    cases h : e.rawExt parseIP with
    | none => simp [rawExts, h]
    | some x => simp [rawExts, h]

end ParseIP

/-! ## Reading a marshalled hello -/

namespace ClientHelloMsg

/-- A message can be taken apart in one way only. -/
lemma front_inj {header header' random random' sessionId sessionId' comp comp' rest rest' : Bytes}
    {vers vers' : UInt16} {suites suites' : List UInt16} (hh : header.length = 4)
    (hh' : header'.length = 4) (hr : random.length = 32) (hr' : random'.length = 32)
    (hs : sessionId.length < 256) (hs' : sessionId'.length < 256)
    (hc : (u16s suites).length < 65536) (hc' : (u16s suites').length < 65536)
    (hm : comp.length < 256) (hm' : comp'.length < 256)
    (h : front header vers random sessionId suites comp rest =
      front header' vers' random' sessionId' suites' comp' rest') :
    (vers, random, sessionId, suites, comp) = (vers', random', sessionId', suites', comp') ∧
      rest = rest' := by
  unfold front at h
  obtain ⟨-, h1⟩ := append_inj h (hh.trans hh'.symm)
  have hvers := congrArg readU16 h1
  rw [readU16_u16_toNat, readU16_u16_toNat] at hvers
  obtain ⟨hvers, h2⟩ := Prod.mk.inj (some.inj hvers)
  obtain ⟨hrandom, h3⟩ := append_inj h2 (hr.trans hr'.symm)
  have hsid := congrArg readLP8 h3
  rw [readLP8_vec8 hs, readLP8_vec8 hs'] at hsid
  obtain ⟨hsid, h4⟩ := Prod.mk.inj (some.inj hsid)
  have hsuites := congrArg readLP16 h4
  rw [readLP16_vec16 hc, readLP16_vec16 hc'] at hsuites
  obtain ⟨hsuites, h5⟩ := Prod.mk.inj (some.inj hsuites)
  have hlist := congrArg (parseAll readU16) hsuites
  rw [parseAll_u16s, parseAll_u16s] at hlist
  have hcomp := congrArg readLP8 h5
  rw [readLP8_vec8 hm, readLP8_vec8 hm'] at hcomp
  obtain ⟨hcomp, h6⟩ := Prod.mk.inj (some.inj hcomp)
  rw [hvers, hrandom, hsid, some.inj hlist, hcomp]
  exact ⟨rfl, h6⟩

/-- The fields in front of the extensions fit their length prefixes. -/
structure HeaderFits (h : ClientHelloMsg) : Prop where
  random : h.random.length = 32
  sessionId : h.sessionId.length < 256
  suites : (u16s h.cipherSuites).length < 65536
  compression : h.compressionMethods.length < 256

lemma HeaderFits.of_header {h h' : ClientHelloMsg} (hh : h.HeaderFits)
    (heq : h'.header = h.header) :
    h'.HeaderFits := by
  simp only [header, Prod.mk.injEq] at heq
  obtain ⟨-, hrandom, hsession, hsuites, hcompression⟩ := heq
  refine ⟨?_, ?_, ?_, ?_⟩
  · rw [hrandom, hh.random]
  · rw [hsession]
    exact hh.sessionId
  · rw [hsuites]
    exact hh.suites
  · rw [hcompression]
    exact hh.compression

end ClientHelloMsg

section ParseIP

variable {parseIP : GoString → Bool}

lemma clientHelloEncoding_eq_front (parseIP : GoString → Bool) (h : ClientHelloMsg)
    {exts : List Ext} (hne : exts ≠ []) :
    ∃ header, header.length = 4 ∧ clientHelloEncoding parseIP h exts = front header
      h.vers h.random h.sessionId h.cipherSuites h.compressionMethods
      (vec16 ((rawExts parseIP exts).flatMap rawExtensionBytes)) := by
  have hlen : exts.length ≠ 0 := fun h0 => hne (length_eq_zero_iff.mp h0)
  refine ⟨1 :: u24 (helloHeader h ++ extensionBlock parseIP exts).length, rfl, ?_⟩
  rw [clientHelloEncoding, extensionBlock, if_neg hlen, flatMap_wire, helloHeader, front]
  simp only [append_assoc, cons_append]

section Fits

variable {h : ClientHelloMsg} {exts : List Ext} (hh : h.HeaderFits) (hne : exts ≠ [])

include hh hne

/-- A server reads the raw extensions one by one. -/
theorem unmarshal_clientHelloEncoding
    (hb : ((rawExts parseIP exts).flatMap rawExtensionBytes).length < 65536) :
    unmarshal (clientHelloEncoding parseIP h exts) =
      (start (clientHelloEncoding parseIP h exts) h.vers h.random h.sessionId
        h.cipherSuites h.compressionMethods).applyExtensions (rawExts parseIP exts) := by
  obtain ⟨header, hl, hfront⟩ := clientHelloEncoding_eq_front parseIP h hne
  have hread := unmarshal_front hl h.vers hh.random hh.sessionId hh.suites
    hh.compression hb
  rw [parseAll_rawExtensions (data_lt_of_block hb), bind_some] at hread
  rw [hfront, hread]

/-- What is known of a marshalled hello that a server has read. -/
lemma unmarshal_clientHelloEncoding_eq_some {outer : ClientHelloMsg}
    (ho : unmarshal (clientHelloEncoding parseIP h exts) = some outer) :
    ((rawExts parseIP exts).flatMap rawExtensionBytes).length < 65536 ∧
      extractRawExtensions (clientHelloEncoding parseIP h exts) = some (rawExts parseIP exts) ∧
      (start (clientHelloEncoding parseIP h exts) h.vers h.random h.sessionId
        h.cipherSuites h.compressionMethods).applyExtensions (rawExts parseIP exts) = some outer := by
  obtain ⟨header, hl, hfront⟩ := clientHelloEncoding_eq_front parseIP h hne
  have hb : ((rawExts parseIP exts).flatMap rawExtensionBytes).length < 65536 := by
    obtain ⟨header', rest, hl', hr, hs, hc, hm, hraw, -, hrest⟩ := unmarshal_eq_some ho
    rw [hfront] at hraw
    obtain ⟨-, hrest'⟩ := front_inj hl hl' hh.random hr hh.sessionId hs hh.suites hc
      hh.compression hm hraw
    rcases hrest with ⟨rfl, -⟩ | ⟨block, l, hblock, rfl, -⟩
    · have hlen := congrArg List.length hrest'
      rw [length_vec16, length_nil] at hlen
      omega
    · have hlen := congrArg List.length hrest'
      rw [length_vec16, length_vec16] at hlen
      omega
  refine ⟨hb, ?_, ?_⟩
  · rw [hfront, extractRawExtensions_front hl h.vers hh.random hh.sessionId hh.suites
      hh.compression, readLP16_vec16_nil hb]
    exact parseAll_rawExtensions (data_lt_of_block hb)
  · rw [← unmarshal_clientHelloEncoding hh hne hb, ho]

end Fits

end ParseIP

/-! ## What is on the wire -/

/-- The fields of a ClientHello message and its extensions, one by one. -/
structure WireHello where
  vers : UInt16
  random : Bytes
  sessionId : Bytes
  cipherSuites : List UInt16
  compressionMethods : List UInt8
  extensions : List RawExtension
  deriving DecidableEq

/-- The extensions at the end of a message, which ends with them. -/
def readExtensions (s : Bytes) : Option (List RawExtension) :=
  if s = [] then some []
  else (readLP16 s).bind fun x => if x.2 = [] then parseAll readRawExtension x.1 else none

/-- Takes a ClientHello message apart. -/
def readHello (raw : Bytes) : Option WireHello :=
  (readN 4 raw).bind fun (_, s) => (readU16 s).bind fun (vers, s) =>
  (readN 32 s).bind fun (random, s) => (readLP8 s).bind fun (sessionId, s) =>
  (readLP16 s).bind fun (suites, s) => (parseAll readU16 suites).bind fun cipherSuites =>
  (readLP8 s).bind fun (compressionMethods, s) => (readExtensions s).map fun extensions =>
    ⟨vers, random, sessionId, cipherSuites, compressionMethods, extensions⟩

lemma readHello_front {header random sessionId comp : Bytes} {suites : List UInt16}
    (hh : header.length = 4) (vers : UInt16) (hr : random.length = 32) (hs : sessionId.length < 256)
    (hc : (u16s suites).length < 65536) (hm : comp.length < 256) (rest : Bytes) :
    readHello (front header vers random sessionId suites comp rest) =
      (readExtensions rest).map fun extensions => ⟨vers, random, sessionId, suites, comp, extensions⟩ := by
  generalize hraw : front header vers random sessionId suites comp rest = raw
  have h1 : readN 4 raw = some (header, u16 vers.toNat ++ (random ++ (vec8 sessionId ++
      (vec16 (u16s suites) ++ (vec8 comp ++ rest))))) := by
    rw [← hraw]
    exact readN_eq_some.mpr ⟨hh, rfl⟩
  simp only [readHello, h1, bind_some, readU16_u16_toNat, readN_eq_some.mpr ⟨hr, rfl⟩,
    readLP8_vec8 hs, readLP16_vec16 hc, parseAll_u16s, readLP8_vec8 hm]

/-- A list of raw extensions is read back exactly if it fits the length in front of it. -/
lemma readExtensions_vec16 (l : List RawExtension) :
    readExtensions (vec16 (l.flatMap rawExtensionBytes)) =
      if (l.flatMap rawExtensionBytes).length < 65536 then some l else none := by
  set b := l.flatMap rawExtensionBytes
  have hne : vec16 b ≠ [] := by
    intro hnil
    have hlen := congrArg List.length hnil
    rw [length_vec16, length_nil] at hlen
    omega
  rw [readExtensions, if_neg hne]
  split_ifs with hlt
  · have hread := readLP16_vec16 hlt []
    rw [append_nil] at hread
    rw [hread, bind_some, if_pos rfl]
    exact parseAll_rawExtensions (data_lt_of_block hlt)
  · cases hread : readLP16 (vec16 b) with
    | none => rfl
    | some x =>
      rw [bind_some, if_neg]
      intro hrest
      obtain ⟨hx, heq⟩ := readLP16_eq_some.mp (show _ = some (x.1, x.2) from hread)
      have hlen := congrArg List.length heq
      rw [hrest] at hlen
      simp only [length_vec16, length_append, length_u16, length_nil] at hlen
      omega

lemma clientHelloEncoding_nil (parseIP : GoString → Bool) (h : ClientHelloMsg) {exts : List Ext}
    (hnil : exts = []) :
    clientHelloEncoding parseIP h exts = front (1 :: u24 (helloHeader h).length)
      h.vers h.random h.sessionId h.cipherSuites h.compressionMethods [] := by
  rw [hnil, clientHelloEncoding, extensionBlock, if_pos length_nil, append_nil, helloHeader, front]
  simp only [cons_append, append_nil]

/-- A marshalled hello that can be taken apart has the extensions of its list. -/
lemma readHello_clientHelloEncoding (parseIP : GoString → Bool) {h : ClientHelloMsg}
    {exts : List Ext} (hh : h.HeaderFits) {w : WireHello}
    (hw : readHello (clientHelloEncoding parseIP h exts) = some w) :
    w = ⟨h.vers, h.random, h.sessionId, h.cipherSuites, h.compressionMethods, rawExts parseIP exts⟩ := by
  by_cases hne : exts = []
  · rw [clientHelloEncoding_nil parseIP h hne, readHello_front rfl h.vers hh.random hh.sessionId
      hh.suites hh.compression] at hw
    cases hw
    rw [hne]
    rfl
  · obtain ⟨header, hl, hfront⟩ := clientHelloEncoding_eq_front parseIP h hne
    rw [hfront, readHello_front hl h.vers hh.random hh.sessionId hh.suites hh.compression,
      readExtensions_vec16] at hw
    split_ifs at hw
    · cases hw
      rfl
    · cases hw

/-! ## The types that are listed before sealing -/

section Deps

variable (d : Deps)

/-- The type that is listed for an extension is that of its raw extension, or 0. -/
lemma listedType_cases (e : Ext) :
    listedType d e = 0 ∨ (e.rawExt d.parseIP).map (·.extType) = some (listedType d e) := by
  unfold listedType
  cases h : e.read d.parseIP 2000 with
  | error err => exact .inl rfl
  | ok b =>
    obtain ⟨-, rfl, -⟩ := (Ext.read_eq_ok d.parseIP).mp h
    rcases e.wire_cases d.parseIP with hw | ⟨t, data, hw⟩
    · left
      rw [hw]
    · right
      have hraw : e.rawExt d.parseIP = some ⟨t, data⟩ := by
        rw [Ext.rawExt, hw, rawExtOf_extFrame]
      rw [hraw, hw]
      exact congrArg some (ofNat_u16 t).symm

lemma rawExt_of_listed {e : Ext} (h : compressible (listedType d e) = true) :
    (e.rawExt d.parseIP).map (·.extType) = some (listedType d e) := by
  refine (listedType_cases d e).resolve_left fun h0 => ?_
  rw [h0] at h
  exact absurd h (by decide)

/-- An extension with caches is not referred to. -/
lemma Ext.Refresh.eq_of_listed {e e' : Ext} (h : e.Refresh e')
    (hc : compressible (listedType d e) = true) : e' = e := by
  have hraw := rawExt_of_listed d hc
  have hother : ∀ t, compressible t = false → (∀ x, e.rawExt d.parseIP = some x → x.extType = t) →
      e' = e := by
    intro t ht hx
    obtain ⟨x, hx', hxt⟩ := map_eq_some_iff.mp hraw
    rw [← hxt, hx x hx', ht] at hc
    cases hc
  have hpsk : ∀ ids binders x, rawExtOf (pskWire ids binders) = some x →
      x.extType = extensionPreSharedKey := by
    intro ids binders x hx
    unfold pskWire at hx
    split_ifs at hx
    · cases hx
    · rw [rawExtOf_extFrame] at hx
      cases hx
      rfl
  cases e with
  | greaseECH g =>
    refine hother extensionEncryptedClientHello (by decide) fun x hx => ?_
    rw [Ext.rawExt, Ext.wire, rawExtOf_extFrame] at hx
    cases hx
    rfl
  | utlsPadding p =>
    refine hother utlsExtensionPadding (by decide) fun x hx => ?_
    simp only [Ext.rawExt, Ext.wire] at hx
    split_ifs at hx
    · rw [rawExtOf_extFrame] at hx
      cases hx
      rfl
    · cases hx
  | utlsPreSharedKey p => exact hother extensionPreSharedKey (by decide) fun x hx => hpsk _ _ x hx
  | _ => exact h.filled trivial rfl

/-- The extensions that are referred to stay as they are. -/
def ListedKept (e e' : Ext) : Prop := compressible (listedType d e) = true → e' = e

/-- The listed types that the inner hello refers to are found in the outer hello in their order. -/
theorem listed_sublist {l l' : List Ext} (h : List.Forall₂ (ListedKept d) l l') :
    ((l.map (listedType d)).filter compressible).Sublist
      ((rawExts d.parseIP l').map (·.extType)) := by
  induction h with
  | nil => exact Sublist.slnil
  | @cons e e' l l' hee _ ih =>
    by_cases hc : compressible (listedType d e) = true
    · obtain rfl := hee hc
      obtain ⟨x, hx, hxt⟩ := map_eq_some_iff.mp (rawExt_of_listed d hc)
      rw [map_cons, filter_cons_of_pos hc, rawExts, filterMap_cons_some hx, map_cons, hxt]
      exact ih.cons_cons _
    · rw [map_cons, filter_cons_of_neg hc, rawExts]
      cases hx : e'.rawExt d.parseIP with
      | none =>
        rw [filterMap_cons_none hx]
        exact ih
      | some x =>
        rw [filterMap_cons_some hx]
        exact ih.cons _

end Deps

/-- The members of a sublist, in a list without repetitions. -/
lemma filter_contains_of_sublist {l1 l2 : List UInt16} (hs : l1.Sublist l2) (hn : l2.Nodup) :
    l2.filter (fun t => l1.contains t) = l1 := by
  induction hs with
  | slnil => rfl
  | @cons l1 l2 a hs ih =>
    rw [nodup_cons] at hn
    have ha : ¬(l1.contains a = true) := by simpa using fun h => hn.1 (hs.subset h)
    rw [filter_cons_of_neg ha, ih hn.2]
  | @cons_cons l1 l2 a hs ih =>
    rw [nodup_cons] at hn
    have hcongr : l2.filter (fun t => (a :: l1).contains t) = l2.filter fun t => l1.contains t := by
      refine filter_congr fun t ht => ?_
      have hne : t ≠ a := by
        rintro rfl
        exact hn.1 ht
      simp [hne]
    rw [filter_cons_of_pos (by simp), hcongr, ih hn.2]

/-- The types the inner hello refers to, as a test. -/
def referredType (outerExts : List UInt16) (t : UInt16) : Bool :=
  (ClientHelloMsg.echOuterTypes outerExts).contains t

lemma echOuterTypes_idem (l : List UInt16) : echOuterTypes (echOuterTypes l) = echOuterTypes l := by
  simp [echOuterTypes]

lemma outerTypes_referredType {outerExts : List UInt16} {l : List RawExtension}
    (hs : (echOuterTypes outerExts).Sublist (l.map (·.extType))) (hn : (l.map (·.extType)).Nodup) :
    outerTypes (referredType outerExts) l = echOuterTypes outerExts :=
  filter_contains_of_sublist hs hn

/-- An encoding depends on the types that are passed only through those that it refers to. -/
lemma EncodedParts.congr {m : ClientHelloMsg} {outerExts outerExts' : List UInt16} {e : Bytes}
    (hp : EncodedParts m outerExts e) (h : echOuterTypes outerExts' = echOuterTypes outerExts) :
    EncodedParts m outerExts' e := by
  have hexts : m.innerRawExts outerExts' = m.innerRawExts outerExts := by
    simp only [innerRawExts, h]
  refine ⟨hp.random, hp.suites, hp.compression, ?_, ?_, hp.binders, ?_, ?_⟩
  · rw [hexts]
    exact hp.data
  · rw [h]
    exact hp.types
  · rw [hexts]
    exact hp.parsed
  · rw [hexts]
    exact hp.size

/-! ## Other data in the ECH extension -/

namespace ClientHelloMsg

/-- Every extension of a hello that was accepted is accepted on its own. -/
lemma accepted_at_of_applyExtensions {m r : ClientHelloMsg} {l : List RawExtension}
    (h : m.applyExtensions l = some r)
    (hname : extensionServerName ∈ l.map (·.extType) → m.serverName = []) :
    ∀ pre e post, l = pre ++ e :: post → (applyExtension {} e post.isEmpty).isSome = true := by
  induction l generalizing m with
  | nil => simp
  | cons e0 l ih =>
    obtain ⟨hnodup, -⟩ := (applyExtensions_types h).2
    rw [map_cons, nodup_cons] at hnodup
    obtain ⟨-, m1, h1, h⟩ := applyExtensions_cons h
    intro pre e post hsplit
    cases pre with
    | nil =>
      obtain ⟨rfl, rfl⟩ := List.cons.inj hsplit
      have hsame := isSome_applyExtension {} { m with extensions := m.extensions ++ [e0.extType] } e0
        l.isEmpty l.isEmpty (fun ht => (hname (by simp [ht])).symm) fun _ => rfl
      rw [hsame, h1]
      rfl
    | cons e1 pre =>
      obtain ⟨rfl, hl⟩ := List.cons.inj hsplit
      refine ih h (fun hmem => ?_) pre e post hl
      have hne : e0.extType ≠ extensionServerName := by
        intro ht
        rw [← ht] at hmem
        exact hnodup.1 hmem
      have hframe : m1.serverName = m.serverName := (applyExtension_frame h1).serverName hne
      rw [hframe]
      exact hname (mem_cons_of_mem _ hmem)

end ClientHelloMsg

/-- The extensions with other data in the ECH extension. -/
def withEchData (z : Bytes) (l : List RawExtension) : List RawExtension :=
  l.map fun x => if x.extType = extensionEncryptedClientHello then ⟨x.extType, z⟩ else x

lemma types_withEchData (z : Bytes) (l : List RawExtension) :
    (withEchData z l).map (·.extType) = l.map (·.extType) := by
  rw [withEchData, List.map_map]
  refine map_congr_left fun x _ => ?_
  simp only [Function.comp_apply]
  split_ifs <;> rfl

/-- The inner hello does not refer to the ECH extension. -/
lemma referredExts_withEchData (q : UInt16 → Bool) (z : Bytes) (l : List RawExtension) :
    referredExts q (withEchData z l) = referredExts q l := by
  induction l with
  | nil => rfl
  | cons x l ih =>
    simp only [referredExts, withEchData, map_cons] at ih ⊢
    by_cases hx : x.extType = extensionEncryptedClientHello
    · have hno : ∀ (y : RawExtension) (ys : List RawExtension),
          y.extType = extensionEncryptedClientHello →
          (y :: ys).filter (fun e => compressible e.extType && q e.extType) =
            ys.filter fun e => compressible e.extType && q e.extType := by
        intro y ys hy
        refine filter_cons_of_neg ?_
        rw [hy]
        simp [show compressible extensionEncryptedClientHello = false by decide]
      rw [if_pos hx, hno ⟨x.extType, z⟩ _ hx, hno x _ hx, ih]
    · rw [if_neg hx, filter_cons, filter_cons, ih]

lemma expandedExts_withEchData (m : ClientHelloMsg) (q : UInt16 → Bool) (z : Bytes)
    (l : List RawExtension) : m.expandedExts q (withEchData z l) = m.expandedExts q l := by
  have htypes : outerTypes q (withEchData z l) = outerTypes q l := by
    rw [outerTypes, types_withEchData, outerTypes]
  rw [expandedExts, referredExts_withEchData, htypes, expandedExts]

/-- A server that accepts a hello accepts it with other data in the ECH extension. -/
lemma isSome_applyExtensions_withEchData {m0 m r : ClientHelloMsg} {l : List RawExtension}
    (h : m0.applyExtensions l = some r) (hm0 : m0.serverName = []) (hm : m.serverName = [])
    (hext : m.extensions = []) (z : Bytes) :
    (m.applyExtensions (withEchData z l)).isSome = true := by
  have hacc := accepted_at_of_applyExtensions h fun _ => hm0
  have htypes := types_withEchData z l
  refine isSome_applyExtensions ?_ (fun x _ hx => ?_) (fun _ => hm)
    fun pre e post hsplit => ?_
  · rw [htypes]
    exact (applyExtensions_types h).2.1
  · rw [hext] at hx
    cases hx
  · obtain ⟨pre', rest, hl, -, hrest⟩ := map_eq_append_iff.mp hsplit
    obtain ⟨e', post', rfl, he, rfl⟩ := map_eq_cons_iff.mp hrest
    have hempty : (post'.map fun x => if x.extType = extensionEncryptedClientHello then
        (⟨x.extType, z⟩ : RawExtension) else x).isEmpty = post'.isEmpty := by
      simp
    rw [hempty, ← he]
    split_ifs with hech
    · rw [hech, applyExtension_ech]
      rfl
    · exact hacc pre' e' post' hl

section ParseIP

variable {parseIP : GoString → Bool}

lemma rawExt_generic (t : UInt16) (data : Bytes) :
    (Ext.generic t data).rawExt parseIP = some ⟨t, data⟩ := by
  rw [Ext.rawExt, Ext.wire, rawExtOf_extFrame]

lemma rawExts_set {exts : List Ext} {i : Nat} (hi : i < exts.length) (t : UInt16) (data : Bytes) :
    rawExts parseIP (exts.set i (.generic t data)) =
      rawExts parseIP (exts.take i) ++ ⟨t, data⟩ :: rawExts parseIP (exts.drop (i + 1)) := by
  rw [rawExts, set_eq_take_append_cons_drop, if_pos hi, filterMap_append,
    filterMap_cons_some (rawExt_generic t data)]
  rfl

lemma mem_rawExts_set {exts : List Ext} {i : Nat} (hi : i < exts.length) (t : UInt16) (data : Bytes) :
    ⟨t, data⟩ ∈ rawExts parseIP (exts.set i (.generic t data)) := by
  rw [rawExts_set hi]
  simp

/-- The list with a generic ECH extension, and with another one. -/
lemma rawExts_set_ech {exts : List Ext} {i : Nat} (hi : i < exts.length) {data : Bytes}
    (hn : ((rawExts parseIP (exts.set i (.generic extensionEncryptedClientHello data))).map
      (·.extType)).Nodup) (z : Bytes) :
    rawExts parseIP (exts.set i (.generic extensionEncryptedClientHello z)) =
      withEchData z (rawExts parseIP (exts.set i (.generic extensionEncryptedClientHello data))) := by
  rw [rawExts_set hi] at hn ⊢
  rw [rawExts_set hi, withEchData, map_append, map_cons, if_pos rfl]
  rw [map_append, map_cons, nodup_append] at hn
  obtain ⟨-, hpost, hdisjoint⟩ := hn
  rw [nodup_cons] at hpost
  have hpre' : ∀ x ∈ rawExts parseIP (exts.take i), x.extType ≠ extensionEncryptedClientHello := by
    intro x hx
    exact hdisjoint _ (List.mem_map_of_mem hx) _ (by simp)
  have hpost' : ∀ x ∈ rawExts parseIP (exts.drop (i + 1)),
      x.extType ≠ extensionEncryptedClientHello := by
    intro x hx ht
    have hmem : x.extType ∈ (rawExts parseIP (exts.drop (i + 1))).map (·.extType) :=
      List.mem_map_of_mem hx
    rw [ht] at hmem
    exact hpost.1 hmem
  have hkeep : ∀ l : List RawExtension, (∀ x ∈ l, x.extType ≠ extensionEncryptedClientHello) →
      l.map (fun x => if x.extType = extensionEncryptedClientHello then
        (⟨x.extType, z⟩ : RawExtension) else x) = l := by
    intro l hl
    conv_rhs => rw [← List.map_id l]
    exact map_congr_left fun x hx => if_neg (hl x hx)
  rw [hkeep _ hpre', hkeep _ hpost']

end ParseIP

/-! ## An outer hello that a server has read -/

/-- A server has read `outer`, with the raw extensions `l`. -/
structure ReadsAs (outer : ClientHelloMsg) (sessionId : Bytes) (l : List RawExtension) : Prop where
  original : ∃ raw, outer.original = some raw ∧ extractRawExtensions raw = some l
  sid : outer.sessionId = sessionId
  short : sessionId.length < 256
  nodup : (l.map (·.extType)).Nodup
  accepted : ∀ x ∈ l, x.extType ≠ extensionServerName → x.extType ≠ extensionPreSharedKey →
    ∀ m₁ last, (ClientHelloMsg.applyExtension m₁ x last).isSome = true
  block : (l.flatMap rawExtensionBytes).length < 65536

section ParseIP

variable {parseIP : GoString → Bool} {h : ClientHelloMsg} {exts : List Ext} (hh : h.HeaderFits)

include hh

lemma readsAs_of_unmarshal (hne : exts ≠ []) {outer : ClientHelloMsg}
    (ho : unmarshal (clientHelloEncoding parseIP h exts) = some outer) :
    ReadsAs outer h.sessionId (rawExts parseIP exts) := by
  obtain ⟨hb, hextract, happly⟩ := unmarshal_clientHelloEncoding_eq_some hh hne ho
  obtain ⟨hheader, horiginal⟩ := applyExtensions_header happly
  have hsid : outer.sessionId = h.sessionId := congrArg (fun x => x.2.2.1) hheader
  exact ⟨⟨_, horiginal, hextract⟩, hsid, hh.sessionId, (applyExtensions_types happly).2.1,
    accepted_of_applyExtensions happly, hb⟩

/-- A server that reads a hello also reads it with other data of the same length in the ECH
extension. -/
lemma readsAs_withEchData {i : Nat} (hi : i < exts.length) {data z : Bytes} {outer : ClientHelloMsg}
    (hz : z.length = data.length) (ho : unmarshal (clientHelloEncoding parseIP h
      (exts.set i (.generic extensionEncryptedClientHello data))) = some outer) :
    ∃ outer', unmarshal (clientHelloEncoding parseIP h
        (exts.set i (.generic extensionEncryptedClientHello z))) = some outer' ∧
      ReadsAs outer' h.sessionId (withEchData z (rawExts parseIP
        (exts.set i (.generic extensionEncryptedClientHello data)))) := by
  obtain ⟨hb, -, happly⟩ := unmarshal_clientHelloEncoding_eq_some hh (ne_nil_of_mem (mem_set hi _)) ho
  have hset := rawExts_set_ech hi (applyExtensions_types happly).2.1 z
  have hb' : ((rawExts parseIP (exts.set i (.generic extensionEncryptedClientHello z))).flatMap
      rawExtensionBytes).length < 65536 := by
    rw [rawExts_set hi] at hb ⊢
    simp only [flatMap_append, flatMap_cons, length_append, rawExtensionBytes,
      length_extFrame] at hb ⊢
    omega
  have hsome := isSome_applyExtensions_withEchData happly rfl
    (m := start (clientHelloEncoding parseIP h
      (exts.set i (.generic extensionEncryptedClientHello z))) h.vers h.random h.sessionId
      h.cipherSuites h.compressionMethods) rfl rfl z
  rw [← hset, ← unmarshal_clientHelloEncoding hh (ne_nil_of_mem (mem_set hi _)) hb'] at hsome
  obtain ⟨outer', ho'⟩ := isSome_iff_exists.mp hsome
  refine ⟨outer', ho', ?_⟩
  rw [← hset]
  exact readsAs_of_unmarshal hh (ne_nil_of_mem (mem_set hi _)) ho'

end ParseIP

end Utls
