import Utls.ReadBuffers

/-!
# The codecs of the extensions

The extensions whose `Write` parses a body: what `Read` writes of a value is a frame whose body `Write`
reads back, up to the placeholder that takes the place of GREASE values.
-/

namespace Utls

open Wire List

namespace ExtKind

/-- The values the wire format of an extension holds: lists that are not empty where `Write` asks
for it, names of 1 to 255 bytes, and lengths that fit their fields. -/
inductive Codec : ExtKind → Ext → Prop
  | supportedCurves {l : List UInt16} (hne : l ≠ []) (hlen : 2 + 2 * l.length < 65536) :
      Codec .supportedCurves (.supportedCurves l)
  | supportedPoints {l : Bytes} (hne : l ≠ []) (hlen : l.length < 256) :
      Codec .supportedPoints (.supportedPoints l)
  | signatureAlgorithms {l : List UInt16} (hne : l ≠ []) (hlen : 2 + 2 * l.length < 65536) :
      Codec .signatureAlgorithms (.signatureAlgorithms l)
  | signatureAlgorithmsCert {l : List UInt16} (hne : l ≠ []) (hlen : 2 + 2 * l.length < 65536) :
      Codec .signatureAlgorithmsCert (.signatureAlgorithmsCert l)
  | alpn {l : List GoString} (hne : l ≠ []) (hl : ∀ n ∈ l, ShortName n)
      (hlen : 2 + (l.map fun n => 1 + n.length).sum < 65536) : Codec .alpn (.alpn l)
  | applicationSettings {l : List GoString} (hne : l ≠ []) (hl : ∀ n ∈ l, ShortName n)
      (hlen : 2 + (l.map fun n => 1 + n.length).sum < 65536) :
      Codec .applicationSettings (.applicationSettings l)
  | applicationSettingsNew {l : List GoString} (hne : l ≠ []) (hl : ∀ n ∈ l, ShortName n)
      (hlen : 2 + (l.map fun n => 1 + n.length).sum < 65536) :
      Codec .applicationSettingsNew (.applicationSettingsNew l)
  | utlsCompressCert {l : List UInt16} (hlen : 2 * l.length < 256) :
      Codec .utlsCompressCert (.utlsCompressCert l)
  | pskKeyExchangeModes {l : Bytes} (hlen : l.length < 256) :
      Codec .pskKeyExchangeModes (.pskKeyExchangeModes l)
  | supportedVersions {l : List UInt16} (hne : l ≠ []) (hlen : 2 * l.length < 256) :
      Codec .supportedVersions (.supportedVersions l)
  | fakeRecordSizeLimit (limit : UInt16) :
      Codec .fakeRecordSizeLimit (.fakeRecordSizeLimit limit)
  | fakeTokenBinding (major minor : UInt8) {params : Bytes} (hlen : params.length < 256) :
      Codec .fakeTokenBinding (.fakeTokenBinding major minor params)
  | fakeDelegatedCredentials {l : List UInt16} (hne : l ≠ []) (hlen : 2 + 2 * l.length < 65536) :
      Codec .fakeDelegatedCredentials (.fakeDelegatedCredentials l)
  | trustAnchors {l : List Bytes} (hl : ∀ n ∈ l, ShortName n)
      (hlen : 2 + (l.map fun n => 1 + n.length).sum < 65536) :
      Codec .trustAnchors (.trustAnchors ⟨l, false, none⟩)

end ExtKind

/-- The value `Write` makes of a value that was written out: GREASE values become the placeholder in
the two lists whose method normalises them. -/
def Ext.unGREASE : Ext → Ext
  | supportedCurves l => supportedCurves (l.map unGREASEUint16)
  | supportedVersions l => supportedVersions (l.map unGREASEUint16)
  | e => e

/-- What is written of such a value: a frame with a complete body of its kind, without an error. -/
structure Ext.Framed (parseIP : GoString → Bool) (k : ExtKind) (e : Ext) (body : Bytes) : Prop where
  wire : e.wire parseIP = extFrame e.typeId body
  fits : body.length < 65536
  body : k.Body e.unGREASE body
  error : e.readError parseIP = none
  exact : e.exact = true
  stored : e.skipped parseIP = none

lemma ExtKind.Codec.framed (parseIP : GoString → Bool) {k : ExtKind} {e : Ext} (h : k.Codec e) :
    ∃ body, e.Framed parseIP k body := by
  cases h with
  | supportedCurves hne hlen | signatureAlgorithms hne hlen | signatureAlgorithmsCert hne hlen
  | fakeDelegatedCredentials hne hlen =>
    refine ⟨_, rfl, ?_, ?_, rfl, rfl, rfl⟩
    · rwa [length_vec16, length_u16s]
    · constructor
      · exact hne
      · rw [length_u16s]
        omega
  | alpn hne hl hlen | applicationSettings hne hl hlen | applicationSettingsNew hne hl hlen =>
    refine ⟨_, rfl, ?_, ?_, rfl, rfl, rfl⟩
    · rwa [length_vec16, length_protocolNames]
    · constructor
      · exact hne
      · exact hl
      · rw [length_protocolNames]
        omega
  | supportedPoints hne hlen =>
    refine ⟨_, rfl, ?_, .supportedPoints hne hlen, rfl, rfl, rfl⟩
    rw [length_vec8]
    omega
  | pskKeyExchangeModes hlen =>
    refine ⟨_, rfl, ?_, .pskKeyExchangeModes hlen, if_neg (by omega), rfl, rfl⟩
    rw [length_vec8]
    omega
  | utlsCompressCert hlen =>
    refine ⟨_, rfl, ?_, .utlsCompressCert (by rwa [length_u16s]), if_neg (by omega), rfl, rfl⟩
    rw [length_vec8, length_u16s]
    omega
  | supportedVersions hne hlen =>
    refine ⟨_, rfl, ?_, .supportedVersions hne (by rwa [length_u16s]), if_neg (by omega), rfl, rfl⟩
    rw [length_vec8, length_u16s]
    omega
  | fakeRecordSizeLimit limit =>
    exact ⟨_, rfl, by rw [length_u16]; decide, .fakeRecordSizeLimit limit, rfl, rfl, rfl⟩
  | fakeTokenBinding major minor hlen =>
    refine ⟨_, rfl, ?_, .fakeTokenBinding major minor hlen, rfl, rfl, rfl⟩
    simp only [length_cons, length_vec8]
    omega
  | @trustAnchors l hl hlen =>
    have hnames : (protocolNames l).length = (l.map fun n => 1 + n.length).sum :=
      length_protocolNames l
    have hcount : (protocolNames l).length + 6 = (⟨l, false, none⟩ : TrustAnchorsExtension).len := by
      rw [hnames, TrustAnchorsExtension.len, Nat.add_comm]
    refine ⟨vec16 (protocolNames l), rfl, ?_, .trustAnchors hl (by omega), if_neg ?_,
      beq_iff_eq.mpr hcount, if_neg (not_lt.mpr hcount.ge)⟩
    · rwa [length_vec16, hnames]
    · omega

/-- `Read` writes the type, the length of the body and the body at the front of any buffer that is
large enough, and `Write` on the body gives the value back, up to the normalisation of GREASE. -/
theorem codec_round_trip (parseIP : GoString → Bool) {k : ExtKind} {e : Ext} (he : k.Codec e)
    {b : Bytes} (hb : e.len parseIP ≤ b.length) :
    ∃ body, body.length < 65536 ∧
      e.readInto parseIP b =
        some ⟨e.len parseIP, extFrame e.typeId body ++ b.drop (e.len parseIP), none⟩ ∧
      k.write body = (body.length, .ok e.unGREASE) := by
  obtain ⟨body, h⟩ := he.framed parseIP
  have hlen : (e.wire parseIP).length = e.len parseIP := by
    refine Ext.length_wire parseIP ?_ h.exact
    rintro p rfl
    cases he
  refine ⟨body, h.fits, ?_, ?_⟩
  · rw [Ext.readInto_written h.exact h.stored h.error (by omega), hlen, h.wire]
  · have hparse := h.body.parse []
    rw [append_nil] at hparse
    exact ExtKind.write_eq_ok.mpr ⟨rfl, [], hparse⟩

/-- The round trip of a list with a GREASE version, in a buffer with one byte to spare. -/
theorem codec_round_trip_versions :
    ∃ body, body.length < 65536 ∧
      (Ext.supportedVersions [0x3a3a, 0x0304]).readInto (fun _ => false) (List.replicate 10 0) =
        some ⟨9, extFrame extensionSupportedVersions body ++ [0], none⟩ ∧
      ExtKind.supportedVersions.write body =
        (body.length, .ok (.supportedVersions [0x0a0a, 0x0304])) :=
  codec_round_trip (fun _ => false) (.supportedVersions (by decide) (by decide)) (by decide)

end Utls
