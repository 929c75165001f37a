import Utls.EchAad
import Utls.EchBinder
import Utls.HelloRetry

/-!
# The inner transcript

With ECH both sides hash the inner hello.  A server opens the payload of the hello it received and
decodes the result; the client never sees those bytes, and `echTranscriptMsg` makes them once more
from the encoded inner hello that it keeps and the outer hello that it sent.

The two agree because the client decodes the encoded hello right after it is sealed, against the
final `Hello.Raw` (`storeExpanded`).  If a server can decode it, then so could the client
(`Remembers`), and `echTranscriptMsg` goes through the same decoding (`echTranscriptMsg_eq_ok`).
The payload opens because a server that puts zeros in its place computes the additional data of the
sealing (`SealedAt.opens`).  `first_build_sent` collects what this needs of the first hello; the
second one, after a HelloRetryRequest, is in `Utls.EchRetry`.
-/

namespace Utls

open Wire Exec List Option Function ClientHelloMsg UtlsPreSharedKeyExtension

variable {inner outer : ClientHelloMsg} {ech : EchClientContext} {i : Nat} {outerExts : List UInt16}
  {bytes raw : Bytes} {e : UtlsPreSharedKeyExtension}

/-! ## What a server obtains -/

/-- The bytes of the inner hello that a server obtains from a hello and its decrypted payload. -/
def serverInner (raw encoded : Bytes) : Option Bytes :=
  (ClientHelloMsg.unmarshal raw).bind fun outer =>
    (decodeInnerClientHello outer encoded).bind fun inner => inner.marshal

/-- The decoding reads the session id and the bytes of the outer hello only. -/
lemma decodeInnerClientHello_congr {outer' : ClientHelloMsg}
    (hs : outer'.sessionId = outer.sessionId) (ho : outer'.original = outer.original)
    (encoded : Bytes) :
    decodeInnerClientHello outer' encoded = decodeInnerClientHello outer encoded := by
  simp only [decodeInnerClientHello, decodeInnerClientHelloWithRaw, hs, ho]

variable {encoded : Bytes} {c c' : UConn}

/-- The decoded hello is marshalled to the bytes it was read from, and there are some. -/
lemma marshal_of_decodeWithRaw {recon : Bytes}
    (h : decodeInnerClientHelloWithRaw outer encoded = some (inner, recon)) :
    inner.marshal = some recon ∧ 0 < recon.length := by
  obtain ⟨p, -, h⟩ := bind_eq_some_iff.mp h
  obtain ⟨outerExts, -, h⟩ := bind_eq_some_iff.mp h
  obtain ⟨recon', -, h⟩ := bind_eq_some_iff.mp h
  obtain ⟨inner', hread, h⟩ := bind_eq_some_iff.mp h
  split_ifs at h
  cases h
  obtain ⟨header, rest, hh, -, -, -, -, hbytes, horiginal, -⟩ := unmarshal_eq_some hread
  refine ⟨by rw [marshal, horiginal], ?_⟩
  rw [hbytes, front, length_append]
  omega

/-- The parts of a successful decoding of the server. -/
lemma serverInner_eq_some (h : serverInner raw encoded = some bytes) :
    ∃ outer inner, unmarshal raw = some outer ∧
      decodeInnerClientHelloWithRaw outer encoded = some (inner, bytes) := by
  obtain ⟨outer, houter, h⟩ := bind_eq_some_iff.mp h
  obtain ⟨inner, hinner, hmarshal⟩ := bind_eq_some_iff.mp h
  obtain ⟨⟨inner', recon⟩, hdecode, rfl⟩ := map_eq_some_iff.mp hinner
  obtain rfl : recon = bytes :=
    some.inj ((marshal_of_decodeWithRaw hdecode).1.symm.trans hmarshal)
  exact ⟨outer, inner', houter, hdecode⟩

lemma serverInner_pos (h : serverInner raw encoded = some bytes) : 0 < bytes.length := by
  obtain ⟨outer, inner, -, hdecode⟩ := serverInner_eq_some h
  exact (marshal_of_decodeWithRaw hdecode).2

/-- The body of an outer ECH extension with zeros in the place of the payload at its end. -/
def zeroPayload (ext payload : Bytes) : Bytes :=
  ext.take (ext.length - payload.length) ++ List.replicate payload.length 0

/-- The additional data that a server computes from a hello with this ECH extension: the hello
without its header, with zeros in the place of the payload. -/
def outerAad (raw ext payload : Bytes) : Option Bytes :=
  (extractRawExtensions raw).map fun l =>
    (raw.take (raw.length - (l.flatMap rawExtensionBytes).length) ++
      (withEchData (zeroPayload ext payload) l).flatMap rawExtensionBytes).drop 4

section Aad

variable {parseIP : GoString → Bool} {exts : List Ext} {useKey : Bool}
  {payload data zeroed : Bytes}

lemma zeroPayload_outerECHExt (hdata : outerECHExt ech useKey payload = some data)
    (hzeroed : outerECHExt ech useKey (replicate payload.length 0) = some zeroed) :
    zeroPayload data payload = zeroed := by
  rw [zeroPayload, outerECHExt_eq_some hdata, outerECHExt_eq_some hzeroed, length_replicate,
    length_append, Nat.add_sub_cancel, take_left]

/-- The bytes in front of the extensions depend on the length of the extensions only. -/
lemma clientHelloEncoding_eq_append (h : ClientHelloMsg) (hne : exts ≠ []) {block : Bytes}
    (hb : (rawExts parseIP exts).flatMap rawExtensionBytes = block) :
    clientHelloEncoding parseIP h exts =
      1 :: (u24 ((helloHeader h).length + (2 + block.length)) ++ (helloHeader h ++ u16 block.length)) ++
        block := by
  have hlen : exts.length ≠ 0 := fun h => hne (length_eq_zero_iff.mp h)
  simp only [clientHelloEncoding, extensionBlock, if_neg hlen, flatMap_wire, hb, vec16, length_append,
    length_u16, append_assoc, cons_append]

/-- What a server computes from a hello with an outer ECH extension. -/
lemma outerAad_encoding {h : ClientHelloMsg} (hi : i < exts.length)
    (hdata : outerECHExt ech useKey payload = some data)
    (hzeroed : outerECHExt ech useKey (replicate payload.length 0) = some zeroed)
    (hextract : extractRawExtensions (clientHelloEncoding parseIP h
      (exts.set i (.generic extensionEncryptedClientHello data))) =
        some (rawExts parseIP (exts.set i (.generic extensionEncryptedClientHello data))))
    (hnodup : ((rawExts parseIP
      (exts.set i (.generic extensionEncryptedClientHello data))).map (·.extType)).Nodup) :
    outerAad (clientHelloEncoding parseIP h
        (exts.set i (.generic extensionEncryptedClientHello data))) data payload =
      some ((clientHelloEncoding parseIP h
        (exts.set i (.generic extensionEncryptedClientHello zeroed))).drop 4) := by
  have hsize : ((rawExts parseIP (exts.set i (.generic extensionEncryptedClientHello zeroed))).flatMap
      rawExtensionBytes).length = ((rawExts parseIP
        (exts.set i (.generic extensionEncryptedClientHello data))).flatMap rawExtensionBytes).length := by
    have hlen : zeroed.length = data.length := by
      rw [outerECHExt_eq_some hdata, outerECHExt_eq_some hzeroed]
      simp
    simp [rawExts_set hi, rawExtensionBytes, hlen]
  have hne : ∀ e, exts.set i e ≠ [] := fun e => ne_nil_of_mem (mem_set hi e)
  rw [outerAad, hextract, map_some, zeroPayload_outerECHExt hdata hzeroed,
    ← rawExts_set_ech hi hnodup, clientHelloEncoding_eq_append h (hne _) rfl,
    clientHelloEncoding_eq_append h (hne _) rfl, hsize, length_append, Nat.add_sub_cancel, take_left]

end Aad

/-- If a server can decode the inner hello of the context from `raw`, then the client has done so
as well. -/
def Remembers (raw : Bytes) (ctx : EchClientContext) : Prop :=
  ∀ bytes, serverInner raw ctx.encodedInnerHello = some bytes → 0 < ctx.expandedInnerHello.length

lemma remembers_storeExpanded (raw : Bytes) (ech : EchClientContext) :
    Remembers raw (storeExpanded raw ech) := by
  intro bytes h
  rw [(storeExpanded_spec raw ech).2] at h
  have hstored : storeExpanded raw ech = { ech with expandedInnerHello := bytes } := by
    unfold storeExpanded
    unfold serverInner at h
    rw [h]
  rw [hstored]
  exact serverInner_pos h

section Deps

variable (d : Deps)

variable {c c' : UConn} {ctx : EchClientContext}

/-- The client hashes what the server obtains, if it decodes with the hello that was sent. -/
theorem echTranscriptMsg_eq_ok (ho : outer.original = some raw)
    (hs : ∀ m, unmarshal raw = some m → m.sessionId = outer.sessionId)
    (hr : Remembers raw ctx) (h : serverInner raw ctx.encodedInnerHello = some bytes) (c : UConn) :
    echTranscriptMsg d outer ctx c = .ok bytes c := by
  have hexpanded := hr bytes h
  obtain ⟨m, inner, hm, hdecode⟩ := serverInner_eq_some h
  have hmarshal := (marshal_of_decodeWithRaw hdecode).1
  have hencoded : 0 < ctx.encodedInnerHello.length := by
    by_contra hzero
    obtain hnil : ctx.encodedInnerHello = [] := length_eq_zero_iff.mp (by omega)
    rw [hnil] at hdecode
    cases hdecode
  obtain ⟨-, -, -, -, -, -, -, -, hmo, -⟩ := unmarshal_eq_some hm
  have hdecode' : decodeInnerClientHello outer ctx.encodedInnerHello = some inner := by
    rw [decodeInnerClientHello_congr (hs m hm).symm (ho.trans hmo.symm), decodeInnerClientHello,
      hdecode]
    rfl
  unfold echTranscriptMsg
  rw [if_pos ⟨hexpanded, hencoded⟩, hdecode', run_bind]
  change ofOption errBuilder inner.marshal c = _
  rw [hmarshal]
  rfl

/-! ## The hello that is sent -/

/-- The decrypted payload of a hello, for a server with the keys of the context: the additional data
is computed from the hello. -/
def serverOpens (ctx : EchClientContext) (n : Nat) (raw : Bytes) : Option Bytes :=
  (ClientHelloMsg.unmarshal raw).bind fun outer =>
    (parseOuterECHExt outer.encryptedClientHello).bind fun sealed =>
      (outerAad raw outer.encryptedClientHello sealed.payload).bind fun aad =>
        d.hpkeOpen ctx.aeadID ctx.hpkeContext.secret n aad sealed.payload

namespace SealedAt

variable {d} {useKey : Bool} {n : Nat} {payload : Bytes}

/-- What a server sees in a sealed hello. -/
lemma unmarshalled (h : SealedAt d c i useKey ctx n payload) (hi : i < c.exts.length)
    (hh : c.hello.HeaderFits) (ho : unmarshal c.raw = some outer) :
    ∃ data exts, outerECHExt ctx useKey payload = some data ∧
      exts = c.exts.set i (.generic extensionEncryptedClientHello data) ∧
      c.raw = clientHelloEncoding d.parseIP c.hello exts ∧
      extractRawExtensions c.raw = some (rawExts d.parseIP exts) ∧
      (start c.raw c.hello.vers c.hello.random c.hello.sessionId c.hello.cipherSuites
        c.hello.compressionMethods).applyExtensions (rawExts d.parseIP exts) = some outer := by
  obtain ⟨data, hdata, horiginal⟩ := h.raw
  have hraw : c.raw = clientHelloEncoding d.parseIP c.hello
      (c.exts.set i (.generic extensionEncryptedClientHello data)) := by
    rw [UConn.raw, horiginal, getD_some]
  rw [hraw] at ho ⊢
  obtain ⟨-, hextract, happly⟩ :=
    unmarshal_clientHelloEncoding_eq_some hh (ne_nil_of_mem (mem_set hi _)) ho
  exact ⟨data, _, hdata, rfl, rfl, hextract, happly⟩

/-- A server that opens the payload under the sequence number with which it was sealed gets the
encoded inner hello. -/
lemma opens (h : SealedAt d c i useKey ctx n payload) (hi : i < c.exts.length)
    (hh : c.hello.HeaderFits) (ho : unmarshal c.raw = some outer) :
    serverOpens d ctx n c.raw = some ctx.encodedInnerHello := by
  obtain ⟨data, _, hdata, rfl, hraw, hextract, happly⟩ := h.unmarshalled hi hh ho
  obtain ⟨zeroed, hzeroed, hpayload⟩ := h.sealed
  have hmem : ⟨extensionEncryptedClientHello, data⟩ ∈ rawExts d.parseIP
      (c.exts.set i (.generic extensionEncryptedClientHello data)) :=
    mem_filterMap.mpr ⟨_, mem_set hi _, rawExtOf_extFrame _ _⟩
  have haad := outerAad_encoding hi hdata hzeroed (hraw ▸ hextract)
    (applyExtensions_types happly).2.1
  rw [← hraw] at haad
  rw [serverOpens, ho, bind_some, ech_of_applyExtensions happly hmem,
    parseOuterECHExt_generate hdata, bind_some, haad, bind_some, hpayload]
  exact d.hpkeOpen_seal _ _ _ _ _

/-- The client hashes what a server obtains from the hello and the encoded inner hello. -/
lemma transcript (h : SealedAt d c i useKey ctx n payload) (hi : i < c.exts.length)
    (hh : c.hello.HeaderFits) (hr : Remembers c.raw ctx) (ho : outer.original = some c.raw)
    (hs : outer.sessionId = c.hello.sessionId)
    (hbytes : serverInner c.raw ctx.encodedInnerHello = some bytes) (c1 : UConn) :
    echTranscriptMsg d outer ctx c1 = .ok bytes c1 := by
  refine echTranscriptMsg_eq_ok d ho (fun m hm => ?_) hr hbytes c1
  obtain ⟨_, _, -, -, -, -, happly⟩ := h.unmarshalled hi hh hm
  rw [hs]
  exact congrArg (fun x => x.2.2.1) (applyExtensions_header happly).1

end SealedAt

variable {useKey : Bool}

/-- The hello that is sealed is decoded once it has been marshalled. -/
lemma computeOuterECH_remembers {pskExt : Option UtlsPreSharedKeyExtension}
    (h : computeAndUpdateOuterECHExtensionWithOuterExts d inner ech useKey outerExts pskExt c =
      .ok ctx c') : Remembers c'.raw ctx := by
  obtain ⟨run, rfl, rfl⟩ := computeOuterECH_run d h
  exact remembers_storeExpanded _ _

/-- Correcting the binder encodes the inner hello again, if at all, with other binders. -/
lemma fixInnerBinder_encodes (c : UConn) (outer : Bytes)
    (h : encodeInnerClientHelloReorderOuterExts inner ech.config.maxNameLength.toNat
      (some outerExts) = some ech.encodedInnerHello) :
    ∃ binders original, encodeInnerClientHelloReorderOuterExts
        { inner with pskBinders := binders, original := original } ech.config.maxNameLength.toNat
        (some outerExts) =
      some (fixInnerBinder d c outer outerExts inner ech).2.encodedInnerHello := by
  obtain hfix | ⟨_, _, _, inner', -, -, rfl, hfix | ⟨encoded, _, hencoded, -, hfix⟩⟩ :=
    fixInnerBinder_cases d c outer outerExts inner ech
  · rw [hfix]
    exact ⟨inner.pskBinders, inner.original, h⟩
  · rw [hfix]
    exact ⟨inner.pskBinders, inner.original, h⟩
  · rw [hfix]
    exact ⟨_, _, hencoded⟩

/-- The inner hello that the context keeps encoded. -/
lemma computeOuterECH_encodes {pskExt : Option UtlsPreSharedKeyExtension}
    (h : computeAndUpdateOuterECHExtensionWithOuterExts d inner ech useKey outerExts pskExt c =
      .ok ctx c') :
    ∃ binders original types, encodeInnerClientHelloReorderOuterExts
        { inner with pskBinders := binders, original := original } ech.config.maxNameLength.toNat
        (some types) = some ctx.encodedInnerHello := by
  obtain ⟨run, rfl, -⟩ := computeOuterECH_run d h
  have hconfig := congrArg Prod.fst (fallbackContext_spec d pskExt (run.c₁.raw.drop 4)
    { ech with encodedInnerHello := run.encoded }).1
  obtain ⟨binders, original, hfix⟩ :=
    fixInnerBinder_encodes d run.c₁ (run.c₁.raw.drop 4) run.encodes_fallback
  refine ⟨binders, original, sealedTypes outerExts pskExt, ?_⟩
  rw [run.stored.2, run.fixes, ← hfix]
  exact congrArg (fun cfg : EchConfig => encodeInnerClientHelloReorderOuterExts
    { inner with pskBinders := binders, original := original } cfg.maxNameLength.toNat _) hconfig.symm

/-! ## The first hello -/

lemma innerWithPsk_fields {c1 c2 : UConn}
    {inner' : ClientHelloMsg} (h : innerWithPsk d c e inner c1 = .ok inner' c2) :
    ∃ ids binders, inner' = { inner with pskIdentities := ids, pskBinders := binders } := by
  unfold innerWithPsk at h
  cases hs : c.pskCipherSuite with
  | none =>
    simp only [hs] at h
    cases h
    exact ⟨_, _, rfl⟩
  | some suite =>
    simp only [hs] at h
    split_ifs at h with hk
    · cases h
      exact ⟨_, _, rfl⟩
    · obtain ⟨bytes, _, h1, h⟩ := bind_eq_ok.mp h
      rw [assert_bind_eq_ok] at h
      cases h.2
      exact ⟨_, _, rfl⟩

/-- Moving the pre-shared key changes nothing else in the inner hello. -/
lemma moveToInner_fields {o : ClientHelloMsg × Option (List UInt16)}
    (h : moveToInner d inner c = .ok o c') :
    ∃ ids binders, o.1 = { inner with pskIdentities := ids, pskBinders := binders } := by
  rw [moveToInner, run_get_bind] at h
  cases hx : c.firstExt Ext.asUtlsPreSharedKey with
  | none =>
    rw [hx] at h
    cases h
    exact ⟨_, _, rfl⟩
  | some x =>
    rw [hx] at h
    dsimp only at h
    split_ifs at h
    · cases h
      exact ⟨_, _, rfl⟩
    · obtain ⟨l, c1, -, h⟩ := bind_eq_ok.mp h
      cases h
      exact ⟨_, _, rfl⟩
    · obtain ⟨inner', c1, h1, h⟩ := bind_eq_ok.mp h
      obtain ⟨_, c2, -, h⟩ := bind_eq_ok.mp h
      obtain ⟨l, c3, -, h⟩ := bind_eq_ok.mp h
      cases h
      exact innerWithPsk_fields d h1

namespace EchMarshalRun

variable {d} {c c' : UConn}

variable (run : EchMarshalRun d c c')

include run

/-- A server that can decode the inner hello from the marshalled hello can do so because the client
has done it. -/
lemma remembers : Remembers c'.raw run.ctx := by
  obtain ⟨c1, outerExts, -, hcompute⟩ := sealInnerHello_compute d run.seals
  have hraw : c'.raw = run.c₅.raw := by
    have h := congrArg UConn.raw run.result
    exact h
  rw [hraw]
  exact computeOuterECH_remembers d hcompute

/-- The inner hello that is sealed, up to its pre-shared key. -/
lemma inner_fields :
    run.moved.1.cipherSuites = c.hello.cipherSuites ∧ run.moved.1.encryptedClientHello = [1] := by
  obtain ⟨ids, binders, hmoved⟩ := moveToInner_fields d run.moves
  have hmakes : makeClientHello d c = .ok (run.made.1, some run.ech) run.c₁ := by
    rw [← run.context]
    exact run.makes
  have hheader : run.c₁.hello.header = c.hello.header :=
    ((keeps_makeClientHello d).of_ok run.makes).marshalStep.echStep.field fun c => c.hello.header
  rw [hmoved]
  exact ⟨congrArg (fun x => x.2.2.2.1) hheader, (makeClientHello_inner d hmakes).1⟩

/-- The cipher suites fit their length, since the inner hello has the same ones. -/
lemma suites_fit : (u16s c.hello.cipherSuites).length < 65536 := by
  obtain ⟨c1, outerExts, -, hcompute⟩ := sealInnerHello_compute d run.seals
  obtain ⟨binders, original, types, hencodes⟩ := computeOuterECH_encodes d hcompute
  obtain ⟨hsuites, hmarker⟩ := run.inner_fields
  have hparts := EncodedParts.of_encoded (by rw [hmarker]; decide) hencodes
  rw [← hsuites]
  exact hparts.suites

/-- The inner hello that the context keeps is marked as one, and has a binder of the right length. -/
lemma ctx_inner (hp : c.Prepared) :
    ∃ inner, run.ctx.innerHello = some inner ∧ inner.encryptedClientHello = [1] ∧
      BinderSized c' inner := by
  obtain ⟨inner, hctx, hsized, binders, original, hinner⟩ := sealInnerHello_inner d run.seals
  have hkeys5 := (run.sealed d hp).2.2.1.field fun c => (c.pskCipherSuite, c.pskBinderKey)
  have hkeys := congrArg (fun c => (c.pskCipherSuite, c.pskBinderKey)) run.result
  refine ⟨inner, hctx, ?_, (hsized (run.binderSized d)).of_keys (hkeys.trans hkeys5)⟩
  rw [hinner]
  exact run.inner_fields.2

end EchMarshalRun

/-- The fields in front of the extensions fit their lengths when the hello is marshalled: they are
those of the specification, and the inner hello has the same cipher suites. -/
lemma EchStages.headerFits (stages : EchStages d c c') (hc : Fresh d c)
    (hp : stages.c₄.Prepared) : stages.c₄.hello.HeaderFits := by
  have hstep2 := (keeps_applyConfig d).of_ok stages.applies
  have hstep4 := (keeps_applyConfig d).of_ok stages.again
  have hheader : stages.c₄.hello.header = stages.c₁.hello.header := by
    rw [hstep4.header, (uLoadSession_cases d stages.loads).sessionStep.header, hstep2.header]
  have hshort : stages.c₁.hello.sessionId.length ≤ 32 ∧ stages.c₁.hello.compressionMethods = [0] := by
    obtain ⟨p, x, y, happlied, -, hy⟩ := hc.applied d stages.prepares
    rcases hy with hy | hy <;> rw [hy] <;> exact happlied.short
  obtain ⟨run⟩ := marshalClientHelloECH_run d stages.marshals
  simp only [header, Prod.mk.injEq] at hheader
  obtain ⟨-, -, hsid, -, hcomp⟩ := hheader
  refine ⟨hp.random, ?_, run.suites_fit, ?_⟩
  · rw [hsid]
    omega
  · rw [hcomp, hshort.2]
    decide

/-- What is known of a connection whose hello has been built with ECH. -/
structure UConn.BuiltWithEch (c : UConn) (ctx : EchClientContext) : Prop where
  echCtx : c.echCtx = some ctx
  seqNum : ctx.hpkeContext.seqNum = 1
  fits : c.hello.HeaderFits
  has : c.Has c.extensions
  regular : c.RegularExts
  inner : ∃ inner, ctx.innerHello = some inner ∧ inner.encryptedClientHello = [1] ∧
    BinderSized c inner

/-- A first build with ECH.  The hello that was sealed is the one that is sent, and the client has
decoded it, unless the fallback mode is on: there the binders of the outer hello are patched
afterwards. -/
theorem first_build_sent {u : Unit} (hc : Fresh d c)
    (hech : 0 < (c.config.encryptedClientHelloConfigList.getD []).length)
    (h : buildHandshakeState d true c = .ok u c') :
    ∃ ctx, c'.BuiltWithEch ctx ∧ (d.echPskFallback = false → Remembers c'.raw ctx ∧
      ∃ i payload, i < c'.exts.length ∧ SealedAt d c' i true ctx 0 payload) := by
  obtain ⟨stages⟩ := exists_echStages d hc.sound hc.notBuilt hech h
  obtain ⟨hp4, -⟩ := UConn.Prepared.marshalled d hc.sound stages.prepares stages.applies stages.loads
    stages.again
  obtain ⟨run⟩ := marshalClientHelloECH_run d stages.marshals
  obtain ⟨hseq, hlast, -, i, payload, hi, hsealed⟩ := run.sealed d hp4
  obtain ⟨hp1, hs1⟩ := run.prepared₁ d hp4
  have hmoved := moveToInner_ok d run.moves
  have houter : OuterStep stages.c₄ stages.c₅ :=
    IsTrans.trans _ _ _ hs1 (IsTrans.trans _ _ _ hmoved.outerStep hlast)
  have ht5 := houter.tidy hp4.tidy
  have hstep := stages.patches.sessionStep ht5
  have ht6 : stages.c₆.Tidy := hstep.tidy ht5
  have hkeys : (c'.echCtx, c'.pskCipherSuite, c'.pskBinderKey) =
      (stages.c₅.echCtx, stages.c₅.pskCipherSuite, stages.c₅.pskBinderKey) :=
    (stages.field d fun c => (c.echCtx, c.pskCipherSuite, c.pskBinderKey)).trans
      (stages.patches.keys_eq d)
  obtain ⟨inner, hinner, hmarker, hsized⟩ := run.ctx_inner hp4
  refine ⟨run.ctx, ⟨?_, hseq, ?_, ?_, ?_, inner, hinner, hmarker,
    hsized.of_keys (congrArg Prod.snd hkeys)⟩, fun hf => ?_⟩
  · have hresult := congrArg UConn.echCtx run.result
    exact (congrArg Prod.fst hkeys).trans hresult
  · refine (stages.headerFits d hc hp4).of_header ?_
    rw [stages.field d fun c => c.hello.header, hstep.header, houter.header]
  · intro r hr
    rw [stages.field d UConn.extensions] at hr
    rw [stages.field d UConn.nextRef]
    exact ht6.extensions r hr
  · rw [UConn.RegularExts, stages.field d UConn.exts]
    exact ht6.regularExts
  · -- no binder is patched, so that what is sent stays as it is
    obtain ⟨_, _, _, -, -, -, -, -, hnopatch⟩ := marshalClientHelloECH_ok d stages.marshals hp4
    have hview : c'.view d = stages.c₅.view d := by
      refine (stages.field d (UConn.view d)).trans (stages.patches.view_eq d ht5 ?_ ?_)
      · rw [houter.controller]
        exact hp4.settled.2
      · rw [houter.controller]
        exact hnopatch hf
    have hraw : c'.raw = stages.c₅.raw := congrArg (fun v => v.2.1.getD []) hview
    have hlen : c'.exts.length = stages.c₅.exts.length := by
      simpa [UConn.view] using congrArg (fun v => v.2.2.length) hview
    refine ⟨hraw ▸ run.remembers, i, payload, ?_, hsealed.of_view d hview⟩
    rw [hlen, UConn.exts, length_map]
    exact echIndex_lt hi

end Deps

end Utls
