import Utls.EchTranscript
import Utls.ExtensionWrite
import Utls.HelloRoundTrip
import Utls.InnerDecode
import Utls.ServerHello

/-!
# The second hello of an accepted ECH handshake

A HelloRetryRequest whose confirmation matches makes the handshake go on with the inner hello:
`processHelloRetryRequest` edits that one, and then brings the outer hello up to date and seals the
inner one again.  `EchRetryRun` collects the parts of such a run.

The second hello is sealed like the first one, so both sides hash the same inner hello
(`ech_transcripts_agree`), unless the first one was patched after it had been sealed
(`ech_fallback_not_opened`).  It is not the hello the request asks for: the key shares are written to
the extension objects before the outer hello gets the new one, so the outer hello repeats the key
shares of the first flight, and it is from there that a server expands the key shares of the inner
hello (`retry_inner_never_updated`).
-/

namespace Utls

open Wire Exec List Option ClientHelloMsg

section Deps

variable (d : Deps)

variable {c c' : UConn} {hs : HandshakeState13}

/-! ## The parts of the run -/

/-- The handshake state after a HelloRetryRequest that confirms ECH, before the second hello. -/
def HandshakeState13.confirmed (hs : HandshakeState13) (suite : CipherSuiteTLS13)
    (serverName : GoString) : HandshakeState13 :=
  { hs with
    transcript := messageHash d suite hs.transcript ++ hs.serverHello.original
    innerTranscript := messageHash d suite hs.innerTranscript ++ hs.serverHello.original
    serverName := serverName
    echAccepted := true }

/-- The parts of a run of `processHelloRetryRequest` that goes on with the inner hello. -/
structure EchRetryRun (suite : CipherSuiteTLS13) (hs : HandshakeState13) (c : UConn)
    (hs' : HandshakeState13) (c' : UConn) where
  ech : EchClientContext
  regrouped : ClientHelloMsg
  keys : KeySharePrivateKeys
  drawn : UConn
  bound : ClientHelloMsg
  outer : ClientHelloMsg
  edited : UConn
  ctx : EchClientContext
  sealed : UConn
  bytes : Bytes
  context : hs.echContext = some ech
  group : Regrouped d hs.serverHello hs.hello.keyShares hs.keyShareKeys
    (ech.innerHello.getD hs.hello) c regrouped keys drawn
  psk : ∃ hashed, retryPsk d suite (hs.confirmed d suite c.config.serverName) hashed regrouped drawn =
    .ok bound drawn
  exts : retryExtensions d hs.serverHello hs.hello drawn = .ok outer edited
  seals : computeAndUpdateOuterECHExtension d { bound with earlyData := false }
    { ech with innerHello := some { bound with earlyData := false } } false edited = .ok ctx sealed
  transcript : echTranscriptMsg d
    { outer with keyShares := bound.keyShares, original := some sealed.raw } ctx sealed =
      .ok bytes c'
  result : hs' =
    { hs.confirmed d suite c.config.serverName with
      keyShareKeys := keys
      hello := { outer with keyShares := bound.keyShares, original := some sealed.raw }
      echContext := some ctx
      innerTranscript :=
        (messageHash d suite hs.innerTranscript ++ hs.serverHello.original) ++ bytes
      transcript := (messageHash d suite hs.transcript ++ hs.serverHello.original) ++ sealed.raw }

variable {confirmation : HashId → Bytes → String → Bytes → Bytes} {hs' : HandshakeState13}

/-- The hello that goes on is the inner one exactly if the request confirms ECH. -/
lemma retryTranscripts_ok {suite : CipherSuiteTLS13} {isInner : Bool}
    (h : retryTranscripts d confirmation suite hs c = .ok (hs', isInner) c') :
    c' = c ∧ ((isInner = true ∧ (∃ ech, hs.echContext = some ech) ∧
        hs' = hs.confirmed d suite c.config.serverName) ∨
      (isInner = false ∧ hs'.echAccepted = hs.echAccepted)) := by
  rw [retryTranscripts, run_get_bind] at h
  cases hech : hs.echContext with
  | none =>
    rw [hech] at h
    split_ifs at h
    · cases h
    · cases h
      exact ⟨rfl, .inr ⟨rfl, rfl⟩⟩
  | some ech =>
    rw [hech] at h
    obtain ⟨accepted, -, h⟩ := ofExcept_bind_eq_ok.mp h
    split_ifs at h
    · cases h
      exact ⟨rfl, .inl ⟨rfl, ⟨ech, rfl⟩, by rw [HandshakeState13.confirmed, hech]⟩⟩
    · cases h
      exact ⟨rfl, .inr ⟨rfl, rfl⟩⟩

/-- A run after which ECH counts as accepted goes on with the inner hello. -/
lemma exists_echRetryRun {suite : CipherSuiteTLS13} (hno : hs.echAccepted = false)
    (hacc : hs'.echAccepted = true)
    (h : processHelloRetryRequest d confirmation suite hs c = .ok hs' c') :
    Nonempty (EchRetryRun d suite hs c hs' c') := by
  obtain ⟨⟨hs1, isInner⟩, c1, h1, hrest1⟩ := bind_eq_ok.mp h
  obtain ⟨rfl, hcases⟩ := retryTranscripts_ok d h1
  obtain ⟨⟨hello1, keys⟩, c2, h2, hrest2⟩ := bind_eq_ok.mp hrest1
  obtain ⟨hello2, c3, h3, hrest3⟩ := bind_eq_ok.mp hrest2
  have hc3 := (retryPsk_ok d h3).1
  subst hc3
  obtain ⟨outer, c4, h4, hrest4⟩ := bind_eq_ok.mp hrest3
  rcases hcases with ⟨rfl, ⟨ech, hech⟩, rfl⟩ | ⟨rfl, hkeep⟩
  · have hech' : (hs.confirmed d suite c1.config.serverName).echContext = some ech := hech
    rw [hech'] at h2 h3 hrest4
    obtain ⟨hs2, c5, h5, hrest5⟩ := bind_eq_ok.mp hrest4
    obtain ⟨bytes, hbytes, hrest6⟩ := ofOption_bind_eq_ok.mp hrest5
    cases hrest6
    obtain ⟨ctx, c7, h7, h5⟩ := bind_eq_ok.mp h5
    rw [run_get_bind] at h5
    obtain ⟨inner, c8, h8, h5⟩ := bind_eq_ok.mp h5
    cases h5
    obtain rfl : c7.raw = bytes := some.inj hbytes
    exact ⟨⟨ech, hello1, keys, _, hello2, outer, c4, ctx, c7, inner, hech, retryHello_ok d h2, ⟨_, h3⟩,
      h4, h7, h8, rfl⟩⟩
  · -- the outer hello goes on, and nothing is accepted
    obtain ⟨hs2, c5, h5, hrest5⟩ := bind_eq_ok.mp hrest4
    obtain ⟨bytes, c6, h6, hrest6⟩ := bind_eq_ok.mp hrest5
    cases hrest6
    cases h5
    rw [hkeep, hno] at hacc
    cases hacc

/-! ## The outer hello -/

/-- Echoing the cookie leaves the extension list over objects that are there. -/
lemma Echoed.has {cookie : Bytes} (h : Echoed cookie c c')
    (hc : c.Has c.extensions) : c'.Has c'.extensions := by
  cases h with
  | nothing _ => exact hc
  | stored _ _ => exact hc
  | spliced _ _ i n =>
    intro r hr
    have hmem : r ∈ c.extensions.take i ++ c.nextRef :: c.extensions.drop i := hr
    rcases mem_append.mp hmem with hmem | hmem
    · exact Nat.lt_succ_of_lt (hc r (mem_of_mem_take hmem))
    · rcases mem_cons.mp hmem with rfl | hmem
      · exact Nat.lt_succ_self _
      · exact Nat.lt_succ_of_lt (hc r (mem_of_mem_drop hmem))

/-- Echoing the cookie leaves the key shares alone. -/
lemma Echoed.keyShare_mem {cookie : Bytes} (h : Echoed cookie c c') (hc : c.Has c.extensions)
    {shares : List KeyShare} (hs : .keyShare shares ∈ c.exts) : .keyShare shares ∈ c'.exts := by
  cases h with
  | nothing _ => exact hs
  | stored _ _ =>
    rw [UConn.exts_mapExts]
    exact List.mem_map.mpr ⟨_, hs, rfl⟩
  | spliced _ _ i n =>
    rw [UConn.exts_spliced (c := c.atDraw n) hc]
    rw [← take_append_drop i c.exts] at hs
    rcases mem_append.mp hs with hs | hs
    · exact mem_append_left _ hs
    · exact mem_append_right _ (mem_cons_of_mem _ hs)

lemma Echoed.keys_eq {cookie : Bytes} (h : Echoed cookie c c') :
    (c'.pskCipherSuite, c'.pskBinderKey) = (c.pskCipherSuite, c.pskBinderKey) := by
  cases h <;> rfl

/-- Filling caches leaves the key shares alone. -/
lemma EchStep.keyShare_at (h : EchStep c c') (hc : c.Has c.extensions) {shares : List KeyShare}
    {j : Nat} (hs : c.exts[j]? = some (.keyShare shares)) :
    c'.exts[j]? = some (.keyShare shares) := by
  rw [UConn.exts, getElem?_map] at hs ⊢
  obtain ⟨r, hr, he⟩ := map_eq_some_iff.mp hs
  have hrefresh := h.heap r (hc r (mem_of_getElem? hr))
  rw [he] at hrefresh
  rw [h.extensions, hr, map_some, hrefresh.filled trivial rfl]

/-- The placeholder is another extension than the one with the key shares. -/
lemma EchStep.keyShare_mem_set (h : EchStep c c') (hc : c.Has c.extensions) {i : Nat}
    (hi : echIndex c.exts = some i) {shares : List KeyShare} (hs : .keyShare shares ∈ c.exts) (e : Ext) :
    .keyShare shares ∈ c'.exts.set i e := by
  obtain ⟨j, hj⟩ := mem_iff_getElem?.mp hs
  have hne : i ≠ j := by
    rintro rfl
    obtain ⟨hlt, hgrease, -⟩ := findIdx?_eq_some_iff_getElem.mp hi
    rw [getElem?_eq_getElem hlt] at hj
    rw [some.inj hj] at hgrease
    cases hgrease
  exact mem_iff_getElem?.mpr ⟨j, by rw [getElem?_set_ne hne, h.keyShare_at hc hj]⟩

/-- Renewing the pre-shared key leaves a binder of the right length, or drops it. -/
lemma BinderSized.retried {suite : CipherSuiteTLS13} {hashed : Bytes} {hello out : ClientHelloMsg}
    {c1 c2 : UConn} (hb : BinderSized c hello) (h : retryPsk d suite hs hashed hello c1 = .ok out c2) :
    BinderSized c out := by
  obtain ⟨-, ids, binders, rfl, hpsk⟩ := retryPsk_ok d h
  intro suite' hsuite hkey hids
  rcases hpsk with rfl | ⟨hlen, hsame⟩
  · exact absurd rfl hids
  · obtain ⟨b, bs, hbs, hsize⟩ := hb suite' hsuite hkey (hlen ▸ hids)
    rw [hbs, map_cons, map_eq_cons_iff] at hsame
    obtain ⟨b', bs', hbinders, hb', -⟩ := hsame
    exact ⟨b', bs', hbinders, hb'.trans hsize⟩

namespace EchRetryRun

variable {d} {suite : CipherSuiteTLS13} {hs hs' : HandshakeState13} {c c' : UConn}

variable (run : EchRetryRun d suite hs c hs' c')

include run

/-- The connection when the inner hello is sealed again: the extension objects have the key shares of
the first hello. -/
lemma listed (hc : c.Has c.extensions) (hx : c.RegularExts) :
    ∃ outerExts listed, computeAndUpdateOuterECHExtensionWithOuterExts d
        { run.bound with earlyData := false }
        { run.ech with innerHello := some { run.bound with earlyData := false } } false outerExts none
        listed = .ok run.ctx run.sealed ∧
      listed.hello.header = c.hello.header ∧ listed.Has listed.extensions ∧ listed.RegularExts ∧
      (listed.pskCipherSuite, listed.pskBinderKey) = (c.pskCipherSuite, c.pskBinderKey) ∧
      .keyShare hs.hello.keyShares ∈ listed.exts := by
  obtain ⟨-, hany, c1, hecho, hm, -⟩ := retryExtensions_ok d run.exts
  obtain ⟨n, hdrawn⟩ := run.group.drawn_eq d
  have hhas : run.drawn.Has run.drawn.extensions := by
    rw [hdrawn]
    exact hc
  -- the extension objects get the key shares
  set mapped := run.drawn.mapExts run.drawn.extensions
    (Ext.replace Ext.isKeyShare (.keyShare hs.hello.keyShares)) with hmapped
  have hmem0 : .keyShare hs.hello.keyShares ∈ mapped.exts := by
    obtain ⟨e, he, hk⟩ := List.any_eq_true.mp hany
    rw [hmapped, UConn.exts_mapExts]
    exact List.mem_map.mpr ⟨e, he, if_pos hk⟩
  have hhas1 : c1.Has c1.extensions := hecho.has hhas
  -- the hello is marshalled, and the types of the extensions are listed
  obtain ⟨outerExts, listed, hlist, hcompute⟩ := bind_eq_ok.mp run.seals
  have hstep : EchStep c1 listed := IsTrans.trans _ _ _
    ((keeps_marshalClientHelloNoECH d).of_ok hm).echStep ((keeps_extensionsList d).of_ok hlist).echStep
  have hx1 : c1.RegularExts := hecho.regularExts hhas (by rw [hdrawn]; exact hx)
  refine ⟨outerExts, listed, hcompute, ?_, fun r hr => ?_, hstep.regularExts hhas1 hx1, ?_, ?_⟩
  · rw [hstep.field fun c => c.hello.header, hecho.hello_eq, hmapped, hdrawn]
    rfl
  · exact lt_of_lt_of_le (hhas1 r (hstep.extensions ▸ hr)) hstep.next
  · rw [hstep.field fun c => (c.pskCipherSuite, c.pskBinderKey), hecho.keys_eq, hmapped, hdrawn]
    rfl
  · obtain ⟨j, hj⟩ := mem_iff_getElem?.mp (hecho.keyShare_mem hhas hmem0)
    exact mem_iff_getElem?.mpr ⟨j, hstep.keyShare_at hhas1 hj⟩

/-- The outer hello is sealed again, and has the key shares of the first one. -/
lemma sealedAt (hc : c.Has c.extensions) (hx : c.RegularExts) (hr : c.hello.random.length = 32)
    (hb : BinderSized c (run.ech.innerHello.getD hs.hello)) :
    Remembers run.sealed.raw run.ctx ∧ run.sealed.hello.header = c.hello.header ∧
      ∃ i payload, i < run.sealed.exts.length ∧
        SealedAt d run.sealed i false run.ctx run.ech.hpkeContext.seqNum payload ∧
        ∀ e, .keyShare hs.hello.keyShares ∈ run.sealed.exts.set i e := by
  obtain ⟨outerExts, listed, hcompute, hheader, hhas, hregular, hkeys, hmem⟩ := run.listed hc hx
  have hrandom : listed.hello.random = c.hello.random := congrArg (fun x => x.2.1) hheader
  obtain ⟨hashed, hpsk⟩ := run.psk
  have hbound : BinderSized c run.bound := by
    refine BinderSized.retried d ?_ hpsk
    obtain ⟨hids, hbinders⟩ := run.group.psk_eq d
    unfold BinderSized
    rw [hids, hbinders]
    exact hb
  obtain ⟨i, payload, hi, -, hstep, hsealed, -⟩ := computeOuterECH_ok d hcompute hhas
    hregular (hrandom ▸ hr) (hbound.of_keys hkeys)
  refine ⟨computeOuterECH_remembers d hcompute,
    (hstep.field fun c => c.hello.header).trans hheader, i, payload, ?_, hsealed,
    hstep.keyShare_mem_set hhas hi hmem⟩
  rw [UConn.exts, length_map, hstep.extensions]
  exact echIndex_lt hi

lemma outer_eq : ∃ original, run.outer = { hs.hello with original := original } := by
  obtain ⟨-, -, c1, -, -, houter⟩ := retryExtensions_ok d run.exts
  exact ⟨_, houter⟩

/-- The hello that is sent and hashed. -/
lemma hello_eq :
    hs'.hello.original = some run.sealed.raw ∧ hs'.hello.sessionId = hs.hello.sessionId ∧
      hs'.hello.keyShares = run.bound.keyShares := by
  obtain ⟨original, houter⟩ := run.outer_eq
  have hhello := congrArg HandshakeState13.hello run.result
  rw [hhello, houter]
  exact ⟨rfl, rfl, rfl⟩

lemma echContext_eq : hs'.echContext = some run.ctx := by
  have h := congrArg HandshakeState13.echContext run.result
  exact h

lemma innerTranscript_eq : hs'.innerTranscript =
      (messageHash d suite hs.innerTranscript ++ hs.serverHello.original) ++ run.bytes := by
  have h := congrArg HandshakeState13.innerTranscript run.result
  exact h

end EchRetryRun

/-! ## From the first hello to the second -/

/-- With ECH, both transcripts start with the first hello. -/
lemma beginHandshake13_ech {ech : EchClientContext}
    (hech : hs.echContext = some ech) (h : beginHandshake13 d hs c = .ok hs' c') :
    ∃ suite bytes inner, echTranscriptMsg d hs.hello ech c = .ok inner c' ∧
      hs' = { hs with suite := some suite, transcript := bytes, innerTranscript := inner } := by
  rw [beginHandshake13, run_get_bind] at h
  split_ifs at h with hn hkeys
  · cases h
  · cases h
  obtain ⟨hs1, hcheck, hrest1⟩ := ofExcept_bind_eq_ok.mp h
  obtain ⟨suite, -, rfl⟩ := checkServerHelloOrHRR_ok hcheck
  obtain ⟨bytes, -, hrest2⟩ := ofOption_bind_eq_ok.mp hrest1
  rw [show ({ hs with suite := some suite } : HandshakeState13).echContext = some ech from hech]
    at hrest2
  obtain ⟨inner, c3, h3, hrest3⟩ := bind_eq_ok.mp hrest2
  cases hrest3
  exact ⟨suite, bytes, inner, h3, by rw [hech]⟩

/-- The parts of a handshake up to the second hello, if a HelloRetryRequest confirms ECH. -/
structure EchSecondRun (sh : ServerHelloMsg) (c : UConn) (hs : HandshakeState13) (c' : UConn) where
  built : UConn
  hashed : UConn
  ech : EchClientContext
  suite : CipherSuiteTLS13
  first : HandshakeState13
  build : buildHandshakeState d true c = .ok () built
  sent : built.BuiltWithEch ech
  hello : first.hello = built.privateHello
  server : first.serverHello = sh
  context : first.echContext = some ech
  transcript : echTranscriptMsg d built.privateHello ech built = .ok first.innerTranscript hashed
  retry : EchRetryRun d suite first hashed hs c'

lemma exists_echSecondRun {sh : ServerHelloMsg} (hc : Fresh d c)
    (hech : 0 < (c.config.encryptedClientHelloConfigList.getD []).length)
    (hacc : hs.echAccepted = true) (h : secondHello d confirmation sh c = .ok (some hs) c') :
    Nonempty (EchSecondRun d sh c hs c') := by
  obtain ⟨hs1, c1, h1, hrest1⟩ := bind_eq_ok.mp h
  obtain ⟨hbuild, rfl⟩ := startHandshake13_ok d h1
  obtain ⟨ctx, hsent, -⟩ := first_build_sent d hc hech hbuild
  obtain ⟨hs2, c2, h2, hrest2⟩ := bind_eq_ok.mp hrest1
  obtain ⟨suite, bytes, inner, htranscript, rfl⟩ := beginHandshake13_ech d hsent.echCtx h2
  split_ifs at hrest2
  · obtain ⟨hs3, c3, h3, hrest3⟩ := bind_eq_ok.mp hrest2
    cases hrest3
    obtain ⟨run⟩ := exists_echRetryRun d rfl hacc h3
    exact ⟨⟨c1, c2, ctx, suite, _, hbuild, hsent, rfl, rfl, hsent.echCtx, htranscript, run⟩⟩
  · cases hrest2

namespace EchSecondRun

variable {d} {sh : ServerHelloMsg} {hs : HandshakeState13} {c c' : UConn}

lemma ech_eq (run : EchSecondRun d sh c hs c') : run.retry.ech = run.ech :=
  some.inj (run.retry.context.symm.trans run.context)

lemma hashed_step (run : EchSecondRun d sh c hs c') : MarshalStep run.built run.hashed :=
  (keeps_echTranscriptMsg _ _).of_ok run.transcript

/-- The second hello: it has the header of the first one, and its key shares. -/
lemma secondSealed (run : EchSecondRun d sh c hs c') :
    Remembers run.retry.sealed.raw run.retry.ctx ∧
      run.retry.sealed.hello.header = run.built.hello.header ∧
      ∃ i payload, i < run.retry.sealed.exts.length ∧
        SealedAt d run.retry.sealed i false run.retry.ctx 1 payload ∧
        ∀ e, .keyShare run.built.hello.keyShares ∈ run.retry.sealed.exts.set i e := by
  have hstep := run.hashed_step.echStep
  have hheader : run.hashed.hello.header = run.built.hello.header :=
    hstep.field fun c => c.hello.header
  have hrandom : run.hashed.hello.random = run.built.hello.random :=
    congrArg (fun x => x.2.1) hheader
  have hhas : run.hashed.Has run.hashed.extensions := fun r hr =>
    lt_of_lt_of_le (run.sent.has r (hstep.extensions ▸ hr)) hstep.next
  obtain ⟨inner, hinner, -, hsized⟩ := run.sent.inner
  have hb : BinderSized run.hashed (run.retry.ech.innerHello.getD run.first.hello) := by
    rw [run.ech_eq, hinner, getD_some]
    exact hsized.of_keys (hstep.field fun c => (c.pskCipherSuite, c.pskBinderKey))
  obtain ⟨hremembers, hheader', i, payload, hi, hsealed, hshares⟩ :=
    run.retry.sealedAt hhas (hstep.regularExts run.sent.has run.sent.regular)
      (hrandom ▸ run.sent.fits.random) hb
  rw [run.ech_eq, run.sent.seqNum] at hsealed
  rw [run.hello] at hshares
  exact ⟨hremembers, hheader'.trans hheader, i, payload, hi, hsealed, hshares⟩

end EchSecondRun

/-! ## The transcripts -/

/-- A server that opens the payload of the hello under the sequence number `n` gets the encoded inner
hello of the context, if it can read the hello. -/
def OpensTo (ctx : EchClientContext) (n : Nat) (raw : Bytes) : Prop :=
  ∀ outer, ClientHelloMsg.unmarshal raw = some outer →
    serverOpens d ctx n raw = some ctx.encodedInnerHello

/-- The bytes of the inner hello that a server obtains from a hello. -/
def serverObtains (ctx : EchClientContext) (n : Nat) (raw : Bytes) : Option Bytes :=
  (serverOpens d ctx n raw).bind fun encoded => serverInner raw encoded

lemma serverInner_of_serverObtains {ctx : EchClientContext} {n : Nat} {raw bytes : Bytes}
    (ho : OpensTo d ctx n raw) (h : serverObtains d ctx n raw = some bytes) :
    serverInner raw ctx.encodedInnerHello = some bytes := by
  obtain ⟨encoded, hopen, h⟩ := bind_eq_some_iff.mp h
  obtain ⟨outer, inner, houter, -⟩ := serverInner_eq_some h
  cases (ho outer houter).symm.trans hopen
  exact h

/-- The client hashes the inner hello that a server obtains: for the hello of a first build, unless
the fallback mode is on, and for the second hello after a HelloRetryRequest that confirms ECH. -/
theorem ech_transcripts_agree {c : UConn} (hc : Fresh d c)
    (hech : 0 < (c.config.encryptedClientHelloConfigList.getD []).length) :
    (d.echPskFallback = false → ∀ c₁, buildHandshakeState d true c = .ok () c₁ →
      ∃ ctx, c₁.echCtx = some ctx ∧ OpensTo d ctx 0 c₁.raw ∧
        ∀ bytes, serverObtains d ctx 0 c₁.raw = some bytes →
          echTranscriptMsg d c₁.privateHello ctx c₁ = .ok bytes c₁) ∧
    ∀ confirmation sh hs c', secondHello d confirmation sh c = .ok (some hs) c' →
      hs.echAccepted = true →
      ∃ c₁ c₂ ctx₁ first suite ctx raw second, buildHandshakeState d true c = .ok () c₁ ∧
        c₁.echCtx = some ctx₁ ∧ echTranscriptMsg d c₁.privateHello ctx₁ c₁ = .ok first c₂ ∧
        hs.echContext = some ctx ∧ hs.hello.marshal = some raw ∧ OpensTo d ctx 1 raw ∧
        hs.innerTranscript = (messageHash d suite first ++ sh.original) ++ second ∧
        ∀ bytes, serverObtains d ctx 1 raw = some bytes → second = bytes := by
  refine ⟨fun hf c₁ hbuild => ?_, fun confirmation sh hs c' h hacc => ?_⟩
  · obtain ⟨ctx, hbuilt, hsent⟩ := first_build_sent d hc hech hbuild
    obtain ⟨hremembers, i, payload, hi, hsealed⟩ := hsent hf
    have hopens : OpensTo d ctx 0 c₁.raw := fun outer ho => hsealed.opens hi hbuilt.fits ho
    refine ⟨ctx, hbuilt.echCtx, hopens, fun bytes hbytes => ?_⟩
    have horiginal : c₁.privateHello.original = some c₁.raw := by
      obtain ⟨data, -, hraw⟩ := hsealed.raw
      change c₁.hello.original = some (c₁.hello.original.getD [])
      rw [hraw]
      rfl
    exact hsealed.transcript hi hbuilt.fits hremembers horiginal rfl
      (serverInner_of_serverObtains d hopens hbytes) c₁
  · obtain ⟨run⟩ := exists_echSecondRun d hc hech hacc h
    obtain ⟨hremembers, hheader, i, payload, hi, hsealed, -⟩ := run.secondSealed
    have hfits : run.retry.sealed.hello.HeaderFits := run.sent.fits.of_header hheader
    have hopens : OpensTo d run.retry.ctx 1 run.retry.sealed.raw :=
      fun outer ho => hsealed.opens hi hfits ho
    obtain ⟨horiginal, hsid, -⟩ := run.retry.hello_eq
    have hmarshal : hs.hello.marshal = some run.retry.sealed.raw := by
      rw [marshal, horiginal]
    refine ⟨run.built, run.hashed, run.ech, run.first.innerTranscript, run.suite, run.retry.ctx,
      run.retry.sealed.raw, run.retry.bytes, run.build, run.sent.echCtx, run.transcript, ?_, hmarshal,
      hopens, ?_, fun bytes hbytes => ?_⟩
    · exact run.retry.echContext_eq
    · rw [run.retry.innerTranscript_eq, run.server]
    · -- the client has decoded the same bytes
      have hsame : (hs.hello).sessionId = run.retry.sealed.hello.sessionId := by
        rw [hsid, run.hello]
        exact (congrArg (fun x => x.2.2.1) hheader).symm
      have hhello := congrArg HandshakeState13.hello run.retry.result
      have htranscript := hsealed.transcript hi hfits hremembers horiginal hsame
        (serverInner_of_serverObtains d hopens hbytes) run.retry.sealed
      rw [hhello] at htranscript
      have heq := htranscript.symm.trans run.retry.transcript
      injection heq with hbytes _
      exact hbytes.symm

end Deps

/-! ## A handshake with a retry

The hello lists two groups and has a share for the first; the server asks for the second. -/

def echRetrySpec : ClientHelloSpec :=
  { echSpec with extensions := [0, 1, 2, 3, 4] }

def echRetryExts : Ref → Ext
  | 0 => .sni []
  | 1 => .supportedVersions [VersionTLS13]
  | 2 => .supportedCurves [X25519, CurveP256]
  | 3 => .keyShare [⟨X25519, []⟩]
  | _ => echSpecExts 2

def echRetryClient : UConn :=
  endState (applyPreset .sample echRetrySpec (uClient echRetryExts 5
    { serverName := [0x61], encryptedClientHelloConfigList := some sampleEchConfigList } {} .custom))

lemma fresh_echRetryClient : Fresh .sample echRetryClient := by
  refine Fresh.custom _ 5 _ _ echRetrySpec ?_ ?_ (eq_ok_of_returns (by decide +kernel))
  · exact fun r _ => by unfold echRetryExts; split <;> trivial
  · simp [echRetrySpec]

/-- A request for the second group, with a confirmation. -/
def echRetryRequest : ServerHelloMsg where
  original := [2, 0, 0, 0]
  vers := VersionTLS12
  random := helloRetryRequestRandom
  sessionId := List.replicate 32 4
  cipherSuite := 0x1301
  supportedVersion := VersionTLS13
  selectedGroup := CurveP256
  encryptedClientHello := some (List.replicate 8 0)
  cookie_ne := noCookie_ne

/-- A server opens the first hello of the client and the second one, and the client hashes what it
obtains. -/
theorem ech_transcripts_agree_sample :
    (∃ c₁ ctx bytes, buildHandshakeState .sample true echRetryClient = .ok () c₁ ∧
      serverObtains .sample ctx 0 c₁.raw = some bytes ∧
      echTranscriptMsg .sample c₁.privateHello ctx c₁ = .ok bytes c₁) ∧
    ∃ hs c' ctx raw bytes before,
      secondHello .sample (fun _ _ _ _ => List.replicate 8 0) echRetryRequest echRetryClient =
        .ok (some hs) c' ∧ hs.hello.marshal = some raw ∧
      serverObtains .sample ctx 1 raw = some bytes ∧ hs.innerTranscript = before ++ bytes := by
  obtain ⟨hfirst, hsecond⟩ :=
    ech_transcripts_agree .sample fresh_echRetryClient (by decide +kernel)
  constructor
  · obtain ⟨⟨⟩, c₁, h, htest⟩ := exists_eq_ok_of_returnsWith (show returnsWith
      (fun _ c => (c.echCtx.bind fun ctx => serverObtains .sample ctx 0 c.raw).isSome)
      (buildHandshakeState .sample true echRetryClient) = true by decide +kernel)
    obtain ⟨ctx, hctx, -, htranscript⟩ := hfirst rfl c₁ h
    rw [hctx] at htest
    obtain ⟨bytes, hbytes⟩ := isSome_iff_exists.mp htest
    exact ⟨c₁, ctx, bytes, h, hbytes, htranscript bytes hbytes⟩
  · obtain ⟨o, c', h, htest⟩ := exists_eq_ok_of_returnsWith (show returnsWith
      (fun o _ => (o.map fun hs => hs.echAccepted && (hs.hello.marshal.bind fun raw =>
        hs.echContext.bind fun ctx => serverObtains .sample ctx 1 raw).isSome).getD false)
      (secondHello .sample (fun _ _ _ _ => replicate 8 0) echRetryRequest echRetryClient) = true
      by decide +kernel)
    cases o with
    | none => cases htest
    | some hs =>
      obtain ⟨hacc, hsome⟩ := (Bool.and_eq_true _ _).mp htest
      obtain ⟨c₁, c2, ctx1, first, suite, ctx, raw, second, -, -, -, hctx, hraw, -, hinner, hagree⟩ :=
        hsecond _ _ hs c' h hacc
      rw [hraw, hctx] at hsome
      obtain ⟨bytes, hbytes⟩ := isSome_iff_exists.mp hsome
      obtain rfl := hagree bytes hbytes
      exact ⟨hs, c', ctx, raw, second, _, h, hraw, hbytes, hinner⟩

/-- The end of the additional data, in the place of an authentication tag. -/
def aadTag (aad : Bytes) : Bytes := (List.replicate 16 0 ++ aad).drop aad.length

lemma length_aadTag (aad : Bytes) : (aadTag aad).length = 16 := by
  rw [aadTag, length_drop, length_append, length_replicate, Nat.add_sub_cancel]

/-- An environment with the fallback mode on, in which a payload opens only with additional data that
ends like that of the sealing. -/
def Deps.fallback : Deps :=
  { Deps.sample with
    echPskFallback := true
    hpkeSeal := fun _ _ _ aad pt => pt ++ aadTag aad
    hpkeSeal_length := fun _ _ _ _ _ => by rw [length_append, length_aadTag]
    hpkeOpen := fun _ _ _ aad ct =>
      if ct.drop (ct.length - 16) = aadTag aad then some (ct.take (ct.length - 16)) else none
    hpkeOpen_seal := fun _ _ _ _ _ => by simp [length_aadTag] }

lemma fresh_fallback : Fresh .fallback (pskClient .fallback) := by
  refine Fresh.custom _ 4 _ _ pskSpec ?_ ?_ (eq_ok_of_returns (by decide +kernel))
  · exact fun r _ => regular_pskSpecExts r
  · simp [pskSpec]

/-- In the fallback mode the binder of the outer hello is patched after the inner hello has been
sealed, so that a server computes other additional data from the hello and cannot open it. -/
theorem ech_fallback_not_opened :
    Fresh .fallback (pskClient .fallback) ∧ ∃ c₁ c₂ ctx outer bytes,
      buildHandshakeState .fallback true (pskClient .fallback) = .ok () c₁ ∧ c₁.echCtx = some ctx ∧
      echTranscriptMsg .fallback c₁.privateHello ctx c₁ = .ok bytes c₂ ∧
      unmarshal c₁.raw = some outer ∧ serverOpens .fallback ctx 0 c₁.raw = none := by
  refine ⟨fresh_fallback, ?_⟩
  obtain ⟨⟨⟩, c₁, h, htest⟩ := exists_eq_ok_of_returnsWith (show returnsWith
    (fun _ c => (unmarshal c.raw).isSome && (c.echCtx.map fun ctx =>
      returns (echTranscriptMsg .fallback c.privateHello ctx c) &&
        (serverOpens .fallback ctx 0 c.raw).isNone).getD false)
    (buildHandshakeState .fallback true (pskClient .fallback)) = true by decide +kernel)
  obtain ⟨houter, htest⟩ := (Bool.and_eq_true _ _).mp htest
  obtain ⟨outer, houter⟩ := isSome_iff_exists.mp houter
  cases hctx : c₁.echCtx with
  | none =>
    rw [hctx] at htest
    cases htest
  | some ctx =>
    rw [hctx] at htest
    obtain ⟨hhashed, hclosed⟩ := (Bool.and_eq_true _ _).mp htest
    obtain ⟨bytes, c₂, hbytes, -⟩ := exists_eq_ok_of_returnsWith hhashed
    exact ⟨c₁, c₂, ctx, outer, bytes, h, hctx, hbytes, houter, isNone_iff_eq_none.mp hclosed⟩

/-! ## The key shares of the reconstructed inner hello -/

/-- The encoded inner hello has no key shares of its own. -/
lemma ClientHelloMsg.keyShare_not_mem_innerRawExts (m : ClientHelloMsg) (types : List UInt16)
    {x : RawExtension} (hx : x ∈ m.innerRawExts types) : x.extType ≠ extensionKeyShare := by
  have hone : ∀ {p : Prop} [Decidable p] {t : UInt16} {data : Bytes}, t ≠ extensionKeyShare →
      x ∈ (if p then [(⟨t, data⟩ : RawExtension)] else []) → x.extType ≠ extensionKeyShare := by
    intro p _ t data ht hmem
    split_ifs at hmem
    · rw [mem_singleton.mp hmem]
      exact ht
    · cases hmem
  simp only [innerRawExts, mem_append] at hx
  rcases hx with hx | hx | hx | hx | hx <;> exact hone (by decide) hx

/-- The key shares of a hello that was read. -/
lemma ClientHelloMsg.keyShares_of_applyExtensions {m r : ClientHelloMsg} {l : List RawExtension}
    (h : m.applyExtensions l = some r) (hm : m.keyShares = []) :
    (extensionKeyShare ∉ l.map (·.extType) → r.keyShares = []) ∧
      ∀ x ∈ l, x.extType = extensionKeyShare → parseKeyShares x.data = some r.keyShares := by
  obtain ⟨hnone, hone⟩ := field_of_applyExtensions (·.keyShares) extensionKeyShare
    (fun _ _ _ _ h hne => (applyExtension_frame h).keyShares hne) (fun _ _ => rfl) h
  refine ⟨fun hno => (hnone hno).trans hm, fun x hx ht => ?_⟩
  obtain ⟨m1, m2, last, hm1, happly, heq⟩ := hone x hx ht
  obtain ⟨t, data⟩ := x
  subst ht
  obtain ⟨shares, hshares, rfl⟩ := map_eq_some_iff.mp
    (show (parseKeyShares data).map _ = some m2 from happly)
  have hnil : m1.keyShares = [] := hm1.trans hm
  rw [heq]
  rw [hnil]
  exact hshares

/-- A list of one share is read only from a vector with a share of this group. -/
lemma exists_group_of_parseKeyShares {shares : List KeyShare} {g : UInt16} {pub : Bytes}
    (hlen : (vec16 (keyShareEntries shares)).length < 65536)
    (h : parseKeyShares (vec16 (keyShareEntries shares)) = some [⟨g, pub⟩]) :
    ∃ ks ∈ shares, ks.group = g := by
  rw [parseKeyShares, readLP16_vec16_end hlen, bind_some] at h
  obtain ⟨-, hentries⟩ := parseAll_readKeyShare_eq_some.mp h
  cases shares with
  | nil => simp [keyShareEntries, u16] at hentries
  | cons ks shares =>
    refine ⟨ks, mem_cons_self, ?_⟩
    have hread := congrArg readU16 hentries
    simp only [keyShareEntries, flatMap_cons, append_assoc, readU16_u16_toNat,
      some.injEq, Prod.mk.injEq] at hread
    exact hread.1

section Updated

variable (d : Deps)

/-- The second hello carries an inner hello that answers the request: its key shares are one share
for the selected group with the public half of the stored key, and it has the server's cookie. -/
def HandshakeState13.InnerAnswers (hs : HandshakeState13) (sh : ServerHelloMsg) : Prop :=
  ∃ raw ctx outer inner key, hs.hello.marshal = some raw ∧ hs.echContext = some ctx ∧
    ClientHelloMsg.unmarshal raw = some outer ∧
    decodeInnerClientHello outer ctx.encodedInnerHello = some inner ∧
    hs.keyShareKeys.ecdhe = some key ∧ key.curve = sh.selectedGroup ∧
    inner.keyShares = [⟨sh.selectedGroup, key.publicKey d⟩] ∧
    ∀ cookie, sh.cookie = some cookie → inner.cookie = cookie

/-- The inner hello of the context, encoded, has no key shares of its own. -/
lemma EchSecondRun.encoded_parts {sh : ServerHelloMsg} {hs : HandshakeState13} {c c' : UConn}
    (run : EchSecondRun d sh c hs c') :
    ∃ m types, EncodedParts m types run.retry.ctx.encodedInnerHello := by
  obtain ⟨outerExts, listed, hlist, hcompute⟩ := bind_eq_ok.mp run.retry.seals
  obtain ⟨binders, original, types, hencoded⟩ := computeOuterECH_encodes d hcompute
  refine ⟨_, types, EncodedParts.of_encoded ?_ hencoded⟩
  obtain ⟨inner, hinner, hmarker, -⟩ := run.sent.inner
  obtain ⟨hashed, hpsk⟩ := run.retry.psk
  obtain ⟨-, ids, binders', hbound, -⟩ := retryPsk_ok d hpsk
  have hgroup := run.retry.group
  rw [run.ech_eq, hinner, getD_some] at hgroup
  have hech : run.retry.bound.encryptedClientHello = run.retry.regrouped.encryptedClientHello := by
    rw [hbound]
  rw [hech, hgroup.ech_eq d, hmarker]
  exact Nat.one_pos

/-- The inner hello of the second flight never answers the request: the shares that a server finds
for it in the outer hello are those of the first flight, none of which is for the selected group. -/
theorem retry_inner_never_updated {c : UConn} (hc : Fresh d c)
    (hech : 0 < (c.config.encryptedClientHelloConfigList.getD []).length)
    {confirmation : HashId → Bytes → String → Bytes → Bytes} {sh : ServerHelloMsg}
    {hs : HandshakeState13} {c' : UConn} (h : secondHello d confirmation sh c = .ok (some hs) c')
    (hacc : hs.echAccepted = true) (hsel : sh.selectedGroup ≠ 0) : ¬hs.InnerAnswers d sh := by
  rintro ⟨raw, ctx, outer, inner, key, hmarshal, hctx, houter, hdecode, -, -, hshares, -⟩
  obtain ⟨run⟩ := exists_echSecondRun d hc hech hacc h
  obtain ⟨-, hheader, i, payload, hi, hsealed, hmem⟩ := run.secondSealed
  have hfits : run.retry.sealed.hello.HeaderFits := run.sent.fits.of_header hheader
  -- the hello and the context are those of the run
  obtain rfl : raw = run.retry.sealed.raw := by
    rw [marshal, run.retry.hello_eq.1] at hmarshal
    exact (some.inj hmarshal).symm
  obtain rfl : ctx = run.retry.ctx :=
    some.inj (hctx.symm.trans run.retry.echContext_eq)
  obtain ⟨data, exts, -, hexts, -, hextract, happly⟩ := hsealed.unmarshalled hi hfits houter
  obtain ⟨⟨inner', recon⟩, hwith, rfl⟩ := map_eq_some_iff.mp hdecode
  obtain ⟨hinner, p, l, result, hrec, hl, hresult⟩ := extracted_of_decode houter hwith
  obtain rfl : rawExts d.parseIP exts = l := some.inj (hextract.symm.trans hl)
  obtain ⟨hnone, hone⟩ := keyShares_of_applyExtensions
    (rawParts_of_unmarshal hinner hresult).2 rfl
  -- the key shares of the outer hello
  set shares := run.built.hello.keyShares
  have houterShare : ⟨extensionKeyShare, vec16 (keyShareEntries shares)⟩ ∈ rawExts d.parseIP exts :=
    mem_filterMap.mpr ⟨.keyShare shares, hexts ▸ hmem _, rawExtOf_extFrame _ _⟩
  by_cases hin : extensionKeyShare ∈ result.map (·.extType)
  · obtain ⟨x, hx, ht⟩ := List.mem_map.mp hin
    have hxo : x ∈ rawExts d.parseIP exts := by
      refine (hrec.expansion.mem hx).resolve_left fun hown => ?_
      obtain ⟨m, types, hparts⟩ := run.encoded_parts d
      cases hparts.parsed.symm.trans (parseEncodedInner_eq_some.mpr hrec.layout)
      exact m.keyShare_not_mem_innerRawExts types hown ht
    obtain rfl : x = ⟨extensionKeyShare, vec16 (keyShareEntries shares)⟩ :=
      inj_on_of_nodup_map (applyExtensions_types happly).2.1 hxo houterShare ht
    have hparse := hone _ hx rfl
    rw [hshares] at hparse
    obtain ⟨header, -, hblock, -⟩ := hrec.outerLayout
    obtain ⟨ks, hks, hg⟩ :=
      exists_group_of_parseKeyShares (data_lt_of_block hblock _ houterShare) hparse
    have hnew := run.retry.group.not_sent d
    rw [run.hello, run.server] at hnew
    exact hnew hsel ks hks hg
  · rw [hnone hin] at hshares
    cases hshares

/-- The groups of the key shares of the inner hello that a server reconstructs. -/
def HandshakeState13.innerGroups (hs : HandshakeState13) : Option (List UInt16) :=
  hs.hello.marshal.bind fun raw => (ClientHelloMsg.unmarshal raw).bind fun outer =>
    hs.echContext.bind fun ctx => (decodeInnerClientHello outer ctx.encodedInnerHello).map fun inner =>
      inner.keyShares.map (·.group)

lemma HandshakeState13.innerGroups_of_innerAnswers {hs : HandshakeState13} {sh : ServerHelloMsg}
    (h : hs.InnerAnswers d sh) : hs.innerGroups = some [sh.selectedGroup] := by
  obtain ⟨raw, ctx, outer, inner, key, hraw, hctx, houter, hinner, -, -, hshares, -⟩ := h
  rw [innerGroups, hraw, bind_some, houter, bind_some, hctx, bind_some, hinner, map_some, hshares]
  rfl

end Updated

/-- The server asks for a share of the second group, and the inner hello that it reconstructs has
the share of the first one. -/
theorem retry_inner_repeats_share :
    ∃ hs c', secondHello .sample (fun _ _ _ _ => List.replicate 8 0) echRetryRequest echRetryClient =
        .ok (some hs) c' ∧ hs.echAccepted = true ∧ hs.innerGroups = some [X25519] ∧
      ¬hs.InnerAnswers .sample echRetryRequest := by
  obtain ⟨o, c', h, htest⟩ := exists_eq_ok_of_returnsWith (show returnsWith
    (fun o _ => (o.map fun hs => hs.echAccepted && hs.innerGroups == some [X25519]).getD false)
    (secondHello .sample (fun _ _ _ _ => replicate 8 0) echRetryRequest echRetryClient) = true
    by decide +kernel)
  cases o with
  | none => cases htest
  | some hs =>
    obtain ⟨hacc, hgroups⟩ := (Bool.and_eq_true _ _).mp htest
    have hgroups := beq_iff_eq.mp hgroups
    refine ⟨hs, c', h, hacc, hgroups, fun hanswers => ?_⟩
    cases hgroups.symm.trans (HandshakeState13.innerGroups_of_innerAnswers .sample hanswers)

/-- The request of the sample is one that the client accepts. -/
theorem retry_inner_never_updated_sample :
    ∃ hs c', secondHello .sample (fun _ _ _ _ => List.replicate 8 0) echRetryRequest echRetryClient =
      .ok (some hs) c' ∧ ¬hs.InnerAnswers .sample echRetryRequest := by
  obtain ⟨o, c', h, htest⟩ := exists_eq_ok_of_returnsWith (show returnsWith
    (fun o _ => (o.map HandshakeState13.echAccepted).getD false)
    (secondHello .sample (fun _ _ _ _ => replicate 8 0) echRetryRequest echRetryClient) = true
    by decide +kernel)
  cases o with
  | none => cases htest
  | some hs => exact ⟨hs, c', h, retry_inner_never_updated .sample fresh_echRetryClient
      (by decide +kernel) h htest (by decide)⟩

end Utls
