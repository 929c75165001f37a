import Utls.FirstBuild
import Utls.HelloRetry
import Utls.PskBinder

/-!
# Early data

`early_data` announces data under the key of a session.  The mark for it in the private hello is
cleared when there is no session, and after a HelloRetryRequest; but what is sent is marshalled from
the extension objects, and a `FakeEarlyDataExtension` among them is written in both cases.

A hello has the extension exactly if the prepared list has it (`UConn.Current.has_iff`).  So nothing
goes wrong if the list does not have it, or if the first build offers a session of TLS 1.3
(`UConn.WillResume`), which also makes the client refuse a HelloRetryRequest
(`early_data_needs_session`).
-/

namespace Utls

open Wire Exec List Option UtlsPreSharedKeyExtension

variable {c c' : UConn}

/-! ## Types on the wire -/

/-- The message has an extension of the type. -/
def WireHello.Has (w : WireHello) (t : UInt16) : Prop := ∃ x ∈ w.extensions, x.extType = t

/-- The message has a `pre_shared_key` extension whose only identity is the ticket. -/
def WireHello.OffersTicket (w : WireHello) (ticket : Bytes) : Prop :=
  ∃ x ∈ w.extensions, x.extType = extensionPreSharedKey ∧
    ∃ age binders, x.data = vec16 (pskIdentityBytes [⟨ticket, age⟩]) ++ vec16 binders

/-- If the hello that is sent announces early data, it offers the session of the handshake. -/
def HandshakeState13.EarlyDataBound (hs : HandshakeState13) : Prop :=
  ∀ raw w, hs.hello.marshal = some raw → readHello raw = some w → w.Has extensionEarlyData →
    ∃ s, hs.session = some s ∧ w.OffersTicket (s.ticket.getD [])

/-- The hello that is sent does not announce early data. -/
def HandshakeState13.NoEarlyData (hs : HandshakeState13) : Prop :=
  ∀ raw w, hs.hello.marshal = some raw → readHello raw = some w → ¬w.Has extensionEarlyData

/-- No extension of the connection is written as `early_data`. -/
def UConn.NoEarlyData (c : UConn) : Prop := ∀ e ∈ c.exts, e.typeId ≠ extensionEarlyData

section Deps

variable (d : Deps)

/-- The extensions of a hello that has been marshalled from the connection. -/
lemma UConn.Current.extensions_eq (h : c.Current d) (hh : c.hello.HeaderFits) {raw : Bytes}
    {w : WireHello} (hraw : c.hello.original = some raw) (hw : readHello raw = some w) :
    w.extensions = rawExts d.parseIP c.exts := by
  cases hraw.symm.trans h
  rw [readHello_clientHelloEncoding d.parseIP hh hw]

lemma UConn.NoEarlyData.not_has (h : c.NoEarlyData) {w : WireHello}
    (hw : w.extensions = rawExts d.parseIP c.exts) : ¬w.Has extensionEarlyData := by
  rintro ⟨x, hx, ht⟩
  rw [hw] at hx
  obtain ⟨e, he, hraw⟩ := mem_filterMap.mp hx
  exact h e he ((Ext.extType_of_rawExt d.parseIP hraw).symm.trans ht)

lemma Kept.noEarlyData (h : Kept c c') (hc : c.NoEarlyData) : c'.NoEarlyData := by
  intro e he
  obtain ⟨r, hr, rfl⟩ := List.mem_map.mp he
  rw [h.extensions] at hr
  rw [h.typeId r]
  exact hc _ (List.mem_map_of_mem hr)

/-! ## The offered session -/

/-- Without ECH, marshalling keeps the identities. -/
lemma UConn.ShowsPsk.marshalClientHello {u : Unit} {r : Ref} {e : UtlsPreSharedKeyExtension}
    (h : c.ShowsPsk r e) (hech : c.config.encryptedClientHelloConfigList = none)
    (hm : marshalClientHello d c = .ok u c') :
    ∃ e', e'.uncached = e.uncached ∧ c'.ShowsPsk r e' := by
  obtain ⟨_, c1, h1, -⟩ := bind_eq_ok.mp hm
  rw [marshalClientHello_noEch d hech h1] at hm
  obtain ⟨e1, hu1, hs1⟩ := h.applyConfig d h1
  have hstep := (marshalClientHelloNoECH_ok d hm).step
  have hp := hs1.prepared.configStep hstep.configStep
  obtain ⟨heap, draws, raw, rfl, hrefresh⟩ := hstep
  obtain ⟨e2, he2, hu2⟩ := (hrefresh r).psk_right hs1.ext
  exact ⟨e2, hu2.trans hu1, hs1.of_uncached hp rfl he2 hu2 rfl⟩

/-- Patching keeps the identities and the session. -/
lemma UConn.ShowsPsk.patched {r : Ref} {e : UtlsPreSharedKeyExtension}
    (h : c.ShowsPsk r e) (hset : c.sessionController.state = .pskExtAllSet) (hp : Patched d c c') :
    c'.session = c.session ∧ ∃ e', e'.identities = e.identities ∧ c'.ShowsPsk r e' := by
  obtain ⟨hp', -⟩ := h.prepared.patched d hp
  cases hp with
  | nothing hno => exact ⟨rfl, e, rfl, h⟩
  | @binders r' n c1 c2 _ hr hl hw =>
    cases h.owner.symm.trans hr
    have hstep := (keeps_extLen d r).of_ok hl
    obtain ⟨heap, draws, raw, rfl, hrefresh⟩ := hstep
    obtain ⟨e1, he1, hu1⟩ := (hrefresh r).psk_right h.ext
    have hids1 : e1.identities = e.identities :=
      field_of_uncached hu1 identities
    have hoffers1 : e1.offersPsk = e.offersPsk :=
      field_of_uncached hu1 offersPsk
    -- the binders are written or not
    have hc2 : ∃ e2, c2.heap r = .utlsPreSharedKey e2 ∧ e2.identities = e1.identities ∧
        e2.offersPsk = e1.offersPsk ∧ c2.sessionController = c.sessionController ∧
        c2.session = c.session ∧ c2.helloPskIdentities = c.helloPskIdentities := by
      rcases hw with rfl | ⟨e2, he2, -, -, hw⟩
      · exact ⟨e1, he1, rfl, rfl, rfl, rfl, rfl⟩
      · cases he1.symm.trans he2
        rcases writeBinders_eq_ok d hw with rfl | ⟨suite, b, -, -, -, -, rfl⟩
        · exact ⟨e1, he1, rfl, rfl, rfl, rfl, rfl⟩
        · exact ⟨_, Function.update_self r _ _, rfl, rfl, rfl, rfl, rfl⟩
    obtain ⟨e2, he2, hids2, hoffers2, hsc2, hsession2, hshared2⟩ := hc2
    have hwritten : c2.pskWritten r =
        ({ c2 with binderKey := (c2.heap r).preSharedKeyCommon.binderKey }).updSC
          fun s => { s with state := .pskExtAllSet } := by
      rw [UConn.pskWritten, if_neg]
      rw [hsc2, hset]
      decide
    have howner : (c2.pskWritten r).sessionController.pskExtension = some r := by
      rw [hwritten]
      change c2.sessionController.pskExtension = some r
      rw [hsc2, h.owner]
    have hext : (c2.pskWritten r).heap r = .utlsPreSharedKey e2 := by
      rw [hwritten]
      exact he2
    have hstate : (c2.pskWritten r).sessionController.state = .pskExtAllSet := by
      rw [hwritten]
      rfl
    refine ⟨?_, e2, hids2.trans hids1, hp', howner, hext, ?_, hp'.ready hstate r e2 howner hext, ?_⟩
    · rw [hwritten]
      exact hsession2
    · rw [hoffers2, hoffers1, h.offers]
    · rw [hwritten]
      exact hshared2.trans h.shared

/-- The first build will offer the session `s`, which is one of TLS 1.3. -/
structure UConn.WillResume (c : UConn) (s : SessionState) : Prop where
  on : c.config.sessionsOff = false
  accepts : judgeSession d c = .accept s
  version : s.version = VersionTLS13
  ext : ∃ r e, c.extensions.getLast? = some r ∧ c.heap r = .utlsPreSharedKey e

/-- It then does, and the session is the one of the handshake state. -/
lemma UConn.WillResume.showsPsk {s : SessionState} (hc : Fresh d c)
    (hech : c.config.encryptedClientHelloConfigList = none) (run : BuildRun d true c c')
    (hw : run.applied.WillResume d s) :
    c'.session = some s ∧ ∃ r e, e.identities = [sessionIdentity run.applied s] ∧ c'.ShowsPsk r e := by
  obtain ⟨hprep, hload, hmarshal, hpatch⟩ := run.first d hc.notBuilt
  obtain ⟨-, hech3, hstep4⟩ := run.plain d hc.sound hc.notBuilt hech
  obtain ⟨hp1, hst⟩ := hc.sound.prepareBuild d hprep
  have hstep := (keeps_applyConfig d).of_ok run.apply
  have hp2 := hp1.configStep hstep
  obtain ⟨r, e, hlast, he⟩ := hw.ext
  have howner := hp2.only r (mem_of_getLast? hlast) (by rw [he]; rfl)
  have hidle : run.applied.Idle := ((hc.idle d).of_standing hst).of_standing (hstep.field UConn.standing)
  obtain ⟨e3, hc3⟩ := uLoadSession_accept d hidle howner hw.on hw.accepts hw.version hload
  obtain ⟨e', suite, hoffers⟩ :=
    offersSession_of_accept d hp2 hidle howner hw.on hw.accepts hw.version hload
  obtain ⟨e4, hu4, hs4⟩ := hoffers.shows.marshalClientHello d hech3 hmarshal
  have hset : run.marshalled.sessionController.state = .pskExtAllSet := by
    rw [hstep4.field fun c => c.sessionController.state, hc3]
    rfl
  obtain ⟨_, c5, h5, hfinal⟩ := bind_eq_ok.mp hpatch
  have hfinal := finalCheck_eq_ok hfinal
  obtain ⟨hsession5, e5, hids5, hs5⟩ := hs4.patched d hset (uApplyPatch_cases d h5).1
  have hsession : c5.session = some s := by
    rw [hsession5, hstep4.field UConn.session, hc3, UConn.session_offerPsk, session_loadedSession]
  have hids : e5.identities = [sessionIdentity run.applied s] := by
    rw [hids5, field_of_uncached hu4 identities, hoffers.identities]
  have hbuilt : (({ run.patched with clientHelloBuildStatus := .buildByUtls } : UConn).session = some s ∧
      ∃ r e, e.identities = [sessionIdentity run.applied s] ∧
        ({ run.patched with clientHelloBuildStatus := .buildByUtls } : UConn).ShowsPsk r e) := by
    rw [hfinal]
    refine ⟨hsession, r, e5, hids, ⟨⟨?_, hs5.prepared.settled, hs5.prepared.random,
      hs5.prepared.placed, hs5.prepared.only, hs5.prepared.ready⟩, hs5.owner, hs5.ext, hs5.offers,
      hs5.ready, hs5.shared⟩⟩
    exact hs5.prepared.tidy.of_owners rfl fun _ => .refl _
  rwa [← run.result] at hbuilt

/-- The raw extension of the pre-shared key extension. -/
lemma UConn.ShowsPsk.offersTicket {r : Ref} {e : UtlsPreSharedKeyExtension}
    (h : c.ShowsPsk r e) {id : PskIdentity} (hids : e.identities = [id]) {w : WireHello}
    (hw : w.extensions = rawExts d.parseIP c.exts) : w.OffersTicket id.label := by
  have hbinders : e.binders.length ≠ 0 := by
    rw [← h.ready.1, hids]
    simp
  have hraw : (c.heap r).rawExt d.parseIP = some ⟨extensionPreSharedKey,
      vec16 (pskIdentityBytes [id]) ++ vec16 (pskBinderBytes e.binders)⟩ := by
    rw [h.ext, Ext.rawExt, Ext.wire, pskWire, if_neg (by simp [hids, hbinders]), hids,
      rawExtOf_extFrame]
  refine ⟨⟨extensionPreSharedKey, vec16 (pskIdentityBytes [id]) ++ vec16 (pskBinderBytes e.binders)⟩, ?_,
    rfl, id.obfuscatedTicketAge, pskBinderBytes e.binders, rfl⟩
  rw [hw]
  exact mem_filterMap.mpr ⟨_, List.mem_map_of_mem h.mem, hraw⟩

/-! ## The second hello -/

/-- Without the extension in the first hello there is none in the second. -/
lemma RetryRun.noEarlyData {suite : CipherSuiteTLS13} {hs hs' : HandshakeState13}
    (run : RetryRun d suite hs c hs' c') (hc : c.Has c.extensions) (hx : c.RegularExts)
    (hno : c.NoEarlyData) (hh : c.hello.HeaderFits) : hs'.NoEarlyData := by
  obtain ⟨c1, hhello, hm, hmem⟩ := run.mem_exts hc
  have hno1 : c1.NoEarlyData := by
    intro e he
    rcases hmem e he with he | rfl | rfl
    · exact hno e he
    · simp [Ext.typeId, extensionKeyShare, extensionEarlyData]
    · simp [Ext.typeId, extensionCookie, extensionEarlyData]
  have hx1 : c1.RegularExts := by
    intro e he
    rcases hmem e he with he | rfl | rfl
    · exact hx e he
    · trivial
    · trivial
  have hstep := (marshalClientHelloNoECH_ok d hm).step.configStep
  have hcur : c'.Current d :=
    (marshalClientHelloNoECH_ok d hm).current d hx1 (by rw [hhello, hh.random])
  have hfits : c'.hello.HeaderFits := by
    refine .of_header hh ?_
    rw [hstep.header, hhello]
  intro raw w hraw hw
  have horiginal : c'.hello.original = some raw := by
    rw [ClientHelloMsg.marshal, run.hello_original] at hraw
    have hraw : some c'.raw = some raw := hraw
    have hcur : c'.hello.original = some _ := hcur
    rw [← hraw, UConn.raw, hcur, getD_some]
  exact (hstep.kept.noEarlyData hno1).not_has d (hcur.extensions_eq d hfits horiginal hw)

/-- A hello with a pre-shared key is not sent again, unless the server has chosen another hash. -/
lemma RetryRun.false_of_psk {suite pskSuite : CipherSuiteTLS13} {hs hs' : HandshakeState13}
    {s : SessionState} (run : RetryRun d suite hs c hs' c') (hids : hs.hello.pskIdentities ≠ [])
    (hs' : hs.session = some s) (hsuite : cipherSuiteTLS13ByID s.cipherSuite = some pskSuite)
    (hhash : pskSuite.hash = suite.hash) : False := by
  have hids1 := (run.group.psk_eq d).1
  obtain ⟨hnil, -⟩ := retryExtensions_ok d run.exts
  have hpsk := run.psk
  rw [retryPsk, if_neg] at hpsk
  · have hsession : (hs.retried d suite).session = some s := hs'
    rw [hsession] at hpsk
    obtain ⟨x, hx, hrest⟩ := ofOption_bind_eq_ok.mp hpsk
    cases hsuite.symm.trans hx
    rw [if_neg (by simp [hhash]), run_get_bind] at hrest
    obtain ⟨hbound, -⟩ := ofOption_eq_ok.mp hrest
    obtain ⟨b, -, hupdate⟩ := bind_eq_some_iff.mp hbound
    rw [ClientHelloMsg.updateBinders] at hupdate
    split_ifs at hupdate
    have hlen := congrArg (fun m : ClientHelloMsg => m.pskIdentities.length) (some.inj hupdate)
    simp only [length_modify, hids1, hnil, length_nil] at hlen
    exact hids (length_eq_zero_iff.mp hlen)
  · rw [hids1]
    exact fun h0 => hids (length_eq_zero_iff.mp h0)

/-! ## Handshakes of new connections -/

/-- The hello of a first build is marshalled from the connection it leaves. -/
lemma BuildRun.extensions_eq (hc : Fresh d c)
    (hech : c.config.encryptedClientHelloConfigList = none) (run : BuildRun d true c c')
    (hsuites : run.prepared.hello.cipherSuites.length < 32768) :
    c'.Prepared ∧ c'.hello.HeaderFits ∧ ∀ raw w, c'.privateHello.marshal = some raw →
      readHello raw = some w → w.extensions = rawExts d.parseIP c'.exts := by
  have hprep := (run.first d hc.notBuilt).prepare
  have hbuilt := Built.of_run d (hc.faithful d hech) (.inl hc.notBuilt) run
  have hfits : c'.hello.HeaderFits :=
    (hc.headerFits d hprep hsuites).of_header (run.kept d hc hech).header
  refine ⟨hbuilt.prepared, hfits, fun raw w hraw hw => ?_⟩
  have horiginal : c'.hello.original = some _ := hbuilt.current
  rw [ClientHelloMsg.marshal, show c'.privateHello.original = c'.hello.original from rfl,
    horiginal] at hraw
  exact hbuilt.current.extensions_eq d hfits (horiginal.trans hraw) hw

/-- A first hello announces early data only with a session if the specification does not announce
any or the build offers a session of TLS 1.3.  A second hello does not announce any if the
specification does not, or if the hash of that session is the one that the server has chosen: then
there is no second hello. -/
theorem early_data_needs_session {c c₁ c₂ : UConn} (hc : Fresh d c)
    (hech : c.config.encryptedClientHelloConfigList = none) (hp : prepareBuild d c = .ok () c₁)
    (ha : applyConfig d c₁ = .ok () c₂) (hsuites : c₁.hello.cipherSuites.length < 32768)
    (confirmation : HashId → Bytes → String → Bytes → Bytes) (sh : ServerHelloMsg) :
    ((c₁.NoEarlyData ∨ ∃ s, c₂.WillResume d s) →
      ∀ hs c', startHandshake13 d sh c = .ok hs c' → hs.EarlyDataBound) ∧
    ((c₁.NoEarlyData ∨ ∃ s, c₂.WillResume d s ∧ ∀ x y, cipherSuiteTLS13ByID s.cipherSuite = some x →
        cipherSuiteTLS13ByID sh.cipherSuite = some y → x.hash = y.hash) →
      ∀ hs c', secondHello d confirmation sh c = .ok (some hs) c' → hs.NoEarlyData) := by
  -- the run of the build, with the connections of the statement
  have hrun : ∀ b, buildHandshakeState d true c = .ok () b →
      ∃ run : BuildRun d true c b, run.prepared = c₁ ∧ run.applied = c₂ := by
    intro b hb
    obtain ⟨run⟩ := buildHandshakeState_run d hb
    have hprep := (run.first d hc.notBuilt).prepare
    have h1 : run.prepared = c₁ := by
      rw [hp] at hprep
      cases hprep
      rfl
    have h2 := run.apply
    rw [h1, ha] at h2
    cases h2
    exact ⟨run, h1, rfl⟩
  refine ⟨fun hcond hs c' h => ?_, fun hcond hs c' h => ?_⟩
  · obtain ⟨hbuild, rfl⟩ := startHandshake13_ok d h
    obtain ⟨run, rfl, rfl⟩ := hrun c' hbuild
    obtain ⟨-, -, hexts⟩ := run.extensions_eq d hc hech hsuites
    intro raw w hraw hw hhas
    rcases hcond with hno | ⟨s, hresume⟩
    · exact absurd hhas (((run.kept d hc hech).noEarlyData hno).not_has d (hexts raw w hraw hw))
    · obtain ⟨hsession, r, e, hids, hshows⟩ := hresume.showsPsk d hc hech run
      exact ⟨s, hsession, hshows.offersTicket d hids (hexts raw w hraw hw)⟩
  · have hctx : ∀ b, buildHandshakeState d true c = .ok () b → b.echCtx = none := by
      intro b hb
      obtain ⟨run, rfl, -⟩ := hrun b hb
      exact (run.kept d hc hech).echCtx.trans (hc.echCtx d hech hp)
    obtain ⟨second⟩ := exists_secondRun d hctx h
    obtain ⟨run, rfl, rfl⟩ := hrun second.built second.build
    obtain ⟨hprepared, hfits, -⟩ := run.extensions_eq d hc hech hsuites
    rcases hcond with hno | ⟨s, hresume, hhash⟩
    · exact second.retry.noEarlyData d hprepared.tidy.extensions hprepared.tidy.regularExts
        ((run.kept d hc hech).noEarlyData hno) hfits
    · obtain ⟨hsession, r, e, hids, hshows⟩ := hresume.showsPsk d hc hech run
      obtain ⟨-, -, hsuite⟩ := judgeSession_accept d hresume.accepts
      obtain ⟨x, hx⟩ := isSome_iff_exists.mp (hsuite.mpr hresume.version)
      have hne : second.first.hello.pskIdentities ≠ [] := by
        rw [second.hello]
        change second.built.pskIdentities ≠ []
        rw [hshows.pskIdentities_eq, hids]
        simp
      exact (second.retry.false_of_psk d hne (second.session.trans hsession) hx
        (hhash x second.suite hx second.suite_eq)).elim

end Deps

/-- The extensions of a specification of TLS 1.3 that announces early data. -/
def earlySpecExts : Ref → Ext
  | 0 => .supportedCurves [X25519, CurveP256]
  | 1 => .keyShare [⟨X25519, []⟩]
  | 2 => .fakeEarlyData
  | r => pskSpecExts r

lemma regular_earlySpecExts (r : Ref) : (earlySpecExts r).Regular := by
  unfold earlySpecExts
  split
  · trivial
  · trivial
  · trivial
  · exact regular_pskSpecExts _

/-- A client with such a specification. -/
def earlyClient (refs : List Ref) (cache : ClientSessionCache) : UConn :=
  endState (applyPreset .sample { echSpec with extensions := refs } (uClient earlySpecExts 4
    { serverName := [0x61], clientSessionCache := some cache } {} .custom))

/-- A HelloRetryRequest for the second curve. -/
def retryRequest : ServerHelloMsg where
  original := [2, 0, 0, 0]
  vers := VersionTLS12
  random := helloRetryRequestRandom
  sessionId := List.replicate 32 3
  cipherSuite := 0x1301
  supportedVersion := VersionTLS13
  selectedGroup := CurveP256

/-- The hello announces early data. -/
def HandshakeState13.announces (hs : HandshakeState13) : Bool :=
  match hs.hello.marshal.bind readHello with
  | some w => w.extensions.any fun x => x.extType == extensionEarlyData
  | none => false

lemma HandshakeState13.exists_of_announces {hs : HandshakeState13} (h : hs.announces = true) :
    ∃ raw w, hs.hello.marshal = some raw ∧ readHello raw = some w ∧ w.Has extensionEarlyData := by
  unfold HandshakeState13.announces at h
  split at h
  · rename_i w hw
    obtain ⟨raw, hraw, hread⟩ := bind_eq_some_iff.mp hw
    obtain ⟨x, hx, ht⟩ := List.any_eq_true.mp h
    exact ⟨raw, w, hraw, hread, x, hx, beq_iff_eq.mp ht⟩
  · cases h

/-- Without a session in the cache, the first hello and the second one announce early data. -/
theorem early_data_without_session :
    (∃ hs c', startHandshake13 .sample retryRequest (earlyClient [0, 1, 2] fun _ => none) = .ok hs c' ∧
      ¬hs.EarlyDataBound) ∧
    ∃ hs c', secondHello .sample (fun _ _ _ _ => []) retryRequest
      (earlyClient [0, 1, 2] fun _ => none) = .ok (some hs) c' ∧ ¬hs.NoEarlyData := by
  constructor
  · obtain ⟨hs, c', h, htest⟩ := exists_eq_ok_of_returnsWith (show returnsWith
      (fun hs _ => hs.session.isNone && hs.announces)
      (startHandshake13 .sample retryRequest (earlyClient [0, 1, 2] fun _ => none)) = true
      by decide +kernel)
    rw [Bool.and_eq_true] at htest
    refine ⟨hs, c', h, fun hbound => ?_⟩
    obtain ⟨raw, w, hraw, hw, hhas⟩ := HandshakeState13.exists_of_announces htest.2
    obtain ⟨s, hs, -⟩ := hbound raw w hraw hw hhas
    rw [hs] at htest
    exact absurd htest.1 (by simp)
  · obtain ⟨o, c', h, htest⟩ := exists_eq_ok_of_returnsWith (show returnsWith
      (fun o _ => (o.map HandshakeState13.announces).getD false)
      (secondHello .sample (fun _ _ _ _ => []) retryRequest (earlyClient [0, 1, 2] fun _ => none)) = true
      by decide +kernel)
    cases o with
    | none => cases htest
    | some hs =>
      refine ⟨hs, c', h, fun hno => ?_⟩
      obtain ⟨raw, w, hraw, hw, hhas⟩ := HandshakeState13.exists_of_announces htest
      exact hno raw w hraw hw hhas

/-- With a session of TLS 1.3 in the cache the first hello offers it, and there is no second one
that announces early data. -/
theorem early_data_needs_session_resuming :
    (∃ hs c', startHandshake13 .sample retryRequest (earlyClient [0, 1, 2, 3] fun _ => some sampleSession) =
      .ok hs c' ∧ hs.announces = true ∧ hs.EarlyDataBound) ∧
    ∀ hs c', secondHello .sample (fun _ _ _ _ => []) retryRequest
      (earlyClient [0, 1, 2, 3] fun _ => some sampleSession) = .ok (some hs) c' → hs.NoEarlyData := by
  set c := earlyClient [0, 1, 2, 3] fun _ => some sampleSession
  have hfresh : Fresh .sample c := by
    refine Fresh.custom _ 4 _ _ { echSpec with extensions := [0, 1, 2, 3] } ?_ ?_
      (eq_ok_of_returns (by decide +kernel))
    · exact fun r _ => regular_earlySpecExts r
    · simp
  have happly := eq_ok_of_returns (show returns (applyConfig .sample c) = true by decide +kernel)
  have hresume : (endState (applyConfig .sample c)).WillResume .sample sampleSession :=
    ⟨by decide +kernel, by decide +kernel, rfl, 3, _, rfl, rfl⟩
  obtain ⟨hfirst, hsecond⟩ := early_data_needs_session .sample hfresh rfl rfl happly (by decide +kernel)
    (fun _ _ _ _ => []) retryRequest
  obtain ⟨hs, c', h, htest⟩ := exists_eq_ok_of_returnsWith (show returnsWith
    (fun hs _ => hs.announces) (startHandshake13 .sample retryRequest c) = true by decide +kernel)
  refine ⟨⟨hs, c', h, htest, hfirst (.inr ⟨_, hresume⟩) hs c' h⟩,
    hsecond (.inr ⟨_, hresume, fun x y hx hy => ?_⟩)⟩
  cases hx
  cases hy
  rfl

end Utls
