import Utls.BytesSent
import Utls.EmptyPsk

/-!
# The binder of a resumed session

Without ECH, a first build that offers a session of TLS 1.3 marshals the hello with a zero binder
(`UConn.ZeroBound`), and then patches the binder over its end (`UConn.Bound`).  The error that
patching may drop does not occur, since the zero binder has the length of the real one
(`UConn.ZeroBound.bound`).
-/

namespace Utls

open Wire Exec List Function

variable {c c' : UConn} {r : Ref} {e : UtlsPreSharedKeyExtension} {u : Unit}

section Deps

variable (d : Deps)

/-! ## From the specification to the loaded session -/

/-- A pre-shared key extension of the specification has been reset when it is taken over. -/
lemma Fresh.pskReset {c1 : UConn} (hc : Fresh d c) (hp : prepareBuild d c = .ok () c1)
    (hr : c1.sessionController.pskExtension = some r) (he : c1.heap r = .utlsPreSharedKey e) :
    e.session = none ∧ e.identities = [] ∧ e.cachedLength = none := by
  obtain ⟨p, x, y, ha, hn, hc1⟩ := hc.applied d hp
  have hy : y.sessionController.pskExtension = some r ∧ y.heap r = .utlsPreSharedKey e := by
    rcases hc1 with rfl | rfl <;> exact ⟨hr, he⟩
  obtain ⟨hsession, hids, hcached, -⟩ := ha.blank hn hy.1 hy.2
  exact ⟨hsession, hids, hcached⟩

/-- Applying the configuration leaves an extension alone that has nothing to offer. -/
lemma ConfigStep.psk_eq (h : ConfigStep c c') (he : c.heap r = .utlsPreSharedKey e)
    (hb : e.isBlank = true) : c'.heap r = .utlsPreSharedKey e := by
  have hsteady := (h.heap r).steady
  rw [he] at hsteady
  exact hsteady (.inl hb) rfl trivial

/-- When a controller without a session has everything set after loading, a session was accepted and
handed to the pre-shared key extension. -/
lemma offered_of_allSet (hp : c.Prepared) (hn : c.sessionController.state = .noSession)
    (h : uLoadSession d c = .ok u c') (hset : c'.sessionController.state = .pskExtAllSet) :
    ∃ s r e, judgeSession d c = .accept s ∧ c.sessionController.pskExtension = some r ∧
      c.heap r = .utlsPreSharedKey e ∧ c' = c.afterLoad.offerPsk r e (loadedSession d c s) := by
  have hno : c'.sessionController.state ≠ c.sessionController.state := by
    rw [hset, hn]
    decide
  cases uLoadSession_cases d h with
  | unchanged => exact absurd rfl hno
  | ticketGiven _ hst => exact absurd hst hp.settled.1
  | pskGiven _ hst => exact absurd hst hp.settled.2
  | nothing _ => exact absurd rfl hno
  | expired _ => exact absurd rfl hno
  | @offered s _ _ hj ho =>
    cases ho with
    | ticket _ _ _ _ => cases hset
    | skipped _ _ => exact absurd rfl hno
    | @psk r e _ hr he _ _ => exact ⟨s, r, e, hj, hr, he, rfl⟩

/-! ## Patching -/

/-- If the extension is sent and its binders are to be patched, they are written. -/
lemma uApplyPatch_writes
    (hs : c.shouldUpdateBinders = true) (hr : c.sessionController.pskExtension = some r)
    (he : c.heap r = .utlsPreSharedKey e) (hskip : e.skipBinderPatching = false)
    (hblank : e.isBlank = false) (hlen : e.cachedLength.getD (pskExtLen e.identities e.binders) ≠ 0)
    (h : uApplyPatch d c = .ok u c') :
    ∃ e1 c2,
      e1 = { e with cachedLength := some (e.cachedLength.getD (pskExtLen e.identities e.binders)) } ∧
      writeBinders d r e1 (c.store r (.utlsPreSharedKey e1)) = .ok () c2 ∧ c' = c2.pskWritten r ∧
      c.raw.length = c'.raw.length := by
  set e1 : UtlsPreSharedKeyExtension :=
    { e with cachedLength := some (e.cachedLength.getD (pskExtLen e.identities e.binders)) } with he1
  have hlen1 : extLen d r c = .ok (e.cachedLength.getD (pskExtLen e.identities e.binders))
      (c.store r (.utlsPreSharedKey e1)) := by
    have hl : (Ext.utlsPreSharedKey e1).len d.parseIP =
        e.cachedLength.getD (pskExtLen e.identities e.binders) :=
      if_neg (show ¬ e1.isBlank = true by simp [show e1.isBlank = false from hblank])
    have hfill : prepareExt d (.utlsPreSharedKey e) c = .ok (.utlsPreSharedKey e1) c := by
      rw [prepareExt, if_neg (by simp [hblank])]
      rfl
    rw [extLen, run_loadExt_bind, he, run_bind, hfill, ← hl]
    rfl
  rw [uApplyPatch, run_get_bind] at h
  obtain ⟨_, c1, h1, h⟩ := bind_eq_ok.mp h
  rw [run_get_bind] at h
  obtain ⟨hraw, rfl⟩ := assert_eq_ok.mp h
  obtain ⟨-, h1⟩ := (runIf_eq_ok.mp h1).resolve_right fun hno => hno.1 hs
  obtain ⟨_, c2, h2, h3⟩ := bind_eq_ok.mp h1
  rw [updateBinders, run_get_bind, assert_bind_eq_ok] at h2
  obtain ⟨-, h2⟩ := h2
  rw [hr] at h2
  have hpatch : patchBuiltHello d r c = writeBinders d r e1 (c.store r (.utlsPreSharedKey e1)) := by
    rw [patchBuiltHello, run_bind, hlen1]
    simp only [run_loadExt_bind, UConn.store_heap, update_self]
    rw [if_neg]
    rintro (h0 | hskip')
    · exact hlen h0
    · rw [hskip] at hskip'
      cases hskip'
  obtain ⟨r', hr', -, rfl⟩ := setPskToUConn_eq_ok.mp h3
  have hw : writeBinders d r e1 (c.store r (.utlsPreSharedKey e1)) = .ok () c2 := by
    rw [← hpatch]
    exact h2
  have hsc : c2.sessionController = c.sessionController := by
    rcases writeBinders_eq_ok d hw with rfl | ⟨suite, b, -, -, -, -, rfl⟩ <;> rfl
  rw [hsc, hr] at hr'
  cases hr'
  exact ⟨e1, c2, rfl, hw, rfl, hraw⟩

variable {suite : CipherSuiteTLS13} {s : SessionState}

/-- A zero binder of the right length is replaced. -/
lemma writeBinders_of_zero (hsuite : e.cipherSuite = some suite)
    (hb : e.binders = [List.replicate suite.hash.size 0]) (h : writeBinders d r e c = .ok () c') :
    ∃ P, P = c.raw.take (c.raw.length - bindersSize e.binders) ∧
      c' = (c.store r (.utlsPreSharedKey
        { e with binders := [pskBinder d suite e.binderKey P] })).setRaw
          (P ++ vec16 (vec8 (pskBinder d suite e.binderKey P))) := by
  refine ⟨_, rfl, ?_⟩
  have hget : e.cipherSuite.getD ⟨0, .sha256⟩ = suite := by
    rw [hsuite]
    rfl
  rw [writeBinders, run_get_bind, assert_bind_eq_ok, assert_bind_eq_ok, hget] at h
  obtain ⟨-, -, h⟩ := h
  rw [if_pos] at h
  · cases h
    rfl
  · rw [hb, length_pskBinder]
    simp

/-! ## The first build -/

/-- The session `s`, found by the connection `c₀`, is offered by the last extension of the
connection, and its binder, at the end of the hello, is over all the bytes in front of it. -/
structure UConn.Bound (c c₀ : UConn) (s : SessionState) (r : Ref) (e : UtlsPreSharedKeyExtension)
    (suite : CipherSuiteTLS13) (P : Bytes) : Prop where
  locked : c.sessionController.locked = true
  owner : c.sessionController.pskExtension = some r
  last : c.extensions.getLast? = some r
  ext : c.heap r = .utlsPreSharedKey e
  suite_eq : cipherSuiteTLS13ByID s.cipherSuite = some suite
  identities : e.identities = [sessionIdentity c₀ s]
  binderKey : c.binderKey = d.resumptionBinderKey suite.hash (d.earlySecret suite.hash s.secret)
  binder : e.binders = [d.finishedHash suite.hash c.binderKey (d.hash suite.hash P)]
  raw : c.raw = P ++ vec16 (vec8 (d.finishedHash suite.hash c.binderKey (d.hash suite.hash P)))

/-- The status of the build is no part of this. -/
lemma UConn.Bound.built {c0 : UConn} {P : Bytes} (h : c.Bound d c0 s r e suite P) :
    ({ c with clientHelloBuildStatus := .buildByUtls } : UConn).Bound d c0 s r e suite P :=
  ⟨h.locked, h.owner, h.last, h.ext, h.suite_eq, h.identities, h.binderKey, h.binder, h.raw⟩

/-- The session has been handed to the extension, and the hello has been marshalled with a zero
binder. -/
structure UConn.ZeroBound (c c₀ : UConn) (s : SessionState) (r : Ref) (e : UtlsPreSharedKeyExtension)
    (suite : CipherSuiteTLS13) : Prop where
  prepared : c.Prepared
  state : c.sessionController.state = .pskExtAllSet
  owner : c.sessionController.pskExtension = some r
  ext : c.heap r = .utlsPreSharedKey e
  holds : e.Holds d c₀ s suite
  suite_eq : cipherSuiteTLS13ByID s.cipherSuite = some suite
  patched : e.skipBinderPatching = false
  length : e.cachedLength.getD (pskExtLen e.identities e.binders) = pskExtLen e.identities e.binders

/-- Patching then binds the session. -/
theorem UConn.ZeroBound.bound {c0 : UConn} (h : c.ZeroBound d c0 s r e suite)
    (hf : finishSession d c = .ok () c') :
    c'.raw.length = c.raw.length ∧ ∃ e' P, c'.Bound d c0 s r e' suite P := by
  obtain ⟨_, c1, hpatch, hfinal⟩ := bind_eq_ok.mp hf
  have hfinal := finalCheck_eq_ok hfinal
  have hs : c.shouldUpdateBinders = true := by
    simp [UConn.shouldUpdateBinders, h.owner, h.state]
  have hids : e.identities ≠ [] := by
    rw [h.holds.identities]
    simp
  have hbinders : e.binders ≠ [] := by
    rw [h.holds.binders]
    simp
  have hblank : e.isBlank = false := by
    simp [UtlsPreSharedKeyExtension.isBlank, hids, hbinders]
  have hlen : e.cachedLength.getD (pskExtLen e.identities e.binders) ≠ 0 := by
    rw [h.length, pskExtLen, if_neg (by simp [hids, hbinders])]
    omega
  obtain ⟨e1, c2, he1, hwrite, hc1, hraw⟩ :=
    uApplyPatch_writes d hs h.owner h.ext h.patched hblank hlen hpatch
  have hsuite1 : e1.cipherSuite = some suite := by
    rw [he1]
    exact h.holds.cipherSuite
  have hbinders1 : e1.binders = [replicate suite.hash.size 0] := by
    rw [he1]
    exact h.holds.binders
  have hkey1 : e1.binderKey = d.resumptionBinderKey suite.hash (d.earlySecret suite.hash s.secret) := by
    rw [he1]
    exact h.holds.binderKey
  obtain ⟨P, -, hc2⟩ := writeBinders_of_zero d hsuite1 hbinders1 hwrite
  set e2 : UtlsPreSharedKeyExtension := { e1 with binders := [pskBinder d suite e1.binderKey P] } with he2
  have hext2 : c2.heap r = .utlsPreSharedKey e2 := by
    rw [hc2]
    exact update_self r _ _
  have hraw2 : c2.raw = P ++ vec16 (vec8 (pskBinder d suite e1.binderKey P)) := by
    rw [hc2]
    rfl
  have hsc2 : c2.sessionController = c.sessionController := by
    rw [hc2]
    rfl
  have hexts2 : c2.extensions = c.extensions := by
    rw [hc2]
    rfl
  -- writing the session to the connection again changes its binder key only
  obtain ⟨early, session, ids, key, hwritten⟩ := c2.pskWritten_eq r
  have hkey : (c2.pskWritten r).binderKey = e1.binderKey := by
    change (c2.heap r).preSharedKeyCommon.binderKey = e1.binderKey
    rw [hext2]
    rfl
  obtain ⟨pre, hpre, -⟩ := h.prepared.placed r h.owner
  rw [hfinal]
  refine ⟨?_, e2, P, ?_⟩
  · exact hraw.symm
  rw [hc1]
  refine ⟨rfl, ?_, ?_, ?_, h.suite_eq, ?_, ?_, ?_, ?_⟩
  · rw [hwritten]
    change c2.sessionController.pskExtension = some r
    rw [hsc2, h.owner]
  · rw [hwritten]
    change c2.extensions.getLast? = some r
    rw [hexts2, hpre, getLast?_concat]
  · rw [hwritten]
    exact hext2
  · rw [he2, he1]
    exact h.holds.identities
  · exact hkey.trans hkey1
  · change e2.binders = [pskBinder d suite (c2.pskWritten r).binderKey P]
    rw [hkey]
  · change (c2.pskWritten r).raw = P ++ vec16 (vec8 (pskBinder d suite (c2.pskWritten r).binderKey P))
    rw [hkey, ← hraw2, hwritten]
    rfl

/-- A session of TLS 1.3 that has been handed to an extension that was reset is bound to zero when
the hello is marshalled without ECH. -/
lemma zeroBound_of_offered {c1 c2 : UConn} (hj : judgeSession d c = .accept s)
    (hv : s.version = VersionTLS13) (hr : c.sessionController.pskExtension = some r)
    (hcached : e.cachedLength = none) (hskip : e.skipBinderPatching = false)
    (hc1 : c1 = c.afterLoad.offerPsk r e (loadedSession d c s)) (hp1 : c1.Prepared)
    (hech : c1.config.encryptedClientHelloConfigList = none)
    (hm : marshalClientHello d c1 = .ok u c2) : ∃ e' suite, c2.ZeroBound d c s r e' suite := by
  obtain ⟨-, -, hversion⟩ := judgeSession_accept d hj
  obtain ⟨suite, hsuite⟩ := Option.isSome_iff_exists.mp (hversion.mpr hv)
  have hholds := holds_initializedPsk d e c hv hsuite
  set l := loadedSession d c s
  set e1 := initializedPsk e l.session l.earlySecret l.binderKey l.pskIdentities
  have hext1 : c1.heap r = .utlsPreSharedKey e1 := by
    rw [hc1]
    exact update_self r _ c.heap
  have hstep : ConfigStep c1 c2 := by
    have hstep := configStep_marshalClientHello d hech
    rwa [hm] at hstep
  have hsized : (c2.heap r).Sized := by
    refine (hstep.heap r).sized ⟨e1, hext1, ?_, ?_, ?_⟩
    · rw [hholds.identities]
      simp
    · rw [hholds.binders]
      simp
    · have hnone : e1.cachedLength = none := hcached
      rw [hnone]
      rfl
  obtain ⟨e2, he2, -, -, hcached2⟩ := hsized
  have hsame : ∃ n, e1 = { e2 with cachedLength := n } := by
    have hw := hstep.heap r
    rw [he2] at hw
    obtain ⟨n, hn⟩ := hw.psk_left
    exact ⟨n, Ext.utlsPreSharedKey.inj (hext1.symm.trans hn)⟩
  obtain ⟨n, hsame⟩ := hsame
  have hskip1 : e1.skipBinderPatching = false := hskip
  rw [hsame] at hholds hskip1
  refine ⟨e2, suite, hp1.configStep hstep, ?_, ?_, he2,
    ⟨hholds.identities, hholds.binders, hholds.cipherSuite, hholds.binderKey⟩, hsuite, hskip1, hcached2⟩
  · rw [hstep.field fun c => c.sessionController.state, hc1]
    rfl
  · rw [hstep.field fun c => c.sessionController.pskExtension, hc1]
    exact hr

/-- Every first build without ECH that ends with everything set has handed the session in the cache
to the extension, if that session is one of TLS 1.3. -/
lemma exists_zeroBound (hc : Fresh d c) (hech : c.config.encryptedClientHelloConfigList = none)
    (run : BuildRun d true c c') (hset : c'.sessionController.state = .pskExtAllSet)
    (hcache : ∀ s, run.applied.cachedSession = some s → s.version = VersionTLS13)
    (hskip : ∀ r ∈ run.prepared.extensions, ∀ e, run.prepared.heap r = .utlsPreSharedKey e →
      e.skipBinderPatching = false) :
    ∃ s r e suite, judgeSession d run.applied = .accept s ∧
      run.marshalled.ZeroBound d run.applied s r e suite := by
  obtain ⟨hprep, hload, hmarshal, hpatch⟩ := run.first d hc.notBuilt
  obtain ⟨-, hech3, hstep4⟩ := run.plain d hc.sound hc.notBuilt hech
  obtain ⟨hp1, hst⟩ := hc.sound.prepareBuild d hprep
  have hstep2 := (keeps_applyConfig d).of_ok run.apply
  have hp2 := hp1.configStep hstep2
  have hn2 : run.applied.sessionController.state = .noSession := by
    rw [hstep2.field fun c => c.sessionController.state, (hc.idle.of_standing hst).noSession]
  have hp3 := hp2.loaded (uLoadSession_cases d hload)
  -- patching sets the state of the controller only if it was set before
  have hset3 : run.loaded.sessionController.state = .pskExtAllSet := by
    rw [← hstep4.field fun c => c.sessionController.state]
    obtain ⟨_, c5, happly5, hfinal⟩ := bind_eq_ok.mp hpatch
    have hset5 : c5.sessionController.state = .pskExtAllSet := by
      rw [run.result, finalCheck_eq_ok hfinal] at hset
      exact hset
    cases (uApplyPatch_cases d happly5).1 with
    | nothing _ => exact hset5
    | binders hs _ _ _ =>
      simp only [UConn.shouldUpdateBinders, Bool.and_eq_true, Bool.or_eq_true, beq_iff_eq] at hs
      exact hs.2.resolve_left (hp3.configStep hstep4).settled.2
  obtain ⟨s, r, e, hj, hr, he, hc3⟩ := offered_of_allSet d hp2 hn2 hload hset3
  -- applying the configuration has left the extension as the specification gave it
  have hr1 : run.prepared.sessionController.pskExtension = some r := by
    rw [← hstep2.field fun c => c.sessionController.pskExtension, hr]
  obtain ⟨e1, he1⟩ : ∃ e1, run.prepared.heap r = .utlsPreSharedKey e1 := by
    have hw := hstep2.heap r
    rw [he] at hw
    obtain ⟨n, hn⟩ := hw.psk_left
    exact ⟨_, hn⟩
  obtain ⟨hsession, hids, hcached⟩ := hc.pskReset d hprep hr1 he1
  have hee : e = e1 := by
    have hkept := hstep2.psk_eq he1 (by simp [UtlsPreSharedKeyExtension.isBlank, hsession, hids])
    rw [he] at hkept
    exact Ext.utlsPreSharedKey.inj hkept
  subst hee
  obtain ⟨pre, hpre, -⟩ := hp1.placed r hr1
  obtain ⟨e', suite, hzero⟩ := zeroBound_of_offered d hj (hcache s (judgeSession_accept d hj).1) hr hcached
    (hskip r (by simp [hpre]) e he1) hc3 hp3 hech3 hmarshal
  exact ⟨s, r, e', suite, hj, hzero⟩

/-- After every first build without ECH that ends with everything set for a session of TLS 1.3, the
controller is locked, the last extension is its pre-shared key extension, patching has kept the
length of the hello, and the hello ends in the binder over all that comes before. -/
theorem psk_binder_law {c c₁ c₂ c' : UConn} {r : Ref} {e : UtlsPreSharedKeyExtension}
    (hc : Fresh d c)
    (hech : c.config.encryptedClientHelloConfigList = none) (hp : prepareBuild d c = .ok () c₁)
    (hlast : c₁.extensions.getLast? = some r) (he : c₁.heap r = .utlsPreSharedKey e)
    (hzero : e.skipBinderPatching = false) (ha : applyConfig d c₁ = .ok () c₂)
    (hcache : ∀ s, c₂.cachedSession = some s → s.version = VersionTLS13)
    (h : buildHandshakeState d true c = .ok () c')
    (hset : c'.sessionController.state = .pskExtAllSet) :
    c'.sessionController.locked = true ∧
      (∃ r, c'.extensions.getLast? = some r ∧ c'.sessionController.pskExtension = some r) ∧
      (∃ c₃ c₄, uLoadSession d c₂ = .ok () c₃ ∧ marshalClientHello d c₃ = .ok () c₄ ∧
        c'.raw.length = c₄.raw.length) ∧
      ∃ s suite P, c₂.cachedSession = some s ∧ cipherSuiteTLS13ByID s.cipherSuite = some suite ∧
        c'.binderKey = d.resumptionBinderKey suite.hash (d.earlySecret suite.hash s.secret) ∧
        c'.raw = P ++ vec16 (vec8 (d.finishedHash suite.hash c'.binderKey (d.hash suite.hash P))) := by
  obtain ⟨run⟩ := buildHandshakeState_run d h
  obtain ⟨hprep, hload, hmarshal, hpatch⟩ := run.first d hc.notBuilt
  cases hp.symm.trans hprep
  cases ha.symm.trans run.apply
  obtain ⟨hp1, -⟩ := hc.sound.prepareBuild d hp
  have howner := hp1.only r (mem_of_getLast? hlast) (by rw [he]; rfl)
  have hskip : ∀ q ∈ run.prepared.extensions, ∀ x, run.prepared.heap q = .utlsPreSharedKey x →
      x.skipBinderPatching = false := by
    intro q hq x hx
    -- it is the only pre-shared key extension of the list
    have hq' := hp1.only q hq (by rw [hx]; rfl)
    cases howner.symm.trans hq'
    rw [he] at hx
    cases hx
    exact hzero
  obtain ⟨s, q, x, suite, hj, hz⟩ := exists_zeroBound d hc hech run hset hcache hskip
  obtain ⟨hlen, x', P, hbound⟩ := hz.bound d hpatch
  have hbuilt := hbound.built d
  have hraw : ({ run.patched with clientHelloBuildStatus := .buildByUtls } : UConn).raw.length =
      run.marshalled.raw.length := hlen
  rw [← run.result] at hbuilt hraw
  exact ⟨hbuilt.locked, ⟨q, hbuilt.last, hbuilt.owner⟩, ⟨_, _, hload, hmarshal, hraw⟩, s, suite, P,
    (judgeSession_accept d hj).1, hbuilt.suite_eq, hbuilt.binderKey, hbuilt.raw⟩

end Deps

/-- The hello of a client with a session of TLS 1.3 in its cache ends in the binder. -/
theorem psk_binder_law_resuming :
    ∃ c' P, buildHandshakeState .sample true (resumingClient [0, 1, 3]) = .ok () c' ∧
      c'.sessionController.locked = true ∧
      c'.raw = P ++ vec16 (vec8 (Deps.sample.finishedHash .sha256 c'.binderKey
        (Deps.sample.hash .sha256 P))) := by
  have hfresh := fresh_resumingClient
  have hprep : prepareBuild .sample (resumingClient [0, 1, 3]) = .ok () (resumingClient [0, 1, 3]) := rfl
  have happly := eq_ok_of_returns (show returns
    (applyConfig .sample (resumingClient [0, 1, 3])) = true by decide +kernel)
  set c2 := endState (applyConfig .sample (resumingClient [0, 1, 3]))
  have hcached : c2.cachedSession = some sampleSession := by decide +kernel
  have hbuild := eq_ok_of_returns (show returns
    (buildHandshakeState .sample true (resumingClient [0, 1, 3])) = true by decide +kernel)
  set c' := endState (buildHandshakeState .sample true (resumingClient [0, 1, 3]))
  obtain ⟨hlocked, -, -, s, suite, P, hs, hsuite, -, hraw⟩ :=
    psk_binder_law .sample hfresh rfl hprep rfl rfl rfl happly
      (fun s hs => by rw [hcached] at hs; cases hs; rfl) hbuild (by decide +kernel)
  rw [hcached] at hs
  cases hs
  cases hsuite
  exact ⟨c', P, hbuild, hlocked, hraw⟩

end Utls
