import Utls.Sync

/-!
# What a build does

`Prepared` collects what holds from the moment the specification has been applied: the random has
its 32 bytes, the pre-shared key extension of the controller is the last one, and once it offers a
session it has a binder for every identity.  Applying the configuration, loading the session,
marshalling and patching the binders all keep it, and the first marshalling establishes that
`Hello.Raw` is the encoding of the hello (`buildHandshakeState_ok`).
-/

namespace Utls

open Wire Exec Option Function
open List hiding after

variable {r : Ref} {u : Unit}

variable {c c' : UConn} {d : Deps}

/-! ## The pieces of a build -/

section Deps

variable (d : Deps)

/-- The parts of a build that returns: preparing, applying the configuration, loading the session,
marshalling and patching.  A second build leaves out the first and the fourth. -/
structure BuildRun (load : Bool) (c c' : UConn) where
  prepared : UConn
  applied : UConn
  loaded : UConn
  marshalled : UConn
  patched : UConn
  status : c.clientHelloBuildStatus = .buildByUtls ∨ c.clientHelloBuildStatus = .notBuilt
  prepare : (c.clientHelloBuildStatus = .notBuilt ∧ prepareBuild d c = .ok () prepared) ∨
    (c.clientHelloBuildStatus = .buildByUtls ∧ c = prepared)
  apply : applyConfig d prepared = .ok () applied
  loads : (load = true ∧ uLoadSession d applied = .ok () loaded) ∨ (load = false ∧ applied = loaded)
  marshal : (c.clientHelloBuildStatus = .notBuilt ∧ marshalClientHello d loaded = .ok () marshalled) ∨
    (c.clientHelloBuildStatus = .buildByUtls ∧ loaded = marshalled)
  patches : (load = true ∧ finishSession d marshalled = .ok () patched) ∨
    (load = false ∧ marshalled = patched)
  result : c' = { patched with clientHelloBuildStatus := .buildByUtls }

/-- A build that returns has gone through all its steps. -/
lemma buildHandshakeState_run {load : Bool} {c c' : UConn}
    (h : buildHandshakeState d load c = .ok u c') : Nonempty (BuildRun d load c c') := by
  rw [buildHandshakeState, run_get_bind, assert_bind_eq_ok] at h
  obtain ⟨hst, h⟩ := h
  obtain ⟨_, c1, h1, h⟩ := bind_eq_ok.mp h
  obtain ⟨_, c2, h2, h⟩ := bind_eq_ok.mp h
  obtain ⟨_, c3, h3, h⟩ := bind_eq_ok.mp h
  obtain ⟨_, c4, h4, h⟩ := bind_eq_ok.mp h
  obtain ⟨_, c5, h5, h⟩ := bind_eq_ok.mp h
  cases h
  refine ⟨⟨c1, c2, c3, c4, c5, hst, ?_, h2, ?_, ?_, ?_, rfl⟩⟩
  · rcases runIf_eq_ok.mp h1 with h1 | ⟨hn, h1⟩
    · exact .inl h1
    · exact .inr ⟨hst.resolve_right hn, h1⟩
  · exact (runIf_eq_ok.mp h3).imp id fun h => ⟨by simpa using h.1, h.2⟩
  · rcases runIf_eq_ok.mp h4 with ⟨hn, h4⟩ | ⟨hn, h4⟩
    · exact .inl ⟨hst.resolve_left hn, h4⟩
    · exact .inr ⟨by simpa using hn, h4⟩
  · exact (runIf_eq_ok.mp h5).imp id fun h => ⟨by simpa using h.1, h.2⟩

/-- The steps of a first build that loads a session. -/
structure BuildRun.First {c c' : UConn} (run : BuildRun d true c c') : Prop where
  prepare : prepareBuild d c = .ok () run.prepared
  load : uLoadSession d run.applied = .ok () run.loaded
  marshal : marshalClientHello d run.loaded = .ok () run.marshalled
  finish : finishSession d run.marshalled = .ok () run.patched

/-- A first build that loads a session skips none of them. -/
lemma BuildRun.first {c c' : UConn} (run : BuildRun d true c c')
    (hn : c.clientHelloBuildStatus = .notBuilt) : run.First d where
  prepare := (run.prepare.resolve_right fun h => by rw [hn] at h; cases h.1).2
  load := (run.loads.resolve_right (by simp)).2
  marshal := (run.marshal.resolve_right fun h => by rw [hn] at h; cases h.1).2
  finish := (run.patches.resolve_right (by simp)).2

/-! ## Patching the binders -/

/-- What `uApplyPatch` does when it returns. -/
inductive Patched (c : UConn) : UConn → Prop where
  | nothing (h : c.shouldUpdateBinders = false) : Patched c c
  /-- The length of the extension is read; if it is sent, its binders are written. -/
  | binders {r : Ref} {n : Nat} {c₁ c₂ : UConn} (hs : c.shouldUpdateBinders = true)
      (hr : c.sessionController.pskExtension = some r) (hl : extLen d r c = .ok n c₁)
      (hw : c₂ = c₁ ∨ ∃ e, c₁.heap r = .utlsPreSharedKey e ∧ n ≠ 0 ∧ e.skipBinderPatching = false ∧
        writeBinders d r e c₁ = .ok () c₂) : Patched c (c₂.pskWritten r)

/-- `patchBuiltHello` reads the length of the extension, and writes the binders of one that is
sent. -/
lemma patchBuiltHello_cases {c c' : UConn} (h : patchBuiltHello d r c = .ok u c'):
    ∃ n c1, extLen d r c = .ok n c1 ∧
      (c' = c1 ∨ ∃ e, c1.heap r = .utlsPreSharedKey e ∧ n ≠ 0 ∧ e.skipBinderPatching = false ∧
        writeBinders d r e c1 = .ok () c') := by
  obtain ⟨n, c1, hl, h⟩ := bind_eq_ok.mp h
  refine ⟨n, c1, hl, ?_⟩
  rw [run_loadExt_bind] at h
  cases he : c1.heap r with
  | utlsPreSharedKey e =>
    simp only [he] at h
    split_ifs at h with hn
    · cases h
      exact .inl rfl
    · rw [not_or] at hn
      exact .inr ⟨e, rfl, hn.1, by simpa using hn.2, h⟩
  | _ =>
    simp only [he] at h
    cases h
    exact .inl rfl

/-- Reading a length and writing binders change objects and bytes, and no other field. -/
lemma field_of_patch {α : Type} {n : Nat} {c c1 c2 : UConn} (f : UConn → α)
    (hl : extLen d r c = .ok n c1)
    (hw : c2 = c1 ∨ ∃ e, c1.heap r = .utlsPreSharedKey e ∧ n ≠ 0 ∧ e.skipBinderPatching = false ∧
      writeBinders d r e c1 = .ok () c2)
    (hlen : ∀ c r e n, f ((UConn.store c r e).atDraw n) = f c := by intros; rfl)
    (hraw : ∀ c r e b, f ((UConn.store c r e).setRaw b) = f c := by intros; rfl) :
    f c2 = f c := by
  obtain ⟨e1, draws, rfl, -⟩ := extLen_eq_ok d hl
  rcases hw with rfl | ⟨e, -, -, -, hw⟩
  · exact hlen ..
  · rcases writeBinders_eq_ok d hw with rfl | ⟨suite, b, -, -, -, -, rfl⟩
    · exact hlen ..
    · exact (hraw ..).trans (hlen ..)

/-- Patching does not change the length of the hello. -/
lemma uApplyPatch_cases {c c' : UConn} (h : uApplyPatch d c = .ok u c') :
    Patched d c c' ∧ c.raw.length = c'.raw.length := by
  rw [uApplyPatch, run_get_bind] at h
  obtain ⟨_, c1, h1, h⟩ := bind_eq_ok.mp h
  rw [run_get_bind] at h
  obtain ⟨hlen, rfl⟩ := assert_eq_ok.mp h
  refine ⟨?_, hlen⟩
  rcases runIf_eq_ok.mp h1 with ⟨hs, h1⟩ | ⟨hs, rfl⟩
  · obtain ⟨_, c2, h2, h3⟩ := bind_eq_ok.mp h1
    rw [updateBinders, run_get_bind, assert_bind_eq_ok] at h2
    obtain ⟨-, h2⟩ := h2
    obtain ⟨r', hr', -, rfl⟩ := setPskToUConn_eq_ok.mp h3
    cases hr : c.sessionController.pskExtension with
    | none => simp [UConn.shouldUpdateBinders, hr] at hs
    | some r =>
      rw [hr] at h2
      obtain ⟨n, c3, hl, hw⟩ := patchBuiltHello_cases d h2
      have hsc := field_of_patch d UConn.sessionController hl hw
      have hrr : r' = r := by
        rw [hsc, hr] at hr'
        exact (some.inj hr').symm
      subst hrr
      exact .binders hs hr hl hw
  · exact .nothing (by simpa using hs)

/-- The parts of a first build that returns and loads a session. -/
structure FirstRun (c c' : UConn) where
  prepared : UConn
  applied : UConn
  loaded : UConn
  marshalled : UConn
  patched : UConn
  prepare : prepareBuild d c = .ok () prepared
  apply : applyConfig d prepared = .ok () applied
  loads : Loaded d applied loaded
  marshal : marshalClientHello d loaded = .ok () marshalled
  patches : Patched d marshalled patched
  result : c' = { patched.updSC fun s => { s with locked := true } with
    clientHelloBuildStatus := .buildByUtls }

/-- A first build that returns is such a run. -/
lemma buildHandshakeState_first {c c' : UConn} (hn : c.clientHelloBuildStatus = .notBuilt)
    (h : buildHandshakeState d true c = .ok u c') : Nonempty (FirstRun d c c') := by
  obtain ⟨run⟩ := buildHandshakeState_run d h
  have hfirst := run.first d hn
  obtain ⟨_, c1, hpatch, hfinal⟩ := bind_eq_ok.mp hfirst.finish
  exact ⟨⟨run.prepared, run.applied, run.loaded, run.marshalled, c1, hfirst.prepare, run.apply,
    uLoadSession_cases d hfirst.load, hfirst.marshal, (uApplyPatch_cases d hpatch).1,
    by rw [run.result, finalCheck_eq_ok hfinal]⟩⟩

/-! ## Parts that do not fail

Loading a session and patching the binders return or panic; neither returns an error. -/

/-- `Len` has no error to return. -/
lemma noFail_extLen (r : Ref) : NoFail (extLen d r) :=
  FailsOnly.bind (FailsOnly.get.bind fun _ => .pure _) fun e => (draws_prepareExt d e).noFail.bind
    fun _ => (FailsOnly.modify _).bind fun _ => .pure _

/-- Its checks panic instead. -/
lemma noFail_setPskToUConn : NoFail setPskToUConn := by
  refine FailsOnly.get.bind fun c => ?_
  cases c.sessionController.pskExtension with
  | none => exact .panicWith _
  | some r => exact (FailsOnly.assert _ _).bind fun _ => (FailsOnly.assert _ _).bind fun _ => .set _

/-- Its checks panic, too. -/
lemma noFail_setSessionTicketToUConn : NoFail setSessionTicketToUConn := by
  refine FailsOnly.get.bind fun c => ?_
  cases c.sessionController.sessionTicketExt with
  | none => exact .panicWith _
  | some r => exact (FailsOnly.assert _ _).bind fun _ => .set _

/-- Patching and the final check return no error. -/
lemma noFail_finishSession : NoFail (finishSession d) := by
  have hwrite : ∀ r e, NoFail (writeBinders d r e) := fun r e => FailsOnly.get.bind fun c =>
    (FailsOnly.assert _ _).bind fun _ => (FailsOnly.assert _ _).bind fun _ => FailsOnly.ite (.set _)
    (.pure _)
  have hpatch : ∀ r, NoFail (patchBuiltHello d r) := by
    refine fun r => (noFail_extLen d r).bind fun n => FailsOnly.bind (FailsOnly.get.bind fun _ => .pure _)
      fun e => ?_
    cases e with
    | utlsPreSharedKey e => exact FailsOnly.ite (.pure _) (hwrite r e)
    | _ => exact .pure _
  have hupdate : NoFail (updateBinders d) := by
    refine FailsOnly.get.bind fun c => (FailsOnly.assert _ _).bind fun _ => ?_
    cases c.sessionController.pskExtension with
    | none => exact .pure _
    | some r => exact hpatch r
  refine FailsOnly.bind ?_ fun _ => (noFail_assertControllerState _ _).bind fun _ => .modify _
  exact FailsOnly.get.bind fun _ => (FailsOnly.runIf _ (hupdate.bind fun _ => noFail_setPskToUConn)).bind
    fun _ => FailsOnly.get.bind fun _ => .assert _ _

/-- The guard adds panics only. -/
lemma noFail_initializationGuard {x : M Unit} (hx : NoFail x) :
    NoFail (initializationGuard r x) := by
  have hload : NoFail (loadExt r) := FailsOnly.get.bind fun _ => .pure _
  exact hload.bind fun _ => (FailsOnly.assert _ _).bind fun _ => hx.bind fun _ => hload.bind fun _ =>
    .assert _ _

/-- Initialising the session ticket extension. -/
lemma noFail_initSessionTicketExt (s : SessionState) (ticket : Option Bytes) :
    NoFail (initSessionTicketExt s ticket) := by
  refine (noFail_assertNotLocked _).bind fun _ => (noFail_assertHelloNotBuilt _).bind fun _ =>
    (noFail_assertControllerState _ _).bind fun _ => FailsOnly.get.bind fun c => ?_
  cases c.sessionController.sessionTicketExt with
  | none => exact noFail_assertCanSkip _ _
  | some r =>
    refine (noFail_initializationGuard ?_).bind fun _ => .modify _
    refine FailsOnly.bind (FailsOnly.get.bind fun _ => .pure _) fun e => ?_
    cases e with
    | sessionTicket t =>
      exact (FailsOnly.assert _ _).bind fun _ => (FailsOnly.assert _ _).bind fun _ => .modify _
    | _ => exact .pure _

/-- Initialising the pre-shared key extension. -/
lemma noFail_initPskExt (s : SessionState) (early key : Bytes) (identities : List PskIdentity) :
    NoFail (initPskExt s early key identities) := by
  refine (noFail_assertNotLocked _).bind fun _ => (noFail_assertHelloNotBuilt _).bind fun _ =>
    (noFail_assertControllerState _ _).bind fun _ => FailsOnly.get.bind fun c => ?_
  cases c.sessionController.pskExtension with
  | none => exact noFail_assertCanSkip _ _
  | some r =>
    refine (noFail_initializationGuard ?_).bind fun _ => .modify _
    refine FailsOnly.bind (FailsOnly.get.bind fun _ => .pure _) fun e => ?_
    cases e with
    | utlsPreSharedKey t => exact (FailsOnly.assert _ _).bind fun _ => .modify _
    | fakePreSharedKey t => exact .panicWith _
    | _ => exact .pure _

/-- Whatever the cache holds, loading a session returns no error. -/
lemma noFail_uLoadSession : NoFail (uLoadSession d) := by
  have hoffer : ∀ l, NoFail (offerSession l) := fun l => FailsOnly.ite
    ((noFail_initSessionTicketExt _ _).bind fun _ => noFail_setSessionTicketToUConn)
    ((noFail_initPskExt _ _ _ _).bind fun _ => FailsOnly.get.bind fun c =>
      FailsOnly.runIf _ (noFail_setPskToUConn.bind fun _ => .modify _))
  have hlookup : NoFail (lookupSession d) := by
    refine FailsOnly.get.bind fun c => FailsOnly.ite (.pure _) ((FailsOnly.assert _ _).bind fun _ => ?_)
    cases judgeSession d c with
    | skip => exact .pure _
    | forget => exact (FailsOnly.set _).bind fun _ => .pure _
    | accept s => exact .pure _
  have henter : NoFail onEnterLoadSessionCheck := FailsOnly.get.bind fun _ =>
    (FailsOnly.assert _ _).bind fun _ => (FailsOnly.assert _ _).bind fun _ => .set _
  have hreturn : NoFail onLoadSessionReturn := FailsOnly.get.bind fun _ =>
    (FailsOnly.assert _ _).bind fun _ => (FailsOnly.assert _ _).bind fun _ => .set _
  have habout : NoFail utlsAboutToLoadSession := FailsOnly.get.bind fun _ =>
    (FailsOnly.assert _ _).bind fun _ => .set _
  have hload : NoFail (loadAndOffer d) := by
    refine habout.bind fun _ => FailsOnly.bind (henter.bind fun _ => hlookup.bind fun _ =>
      hreturn.bind fun _ => .pure _) fun o => ?_
    cases o with
    | none => exact .pure _
    | some l => exact hoffer l
  refine FailsOnly.get.bind fun c => FailsOnly.ite (.pure _) ?_
  cases c.sessionController.shouldLoadSession with
  | shouldReturn => exact .pure _
  | shouldSetTicket => exact noFail_setSessionTicketToUConn
  | shouldSetPsk => exact noFail_setPskToUConn
  | shouldLoad => exact hload

end Deps

/-! ## What loading and patching touch -/

/-- Which hello this is, what the handshakes so far left behind, and the configured ECH list. -/
def UConn.history (c : UConn) :=
  (c.clientHelloID, c.clientHelloBuildStatus, c.handshakes, c.clientFinished,
    c.config.encryptedClientHelloConfigList)

/-- The history is part of what stands. -/
lemma UConn.history_of_standing (h : c'.standing = c.standing) : c'.history = c.history := by
  simp only [UConn.standing, Prod.mk.injEq] at h
  obtain ⟨h1, h2, h5, -, -, -, h3, h4⟩ := h
  simp only [UConn.history, h1, h2, h3, h4, h5]

/-- A change of session extensions and of what the connection knows about the session. -/
structure SessionStep (c c' : UConn) : Prop where
  owners : c'.owners = c.owners
  header : c'.hello.header = c.hello.header
  history : c'.history = c.history
  kind : ∀ r, (c'.heap r).sessionKind = (c.heap r).sessionKind
  plain : ∀ r, (c.heap r).sessionKind = (false, false) → c'.heap r = c.heap r

instance : IsPreorder UConn SessionStep where
  refl c := ⟨rfl, rfl, rfl, fun _ => rfl, fun _ _ => rfl⟩
  trans := by
    intro c₁ c₂ c₃ h h'
    refine ⟨h'.owners.trans h.owners, h'.header.trans h.header, h'.history.trans h.history,
      fun r => (h'.kind r).trans (h.kind r), fun r hr => ?_⟩
    rw [h'.plain r (by rw [h.kind r, hr]), h.plain r hr]

namespace SessionStep

variable {c c' : UConn}

/-- Every object keeps its type. -/
lemma stays (h : SessionStep c c') (r : Ref) : (c.heap r).Stays (c'.heap r) := by
  refine ⟨h.kind r, fun hr => ?_⟩
  by_cases hk : (c.heap r).sessionKind = (false, false)
  · rwa [h.plain r hk]
  · exact Ext.regular_of_session (by rwa [h.kind r])

/-- A session step keeps the connection tidy. -/
lemma tidy (h : SessionStep c c') (ht : c.Tidy) : c'.Tidy := ht.of_owners h.owners h.stays

/-- The extension list stays. -/
lemma extensions_eq (h : SessionStep c c') : c'.extensions = c.extensions :=
  congrArg (fun x => x.2.1) h.owners

/-- The specification stays. -/
lemma spec_eq (h : SessionStep c c') : c'.clientHelloSpec = c.clientHelloSpec :=
  congrArg (fun x => x.2.2.1) h.owners

/-- A store to a session extension. -/
lemma store {e : Ext} (hr : (c.heap r).sessionKind ≠ (false, false))
    (he : e.sessionKind = (c.heap r).sessionKind) : SessionStep c (c.store r e) := by
  refine ⟨rfl, rfl, rfl, UConn.store_same _ he, fun r' hr' => ?_⟩
  refine update_of_ne ?_ _ _
  rintro rfl
  exact hr hr'

/-- Noting a pre-shared key on the connection. -/
lemma pskWritten (c : UConn) (r : Ref) : SessionStep c (c.pskWritten r) := by
  obtain ⟨early, session, ids, key, heq⟩ := c.pskWritten_eq r
  rw [heq]
  exact ⟨rfl, rfl, rfl, fun _ => rfl, fun _ _ => rfl⟩

/-- Writing the bytes of the hello. -/
lemma setRaw (c : UConn) (b : Bytes) : SessionStep c (c.setRaw b) :=
  ⟨rfl, rfl, rfl, fun _ => rfl, fun _ _ => rfl⟩

/-- Looking into the cache. -/
lemma afterLoad (c : UConn) : SessionStep c c.afterLoad :=
  ⟨rfl, rfl, rfl, fun _ => rfl, fun _ _ => rfl⟩

/-- A ticket that is written into its extension. -/
lemma offerTicket (he : (c.heap r).isSessionTicket = true) (l : LoadedSession) :
    SessionStep c (c.offerTicket r l) := by
  have hkind : (initializedTicket l.session l.sessionTicket).sessionKind = (c.heap r).sessionKind := by
    cases hx : c.heap r with
    | sessionTicket t => rfl
    | _ => rw [hx] at he; cases he
  have hstore := SessionStep.store (by simp [Ext.sessionKind, he]) hkind
  exact ⟨hstore.owners, hstore.header, hstore.history, hstore.kind, hstore.plain⟩

/-- A session that is written into the pre-shared key extension. -/
lemma offerPsk {e : UtlsPreSharedKeyExtension} (he : c.heap r = .utlsPreSharedKey e)
    (l : LoadedSession) : SessionStep c (c.offerPsk r e l) := by
  have hkind : (c.heap r).sessionKind = (false, true) := by rw [he]; rfl
  have hstore := SessionStep.store (c := c) (r := r) (e := .utlsPreSharedKey
    (initializedPsk e l.session l.earlySecret l.binderKey l.pskIdentities)) (by simp [hkind])
    hkind.symm
  have hwritten := SessionStep.pskWritten ((c.store r (.utlsPreSharedKey
    (initializedPsk e l.session l.earlySecret l.binderKey l.pskIdentities))).updSC
      fun s => { s with state := .pskExtInitialized }) r
  exact ⟨hwritten.owners.trans hstore.owners, hwritten.header.trans hstore.header,
    hwritten.history.trans hstore.history,
    fun r => (hwritten.kind r).trans (hstore.kind r), fun r' hr' => by
      rw [← hstore.plain r' hr']
      exact hwritten.plain r' ((hstore.kind r').trans hr')⟩

end SessionStep

/-- Loading a session touches session extensions only. -/
lemma Loaded.sessionStep (h : Loaded d c c') : SessionStep c c' := by
  cases h with
  | unchanged => exact refl c
  | ticketGiven _ _ => exact ⟨rfl, rfl, rfl, fun _ => rfl, fun _ _ => rfl⟩
  | pskGiven _ _ => exact .pskWritten c _
  | nothing _ => exact .afterLoad c
  | expired _ => exact ⟨rfl, rfl, rfl, fun _ => rfl, fun _ _ => rfl⟩
  | offered _ _ ho =>
    refine IsTrans.trans _ _ _ (SessionStep.afterLoad c) ?_
    cases ho with
    | ticket _ _ he _ => exact .offerTicket he _
    | psk _ _ he _ _ => exact .offerPsk he _
    | skipped _ _ => exact refl _

/-- So does patching the binders. -/
lemma Patched.sessionStep (h : Patched d c c') (ht : c.Tidy) : SessionStep c c' := by
  cases h with
  | nothing _ => exact refl c
  | @binders r n c1 c2 _ hr hl hw =>
    obtain ⟨e1, draws, rfl, hrefresh, -, -⟩ := extLen_eq_ok d hl
    have hkind : (c.heap r).sessionKind ≠ (false, false) := by
      simp [Ext.sessionKind, (ht.psk r hr).2]
    have hkind1 : e1.sessionKind = (c.heap r).sessionKind := (hrefresh.rewrite c).stays.kind
    have h1 : SessionStep c ((c.store r e1).atDraw draws) := by
      have hstore := SessionStep.store hkind hkind1
      exact ⟨hstore.owners, hstore.header, hstore.history, hstore.kind, hstore.plain⟩
    refine IsTrans.trans _ _ _ (IsTrans.trans _ _ _ h1 ?_) (.pskWritten c2 r)
    rcases hw with rfl | ⟨e, he, -, -, hw⟩
    · exact refl _
    · rcases writeBinders_eq_ok d hw with rfl | ⟨suite, b, -, -, -, -, rfl⟩
      · exact refl _
      · have hpsk : (((c.store r e1).atDraw draws).heap r).sessionKind = (false, true) := by
          rw [he]
          rfl
        refine IsTrans.trans _ _ _ (SessionStep.store ?_ ?_) (.setRaw _ _)
        · rw [hpsk]
          decide
        · rw [hpsk]
          rfl

/-! ## Prepared connections -/

/-- The extension has a binder for every identity and, if it has identities, the keys for them. -/
def UtlsPreSharedKeyExtension.Ready (e : UtlsPreSharedKeyExtension) : Prop :=
  e.identities.length = e.binders.length ∧ (e.identities = [] ∨ e.offersPsk = true)

/-- What holds once the specification has been applied. -/
structure UConn.Prepared (c : UConn) : Prop where
  tidy : c.Tidy
  settled : c.sessionController.state ≠ .sessionTicketExtInitialized ∧
    c.sessionController.state ≠ .pskExtInitialized
  random : c.hello.random.length = 32
  placed : ∀ r, c.sessionController.pskExtension = some r → c.EndsIn r
  only : ∀ r ∈ c.extensions, (c.heap r).isPreSharedKey = true →
    c.sessionController.pskExtension = some r
  ready : c.sessionController.state = .pskExtAllSet → ∀ r e,
    c.sessionController.pskExtension = some r → c.heap r = .utlsPreSharedKey e → e.Ready

/-- A change of session extensions. -/
lemma UConn.Prepared.change (h : c.Prepared) (hstep : SessionStep c c')
    (hs : c'.sessionController.state ≠ .sessionTicketExtInitialized ∧
      c'.sessionController.state ≠ .pskExtInitialized)
    (hb : c'.sessionController.state = .pskExtAllSet → ∀ r e,
      c'.sessionController.pskExtension = some r → c'.heap r = .utlsPreSharedKey e → e.Ready) :
    c'.Prepared := by
  have hrandom : c'.hello.random = c.hello.random := congrArg (fun x => x.2.1) hstep.header
  have hp : c'.sessionController.pskExtension = c.sessionController.pskExtension :=
    congrArg (fun x => x.2.2.2.2) hstep.owners
  refine ⟨hstep.tidy h.tidy, hs, hrandom ▸ h.random, fun r hr => ?_,
    fun r hr hk => ?_, hb⟩
  · obtain ⟨pre, hpre, hmem⟩ := h.placed r (hp ▸ hr)
    exact ⟨pre, hstep.extensions_eq.trans hpre, hmem⟩
  · rw [hstep.extensions_eq] at hr
    have hkind : (c'.heap r).isPreSharedKey = (c.heap r).isPreSharedKey :=
      congrArg Prod.snd (hstep.kind r)
    rw [hp]
    exact h.only r hr (hkind ▸ hk)

/-- Rewriting an extension keeps the identities and binders it has. -/
lemma Ext.Rewrite.psk_left {x : Ext} {e : UtlsPreSharedKeyExtension}
    (h : x.Rewrite c (.utlsPreSharedKey e)) :
    ∃ n, x = .utlsPreSharedKey { e with cachedLength := n } := by
  have hc := h.core
  cases x with
  | utlsPreSharedKey e' =>
    simp only [Ext.core, Ext.skeleton, Ext.utlsPreSharedKey.injEq] at hc
    refine ⟨e'.cachedLength, ?_⟩
    obtain ⟨⟩ := e
    obtain ⟨⟩ := e'
    simp_all
  | _ => simp [Ext.core, Ext.skeleton] at hc

/-- Applying the configuration keeps a prepared connection prepared. -/
lemma UConn.Prepared.configStep (h : c.Prepared) (hs : ConfigStep c c') : c'.Prepared := by
  have hsc : c'.sessionController = c.sessionController := hs.field UConn.sessionController
  refine ⟨hs.buildStep.tidy h.tidy, by rw [hsc]; exact h.settled,
    by rw [hs.random_eq]; exact h.random, fun r hr => ?_, fun r hr hk => ?_, fun hst r e hr he => ?_⟩
  · obtain ⟨pre, hpre, hmem⟩ := h.placed r (hsc ▸ hr)
    exact ⟨pre, hs.extensions_eq.trans hpre, hmem⟩
  · rw [hs.extensions_eq] at hr
    have hkind : (c'.heap r).isPreSharedKey = (c.heap r).isPreSharedKey :=
      congrArg Prod.snd (hs.heap r).stays.kind
    rw [hsc]
    exact h.only r hr (hkind ▸ hk)
  · rw [hsc] at hst hr
    have hw := hs.heap r
    rw [he] at hw
    obtain ⟨n, hn⟩ := hw.psk_left
    have hready := h.ready hst r _ hr hn
    exact hready

/-- Looking into the cache changes neither the state nor an extension. -/
lemma UConn.Prepared.afterLoad (h : c.Prepared) : c.afterLoad.Prepared :=
  h.change (.afterLoad c) h.settled h.ready

/-- A session that is accepted makes the extension ready. -/
lemma ready_initializedPsk {s : SessionState} (hj : judgeSession d c = .accept s)
    (e : UtlsPreSharedKeyExtension) (hsuite : (loadedSession d c s).pskIdentities = [] ∨
      (cipherSuiteTLS13ByID s.cipherSuite).isSome) :
    (initializedPsk e s (loadedSession d c s).earlySecret (loadedSession d c s).binderKey
      (loadedSession d c s).pskIdentities).Ready := by
  obtain ⟨-, -, hversion⟩ := judgeSession_accept d hj
  refine ⟨by simp [initializedPsk], ?_⟩
  rcases hsuite with hnone | hsuite
  · exact .inl hnone
  · -- the keys of a TLS 1.3 session have the length of a hash
    have hv := hversion.mp hsuite
    have hpos : ∀ h : HashId, 0 < h.size := by
      intro h
      cases h <;> decide
    right
    simp [UtlsPreSharedKeyExtension.offersPsk, initializedPsk, loadedSession, hv, hsuite,
      d.resumptionBinderKey_length, hpos]

/-- A session that is loaded leaves its extension ready. -/
lemma UConn.Prepared.loaded (h : c.Prepared) (hl : Loaded d c c') : c'.Prepared := by
  have hstep := hl.sessionStep
  cases hl with
  | unchanged => exact h
  | ticketGiven _ hs => exact absurd hs h.settled.1
  | pskGiven _ hs => exact absurd hs h.settled.2
  | nothing _ => exact h.afterLoad
  | expired _ => exact h.change hstep h.settled h.ready
  | offered _ hj ho =>
    cases ho with
    | ticket _ _ _ _ =>
      refine h.change hstep ⟨?_, ?_⟩ ?_ <;> simp [UConn.offerTicket, UConn.ticketWritten]
    | @psk r e _ hr he _ hsuite =>
      refine h.change hstep ⟨?_, ?_⟩ ?_
      · simp [UConn.offerPsk, UConn.pskWritten]
      · simp [UConn.offerPsk, UConn.pskWritten]
      · intro _ r' e' hr' he'
        have hr' : c.afterLoad.sessionController.pskExtension = some r' := hr'
        have hrr : r' = r := some.inj (hr'.symm.trans hr)
        subst hrr
        have he' : Function.update c.afterLoad.heap r' _ r' = .utlsPreSharedKey e' := he'
        rw [update_self] at he'
        cases he'
        rw [session_loadedSession] at hsuite ⊢
        exact ready_initializedPsk hj e hsuite
    | skipped _ _ => exact h.afterLoad

/-- Once the hello is built, loading changes neither the hello nor an extension. -/
lemma Loaded.view_eq (hl : Loaded d c c')
    (hs : c.sessionController.state ≠ .sessionTicketExtInitialized ∧
      c.sessionController.state ≠ .pskExtInitialized)
    (hb : c.clientHelloBuildStatus = .buildByUtls) : c'.view d = c.view d := by
  have hnb : c.clientHelloBuildStatus ≠ .notBuilt := by
    rw [hb]
    decide
  cases hl with
  | unchanged => rfl
  | ticketGiven _ h => exact absurd h hs.1
  | pskGiven _ h => exact absurd h hs.2
  | nothing _ => rfl
  | expired _ => rfl
  | offered _ _ ho =>
    cases ho with
    | ticket _ _ _ h => exact absurd h hnb
    | psk _ _ _ h _ => exact absurd h hnb
    | skipped _ _ => rfl

section Deps

variable (d : Deps)

variable {c c' : UConn}

/-- What is marshalled does not depend on what is noted about the session. -/
lemma UConn.view_pskWritten (c : UConn) (r : Ref) : (c.pskWritten r).view d = c.view d := by
  obtain ⟨early, session, ids, key, heq⟩ := c.pskWritten_eq r
  rw [heq]
  rfl

/-- Reading the length of a pre-shared key extension does not change its bytes. -/
lemma view_of_extLen_psk {n : Nat} (h : extLen d r c = .ok n c')
    (hp : (c.heap r).isPreSharedKey = true) : c'.view d = c.view d := by
  obtain ⟨e, draws, rfl, hr, -, -⟩ := extLen_eq_ok d h
  have hwire : e.wire d.parseIP = (c.heap r).wire d.parseIP := by
    refine hr.wire_eq ?_ ?_ d.parseIP
    · cases hx : c.heap r with
      | greaseECH g => rw [hx] at hp; cases hp
      | _ => trivial
    · cases hx : c.heap r with
      | utlsPadding p => rw [hx] at hp; cases hp
      | _ => rfl
  have hexts : ((c.store r e).atDraw draws).exts.map (fun e => e.wire d.parseIP) =
      c.exts.map fun e => e.wire d.parseIP := by
    simp only [UConn.exts, List.map_map, UConn.atDraw_extensions, UConn.store_extensions,
      UConn.atDraw_heap, UConn.store_heap]
    apply map_congr_left
    intro r' _
    by_cases hr' : r' = r
    · subst hr'
      simpa using hwire
    · simp [hr']
  simp only [UConn.view, hexts]
  rfl

/-- Patching keeps a connection prepared and its hello current. -/
lemma UConn.Prepared.patched (h : c.Prepared) (hp : Patched d c c') :
    c'.Prepared ∧ (c.Current d → c'.Current d) := by
  have hstep' := hp.sessionStep h.tidy
  cases hp with
  | nothing _ => exact ⟨h, id⟩
  | @binders r n c1 c2 hs hr hl hw =>
    have hkind := (h.tidy.psk r hr).2
    have hstep : ConfigStep c c1 := ((keeps_extLen d r).of_ok hl).configStep
    have h1 : c1.Prepared := h.configStep hstep
    have hsc1 : c1.sessionController = c.sessionController := hstep.field UConn.sessionController
    have hset : c.sessionController.state = .pskExtAllSet := by
      simp only [UConn.shouldUpdateBinders, Bool.and_eq_true, Bool.or_eq_true, beq_iff_eq] at hs
      exact hs.2.resolve_left h.settled.2
    have hcur1 : c.Current d → c1.Current d := fun hc =>
      hc.of_view d (view_of_extLen_psk d hl hkind)
    -- the binders, if they are written
    have h2 : (c1.Current d → c2.Current d) ∧ ∀ r' e, c2.sessionController.pskExtension = some r' →
        c2.heap r' = .utlsPreSharedKey e → e.Ready := by
      have hset1 : c1.sessionController.state = .pskExtAllSet := by rw [hsc1, hset]
      have hr1 : c1.sessionController.pskExtension = some r := by rw [hsc1, hr]
      rcases hw with rfl | ⟨e, he, -, -, hw⟩
      · exact ⟨id, h1.ready hset1⟩
      · obtain ⟨hlen, hkeys⟩ := h1.ready hset1 r e hr1 he
        refine ⟨writeBinders_current d hw he (h1.placed r hr1) hlen, ?_⟩
        rcases writeBinders_eq_ok d hw with rfl | ⟨suite, b, -, hb, -, -, rfl⟩
        · exact h1.ready hset1
        · intro r' e' hr' he'
          have hr' : c1.sessionController.pskExtension = some r' := hr'
          have hrr : r' = r := some.inj (hr'.symm.trans hr1)
          subst hrr
          have he' : Function.update c1.heap r' _ r' = .utlsPreSharedKey e' := he'
          rw [update_self] at he'
          cases he'
          exact ⟨by rw [hlen, hb]; rfl, hkeys⟩
    obtain ⟨hcur2, hready2⟩ := h2
    refine ⟨h.change hstep' ⟨?_, ?_⟩ ?_, fun hc => ?_⟩
    · simp [UConn.pskWritten]
    · simp [UConn.pskWritten]
    · obtain ⟨_, _, _, _, heq⟩ := c2.pskWritten_eq r
      rw [heq]
      exact fun _ => hready2
    · exact (hcur2 (hcur1 hc)).of_view d (c2.view_pskWritten d r)

/-! ## Connections between calls -/

/-- How a build ends, short of a panic: it returns, or one of the parts that can fail has failed. -/
inductive BuildEnd (load : Bool) (c c' : UConn) : Prop where
  | returned (run : BuildRun d load c c')
  | notPrepared {e : Err} (hn : c.clientHelloBuildStatus = .notBuilt)
      (h : prepareBuild d c = .error (.error e) c')
  | notApplied {c₁ : UConn} {e : Err}
      (hp : (c.clientHelloBuildStatus = .notBuilt ∧ prepareBuild d c = .ok () c₁) ∨
        (c.clientHelloBuildStatus = .buildByUtls ∧ c = c₁))
      (h : applyConfig d c₁ = .error (.error e) c')
  | notMarshalled {c₁ c₂ c₃ : UConn} {e : Err} (hn : c.clientHelloBuildStatus = .notBuilt)
      (hp : prepareBuild d c = .ok () c₁) (ha : applyConfig d c₁ = .ok () c₂)
      (hl : (load = true ∧ uLoadSession d c₂ = .ok () c₃) ∨ (load = false ∧ c₂ = c₃))
      (h : marshalClientHello d c₃ = .error (.error e) c')

/-- An error of an optional step is an error of the step. -/
lemma after_runIf {p : Prop} [Decidable p] {x : M Unit} {e : Err}
    (h : runIf p x c = .error (.error e) c') : p ∧ x c = .error (.error e) c' := by
  unfold runIf at h
  split_ifs at h with hp
  · exact ⟨hp, h⟩
  · cases h

/-- A build that does not panic ends in one of these ways. -/
lemma buildHandshakeState_end {load : Bool}
    (h : after (buildHandshakeState d load) c = some c') : BuildEnd d load c c' := by
  obtain ⟨_, _, h1, h⟩ := NoFail.after_bind .get h
  cases h1
  obtain ⟨_, _, h1, h⟩ := NoFail.after_bind (.assert _ _) h
  obtain ⟨hst, rfl⟩ := assert_eq_ok.mp h1
  have hprep : ∀ {c1 u}, runIf (c.clientHelloBuildStatus = .notBuilt) (prepareBuild d) c = .ok u c1 →
      (c.clientHelloBuildStatus = .notBuilt ∧ prepareBuild d c = .ok () c1) ∨
        (c.clientHelloBuildStatus = .buildByUtls ∧ c = c1) := by
    intro c1 u h1
    rcases runIf_eq_ok.mp h1 with h1 | ⟨hn, h1⟩
    · exact .inl h1
    · exact .inr ⟨hst.resolve_right hn, h1⟩
  rcases after_bind h with ⟨e, he⟩ | ⟨_, c1, h1, h⟩
  · obtain ⟨hn, he⟩ := after_runIf he
    exact .notPrepared hn he
  rcases after_bind h with ⟨e, he⟩ | ⟨_, c2, h2, h⟩
  · exact .notApplied (hprep h1) he
  obtain ⟨_, c3, h3, h⟩ := NoFail.after_bind (.runIf _ (noFail_uLoadSession d)) h
  rcases after_bind h with ⟨e, he⟩ | ⟨_, c4, h4, h⟩
  · obtain ⟨hn, he⟩ := after_runIf he
    have hn : c.clientHelloBuildStatus = .notBuilt := hst.resolve_left hn
    have hp := (hprep h1).resolve_right fun hb => by rw [hn] at hb; cases hb.1
    refine .notMarshalled hn hp.2 h2 ?_ he
    exact (runIf_eq_ok.mp h3).imp id fun h => ⟨by simpa using h.1, h.2⟩
  -- from here on nothing can fail
  obtain ⟨_, c5, h5, h⟩ := NoFail.after_bind (.runIf _ (noFail_finishSession d)) h
  obtain ⟨_, h6⟩ := NoFail.of_after (.modify _) h
  have hok : buildHandshakeState d load c = .ok () c' := by
    rw [buildHandshakeState, run_get_bind, assert_bind_eq_ok]
    exact ⟨hst, bind_eq_ok.mpr ⟨_, c1, h1, bind_eq_ok.mpr ⟨_, c2, h2, bind_eq_ok.mpr ⟨_, c3, h3,
      bind_eq_ok.mpr ⟨_, c4, h4, bind_eq_ok.mpr ⟨_, c5, h5, h6⟩⟩⟩⟩⟩⟩
  obtain ⟨run⟩ := buildHandshakeState_run d hok
  exact .returned run

/-- What holds between the calls: before the first build of a preset its specification is still to
be applied. -/
structure UConn.Sound (c : UConn) : Prop where
  tidy : c.Tidy
  settled : c.sessionController.state ≠ .sessionTicketExtInitialized ∧
    c.sessionController.state ≠ .pskExtInitialized
  client : c.clientHelloID ≠ .golang
  /-- The caller applies the specification of a `HelloCustom`. -/
  spec : c.clientHelloBuildStatus = .notBuilt → c.clientHelloID = .custom → c.clientHelloSpec = none
  prepared : (c.clientHelloBuildStatus = .notBuilt → c.clientHelloID = .custom) → c.Prepared

/-- The state of the controller is among the fields that a specification does not change. -/
lemma settled_of_standing (hs : c'.standing = c.standing) :
    c'.sessionController.state = c.sessionController.state :=
  congrArg (fun x => x.2.2.2.1.state) hs

/-- Applying a specification prepares a connection that holds no half-made session extension. -/
lemma Applied.prepared {p : ClientHelloSpec} (h : Applied p c c')
    (hs : c.sessionController.state ≠ .sessionTicketExtInitialized ∧
      c.sessionController.state ≠ .pskExtInitialized) : c'.Prepared := by
  obtain ⟨c0, c1, -, -, hsync⟩ := h.synced
  have hstate := settled_of_standing h.standing
  -- the controller has no session yet
  have hno : c'.sessionController.state = .noSession := by
    have hmem := hsync.state
    rw [hstate] at hmem ⊢
    simp only [mem_cons, not_mem_nil, or_false] at hmem
    rcases hmem with h | h | h
    · exact h
    · exact absurd h hs.1
    · exact absurd h hs.2
  refine ⟨h.tidy, by rw [hno]; decide, h.random, fun r hr => ?_, hsync.only, fun h => ?_⟩
  · rcases hsync.psk with ⟨hnone, -⟩ | ⟨r', hr', hend, -⟩
    · rw [hnone] at hr
      cases hr
    · rw [hr'] at hr
      cases hr
      exact hend
  · rw [hno] at h
    cases h

/-- Session extensions are no `server_name` extensions. -/
lemma UConn.Prepared.withoutSNI (h : c.Prepared) : c.withoutSNI.Prepared := by
  have hmem : ∀ r ∈ c.withoutSNI.extensions, r ∈ c.extensions := fun r hr => mem_of_mem_filter hr
  refine ⟨⟨fun r hr => h.tidy.extensions r (hmem r hr), h.tidy.spec, h.tidy.ticket, h.tidy.psk,
    h.tidy.regular⟩, h.settled, h.random, fun r hr => ?_, fun r hr => h.only r (hmem r hr), h.ready⟩
  obtain ⟨pre, hpre, hnot⟩ := h.placed r hr
  have hpsk := (h.tidy.psk r hr).2
  -- a pre-shared key extension is no `server_name` extension
  have hsni : (c.heap r).asSNI.isNone = true := by
    cases hx : c.heap r with
    | sni name => rw [hx] at hpsk; cases hpsk
    | _ => rfl
  refine ⟨pre.filter fun r => (c.heap r).asSNI.isNone, ?_, fun hr' => hnot (mem_of_mem_filter hr')⟩
  simp [UConn.withoutSNI, hpre, filter_append, hsni]

/-- A first build prepares the connection. -/
lemma UConn.Sound.prepareBuild (h : c.Sound)
    (hx : prepareBuild d c = .ok u c') : c'.Prepared ∧ c'.standing = c.standing := by
  obtain ⟨c1, h1, hc'⟩ := prepareBuild_ok d hx
  have hst := (after_applyPresetByID d h.tidy (after_of_ok h1)).2
  have hprep : c1.Prepared := by
    rcases applyPresetByID_ok d h.tidy h1 with ⟨p, c2, hstep, ha⟩ | ⟨rfl, hid⟩
    · refine ha.prepared ?_
      rw [settled_of_standing hstep.frame.standing]
      exact h.settled
    · refine h.prepared fun _ => ?_
      have := h.client
      cases hi : c1.clientHelloID with
      | golang => exact absurd hi this
      | custom => rfl
      | preset n => exact absurd hi (hid n)
  rcases hc' with rfl | rfl
  · exact ⟨hprep.withoutSNI, hst⟩
  · exact ⟨hprep, hst⟩

/-- There is nothing to prepare for a custom specification, apart from `omitSNIExtension`. -/
lemma applyPresetByID_custom (hid : c.clientHelloID = .custom)
    (hs : c.clientHelloSpec = none) : applyPresetByID d c = .ok () c := by
  simp [applyPresetByID, specOfID, hid, hs]

/-- Without a specification there is nothing to apply, and only a server name is removed. -/
lemma prepareBuild_custom (hid : c.clientHelloID = .custom) (hs : c.clientHelloSpec = none):
    ∃ c', prepareBuild d c = .ok () c' ∧ c'.clientHelloSpec = none := by
  have happly := applyPresetByID_custom d hid hs
  by_cases ho : c.omitSNIExtension = true
  · refine ⟨c.withoutSNI, bind_eq_ok.mpr ⟨_, c, happly, ?_⟩, hs⟩
    exact runIf_eq_ok.mpr (.inl ⟨ho, rfl⟩)
  · refine ⟨c, bind_eq_ok.mpr ⟨_, c, happly, ?_⟩, hs⟩
    exact runIf_eq_ok.mpr (.inr ⟨ho, rfl⟩)

/-- A prepared connection is sound. -/
lemma UConn.Prepared.sound {c0 : UConn} (h : c.Prepared) (h0 : c0.Sound)
    (hh : c.history = c0.history)
    (hs : c.clientHelloBuildStatus = .notBuilt → c.clientHelloID = .custom →
      c.clientHelloSpec = none) : c.Sound := by
  refine ⟨h.tidy, h.settled, ?_, hs, fun _ => h⟩
  have hid : c.clientHelloID = c0.clientHelloID := congrArg Prod.fst hh
  rw [hid]
  exact h0.client

/-! ## New connections -/

/-- Connections on which no call has been made yet: a preset, or a custom specification that has
been applied.  The extension objects that the caller has made are regular. -/
inductive Fresh : UConn → Prop where
  | preset (heap : Ref → Ext) (nextRef : Ref) (config : Config) (env : Surroundings) (n : Nat)
      (hx : ∀ r < nextRef, (heap r).Regular) : Fresh (uClient heap nextRef config env (.preset n))
  | custom (heap : Ref → Ext) (nextRef : Ref) (config : Config) (env : Surroundings)
      (p : ClientHelloSpec) {c : UConn} (hx : ∀ r < nextRef, (heap r).Regular)
      (hp : ∀ r ∈ p.extensions, r < nextRef)
      (h : applyPreset d p (uClient heap nextRef config env .custom) = .ok () c) : Fresh c

/-- A new connection owns no objects but those of its caller. -/
lemma tidy_uClient {heap : Ref → Ext} {nextRef : Ref} (hx : ∀ r < nextRef, (heap r).Regular)
    (config : Config) (env : Surroundings) (id : ClientHelloID) :
    (uClient heap nextRef config env id).Tidy :=
  ⟨fun r hr => by simp [uClient] at hr, fun p hp => by simp [uClient] at hp,
    fun r hr => by simp [uClient] at hr, fun r hr => by simp [uClient] at hr, hx⟩

/-- Nothing has been built yet. -/
lemma Fresh.notBuilt (h : Fresh d c) : c.clientHelloBuildStatus = .notBuilt := by
  cases h with
  | preset heap nextRef config env n => rfl
  | custom heap nextRef config env p hx hp h =>
    have ha := applyPreset_ok d (tidy_uClient hx _ _ _) hp h
    exact congrArg (fun x => x.2.1) (UConn.history_of_standing ha.standing)

/-- New connections are sound: the start of every run. -/
lemma Fresh.sound (h : Fresh d c) : c.Sound := by
  cases h with
  | preset heap nextRef config env n hx =>
    refine ⟨tidy_uClient hx _ _ _, ⟨by simp [uClient], by simp [uClient]⟩, by simp [uClient],
      by simp [uClient], fun hc => ?_⟩
    have hc := hc rfl
    simp [uClient] at hc
  | custom heap nextRef config env p hx hp h =>
    have ha := applyPreset_ok d (tidy_uClient hx _ _ _) hp h
    have hprep := ha.prepared ⟨by simp [uClient], by simp [uClient]⟩
    have hid : c.clientHelloID = .custom :=
      congrArg Prod.fst (UConn.history_of_standing ha.standing)
    exact ⟨hprep.tidy, hprep.settled, by simp [hid], fun _ _ => ha.spec, fun _ => hprep⟩

/-- No session has been loaded yet. -/
structure UConn.Idle (c : UConn) : Prop where
  notBuilt : c.clientHelloBuildStatus = .notBuilt
  notLocked : c.sessionController.locked = false
  noSession : c.sessionController.state = .noSession
  neverCalled : c.sessionController.loadSessionTracker = .neverCalled

/-- Being idle is a matter of what stands. -/
lemma UConn.Idle.of_standing (h : c.Idle) (hs : c'.standing = c.standing) : c'.Idle := by
  have hstatus : c'.clientHelloBuildStatus = c.clientHelloBuildStatus := congrArg (fun x => x.2.1) hs
  have hlocked : c'.sessionController.locked = c.sessionController.locked :=
    congrArg (fun x => x.2.2.2.1.locked) hs
  have htracker : c'.sessionController.loadSessionTracker = c.sessionController.loadSessionTracker :=
    congrArg (fun x => x.2.2.2.1.loadSessionTracker) hs
  exact ⟨hstatus.trans h.notBuilt, hlocked.trans h.notLocked, (settled_of_standing hs).trans h.noSession,
    htracker.trans h.neverCalled⟩

/-- Looking up the specification leaves the controller alone. -/
lemma keeps_specOfID_controller : Keeps (Same UConn.sessionController) (specOfID d) := by
  have halloc : ∀ es, Keeps (Same UConn.sessionController) (allocExts es) := by
    intro es
    induction es with
    | nil => exact .pure _
    | cons e es ih =>
      refine Keeps.bind (fun c => rfl) fun _ => ih.bind fun _ => .pure _
  refine Keeps.get.bind fun c => ?_
  cases c.clientHelloSpec with
  | some p => exact .pure _
  | none =>
    cases c.clientHelloID with
    | preset n =>
      refine Keeps.bind ((Keeps.ofOption _ _).bind fun _ => (halloc _).bind fun _ => .pure _) fun _ =>
        Keeps.bind (Keeps.modify fun _ => ?_) fun _ => .pure _
      rfl
    | golang => exact .pure _
    | custom => exact .pure _

/-- A new connection has not looked for a session. -/
lemma Fresh.idle (hc : Fresh d c) : c.Idle := by
  cases hc with
  | preset heap nextRef config env n => exact ⟨rfl, rfl, rfl, rfl⟩
  | custom heap nextRef config env p hx hp h =>
    have hstart : (uClient heap nextRef config env .custom).Idle := ⟨rfl, rfl, rfl, rfl⟩
    exact hstart.of_standing (applyPreset_ok d (tidy_uClient hx _ _ _) hp h).standing

/-- When a first build has prepared a new connection `c`, a specification has been applied to a
connection that stands as `c` does. -/
lemma Fresh.presetRun {c1 : UConn} (hc : Fresh d c) (hp : prepareBuild d c = .ok u c1) :
    ∃ p x y, x.Tidy ∧ x.Has p.extensions ∧ applyPreset d p x = .ok () y ∧
      x.standing = c.standing ∧ x.sessionController.pskExtension = none ∧
      (c1 = y.withoutSNI ∨ c1 = y) := by
  obtain ⟨y, hy, hc1⟩ := prepareBuild_ok d hp
  cases hc with
  | preset heap nextRef config env n hreg =>
    obtain ⟨o, x, hx, hy⟩ := bind_eq_ok.mp hy
    have hk := (keeps_specOfID d).of_ok hx
    have hsc : x.sessionController = _ := (keeps_specOfID_controller d).of_ok hx
    rcases specOfID_ok d (tidy_uClient hreg _ _ _) hx with ⟨p, rfl, hp⟩ | ⟨-, -, hid⟩
    · exact ⟨p, x, y, hk.tidy (tidy_uClient hreg _ _ _), hp, hy, hk.frame.standing, by rw [hsc]; rfl,
        hc1⟩
    · exact absurd rfl (hid n)
  | custom heap nextRef config env p hx hp h =>
    have ha := applyPreset_ok d (tidy_uClient hx _ _ _) hp h
    have hid : c.clientHelloID = .custom :=
      congrArg Prod.fst (UConn.history_of_standing ha.standing)
    rw [applyPresetByID_custom d hid ha.spec] at hy
    cases hy
    exact ⟨p, _, c, tidy_uClient hx _ _ _, hp, h, ha.standing.symm, rfl, hc1⟩

/-- The same run, as what applying the specification does. -/
lemma Fresh.applied {c1 : UConn} (hc : Fresh d c) (hp : prepareBuild d c = .ok u c1) :
    ∃ p x y, Applied p x y ∧ x.sessionController.pskExtension = none ∧
      (c1 = y.withoutSNI ∨ c1 = y) := by
  obtain ⟨p, x, y, ht, hhas, happly, -, hpsk, hc1⟩ := hc.presetRun d hp
  exact ⟨p, x, y, applyPreset_ok d ht hhas happly, hpsk, hc1⟩

end Deps

end Utls
