import Utls.SessionController

/-!
# Loading a session from the cache

`loadSession` is the method of the standard library, as the package calls it before the hello is
marshalled: it looks the session cache up and decides whether the entry can be offered.  The
decision itself, `judgeSession`, depends on the connection only; `uLoadSession` hands an accepted
session to the session controller.
-/

namespace Utls

open Wire Exec

/-! ## The decision -/

/-- What `loadSession` decides about the cache. -/
inductive SessionVerdict where
  /-- There is no session that can be offered. -/
  | skip
  /-- The entry has expired and is deleted. -/
  | forget
  /-- The session is offered. -/
  | accept (session : SessionState)
  deriving DecidableEq

section Deps

variable (d : Deps)

/-- The name that the certificate of a cached session must be valid for; empty if none is asked
for. -/
def Config.nameToVerify (cfg : Config) : GoString :=
  if cfg.insecureServerNameToVerify.length = 0 then cfg.serverName
  else if cfg.insecureServerNameToVerify = [42] then []
  else cfg.insecureServerNameToVerify

/-- The check of a cached session's certificates. -/
def certificatesOk (cfg : Config) (s : SessionState) : Bool :=
  cfg.insecureSkipVerify ||
    (s.hasVerifiedChains && (cfg.nameToVerify.length == 0 || d.verifyHostname s cfg.nameToVerify))

/-- `mutualCipherSuite(have, want) != nil`. -/
def mutualCipherSuite (offered : List UInt16) (want : UInt16) : Bool :=
  offered.contains want && d.isCipherSuite want

/-- The client offers a TLS 1.3 suite with the hash of the session's suite. -/
def offersHash (offered : List UInt16) (suite : CipherSuiteTLS13) : Bool :=
  offered.any fun id => ((cipherSuiteTLS13ByID id).map fun s => s.hash == suite.hash).getD false

/-- The checks of a TLS 1.3 session. -/
def judgeSessionTLS13 (c : UConn) (s : SessionState) : SessionVerdict :=
  if c.now > s.useBy * 1000 then .forget
  else
    match cipherSuiteTLS13ByID s.cipherSuite with
    | none => .skip
    | some suite => if offersHash c.hello.cipherSuites suite then .accept s else .skip

/-- The decision of `loadSession`, given that there is a cache. -/
def judgeSession (c : UConn) : SessionVerdict :=
  if c.handshakes ≠ 0 then .skip
  else if c.clientSessionCacheKey.length = 0 then .skip
  else
    match c.cachedSession with
    | none => .skip
    | some s =>
      if !c.hello.supportedVersions.contains s.version then .skip
      else if !c.config.insecureSkipTimeVerify ∧ c.now > s.peerCertNotAfter * 1000 then .forget
      else if !certificatesOk d c.config s then .skip
      else if s.version = VersionTLS13 then judgeSessionTLS13 c s
      else if mutualCipherSuite d c.hello.cipherSuites s.cipherSuite then .accept s
      else .skip

variable {c c' : UConn} {u : Unit}

/-- Only the session in the cache is ever accepted, and its cipher suite is one of its version. -/
lemma judgeSession_accept {s : SessionState} (h : judgeSession d c = .accept s) :
    c.cachedSession = some s ∧ c.handshakes = 0 ∧
      ((cipherSuiteTLS13ByID s.cipherSuite).isSome ↔ s.version = VersionTLS13) := by
  unfold judgeSession at h
  split_ifs at h with h1 h2
  cases hs : c.cachedSession with
  | none => simp [hs] at h
  | some s' =>
    simp only [hs] at h
    split_ifs at h with _ _ _ hv hm
    · unfold judgeSessionTLS13 at h
      split_ifs at h
      cases hc : cipherSuiteTLS13ByID s'.cipherSuite with
      | none => simp [hc] at h
      | some suite =>
        simp only [hc] at h
        split_ifs at h
        cases h
        exact ⟨rfl, by omega, by simp [hc, hv]⟩
    · cases h
      refine ⟨rfl, by omega, ?_⟩
      have hno := d.isCipherSuite_tls13 s.cipherSuite (by
        simp only [mutualCipherSuite, Bool.and_eq_true] at hm
        exact hm.2)
      simp [hno, hv]

/-! ## `loadSession` -/

/-- What `loadSession` returns with a session: the secrets derived from it and the fields it set in
the private hello. -/
structure LoadedSession where
  session : SessionState
  earlySecret : Bytes
  binderKey : Bytes
  sessionTicket : Option Bytes
  pskIdentities : List PskIdentity

/-- The identity a session is offered under. -/
def sessionIdentity (c : UConn) (s : SessionState) : PskIdentity where
  label := s.ticket.getD []
  obfuscatedTicketAge := UInt32.ofInt (c.now - s.createdAt * 1000) + s.ageAdd

/-- The results of `loadSession` for an accepted session.  A session below TLS 1.3 has no early
secret, and the identities stay those of the hello. -/
def loadedSession (c : UConn) (s : SessionState) : LoadedSession :=
  if s.version = VersionTLS13 then
    let hash := ((cipherSuiteTLS13ByID s.cipherSuite).map fun x => x.hash).getD .sha256
    let early := d.earlySecret hash s.secret
    { session := s
      earlySecret := early
      binderKey := d.resumptionBinderKey hash early
      sessionTicket := none
      pskIdentities := [sessionIdentity c s] }
  else
    { session := s
      earlySecret := []
      binderKey := []
      sessionTicket := s.ticket
      pskIdentities := c.pskIdentities }

lemma session_loadedSession (c : UConn) (s : SessionState) : (loadedSession d c s).session = s := by
  unfold loadedSession
  split_ifs <;> rfl

/-- `ClientSessionCache.Put(key, nil)`. -/
def Config.forget (cfg : Config) (key : GoString) : Config :=
  { cfg with clientSessionCache := cfg.clientSessionCache.map fun f => Function.update f key none }

/-- `onEnterLoadSessionCheck`. -/
def onEnterLoadSessionCheck : M Unit := do
  let c ← get
  assert (c.sessionController.locked = false)
    ("tls: LoadSessionCoordinator.onEnterLoadSessionCheck failed: session is set and locked, " ++
      "no call to loadSession is allowed")
  assert (c.sessionController.loadSessionTracker = .utlsAboutToCall ∨
      c.sessionController.loadSessionTracker = .neverCalled)
    "tls: LoadSessionCoordinator.onEnterLoadSessionCheck failed: you must not call loadSession() twice"
  set (c.updSC fun s => { s with callingLoadSession := true })

/-- `onLoadSessionReturn`. -/
def onLoadSessionReturn : M Unit := do
  let c ← get
  assert (c.sessionController.callingLoadSession = true)
    "tls: LoadSessionCoordinator.onLoadSessionReturn failed: it's not loading sessions"
  assert (c.sessionController.loadSessionTracker = .utlsAboutToCall ∨
      c.sessionController.loadSessionTracker = .neverCalled)
    "tls: LoadSessionCoordinator.onLoadSessionReturn failed: unimplemented state"
  set (c.updSC fun s =>
    { s with
      loadSessionTracker :=
        if s.loadSessionTracker = .neverCalled then .calledByGoTLS else .calledByULoadSession
      callingLoadSession := false })

/-- The sessions are switched off by the configuration. -/
def Config.sessionsOff (cfg : Config) : Bool :=
  cfg.sessionTicketsDisabled || cfg.clientSessionCache.isNone

/-- The lookup of `loadSession`.  It reads the first offered version without a check. -/
def lookupSession : M (Option LoadedSession) := do
  let c ← get
  if c.config.sessionsOff then return none
  else
    assert (c.hello.supportedVersions ≠ []) "index out of range [0] with length 0"
    match judgeSession d c with
    | .skip => return none
    | .forget =>
      set (c.updConfig fun cfg => cfg.forget c.clientSessionCacheKey)
      return none
    | .accept s => return some (loadedSession d c s)

/-- `loadSession` on the public hello of the connection, called by the package, which computes the
binders later. -/
def loadSession : M (Option LoadedSession) := do
  onEnterLoadSessionCheck
  let found ← lookupSession d
  onLoadSessionReturn
  return found

/-! ## `uLoadSession` -/

/-- `utlsAboutToLoadSession`. -/
def utlsAboutToLoadSession : M Unit := do
  let c ← get
  assert (c.sessionController.state = .noSession ∧ c.sessionController.locked = false)
    ("tls: aboutToLoadSession failed: must only load session when the session of the client hello " ++
      "is not locked and when there's currently no session")
  set (c.updSC fun s => { s with loadSessionTracker := .utlsAboutToCall })

/-- `shouldLoadSessionResult`. -/
inductive ShouldLoadSessionResult where
  | shouldReturn
  | shouldSetTicket
  | shouldSetPsk
  | shouldLoad
  deriving DecidableEq, Repr

/-- `shouldLoadSession`. -/
def SessionController.shouldLoadSession (s : SessionController) : ShouldLoadSessionResult :=
  if s.sessionTicketExt = none ∧ s.pskExtension = none then .shouldReturn
  else if s.loadSessionTracker = .calledByULoadSession ∨ s.loadSessionTracker = .calledByGoTLS then
    .shouldReturn
  else if s.state = .sessionTicketExtInitialized then .shouldSetTicket
  else if s.state = .pskExtInitialized then .shouldSetPsk
  else .shouldLoad

/-- Stores the secrets that the inner hello of ECH needs. -/
def keepPskSecrets (l : LoadedSession) : M Unit := do
  setPskToUConn
  modify fun c =>
    { c with
      pskBinderKey := l.binderKey
      pskCipherSuite := cipherSuiteTLS13ByID l.session.cipherSuite }

/-- Hands a loaded session to the controller: a TLS 1.2 session to the session ticket extension,
every other one to the pre-shared key extension. -/
def offerSession (l : LoadedSession) : M Unit := do
  if l.session.version = VersionTLS12 then
    initSessionTicketExt l.session l.sessionTicket
    setSessionTicketToUConn
  else
    initPskExt l.session l.earlySecret l.binderKey l.pskIdentities
    let c ← get
    runIf c.shouldUpdateBinders (keepPskSecrets l)

/-- The branch of `uLoadSession` that loads. -/
def loadAndOffer : M Unit := do
  utlsAboutToLoadSession
  match ← loadSession d with
  | none => return ()
  | some l => offerSession l

/-- `uLoadSession`. -/
def uLoadSession : M Unit := do
  let c ← get
  if c.config.sessionsOff then return ()
  else
    match c.sessionController.shouldLoadSession with
    | .shouldReturn => return ()
    | .shouldSetTicket => setSessionTicketToUConn
    | .shouldSetPsk => setPskToUConn
    | .shouldLoad => loadAndOffer d

/-! ## What the functions do when they return -/

/-- The connection after the call of `loadSession`, as the controller tracks it. -/
def UConn.afterLoad (c : UConn) : UConn :=
  c.updSC fun s => { s with loadSessionTracker := .calledByULoadSession, callingLoadSession := false }

/-- The connection without the cached session. -/
def UConn.afterForget (c : UConn) : UConn :=
  c.updConfig fun cfg => cfg.forget c.clientSessionCacheKey

/-- The branch of `uLoadSession` that loads is the decision about the cached session, followed by
the offer of an accepted one. -/
lemma loadAndOffer_eq (hs : c.sessionController.state = .noSession)
    (hl : c.sessionController.locked = false) (ho : c.config.sessionsOff = false)
    (hv : c.hello.supportedVersions ≠ []) :
    loadAndOffer d c =
      match judgeSession d c with
      | .skip => .ok () c.afterLoad
      | .forget => .ok () c.afterLoad.afterForget
      | .accept s => offerSession (loadedSession d c s) c.afterLoad := by
  set c1 := c.updSC fun s => { s with loadSessionTracker := .utlsAboutToCall } with hc1
  set c2 := c1.updSC fun s => { s with callingLoadSession := true } with hc2
  have habout : utlsAboutToLoadSession c = .ok () c1 := by
    simp [utlsAboutToLoadSession, hs, hl, hc1]
  have henter : onEnterLoadSessionCheck c1 = .ok () c2 := by
    simp [onEnterLoadSessionCheck, hl, hc1, hc2]
  have hlookup : lookupSession d c2 =
      match judgeSession d c with
      | .skip => .ok none c2
      | .forget => .ok none c2.afterForget
      | .accept s => .ok (some (loadedSession d c s)) c2 := by
    have hj : judgeSession d c2 = judgeSession d c := rfl
    have ho2 : c2.config.sessionsOff = false := ho
    have hv2 : c2.hello.supportedVersions ≠ [] := hv
    rw [lookupSession, run_get_bind]
    simp only [ho2, Bool.false_eq_true, if_false, run_bind, run_assert_true hv2, hj]
    cases judgeSession d c <;> rfl
  rw [loadAndOffer, run_bind, habout]
  simp only [run_bind, loadSession, henter, hlookup]
  cases judgeSession d c <;> rfl

/-- A session that is loaded meets the assertions of `loadSession`. -/
lemma loadAndOffer_eq_ok (ho : c.config.sessionsOff = false) (h : loadAndOffer d c = .ok u c') :
    c.sessionController.state = .noSession ∧ c.sessionController.locked = false ∧
      c.hello.supportedVersions ≠ [] := by
  obtain ⟨_, c1, h1, h2⟩ := bind_eq_ok.mp h
  rw [utlsAboutToLoadSession, run_get_bind, assert_bind_eq_ok] at h1
  obtain ⟨⟨hs, hl⟩, h1⟩ := h1
  cases h1
  obtain ⟨_, c2, h3, -⟩ := bind_eq_ok.mp h2
  rw [loadSession, onEnterLoadSessionCheck] at h3
  obtain ⟨_, c4, h4, h5⟩ := bind_eq_ok.mp h3
  rw [run_get_bind, assert_bind_eq_ok, assert_bind_eq_ok] at h4
  cases h4.2.2
  obtain ⟨_, c6, h6, -⟩ := bind_eq_ok.mp h5
  refine ⟨hs, hl, ?_⟩
  rw [lookupSession, run_get_bind] at h6
  rw [if_neg (by simpa using ho), assert_bind_eq_ok] at h6
  exact h6.1

/-- A session ticket extension that takes a loaded session, written to the connection. -/
def UConn.offerTicket (c : UConn) (r : Ref) (l : LoadedSession) : UConn :=
  ((c.store r (initializedTicket l.session l.sessionTicket)).updSC
    fun s => { s with state := .sessionTicketExtInitialized }).ticketWritten r

/-- A pre-shared key extension that takes a loaded session, written to the connection. -/
def UConn.offerPsk (c : UConn) (r : Ref) (e : UtlsPreSharedKeyExtension) (l : LoadedSession) :
    UConn :=
  { ((c.store r (.utlsPreSharedKey
      (initializedPsk e l.session l.earlySecret l.binderKey l.pskIdentities))).updSC
      fun s => { s with state := .pskExtInitialized }).pskWritten r with
    pskBinderKey := l.binderKey
    pskCipherSuite := cipherSuiteTLS13ByID l.session.cipherSuite }

/-- The ways in which a session can be offered. -/
inductive Offered (c : UConn) (l : LoadedSession) : UConn → Prop where
  | ticket {r : Ref} (hv : l.session.version = VersionTLS12)
      (hr : c.sessionController.sessionTicketExt = some r) (he : (c.heap r).isSessionTicket = true)
      (hb : c.clientHelloBuildStatus = .notBuilt) : Offered c l (c.offerTicket r l)
  | psk {r : Ref} {e : UtlsPreSharedKeyExtension} (hv : l.session.version ≠ VersionTLS12)
      (hr : c.sessionController.pskExtension = some r) (he : c.heap r = .utlsPreSharedKey e)
      (hb : c.clientHelloBuildStatus = .notBuilt)
      (hsuite : l.pskIdentities = [] ∨ (cipherSuiteTLS13ByID l.session.cipherSuite).isSome) :
      Offered c l (c.offerPsk r e l)
  | skipped (hv : l.session.version ≠ VersionTLS12)
      (hr : c.sessionController.pskExtension = none) : Offered c l c

lemma offerSession_cases {l : LoadedSession}
    (h : offerSession l c = .ok u c') : Offered c l c' := by
  unfold offerSession at h
  split_ifs at h with hv
  · obtain ⟨_, c1, h1, h2⟩ := bind_eq_ok.mp h
    obtain ⟨r, hr, hs, rfl⟩ := setSessionTicketToUConn_eq_ok.mp h2
    obtain ⟨hb, hn, ⟨hnone, rfl⟩ | ⟨r', hr', he, rfl⟩⟩ := initSessionTicketExt_eq_ok h1
    · rw [hnone] at hr
      cases hr
    · have hrr : r = r' := Option.some.inj (hr.symm.trans hr')
      subst hrr
      exact .ticket hv hr' he hb
  · obtain ⟨_, c1, h1, h2⟩ := bind_eq_ok.mp h
    rw [run_get_bind] at h2
    obtain ⟨hb, hn, ⟨hnone, rfl⟩ | ⟨r, e, hr, he, hsuite, rfl⟩⟩ := initPskExt_eq_ok h1
    · rcases runIf_eq_ok.mp h2 with ⟨hu, -⟩ | ⟨-, rfl⟩
      · simp [UConn.shouldUpdateBinders, hnone] at hu
      · exact .skipped hv hnone
    · rcases runIf_eq_ok.mp h2 with ⟨-, h2⟩ | ⟨hu, -⟩
      · obtain ⟨_, c2, h3, h4⟩ := bind_eq_ok.mp h2
        obtain ⟨r', hr', -, rfl⟩ := setPskToUConn_eq_ok.mp h3
        cases h4
        have hrr : r' = r := Option.some.inj (hr'.symm.trans hr)
        subst hrr
        exact .psk hv hr he hb hsuite
      · simp [UConn.shouldUpdateBinders, hr] at hu

/-- The ways in which `uLoadSession` returns. -/
inductive Loaded (c : UConn) : UConn → Prop where
  /-- There is nothing to do. -/
  | unchanged : Loaded c c
  /-- The caller gave an initialised session ticket extension. -/
  | ticketGiven {r : Ref} (hr : c.sessionController.sessionTicketExt = some r)
      (hs : c.sessionController.state = .sessionTicketExtInitialized) : Loaded c (c.ticketWritten r)
  /-- The caller gave an initialised pre-shared key extension. -/
  | pskGiven {r : Ref} (hr : c.sessionController.pskExtension = some r)
      (hs : c.sessionController.state = .pskExtInitialized) : Loaded c (c.pskWritten r)
  /-- The cache has no session that can be offered. -/
  | nothing (hs : c.sessionController.state = .noSession) : Loaded c c.afterLoad
  /-- The cached session has expired. -/
  | expired (hs : c.sessionController.state = .noSession) : Loaded c c.afterLoad.afterForget
  /-- The cached session is offered. -/
  | offered {s : SessionState} {c' : UConn} (hs : c.sessionController.state = .noSession)
      (hj : judgeSession d c = .accept s) (ho : Offered c.afterLoad (loadedSession d c s) c') :
      Loaded c c'

lemma uLoadSession_cases (h : uLoadSession d c = .ok u c') : Loaded d c c' := by
  rw [uLoadSession, run_get_bind] at h
  split_ifs at h with hoff
  · cases h
    exact .unchanged
  · have hoff : c.config.sessionsOff = false := by simpa using hoff
    unfold SessionController.shouldLoadSession at h
    split_ifs at h with h1 h2 h3 h4
    · cases h
      exact .unchanged
    · cases h
      exact .unchanged
    · obtain ⟨r, hr, hs, rfl⟩ := setSessionTicketToUConn_eq_ok.mp h
      exact .ticketGiven hr hs
    · obtain ⟨r, hr, -, rfl⟩ := setPskToUConn_eq_ok.mp h
      exact .pskGiven hr h4
    · obtain ⟨hs, hl, hv⟩ := loadAndOffer_eq_ok d hoff h
      have h : loadAndOffer d c = .ok u c' := h
      rw [loadAndOffer_eq d hs hl hoff hv] at h
      cases hj : judgeSession d c with
      | skip =>
        rw [hj] at h
        cases h
        exact .nothing hs
      | forget =>
        rw [hj] at h
        cases h
        exact .expired hs
      | accept s =>
        rw [hj] at h
        exact .offered hs hj (offerSession_cases h)

end Deps

end Utls
