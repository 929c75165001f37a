import Utls.ApplyConfig

/-!
# The session controller

The session controller owns the session ticket extension and the pre-shared key extension of a
connection.  It takes over the ones of the specification (`syncSessionExts`), initialises them from
the session cache (`uLoadSession`), writes the binders into the marshalled hello (`uApplyPatch`) and
locks itself (`finalCheck`).  Every method starts with assertions on its own state, on the build
status and on its lock; a violated assertion is a panic.
-/

namespace Utls

open Wire Exec

/-! ## Session extensions -/

/-- The extension is an `ISessionTicketExtension`. -/
def Ext.isSessionTicket : Ext → Bool
  | .sessionTicket _ => true
  | _ => false

/-- The extension is a `PreSharedKeyExtension`. -/
def Ext.isPreSharedKey : Ext → Bool
  | .utlsPreSharedKey _ | .fakePreSharedKey _ => true
  | _ => false

/-- `IsInitialized`. -/
def Ext.isInitialized : Ext → Bool
  | .sessionTicket e => e.initialized
  | .utlsPreSharedKey e => e.session.isSome
  | .fakePreSharedKey e => e.identities.isSome && e.binders.isSome
  | _ => false

/-- `GetSession` of a session ticket extension. -/
def Ext.getSession : Ext → Option SessionState
  | .sessionTicket e => e.session
  | _ => none

/-- `GetTicket` of a session ticket extension. -/
def Ext.getTicket : Ext → Bytes
  | .sessionTicket e => e.ticket
  | _ => []

/-- `ResetForReuse`. -/
def Ext.resetForReuse : Ext → Ext
  | .utlsPreSharedKey e => .utlsPreSharedKey
      { e with
        session := none, earlySecret := [], binderKey := [], identities := [], binders := []
        cipherSuite := none, cachedLength := none }
  | .fakePreSharedKey e => .fakePreSharedKey { e with identities := none, binders := none }
  | e => e

/-- `SetOmitEmptyPsk`. -/
def Ext.setOmitEmptyPsk (val : Bool) : Ext → Ext
  | .utlsPreSharedKey e => .utlsPreSharedKey { e with omitEmptyPsk := val }
  | .fakePreSharedKey e => .fakePreSharedKey { e with omitEmptyPsk := val }
  | e => e

/-- `PreSharedKeyCommon`, without the binders. -/
structure PreSharedKeyCommon where
  identities : List PskIdentity
  binderKey : Bytes
  earlySecret : Bytes
  session : Option SessionState

/-- `GetPreSharedKeyCommon`. -/
def Ext.preSharedKeyCommon : Ext → PreSharedKeyCommon
  | .utlsPreSharedKey e => ⟨e.identities, e.binderKey, e.earlySecret, e.session⟩
  | .fakePreSharedKey e => ⟨e.identities.getD [], [], [], none⟩
  | _ => ⟨[], [], [], none⟩

/-! ## Assertions -/

/-- `assertHelloNotBuilt`. -/
def assertHelloNotBuilt (caller : String) : M Unit := do
  let c ← get
  assert (c.clientHelloBuildStatus = .notBuilt)
    ("tls: " ++ caller ++ " failed: we can't modify the session after the clientHello is built")

/-- `assertControllerState`. -/
def assertControllerState (caller : String) (desired : List SessionControllerState) : M Unit := do
  let c ← get
  assert (c.sessionController.state ∈ desired)
    ("tls: " ++ caller ++ " failed: undesired controller state")

/-- `assertNotLocked`. -/
def assertNotLocked (caller : String) : M Unit := do
  let c ← get
  assert (c.sessionController.locked = false)
    ("tls: " ++ caller ++ " failed: you must not modify the session after it's locked")

/-- `assertCanSkip`. -/
def assertCanSkip (caller extensionName : String) : M Unit := do
  let c ← get
  assert (c.skipResumptionOnNilExtension = true)
    ("tls: " ++ caller ++ " failed: session resumption is enabled, but there is no " ++
      extensionName ++ " in the ClientHelloSpec")

/-- Changes the state of the controller. -/
def setControllerState (state : SessionControllerState) : M Unit :=
  modify (·.updSC fun s => { s with state := state })

/-- `finalCheck`. -/
def finalCheck : M Unit := do
  assertControllerState "SessionController.finalCheck"
    [.pskExtAllSet, .sessionTicketExtAllSet, .noSession]
  modify (·.updSC fun s => { s with locked := true })

/-! ## Initialising the extensions -/

/-- `initializationGuard`: the extension is initialised by the call, and only by the call. -/
def initializationGuard (r : Ref) (initializer : M Unit) : M Unit := do
  let e ← loadExt r
  assert (e.isInitialized = false)
    "tls: initialization failed: the extension is already initialized"
  initializer
  let e ← loadExt r
  assert (e.isInitialized = true)
    "tls: initialization failed: the extension is not initialized after initialization"

/-- `(*SessionTicketExtension).InitializeByUtls`. -/
def initializeTicketByUtls (r : Ref) (session : SessionState) (ticket : Option Bytes) : M Unit := do
  match ← loadExt r with
  | .sessionTicket e =>
    assert (e.initialized = false)
      "tls: InitializeByUtls failed: the SessionTicketExtension is initialized"
    assert (session.version = VersionTLS12 ∧ ticket.isSome)
      "tls: InitializeByUtls failed: the session is not a tls 1.2 session"
    storeExt r (.sessionTicket
      { session := some session, ticket := ticket.getD [], initialized := true })
  | _ => return ()

/-- `InitializeByUtls` of the two pre-shared key extensions. -/
def initializePskByUtls (r : Ref) (session : SessionState) (earlySecret binderKey : Bytes)
    (identities : List PskIdentity) : M Unit := do
  match ← loadExt r with
  | .utlsPreSharedKey e =>
    let suite := cipherSuiteTLS13ByID session.cipherSuite
    -- the hash of the suite is only looked up if there is an identity to make a binder for
    assert (identities.length = 0 ∨ suite.isSome) "nil pointer dereference"
    storeExt r (.utlsPreSharedKey
      { e with
        session := some session, earlySecret := earlySecret, binderKey := binderKey
        cipherSuite := suite, identities := identities
        binders := identities.map fun _ =>
          List.replicate ((suite.map fun s => s.hash.size).getD 0) 0 })
  | .fakePreSharedKey _ =>
    panicWith ("InitializeByUtls failed: don't let utls initialize FakePreSharedKeyExtension; " ++
      "provide your own identities and binders or use UtlsPreSharedKeyExtension")
  | _ => return ()

/-- `initSessionTicketExt`. -/
def initSessionTicketExt (session : SessionState) (ticket : Option Bytes) : M Unit := do
  assertNotLocked "initSessionTicketExt"
  assertHelloNotBuilt "initSessionTicketExt"
  assertControllerState "initSessionTicketExt" [.noSession]
  let c ← get
  match c.sessionController.sessionTicketExt with
  | none => assertCanSkip "initSessionTicketExt" "session ticket extension"
  | some r =>
    initializationGuard r (initializeTicketByUtls r session ticket)
    setControllerState .sessionTicketExtInitialized

/-- `initPskExt`. -/
def initPskExt (session : SessionState) (earlySecret binderKey : Bytes)
    (pskIdentities : List PskIdentity) : M Unit := do
  assertNotLocked "initPskExt"
  assertHelloNotBuilt "initPskExt"
  assertControllerState "initPskExt" [.noSession]
  let c ← get
  match c.sessionController.pskExtension with
  | none => assertCanSkip "initPskExt" "pre-shared key extension"
  | some r =>
    initializationGuard r (initializePskByUtls r session earlySecret binderKey pskIdentities)
    setControllerState .pskExtInitialized

/-! ## Writing the session to the connection -/

/-- The connection after the session ticket extension at `r` has been written to it. -/
def UConn.ticketWritten (c : UConn) (r : Ref) : UConn :=
  { c.updHello fun h => { h with sessionTicket := (c.heap r).getTicket } with
    session := (c.heap r).getSession }.updSC
    fun s => { s with state := .sessionTicketExtAllSet }

/-- `setSessionTicketToUConn`. -/
def setSessionTicketToUConn : M Unit := do
  let c ← get
  match c.sessionController.sessionTicketExt with
  | none => panicWith "tls: setSessionTicketExt failed: invalid state"
  | some r =>
    assert (c.sessionController.state = .sessionTicketExtInitialized)
      "tls: setSessionTicketExt failed: invalid state"
    set (c.ticketWritten r)

/-- The identities of the public hello agree with the ones of the extension. -/
def sameIdentities (shown own : List PskIdentity) : Bool :=
  (List.range shown.length).all fun i => own[i]? == shown[i]?

/-- The connection after the pre-shared key extension at `r` has been written to it; once it has
been, only the binder key is written again. -/
def UConn.pskWritten (c : UConn) (r : Ref) : UConn :=
  let common := (c.heap r).preSharedKeyCommon
  let c₁ := if c.sessionController.state = .pskExtInitialized then
      { c with
        earlySecret := common.earlySecret, session := common.session
        helloPskIdentities := .ofExt r }
    else c
  { c₁ with binderKey := common.binderKey }.updSC fun s => { s with state := .pskExtAllSet }

/-- Apart from the session, writing the pre-shared key extension touches nothing. -/
lemma UConn.pskWritten_eq (c : UConn) (r : Ref) :
    ∃ early session ids key, c.pskWritten r =
      ({ c with
        earlySecret := early, session := session, helloPskIdentities := ids
        binderKey := key }).updSC fun s => { s with state := .pskExtAllSet } := by
  unfold UConn.pskWritten
  split_ifs
  · exact ⟨_, _, _, _, rfl⟩
  · exact ⟨c.earlySecret, c.session, c.helloPskIdentities, _, rfl⟩

/-- The comparison that `setPskToUConn` makes once the session has been written. -/
def UConn.pskUnchanged (c : UConn) (r : Ref) : Bool :=
  decide (c.session = (c.heap r).preSharedKeyCommon.session) &&
    decide (c.earlySecret = (c.heap r).preSharedKeyCommon.earlySecret) &&
    sameIdentities c.pskIdentities (c.heap r).preSharedKeyCommon.identities

/-- `setPskToUConn`. -/
def setPskToUConn : M Unit := do
  let c ← get
  match c.sessionController.pskExtension with
  | none => panicWith "tls: setPskToUConn failed: invalid state"
  | some r =>
    assert (c.sessionController.state = .pskExtInitialized ∨
      c.sessionController.state = .pskExtAllSet) "tls: setPskToUConn failed: invalid state"
    assert (c.sessionController.state = .pskExtInitialized ∨ c.pskUnchanged r = true)
      "tls: setPskToUConn failed: only binders are allowed to change on state PskAllSet"
    set (c.pskWritten r)

/-- `shouldUpdateBinders`. -/
def UConn.shouldUpdateBinders (c : UConn) : Bool :=
  c.sessionController.pskExtension.isSome &&
    (c.sessionController.state == .pskExtInitialized || c.sessionController.state == .pskExtAllSet)

section Deps

variable (d : Deps)

/-- The new binder of a pre-shared key extension for a hello that ends in its binders. -/
def pskBinder (suite : CipherSuiteTLS13) (binderKey helloBytes : Bytes) : Bytes :=
  d.finishedHash suite.hash binderKey (d.hash suite.hash helloBytes)

/-- The bytes that the binders of an extension take at the end of a hello. -/
def bindersSize (binders : List Bytes) : Nat := 2 + (binders.map fun b => 1 + b.length).sum

/-- The body of `(*UtlsPreSharedKeyExtension).PatchBuiltHello` for an extension that is sent.  The
hello has been marshalled, and the binders are written over its end; if their sizes do not fit, the
error is dropped by the caller. -/
def writeBinders (r : Ref) (e : UtlsPreSharedKeyExtension) : M Unit := do
  let c ← get
  assert e.cipherSuite.isSome "nil pointer dereference"
  assert (bindersSize e.binders ≤ c.raw.length) "slice bounds out of range"
  let helloBytes := c.raw.take (c.raw.length - bindersSize e.binders)
  let binder := pskBinder d (e.cipherSuite.getD ⟨0, .sha256⟩) e.binderKey helloBytes
  if e.binders.map List.length = [binder.length] then
    set ((c.store r (.utlsPreSharedKey { e with binders := [binder] })).setRaw
      (helloBytes ++ vec16 (vec8 binder)))
  else return ()

/-- `PatchBuiltHello`. -/
def patchBuiltHello (r : Ref) : M Unit := do
  let n ← extLen d r
  match ← loadExt r with
  | .utlsPreSharedKey e => if n = 0 ∨ e.skipBinderPatching then return () else writeBinders d r e
  | _ => return ()

/-- `updateBinders`. -/
def updateBinders : M Unit := do
  let c ← get
  assert c.shouldUpdateBinders "tls: updateBinders failed: shouldn't update binders"
  match c.sessionController.pskExtension with
  | some r => patchBuiltHello d r
  | none => return ()

/-- `uApplyPatch`. -/
def uApplyPatch : M Unit := do
  let before ← get
  runIf before.shouldUpdateBinders do
    updateBinders d
    setPskToUConn
  let c ← get
  assert (before.raw.length = c.raw.length)
    "tls: uApplyPatch Failed: the patch should never change the length of the marshaled clientHello"

end Deps

/-! ## Extensions from the specification -/

/-- Takes over a session ticket extension of the list, or puts the caller's in its place. -/
def syncTicketExt (i : Nat) (r : Ref) : M Unit := do
  let c ← get
  match c.sessionController.sessionTicketExt with
  | none => modify (·.updSC fun s => { s with sessionTicketExt := some r })
  | some r' => modify fun c => { c with extensions := c.extensions.set i r' }

/-- Takes over a pre-shared key extension of the list, reset, or puts the caller's in its
place. -/
def syncPskExt (i : Nat) (r : Ref) : M Unit := do
  let c ← get
  match c.sessionController.pskExtension with
  | none =>
    modify (·.store r ((c.heap r).resetForReuse.setOmitEmptyPsk c.config.omitEmptyPsk))
    modify (·.updSC fun s => { s with pskExtension := some r })
  | some r' =>
    modify fun c => { c with extensions := c.extensions.set i r' }
    modify (·.store r' ((c.heap r').setOmitEmptyPsk c.config.omitEmptyPsk))

/-- The loop of `syncSessionExts`, from index `i`, with the number of session ticket extensions
and the presence of a pre-shared key extension so far. -/
def syncLoop (total : Nat) : Nat → List Ref → Nat → Bool → M (Nat × Bool)
  | _, [], numSessionExt, hasPskExt => return (numSessionExt, hasPskExt)
  | i, r :: rs, numSessionExt, hasPskExt => do
    let e ← loadExt r
    if e.isSessionTicket then
      assert (numSessionExt = 0)
        "tls: checkSessionExts failed: multiple ISessionTicketExtensions in the extension list"
      syncTicketExt i r
      syncLoop total (i + 1) rs (numSessionExt + 1) hasPskExt
    else if e.isPreSharedKey then
      assert (i + 1 = total)
        "tls: checkSessionExts failed: PreSharedKeyExtension must be the last extension"
      syncPskExt i r
      syncLoop total (i + 1) rs numSessionExt true
    else syncLoop total (i + 1) rs numSessionExt hasPskExt

/-- The connection without a session ticket extension. -/
def UConn.withoutTicketExt (c : UConn) : UConn :=
  { (c.updSC fun s => { s with sessionTicketExt := none }).updHello
      fun h => { h with sessionTicket := [] } with session := none }

/-- The connection without a pre-shared key extension. -/
def UConn.withoutPskExt (c : UConn) : UConn :=
  { c.updSC fun s => { s with pskExtension := none } with
    binderKey := [], earlySecret := [], session := none, helloPskIdentities := .own [] }

section Projections

variable (c : UConn)

@[simp] lemma UConn.withoutTicketExt_heap : c.withoutTicketExt.heap = c.heap := rfl
@[simp] lemma UConn.withoutTicketExt_extensions :
    c.withoutTicketExt.extensions = c.extensions := rfl
@[simp] lemma UConn.withoutTicketExt_sessionController : c.withoutTicketExt.sessionController =
    { c.sessionController with sessionTicketExt := none } := rfl
@[simp] lemma UConn.withoutPskExt_heap : c.withoutPskExt.heap = c.heap := rfl
@[simp] lemma UConn.withoutPskExt_extensions : c.withoutPskExt.extensions = c.extensions := rfl
@[simp] lemma UConn.withoutPskExt_sessionController : c.withoutPskExt.sessionController =
    { c.sessionController with pskExtension := none } := rfl

end Projections

/-- Drops the session ticket extension of a specification that has none. -/
def dropTicketExt : M Unit := do
  let c ← get
  if c.sessionController.state = .sessionTicketExtInitialized then
    fail (.text ("tls: checkSessionExts failed: the user provided a session ticket, " ++
      "but the specification doesn't contain one"))
  else
    set c.withoutTicketExt

/-- Drops the pre-shared key extension of a specification that has none. -/
def dropPskExt : M Unit := do
  let c ← get
  if c.sessionController.state = .pskExtInitialized then
    fail (.text ("tls: checkSessionExts failed: the user provided a psk, " ++
      "but the specification doesn't contain one"))
  else
    set c.withoutPskExt

/-- `syncSessionExts`. -/
def syncSessionExts : M Unit := do
  assertHelloNotBuilt "checkSessionExts"
  assertNotLocked "checkSessionExts"
  assertControllerState "checkSessionExts"
    [.noSession, .sessionTicketExtInitialized, .pskExtInitialized]
  let c ← get
  let found ← syncLoop c.extensions.length 0 c.extensions 0 false
  runIf (found.1 = 0) dropTicketExt
  runIf (found.2 = false) dropPskExt

/-! ## What the methods do when they return -/

section Returns

variable {c c' : UConn} {u : Unit}

lemma noFail_assertHelloNotBuilt (caller : String) : NoFail (assertHelloNotBuilt caller) :=
  FailsOnly.get.bind fun _ => .assert _ _

lemma noFail_assertNotLocked (caller : String) : NoFail (assertNotLocked caller) :=
  FailsOnly.get.bind fun _ => .assert _ _

lemma noFail_assertControllerState (caller : String) (l : List SessionControllerState) :
    NoFail (assertControllerState caller l) :=
  FailsOnly.get.bind fun _ => .assert _ _

lemma noFail_assertCanSkip (caller name : String) : NoFail (assertCanSkip caller name) :=
  FailsOnly.get.bind fun _ => .assert _ _

lemma assertHelloNotBuilt_eq_ok {caller : String} :
    assertHelloNotBuilt caller c = .ok u c' ↔ c.clientHelloBuildStatus = .notBuilt ∧ c = c' := by
  simp [assertHelloNotBuilt, assert_eq_ok]

lemma assertControllerState_eq_ok {caller : String} {l : List SessionControllerState} :
    assertControllerState caller l c = .ok u c' ↔ c.sessionController.state ∈ l ∧ c = c' := by
  simp [assertControllerState, assert_eq_ok]

lemma assertNotLocked_eq_ok {caller : String} :
    assertNotLocked caller c = .ok u c' ↔ c.sessionController.locked = false ∧ c = c' := by
  simp [assertNotLocked, assert_eq_ok]

lemma assertCanSkip_eq_ok {caller name : String} :
    assertCanSkip caller name c = .ok u c' ↔ c.skipResumptionOnNilExtension = true ∧ c = c' := by
  simp [assertCanSkip, assert_eq_ok]

lemma finalCheck_eq_ok (h : finalCheck c = .ok u c') :
    c' = c.updSC fun s => { s with locked := true } := by
  obtain ⟨_, _, h1, h2⟩ := bind_eq_ok.mp h
  obtain ⟨-, rfl⟩ := assertControllerState_eq_ok.mp h1
  cases h2
  rfl

lemma setSessionTicketToUConn_eq_ok :
    setSessionTicketToUConn c = .ok u c' ↔ ∃ r, c.sessionController.sessionTicketExt = some r ∧
      c.sessionController.state = .sessionTicketExtInitialized ∧ c' = c.ticketWritten r := by
  unfold setSessionTicketToUConn
  rw [run_get_bind]
  cases hr : c.sessionController.sessionTicketExt with
  | none => simp
  | some r =>
    simp only [bind_eq_ok, assert_eq_ok, run_set, EStateM.Result.ok.injEq, Option.some.injEq,
      exists_eq_left']
    constructor
    · rintro ⟨_, _, ⟨hs, rfl⟩, -, rfl⟩
      exact ⟨hs, rfl⟩
    · rintro ⟨hs, rfl⟩
      exact ⟨(), c, ⟨hs, rfl⟩, trivial, rfl⟩

lemma setPskToUConn_eq_ok :
    setPskToUConn c = .ok u c' ↔ ∃ r, c.sessionController.pskExtension = some r ∧
      (c.sessionController.state = .pskExtInitialized ∨
        c.sessionController.state = .pskExtAllSet ∧ c.pskUnchanged r = true) ∧
      c' = c.pskWritten r := by
  unfold setPskToUConn
  rw [run_get_bind]
  cases hr : c.sessionController.pskExtension with
  | none => simp
  | some r =>
    simp only [bind_eq_ok, assert_eq_ok, run_set, EStateM.Result.ok.injEq, Option.some.injEq,
      exists_eq_left']
    constructor
    · rintro ⟨_, _, ⟨hs, rfl⟩, _, _, ⟨hu, rfl⟩, -, rfl⟩
      refine ⟨?_, rfl⟩
      rcases hs with hs | hs
      · exact .inl hs
      · rcases hu with hu | hu
        · exact .inl hu
        · exact .inr ⟨hs, hu⟩
    · rintro ⟨hs, rfl⟩
      refine ⟨(), c, ⟨?_, rfl⟩, (), c, ⟨?_, rfl⟩, trivial, rfl⟩
      · exact hs.imp id And.left
      · exact hs.imp id And.right

/-- The session ticket extension after its initialisation. -/
def initializedTicket (s : SessionState) (ticket : Option Bytes) : Ext :=
  .sessionTicket { session := some s, ticket := ticket.getD [], initialized := true }

/-- An initialiser that returns inside the guard, and the states it is between. -/
lemma initializationGuard_eq_ok {r : Ref} {x : M Unit} (h : initializationGuard r x c = .ok u c') :
    (c.heap r).isInitialized = false ∧ x c = .ok () c' ∧ (c'.heap r).isInitialized = true := by
  rw [initializationGuard, run_loadExt_bind, assert_bind_eq_ok] at h
  obtain ⟨hi, h⟩ := h
  obtain ⟨_, _, hx, h⟩ := bind_eq_ok.mp h
  rw [run_loadExt_bind] at h
  obtain ⟨hi', rfl⟩ := assert_eq_ok.mp h
  exact ⟨hi, hx, hi'⟩

/-- What `initSessionTicketExt` does when it returns: it initialises the extension, or there is
none. -/
lemma initSessionTicketExt_eq_ok {s : SessionState} {ticket : Option Bytes}
    (h : initSessionTicketExt s ticket c = .ok u c') :
    c.clientHelloBuildStatus = .notBuilt ∧ c.sessionController.state = .noSession ∧
      ((c.sessionController.sessionTicketExt = none ∧ c' = c) ∨
        ∃ r, c.sessionController.sessionTicketExt = some r ∧ (c.heap r).isSessionTicket = true ∧
          c' = (c.store r (initializedTicket s ticket)).updSC
            fun s => { s with state := .sessionTicketExtInitialized }) := by
  simp only [initSessionTicketExt, bind_eq_ok, assertNotLocked_eq_ok, assertHelloNotBuilt_eq_ok,
    assertControllerState_eq_ok, run_get_bind, and_assoc, exists_and_left, exists_eq_left',
    exists_const] at h
  obtain ⟨-, hb, hs, h⟩ := h
  refine ⟨hb, by simpa using hs, ?_⟩
  cases hr : c.sessionController.sessionTicketExt with
  | none =>
    rw [hr] at h
    exact .inl ⟨rfl, (assertCanSkip_eq_ok.mp h).2.symm⟩
  | some r =>
    rw [hr] at h
    obtain ⟨_, c1, hg, h⟩ := bind_eq_ok.mp h
    cases h
    obtain ⟨hi, hx, hi'⟩ := initializationGuard_eq_ok hg
    rw [initializeTicketByUtls, run_loadExt_bind] at hx
    cases he : c.heap r with
    | sessionTicket t =>
      simp only [he, assert_bind_eq_ok] at hx
      cases hx.2.2
      exact .inr ⟨r, rfl, by rw [he]; rfl, rfl⟩
    | _ =>
      -- another extension is as uninitialised after the call as before
      rw [he] at hx
      cases hx
      rw [hi] at hi'
      cases hi'

/-- The pre-shared key extension after its initialisation. -/
def initializedPsk (e : UtlsPreSharedKeyExtension) (s : SessionState)
    (earlySecret binderKey : Bytes) (identities : List PskIdentity) : UtlsPreSharedKeyExtension :=
  let suite := cipherSuiteTLS13ByID s.cipherSuite
  { e with
    session := some s, earlySecret := earlySecret, binderKey := binderKey
    cipherSuite := suite, identities := identities
    binders := identities.map fun _ =>
      List.replicate ((suite.map fun s => s.hash.size).getD 0) 0 }

/-- What `initPskExt` does when it returns: it initialises the extension, or there is none. -/
lemma initPskExt_eq_ok {s : SessionState} {early key : Bytes} {identities : List PskIdentity}
    (h : initPskExt s early key identities c = .ok u c') :
    c.clientHelloBuildStatus = .notBuilt ∧ c.sessionController.state = .noSession ∧
      ((c.sessionController.pskExtension = none ∧ c' = c) ∨
        ∃ r e, c.sessionController.pskExtension = some r ∧ c.heap r = .utlsPreSharedKey e ∧
          (identities = [] ∨ (cipherSuiteTLS13ByID s.cipherSuite).isSome) ∧
          c' = (c.store r (.utlsPreSharedKey (initializedPsk e s early key identities))).updSC
            fun s => { s with state := .pskExtInitialized }) := by
  simp only [initPskExt, bind_eq_ok, assertNotLocked_eq_ok, assertHelloNotBuilt_eq_ok,
    assertControllerState_eq_ok, run_get_bind, and_assoc, exists_and_left, exists_eq_left',
    exists_const] at h
  obtain ⟨-, hb, hs, h⟩ := h
  refine ⟨hb, by simpa using hs, ?_⟩
  cases hr : c.sessionController.pskExtension with
  | none =>
    rw [hr] at h
    exact .inl ⟨rfl, (assertCanSkip_eq_ok.mp h).2.symm⟩
  | some r =>
    rw [hr] at h
    obtain ⟨_, c1, hg, h⟩ := bind_eq_ok.mp h
    cases h
    obtain ⟨hi, hx, hi'⟩ := initializationGuard_eq_ok hg
    rw [initializePskByUtls, run_loadExt_bind] at hx
    cases he : c.heap r with
    | utlsPreSharedKey e =>
      simp only [he, assert_bind_eq_ok] at hx
      cases hx.2
      exact .inr ⟨r, e, rfl, he, by simpa using hx.1, rfl⟩
    | fakePreSharedKey e =>
      rw [he] at hx
      cases hx
    | _ =>
      -- another extension is as uninitialised after the call as before
      rw [he] at hx
      cases hx
      rw [hi] at hi'
      cases hi'

end Returns

end Utls
