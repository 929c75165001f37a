import Utls.Build
import Utls.QuicEvents

/-!
# The end of a QUIC handshake

`Start` runs `handshakeContext` in a goroutine of its own.  The methods of the connection wait for
that goroutine on `blockedc` and `signalc`; when the handshake is done, it stores its outcome in
`handshakeErr` and closes both channels, so that nobody waits for it any longer.

`handshakeContext` of a `UConn` builds the hello first.  If that fails it returns at once: the error
is not stored and the channels stay open, and `Start` waits forever.  On every other return the end
is reported (`reportsEnd_iff`).
-/

namespace Utls

open Wire Exec

def alertCloseNotify : UInt8 := 0
def alertInternalError : UInt8 := 80

/-- An error of the handshake; `alert` is the `AlertError` that it wraps. -/
structure HandshakeError where
  err : Err
  alert : Option UInt8 := none
  deriving DecidableEq, Repr

/-- A `UQUICConn`: the connection, the outcome of its handshake and the state of its channels. -/
structure UQUICConn where
  uconn : UConn
  queue : QuicQueue
  handshakeErr : Option HandshakeError
  isHandshakeComplete : Bool
  /-- The alert in `c.out.err`, if there is one. -/
  outErr : Option UInt8
  /-- `quic.cancel` is set. -/
  cancellable : Bool
  blockedcClosed : Bool
  signalcClosed : Bool

/-- `UQUICClient`, for a new connection. -/
def newUQUICConn (uconn : UConn) : UQUICConn where
  uconn := { uconn with quic := true }
  queue := .new
  handshakeErr := none
  isHandshakeComplete := false
  outErr := none
  cancellable := false
  blockedcClosed := false
  signalcClosed := false

/-- What `handshakeFn` returns, and what it leaves in the connection.  While it runs the user takes
events from the queue. -/
structure HandshakeResult where
  err : Option Err
  uconn : UConn
  queue : QuicQueue
  isHandshakeComplete : Bool
  outErr : Option UInt8
  cipherSuite : UInt16
  trafficSecret : Bytes

section Deps

variable (d : Deps)

/-- The branch of `buildHandshakeState` for `HelloGolang`; `suites` are the cipher suites of the
configuration. -/
def buildGolang (suites : List UInt16) : M Unit := do
  let c ← get
  if c.clientHelloBuildStatus = .buildByGoTLS then return ()
  else
    assert (c.clientHelloBuildStatus = .notBuilt)
      "BuildHandshakeState failed: invalid call, client hello has already been built by utls"
    let made ← makeClientHello d
    modify fun c =>
      { c with
        hello := { made.1 with cipherSuites := suites }
        echCtx := made.2
        clientHelloBuildStatus := .buildByGoTLS }

/-- `BuildHandshakeState`. -/
def buildHandshakeStateAny (suites : List UInt16) : M Unit := do
  let c ← get
  if c.clientHelloID = .golang then buildGolang d suites else buildHandshakeState d true

variable (spare : Nat → Nat)

/-- The error of a QUIC handshake wraps the alert that was sent, or `internal_error`. -/
def wrapAlert (e : Err) (outErr : Option UInt8) : HandshakeError :=
  ⟨e, some (outErr.getD alertInternalError)⟩

/-- The error of `handshakeFn`, or the one of a handshake without a result. -/
def handshakeOutcome (r : HandshakeResult) : Option Err :=
  if r.err = none ∧ r.isHandshakeComplete = false then
    some (.text "tls: internal error: handshake should have had a result")
  else r.err

/-- What the handshake function left is taken over. -/
def UQUICConn.afterHandshake (q : UQUICConn) (r : HandshakeResult) : UQUICConn :=
  { q with
    uconn :=
      { r.uconn with
        handshakes := if r.err = none then r.uconn.handshakes + 1 else r.uconn.handshakes }
    queue := r.queue
    isHandshakeComplete := r.isHandshakeComplete
    outErr := r.outErr }

/-- What a build that fails leaves.  A cancelled wait has sent an alert. -/
def UQUICConn.unbuilt (q : UQUICConn) (left : QuicQueue → QuicQueue) (e : Err) (c : UConn) :
    UQUICConn :=
  { q with
    uconn := c
    queue := left q.queue
    outErr := if e = errWaitCancelled then some alertCloseNotify else q.outErr }

/-- The end of `handshakeContext`: the last events or the wrapped error, and the channels are
closed. -/
def UQUICConn.finish (q : UQUICConn) (r : HandshakeResult) : UQUICConn :=
  match handshakeOutcome r with
  | none =>
    { q with
      queue := q.queue.quicHandshakeComplete.quicSetReadSecret spare .application r.cipherSuite
        r.trafficSecret
      handshakeErr := none
      blockedcClosed := true
      signalcClosed := true }
  | some e =>
    { q with
      handshakeErr := some (wrapAlert e q.outErr)
      blockedcClosed := true
      signalcClosed := true }

/-- `handshakeContext` of a client with `quic != nil`, where `handshakeFn` is what the handshake
does.  The build adds an event if it waits for transport parameters, and the user takes events
meanwhile; `left` is what they leave of the queue.  The result is the error that it returns and the
connection it leaves, or the message of a panic. -/
def handshakeContext (suites : List UInt16) (left : QuicQueue → QuicQueue)
    (handshakeFn : UConn → HandshakeResult) (q : UQUICConn) :
    Except String (Option HandshakeError × UQUICConn) :=
  if q.isHandshakeComplete then .ok (none, q)
  else
    let q := { q with cancellable := true }
    match q.handshakeErr with
    | some e => .ok (some e, q)
    | none =>
      match buildHandshakeStateAny d suites q.uconn with
      | .error (.panic msg) _ => .error msg
      | .error (.error e) c => .ok (some ⟨e, none⟩, q.unbuilt left e c)
      | .ok _ c =>
        let r := handshakeFn c
        if handshakeOutcome r ≠ none ∧ r.isHandshakeComplete = true then
          .error "tls: internal error: handshake returned an error but is marked successful"
        else
          let q := (q.afterHandshake r).finish spare r
          .ok (q.handshakeErr, q)

end Deps

/-! ## Waiting for a goroutine that has exited -/

namespace UQUICConn

/-- The end of `Start`, after the goroutine has exited; `none` if it waits forever. -/
def startReturns (q : UQUICConn) : Option (Option HandshakeError) :=
  if q.blockedcClosed then some q.handshakeErr else none

/-- `Close`, after the goroutine has exited; `none` if it waits forever. -/
def closeReturns (q : UQUICConn) : Option (Option HandshakeError) :=
  if q.cancellable = false then some none
  else if q.blockedcClosed then some q.handshakeErr
  else none

/-- `HandleData` gets past the two channels. -/
def handleDataPasses (q : UQUICConn) : Bool := q.signalcClosed && q.blockedcClosed

/-- `NextEvent` gets past the two channels, if it has to wait for a drained handshake at all. -/
def nextEventPasses (q : UQUICConn) : Bool :=
  !q.queue.mustResume || (q.signalcClosed && q.blockedcClosed)

/-- The end of a handshake that returned `ret` is reported: the outcome is stored, a failure wraps
an alert, the channels are closed, and nobody is left waiting. -/
structure ReportsEnd (q : UQUICConn) (ret : Option HandshakeError) : Prop where
  stored : q.handshakeErr = ret
  alert : ∀ e, ret = some e → e.alert.isSome = true
  blockedc : q.blockedcClosed = true
  signalc : q.signalcClosed = true
  start : q.startReturns = some ret
  close : q.cancellable = true → q.closeReturns = some ret
  handleData : q.handleDataPasses = true
  nextEvent : q.nextEventPasses = true

/-- Closed channels let everybody pass. -/
lemma ReportsEnd.of_closed {q : UQUICConn} {ret : Option HandshakeError}
    (hstored : q.handshakeErr = ret) (halert : ∀ e, ret = some e → e.alert.isSome = true)
    (hblockedc : q.blockedcClosed = true) (hsignalc : q.signalcClosed = true) :
    q.ReportsEnd ret where
  stored := hstored
  alert := halert
  blockedc := hblockedc
  signalc := hsignalc
  start := by rw [startReturns, if_pos hblockedc, hstored]
  close hc := by rw [closeReturns, if_neg (by simp [hc]), if_pos hblockedc, hstored]
  handleData := by rw [handleDataPasses, hsignalc, hblockedc]; rfl
  nextEvent := by rw [nextEventPasses, hsignalc, hblockedc]; simp

/-- A connection on which `Start` has just been called for the first time. -/
structure Unstarted (q : UQUICConn) : Prop where
  handshakeErr : q.handshakeErr = none
  incomplete : q.isHandshakeComplete = false
  blockedc : q.blockedcClosed = false
  signalc : q.signalcClosed = false

lemma unstarted_newUQUICConn (c : UConn) : (newUQUICConn c).Unstarted := ⟨rfl, rfl, rfl, rfl⟩

variable (spare : Nat → Nat) (q : UQUICConn) (r : HandshakeResult)

lemma blockedcClosed_finish : (q.finish spare r).blockedcClosed = true := by
  rw [finish]
  cases handshakeOutcome r <;> rfl

lemma signalcClosed_finish : (q.finish spare r).signalcClosed = true := by
  rw [finish]
  cases handshakeOutcome r <;> rfl

lemma alert_finish (e : HandshakeError) (he : (q.finish spare r).handshakeErr = some e) :
    e.alert.isSome = true := by
  rw [finish] at he
  cases hout : handshakeOutcome r with
  | none => simp [hout] at he
  | some e' =>
    simp only [hout, Option.some.injEq] at he
    rw [← he]
    rfl

end UQUICConn

section Deps

variable {d : Deps} {spare : Nat → Nat} {suites : List UInt16} {left : QuicQueue → QuicQueue}
  {handshakeFn : UConn → HandshakeResult} {q : UQUICConn} {c : UConn}

/-- A hello that cannot be built ends the goroutine. -/
lemma handshakeContext_unbuilt (hq : q.Unstarted) {e : Err}
    (hbuild : buildHandshakeStateAny d suites q.uconn = .error (.error e) c) :
    handshakeContext d spare suites left handshakeFn q =
      .ok (some ⟨e, none⟩, { q with cancellable := true }.unbuilt left e c) := by
  rw [handshakeContext, if_neg (by simp [hq.incomplete])]
  simp only [hq.handshakeErr, hbuild]

/-- After the hello is built, the goroutine ends with `finish` unless it panics. -/
lemma handshakeContext_built (hq : q.Unstarted)
    (hbuild : buildHandshakeStateAny d suites q.uconn = .ok () c) :
    handshakeContext d spare suites left handshakeFn q =
      if handshakeOutcome (handshakeFn c) ≠ none ∧ (handshakeFn c).isHandshakeComplete = true then
        .error "tls: internal error: handshake returned an error but is marked successful"
      else
        .ok ((({ q with cancellable := true }.afterHandshake (handshakeFn c)).finish spare
          (handshakeFn c)).handshakeErr,
          ({ q with cancellable := true }.afterHandshake (handshakeFn c)).finish spare
            (handshakeFn c)) := by
  rw [handshakeContext, if_neg (by simp [hq.incomplete])]
  simp only [hq.handshakeErr, hbuild]

/-- A panic of the build is no return. -/
lemma handshakeContext_panics (hq : q.Unstarted) {msg : String}
    (hbuild : buildHandshakeStateAny d suites q.uconn = .error (.panic msg) c) :
    handshakeContext d spare suites left handshakeFn q = .error msg := by
  rw [handshakeContext, if_neg (by simp [hq.incomplete])]
  simp only [hq.handshakeErr, hbuild]

end Deps

/-- The end of a handshake is reported exactly if the hello could be built. -/
theorem reportsEnd_iff (d : Deps) (spare : Nat → Nat) (suites : List UInt16)
    (left : QuicQueue → QuicQueue) (handshakeFn : UConn → HandshakeResult) (q q' : UQUICConn)
    (ret : Option HandshakeError) (hq : q.Unstarted)
    (hrun : handshakeContext d spare suites left handshakeFn q = .ok (ret, q')) :
    q'.ReportsEnd ret ↔
      ¬ ∃ e c, buildHandshakeStateAny d suites q.uconn = .error (.error e) c := by
  cases hbuild : buildHandshakeStateAny d suites q.uconn with
  | error fault c =>
    cases fault with
    | panic msg =>
      rw [handshakeContext_panics hq hbuild] at hrun
      cases hrun
    | error e =>
      rw [handshakeContext_unbuilt hq hbuild] at hrun
      cases hrun
      constructor
      · intro h
        exact absurd (h.blockedc.symm.trans hq.blockedc) (by decide)
      · intro h
        exact absurd ⟨e, c, rfl⟩ h
  | ok u c =>
    rw [handshakeContext_built hq hbuild] at hrun
    split_ifs at hrun
    cases hrun
    constructor
    · rintro - ⟨e, c', h⟩
      cases h
    · intro _
      exact .of_closed rfl (UQUICConn.alert_finish spare _ _)
        (UQUICConn.blockedcClosed_finish spare _ _) (UQUICConn.signalcClosed_finish spare _ _)

/-! ## A connection that cannot be built -/

/-- A QUIC connection with the given hello and nothing else. -/
def quicClient (id : ClientHelloID) : UQUICConn :=
  newUQUICConn (uClient (fun _ => .sct) 0 { serverName := [0x61] } {} id)

/-- A handshake that completes at once. -/
def completes (c : UConn) : HandshakeResult where
  err := none
  uconn := c
  queue := .new
  isHandshakeComplete := true
  outErr := none
  cipherSuite := 0x1301
  trafficSecret := [1]

/-- A hello of a fingerprint that is not known cannot be built.  The goroutine returns the error,
but `Start` and `Close` wait for it forever. -/
theorem end_not_reported :
    ∃ e q', handshakeContext .sample (fun _ => 0) [0x1301] id completes (quicClient (.preset 0)) =
        .ok (some e, q') ∧ q'.handshakeErr = none ∧ q'.startReturns = none ∧
      q'.closeReturns = none ∧ q'.handleDataPasses = false := by
  obtain ⟨c, hbuild⟩ := exists_eq_error_of_failsWith
    (show failsWith (.text "tls: unknown ClientHelloID") (buildHandshakeStateAny .sample [0x1301]
      (quicClient (.preset 0)).uconn) = true by decide +kernel)
  exact ⟨_, _, handshakeContext_unbuilt (UQUICConn.unstarted_newUQUICConn _) hbuild, rfl, rfl, rfl,
    rfl⟩

/-- The end of a handshake with Go's own hello, which waits for the transport parameters, is
reported. -/
theorem reportsEnd_golang :
    ∃ q' ret, handshakeContext .sample (fun _ => 0) [0x1301] id completes (quicClient .golang) =
        .ok (ret, q') ∧ q'.ReportsEnd ret := by
  obtain ⟨u, c, hbuild, -⟩ := exists_eq_ok_of_returnsWith
    (show returnsWith (fun _ _ => true) (buildHandshakeStateAny .sample [0x1301]
      (quicClient .golang).uconn) = true by decide +kernel)
  have hrun : handshakeContext .sample (fun _ => 0) [0x1301] id completes (quicClient .golang) = _ :=
    handshakeContext_built (UQUICConn.unstarted_newUQUICConn _) hbuild
  rw [if_neg (fun h => h.1 rfl)] at hrun
  refine ⟨_, _, hrun, (reportsEnd_iff .sample (fun _ => 0) [0x1301] id completes _ _ _
    (UQUICConn.unstarted_newUQUICConn _) hrun).mpr ?_⟩
  rintro ⟨e, c', h⟩
  have hok := h.symm.trans hbuild
  cases hok

end Utls
