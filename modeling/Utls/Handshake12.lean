import Utls.Build

/-!
# The handshake up to TLS 1.2

`Handshake` and, on the request of the server,
`handleRenegotiation` first build the handshake state and then run `clientHandshake`, which sends
`Hello.Raw` and offers to resume the session of the handshake state.  Here the server negotiates
TLS 1.2 or below; its messages, and whatever can fail in the exchange, are the parameter
`ServerAnswer12`.
-/

namespace Utls

open Wire Exec

/-- What the client's state depends on in the messages of a server that negotiates TLS 1.2 or
below. -/
structure ServerAnswer12 where
  vers : UInt16
  sessionId : Bytes
  cipherSuite : UInt16
  /-- The client's `Finished` value for the transcript of this handshake. -/
  verifyData : Bytes
  /-- The session that a ticket of the server stands for, if it sends one. -/
  newSession : Option SessionState
  /-- The exchange fails before, or after, the client sends its `Finished` message. -/
  failsBefore : Option Err := none
  failsAfter : Option Err := none

section Deps

variable (d : Deps)

/-- `serverResumedSession`. -/
def serverResumedSession (c : UConn) (a : ServerAnswer12) : Bool :=
  c.session.isSome && c.hello.sessionId != [] && a.sessionId == c.hello.sessionId

/-- `processServerHello`: whether the session is resumed. -/
def processServerHello (c : UConn) (a : ServerAnswer12) : Except Err Bool :=
  if mutualCipherSuite d c.hello.cipherSuites a.cipherSuite = false then
    .error (.text "tls: server chose an unconfigured cipher suite")
  else
    match c.session with
    | none => .ok false
    | some s =>
      if serverResumedSession c a = false then .ok false
      else if s.version ≠ a.vers then
        .error (.text "tls: server resumed a session with a different version")
      else if s.cipherSuite ≠ a.cipherSuite then
        .error (.text "tls: server resumed a session with a different cipher suite")
      else .ok true

/-- `ClientSessionCache.Put(key, session)`. -/
def Config.remember (cfg : Config) (key : GoString) (s : SessionState) : Config :=
  { cfg with
    clientSessionCache := cfg.clientSessionCache.map fun f => Function.update f key (some s) }

/-- `saveSessionTicket`. -/
def saveSessionTicket (newSession : Option SessionState) : M Unit :=
  modify fun c =>
    match newSession with
    | none => c
    | some s =>
      if c.clientSessionCacheKey.length = 0 then c
      else c.updConfig fun cfg => cfg.remember c.clientSessionCacheKey s

/-- Stops with an error, if there is one. -/
def failIf (e : Option Err) : M Unit :=
  match e with
  | some e => fail e
  | none => return ()

/-- `(*clientHandshakeState).handshake`. -/
def handshake12 (a : ServerAnswer12) : M Unit := do
  let c ← get
  let _ ← ofExcept (processServerHello d c a)
  failIf a.failsBefore
  modify fun c => { c with clientFinished := a.verifyData }
  failIf a.failsAfter
  saveSessionTicket a.newSession

/-- What `clientHandshake` changes before it sends the hello.  The controller is locked by the build
that comes first, so the session is the one of the handshake state. -/
def UConn.sendHello (c : UConn) : UConn :=
  { c.updHello fun h =>
      { h with
        secureRenegotiation := if c.handshakes > 0 then c.clientFinished else h.secureRenegotiation
        earlyData := h.earlyData && c.session.isSome } with
    helloPskIdentities := .own c.pskIdentities
    pskBinderKey := if c.session.isSome ∧ c.binderKey.length > 0 then c.binderKey else c.pskBinderKey
    pskCipherSuite :=
      match c.session with
      | some s => if c.binderKey.length > 0 then cipherSuiteTLS13ByID s.cipherSuite else c.pskCipherSuite
      | none => c.pskCipherSuite }

/-- `toPublic12`: the handshake state is replaced by one that keeps the hello and the session, and
whose TLS 1.3 part is empty. -/
def UConn.toPublic12 (c : UConn) : UConn :=
  { c with keyShareKeys := {}, earlySecret := [], binderKey := [] }

/-- Throws the session away after a failed handshake that offered it. -/
def UConn.forgetSession (c : UConn) : UConn :=
  if c.session.isSome ∧ c.clientSessionCacheKey.length ≠ 0 then
    c.updConfig fun cfg => cfg.forget c.clientSessionCacheKey
  else c

/-- The end of `clientHandshake`, for the result of the handshake. -/
def endHandshake12 (result : Except Err Unit) : M Unit := do
  modify (·.toPublic12)
  match result with
  | .ok _ => return ()
  | .error e =>
    modify (·.forgetSession)
    fail e

/-- `clientHandshake`, with a server that negotiates TLS 1.2 or below. -/
def clientHandshake12 (a : ServerAnswer12) : M Unit := do
  let c ← get
  ofExcept (checkNames c.config)
  modify (·.sendHello)
  let result ← attempt (handshake12 d a)
  endHandshake12 result

/-- Builds the handshake state, runs the handshake and counts it if it succeeds. -/
def runHandshake12 (a : ServerAnswer12) : M Unit := do
  buildHandshakeState d true
  clientHandshake12 d a
  modify fun c => { c with handshakes := c.handshakes + 1 }

/-- `Handshake`; it does nothing once a handshake is complete. -/
def handshakeContext12 (a : ServerAnswer12) : M Unit := do
  let c ← get
  runIf (c.handshakes = 0) (runHandshake12 d a)

/-- `handleRenegotiation`, after a HelloRequest. -/
def handleRenegotiation (a : ServerAnswer12) : M Unit := do
  let c ← get
  match c.config.renegotiation with
  | .never => return ()
  | .onceAsClient => runIf (c.handshakes ≤ 1) (runHandshake12 d a)
  | .freelyAsClient => runHandshake12 d a
  | .other => fail (.text "tls: unknown Renegotiation value")

end Deps

end Utls
