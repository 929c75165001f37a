import Utls.LoadSession
import Utls.SessionState

/-!
# Storing sessions that the caller built

A caller can build a `ClientSessionState` with `MakeClientSessionState` and the setters, store it as
the ticket and the bytes of its session, and put it back with `ParseSessionState` and
`NewResumptionState`.  Neither the constructor nor a setter marks the session as a client's, so
`Bytes` writes it as a server's and leaves the lifetime and the age mask out: the session is
restored as it was exactly when both are still zero (`survives_storage_iff`).
-/

namespace Utls

open Wire

variable {C : Type}

/-- `ClientSessionState`. -/
structure ClientSessionState (C : Type) where
  session : Option (Session C)

/-- `MakeClientSessionState`. -/
def makeClientSessionState (sessionTicket : Option Bytes) (vers cipherSuite : UInt16)
    (masterSecret : Bytes) (serverCertificates : List C) (verifiedChains : List (List C)) :
    ClientSessionState C where
  session := some
    { version := vers
      cipherSuite := cipherSuite
      secret := masterSecret
      peerCertificates := serverCertificates
      verifiedChains := verifiedChains
      ticket := sessionTicket }

namespace ClientSessionState

variable (css : ClientSessionState C)

/-- Changes the session, from the zero value if there is none. -/
def update (f : Session C → Session C) : ClientSessionState C where
  session := some (f (css.session.getD {}))

/-- `SetSessionTicket`, which dereferences the session without a check. -/
def setSessionTicket (ticket : Option Bytes) : Option (ClientSessionState C) :=
  css.session.map fun s => ⟨some { s with ticket := ticket }⟩

def setVers (vers : UInt16) : ClientSessionState C :=
  css.update fun s => { s with version := vers }

def setCipherSuite (cipherSuite : UInt16) : ClientSessionState C :=
  css.update fun s => { s with cipherSuite := cipherSuite }

def setCreatedAt (createdAt : UInt64) : ClientSessionState C :=
  css.update fun s => { s with createdAt := createdAt }

def setMasterSecret (masterSecret : Bytes) : ClientSessionState C :=
  css.update fun s => { s with secret := masterSecret }

def setEMS (ems : Bool) : ClientSessionState C :=
  css.update fun s => { s with extMasterSecret := ems }

def setServerCertificates (certs : List C) : ClientSessionState C :=
  css.update fun s => { s with peerCertificates := certs }

def setVerifiedChains (chains : List (List C)) : ClientSessionState C :=
  css.update fun s => { s with verifiedChains := chains }

def setUseBy (useBy : UInt64) : ClientSessionState C :=
  css.update fun s => { s with useBy := useBy }

def setAgeAdd (ageAdd : UInt32) : ClientSessionState C :=
  css.update fun s => { s with ageAdd := ageAdd }

/-- `ResumptionState`; `none` stands for the three nil results. -/
def resumptionState : Option (Option Bytes × Session C) :=
  css.session.map fun s => (s.ticket, s)

end ClientSessionState

/-- `NewResumptionState`. -/
def newResumptionState (ticket : Option Bytes) (state : Session C) : ClientSessionState C where
  session := some { state with ticket := ticket }

/-! ## Setters -/

/-- A call of a setter. -/
inductive Setter (C : Type) where
  | sessionTicket (ticket : Option Bytes)
  | vers (vers : UInt16)
  | cipherSuite (cipherSuite : UInt16)
  | createdAt (createdAt : UInt64)
  | masterSecret (secret : Bytes)
  | ems (ems : Bool)
  | serverCertificates (certs : List C)
  | verifiedChains (chains : List (List C))
  | useBy (useBy : UInt64)
  | ageAdd (ageAdd : UInt32)

/-- Runs one setter; `none` is a nil dereference. -/
def Setter.run (css : ClientSessionState C) : Setter C → Option (ClientSessionState C)
  | .sessionTicket v => css.setSessionTicket v
  | .vers v => some (css.setVers v)
  | .cipherSuite v => some (css.setCipherSuite v)
  | .createdAt v => some (css.setCreatedAt v)
  | .masterSecret v => some (css.setMasterSecret v)
  | .ems v => some (css.setEMS v)
  | .serverCertificates v => some (css.setServerCertificates v)
  | .verifiedChains v => some (css.setVerifiedChains v)
  | .useBy v => some (css.setUseBy v)
  | .ageAdd v => some (css.setAgeAdd v)

/-- Runs setters one after the other. -/
def runSetters : List (Setter C) → ClientSessionState C → Option (ClientSessionState C)
  | [], css => some css
  | setter :: setters, css => (setter.run css).bind (runSetters setters)

/-- The fields that neither the constructor nor a setter writes. -/
structure Session.Unmarked (s : Session C) : Prop where
  isClient : s.isClient = false
  earlyData : s.earlyData = false
  alpnProtocol : s.alpnProtocol = []
  ocspResponse : s.ocspResponse = none
  scts : s.scts = none

/-- A setter keeps the session and leaves it unmarked. -/
lemma Setter.run_unmarked {s : Session C} (h : s.Unmarked) (setter : Setter C) :
    ∃ s', setter.run ⟨some s⟩ = some ⟨some s'⟩ ∧ s'.Unmarked := by
  cases setter <;> refine ⟨_, rfl, ?_⟩ <;>
    exact ⟨h.isClient, h.earlyData, h.alpnProtocol, h.ocspResponse, h.scts⟩

lemma runSetters_unmarked (setters : List (Setter C)) {s : Session C} (h : s.Unmarked) :
    ∃ s', runSetters setters ⟨some s⟩ = some ⟨some s'⟩ ∧ s'.Unmarked := by
  induction setters generalizing s with
  | nil => exact ⟨s, rfl, h⟩
  | cons setter setters ih =>
    obtain ⟨s1, hrun, h1⟩ := setter.run_unmarked h
    obtain ⟨s2, hrest, h2⟩ := ih h1
    refine ⟨s2, ?_, h2⟩
    rw [runSetters, hrun, Option.bind_some, hrest]

/-! ## Storing and restoring -/

/-- What `loadSession` reads of a session; the certificates' validity ends at `notAfter`. -/
def Session.view (ident : Nat) (notAfter : C → Nat) (s : Session C) : Option SessionState :=
  s.peerCertificates.head?.map fun leaf =>
    { ident := ident
      version := s.version
      cipherSuite := s.cipherSuite
      secret := s.secret
      ticket := s.ticket
      createdAt := s.createdAt.toNat
      useBy := s.useBy.toNat
      ageAdd := s.ageAdd
      peerCertNotAfter := notAfter leaf
      hasVerifiedChains := s.verifiedChains.length != 0
      earlyData := s.earlyData
      alpnProtocol := s.alpnProtocol }

/-- Two sessions with the state that a resumption needs in common. -/
structure Session.SameState (s s' : Session C) : Prop where
  ticket : s'.ticket = s.ticket
  version : s'.version = s.version
  cipherSuite : s'.cipherSuite = s.cipherSuite
  secret : s'.secret = s.secret
  createdAt : s'.createdAt = s.createdAt
  useBy : s'.useBy = s.useBy
  ageAdd : s'.ageAdd = s.ageAdd

/-- Storing the session and restoring it gives the session `s'`. -/
def Session.RestoredAs (x : X509 C) (s s' : Session C) : Prop :=
  ∃ ticket state b parsed,
    (⟨some s⟩ : ClientSessionState C).resumptionState = some (ticket, state) ∧
    state.bytes x = .ok b ∧ parseSessionState x b = .ok parsed ∧
    newResumptionState ticket parsed = ⟨some s'⟩

/-- The session survives being stored: it is restored with the same state, and `loadSession` does
not see a difference. -/
def Session.Survives (x : X509 C) (s : Session C) : Prop :=
  ∃ s', s.RestoredAs x s' ∧ s.SameState s' ∧
    ∀ ident (notAfter : C → Nat), s'.view ident notAfter = s.view ident notAfter

/-- Certificates and a secret that can be stored: the secret is not empty, verified chains start
with the first certificate, the certificates parse back to themselves, and everything fits its
length. -/
structure Session.Valid (x : X509 C) (s : Session C) : Prop where
  secret : s.secret ≠ []
  chains : ∀ chain ∈ s.verifiedChains, chain.head? = s.peerCertificates.head?
  peer : ∀ cert ∈ s.peerCertificates, x.newCert (x.raw cert) = .ok cert
  verified : ∀ chain ∈ s.verifiedChains, ∀ cert ∈ chain, x.newCert (x.raw cert) = .ok cert
  fits : s.Fits x

lemma Session.Valid.storable {x : X509 C} {s : Session C} (h : s.Valid x) (hu : s.Unmarked) :
    s.Storable x where
  secret := ⟨List.length_pos_of_ne_nil h.secret, Nat.le_of_lt_succ h.fits.secret⟩
  chains chain hc := ⟨h.fits.chains chain hc, h.chains chain hc⟩
  client hclient := by
    rw [hu.isClient] at hclient
    cases hclient
  ocsp staple hs := by
    rw [hu.ocspResponse] at hs
    cases hs
  scts l hl := by
    rw [hu.scts] at hl
    cases hl
  staples _ := ⟨hu.ocspResponse, hu.scts⟩
  peer := h.peer
  verified := h.verified

/-- An unmarked session comes back without its lifetime and its age mask. -/
lemma Session.restoredAs_iff {x : X509 C} {s s' : Session C} (h : s.Valid x) (hu : s.Unmarked) :
    s.RestoredAs x s' ↔ s' = { s with useBy := 0, ageAdd := 0 } := by
  have hbytes : s.bytes x = .ok (s.wire x) := Session.bytes_eq_ok.mpr ⟨h.fits, rfl⟩
  have hparse := parseSessionState_bytes (h.storable hu) hbytes
  have hstored : { s.stored with ticket := s.ticket } = { s with useBy := 0, ageAdd := 0 } := by
    simp [Session.stored, hu.isClient, hu.earlyData, hu.alpnProtocol]
  constructor
  · rintro ⟨ticket, state, b, parsed, hstate, hb, hp, hnew⟩
    cases hstate
    obtain rfl : s.wire x = b := by
      rw [hbytes] at hb
      exact Except.ok.inj hb
    obtain rfl : s.stored = parsed := by
      rw [hparse] at hp
      exact Except.ok.inj hp
    rw [← hstored]
    cases hnew
    rfl
  · rintro rfl
    refine ⟨s.ticket, s, s.wire x, s.stored, rfl, hbytes, hparse, ?_⟩
    rw [newResumptionState, hstored]

/-- A session that the caller made survives being stored exactly when its lifetime and its age mask
are zero. -/
theorem survives_storage_iff (x : X509 C) (sessionTicket : Option Bytes) (vers cipherSuite : UInt16)
    (masterSecret : Bytes) (serverCertificates : List C) (verifiedChains : List (List C))
    (setters : List (Setter C)) :
    ∃ s, runSetters setters (makeClientSessionState sessionTicket vers cipherSuite masterSecret
        serverCertificates verifiedChains) = some ⟨some s⟩ ∧
      (s.Valid x → (s.Survives x ↔ s.useBy = 0 ∧ s.ageAdd = 0)) := by
  obtain ⟨s, hrun, hu⟩ := runSetters_unmarked setters
    (s := { version := vers
            cipherSuite := cipherSuite
            secret := masterSecret
            peerCertificates := serverCertificates
            verifiedChains := verifiedChains
            ticket := sessionTicket }) ⟨rfl, rfl, rfl, rfl, rfl⟩
  refine ⟨s, hrun, fun hvalid => ?_⟩
  constructor
  · rintro ⟨s', hs', hsame, -⟩
    obtain rfl := (Session.restoredAs_iff hvalid hu).mp hs'
    exact ⟨hsame.useBy.symm, hsame.ageAdd.symm⟩
  · rintro ⟨huse, hage⟩
    have hsame : { s with useBy := 0, ageAdd := 0 } = s := by
      rw [← huse, ← hage]
    exact ⟨s, (Session.restoredAs_iff hvalid hu).mpr hsame.symm,
      ⟨rfl, rfl, rfl, rfl, rfl, rfl, rfl⟩, fun _ _ => rfl⟩

/-- The setters of a session of TLS 1.3 that was received at `5` and may be used until `900`. -/
def lifetimeSetters : List (Setter Bytes) := [.createdAt 5, .useBy 900, .ageAdd 7]

/-- The session that these setters make. -/
def madeSession : Session Bytes where
  version := VersionTLS13
  cipherSuite := 0x1301
  createdAt := 5
  secret := [1, 2, 3]
  peerCertificates := [[48, 1]]
  verifiedChains := [[[48, 1], [48, 2]]]
  useBy := 900
  ageAdd := 7
  ticket := some [9]

lemma madeSession_valid : madeSession.Valid rawCertificates where
  secret := by decide
  chains := by decide
  peer := by decide
  verified := by decide
  fits := ⟨by decide, by decide, ⟨by decide, by decide⟩, by decide, by decide, by decide⟩

/-- What `loadSession` reads of it. -/
def madeView : SessionState where
  ident := 0
  version := VersionTLS13
  cipherSuite := 0x1301
  secret := [1, 2, 3]
  ticket := some [9]
  createdAt := 5
  useBy := 900
  ageAdd := 7
  peerCertNotAfter := 900
  hasVerifiedChains := true

/-- A client of TLS 1.3 at the time `10`, with the given session in its cache. -/
def storageClient (session : Option SessionState) : UConn where
  heap := fun _ => .sct
  nextRef := 0
  config := { serverName := [0x61], clientSessionCache := some fun _ => session }
  clientHelloID := .custom
  hello := { supportedVersions := [VersionTLS13], cipherSuites := [0x1301] }
  now := 10000

/-- A session with a lifetime is restored without it: `loadSession` offers the session that was
stored, and drops the restored one as expired. -/
theorem session_lost_in_storage :
    ∃ s', runSetters lifetimeSetters (makeClientSessionState (some [9]) VersionTLS13 0x1301
        [1, 2, 3] [[48, 1]] [[[48, 1], [48, 2]]]) = some ⟨some madeSession⟩ ∧
      madeSession.Valid rawCertificates ∧ madeSession.RestoredAs rawCertificates s' ∧
      ¬ madeSession.Survives rawCertificates ∧
      judgeSession .sample (storageClient (madeSession.view 0 fun _ => 900)) = .accept madeView ∧
      judgeSession .sample (storageClient (s'.view 0 fun _ => 900)) = .forget := by
  have hu : madeSession.Unmarked := ⟨rfl, rfl, rfl, rfl, rfl⟩
  refine ⟨{ madeSession with useBy := 0, ageAdd := 0 }, rfl, madeSession_valid,
    (Session.restoredAs_iff madeSession_valid hu).mpr rfl, ?_,
    by decide +kernel, by decide +kernel⟩
  rintro ⟨s', hs', hsame, -⟩
  obtain rfl := (Session.restoredAs_iff madeSession_valid hu).mp hs'
  exact absurd hsame.useBy (by decide)

/-- A session of TLS 1.2 without a lifetime survives. -/
theorem survives_storage_tls12 :
    ∃ s, runSetters [.ems true] (makeClientSessionState (some [9]) VersionTLS12 0xc02f [1, 2, 3]
        [[48, 1]] [[[48, 1], [48, 2]]]) = some ⟨some s⟩ ∧ s.Valid rawCertificates ∧
      s.Survives rawCertificates := by
  obtain ⟨s, hrun, hiff⟩ := survives_storage_iff rawCertificates (some [9]) VersionTLS12 0xc02f
    [1, 2, 3] [[48, 1]] [[[48, 1], [48, 2]]] [.ems true]
  cases hrun
  have hvalid : Session.Valid rawCertificates
      { version := VersionTLS12
        cipherSuite := 0xc02f
        secret := [1, 2, 3]
        extMasterSecret := true
        peerCertificates := [[48, 1]]
        verifiedChains := [[[48, 1], [48, 2]]]
        ticket := some [9] } :=
    ⟨by decide, by decide, by decide, by decide,
      ⟨by decide, by decide, ⟨by decide, by decide⟩, by decide, by decide, by decide⟩⟩
  exact ⟨_, rfl, hvalid, (hiff hvalid).mpr ⟨rfl, rfl⟩⟩

end Utls
