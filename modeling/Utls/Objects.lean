import Utls.Build

/-!
# The extension objects of a connection

The extension list, the stored specification and the session controller all point to extension
objects.  `Tidy` says that these objects exist and that the two of the controller have the right
Go type; `Frame` says what no part of a build changes, in particular the Go type of an object.
Both hold on every path through a build, whether it returns or fails (`BuildStep`).

The last part is about the loop of `ApplyPreset` that adapts the extensions of the list to the
connection: what it does to one of them (`ExtAdapted`), and the rule for the whole loop
(`adaptExts_induction`).
-/

namespace Utls

open Wire Exec List Function

variable {c c' : UConn} {r : Ref} {e : Ext} {i : Nat}

/-! ## Objects and their owners -/

/-- The two interfaces of session extensions that an object implements. -/
def Ext.sessionKind (e : Ext) : Bool × Bool := (e.isSessionTicket, e.isPreSharedKey)

/-- The core tells the type. -/
lemma Ext.sessionKind_core (e : Ext) : e.core.sessionKind = e.sessionKind := by
  cases e <;> rfl

/-- No Go type implements both interfaces. -/
lemma Ext.not_both (h : e.isSessionTicket = true) : e.isPreSharedKey = false := by
  cases e with
  | sessionTicket t => rfl
  | _ => cases h

/-- What stays of an object that is written to: its Go type, and that `Read` is exact. -/
structure Ext.Stays (e e' : Ext) : Prop where
  kind : e'.sessionKind = e.sessionKind
  regular : e.Regular → e'.Regular

/-- An object that is not written to. -/
lemma Ext.Stays.refl (e : Ext) : e.Stays e := ⟨rfl, id⟩

/-- Applying the configuration keeps the type of an object. -/
lemma Ext.Rewrite.stays {e' : Ext} (h : e.Rewrite c e') : e.Stays e' := by
  refine ⟨?_, h.regular⟩
  rw [← e'.sessionKind_core, h.core, e.sessionKind_core]

/-- A session extension is neither a padding nor a trust anchors extension. -/
lemma Ext.regular_of_session (h : e.sessionKind ≠ (false, false)) : e.Regular := by
  cases e with
  | utlsPadding p => exact absurd rfl h
  | trustAnchors t => exact absurd rfl h
  | _ => trivial

/-- The fields that neither applying a specification nor marshalling changes: which kind of hello
this is, its status, the state of the controller, and what the two earlier handshakes left. -/
def UConn.standing (c : UConn) :=
  (c.clientHelloID, c.clientHelloBuildStatus, c.config.encryptedClientHelloConfigList,
    { c.sessionController with sessionTicketExt := none, pskExtension := none },
    c.skipResumptionOnNilExtension, c.config.sessionsOff, c.handshakes, c.clientFinished)

/-- What no part of a build changes. -/
structure Frame (c c' : UConn) : Prop where
  standing : c'.standing = c.standing
  next : c.nextRef ≤ c'.nextRef
  kind : ∀ r < c.nextRef, (c'.heap r).sessionKind = (c.heap r).sessionKind

/-- The existing objects are regular. -/
def UConn.RegularHeap (c : UConn) : Prop := ∀ r < c.nextRef, (c.heap r).Regular

/-- It keeps regular objects regular. -/
lemma ConfigStep.regularHeap (h : ConfigStep c c') (hc : c.RegularHeap) : c'.RegularHeap := by
  have hnext : c'.nextRef = c.nextRef := h.field UConn.nextRef
  exact fun r hr => (h.heap r).regular (hc r (hnext ▸ hr))

/-- A regular object may be stored. -/
lemma UConn.RegularHeap.store (h : c.RegularHeap) (he : e.Regular) : (c.store r e).RegularHeap := by
  intro r' hr'
  by_cases hrr : r' = r
  · subst hrr
    change (update c.heap r' e r').Regular
    rwa [update_self]
  · change (update c.heap r e r').Regular
    rw [update_of_ne hrr]
    exact h r' hr'

/-- All owners point to existing objects, the controller to objects of the right type, and the objects
are regular. -/
structure UConn.Tidy (c : UConn) : Prop where
  extensions : ∀ r ∈ c.extensions, r < c.nextRef
  spec : ∀ p, c.clientHelloSpec = some p → ∀ r ∈ p.extensions, r < c.nextRef
  ticket : ∀ r, c.sessionController.sessionTicketExt = some r →
    r < c.nextRef ∧ (c.heap r).isSessionTicket = true
  psk : ∀ r, c.sessionController.pskExtension = some r →
    r < c.nextRef ∧ (c.heap r).isPreSharedKey = true
  regular : c.RegularHeap

/-- The extensions of a tidy connection are regular. -/
lemma UConn.Tidy.regularExts (h : c.Tidy) : c.RegularExts := by
  intro e he
  obtain ⟨r, hr, rfl⟩ := mem_map.mp he
  exact h.regular r (h.extensions r hr)

/-- What every part of a build does, however it ends. -/
structure BuildStep (c c' : UConn) : Prop where
  frame : Frame c c'
  tidy : c.Tidy → c'.Tidy

instance : IsPreorder UConn BuildStep where
  refl c := ⟨⟨rfl, le_rfl, fun _ _ => rfl⟩, id⟩
  trans := by
    rintro c₁ c₂ c₃ ⟨f, t⟩ ⟨f', t'⟩
    refine ⟨⟨f'.standing.trans f.standing,
      f.next.trans f'.next, fun r hr => ?_⟩, fun h => t' (t h)⟩
    rw [f'.kind r (lt_of_lt_of_le hr f.next), f.kind r hr]

/-- The owners of extension objects. -/
def UConn.owners (c : UConn) :=
  (c.nextRef, c.extensions, c.clientHelloSpec, c.sessionController.sessionTicketExt,
    c.sessionController.pskExtension)

/-- Being tidy is a matter of the owners and of the types of the objects. -/
lemma UConn.Tidy.of_owners (h : c.Tidy) (ho : c'.owners = c.owners)
    (hk : ∀ r, (c.heap r).Stays (c'.heap r)) : c'.Tidy := by
  simp only [UConn.owners, Prod.mk.injEq] at ho
  obtain ⟨hn, he, hspec, ht, hp⟩ := ho
  have hticket : ∀ r, (c'.heap r).isSessionTicket = (c.heap r).isSessionTicket :=
    fun r => congrArg Prod.fst (hk r).kind
  have hpsk : ∀ r, (c'.heap r).isPreSharedKey = (c.heap r).isPreSharedKey :=
    fun r => congrArg Prod.snd (hk r).kind
  refine ⟨?_, ?_, ?_, ?_, fun r hr => (hk r).regular (h.regular r (hn ▸ hr))⟩
  · rw [he, hn]
    exact h.extensions
  · rw [hspec, hn]
    exact h.spec
  · intro r hr
    rw [hn, hticket]
    exact h.ticket r (ht ▸ hr)
  · intro r hr
    rw [hn, hpsk]
    exact h.psk r (hp ▸ hr)

/-- A step that keeps the owners and the types of the objects. -/
lemma buildStep_of_owners (hs : c'.standing = c.standing) (ho : c'.owners = c.owners)
    (hk : ∀ r, (c.heap r).Stays (c'.heap r)) : BuildStep c c' :=
  ⟨⟨hs, (congrArg Prod.fst ho).symm.le, fun r _ => (hk r).kind⟩, fun h => h.of_owners ho hk⟩

/-- Applying the configuration is a build step. -/
lemma ConfigStep.buildStep (h : ConfigStep c c') : BuildStep c c' :=
  buildStep_of_owners (h.field UConn.standing) (h.field UConn.owners) fun r => (h.heap r).stays

/-- Drawing randomness is one. -/
lemma DrawStep.buildStep (h : DrawStep c c') : BuildStep c c' :=
  h.marshalStep.configStep.buildStep

/-- The connection with a new object. -/
def UConn.alloc (c : UConn) (e : Ext) : UConn :=
  { c.store c.nextRef e with nextRef := c.nextRef + 1 }

/-- The objects that exist already stay. -/
lemma UConn.alloc_heap {r : Ref} (hr : r < c.nextRef) : (c.alloc e).heap r = c.heap r :=
  update_of_ne (ne_of_lt hr) _ _

/-- A regular object may be made. -/
lemma UConn.RegularHeap.alloc (h : c.RegularHeap) (he : e.Regular) : (c.alloc e).RegularHeap := by
  intro r hr
  rcases Nat.lt_succ_iff_lt_or_eq.mp hr with hlt | rfl
  · rw [UConn.alloc_heap hlt]
    exact h r hlt
  · change (update c.heap c.nextRef e c.nextRef).Regular
    rwa [update_self]

/-- Making an object is a build step. -/
lemma buildStep_alloc (c : UConn) (he : e.Regular) : BuildStep c (c.alloc e) := by
  have hkeep : ∀ r < c.nextRef, (c.alloc e).heap r = c.heap r := fun r => UConn.alloc_heap
  have hnext : (c.alloc e).nextRef = c.nextRef + 1 := rfl
  refine ⟨⟨rfl, Nat.le_succ _, fun r hr => by rw [hkeep r hr]⟩, fun h => ?_⟩
  refine ⟨fun r hr => ?_, fun p hp r hr => ?_, fun r hr => ?_, fun r hr => ?_, h.regular.alloc he⟩
  · exact Nat.lt_succ_of_lt (h.extensions r hr)
  · exact Nat.lt_succ_of_lt (h.spec p hp r hr)
  · obtain ⟨hlt, ht⟩ := h.ticket r hr
    rw [hkeep r hlt]
    exact ⟨Nat.lt_succ_of_lt hlt, ht⟩
  · obtain ⟨hlt, hp⟩ := h.psk r hr
    rw [hkeep r hlt]
    exact ⟨Nat.lt_succ_of_lt hlt, hp⟩

/-! ## The parts of `ApplyPreset` -/

section Deps

variable (d : Deps)

/-- The random source. -/
lemma keeps_readRand (n : Nat) : Keeps DrawStep (readRand d n) :=
  (keeps_tryRand d n).bind fun _ => .ofOption _ _

/-- The session identifier. -/
lemma keeps_drawSessionId : Keeps DrawStep (drawSessionId d) :=
  Keeps.get.bind fun _ => Keeps.ite (.pure _) (keeps_readRand d 32)

/-- The fields that are made first. -/
lemma keeps_startClientHello : Keeps DrawStep (startClientHello d) :=
  Keeps.get.bind fun _ => (Keeps.ofExcept _).bind fun _ => (keeps_readRand d 32).bind fun _ =>
    (keeps_drawSessionId d).bind fun _ => Keeps.ite (.fail _) (.pure _)

/-- The choice of an ECH configuration. -/
lemma keeps_pickEch (list : Bytes) : Keeps DrawStep (pickEch d list) := by
  unfold pickEch
  cases parseECHConfigList list with
  | none => exact .panicWith _
  | some configs =>
    exact (Keeps.ofExcept _).bind fun _ => (Keeps.ofOption _ _).bind fun _ =>
      (Keeps.runIf _ (.fail _)).bind fun _ => (Keeps.ofOption _ _).bind fun _ => .pure _

/-- Setting up HPKE takes its key from the random stream. -/
lemma keeps_setupEchContext (config : EchConfig) (suite : EchCipher) :
    Keeps DrawStep (setupEchContext d config suite) := by
  refine Keeps.get_bind fun c => ?_
  have h : DrawStep c (c.atDraw (c.draws + 1)) := ⟨_, rfl⟩
  simp only [run_bind, run_set]
  cases d.hpkeSetupSender c.draws config.kemID suite.kdfID suite.aeadID config.publicKey
      (echInfo config) <;> exact h

/-- The fields that are made last. -/
lemma keeps_finishClientHello (hello : ClientHelloMsg) :
    Keeps DrawStep (finishClientHello d hello) := by
  refine Keeps.get.bind fun c => ?_
  cases c.config.encryptedClientHelloConfigList with
  | none => exact .pure _
  | some list =>
    exact (Keeps.ofExcept _).bind fun _ => (keeps_pickEch d list).bind fun _ =>
      (keeps_setupEchContext d _ _).bind fun _ => .pure _

/-- The hello that `ApplyPreset` starts from. -/
lemma keeps_makeClientHelloForApplyPreset : Keeps DrawStep (makeClientHelloForApplyPreset d) :=
  (keeps_startClientHello d).bind fun _ => keeps_finishClientHello d _

/-- A read that succeeds is complete. -/
lemma yields_readRand (n : Nat) : Yields (fun b => b.length = n) (readRand d n) := by
  rintro c b c' h
  obtain ⟨o, c1, h1, h2⟩ := bind_eq_ok.mp h
  cases h1
  obtain ⟨ho, -⟩ := ofOption_eq_ok.mp h2
  exact d.rand_length _ _ _ ho

/-- A session identifier fits its field. -/
lemma yields_drawSessionId : Yields (fun id => id.length ≤ 32) (drawSessionId d) := by
  refine .after fun c => .ite (.pure (Nat.zero_le 32)) ?_
  rintro c1 b c' h
  exact (yields_readRand d 32 _ _ _ h).le

/-- The hello that `startClientHello` returns is that of the configuration, with random values. -/
lemma startClientHello_ok {hello : ClientHelloMsg} (h : startClientHello d c = .ok hello c'):
    checkConfig c.config = .ok () ∧ ∃ random sessionId, random.length = 32 ∧
      hello = { configHello d c with random := random, sessionId := sessionId } := by
  rw [startClientHello, run_get_bind] at h
  obtain ⟨_, hcheck, h⟩ := ofExcept_bind_eq_ok.mp h
  obtain ⟨random, c1, hrandom, h⟩ := bind_eq_ok.mp h
  obtain ⟨sessionId, c2, -, h⟩ := bind_eq_ok.mp h
  simp only at h
  split_ifs at h <;> cases h
  exact ⟨hcheck, random, sessionId, yields_readRand d 32 _ _ _ hrandom, rfl⟩

/-- A finished hello: the one that was started or, with ECH, that one as an inner hello and a
context that has not been used. -/
def Finished (hello : ClientHelloMsg) (made : ClientHelloMsg × Option EchClientContext) : Prop :=
  made = (hello, none) ∨ ∃ ctx : EchClientContext, ctx.innerHello = none ∧
    ctx.hpkeContext.seqNum = 0 ∧ made = ({ hello with
      encryptedClientHello := [1]
      supportedPoints := []
      ticketSupported := false
      secureRenegotiationSupported := false
      extendedMasterSecret := false }, some ctx)

/-- Without an ECH configuration no ECH context is made. -/
lemma finishClientHello_ok {hello : ClientHelloMsg}
    {made : ClientHelloMsg × Option EchClientContext}
    (h : finishClientHello d hello c = .ok made c') :
    Finished hello made ∧ (c.config.encryptedClientHelloConfigList = none → made.2 = none) := by
  rw [finishClientHello, run_get_bind] at h
  cases hlist : c.config.encryptedClientHelloConfigList with
  | none =>
    rw [hlist] at h
    cases h
    exact ⟨.inl rfl, fun _ => rfl⟩
  | some list =>
    rw [hlist] at h
    obtain ⟨_, c1, -, h⟩ := bind_eq_ok.mp h
    obtain ⟨picked, c2, -, h⟩ := bind_eq_ok.mp h
    obtain ⟨ctx, c3, hctx, h⟩ := bind_eq_ok.mp h
    cases h
    rw [setupEchContext, run_get_bind] at hctx
    obtain ⟨_, _, -, hctx⟩ := bind_eq_ok.mp hctx
    obtain ⟨_, _, -, hctx⟩ := bind_eq_ok.mp hctx
    cases hctx
    exact ⟨.inr ⟨_, rfl, rfl, rfl⟩, fun hnone => by cases hnone⟩

/-- A classical key. -/
lemma keeps_generateECDHEKey (curve : UInt16) : Keeps DrawStep (generateECDHEKey d curve) :=
  Keeps.ite (Keeps.get_bind fun c => ⟨c.draws + 1, rfl⟩) (.pure _)

/-- An ML-KEM key. -/
lemma keeps_generateMlkemKey : Keeps DrawStep (generateMlkemKey d) :=
  (keeps_readRand d _).bind fun _ => .pure _

/-- The shares of the hello that Go makes. -/
lemma keeps_makeKeyShares (hello : ClientHelloMsg) : Keeps DrawStep (makeKeyShares d hello) := by
  unfold makeKeyShares
  cases hello.supportedCurves with
  | nil => exact .pure _
  | cons curve rest =>
    refine Keeps.ite (.pure _) (Keeps.ite ?_ ?_)
    · exact (keeps_generateECDHEKey d _).bind fun _ => (Keeps.ofOption _ _).bind fun _ =>
        (keeps_generateMlkemKey d).bind fun _ => .pure _
    · exact (keeps_generateECDHEKey d _).bind fun _ => (Keeps.ofOption _ _).bind fun _ => .pure _

/-- A wait changes nothing. -/
lemma keeps_makeTransportParameters : Keeps DrawStep (makeTransportParameters d) := by
  refine Keeps.get.bind fun c => Keeps.ite (Keeps.bind (Keeps.get.bind fun x => ?_) fun _ => .pure _)
    (.pure _)
  cases x.quicTransportParams with
  | none => exact Keeps.ofOption _ _
  | some params => exact .pure _

/-- Over QUIC there are transport parameters. -/
lemma isSome_makeTransportParameters {params : Option Bytes}
    (h : makeTransportParameters d c = .ok params c') : params.isSome = c.quic := by
  rw [makeTransportParameters, run_get_bind] at h
  cases hquic : c.quic with
  | false =>
    rw [hquic] at h
    cases h
    rfl
  | true =>
    rw [hquic] at h
    obtain ⟨p, _, -, h⟩ := bind_eq_ok.mp h
    cases h
    rfl

/-- The whole hello that Go makes. -/
lemma keeps_makeClientHello : Keeps DrawStep (makeClientHello d) :=
  (keeps_startClientHello d).bind fun _ => (keeps_makeKeyShares d _).bind fun _ =>
    (keeps_makeTransportParameters d).bind fun _ => keeps_finishClientHello d _

/-- The hello that `makeClientHello` starts with is that of the configuration. -/
lemma makeClientHello_ok {made : ClientHelloMsg × Option EchClientContext}
    (h : makeClientHello d c = .ok made c') :
    checkConfig c.config = .ok () ∧ ∃ random sessionId shares params, params.isSome = c.quic ∧
      Finished { configHello d c with
        random := random
        sessionId := sessionId
        keyShares := shares
        quicTransportParameters := params } made := by
  obtain ⟨hello, c1, hstart, h⟩ := bind_eq_ok.mp h
  obtain ⟨shares, c2, hshares, h⟩ := bind_eq_ok.mp h
  obtain ⟨params, c3, hparams, h⟩ := bind_eq_ok.mp h
  obtain ⟨j, rfl⟩ := (keeps_startClientHello d).of_ok hstart
  obtain ⟨k, rfl⟩ := (keeps_makeKeyShares d hello).of_ok hshares
  obtain ⟨l, rfl⟩ := (keeps_makeTransportParameters d).of_ok hparams
  have hquic := isSome_makeTransportParameters d hparams
  obtain ⟨hcheck, random, sessionId, -, rfl⟩ := startClientHello_ok d hstart
  exact ⟨hcheck, random, sessionId, shares, params, hquic, (finishClientHello_ok d h).1⟩

/-- A program that only uses randomness. -/
lemma keeps_of_draw {α : Type} {x : M α} (h : Keeps DrawStep x) : Keeps BuildStep x :=
  h.mono fun _ _ => DrawStep.buildStep

/-- The versions are read off the objects. -/
lemma keeps_setTLSVers (lo hi : UInt16) (specExtensions : List Ref) :
    Keeps BuildStep (setTLSVers lo hi specExtensions) := by
  refine Keeps.get.bind fun _ => (Keeps.ofExcept _).bind fun _ => (Keeps.ofExcept _).bind fun _ =>
    (Keeps.modify fun c => ?_).bind fun _ => Keeps.runIf _ (Keeps.modify fun c => ?_)
  · exact buildStep_of_owners rfl rfl fun _ => .refl _
  · exact buildStep_of_owners rfl rfl fun _ => .refl _

/-- The seed is drawn or taken from the specification. -/
lemma keeps_chooseGreaseSeed (specSeed : List UInt16) :
    Keeps BuildStep (chooseGreaseSeed d specSeed) := by
  have hset : ∀ seed, Keeps BuildStep (modify fun c : UConn => { c with greaseSeed := seed } : M Unit) :=
    fun _ => Keeps.modify fun c => buildStep_of_owners rfl rfl fun _ => .refl _
  exact Keeps.ite (hset _) ((keeps_of_draw (keeps_readRand d _)).bind fun _ => hset _)

/-! ## Placeholders of ECH -/

/-- Which extensions of the list are placeholders of ECH. -/
def UConn.placeholders (c : UConn) : List Bool := c.exts.map (·.isGreaseECH)

/-- A session extension is no placeholder of ECH. -/
lemma Ext.isGreaseECH_of_session (h : e.sessionKind ≠ (false, false)) : e.isGreaseECH = false := by
  cases e with
  | greaseECH g => exact absurd rfl h
  | _ => rfl

/-- Objects that stay placeholders, or stay none. -/
lemma UConn.placeholders_congr (he : c'.extensions = c.extensions)
    (hh : ∀ r ∈ c.extensions, (c'.heap r).isGreaseECH = (c.heap r).isGreaseECH) :
    c'.placeholders = c.placeholders := by
  simp only [UConn.placeholders, UConn.exts, List.map_map, he]
  exact map_congr_left hh

/-- An entry of a list that is replaced by one with the same value. -/
lemma map_set_of_eq {α β : Type} {l : List α} {x y : α} (f : α → β) (hi : l[i]? = some x)
    (h : f y = f x) : (l.set i y).map f = l.map f := by
  obtain ⟨hlt, rfl⟩ := List.getElem?_eq_some_iff.mp hi
  rw [map_set, h, ← getElem_map f (h := by simpa using hlt)]
  exact set_getElem_self _

/-- An extension takes the place of another one. -/
lemma UConn.placeholders_set {r' : Ref} (hi : c.extensions[i]? = some r)
    (h : (c.heap r').isGreaseECH = (c.heap r).isGreaseECH) :
    UConn.placeholders { c with extensions := c.extensions.set i r' } = c.placeholders := by
  simp only [UConn.placeholders, UConn.exts, List.map_map]
  exact map_set_of_eq _ hi h

/-! ## Adapting the extensions -/

/-- The fields that adapting the extensions to the connection does not touch. -/
def UConn.unadapted (c : UConn) : UConn :=
  { c with
    heap := fun _ => .sct
    nextRef := 0
    draws := 0
    extensions := []
    keyShareKeys := {}
    hello := { c.hello with nextProtoNeg := false } }

/-- What the loop over the extensions in `ApplyPreset` does: session extensions stay as they are
and where they are. -/
structure AdaptStep (c c' : UConn) : Prop where
  frame : c'.unadapted = c.unadapted
  next : c.nextRef ≤ c'.nextRef
  kind : ∀ r < c.nextRef, (c'.heap r).sessionKind = (c.heap r).sessionKind
  session : ∀ r < c.nextRef, (c.heap r).sessionKind ≠ (false, false) → c'.heap r = c.heap r
  length : c'.extensions.length = c.extensions.length
  place : ∀ (i : Nat) (r : Ref), c.extensions[i]? = some r → r < c.nextRef →
    (c.heap r).sessionKind ≠ (false, false) → c'.extensions[i]? = some r
  fresh : ∀ r ∈ c'.extensions, r ∈ c.extensions ∨ r < c'.nextRef
  grease : ∀ r < c.nextRef, (c'.heap r).isGreaseECH = (c.heap r).isGreaseECH
  placeholders : c.Tidy → c'.placeholders = c.placeholders
  regular : c.RegularHeap → c'.RegularHeap

/-- An untouched field. -/
lemma AdaptStep.field {α : Type} (h : AdaptStep c c') (f : UConn → α)
    (hf : ∀ c : UConn, f c.unadapted = f c := by intro; rfl) : f c' = f c := by
  rw [← hf c', ← hf c, h.frame]

/-- The loop over the extensions is a build step. -/
lemma AdaptStep.buildStep (h : AdaptStep c c') : BuildStep c c' := by
  have hsc : c'.sessionController = c.sessionController := h.field UConn.sessionController
  have hspec : c'.clientHelloSpec = c.clientHelloSpec := h.field UConn.clientHelloSpec
  have hlt : ∀ r < c.nextRef, r < c'.nextRef := fun r hr => lt_of_lt_of_le hr h.next
  refine ⟨⟨h.field UConn.standing, h.next, h.kind⟩,
    fun ht => ⟨fun r hr => ?_, ?_, ?_, ?_, h.regular ht.regular⟩⟩
  · rcases h.fresh r hr with hr | hr
    · exact hlt r (ht.extensions r hr)
    · exact hr
  · intro p hp r hr
    exact hlt r (ht.spec p (hspec ▸ hp) r hr)
  · intro r hr
    obtain ⟨hn, hk⟩ := ht.ticket r (hsc ▸ hr)
    exact ⟨hlt r hn, by rw [← hk]; exact congrArg Prod.fst (h.kind r hn)⟩
  · intro r hr
    obtain ⟨hn, hk⟩ := ht.psk r (hsc ▸ hr)
    exact ⟨hlt r hn, by rw [← hk]; exact congrArg Prod.snd (h.kind r hn)⟩

instance : IsPreorder UConn AdaptStep where
  refl c := ⟨rfl, le_rfl, fun _ _ => rfl, fun _ _ _ => rfl, rfl, fun _ _ h _ _ => h, fun _ h => .inl h,
    fun _ _ => rfl, fun _ => rfl, id⟩
  trans := by
    intro c₁ c₂ c₃ h h'
    have hlt : ∀ r < c₁.nextRef, r < c₂.nextRef := fun r hr => lt_of_lt_of_le hr h.next
    refine ⟨h'.frame.trans h.frame, h.next.trans h'.next, fun r hr => ?_, fun r hr hs => ?_,
      h'.length.trans h.length, fun i r hi hr hs => ?_, fun r hr => ?_,
      fun r hr => (h'.grease r (hlt r hr)).trans (h.grease r hr),
      fun ht => (h'.placeholders (h.buildStep.tidy ht)).trans (h.placeholders ht),
      fun hr => h'.regular (h.regular hr)⟩
    · rw [h'.kind r (hlt r hr), h.kind r hr]
    · rw [h'.session r (hlt r hr) (by rwa [h.kind r hr]), h.session r hr hs]
    · exact h'.place i r (h.place i r hi hr hs) (hlt r hr) (by rwa [h.kind r hr])
    · rcases h'.fresh r hr with hr | hr
      · rcases h.fresh r hr with hr | hr
        · exact .inl hr
        · exact .inr (lt_of_lt_of_le hr h'.next)
      · exact .inr hr

/-- The object at `r` exists, and is neither a session extension nor a placeholder of ECH. -/
def UConn.Plain (r : Ref) (c : UConn) : Prop :=
  r < c.nextRef ∧ (c.heap r).sessionKind = (false, false) ∧ (c.heap r).isGreaseECH = false

/-- The loop may write to a plain object. -/
lemma adaptStep_store (hc : c.Plain r) (he : e.sessionKind = (false, false))
    (hg : e.isGreaseECH = false) (hx : e.Regular) : AdaptStep c (c.store r e) := by
  have hother : ∀ r', r' ≠ r → (c.store r e).heap r' = c.heap r' :=
    fun r' hr' => update_of_ne hr' _ _
  have hgrease : ∀ r', ((c.store r e).heap r').isGreaseECH = (c.heap r').isGreaseECH :=
    UConn.store_same _ (hg.trans hc.2.2.symm)
  refine ⟨rfl, le_rfl, fun r' _ => UConn.store_same _ (he.trans hc.2.1.symm) r', fun r' _ hs => ?_, rfl,
    fun _ _ h _ _ => h, fun _ h => .inl h, fun r' _ => hgrease r',
    fun _ => UConn.placeholders_congr rfl fun r' _ => hgrease r', fun hr => hr.store hx⟩
  refine hother r' ?_
  rintro rfl
  exact hs hc.2.1

/-- Nothing is touched but the private keys, the randomness used, and the object at `r`, which stays as
it is or becomes a `key_share` extension. -/
def ShareStep (r : Ref) (c c' : UConn) : Prop :=
  ∃ heap keys draws, c' = { c with heap := heap, keyShareKeys := keys, draws := draws } ∧
    (∀ r', r' ≠ r → heap r' = c.heap r') ∧ (heap r = c.heap r ∨ ∃ l, heap r = .keyShare l)

instance (r : Ref) : IsPreorder UConn (ShareStep r) where
  refl c := ⟨c.heap, c.keyShareKeys, c.draws, rfl, fun _ _ => rfl, .inl rfl⟩
  trans := by
    rintro c _ _ ⟨heap, keys, draws, rfl, ho, hs⟩ ⟨heap', keys', draws', rfl, ho', hs'⟩
    refine ⟨heap', keys', draws', rfl, fun r' hr' => (ho' r' hr').trans (ho r' hr'), ?_⟩
    rcases hs' with heq | hl
    · exact heq ▸ hs
    · exact .inr hl

/-- Filling the shares leaves the list alone. -/
lemma ShareStep.extensions_eq (h : ShareStep r c c') : c'.extensions = c.extensions := by
  obtain ⟨heap, keys, draws, rfl, -⟩ := h
  rfl

/-- A plain object may become a `key_share` extension. -/
lemma ShareStep.adaptStep (h : ShareStep r c c') (hc : c.Plain r) : AdaptStep c c' := by
  obtain ⟨heap, keys, draws, rfl, hothers, hshare⟩ := h
  have hheap : heap = update c.heap r (heap r) := by
    funext r'
    by_cases hr' : r' = r
    · rw [hr', update_self]
    · rw [update_of_ne hr', hothers r' hr']
  have hstore : AdaptStep c (c.store r (heap r)) := by
    rcases hshare with heq | ⟨l, hl⟩
    · rw [heq, UConn.store_self]
      exact refl c
    · rw [hl]
      exact adaptStep_store hc rfl rfl trivial
  rw [hheap]
  exact ⟨hstore.frame, hstore.next, hstore.kind, hstore.session, hstore.length, hstore.place,
    hstore.fresh, hstore.grease, hstore.placeholders, hstore.regular⟩

/-- Filling one share uses randomness and stores keys. -/
lemma keeps_fillKeyShare (r : Ref) (curve : UInt16) (preferred : Bool) :
    Keeps (ShareStep r) (fillKeyShare d curve preferred) := by
  have hdraw : ∀ {α : Type} {x : M α}, Keeps DrawStep x → Keeps (ShareStep r) x := by
    refine fun h => h.mono fun c c' hc => ?_
    obtain ⟨n, rfl⟩ := hc
    exact ⟨c.heap, c.keyShareKeys, n, rfl, fun _ _ => rfl, .inl rfl⟩
  have hkeys : ∀ f, Keeps (ShareStep r) (modifyKeys f) :=
    fun f c => ⟨c.heap, f c.keyShareKeys, c.draws, rfl, fun _ _ => rfl, .inl rfl⟩
  refine Keeps.ite ?_ ?_
  · exact (hdraw (keeps_generateECDHEKey d _)).bind fun _ => (Keeps.ofOption _ _).bind fun _ =>
      (hdraw (keeps_generateMlkemKey d)).bind fun _ => (hkeys _).bind fun _ => .pure _
  · exact (hdraw (keeps_generateECDHEKey d _)).bind fun _ => (Keeps.ofOption _ _).bind fun _ =>
      (Keeps.runIf _ (hkeys _)).bind fun _ => .pure _

/-- Filling all of them also writes the object, share by share. -/
lemma keeps_fillKeyShares (seed : List UInt16) (r : Ref) (rest : List KeyShare) :
    ∀ done preferred, Keeps (ShareStep r) (fillKeyShares d seed r done rest preferred) := by
  have hstore : ∀ l, Keeps (ShareStep r) (storeExt r (.keyShare l)) := fun l c =>
    ⟨_, c.keyShareKeys, c.draws, rfl, fun r' hr' => update_of_ne hr' _ _, .inr ⟨l, update_self ..⟩⟩
  induction rest with
  | nil => exact fun _ _ => .pure _
  | cons ks rest ih =>
    intro done preferred
    exact Keeps.ite ((hstore _).bind fun _ => ih _ _) ((hstore _).bind fun _ =>
      (keeps_fillKeyShare d r _ _).bind fun _ => (hstore _).bind fun _ => ih _ _)

/-- A new object takes the place of a plain one. -/
lemma adaptStep_replace (hi : c.extensions[i]? = some r)
    (hc : c.Plain r) (he : e.isGreaseECH = false) (hx : e.Regular) :
    AdaptStep c { c.alloc e with extensions := c.extensions.set i c.nextRef } := by
  have hkeep : ∀ r' < c.nextRef, (c.alloc e).heap r' = c.heap r' := fun r' => UConn.alloc_heap
  refine ⟨rfl, Nat.le_succ _, fun r' hr' => by rw [← hkeep r' hr'], fun r' hr' _ => hkeep r' hr',
    length_set, fun j r' hj _ hs => ?_, fun r' hr' => ?_, fun r' hr' => by rw [← hkeep r' hr'],
    fun ht => ?_, fun hr => hr.alloc hx⟩
  · have hne : i ≠ j := by
      rintro rfl
      rw [hi] at hj
      cases hj
      exact hs hc.2.1
    change (c.extensions.set i c.nextRef)[j]? = some r'
    rw [getElem?_set_ne hne, hj]
  · rcases mem_or_eq_of_mem_set hr' with hr' | rfl
    · exact .inl hr'
    · exact .inr (Nat.lt_succ_self _)
  · have halloc : (c.alloc e).placeholders = c.placeholders :=
      UConn.placeholders_congr rfl fun r' hr' => by rw [hkeep r' (ht.extensions r' hr')]
    rw [← halloc]
    refine UConn.placeholders_set (c := c.alloc e) hi ?_
    rw [hkeep r hc.1, hc.2.2, ← he]
    exact congrArg Ext.isGreaseECH (update_self _ _ _)

/-- The extensions that `ApplyPreset` adapts whatever the connection is. -/
def Ext.isAdapted : Ext → Bool
  | .sni _ | .utlsGrease _ _ | .supportedCurves _ | .signatureAlgorithms _ | .supportedVersions _
  | .keyShare _ => true
  | _ => false

/-- What `ApplyPreset` makes of an extension. -/
inductive Ext.Adapts (c : UConn) : Ext → Ext → Prop where
  | sni (name : GoString) : Adapts c (.sni name) (.sni (sniName c name))
  | grease (value : UInt16) (k : Nat) (body body' : Bytes) :
      Adapts c (.utlsGrease value body) (.utlsGrease (getBoringGREASEValue c.greaseSeed k) body')
  | curves (l : List UInt16) :
      Adapts c (.supportedCurves l) (.supportedCurves (regrease c.greaseSeed ssl_grease_group l))
  | algorithms (l : List UInt16) : Adapts c (.signatureAlgorithms l)
      (.signatureAlgorithms (regrease c.greaseSeed ssl_grease_signature_algorithm l))
  | versions (l : List UInt16) :
      Adapts c (.supportedVersions l) (.supportedVersions (regrease c.greaseSeed ssl_grease_version l))
  | shares (l l' : List KeyShare) : Adapts c (.keyShare l) (.keyShare l')
  | quic (q q' : QUICTransportParametersExtension) :
      Adapts c (.quicTransportParameters q) (.quicTransportParameters q')

/-- The ways of adapting the extension at index `i` of the list, after `seen` GREASE extensions. -/
inductive ExtAdapted (i : Nat) (r : Ref) (seen : Nat) (c : UConn) :
    EStateM.Result (Fault Err) UConn Nat → Prop where
  | same (h : (c.heap r).isAdapted = false) : ExtAdapted i r seen c (.ok seen c)
  | stored {e : Ext} (he : (c.heap r).Adapts c e) (hv : ∀ v b, c.heap r ≠ .utlsGrease v b)
      (hl : ∀ l, c.heap r ≠ .keyShare l) : ExtAdapted i r seen c (.ok seen (c.store r e))
  | grease {value : UInt16} {k n : Nat} {body body' : Bytes} (hr : c.heap r = .utlsGrease value body)
      (hk : (seen = 0 ∧ n = 1 ∧ k = ssl_grease_extension1) ∨
        (seen = 1 ∧ n = 2 ∧ k = ssl_grease_extension2)) :
      ExtAdapted i r seen c
        (.ok n (c.store r (.utlsGrease (getBoringGREASEValue c.greaseSeed k) body')))
  | refused {f : Fault Err} : ExtAdapted i r seen c (.error f c)
  | shares {l : List KeyShare} {c' : UConn} (hr : c.heap r = .keyShare l)
      (run : fillKeyShares d c.greaseSeed r [] l false c = .ok () c') :
      ExtAdapted i r seen c (.ok seen c')
  | stopped {l : List KeyShare} {c' : UConn} {f : Fault Err} (hr : c.heap r = .keyShare l)
      (run : fillKeyShares d c.greaseSeed r [] l false c = .error f c') :
      ExtAdapted i r seen c (.error f c')
  | quic {q q' : QUICTransportParametersExtension} (hr : c.heap r = .quicTransportParameters q) :
      ExtAdapted i r seen c (.ok seen
        { c.alloc (.quicTransportParameters q') with extensions := c.extensions.set i c.nextRef })

/-- The cases of one round, by the Go type of the extension. -/
lemma adaptExt_adapted (i : Nat) (r : Ref) (seen : Nat) (c : UConn) :
    ExtAdapted d i r seen c (adaptExt d i r seen c) := by
  rw [adaptExt, run_get_bind]
  cases he : c.heap r with
  | sni name => exact .stored (he ▸ .sni name) (by simp [he]) (by simp [he])
  | supportedCurves l => exact .stored (he ▸ .curves l) (by simp [he]) (by simp [he])
  | signatureAlgorithms l => exact .stored (he ▸ .algorithms l) (by simp [he]) (by simp [he])
  | supportedVersions l => exact .stored (he ▸ .versions l) (by simp [he]) (by simp [he])
  | utlsGrease value body =>
    simp only
    split_ifs with h0 h1
    · exact .grease he (.inl ⟨h0, rfl, rfl⟩)
    · exact .grease he (.inr ⟨h1, rfl, rfl⟩)
    · exact .refused
  | keyShare l =>
    simp only [run_bind]
    cases hrun : fillKeyShares d c.greaseSeed r [] l false c with
    | ok _ c' => exact .shares he hrun
    | error f c' => exact .stopped he hrun
  | quicTransportParameters q =>
    simp only
    cases (if c.quic = true then c.quicTransportParams else none) with
    | none => exact .same (by rw [he]; rfl)
    | some tp => exact .quic he
  | _ => exact .same (by rw [he]; rfl)

/-- A round that returns. -/
lemma adaptExt_ok {seen n : Nat} (h : adaptExt d i r seen c = .ok n c') :
    ExtAdapted d i r seen c (.ok n c') := h ▸ adaptExt_adapted d i r seen c

/-- Only plain objects are rewritten, and they stay plain. -/
lemma Ext.Adapts.plain {e' : Ext} (h : e.Adapts c e') :
    (e.sessionKind = (false, false) ∧ e.isGreaseECH = false) ∧
      e'.sessionKind = (false, false) ∧ e'.isGreaseECH = false ∧ e'.Regular := by
  cases h <;> exact ⟨⟨rfl, rfl⟩, rfl, rfl, trivial⟩

/-- One round, however it ends. -/
lemma adaptStep_adaptExt (seen : Nat) (hlt : r < c.nextRef)
    (hi : c.extensions[i]? = some r) : AdaptStep c (endState (adaptExt d i r seen c)) := by
  have hstored : ∀ {e}, (c.heap r).Adapts c e → AdaptStep c (c.store r e) := fun he =>
    adaptStep_store ⟨hlt, he.plain.1⟩ he.plain.2.1 he.plain.2.2.1 he.plain.2.2.2
  have h := adaptExt_adapted d i r seen c
  generalize adaptExt d i r seen c = result at h ⊢
  cases h with
  | same _ => exact refl c
  | refused => exact refl c
  | stored he _ _ => exact hstored he
  | grease hr _ => exact hstored (hr ▸ .grease ..)
  | shares hr run =>
    exact ((keeps_fillKeyShares d _ r _ _ _).of_ok run).adaptStep ⟨hlt, by rw [hr]; exact ⟨rfl, rfl⟩⟩
  | @stopped l _ _ hr run =>
    have hstep := keeps_fillKeyShares d c.greaseSeed r l [] false c
    rw [run] at hstep
    exact hstep.adaptStep ⟨hlt, by rw [hr]; exact ⟨rfl, rfl⟩⟩
  | quic hr => exact adaptStep_replace hi ⟨hlt, by rw [hr]; exact ⟨rfl, rfl⟩⟩ rfl trivial

/-- The loop replaces no extension but the one it is at. -/
lemma adaptExt_elsewhere {seen n : Nat} (h : adaptExt d i r seen c = .ok n c') (j : Nat)
    (hj : i ≠ j) : c'.extensions[j]? = c.extensions[j]? := by
  cases adaptExt_ok d h with
  | shares _ run => rw [((keeps_fillKeyShares d _ r _ _ _).of_ok run).extensions_eq]
  | quic _ => exact getElem?_set_ne hj
  | _ => rfl

/-- The whole loop, by induction on the extensions that are left. -/
lemma adaptStep_adaptExts (rs : List Ref) :
    ∀ {c : UConn} (i seen : Nat), c.Tidy → (∀ (k : Nat) (r : Ref), rs[k]? = some r →
      c.extensions[i + k]? = some r) → AdaptStep c (endState (adaptExts d i rs seen c)) := by
  induction rs with
  | nil => exact fun i seen _ _ => refl _
  | cons r rs ih =>
    intro c i seen ht hrs
    have hi : c.extensions[i]? = some r := hrs 0 r rfl
    have hlt : r < c.nextRef := ht.extensions r (mem_of_getElem? hi)
    have hstep := adaptStep_adaptExt d seen hlt hi
    rw [adaptExts, run_bind]
    cases h : adaptExt d i r seen c with
    | error e c' =>
      rw [h] at hstep
      exact hstep
    | ok n c' =>
      rw [h] at hstep
      refine IsTrans.trans _ _ _ hstep (ih (i + 1) n (hstep.buildStep.tidy ht) fun k r' hk => ?_)
      have hne : i ≠ i + 1 + k := by omega
      rw [endState_ok, adaptExt_elsewhere d h _ hne, Nat.add_assoc, Nat.add_comm 1 k]
      exact hrs (k + 1) r' hk

/-- The rule for the loop over the extensions: what each iteration takes on to the next one holds
when the loop returns. -/
lemma adaptExts_induction {P : Nat → Nat → UConn → Prop}
    (step : ∀ {i seen n : Nat} {r : Ref} {c c' : UConn}, c.Tidy → c.extensions[i]? = some r →
      adaptExt d i r seen c = .ok n c' → P i seen c → P (i + 1) n c') (rs : List Ref) :
    ∀ {c c' : UConn} {i seen : Nat} {u : Unit}, c.Tidy →
      (∀ (k : Nat) (r : Ref), rs[k]? = some r → c.extensions[i + k]? = some r) →
      P i seen c → adaptExts d i rs seen c = .ok u c' → ∃ n, P (i + rs.length) n c' := by
  induction rs with
  | nil =>
    intro c c' i seen u _ _ hP h
    cases h
    exact ⟨seen, hP⟩
  | cons r rs ih =>
    intro c c' i seen u ht hrs hP h
    obtain ⟨n, c1, h1, h2⟩ := bind_eq_ok.mp h
    have hi : c.extensions[i]? = some r := hrs 0 r rfl
    have hlt : r < c.nextRef := ht.extensions r (mem_of_getElem? hi)
    have hstep := adaptStep_adaptExt d seen hlt hi
    rw [h1] at hstep
    obtain ⟨m, hm⟩ := ih (i := i + 1) (hstep.buildStep.tidy ht) (fun k r' hk => by
      rw [endState_ok, adaptExt_elsewhere d h1 _ (by omega), Nat.add_assoc, Nat.add_comm 1 k]
      exact hrs (k + 1) r' hk) (step ht hi h1 hP) h2
    refine ⟨m, ?_⟩
    rwa [length_cons, Nat.add_comm rs.length 1, ← Nat.add_assoc]

end Deps

end Utls
