import Utls.Ech

/-!
# Marshalling the ClientHello from the extension list

`marshalClientHelloNoECH` sums the announced lengths, lets the padding extension choose its
size, writes the message into a buffer of exactly that length and compares the result with it.
`clientHelloEncoding` is the message the fields and the extension list stand for; the main
result, `marshalClientHelloNoECH_ok`, is that a successful call stores exactly this message and
touches nothing else but the caches inside extension objects.
-/

namespace Utls

open Wire Exec List

variable {e : Ext} {r : Ref} {rs : List Ref} {c' : UConn} {n : Nat}

/-! ## The encoding -/

/-- The fields in front of the extensions. -/
def helloHeader (h : ClientHelloMsg) : Bytes :=
  u16 h.vers.toNat ++ (h.random ++ (vec8 h.sessionId ++
    (vec16 (u16s h.cipherSuites) ++ vec8 h.compressionMethods)))

/-- The extension block; a hello without extensions has none. -/
def extensionBlock (parseIP : GoString → Bool) (exts : List Ext) : Bytes :=
  if exts.length = 0 then [] else vec16 (exts.flatMap fun e => e.wire parseIP)

/-- The ClientHello with the given fields and extensions. -/
def clientHelloEncoding (parseIP : GoString → Bool) (h : ClientHelloMsg) (exts : List Ext) :
    Bytes :=
  let body := helloHeader h ++ extensionBlock parseIP exts
  1 :: (u24 body.length ++ body)

/-- The encoding only reads the fields that are written in front of the extensions. -/
lemma clientHelloEncoding_congr {parseIP : GoString → Bool} {h h' : ClientHelloMsg}
    (exts : List Ext) (hh : h'.header = h.header) :
    clientHelloEncoding parseIP h' exts = clientHelloEncoding parseIP h exts := by
  simp only [ClientHelloMsg.header, Prod.mk.injEq] at hh
  obtain ⟨hv, hr, hs, hc, hm⟩ := hh
  simp [clientHelloEncoding, helloHeader, hv, hr, hs, hc, hm]

/-- The encoding depends on the extensions through their bytes. -/
lemma clientHelloEncoding_wire {parseIP : GoString → Bool} {h : ClientHelloMsg}
    {exts exts' : List Ext}
    (hw : exts'.map (fun e => e.wire parseIP) = exts.map fun e => e.wire parseIP) :
    clientHelloEncoding parseIP h exts' = clientHelloEncoding parseIP h exts := by
  have hlen : exts'.length = exts.length := by
    simpa using congrArg List.length hw
  have hflat : exts'.flatMap (fun e => e.wire parseIP) = exts.flatMap fun e => e.wire parseIP := by
    rw [flatMap_def, flatMap_def, hw]
  simp only [clientHelloEncoding, extensionBlock, hlen, hflat]

/-! ## The caches that `Len` fills -/

/-- Big-endian value of a byte string. -/
def beNat (b : Bytes) : Nat := b.foldl (fun n x => n * 256 + x.toNat) 0

/-- The default HPKE code points. -/
def defaultHpkeKem : UInt16 := 0x0020
def defaultHpkeKdf : UInt16 := 0x0001
def defaultHpkeAead : UInt16 := 0x0001

/-- The fixed X25519 public key that GREASE encapsulates to. -/
def dummyX25519PublicKey : Bytes :=
  [143, 38, 37, 36, 12, 6, 229, 30, 140, 27, 167, 73, 26, 100, 203, 107, 216,
    81, 163, 222, 52, 211, 54, 210, 46, 37, 78, 216, 157, 97, 241, 244]

section Deps

variable (d : Deps)

/-- `rand.Int(rand.Reader, n)`: a random index below `n`. -/
def tryIndex (n : Nat) : M (Option Nat) := do
  let b ← tryRand d 8
  return b.map fun b => beNat b % n

/-- `randomizePayload`; a payload whose random bytes cannot be read stays zero. -/
def randomizePayload (g : GREASEEncryptedClientHelloExtension) (encodedHelloInnerLen : UInt16) :
    M GREASEEncryptedClientHelloExtension := do
  assert (g.cipherSuite.aeadId ∈ supportedAEADs) "hpke: invalid AEAD identifier"
  let n := encodedHelloInnerLen.toNat + 16
  let b ← tryRand d n
  return { g with payload := b.getD (List.replicate n 0) }

/-- The payload step of `init`. -/
def initPayload (g : GREASEEncryptedClientHelloExtension) :
    M GREASEEncryptedClientHelloExtension := do
  if g.payload.length = 0 then
    let lens := if g.candidatePayloadLens.length = 0 then [128] else g.candidatePayloadLens
    match ← tryIndex d lens.length with
    | none => return { g with candidatePayloadLens := lens }
    | some i => randomizePayload d { g with candidatePayloadLens := lens } (lens.getD i 0)
  else return g

/-- The encapsulated key step of `init`, and what follows it. -/
def initEncapsulatedKey (g : GREASEEncryptedClientHelloExtension) :
    M GREASEEncryptedClientHelloExtension := do
  if g.encapsulatedKey.length = 0 then
    let c ← get
    set (c.atDraw (c.draws + 1))
    match d.hpkeSetupSender c.draws defaultHpkeKem defaultHpkeKdf defaultHpkeAead
        dummyX25519PublicKey [] with
    | none => return g
    | some (enc, _) => initPayload d { g with encapsulatedKey := enc }
  else initPayload d g

/-- The cipher suite step of `init`, and what follows it. -/
def initCipherSuite (g : GREASEEncryptedClientHelloExtension) :
    M GREASEEncryptedClientHelloExtension := do
  if g.candidateCipherSuites.length = 0 then
    initEncapsulatedKey d { g with cipherSuite := ⟨defaultHpkeKdf, defaultHpkeAead⟩ }
  else
    match ← tryIndex d g.candidateCipherSuites.length with
    | none => return g
    | some i =>
      initEncapsulatedKey d { g with cipherSuite := g.candidateCipherSuites.getD i g.cipherSuite }

/-- `init` of a GREASE ECH extension: the first call draws the values, later calls do nothing.
A failed draw ends the initialisation early, and its error is dropped by `Len`. -/
def initGreaseECH (g : GREASEEncryptedClientHelloExtension) :
    M GREASEEncryptedClientHelloExtension := do
  if g.initDone then return g
  else if g.candidateConfigIds.length = 0 then
    match ← tryRand d 1 with
    | none => return { g with initDone := true }
    | some b => initCipherSuite d { g with initDone := true, configId := b.headD 0 }
  else
    match ← tryIndex d g.candidateConfigIds.length with
    | none => return { g with initDone := true }
    | some i =>
      initCipherSuite d { g with initDone := true, configId := g.candidateConfigIds.getD i 0 }

/-- What a call of `Len` does to the extension object. -/
def prepareExt : Ext → M Ext
  | .greaseECH g => do
    let g ← initGreaseECH d g
    return .greaseECH g
  | .utlsPreSharedKey e =>
    if e.isBlank then
      return .utlsPreSharedKey e
    else
      return .utlsPreSharedKey
        { e with cachedLength := some (e.cachedLength.getD (pskExtLen e.identities e.binders)) }
  | e => return e

/-- `ext.Len()`. -/
def extLen (r : Ref) : M Nat := do
  let e ← loadExt r
  let e ← prepareExt d e
  storeExt r e
  return e.len d.parseIP

/-! ## `MarshalClientHelloNoECH` -/

/-- The extension is a padding extension. -/
def Ext.isPadding : Ext → Bool
  | .utlsPadding _ => true
  | _ => false

/-- Sums the announced lengths of all extensions but padding, and finds the padding extension. -/
def measureExts : List Ref → Nat → Option Ref → M (Nat × Option Ref)
  | [], n, pad => return (n, pad)
  | r :: rs, n, pad => do
    let e ← loadExt r
    if e.isPadding then
      match pad with
      | none => measureExts rs n (some r)
      | some _ => fail (.text "multiple padding extensions")
    else
      let l ← extLen d r
      measureExts rs (n + l) pad

/-- Lets the padding extension choose its size; returns its length. -/
def updatePadding (pad : Option Ref) (unpaddedLen : Int) : M Int := do
  match pad with
  | none => return 0
  | some r =>
    match ← loadExt r with
    | .utlsPadding e =>
      storeExt r (.utlsPadding (e.update unpaddedLen))
      return (e.update unpaddedLen).len
    | _ => return 0

/-- Writes exact extensions behind `acc` into a buffer of `size` bytes.  Once the buffer is full it
is flushed and the next extension is handed to an unbounded one. -/
def emitExts (size : Nat) : List Ext → Bytes → Except Err Bytes
  | [], acc => .ok acc
  | e :: es, acc =>
    let avail := if acc.length < size then size - acc.length else (e.wire d.parseIP).length
    match e.read d.parseIP avail with
    | .error err => .error err
    | .ok b => emitExts size es (acc ++ b)

/-- `headerLength`; the random is taken to be 32 bytes long. -/
def headerLength (h : ClientHelloMsg) : Nat :=
  2 + 32 + 1 + h.sessionId.length + 2 + h.cipherSuites.length * 2 + 1 + h.compressionMethods.length

/-- Writes the message with exact extensions, given their summed length. -/
def writeHello (h : ClientHelloMsg) (exts : List Ext) (extensionsLen : Nat) : Except Err Bytes :=
  let helloLen := headerLength h + if exts.length > 0 then 2 + extensionsLen else 0
  let front := 1 :: (u24 helloLen ++ helloHeader h)
  let out := if exts.length > 0 then emitExts d (helloLen + 4) exts (front ++ u16 extensionsLen)
    else .ok front
  match out with
  | .error err => .error err
  | .ok b =>
    if b.length = 4 + helloLen then .ok b
    else .error (.text "utls: unexpected ClientHello length")

/-- The `extensionsLen` of `MarshalClientHelloNoECH`, with the padding that is chosen for it. -/
def extensionsLen : M Int := do
  let c ← get
  let measured ← measureExts d c.extensions 0 none
  let padLen ← updatePadding measured.2 ↑(headerLength c.hello + 4 + measured.1 + 2)
  return measured.1 + padLen

/-- Writes the message.  The buffered writer goes by the counts that `Read` returns, and what it makes
of an extension that is not exact is left open. -/
def writeBuffered (h : ClientHelloMsg) (exts : List Ext) (extensionsLen : Int) : M Bytes :=
  if exts.all Ext.exact then ofExcept (writeHello d h exts extensionsLen.toNat)
  else fun c => match d.inexactHello h exts extensionsLen with
    | .ok raw => .ok raw c
    | .error fault => .error fault c

/-- `MarshalClientHelloNoECH`. -/
def marshalClientHelloNoECH : M Unit := do
  let extensionsLen ← extensionsLen d
  let c ← get
  let raw ← writeBuffered d c.hello c.exts extensionsLen
  modify (·.setRaw raw)

end Deps

/-! ## What marshalling touches -/

/-- The extension without the values that `Len` and `Update` cache in it. -/
def Ext.skeleton : Ext → Ext
  | .greaseECH g => .greaseECH
      { g with
        cipherSuite := ⟨0, 0⟩
        configId := 0
        encapsulatedKey := []
        candidatePayloadLens := []
        payload := []
        initDone := false }
  | .utlsPreSharedKey e => .utlsPreSharedKey { e with cachedLength := none }
  | .utlsPadding e => .utlsPadding { e with paddingLen := 0, willPad := false }
  | e => e

/-- The extension is not a GREASE ECH extension whose values are still to be drawn. -/
def Ext.Settled : Ext → Prop
  | .greaseECH g => g.initDone = true
  | _ => True

/-- All caches of the extension are filled, so that `Len` leaves it as it is. -/
def Ext.Filled : Ext → Prop
  | .greaseECH g => g.initDone = true
  | .utlsPreSharedKey e => e.isBlank = true ∨ e.cachedLength.isSome
  | _ => True

/-- A pre-shared key extension with identities and binders, and with their length in its cache if
there is one. -/
def Ext.Sized (x : Ext) : Prop :=
  ∃ e, x = .utlsPreSharedKey e ∧ e.identities ≠ [] ∧ e.binders ≠ [] ∧
    e.cachedLength.getD (pskExtLen e.identities e.binders) = pskExtLen e.identities e.binders

lemma Ext.Filled.settled (h : e.Filled) : e.Settled := by
  cases e with
  | greaseECH g => exact h
  | _ => trivial

/-- `e'` is `e` with caches filled: nothing else differs, and caches that are filled stay as
they are.  The size of a padding extension is chosen anew each time. -/
structure Ext.Refresh (e e' : Ext) : Prop where
  skeleton : e'.skeleton = e.skeleton
  filled : e.Filled → e.isPadding = false → e' = e
  regular : e.Regular → e'.Regular
  sized : e.Sized → e'.Sized

lemma Ext.Refresh.refl (e : Ext) : e.Refresh e := ⟨rfl, fun _ _ => rfl, id, id⟩

lemma Ext.Refresh.trans {e1 e2 e3 : Ext} (h : e1.Refresh e2) (h' : e2.Refresh e3) :
    e1.Refresh e3 := by
  refine ⟨h'.skeleton.trans h.skeleton, fun hf hp => ?_, h'.regular ∘ h.regular,
    h'.sized ∘ h.sized⟩
  have h2 : e2 = e1 := h.filled hf hp
  subst h2
  exact h'.filled hf hp

lemma Ext.isPadding_skeleton (e : Ext) : e.skeleton.isPadding = e.isPadding := by
  cases e <;> rfl

lemma Ext.filled_of_isPadding (h : e.isPadding = true) : e.Filled := by
  cases e with
  | utlsPadding p => trivial
  | _ => cases h

lemma Ext.Refresh.isPadding_eq {e' : Ext} (h : e.Refresh e') : e'.isPadding = e.isPadding := by
  rw [← e'.isPadding_skeleton, h.skeleton, e.isPadding_skeleton]

/-- Filling caches does not change the bytes of an extension, except for padding and for a
GREASE ECH extension whose values are drawn. -/
lemma Ext.Refresh.wire_eq {e' : Ext} (h : e.Refresh e') (hs : e.Settled)
    (hp : e.isPadding = false) (parseIP : GoString → Bool) : e'.wire parseIP = e.wire parseIP := by
  have hsk := h.skeleton
  cases e with
  | greaseECH g => rw [h.filled hs hp]
  | utlsPadding p => cases hp
  | utlsPreSharedKey p =>
    cases e' <;> simp only [Ext.skeleton, reduceCtorEq, Ext.utlsPreSharedKey.injEq] at hsk
    rename_i q
    obtain ⟨⟩ := p
    obtain ⟨⟩ := q
    simp only [UtlsPreSharedKeyExtension.mk.injEq] at hsk
    simp [Ext.wire, hsk.1, hsk.2.1]
  | _ => cases e' <;> simp_all [Ext.skeleton]

/-- The connection with another heap, another position in the random stream and another raw
hello. -/
def UConn.withRaw (c : UConn) (heap : Ref → Ext) (draws : Nat) (raw : Option Bytes) : UConn :=
  { c with heap := heap, draws := draws, hello := { c.hello with original := raw } }

section WithRaw

variable (c : UConn) (heap : Ref → Ext) (draws : Nat) (raw : Option Bytes)

@[simp] lemma UConn.withRaw_heap : (c.withRaw heap draws raw).heap = heap := rfl

@[simp] lemma UConn.withRaw_extensions :
    (c.withRaw heap draws raw).extensions = c.extensions := rfl

end WithRaw

/-- The connections differ only in the raw hello, in cached values and in the randomness used. -/
def MarshalStep (c c' : UConn) : Prop :=
  ∃ heap draws raw, c' = c.withRaw heap draws raw ∧ ∀ r, (c.heap r).Refresh (heap r)

instance : IsPreorder UConn MarshalStep where
  refl c := ⟨c.heap, c.draws, c.hello.original, rfl, fun _ => .refl _⟩
  trans := by
    rintro c _ _ ⟨heap, draws, raw, rfl, h⟩ ⟨heap', draws', raw', rfl, h'⟩
    exact ⟨heap', draws', raw', rfl, fun r => (h r).trans (h' r)⟩

section Deps

variable (d : Deps)

variable {c : UConn}

/-- Drawing the values of a GREASE ECH extension uses randomness and nothing else. -/
def DrawStep (c c' : UConn) : Prop := ∃ draws, c' = c.atDraw draws

instance : IsPreorder UConn DrawStep where
  refl c := ⟨c.draws, rfl⟩
  trans := by
    rintro c _ _ ⟨n, rfl⟩ ⟨n', rfl⟩
    exact ⟨n', rfl⟩

/-- A program that uses randomness and nothing else: it returns a value in `P`, or it panics. -/
structure Draws {α : Type} (P : α → Prop) (x : M α) : Prop where
  keeps : Keeps DrawStep x
  yields : Yields P x
  noFail : NoFail x

namespace Draws

variable {α β : Type} {P : α → Prop} {x y : M α}

lemma pure {a : α} (h : P a) : Draws P (Pure.pure a) := ⟨.pure a, .pure h, .pure a⟩

lemma mono {Q : α → Prop} (hx : Draws P x) (h : ∀ a, P a → Q a) : Draws Q x :=
  ⟨hx.keeps, hx.yields.mono h, hx.noFail⟩

lemma assert (p : Prop) [Decidable p] (m : String) :
    Draws (fun _ => True) (Exec.assert p m : M Unit) :=
  ⟨.assert p m, fun _ _ _ _ => trivial, .assert p m⟩

/-- When nothing needs to be known about the value of the first part. -/
lemma after {Q : β → Prop} {f : α → M β} (hx : Draws P x) (hf : ∀ a, Draws Q (f a)) :
    Draws Q (x >>= f) :=
  ⟨hx.keeps.bind fun a => (hf a).keeps, .after fun a => (hf a).yields,
    hx.noFail.bind fun a => (hf a).noFail⟩

lemma map {Q : β → Prop} {f : α → β} (hx : Draws P x) (hf : ∀ a, P a → Q (f a)) :
    Draws Q (x >>= fun a => Pure.pure (f a)) :=
  ⟨hx.keeps.bind fun _ => .pure _, hx.yields.bind fun a ha => .pure (hf a ha),
    hx.noFail.bind fun _ => .pure _⟩

lemma ite {p : Prop} [Decidable p] (hx : Draws P x) (hy : Draws P y) :
    Draws P (if p then x else y) :=
  ⟨.ite hx.keeps hy.keeps, .ite hx.yields hy.yields, .ite hx.noFail hy.noFail⟩

/-- The next value of the random stream. -/
lemma next {f : UConn → M α} (h : ∀ c, Draws P (f c)) :
    Draws P (do let c ← get; set (c.atDraw (c.draws + 1)); f c) where
  keeps := .get_bind fun c => IsTrans.trans _ _ _ ⟨_, rfl⟩ ((h c).keeps (c.atDraw (c.draws + 1)))
  yields := .after fun c => .after fun _ => (h c).yields
  noFail := FailsOnly.get.bind fun c => (FailsOnly.set _).bind fun _ => (h c).noFail

end Draws

lemma draws_tryRand (n : Nat) : Draws (fun _ => True) (tryRand d n) := .next fun _ => .pure trivial

lemma keeps_tryRand (n : Nat) : Keeps DrawStep (tryRand d n) := (draws_tryRand d n).keeps

lemma draws_tryIndex (n : Nat) : Draws (fun _ => True) (tryIndex d n) :=
  (draws_tryRand d 8).after fun _ => .pure trivial

/-- The later steps of `init` keep what the caller configured. -/
def SameConfiguration (g g' : GREASEEncryptedClientHelloExtension) : Prop :=
  (Ext.greaseECH g').skeleton = (Ext.greaseECH g).skeleton ∧ g'.initDone = g.initDone

variable (g : GREASEEncryptedClientHelloExtension)

lemma draws_initPayload : Draws (SameConfiguration g) (initPayload d g) := by
  refine .ite ((draws_tryIndex d _).after fun o => ?_) (.pure ⟨rfl, rfl⟩)
  cases o with
  | none => exact .pure ⟨rfl, rfl⟩
  | some i =>
    exact (Draws.assert _ _).after fun _ => (draws_tryRand d _).after fun _ => .pure ⟨rfl, rfl⟩

lemma draws_initEncapsulatedKey : Draws (SameConfiguration g) (initEncapsulatedKey d g) := by
  refine .ite (.next fun c => ?_) (draws_initPayload d g)
  cases d.hpkeSetupSender c.draws defaultHpkeKem defaultHpkeKdf defaultHpkeAead
      dummyX25519PublicKey [] with
  | none => exact .pure ⟨rfl, rfl⟩
  | some e => exact draws_initPayload d { g with encapsulatedKey := e.1 }

lemma draws_initCipherSuite : Draws (SameConfiguration g) (initCipherSuite d g) := by
  refine .ite ((draws_initEncapsulatedKey d _).mono fun _ => id)
    ((draws_tryIndex d _).after fun o => ?_)
  cases o with
  | none => exact .pure ⟨rfl, rfl⟩
  | some i => exact (draws_initEncapsulatedKey d _).mono fun _ => id

/-- After `init` the values are drawn; if they already were, nothing changes. -/
lemma draws_initGreaseECH :
    Draws (fun g' => g'.initDone = true ∧ (Ext.greaseECH g).Refresh (.greaseECH g'))
      (initGreaseECH d g) := by
  unfold initGreaseECH
  by_cases hi : g.initDone = true
  · simp only [hi, if_true]
    exact .pure ⟨hi, .refl _⟩
  · have key : ∀ g1 g' : GREASEEncryptedClientHelloExtension,
        (Ext.greaseECH g1).skeleton = (Ext.greaseECH g).skeleton → g1.initDone = true →
        SameConfiguration g1 g' →
        g'.initDone = true ∧ (Ext.greaseECH g).Refresh (.greaseECH g') := by
      rintro g1 g' hs hd ⟨hs', hd'⟩
      exact ⟨hd'.trans hd, hs'.trans hs, fun h => absurd h hi, id, fun ⟨_, h, _⟩ => nomatch h⟩
    simp only [hi, Bool.false_eq_true, if_false]
    refine .ite ((draws_tryRand d _).after fun o => ?_) ((draws_tryIndex d _).after fun o => ?_) <;>
    cases o with
    | none => exact .pure (key { g with initDone := true } _ rfl rfl ⟨rfl, rfl⟩)
    | some i => exact (draws_initCipherSuite d _).mono fun g' => key _ g' rfl rfl

/-- One call of `Len` fills the caches and does nothing else. -/
lemma draws_prepareExt (e : Ext) :
    Draws (fun e' => e.Refresh e' ∧ e'.Filled) (prepareExt d e) := by
  cases e with
  | greaseECH g => exact (draws_initGreaseECH d g).map fun g' hg => ⟨hg.2, hg.1⟩
  | utlsPreSharedKey p =>
    unfold prepareExt
    by_cases hb : p.isBlank = true
    · simp only [hb, if_true]
      exact .pure ⟨.refl _, .inl hb⟩
    · simp only [hb, Bool.false_eq_true, if_false]
      refine .pure ⟨⟨rfl, fun hf _ => ?_, id, ?_⟩, .inr rfl⟩
      · obtain ⟨n, hn⟩ := Option.isSome_iff_exists.mp (hf.resolve_left hb)
        rw [hn, Option.getD_some, ← hn]
      · rintro ⟨_, hq, hi, hb, hc⟩
        cases hq
        exact ⟨_, rfl, hi, hb, hc⟩
  | _ => exact .pure ⟨.refl _, trivial⟩

/-! ## Running `MarshalClientHelloNoECH` -/

lemma DrawStep.marshalStep (h : DrawStep c c') : MarshalStep c c' := by
  obtain ⟨n, rfl⟩ := h
  exact ⟨c.heap, n, c.hello.original, rfl, fun _ => .refl _⟩

/-- `Len` of the extension at `r`, when it returns. -/
lemma extLen_eq_ok (h : extLen d r c = .ok n c') :
    ∃ e draws, c' = (c.store r e).atDraw draws ∧ (c.heap r).Refresh e ∧ e.Filled ∧
      n = e.len d.parseIP := by
  obtain ⟨_, _, h1, h⟩ := bind_eq_ok.mp h
  cases h1
  obtain ⟨e, c1, h1, h⟩ := bind_eq_ok.mp h
  cases h
  obtain ⟨draws, rfl⟩ := (draws_prepareExt d _).keeps.of_ok h1
  obtain ⟨hr, hf⟩ := (draws_prepareExt d _).yields _ _ _ h1
  exact ⟨e, draws, rfl, hr, hf, rfl⟩

lemma marshalStep_store (h : (c.heap r).Refresh e) (n : Nat) :
    MarshalStep c ((c.store r e).atDraw n) := by
  refine ⟨_, _, c.hello.original, rfl, fun r' => ?_⟩
  by_cases hr : r' = r
  · subst hr
    simpa using h
  · simpa [hr] using Ext.Refresh.refl _

lemma keeps_extLen (r : Ref) : Keeps MarshalStep (extLen d r) := by
  intro c
  cases h : extLen d r c with
  | ok n c' =>
    obtain ⟨e, draws, rfl, hr, -, -⟩ := extLen_eq_ok d h
    exact marshalStep_store hr draws
  | error f c' =>
    -- only `prepareExt` can fail, and it uses randomness at most
    have hp := (draws_prepareExt d (c.heap r)).keeps c
    simp only [extLen, run_bind, run_loadExt, run_storeExt, run_pure] at h
    cases hx : prepareExt d (c.heap r) c with
    | ok e c1 => simp [hx] at h
    | error f' c1 =>
      simp only [hx, EStateM.Result.error.injEq] at h
      rw [hx] at hp
      rw [← h.2]
      exact hp.marshalStep

/-- The announced length of all extensions but padding. -/
def unpaddedLen (parseIP : GoString → Bool) (exts : List Ext) : Nat :=
  (exts.map fun e => if e.isPadding then 0 else e.len parseIP).sum

/-- The step of `measureExts` at an extension that is not padding. -/
lemma measureExts_cons_of_not_padding {pad : Option Ref} (h : (c.heap r).isPadding = false):
    measureExts d (r :: rs) n pad c =
      (extLen d r >>= fun l => measureExts d rs (n + l) pad) c := by
  simp [measureExts, h]

/-- The step of `measureExts` at a padding extension. -/
lemma measureExts_cons_of_padding {pad : Option Ref} (h : (c.heap r).isPadding = true):
    measureExts d (r :: rs) n pad c =
      match pad with
      | none => measureExts d rs n (some r) c
      | some _ => .error (.error (.text "multiple padding extensions")) c := by
  cases pad <;> simp [measureExts, h]

lemma keeps_measureExts (rs : List Ref) : ∀ n pad, Keeps MarshalStep (measureExts d rs n pad) := by
  induction rs with
  | nil => exact fun n pad => .pure _
  | cons r rs ih =>
    intro n pad c
    by_cases hp : (c.heap r).isPadding = true
    · rw [measureExts_cons_of_padding d hp]
      cases pad with
      | none => exact ih n (some r) c
      | some p => exact refl c
    · rw [measureExts_cons_of_not_padding d (by simpa using hp)]
      exact (keeps_extLen d r).bind (fun l => ih (n + l) pad) c

/-- What `measureExts` computes: the summed lengths of the extensions as it leaves them, all with
their caches filled, and the only padding extension of the list, if there is one, which it does not
touch. -/
lemma measureExts_eq_ok :
    ∀ {n : Nat} {pad : Option Ref} {c c' : UConn} {n' : Nat} {pad' : Option Ref},
      measureExts d rs n pad c = .ok (n', pad') c' →
      (∀ r ∈ rs, (c'.heap r).Filled) ∧
      n' = n + unpaddedLen d.parseIP (rs.map c'.heap) ∧
      pad.toList ++ rs.filter (fun r => (c'.heap r).isPadding) = pad'.toList ∧
      ∀ r, (c.heap r).isPadding = true → c'.heap r = c.heap r := by
  induction rs with
  | nil =>
    intro n pad c c' n' pad' h
    cases h
    simp [unpaddedLen]
  | cons r rs ih =>
    intro n pad c c' n' pad' h
    by_cases hp : (c.heap r).isPadding = true
    · rw [measureExts_cons_of_padding d hp] at h
      cases pad with
      | some p => cases h
      | none =>
        obtain ⟨hf, hn, hpad, hkept⟩ := ih h
        have hpr : (c'.heap r).isPadding = true := by rw [hkept r hp, hp]
        refine ⟨forall_mem_cons.mpr ⟨Ext.filled_of_isPadding hpr, hf⟩, ?_, ?_, hkept⟩
        · simp only [hn, unpaddedLen, map_cons, sum_cons, hpr, if_true, Nat.zero_add]
        · rw [← hpad, filter_cons, if_pos hpr]
          rfl
    · have hp : (c.heap r).isPadding = false := by simpa using hp
      rw [measureExts_cons_of_not_padding d hp] at h
      obtain ⟨l, c1, h1, h2⟩ := bind_eq_ok.mp h
      obtain ⟨e, draws, rfl, hr, hfill, rfl⟩ := extLen_eq_ok d h1
      obtain ⟨hf, hn, hpad, hkept⟩ := ih h2
      obtain ⟨heap, draws', raw, rfl, hheap⟩ := (keeps_measureExts d rs _ pad).of_ok h2
      simp only [UConn.withRaw_heap] at hf hn hpad hkept ⊢
      have he : heap r = e := by
        have := (hheap r).filled
        simp only [UConn.atDraw_heap, UConn.store_heap, Function.update_self] at this
        exact this hfill (by rw [hr.isPadding_eq]; exact hp)
      have hpr : (heap r).isPadding = false := by rw [he, hr.isPadding_eq]; exact hp
      refine ⟨forall_mem_cons.mpr ⟨he ▸ hfill, hf⟩, ?_, ?_, fun r' hr' => ?_⟩
      · have hl : (if (heap r).isPadding then 0 else (heap r).len d.parseIP) = e.len d.parseIP := by
          rw [hpr, he]
          rfl
        simp only [hn, unpaddedLen, map_cons, sum_cons, hl]
        omega
      · rw [filter_cons_of_neg (by simp [hpr]), hpad]
      · have hne : r' ≠ r := by
          rintro rfl
          exact absurd hr' (by simp [hp])
        have hkeep : ((c.store r e).atDraw draws).heap r' = c.heap r' := by simp [hne]
        rw [hkept r' (by rw [hkeep, hr']), hkeep]

/-- Reading the extensions one after the other concatenates their bytes. -/
lemma emitExts_eq_ok {size : Nat} {es : List Ext} :
    ∀ {acc out : Bytes}, emitExts d size es acc = .ok out →
      out = acc ++ es.flatMap (fun e => e.wire d.parseIP) ∧
        ∀ e ∈ es, e.readError d.parseIP = none := by
  induction es with
  | nil =>
    intro acc out h
    cases h
    simp
  | cons e es ih =>
    intro acc out h
    rw [emitExts] at h
    split at h
    · cases h
    · rename_i b hb
      obtain ⟨hr, rfl, -⟩ := (Ext.read_eq_ok d.parseIP).mp hb
      obtain ⟨rfl, hall⟩ := ih h
      refine ⟨by simp, ?_⟩
      intro e' he'
      rcases mem_cons.mp he' with rfl | he'
      · exact hr
      · exact hall e' he'

lemma length_helloHeader (h : ClientHelloMsg) (hr : h.random.length = 32) :
    (helloHeader h).length = headerLength h := by
  simp only [helloHeader, headerLength, length_append, length_u16, length_vec8, length_vec16,
    length_u16s, hr]
  omega

/-- A written message is the encoding of the fields and extensions: the total length is checked
at the end, and that fixes the two length fields that were written in advance. -/
lemma writeHello_eq_ok {h : ClientHelloMsg} {exts : List Ext} {b : Bytes}
    (hw : writeHello d h exts n = .ok b) :
    (h.random.length = 32 → b = clientHelloEncoding d.parseIP h exts ∧
      (exts ≠ [] → n = (exts.flatMap fun e => e.wire d.parseIP).length)) ∧
      ∀ e ∈ exts, e.readError d.parseIP = none := by
  unfold writeHello at hw
  by_cases he : exts.length > 0
  · simp only [he, if_true] at hw
    split at hw
    · cases hw
    · rename_i out hout
      obtain ⟨rfl, hall⟩ := emitExts_eq_ok d hout
      split_ifs at hw with hlen
      cases hw
      refine ⟨fun hr => ?_, hall⟩
      have hh := length_helloHeader h hr
      simp only [length_append, length_cons, length_u24, length_u16, hh] at hlen
      have hn : n = (exts.flatMap fun e => e.wire d.parseIP).length := by omega
      have hne : ¬exts.length = 0 := by omega
      have hbody : (helloHeader h ++ vec16 (exts.flatMap fun e => e.wire d.parseIP)).length
          = headerLength h + (2 + n) := by
        rw [length_append, hh, length_vec16, hn]
      refine ⟨?_, fun _ => hn⟩
      simp only [clientHelloEncoding, extensionBlock, hne, if_false, hbody]
      simp [vec16, hn]
  · have hnil : exts = [] := by simpa using he
    subst hnil
    simp only [length_nil, gt_iff_lt, lt_self_iff_false, if_false] at hw
    split_ifs at hw with hlen
    cases hw
    refine ⟨fun hr => ?_, by simp⟩
    simp [clientHelloEncoding, extensionBlock, length_helloHeader h hr]

/-- The extensions of the list are regular. -/
def UConn.RegularExts (c : UConn) : Prop := ∀ e ∈ c.exts, e.Regular

/-- What a successful `MarshalClientHelloNoECH` leaves behind. -/
structure Marshalled (c c' : UConn) : Prop where
  step : MarshalStep c c'
  filled : ∀ e ∈ c'.exts, e.Filled
  padding : ∀ r ∈ c.extensions, ∀ p, c.heap r = .utlsPadding p →
    c'.heap r = .utlsPadding
      (p.update ↑(headerLength c.hello + 4 + unpaddedLen d.parseIP c'.exts + 2))
  readable : c.RegularExts → ∀ e ∈ c'.exts, e.readError d.parseIP = none
  raw : c.RegularExts → c.hello.random.length = 32 →
    c'.hello.original = some (clientHelloEncoding d.parseIP c.hello c'.exts)

lemma UConn.RegularExts.of_heap (hc : c.RegularExts) (he : c'.extensions = c.extensions)
    (h : ∀ r ∈ c.extensions, (c.heap r).Regular → (c'.heap r).Regular) : c'.RegularExts := by
  intro e hmem
  rw [UConn.exts, he] at hmem
  obtain ⟨r, hr, rfl⟩ := List.mem_map.mp hmem
  exact h r hr (hc _ (List.mem_map_of_mem hr))

lemma MarshalStep.regularExts (h : MarshalStep c c') (hc : c.RegularExts) : c'.RegularExts := by
  obtain ⟨heap, draws, raw, rfl, hheap⟩ := h
  exact hc.of_heap rfl fun r _ => (hheap r).regular

/-- The size of a padding extension does not count in the unpadded length. -/
lemma unpaddedLen_congr (parseIP : GoString → Bool) {f g : Ref → Ext}
    (h : ∀ r ∈ rs, (f r).isPadding = (g r).isPadding ∧ ((f r).isPadding = false → f r = g r)) :
    unpaddedLen parseIP (rs.map f) = unpaddedLen parseIP (rs.map g) := by
  unfold unpaddedLen
  rw [List.map_map, List.map_map]
  congr 1
  apply map_congr_left
  intro r hr
  obtain ⟨h1, h2⟩ := h r hr
  simp only [Function.comp]
  by_cases hp : (f r).isPadding = true
  · rw [← h1, hp]
    rfl
  · rw [h2 (by simpa using hp)]

lemma updatePadding_some {p : UtlsPaddingExtension} (h : c.heap r = .utlsPadding p) (u : Int) :
    updatePadding (some r) u c = .ok (p.update u).len (c.store r (.utlsPadding (p.update u))) := by
  simp [updatePadding, h]

lemma keeps_updatePadding (pad : Option Ref) (u : Int) :
    Keeps MarshalStep (updatePadding pad u) := by
  intro c
  cases pad with
  | none => exact refl c
  | some r =>
    simp only [updatePadding, run_bind, run_loadExt]
    cases he : c.heap r with
    | utlsPadding e =>
      refine marshalStep_store ⟨?_, fun _ hp => ?_, fun hr => ?_, ?_⟩ c.draws
      · rw [he]
        unfold UtlsPaddingExtension.update
        cases hg : e.getPaddingLen <;> simp [Ext.skeleton, hg]
      · rw [he] at hp
        cases hp
      · rw [he] at hr
        exact Ext.regular_update hr u
      · rintro ⟨_, hs, -⟩
        cases he.symm.trans hs
    | _ => exact refl c

lemma keeps_extensionsLen : Keeps MarshalStep (extensionsLen d) :=
  Keeps.get.bind fun _ => (keeps_measureExts d _ _ _).bind fun _ =>
    (keeps_updatePadding _ _).bind fun _ => .pure _

lemma keeps_writeBuffered (h : ClientHelloMsg) (exts : List Ext) (n : Int) :
    Keeps (Same id) (writeBuffered d h exts n) := by
  refine Keeps.ite (.ofExcept _) fun c => ?_
  cases d.inexactHello h exts n <;> rfl

lemma keeps_marshalClientHelloNoECH : Keeps MarshalStep (marshalClientHelloNoECH d) := by
  refine (keeps_extensionsLen d).bind fun n => Keeps.get.bind fun c1 =>
    ((keeps_writeBuffered d _ _ _).mono fun x y h => ?_).bind fun raw => Keeps.modify fun c2 => ?_
  · have hxy : y = x := h
    rw [hxy]
    exact refl x
  · exact ⟨c2.heap, c2.draws, some raw, rfl, fun _ => .refl _⟩

/-- What `extensionsLen` leaves behind: all caches are filled, and the padding is chosen for the length
of the other extensions. -/
lemma extensionsLen_ok {k : Int} (h : extensionsLen d c = .ok k c') :
    (∀ e ∈ c'.exts, e.Filled) ∧ ∀ r ∈ c.extensions, ∀ p, c.heap r = .utlsPadding p →
      c'.heap r = .utlsPadding
        (p.update ↑(headerLength c.hello + 4 + unpaddedLen d.parseIP c'.exts + 2)) := by
  obtain ⟨_, _, h0, h1⟩ := bind_eq_ok.mp h
  cases h0
  obtain ⟨⟨n, pad⟩, c1, hm, h2⟩ := bind_eq_ok.mp h1
  obtain ⟨padLen, c2, hp, h3⟩ := bind_eq_ok.mp h2
  cases h3
  obtain ⟨hf, hn, hpad, hpadM⟩ := measureExts_eq_ok d hm
  obtain ⟨heap, draws, orig, rfl, hheap⟩ := (keeps_measureExts d _ _ _).of_ok hm
  obtain ⟨heap', draws', orig', rfl, hheap'⟩ := (keeps_updatePadding _ _).of_ok hp
  -- what was measured is not changed by the choice of the padding
  have hsame : ∀ r ∈ c.extensions, (heap r).isPadding = (heap' r).isPadding ∧
      ((heap r).isPadding = false → heap r = heap' r) := by
    intro r hr
    refine ⟨(hheap' r).isPadding_eq.symm, fun hp' => ?_⟩
    exact ((hheap' r).filled (hf r hr) hp').symm
  have hlen := unpaddedLen_congr d.parseIP hsame
  rw [Nat.zero_add] at hn
  constructor
  · intro e he
    obtain ⟨r, hr, rfl⟩ := List.mem_map.mp he
    by_cases hp' : (heap' r).isPadding = true
    · exact Ext.filled_of_isPadding hp'
    · have hr' := hsame r hr
      rw [← hr'.1] at hp'
      have := hf r hr
      rw [UConn.withRaw_heap, hr'.2 (by simpa using hp')] at this
      exact this
  · intro r hr p hcr
    have hr1 : heap r = .utlsPadding p := by
      rw [← hcr]
      exact hpadM r (by rw [hcr]; rfl)
    have hmem : r ∈ none.toList ++ c.extensions.filter fun r => (heap r).isPadding :=
      mem_filter.mpr ⟨hr, by rw [hr1]; rfl⟩
    obtain rfl : pad = some r := Option.mem_toList.mp (hpad ▸ hmem)
    rw [updatePadding_some (by rw [UConn.withRaw_heap]; exact hr1)] at hp
    have hr2 : heap' r = .utlsPadding (p.update ↑(headerLength c.hello + 4 + n + 2)) := by
      have := congrArg (fun x : UConn => x.heap r) (EStateM.Result.ok.inj hp).2
      simpa using this.symm
    change heap' r = _
    rw [hr2, hn, UConn.withRaw_heap, hlen]
    rfl

lemma writeBuffered_regular (hc : c.RegularExts) (n : Int) :
    writeBuffered d c.hello c.exts n = ofExcept (writeHello d c.hello c.exts n.toNat) :=
  if_pos (all_eq_true.mpr fun e he => (hc e he).exact)

/-- The two parts of `MarshalClientHelloNoECH`: the lengths are summed, and the message is written. -/
lemma marshalClientHelloNoECH_run {u : Unit} (h : marshalClientHelloNoECH d c = .ok u c') :
    ∃ n c₁ raw, extensionsLen d c = .ok n c₁ ∧ c' = c₁.setRaw raw ∧
      (c.RegularExts → writeHello d c₁.hello c₁.exts n.toNat = .ok raw) := by
  obtain ⟨n, c₁, hn, h⟩ := bind_eq_ok.mp h
  rw [run_get_bind] at h
  obtain ⟨raw, c₂, hw, h⟩ := bind_eq_ok.mp h
  cases h
  obtain rfl : c₂ = c₁ := (keeps_writeBuffered d _ _ _).of_ok hw
  refine ⟨n, _, raw, hn, rfl, fun hc => ?_⟩
  rw [writeBuffered_regular d (((keeps_extensionsLen d).of_ok hn).regularExts hc)] at hw
  exact (ofExcept_eq_ok.mp hw).1

theorem marshalClientHelloNoECH_ok {u : Unit}
    (h : marshalClientHelloNoECH d c = .ok u c') : Marshalled d c c' := by
  have hstep := (keeps_marshalClientHelloNoECH d).of_ok h
  obtain ⟨n, c₁, raw, hn, rfl, hw⟩ := marshalClientHelloNoECH_run d h
  obtain ⟨hfilled, hpadding⟩ := extensionsLen_ok d hn
  refine ⟨hstep, hfilled, hpadding, fun hc => (writeHello_eq_ok d (hw hc)).2, fun hc hr => ?_⟩
  obtain ⟨heap, draws, orig, rfl, -⟩ := (keeps_extensionsLen d).of_ok hn
  have hraw := ((writeHello_eq_ok d (hw hc)).1 hr).1
  change some raw = _
  rw [hraw]
  rfl

/-- Marshalling once more finds all caches filled: if the padding is the one chosen for the current
lengths, no extension changes. -/
lemma Marshalled.exts_eq (h : Marshalled d c c') (hf : ∀ e ∈ c.exts, e.Filled)
    (hp : ∀ r ∈ c.extensions, ∀ p, c.heap r = .utlsPadding p →
      p.update ↑(headerLength c.hello + 4 + unpaddedLen d.parseIP c.exts + 2) = p) :
    c'.exts = c.exts ∧ c'.extensions = c.extensions := by
  obtain ⟨heap, draws, orig, rfl, hheap⟩ := h.step
  have hnp : ∀ r ∈ c.extensions, (c.heap r).isPadding = false → heap r = c.heap r := by
    intro r hr hpr
    exact (hheap r).filled (hf _ (List.mem_map_of_mem hr)) hpr
  have hlen : unpaddedLen d.parseIP (c.extensions.map heap)
      = unpaddedLen d.parseIP (c.extensions.map c.heap) := by
    apply unpaddedLen_congr
    intro r hr
    refine ⟨(hheap r).isPadding_eq, fun hpr => ?_⟩
    exact hnp r hr (by rw [← (hheap r).isPadding_eq]; exact hpr)
  refine ⟨map_congr_left fun r hr => ?_, rfl⟩
  cases hcr : c.heap r with
  | utlsPadding p =>
    have hup := h.padding r hr p hcr
    simp only [UConn.exts, UConn.withRaw_heap, UConn.withRaw_extensions, hlen] at hup
    change heap r = _
    rw [hup, ← UConn.exts, hp r hr p hcr]
  | _ =>
    have := hnp r hr (by rw [hcr]; rfl)
    rw [← hcr]
    exact this

end Deps

end Utls
