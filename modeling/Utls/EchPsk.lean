import Utls.EchSent

/-!
# The pre-shared key of a hello with ECH

With ECH the identities of the pre-shared key extension go to the inner hello, and the extension
gets random ones of the same lengths.  The extension object is the only place that has the real
identities, and `Hello.PskIdentities` is its very slice, so that both are lost: the next
`MarshalClientHello` offers the random identities in its inner hello (`identities_kept_iff`).
-/

namespace Utls

open Wire Exec List Option Function UtlsPreSharedKeyExtension

variable {u : Unit} {s : SessionState}

section Deps

variable (d : Deps)

variable {c c' : UConn} {e : UtlsPreSharedKeyExtension} {r : Ref}

/-! ## Random identities -/

/-- The bytes of the `k`-th read of the random source; zeros if it fails. -/
def Deps.randAt (k n : Nat) : Bytes := (d.rand k n).getD (List.replicate n 0)

lemma run_randOrZero (n : Nat) (c : UConn) :
    randOrZero d n c = .ok (d.randAt c.draws n) (c.atDraw (c.draws + 1)) := rfl

lemma Deps.length_randAt (k n : Nat) : (d.randAt k n).length = n := by
  unfold Deps.randAt
  cases h : d.rand k n with
  | none => simp
  | some b => exact d.rand_length k n b h

/-- The identities that take the place of the given ones, from the `k`-th read on. -/
def randomIdentities : Nat → List PskIdentity → List PskIdentity
  | _, [] => []
  | k, i :: is =>
    ⟨d.randAt k i.label.length, UInt32.ofNat (beNat (d.randAt (k + 1) 4))⟩ ::
      randomIdentities (k + 2) is

/-- The binders that take the place of the given ones, from the `k`-th read on. -/
def randomBinders : Nat → List Bytes → List Bytes
  | _, [] => []
  | k, b :: bs => d.randAt k b.length :: randomBinders (k + 1) bs

lemma run_greaseIdentities (ids : List PskIdentity) (c : UConn) :
    greaseIdentities d ids c =
      .ok (randomIdentities d c.draws ids) (c.atDraw (c.draws + 2 * ids.length)) := by
  induction ids generalizing c with
  | nil => rfl
  | cons i is ih =>
    simp only [greaseIdentities, run_bind, run_randOrZero, ih, run_pure, randomIdentities]
    have hdraws : c.draws + 1 + 1 + 2 * is.length = c.draws + 2 * (is.length + 1) := by omega
    simp only [UConn.atDraw, length_cons, hdraws]

lemma run_greaseBinders (bs : List Bytes) (c : UConn) :
    greaseBinders d bs c = .ok (randomBinders d c.draws bs) (c.atDraw (c.draws + bs.length)) := by
  induction bs generalizing c with
  | nil => rfl
  | cons b bs ih =>
    simp only [greaseBinders, run_bind, run_randOrZero, ih, run_pure, randomBinders]
    have hdraws : c.draws + 1 + bs.length = c.draws + (bs.length + 1) := by omega
    simp only [UConn.atDraw, length_cons, hdraws]

lemma map_length_randomBinders (k : Nat) (bs : List Bytes) :
    (randomBinders d k bs).map List.length = bs.map List.length := by
  induction bs generalizing k with
  | nil => rfl
  | cons b bs ih => rw [randomBinders, map_cons, map_cons, d.length_randAt, ih]

lemma map_length_randomIdentities (k : Nat) (ids : List PskIdentity) :
    (randomIdentities d k ids).map (·.label.length) = ids.map (·.label.length) := by
  induction ids generalizing k with
  | nil => rfl
  | cons i is ih => rw [randomIdentities, map_cons, map_cons, d.length_randAt, ih]

/-! ## The extension that shows the identities -/

/-- The extension at `r` is the pre-shared key extension of the connection, it offers the given
identities, and `Hello.PskIdentities` is its slice. -/
structure UConn.ShowsPsk (c : UConn) (r : Ref) (e : UtlsPreSharedKeyExtension) : Prop where
  prepared : c.Prepared
  owner : c.sessionController.pskExtension = some r
  ext : c.heap r = .utlsPreSharedKey e
  offers : e.offersPsk = true
  ready : e.Ready
  shared : c.helloPskIdentities = .ofExt r

lemma UConn.ShowsPsk.mem (h : c.ShowsPsk r e): r ∈ c.extensions := by
  obtain ⟨pre, hpre, -⟩ := h.prepared.placed r h.owner
  simp [hpre]

lemma UConn.ShowsPsk.pskIdentities_eq (h : c.ShowsPsk r e): c.pskIdentities = e.identities := by
  rw [UConn.pskIdentities, h.shared]
  simp only [h.ext]

/-- It is the only pre-shared key extension of the list. -/
lemma UConn.ShowsPsk.firstExt_eq
    (h : c.ShowsPsk r e) : c.firstExt Ext.asUtlsPreSharedKey = some (r, e) := by
  cases hx : c.firstExt Ext.asUtlsPreSharedKey with
  | none =>
    have hnone := findSome?_eq_none_iff.mp hx r h.mem
    rw [h.ext] at hnone
    cases hnone
  | some x =>
    obtain ⟨r', e'⟩ := x
    obtain ⟨hmem, he⟩ := firstExt_eq_some hx
    have he := Ext.asUtlsPreSharedKey_eq_some he
    have hr := h.prepared.only r' hmem (by rw [he]; rfl)
    cases h.owner.symm.trans hr
    rw [h.ext] at he
    cases he
    rfl

/-- Only a `FakePreSharedKeyExtension` takes `Hello.PskIdentities` over. -/
lemma writeToUConn_shared (h : writeToUConn d r c = .ok u c')
    (hno : ∀ f, c.heap r ≠ .fakePreSharedKey f) : c'.helloPskIdentities = c.helloPskIdentities := by
  unfold writeToUConn at h
  simp only [run_bind, run_loadExt] at h
  cases he : c.heap r with
  | fakePreSharedKey f => exact absurd he (hno f)
  | greaseECH g =>
    rw [he] at h
    obtain ⟨heap, draws, raw, rfl, -⟩ := (marshalClientHelloNoECH_ok d h).step
    rfl
  | trustAnchors t =>
    rw [he] at h
    obtain ⟨t', c1, h1, h2⟩ := bind_eq_ok.mp h
    cases h2
    obtain ⟨n, rfl⟩ := (keeps_chooseOrder d t).of_ok h1
    rfl
  | renegotiationInfo kind conn =>
    rw [he] at h
    simp only [run_modify, EStateM.Result.ok.injEq, true_and] at h
    subst h
    simp only [Ext.applyTo]
    split_ifs <;> rfl
  | sni name =>
    rw [he] at h
    simp only [run_modify, EStateM.Result.ok.injEq, true_and] at h
    subst h
    simp only [Ext.applyTo]
    split_ifs <;> rfl
  | _ =>
    rw [he] at h
    cases h
    rfl

/-- Applying the configuration does not make another extension of one. -/
lemma Ext.Rewrite.ne_fakePreSharedKey {e e' : Ext} (h : e.Rewrite c e')
    (hno : ∀ f, e ≠ .fakePreSharedKey f) (f : FakePreSharedKeyExtension) :
    e' ≠ .fakePreSharedKey f := by
  rintro rfl
  have hcore := h.core
  cases e with
  | fakePreSharedKey f' => exact hno f' rfl
  | _ => cases hcore

lemma applyExts_shared {rs : List Ref} :
    ∀ {c c' : UConn} {u : Unit}, applyExts d rs c = .ok u c' →
      (∀ r ∈ rs, ∀ f, c.heap r ≠ .fakePreSharedKey f) →
        c'.helloPskIdentities = c.helloPskIdentities := by
  induction rs with
  | nil =>
    intro c c' u h _
    cases h
    rfl
  | cons r rs ih =>
    intro c c' u h hno
    obtain ⟨_, c1, h1, h⟩ := bind_eq_ok.mp h
    have hstep := (keeps_writeToUConn d r).of_ok h1
    have hone := writeToUConn_shared d h1 (hno r (mem_cons_self ..))
    rw [← hone]
    exact ih h fun r' hr' =>
      (hstep.heap r').ne_fakePreSharedKey (hno r' (mem_cons_of_mem _ hr'))

/-- The pre-shared key extension without the length it caches. -/
def UtlsPreSharedKeyExtension.uncached (e : UtlsPreSharedKeyExtension) :
    UtlsPreSharedKeyExtension :=
  { e with cachedLength := none }

lemma Ext.skeleton_psk {x : Ext} (h : x.skeleton = Ext.skeleton (.utlsPreSharedKey e)):
    ∃ e', x = .utlsPreSharedKey e' ∧ e'.uncached = e.uncached := by
  cases x with
  | utlsPreSharedKey e' => exact ⟨e', rfl, Ext.utlsPreSharedKey.inj h⟩
  | _ => cases h

/-- A field that is not the cached length. -/
lemma UtlsPreSharedKeyExtension.field_of_uncached {α : Type} {e' : UtlsPreSharedKeyExtension}
    (h : e'.uncached = e.uncached) (f : UtlsPreSharedKeyExtension → α)
    (hf : ∀ e : UtlsPreSharedKeyExtension, f e.uncached = f e := by intro; rfl) : f e' = f e := by
  rw [← hf e', ← hf e, h]

/-- What is known of the extension does not depend on the cached length. -/
lemma UConn.ShowsPsk.of_uncached {e' : UtlsPreSharedKeyExtension}
    (h : c.ShowsPsk r e) (hp : c'.Prepared) (hsc : c'.sessionController = c.sessionController)
    (he : c'.heap r = .utlsPreSharedKey e') (hu : e'.uncached = e.uncached)
    (hs : c'.helloPskIdentities = c.helloPskIdentities) : c'.ShowsPsk r e' := by
  have hoffers : e'.offersPsk = e.offersPsk :=
    field_of_uncached hu offersPsk
  have hready : e'.Ready = e.Ready :=
    field_of_uncached hu Ready
  exact ⟨hp, by rw [hsc, h.owner], he, by rw [hoffers, h.offers], hready ▸ h.ready, by rw [hs, h.shared]⟩

/-- Applying the configuration keeps the identities. -/
lemma UConn.ShowsPsk.applyConfig (h : c.ShowsPsk r e) (ha : applyConfig d c = .ok u c'):
    ∃ e', e'.uncached = e.uncached ∧ c'.ShowsPsk r e' := by
  have hstep := (keeps_applyConfig d).of_ok ha
  have hcore := (hstep.heap r).core
  rw [h.ext] at hcore
  have hskeleton : (c'.heap r).skeleton = Ext.skeleton (.utlsPreSharedKey e) := by
    cases hx : c'.heap r with
    | utlsPreSharedKey e' =>
      rw [hx] at hcore
      exact hcore
    | _ =>
      rw [hx] at hcore
      cases hcore
  obtain ⟨e', he', hu⟩ := Ext.skeleton_psk hskeleton
  -- the only pre-shared key extension of the list is this one
  have hno : ∀ r' ∈ c.extensions, ∀ f, c.heap r' ≠ .fakePreSharedKey f := by
    intro r' hr' f hf
    have hr := h.prepared.only r' hr' (by rw [hf]; rfl)
    cases h.owner.symm.trans hr
    rw [h.ext] at hf
    cases hf
  exact ⟨e', hu, h.of_uncached (h.prepared.configStep hstep) (hstep.field UConn.sessionController) he' hu
    (applyExts_shared d ha hno)⟩

/-! ## One call -/

/-- The extension with random identities and binders of the same lengths, from the `k`-th read on.
-/
def UtlsPreSharedKeyExtension.greased (e : UtlsPreSharedKeyExtension) (k : Nat) :
    UtlsPreSharedKeyExtension :=
  { e with
    identities := randomIdentities d k e.identities
    binders := randomBinders d (k + 2 * e.identities.length) e.binders
    skipBinderPatching := true }

lemma UtlsPreSharedKeyExtension.offersPsk_greased (e : UtlsPreSharedKeyExtension) (k : Nat) :
    (e.greased d k).offersPsk = e.offersPsk := by
  have hlen : (randomIdentities d k e.identities).length = e.identities.length := by
    simpa using congrArg List.length (map_length_randomIdentities d k e.identities)
  have hpos : decide ((randomIdentities d k e.identities).length > 0) =
      decide (e.identities.length > 0) := by
    rw [hlen]
  exact congrArg (fun b => (e.cipherSuite.isSome && decide (e.binderKey.length > 0)) && b) hpos

lemma UtlsPreSharedKeyExtension.Ready.greased (h : e.Ready)
    (ho : e.offersPsk = true) (k : Nat) : (e.greased d k).Ready := by
  have hids := congrArg List.length (map_length_randomIdentities d k e.identities)
  have hbinders := congrArg List.length
    (map_length_randomBinders d (k + 2 * e.identities.length) e.binders)
  simp only [length_map] at hids hbinders
  refine ⟨?_, .inr (by rw [e.offersPsk_greased, ho])⟩
  change (randomIdentities d k e.identities).length = (randomBinders d _ e.binders).length
  rw [hids, hbinders]
  exact h.1

/-- The inner hello takes the identities of the extension. -/
lemma innerWithPsk_identities {c1 c2 : UConn} {inner inner' : ClientHelloMsg}
    (h : innerWithPsk d c e inner c1 = .ok inner' c2) : inner'.pskIdentities = e.identities := by
  unfold innerWithPsk at h
  cases hs : c.pskCipherSuite with
  | none =>
    simp only [hs] at h
    cases h
    rfl
  | some suite =>
    simp only [hs] at h
    split_ifs at h with hk
    · cases h
      rfl
    · obtain ⟨bytes, c3, h1, h⟩ := bind_eq_ok.mp h
      rw [assert_bind_eq_ok] at h
      obtain ⟨-, h⟩ := h
      cases h
      rfl

/-- What `moveToInner` does with an extension that offers identities. -/
lemma moveToInner_psk {inner : ClientHelloMsg} {o : ClientHelloMsg × Option (List UInt16)}
    (hs : c.ShowsPsk r e) (hf : d.echPskFallback = false) (h : moveToInner d inner c = .ok o c') :
    ∃ n outerExts, innerWithPsk d c e inner c = .ok o.1 c ∧
      extensionsList d ((c.atDraw n).store r (.utlsPreSharedKey (e.greased d c.draws))) =
        .ok outerExts c' ∧
      o.2 = some (outerExts.filter fun t =>
        t ≠ extensionEncryptedClientHello ∧ t ≠ extensionPreSharedKey) := by
  rw [moveToInner, run_get_bind, hs.firstExt_eq] at h
  simp only [hs.offers, Bool.true_eq_false, if_false, hf, Bool.false_eq_true] at h
  obtain ⟨inner', c1, h1, h⟩ := bind_eq_ok.mp h
  obtain ⟨-, rfl⟩ := innerWithPsk_ok d h1
  obtain ⟨_, c2, h2, h⟩ := bind_eq_ok.mp h
  obtain ⟨l, c3, h3, h⟩ := bind_eq_ok.mp h
  cases h
  have hgrease : greasePsk d r e c = .ok () ((c.atDraw (c.draws + 2 * e.identities.length +
      e.binders.length)).store r (.utlsPreSharedKey (e.greased d c.draws))) := by
    simp only [greasePsk, run_bind, run_greaseIdentities, run_greaseBinders, run_storeExt]
    rfl
  rw [hgrease] at h2
  cases h2
  exact ⟨_, l, h1, h3, rfl⟩

/-- Filling caches keeps the extension. -/
lemma Ext.Refresh.psk_right {x y : Ext} (h : x.Refresh y)
    (hx : x = .utlsPreSharedKey e) : ∃ e', y = .utlsPreSharedKey e' ∧ e'.uncached = e.uncached :=
  Ext.skeleton_psk (by rw [h.skeleton, hx])

/-- Marshalling with ECH keeps what holds of a prepared connection. -/
lemma OuterStep.prepared (h : OuterStep c c') (hp : c.Prepared)
    (hready : ∀ r e, c'.sessionController.pskExtension = some r → c'.heap r = .utlsPreSharedKey e →
      e.Ready) : c'.Prepared := by
  have hrandom : c'.hello.random = c.hello.random := congrArg (fun x => x.2.1) h.header
  refine ⟨h.tidy hp.tidy, by rw [h.controller]; exact hp.settled, hrandom ▸ hp.random, fun r hr => ?_,
    fun r hr hk => ?_, fun _ => hready⟩
  · obtain ⟨pre, hpre, hmem⟩ := hp.placed r (h.controller ▸ hr)
    exact ⟨pre, h.extensions.trans hpre, hmem⟩
  · rw [h.extensions] at hr
    have hkind : (c'.heap r).isPreSharedKey = (c.heap r).isPreSharedKey :=
      congrArg Prod.snd (h.kind r (hp.tidy.extensions r hr))
    rw [h.controller]
    exact hp.only r hr (hkind ▸ hk)

/-- Pointing the `server_name` extension at another name leaves the pre-shared key alone. -/
lemma setFirstSNI_psk {name : GoString} (h : setFirstSNI name c = .ok u c')
    (he : c.heap r = .utlsPreSharedKey e) :
    c'.heap r = .utlsPreSharedKey e ∧ c'.helloPskIdentities = c.helloPskIdentities ∧
      c'.history = c.history := by
  obtain rfl | ⟨r', old, hr', rfl⟩ := setFirstSNI_cases h
  · exact ⟨he, rfl, rfl⟩
  · have hne : r ≠ r' := by
      rintro rfl
      rw [he] at hr'
      cases hr'
    refine ⟨?_, rfl, rfl⟩
    rw [UConn.store_heap, update_of_ne hne, he]

/-- The stages of `MarshalClientHello` with ECH on a connection that shows the extension `e`: the
hello is made, the pre-shared key moved to the inner one, the types listed, the public name set and
the inner hello sealed. -/
structure EchPskRun (c : UConn) (r : Ref) (e : UtlsPreSharedKeyExtension) (c' : UConn) where
  (inner₀ inner : ClientHelloMsg)
  (ech ctx : EchClientContext)
  (listed : List UInt16)
  n : Nat
  (c₁ c₂ c₃ c₄ : UConn)
  made : makeClientHello d c = .ok (inner₀, some ech) c₁
  moved : innerWithPsk d c₁ e (innerFromOuter c₁ inner₀) c₁ = .ok inner c₁
  lists : extensionsList d ((c₁.atDraw n).store r (.utlsPreSharedKey (e.greased d c₁.draws))) =
    .ok listed c₂
  named : setFirstSNI ech.config.publicName
    (c₂.updConfig fun cfg => { cfg with serverName := ech.config.publicName }) = .ok () c₃
  sealed : computeAndUpdateOuterECHExtensionWithOuterExts d inner { ech with innerHello := some inner }
    true (listed.filter fun t => t ≠ extensionEncryptedClientHello ∧ t ≠ extensionPreSharedKey)
    ((c₃.firstExt Ext.asUtlsPreSharedKey).map Prod.snd) c₃ = .ok ctx c₄
  result : c' = { c₄.updConfig (fun cfg => { cfg with serverName := c₁.config.serverName }) with
    echCtx := some ctx }

lemma UConn.ShowsPsk.atDraw (hs : c.ShowsPsk r e) (k : Nat) : (c.atDraw k).ShowsPsk r e :=
  ⟨hs.prepared.configStep (DrawStep.marshalStep ⟨k, rfl⟩).configStep, hs.owner, hs.ext, hs.offers,
    hs.ready, hs.shared⟩

/-- A connection that shows the extension goes through these stages. -/
lemma exists_echPskRun (hs : c.ShowsPsk r e) (hf : d.echPskFallback = false)
    (h : marshalClientHelloECH d c = .ok u c') : Nonempty (EchPskRun d c r e c') := by
  obtain ⟨⟨c1, c2, c3, c4, ⟨inner0, o⟩, ⟨inner, o'⟩, ech, ctx, hmake, rfl, hmove, hsni, hseal, rfl⟩⟩ :=
    marshalClientHelloECH_run d h
  obtain ⟨k, rfl⟩ := (keeps_makeClientHello d).of_ok hmake
  obtain ⟨n, listed, hinner, hlist, rfl⟩ := moveToInner_psk d (hs.atDraw k) hf hmove
  rw [sealInnerHello, run_get_bind] at hseal
  exact ⟨⟨inner0, inner, ech, ctx, listed, n, _, c2, c3, c4, hmake, hinner, hlist, hsni, hseal, rfl⟩⟩

namespace EchPskRun

variable {d : Deps} {c c' : UConn} {r : Ref} {e : UtlsPreSharedKeyExtension}

variable (run : EchPskRun d c r e c')

include run

/-- Making the hello only uses randomness. -/
lemma drawn : ∃ k, run.c₁ = c.atDraw k :=
  (keeps_makeClientHello d).of_ok run.made

lemma shows1 (hs : c.ShowsPsk r e) : run.c₁.ShowsPsk r e := by
  obtain ⟨k, hk⟩ := run.drawn
  rw [hk]
  exact hs.atDraw k

/-- Listing the types fills caches. -/
lemma echStep2 :
    EchStep ((run.c₁.atDraw run.n).store r (.utlsPreSharedKey (e.greased d run.c₁.draws))) run.c₂ :=
  ((keeps_extensionsList d).of_ok run.lists).echStep

/-- What the stages up to the sealing leave alone. -/
lemma outerStep3 (hs : c.ShowsPsk r e) : OuterStep run.c₁ run.c₃ := by
  have hgrease : OuterStep run.c₁ ((run.c₁.atDraw run.n).store r (.utlsPreSharedKey
      (e.greased d run.c₁.draws))) := outerStep_greasePsk (run.shows1 hs).ext rfl
  exact IsTrans.trans _ _ _ (IsTrans.trans _ _ _ hgrease run.echStep2.outerStep)
    (IsTrans.trans _ _ _ (outerStep_setServerName run.c₂ _) (setFirstSNI_ok run.named))

lemma binderSized3 (hs : c.ShowsPsk r e) : BinderSized run.c₃ run.inner :=
  (run.outerStep3 hs).binderSized (innerWithPsk_ok d run.moved).1

lemma tidy3 (hs : c.ShowsPsk r e) : run.c₃.Tidy :=
  (run.outerStep3 hs).tidy (run.shows1 hs).prepared.tidy

lemma random3 (hs : c.ShowsPsk r e) : run.c₃.hello.random.length = 32 := by
  have hrandom : run.c₃.hello.random = run.c₁.hello.random :=
    congrArg (fun x => x.2.1) (run.outerStep3 hs).header
  rw [hrandom]
  exact (run.shows1 hs).prepared.random

/-- The random extension before and after the sealing. -/
lemma greased3 (hs : c.ShowsPsk r e) : ∃ e3, run.c₃.heap r = .utlsPreSharedKey e3 ∧
      e3.uncached = (e.greased d run.c₁.draws).uncached := by
  have hlt : r < run.c₁.nextRef := (run.shows1 hs).prepared.tidy.extensions r (run.shows1 hs).mem
  obtain ⟨e2, he2, hu2⟩ := (run.echStep2.heap r hlt).psk_right (update_self r _ _)
  exact ⟨e2, (setFirstSNI_psk run.named he2).1, hu2⟩

/-- Sealing fills caches and makes new objects. -/
lemma echStep4 (hs : c.ShowsPsk r e) : EchStep run.c₃ run.c₄ := by
  obtain ⟨i, payload, -, -, hstep, -⟩ := computeOuterECH_ok d run.sealed
    (run.tidy3 hs).extensions (run.tidy3 hs).regularExts (run.random3 hs) (run.binderSized3 hs)
  exact hstep

lemma greased4 (hs : c.ShowsPsk r e) : ∃ e4, run.c₄.heap r = .utlsPreSharedKey e4 ∧
      e4.uncached = (e.greased d run.c₁.draws).uncached := by
  obtain ⟨e3, he3, hu3⟩ := run.greased3 hs
  have hlt : r < run.c₃.nextRef := lt_of_lt_of_le
    ((run.shows1 hs).prepared.tidy.extensions r (run.shows1 hs).mem) (run.outerStep3 hs).next
  obtain ⟨e4, he4, hu4⟩ := ((run.echStep4 hs).heap r hlt).psk_right he3
  exact ⟨e4, he4, hu4.trans hu3⟩

end EchPskRun

/-- The read of the random source that the first random identity comes from. -/
def identityDraw (c : UConn) : Nat :=
  (endState ((do
    applyConfig d
    makeClientHello d) c)).draws

/-- The identities that the next call puts in the place of those shown. -/
def nextIdentities (c : UConn) : List PskIdentity :=
  randomIdentities d (identityDraw d c) c.pskIdentities

/-- A call moves the identities to the inner hello and shows random ones. -/
lemma marshalClientHello_psk
    (hs : c.ShowsPsk r e) (hech : 0 < (c.config.encryptedClientHelloConfigList.getD []).length)
    (hf : d.echPskFallback = false) (h : marshalClientHello d c = .ok u c') :
    (∃ ctx inner, c'.echCtx = some ctx ∧ ctx.innerHello = some inner ∧
      inner.pskIdentities = c.pskIdentities) ∧
    c'.pskIdentities = nextIdentities d c ∧ c'.history = c.history ∧ ∃ e', c'.ShowsPsk r e' := by
  obtain ⟨_, c0, happly, h⟩ := bind_eq_ok.mp h
  have hstep0 := (keeps_applyConfig d).of_ok happly
  obtain ⟨e0, hu0, hs0⟩ := hs.applyConfig d happly
  have hhist0 : c0.history = c.history := hstep0.field UConn.history
  have hlist0 : c0.config.encryptedClientHelloConfigList = c.config.encryptedClientHelloConfigList :=
    congrArg (fun x => x.2.2.2.2) hhist0
  rw [run_get_bind, if_pos (by rwa [hlist0])] at h
  obtain ⟨run⟩ := exists_echPskRun d hs0 hf h
  have hs1 := run.shows1 hs0
  have hdraw : identityDraw d c = run.c₁.draws := by
    have hrun : (do applyConfig d; makeClientHello d : M _) c = .ok (run.inner₀, some run.ech) run.c₁ :=
      bind_eq_ok.mpr ⟨_, c0, happly, run.made⟩
    rw [identityDraw, hrun]
    rfl
  have hids0 : e0.identities = c.pskIdentities := by
    rw [hs.pskIdentities_eq]
    exact field_of_uncached hu0 identities
  obtain ⟨e4, he4, hu4⟩ := run.greased4 hs0
  have hstep4 := run.echStep4 hs0
  obtain ⟨e2, he2, -⟩ := (run.echStep2.heap r (hs1.prepared.tidy.extensions r hs1.mem)).psk_right
    (update_self r _ _)
  obtain ⟨-, hshared3, hhist3⟩ := setFirstSNI_psk run.named he2
  have hshared4 : run.c₄.helloPskIdentities = .ofExt r := by
    rw [hstep4.field UConn.helloPskIdentities, hshared3, ← hs1.shared]
    exact run.echStep2.field UConn.helloPskIdentities
  have hhist4 : run.c₄.history = c.history := by
    obtain ⟨k, hk⟩ := run.drawn
    have hhist1 : run.c₁.history = c0.history := by
      rw [hk]
      rfl
    rw [hstep4.field UConn.history, hhist3, ← hhist0, ← hhist1]
    exact run.echStep2.field UConn.history
  have hoffers : e4.offersPsk = true := by
    rw [field_of_uncached hu4 offersPsk, e0.offersPsk_greased, hs0.offers]
  have hready : e4.Ready := by
    have heq : e4.Ready = (e0.greased d run.c₁.draws).Ready :=
      field_of_uncached hu4 Ready
    rw [heq]
    exact hs0.ready.greased d hs0.offers _
  obtain ⟨_, hctx, -, binders, original, rfl⟩ := computeOuterECH_inner d run.sealed
  rw [run.result]
  refine ⟨⟨run.ctx, _, rfl, hctx, ?_⟩, ?_, hhist4, ?_⟩
  · rw [← hids0]
    have hids : run.inner.pskIdentities = _ := innerWithPsk_identities d run.moved
    exact hids
  · have hshows : run.c₄.pskIdentities = e4.identities := by
      rw [UConn.pskIdentities, hshared4]
      simp only [he4]
    change run.c₄.pskIdentities = _
    rw [hshows, field_of_uncached hu4 identities, nextIdentities, hdraw, ← hids0]
    rfl
  · have houter : OuterStep run.c₁ { run.c₄.updConfig (fun cfg =>
        { cfg with serverName := run.c₁.config.serverName }) with echCtx := some run.ctx } :=
      IsTrans.trans _ _ _ (IsTrans.trans _ _ _ (run.outerStep3 hs0) hstep4.outerStep)
        ⟨rfl, le_rfl, rfl, rfl, rfl, rfl, fun _ _ => rfl, fun _ _ => rfl, fun _ _ h => h, id⟩
    have howner := houter.controller ▸ hs1.owner
    refine ⟨e4, houter.prepared hs1.prepared fun r' e' hr' he' => ?_, howner, he4, hoffers, hready,
      hshared4⟩
    cases howner.symm.trans hr'
    cases he4.symm.trans he'
    exact hready

/-! ## A loaded session -/

/-- The session `s`, loaded by the connection `c₀`, has been handed to the extension `e`, and the
connection has its secrets. -/
structure UConn.OffersSession (c c₀ : UConn) (s : SessionState) (r : Ref)
    (e : UtlsPreSharedKeyExtension) (suite : CipherSuiteTLS13) : Prop where
  shows : c.ShowsPsk r e
  suite_eq : cipherSuiteTLS13ByID s.cipherSuite = some suite
  identities : e.identities = [sessionIdentity c₀ s]
  binders : e.binders = [List.replicate suite.hash.size 0]
  cipherSuite : c.pskCipherSuite = some suite
  binderKey : c.pskBinderKey =
    d.resumptionBinderKey suite.hash (d.earlySecret suite.hash s.secret)
  key_ne : c.pskBinderKey.length ≠ 0

/-- What is loaded with a session of TLS 1.3. -/
lemma loadedSession_tls13 (c : UConn) {suite : CipherSuiteTLS13}
    (hv : s.version = VersionTLS13) (hsuite : cipherSuiteTLS13ByID s.cipherSuite = some suite) :
    loadedSession d c s =
      { session := s
        earlySecret := d.earlySecret suite.hash s.secret
        binderKey := d.resumptionBinderKey suite.hash (d.earlySecret suite.hash s.secret)
        sessionTicket := none
        pskIdentities := [sessionIdentity c s] } := by
  rw [loadedSession, if_pos hv, hsuite]
  rfl

/-- An extension that has been given a session of TLS 1.3. -/
structure UtlsPreSharedKeyExtension.Holds (e : UtlsPreSharedKeyExtension) (c : UConn) (s : SessionState)
    (suite : CipherSuiteTLS13) : Prop where
  identities : e.identities = [sessionIdentity c s]
  binders : e.binders = [List.replicate suite.hash.size 0]
  cipherSuite : e.cipherSuite = some suite
  binderKey : e.binderKey = d.resumptionBinderKey suite.hash (d.earlySecret suite.hash s.secret)

lemma holds_initializedPsk (e : UtlsPreSharedKeyExtension) (c : UConn) {suite : CipherSuiteTLS13}
    (hv : s.version = VersionTLS13) (hsuite : cipherSuiteTLS13ByID s.cipherSuite = some suite) :
    (initializedPsk e (loadedSession d c s).session (loadedSession d c s).earlySecret
      (loadedSession d c s).binderKey (loadedSession d c s).pskIdentities).Holds d c s suite := by
  have hl := loadedSession_tls13 d c hv hsuite
  refine ⟨congrArg LoadedSession.pskIdentities hl, ?_, ?_, congrArg LoadedSession.binderKey hl⟩
  · rw [hl]
    simp only [initializedPsk, hsuite]
    rfl
  · rw [hl]
    exact hsuite

/-- An accepted session of TLS 1.3 is offered under its identity. -/
lemma UConn.Prepared.offersSession (hp : (c.afterLoad.offerPsk r e (loadedSession d c s)).Prepared)
    (hj : judgeSession d c = .accept s) (hv : s.version = VersionTLS13)
    (hr : c.sessionController.pskExtension = some r) :
    ∃ e' suite, (c.afterLoad.offerPsk r e (loadedSession d c s)).OffersSession d c s r e' suite := by
  obtain ⟨-, -, hsuite⟩ := judgeSession_accept d hj
  obtain ⟨suite, hsuite⟩ := isSome_iff_exists.mp (hsuite.mpr hv)
  have hl := loadedSession_tls13 d c hv hsuite
  obtain ⟨hids, hbinders, -, -⟩ := holds_initializedPsk d e c hv hsuite
  set l := loadedSession d c s
  set e' := initializedPsk e l.session l.earlySecret l.binderKey l.pskIdentities
  have hext : (c.afterLoad.offerPsk r e l).heap r = .utlsPreSharedKey e' :=
    update_self r _ c.heap
  have hready := hp.ready rfl r e' hr hext
  have hoffers : e'.offersPsk = true := hready.2.resolve_left (by rw [hids]; simp)
  have hkey : e'.binderKey.length > 0 := by
    simp only [offersPsk, Bool.and_eq_true, decide_eq_true_eq] at hoffers
    exact hoffers.1.2
  refine ⟨e', suite, ⟨hp, hr, hext, hoffers, hready, rfl⟩, hsuite, hids, hbinders, ?_,
    congrArg LoadedSession.binderKey hl, ?_⟩
  · change cipherSuiteTLS13ByID l.session.cipherSuite = some suite
    rw [hl]
    exact hsuite
  · change e'.binderKey.length ≠ 0
    omega

lemma UConn.session_offerPsk (c : UConn) (r : Ref) (e : UtlsPreSharedKeyExtension)
    (l : LoadedSession) : (c.offerPsk r e l).session = some l.session := by
  have hheap : Function.update c.heap r (.utlsPreSharedKey
      (initializedPsk e l.session l.earlySecret l.binderKey l.pskIdentities)) r = .utlsPreSharedKey
      (initializedPsk e l.session l.earlySecret l.binderKey l.pskIdentities) :=
    update_self r _ c.heap
  change (Function.update c.heap r (.utlsPreSharedKey
    (initializedPsk e l.session l.earlySecret l.binderKey l.pskIdentities))
    r).preSharedKeyCommon.session = _
  rw [hheap]
  rfl

/-- A session of TLS 1.3 that has been loaded is offered. -/
lemma offersSession_of_uLoadSession (hp : c.Prepared)
    (hn : c.sessionController.state = .noSession) (h : uLoadSession d c = .ok u c')
    (hset : c'.sessionController.state = .pskExtAllSet) (hs : c'.session = some s)
    (hv : s.version = VersionTLS13) : ∃ r e suite, c'.OffersSession d c s r e suite := by
  have hl := uLoadSession_cases d h
  have hp' := hp.loaded hl
  cases hl with
  | unchanged =>
    rw [hn] at hset
    cases hset
  | ticketGiven _ hst => exact absurd hst hp.settled.1
  | pskGiven _ hst => exact absurd hst hp.settled.2
  | nothing _ =>
    have hset : c.sessionController.state = .pskExtAllSet := hset
    rw [hn] at hset
    cases hset
  | expired _ =>
    have hset : c.sessionController.state = .pskExtAllSet := hset
    rw [hn] at hset
    cases hset
  | @offered s' _ _ hj ho =>
    cases ho with
    | ticket _ _ _ _ => cases hset
    | skipped _ _ =>
      have hset : c.sessionController.state = .pskExtAllSet := hset
      rw [hn] at hset
      cases hset
    | @psk r e _ hr _ _ _ =>
      have hss : s' = s := by
        rw [UConn.session_offerPsk, session_loadedSession] at hs
        exact some.inj hs
      subst hss
      obtain ⟨e', suite, hoffers⟩ := hp'.offersSession d hj hv hr
      exact ⟨r, e', suite, hoffers⟩

/-- A session of TLS 1.3 that is accepted is handed to the extension for it. -/
lemma uLoadSession_accept (hidle : c.Idle) (hr : c.sessionController.pskExtension = some r)
    (hon : c.config.sessionsOff = false) (hj : judgeSession d c = .accept s)
    (hv : s.version = VersionTLS13) (h : uLoadSession d c = .ok u c') :
    ∃ e, c' = c.afterLoad.offerPsk r e (loadedSession d c s) := by
  have hshould : c.sessionController.shouldLoadSession = .shouldLoad := by
    simp [SessionController.shouldLoadSession, hr, hidle.noSession, hidle.neverCalled]
  rw [uLoadSession, run_get_bind, if_neg (by simp [hon]), hshould] at h
  have h : loadAndOffer d c = .ok u c' := h
  obtain ⟨hs, hl, hversions⟩ := loadAndOffer_eq_ok d hon h
  rw [loadAndOffer_eq d hs hl hon hversions, hj] at h
  have hsession : (loadedSession d c s).session = s := session_loadedSession d c s
  cases offerSession_cases h with
  | ticket hv' _ _ _ =>
    rw [hsession, hv] at hv'
    exact absurd hv' (by decide)
  | skipped _ hnone =>
    have hnone : c.sessionController.pskExtension = none := hnone
    rw [hr] at hnone
    cases hnone
  | @psk r' e _ hr' _ _ _ =>
    have hr' : c.sessionController.pskExtension = some r' := hr'
    cases hr.symm.trans hr'
    exact ⟨e, rfl⟩

/-- A session of TLS 1.3 that is accepted is offered, if there is an extension to offer it. -/
lemma offersSession_of_accept (hp : c.Prepared) (hidle : c.Idle)
    (hr : c.sessionController.pskExtension = some r) (hon : c.config.sessionsOff = false)
    (hj : judgeSession d c = .accept s) (hv : s.version = VersionTLS13)
    (h : uLoadSession d c = .ok u c') : ∃ e suite, c'.OffersSession d c s r e suite := by
  have hp' := hp.loaded (uLoadSession_cases d h)
  obtain ⟨e, rfl⟩ := uLoadSession_accept d hidle hr hon hj hv h
  exact hp'.offersSession d hj hv hr

/-! ## Any number of calls -/

/-- `n` calls of `MarshalClientHello` in a row. -/
def marshalTimes : Nat → M Unit
  | 0 => pure ()
  | n + 1 => do
    marshalTimes n
    marshalClientHello d

/-- The inner hello of the last call offers the ticket. -/
def UConn.InnerOffers (c : UConn) (ticket : Bytes) : Prop :=
  ∃ ctx inner, c.echCtx = some ctx ∧ ctx.innerHello = some inner ∧
    inner.pskIdentities.map (·.label) = [ticket]

/-- Every call finds the identities in the same extension. -/
lemma marshalTimes_shows {k : Nat} {a : UConn} (hs : ∃ e, c.ShowsPsk r e)
    (hech : 0 < (c.config.encryptedClientHelloConfigList.getD []).length)
    (hf : d.echPskFallback = false) (h : marshalTimes d k c = .ok () a) :
    (∃ e, a.ShowsPsk r e) ∧ 0 < (a.config.encryptedClientHelloConfigList.getD []).length := by
  induction k generalizing a with
  | zero =>
    cases h
    exact ⟨hs, hech⟩
  | succ k ih =>
    obtain ⟨_, c1, h1, h⟩ := bind_eq_ok.mp h
    obtain ⟨⟨e1, hs1⟩, hech1⟩ := ih h1
    obtain ⟨-, -, hhist, hs'⟩ := marshalClientHello_psk d hs1 hech1 hf h
    have hlist : a.config.encryptedClientHelloConfigList = c1.config.encryptedClientHelloConfigList :=
      congrArg (fun x => x.2.2.2.2) hhist
    exact ⟨hs', hlist ▸ hech1⟩

/-- If all calls return, so do the first ones. -/
lemma marshalTimes_returns {n k : Nat} (hk : k ≤ n) (h : marshalTimes d n c = .ok () c') :
    ∃ a, marshalTimes d k c = .ok () a := by
  induction n generalizing c' with
  | zero =>
    obtain rfl : k = 0 := by omega
    exact ⟨c', h⟩
  | succ n ih =>
    rcases Nat.lt_or_ge n k with hlt | hle
    · obtain rfl : k = n + 1 := by omega
      exact ⟨c', h⟩
    · obtain ⟨_, c1, h1, -⟩ := bind_eq_ok.mp h
      exact ih hle h1

/-- The connection after `k + 1` calls comes from the one after `k`. -/
lemma marshalTimes_succ {k : Nat} {a b : UConn} (ha : marshalTimes d k c = .ok () a)
    (hb : marshalTimes d (k + 1) c = .ok () b) : marshalClientHello d a = .ok () b := by
  obtain ⟨_, a', ha', hb⟩ := bind_eq_ok.mp hb
  cases ha.symm.trans ha'
  exact hb

/-- What every call keeps holds after all of them. -/
lemma marshalTimes_induction {P : UConn → Prop} {n : Nat} (h0 : P c)
    (hstep : ∀ k < n, ∀ a b, marshalTimes d k c = .ok () a → marshalTimes d (k + 1) c = .ok () b →
      P a → P b) {k : Nat} (hk : k ≤ n) {a : UConn} (ha : marshalTimes d k c = .ok () a) : P a := by
  induction k generalizing a with
  | zero =>
    cases ha
    exact h0
  | succ k ih =>
    obtain ⟨_, a', ha', -⟩ := bind_eq_ok.mp ha
    exact hstep k hk a' a ha' ha (ih (Nat.le_of_succ_le hk) ha')

/-- A call moves the identities that are shown to the inner hello, and shows those that the random
source returns for them. -/
lemma UConn.OffersSession.call {c₀ : UConn} {suite : CipherSuiteTLS13}
    (ho : c.OffersSession d c₀ s r e suite)
    (hech : 0 < (c.config.encryptedClientHelloConfigList.getD []).length)
    (hf : d.echPskFallback = false) {k : Nat} {a b : UConn} (ha : marshalTimes d k c = .ok () a)
    (hb : marshalTimes d (k + 1) c = .ok () b) :
    (b.InnerOffers (s.ticket.getD []) ↔ a.pskIdentities.map (·.label) = [s.ticket.getD []]) ∧
      b.pskIdentities = nextIdentities d a := by
  obtain ⟨⟨ea, hsa⟩, hecha⟩ := marshalTimes_shows d ⟨e, ho.shows⟩ hech hf ha
  obtain ⟨⟨ctx, inner, hctx, hinner, hids⟩, hnext, -, -⟩ :=
    marshalClientHello_psk d hsa hecha hf (marshalTimes_succ d ha hb)
  refine ⟨⟨?_, fun h => ⟨ctx, inner, hctx, hinner, by rw [hids, h]⟩⟩, hnext⟩
  rintro ⟨ctx', inner', hctx', hinner', h⟩
  cases hctx.symm.trans hctx'
  cases hinner.symm.trans hinner'
  rw [← hids, h]

/-- From its `k`-th read on the random source returns the identity. -/
def Deps.Returns (k : Nat) (i : PskIdentity) : Prop :=
  d.randAt k i.label.length = i.label ∧
    UInt32.ofNat (beNat (d.randAt (k + 1) 4)) = i.obfuscatedTicketAge

lemma randomIdentities_singleton {k : Nat} {i : PskIdentity} :
    randomIdentities d k [i] = [i] ↔ d.Returns k i := by
  rw [randomIdentities, randomIdentities, List.cons.injEq, PskIdentity.mk.injEq, Deps.Returns]
  exact and_iff_left rfl

/-- After a session of TLS 1.3 has been loaded, the first call offers its ticket.  In a run of calls
each one offers it and keeps `Hello.PskIdentities` exactly if the random source returns the identity of
the session for each of them.  With a source that never returns the ticket the first call changes
`Hello.PskIdentities` and no later one offers the ticket. -/
theorem identities_kept_iff {n : Nat} {c₀ c c' : UConn} {s : SessionState} (hp : c₀.Prepared)
    (hn : c₀.sessionController.state = .noSession)
    (hech : 0 < (c₀.config.encryptedClientHelloConfigList.getD []).length)
    (hf : d.echPskFallback = false) (hload : uLoadSession d c₀ = .ok () c)
    (hset : c.sessionController.state = .pskExtAllSet) (hs : c.session = some s)
    (hv : s.version = VersionTLS13) (h : marshalTimes d n c = .ok () c') :
    (∀ b, marshalTimes d 1 c = .ok () b → b.InnerOffers (s.ticket.getD [])) ∧
    ((∀ k < n, ∀ a b, marshalTimes d k c = .ok () a → marshalTimes d (k + 1) c = .ok () b →
        b.InnerOffers (s.ticket.getD []) ∧ b.pskIdentities = a.pskIdentities) ↔
      ∀ k < n, ∀ a, marshalTimes d k c = .ok () a →
        d.Returns (identityDraw d a) (sessionIdentity c₀ s)) ∧
    ((∀ k, d.randAt k (s.ticket.getD []).length ≠ s.ticket.getD []) →
      ∀ k < n, ∀ a b, marshalTimes d k c = .ok () a → marshalTimes d (k + 1) c = .ok () b →
        (b.InnerOffers (s.ticket.getD []) ↔ k = 0) ∧ (k = 0 → b.pskIdentities ≠ a.pskIdentities)) := by
  obtain ⟨r, e, suite, hoffers⟩ := offersSession_of_uLoadSession d hp hn hload hset hs hv
  have hids : c.pskIdentities = [sessionIdentity c₀ s] := by
    rw [hoffers.shows.pskIdentities_eq, hoffers.identities]
  have hlist : c.config.encryptedClientHelloConfigList = c₀.config.encryptedClientHelloConfigList :=
    congrArg (fun x => x.2.2.2.2) (uLoadSession_cases d hload).sessionStep.history
  have hcall {k : Nat} {a b : UConn} := hoffers.call d (hlist ▸ hech) hf (k := k) (a := a) (b := b)
  -- a call that finds the identity of the session
  have hfound {a : UConn} (ha : a.pskIdentities = [sessionIdentity c₀ s]) :
      nextIdentities d a = a.pskIdentities ↔
        d.Returns (identityDraw d a) (sessionIdentity c₀ s) := by
    rw [nextIdentities, ha, randomIdentities_singleton]
  refine ⟨fun b hb => ?_, ⟨fun hkept k hk a ha => ?_, fun hreturns k hk a b ha hb => ?_⟩,
    fun hnever k hk a b ha hb => ?_⟩
  · refine (hcall rfl hb).1.mpr ?_
    rw [hids]
    rfl
  · have hsame := marshalTimes_induction d (P := fun x => x.pskIdentities = [sessionIdentity c₀ s]) hids
      (fun j hj x y hx hy hxs => (hkept j hj x y hx hy).2.trans hxs) hk.le ha
    obtain ⟨b, hb⟩ := marshalTimes_returns d hk h
    rw [← hfound hsame, ← (hcall ha hb).2]
    exact (hkept k hk a b ha hb).2
  · have hsame := marshalTimes_induction d (P := fun x => x.pskIdentities = [sessionIdentity c₀ s]) hids
      (fun j hj x y hx hy hxs => (hcall hx hy).2.trans (((hfound hxs).mpr (hreturns j hj x hx)).trans hxs))
      hk.le ha
    refine ⟨(hcall ha hb).1.mpr ?_, (hcall ha hb).2.trans ((hfound hsame).mpr (hreturns k hk a ha))⟩
    rw [hsame]
    rfl
  · -- the labels keep their length
    have hlen {j : Nat} {x : UConn} (hj : j ≤ n) (hx : marshalTimes d j c = .ok () x) :
        x.pskIdentities.map (·.label.length) = [(s.ticket.getD []).length] := by
      refine marshalTimes_induction d (P := fun x => x.pskIdentities.map (·.label.length) = _) ?_
        (fun j hj x y hx hy hxs => ?_) hj hx
      · rw [hids]
        rfl
      · rw [(hcall hx hy).2, nextIdentities, map_length_randomIdentities, hxs]
    have hrandom {j : Nat} {x y : UConn} (hj : j < n) (hx : marshalTimes d j c = .ok () x)
        (hy : marshalTimes d (j + 1) c = .ok () y) :
        y.pskIdentities.map (·.label) ≠ [s.ticket.getD []] := by
      obtain ⟨i, hi, hilen⟩ := map_eq_singleton_iff.mp (hlen hj.le hx)
      rw [(hcall hx hy).2, nextIdentities, hi, randomIdentities, map_cons, hilen]
      exact fun heq => hnever _ (List.cons.inj heq).1
    cases k with
    | zero =>
      refine ⟨iff_of_true ((hcall ha hb).1.mpr ?_) rfl, fun _ heq => hrandom hk ha hb ?_⟩
      · cases ha
        rw [hids]
        rfl
      · cases ha
        rw [heq, hids]
        rfl
    | succ k =>
      obtain ⟨_, x, hx, -⟩ := bind_eq_ok.mp ha
      refine ⟨iff_of_false (fun h => ?_) (Nat.succ_ne_zero k), fun h => absurd h (Nat.succ_ne_zero k)⟩
      exact hrandom (Nat.lt_of_succ_lt hk) hx ha ((hcall ha hb).1.mp h)

end Deps

/-! ## A client with ECH and a session -/

/-- A session of TLS 1.3 with the ticket `77`. -/
def sampleSession : SessionState where
  ident := 0
  version := VersionTLS13
  cipherSuite := 0x1301
  secret := [1]
  ticket := some [7, 7]
  createdAt := 0
  useBy := 10
  ageAdd := 0x07070707
  peerCertNotAfter := 10
  hasVerifiedChains := true

/-- The extensions of the specification with a placeholder of ECH, and a pre-shared key extension.
-/
def pskSpecExts (r : Ref) : Ext :=
  if r = 3 then .utlsPreSharedKey
    { identities := []
      binders := []
      binderKey := []
      earlySecret := []
      session := none
      cipherSuite := none
      cachedLength := none
      omitEmptyPsk := false
      skipBinderPatching := false }
  else echSpecExts r

lemma regular_pskSpecExts (r : Ref) : (pskSpecExts r).Regular := by
  unfold pskSpecExts
  split_ifs
  · trivial
  · exact regular_echSpecExts r

def pskSpec : ClientHelloSpec := { echSpec with extensions := [0, 1, 2, 3] }

/-- A client with ECH that has a session in its cache. -/
def pskClient (d : Deps) : UConn :=
  endState (applyPreset d pskSpec (uClient pskSpecExts 4
    { serverName := [0x61]
      encryptedClientHelloConfigList := some sampleEchConfigList
      clientSessionCache := some fun _ => some sampleSession
      omitEmptyPsk := true } {} .custom))

/-- An environment whose random source always returns the same byte. -/
def Deps.sevens : Deps :=
  { Deps.sample with
    rand := fun _ n => some (List.replicate n 7)
    rand_length := fun k n b h => by
      cases h
      exact List.length_replicate }

lemma prepared_pskClient_sevens : (pskClient .sevens).Prepared := by
  have hfresh : Fresh .sevens (pskClient .sevens) := by
    refine Fresh.custom _ 4 _ _ pskSpec ?_ ?_ (eq_ok_of_returns (by decide +kernel))
    · exact fun r _ => regular_pskSpecExts r
    · simp [pskSpec]
  exact hfresh.sound.prepared fun _ => rfl

/-- Two calls with a random source that returns the very identity. -/
theorem identities_kept_by_chance :
    ∃ c c', uLoadSession .sevens (pskClient .sevens) = .ok () c ∧
      marshalTimes .sevens 2 c = .ok () c' ∧
      ∀ k < 2, ∀ a b, marshalTimes .sevens k c = .ok () a → marshalTimes .sevens (k + 1) c = .ok () b →
        b.InnerOffers [7, 7] ∧ b.pskIdentities = a.pskIdentities := by
  have hload := eq_ok_of_returns
    (show returns (uLoadSession .sevens (pskClient .sevens)) = true by decide +kernel)
  have hrun := eq_ok_of_returns (show returns (marshalTimes .sevens 2
    (endState (uLoadSession .sevens (pskClient .sevens)))) = true by decide +kernel)
  have hsession : (endState (uLoadSession .sevens (pskClient .sevens))).session =
    some sampleSession := by decide +kernel
  have hage : UInt32.ofNat (beNat [7, 7, 7, 7]) =
      (sessionIdentity (pskClient .sevens) sampleSession).obfuscatedTicketAge := by decide +kernel
  exact ⟨_, _, hload, hrun, (identities_kept_iff .sevens prepared_pskClient_sevens (by decide +kernel)
    (by decide +kernel) rfl hload (by decide +kernel) hsession rfl hrun).2.1.mpr
      fun _ _ _ _ => ⟨rfl, hage⟩⟩

/-- The first call changes `Hello.PskIdentities`, and the inner hello of the second call offers
random bytes. -/
theorem identities_lost :
    ∃ c c₁ c₂, uLoadSession .sample (pskClient .sample) = .ok () c ∧ c.session = some sampleSession ∧
      c.sessionController.state = .pskExtAllSet ∧
      marshalTimes .sample 1 c = .ok () c₁ ∧ c₁.pskIdentities ≠ c.pskIdentities ∧
      marshalTimes .sample 2 c = .ok () c₂ ∧ ¬c₂.InnerOffers [7, 7] := by
  have hload := eq_ok_of_returns
    (show returns (uLoadSession .sample (pskClient .sample)) = true by decide +kernel)
  set c := endState (uLoadSession .sample (pskClient .sample))
  have h1 := eq_ok_of_returns (show returns (marshalTimes .sample 1 c) = true by decide +kernel)
  have h2 := eq_ok_of_returns (show returns (marshalTimes .sample 2 c) = true by decide +kernel)
  refine ⟨c, _, _, hload, by decide +kernel, by decide +kernel, h1, by decide +kernel, h2, ?_⟩
  rintro ⟨ctx, inner, hctx, hinner, hlabel⟩
  have hother : ((endState (marshalTimes .sample 2 c)).echCtx.bind EchClientContext.innerHello).map
      (fun inner => inner.pskIdentities.map (·.label)) ≠ some [[7, 7]] := by decide +kernel
  rw [hctx, bind_some, hinner, map_some, hlabel] at hother
  exact hother rfl

end Utls
