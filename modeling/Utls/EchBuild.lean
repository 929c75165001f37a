import Utls.EchSeal

/-!
# Building a hello with ECH

`marshalClientHelloECH` moves the server name and the pre-shared key to an inner hello and seals it.
A first build then leaves a hello whose ECH extension is the sealed one (`first_build_seals`): the
binders of the outer hello, which would change the additional data, are not patched, since the
pre-shared key of the outer hello is a random one.
-/

namespace Utls

open Wire Exec List Function

variable {inner : ClientHelloMsg} {u : Unit} {r : Ref} {ctx ech : EchClientContext}
  {e : UtlsPreSharedKeyExtension} {o : ClientHelloMsg × Option (List UInt16)}

section Deps

variable (d : Deps)

variable {c c' : UConn}

/-! ## The inner hello -/

/-- The inner hello starts without pre-shared keys, and the context without messages. -/
def StartsEmpty (made : ClientHelloMsg × Option EchClientContext) : Prop :=
  made.1.pskIdentities = [] ∧ ∀ ctx, made.2 = some ctx → ctx.hpkeContext.seqNum = 0

lemma yields_makeClientHello : Yields StartsEmpty (makeClientHello d) := by
  intro c made c' h
  obtain ⟨-, random, sessionId, shares, params, -, rfl | ⟨ctx, -, hseq, rfl⟩⟩ :=
    makeClientHello_ok d h
  · exact ⟨rfl, fun ctx h => by cases h⟩
  · refine ⟨rfl, fun ctx' h' => ?_⟩
    cases h'
    exact hseq

lemma keeps_readAllExts (rs : List Ref) : Keeps MarshalStep (readAllExts d rs) := by
  induction rs with
  | nil => exact .pure _
  | cons r rs ih => exact (keeps_extLen d r).bind fun _ => ih

lemma keeps_extensionsList : Keeps MarshalStep (extensionsList d) :=
  Keeps.get.bind fun _ => (keeps_readAllExts d _).bind fun _ => Keeps.get.bind fun _ => .pure _

lemma keeps_randOrZero (n : Nat) : Keeps DrawStep (randOrZero d n) :=
  (keeps_tryRand d n).bind fun _ => .pure _

lemma keeps_greaseIdentities (l : List PskIdentity) : Keeps DrawStep (greaseIdentities d l) := by
  induction l with
  | nil => exact .pure _
  | cons i is ih =>
    exact (keeps_randOrZero d _).bind fun _ => (keeps_randOrZero d _).bind fun _ =>
      ih.bind fun _ => .pure _

lemma keeps_greaseBinders (l : List Bytes) : Keeps DrawStep (greaseBinders d l) := by
  induction l with
  | nil => exact .pure _
  | cons i is ih => exact (keeps_randOrZero d _).bind fun _ => ih.bind fun _ => .pure _

/-- What `moveToInner` does when it returns. -/
inductive Moved (c : UConn) (inner : ClientHelloMsg) :
    ClientHelloMsg × Option (List UInt16) → UConn → Prop where
  /-- There is no pre-shared key to move. -/
  | nothing (h : ∀ x, c.firstExt Ext.asUtlsPreSharedKey = some x → x.2.offersPsk = false) :
      Moved c inner (inner, none) c
  /-- In the fallback mode it stays in the outer hello. -/
  | fallback {outerExts : List UInt16} {c' : UConn} (hf : d.echPskFallback = true)
      (hs : MarshalStep c c') : Moved c inner (inner, some outerExts) c'
  /-- The inner hello gets it, and the outer one a random one. -/
  | moved {r : Ref} {e e' : UtlsPreSharedKeyExtension} {inner' : ClientHelloMsg}
      {outerExts : List UInt16} {n : Nat} {c' : UConn}
      (hr : c.firstExt Ext.asUtlsPreSharedKey = some (r, e)) (hb : BinderSized c inner')
      (he : e'.skipBinderPatching = true)
      (hs : MarshalStep ((c.atDraw n).store r (.utlsPreSharedKey e')) c') :
      Moved c inner (inner', some outerExts) c'

lemma innerWithPsk_ok {c1 c2 : UConn} {inner' : ClientHelloMsg}
    (h : innerWithPsk d c e inner c1 = .ok inner' c2) : BinderSized c inner' ∧ c1 = c2 := by
  unfold innerWithPsk at h
  cases hs : c.pskCipherSuite with
  | none =>
    simp only [hs] at h
    cases h
    refine ⟨fun suite hsuite => ?_, rfl⟩
    rw [hs] at hsuite
    cases hsuite
  | some suite =>
    simp only [hs] at h
    split_ifs at h with hk
    · cases h
      exact ⟨fun _ _ hk' => absurd hk hk', rfl⟩
    · obtain ⟨bytes, -, h⟩ := ofOption_bind_eq_ok.mp h
      rw [assert_bind_eq_ok] at h
      obtain ⟨hne, h⟩ := h
      cases h
      refine ⟨fun suite' hsuite' _ _ => ?_, rfl⟩
      rw [hs] at hsuite'
      cases hsuite'
      obtain ⟨b, bs, hbs⟩ := exists_cons_of_ne_nil hne
      refine ⟨pskBinder d suite c.pskBinderKey bytes, bs, ?_, length_pskBinder d _ _ _⟩
      rw [hbs, set_cons_zero]

lemma moveToInner_ok (h : moveToInner d inner c = .ok o c'): Moved d c inner o c' := by
  rw [moveToInner, run_get_bind] at h
  cases hx : c.firstExt Ext.asUtlsPreSharedKey with
  | none =>
    rw [hx] at h
    cases h
    exact .nothing fun x hx' => by rw [hx] at hx'; cases hx'
  | some x =>
    obtain ⟨r, e⟩ := x
    rw [hx] at h
    simp only at h
    by_cases ho : e.offersPsk = false
    · rw [if_pos ho] at h
      cases h
      refine .nothing fun x hx' => ?_
      rw [hx] at hx'
      cases hx'
      exact ho
    rw [if_neg ho] at h
    by_cases hf : d.echPskFallback = true
    · rw [if_pos hf] at h
      obtain ⟨l, c1, h1, h⟩ := bind_eq_ok.mp h
      cases h
      exact .fallback hf ((keeps_extensionsList d).of_ok h1)
    · rw [if_neg hf] at h
      obtain ⟨inner', c1, h1, h⟩ := bind_eq_ok.mp h
      obtain ⟨hb, rfl⟩ := innerWithPsk_ok d h1
      obtain ⟨_, c2, h2, h⟩ := bind_eq_ok.mp h
      obtain ⟨l, c3, h3, h⟩ := bind_eq_ok.mp h
      cases h
      -- the random values change nothing but the position in the random stream
      obtain ⟨ids, c4, hi, h2⟩ := bind_eq_ok.mp h2
      obtain ⟨binders, c5, hbs, h2⟩ := bind_eq_ok.mp h2
      cases h2
      obtain ⟨n, rfl⟩ := (keeps_greaseIdentities d _).of_ok hi
      obtain ⟨n', rfl⟩ := (keeps_greaseBinders d _).of_ok hbs
      exact .moved hx hb rfl ((keeps_extensionsList d).of_ok h3)

/-! ## What marshalling with ECH touches -/

/-- The binders of the extension at `r` are not patched. -/
def UConn.NoPatchAt (c : UConn) (r : Ref) : Prop :=
  ∀ e, c.heap r = .utlsPreSharedKey e → e.skipBinderPatching = true ∨ ∀ b, e.binders ≠ [b]

/-- What every part of `marshalClientHelloECH` does. -/
structure OuterStep (c c' : UConn) : Prop where
  extensions : c'.extensions = c.extensions
  next : c.nextRef ≤ c'.nextRef
  header : c'.hello.header = c.hello.header
  controller : c'.sessionController = c.sessionController
  keys : (c'.pskCipherSuite, c'.pskBinderKey) = (c.pskCipherSuite, c.pskBinderKey)
  spec : c'.clientHelloSpec = c.clientHelloSpec
  kind : ∀ r < c.nextRef, (c'.heap r).sessionKind = (c.heap r).sessionKind
  grease : ∀ r < c.nextRef, (c'.heap r).isGreaseECH = (c.heap r).isGreaseECH
  noPatch : ∀ r < c.nextRef, c.NoPatchAt r → c'.NoPatchAt r
  regular : c.RegularHeap → c'.RegularHeap

instance : IsPreorder UConn OuterStep where
  refl _ := ⟨rfl, le_rfl, rfl, rfl, rfl, rfl, fun _ _ => rfl, fun _ _ => rfl, fun _ _ h => h, id⟩
  trans c₁ c₂ _ h h' := by
    have hlt : ∀ r < c₁.nextRef, r < c₂.nextRef := fun r hr => lt_of_lt_of_le hr h.next
    exact ⟨h'.extensions.trans h.extensions, h.next.trans h'.next, h'.header.trans h.header,
      h'.controller.trans h.controller, h'.keys.trans h.keys, h'.spec.trans h.spec,
      fun r hr => (h'.kind r (hlt r hr)).trans (h.kind r hr),
      fun r hr => (h'.grease r (hlt r hr)).trans (h.grease r hr),
      fun r hr hn => h'.noPatch r (hlt r hr) (h.noPatch r hr hn), fun hr => h'.regular (h.regular hr)⟩

namespace OuterStep

variable {c c' : UConn}

lemma tidy (h : OuterStep c c') (ht : c.Tidy) : c'.Tidy := by
  have hlt : ∀ r < c.nextRef, r < c'.nextRef := fun r hr => lt_of_lt_of_le hr h.next
  refine ⟨fun r hr => ?_, fun p hp r hr => ?_, fun r hr => ?_, fun r hr => ?_, h.regular ht.regular⟩
  · exact hlt r (ht.extensions r (h.extensions ▸ hr))
  · exact hlt r (ht.spec p (h.spec ▸ hp) r hr)
  · obtain ⟨hn, hk⟩ := ht.ticket r (h.controller ▸ hr)
    exact ⟨hlt r hn, by rw [← hk]; exact congrArg Prod.fst (h.kind r hn)⟩
  · obtain ⟨hn, hk⟩ := ht.psk r (h.controller ▸ hr)
    exact ⟨hlt r hn, by rw [← hk]; exact congrArg Prod.snd (h.kind r hn)⟩

lemma placeholders (h : OuterStep c c') (ht : c.Tidy) : c'.placeholders = c.placeholders :=
  UConn.placeholders_congr h.extensions fun r hr => h.grease r (ht.extensions r hr)

lemma binderSized (h : OuterStep c c') (hb : BinderSized c inner) : BinderSized c' inner :=
  hb.of_keys h.keys

end OuterStep

/-- Filling caches changes neither the binders nor the decision to patch them. -/
lemma Ext.Refresh.psk_left {x : Ext} (h : x.Refresh (.utlsPreSharedKey e)):
    ∃ e0, x = .utlsPreSharedKey e0 ∧ e0.skipBinderPatching = e.skipBinderPatching ∧
      e0.binders = e.binders := by
  have hs := h.skeleton
  cases x with
  | utlsPreSharedKey e0 =>
    simp only [Ext.skeleton, Ext.utlsPreSharedKey.injEq] at hs
    exact ⟨e0, rfl, (congrArg UtlsPreSharedKeyExtension.skipBinderPatching hs).symm,
      (congrArg UtlsPreSharedKeyExtension.binders hs).symm⟩
  | _ => simp [Ext.skeleton] at hs

lemma EchStep.outerStep (h : EchStep c c') : OuterStep c c' := by
  refine ⟨h.extensions, h.next, h.field fun c => c.hello.header, h.field UConn.sessionController,
    h.field fun c => (c.pskCipherSuite, c.pskBinderKey), h.field UConn.clientHelloSpec,
    fun r hr => ((h.heap r hr).rewrite c).stays.kind,
    fun r hr => ((h.heap r hr).rewrite c).isGreaseECH_eq, fun r hr hn e he => ?_, h.regular⟩
  have hrefresh := h.heap r hr
  rw [he] at hrefresh
  obtain ⟨e0, he0, hskip, hbinders⟩ := hrefresh.psk_left
  rw [← hskip, ← hbinders]
  exact hn e0 he0

lemma outerStep_setServerName (c : UConn) (f : Config → Config) : OuterStep c (c.updConfig f) :=
  ⟨rfl, le_rfl, rfl, rfl, rfl, rfl, fun _ _ => rfl, fun _ _ => rfl, fun _ _ h => h, id⟩

/-- A store that keeps the type of an extension and does not ask for its binders to be patched. -/
lemma outerStep_store {e : Ext}
    (hk : e.sessionKind = (c.heap r).sessionKind) (hg : e.isGreaseECH = (c.heap r).isGreaseECH)
    (hn : ∀ p, e = .utlsPreSharedKey p → p.skipBinderPatching = true) (hx : e.Regular) :
    OuterStep c (c.store r e) := by
  refine ⟨rfl, le_rfl, rfl, rfl, rfl, rfl, fun r' _ => UConn.store_same _ hk r',
    fun r' _ => UConn.store_same _ hg r', fun r' _ h p hp => ?_, fun h => h.store hx⟩
  by_cases hr : r' = r
  · subst hr
    rw [UConn.store_heap, update_self] at hp
    exact .inl (hn p hp)
  · rw [UConn.store_heap, update_of_ne hr] at hp
    exact h p hp

lemma firstExt_eq_some {α : Type} {f : Ext → Option α} {a : α}
    (h : c.firstExt f = some (r, a)) : r ∈ c.extensions ∧ f (c.heap r) = some a := by
  obtain ⟨r', hr', h⟩ := exists_of_findSome?_eq_some h
  obtain ⟨a', ha', h⟩ := Option.map_eq_some_iff.mp h
  cases h
  exact ⟨hr', ha'⟩

lemma Ext.asUtlsPreSharedKey_eq_some {x : Ext}
    (h : x.asUtlsPreSharedKey = some e) : x = .utlsPreSharedKey e := by
  cases x with
  | utlsPreSharedKey e' =>
    cases h
    rfl
  | _ => cases h

/-- The store of the random pre-shared key. -/
lemma outerStep_greasePsk {e' : UtlsPreSharedKeyExtension} {n : Nat}
    (hr : c.heap r = .utlsPreSharedKey e) (he : e'.skipBinderPatching = true) :
    OuterStep c ((c.atDraw n).store r (.utlsPreSharedKey e')) := by
  have hdraw : OuterStep c (c.atDraw n) :=
    ⟨rfl, le_rfl, rfl, rfl, rfl, rfl, fun _ _ => rfl, fun _ _ => rfl, fun _ _ h => h, id⟩
  refine IsTrans.trans _ _ _ hdraw (outerStep_store ?_ ?_ (fun p hp => ?_) trivial)
  · rw [UConn.atDraw_heap, hr]
    rfl
  · rw [UConn.atDraw_heap, hr]
    rfl
  · cases hp
    exact he

lemma Moved.outerStep (h : Moved d c inner o c'): OuterStep c c' := by
  cases h with
  | nothing _ => exact refl c
  | fallback _ hs => exact hs.echStep.outerStep
  | moved hr _ he hs =>
    have hheap := Ext.asUtlsPreSharedKey_eq_some (firstExt_eq_some hr).2
    exact IsTrans.trans _ _ _ (outerStep_greasePsk hheap he) hs.echStep.outerStep

lemma Moved.binderSized (h : Moved d c inner o c')
    (hi : inner.pskIdentities = []) : BinderSized c' o.1 := by
  refine h.outerStep.binderSized ?_
  cases h with
  | nothing _ => exact fun _ _ _ hne => absurd (by rw [hi]; rfl) hne
  | fallback _ _ => exact fun _ _ _ hne => absurd (by rw [hi]; rfl) hne
  | moved _ hb _ _ => exact hb

/-- An extension of a prepared connection that does not offer a session has no binder to patch. -/
lemma UConn.Prepared.noPatch (hp : c.Prepared) (hs : c.sessionController.state = .pskExtAllSet)
    (hr : c.sessionController.pskExtension = some r)
    (hno : ∀ x, c.firstExt Ext.asUtlsPreSharedKey = some x → x.2.offersPsk = false) :
    c.NoPatchAt r := by
  have hmem : r ∈ c.extensions := by
    obtain ⟨pre, hpre, -⟩ := hp.placed r hr
    simp [hpre]
  intro e he
  -- the first pre-shared key extension of the list is that of the controller
  have hoffers : e.offersPsk = false := by
    cases hx : c.firstExt Ext.asUtlsPreSharedKey with
    | none =>
      have hnone := findSome?_eq_none_iff.mp hx r hmem
      rw [he] at hnone
      cases hnone
    | some x =>
      obtain ⟨r', e'⟩ := x
      obtain ⟨hmem', he'⟩ := firstExt_eq_some hx
      have he' := Ext.asUtlsPreSharedKey_eq_some he'
      have hr' := hp.only r' hmem' (by rw [he']; rfl)
      cases hr.symm.trans hr'
      rw [he] at he'
      cases he'
      exact hno _ hx
  obtain ⟨hlen, hoffer⟩ := hp.ready hs r e hr he
  right
  intro b hb
  rw [hoffers] at hoffer
  rw [hoffer.resolve_right (by simp), hb] at hlen
  cases hlen

/-- Unless the fallback mode is on, the pre-shared key of the outer hello is not patched. -/
lemma Moved.noPatch (h : Moved d c inner o c') (hp : c.Prepared)
    (hf : d.echPskFallback = false) (hs : c.sessionController.state = .pskExtAllSet)
    (hr : c.sessionController.pskExtension = some r) : c'.NoPatchAt r := by
  cases h with
  | nothing hno => exact hp.noPatch hs hr hno
  | fallback hfb _ =>
    rw [hf] at hfb
    cases hfb
  | @moved r' e e' _ _ n _ hx _ he hstep =>
    obtain ⟨hmem', he'⟩ := firstExt_eq_some hx
    have he' := Ext.asUtlsPreSharedKey_eq_some he'
    have hr' := hp.only r' hmem' (by rw [he']; rfl)
    cases hr.symm.trans hr'
    refine hstep.echStep.outerStep.noPatch r (hp.tidy.psk r hr).1 fun p hp => ?_
    rw [UConn.store_heap, update_self] at hp
    cases hp
    exact .inl he

/-- The name is stored in an extension that has one, or nothing happens. -/
lemma setFirstSNI_cases {name : GoString} (h : setFirstSNI name c = .ok u c'):
    c' = c ∨ ∃ r old, c.heap r = .sni old ∧ c' = c.store r (.sni name) := by
  rw [setFirstSNI, run_get_bind] at h
  cases hx : c.firstExt Ext.asSNI with
  | none =>
    rw [hx] at h
    cases h
    exact .inl rfl
  | some x =>
    rw [hx] at h
    cases h
    have hsni : (c.heap x.1).asSNI = some x.2 := (firstExt_eq_some hx).2
    cases hr : c.heap x.1 with
    | sni old => exact .inr ⟨x.1, old, hr, rfl⟩
    | _ =>
      rw [hr] at hsni
      cases hsni

lemma setFirstSNI_ok {name : GoString} (h : setFirstSNI name c = .ok u c'): OuterStep c c' := by
  obtain rfl | ⟨r, old, hr, rfl⟩ := setFirstSNI_cases h
  · exact refl c'
  · exact outerStep_store (by rw [hr]; rfl) (by rw [hr]; rfl) (fun p hp => by cases hp) trivial

/-! ## `MarshalClientHello` with ECH -/

lemma echIndex_congr (h : c'.placeholders = c.placeholders) :
    echIndex c'.exts = echIndex c.exts := by
  have hmap : ∀ l : List Ext, echIndex l = (l.map (·.isGreaseECH)).findIdx? id := by
    intro l
    rw [findIdx?_map]
    rfl
  rw [hmap, hmap]
  exact congrArg (findIdx? id) h

variable {moved : ClientHelloMsg × Option (List UInt16)}

/-- The list of outer extensions is made, if there is none yet, and the inner hello sealed. -/
lemma sealInnerHello_compute (h : sealInnerHello d moved ech c = .ok ctx c') :
    ∃ c1 outerExts, EchStep c c1 ∧ computeAndUpdateOuterECHExtensionWithOuterExts d moved.1 ech true
      outerExts (moved.2.bind fun _ => (c.firstExt Ext.asUtlsPreSharedKey).map Prod.snd) c1 =
        .ok ctx c' := by
  rw [sealInnerHello, run_get_bind] at h
  cases hm : moved.2 with
  | some outerExts =>
    rw [hm] at h
    exact ⟨c, outerExts, refl c, h⟩
  | none =>
    rw [hm] at h
    obtain ⟨outerExts, c1, h1, h⟩ := bind_eq_ok.mp h
    exact ⟨c1, outerExts, ((keeps_extensionsList d).of_ok h1).echStep, h⟩

lemma sealInnerHello_ok (h : sealInnerHello d moved ech c = .ok ctx c') (ht : c.Tidy)
    (hr : c.hello.random.length = 32) (hb : BinderSized c moved.1) :
    ∃ i payload, echIndex c'.exts = some i ∧ ctx.keys = ech.next.keys ∧ EchStep c c' ∧
      SealedAt d c' i true ctx ech.hpkeContext.seqNum payload := by
  obtain ⟨c1, outerExts, hstep1, h⟩ := sealInnerHello_compute d h
  have hrandom : c1.hello.random = c.hello.random := hstep1.field fun c => c.hello.random
  have ht1 := hstep1.outerStep.tidy ht
  obtain ⟨i, payload, hi, hkeys, hstep, hsealed, -⟩ := computeOuterECH_ok d h ht1.extensions
    ht1.regularExts (hrandom ▸ hr) (hstep1.outerStep.binderSized hb)
  refine ⟨i, payload, ?_, hkeys, IsTrans.trans _ _ _ hstep1 hstep, hsealed⟩
  rw [echIndex_congr (hstep.outerStep.placeholders ht1), hi]

/-- The context that is returned has the inner hello, up to its binders. -/
lemma computeOuterECH_inner {useKey : Bool}
    {outerExts : List UInt16} {pskExt : Option UtlsPreSharedKeyExtension}
    (h : computeAndUpdateOuterECHExtensionWithOuterExts d inner ech useKey outerExts pskExt c =
      .ok ctx c') :
    ∃ inner', ctx.innerHello = some inner' ∧ (BinderSized c inner → BinderSized c inner') ∧
      ∃ binders original, inner' = { inner with pskBinders := binders, original := original } := by
  obtain ⟨run, rfl, -⟩ := computeOuterECH_run d h
  refine ⟨run.fixed.1, rfl, fun hb => ?_, ?_⟩ <;> rw [run.fixes]
  · exact (fixInnerBinder_sized d _ _ _ (hb.of_keys run.binderKeys)).of_keys run.binderKeys.symm
  · obtain h | ⟨_, _, _, _, -, -, rfl, h | ⟨_, _, -, -, h⟩⟩ := fixInnerBinder_cases d run.c₁
      (run.c₁.raw.drop 4) (sealedTypes outerExts pskExt) inner
      (fallbackContext d pskExt (run.c₁.raw.drop 4) { ech with encodedInnerHello := run.encoded }) <;>
      exact ⟨_, _, congrArg Prod.fst h⟩

lemma sealInnerHello_inner (h : sealInnerHello d moved ech c = .ok ctx c') :
    ∃ inner', ctx.innerHello = some inner' ∧ (BinderSized c moved.1 → BinderSized c inner') ∧
      ∃ binders original, inner' = { moved.1 with pskBinders := binders, original := original } := by
  obtain ⟨c1, outerExts, hstep, h⟩ := sealInnerHello_compute d h
  obtain ⟨inner', hctx, hsized, hinner⟩ := computeOuterECH_inner d h
  have hkeys := hstep.field fun c => (c.pskCipherSuite, c.pskBinderKey)
  exact ⟨inner', hctx, fun hb => (hsized (hb.of_keys hkeys)).of_keys hkeys.symm, hinner⟩

/-- The stages of `MarshalClientHello` with ECH when it returns: making the hello, moving the
pre-shared key to the inner one, setting the public name, and sealing. -/
structure EchMarshalRun (c c' : UConn) where
  (c₁ c₂ c₄ c₅ : UConn)
  made : ClientHelloMsg × Option EchClientContext
  moved : ClientHelloMsg × Option (List UInt16)
  (ech ctx : EchClientContext)
  makes : makeClientHello d c = .ok made c₁
  context : made.2 = some ech
  moves : moveToInner d (innerFromOuter c₁ made.1) c₁ = .ok moved c₂
  names : setFirstSNI ech.config.publicName
    (c₂.updConfig fun cfg => { cfg with serverName := ech.config.publicName }) = .ok () c₄
  seals : sealInnerHello d moved { ech with innerHello := some moved.1 } c₄ = .ok ctx c₅
  result : c' = { c₅.updConfig (fun cfg => { cfg with serverName := c₁.config.serverName }) with
    echCtx := some ctx }

lemma marshalClientHelloECH_run
    (h : marshalClientHelloECH d c = .ok u c') : Nonempty (EchMarshalRun d c c') := by
  obtain ⟨made, c1, h1, h⟩ := bind_eq_ok.mp h
  cases hm : made.2 with
  | none =>
    simp only [hm] at h
    cases h
  | some ech =>
    simp only [hm] at h
    rw [run_get_bind] at h
    obtain ⟨moved, c2, h2, h⟩ := bind_eq_ok.mp h
    obtain ⟨_, _, h3, h⟩ := bind_eq_ok.mp h
    cases h3
    obtain ⟨_, c4, h4, h⟩ := bind_eq_ok.mp h
    obtain ⟨result, c5, h5, h⟩ := bind_eq_ok.mp h
    obtain ⟨_, _, h6, h⟩ := bind_eq_ok.mp h
    cases h6
    obtain ⟨ctx, rfl, h⟩ := ofExcept_bind_eq_ok.mp h
    cases h
    exact ⟨⟨c1, c2, c4, c5, made, moved, ech, ctx, h1, hm, h2, h4, attempt_eq_ok.mp h5, rfl⟩⟩

/-- The connection stays prepared while the inner hello is made. -/
lemma EchMarshalRun.prepared₁ (run : EchMarshalRun d c c') (hp : c.Prepared) :
    run.c₁.Prepared ∧ OuterStep c run.c₁ := by
  have hdraw := ((keeps_makeClientHello d).of_ok run.makes).marshalStep
  exact ⟨hp.configStep hdraw.configStep, hdraw.echStep.outerStep⟩

/-- The public name is set between moving the pre-shared key and sealing. -/
lemma EchMarshalRun.named (run : EchMarshalRun d c c') : OuterStep run.c₂ run.c₄ :=
  IsTrans.trans _ _ _ (outerStep_setServerName run.c₂ _) (setFirstSNI_ok run.names)

/-- The inner hello that is sealed has a binder of the right length, if any. -/
lemma EchMarshalRun.binderSized (run : EchMarshalRun d c c') : BinderSized run.c₄ run.moved.1 :=
  (run.named d).binderSized ((moveToInner_ok d run.moves).binderSized d
    (yields_makeClientHello d _ _ _ run.makes).1)

/-- The inner hello is sealed with the keys of the context that is stored, as its first message. -/
lemma EchMarshalRun.sealed (run : EchMarshalRun d c c') (hp : c.Prepared) :
    run.ctx.hpkeContext.seqNum = 1 ∧ OuterStep run.c₂ c' ∧ EchStep run.c₄ run.c₅ ∧
      ∃ i payload, echIndex c'.exts = some i ∧ SealedAt d c' i true run.ctx 0 payload := by
  have hs4 := run.named d
  have hsized := run.binderSized d
  obtain ⟨c1, c2, c4, c5, made, moved, ech, ctx, h1, hm, h2, h4, h5, rfl⟩ := run
  obtain ⟨-, hseq⟩ := yields_makeClientHello d _ _ _ h1
  have hp1 : c1.Prepared := hp.configStep ((keeps_makeClientHello d).of_ok h1).marshalStep.configStep
  have hmoved := moveToInner_ok d h2
  -- the state in which the inner hello is sealed
  have hs14 : OuterStep c1 c4 := IsTrans.trans _ _ _ hmoved.outerStep hs4
  have hrandom : c4.hello.random = c1.hello.random := congrArg (fun x => x.2.1) hs14.header
  obtain ⟨i, payload, hi, hkeys, hstep, hsealed⟩ := sealInnerHello_ok d h5 (hs14.tidy hp1.tidy)
    (hrandom ▸ hp1.random) hsized
  have hseq0 : ech.hpkeContext.seqNum = 0 := hseq ech hm
  have hseq1 : ctx.hpkeContext.seqNum = ech.hpkeContext.seqNum + 1 :=
    congrArg (fun x => x.2.1.seqNum) hkeys
  -- restoring the name and storing the context touch neither the hello nor an extension
  have hlast : OuterStep c5 { c5.updConfig (fun cfg => { cfg with serverName := c1.config.serverName })
      with echCtx := some ctx } :=
    ⟨rfl, le_rfl, rfl, rfl, rfl, rfl, fun _ _ => rfl, fun _ _ => rfl, fun _ _ h => h, id⟩
  refine ⟨by rw [hseq1, hseq0], IsTrans.trans _ _ _ hs4 (IsTrans.trans _ _ _ hstep.outerStep hlast),
    hstep, i, payload, hi, ?_⟩
  rw [hseq0] at hsealed
  exact ⟨hsealed.raw, hsealed.sealed⟩

/-- What `MarshalClientHello` with ECH does when it returns. -/
lemma marshalClientHelloECH_ok (h : marshalClientHelloECH d c = .ok u c') (hp : c.Prepared):
    ∃ ctx i payload, c'.echCtx = some ctx ∧ ctx.hpkeContext.seqNum = 1 ∧
      echIndex c'.exts = some i ∧ SealedAt d c' i true ctx 0 payload ∧ OuterStep c c' ∧
      (d.echPskFallback = false → c.sessionController.state = .pskExtAllSet →
        ∀ r, c.sessionController.pskExtension = some r → c'.NoPatchAt r) := by
  obtain ⟨run⟩ := marshalClientHelloECH_run d h
  obtain ⟨hp1, hs1⟩ := run.prepared₁ d hp
  obtain ⟨hseq, hlast, -, i, payload, hi, hsealed⟩ := run.sealed d hp
  have hmoved := moveToInner_ok d run.moves
  have hctx : c'.echCtx = some run.ctx := by
    have hresult := congrArg UConn.echCtx run.result
    exact hresult
  refine ⟨run.ctx, i, payload, hctx, hseq, hi, hsealed,
    IsTrans.trans _ _ _ hs1 (IsTrans.trans _ _ _ hmoved.outerStep hlast), fun hf hst r hr => ?_⟩
  have hr1 : run.c₁.sessionController.pskExtension = some r := by rw [hs1.controller, hr]
  have hn2 := hmoved.noPatch d hp1 hf (by rw [hs1.controller, hst]) hr1
  exact hlast.noPatch r (lt_of_lt_of_le (hp1.tidy.psk r hr1).1 hmoved.outerStep.next) hn2

/-! ## From the marshalled hello to the end of the build -/

/-- The sealed extension only depends on what is sent. -/
lemma SealedAt.of_view {i n : Nat} {useKey : Bool}
    {payload : Bytes} (h : SealedAt d c i useKey ctx n payload) (hv : c'.view d = c.view d) :
    SealedAt d c' i useKey ctx n payload := by
  simp only [UConn.view, Prod.mk.injEq] at hv
  obtain ⟨hheader, horiginal, hwire⟩ := hv
  have henc : ∀ e, clientHelloEncoding d.parseIP c'.hello (c'.exts.set i e) =
      clientHelloEncoding d.parseIP c.hello (c.exts.set i e) := by
    intro e
    rw [clientHelloEncoding_congr _ hheader]
    refine clientHelloEncoding_wire ?_
    rw [map_set, map_set, hwire]
  refine ⟨?_, ?_⟩
  · simp only [horiginal, henc]
    exact h.raw
  · simp only [henc]
    exact h.sealed

/-- Patching changes nothing that is sent if the binders are not to be patched. -/
lemma Patched.view_eq (h : Patched d c c') (ht : c.Tidy)
    (hi : c.sessionController.state ≠ .pskExtInitialized)
    (hn : c.sessionController.state = .pskExtAllSet →
      ∀ r, c.sessionController.pskExtension = some r → c.NoPatchAt r) : c'.view d = c.view d := by
  cases h with
  | nothing _ => rfl
  | @binders r n c1 c2 hs hr hl hw =>
    have hstate : c.sessionController.state = .pskExtAllSet := by
      simp only [UConn.shouldUpdateBinders, Bool.and_eq_true, Bool.or_eq_true, beq_iff_eq] at hs
      exact hs.2.resolve_left hi
    have hstep := ((keeps_extLen d r).of_ok hl).echStep.outerStep
    have hn1 : c1.NoPatchAt r := hstep.noPatch r (ht.psk r hr).1 (hn hstate r hr)
    rw [UConn.view_pskWritten, ← view_of_extLen_psk d hl (ht.psk r hr).2]
    rcases hw with rfl | ⟨e, he, -, hskip, hw⟩
    · rfl
    · rcases writeBinders_eq_ok d hw with rfl | ⟨suite, b, -, hb, -⟩
      · rfl
      · rcases hn1 e he with h | h
        · rw [hskip] at h
          cases h
        · exact absurd hb (h b)

/-- Patching the binders leaves the context and the keys of the connection alone. -/
lemma Patched.keys_eq (h : Patched d c c') : (c'.echCtx, c'.pskCipherSuite, c'.pskBinderKey) =
    (c.echCtx, c.pskCipherSuite, c.pskBinderKey) := by
  cases h with
  | nothing _ => rfl
  | @binders r n c1 c2 _ _ hl hw =>
    obtain ⟨early, session, ids, key, heq⟩ := c2.pskWritten_eq r
    have hkept := field_of_patch d (fun c => (c.echCtx, c.pskCipherSuite, c.pskBinderKey)) hl hw
    rw [heq]
    exact hkept

lemma ConfigStep.placeholders (h : ConfigStep c c') : c'.placeholders = c.placeholders :=
  UConn.placeholders_congr h.extensions_eq fun r _ => (h.heap r).isGreaseECH_eq

lemma SessionStep.placeholders (h : SessionStep c c') : c'.placeholders = c.placeholders := by
  refine UConn.placeholders_congr h.extensions_eq fun r _ => ?_
  by_cases hk : (c.heap r).sessionKind = (false, false)
  · rw [h.plain r hk]
  · rw [Ext.isGreaseECH_of_session hk, Ext.isGreaseECH_of_session (by rwa [h.kind r])]

lemma UConn.Prepared.marshalled {c1 c2 c3 c4 : UConn} {u1 u2 u3 u4 : Unit} (hs : c.Sound)
    (h1 : prepareBuild d c = .ok u1 c1) (h2 : applyConfig d c1 = .ok u2 c2)
    (h3 : uLoadSession d c2 = .ok u3 c3) (h4 : applyConfig d c3 = .ok u4 c4) :
    c4.Prepared ∧ c4.history = c.history := by
  obtain ⟨hp1, hst⟩ := hs.prepareBuild d h1
  have hstep2 := (keeps_applyConfig d).of_ok h2
  have hload := uLoadSession_cases d h3
  have hstep4 := (keeps_applyConfig d).of_ok h4
  refine ⟨((hp1.configStep hstep2).loaded hload).configStep hstep4, ?_⟩
  have hh2 : c2.history = c1.history := hstep2.field UConn.history
  have hh4 : c4.history = c3.history := hstep4.field UConn.history
  rw [hh4, hload.sessionStep.history, hh2, UConn.history_of_standing hst]

/-- The stages of a first build with ECH: the specification is applied, the session loaded, the
hello marshalled with ECH, and the binders of the outer hello are patched. -/
structure EchStages (c c' : UConn) where
  (c₁ c₂ c₃ c₄ c₅ c₆ : UConn)
  prepares : prepareBuild d c = .ok () c₁
  applies : applyConfig d c₁ = .ok () c₂
  loads : uLoadSession d c₂ = .ok () c₃
  again : applyConfig d c₃ = .ok () c₄
  marshals : marshalClientHelloECH d c₄ = .ok () c₅
  patches : Patched d c₅ c₆
  result : c' = { c₆.updSC fun s => { s with locked := true } with
    clientHelloBuildStatus := .buildByUtls }

/-- The end of a build only sets the lock and the status. -/
lemma EchStages.field {α : Type} (run : EchStages d c c') (f : UConn → α)
    (hf : ∀ c : UConn, f { c.updSC fun s => { s with locked := true } with
      clientHelloBuildStatus := .buildByUtls } = f c := by intro; rfl) : f c' = f run.c₆ :=
  (congrArg f run.result).trans (hf run.c₆)

lemma exists_echStages (hs : c.Sound) (hn : c.clientHelloBuildStatus = .notBuilt)
    (hech : 0 < (c.config.encryptedClientHelloConfigList.getD []).length)
    (h : buildHandshakeState d true c = .ok u c') : Nonempty (EchStages d c c') := by
  obtain ⟨run⟩ := buildHandshakeState_run d h
  obtain ⟨hprep, hload, hmarshal, hpatch⟩ := run.first d hn
  -- the hello is marshalled with ECH
  obtain ⟨_, c4, happly', hmarshal⟩ := bind_eq_ok.mp hmarshal
  obtain ⟨-, hhist⟩ := UConn.Prepared.marshalled d hs hprep run.apply hload happly'
  have hech' : 0 < (c4.config.encryptedClientHelloConfigList.getD []).length := by
    have hlist : c4.config.encryptedClientHelloConfigList =
      c.config.encryptedClientHelloConfigList := congrArg (fun x => x.2.2.2.2) hhist
    rwa [hlist]
  rw [run_get_bind, if_pos hech'] at hmarshal
  obtain ⟨_, c7, hpatched, hlock⟩ := bind_eq_ok.mp hpatch
  exact ⟨⟨run.prepared, run.applied, run.loaded, c4, run.marshalled, c7, hprep, run.apply, hload,
    happly', hmarshal, (uApplyPatch_cases d hpatched).1,
    by rw [run.result, finalCheck_eq_ok hlock]⟩⟩

/-- The stages of a first build with ECH in which no binders are patched. -/
structure EchBuildRun (c c' : UConn) where
  (c₁ c₂ c₃ c₄ c₅ : UConn)
  prepares : prepareBuild d c = .ok () c₁
  applies : applyConfig d c₁ = .ok () c₂
  loads : uLoadSession d c₂ = .ok () c₃
  again : applyConfig d c₃ = .ok () c₄
  marshals : marshalClientHelloECH d c₄ = .ok () c₅
  view : c'.view d = c₅.view d
  echCtx : c'.echCtx = c₅.echCtx
  placeholders : c'.placeholders = c₅.placeholders

/-- Unless the fallback mode is on, no binders are patched. -/
lemma exists_echBuildRun (hs : c.Sound) (hn : c.clientHelloBuildStatus = .notBuilt)
    (hech : 0 < (c.config.encryptedClientHelloConfigList.getD []).length)
    (hf : d.echPskFallback = false) (h : buildHandshakeState d true c = .ok u c') :
    Nonempty (EchBuildRun d c c') := by
  obtain ⟨run⟩ := exists_echStages d hs hn hech h
  obtain ⟨hp4, -⟩ := UConn.Prepared.marshalled d hs run.prepares run.applies run.loads run.again
  obtain ⟨ctx, i, payload, -, -, -, -, houter, hnopatch⟩ :=
    marshalClientHelloECH_ok d run.marshals hp4
  have ht5 := houter.tidy hp4.tidy
  have hsc := houter.controller
  have hview : run.c₆.view d = run.c₅.view d := by
    refine run.patches.view_eq d ht5 (by rw [hsc]; exact hp4.settled.2) ?_
    rw [hsc]
    exact hnopatch hf
  exact ⟨⟨run.c₁, run.c₂, run.c₃, run.c₄, run.c₅, run.prepares, run.applies, run.loads, run.again,
    run.marshals, (run.field d (UConn.view d)).trans hview,
    (run.field d UConn.echCtx).trans (congrArg Prod.fst (run.patches.keys_eq d)),
    (run.field d UConn.placeholders).trans (run.patches.sessionStep ht5).placeholders⟩⟩

/-- A first build seals the inner hello for the context that it stores. -/
theorem first_build_seals (hs : c.Sound) (hn : c.clientHelloBuildStatus = .notBuilt)
    (hech : 0 < (c.config.encryptedClientHelloConfigList.getD []).length)
    (hf : d.echPskFallback = false) (h : buildHandshakeState d true c = .ok u c') :
    ∃ c1, prepareBuild d c = .ok () c1 ∧ c'.placeholders = c1.placeholders ∧
      ∃ ctx i payload, c'.echCtx = some ctx ∧ ctx.hpkeContext.seqNum = 1 ∧
        echIndex c'.exts = some i ∧ SealedAt d c' i true ctx 0 payload := by
  obtain ⟨run⟩ := exists_echBuildRun d hs hn hech hf h
  obtain ⟨hp4, -⟩ := UConn.Prepared.marshalled d hs run.prepares run.applies run.loads run.again
  obtain ⟨ctx, i, payload, hctx, hseq, hi, hsealed, houter, -⟩ :=
    marshalClientHelloECH_ok d run.marshals hp4
  refine ⟨run.c₁, run.prepares, ?_, ctx, i, payload, run.echCtx.trans hctx, hseq, ?_, ?_⟩
  · rw [run.placeholders, houter.placeholders hp4.tidy,
      ((keeps_applyConfig d).of_ok run.again).placeholders,
      (uLoadSession_cases d run.loads).sessionStep.placeholders,
      ((keeps_applyConfig d).of_ok run.applies).placeholders]
  · rw [echIndex_congr run.placeholders, hi]
  · exact hsealed.of_view d run.view

end Deps

end Utls
