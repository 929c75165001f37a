import Utls.FirstBuild
import Utls.KeyShares

/-!
# The shared secret of an offered group

The rest of a build leaves the private keys and the `key_share` extensions alone, and copies the
shares of the last one to the hello and to the inner hello (`FirstRun.sharesKept`).  With that,
`completes_iff` says for each group that was sent a share for whether a handshake in which the
server selects it computes the shared secret with the private keys of the share: a group without an
ML-KEM part has to be the first of its kind, and a hybrid group has to be the last of its kind, in a
hello whose kept key is one for X25519.
-/

namespace Utls

open Wire Exec LastWrite List Option

variable {x : KeyExchange} {share : KeyShare} {u : Unit} {l : List KeyShare} {v : List SecretPart}
  {hs : HandshakeState13} {g : UInt16} {key : EcdhKey}

/-! ## What the rest of a build leaves alone -/

/-- The keys, the shares of the hello and those of the extensions are the same. -/
structure SharesKept (c c' : UConn) : Prop where
  handshakes : c'.handshakes = c.handshakes
  keys : c'.keyShareKeys = c.keyShareKeys
  hello : c'.hello.keyShares = c.hello.keyShares
  extensions : c'.extensions = c.extensions
  heap : ∀ r ∈ c.extensions, (c'.heap r).writtenShares = (c.heap r).writtenShares

lemma Ext.writtenShares_core (e : Ext) : e.core.writtenShares = e.writtenShares := by
  cases e <;> rfl

namespace SharesKept

variable {c c₁ c₂ c' : UConn}

lemma trans (h : SharesKept c c₁) (h' : SharesKept c₁ c₂) : SharesKept c c₂ := by
  refine ⟨h'.handshakes.trans h.handshakes, h'.keys.trans h.keys, h'.hello.trans h.hello,
    h'.extensions.trans h.extensions, fun r hr => ?_⟩
  rw [h'.heap r (h.extensions ▸ hr), h.heap r hr]

lemma map_shares (h : SharesKept c c') :
    c'.exts.map Ext.writtenShares = c.exts.map Ext.writtenShares := by
  rw [UConn.exts, UConn.exts, h.extensions, List.map_map, List.map_map]
  exact map_congr_left h.heap

/-- Storing an extension that is no `key_share` extension. -/
lemma store {r : Ref} {e : Ext} (hr : (c.heap r).writtenShares = none)
    (he : e.writtenShares = none) : SharesKept c (c.store r e) :=
  ⟨rfl, rfl, rfl, rfl, fun r' _ => UConn.store_same _ (he.trans hr.symm) r'⟩

end SharesKept

variable {c c' : UConn}

theorem MarshalStep.sharesKept (h : MarshalStep c c') : SharesKept c c' := by
  obtain ⟨heap, draws, raw, rfl, hheap⟩ := h
  refine ⟨rfl, rfl, rfl, rfl, fun r _ => ?_⟩
  change (heap r).writtenShares = (c.heap r).writtenShares
  rw [← (heap r).writtenShares_core, ← (c.heap r).writtenShares_core, ((hheap r).rewrite c).core]

theorem EchStep.sharesKept (ht : c.Tidy) (h : EchStep c c') : SharesKept c c' := by
  refine ⟨h.field UConn.handshakes, h.field UConn.keyShareKeys, h.field fun c => c.hello.keyShares,
    h.extensions, fun r hr => ?_⟩
  rw [← (c'.heap r).writtenShares_core, ← (c.heap r).writtenShares_core,
    ((h.heap r (ht.extensions r hr)).rewrite c).core]

/-- The keys and the shares of the hello. -/
def UConn.shareState (c : UConn) := (c.keyShareKeys, c.hello.keyShares)

lemma Ext.writtenShares_of_sessionKind {e : Ext} (h : e.sessionKind ≠ (false, false)) :
    e.writtenShares = none := by
  cases e with
  | keyShare l => exact absurd rfl h
  | _ => rfl

theorem SessionStep.sharesKept (h : SessionStep c c')
    (hs : c'.shareState = c.shareState) : SharesKept c c' := by
  refine ⟨congrArg (fun x => x.2.2.1) h.history, congrArg Prod.fst hs, congrArg Prod.snd hs,
    h.extensions_eq, fun r _ => ?_⟩
  by_cases hk : (c.heap r).sessionKind = (false, false)
  · rw [h.plain r hk]
  · rw [Ext.writtenShares_of_sessionKind hk,
      Ext.writtenShares_of_sessionKind fun h' => hk (h.kind r ▸ h')]

lemma UConn.shareState_pskWritten (c : UConn) (r : Ref) :
    (c.pskWritten r).shareState = c.shareState := by
  obtain ⟨early, session, ids, key, heq⟩ := c.pskWritten_eq r
  rw [heq]
  rfl

section Deps

variable {c c' : UConn}

variable (d : Deps)

theorem Loaded.sharesKept (h : Loaded d c c') : SharesKept c c' := by
  refine h.sessionStep.sharesKept ?_
  cases h with
  | pskGiven _ _ => exact c.shareState_pskWritten _
  | offered _ _ ho =>
    cases ho with
    | psk _ _ _ _ _ => exact UConn.shareState_pskWritten _ _
    | _ => rfl
  | _ => rfl

theorem Patched.sharesKept (ht : c.Tidy) (h : Patched d c c') : SharesKept c c' := by
  refine (h.sessionStep ht).sharesKept ?_
  cases h with
  | nothing _ => rfl
  | @binders r n c₁ c₂ _ _ hl hw =>
    exact (c₂.shareState_pskWritten r).trans (field_of_patch d UConn.shareState hl hw)

/-! ## The inner hello -/

lemma yields_innerWithPsk_shares (c : UConn) (e : UtlsPreSharedKeyExtension)
    (inner : ClientHelloMsg) :
    Yields (fun m : ClientHelloMsg => m.keyShares = inner.keyShares) (innerWithPsk d c e inner) := by
  unfold innerWithPsk
  cases c.pskCipherSuite with
  | none => exact .pure rfl
  | some suite => exact .ite (.pure rfl) (.after fun _ => .after fun _ => .pure rfl)

lemma yields_moveToInner_shares (inner : ClientHelloMsg) :
    Yields (fun o : ClientHelloMsg × Option (List UInt16) => o.1.keyShares = inner.keyShares)
      (moveToInner d inner) := by
  refine .after fun c => ?_
  cases c.firstExt Ext.asUtlsPreSharedKey with
  | none => exact .pure rfl
  | some x =>
    refine .ite (.pure rfl) (.ite (.after fun _ => .pure rfl) ?_)
    exact .bind (yields_innerWithPsk_shares d c x.2 inner) fun m hm =>
      .after fun _ => .after fun _ => .pure hm

/-- The inner hello of a context, if there is one, has the shares of the hello. -/
def UConn.InnerAgrees (c : UConn) : Prop :=
  ∀ ctx inner, c.echCtx = some ctx → ctx.innerHello = some inner → inner.keyShares = c.hello.keyShares

/-- Moving the pre-shared key to the inner hello leaves the shares of the outer one. -/
theorem Moved.sharesKept {inner : ClientHelloMsg}
    {o : ClientHelloMsg × Option (List UInt16)} (h : Moved d c inner o c') : SharesKept c c' := by
  cases h with
  | nothing _ => exact ⟨rfl, rfl, rfl, rfl, fun _ _ => rfl⟩
  | fallback _ hs => exact hs.sharesKept
  | @moved r e e' inner' outerExts n c' hr hb he hs =>
    have hnone : (c.heap r).writtenShares = none := by
      have hpsk := (firstExt_eq_some hr).2
      cases hx : c.heap r with
      | keyShare l =>
        rw [hx] at hpsk
        cases hpsk
      | _ => rfl
    have hdraw : SharesKept c (c.atDraw n) := ⟨rfl, rfl, rfl, rfl, fun _ _ => rfl⟩
    have hstore : SharesKept (c.atDraw n) ((c.atDraw n).store r (.utlsPreSharedKey e')) :=
      .store hnone rfl
    exact (hdraw.trans hstore).trans hs.sharesKept

lemma setFirstSNI_sharesKept {name : GoString}
    (h : setFirstSNI name c = .ok u c') : SharesKept c c' := by
  obtain rfl | ⟨r, old, hr, rfl⟩ := setFirstSNI_cases h
  · exact ⟨rfl, rfl, rfl, rfl, fun _ _ => rfl⟩
  · exact .store (by rw [hr]; rfl) rfl

lemma marshalClientHelloECH_shares (hp : c.Prepared)
    (h : marshalClientHelloECH d c = .ok u c') : SharesKept c c' ∧ c'.InnerAgrees := by
  obtain ⟨⟨c₁, c₂, c4, c5, made, moved, ech, ctx, makes, -, moves, names, seals, rfl⟩⟩ :=
    marshalClientHelloECH_run d h
  have hdraw := ((keeps_makeClientHello d).of_ok makes).marshalStep
  have hmoved := moveToInner_ok d moves
  have hp1 : c₁.Prepared := hp.configStep hdraw.configStep
  have hs14 : OuterStep c₁ c4 := IsTrans.trans _ _ _ hmoved.outerStep
    (IsTrans.trans _ _ _ (outerStep_setServerName c₂ _) (setFirstSNI_ok names))
  have ht4 : c4.Tidy := hs14.tidy hp1.tidy
  have hrandom : c4.hello.random = c₁.hello.random := congrArg (fun x => x.2.1) hs14.header
  have hsized : BinderSized c4 moved.1 := (IsTrans.trans _ _ _ (outerStep_setServerName c₂ _)
    (setFirstSNI_ok names)).binderSized
    (hmoved.binderSized d (yields_makeClientHello d _ _ _ makes).1)
  obtain ⟨_, _, _, _, hstep, _⟩ := sealInnerHello_ok d seals ht4 (hrandom ▸ hp1.random) hsized
  have hname : SharesKept c₂ c4 := by
    have hkept := setFirstSNI_sharesKept names
    exact ⟨hkept.handshakes, hkept.keys, hkept.hello, hkept.extensions, hkept.heap⟩
  have hkept := (hdraw.sharesKept.trans (hmoved.sharesKept d)).trans (hname.trans (hstep.sharesKept ht4))
  refine ⟨⟨hkept.handshakes, hkept.keys, hkept.hello, hkept.extensions, hkept.heap⟩, ?_⟩
  -- the inner hello got the shares of the outer one when it was made
  rintro ctx' inner hctx hinner
  cases hctx
  obtain ⟨_, hctx, -, binders, original, rfl⟩ := sealInnerHello_inner d seals
  cases hctx.symm.trans hinner
  have hmade : moved.1.keyShares = c₁.hello.keyShares :=
    yields_moveToInner_shares d (innerFromOuter c₁ made.1) _ _ _ moves
  have hlast : c5.hello.keyShares = c₁.hello.keyShares :=
    ((hmoved.sharesKept d).trans (hname.trans (hstep.sharesKept ht4))).hello
  exact hmade.trans hlast.symm

/-- `ApplyConfig` copies the shares of the last `key_share` extension to the hello. -/
lemma applyConfig_shares (h : applyConfig d c = .ok u c') :
    c'.keyShareKeys = c.keyShareKeys ∧
      c'.exts.map Ext.writtenShares = c.exts.map Ext.writtenShares ∧
      ∀ l, lastValue id (c.exts.map Ext.writtenShares) = some l → c'.hello.keyShares = l := by
  have hstep := (keeps_applyConfig d).of_ok h
  refine ⟨hstep.field UConn.keyShareKeys, ?_, fun l hl => ?_⟩
  · rw [UConn.exts, UConn.exts, hstep.extensions_eq, List.map_map, List.map_map]
    refine map_congr_left fun r _ => ?_
    rw [Function.comp_apply, Function.comp_apply, ← (c'.heap r).writtenShares_core,
      (hstep.heap r).core, (c.heap r).writtenShares_core]
  · have hn := applyConfig_negotiation d h
    rw [foldl_negotiate] at hn
    have hshares : c'.hello.keyShares = lastWrite Ext.writtenShares c.exts c.hello.keyShares :=
      congrArg Negotiation.keyShares hn
    rw [lastValue_map] at hl
    rw [hshares, lastWrite_eq_getD, show lastValue Ext.writtenShares c.exts = some l from hl]
    rfl

/-- What marshalling a prepared hello leaves for the handshake: the keys, and the shares of the last
`key_share` extension in the hello and in the inner hello. -/
structure Shares (c c' : UConn) : Prop where
  handshakes : c'.handshakes = c.handshakes
  keys : c'.keyShareKeys = c.keyShareKeys
  sent : c'.exts.map Ext.writtenShares = c.exts.map Ext.writtenShares
  hello : ∀ l, lastValue id (c.exts.map Ext.writtenShares) = some l → c'.hello.keyShares = l
  inner : c'.InnerAgrees

lemma marshalClientHello_shares (hp : c.Prepared) (hinner : c.NoInner)
    (h : marshalClientHello d c = .ok u c') : Shares c c' ∧ c'.Tidy := by
  obtain ⟨_, c₁, h1, hrest⟩ := bind_eq_ok.mp h
  obtain ⟨hkeys, hexts, hhello⟩ := applyConfig_shares d h1
  have hstep := (keeps_applyConfig d).of_ok h1
  have hctx : c₁.echCtx = c.echCtx := hstep.field UConn.echCtx
  have hp1 : c₁.Prepared := hp.configStep hstep
  have hkept : SharesKept c₁ c' ∧ c'.InnerAgrees ∧ c'.Tidy := by
    rw [run_get_bind] at hrest
    split_ifs at hrest with hech
    · obtain ⟨_, _, _, _, _, _, _, houter, -⟩ := marshalClientHelloECH_ok d hrest hp1
      obtain ⟨hkept, hagrees⟩ := marshalClientHelloECH_shares d hp1 hrest
      exact ⟨hkept, hagrees, houter.tidy hp1.tidy⟩
    · have hm := (marshalClientHelloNoECH_ok d hrest).step
      refine ⟨hm.sharesKept, fun ctx inner hctx' hi => ?_, (hp1.configStep hm.configStep).tidy⟩
      have hctx'' : c'.echCtx = c₁.echCtx := hm.configStep.field UConn.echCtx
      rw [hinner ctx (by rw [← hctx, ← hctx'', hctx'])] at hi
      cases hi
  obtain ⟨hkept, hagrees, ht⟩ := hkept
  exact ⟨⟨hkept.handshakes.trans (hstep.field UConn.handshakes), hkept.keys.trans hkeys,
    hkept.map_shares.trans hexts, fun l hl => hkept.hello.trans (hhello l hl), hagrees⟩, ht⟩

lemma FirstRun.shares (hc : Fresh d c) (run : FirstRun d c c')
    (hinner : run.prepared.NoInner) : Shares run.prepared c' := by
  obtain ⟨hp1, -⟩ := hc.sound.prepareBuild d run.prepare
  have hstep := (keeps_applyConfig d).of_ok run.apply
  have hp3 := (hp1.configStep hstep).loaded run.loads
  obtain ⟨hkeys, hexts, -⟩ := applyConfig_shares d run.apply
  have hloaded := run.loads.sharesKept d
  have hctx : run.loaded.echCtx = run.prepared.echCtx :=
    (run.loads.kept d).echCtx.trans (hstep.field UConn.echCtx)
  obtain ⟨hm, ht⟩ :=
    marshalClientHello_shares d hp3 (fun ctx h => hinner ctx (hctx ▸ h)) run.marshal
  have hexts3 := hloaded.map_shares.trans hexts
  have hpatched := run.patches.sharesKept d ht
  have hctx' : run.patched.echCtx = run.marshalled.echCtx := (run.patches.kept d ht).echCtx
  have hend : Shares run.prepared { run.patched.updSC fun s => { s with locked := true } with
      clientHelloBuildStatus := .buildByUtls } := by
    refine ⟨hpatched.handshakes.trans (hm.handshakes.trans (hloaded.handshakes.trans
        (hstep.field UConn.handshakes))),
      hpatched.keys.trans (hm.keys.trans (hloaded.keys.trans hkeys)),
      hpatched.map_shares.trans (hm.sent.trans hexts3), fun l hl => ?_, fun ctx inner h hi => ?_⟩
    · exact hpatched.hello.trans (hm.hello l (by rw [hexts3, hl]))
    · exact (hm.inner ctx inner (hctx'.symm.trans h) hi).trans hpatched.hello.symm
  rwa [← run.result] at hend

/-! ## The connection that sends its hello -/

/-- Leaving the server name out leaves the shares. -/
lemma UConn.lastValue_withoutSNI (c : UConn) :
    lastValue id (c.withoutSNI.exts.map Ext.writtenShares) =
      lastValue id (c.exts.map Ext.writtenShares) := by
  simp only [UConn.exts, UConn.withoutSNI, List.map_map, lastValue_map]
  refine lastValue_filter fun r hr => ?_
  cases hx : c.heap r with
  | sni name => simp [hx, Ext.writtenShares]
  | _ =>
    rw [hx] at hr
    cases hr

variable {d}

/-- What the first build of a connection with the specification `p` leaves for the handshake; `l`
are the shares that are sent. -/
structure ReadyKeys (d : Deps) (groups : List (Option (List UInt16))) (n : Nat) (l : List KeyShare)
    (c' : UConn) : Prop where
  built : c'.clientHelloBuildStatus = .buildByUtls
  first : c'.handshakes = 0
  groups_eq : lastValue id groups = some (shareGroups l)
  hello : c'.hello.keyShares = l
  inner : c'.InnerAgrees
  curve : c'.keyShareKeys.ecdhe.map EcdhKey.curve = storedCurve groups
  filled : ∃ start, Filling d start l c'.keyShareKeys n

lemma lastValue_groups {exts : List Ext} (h : lastValue id (exts.map Ext.writtenShares) = some l):
    lastValue id (exts.map Ext.groups) = some (shareGroups l) := by
  have hmap : ∀ m : List (Option (List KeyShare)),
      lastValue id (m.map (Option.map shareGroups)) = (lastValue id m).map shareGroups := by
    intro m
    induction m using reverseRecOn with
    | nil => rfl
    | append_singleton m x ih =>
      rw [map_append, map_singleton, lastValue_append_singleton, lastValue_append_singleton, ih]
      cases x <;> rfl
  have hgroups := hmap (exts.map Ext.writtenShares)
  rw [h, List.map_map] at hgroups
  exact hgroups

lemma build_readyKeys {heap : Ref → Ext} {nextRef : Ref} {config : Config} {env : Surroundings}
    {p : ClientHelloSpec} (hreg : ∀ r < nextRef, (heap r).Regular)
    (hp : ∀ r ∈ p.extensions, r < nextRef)
    (hpreset : applyPreset d p (uClient heap nextRef config env .custom) = .ok () c)
    (hbuild : buildHandshakeState d true c = .ok u c')
    (hl : lastValue id (c'.exts.map Ext.writtenShares) = some l) :
    ReadyKeys d (p.extensions.map fun r => (heap r).groups) c.draws l c' := by
  have hc : Fresh d c := .custom heap nextRef config env p hreg hp hpreset
  have ha := applyPreset_ok d (tidy_uClient hreg config env .custom) hp hpreset
  obtain ⟨hsettled, hinner⟩ : Settled d (p.extensions.map fun r => (heap r).groups)
      p.extensions.length c ∧ c.NoInner :=
    applyPreset_settled (tidy_uClient hreg config env .custom) hp rfl rfl hpreset
  obtain ⟨run⟩ := buildHandshakeState_first d hc.notBuilt hbuild
  -- preparing the build changes nothing but a server name that is left out
  have hx : run.prepared = c.withoutSNI ∨ run.prepared = c := by
    obtain ⟨z, hz, hx⟩ := prepareBuild_ok d run.prepare
    have hid : c.clientHelloID = .custom := congrArg Prod.fst (UConn.history_of_standing ha.standing)
    rw [applyPresetByID_custom d hid ha.spec] at hz
    cases hz
    exact hx
  have hxinner : run.prepared.NoInner := by rcases hx with hx | hx <;> rw [hx] <;> exact hinner
  have hxkeys : run.prepared.keyShareKeys = c.keyShareKeys := by
    rcases hx with hx | hx
    · rw [hx]
      rfl
    · rw [hx]
  have hxfirst : run.prepared.handshakes = 0 := by
    have hzero : c.handshakes = 0 := congrArg (fun x => x.2.2.1) (UConn.history_of_standing ha.standing)
    rcases hx with hx | hx <;> rw [hx] <;> exact hzero
  have hxlast : lastValue id (run.prepared.exts.map Ext.writtenShares) =
      lastValue id (c.exts.map Ext.writtenShares) := by
    rcases hx with hx | hx
    · rw [hx, c.lastValue_withoutSNI]
    · rw [hx]
  have hs := run.shares d hc hxinner
  rw [hs.sent, hxlast] at hl
  have hkeys : c'.keyShareKeys = c.keyShareKeys := hs.keys.trans hxkeys
  have hlen : p.extensions.length = (c.exts.map Ext.writtenShares).length := by
    have h := congrArg List.length hsettled.groups_eq
    simpa using h.symm
  have hlen' : p.extensions.length = (p.extensions.map fun r => (heap r).groups).length := by simp
  refine ⟨?_, ?_, ?_, hs.hello l (by rw [hxlast, hl]), hs.inner, ?_, ?_⟩
  · rw [run.result]
  · exact hs.handshakes.trans hxfirst
  · rw [← hsettled.groups_eq]
    exact lastValue_groups hl
  · rw [hkeys, hsettled.curve, hlen', take_length]
  · rw [hkeys]
    refine hsettled.last l ?_
    rw [hlen, take_length, hl]

/-! ## The handshake -/

/-- The private keys that belong to a share. -/
inductive SharePrivate where
  | classical (key : EcdhKey)
  | hybrid (ecdhe : EcdhKey) (mlkem : MlkemKey)

variable (d) in
/-- The share of the keys for the group `g`. -/
def SharePrivate.publicPart (g : UInt16) : SharePrivate → Bytes
  | .classical key => key.publicKey d
  | .hybrid ecdhe mlkem => hybridShare d g ecdhe mlkem

/-- The ECDH half of the share of the server. -/
def ecdhPart (share : KeyShare) : Bytes :=
  if share.group = X25519MLKEM768 then share.data.drop ciphertextSize768
  else if share.group = X25519Kyber768Draft00 then share.data.take x25519PublicKeySize
  else share.data

/-- The secret that the keys share with a server that answers with `share`. -/
def SharePrivate.secret (share : KeyShare) : SharePrivate → List SecretPart
  | .classical key => [.ecdh key share.data]
  | .hybrid ecdhe mlkem =>
    joinSecrets share.group mlkem (ciphertextPart share) [.ecdh ecdhe (ecdhPart share)]

/-- The curve of the ECDH half of a group. -/
def groupCurve (g : UInt16) : UInt16 := if isHybrid g then X25519 else g

/-- The share of a server is well formed: it has the length that its group asks for, and its ECDH
half is a point of the curve with which `ECDH` does not fail. -/
structure KeyExchange.WellFormed (x : KeyExchange) (share : KeyShare) : Prop where
  length : isHybrid share.group = true → share.data.length = x25519PublicKeySize + ciphertextSize768
  point : x.isPublicKey (groupCurve share.group) (ecdhPart share) = true
  agrees : ∀ key : EcdhKey, key.curve = groupCurve share.group →
    x.ecdhFails key (ecdhPart share) = false

lemma KeyExchange.WellFormed.ecdhePeerData_eq
    (h : x.WellFormed share) : ecdhePeerData share = .ok (ecdhPart share) := by
  unfold ecdhePeerData ecdhPart
  split_ifs with h1 h2 h3 h4
  · exact absurd (h.length (by simp [isHybrid, h1])) (by omega)
  · rfl
  · exact absurd (h.length (by simp [isHybrid, h3])) (by omega)
  · rfl
  · rfl

lemma KeyExchange.WellFormed.getSharedKey_eq
    (h : x.WellFormed share) (hk : key.curve = groupCurve share.group) :
    getSharedKey x (ecdhPart share) key = .ok [.ecdh key (ecdhPart share)] := by
  rw [getSharedKey, hk, h.point, h.agrees key hk]
  rfl

/-- A key that agrees on a secret is one of the curve. -/
lemma KeyExchange.WellFormed.curve_eq (h : x.WellFormed share)
    (hv : getSharedKey x (ecdhPart share) key = .ok v) : key.curve = groupCurve share.group := by
  unfold getSharedKey at hv
  split_ifs at hv with h1
  exact publicKeySize_inj (x.isPublicKey_length _ _ (by simpa using h1))
    (x.isPublicKey_length _ _ h.point)

lemma KeyExchange.WellFormed.group_ne (h : x.WellFormed share) : share.group ≠ 0 := by
  intro h0
  have hpoint := h.point
  rw [h0] at hpoint
  cases x.isPublicKey_length _ _ hpoint

lemma KeyExchange.WellFormed.length_ciphertext (h : x.WellFormed share)
    (hh : isHybrid share.group = true) : (ciphertextPart share).length = ciphertextSize768 := by
  have hlen := h.length hh
  unfold ciphertextPart
  split_ifs
  · rw [length_drop, hlen, Nat.add_sub_cancel_left]
  · rw [length_take, hlen]
    decide

lemma getSharedKey_eq_ok {peer : Bytes}
    (h : getSharedKey x peer key = .ok v) : v = [.ecdh key peer] := by
  unfold getSharedKey at h
  split_ifs at h
  cases h
  rfl

/-- The kept key is used for every group. -/
lemma establish_eq_ok (hw : x.WellFormed hs.serverHello.serverShare):
    establishHandshakeKeys x hs c = .ok v c' ↔
      ∃ key part, hs.keyShareKeys.ecdhe = some key ∧
        getSharedKey x (ecdhPart hs.serverHello.serverShare) key = .ok part ∧
        (if isHybrid hs.serverHello.serverShare.group then
          hybridSecret x hs.serverHello.serverShare hs.keyShareKeys
            (ecdhPart hs.serverHello.serverShare) part else pure part) c = .ok v c' := by
  unfold establishHandshakeKeys
  simp only [bind_eq_ok, ofExcept_eq_ok, hw.ecdhePeerData_eq, Except.ok.injEq]
  constructor
  · rintro ⟨_, _, ⟨rfl, rfl⟩, h⟩
    cases hk : hs.keyShareKeys.ecdhe with
    | none =>
      rw [hk] at h
      cases h
    | some key =>
      rw [hk] at h
      obtain ⟨part, hpart, h⟩ := ofExcept_bind_eq_ok.mp h
      exact ⟨key, part, rfl, hpart, h⟩
  · rintro ⟨key, part, hk, hpart, h⟩
    refine ⟨_, _, ⟨rfl, rfl⟩, ?_⟩
    rw [hk]
    exact bind_eq_ok.mpr ⟨part, c, ofExcept_eq_ok.mpr ⟨hpart, rfl⟩, h⟩

/-- A hello of the package uses the two keys of the last hybrid share. -/
lemma hybridSecret_eq_ok {keys : KeySharePrivateKeys}
    {part : List SecretPart} (hw : x.WellFormed share)
    (hh : isHybrid share.group = true) (hb : c.clientHelloBuildStatus = .buildByUtls) :
    hybridSecret x share keys (ecdhPart share) part c = .ok v c' ↔
      ∃ ecdhe mlkem, keys.mlkemEcdhe = some ecdhe ∧ keys.mlkem = some mlkem ∧
        ecdhe.curve = X25519 ∧ v = (SharePrivate.hybrid ecdhe mlkem).secret share ∧ c = c' := by
  have hcurve : groupCurve share.group = X25519 := by
    rw [groupCurve, hh]
    rfl
  constructor
  · intro h
    obtain ⟨mlkem, hm, h⟩ := ofOption_bind_eq_ok.mp h
    rw [run_get_bind] at h
    obtain ⟨ecdh, c₂, h2, h⟩ := bind_eq_ok.mp h
    rw [hybridEcdh, if_pos hb] at h2
    cases hk : keys.mlkemEcdhe with
    | none =>
      rw [hk] at h2
      cases h2
    | some ecdhe =>
      rw [hk] at h2
      obtain ⟨he, rfl⟩ := ofExcept_eq_ok.mp h2
      rw [if_neg (by simp [hw.length_ciphertext hh])] at h
      cases h
      refine ⟨ecdhe, mlkem, rfl, hm, (hw.curve_eq he).trans hcurve, ?_, rfl⟩
      rw [getSharedKey_eq_ok he]
      rfl
  · rintro ⟨ecdhe, mlkem, hk, hm, hx, rfl, rfl⟩
    refine bind_eq_ok.mpr ⟨mlkem, c, ofOption_eq_ok.mpr ⟨hm, rfl⟩, ?_⟩
    rw [run_get_bind]
    refine bind_eq_ok.mpr ⟨[.ecdh ecdhe (ecdhPart share)], c, ?_, ?_⟩
    · rw [hybridEcdh, if_pos hb, hk]
      exact ofExcept_eq_ok.mpr ⟨hw.getSharedKey_eq (hx.trans hcurve.symm), rfl⟩
    · rw [if_neg (by simp [hw.length_ciphertext hh])]
      rfl

variable (d) in
/-- The ServerHello selects the group `g` with a well-formed share, and the client accepts the rest
of it. -/
structure Selects (confirmation : HashId → Bytes → String → Bytes → Bytes) (x : KeyExchange)
    (hs : HandshakeState13) (c : UConn) (g : UInt16) : Prop where
  group : hs.serverHello.serverShare.group = g
  wellFormed : x.WellFormed hs.serverHello.serverShare
  normal : hs.serverHello.random ≠ helloRetryRequestRandom
  noCookie : hs.serverHello.cookie = none
  noGroup : hs.serverHello.selectedGroup = 0
  accepted : ∃ hs₁ c₁ hs₂ c₂ psk, checkedHello d hs c = .ok hs₁ c₁ ∧
    confirmedHello d confirmation hs₁ c₁ = .ok hs₂ c₂ ∧ hs₂.selectPsk = .ok psk

variable (d) in
/-- The handshake computes the shared secret with the private keys of a share that was sent for `g`.
-/
def CompletesWith (confirmation : HashId → Bytes → String → Bytes → Bytes) (x : KeyExchange)
    (sent : List KeyShare) (hs : HandshakeState13) (c : UConn) (g : UInt16) : Prop :=
  ∃ keys : SharePrivate, ⟨g, keys.publicPart d g⟩ ∈ sent ∧
    ∃ c₁, handshakeSecret d confirmation x hs c = .ok (keys.secret hs.serverHello.serverShare) c₁

variable {confirmation : HashId → Bytes → String → Bytes → Bytes}

/-- With a kept key, the handshake comes to the computation of the shared secret. -/
lemma Selects.handshakeSecret_eq
    (h : Selects d confirmation x hs c g) (hfirst : c.handshakes = 0)
    (hctx : hs.echContext = c.echCtx)
    (hhello : hs.hello.keyShares = l) (hinner : c.InnerAgrees) (hl : c.hello.keyShares = l)
    (hg : ∃ ks ∈ l, ks.group = g) (hkey : hs.keyShareKeys.ecdhe ≠ none) :
    ∃ hs' c', HelloRead hs c hs' c' ∧
      handshakeSecret d confirmation x hs c = establishHandshakeKeys x hs' c' := by
  obtain ⟨hs1, c₁, hs2, c₂, psk, h1, h2, hpsk⟩ := h.accepted
  obtain ⟨hread1, hhello1, hctx1⟩ := checkedHello_ok h1
  have hread2 := confirmedHello_ok h2
  obtain ⟨ks, hks, hgroup⟩ := hg
  have hshares : hs2.hello.keyShares = l := by
    rcases hread2.hello with heq | ⟨ech, inner, hech, hi, heq⟩
    · rw [heq, hhello1, hhello]
    · rw [heq, ← hl]
      exact hinner ech inner (hctx.symm.trans (hctx1.symm.trans hech)) hi
  have hread : HelloRead hs c hs2 c₂ := by
    refine ⟨hread2.keys.trans hread1.keys, hread2.serverHello.trans hread1.serverHello, ?_,
      hread2.status.trans hread1.status⟩
    rcases hread2.hello with heq | ⟨ech, inner, hech, hi, heq⟩
    · exact .inl (heq.trans hhello1)
    · exact .inr ⟨ech, inner, hctx1.symm.trans hech, hi, heq⟩
  refine ⟨hs2, c₂, hread, ?_⟩
  have hbegin : beginHandshake13 d hs c = .ok hs1 c₁ := by
    rw [beginHandshake13_eq, if_neg (by omega), if_neg, h1]
    rintro (hnone | hlen)
    · exact hkey (isNone_iff_eq_none.mp hnone)
    · rw [hhello] at hlen
      rw [length_eq_zero_iff.mp hlen] at hks
      cases hks
  have hprocess : hs2.processServerHello = .ok psk := by
    have hsh : hs2.serverHello = hs.serverHello := hread.serverHello
    have hany : (hs2.hello.keyShares.any fun ks => ks.group == hs2.serverHello.serverShare.group) =
        true := by
      rw [hshares, hsh, h.group]
      exact List.any_eq_true.mpr ⟨ks, hks, beq_iff_eq.mpr hgroup⟩
    unfold HandshakeState13.processServerHello
    simp only [hany]
    rw [hsh, if_neg h.normal, if_neg (by simp [h.noCookie]), if_neg (by simp [h.noGroup]),
      if_neg h.wellFormed.group_ne]
    exact hpsk
  simp only [handshakeSecret, run_bind, hbegin, h2, hprocess]
  rfl

/-! ## Which groups complete -/

/-- The X25519 keys among the first `n` values of the random stream are different, and their public
values have the length of X25519. -/
structure Deps.KeysDiffer (d : Deps) (n : Nat) : Prop where
  length : ∀ i < n, ∀ secret, d.ecdhKey i X25519 = some secret →
    (d.ecdhPublic X25519 secret).length = x25519PublicKeySize
  differ : ∀ i < n, ∀ j < i, ∀ secret secret', d.ecdhKey i X25519 = some secret →
    d.ecdhKey j X25519 = some secret' → d.ecdhPublic X25519 secret ≠ d.ecdhPublic X25519 secret'

/-- The handshake can be completed with the group `g` of the specification: a group without an
ML-KEM part is the first of its kind in the last `key_share` extension; a hybrid group is the last
of its kind there, and the key that is kept is one for X25519. -/
def ClientHelloSpec.Completes (p : ClientHelloSpec) (heap : Ref → Ext) (g : UInt16) : Prop :=
  let groups := p.extensions.map fun r => (heap r).groups
  let last := (lastValue id groups).getD []
  if isHybrid g then lastHybrid last = some g ∧ storedCurve groups = some X25519
  else firstClassical last = some g

/-- Hybrid shares with keys from different places of the random stream differ. -/
lemma Deps.KeysDiffer.hybridShare_ne {n : Nat} (h : d.KeysDiffer n) {i j : Nat} (hi : i < n)
    (hj : j < i) {secret secret' : Bytes} (hs : d.ecdhKey i X25519 = some secret)
    (hs' : d.ecdhKey j X25519 = some secret') (g : UInt16) (m m' : MlkemKey) :
    hybridShare d g ⟨X25519, secret⟩ m ≠ hybridShare d g ⟨X25519, secret'⟩ m' := by
  intro heq
  have hlen : (d.ecdhPublic X25519 secret).length = (d.ecdhPublic X25519 secret').length :=
    (h.length i hi _ hs).trans (h.length j (hj.trans hi) _ hs').symm
  refine h.differ i hi j hj secret secret' hs hs' ?_
  unfold hybridShare at heq
  split_ifs at heq
  · exact (append_inj heq hlen).1
  · exact (append_inj' heq hlen).2

lemma exists_firstClassical {groups : List UInt16} (hg : g ∈ groups)
    (hh : isHybrid g = false) : ∃ g', firstClassical groups = some g' := by
  refine isSome_iff_exists.mp ?_
  rw [firstClassical, find?_isSome]
  exact ⟨g, hg, by simp [hh]⟩

/-- A secret names the private keys it was computed with. -/
lemma SharePrivate.eq_of_secret_hybrid {keys : SharePrivate} {ecdhe : EcdhKey}
    {mlkem : MlkemKey} (h : keys.secret share = (SharePrivate.hybrid ecdhe mlkem).secret share) :
    keys = .hybrid ecdhe mlkem := by
  cases keys with
  | classical key =>
    have hlen := congrArg List.length h
    simp only [SharePrivate.secret, joinSecrets] at hlen
    split_ifs at hlen
    · cases hlen
    · cases hlen
  | hybrid ecdhe' mlkem' =>
    simp only [SharePrivate.secret, joinSecrets] at h
    split_ifs at h
    · simp only [cons_append, nil_append, List.cons.injEq, SecretPart.ecdh.injEq,
        SecretPart.kyber.injEq, and_true] at h
      rw [h.1, h.2]
    · simp only [List.cons.injEq, SecretPart.ecdh.injEq, SecretPart.mlkem.injEq, and_true] at h
      rw [h.1, h.2]

lemma SharePrivate.eq_of_secret_classical {keys : SharePrivate}
    {peer : Bytes} (h : keys.secret share = [.ecdh key peer]) : keys = .classical key := by
  cases keys with
  | classical key' =>
    simp only [SharePrivate.secret, List.cons.injEq, SecretPart.ecdh.injEq, and_true] at h
    rw [h.1]
  | hybrid ecdhe mlkem =>
    have hlen := congrArg List.length h
    simp only [SharePrivate.secret, joinSecrets] at hlen
    split_ifs at hlen
    · cases hlen
    · cases hlen

/-- The stored keys serve a share of the group `g` in the list. -/
def StoredFor (d : Deps) (l : List KeyShare) (keys : KeySharePrivateKeys) (g : UInt16) : Prop :=
  ∃ key, keys.ecdhe = some key ∧ key.curve = groupCurve g ∧
    if isHybrid g then
      ∃ ecdhe mlkem, keys.mlkemEcdhe = some ecdhe ∧ keys.mlkem = some mlkem ∧ ecdhe.curve = X25519 ∧
        ⟨g, hybridShare d g ecdhe mlkem⟩ ∈ l
    else ⟨g, key.publicKey d⟩ ∈ l

/-- Without a kept key the handshake fails at once. -/
lemma handshakeSecret_ne_ok
    (hk : hs.keyShareKeys.ecdhe = none) : handshakeSecret d confirmation x hs c ≠ .ok v c' := by
  intro h
  obtain ⟨hs1, c₁, h1, -⟩ := bind_eq_ok.mp h
  rw [beginHandshake13_eq, hk] at h1
  split_ifs at h1 with h2 h3
  · cases h1
  · cases h1
  · exact h3 (.inl rfl)

/-- The handshake uses the stored keys. -/
lemma completesWith_iff_storedFor
    (h : Selects d confirmation x hs c g) (hb : c.clientHelloBuildStatus = .buildByUtls)
    (hfirst : c.handshakes = 0) (hctx : hs.echContext = c.echCtx) (hhello : hs.hello.keyShares = l)
    (hinner : c.InnerAgrees) (hl : c.hello.keyShares = l) (hg : ∃ ks ∈ l, ks.group = g) :
    CompletesWith d confirmation x l hs c g ↔ StoredFor d l hs.keyShareKeys g := by
  have hcomes := h.handshakeSecret_eq hfirst hctx hhello hinner hl hg
  have hshare : ∀ hs' c', HelloRead hs c hs' c' →
      x.WellFormed hs'.serverHello.serverShare ∧ hs'.serverHello.serverShare.group = g := by
    intro hs' c' hread
    rw [hread.serverHello]
    exact ⟨h.wellFormed, h.group⟩
  constructor
  · rintro ⟨keys, hmem, c₁, heq⟩
    have hkey : hs.keyShareKeys.ecdhe ≠ none := fun hk => handshakeSecret_ne_ok hk heq
    obtain ⟨hs', c', hread, hsecret⟩ := hcomes hkey
    obtain ⟨hw, hgroup⟩ := hshare hs' c' hread
    rw [hsecret] at heq
    obtain ⟨key, part, hk, hpart, hrest⟩ := (establish_eq_ok hw).mp heq
    refine ⟨key, hread.keys ▸ hk, (hw.curve_eq hpart).trans (by rw [hgroup]), ?_⟩
    rw [hgroup] at hrest
    cases hh : isHybrid g with
    | true =>
      rw [hh, if_pos rfl] at hrest
      obtain ⟨ecdhe, mlkem, he, hm, hcurve, hv, -⟩ := (hybridSecret_eq_ok hw (hgroup ▸ hh)
        (hread.status.trans hb)).mp hrest
      refine ⟨ecdhe, mlkem, hread.keys ▸ he, hread.keys ▸ hm, hcurve, ?_⟩
      rw [← hread.serverHello] at hv
      rwa [SharePrivate.eq_of_secret_hybrid hv] at hmem
    | false =>
      rw [hh, if_neg Bool.false_ne_true] at hrest
      cases hrest
      have hsecret := getSharedKey_eq_ok hpart
      rwa [SharePrivate.eq_of_secret_classical hsecret] at hmem
  · rintro ⟨key, hk, hcurve, hrest⟩
    obtain ⟨hs', c', hread, hsecret⟩ := hcomes (by simp [hk])
    obtain ⟨hw, hgroup⟩ := hshare hs' c' hread
    have hpart := hw.getSharedKey_eq (hcurve.trans (by rw [hgroup]))
    cases hh : isHybrid g with
    | true =>
      rw [hh, if_pos rfl] at hrest
      obtain ⟨ecdhe, mlkem, he, hm, hx, hmem⟩ := hrest
      refine ⟨.hybrid ecdhe mlkem, hmem, c', ?_⟩
      rw [hsecret, ← hread.serverHello]
      refine (establish_eq_ok hw).mpr ⟨key, _, hread.keys ▸ hk, hpart, ?_⟩
      rw [hgroup, hh, if_pos rfl]
      exact (hybridSecret_eq_ok hw (hgroup ▸ hh) (hread.status.trans hb)).mpr
        ⟨ecdhe, mlkem, hread.keys ▸ he, hread.keys ▸ hm, hx, rfl, rfl⟩
    | false =>
      rw [hh, if_neg Bool.false_ne_true] at hrest
      refine ⟨.classical key, hrest, c', ?_⟩
      rw [hsecret, ← hread.serverHello]
      refine (establish_eq_ok hw).mpr ⟨key, _, hread.keys ▸ hk, hpart, ?_⟩
      rw [hgroup, hh, if_neg Bool.false_ne_true]
      have hdata : ecdhPart hs'.serverHello.serverShare = hs'.serverHello.serverShare.data := by
        rw [isHybrid, Bool.or_eq_false_iff, beq_eq_false_iff_ne, beq_eq_false_iff_ne] at hh
        rw [ecdhPart, hgroup, if_neg hh.1, if_neg hh.2]
      rw [hdata]
      rfl

/-- The keys that `ApplyPreset` stores serve the groups that the specification allows. -/
lemma Filling.storedFor_iff {start : Option UInt16} {keys : KeySharePrivateKeys} {n : Nat}
    (h : Filling d start l keys n) (hn : d.KeysDiffer n) (hg : g ∈ shareGroups l) :
    StoredFor d l keys g ↔
      if isHybrid g then
        lastHybrid (shareGroups l) = some g ∧ keys.ecdhe.map EcdhKey.curve = some X25519
      else firstClassical (shareGroups l) = some g := by
  cases hh : isHybrid g with
  | true =>
    have hcurve : groupCurve g = X25519 := by rw [groupCurve, hh]; rfl
    obtain ⟨-, ks, hks, hgroup⟩ := mem_shareGroups.mp hg
    obtain ⟨g', hlast, k, hk, hs⟩ := h.hybrid ks hks (hgroup ▸ hh)
    obtain ⟨secret, mlkem, hsecret, he, hm, hmem⟩ := hs.stored
    simp only [StoredFor, hh, if_true, hlast, hcurve, he, hm, some.injEq, map_eq_some_iff]
    constructor
    · rintro ⟨key, hkey, hx, _, _, rfl, rfl, -, hsent⟩
      refine ⟨?_, key, hkey, hx⟩
      -- the keys of another group were drawn at another place
      by_contra hne
      obtain ⟨n', hle, ⟨secret', mlkem', hsecret', hdata⟩, hother⟩ := hs.others _ hsent hh
      have hlt : n' < k := lt_of_le_of_ne hle (hother fun heq => hne heq.symm)
      exact hn.hybridShare_ne hk hlt hsecret hsecret' g _ _ hdata
    · rintro ⟨rfl, key, hkey, hx⟩
      exact ⟨key, hkey, hx, _, _, rfl, rfl, rfl, hmem⟩
  | false =>
    have hcurve : groupCurve g = g := by rw [groupCurve, hh]; rfl
    obtain ⟨g', hfirst⟩ := exists_firstClassical hg hh
    obtain ⟨key, hkey, hmem⟩ := h.classical g' hfirst
    have hkc : key.curve = g' := by
      have hc := h.curve
      rw [hfirst, hkey] at hc
      exact some.inj hc
    simp only [StoredFor, hh, Bool.false_eq_true, if_false, hfirst, hcurve, hkey, some.injEq]
    constructor
    · rintro ⟨_, rfl, hx, -⟩
      exact hkc.symm.trans hx
    · rintro rfl
      exact ⟨key, rfl, hkc, hmem⟩

/-- For every specification, every group with a share that was sent and every ServerHello that
selects it, the handshake computes the shared secret with the private keys of the share exactly if
the specification allows it. -/
theorem completes_iff (confirmation : HashId → Bytes → String → Bytes → Bytes) (x : KeyExchange)
    (heap : Ref → Ext) (nextRef : Ref) (config : Config) (env : Surroundings) (p : ClientHelloSpec)
    {c c' : UConn} {hs : HandshakeState13} {sh : ServerHelloMsg} {l : List KeyShare} {g : UInt16}
    (hreg : ∀ r < nextRef, (heap r).Regular) (hp : ∀ r ∈ p.extensions, r < nextRef)
    (hpreset : applyPreset d p (uClient heap nextRef config env .custom) = .ok () c)
    (hkeys : d.KeysDiffer c.draws) (hstart : startHandshake13 d sh c = .ok hs c')
    (hl : lastValue id (c'.exts.map Ext.writtenShares) = some l) (hg : g ∈ shareGroups l)
    (hsel : Selects d confirmation x hs c' g) :
    CompletesWith d confirmation x l hs c' g ↔ p.Completes heap g := by
  obtain ⟨hbuild, rfl⟩ := startHandshake13_ok d hstart
  have hr := build_readyKeys hreg hp hpreset hbuild hl
  obtain ⟨start, hf⟩ := hr.filled
  have hmem : ∃ ks ∈ l, ks.group = g := (mem_shareGroups.mp hg).2
  rw [completesWith_iff_storedFor hsel hr.built hr.first rfl hr.hello hr.inner hr.hello hmem]
  refine (hf.storedFor_iff hkeys hg).trans ?_
  rw [ClientHelloSpec.Completes, hr.groups_eq, getD_some, ← hr.curve]

end Deps

/-! ## A hello with two shares -/

/-- A key exchange in which every value of the right length is a point. -/
def KeyExchange.sample : KeyExchange where
  isPublicKey curve b := publicKeySize curve == some b.length
  isPublicKey_length curve b h := by simpa using h
  ecdhFails _ _ := false

/-- The sample environment with public values of 32 bytes. -/
def Deps.sampleKeys : Deps :=
  { Deps.sample with ecdhPublic := fun _ secret => secret ++ List.replicate 31 0 }

/-- Shares for X25519 and P-256. -/
def twoShares : Ref → Ext
  | 0 => .supportedVersions [VersionTLS13]
  | 1 => .supportedCurves [X25519, CurveP256]
  | _ => .keyShare [⟨X25519, []⟩, ⟨CurveP256, []⟩]

lemma regular_twoShares (r : Ref) (_ : r < 3) : (twoShares r).Regular := by
  unfold twoShares
  split <;> trivial

def twoSharesSpec : ClientHelloSpec where
  cipherSuites := [0x1301]
  compressionMethods := [0]
  extensions := [0, 1, 2]
  tlsVersMin := VersionTLS13
  tlsVersMax := VersionTLS13
  greaseSeed := []

def twoSharesClient : UConn := uClient twoShares 3 { serverName := [0x61] } {} .custom

/-- A ServerHello with the given share. -/
def shareHello (share : KeyShare) : ServerHelloMsg where
  original := []
  vers := VersionTLS12
  random := List.replicate 32 1
  sessionId := List.replicate 32 3
  cipherSuite := 0x1301
  supportedVersion := VersionTLS13
  serverShare := share
  cookie_ne := noCookie_ne

/-- The client accepts the ServerHello, its key share apart. -/
def acceptsRest (d : Deps) (confirmation : HashId → Bytes → String → Bytes → Bytes)
    (hs : HandshakeState13) (c : UConn) : Bool :=
  returnsWith (fun hs₁ c₁ => returnsWith (fun hs₂ _ => hs₂.selectPsk.toBool)
    (confirmedHello d confirmation hs₁ c₁)) (checkedHello d hs c)

lemma Selects.of_acceptsRest {d : Deps} {confirmation : HashId → Bytes → String → Bytes → Bytes}
    (hw : x.WellFormed share) (hsh : hs.serverHello = shareHello share)
    (h : acceptsRest d confirmation hs c = true) : Selects d confirmation x hs c share.group := by
  refine ⟨by rw [hsh]; rfl, by rw [hsh]; exact hw, ?_, by rw [hsh]; rfl, by rw [hsh]; rfl, ?_⟩
  · rw [hsh]
    change replicate 32 1 ≠ helloRetryRequestRandom
    decide
  · obtain ⟨hs1, c₁, h1, h⟩ := exists_eq_ok_of_returnsWith h
    obtain ⟨hs2, c₂, h2, h⟩ := exists_eq_ok_of_returnsWith h
    cases hpsk : hs2.selectPsk with
    | error e =>
      rw [hpsk] at h
      cases h
    | ok psk => exact ⟨hs1, c₁, hs2, c₂, psk, h1, h2, hpsk⟩

/-- The shares of the client. -/
def twoSharesSent : List KeyShare :=
  [⟨X25519, 4 :: List.replicate 31 0⟩, ⟨CurveP256, 5 :: List.replicate 31 0⟩]

lemma wellFormed_sample {n : Nat} (hn : publicKeySize g = some n) (hh : isHybrid g = false)
    (data : Bytes) (hd : data.length = n) : KeyExchange.sample.WellFormed ⟨g, data⟩ := by
  have hpart : ecdhPart ⟨g, data⟩ = data := by
    rw [isHybrid, Bool.or_eq_false_iff, beq_eq_false_iff_ne, beq_eq_false_iff_ne] at hh
    rw [ecdhPart, if_neg hh.1, if_neg hh.2]
  refine ⟨fun h => absurd h (by simp [hh]), ?_, fun _ _ => rfl⟩
  rw [hpart, groupCurve, hh]
  simp [KeyExchange.sample, hn, hd]

/-- If the server selects P-256, the handshake uses the private key for X25519 and fails. -/
theorem second_share_fails :
    ∃ c hs c' l, applyPreset .sampleKeys twoSharesSpec twoSharesClient = .ok () c ∧
      startHandshake13 .sampleKeys (shareHello ⟨CurveP256, List.replicate 65 4⟩) c = .ok hs c' ∧
      lastValue id (c'.exts.map Ext.writtenShares) = some l ∧ CurveP256 ∈ shareGroups l ∧
      Selects .sampleKeys (fun _ _ _ _ => []) .sample hs c' CurveP256 ∧
      ¬ CompletesWith .sampleKeys (fun _ _ _ _ => []) .sample l hs c' CurveP256 := by
  set c := endState (applyPreset .sampleKeys twoSharesSpec twoSharesClient)
  have hpreset := eq_ok_of_returns (show returns (applyPreset .sampleKeys twoSharesSpec
    twoSharesClient) = true by decide +kernel)
  obtain ⟨hs, c', hstart, htest⟩ := exists_eq_ok_of_returnsWith
    (p := fun hs c' => decide (lastValue id (c'.exts.map Ext.writtenShares) = some twoSharesSent) &&
      acceptsRest .sampleKeys (fun _ _ _ _ => []) hs c' &&
      failsWith errInvalidShare (handshakeSecret .sampleKeys (fun _ _ _ _ => []) .sample hs c'))
    (show returnsWith _ (startHandshake13 .sampleKeys
      (shareHello ⟨CurveP256, replicate 65 4⟩) c) = true by decide +kernel)
  rw [Bool.and_eq_true, Bool.and_eq_true, decide_eq_true_eq] at htest
  obtain ⟨⟨hlast, haccepts⟩, hfails⟩ := htest
  have hsh : hs.serverHello = shareHello ⟨CurveP256, replicate 65 4⟩ := by
    rw [(startHandshake13_ok .sampleKeys hstart).2]
  have hw := wellFormed_sample (g := CurveP256) rfl rfl (replicate 65 4) length_replicate
  refine ⟨c, hs, c', twoSharesSent, hpreset, hstart, hlast, by decide,
    .of_acceptsRest hw hsh haccepts, ?_⟩
  rintro ⟨keys, -, c₁, heq⟩
  obtain ⟨s, hfail⟩ := exists_eq_error_of_failsWith hfails
  cases heq.symm.trans hfail

/-- If the server selects X25519, the handshake completes. -/
theorem first_share_completes :
    ∃ c hs c', applyPreset .sampleKeys twoSharesSpec twoSharesClient = .ok () c ∧
      startHandshake13 .sampleKeys (shareHello ⟨X25519, List.replicate 32 4⟩) c = .ok hs c' ∧
      CompletesWith .sampleKeys (fun _ _ _ _ => []) .sample twoSharesSent hs c' X25519 := by
  set c := endState (applyPreset .sampleKeys twoSharesSpec twoSharesClient)
  have hpreset := eq_ok_of_returns (show returns (applyPreset .sampleKeys twoSharesSpec
    twoSharesClient) = true by decide +kernel)
  obtain ⟨hs, c', hstart, htest⟩ := exists_eq_ok_of_returnsWith
    (p := fun hs c' => decide (lastValue id (c'.exts.map Ext.writtenShares) = some twoSharesSent) &&
      acceptsRest .sampleKeys (fun _ _ _ _ => []) hs c')
    (show returnsWith _ (startHandshake13 .sampleKeys
      (shareHello ⟨X25519, replicate 32 4⟩) c) = true by decide +kernel)
  rw [Bool.and_eq_true, decide_eq_true_eq] at htest
  obtain ⟨hlast, haccepts⟩ := htest
  have hsh : hs.serverHello = shareHello ⟨X25519, replicate 32 4⟩ := by
    rw [(startHandshake13_ok .sampleKeys hstart).2]
  have hw := wellFormed_sample (g := X25519) rfl rfl (replicate 32 4) length_replicate
  have hdraws : c.draws = 6 := by decide +kernel
  have hkeys : Deps.sampleKeys.KeysDiffer c.draws := by
    rw [hdraws]
    refine ⟨fun i _ secret hs => ?_, fun i hi j hj secret secret' hs hs' => ?_⟩
    · cases hs
      rfl
    · cases hs
      cases hs'
      revert i j
      decide
  refine ⟨c, hs, c', hpreset, hstart, ?_⟩
  have hfirst : twoSharesSpec.Completes twoShares X25519 := by
    unfold ClientHelloSpec.Completes
    decide
  exact (completes_iff (fun _ _ _ _ => []) .sample twoShares 3 _ {} twoSharesSpec regular_twoShares
    (by decide) hpreset hkeys hstart hlast (by decide) (.of_acceptsRest hw hsh haccepts)).mpr hfirst

end Utls
