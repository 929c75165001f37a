import Utls.EchBuild

/-!
# The ECH extension that is sent

The placeholder of ECH is an extension of the list.  Its `writeToUConn` marshals the hello with the
random body of the placeholder, on every `ApplyConfig`; the sealed extension only gets into
`Hello.Raw` when the hello is marshalled with ECH, which happens in the first build.  So a first
build leaves the sealed extension in the bytes (`ech_sealed_by_builds`), and a second one replaces
it by the random body (`ech_lost_by_second_build`).
-/

namespace Utls

open Wire Exec List Option

section Deps

variable (d : Deps)

/-! ## The placeholders of a specification -/

lemma allocExts_heap {es : List Ext} :
    ∀ {c c' : UConn} {rs : List Ref}, allocExts es c = .ok rs c' →
      rs.map c'.heap = es ∧ c.nextRef ≤ c'.nextRef ∧ ∀ r < c.nextRef, c'.heap r = c.heap r := by
  induction es with
  | nil =>
    intro c c' rs h
    cases h
    exact ⟨rfl, le_rfl, fun _ _ => rfl⟩
  | cons e es ih =>
    intro c c' rs h
    obtain ⟨_, _, h1, h⟩ := bind_eq_ok.mp h
    cases h1
    obtain ⟨rs', c1, h2, h⟩ := bind_eq_ok.mp h
    cases h
    obtain ⟨hmap, hnext, hkeep⟩ := ih h2
    have hlt : ∀ r ≤ c.nextRef, r < (c.alloc e).nextRef := fun r hr => Nat.lt_succ_of_le hr
    refine ⟨?_, le_trans (Nat.le_succ _) hnext, fun r hr => ?_⟩
    · rw [map_cons, hmap, hkeep _ (hlt _ le_rfl)]
      exact congrArg (· :: es) (Function.update_self _ _ _)
    · rw [hkeep r (hlt r hr.le)]
      exact Function.update_of_ne hr.ne _ _

/-- Applying a specification keeps its placeholders. -/
lemma Applied.placeholders {p : ClientHelloSpec} {c c' : UConn} (h : Applied p c c') (ht : c.Tidy)
    (hp : c.Has p.extensions) :
    c'.placeholders = (p.extensions.map c.heap).map (·.isGreaseECH) := by
  obtain ⟨c0, c1, hs, ha, hsync⟩ := h.synced
  have ht0 : c0.Tidy := by
    refine ⟨fun r hr => ?_, fun q hq r hr => ?_, fun r hr => ?_, fun r hr => ?_, fun r hr => ?_⟩
    · rw [hs.next]
      exact hp r (hs.extensions ▸ hr)
    · rw [hs.next]
      exact ht.spec q (hs.spec ▸ hq) r hr
    · rw [hs.next, hs.heap]
      exact ht.ticket r (hs.controller ▸ hr)
    · rw [hs.next, hs.heap]
      exact ht.psk r (hs.controller ▸ hr)
    · rw [hs.heap]
      exact ht.regular r (hs.next ▸ hr)
  rw [hsync.placeholders, ha.placeholders ht0, UConn.placeholders, UConn.exts, hs.extensions, hs.heap]

/-- Removing the `server_name` extensions adds no placeholder. -/
lemma UConn.placeholders_withoutSNI (c : UConn) :
    c.withoutSNI.placeholders.Sublist c.placeholders :=
  (filter_sublist.map _).map _

/-- The specification of the connection has at most one placeholder of ECH. -/
def UConn.OnePlaceholder (c : UConn) : Prop :=
  match c.clientHelloID with
  | .preset n =>
    ∀ data, d.utlsIdToSpec n = some data → (data.extensions.map (·.isGreaseECH)).count true ≤ 1
  | _ => c.placeholders.count true ≤ 1

lemma Fresh.placeholders {c c' : UConn} {u : Unit} (h : Fresh d c) (ho : c.OnePlaceholder d)
    (hp : prepareBuild d c = .ok u c') : c'.placeholders.count true ≤ 1 := by
  obtain ⟨c1, h1, hc'⟩ := prepareBuild_ok d hp
  have hone : c1.placeholders.count true ≤ 1 := by
    cases h with
    | preset heap nextRef config env n hreg =>
      obtain ⟨o, c2, h2, h1⟩ := bind_eq_ok.mp h1
      rw [specOfID, run_get_bind] at h2
      obtain ⟨p, c3, hg, h2⟩ := bind_eq_ok.mp h2
      cases h2
      have ht3 := ((keeps_generateSpec d n).of_ok hg).tidy (tidy_uClient hreg _ _ _)
      have hhas := generateSpec_ok d hg
      have ht2 := (buildStep_setSpec hhas).tidy ht3
      have ha := applyPreset_ok d ht2 hhas h1
      -- the objects that were made hold the extensions of the table
      obtain ⟨data, hdata, hg⟩ := ofOption_bind_eq_ok.mp hg
      obtain ⟨rs, _, halloc, hg⟩ := bind_eq_ok.mp hg
      cases hg
      have hheap : rs.map c3.heap = data.extensions := (allocExts_heap halloc).1
      rw [ha.placeholders ht2 hhas]
      change ((rs.map c3.heap).map (·.isGreaseECH)).count true ≤ 1
      rw [hheap]
      exact ho data hdata
    | custom heap nextRef config env p hx hp h =>
      have ha := applyPreset_ok d (tidy_uClient hx _ _ _) hp h
      have hid : c.clientHelloID = .custom :=
        congrArg Prod.fst (UConn.history_of_standing ha.standing)
      rw [applyPresetByID_custom d hid ha.spec] at h1
      cases h1
      simp only [UConn.OnePlaceholder, hid] at ho
      exact ho
  rcases hc' with rfl | rfl
  · exact (c1.placeholders_withoutSNI.count_le true).trans hone
  · exact hone

/-- Replacing the only placeholder leaves none. -/
lemma noGrease_set {l : List Ext} {i : Nat} (hi : echIndex l = some i)
    (h1 : (l.map (·.isGreaseECH)).count true ≤ 1) (id : UInt16) (data : Bytes) :
    ∀ e ∈ l.set i (.generic id data), e.isGreaseECH = false := by
  induction l generalizing i with
  | nil => cases hi
  | cons x l ih =>
    intro e he
    rw [echIndex, findIdx?_cons] at hi
    cases hx : x.isGreaseECH with
    | true =>
      -- it is the first one, and there is no other
      rw [hx, if_pos rfl] at hi
      cases hi
      rw [map_cons, hx, count_cons_self] at h1
      have hnone : true ∉ l.map (·.isGreaseECH) := count_eq_zero.mp (by omega)
      rcases mem_cons.mp he with rfl | he
      · rfl
      · cases hg : e.isGreaseECH with
        | false => rfl
        | true => exact absurd (List.mem_map.mpr ⟨e, he, hg⟩) hnone
    | false =>
      rw [hx, if_neg (by simp)] at hi
      obtain ⟨j, hj, rfl⟩ := map_eq_some_iff.mp hi
      rw [map_cons, hx, count_cons_of_ne (by simp)] at h1
      rcases mem_cons.mp he with rfl | he
      · exact hx
      · exact ih hj h1 e he

/-! ## Repeated builds -/

/-- `Hello.Raw` is the hello with the ECH extension `data` in the place of the placeholder, and with
no other placeholder.  The extension names the configuration, the algorithms and the encapsulated
key of the context `ctx`, and its payload opens to the inner hello of the context: for a receiver
the additional data is the hello with a zeroed payload, and this is its first message. -/
structure UConn.EchSentAs (c : UConn) (ctx : EchClientContext) (i : Nat) (data zeroed payload : Bytes) :
    Prop where
  place : echIndex c.exts = some i
  raw : c.hello.original = some (clientHelloEncoding d.parseIP c.hello
    (c.exts.set i (.generic extensionEncryptedClientHello data)))
  noGrease : ∀ e ∈ c.exts.set i (.generic extensionEncryptedClientHello data), e.isGreaseECH = false
  ext : generateOuterECHExt ctx.config.configID ctx.kdfID ctx.aeadID ctx.encapsulatedKey payload =
    some data
  parsed : parseOuterECHExt data =
    some ⟨⟨ctx.kdfID, ctx.aeadID⟩, ctx.config.configID, ctx.encapsulatedKey, payload⟩
  zeroedExt : generateOuterECHExt ctx.config.configID ctx.kdfID ctx.aeadID ctx.encapsulatedKey
    (List.replicate payload.length 0) = some zeroed
  opens : d.hpkeOpen ctx.aeadID ctx.hpkeContext.secret 0
    ((clientHelloEncoding d.parseIP c.hello
      (c.exts.set i (.generic extensionEncryptedClientHello zeroed))).drop 4) payload =
    some ctx.encodedInnerHello

/-- The ECH extension in `Hello.Raw` is the one that was sealed for the stored context. -/
def UConn.EchSent (c : UConn) : Prop :=
  ∃ ctx i data zeroed payload, c.echCtx = some ctx ∧ c.EchSentAs d ctx i data zeroed payload

lemma SealedAt.echSent {c : UConn} {ctx : EchClientContext} {i : Nat} {payload : Bytes}
    (h : SealedAt d c i true ctx 0 payload) (hctx : c.echCtx = some ctx)
    (hi : echIndex c.exts = some i) (h1 : c.placeholders.count true ≤ 1) : c.EchSent d := by
  obtain ⟨data, hdata, hraw⟩ := h.raw
  obtain ⟨zeroed, hzeroed, hpayload⟩ := h.sealed
  have hopen : d.hpkeOpen ctx.aeadID ctx.hpkeContext.secret 0
      ((clientHelloEncoding d.parseIP c.hello
        (c.exts.set i (.generic extensionEncryptedClientHello zeroed))).drop 4) payload =
      some ctx.encodedInnerHello := by
    rw [hpayload]
    exact d.hpkeOpen_seal _ _ _ _ _
  exact ⟨ctx, i, data, zeroed, payload, hctx, hi, hraw, noGrease_set hi h1 _ _, hdata,
    parseOuterECHExt_generate hdata, hzeroed, hopen⟩

/-- `n` builds in a row. -/
def buildTimes : Nat → M Unit
  | 0 => pure ()
  | n + 1 => do
    buildTimes n
    buildHandshakeState d true

/-- In every run of builds that all find the hello not built yet, the ECH extension in `Hello.Raw`
is the one that was sealed for the stored context. -/
theorem ech_sealed_by_builds {n : Nat} {c c' : UConn} (hc : Fresh d c) (ho : c.OnePlaceholder d)
    (hech : 0 < (c.config.encryptedClientHelloConfigList.getD []).length)
    (hf : d.echPskFallback = false) (hn : 1 ≤ n)
    (hfirst : ∀ k < n, ∀ c₁, buildTimes d k c = .ok () c₁ → c₁.clientHelloBuildStatus = .notBuilt)
    (h : buildTimes d n c = .ok () c') : c'.EchSent d := by
  obtain ⟨m, rfl⟩ := Nat.exists_eq_succ_of_ne_zero (by omega : n ≠ 0)
  obtain ⟨_, c₁, hm, h⟩ := bind_eq_ok.mp h
  have hn1 := hfirst m (Nat.lt_succ_self m) c₁ hm
  cases m with
  | zero =>
    cases hm
    obtain ⟨c₁, hp, hplaceholders, ctx, i, payload, hctx, -, hi, hsealed⟩ :=
      first_build_seals d hc.sound hn1 hech hf h
    exact hsealed.echSent d hctx hi (hplaceholders ▸ hc.placeholders d ho hp)
  | succ k =>
    -- a build that returns leaves the hello built
    obtain ⟨_, c2, -, hm⟩ := bind_eq_ok.mp hm
    obtain ⟨run⟩ := buildHandshakeState_run d hm
    rw [run.result] at hn1
    cases hn1

end Deps

/-- An extension of the list is no longer than the hello. -/
lemma length_le_clientHelloEncoding (parseIP : GoString → Bool) (h : ClientHelloMsg)
    {exts : List Ext} {i : Nat} (hi : i < exts.length) (id : UInt16) (data : Bytes) :
    (helloHeader h).length + data.length ≤
      (clientHelloEncoding parseIP h (exts.set i (.generic id data))).length := by
  have hmem : Ext.generic id data ∈ exts.set i (.generic id data) := mem_set hi _
  have hwire : ((Ext.generic id data).wire parseIP).length = 4 + data.length := by
    simp [Ext.wire, extFrame]
    omega
  have hle : ((Ext.generic id data).wire parseIP).length ≤
      ((exts.set i (.generic id data)).flatMap fun e => e.wire parseIP).length := by
    rw [length_flatMap]
    exact single_le_sum (fun _ _ => Nat.zero_le _) _ (List.mem_map.mpr ⟨_, hmem, rfl⟩)
  have hne : (exts.set i (Ext.generic id data)).length ≠ 0 := by
    rw [length_set]
    omega
  rw [clientHelloEncoding, extensionBlock, if_neg hne]
  simp only [length_cons, length_append, length_vec16]
  omega

/-! ## A client with ECH -/

/-- A list with one ECH configuration, whose public name is `ab.c`. -/
def sampleEchConfigList : Bytes :=
  [0, 24, 0xfe, 0x0d, 0, 20, 7, 0, 0x20, 0, 1, 9, 0, 4, 0, 1, 0, 1, 0, 4, 97, 98, 46, 99, 0, 0]

/-- A specification of TLS 1.3 with a placeholder of ECH. -/
def echSpec : ClientHelloSpec where
  cipherSuites := [0x1301]
  extensions := [0, 1, 2]
  tlsVersMin := VersionTLS13
  tlsVersMax := VersionTLS13
  greaseSeed := []

/-- Its extensions. -/
def echSpecExts : Ref → Ext
  | 0 => .sni []
  | 1 => .supportedVersions [VersionTLS13]
  | _ => .greaseECH
    { candidateCipherSuites := []
      cipherSuite := ⟨1, 1⟩
      candidateConfigIds := []
      configId := 0
      encapsulatedKey := []
      candidatePayloadLens := [4]
      payload := []
      initDone := false }

lemma regular_echSpecExts (r : Ref) : (echSpecExts r).Regular := by
  unfold echSpecExts
  split <;> trivial

/-- A client to which it is applied, with the inner name `a`. -/
def echClient : UConn :=
  endState (applyPreset .sample echSpec (uClient echSpecExts 3
    { serverName := [0x61], encryptedClientHelloConfigList := some sampleEchConfigList } {} .custom))

lemma fresh_echClient : Fresh .sample echClient := by
  refine Fresh.custom _ 3 _ _ echSpec ?_ ?_ (eq_ok_of_returns (by decide +kernel))
  · exact fun r _ => regular_echSpecExts r
  · simp [echSpec]

lemma onePlaceholder_echClient : echClient.OnePlaceholder .sample := by
  have hid : echClient.clientHelloID = .custom := rfl
  simp only [UConn.OnePlaceholder, hid]
  decide +kernel

/-- The client builds once. -/
theorem ech_sealed_by_one_build :
    ∃ c', buildTimes .sample 1 echClient = .ok () c' ∧ c'.EchSent .sample := by
  have h := eq_ok_of_returns (show returns (buildTimes .sample 1 echClient) = true by decide +kernel)
  refine ⟨_, h, ech_sealed_by_builds .sample fresh_echClient onePlaceholder_echClient
    (by decide +kernel) rfl le_rfl (fun k hk c1 h1 => ?_) h⟩
  obtain rfl : k = 0 := by omega
  cases h1
  decide +kernel

/-- The client builds twice: the bytes carry the random body of the placeholder, while the context
is stored. -/
theorem ech_lost_by_second_build :
    ∃ c', buildTimes .sample 2 echClient = .ok () c' ∧ c'.echCtx.isSome = true ∧
      c'.hello.original = some (clientHelloEncoding Deps.sample.parseIP c'.hello c'.exts) ∧
      c'.exts.any (·.isGreaseECH) = true ∧ ¬c'.EchSent .sample := by
  have h := eq_ok_of_returns (show returns (buildTimes .sample 2 echClient) = true by decide +kernel)
  refine ⟨_, h, by decide +kernel, by decide +kernel, by decide +kernel, ?_⟩
  rintro ⟨ctx, i, data, zeroed, payload, hctx, hsent⟩
  set c' := endState (buildTimes .sample 2 echClient)
  have hi : i = 2 := by
    have h2 : echIndex c'.exts = some 2 := by decide +kernel
    exact some.inj (hsent.place.symm.trans h2)
  -- a payload for the inner hello is too long for the bytes
  have hinner : ctx.encodedInnerHello.length = 96 := by
    have hlen : c'.echCtx.map (fun ctx => ctx.encodedInnerHello.length) = some 96 := by decide +kernel
    rw [hctx] at hlen
    exact some.inj hlen
  have hpayload : payload.length - 16 = 96 := by
    have hopen := congrArg List.length (some.inj hsent.opens)
    rw [hinner, length_take] at hopen
    omega
  have hdata := length_generateOuterECHExt hsent.ext
  have hraw : c'.hello.original.map List.length = some 134 := by decide +kernel
  have hheader : (helloHeader c'.hello).length = 73 := by decide +kernel
  have hlt : 2 < c'.exts.length := by decide +kernel
  have hle := length_le_clientHelloEncoding Deps.sample.parseIP c'.hello hlt
    extensionEncryptedClientHello data
  rw [hsent.raw, hi] at hraw
  have hraw := some.inj hraw
  omega

end Utls
