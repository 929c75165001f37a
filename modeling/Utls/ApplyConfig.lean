import Utls.Marshal

/-!
# Applying the extensions to the connection

`writeToUConn` is the method by which an extension tells the connection what it will announce;
`applyConfig` calls it for every extension of the list, in order.  Most extensions only copy their
contents.  Three do more: `renegotiation_info` takes over the saved `Finished` message of the
client, a shuffling `trust_anchors` extension draws its order, and the placeholder of ECH marshals
the whole hello.

What `applyConfig` can touch is the relation `ConfigStep`; `applyConfig_raw` says when it leaves
`Hello.Raw` in agreement with the extension list.
-/

namespace Utls

variable {e e' : Ext} {c : UConn}

open Wire Exec

/-! ## The methods -/

/-- `clientSessionCacheKey`. -/
def UConn.clientSessionCacheKey (c : UConn) : GoString :=
  if c.config.serverName.length > 0 then c.config.serverName else c.remoteAddr.getD []

/-- The entry of the session cache for this connection, if there is a cache. -/
def UConn.cachedSession (c : UConn) : Option SessionState :=
  c.config.clientSessionCache.bind fun cache => cache c.clientSessionCacheKey

/-- Exchanges two entries of a list under construction. -/
def swapEntries {l : List Bytes} (out : { o : Array Bytes // o.toList.Perm l }) (i j : Nat) :
    { o : Array Bytes // o.toList.Perm l } :=
  if h : i < out.1.size ∧ j < out.1.size then
    ⟨out.1.swap i j h.1 h.2, (Array.swap_perm h.1 h.2).toList.trans out.2⟩
  else out

/-- A `renegotiation_info` extension that announces support. -/
def RenegotiationSupport.announced : RenegotiationSupport → Bool
  | .onceAsClient | .freelyAsClient => true
  | _ => false

section Deps

variable (d : Deps)

/-- The loop of `(*TrustAnchorsExtension).writeToUConn`; `none` if the random source fails. -/
def shuffleEntries (l : List Bytes) :
    Nat → { o : Array Bytes // o.toList.Perm l } → M (Option { o : Array Bytes // o.toList.Perm l })
  | 0, out => return some out
  | i + 1, out => do
    match ← tryRand d 8 with
    | none => return none
    | some b => shuffleEntries l i (swapEntries out (i + 1) (beNat b % (i + 2)))

/-- `(*TrustAnchorsExtension).writeToUConn`, as the new value of the extension. -/
def TrustAnchorsExtension.chooseOrder (e : TrustAnchorsExtension) : M TrustAnchorsExtension := do
  if e.shuffle ∧ 2 ≤ e.trustAnchors.length then
    match ← shuffleEntries d e.trustAnchors (e.trustAnchors.length - 1)
        ⟨e.trustAnchors.toArray, by simp⟩ with
    | none => return { e with emitOrder := none }
    | some out => return { e with emitOrder := some out.1.toList }
  else return { e with emitOrder := none }

/-- `writeToUConn` of the extensions that only copy their contents. -/
def Ext.applyTo (r : Ref) (c : UConn) : Ext → UConn
  | .sni name =>
    let c := if c.config.encryptedClientHelloConfigList.isNone then
      c.updConfig fun cfg => { cfg with serverName := name } else c
    c.updHello fun h => { h with serverName := d.hostname name }
  | .statusRequest | .statusRequestV2 => c.updHello fun h => { h with ocspStapling := true }
  | .supportedCurves curves =>
    (c.updConfig fun cfg => { cfg with curvePreferences := curves }).updHello
      fun h => { h with supportedCurves := curves }
  | .supportedPoints pts => c.updHello fun h => { h with supportedPoints := pts }
  | .signatureAlgorithms algs => c.updHello fun h =>
      { h with supportedSignatureAlgorithms := algs.filter fun a => !isGREASEUint16 a }
  | .signatureAlgorithmsCert algs =>
    c.updHello fun h => { h with supportedSignatureAlgorithms := algs }
  | .alpn protos =>
    (c.updConfig fun cfg => { cfg with nextProtos := protos }).updHello
      fun h => { h with alpnProtocols := protos }
  | .sct => c.updHello fun h => { h with scts := true }
  | .extendedMasterSecret => c.updHello fun h => { h with extendedMasterSecret := true }
  | .utlsCompressCert algs => { c with certCompressionAlgs := algs }
  | .keyShare shares => c.updHello fun h => { h with keyShares := shares }
  | .pskKeyExchangeModes modes => c.updHello fun h => { h with pskModes := modes }
  | .supportedVersions vs => c.updHello fun h => { h with supportedVersions := vs }
  | .npn protos =>
    (c.updConfig fun cfg => { cfg with nextProtos := protos }).updHello
      fun h => { h with nextProtoNeg := true }
  | .renegotiationInfo kind _ =>
    let c := c.updConfig fun cfg => { cfg with renegotiation := kind }
    if kind.announced then
      let c := c.updHello fun h => { h with secureRenegotiationSupported := true }
      if c.handshakes > 0 then c.store r (.renegotiationInfo kind c.clientFinished) else c
    else c
  | .fakeEarlyData => c.updHello fun h => { h with earlyData := true }
  | .sessionTicket _ | .utlsPreSharedKey _ => c.updHello fun h => { h with ticketSupported := true }
  | .fakePreSharedKey _ =>
    if c.cachedSession.isSome then { c with helloPskIdentities := .ofExt r } else c
  | .applicationSettings _ | .applicationSettingsNew _ | .generic _ _ | .utlsGrease _ _
  | .utlsPadding _ | .quicTransportParameters _ | .cookie _ | .fakeChannelID _
  | .fakeRecordSizeLimit _ | .fakeTokenBinding _ _ _ | .fakeDelegatedCredentials _
  | .greaseECH _ | .trustAnchors _ => c

/-- `ext.writeToUConn(uconn)`. -/
def writeToUConn (r : Ref) : M Unit := do
  match ← loadExt r with
  | .greaseECH _ => do
    modify fun c => { c with ech := some r }
    marshalClientHelloNoECH d
  | .trustAnchors e => do
    let e ← e.chooseOrder d
    storeExt r (.trustAnchors e)
  | e => modify fun c => e.applyTo d r c

/-- `writeToUConn` of each extension, up to the first error. -/
def applyExts : List Ref → M Unit
  | [] => return ()
  | r :: rs => do
    writeToUConn d r
    applyExts rs

/-- `ApplyConfig`. -/
def applyConfig : M Unit := do
  let c ← get
  applyExts d c.extensions

end Deps

/-! ## What the methods touch -/

/-- The extension is the placeholder of ECH. -/
def Ext.isGreaseECH : Ext → Bool
  | .greaseECH _ => true
  | _ => false

/-- The extension without the values that `writeToUConn`, `Len` and `Update` store in it. -/
def Ext.core : Ext → Ext
  | .renegotiationInfo kind _ => .renegotiationInfo kind []
  | .trustAnchors t => .trustAnchors { t with emitOrder := none }
  | e => e.skeleton

/-- `writeToUConn` leaves the extension as it is: it would store the saved `Finished` message that
is already there, and it draws no order. -/
def Ext.Steady (c : UConn) : Ext → Prop
  | .renegotiationInfo kind conn =>
    kind.announced = true → c.handshakes > 0 → conn = c.clientFinished
  | .trustAnchors t => ¬(t.shuffle = true ∧ 2 ≤ t.trustAnchors.length) ∧ t.emitOrder = none
  | _ => True

/-- `e'` is `e` with values stored in it; what is steady and has its caches filled stays. -/
structure Ext.Rewrite (c : UConn) (e e' : Ext) : Prop where
  core : e'.core = e.core
  steady : e.Filled → e.isPadding = false → e.Steady c → e' = e
  regular : e.Regular → e'.Regular
  sized : e.Sized → e'.Sized

lemma Ext.Rewrite.refl (c : UConn) (e : Ext) : e.Rewrite c e := ⟨rfl, fun _ _ _ => rfl, id, id⟩

lemma Ext.core_eq_of_skeleton_eq (h : e'.skeleton = e.skeleton) : e'.core = e.core := by
  cases e <;> cases e' <;> simp_all [Ext.skeleton, Ext.core]

lemma Ext.Refresh.rewrite (h : e.Refresh e') (c : UConn) : e.Rewrite c e' :=
  ⟨Ext.core_eq_of_skeleton_eq h.skeleton, fun hf hp _ => h.filled hf hp, h.regular, h.sized⟩

lemma Ext.isGreaseECH_core (e : Ext) : e.core.isGreaseECH = e.isGreaseECH := by
  cases e <;> rfl

lemma Ext.Rewrite.isGreaseECH_eq (h : e.Rewrite c e') : e'.isGreaseECH = e.isGreaseECH := by
  rw [← e'.isGreaseECH_core, h.core, e.isGreaseECH_core]

/-- A steady extension stays steady. -/
lemma Ext.Rewrite.steady_right (h : e.Rewrite c e') (hs : e.Steady c) : e'.Steady c := by
  cases e with
  | renegotiationInfo kind conn => rw [h.steady trivial rfl hs]; exact hs
  | trustAnchors t => rw [h.steady trivial rfl hs]; exact hs
  | _ =>
    have := h.core
    cases e' <;> simp_all [Ext.core, Ext.skeleton, Ext.Steady]

/-- The fields that `ApplyConfig` never writes. -/
def UConn.untouched (c : UConn) : UConn :=
  { c with
    heap := fun _ => .sct
    draws := 0
    config :=
      { c.config with
        serverName := [], nextProtos := [], curvePreferences := [], renegotiation := .never }
    hello := { sessionTicket := c.hello.sessionTicket }
    helloPskIdentities := .own []
    certCompressionAlgs := []
    ech := none }

/-- What `ApplyConfig` can do to a connection. -/
structure ConfigStep (c c' : UConn) : Prop where
  frame : c'.untouched = c.untouched
  header : c'.hello.header = c.hello.header
  heap : ∀ r, (c.heap r).Rewrite c (c'.heap r)

namespace ConfigStep

variable {c c' : UConn}

/-- An untouched field. -/
lemma field {α : Type} (h : ConfigStep c c') (f : UConn → α)
    (hf : ∀ c : UConn, f c.untouched = f c := by intro; rfl) : f c' = f c := by
  rw [← hf c', ← hf c, h.frame]

lemma extensions_eq (h : ConfigStep c c') : c'.extensions = c.extensions :=
  h.field UConn.extensions

lemma regularExts (h : ConfigStep c c') (hc : c.RegularExts) : c'.RegularExts :=
  hc.of_heap h.extensions_eq fun r _ => (h.heap r).regular

lemma steady_iff (h : ConfigStep c c') (e : Ext) : e.Steady c' ↔ e.Steady c := by
  have hh : c'.handshakes = c.handshakes := h.field UConn.handshakes
  have hf : c'.clientFinished = c.clientFinished := h.field UConn.clientFinished
  cases e <;> simp [Ext.Steady, hh, hf]

end ConfigStep

instance : IsPreorder UConn ConfigStep where
  refl c := ⟨rfl, rfl, fun _ => .refl _ _⟩
  trans := by
    intro c₁ c₂ c₃ h h'
    refine ⟨h'.frame.trans h.frame, h'.header.trans h.header, fun r => ?_⟩
    refine ⟨(h'.heap r).core.trans (h.heap r).core, fun hf hp hs => ?_,
      (h'.heap r).regular ∘ (h.heap r).regular, (h'.heap r).sized ∘ (h.heap r).sized⟩
    have h₂ : c₂.heap r = c₁.heap r := (h.heap r).steady hf hp hs
    rw [← h₂] at hf hp hs
    rw [← h₂]
    exact (h'.heap r).steady hf hp ((h.steady_iff _).mpr hs)

lemma MarshalStep.configStep {c' : UConn} (h : MarshalStep c c') : ConfigStep c c' := by
  obtain ⟨heap, draws, raw, rfl, hheap⟩ := h
  exact ⟨rfl, rfl, fun r => (hheap r).rewrite c⟩

/-- A store of a rewritten extension. -/
lemma configStep_store {r : Ref} (h : (c.heap r).Rewrite c e) : ConfigStep c (c.store r e) := by
  refine ⟨rfl, rfl, fun r' => ?_⟩
  by_cases hr : r' = r
  · subst hr
    simpa using h
  · simpa [hr] using Ext.Rewrite.refl c _

section Deps

variable (d : Deps)

variable {c c' : UConn}

/-- The extensions that only copy their contents do just that. -/
lemma configStep_applyTo (r : Ref) (c : UConn) : ConfigStep c ((c.heap r).applyTo d r c) := by
  cases he : c.heap r with
  | sni name =>
    simp only [Ext.applyTo]
    split_ifs <;> exact ⟨rfl, rfl, fun _ => .refl _ _⟩
  | fakePreSharedKey e =>
    simp only [Ext.applyTo]
    split_ifs <;> exact ⟨rfl, rfl, fun _ => .refl _ _⟩
  | renegotiationInfo kind conn =>
    simp only [Ext.applyTo]
    split_ifs with hk hh
    · have hw : (c.heap r).Rewrite c (.renegotiationInfo kind c.clientFinished) := by
        rw [he]
        exact ⟨rfl, fun _ _ hs => by rw [hs hk hh], id, fun ⟨_, h, _⟩ => nomatch h⟩
      have := configStep_store hw
      exact ⟨this.frame, this.header, this.heap⟩
    · exact ⟨rfl, rfl, fun _ => .refl _ _⟩
    · exact ⟨rfl, rfl, fun _ => .refl _ _⟩
  | _ => exact ⟨rfl, rfl, fun _ => .refl _ _⟩

lemma keeps_shuffleEntries (l : List Bytes) (i : Nat) :
    ∀ out, Keeps DrawStep (shuffleEntries d l i out) := by
  induction i with
  | zero => exact fun out => .pure _
  | succ i ih =>
    intro out
    refine (keeps_tryRand d 8).bind fun o => ?_
    cases o with
    | none => exact .pure _
    | some b => exact ih _

lemma keeps_chooseOrder (e : TrustAnchorsExtension) : Keeps DrawStep (e.chooseOrder d) := by
  unfold TrustAnchorsExtension.chooseOrder
  refine Keeps.ite ((keeps_shuffleEntries d _ _ _).bind fun o => ?_) (.pure _)
  cases o <;> exact .pure _

/-- The order that is chosen is one of the present identifiers; nothing else changes, and without
shuffling there is no order to choose. -/
lemma yields_chooseOrder (c : UConn) (e : TrustAnchorsExtension) :
    Yields (fun e' => (Ext.trustAnchors e).Rewrite c (.trustAnchors e') ∧ e'.Current)
      (e.chooseOrder d) := by
  unfold TrustAnchorsExtension.chooseOrder
  by_cases hs : e.shuffle = true ∧ 2 ≤ e.trustAnchors.length
  · rw [if_pos hs]
    refine .after fun o => ?_
    have hcore : ∀ e', (Ext.trustAnchors e').core = (Ext.trustAnchors e).core → e'.Current →
        (Ext.trustAnchors e).Rewrite c (.trustAnchors e') ∧ e'.Current :=
      fun e' h hcur => ⟨⟨h, fun _ _ h => absurd hs h.1, fun _ => hcur, fun ⟨_, h, _⟩ => nomatch h⟩, hcur⟩
    cases o with
    | none => exact .pure (hcore _ rfl nofun)
    | some out => exact .pure (hcore _ rfl (by rintro o ⟨⟩; exact out.2))
  · rw [if_neg hs]
    have hcur : { e with emitOrder := none : TrustAnchorsExtension }.Current := nofun
    refine .pure ⟨⟨rfl, fun _ _ h => ?_, fun _ => hcur, fun ⟨_, h, _⟩ => nomatch h⟩, hcur⟩
    obtain ⟨l, b, o⟩ := e
    have ho : o = none := h.2
    subst ho
    rfl

lemma shuffleEntries_returns (l : List Bytes) (i : Nat) :
    ∀ out c, ∃ o c', shuffleEntries d l i out c = .ok o c' := by
  induction i with
  | zero => exact fun out c => ⟨some out, c, rfl⟩
  | succ i ih =>
    intro out c
    rw [shuffleEntries, run_bind, run_tryRand]
    cases d.rand c.draws 8 with
    | none => exact ⟨none, _, rfl⟩
    | some b => exact ih _ _

lemma chooseOrder_returns (e : TrustAnchorsExtension) (c : UConn) :
    ∃ e' c', e.chooseOrder d c = .ok e' c' := by
  unfold TrustAnchorsExtension.chooseOrder
  split_ifs with hs
  · obtain ⟨o, c₁, h1⟩ := shuffleEntries_returns d e.trustAnchors (e.trustAnchors.length - 1)
      ⟨e.trustAnchors.toArray, by simp⟩ c
    rw [run_bind, h1]
    cases o with
    | none => exact ⟨_, c₁, rfl⟩
    | some out => exact ⟨_, c₁, rfl⟩
  · exact ⟨_, c, rfl⟩

lemma keeps_writeToUConn (r : Ref) : Keeps ConfigStep (writeToUConn d r) := by
  intro c
  unfold writeToUConn
  simp only [run_bind, run_loadExt]
  cases he : c.heap r with
  | greaseECH g =>
    refine Keeps.bind (Keeps.modify fun c => ?_) (fun _ c => ?_) c
    · exact ⟨rfl, rfl, fun _ => .refl _ _⟩
    · exact (keeps_marshalClientHelloNoECH d c).configStep
  | trustAnchors t =>
    have hk := keeps_chooseOrder d t c
    cases hx : t.chooseOrder d c with
    | error f c1 =>
      rw [hx] at hk
      simp only [run_bind, hx]
      exact hk.marshalStep.configStep
    | ok t' c1 =>
      rw [hx] at hk
      obtain ⟨n, hn⟩ := hk
      have hn : c1 = c.atDraw n := hn
      subst hn
      simp only [run_bind, hx, run_storeExt]
      have hw := (yields_chooseOrder d c t _ _ _ hx).1
      have := configStep_store (c := c) (r := r) (e := .trustAnchors t') (by rw [he]; exact hw)
      exact ⟨this.frame, this.header, this.heap⟩
  | _ =>
    have := configStep_applyTo d r c
    rw [he] at this
    exact this

lemma keeps_applyExts (rs : List Ref) : Keeps ConfigStep (applyExts d rs) := by
  induction rs with
  | nil => exact .pure _
  | cons r rs ih => exact (keeps_writeToUConn d r).bind fun _ => ih

lemma keeps_applyConfig : Keeps ConfigStep (applyConfig d) :=
  Keeps.get.bind fun c => keeps_applyExts d c.extensions

/-! ## When `Hello.Raw` agrees with the extension list -/

/-- `Hello.Raw` is the encoding of the current fields and extensions. -/
def UConn.Current (c : UConn) : Prop :=
  c.hello.original = some (clientHelloEncoding d.parseIP c.hello c.exts)

/-- What `UConn.Current` looks at. -/
def UConn.view (c : UConn) :
    (UInt16 × Bytes × Bytes × List UInt16 × List UInt8) × Option Bytes × List Bytes :=
  (c.hello.header, c.hello.original, c.exts.map fun e => e.wire d.parseIP)

lemma UConn.Current.of_view (h : c.Current d) (hv : c'.view d = c.view d) : c'.Current d := by
  simp only [UConn.view, Prod.mk.injEq] at hv
  obtain ⟨hh, ho, hw⟩ := hv
  unfold UConn.Current
  rw [ho, h, clientHelloEncoding_wire hw, clientHelloEncoding_congr c.exts hh]

/-- `writeToUConn` of a steady extension other than the placeholder of ECH changes neither the
extension objects nor `Hello.Raw`. -/
lemma writeToUConn_steady {r : Ref} {u : Unit} (hs : (c.heap r).Steady c)
    (hg : (c.heap r).isGreaseECH = false) (h : writeToUConn d r c = .ok u c') :
    c'.heap = c.heap ∧ c'.hello.original = c.hello.original := by
  unfold writeToUConn at h
  simp only [run_bind, run_loadExt] at h
  cases he : c.heap r with
  | greaseECH g => rw [he] at hg; cases hg
  | trustAnchors t =>
    rw [he] at h hs
    obtain ⟨t', c1, h1, h2⟩ := bind_eq_ok.mp h
    cases h2
    obtain ⟨n, rfl⟩ := (keeps_chooseOrder d t).of_ok h1
    have hw := (yields_chooseOrder d c t _ _ _ h1).1.steady trivial rfl hs
    rw [hw, ← he]
    exact ⟨Function.update_eq_self r c.heap, rfl⟩
  | renegotiationInfo kind conn =>
    rw [he] at h hs
    simp only [run_modify, EStateM.Result.ok.injEq, true_and] at h
    subst h
    simp only [Ext.applyTo]
    split_ifs with hk hh
    · have hself : Function.update c.heap r (.renegotiationInfo kind c.clientFinished) = c.heap := by
        rw [← hs hk hh, ← he]
        exact Function.update_eq_self r c.heap
      exact ⟨hself, rfl⟩
    · exact ⟨rfl, rfl⟩
    · exact ⟨rfl, rfl⟩
  | sni name =>
    rw [he] at h
    simp only [run_modify, EStateM.Result.ok.injEq, true_and] at h
    subst h
    simp only [Ext.applyTo]
    split_ifs <;> exact ⟨rfl, rfl⟩
  | fakePreSharedKey e =>
    rw [he] at h
    simp only [run_modify, EStateM.Result.ok.injEq, true_and] at h
    subst h
    simp only [Ext.applyTo]
    split_ifs <;> exact ⟨rfl, rfl⟩
  | _ =>
    rw [he] at h
    cases h
    exact ⟨rfl, rfl⟩

/-- The extensions at `rs` are steady, and none of them is the placeholder of ECH. -/
def UConn.Quiet (c : UConn) (rs : List Ref) : Prop :=
  ∀ r ∈ rs, (c.heap r).Steady c ∧ (c.heap r).isGreaseECH = false

lemma ConfigStep.quiet (h : ConfigStep c c') {rs : List Ref} (hq : c.Quiet rs) : c'.Quiet rs := by
  intro r hr
  obtain ⟨hs, hg⟩ := hq r hr
  exact ⟨(h.steady_iff _).mpr ((h.heap r).steady_right hs), by rw [(h.heap r).isGreaseECH_eq, hg]⟩

lemma applyExts_quiet {rs : List Ref} :
    ∀ {c c' : UConn} {u : Unit}, c.Quiet rs → applyExts d rs c = .ok u c' →
      c'.heap = c.heap ∧ c'.hello.original = c.hello.original := by
  induction rs with
  | nil =>
    intro c c' u _ h
    cases h
    exact ⟨rfl, rfl⟩
  | cons r rs ih =>
    intro c c' u hq h
    obtain ⟨_, c1, h1, h2⟩ := bind_eq_ok.mp h
    have hr := hq r (by simp)
    obtain ⟨hh, ho⟩ := writeToUConn_steady d hr.1 hr.2 h1
    have hq1 : c1.Quiet rs :=
      ((keeps_writeToUConn d r).of_ok h1).quiet fun r' hr' => hq r' (by simp [hr'])
    obtain ⟨hh', ho'⟩ := ih hq1 h2
    exact ⟨hh'.trans hh, ho'.trans ho⟩

/-- Quiet extensions keep a hello that is current. -/
lemma ConfigStep.current (h : ConfigStep c c') (hh : c'.heap = c.heap)
    (ho : c'.hello.original = c.hello.original) (hc : c.Current d) : c'.Current d := by
  have he : c'.exts = c.exts := by rw [UConn.exts, UConn.exts, hh, h.extensions_eq]
  exact hc.of_view d (by rw [UConn.view, UConn.view, h.header, ho, he])

/-- `applyExts` over a concatenation. -/
lemma applyExts_append {rs rs' : List Ref} :
    ∀ {c c' : UConn} {u : Unit}, applyExts d (rs ++ rs') c = .ok u c' →
      ∃ c1, applyExts d rs c = .ok () c1 ∧ applyExts d rs' c1 = .ok u c' := by
  induction rs with
  | nil => exact fun h => ⟨_, rfl, h⟩
  | cons r rs ih =>
    intro c c' u h
    obtain ⟨_, c1, h1, h2⟩ := bind_eq_ok.mp h
    obtain ⟨c2, h3, h4⟩ := ih h2
    exact ⟨c2, bind_eq_ok.mpr ⟨_, c1, h1, h3⟩, h4⟩

/-- A placeholder of ECH that only quiet extensions follow: `ApplyConfig` marshals the hello for
its sake, and nothing changes afterwards. -/
def UConn.Remarshals (c : UConn) : Prop :=
  ∃ pre r post, c.extensions = pre ++ r :: post ∧ (c.heap r).isGreaseECH = true ∧ c.Quiet post

/-- `writeToUConn` of the placeholder of ECH marshals the hello. -/
lemma writeToUConn_greaseECH {r : Ref} {u : Unit} (hg : (c.heap r).isGreaseECH = true)
    (h : writeToUConn d r c = .ok u c') : Marshalled d { c with ech := some r } c' := by
  unfold writeToUConn at h
  simp only [run_bind, run_loadExt] at h
  cases he : c.heap r with
  | greaseECH g =>
    rw [he] at h
    exact marshalClientHelloNoECH_ok d h
  | _ => rw [he] at hg; cases hg

lemma Marshalled.current (h : Marshalled d c c') (hx : c.RegularExts)
    (hr : c.hello.random.length = 32) : c'.Current d := by
  unfold UConn.Current
  rw [h.raw hx hr, clientHelloEncoding_congr _ h.step.configStep.header]

lemma ConfigStep.random_eq (h : ConfigStep c c') : c'.hello.random = c.hello.random := by
  have := congrArg (fun x => x.2.1) h.header
  exact this

/-- `ApplyConfig` leaves a current hello behind if it marshals it again, or if it was current and
every extension is quiet. -/
lemma applyConfig_current {u : Unit} (hx : c.RegularExts) (hr : c.hello.random.length = 32)
    (hc : c.Remarshals ∨ (c.Current d ∧ c.Quiet c.extensions))
    (h : applyConfig d c = .ok u c') : c'.Current d := by
  have h : applyExts d c.extensions c = .ok u c' := h
  have hstep := (keeps_applyExts d _).of_ok h
  rcases hc with ⟨pre, r, post, hext, hg, hq⟩ | ⟨hcur, hq⟩
  · rw [hext] at h
    obtain ⟨c1, h1, h2⟩ := applyExts_append d h
    obtain ⟨_, c2, h3, h4⟩ := bind_eq_ok.mp h2
    have s1 := (keeps_applyExts d _).of_ok h1
    have s2 := (keeps_writeToUConn d r).of_ok h3
    have s3 := (keeps_applyExts d _).of_ok h4
    have hm := writeToUConn_greaseECH d (by rw [(s1.heap r).isGreaseECH_eq, hg]) h3
    have hcur : c2.Current d := hm.current d (s1.regularExts hx) (by rw [← hr, ← s1.random_eq])
    obtain ⟨hh, ho⟩ := applyExts_quiet d (s2.quiet (s1.quiet hq)) h4
    exact s3.current d hh ho hcur
  · obtain ⟨hh, ho⟩ := applyExts_quiet d hq h
    exact hstep.current d hh ho hcur

end Deps

end Utls
