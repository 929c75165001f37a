import Utls.EarlyData
import Utls.KeyAgreement

/-!
# What the second hello repeats

Without ECH, the hello that answers a HelloRetryRequest is marshalled from the extension objects of
the first one.  `Retried` says what was changed in the list of their values: the key shares and the
cookie.  Marshalling once more writes the same bytes for every other extension, since the first
build has drawn what there was to draw (`FirstRun.settled`); only padding chooses its size anew
(`Marshalled.repadded`), and may appear or disappear with that.
-/

namespace Utls

open Wire Exec LastWrite List Option

/-- The extension stays as it is, or is padding of another size. -/
def Ext.Repadded (e e' : Ext) : Prop := e' = e ∨ (e.isPadding = true ∧ e'.isPadding = true)

/-- The extensions of a second hello before it is padded.  Every `KeyShareExtension` has the key
shares, and the cookie is in every `CookieExtension`, or else in one that is inserted. -/
inductive Retried (shares : List KeyShare) (cookie : Bytes) (exts : List Ext) : List Ext → Prop where
  | plain (h : cookie = []) :
      Retried shares cookie exts (exts.map (Ext.replace Ext.isKeyShare (.keyShare shares)))
  | stored (h : cookie ≠ []) (hk : exts.any Ext.isCookie = true) :
      Retried shares cookie exts ((exts.map (Ext.replace Ext.isKeyShare (.keyShare shares))).map
        (Ext.replace Ext.isCookie (.cookie cookie)))
  | spliced (h : cookie ≠ []) (hk : exts.any Ext.isCookie = false) (i : Nat) :
      Retried shares cookie exts
        ((exts.map (Ext.replace Ext.isKeyShare (.keyShare shares))).take i ++ .cookie cookie ::
          (exts.map (Ext.replace Ext.isKeyShare (.keyShare shares))).drop i)

section Deps

variable (d : Deps)

variable {c c' : UConn}

/-- The key shares of a second hello: one for the group that the server has selected, whose private
half is stored, or those of the last `KeyShareExtension` of the first hello. -/
structure RetriedShares (sh : ServerHelloMsg) (built : UConn) (hs : HandshakeState13)
    (shares : List KeyShare) : Prop where
  selected : sh.selectedGroup ≠ 0 → ∃ key : EcdhKey,
    hs.keyShareKeys = { curveID := sh.selectedGroup, ecdhe := some key } ∧
    key.curve = sh.selectedGroup ∧ shares = [⟨sh.selectedGroup, key.publicKey d⟩]
  kept : sh.selectedGroup = 0 →
    hs.keyShareKeys = built.keyShareKeys ∧ lastValue Ext.writtenShares built.exts = some shares

/-! ## Marshalling again -/

/-- Marshalling writes the bytes of every extension but padding as they are. -/
theorem Marshalled.repadded (h : Marshalled d c c') (hx : c.RegularExts)
    (hr : c.hello.random.length = 32) (hs : ∀ e ∈ c.exts, e.Settled) :
    ∃ exts, List.Forall₂ Ext.Repadded c.exts exts ∧
      c'.hello.original = some (clientHelloEncoding d.parseIP c.hello exts) := by
  have hstep := h.step
  obtain ⟨heap, draws, raw, hc', hheap⟩ := hstep
  have hexts : c'.exts = c.extensions.map heap := by rw [hc']; rfl
  refine ⟨c.extensions.map fun r => if (c.heap r).isPadding then heap r else c.heap r, ?_, ?_⟩
  · rw [UConn.exts, forall₂_map_left_iff, forall₂_map_right_iff, forall₂_same]
    intro r _
    cases hp : (c.heap r).isPadding with
    | true => exact .inr ⟨hp, (hheap r).isPadding_eq.trans hp⟩
    | false => exact .inl rfl
  · rw [h.raw hx hr]
    refine congrArg some (clientHelloEncoding_wire ?_)
    rw [hexts, List.map_map, List.map_map]
    refine map_congr_left fun r hmem => ?_
    cases hp : (c.heap r).isPadding with
    | true => simp [hp]
    | false =>
      have hset := hs _ (List.mem_map_of_mem hmem)
      simpa [hp] using (hheap r).wire_eq hset hp d.parseIP

/-- A change of session extensions leaves the others settled. -/
theorem SessionStep.settled (h : SessionStep c c') (hs : ∀ e ∈ c.exts, e.Settled) :
    ∀ e ∈ c'.exts, e.Settled := by
  intro e he
  obtain ⟨r, hr, rfl⟩ := List.mem_map.mp he
  rw [h.extensions_eq] at hr
  by_cases hk : (c.heap r).sessionKind = (false, false)
  · rw [h.plain r hk]
    exact hs _ (List.mem_map_of_mem hr)
  · have hkind := h.kind r
    cases he' : c'.heap r with
    | greaseECH g =>
      rw [he'] at hkind
      exact absurd hkind.symm hk
    | _ => trivial

/-- The first build leaves no value of an extension to be drawn. -/
theorem FirstRun.settled (hc : Fresh d c) (hech : c.config.encryptedClientHelloConfigList = none)
    (run : FirstRun d c c') : ∀ e ∈ c'.exts, e.Settled := by
  obtain ⟨hp1, hst⟩ := hc.sound.prepareBuild d run.prepare
  have hstep := (keeps_applyConfig d).of_ok run.apply
  have hp3 := (hp1.configStep hstep).loaded run.loads
  have hhist : run.loaded.history = c.history := by
    rw [run.loads.sessionStep.history, hstep.field UConn.history, UConn.history_of_standing hst]
  have hech3 : run.loaded.config.encryptedClientHelloConfigList = none :=
    (congrArg (fun x => x.2.2.2.2) hhist).trans hech
  obtain ⟨_, x, hx, -⟩ := bind_eq_ok.mp run.marshal
  have hm := run.marshal
  rw [marshalClientHello_noEch d hech3 hx] at hm
  have hm := marshalClientHelloNoECH_ok d hm
  have hp4 : run.marshalled.Prepared :=
    (hp3.configStep ((keeps_applyConfig d).of_ok hx)).configStep hm.step.configStep
  have hpatched := (run.patches.sessionStep hp4.tidy).settled fun e he => (hm.filled e he).settled
  rw [run.result]
  exact hpatched

/-! ## The second hello -/

/-- The extension objects after the cookie has been echoed. -/
lemma Echoed.retried {shares : List KeyShare} {cookie : Bytes}
    (hc : c.Has c.extensions) (h : Echoed cookie
      (c.mapExts c.extensions (Ext.replace Ext.isKeyShare (.keyShare shares))) c') :
    Retried shares cookie c.exts c'.exts := by
  have hexts := c.exts_mapExts (Ext.replace Ext.isKeyShare (.keyShare shares))
  have hhas : (c.mapExts c.extensions (Ext.replace Ext.isKeyShare (.keyShare shares))).Has
    (c.mapExts c.extensions (Ext.replace Ext.isKeyShare (.keyShare shares))).extensions := hc
  generalize c.mapExts c.extensions (Ext.replace Ext.isKeyShare (.keyShare shares)) = mapped
    at h hexts hhas
  -- giving out key shares makes no cookie extension, and takes none away
  have hany : mapped.exts.any Ext.isCookie = c.exts.any Ext.isCookie := by
    rw [hexts, List.any_map]
    refine congrArg (fun p => c.exts.any p) (funext fun e => ?_)
    cases e <;> rfl
  cases h with
  | nothing h =>
    rw [hexts]
    exact .plain h
  | stored h hk =>
    rw [UConn.exts_mapExts, hexts]
    exact .stored h (hany.symm.trans hk)
  | spliced h hk i n =>
    rw [UConn.exts_spliced (c := mapped.atDraw n) hhas, show (mapped.atDraw n).exts = _ from hexts]
    exact .spliced h (hany.symm.trans hk) i

/-- The extensions that are put into a second hello are settled. -/
theorem Retried.settled {shares : List KeyShare} {cookie : Bytes} {exts exts' : List Ext}
    (h : Retried shares cookie exts exts') (hs : ∀ e ∈ exts, e.Settled) :
    ∀ e ∈ exts', e.Settled := by
  have hreplace : ∀ (kind : Ext → Bool) {e : Ext} {l : List Ext}, e.Settled →
      (∀ x ∈ l, x.Settled) → ∀ x ∈ l.map (Ext.replace kind e), x.Settled := by
    intro kind e l he hl x hx
    obtain ⟨y, hy, rfl⟩ := List.mem_map.mp hx
    unfold Ext.replace
    split_ifs
    · exact he
    · exact hl y hy
  have hshares := hreplace Ext.isKeyShare (e := .keyShare shares) trivial hs
  cases h with
  | plain _ => exact hshares
  | stored _ _ => exact hreplace Ext.isCookie trivial hshares
  | spliced _ _ i =>
    intro e he
    rcases mem_append.mp he with he | he
    · exact hshares e (mem_of_mem_take he)
    · rcases mem_cons.mp he with rfl | he
      · trivial
      · exact hshares e (mem_of_mem_drop he)

/-- The hello that goes out is marshalled from the objects of the first one. -/
lemma RetryRun.retried {suite : CipherSuiteTLS13} {hs hs' : HandshakeState13}
    (run : RetryRun d suite hs c hs' c') (hc : c.Prepared) (hs0 : ∀ e ∈ c.exts, e.Settled) :
    ∃ exts exts', Retried run.bound.keyShares (hs.serverHello.cookie.getD []) c.exts exts ∧
      List.Forall₂ Ext.Repadded exts exts' ∧
      c'.raw = clientHelloEncoding d.parseIP c.hello exts' := by
  obtain ⟨-, -, c1, hecho, hm, -⟩ := retryExtensions_ok d run.exts
  obtain ⟨n, hdrawn⟩ := run.group.drawn_eq d
  rw [hdrawn] at hecho
  have hretried : Retried _ _ c.exts c1.exts := Echoed.retried (c := c.atDraw n) hc.tidy.extensions hecho
  have hhello : c1.hello = c.hello := hecho.hello_eq
  have hx : c1.RegularExts :=
    Echoed.regularExts (c := c.atDraw n) hecho hc.tidy.extensions hc.tidy.regularExts
  obtain ⟨exts', hpadded, hraw⟩ := (marshalClientHelloNoECH_ok d hm).repadded d hx
    (by rw [hhello, hc.random]) (hretried.settled hs0)
  refine ⟨_, exts', hretried, hpadded, ?_⟩
  rw [UConn.raw, hraw, hhello, getD_some]

/-- The key that is made, and the share for it. -/
lemma Regrouped.shares {sh : ServerHelloMsg} {sent : List KeyShare}
    {keys keys' : KeySharePrivateKeys} {hello hello' : ClientHelloMsg}
    (h : Regrouped d sh sent keys hello c hello' keys' c') :
    (sh.selectedGroup ≠ 0 → ∃ key : EcdhKey,
      keys' = { curveID := sh.selectedGroup, ecdhe := some key } ∧ key.curve = sh.selectedGroup ∧
      hello'.keyShares = [⟨sh.selectedGroup, key.publicKey d⟩]) ∧
    (sh.selectedGroup = 0 → keys' = keys ∧ hello'.keyShares = hello.keyShares) := by
  cases h with
  | kept h _ => exact ⟨fun hsel => absurd h hsel, fun _ => ⟨rfl, rfl⟩⟩
  | renewed h _ _ hkey => exact ⟨fun _ => ⟨_, rfl, hkey, rfl⟩, fun hsel => absurd hsel h⟩

/-- The key shares of the hello that goes out. -/
lemma RetryRun.shares {suite : CipherSuiteTLS13} {hs hs' : HandshakeState13}
    (run : RetryRun d suite hs c hs' c') (hkeys : hs.keyShareKeys = c.keyShareKeys)
    (hsent : lastValue Ext.writtenShares c.exts = some hs.hello.keyShares) :
    RetriedShares d hs.serverHello c hs' run.bound.keyShares := by
  have hkeys' : hs'.keyShareKeys = run.keys := by
    have h := congrArg HandshakeState13.keyShareKeys run.result
    exact h
  obtain ⟨-, ids, binders, hbound, -⟩ := retryPsk_ok d run.psk
  have hbound : run.bound.keyShares = run.regrouped.keyShares := by rw [hbound]
  rw [hbound]
  obtain ⟨hselected, hkept⟩ := run.group.shares d
  refine ⟨fun hsel => ?_, fun hsel => ?_⟩
  · obtain ⟨key, hk, hcurve, hshares⟩ := hselected hsel
    exact ⟨key, hkeys'.trans hk, hcurve, hshares⟩
  · obtain ⟨hk, hshares⟩ := hkept hsel
    rw [hshares]
    exact ⟨hkeys'.trans (hk.trans hkeys), hsent⟩

/-- The hello that answers a HelloRetryRequest: it has the fields of the first one and its
extensions, up to the key shares, the cookie and padding; and it is hashed as it is sent. -/
theorem second_hello_repeats {c : UConn} (hc : Fresh d c)
    (hech : c.config.encryptedClientHelloConfigList = none)
    {confirmation : HashId → Bytes → String → Bytes → Bytes} {sh : ServerHelloMsg}
    {hs : HandshakeState13} {c' : UConn} (h : secondHello d confirmation sh c = .ok (some hs) c') :
    ∃ built suite first second shares exts exts',
      buildHandshakeState d true c = .ok () built ∧
      cipherSuiteTLS13ByID sh.cipherSuite = some suite ∧
      built.privateHello.marshal = some first ∧
      first = clientHelloEncoding d.parseIP built.hello built.exts ∧
      hs.hello.marshal = some second ∧
      second = clientHelloEncoding d.parseIP built.hello exts' ∧
      Retried shares (sh.cookie.getD []) built.exts exts ∧ List.Forall₂ Ext.Repadded exts exts' ∧
      RetriedShares d sh built hs shares ∧
      hs.transcript = (messageHash d suite first ++ sh.original) ++ second := by
  have hctx : ∀ b, buildHandshakeState d true c = .ok () b →
      b.echCtx = none ∧ Nonempty (FirstRun d c b) ∧ Built d c b := by
    intro b hb
    obtain ⟨run⟩ := buildHandshakeState_run d hb
    have hprep := (run.first d hc.notBuilt).prepare
    exact ⟨(run.kept d hc hech).echCtx.trans (hc.echCtx d hech hprep),
      buildHandshakeState_first d hc.notBuilt hb,
      Built.of_run d (hc.faithful d hech) (.inl hc.notBuilt) run⟩
  obtain ⟨second⟩ := exists_secondRun d (fun b hb => (hctx b hb).1) h
  obtain ⟨-, ⟨run⟩, hbuilt⟩ := hctx second.built second.build
  obtain ⟨exts, exts', hretried, hpadded, hraw⟩ :=
    second.retry.retried d hbuilt.prepared (run.settled d hc hech)
  -- the key shares of the first hello are those of its last extension for them
  have hsent : lastValue Ext.writtenShares second.built.exts = some second.first.hello.keyShares := by
    obtain ⟨-, hany, -⟩ := retryExtensions_ok d second.retry.exts
    obtain ⟨n, hdrawn⟩ := second.retry.group.drawn_eq d
    rw [hdrawn] at hany
    obtain ⟨e, he, hk⟩ := List.any_eq_true.mp hany
    have hnone := hc.echCtx d hech run.prepare
    have hshares := run.shares d hc fun ctx hctx => by rw [hnone] at hctx; cases hctx
    have hwritten : ∃ l, e.writtenShares = some l := by
      cases e with
      | keyShare l => exact ⟨l, rfl⟩
      | _ => cases hk
    obtain ⟨l, hl⟩ := hwritten
    obtain ⟨last, hlast⟩ := exists_lastValue he hl
    have hlast : lastValue Ext.writtenShares second.built.exts = some last := hlast
    have hhello := hshares.hello last (by rw [← hshares.sent, lastValue_map]; exact hlast)
    rw [hlast, second.hello, ← hhello]
    rfl
  have hfirst : second.first.transcript =
      clientHelloEncoding d.parseIP second.built.hello second.built.exts := by
    have hcurrent : second.built.privateHello.original = some _ := hbuilt.current
    have hmarshal := second.transcript
    rw [ClientHelloMsg.marshal, hcurrent] at hmarshal
    exact (some.inj hmarshal).symm
  have hshares := second.retry.shares d second.keys hsent
  rw [second.server] at hretried hshares
  refine ⟨second.built, second.suite, _, c'.raw, _, exts, exts', second.build, second.suite_eq,
    second.transcript, hfirst, ?_, hraw, hretried, hpadded, hshares, ?_⟩
  · rw [ClientHelloMsg.marshal, second.retry.hello_original]
  · have htranscript := congrArg HandshakeState13.transcript second.retry.result
    rw [second.retry.bytes_eq] at htranscript
    have horiginal : second.first.serverHello.original = sh.original := by rw [second.server]
    rw [← horiginal]
    exact htranscript

end Deps

/-- The extensions of a hello that is padded. -/
def paddedSpecExts : Ref → Ext
  | 2 => .generic 0x1234 (List.replicate 200 0)
  | 3 => .utlsPadding ⟨0, false, some boringPaddingStyle⟩
  | r => earlySpecExts r

def paddedClient : UConn :=
  endState (applyPreset .sample { echSpec with extensions := [0, 1, 2, 3] }
    (uClient paddedSpecExts 4 { serverName := [0x61] } {} .custom))

/-- A request for the second curve that has a cookie. -/
def cookieRequest : ServerHelloMsg :=
  { retryRequest with
    cookie := some (List.replicate 300 1)
    cookie_ne := by simp only [ne_eq, Option.some.injEq, List.replicate_eq_nil_iff]; omega }

/-- The types of the extensions of a hello, if it can be read. -/
def ClientHelloMsg.wireTypes (m : ClientHelloMsg) : Option (List UInt16) :=
  m.marshal.bind fun raw => (readHello raw).map fun w => w.extensions.map (·.extType)

/-- The first hello is padded to 512 bytes.  With the cookie the second one is longer than that, and
has no padding extension. -/
theorem second_hello_unpadded :
    (∃ hs c', startHandshake13 .sample cookieRequest paddedClient = .ok hs c' ∧
      hs.hello.wireTypes = some [extensionSupportedCurves, extensionKeyShare, 0x1234,
        utlsExtensionPadding]) ∧
    ∃ hs c', secondHello .sample (fun _ _ _ _ => []) cookieRequest paddedClient = .ok (some hs) c' ∧
      hs.hello.wireTypes = some [extensionSupportedCurves, extensionKeyShare, extensionCookie,
        0x1234] := by
  constructor
  · obtain ⟨hs, c', h, htest⟩ := exists_eq_ok_of_returnsWith (show returnsWith
      (fun hs _ => hs.hello.wireTypes == some [extensionSupportedCurves, extensionKeyShare, 0x1234,
        utlsExtensionPadding])
      (startHandshake13 .sample cookieRequest paddedClient) = true by decide +kernel)
    exact ⟨hs, c', h, beq_iff_eq.mp htest⟩
  · obtain ⟨o, c', h, htest⟩ := exists_eq_ok_of_returnsWith (show returnsWith
      (fun o _ => (o.bind fun hs => hs.hello.wireTypes) == some [extensionSupportedCurves,
        extensionKeyShare, extensionCookie, 0x1234])
      (secondHello .sample (fun _ _ _ _ => []) cookieRequest paddedClient) = true
      by decide +kernel)
    have htest := beq_iff_eq.mp htest
    cases o with
    | none => cases htest
    | some hs => exact ⟨hs, c', h, htest⟩

/-- The second hello of this client has a share for the selected curve only. -/
theorem second_hello_repeats_padded :
    ∃ hs c', ∃ built : UConn, ∃ exts exts' shares,
      secondHello .sample (fun _ _ _ _ => []) cookieRequest paddedClient = .ok (some hs) c' ∧
      hs.hello.marshal = some (clientHelloEncoding Deps.sample.parseIP built.hello exts') ∧
      Retried shares (List.replicate 300 1) built.exts exts ∧
      List.Forall₂ Ext.Repadded exts exts' ∧ shares.map (·.group) = [CurveP256] := by
  have hfresh : Fresh .sample paddedClient := by
    refine Fresh.custom _ 4 _ _ { echSpec with extensions := [0, 1, 2, 3] } ?_ ?_
      (eq_ok_of_returns (by decide +kernel))
    · intro r _
      unfold paddedSpecExts
      split
      · trivial
      · exact ⟨le_rfl, by rintro f ⟨⟩; exact boringPaddingStyle_nonneg⟩
      · exact regular_earlySpecExts _
    · simp
  obtain ⟨o, c', h, htest⟩ := exists_eq_ok_of_returnsWith (show returnsWith (fun o _ => o.isSome)
    (secondHello .sample (fun _ _ _ _ => []) cookieRequest paddedClient) = true by decide +kernel)
  obtain ⟨hs, rfl⟩ := isSome_iff_exists.mp htest
  obtain ⟨built, suite, first, second, shares, exts, exts', -, -, -, -, hraw, rfl, hretried, hpadded,
    hshares, -⟩ := second_hello_repeats .sample hfresh rfl h
  obtain ⟨key, -, -, rfl⟩ := hshares.selected (by decide)
  exact ⟨hs, c', built, exts, exts', [⟨CurveP256, key.publicKey .sample⟩], h, hraw, hretried, hpadded,
    rfl⟩

end Utls
