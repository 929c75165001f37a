import Utls.Builds
import Utls.Handshake12

/-!
# The bytes that are sent

`Hello.Raw` is what `clientHandshake` sends.  A first build marshals it from the hello and the
extension list.  A later build does not: it applies the configuration, which changes extensions, and
patches the binders, but marshals only if the list holds a placeholder of ECH.  So what callers
change between two builds, and what a handshake changes for the next one, may be missing in the
bytes.  `raw_is_current` says for which sequences of calls nothing is missing.
-/

namespace Utls

open Wire Exec Function
open List hiding after

variable {c c' : UConn} {r : Ref} {u : Unit}

section Deps

variable (d : Deps)

/-! ## `renegotiation_info` -/

/-- A `renegotiation_info` extension that announces support carries the saved `Finished` message
from the second handshake on. -/
def Ext.CarriesFinished (c : UConn) (e : Ext) : Prop :=
  ∀ kind conn, e = .renegotiationInfo kind conn → kind.announced = true → c.handshakes > 0 →
    conn = c.clientFinished

/-- `writeToUConn` puts the saved message into the extension. -/
lemma writeToUConn_carriesFinished
    (h : writeToUConn d r c = .ok u c') : (c'.heap r).CarriesFinished c' := by
  have hstep := (keeps_writeToUConn d r).of_ok h
  have hh : c'.handshakes = c.handshakes := hstep.field UConn.handshakes
  have hf : c'.clientFinished = c.clientFinished := hstep.field UConn.clientFinished
  intro kind conn he hk hpos
  rw [hf]
  rw [hh] at hpos
  -- the extension was a `renegotiation_info` extension before
  have hcore := (hstep.heap r).core
  rw [he] at hcore
  cases hx : c.heap r with
  | renegotiationInfo kind' conn' =>
    rw [hx] at hcore
    simp only [Ext.core, Ext.renegotiationInfo.injEq, and_true] at hcore
    subst hcore
    rw [writeToUConn, run_loadExt_bind, hx] at h
    cases h
    simp only [Ext.applyTo, hk, if_true] at he
    split_ifs at he with hp
    · have he : Function.update c.heap r (.renegotiationInfo kind c.clientFinished) r = _ := he
      rw [update_self] at he
      cases he
      rfl
    · exact absurd hpos hp
  | _ =>
    rw [hx] at hcore
    simp [Ext.core, Ext.skeleton] at hcore

/-- Once it carries the message, it stays that way. -/
lemma ConfigStep.carriesFinished (h : ConfigStep c c')
    (hr : (c.heap r).CarriesFinished c) : (c'.heap r).CarriesFinished c' := by
  have hh : c'.handshakes = c.handshakes := h.field UConn.handshakes
  have hf : c'.clientFinished = c.clientFinished := h.field UConn.clientFinished
  intro kind conn he hk hpos
  have hcore := (h.heap r).core
  rw [he] at hcore
  cases hx : c.heap r with
  | renegotiationInfo kind' conn' =>
    rw [hx] at hcore
    simp only [Ext.core, Ext.renegotiationInfo.injEq, and_true] at hcore
    subst hcore
    have hconn : conn' = c.clientFinished := hr kind conn' hx hk (hh ▸ hpos)
    have hsame : c'.heap r = c.heap r := by
      refine (h.heap r).steady ?_ ?_ ?_
      · rw [hx]; trivial
      · rw [hx]; rfl
      · rw [hx]; exact fun _ _ => hconn
    rw [hsame, hx] at he
    cases he
    rw [hconn, hf]
  | _ =>
    rw [hx] at hcore
    simp [Ext.core, Ext.skeleton] at hcore

lemma applyExts_carriesFinished {rs : List Ref} :
    ∀ {c c' : UConn} {u : Unit}, applyExts d rs c = .ok u c' →
      ∀ r ∈ rs, (c'.heap r).CarriesFinished c' := by
  induction rs with
  | nil => exact fun _ r hr => by simp at hr
  | cons r rs ih =>
    intro c c' u h r' hr'
    obtain ⟨_, c1, h1, h2⟩ := bind_eq_ok.mp h
    rcases mem_cons.mp hr' with rfl | hr'
    · exact ((keeps_applyExts d rs).of_ok h2).carriesFinished (writeToUConn_carriesFinished d h1)
    · exact ih h2 r' hr'

/-- After `ApplyConfig` every `renegotiation_info` extension of the list carries the message. -/
lemma applyConfig_carriesFinished (h : applyConfig d c = .ok u c') :
    ∀ r ∈ c'.extensions, (c'.heap r).CarriesFinished c' := by
  have h : applyExts d c.extensions c = .ok u c' := h
  rw [((keeps_applyExts d _).of_ok h).extensions_eq]
  exact applyExts_carriesFinished d h

/-! ## Marshalling without ECH -/

lemma marshalClientHello_noEch {c1 : UConn} (he : c.config.encryptedClientHelloConfigList = none)
    (h : applyConfig d c = .ok u c1) : marshalClientHello d c = marshalClientHelloNoECH d c1 := by
  have hstep := (keeps_applyConfig d).of_ok h
  have he1 : c1.config.encryptedClientHelloConfigList = none :=
    (hstep.field fun c => c.config.encryptedClientHelloConfigList).trans he
  rw [marshalClientHello, run_bind, h]
  simp only [run_get_bind, he1, Option.getD_none, length_nil, gt_iff_lt, lt_self_iff_false,
    if_false]

/-- Without ECH, marshalling does what `ApplyConfig` may do. -/
lemma configStep_marshalClientHello (he : c.config.encryptedClientHelloConfigList = none):
    ConfigStep c (endState (marshalClientHello d c)) := by
  have hk := keeps_applyConfig d c
  cases h : applyConfig d c with
  | error e c1 =>
    rw [h] at hk
    rw [marshalClientHello, run_bind, h]
    exact hk
  | ok u c1 =>
    rw [h] at hk
    rw [marshalClientHello_noEch d he h]
    exact IsTrans.trans _ _ _ hk (keeps_marshalClientHelloNoECH d c1).configStep

/-- Without ECH, so does the marshalling of a first build. -/
lemma BuildRun.plain (hs : c.Sound) (hn : c.clientHelloBuildStatus = .notBuilt)
    (hech : c.config.encryptedClientHelloConfigList = none) (run : BuildRun d true c c') :
    run.loaded.history = c.history ∧ run.loaded.config.encryptedClientHelloConfigList = none ∧
      ConfigStep run.loaded run.marshalled := by
  have hfirst := run.first d hn
  obtain ⟨-, hst⟩ := hs.prepareBuild d hfirst.prepare
  have hstep := (keeps_applyConfig d).of_ok run.apply
  have hhist : run.loaded.history = c.history := by
    rw [(uLoadSession_cases d hfirst.load).sessionStep.history, hstep.field UConn.history,
      UConn.history_of_standing hst]
  have hech3 : run.loaded.config.encryptedClientHelloConfigList = none :=
    (congrArg (fun x => x.2.2.2.2) hhist).trans hech
  have hstep4 := configStep_marshalClientHello d hech3
  rw [hfirst.marshal] at hstep4
  exact ⟨hhist, hech3, hstep4⟩

/-- Marshalling makes `Hello.Raw` current. -/
lemma marshalClientHello_current (h : c.Prepared)
    (he : c.config.encryptedClientHelloConfigList = none) (hm : marshalClientHello d c = .ok u c') :
    c'.Current d ∧ ∀ r ∈ c'.extensions, (c'.heap r).CarriesFinished c' := by
  obtain ⟨_, c1, h1, -⟩ := bind_eq_ok.mp hm
  rw [marshalClientHello_noEch d he h1] at hm
  have hm := marshalClientHelloNoECH_ok d hm
  have hstep := (keeps_applyConfig d).of_ok h1
  have hrandom : c1.hello.random.length = 32 := by rw [hstep.random_eq, h.random]
  refine ⟨hm.current d (hstep.regularExts h.tidy.regularExts) hrandom, fun r hr => ?_⟩
  have hstep' := hm.step.configStep
  rw [hstep'.extensions_eq] at hr
  exact hstep'.carriesFinished (applyConfig_carriesFinished d h1 r hr)

/-- Loading and patching leave the `renegotiation_info` extensions alone. -/
lemma SessionStep.carriesFinished (h : SessionStep c c')
    (hr : (c.heap r).CarriesFinished c) : (c'.heap r).CarriesFinished c' := by
  have hh : c'.handshakes = c.handshakes := congrArg (fun x => x.2.2.1) h.history
  have hf : c'.clientFinished = c.clientFinished := congrArg (fun x => x.2.2.2.1) h.history
  intro kind conn he
  have hplain : (c.heap r).sessionKind = (false, false) := by
    rw [← h.kind, he]
    rfl
  rw [hh, hf]
  exact hr kind conn (by rw [← h.plain r hplain, he])

/-! ## One build -/

/-- The hello is not built yet, or the build applies extensions that marshal it again, or it
applies extensions that have nothing to change. -/
def UConn.Renews (c : UConn) : Prop :=
  c.clientHelloBuildStatus = .notBuilt ∨ c.Remarshals ∨ c.Quiet c.extensions

/-- What a build that returns has made of the connection. -/
structure Built (c c' : UConn) : Prop where
  prepared : c'.Prepared
  current : c'.Current d
  finished : ∀ r ∈ c'.extensions, (c'.heap r).CarriesFinished c'
  status : c'.clientHelloBuildStatus = .buildByUtls
  id : c'.clientHelloID = c.clientHelloID
  echList : c'.config.encryptedClientHelloConfigList = c.config.encryptedClientHelloConfigList

/-- The last two parts of a build. -/
lemma Built.of_marshalled {c4 c5 : UConn} (hprep : c4.Prepared) (hcur : c4.Current d)
    (hfin : ∀ r ∈ c4.extensions, (c4.heap r).CarriesFinished c4)
    (hhist : c4.history = c.history) (h : finishSession d c4 = .ok () c5) :
    Built d c { c5 with clientHelloBuildStatus := .buildByUtls } := by
  obtain ⟨_, c6, h1, h2⟩ := bind_eq_ok.mp h
  obtain ⟨hpatch, -⟩ := uApplyPatch_cases d h1
  have h2 := finalCheck_eq_ok h2
  subst h2
  obtain ⟨hprep6, hcur6⟩ := hprep.patched d hpatch
  have hstep := hpatch.sessionStep hprep.tidy
  have hfin6 : ∀ r ∈ c6.extensions, (c6.heap r).CarriesFinished c6 := by
    intro r hr
    rw [hstep.extensions_eq] at hr
    exact hstep.carriesFinished (hfin r hr)
  -- locking the controller and setting the status change nothing of this
  have hhist6 := hstep.history.trans hhist
  refine ⟨⟨?_, hprep6.settled, hprep6.random, hprep6.placed, hprep6.only, hprep6.ready⟩,
    hcur6 hcur, hfin6, rfl, congrArg Prod.fst hhist6, congrArg (fun x => x.2.2.2.2) hhist6⟩
  exact hprep6.tidy.of_owners rfl fun _ => .refl _

/-- What holds between the calls of a run whose calls lose no change. -/
structure UConn.Faithful (c : UConn) : Prop where
  sound : c.Sound
  noEch : c.config.encryptedClientHelloConfigList = none
  raw : c.clientHelloBuildStatus = .buildByUtls → c.Current d ∨ c.Remarshals

lemma Built.of_run (h : c.Faithful d) (hr : c.Renews)
    (run : BuildRun d true c c') : Built d c c' := by
  have hload := uLoadSession_cases d (run.loads.resolve_right (by simp)).2
  have hpatch := (run.patches.resolve_right (by simp)).2
  have hstep := (keeps_applyConfig d).of_ok run.apply
  rw [run.result]
  rcases run.prepare with ⟨hn, hprep⟩ | ⟨hb, hc⟩
  · -- the first build marshals
    obtain ⟨hp1, -⟩ := h.sound.prepareBuild d hprep
    have hp3 := (hp1.configStep hstep).loaded hload
    obtain ⟨hhist3, hech3, hstep4⟩ := run.plain d h.sound hn h.noEch
    obtain ⟨hcur, hfin⟩ := marshalClientHello_current d hp3 hech3 (run.first d hn).marshal
    have hhist4 : run.marshalled.history = run.loaded.history := hstep4.field UConn.history
    exact .of_marshalled d (hp3.configStep hstep4) hcur hfin (hhist4.trans hhist3) hpatch
  · -- a later one does not
    have hnb : c.clientHelloBuildStatus ≠ .notBuilt := by
      rw [hb]
      decide
    have happly := run.apply
    rw [← hc] at happly hstep
    rw [← (run.marshal.resolve_left fun hn => hnb hn.1).2] at hpatch
    have hp1 : c.Prepared := h.sound.prepared fun hn => absurd hn hnb
    have hp2 := hp1.configStep hstep
    have hcur2 : run.applied.Current d := by
      refine applyConfig_current d hp1.tidy.regularExts hp1.random ?_ happly
      rcases hr with hn | hre | hq
      · exact absurd hn hnb
      · exact .inl hre
      · exact (h.raw hb).symm.imp (fun hre => hre) fun hc => ⟨hc, hq⟩
    have hb2 : run.applied.clientHelloBuildStatus = .buildByUtls :=
      (hstep.field UConn.clientHelloBuildStatus).trans hb
    have hview := hload.view_eq hp2.settled hb2
    have hfin2 := applyConfig_carriesFinished d happly
    refine .of_marshalled d (hp2.loaded hload) (hcur2.of_view d hview) (fun r hr => ?_) ?_ hpatch
    · rw [hload.sessionStep.extensions_eq] at hr
      exact hload.sessionStep.carriesFinished (hfin2 r hr)
    · rw [hload.sessionStep.history, hstep.field UConn.history]

/-- A build that returns leaves the connection faithful. -/
lemma Built.faithful (h : Built d c c') (hc : c.Faithful d) : c'.Faithful d := by
  refine ⟨⟨h.prepared.tidy, h.prepared.settled, by rw [h.id]; exact hc.sound.client,
    fun hn => ?_, fun _ => h.prepared⟩, h.echList.trans hc.noEch, fun _ => .inl h.current⟩
  rw [h.status] at hn
  cases hn

/-- Extensions with nothing to change are applied without an error. -/
lemma applyExts_of_quiet {rs : List Ref} :
    ∀ {c : UConn}, c.Quiet rs → ∃ c', applyExts d rs c = .ok () c' := by
  induction rs with
  | nil => exact fun {c} _ => ⟨c, rfl⟩
  | cons r rs ih =>
    intro c hq
    obtain ⟨hs, hg⟩ := hq r (by simp)
    have hone : ∃ c1, writeToUConn d r c = .ok () c1 := by
      rw [writeToUConn, run_loadExt_bind]
      cases he : c.heap r with
      | greaseECH g => rw [he] at hg; cases hg
      | trustAnchors t =>
        rw [he] at hs
        obtain ⟨t', c1, h1⟩ := chooseOrder_returns d t c
        exact ⟨_, bind_eq_ok.mpr ⟨t', c1, h1, rfl⟩⟩
      | _ => exact ⟨_, rfl⟩
    obtain ⟨c1, h1⟩ := hone
    have hq1 : c1.Quiet rs :=
      ((keeps_writeToUConn d r).of_ok h1).quiet fun r' hr' => hq r' (by simp [hr'])
    obtain ⟨c2, h2⟩ := ih hq1
    exact ⟨c2, bind_eq_ok.mpr ⟨_, c1, h1, h2⟩⟩

lemma ConfigStep.remarshals (h : ConfigStep c c') (hr : c.Remarshals) : c'.Remarshals := by
  obtain ⟨pre, r, post, hext, hg, hq⟩ := hr
  exact ⟨pre, r, post, h.extensions_eq.trans hext, by rw [(h.heap r).isGreaseECH_eq, hg], h.quiet hq⟩

/-- A first build that fails leaves the connection faithful. -/
lemma UConn.Faithful.of_failed {c1 c2 : UConn} (h : c.Faithful d)
    (hn : c.clientHelloBuildStatus = .notBuilt) (hp : Utls.prepareBuild d c = .ok () c1)
    (h2 : c2.Prepared) (hhist : c2.history = c1.history)
    (hspec : c2.clientHelloSpec = c1.clientHelloSpec) : c2.Faithful d := by
  obtain ⟨-, hst⟩ := h.sound.prepareBuild d hp
  have hhist : c2.history = c.history := hhist.trans (UConn.history_of_standing hst)
  have hn2 : c2.clientHelloBuildStatus = .notBuilt := (congrArg (fun x => x.2.1) hhist).trans hn
  refine ⟨h2.sound h.sound hhist fun _ hid => ?_, (congrArg (fun x => x.2.2.2.2) hhist).trans h.noEch,
    fun hb => by rw [hn2] at hb; cases hb⟩
  have hid : c.clientHelloID = .custom := (congrArg Prod.fst hhist).symm.trans hid
  obtain ⟨c', hc', hs⟩ := prepareBuild_custom d hid (h.sound.spec hn hid)
  rw [hc'] at hp
  cases hp
  exact hspec.trans hs

/-- A build keeps the connection faithful, also if it fails. -/
lemma UConn.Faithful.build (h : c.Faithful d) (hr : c.Renews)
    (ha : after (buildHandshakeState d true) c = some c') : c'.Faithful d := by
  have hs := h.sound
  cases buildHandshakeState_end d ha with
  | returned run => exact (Built.of_run d h hr run).faithful d h
  | notPrepared hn he =>
    -- only the specification of a preset can fail to apply
    have hid : c.clientHelloID ≠ .custom := by
      intro hid
      obtain ⟨c1, hok, -⟩ := prepareBuild_custom d hid (hs.spec hn hid)
      rw [hok] at he
      cases he
    have hpre : after (applyPresetByID d) c = some c' := by
      simp [after, prepareBuild_error d he]
    obtain ⟨ht, hst⟩ := after_applyPresetByID d hs.tidy hpre
    have hhist := UConn.history_of_standing hst
    have hid' : c'.clientHelloID = c.clientHelloID := congrArg Prod.fst hhist
    have hn' : c'.clientHelloBuildStatus = .notBuilt := (congrArg (fun x => x.2.1) hhist).trans hn
    refine ⟨⟨ht, ?_, hid' ▸ hs.client, fun _ hc => absurd (hid' ▸ hc) hid,
      fun hc => absurd (hid' ▸ hc hn') hid⟩, (congrArg (fun x => x.2.2.2.2) hhist).trans h.noEch,
      fun hb => by rw [hn'] at hb; cases hb⟩
    rw [settled_of_standing hst]
    exact hs.settled
  | @notApplied c1 e hp he =>
    have hstep : ConfigStep c1 c' := by
      have hk := keeps_applyConfig d c1
      rwa [he] at hk
    rcases hp with ⟨hn, hp⟩ | ⟨hb, rfl⟩
    · have h1 := (hs.prepareBuild d hp).1
      exact h.of_failed d hn hp (h1.configStep hstep) (hstep.field UConn.history)
        (hstep.field UConn.clientHelloSpec)
    · have hnb : c.clientHelloBuildStatus ≠ .notBuilt := by rw [hb]; decide
      have h1 : c.Prepared := hs.prepared fun hn => absurd hn hnb
      have hb' : c'.clientHelloBuildStatus = .buildByUtls :=
        (hstep.field UConn.clientHelloBuildStatus).trans hb
      refine ⟨(h1.configStep hstep).sound hs (hstep.field UConn.history) fun hn => ?_,
        (hstep.field fun c => c.config.encryptedClientHelloConfigList).trans h.noEch, fun _ => ?_⟩
      · rw [hb'] at hn
        cases hn
      · rcases hr with hn | hre | hq
        · exact absurd hn hnb
        · exact .inr (hstep.remarshals hre)
        · obtain ⟨c2, hok⟩ := applyExts_of_quiet d hq
          have he : applyExts d c.extensions c = _ := he
          rw [hok] at he
          cases he
  | @notMarshalled c1 c2 c3 e hn hp ha hl he =>
    have hload := uLoadSession_cases d (hl.resolve_right (by simp)).2
    have hstep := (keeps_applyConfig d).of_ok ha
    have h3 := (((hs.prepareBuild d hp).1).configStep hstep).loaded hload
    have hhist3 : c3.history = c1.history := by
      have h2 : c2.history = c1.history := hstep.field UConn.history
      rw [hload.sessionStep.history, h2]
    have hstep' : ConfigStep c3 c' := by
      have hst := UConn.history_of_standing (hs.prepareBuild d hp).2
      have hk := configStep_marshalClientHello d
        ((congrArg (fun x => x.2.2.2.2) (hhist3.trans hst)).trans h.noEch)
      rwa [he] at hk
    have hhist : c'.history = c1.history := by
      have h4 : c'.history = c3.history := hstep'.field UConn.history
      rw [h4, hhist3]
    have hspec : c'.clientHelloSpec = c1.clientHelloSpec := by
      have h2 : c2.clientHelloSpec = c1.clientHelloSpec := hstep.field UConn.clientHelloSpec
      have h4 : c'.clientHelloSpec = c3.clientHelloSpec := hstep'.field UConn.clientHelloSpec
      rw [h4, hload.sessionStep.spec_eq, h2]
    exact h.of_failed d hn hp (h3.configStep hstep') hhist hspec

/-! ## The handshake -/

/-- What a handshake does not touch. -/
def UConn.settings (c : UConn) :=
  (c.heap, c.owners, c.config.encryptedClientHelloConfigList, c.hello.header, c.hello.original,
    c.sessionController, c.clientHelloBuildStatus, c.clientHelloID)

lemma UConn.Prepared.of_settings (h : c.Prepared)
    (hs : c'.settings = c.settings) : c'.Prepared := by
  simp only [UConn.settings, Prod.mk.injEq] at hs
  obtain ⟨hheap, howners, -, hheader, -, hsc, -, -⟩ := hs
  have hext : c'.extensions = c.extensions := congrArg (fun x => x.2.1) howners
  have hrandom : c'.hello.random = c.hello.random := congrArg (fun x => x.2.1) hheader
  refine ⟨h.tidy.of_owners howners fun r => by rw [hheap]; exact .refl _, hsc ▸ h.settled,
    hrandom ▸ h.random, fun r hr => ?_, ?_, ?_⟩
  · rw [hsc] at hr
    unfold UConn.EndsIn
    rw [hext]
    exact h.placed r hr
  · rw [hext, hsc, hheap]
    exact h.only
  · rw [hsc, hheap]
    exact h.ready

lemma UConn.Current.of_settings (h : c.Current d)
    (hs : c'.settings = c.settings) : c'.Current d := by
  simp only [UConn.settings, Prod.mk.injEq] at hs
  obtain ⟨hheap, howners, -, hheader, horiginal, -, -, -⟩ := hs
  have hext : c'.extensions = c.extensions := congrArg (fun x => x.2.1) howners
  refine h.of_view d ?_
  simp only [UConn.view, UConn.exts, hheader, horiginal, hheap, hext]

lemma keeps_failIf (e : Option Err) : Keeps (Same UConn.settings) (failIf e) := by
  cases e with
  | none => exact .pure _
  | some e => exact .fail e

lemma keeps_clientHandshake12 (a : ServerAnswer12) :
    Keeps (Same UConn.settings) (clientHandshake12 d a) := by
  have hticket : Keeps (Same UConn.settings) (saveSessionTicket a.newSession) := by
    refine .modify fun c => ?_
    cases a.newSession with
    | none => rfl
    | some s =>
      change UConn.settings (if _ then c else _) = _
      split_ifs <;> rfl
  have hhandshake : Keeps (Same UConn.settings) (handshake12 d a) :=
    Keeps.get.bind fun _ => (Keeps.ofExcept _).bind fun _ => (keeps_failIf _).bind fun _ =>
      Keeps.bind (.modify fun _ => rfl) fun _ => (keeps_failIf _).bind fun _ => hticket
  have hforget : Keeps (Same UConn.settings) (modify (·.forgetSession) : M Unit) := by
    refine .modify fun c => ?_
    change UConn.settings (if _ then _ else c) = _
    split_ifs <;> rfl
  refine Keeps.get.bind fun _ => (Keeps.ofExcept _).bind fun _ => Keeps.bind (.modify fun _ => rfl)
    fun _ => (Keeps.attempt hhandshake).bind fun o => Keeps.bind (.modify fun _ => rfl) fun _ => ?_
  cases o with
  | ok _ => exact .pure _
  | error e => exact hforget.bind fun _ => .fail e

/-- A handshake keeps a built hello. -/
lemma Built.of_settings {c1 : UConn} (h : Built d c c1) (hc : c.Faithful d)
    (hs : c'.settings = c1.settings) : c'.Faithful d := by
  have hprep := h.prepared.of_settings hs
  have hcur := h.current.of_settings d hs
  simp only [UConn.settings, Prod.mk.injEq] at hs
  obtain ⟨-, -, hech, -, -, -, hst, hi⟩ := hs
  have hb : c'.clientHelloBuildStatus = .buildByUtls := hst.trans h.status
  refine ⟨⟨hprep.tidy, hprep.settled, by rw [hi, h.id]; exact hc.sound.client, fun hn => ?_,
    fun _ => hprep⟩, hech.trans (h.echList.trans hc.noEch), fun _ => .inl hcur⟩
  rw [hb] at hn
  cases hn

lemma UConn.Faithful.runHandshake12 {a : ServerAnswer12} (h : c.Faithful d)
    (hr : c.Renews) (ha : after (runHandshake12 d a) c = some c') : c'.Faithful d := by
  rcases after_bind ha with ⟨e, he⟩ | ⟨_, c1, h1, ha⟩
  · exact h.build d hr (by simp [after, he])
  · obtain ⟨run⟩ := buildHandshakeState_run d h1
    have hbuilt := Built.of_run d h hr run
    have hk : Keeps (Same UConn.settings) (clientHandshake12 d a >>= fun _ =>
        modify fun c => { c with handshakes := c.handshakes + 1 }) :=
      (keeps_clientHandshake12 d a).bind fun _ => .modify fun _ => rfl
    exact hbuilt.of_settings d h (hk.of_after ha)

/-! ## Edits -/

/-- The changes that `BuildHandshakeState` invites its caller to make. -/
inductive Edit where
  | setClientRandom (random : Bytes)
  | setSNI (name : GoString)
  /-- Assigns `HandshakeState.Hello.SessionId`. -/
  | setSessionId (sessionId : Bytes)
  /-- Assigns `HandshakeState.Hello.CipherSuites`. -/
  | setCipherSuites (cipherSuites : List UInt16)
  /-- Makes a new extension, to be used by `replaceExt`. -/
  | newExt (e : Ext)
  /-- Changes an extension in place. -/
  | setExt (r : Ref) (e : Ext)
  /-- Puts an extension in the place of the one at index `i` of `Extensions`. -/
  | replaceExt (i : Nat) (r : Ref)

def Edit.exec : Edit → M Unit
  | .setClientRandom random => Utls.setClientRandom random
  | .setSNI name => Utls.setSNI d name
  | .setSessionId id => modify (·.updHello fun h => { h with sessionId := id })
  | .setCipherSuites l => modify (·.updHello fun h => { h with cipherSuites := l })
  | .newExt e => do
    let _ ← allocExt e
    return ()
  | .setExt r e => storeExt r e
  | .replaceExt i r => modify fun c => { c with extensions := c.extensions.set i r }

/-- The extension is neither a session ticket nor a pre-shared key extension. -/
def Ext.NoSession (e : Ext) : Prop := e.sessionKind = (false, false)

lemma Ext.not_noSession {e : Ext} (h : e.isSessionTicket = true ∨ e.isPreSharedKey = true) :
    ¬e.NoSession := by
  intro hno
  simp only [Ext.NoSession, Ext.sessionKind, Prod.mk.injEq] at hno
  rcases h with h | h
  · rw [hno.1] at h
    cases h
  · rw [hno.2] at h
    cases h

/-- The edit uses objects that exist, stores regular ones and leaves the session extensions alone. -/
def Edit.Permitted (c : UConn) : Edit → Prop
  | .newExt e => e.Regular
  | .setExt r e => r < c.nextRef ∧ (c.heap r).NoSession ∧ e.NoSession ∧ e.Regular
  | .replaceExt i r => r < c.nextRef ∧ (c.heap r).NoSession ∧
      ∀ r', c.extensions[i]? = some r' → (c.heap r').NoSession
  | _ => True

/-- What an edit does not touch, and what it keeps. -/
structure EditStep (c c' : UConn) : Prop where
  controller : c'.sessionController = c.sessionController
  history : c'.history = c.history
  spec : c'.clientHelloSpec = c.clientHelloSpec
  next : c.nextRef ≤ c'.nextRef
  extensions : c.Tidy → ∀ r ∈ c'.extensions, r < c'.nextRef
  random : c.hello.random.length = 32 → c'.hello.random.length = 32
  session : ∀ r < c.nextRef, ¬(c.heap r).NoSession → c'.heap r = c.heap r
  placed : ∀ r, ¬(c.heap r).NoSession → c.EndsIn r → c'.EndsIn r
  old : c.Tidy → ∀ r ∈ c'.extensions, ¬(c'.heap r).NoSession →
    r ∈ c.extensions ∧ c'.heap r = c.heap r
  regular : c.RegularHeap → c'.RegularHeap

/-- Replacing an extension other than the last one keeps the last one last. -/
lemma UConn.EndsIn.set {r' : Ref} {i : Nat} (h : c.EndsIn r) (hr : r' ≠ r)
    (hi : c.extensions[i]? ≠ some r) :
    UConn.EndsIn { c with extensions := c.extensions.set i r' } r := by
  obtain ⟨pre, hext, hmem⟩ := h
  have hlt : i < pre.length ∨ pre.length < i := by
    rcases Nat.lt_trichotomy i pre.length with h | rfl | h
    · exact .inl h
    · rw [hext] at hi
      simp at hi
    · exact .inr h
  rcases hlt with hlt | hlt
  · refine ⟨pre.set i r', ?_, fun hin => ?_⟩
    · change c.extensions.set i r' = _
      rw [hext, set_append_left _ _ hlt]
    · rcases mem_or_eq_of_mem_set hin with hin | heq
      · exact hmem hin
      · exact hr heq.symm
  · refine ⟨pre, ?_, hmem⟩
    change c.extensions.set i r' = _
    rw [hext]
    exact set_eq_of_length_le (by simp; omega)

/-- An edit that only changes fields of the hello. -/
lemma editStep_updHello (f : ClientHelloMsg → ClientHelloMsg)
    (hf : c.hello.random.length = 32 → (f c.hello).random.length = 32) :
    EditStep c (c.updHello f) :=
  ⟨rfl, rfl, rfl, le_rfl, fun h => h.extensions, hf, fun _ _ _ => rfl, fun _ _ h => h,
    fun _ _ h _ => ⟨h, rfl⟩, id⟩

lemma Ext.regular_withSNI {e : Ext} (h : e.Regular) (name : GoString) : (e.withSNI name).Regular := by
  cases e with
  | sni _ => trivial
  | _ => exact h

lemma Ext.withSNI_of_session {e : Ext} (h : ¬e.NoSession) (name : GoString) :
    e.withSNI name = e := by
  cases e with
  | sni _ => exact absurd rfl h
  | _ => rfl

lemma Ext.noSession_withSNI {e : Ext} (h : e.NoSession) (name : GoString) :
    (e.withSNI name).NoSession := by
  cases e <;> exact h

lemma Edit.editStep {e : Edit} (hp : e.Permitted c) : EditStep c (endState (e.exec d c)) := by
  cases e with
  | setClientRandom random =>
    simp only [Edit.exec, Utls.setClientRandom]
    split_ifs with h
    · exact ⟨rfl, rfl, rfl, le_rfl, fun h => h.extensions, id, fun _ _ _ => rfl, fun _ _ h => h,
        fun _ _ h _ => ⟨h, rfl⟩, id⟩
    · exact editStep_updHello (fun hello => { hello with random := random }) fun _ => not_ne_iff.mp h
  | setSNI name =>
    have hheap : ∀ r, ¬(c.heap r).NoSession →
        (if r ∈ c.extensions then (c.heap r).withSNI (d.hostname name) else c.heap r) = c.heap r := by
      intro r hr
      rw [Ext.withSNI_of_session hr, ite_self]
    refine ⟨rfl, rfl, rfl, le_rfl, fun h => h.extensions, id, fun r _ => hheap r, fun _ _ h => h,
      fun _ r hr hno => ⟨hr, hheap r fun h => hno ?_⟩, fun h r hr => ?_⟩
    · change (if r ∈ c.extensions then (c.heap r).withSNI (d.hostname name) else c.heap r).NoSession
      split_ifs
      · exact Ext.noSession_withSNI h _
      · exact h
    · change (if r ∈ c.extensions then (c.heap r).withSNI (d.hostname name) else c.heap r).Regular
      split_ifs
      · exact Ext.regular_withSNI (h r hr) _
      · exact h r hr
  | setSessionId id => exact editStep_updHello (fun hello => { hello with sessionId := id }) fun h => h
  | setCipherSuites l =>
    exact editStep_updHello (fun hello => { hello with cipherSuites := l }) fun h => h
  | newExt e =>
    refine ⟨rfl, rfl, rfl, Nat.le_succ _, fun h r hr => ?_, id, fun r hlt _ => UConn.alloc_heap hlt,
      fun _ _ h => h, fun h r hr _ => ⟨hr, UConn.alloc_heap (h.extensions r hr)⟩, fun h => h.alloc hp⟩
    exact Nat.lt_succ_of_lt (h.extensions r hr)
  | setExt r e =>
    obtain ⟨-, hr, he, hx⟩ := hp
    have hkeep : ∀ r', r' ≠ r → (c.store r e).heap r' = c.heap r' :=
      fun r' hr' => update_of_ne hr' _ _
    refine ⟨rfl, rfl, rfl, le_rfl, fun h => h.extensions, id, fun r' _ hr' => hkeep r' ?_,
      fun _ _ h => h, fun _ r' hr' hno => ⟨hr', hkeep r' ?_⟩, fun h => h.store hx⟩
    · rintro rfl
      exact hr' hr
    · rintro rfl
      refine hno ?_
      change (Function.update c.heap r' e r').NoSession
      rwa [update_self]
  | replaceExt i r =>
    obtain ⟨hlt, hr, hi⟩ := hp
    refine ⟨rfl, rfl, rfl, le_rfl, fun h r' hr' => ?_, id, fun _ _ _ => rfl, fun r' hr' he => ?_,
      fun _ r' hr' hno => ⟨?_, rfl⟩, id⟩
    · rcases mem_or_eq_of_mem_set hr' with hin | rfl
      · exact h.extensions r' hin
      · exact hlt
    · refine he.set ?_ fun hget => hr' (hi r' hget)
      rintro rfl
      exact hr' hr
    · rcases mem_or_eq_of_mem_set hr' with hin | rfl
      · exact hin
      · exact absurd hr hno

/-- An edit of a prepared connection. -/
lemma EditStep.prepared (h : EditStep c c') (hp : c.Prepared) (ht : c'.Tidy) : c'.Prepared := by
  have hpsk : ∀ r, c.sessionController.pskExtension = some r →
      r < c.nextRef ∧ ¬(c.heap r).NoSession := by
    intro r hr
    obtain ⟨hlt, hkind⟩ := hp.tidy.psk r hr
    exact ⟨hlt, Ext.not_noSession (.inr hkind)⟩
  refine ⟨ht, h.controller ▸ hp.settled, h.random hp.random, fun r hr => ?_, fun r hr hk => ?_,
    fun hst r e hr he => ?_⟩
  · rw [h.controller] at hr
    exact h.placed r (hpsk r hr).2 (hp.placed r hr)
  · obtain ⟨hmem, heq⟩ := h.old hp.tidy r hr (Ext.not_noSession (.inr hk))
    rw [h.controller]
    exact hp.only r hmem (heq ▸ hk)
  · rw [h.controller] at hst hr
    obtain ⟨hlt, hno⟩ := hpsk r hr
    exact hp.ready hst r e hr (by rw [← h.session r hlt hno, he])

lemma EditStep.sound (h : EditStep c c') (hs : c.Sound) : c'.Sound := by
  have ht := hs.tidy
  have hid : c'.clientHelloID = c.clientHelloID := congrArg Prod.fst h.history
  have hst : c'.clientHelloBuildStatus = c.clientHelloBuildStatus :=
    congrArg (fun x => x.2.1) h.history
  have ht' : c'.Tidy := by
    refine ⟨h.extensions ht, fun p hp r hr => ?_, fun r hr => ?_, fun r hr => ?_,
      h.regular ht.regular⟩
    · rw [h.spec] at hp
      exact lt_of_lt_of_le (ht.spec p hp r hr) h.next
    · rw [h.controller] at hr
      obtain ⟨hlt, hkind⟩ := ht.ticket r hr
      refine ⟨lt_of_lt_of_le hlt h.next, ?_⟩
      rw [h.session r hlt (Ext.not_noSession (.inl hkind))]
      exact hkind
    · rw [h.controller] at hr
      obtain ⟨hlt, hkind⟩ := ht.psk r hr
      refine ⟨lt_of_lt_of_le hlt h.next, ?_⟩
      rw [h.session r hlt (Ext.not_noSession (.inr hkind))]
      exact hkind
  refine ⟨ht', h.controller ▸ hs.settled, hid ▸ hs.client, ?_, ?_⟩
  · rw [hst, hid, h.spec]
    exact hs.spec
  · rw [hst, hid]
    exact fun hc => h.prepared (hs.prepared hc) ht'

/-! ## Runs -/

/-- A call on a client: a build, an edit, or a handshake with a server that negotiates TLS 1.2 or
below, by `Handshake` or after a HelloRequest. -/
inductive Call where
  | build
  | edit (e : Edit)
  | handshake (a : ServerAnswer12)
  | renegotiate (a : ServerAnswer12)

def Call.exec : Call → M Unit
  | .build => buildHandshakeState d true
  | .edit e => e.exec d
  | .handshake a => handshakeContext12 d a
  | .renegotiate a => handleRenegotiation d a

def Call.Permitted (call : Call) (c : UConn) : Prop :=
  match call with
  | .edit e => e.Permitted c
  | _ => True

/-- The call loses no change.  A build renews the bytes, unless nothing has changed.  An edit is
made before the first build, or the list it leaves is marshalled again by the next build, or it
changes nothing that is sent. -/
def Call.Harmless (call : Call) (c : UConn) : Prop :=
  match call with
  | .edit e =>
    let c' := endState (e.exec d c)
    c.clientHelloBuildStatus = .notBuilt ∨ c'.Remarshals ∨ (¬c.Remarshals ∧ c'.view d = c.view d)
  | _ => c.Renews

lemma Fresh.faithful (h : Fresh d c)
    (he : c.config.encryptedClientHelloConfigList = none) : c.Faithful d :=
  ⟨h.sound, he, fun hb => by rw [h.notBuilt] at hb; cases hb⟩

lemma UConn.Faithful.edit {e : Edit} (h : c.Faithful d) (hp : e.Permitted c)
    (hh : Call.Harmless d (.edit e) c) : (endState (e.exec d c)).Faithful d := by
  have hstep := e.editStep d hp
  refine ⟨hstep.sound h.sound, (congrArg (fun x => x.2.2.2.2) hstep.history).trans h.noEch,
    fun hb => ?_⟩
  have hst := congrArg (fun x => x.2.1) hstep.history
  have hb : c.clientHelloBuildStatus = .buildByUtls := hst.symm.trans hb
  rcases hh with hn | hre | ⟨hnot, hview⟩
  · rw [hb] at hn
    cases hn
  · exact .inr hre
  · exact .inl (((h.raw hb).resolve_right hnot).of_view d hview)

/-- What one call keeps. -/
lemma UConn.Faithful.call {call : Call} (h : c.Faithful d)
    (hp : call.Permitted c ∧ call.Harmless d c) (ha : after (call.exec d) c = some c') :
    c'.Faithful d := by
  obtain ⟨hp, hh⟩ := hp
  cases call with
  | build => exact h.build d hh ha
  | edit e =>
    have hend : endState (e.exec d c) = c' := by
      rcases after_eq_some ha with ⟨_, ha⟩ | ⟨_, ha⟩ <;> exact congrArg endState ha
    exact hend ▸ h.edit d hp hh
  | handshake a =>
    have ha : after (runIf (c.handshakes = 0) (Utls.runHandshake12 d a)) c = some c' := ha
    unfold runIf at ha
    split_ifs at ha
    · exact h.runHandshake12 d hh ha
    · cases ha
      exact h
  | renegotiate a =>
    obtain ⟨_, _, h1, ha⟩ := NoFail.after_bind .get ha
    cases h1
    cases hr : c.config.renegotiation with
    | never =>
      rw [hr] at ha
      cases ha
      exact h
    | onceAsClient =>
      rw [hr] at ha
      have ha : after (runIf (c.handshakes ≤ 1) (Utls.runHandshake12 d a)) c = some c' := ha
      unfold runIf at ha
      split_ifs at ha
      · exact h.runHandshake12 d hh ha
      · cases ha
        exact h
    | freelyAsClient =>
      rw [hr] at ha
      exact h.runHandshake12 d hh ha
    | other =>
      rw [hr] at ha
      cases ha
      exact h

/-- In every run whose calls lose no change, `Hello.Raw` is after the next build the encoding of the
hello and of the extensions of the list, and `renegotiation_info` carries the saved `Finished`
message. -/
theorem raw_is_current {calls : List Call} {c₀ c c' : UConn} (h₀ : Fresh d c₀)
    (hech : c₀.config.encryptedClientHelloConfigList = none)
    (hcalls : Along (Call.exec d) (fun call c => call.Permitted c ∧ call.Harmless d c) calls c₀)
    (hrun : run (Call.exec d) calls c₀ = some c) (hr : c.Renews)
    (hb : buildHandshakeState d true c = .ok () c') :
    c'.hello.original = some (clientHelloEncoding d.parseIP c'.hello c'.exts) ∧
      ∀ r ∈ c'.extensions, (c'.heap r).CarriesFinished c' := by
  have hf : c.Faithful d :=
    run_induction (fun call c c' h hp ha => h.call d hp ha) (h₀.faithful d hech) hcalls hrun
  obtain ⟨run⟩ := buildHandshakeState_run d hb
  have hbuilt := Built.of_run d hf hr run
  exact ⟨hbuilt.current, hbuilt.finished⟩

end Deps

/-! ## A client that renegotiates -/

/-- A specification of TLS 1.2 with `renegotiation_info`. -/
def renegotiatingSpec : ClientHelloSpec where
  cipherSuites := [0xc02f]
  extensions := [0]
  tlsVersMin := VersionTLS12
  tlsVersMax := VersionTLS12
  greaseSeed := []

/-- A client to which it is applied. -/
def renegotiatingClient : UConn :=
  endState (applyPreset .sample renegotiatingSpec
    (uClient (fun _ => .renegotiationInfo .onceAsClient []) 1
      { serverName := [0x61], renegotiation := .freelyAsClient } {} .custom))

/-- A full handshake. -/
def fullHandshake12 : ServerAnswer12 where
  vers := VersionTLS12
  sessionId := []
  cipherSuite := 0xc02f
  verifyData := List.replicate 12 7
  newSession := none

lemma fresh_renegotiatingClient : Fresh .sample renegotiatingClient := by
  refine Fresh.custom _ 1 _ _ renegotiatingSpec ?_ ?_ (eq_ok_of_returns (by decide +kernel))
  · exact fun _ _ => trivial
  · simp [renegotiatingSpec]

/-- The client builds, sets the cipher suites it has anyway and builds again. -/
theorem raw_is_current_unchanged :
    ∃ c c', run (Call.exec .sample) [.build, .edit (.setCipherSuites [0xc02f])] renegotiatingClient =
        some c ∧ buildHandshakeState .sample true c = .ok () c' ∧
      c'.hello.original = some (clientHelloEncoding Deps.sample.parseIP c'.hello c'.exts) := by
  set c1 := endState (buildHandshakeState .sample true renegotiatingClient)
  set c := c1.updHello fun h => { h with cipherSuites := [0xc02f] } with hc
  have hafter : after (Call.exec .sample .build) renegotiatingClient = some c1 :=
    after_of_ok (eq_ok_of_returns (by decide +kernel))
  have hrun : run (Call.exec .sample) [.build, .edit (.setCipherSuites [0xc02f])]
      renegotiatingClient = some c := by
    simp only [run, hafter, Option.bind_some]
    rfl
  have hbuild := eq_ok_of_returns
    (show returns (buildHandshakeState .sample true c) = true by decide +kernel)
  -- the list has one extension, which has nothing to change before the first handshake
  have hexts : c1.extensions = [0] := by decide +kernel
  have hcore : (c1.heap 0).core = .renegotiationInfo .onceAsClient [] := rfl
  have hquiet : c1.Quiet c1.extensions := by
    intro r hr
    rw [hexts, mem_singleton] at hr
    subst hr
    cases hx : c1.heap 0 with
    | renegotiationInfo kind conn =>
      have hzero : c1.handshakes = 0 := by decide +kernel
      exact ⟨fun _ hpos => by omega, rfl⟩
    | _ =>
      rw [hx] at hcore
      simp [Ext.core, Ext.skeleton] at hcore
  have halong : Along (Call.exec .sample)
      (fun call c => call.Permitted c ∧ call.Harmless .sample c)
      [.build, .edit (.setCipherSuites [0xc02f])] renegotiatingClient := by
    refine ⟨⟨trivial, .inl (by decide +kernel)⟩, fun c2 h2 => ?_⟩
    cases hafter.symm.trans h2
    refine ⟨⟨trivial, .inr (.inr ⟨?_, ?_⟩)⟩, fun _ _ => trivial⟩
    · rintro ⟨pre, r, post, hext, hg, -⟩
      rw [(hquiet r (by simp [hext])).2] at hg
      cases hg
    · have hsuites : c1.hello.cipherSuites = [0xc02f] := by decide +kernel
      have hheader : c.hello.header = c1.hello.header := by
        simp only [hc, UConn.updHello, ClientHelloMsg.header, hsuites]
      change c.view .sample = c1.view .sample
      simp only [UConn.view, hheader]
      rfl
  exact ⟨c, _, hrun, hbuild, (raw_is_current .sample fresh_renegotiatingClient rfl halong hrun
    (.inr (.inr hquiet)) hbuild).1⟩

/-- The calls on a new connection are all permitted, and yet the build that comes next returns a
hello whose bytes are not its encoding. -/
def LosesChange (calls : List Call) : Prop :=
  ∃ c₀ c c', Fresh .sample c₀ ∧ c₀.config.encryptedClientHelloConfigList = none ∧
    Along (Call.exec .sample) (fun call c => call.Permitted c) calls c₀ ∧
    run (Call.exec .sample) calls c₀ = some c ∧ buildHandshakeState .sample true c = .ok () c' ∧
    c'.hello.original ≠ some (clientHelloEncoding Deps.sample.parseIP c'.hello c'.exts)

/-- The same as a test of the client above. -/
def testChange (calls : List Call) : Bool :=
  match run (Call.exec .sample) calls renegotiatingClient with
  | none => false
  | some c =>
    let r := buildHandshakeState .sample true c
    let c' := endState r
    returns r && c'.hello.original != some (clientHelloEncoding (fun _ => false) c'.hello c'.exts)

lemma losesChange_of_test {calls : List Call} (h : testChange calls = true)
    (hp : Along (Call.exec .sample) (fun call c => call.Permitted c) calls renegotiatingClient) :
    LosesChange calls := by
  unfold testChange at h
  split at h
  · cases h
  · rename_i c hrun
    simp only [Bool.and_eq_true, bne_iff_ne, ne_eq] at h
    exact ⟨_, c, _, fresh_renegotiatingClient, rfl, hp, hrun, eq_ok_of_returns h.1, h.2⟩

/-- A second build does not put a new client random into the bytes, and a renegotiation does not put
the saved `Finished` message into them. -/
theorem raw_is_stale :
    LosesChange [.build, .edit (.setClientRandom (List.replicate 32 1))] ∧
      LosesChange [.handshake fullHandshake12] := by
  constructor
  · refine losesChange_of_test (by decide +kernel) ?_
    exact ⟨trivial, fun _ _ => ⟨trivial, fun _ _ => trivial⟩⟩
  · refine losesChange_of_test (by decide +kernel) ?_
    exact ⟨trivial, fun _ _ => trivial⟩

end Utls
