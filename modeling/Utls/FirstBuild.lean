import Utls.BytesSent
import Utls.SentHello

/-!
# What a build keeps of a prepared connection

Without ECH the parts of a build after `ApplyPreset` change what is inside the extension objects,
but neither the list nor the types of the objects, and not the fields in front of the extensions
(`Kept`).  So the prepared connection already says which extensions the hello has.
-/

namespace Utls

open Wire Exec

variable {c c' : UConn} {u : Unit}

/-- The extension list, the types of its objects, the fields in front of the extensions and the ECH
context are the same. -/
structure Kept (c c' : UConn) : Prop where
  extensions : c'.extensions = c.extensions
  typeId : ∀ r, (c'.heap r).typeId = (c.heap r).typeId
  header : c'.hello.header = c.hello.header
  echCtx : c'.echCtx = c.echCtx

/-- One step after the other. -/
lemma Kept.trans {c1 c2 c3 : UConn} (h : Kept c1 c2) (h' : Kept c2 c3) : Kept c1 c3 :=
  ⟨h'.extensions.trans h.extensions, fun r => (h'.typeId r).trans (h.typeId r),
    h'.header.trans h.header, h'.echCtx.trans h.echCtx⟩

/-- The core tells the type on the wire. -/
lemma Ext.typeId_core (e : Ext) : e.core.typeId = e.typeId := by
  cases e <;> rfl

/-- Applying the configuration keeps them. -/
lemma ConfigStep.kept (h : ConfigStep c c') : Kept c c' := by
  refine ⟨h.extensions_eq, fun r => ?_, h.header, h.field UConn.echCtx⟩
  rw [← (c'.heap r).typeId_core, (h.heap r).core, (c.heap r).typeId_core]

/-- The kind of a session extension determines its type. -/
lemma Ext.typeId_of_sessionKind {e e' : Ext} (h : e'.sessionKind = e.sessionKind)
    (hs : e.sessionKind ≠ (false, false)) : e'.typeId = e.typeId := by
  cases e with
  | sessionTicket t =>
    cases e' with
    | sessionTicket t' => rfl
    | _ => cases h
  | utlsPreSharedKey x | fakePreSharedKey x =>
    cases e' with
    | utlsPreSharedKey x' => rfl
    | fakePreSharedKey x' => rfl
    | _ => cases h
  | _ => exact absurd rfl hs

/-- A session step does too, apart from the context. -/
lemma SessionStep.kept (h : SessionStep c c') (hctx : c'.echCtx = c.echCtx) : Kept c c' := by
  refine ⟨h.extensions_eq, fun r => ?_, h.header, hctx⟩
  by_cases hs : (c.heap r).sessionKind = (false, false)
  · rw [h.plain r hs]
  · exact Ext.typeId_of_sessionKind (h.kind r) hs

section Deps

variable (d : Deps)

/-- Noting a pre-shared key leaves the context alone. -/
lemma UConn.echCtx_pskWritten (c : UConn) (r : Ref) : (c.pskWritten r).echCtx = c.echCtx := by
  obtain ⟨early, session, ids, key, heq⟩ := c.pskWritten_eq r
  rw [heq]
  rfl

/-- Loading a session keeps them. -/
lemma Loaded.kept (h : Loaded d c c') : Kept c c' := by
  refine h.sessionStep.kept ?_
  cases h with
  | unchanged => rfl
  | ticketGiven _ _ => rfl
  | pskGiven _ _ => exact c.echCtx_pskWritten _
  | nothing _ => rfl
  | expired _ => rfl
  | offered _ _ ho =>
    cases ho with
    | ticket _ _ _ _ => rfl
    | psk _ _ _ _ _ => exact UConn.echCtx_pskWritten _ _
    | skipped _ _ => rfl

/-- Patching the binders keeps them. -/
lemma Patched.kept (ht : c.Tidy) (h : Patched d c c') : Kept c c' := by
  refine (h.sessionStep ht).kept ?_
  cases h with
  | nothing _ => rfl
  | @binders r n c1 c2 _ _ hl hw =>
    exact (c2.echCtx_pskWritten r).trans (field_of_patch d UConn.echCtx hl hw)

/-- Without ECH, a first build keeps what the prepared connection has. -/
lemma BuildRun.kept (hc : Fresh d c) (hech : c.config.encryptedClientHelloConfigList = none)
    (run : BuildRun d true c c') : Kept run.prepared c' := by
  obtain ⟨hprep, hload, hmarshal, hpatch⟩ := run.first d hc.notBuilt
  have hload := uLoadSession_cases d hload
  obtain ⟨-, hech3, hstep4⟩ := run.plain d hc.sound hc.notBuilt hech
  obtain ⟨hp1, -⟩ := hc.sound.prepareBuild d hprep
  have hstep := (keeps_applyConfig d).of_ok run.apply
  have hp3 := (hp1.configStep hstep).loaded hload
  obtain ⟨_, c6, h6, hfinal⟩ := bind_eq_ok.mp hpatch
  obtain ⟨hpatched, -⟩ := uApplyPatch_cases d h6
  have hfinal := finalCheck_eq_ok hfinal
  have hkept := ((hstep.kept.trans (hload.kept d)).trans hstep4.kept).trans
    (hpatched.kept d (hp3.configStep hstep4).tidy)
  have hbuilt : Kept run.prepared { run.patched with clientHelloBuildStatus := .buildByUtls } := by
    rw [hfinal]
    exact ⟨hkept.extensions, hkept.typeId, hkept.header, hkept.echCtx⟩
  rwa [← run.result] at hbuilt

/-! ## New connections -/

/-- Without ECH, `ApplyPreset` starts without a context. -/
lemma startPreset_echCtx {p : ClientHelloSpec}
    (hech : c.config.encryptedClientHelloConfigList = none) (h : startPreset d p c = .ok u c') :
    c'.echCtx = none := by
  obtain ⟨run⟩ := startPreset_run d h
  have hmade : run.made.2 = none := by
    obtain ⟨hello, x, hx, hfinish⟩ := bind_eq_ok.mp run.makes
    obtain ⟨n, rfl⟩ := (keeps_startClientHello d).of_ok hx
    have hst := ((keeps_setTLSVers _ _ _).of_ok run.versions).frame.standing
    exact (finishClientHello_ok d hfinish).2 ((congrArg (fun x => x.2.2.1) hst).trans hech)
  rw [run.result]
  exact hmade

/-- The rest of `ApplyPreset` makes none. -/
lemma applyPreset_echCtx {p : ClientHelloSpec} (ht : c.Tidy)
    (hp : c.Has p.extensions) (hech : c.config.encryptedClientHelloConfigList = none)
    (h : applyPreset d p c = .ok u c') : c'.echCtx = none := by
  obtain ⟨run⟩ := applyPreset_run d h
  have h1 : c'.echCtx = run.c₁.echCtx :=
    UConn.field_of_unsynced (run.synced ht hp).frame UConn.echCtx
  have h0 : run.c₁.echCtx = run.c₀.echCtx := (run.adapts ht hp).field UConn.echCtx
  rw [h1, h0, startPreset_echCtx d hech run.starts]

/-- A new connection without ECH has no ECH context when it is prepared. -/
lemma Fresh.echCtx {c1 : UConn} (hc : Fresh d c)
    (hech : c.config.encryptedClientHelloConfigList = none) (hp : prepareBuild d c = .ok u c1) :
    c1.echCtx = none := by
  obtain ⟨p, x, y, ht, hhas, happly, hst, -, hc1⟩ := hc.presetRun d hp
  have hctx : y.echCtx = none :=
    applyPreset_echCtx d ht hhas ((congrArg (fun x => x.2.2.1) hst).trans hech) happly
  rcases hc1 with rfl | rfl
  · exact hctx
  · exact hctx

/-- The fields in front of the extensions fit their lengths, if the cipher suites do. -/
lemma Fresh.headerFits {c1 : UConn} (hc : Fresh d c) (hp : prepareBuild d c = .ok u c1)
    (hs : c1.hello.cipherSuites.length < 32768) : c1.hello.HeaderFits := by
  obtain ⟨p, x, y, ha, -, hc1⟩ := hc.applied d hp
  have hy : c1.hello = y.hello := by
    rcases hc1 with rfl | rfl <;> rfl
  rw [hy] at hs ⊢
  obtain ⟨c2, c3, hstart, hadapt, hsync⟩ := ha.synced
  have h1 : y.hello.sessionId = c3.hello.sessionId :=
    UConn.field_of_unsynced hsync.frame fun c => c.hello.sessionId
  have h2 : c3.hello.sessionId = c2.hello.sessionId := hadapt.field fun c => c.hello.sessionId
  have h3 : y.hello.compressionMethods = c3.hello.compressionMethods :=
    UConn.field_of_unsynced hsync.frame fun c => c.hello.compressionMethods
  have h4 : c3.hello.compressionMethods = c2.hello.compressionMethods :=
    hadapt.field fun c => c.hello.compressionMethods
  refine ⟨ha.random, ?_, ?_, ?_⟩
  · have hle := hstart.sessionId
    rw [h1, h2]
    omega
  · rw [length_u16s]
    omega
  · rw [h3, h4, hstart.compression]
    decide

end Deps

end Utls
