import Utls.FirstBuild

/-!
# What of a specification reaches the wire

`ApplyPreset` does not look at the compression methods of the specification, and it resets the
pre-shared key extension of the specification before the session controller takes it over.  So
`Hello.Raw` has the null compression method, and of the `pre_shared_key` extensions of the
specification only those that are given as plain bytes (`Ext.givenPsk`): the rest of the build
leaves them alone (`spec_on_wire_iff`).
-/

namespace Utls

open Wire Exec List Option Function

/-! ## Extensions with the type of a pre-shared key -/

/-- The body of a `pre_shared_key` extension that is given as a `GenericExtension`. -/
def Ext.givenPsk : Ext → Option Bytes
  | .generic id data => if id = extensionPreSharedKey then some data else none
  | _ => none

/-- A GREASE extension with the type of a pre-shared key. -/
def Ext.posesAsPsk : Ext → Bool
  | .utlsGrease value _ => value == extensionPreSharedKey
  | _ => false

lemma Ext.givenPsk_eq_some {e : Ext} {b : Bytes} :
    e.givenPsk = some b ↔ e = .generic extensionPreSharedKey b := by
  cases e with
  | generic id data =>
    simp only [Ext.givenPsk, Ext.generic.injEq]
    split_ifs with h <;> simp [h]
  | _ => simp [Ext.givenPsk]

/-- The extension is not written with the type of a pre-shared key, unless it is given so. -/
def Ext.Offerless (e : Ext) : Prop :=
  e.posesAsPsk = false ∧
    match e with
    | .utlsPreSharedKey _ => False
    | .fakePreSharedKey f => f.identities.getD [] = []
    | _ => True

/-- The values of `GetBoringGREASEValue` are even. -/
lemma getBoringGREASEValue_ne (seed : List UInt16) (i : Nat) :
    getBoringGREASEValue seed i ≠ extensionPreSharedKey := by
  intro h
  have hbit := congrArg (fun v : UInt16 => v.toBitVec.getLsbD 0) h
  simp [getBoringGREASEValue, extensionPreSharedKey] at hbit

section ParseIP

variable (parseIP : GoString → Bool)

lemma Ext.Offerless.rawExt_iff {e : Ext} (h : e.Offerless) (b : Bytes) :
    e.rawExt parseIP = some ⟨extensionPreSharedKey, b⟩ ↔ e.givenPsk = some b := by
  obtain ⟨hpose, hown⟩ := h
  have hne : e.typeId ≠ extensionPreSharedKey → e.givenPsk = none →
      (e.rawExt parseIP = some ⟨extensionPreSharedKey, b⟩ ↔ e.givenPsk = some b) := by
    intro ht hg
    rw [hg]
    exact ⟨fun hx => absurd (Ext.extType_of_rawExt parseIP hx).symm ht, by simp⟩
  cases e with
  | generic id data =>
    rw [rawExt_generic, Ext.givenPsk_eq_some]
    simp
  | utlsGrease value body =>
    exact hne (by simpa [Ext.posesAsPsk, Ext.typeId] using hpose) rfl
  | utlsPreSharedKey p => exact hown.elim
  | fakePreSharedKey f =>
    have hwire : (Ext.fakePreSharedKey f).rawExt parseIP = none := by
      have hids : f.identities.getD [] = [] := hown
      simp [Ext.rawExt, Ext.wire, hids, pskWire, rawExtOf]
    simp [hwire, Ext.givenPsk]
  | fakeChannelID old => exact hne (by cases old <;> decide) rfl
  | _ => exact hne (of_decide_eq_true rfl) rfl

/-- The `pre_shared_key` extensions that such extensions are written as. -/
lemma mem_rawExts_iff {exts : List Ext} (h : ∀ e ∈ exts, e.Offerless) (b : Bytes) :
    ⟨extensionPreSharedKey, b⟩ ∈ rawExts parseIP exts ↔
      some b ∈ exts.map Ext.givenPsk := by
  rw [rawExts, mem_filterMap, List.mem_map]
  exact exists_congr fun e => and_congr_right fun he => (h e he).rawExt_iff parseIP b

end ParseIP

/-! ## Adapting the extensions to the connection -/

section Deps

variable (d : Deps)

variable {c c' : UConn} {i seen n : Nat} {r : Ref}

lemma UConn.exts_replace (ht : c.Tidy) (i : Nat) (e : Ext) :
    UConn.exts { c.alloc e with extensions := c.extensions.set i c.nextRef } = c.exts.set i e := by
  have hold : c.extensions.map (c.alloc e).heap = c.exts :=
    map_congr_left fun r hr => UConn.alloc_heap (ht.extensions r hr)
  have hnew : (c.alloc e).heap c.nextRef = e := update_self ..
  change (c.extensions.set i c.nextRef).map (c.alloc e).heap = _
  rw [map_set, hold, hnew]

/-- An extension of the list, after the one at index `i` was adapted: it stays as it is, or it was the
same object or at this place and is adapted. -/
lemma ExtAdapted.getElem? (ht : c.Tidy) (hi : c.extensions[i]? = some r)
    (h : ExtAdapted d i r seen c (.ok n c')) (j : Nat) :
    (c'.exts[j]? = c.exts[j]? ∧ (i = j → (c.heap r).isAdapted = false)) ∨
      (c.exts[j]? = some (c.heap r) ∧ ∃ e, (c.heap r).Adapts c e ∧ c'.exts[j]? = some e) := by
  have hplace : c'.extensions = c.extensions → (∀ q, q ≠ r → c'.heap q = c.heap q) →
      (c.heap r).Adapts c (c'.heap r) →
      (c'.exts[j]? = c.exts[j]? ∧ (i = j → (c.heap r).isAdapted = false)) ∨
        (c.exts[j]? = some (c.heap r) ∧ ∃ e, (c.heap r).Adapts c e ∧ c'.exts[j]? = some e) := by
    intro hexts hothers hr
    simp only [UConn.exts, getElem?_map, hexts]
    by_cases hj : c.extensions[j]? = some r
    · rw [hj]
      exact .inr ⟨rfl, _, hr, rfl⟩
    · refine .inl ⟨?_, fun hij => absurd (hij ▸ hi) hj⟩
      cases hq : c.extensions[j]? with
      | none => rfl
      | some q => rw [map_some, map_some, hothers q fun heq => hj (heq ▸ hq)]
  cases h with
  | same h => exact .inl ⟨rfl, fun _ => h⟩
  | stored he _ _ =>
    exact hplace rfl (fun q hq => update_of_ne hq _ _) (by rwa [UConn.store_heap, update_self])
  | grease hr _ =>
    refine hplace rfl (fun q hq => update_of_ne hq _ _) ?_
    rw [UConn.store_heap, update_self, hr]
    exact .grease ..
  | @shares l _ hr run =>
    obtain ⟨heap, keys, draws, rfl, hothers, hshare⟩ := (keeps_fillKeyShares d _ r _ _ _).of_ok run
    refine hplace rfl hothers ?_
    obtain ⟨l', hl'⟩ : ∃ l', heap r = .keyShare l' := hshare.elim (fun heq => ⟨l, heq.trans hr⟩) id
    change (c.heap r).Adapts c (heap r)
    rw [hr, hl']
    exact .shares l l'
  | quic hr =>
    rw [UConn.exts_replace ht]
    by_cases hij : i = j
    · subst hij
      have hat : c.exts[i]? = some (c.heap r) := by rw [UConn.exts, getElem?_map, hi, map_some]
      exact .inr ⟨hat, _, hr ▸ .quic .., getElem?_set_self (List.getElem?_eq_some_iff.mp hat).1⟩
    · exact .inl ⟨getElem?_set_ne hij, fun heq => absurd heq hij⟩

/-- What adapting the extension does not change of it stays for the whole list. -/
lemma ExtAdapted.map_eq {β : Type} {f : Ext → β} (ht : c.Tidy) (hi : c.extensions[i]? = some r)
    (h : ExtAdapted d i r seen c (.ok n c'))
    (hf : ∀ e, (c.heap r).Adapts c e → f e = f (c.heap r)) : c'.exts.map f = c.exts.map f := by
  refine ext_getElem? fun j => ?_
  rw [getElem?_map, getElem?_map]
  rcases h.getElem? d ht hi j with ⟨heq, -⟩ | ⟨hold, e, he, hnew⟩
  · rw [heq]
  · rw [hold, hnew, map_some, map_some, hf e he]

lemma Ext.Adapts.givenPsk_eq {e e' : Ext} (h : e.Adapts c e') :
    e'.givenPsk = e.givenPsk ∧ e'.posesAsPsk = false := by
  cases h with
  | grease value k body body' =>
    refine ⟨rfl, ?_⟩
    simp [Ext.posesAsPsk, getBoringGREASEValue_ne]
  | _ => exact ⟨rfl, rfl⟩

lemma Ext.posesAsPsk_of_not_adapted {e : Ext} (h : e.isAdapted = false) : e.posesAsPsk = false := by
  cases e with
  | utlsGrease v b => cases h
  | _ => rfl

/-- The extension at index `j` does not pose as a pre-shared key. -/
def UConn.HonestAt (c : UConn) (j : Nat) : Prop := ∀ e, c.exts[j]? = some e → e.posesAsPsk = false

lemma ExtAdapted.honestAt (ht : c.Tidy) (hi : c.extensions[i]? = some r)
    (h : ExtAdapted d i r seen c (.ok n c')) {j : Nat} (hj : i = j ∨ c.HonestAt j) :
    c'.HonestAt j := by
  intro e he
  rcases h.getElem? d ht hi j with ⟨heq, hsame⟩ | ⟨-, e', he', hnew⟩
  · rw [heq] at he
    rcases hj with rfl | hj
    · rw [UConn.exts, getElem?_map, hi] at he
      cases he
      exact Ext.posesAsPsk_of_not_adapted (hsame rfl)
    · exact hj e he
  · cases he.symm.trans hnew
    exact he'.givenPsk_eq.2

/-- The whole loop: the extensions of plain bytes stay, and no extension poses as a pre-shared key
that did not before, or that the loop has come by. -/
lemma adaptExts_adapted (rs : List Ref) {u : Unit} (ht : c.Tidy)
    (hrs : ∀ (k : Nat) (r : Ref), rs[k]? = some r → c.extensions[i + k]? = some r)
    (h : adaptExts d i rs seen c = .ok u c') :
    c'.exts.map Ext.givenPsk = c.exts.map Ext.givenPsk ∧
      (∀ j, c.HonestAt j → c'.HonestAt j) ∧ ∀ k < rs.length, c'.HonestAt (i + k) := by
  obtain ⟨-, hgiven, hkept, hnew⟩ := adaptExts_induction d
    (P := fun j _ c1 => c1.exts.map Ext.givenPsk = c.exts.map Ext.givenPsk ∧
      (∀ k, c.HonestAt k → c1.HonestAt k) ∧ ∀ k, i ≤ k → k < j → c1.HonestAt k)
    (fun ht hi h1 ⟨hgiven, hkept, hnew⟩ => by
      have hat := adaptExt_ok d h1
      refine ⟨(hat.map_eq d ht hi fun _ he => he.givenPsk_eq.1).trans hgiven,
        fun k hk => hat.honestAt d ht hi (.inr (hkept k hk)), fun k hle hlt => hat.honestAt d ht hi ?_⟩
      rcases Nat.lt_succ_iff_lt_or_eq.mp hlt with hlt | rfl
      · exact .inr (hnew k hle hlt)
      · exact .inl rfl)
    rs ht hrs ⟨rfl, fun _ hk => hk, fun k hle hlt => absurd hlt (Nat.not_lt.mpr hle)⟩ h
  exact ⟨hgiven, hkept, fun k hk => hnew (i + k) (Nat.le_add_right i k) (Nat.add_lt_add_left hk i)⟩

end Deps

/-! ## Taking the session extensions over -/

lemma Ext.reset_of_not_psk {e : Ext} (h : e.isPreSharedKey = false) (b : Bool) :
    e.resetForReuse.setOmitEmptyPsk b = e := by
  cases e with
  | utlsPreSharedKey p => cases h
  | fakePreSharedKey p => cases h
  | _ => rfl

variable {c c' : UConn}

/-- A controller without extensions resets the pre-shared key extension of the list. -/
lemma syncSessionExts_exts {u : Unit} (ht : c.Tidy)
    (hticket : c.sessionController.sessionTicketExt = none)
    (hpsk : c.sessionController.pskExtension = none) (h : syncSessionExts c = .ok u c') :
    c'.exts = c.exts.map fun e => e.resetForReuse.setOmitEmptyPsk c.config.omitEmptyPsk := by
  -- the extensions of the list are taken over and none is replaced
  obtain ⟨-, n, b, done, c1, hexts1, hs, hend⟩ := syncSessionExts_run
    (P := fun c1 => c1.extensions = c.extensions)
    ⟨fun hs _ h1 hP => by
      rw [syncTicketExt, run_get_bind, (hs.noTicket rfl).1, hticket] at h1
      cases h1
      exact hP,
    fun hs _ h1 hP => by
      rw [syncPskExt, run_get_bind, (hs.noPsk rfl).1, hpsk] at h1
      cases h1
      exact hP⟩
    ht rfl h
  have hdone : done = c.extensions := by
    rw [← hexts1, hs.exts, append_nil]
  rw [hend.exts, UConn.exts, UConn.exts, hexts1, List.map_map]
  refine map_congr_left fun r hr => ?_
  rw [comp_apply]
  rw [← hdone] at hr
  cases hb : b with
  | false =>
    obtain ⟨-, hheap, hno⟩ := hs.noPsk hb
    have hr := hno r hr
    rw [hheap] at hr ⊢
    exact (Ext.reset_of_not_psk hr _).symm
  | true =>
    obtain ⟨-, pre, q, hpre, hq, hno, htook⟩ := hs.psk hb
    have hheap : c1.heap = Function.update c.heap q
        ((c.heap q).resetForReuse.setOmitEmptyPsk c.config.omitEmptyPsk) := by
      rcases htook with ⟨-, -, hheap⟩ | ⟨hsome, -⟩
      · exact hheap
      · rw [hpsk] at hsome
        cases hsome
    by_cases hrq : r = q
    · rw [hrq, hheap, update_self]
    · rw [hpre] at hr
      have hmem := (mem_append.mp hr).resolve_right (by simpa using hrq)
      have hr := hno r hmem
      rw [hheap, update_of_ne hrq] at hr ⊢
      exact (Ext.reset_of_not_psk hr _).symm

section Deps

variable (d : Deps)

/-- What `ApplyPreset` leaves of the extensions on a connection whose controller has none. -/
lemma PresetRun.exts_reset {d : Deps} {p : ClientHelloSpec} {c c' : UConn} (run : PresetRun d p c c')
    (ht : c.Tidy) (hp : c.Has p.extensions)
    (hticket : c.sessionController.sessionTicketExt = none)
    (hpsk : c.sessionController.pskExtension = none) :
    c'.exts = run.c₁.exts.map fun e => e.resetForReuse.setOmitEmptyPsk run.c₁.config.omitEmptyPsk := by
  have hsc : run.c₁.sessionController = c.sessionController :=
    ((run.adapts ht hp).field UConn.sessionController).trans run.started.controller
  have hticket1 : run.c₁.sessionController.sessionTicketExt = none := by rw [hsc, hticket]
  have hpsk1 : run.c₁.sessionController.pskExtension = none := by rw [hsc, hpsk]
  exact syncSessionExts_exts (c := run.c₁.noteNPN) (run.tidy1 ht hp) hticket1 hpsk1 run.syncs

lemma Ext.givenPsk_reset (e : Ext) (b : Bool) :
    (e.resetForReuse.setOmitEmptyPsk b).givenPsk = e.givenPsk := by
  cases e <;> rfl

lemma Ext.posesAsPsk_reset (e : Ext) (b : Bool) :
    (e.resetForReuse.setOmitEmptyPsk b).posesAsPsk = e.posesAsPsk := by
  cases e <;> rfl

/-- What `ApplyPreset` leaves of the extensions of a specification that ends in a
`FakePreSharedKeyExtension`: those of plain bytes, and none that would be written as a pre-shared
key. -/
lemma applyPreset_offerless {p : ClientHelloSpec} {c c' : UConn} {u : Unit} {r : Ref}
    {f : FakePreSharedKeyExtension} (ht : c.Tidy) (hp : c.Has p.extensions)
    (hticket : c.sessionController.sessionTicketExt = none)
    (hpsk : c.sessionController.pskExtension = none) (hr : p.extensions.getLast? = some r)
    (hf : c.heap r = .fakePreSharedKey f) (h : applyPreset d p c = .ok u c') :
    c'.exts.map Ext.givenPsk = (p.extensions.map c.heap).map Ext.givenPsk ∧
      ∀ e ∈ c'.exts, e.Offerless := by
  obtain ⟨run⟩ := applyPreset_run d h
  have hs := run.started
  have ht0 := run.tidy0 ht hp
  have hadapt := run.adapts ht hp
  have hsynced := run.synced ht hp
  obtain ⟨hgiven, -, hhonest⟩ := adaptExts_adapted d p.extensions ht0 run.places run.loops
  have hexts := run.exts_reset ht hp hticket hpsk
  have hlen : run.c₁.exts.length = p.extensions.length := by
    rw [UConn.exts, length_map, hadapt.length, hs.extensions]
  refine ⟨?_, fun e he => ?_⟩
  · have hc0 : run.c₀.exts = p.extensions.map c.heap := by rw [UConn.exts, hs.extensions, hs.heap]
    rw [← hc0, ← hgiven, hexts, List.map_map]
    exact map_congr_left fun e _ => e.givenPsk_reset _
  · obtain ⟨e1, he1, rfl⟩ := List.mem_map.mp (hexts ▸ he)
    refine ⟨?_, ?_⟩
    · obtain ⟨k, hk⟩ := mem_iff_getElem?.mp he1
      have hklt : k < p.extensions.length := hlen ▸ (List.getElem?_eq_some_iff.mp hk).1
      rw [e1.posesAsPsk_reset]
      exact hhonest k hklt e1 (by rwa [Nat.zero_add])
    · cases e1 with
      | utlsPreSharedKey x =>
        -- only the last extension is a pre-shared key
        exfalso
        obtain ⟨q, hq, hqe⟩ := List.mem_map.mp he
        have hown := hsynced.only q hq (by rw [hqe]; rfl)
        have hend : c'.exts.getLast? = some (c'.heap q) := by
          rcases hsynced.psk with ⟨hno, -⟩ | ⟨q', hq', ⟨pre, hpre, -⟩, -⟩
          · rw [hno] at hown
            cases hown
          · cases hown.symm.trans hq'
            rw [UConn.exts, hpre]
            simp
        have hlast : run.c₁.exts.getLast? = some (.fakePreSharedKey f) := by
          have hlt : r < run.c₀.nextRef := ht0.extensions r (by
            rw [hs.extensions]
            exact mem_of_getLast? hr)
          have hkind : (run.c₀.heap r).sessionKind ≠ (false, false) := by
            rw [hs.heap, hf]
            simp [Ext.sessionKind, Ext.isPreSharedKey]
          rw [getLast?_eq_getElem?] at hr ⊢
          have hat := hadapt.place (p.extensions.length - 1) r (by rw [hs.extensions, hr]) hlt hkind
          rw [hlen, UConn.exts, getElem?_map, hat, map_some, hadapt.session r hlt hkind,
            hs.heap, hf]
        rw [hexts, getLast?_map, hlast, hqe] at hend
        cases hend
      | fakePreSharedKey x => rfl
      | _ => trivial

end Deps

/-! ## What the rest of the build leaves alone -/

lemma Ext.givenPsk_core (e : Ext) : e.core.givenPsk = e.givenPsk := by
  cases e <;> rfl

lemma Ext.offerless_core (e : Ext) : e.core.Offerless ↔ e.Offerless := by
  cases e <;> exact Iff.rfl

/-- The list is the same, and so are the pre-shared keys that its extensions are written as. -/
structure PskKept (c c' : UConn) : Prop where
  extensions : c'.extensions = c.extensions
  given : ∀ r ∈ c.extensions, (c'.heap r).givenPsk = (c.heap r).givenPsk
  offerless : ∀ r ∈ c.extensions, (c.heap r).Offerless → (c'.heap r).Offerless

namespace PskKept

variable {c c1 c2 c' : UConn}

lemma of_core (he : c'.extensions = c.extensions)
    (h : ∀ r ∈ c.extensions, (c'.heap r).core = (c.heap r).core) : PskKept c c' := by
  refine ⟨he, fun r hr => ?_, fun r hr ho => ?_⟩
  · rw [← (c'.heap r).givenPsk_core, h r hr, (c.heap r).givenPsk_core]
  · rwa [← (c'.heap r).offerless_core, h r hr, (c.heap r).offerless_core]

lemma of_heap (he : c'.extensions = c.extensions) (hh : c'.heap = c.heap) : PskKept c c' :=
  of_core he fun r _ => by rw [hh]

lemma trans (h : PskKept c c1) (h' : PskKept c1 c2) : PskKept c c2 := by
  refine ⟨h'.extensions.trans h.extensions, fun r hr => ?_, fun r hr ho => ?_⟩
  · rw [h'.given r (h.extensions ▸ hr), h.given r hr]
  · exact h'.offerless r (h.extensions ▸ hr) (h.offerless r hr ho)

lemma map_givenPsk (h : PskKept c c') : c'.exts.map Ext.givenPsk = c.exts.map Ext.givenPsk := by
  rw [UConn.exts, UConn.exts, h.extensions, List.map_map, List.map_map]
  exact map_congr_left fun r hr => h.given r hr

lemma forall_offerless (h : PskKept c c') (ho : ∀ e ∈ c.exts, e.Offerless) :
    ∀ e ∈ c'.exts, e.Offerless := by
  intro e he
  obtain ⟨r, hr, rfl⟩ := List.mem_map.mp he
  rw [h.extensions] at hr
  exact h.offerless r hr (ho _ (List.mem_map_of_mem hr))

end PskKept

lemma ConfigStep.pskKept (h : ConfigStep c c') : PskKept c c' :=
  .of_core h.extensions_eq fun r _ => (h.heap r).core

lemma EchStep.pskKept (h : EchStep c c') (ht : c.Tidy) : PskKept c c' :=
  .of_core h.extensions fun r hr => ((h.heap r (ht.extensions r hr)).rewrite c).core

lemma setFirstSNI_pskKept {name : GoString} {u : Unit}
    (h : setFirstSNI name c = .ok u c') : PskKept c c' := by
  obtain rfl | ⟨r, old, hr, rfl⟩ := setFirstSNI_cases h
  · exact .of_heap rfl rfl
  · refine ⟨rfl, fun r' _ => UConn.store_same _ (by rw [hr]; rfl) r', fun r' _ ho => ?_⟩
    by_cases hr' : r' = r
    · rw [hr', UConn.store_heap, update_self]
      exact ⟨rfl, trivial⟩
    · rwa [UConn.store_heap, update_of_ne hr']

section Deps

variable (d : Deps)

/-- `Hello.Raw` is the hello with the extensions of the list, or with the sealed extension in the
place of the ECH placeholder. -/
def UConn.Written (c : UConn) (exts : List Ext) : Prop :=
  c.hello.original = some (clientHelloEncoding d.parseIP c.hello exts) ∧
    (exts = c.exts ∨ ∃ i data, echIndex c.exts = some i ∧
      exts = c.exts.set i (.generic extensionEncryptedClientHello data))

/-- What `MarshalClientHello` does when it returns, with or without ECH. -/
structure WroteHello (c c' : UConn) : Prop where
  written : ∃ exts, c'.Written d exts
  header : c'.hello.header = c.hello.header
  controller : c'.sessionController = c.sessionController
  kept : (∀ e ∈ c.exts, e.Offerless) → PskKept c c'

lemma marshalClientHelloECH_wrote {c c' : UConn} {u : Unit} (hp : c.Prepared)
    (h : marshalClientHelloECH d c = .ok u c') : WroteHello d c c' := by
  obtain ⟨ctx, i, payload, -, -, hi, hsealed, houter, -⟩ := marshalClientHelloECH_ok d h hp
  obtain ⟨data, -, hraw⟩ := hsealed.raw
  refine ⟨⟨_, hraw, .inr ⟨i, data, hi, rfl⟩⟩, houter.header, houter.controller, fun ho => ?_⟩
  obtain ⟨⟨c1, c2, c4, c5, made, moved, ech, ctx', makes, -, moves, names, seals, rfl⟩⟩ :=
    marshalClientHelloECH_run d h
  have hdraw := ((keeps_makeClientHello d).of_ok makes).marshalStep
  have hkept1 : PskKept c c1 := hdraw.configStep.pskKept
  -- there is no pre-shared key to move
  have hnone : c1.firstExt Ext.asUtlsPreSharedKey = none := by
    refine findSome?_eq_none_iff.mpr fun r hr => ?_
    have hoff : (c1.heap r).Offerless := hkept1.forall_offerless ho _ (List.mem_map_of_mem hr)
    cases hx : c1.heap r with
    | utlsPreSharedKey x =>
      rw [hx] at hoff
      exact hoff.2.elim
    | _ => rfl
  have hsized := (moveToInner_ok d moves).binderSized d (yields_makeClientHello d _ _ _ makes).1
  rw [moveToInner, run_get_bind, hnone] at moves
  cases moves
  have hkept4 : PskKept c1 c4 :=
    (show PskKept c1 (c1.updConfig _) from .of_heap rfl rfl).trans (setFirstSNI_pskKept names)
  have hp1 : c1.Prepared := hp.configStep hdraw.configStep
  have hs4 : OuterStep c1 c4 :=
    IsTrans.trans _ _ _ (outerStep_setServerName c1 _) (setFirstSNI_ok names)
  have ht4 : c4.Tidy := hs4.tidy hp1.tidy
  have hrandom : c4.hello.random = c1.hello.random := congrArg (fun x => x.2.1) hs4.header
  obtain ⟨_, _, _, _, hstep, _⟩ :=
    sealInnerHello_ok d seals ht4 (hrandom ▸ hp1.random) (hs4.binderSized hsized)
  exact ((hkept1.trans hkept4).trans (hstep.pskKept ht4)).trans (.of_heap rfl rfl)

lemma marshalClientHello_wrote {c c' : UConn} {u : Unit} (hp : c.Prepared)
    (h : marshalClientHello d c = .ok u c') : WroteHello d c c' := by
  obtain ⟨_, c1, h1, hrest⟩ := bind_eq_ok.mp h
  have hstep := (keeps_applyConfig d).of_ok h1
  have hp1 := hp.configStep hstep
  have hwrote : WroteHello d c1 c' := by
    rw [run_get_bind] at hrest
    split_ifs at hrest with hech
    · exact marshalClientHelloECH_wrote d hp1 hrest
    · have hm := marshalClientHelloNoECH_ok d hrest
      have hstep' := hm.step.configStep
      exact ⟨⟨_, hm.current d hp1.tidy.regularExts hp1.random, .inl rfl⟩, hstep'.header,
        hstep'.field UConn.sessionController, fun _ => hstep'.pskKept⟩
  refine ⟨hwrote.written, hwrote.header.trans hstep.header,
    hwrote.controller.trans (hstep.field UConn.sessionController), fun ho => ?_⟩
  exact hstep.pskKept.trans (hwrote.kept (hstep.pskKept.forall_offerless ho))

end Deps

/-! ## Builds without a session -/

section Deps

variable (d : Deps)

/-- Without a session in the cache nothing is loaded. -/
lemma Loaded.uncached {c c' : UConn} (hp : c.Prepared) (hn : c.cachedSession = none)
    (h : Loaded d c c') : c'.hello = c.hello ∧ PskKept c c' ∧
      c'.sessionController.state = c.sessionController.state := by
  cases h with
  | unchanged => exact ⟨rfl, .of_heap rfl rfl, rfl⟩
  | ticketGiven _ hs => exact absurd hs hp.settled.1
  | pskGiven _ hs => exact absurd hs hp.settled.2
  | nothing _ => exact ⟨rfl, .of_heap rfl rfl, rfl⟩
  | expired _ => exact ⟨rfl, .of_heap rfl rfl, rfl⟩
  | offered _ hj _ =>
    rw [(judgeSession_accept d hj).1] at hn
    cases hn

/-- The first build of a new connection without a session writes the hello that it has prepared. -/
lemma first_build_wrote {c x y c' : UConn} {u : Unit} (hc : Fresh d c)
    (hprep : prepareBuild d c = .ok () x) (hconf : applyConfig d x = .ok () y)
    (hno : y.cachedSession = none) (h : buildHandshakeState d true c = .ok u c') :
    (∃ exts, c'.Written d exts) ∧ c'.hello.header = x.hello.header ∧
      ((∀ e ∈ x.exts, e.Offerless) → PskKept x c') := by
  obtain ⟨⟨x', y', c3, c4, c6, hprep', hconf', hload, hmarshal, hpatch, rfl⟩⟩ :=
    buildHandshakeState_first d hc.notBuilt h
  cases hprep.symm.trans hprep'
  cases hconf.symm.trans hconf'
  obtain ⟨hp1, hst⟩ := hc.sound.prepareBuild d hprep
  have hstep := (keeps_applyConfig d).of_ok hconf
  have hp2 := hp1.configStep hstep
  obtain ⟨hhello, hkept3, hstate3⟩ := hload.uncached d hp2 hno
  have hwrote := marshalClientHello_wrote d (hp2.loaded hload) hmarshal
  -- there are no binders to patch
  have hstate : c4.sessionController.state = .noSession := by
    rw [hwrote.controller, hstate3, hstep.field UConn.sessionController]
    exact (hc.idle.of_standing hst).noSession
  have hpatched : c6 = c4 := by
    cases hpatch with
    | nothing _ => rfl
    | binders hs _ _ _ =>
      rw [UConn.shouldUpdateBinders, hstate] at hs
      simp at hs
  subst hpatched
  obtain ⟨exts, horiginal, hexts⟩ := hwrote.written
  refine ⟨⟨exts, horiginal, hexts⟩, ?_, fun ho => ?_⟩
  · exact hwrote.header.trans ((congrArg ClientHelloMsg.header hhello).trans hstep.header)
  · have hkept := hstep.pskKept.trans hkept3
    exact (hkept.trans (hwrote.kept (hkept.forall_offerless ho))).trans (.of_heap rfl rfl)

end Deps

section Deps

variable (d : Deps)

/-- The sealed extension in the place of the ECH placeholder is no pre-shared key either. -/
lemma UConn.Written.offerless {c : UConn} {exts : List Ext} (h : c.Written d exts)
    (ho : ∀ e ∈ c.exts, e.Offerless) :
    (∀ e ∈ exts, e.Offerless) ∧ exts.map Ext.givenPsk = c.exts.map Ext.givenPsk := by
  rcases h.2 with rfl | ⟨i, data, hi, rfl⟩
  · exact ⟨ho, rfl⟩
  · refine ⟨fun e he => ?_, ?_⟩
    · rcases mem_or_eq_of_mem_set he with he | rfl
      · exact ho e he
      · exact ⟨rfl, trivial⟩
    · obtain ⟨hlt, hgrease, -⟩ := findIdx?_eq_some_iff_getElem.mp hi
      rw [map_set]
      refine ext_getElem? fun j => ?_
      rw [getElem?_set]
      split_ifs with hj hlen
      · subst hj
        rw [getElem?_map, getElem?_eq_getElem hlt, map_some]
        cases hx : c.exts[i] with
        | greaseECH g => rfl
        | _ =>
          rw [hx] at hgrease
          cases hgrease
      · rw [← hj, getElem?_eq_none (by simpa using hlen)]
      · rfl

/-- Leaving the server name out leaves the other extensions in. -/
lemma UConn.mem_withoutSNI {c : UConn} {b : Bytes} :
    some b ∈ c.withoutSNI.exts.map Ext.givenPsk ↔ some b ∈ c.exts.map Ext.givenPsk := by
  simp only [UConn.exts, UConn.withoutSNI, List.map_map, List.mem_map, mem_filter, comp_apply]
  constructor
  · rintro ⟨r, ⟨hr, -⟩, hb⟩
    exact ⟨r, hr, hb⟩
  · rintro ⟨r, hr, hb⟩
    refine ⟨r, ⟨hr, ?_⟩, hb⟩
    rw [Ext.givenPsk_eq_some] at hb
    rw [hb]
    rfl

/-- The specification ends in a `FakePreSharedKeyExtension` with an identity and binders of the
lengths of hashes. -/
def ClientHelloSpec.EndsInFake (p : ClientHelloSpec) (heap : Ref → Ext)
    (f : FakePreSharedKeyExtension) : Prop :=
  ∃ r, p.extensions.getLast? = some r ∧ heap r = .fakePreSharedKey f ∧
    f.identities.getD [] ≠ [] ∧
    ∀ b ∈ f.binders.getD [], ∃ suite ∈ cipherSuitesTLS13, b.length = suite.hash.size

/-- The body of the `pre_shared_key` extension with the identities and binders of the
specification. -/
def FakePreSharedKeyExtension.body (f : FakePreSharedKeyExtension) : Bytes :=
  vec16 (pskIdentityBytes (f.identities.getD [])) ++ vec16 (pskBinderBytes (f.binders.getD []))

/-- Without a session in the cache, the hello that is sent has the compression methods of the
specification and a `pre_shared_key` extension with the identities and binders of its
`FakePreSharedKeyExtension`, if the specification ends in one, exactly if the specification has the
null compression method alone and ends in none, or repeats it in plain bytes. -/
theorem spec_on_wire_iff (heap : Ref → Ext) (nextRef : Ref) (config : Config) (env : Surroundings)
    (p : ClientHelloSpec) {c x y c' : UConn} {w : WireHello} (hreg : ∀ r < nextRef, (heap r).Regular)
    (hp : ∀ r ∈ p.extensions, r < nextRef)
    (hpreset : applyPreset d p (uClient heap nextRef config env .custom) = .ok () c)
    (hprep : prepareBuild d c = .ok () x) (hconf : applyConfig d x = .ok () y)
    (hno : y.cachedSession = none) (hbuild : buildHandshakeState d true c = .ok () c')
    (hsuites : x.hello.cipherSuites.length < 32768) (hw : readHello c'.raw = some w) :
    (w.compressionMethods = p.compressionMethods ∧ ∀ f, p.EndsInFake heap f →
      ⟨extensionPreSharedKey, f.body⟩ ∈ w.extensions) ↔
    p.compressionMethods = [0] ∧ ∀ f, p.EndsInFake heap f →
      ∃ r ∈ p.extensions, heap r = .generic extensionPreSharedKey f.body := by
  have hc : Fresh d c := .custom heap nextRef config env p hreg hp hpreset
  have ha := applyPreset_ok d (tidy_uClient hreg config env .custom) hp hpreset
  obtain ⟨⟨exts, hwritten⟩, hheader, hkept⟩ := first_build_wrote d hc hprep hconf hno hbuild
  -- preparing the build changes nothing but a server name that is left out
  have hx : x = c.withoutSNI ∨ x = c := by
    obtain ⟨z, hz, hx⟩ := prepareBuild_ok d hprep
    have hid : c.clientHelloID = .custom := congrArg Prod.fst (UConn.history_of_standing ha.standing)
    rw [applyPresetByID_custom d hid ha.spec] at hz
    cases hz
    exact hx
  have hcomp : x.hello.compressionMethods = [0] := by
    rcases hx with rfl | rfl <;> exact ha.short.2
  have hfits : c'.hello.HeaderFits := (hc.headerFits d hprep hsuites).of_header hheader
  have hraw : c'.raw = clientHelloEncoding d.parseIP c'.hello exts := by
    rw [UConn.raw, hwritten.1]
    rfl
  rw [hraw] at hw
  have hwire := readHello_clientHelloEncoding d.parseIP hfits hw
  have hmethods : w.compressionMethods = [0] := by
    rw [hwire, ← hcomp]
    exact congrArg (fun h => h.2.2.2.2) hheader
  have hpsk : ∀ f, p.EndsInFake heap f → (⟨extensionPreSharedKey, f.body⟩ ∈ w.extensions ↔
      ∃ r ∈ p.extensions, heap r = .generic extensionPreSharedKey f.body) := by
    rintro f ⟨r, hr, hf, -, -⟩
    obtain ⟨hgiven, hoff⟩ := applyPreset_offerless d (tidy_uClient hreg config env .custom) hp
      rfl rfl hr hf hpreset
    have hoffx : ∀ e ∈ x.exts, e.Offerless := by
      rcases hx with rfl | rfl
      · intro e he
        obtain ⟨q, hq, rfl⟩ := List.mem_map.mp he
        exact hoff _ (List.mem_map_of_mem (mem_of_mem_filter hq))
      · exact hoff
    have hmemx : ∀ b, some b ∈ x.exts.map Ext.givenPsk ↔ some b ∈ c.exts.map Ext.givenPsk := by
      intro b
      rcases hx with rfl | rfl
      · exact UConn.mem_withoutSNI
      · exact Iff.rfl
    have hkept := hkept hoffx
    obtain ⟨hoff', hmap⟩ := hwritten.offerless d (hkept.forall_offerless hoffx)
    rw [hwire]
    rw [mem_rawExts_iff d.parseIP hoff', hmap, hkept.map_givenPsk, hmemx, hgiven]
    simp only [List.map_map, List.mem_map, comp_apply, Ext.givenPsk_eq_some]
    rfl
  rw [hmethods]
  refine and_congr ⟨Eq.symm, Eq.symm⟩ (forall_congr' fun f => ?_)
  exact ⟨fun h hf => (hpsk f hf).mp (h hf), fun h hf => (hpsk f hf).mpr (h hf)⟩

end Deps

/-! ## A specification with a pre-shared key -/

/-- A pre-shared key with one identity and a binder of 32 bytes. -/
def samplePsk : FakePreSharedKeyExtension := ⟨some [⟨[0x74], 7⟩], some [List.replicate 32 9], false⟩

/-- The extensions of a specification of TLS 1.3 that ends in it. -/
def fakeSpecExts : Ref → Ext
  | 0 => .sni []
  | 1 => .supportedVersions [VersionTLS13]
  | _ => .fakePreSharedKey samplePsk

lemma regular_fakeSpecExts (r : Ref) (_ : r < 3) : (fakeSpecExts r).Regular := by
  unfold fakeSpecExts
  split <;> trivial

def fakeSpec (methods : List UInt8) (refs : List Ref) : ClientHelloSpec where
  cipherSuites := [0x1301]
  compressionMethods := methods
  extensions := refs
  tlsVersMin := VersionTLS13
  tlsVersMax := VersionTLS13
  greaseSeed := []

/-- A client without a cache, which may leave an empty pre-shared key out. -/
def fakeStart : UConn := uClient fakeSpecExts 3 { serverName := [0x61], omitEmptyPsk := true } {} .custom

/-- With DEFLATE before the null method, and with a pre-shared key, neither reaches the wire. -/
theorem spec_not_on_wire :
    ∃ c x y c' w, applyPreset .sample (fakeSpec [1, 0] [0, 1, 2]) fakeStart = .ok () c ∧
      prepareBuild .sample c = .ok () x ∧ applyConfig .sample x = .ok () y ∧
      y.cachedSession = none ∧ buildHandshakeState .sample true c = .ok () c' ∧
      readHello c'.raw = some w ∧
      w.compressionMethods ≠ (fakeSpec [1, 0] [0, 1, 2]).compressionMethods ∧
      ∃ f, (fakeSpec [1, 0] [0, 1, 2]).EndsInFake fakeSpecExts f ∧
        ⟨extensionPreSharedKey, f.body⟩ ∉ w.extensions := by
  set c := endState (applyPreset .sample (fakeSpec [1, 0] [0, 1, 2]) fakeStart)
  have hpreset := eq_ok_of_returns (show returns (applyPreset .sample (fakeSpec [1, 0] [0, 1, 2])
    fakeStart) = true by decide +kernel)
  have hconf := eq_ok_of_returns (show returns (applyConfig .sample c) = true by decide +kernel)
  have hbuild := eq_ok_of_returns (show returns (buildHandshakeState .sample true c) = true
    by decide +kernel)
  have hread : ((readHello (endState (buildHandshakeState .sample true c)).raw).map fun w =>
      decide (w.compressionMethods = [0] ∧
        (⟨extensionPreSharedKey, samplePsk.body⟩ : RawExtension) ∉ w.extensions)) = some true := by
    decide +kernel
  obtain ⟨w, hw, htest⟩ := map_eq_some_iff.mp hread
  obtain ⟨hmethods, hpsk⟩ := of_decide_eq_true htest
  refine ⟨c, c, _, _, w, hpreset, rfl, hconf, by decide +kernel, hbuild, hw, ?_, samplePsk,
    ⟨2, rfl, rfl, by decide, by decide⟩, hpsk⟩
  rw [hmethods]
  decide

/-- With the null compression method and without a pre-shared key the specification reaches the
wire. -/
theorem spec_on_wire_plain :
    ∃ c' w, buildHandshakeState .sample true
        (endState (applyPreset .sample (fakeSpec [0] [0, 1]) fakeStart)) = .ok () c' ∧
      readHello c'.raw = some w ∧ w.compressionMethods = (fakeSpec [0] [0, 1]).compressionMethods := by
  set c := endState (applyPreset .sample (fakeSpec [0] [0, 1]) fakeStart)
  have hpreset := eq_ok_of_returns (show returns (applyPreset .sample (fakeSpec [0] [0, 1])
    fakeStart) = true by decide +kernel)
  have hconf := eq_ok_of_returns (show returns (applyConfig .sample c) = true by decide +kernel)
  have hbuild := eq_ok_of_returns (show returns (buildHandshakeState .sample true c) = true
    by decide +kernel)
  obtain ⟨w, hw⟩ := isSome_iff_exists.mp (show (readHello
    (endState (buildHandshakeState .sample true c)).raw).isSome = true by decide +kernel)
  have hnofake : ∀ f, ¬(fakeSpec [0] [0, 1]).EndsInFake fakeSpecExts f := by
    rintro f ⟨r, hr, hf, -⟩
    cases hr
    cases hf
  have hrefs : ∀ r ∈ (fakeSpec [0] [0, 1]).extensions, r < 3 := by decide
  refine ⟨_, w, hbuild, hw, ?_⟩
  exact ((spec_on_wire_iff .sample fakeSpecExts 3 _ {} _ regular_fakeSpecExts hrefs hpreset rfl hconf
    (by decide +kernel) hbuild (by decide +kernel) hw).mpr ⟨rfl, fun f hf => (hnofake f hf).elim⟩).1

end Utls
