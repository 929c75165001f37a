import Utls.EchPsk

/-!
# The error for an empty pre-shared key

`Read` of a pre-shared key extension without identities fails with `ErrEmptyPsk`, unless such an
extension is to be left out.  A build reads the extensions after it has loaded the session, so that
the error should say that there was no session to load.  The placeholder of ECH, however, marshals
the hello when the configuration is applied, and that is before: with a placeholder the error comes
whether there is a session or not (`emptyPsk_iff`).
-/

namespace Utls

open Wire Exec List Option Function

variable {c' c₁ : UConn} {es : List Ext} {u : Unit}

/-- The errors other than `ErrEmptyPsk`. -/
abbrev NotEmptyPsk (e : Err) : Prop := e ≠ .emptyPsk

/-! ## Reading the other extensions -/

namespace Ext

variable (parseIP : GoString → Bool)

variable {e : Ext}

/-- Whether an extension can be read does not depend on what is stored in it. -/
lemma readError_core (h : e.isPreSharedKey = false) :
    e.core.readError parseIP = e.readError parseIP := by
  cases e with
  | utlsPreSharedKey _ => cases h
  | fakePreSharedKey _ => cases h
  | _ => rfl

lemma readError_ne_emptyPsk (h : e.isPreSharedKey = false) :
    e.readError parseIP ≠ some .emptyPsk := by
  have htext : ∀ (p : Prop) [Decidable p] (t : String),
      (if p then some (Err.text t) else none) ≠ some Err.emptyPsk := by
    intro p _ t
    split_ifs <;> simp
  cases e with
  | utlsPreSharedKey _ => cases h
  | fakePreSharedKey _ => cases h
  | utlsCompressCert _ => exact htext _ _
  | pskKeyExchangeModes _ => exact htext _ _
  | supportedVersions _ => exact htext _ _
  | trustAnchors _ => exact htext _ _
  | _ => simp [readError]

lemma read_ne_emptyPsk (hread : e.readError parseIP ≠ some .emptyPsk) (avail : Nat) :
    e.read parseIP avail ≠ .error .emptyPsk := by
  set short : Option Err := if avail < (e.wire parseIP).length then some .shortBuffer else none
    with hs
  have hshort : short ≠ some .emptyPsk := by
    rw [hs]
    split_ifs <;> simp
  have hor : ∀ a b : Option Err, a ≠ some .emptyPsk → b ≠ some .emptyPsk → a.or b ≠ some .emptyPsk := by
    intro a b ha hb
    cases a with
    | none => exact hb
    | some x => exact ha
  have hfailed : (if e.checksBufferLast then (e.readError parseIP).or short
      else short.or (e.readError parseIP)) ≠ some .emptyPsk := by
    split_ifs
    · exact hor _ _ hread hshort
    · exact hor _ _ hshort hread
  intro heq
  unfold read at heq
  simp only at heq
  split at heq
  · rename_i err herr
    cases heq
    exact hfailed herr
  · cases heq

end Ext

section Deps

variable (d : Deps)

variable {c : UConn} {r : Ref} {e : UtlsPreSharedKeyExtension}

/-- The error is that of an extension. -/
lemma emitExts_ne_emptyPsk (size : Nat) (h : ∀ e ∈ es, e.readError d.parseIP ≠ some .emptyPsk):
    ∀ acc, emitExts d size es acc ≠ .error .emptyPsk := by
  induction es with
  | nil =>
    intro acc hacc
    cases hacc
  | cons e es ih =>
    intro acc hacc
    rw [emitExts] at hacc
    split at hacc
    · rename_i err herr
      cases hacc
      exact Ext.read_ne_emptyPsk _ (h e (mem_cons_self ..)) _ herr
    · exact ih (fun e he => h e (mem_cons_of_mem _ he)) _ hacc

/-- If all extensions can be read and fit the buffer, they are written. -/
lemma emitExts_append {size : Nat} {tail : List Ext} :
    ∀ {acc : Bytes}, (∀ e ∈ es, e.isPreSharedKey = false ∧ e.exact = true ∧
        e.readError d.parseIP = none) →
      acc.length + (es.map fun e => e.len d.parseIP).sum ≤ size →
        emitExts d size (es ++ tail) acc =
          emitExts d size tail (acc ++ es.flatMap fun e => e.wire d.parseIP) := by
  induction es with
  | nil =>
    intro acc _ _
    simp
  | cons e es ih =>
    intro acc hall hsize
    obtain ⟨hp, hx, hr⟩ := hall e (mem_cons_self ..)
    have hlen : (e.wire d.parseIP).length = e.len d.parseIP := by
      refine Ext.length_wire _ ?_ hx
      rintro p rfl
      cases hp
    rw [map_cons, sum_cons] at hsize
    rw [cons_append, emitExts]
    set avail := if acc.length < size then size - acc.length else (e.wire d.parseIP).length with havail
    have hread : e.read d.parseIP avail = .ok (e.wire d.parseIP) := by
      refine (Ext.read_eq_ok _).mpr ⟨hr, rfl, ?_⟩
      rw [havail]
      split_ifs <;> omega
    rw [hread]
    simp only
    rw [ih (fun e he => hall e (mem_cons_of_mem _ he)) (by rw [length_append, hlen]; omega),
      flatMap_cons, append_assoc]

/-- An extension that cannot be read stops the hello, with an error of its own. -/
lemma emitExts_unreadable {size : Nat} {tail : List Ext} (hpsk : ∀ e ∈ es, e.isPreSharedKey = false)
    (h : ∃ e ∈ es, e.readError d.parseIP ≠ none) :
    ∀ acc, ∃ err, emitExts d size (es ++ tail) acc = .error err ∧ err ≠ .emptyPsk := by
  induction es with
  | nil =>
    obtain ⟨e, he, -⟩ := h
    cases he
  | cons e es ih =>
    intro acc
    rw [cons_append, emitExts]
    set avail := if acc.length < size then size - acc.length else (e.wire d.parseIP).length
    cases hread : e.read d.parseIP avail with
    | error err =>
      refine ⟨err, rfl, ?_⟩
      rintro rfl
      exact Ext.read_ne_emptyPsk _
        (Ext.readError_ne_emptyPsk _ (hpsk e (mem_cons_self ..))) _ hread
    | ok b =>
      have hr := ((Ext.read_eq_ok _).mp hread).1
      refine ih (fun e he => hpsk e (mem_cons_of_mem _ he)) ?_ _
      obtain ⟨e', he', hne⟩ := h
      rcases mem_cons.mp he' with rfl | he'
      · exact absurd hr hne
      · exact ⟨e', he', hne⟩

/-! ## Marshalling with an empty pre-shared key -/

variable {rs : List Ref} {n : Nat}

/-- The lengths of all extensions are the unpadded length and that of the padding. -/
lemma sum_len_eq (parseIP : GoString → Bool) (f : Ref → Ext) (rs : List Ref) :
    ((rs.map f).map fun e => e.len parseIP).sum = unpaddedLen parseIP (rs.map f) +
      ((rs.filter fun r => (f r).isPadding).map fun r => (f r).len parseIP).sum := by
  induction rs with
  | nil => rfl
  | cons r rs ih =>
    rw [unpaddedLen] at ih ⊢
    simp only [map_cons, sum_cons, ih, filter_cons]
    split_ifs
    · rw [map_cons, sum_cons]
      omega
    · omega

/-- The length of a padding extension that has been chosen. -/
lemma updatePadding_len {k u : Int} (hp : updatePadding (some r) u c = .ok k c')
    (hr : (c.heap r).isPadding = true) (hx : (c.heap r).Regular) :
    ((c'.heap r).len d.parseIP : Int) = k := by
  cases he : c.heap r with
  | utlsPadding p =>
    rw [updatePadding_some he] at hp
    obtain ⟨rfl, rfl⟩ := EStateM.Result.ok.inj hp
    have hpos : 0 ≤ (p.update u).paddingLen := (Ext.regular_update (he ▸ hx) u).1
    rw [UConn.store_heap, update_self, Ext.len, UtlsPaddingExtension.len]
    split_ifs <;> omega
  | _ =>
    rw [he] at hr
    cases hr

/-- What is announced is enough for all extensions. -/
lemma sum_len_le {c2 : UConn} {k : Int} (hx : c.RegularExts) (h : extensionsLen d c = .ok k c2) :
    (c2.exts.map fun e => e.len d.parseIP).sum ≤ k.toNat := by
  rw [UConn.exts, ((keeps_extensionsLen d).of_ok h).configStep.extensions_eq]
  rw [extensionsLen, run_get_bind] at h
  obtain ⟨⟨n, pad⟩, c₁, hm, h⟩ := bind_eq_ok.mp h
  obtain ⟨padLen, _, hp, h⟩ := bind_eq_ok.mp h
  cases h
  set rs := c.extensions
  obtain ⟨hf, hn, hpad, -⟩ := measureExts_eq_ok d hm
  obtain ⟨heap, draws, raw, rfl, hheap⟩ := (keeps_measureExts d _ _ _).of_ok hm
  obtain ⟨heap', draws', raw', hc2, hheap'⟩ := (keeps_updatePadding _ _).of_ok hp
  have hsame : ∀ r ∈ rs, (c2.heap r).isPadding = (heap r).isPadding ∧
      ((c2.heap r).isPadding = false → c2.heap r = heap r) := by
    intro r hr
    rw [hc2]
    refine ⟨(hheap' r).isPadding_eq, fun hnp => ?_⟩
    rw [UConn.withRaw_heap, (hheap' r).isPadding_eq] at hnp
    exact (hheap' r).filled (hf r hr) hnp
  have hunpadded : unpaddedLen d.parseIP (rs.map c2.heap) = n := by
    rw [unpaddedLen_congr d.parseIP hsame, hn, Nat.zero_add]
    rfl
  have hfilter : rs.filter (fun r => (c2.heap r).isPadding) = pad.toList := by
    rw [← hpad]
    exact filter_congr fun r hr => (hsame r hr).1
  -- the padding extension is the one whose length has been chosen
  have hpadded : ((pad.toList.map fun r => (c2.heap r).len d.parseIP).sum : Int) = padLen := by
    cases pad with
    | none =>
      cases hp
      rfl
    | some r =>
      have hone : rs.filter (fun r => (heap r).isPadding) = [r] := hpad
      obtain ⟨hr, hpr⟩ := mem_filter.mp (hone.symm ▸ mem_singleton_self r)
      simpa using updatePadding_len d hp hpr ((hheap r).regular (hx _ (List.mem_map_of_mem hr)))
  rw [sum_len_eq, hunpadded, hfilter]
  omega

/-- `Update` of the padding extension does not fail. -/
lemma updatePadding_returns (pad : Option Ref) (u : Int) (c : UConn) :
    ∃ padLen c', updatePadding pad u c = .ok padLen c' := by
  cases pad with
  | none => exact ⟨0, c, rfl⟩
  | some r =>
    cases he : c.heap r with
    | utlsPadding p => exact ⟨_, _, updatePadding_some he u⟩
    | _ =>
      refine ⟨0, c, ?_⟩
      simp only [updatePadding, run_bind, run_loadExt, he]
      rfl

lemma failsOnly_measureExts (rs : List Ref) :
    ∀ n pad, FailsOnly NotEmptyPsk (measureExts d rs n pad) := by
  induction rs with
  | nil => exact fun n pad => .pure _
  | cons r rs ih =>
    intro n pad
    refine FailsOnly.bind (FailsOnly.get.bind fun _ => .pure _) fun e => .ite ?_ ?_
    · cases pad with
      | none => exact ih n (some r)
      | some p => exact .fail (by simp)
    · exact FailsOnly.bind (.of_noFail (noFail_extLen d r)) fun l => ih (n + l) pad

/-- The lengths can be summed up if they can be measured. -/
lemma returns_extensionsLen (c : UConn) :
    returns (extensionsLen d c) = returns (measureExts d c.extensions 0 none c) := by
  rw [extensionsLen, run_get_bind, run_bind]
  cases measureExts d c.extensions 0 none c with
  | error f c₁ => rfl
  | ok o c₁ =>
    obtain ⟨padLen, c2, hp⟩ :=
      updatePadding_returns o.2 ↑(headerLength c.hello + 4 + o.1 + 2) c₁
    simp only [run_bind, hp]
    rfl

lemma failsOnly_extensionsLen : FailsOnly NotEmptyPsk (extensionsLen d) := by
  refine FailsOnly.get.bind fun c => (failsOnly_measureExts d _ _ _).bind fun o =>
    FailsOnly.bind (.of_noFail fun c e c' h => ?_) fun _ => .pure _
  obtain ⟨padLen, c2, hp⟩ := updatePadding_returns o.2 _ c
  cases hp.symm.trans h

/-- The list ends in a pre-shared key extension that has nothing to offer and may not be left out.
-/
structure UConn.BlankPsk (c : UConn) (r : Ref) (e : UtlsPreSharedKeyExtension) : Prop where
  prepared : c.Prepared
  owner : c.sessionController.pskExtension = some r
  ext : c.heap r = .utlsPreSharedKey e
  session : e.session = none
  identities : e.identities = []
  uncached : e.cachedLength = none
  kept : e.omitEmptyPsk = false

/-- All other extensions can be read. -/
def UConn.OthersReadable (c : UConn) : Prop :=
  ∀ x ∈ c.exts, x.isPreSharedKey = false → x.readError d.parseIP = none

/-- Whether the others can be read does not depend on what is stored in them. -/
lemma ConfigStep.othersReadable (hs : ConfigStep c c') :
    c'.OthersReadable d ↔ c.OthersReadable d := by
  have hmem : ∀ x : UConn, x.OthersReadable d ↔
      ∀ r' ∈ x.extensions, (x.heap r').isPreSharedKey = false →
        (x.heap r').readError d.parseIP = none := by
    intro x
    simp [UConn.OthersReadable, UConn.exts]
  rw [hmem, hmem, hs.extensions_eq]
  refine forall₂_congr fun r' _ => ?_
  have hkind : (c'.heap r').isPreSharedKey = (c.heap r').isPreSharedKey :=
    congrArg Prod.snd (hs.heap r').stays.kind
  rw [hkind]
  refine imp_congr_right fun hp => ?_
  rw [← Ext.readError_core _ (hkind.trans hp), ← Ext.readError_core _ hp, (hs.heap r').core]

/-- Writing the hello gets as far as the blank extension if all others can be read. -/
lemma writeHello_blank {h : ClientHelloMsg} (hr : h.random.length = 32) (hb : e.isBlank = true)
    (hk : e.omitEmptyPsk = false) (hpsk : ∀ x ∈ es, x.isPreSharedKey = false)
    (hx : ∀ x ∈ es, x.exact = true) (hsum : (es.map fun x => x.len d.parseIP).sum ≤ n) :
    writeHello d h (es ++ [.utlsPreSharedKey e]) n = .error .emptyPsk ↔
      ∀ x ∈ es, x.readError d.parseIP = none := by
  have hpos : (es ++ [Ext.utlsPreSharedKey e]).length > 0 := by simp
  set acc := 1 :: (u24 (headerLength h + (2 + n)) ++ helloHeader h) ++ u16 n with hacc
  set size := headerLength h + (2 + n) + 4 with hsize
  have hwrite : writeHello d h (es ++ [.utlsPreSharedKey e]) n = .error .emptyPsk ↔
      emitExts d size (es ++ [.utlsPreSharedKey e]) acc = .error .emptyPsk := by
    unfold writeHello
    simp only [hpos, if_true]
    rw [← hsize, ← hacc]
    cases hx : emitExts d size (es ++ [.utlsPreSharedKey e]) acc with
    | error err => rfl
    | ok b =>
      simp only
      split_ifs <;> simp
  rw [hwrite]
  constructor
  · intro hemit
    by_contra hno
    push Not at hno
    have hstop : ∃ err, emitExts d size (es ++ [.utlsPreSharedKey e]) acc = .error err ∧
        err ≠ .emptyPsk := emitExts_unreadable d hpsk hno acc
    obtain ⟨err, herr, hne⟩ := hstop
    rw [hemit] at herr
    cases herr
    exact hne rfl
  · intro hall
    have hlen : acc.length + (es.map fun x => x.len d.parseIP).sum ≤ size := by
      have := length_helloHeader h hr
      simp only [hacc, hsize, length_append, length_cons, length_u24, length_u16, this]
      omega
    rw [emitExts_append d (fun x hm => ⟨hpsk x hm, hx x hm, hall x hm⟩) hlen, emitExts]
    simp [Ext.read, Ext.readError, Ext.checksBufferLast, Ext.len, hb, hk]

namespace UConn.BlankPsk

variable {c : UConn} {r : Ref} {e : UtlsPreSharedKeyExtension}

variable (h : c.BlankPsk r e)

include h

lemma isBlank : e.isBlank = true := by
  simp [UtlsPreSharedKeyExtension.isBlank, h.session, h.identities]

lemma filled : (c.heap r).Filled := by
  rw [h.ext]
  exact .inl h.isBlank

/-- Applying extensions leaves the blank extension as it is. -/
lemma configStep (hs : ConfigStep c c') : c'.BlankPsk r e := by
  refine ⟨h.prepared.configStep hs, ?_, ?_, h.session, h.identities, h.uncached, h.kept⟩
  · rw [hs.field UConn.sessionController]
    exact h.owner
  · rw [(hs.heap r).steady h.filled (by rw [h.ext]; rfl) (by rw [h.ext]; trivial), h.ext]

/-- The blank extension is the last one, and the others are no pre-shared key extensions. -/
lemma exts_eq : ∃ pre, c.extensions = pre ++ [r] ∧
    c.exts = pre.map c.heap ++ [.utlsPreSharedKey e] ∧
    ∀ r' ∈ pre, (c.heap r').isPreSharedKey = false := by
  obtain ⟨pre, hpre, hnot⟩ := h.prepared.placed r h.owner
  refine ⟨pre, hpre, by simp [UConn.exts, hpre, h.ext], fun r' hr' => ?_⟩
  by_contra hpsk
  have hr := h.prepared.only r' (by simp [hpre, hr']) (by simpa using hpsk)
  cases h.owner.symm.trans hr
  exact hnot hr'

/-- Marshalling fails with `ErrEmptyPsk` if it gets as far as the blank extension. -/
lemma marshal_iff : (∃ c', marshalClientHelloNoECH d c = .error (.error .emptyPsk) c') ↔
      returns (measureExts d c.extensions 0 none c) = true ∧ c.OthersReadable d := by
  rw [marshalClientHelloNoECH, ← returns_extensionsLen]
  cases hlen : extensionsLen d c with
  | error f c₁ =>
    rw [run_bind, hlen]
    refine ⟨fun ⟨c', hc'⟩ => ?_, fun hret => absurd hret.1 (by simp [returns])⟩
    cases hc'
    exact absurd rfl (failsOnly_extensionsLen d _ _ _ hlen)
  | ok n c2 =>
    have hsum := sum_len_le d h.prepared.tidy.regularExts hlen
    have hstep := ((keeps_extensionsLen d).of_ok hlen).configStep
    have h2 := h.configStep hstep
    have hx := h2.prepared.tidy.regularExts
    obtain ⟨pre, hpre, hexts, hnot⟩ := h2.exts_eq
    rw [run_bind, hlen]
    simp only [run_bind, run_get, writeBuffered_regular d hx]
    have hwrite : writeHello d c2.hello c2.exts n.toNat = .error .emptyPsk ↔ c2.OthersReadable d := by
      rw [hexts, writeHello_blank d h2.prepared.random h2.isBlank h2.kept]
      · simp only [UConn.OthersReadable, hexts, mem_append, mem_singleton]
        constructor
        · rintro hall x (hx | rfl) hpsk
          · exact hall x hx
          · cases hpsk
        · intro hall x hx
          obtain ⟨r', hr', rfl⟩ := List.mem_map.mp hx
          exact hall _ (.inl hx) (hnot r' hr')
      · intro x hx
        obtain ⟨r', hr', rfl⟩ := List.mem_map.mp hx
        exact hnot r' hr'
      · exact fun x hm => (hx x (hexts ▸ mem_append_left _ hm)).exact
      · rw [hexts] at hsum
        simp only [map_append, sum_append] at hsum
        omega
    rw [← hstep.othersReadable d, ← hwrite]
    cases hw : writeHello d c2.hello c2.exts n.toNat with
    | error err => simp [Exec.ofExcept, returns]
    | ok b => simp [Exec.ofExcept, returns]

/-- It never returns. -/
lemma marshal_ne_ok : marshalClientHelloNoECH d c ≠ .ok u c' := by
  intro hm
  have hmarshalled := marshalClientHelloNoECH_ok d hm
  have h' := h.configStep hmarshalled.step.configStep
  obtain ⟨pre, -, hexts, -⟩ := h'.exts_eq
  have hread := hmarshalled.readable h.prepared.tidy.regularExts (.utlsPreSharedKey e)
    (by simp [hexts])
  simp [Ext.readError, Ext.len, h.isBlank, h.kept] at hread

end UConn.BlankPsk

/-! ## Applying the other extensions -/

/-- Extensions other than the placeholder are applied without an error. -/
lemma writeToUConn_returns (hg : (c.heap r).isGreaseECH = false) :
    ∃ c', writeToUConn d r c = .ok () c' := by
  rw [writeToUConn, run_loadExt_bind]
  cases he : c.heap r with
  | greaseECH g =>
    rw [he] at hg
    cases hg
  | trustAnchors t =>
    obtain ⟨t', c₁, h1⟩ := chooseOrder_returns d t c
    exact ⟨_, bind_eq_ok.mpr ⟨t', c₁, h1, rfl⟩⟩
  | _ => exact ⟨_, rfl⟩

lemma applyExts_returns :
    ∀ {c : UConn}, (∀ r ∈ rs, (c.heap r).isGreaseECH = false) →
      ∃ c', applyExts d rs c = .ok () c' := by
  induction rs with
  | nil => exact fun _ => ⟨_, rfl⟩
  | cons r rs ih =>
    intro c hall
    obtain ⟨c₁, h1⟩ := writeToUConn_returns d (hall r (mem_cons_self ..))
    have hstep := (keeps_writeToUConn d r).of_ok h1
    obtain ⟨c2, h2⟩ := ih fun r' hr' => by
      rw [(hstep.heap r').isGreaseECH_eq]
      exact hall r' (mem_cons_of_mem _ hr')
    exact ⟨c2, bind_eq_ok.mpr ⟨_, c₁, h1, h2⟩⟩

/-- A program that runs over the extensions in front of a placeholder goes on with the placeholder.
-/
lemma applyExts_split {pre rest : List Ref} (h : applyExts d pre c = .ok () c₁) :
    applyExts d (pre ++ rest) c = applyExts d rest c₁ := by
  induction pre generalizing c with
  | nil =>
    cases h
    rfl
  | cons r pre ih =>
    obtain ⟨_, c2, h2, h⟩ := bind_eq_ok.mp h
    rw [cons_append, applyExts, run_bind, h2]
    exact ih h

/-- A list with a placeholder has a first one. -/
lemma exists_first_placeholder (h : ∃ r ∈ c.extensions, (c.heap r).isGreaseECH = true):
    ∃ pre g post, c.extensions = pre ++ g :: post ∧ (c.heap g).isGreaseECH = true ∧
      ∀ r ∈ pre, (c.heap r).isGreaseECH = false := by
  obtain ⟨r, hr, hg⟩ := h
  obtain ⟨g, hfind⟩ := isSome_iff_exists.mp
    (find?_isSome.mpr ⟨r, hr, hg⟩ : (c.extensions.find? fun r => (c.heap r).isGreaseECH).isSome)
  obtain ⟨hg, pre, post, hsplit, hpre⟩ := find?_eq_some_iff_append.mp hfind
  exact ⟨pre, g, post, hsplit, hg, fun r hr => by simpa using hpre r hr⟩

/-- Marshalling for the sake of the first placeholder gets as far as the pre-shared key extension:
the lengths of all extensions can be summed up, and the others can be read. -/
def PlaceholderReadsPsk (c : UConn) : Prop :=
  ∃ pre g post a, c.extensions = pre ++ g :: post ∧ (c.heap g).isGreaseECH = true ∧
    (∀ r ∈ pre, (c.heap r).isGreaseECH = false) ∧ applyExts d pre c = .ok () a ∧
    returns (measureExts d c.extensions 0 none { a with ech := some g }) = true ∧ c.OthersReadable d

/-- Applying the first placeholder is marshalling the hello. -/
lemma applyExts_placeholder {g : Ref} {post : List Ref} {a : UConn} {f : Fault Err}
    (hg : (a.heap g).isGreaseECH = true)
    (hno : ∀ u c', marshalClientHelloNoECH d { a with ech := some g } ≠ .ok u c') :
    applyExts d (g :: post) a = .error f c' ↔
      marshalClientHelloNoECH d { a with ech := some g } = .error f c' := by
  have hwrite : writeToUConn d g a = marshalClientHelloNoECH d { a with ech := some g } := by
    rw [writeToUConn, run_loadExt_bind]
    cases he : a.heap g with
    | greaseECH x => rfl
    | _ =>
      rw [he] at hg
      cases hg
  rw [applyExts, bind_eq_error, hwrite]
  constructor
  · rintro (h | ⟨u, c₁, h, -⟩)
    · exact h
    · exact absurd h (hno u c₁)
  · exact .inl

namespace UConn.BlankPsk

variable {c : UConn} {r : Ref} {e : UtlsPreSharedKeyExtension}

/-- With a placeholder the configuration is never applied. -/
lemma applyConfig_ne_ok (h : c.BlankPsk r e)
    (hg : ∃ r ∈ c.extensions, (c.heap r).isGreaseECH = true) : Utls.applyConfig d c ≠ .ok u c' := by
  intro happly
  obtain ⟨pre, g, post, hsplit, hg, hpre⟩ := exists_first_placeholder hg
  obtain ⟨a, ha⟩ := applyExts_returns d hpre
  have hstep := (keeps_applyExts d pre).of_ok ha
  have hrun : applyExts d (g :: post) a = .ok u c' := by
    rw [← applyExts_split d ha, ← hsplit]
    exact happly
  obtain ⟨_, c₁, h1, -⟩ := bind_eq_ok.mp hrun
  have hm := (writeToUConn_greaseECH d (by rw [(hstep.heap g).isGreaseECH_eq, hg]) h1).readable
    (hstep.regularExts h.prepared.tidy.regularExts)
  have h1 : c₁.BlankPsk r e := h.configStep
    (IsTrans.trans _ _ _ hstep ((keeps_writeToUConn d g).of_ok h1))
  obtain ⟨pre', -, hexts, -⟩ := h1.exts_eq
  have hread := hm (.utlsPreSharedKey e) (by simp [hexts])
  simp [Ext.readError, Ext.len, h.isBlank, h.kept] at hread

/-- With a placeholder applying the configuration fails with `ErrEmptyPsk` if marshalling gets as
far as the blank extension. -/
lemma applyConfig_iff (h : c.BlankPsk r e)
    (hg : ∃ r ∈ c.extensions, (c.heap r).isGreaseECH = true) :
    (∃ c', Utls.applyConfig d c = .error (.error .emptyPsk) c') ↔ PlaceholderReadsPsk d c := by
  have hat : ∀ {pre g post a}, c.extensions = pre ++ g :: post → (c.heap g).isGreaseECH = true →
      applyExts d pre c = .ok () a →
        ((∃ c', Utls.applyConfig d c = .error (.error .emptyPsk) c') ↔
          returns (measureExts d c.extensions 0 none { a with ech := some g }) = true ∧
            c.OthersReadable d) := by
    intro pre g post a hsplit hg ha
    have hstep : ConfigStep c { a with ech := some g } := IsTrans.trans _ _ _
      ((keeps_applyExts d pre).of_ok ha) ⟨rfl, rfl, fun _ => .refl _ _⟩
    have h' := h.configStep hstep
    have hga : (a.heap g).isGreaseECH = true := by
      rw [(((keeps_applyExts d pre).of_ok ha).heap g).isGreaseECH_eq, hg]
    have hrun : Utls.applyConfig d c = applyExts d (g :: post) a := by
      rw [← applyExts_split d ha, ← hsplit]
      rfl
    rw [hrun]
    simp only [applyExts_placeholder d hga fun u c' => h'.marshal_ne_ok d]
    rw [h'.marshal_iff d, hstep.othersReadable d, hstep.extensions_eq]
  constructor
  · intro herr
    obtain ⟨pre, g, post, hsplit, hg, hpre⟩ := exists_first_placeholder hg
    obtain ⟨a, ha⟩ := applyExts_returns d hpre
    exact ⟨pre, g, post, a, hsplit, hg, hpre, ha, (hat hsplit hg ha).mp herr⟩
  · rintro ⟨pre, g, post, a, hsplit, hg, -, ha, hreads⟩
    exact (hat hsplit hg ha).mpr hreads

end UConn.BlankPsk

/-! ## Errors of the other parts of a build -/

/-- A first build that fails does so when it applies the configuration or when it marshals. -/
lemma buildHandshakeState_error {e : Err} (hn : c.clientHelloBuildStatus = .notBuilt)
    (hp : prepareBuild d c = .ok () c₁) :
    buildHandshakeState d true c = .error (.error e) c' ↔
      applyConfig d c₁ = .error (.error e) c' ∨
      ∃ c2 c3, applyConfig d c₁ = .ok () c2 ∧ uLoadSession d c2 = .ok () c3 ∧
        marshalClientHello d c3 = .error (.error e) c' := by
  have hprep : runIf (c.clientHelloBuildStatus = .notBuilt) (prepareBuild d) c = .ok () c₁ :=
    runIf_eq_ok.mpr (.inl ⟨hn, hp⟩)
  have hmarshal : ∀ x, runIf (c.clientHelloBuildStatus ≠ .buildByUtls) (marshalClientHello d) x =
      marshalClientHello d x := by
    intro x
    rw [runIf, if_pos (by rw [hn]; decide)]
  rw [buildHandshakeState, run_get_bind, run_bind, run_assert_true (.inr hn)]
  simp only
  rw [run_bind, hprep]
  simp only [bind_eq_error, hmarshal]
  constructor
  · rintro (h | ⟨_, c2, h2, h | ⟨_, c3, h3, h | ⟨_, c4, -, h | ⟨_, c5, -, h⟩⟩⟩⟩)
    · exact .inl h
    · exact absurd h (noFail_uLoadSession d _ _ _)
    · exact .inr ⟨c2, c3, h2, h3, h⟩
    · exact absurd h (noFail_finishSession d _ _ _)
    · cases h
  · rintro (h | ⟨c2, c3, h2, h3, h⟩)
    · exact .inl h
    · exact .inr ⟨_, c2, h2, .inr ⟨_, c3, h3, .inl h⟩⟩

lemma checkConfig_ne_emptyPsk (cfg : Config) : checkConfig cfg ≠ .error .emptyPsk := by
  unfold checkConfig checkNames
  split_ifs <;> simp [bind, Except.bind]

lemma checkEchVersions_ne_emptyPsk (cfg : Config) : checkEchVersions cfg ≠ .error .emptyPsk := by
  unfold checkEchVersions
  split_ifs <;> simp

lemma parseECHConfig_ne_emptyPsk (b : Bytes) : parseECHConfig b ≠ .error .emptyPsk := by
  unfold parseECHConfig
  split
  · simp [errMalformedECHConfig]
  · split_ifs
    · simp [errMalformedECHConfig]
    · simp
    · split <;> simp [errMalformedECHConfig]

lemma parseECHConfigs_ne_emptyPsk (n : Nat) :
    ∀ b, parseECHConfigs n b ≠ some (.error .emptyPsk) := by
  induction n with
  | zero =>
    intro b
    cases b <;> simp [parseECHConfigs]
  | succ n ih =>
    intro b hb
    cases b with
    | nil => simp [parseECHConfigs] at hb
    | cons x xs =>
      rw [parseECHConfigs] at hb
      split_ifs at hb
      · simp at hb
      · simp only at hb
        split at hb
        · rename_i e he
          cases hb
          exact parseECHConfig_ne_emptyPsk _ he
        · obtain ⟨rest, hrest, hmap⟩ := map_eq_some_iff.mp hb
          cases rest with
          | error e =>
            cases hmap
            exact ih _ hrest
          | ok l => cases hmap

lemma parseECHConfigList_ne_emptyPsk (b : Bytes) :
    parseECHConfigList b ≠ some (.error .emptyPsk) := by
  unfold parseECHConfigList
  split
  · simp [errMalformedECHConfig]
  · split_ifs
    · simp [errMalformedECHConfig]
    · exact parseECHConfigs_ne_emptyPsk _ _

lemma failsOnly_readRand (n : Nat) : FailsOnly NotEmptyPsk (readRand d n) :=
  FailsOnly.bind (.of_noFail (draws_tryRand d n).noFail) fun _ => .ofOption (by simp [NotEmptyPsk]) _

lemma failsOnly_drawSessionId : FailsOnly NotEmptyPsk (drawSessionId d) :=
  FailsOnly.get.bind fun _ => .ite (.pure _) (failsOnly_readRand d 32)

lemma failsOnly_startClientHello : FailsOnly NotEmptyPsk (startClientHello d) := by
  refine FailsOnly.get.bind fun c => FailsOnly.bind (.ofExcept fun e he => ?_) fun _ =>
    FailsOnly.bind (failsOnly_readRand d 32) fun _ => FailsOnly.bind (failsOnly_drawSessionId d) fun _ =>
      .ite (.fail (by simp [NotEmptyPsk])) (.pure _)
  rintro rfl
  exact checkConfig_ne_emptyPsk _ he

lemma failsOnly_pickEch (list : Bytes) : FailsOnly NotEmptyPsk (pickEch d list) := by
  unfold pickEch
  cases hp : parseECHConfigList list with
  | none => exact .panicWith _
  | some configs =>
    refine FailsOnly.bind (.ofExcept fun e he => ?_) fun _ =>
      FailsOnly.bind (.ofOption (by simp [NotEmptyPsk]) _) fun _ =>
        FailsOnly.bind (.runIf _ (.fail (by simp [NotEmptyPsk]))) fun _ =>
          FailsOnly.bind (.ofOption (by simp [NotEmptyPsk]) _) fun _ => .pure _
    rintro rfl
    rw [he] at hp
    exact parseECHConfigList_ne_emptyPsk _ hp

lemma failsOnly_finishClientHello (hello : ClientHelloMsg) :
    FailsOnly NotEmptyPsk (finishClientHello d hello) := by
  refine FailsOnly.get.bind fun c => ?_
  cases c.config.encryptedClientHelloConfigList with
  | none => exact .pure _
  | some list =>
    refine FailsOnly.bind (.ofExcept fun e he => ?_) fun _ =>
      FailsOnly.bind (failsOnly_pickEch d list) fun _ => FailsOnly.bind ?_ fun _ => .pure _
    · rintro rfl
      exact checkEchVersions_ne_emptyPsk _ he
    · exact FailsOnly.get.bind fun _ => FailsOnly.bind (.set _) fun _ =>
        FailsOnly.bind (.ofOption (by simp [NotEmptyPsk]) _) fun _ => .pure _

lemma failsOnly_generateECDHEKey (curve : UInt16) :
    FailsOnly NotEmptyPsk (generateECDHEKey d curve) :=
  .ite (FailsOnly.get.bind fun _ => FailsOnly.bind (.set _) fun _ =>
    .pure _) (.pure _)

lemma failsOnly_makeKeyShares (hello : ClientHelloMsg) :
    FailsOnly NotEmptyPsk (makeKeyShares d hello) := by
  have hkey : NotEmptyPsk errGenerateKey := by simp [NotEmptyPsk, errGenerateKey]
  unfold makeKeyShares
  cases hello.supportedCurves with
  | nil => exact .pure _
  | cons curve rest =>
    refine .ite (.pure _) (.ite ?_ ?_)
    · exact FailsOnly.bind (failsOnly_generateECDHEKey d _) fun _ => FailsOnly.bind (.ofOption hkey _)
        fun _ => FailsOnly.bind (FailsOnly.bind (failsOnly_readRand d _) fun _ => .pure _)
          fun _ => .pure _
    · exact FailsOnly.bind (failsOnly_generateECDHEKey d _) fun _ => FailsOnly.bind (.ofOption hkey _)
        fun _ => .pure _

lemma failsOnly_makeTransportParameters :
    FailsOnly NotEmptyPsk (makeTransportParameters d) := by
  refine FailsOnly.get.bind fun c => FailsOnly.ite
    (FailsOnly.bind (FailsOnly.get.bind fun x => ?_) fun _ => .pure _)
    (.pure _)
  cases x.quicTransportParams with
  | none => exact .ofOption (by decide) _
  | some params => exact .pure _

lemma failsOnly_makeClientHello : FailsOnly NotEmptyPsk (makeClientHello d) :=
  FailsOnly.bind (failsOnly_startClientHello d) fun _ => FailsOnly.bind (failsOnly_makeKeyShares d _)
    fun _ => FailsOnly.bind (failsOnly_makeTransportParameters d) fun _ =>
      failsOnly_finishClientHello d _

lemma noFail_readAllExts (rs : List Ref) : NoFail (readAllExts d rs) := by
  induction rs with
  | nil => exact .pure _
  | cons r rs ih => exact (noFail_extLen d r).bind fun _ => ih

lemma noFail_extensionsList : NoFail (extensionsList d) :=
  FailsOnly.get.bind fun _ => (noFail_readAllExts d _).bind fun _ => FailsOnly.get.bind fun _ => .pure _

lemma noFail_greasePsk (r : Ref) (e : UtlsPreSharedKeyExtension) : NoFail (greasePsk d r e) := by
  intro c err c' h
  simp only [greasePsk, run_bind, run_greaseIdentities, run_greaseBinders, run_storeExt] at h
  cases h

lemma errBuilder_ne : NotEmptyPsk errBuilder := by simp [NotEmptyPsk, errBuilder]

lemma failsOnly_innerWithPsk (c : UConn) (e : UtlsPreSharedKeyExtension) (inner : ClientHelloMsg) :
    FailsOnly NotEmptyPsk (innerWithPsk d c e inner) := by
  unfold innerWithPsk
  cases c.pskCipherSuite with
  | none => exact .pure _
  | some suite =>
    exact .ite (.pure _) (FailsOnly.bind (.ofOption errBuilder_ne _) fun _ =>
      (FailsOnly.assert _ _).bind fun _ => .pure _)

lemma failsOnly_moveToInner (inner : ClientHelloMsg) :
    FailsOnly NotEmptyPsk (moveToInner d inner) := by
  refine FailsOnly.get.bind fun c => ?_
  cases c.firstExt Ext.asUtlsPreSharedKey with
  | none => exact .pure _
  | some x =>
    refine .ite (.pure _) (.ite (.of_noFail ((noFail_extensionsList d).bind fun _ =>
      .pure _)) ?_)
    exact FailsOnly.bind (failsOnly_innerWithPsk d c x.2 inner) fun _ =>
      .of_noFail ((noFail_greasePsk d _ _).bind fun _ => (noFail_extensionsList d).bind fun _ => .pure _)

/-- Without a placeholder nothing can be sealed. -/
lemma computeOuterECH_error {inner : ClientHelloMsg} {ech : EchClientContext} {useKey : Bool}
    {outerExts : List UInt16} {pskExt : Option UtlsPreSharedKeyExtension} {e : Err}
    (hno : echIndex c.exts = none)
    (h : computeAndUpdateOuterECHExtensionWithOuterExts d inner ech useKey outerExts pskExt c =
      .error (.error e) c') : NotEmptyPsk e := by
  rcases bind_eq_error.mp h with h | ⟨encoded, c₁, h1, h⟩
  · exact FailsOnly.ofOption errBuilder_ne _ _ _ _ h
  obtain ⟨-, rfl⟩ := ofOption_eq_ok.mp h1
  rcases bind_eq_error.mp h with h | ⟨zeroed, c2, h2, h⟩
  · exact FailsOnly.ofOption errBuilder_ne _ _ _ _ h
  obtain ⟨-, rfl⟩ := ofOption_eq_ok.mp h2
  rw [run_get_bind, hno] at h
  rcases bind_eq_error.mp h with h | ⟨i, c3, h3, h⟩
  · cases h
    simp [NotEmptyPsk]
  · cases h3

lemma sealInnerHello_error {moved : ClientHelloMsg × Option (List UInt16)} {ech : EchClientContext}
    {e : Err} (hno : echIndex c.exts = none)
    (h : sealInnerHello d moved ech c = .error (.error e) c') : NotEmptyPsk e := by
  rw [sealInnerHello, run_get_bind] at h
  cases hm : moved.2 with
  | some outerExts =>
    rw [hm] at h
    exact computeOuterECH_error d hno h
  | none =>
    rw [hm] at h
    rcases bind_eq_error.mp h with h | ⟨outerExts, c₁, h1, h⟩
    · exact absurd h (noFail_extensionsList d _ _ _)
    · have hstep := ((keeps_extensionsList d).of_ok h1).configStep
      exact computeOuterECH_error d (by rw [echIndex_congr hstep.placeholders, hno]) h

/-- With ECH but without a placeholder the error is another one. -/
lemma marshalClientHelloECH_error {e : Err} (ht : c.Tidy) (hno : echIndex c.exts = none)
    (h : marshalClientHelloECH d c = .error (.error e) c') : NotEmptyPsk e := by
  rcases bind_eq_error.mp h with h | ⟨made, c₁, h1, h⟩
  · exact failsOnly_makeClientHello d _ _ _ h
  obtain ⟨n, rfl⟩ := (keeps_makeClientHello d).of_ok h1
  cases hm : made.2 with
  | none =>
    rw [hm] at h
    cases h
  | some ech =>
    simp only [hm] at h
    rw [run_get_bind] at h
    rcases bind_eq_error.mp h with h | ⟨moved, c2, h2, h⟩
    · exact failsOnly_moveToInner d _ _ _ _ h
    rcases bind_eq_error.mp h with h | ⟨_, _, h3, h⟩
    · cases h
    cases h3
    rcases bind_eq_error.mp h with h | ⟨_, c4, h4, h⟩
    · have hsni : NoFail (setFirstSNI ech.config.publicName) := by
        refine FailsOnly.get.bind fun x => ?_
        cases x.firstExt Ext.asSNI with
        | none => exact .pure _
        | some y => exact .modify _
      exact absurd h (hsni _ _ _)
    have houter : OuterStep c c4 := IsTrans.trans _ _ _
      (DrawStep.marshalStep ⟨n, rfl⟩).echStep.outerStep (IsTrans.trans _ _ _
        (moveToInner_ok d h2).outerStep (IsTrans.trans _ _ _ (outerStep_setServerName c2 _)
          (setFirstSNI_ok h4)))
    have hno4 : echIndex c4.exts = none := by rw [echIndex_congr (houter.placeholders ht), hno]
    rcases bind_eq_error.mp h with h | ⟨result, c5, h5, h⟩
    · exact FailsOnly.attempt _ _ _ _ h
    rcases bind_eq_error.mp h with h | ⟨_, _, h6, h⟩
    · cases h
    cases h6
    rcases bind_eq_error.mp h with h | ⟨_, _, _, h⟩
    · -- the error is that of the sealing
      cases result with
      | ok ctx => cases h
      | error err =>
        cases h
        exact sealInnerHello_error d hno4 (attempt_eq_error.mp h5)
    · cases h

/-! ## Marshalling with identities -/

lemma Ext.Sized.readError_eq {x : Ext} (h : x.Sized) (parseIP : GoString → Bool) :
    x.readError parseIP = none := by
  obtain ⟨e, rfl, hi, hb, hc⟩ := h
  have hblank : e.isBlank = false := by
    simp [UtlsPreSharedKeyExtension.isBlank, hi, hb]
  have hpos : pskExtLen e.identities e.binders ≠ 0 := by
    unfold pskExtLen
    rw [if_neg (by simp [hi, hb])]
    omega
  simp [Ext.readError, Ext.len, hblank, hc, hpos]

lemma writeHello_ne_emptyPsk {h : ClientHelloMsg}
    (hread : ∀ x ∈ es, x.readError d.parseIP ≠ some .emptyPsk) :
    writeHello d h es n ≠ .error .emptyPsk := by
  intro herr
  unfold writeHello at herr
  simp only at herr
  split at herr
  · rename_i hout
    cases herr
    split_ifs at hout
    exact emitExts_ne_emptyPsk d _ hread _ hout
  · split_ifs at herr <;> cases herr

/-- With identities in the pre-shared key extension the error is another one. -/
lemma marshalClientHelloNoECH_error {e : Err} (hp : c.Prepared)
    (hr : c.sessionController.pskExtension = some r) (hs : (c.heap r).Sized)
    (h : marshalClientHelloNoECH d c = .error (.error e) c') : NotEmptyPsk e := by
  rcases bind_eq_error.mp h with h | ⟨n, c2, hlen, h⟩
  · exact failsOnly_extensionsLen d _ _ _ h
  have hstep := ((keeps_extensionsLen d).of_ok hlen).configStep
  have hp2 := hp.configStep hstep
  have hread : ∀ x ∈ c2.exts, x.readError d.parseIP ≠ some .emptyPsk := by
    intro x hx
    obtain ⟨q, hq, rfl⟩ := List.mem_map.mp hx
    by_cases hk : (c2.heap q).isPreSharedKey = true
    · have hq := hp2.only q hq hk
      rw [hstep.field UConn.sessionController, hr] at hq
      cases hq
      rw [((hstep.heap r).sized hs).readError_eq]
      simp
    · exact Ext.readError_ne_emptyPsk _ (by simpa using hk)
  rw [run_get_bind, writeBuffered_regular d hp2.tidy.regularExts] at h
  rcases bind_eq_error.mp h with h | ⟨raw, c3, -, h⟩
  · refine FailsOnly.ofExcept (fun err herr => ?_) _ _ _ h
    rintro rfl
    exact writeHello_ne_emptyPsk d hread herr
  · cases h

/-! ## Session loading -/

/-- The connection without placeholders of ECH. -/
def UConn.withoutPlaceholders (c : UConn) : UConn :=
  { c with extensions := c.extensions.filter fun r => !(c.heap r).isGreaseECH }

/-- The pre-shared key extension has identities. -/
def UConn.HasIdentities (c : UConn) : Prop :=
  ∃ r e, c.sessionController.pskExtension = some r ∧ c.heap r = .utlsPreSharedKey e ∧
    e.identities ≠ []

/-- Session loading gives the pre-shared key extension identities, once the extensions other than
the placeholders have been applied. -/
def LoadsIdentities (c : UConn) : Prop :=
  ∃ c₁ c₂, applyConfig d c.withoutPlaceholders = .ok () c₁ ∧ uLoadSession d c₁ = .ok () c₂ ∧
    c₂.HasIdentities

/-- A session of TLS 1.3 that can be offered to the server is in the cache. -/
def UsableSession (c : UConn) (s : SessionState) : Prop :=
  ∃ c₁, applyConfig d c.withoutPlaceholders = .ok () c₁ ∧ c₁.config.sessionsOff = false ∧
    judgeSession d c₁ = .accept s ∧ s.version = VersionTLS13

lemma withoutPlaceholders_eq (h : ∀ r ∈ c.extensions, (c.heap r).isGreaseECH = false):
    c.withoutPlaceholders = c := by
  have hfilter : c.extensions.filter (fun r => !(c.heap r).isGreaseECH) = c.extensions :=
    filter_eq_self.mpr fun r hr => by simp [h r hr]
  rw [UConn.withoutPlaceholders, hfilter]

/-- A blank extension that has got identities is sized. -/
lemma UConn.BlankPsk.sized
    (h : c.BlankPsk r e) (hl : uLoadSession d c = .ok u c') (hi : c'.HasIdentities) :
    c'.Prepared ∧ c'.sessionController.pskExtension = some r ∧ (c'.heap r).Sized := by
  have hl := uLoadSession_cases d hl
  have hp' := h.prepared.loaded hl
  have hr' : c'.sessionController.pskExtension = some r := by
    rw [← h.owner]
    exact congrArg (fun x => x.2.2.2.2) hl.sessionStep.owners
  refine ⟨hp', hr', ?_⟩
  obtain ⟨r1, e1, hr1, he1, hids⟩ := hi
  cases hr'.symm.trans hr1
  -- an extension that has not been written has no identities
  have hold : c'.heap r ≠ c.heap r := by
    intro hsame
    rw [hsame, h.ext] at he1
    cases he1
    exact hids h.identities
  cases hl with
  | unchanged => exact absurd rfl hold
  | ticketGiven _ _ => exact absurd rfl hold
  | pskGiven _ hst => exact absurd hst h.prepared.settled.2
  | nothing _ => exact absurd rfl hold
  | expired _ => exact absurd rfl hold
  | @offered s _ _ _ ho =>
    cases ho with
    | skipped _ _ => exact absurd rfl hold
    | @ticket q _ _ hq _ =>
      have hne : r ≠ q := by
        rintro rfl
        have hq : (c.heap r).isSessionTicket = true := hq
        rw [h.ext] at hq
        cases hq
      exact absurd (update_of_ne hne _ c.heap) hold
    | @psk q e0 _ hq hq' _ _ =>
      cases h.owner.symm.trans hq
      cases h.ext.symm.trans hq'
      set l := loadedSession d c s
      have hext : (c.afterLoad.offerPsk r e l).heap r = .utlsPreSharedKey
          (initializedPsk e l.session l.earlySecret l.binderKey l.pskIdentities) :=
        update_self r _ c.heap
      rw [hext] at he1 ⊢
      cases he1
      refine ⟨_, rfl, hids, ?_, ?_⟩
      · intro hb
        exact hids (map_eq_nil_iff.mp hb)
      · change e.cachedLength.getD _ = _
        rw [h.uncached]
        rfl

/-- An accepted session of TLS 1.3 is handed to a blank extension. -/
lemma offerSession_blank {l : LoadedSession} (hb : c.clientHelloBuildStatus = .notBuilt)
    (hk : c.sessionController.locked = false) (hs : c.sessionController.state = .noSession)
    (hr : c.sessionController.pskExtension = some r) (he : c.heap r = .utlsPreSharedKey e)
    (hn : e.session = none) (hv : l.session.version ≠ VersionTLS12)
    (hsuite : (cipherSuiteTLS13ByID l.session.cipherSuite).isSome) :
    offerSession l c = .ok () (c.offerPsk r e l) := by
  set c₁ := (c.store r (.utlsPreSharedKey
    (initializedPsk e l.session l.earlySecret l.binderKey l.pskIdentities))).updSC
      fun s => { s with state := .pskExtInitialized } with hc1
  have hinit : initPskExt l.session l.earlySecret l.binderKey l.pskIdentities c = .ok () c₁ := by
    simp only [initPskExt, bind_eq_ok, assertNotLocked_eq_ok, assertHelloNotBuilt_eq_ok,
      assertControllerState_eq_ok, run_get_bind]
    refine ⟨(), c, ⟨hk, rfl⟩, (), c, ⟨hb, rfl⟩, (), c, ⟨by simp [hs], rfl⟩, ?_⟩
    rw [hr]
    simp [initializationGuard, initializePskByUtls, he, hn, hsuite, Ext.isInitialized, setControllerState,
      hc1, initializedPsk]
  rw [offerSession, if_neg hv, run_bind, hinit]
  simp only
  rw [run_get_bind]
  have hupdate : c₁.shouldUpdateBinders = true := by
    have hr1 : c₁.sessionController.pskExtension = some r := hr
    have hs1 : c₁.sessionController.state = .pskExtInitialized := rfl
    simp [UConn.shouldUpdateBinders, hr1, hs1]
  refine runIf_eq_ok.mpr (.inl ⟨hupdate, ?_⟩)
  exact bind_eq_ok.mpr ⟨(), c₁.pskWritten r, setPskToUConn_eq_ok.mpr ⟨r, hr, .inl rfl, rfl⟩, rfl⟩

/-- A usable session gives a blank extension identities. -/
lemma UConn.BlankPsk.loadsIdentities {s : SessionState} (h : c.BlankPsk r e) (hidle : c.Idle)
    (hu : UsableSession d c s) : LoadsIdentities d c := by
  obtain ⟨c₁, happly, hon, hj, hv⟩ := hu
  have hstep := (keeps_applyConfig d).of_ok happly
  have hext : c₁.heap r = .utlsPreSharedKey e := by
    rw [(hstep.heap r).steady h.filled (show (c.heap r).isPadding = false by rw [h.ext]; rfl)
      (show (c.heap r).Steady c.withoutPlaceholders by rw [h.ext]; trivial)]
    exact h.ext
  have hsc : c₁.sessionController = c.sessionController := hstep.field UConn.sessionController
  have hstatus : c₁.clientHelloBuildStatus = .notBuilt :=
    (hstep.field UConn.clientHelloBuildStatus).trans hidle.notBuilt
  obtain ⟨hcached, -, hsuite⟩ := judgeSession_accept d hj
  -- the session is of one of the offered versions
  have hversions : c₁.hello.supportedVersions ≠ [] := by
    intro hnil
    unfold judgeSession at hj
    split_ifs at hj
    simp [hcached, hnil] at hj
  set l := loadedSession d c₁ s with hl
  have hlsession : l.session = s := session_loadedSession d c₁ s
  have hoffer : offerSession l c₁.afterLoad = .ok () (c₁.afterLoad.offerPsk r e l) := by
    refine offerSession_blank hstatus ?_ ?_ ?_ hext h.session ?_ ?_
    · exact (congrArg SessionController.locked hsc).trans hidle.notLocked
    · exact (congrArg SessionController.state hsc).trans hidle.noSession
    · exact (congrArg SessionController.pskExtension hsc).trans h.owner
    · rw [hlsession, hv]
      decide
    · rw [hlsession]
      exact hsuite.mpr hv
  have hshould : c₁.sessionController.shouldLoadSession = .shouldLoad := by
    simp [SessionController.shouldLoadSession, hsc, h.owner, hidle.noSession, hidle.neverCalled]
  have hload : uLoadSession d c₁ = .ok () (c₁.afterLoad.offerPsk r e l) := by
    rw [uLoadSession, run_get_bind, if_neg (by simp [hon]), hshould]
    simp only
    rw [loadAndOffer_eq d (by rw [hsc, hidle.noSession]) (by rw [hsc, hidle.notLocked]) hon hversions, hj]
    exact hoffer
  refine ⟨c₁, _, happly, hload, r, _, ?_, update_self r _ c₁.heap, ?_⟩
  · exact (congrArg SessionController.pskExtension hsc).trans h.owner
  · change l.pskIdentities ≠ []
    rw [hl, loadedSession, if_pos hv]
    simp

/-! ## The first build -/

/-- A pre-shared key extension of the specification has nothing to offer once it has been taken
over. -/
lemma Applied.blank {p : ClientHelloSpec}
    (h : Applied p c c') (hn : c.sessionController.pskExtension = none)
    (hr : c'.sessionController.pskExtension = some r) (he : c'.heap r = .utlsPreSharedKey e) :
    e.session = none ∧ e.identities = [] ∧ e.cachedLength = none ∧
      e.omitEmptyPsk = c'.config.omitEmptyPsk := by
  obtain ⟨c0, c₁, hstart, hadapt, hsync⟩ := h.synced
  have hnone : c₁.sessionController.pskExtension = none := by
    rw [hadapt.field UConn.sessionController, hstart.controller, hn]
  have hconfig : c'.config = c₁.config := UConn.field_of_unsynced hsync.frame UConn.config
  rcases hsync.psk with ⟨hno, -⟩ | ⟨q, hq, -, htook⟩
  · rw [hno] at hr
    cases hr
  · cases hr.symm.trans hq
    rcases htook with ⟨-, -, hheap⟩ | ⟨hsome, -⟩
    · rw [hheap, update_self, ← hconfig] at he
      cases hx : c₁.heap r with
      | utlsPreSharedKey x =>
        rw [hx] at he
        cases he
        exact ⟨rfl, rfl, rfl, rfl⟩
      | _ =>
        rw [hx] at he
        cases he
    · rw [hnone] at hsome
      cases hsome

/-- What a first build of a new connection starts from. -/
lemma Fresh.blankPsk (hc : Fresh d c) (hp : prepareBuild d c = .ok () c₁)
    (hlast : c₁.extensions.getLast? = some r) (he : c₁.heap r = .utlsPreSharedKey e)
    (ho : c₁.config.omitEmptyPsk = false) : c₁.BlankPsk r e ∧ c₁.Idle := by
  obtain ⟨hprep, hst⟩ := hc.sound.prepareBuild d hp
  have hmem : r ∈ c₁.extensions := mem_of_getLast? hlast
  have howner := hprep.only r hmem (by rw [he]; rfl)
  refine ⟨?_, hc.idle.of_standing hst⟩
  obtain ⟨p, x, y, ha, hn, hc1⟩ := hc.applied d hp
  have hy : y.sessionController.pskExtension = some r ∧ y.heap r = .utlsPreSharedKey e ∧
      y.config.omitEmptyPsk = false := by
    rcases hc1 with rfl | rfl <;> exact ⟨howner, he, ho⟩
  obtain ⟨hsession, hids, hcached, hkept⟩ := ha.blank hn hy.1 hy.2.1
  exact ⟨hprep, howner, he, hsession, hids, hcached, hkept.trans hy.2.2⟩

/-- Without a placeholder a session that loads keeps the error away. -/
lemma UConn.BlankPsk.build_ne_emptyPsk
    (h : c₁.BlankPsk r e) (hn : c.clientHelloBuildStatus = .notBuilt)
    (hp : prepareBuild d c = .ok () c₁) (hno : ∀ r ∈ c₁.extensions, (c₁.heap r).isGreaseECH = false)
    (hl : LoadsIdentities d c₁) : buildHandshakeState d true c ≠ .error (.error .emptyPsk) c' := by
  rw [Ne, buildHandshakeState_error d hn hp]
  obtain ⟨c2, c3, h2, h3, hids⟩ := hl
  rw [withoutPlaceholders_eq hno] at h2
  rintro (herr | ⟨x, y, hx, hy, herr⟩)
  · rw [h2] at herr
    cases herr
  cases h2.symm.trans hx
  cases h3.symm.trans hy
  have hstep2 := (keeps_applyConfig d).of_ok h2
  obtain ⟨hprep, hr, hsized⟩ := (h.configStep hstep2).sized d h3 hids
  have hplace : c3.placeholders = c₁.placeholders :=
    (uLoadSession_cases d h3).sessionStep.placeholders.trans hstep2.placeholders
  have hno3 : ∀ q ∈ c3.extensions, (c3.heap q).isGreaseECH = false := by
    intro q hq
    have hmem : (c3.heap q).isGreaseECH ∈ c3.placeholders :=
      List.mem_map_of_mem (List.mem_map_of_mem hq)
    rw [hplace] at hmem
    obtain ⟨x, hx, hxg⟩ := List.mem_map.mp hmem
    obtain ⟨q', hq', rfl⟩ := List.mem_map.mp hx
    rw [← hxg]
    exact hno q' hq'
  obtain ⟨c4, h4⟩ := applyExts_returns d hno3
  have hstep4 : ConfigStep c3 c4 := (keeps_applyExts d _).of_ok h4
  rcases bind_eq_error.mp herr with herr | ⟨_, y, hy, herr⟩
  · have happly : applyConfig d c3 = .ok () c4 := h4
    rw [happly] at herr
    cases herr
  cases (show applyConfig d c3 = .ok () c4 from h4).symm.trans hy
  rw [run_get_bind] at herr
  split_ifs at herr
  · refine absurd rfl (marshalClientHelloECH_error d (hprep.configStep hstep4).tidy ?_ herr)
    rw [echIndex_congr hstep4.placeholders]
    refine findIdx?_eq_none_iff.mpr fun x hx => ?_
    obtain ⟨q, hq, rfl⟩ := List.mem_map.mp hx
    rw [hno3 q hq]
  · have hr4 : c4.sessionController.pskExtension = some r := by
      rw [hstep4.field UConn.sessionController, hr]
    exact absurd rfl (marshalClientHelloNoECH_error d (hprep.configStep hstep4) hr4
      ((hstep4.heap r).sized hsized) herr)

/-- The first build of a new connection whose list ends in a pre-shared key extension fails with
`ErrEmptyPsk` only if session loading finds nothing to offer, and never with a usable session,
exactly if there is no session to load or no placeholder of ECH that has the extension read before.
-/
theorem emptyPsk_iff {c c₁ : UConn} {r : Ref} {e : UtlsPreSharedKeyExtension} (hc : Fresh d c)
    (hp : prepareBuild d c = .ok () c₁) (hlast : c₁.extensions.getLast? = some r)
    (he : c₁.heap r = .utlsPreSharedKey e) (ho : c₁.config.omitEmptyPsk = false) :
    ((∀ c', buildHandshakeState d true c = .error (.error .emptyPsk) c' → ¬LoadsIdentities d c₁) ∧
      ∀ s, UsableSession d c₁ s → ∀ c', buildHandshakeState d true c ≠ .error (.error .emptyPsk) c') ↔
    ¬(LoadsIdentities d c₁ ∧ PlaceholderReadsPsk d c₁) := by
  obtain ⟨hblank, hidle⟩ := hc.blankPsk d hp hlast he ho
  have hn := hc.notBuilt
  constructor
  · rintro ⟨hkept, -⟩ ⟨hl, hreads⟩
    obtain ⟨pre, g, post, a, hsplit, hg, hrest⟩ := id hreads
    obtain ⟨c', hc'⟩ := (hblank.applyConfig_iff d ⟨g, by simp [hsplit], hg⟩).mpr hreads
    exact hkept c' ((buildHandshakeState_error d hn hp).mpr (.inl hc')) hl
  · intro hnot
    have hkept : ∀ c', buildHandshakeState d true c = .error (.error .emptyPsk) c' →
        ¬LoadsIdentities d c₁ := by
      intro c' herr hl
      by_cases hg : ∃ q ∈ c₁.extensions, (c₁.heap q).isGreaseECH = true
      · -- the configuration is not applied, and the error is that of the placeholder
        rcases (buildHandshakeState_error d hn hp).mp herr with herr | ⟨x, y, hx, -⟩
        · exact hnot ⟨hl, (hblank.applyConfig_iff d hg).mp ⟨c', herr⟩⟩
        · exact hblank.applyConfig_ne_ok d hg hx
      · push Not at hg
        exact hblank.build_ne_emptyPsk d hn hp (fun q hq => by simpa using hg q hq) hl herr
    exact ⟨hkept, fun s hs c' herr => hkept c' herr (hblank.loadsIdentities d hidle hs)⟩

end Deps

/-! ## Clients with a session in the cache -/

/-- A client without ECH that has a session in its cache; the list of its specification may have a
placeholder of ECH at `2` and ends in a pre-shared key extension at `3`. -/
def resumingClient (refs : List Ref) : UConn :=
  endState (applyPreset .sample { echSpec with extensions := refs } (uClient pskSpecExts 4
    { serverName := [0x61], clientSessionCache := some fun _ => some sampleSession } {} .custom))

lemma fresh_resumingClient : Fresh .sample (resumingClient [0, 1, 3]) := by
  refine Fresh.custom _ 4 _ _ { echSpec with extensions := [0, 1, 3] } ?_ ?_
    (eq_ok_of_returns (by decide +kernel))
  · exact fun r _ => regular_pskSpecExts r
  · simp

/-- Without a placeholder the session keeps the error away. -/
theorem emptyPsk_kept_away :
    (∀ c', buildHandshakeState .sample true (resumingClient [0, 1, 3]) =
      .error (.error .emptyPsk) c' → ¬LoadsIdentities .sample (resumingClient [0, 1, 3])) ∧
    ∀ s, UsableSession .sample (resumingClient [0, 1, 3]) s →
      ∀ c', buildHandshakeState .sample true (resumingClient [0, 1, 3]) ≠
        .error (.error .emptyPsk) c' := by
  have hfresh := fresh_resumingClient
  have hprep : prepareBuild .sample (resumingClient [0, 1, 3]) = .ok () (resumingClient [0, 1, 3]) := rfl
  refine (emptyPsk_iff .sample hfresh hprep rfl rfl rfl).mpr ?_
  rintro ⟨-, pre, g, post, -, hsplit, hg, -⟩
  have hno : ∀ r ∈ (resumingClient [0, 1, 3]).extensions,
      ((resumingClient [0, 1, 3]).heap r).isGreaseECH = false := by decide +kernel
  rw [hno g (by simp [hsplit])] at hg
  cases hg

/-- With a placeholder the build fails with the error although a usable session is in the cache. -/
theorem emptyPsk_with_session :
    UsableSession .sample (resumingClient [0, 1, 2, 3]) sampleSession ∧
      LoadsIdentities .sample (resumingClient [0, 1, 2, 3]) ∧
      ∃ c', buildHandshakeState .sample true (resumingClient [0, 1, 2, 3]) =
        .error (.error .emptyPsk) c' := by
  have happly := eq_ok_of_returns (show returns
    (applyConfig .sample (resumingClient [0, 1, 2, 3]).withoutPlaceholders) = true by decide +kernel)
  set c₁ := endState (applyConfig .sample (resumingClient [0, 1, 2, 3]).withoutPlaceholders)
  have hload := eq_ok_of_returns (show returns (uLoadSession .sample c₁) = true by decide +kernel)
  refine ⟨⟨c₁, happly, rfl, by decide +kernel, rfl⟩,
    ⟨c₁, _, happly, hload, 3, _, rfl, rfl, by decide +kernel⟩, ?_⟩
  exact exists_eq_error_of_failsWith (by decide +kernel)

end Utls
