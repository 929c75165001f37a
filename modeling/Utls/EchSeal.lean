import Utls.Builds

/-!
# Sealing the inner hello

`computeAndUpdateOuterECHExtensionWithOuterExts` marshals the outer hello twice: once with a zeroed
payload, for the additional data, and once with the sealed one.  A server that puts zeros in the
place of the payload gets the additional data back only if nothing else differs between the two.
`Marshalled.replaceEch` says so: the caches of all extensions are filled after the first time, and
the padding sees the same lengths.
-/

namespace Utls

open Wire Exec List Option Function

/-! ## The extension in the place of the placeholder -/

/-- The connection with a generic ECH extension at index `i` of the list. -/
def UConn.withEch (c : UConn) (i : Nat) (data : Bytes) : UConn :=
  { c.alloc (.generic extensionEncryptedClientHello data) with
    extensions := c.extensions.set i c.nextRef }

lemma UConn.exts_withEch {c : UConn} (hc : c.Has c.extensions) (i : Nat) (data : Bytes) :
    (c.withEch i data).exts = c.exts.set i (.generic extensionEncryptedClientHello data) := by
  have hheap : ∀ r ∈ c.extensions, (c.withEch i data).heap r = c.heap r :=
    fun r hr => update_of_ne (ne_of_lt (hc r hr)) _ _
  have hnew : (c.withEch i data).heap c.nextRef = .generic extensionEncryptedClientHello data :=
    update_self _ _ _
  change (c.extensions.set i c.nextRef).map (c.withEch i data).heap = _
  rw [map_set, hnew, map_congr_left hheap, ← UConn.exts]

lemma UConn.RegularExts.withEch {c : UConn} (h : c.RegularExts) (hc : c.Has c.extensions) (i : Nat)
    (data : Bytes) : (c.withEch i data).RegularExts := by
  intro e he
  rw [UConn.exts_withEch hc] at he
  rcases mem_or_eq_of_mem_set he with he | rfl
  · exact h e he
  · trivial

lemma UConn.has_withEch {c : UConn} (hc : c.Has c.extensions) (i : Nat) (data : Bytes) :
    (c.withEch i data).Has (c.withEch i data).extensions := by
  intro r hr
  rcases mem_or_eq_of_mem_set hr with hr | rfl
  · exact Nat.lt_succ_of_lt (hc r hr)
  · exact Nat.lt_succ_self _

section Deps

variable (d : Deps)

variable {c c' : UConn} {i : Nat} {ech : EchClientContext} {x y : Option Bytes}

variable {data : Bytes} {outerExts : List UInt16} {inner : ClientHelloMsg} {useKey : Bool}
  {pskExt : Option UtlsPreSharedKeyExtension}

lemma marshalWithEch_ok {u : Unit}
    (h : marshalWithEch d i data c = .ok u c') : Marshalled d (c.withEch i data) c' := by
  obtain ⟨r, c1, h1, h⟩ := bind_eq_ok.mp h
  cases h1
  obtain ⟨_, c2, h2, h⟩ := bind_eq_ok.mp h
  cases h2
  exact marshalClientHelloNoECH_ok d h

/-- The size of an extension of the same length does not matter for the padding. -/
lemma unpaddedLen_set {parseIP : GoString → Bool} {l : List Ext} {z : Bytes}
    (hi : l[i]? = some (.generic extensionEncryptedClientHello z)) (hlen : data.length = z.length) :
    unpaddedLen parseIP (l.set i (.generic extensionEncryptedClientHello data)) =
      unpaddedLen parseIP l := by
  set f : Ext → Nat := fun e => if e.isPadding then 0 else e.len parseIP with hf
  have hsame : f (.generic extensionEncryptedClientHello data) =
      f (.generic extensionEncryptedClientHello z) := by
    simp [hf, Ext.isPadding, Ext.len, hlen]
  have hat : (l.map f)[i]? = some (f (.generic extensionEncryptedClientHello z)) := by
    simp [hi]
  obtain ⟨hlt, hat⟩ := List.getElem?_eq_some_iff.mp hat
  change ((l.set i _).map f).sum = (l.map f).sum
  rw [map_set, hsame, ← hat, set_getElem_self]

lemma UtlsPaddingExtension.update_update (p : UtlsPaddingExtension) (n : Nat) :
    (p.update n).update n = p.update n := by
  unfold UtlsPaddingExtension.update
  cases h : p.getPaddingLen <;> simp [h]

/-- Marshalling a second time, with other ECH data of the same length, changes nothing else. -/
theorem Marshalled.replaceEch {c1 c2 : UConn} {z : Bytes}
    (h1 : Marshalled d (c.withEch i z) c1) (h2 : Marshalled d (c1.withEch i data) c2)
    (hc : c.Has c.extensions) (hi : i < c.extensions.length) (hlen : data.length = z.length) :
    c1.exts[i]? = some (.generic extensionEncryptedClientHello z) ∧
      c2.exts = c1.exts.set i (.generic extensionEncryptedClientHello data) := by
  have hpad := h1.padding
  have hfilled := h1.filled
  obtain ⟨heap, draws, raw, rfl, hheap⟩ := h1.step
  set c1 := (c.withEch i z).withRaw heap draws raw
  have hc1 : c1.Has c1.extensions := c.has_withEch hc i z
  -- the ECH extension of the first time
  have hnew : heap c.nextRef = .generic extensionEncryptedClientHello z := by
    have hold : (c.withEch i z).heap c.nextRef = .generic extensionEncryptedClientHello z :=
      update_self _ _ _
    have hfill := (hheap c.nextRef).filled
    rw [hold] at hfill
    exact hfill trivial rfl
  have hat : c1.exts[i]? = some (.generic extensionEncryptedClientHello z) := by
    change ((c.extensions.set i c.nextRef).map heap)[i]? = _
    rw [getElem?_map, getElem?_set_self hi, map_some, hnew]
  have hexts := UConn.exts_withEch hc1 i data
  refine ⟨hat, ?_⟩
  rw [← hexts]
  refine (h2.exts_eq d (fun e he => ?_) fun r hr p hp => ?_).1
  · rw [hexts] at he
    rcases mem_or_eq_of_mem_set he with he | rfl
    · exact hfilled e he
    · trivial
  · -- the padding extension is that of the first time, which saw the same lengths
    have hne : r ≠ c1.nextRef := by
      rintro rfl
      have hgen : (c1.withEch i data).heap c1.nextRef = .generic extensionEncryptedClientHello data :=
        update_self _ _ _
      rw [hgen] at hp
      cases hp
    have hp1 : heap r = .utlsPadding p := by
      have hold : (c1.withEch i data).heap r = heap r := update_of_ne hne _ _
      rw [← hold, hp]
    have hr1 : r ∈ (c.withEch i z).extensions := by
      rcases mem_or_eq_of_mem_set hr with hr | rfl
      · exact hr
      · exact absurd rfl hne
    have hisPad : ((c.withEch i z).heap r).isPadding = true := by
      rw [← (hheap r).isPadding_eq, hp1]
      rfl
    cases hx : (c.withEch i z).heap r with
    | utlsPadding p0 =>
      have hupd := hpad r hr1 p0 hx
      have hp2 := Ext.utlsPadding.inj (hp1.symm.trans hupd)
      rw [hexts, unpaddedLen_set hat hlen, hp2]
      exact UtlsPaddingExtension.update_update p0 _
    | _ =>
      rw [hx] at hisPad
      cases hisPad

/-! ## The length of the encoded inner hello -/

/-- Both parts fail, or they have the same length. -/
def SameLen (x y : Option Bytes) : Prop := x.map List.length = y.map List.length

/-- The part that `g` makes of bytes depends in its length only on their length. -/
lemma SameLen.bind {f g : Bytes → Option Bytes} (h : SameLen x y)
    (hfg : ∀ b b' : Bytes, b.length = b'.length → SameLen (f b) (g b')) :
    SameLen (x.bind f) (y.bind g) := by
  cases x with
  | none =>
    cases y with
    | none => rfl
    | some y => cases h
  | some x =>
    cases y with
    | none => cases h
    | some y => exact hfg x y (some.inj h)

lemma SameLen.lp {bound : Nat} {pre : Nat → Bytes} {b b' : Bytes} (h : b.length = b'.length) :
    SameLen (Wire.lp bound pre b) (Wire.lp bound pre b') := by
  unfold SameLen Wire.lp
  rw [h]
  split_ifs <;> simp [h]

lemma SameLen.map {f g : Bytes → Bytes} (h : SameLen x y)
    (hfg : ∀ b b' : Bytes, b.length = b'.length → (f b).length = (g b').length) :
    SameLen (x.map f) (y.map g) := by
  cases x with
  | none =>
    cases y with
    | none => rfl
    | some y => cases h
  | some x =>
    cases y with
    | none => cases h
    | some y => exact congrArg some (hfg x y (some.inj h))

lemma SameLen.whenOpt (h : SameLen x y) (b : Bool) :
    SameLen (Utls.whenOpt b x) (Utls.whenOpt b y) := by
  unfold Utls.whenOpt
  split_ifs
  · exact h
  · rfl

lemma SameLen.extOpt (h : SameLen x y) (id : UInt16) :
    SameLen (Utls.extOpt id x) (Utls.extOpt id y) :=
  h.bind fun _ _ hb => (SameLen.lp hb).map fun _ _ hb => by simp [hb]

lemma SameLen.concatOpt {l l' : List (Option Bytes)} (h : List.Forall₂ SameLen l l') :
    SameLen (Utls.concatOpt l) (Utls.concatOpt l') := by
  induction h with
  | nil => rfl
  | cons hxy _ ih => exact hxy.bind fun b b' hb => ih.map fun _ _ hc => by simp [hb, hc]

/-- Replacing binders by others of the same lengths does not change the length of the extension. -/
lemma sameLen_preSharedKeyExt {m : ClientHelloMsg} {binders : List Bytes}
    (h : binders.map List.length = m.pskBinders.map List.length) (o : Option Bytes) :
    SameLen { m with pskBinders := binders, original := o }.preSharedKeyExt m.preSharedKeyExt := by
  have hvec : SameLen (vecOpt lp8 binders) (vecOpt lp8 m.pskBinders) := by
    refine SameLen.bind (SameLen.concatOpt ?_) fun _ _ hb => SameLen.lp hb
    rw [forall₂_map_left_iff, forall₂_map_right_iff]
    have hall : Forall₂ (fun b b' : Bytes => b.length = b'.length) binders m.pskBinders := by
      have hmap : Forall₂ (· = ·) (binders.map List.length) (m.pskBinders.map List.length) := by
        rw [h]
        exact forall₂_refl _
      exact forall₂_map_left_iff.mp (forall₂_map_right_iff.mp hmap)
    exact hall.imp fun _ _ hb => SameLen.lp hb
  refine SameLen.whenOpt (SameLen.extOpt (SameLen.concatOpt ?_) _) _
  exact .cons rfl (.cons hvec .nil)

/-- Nor the length of the encoded inner hello. -/
lemma sameLen_encodeInner (m : ClientHelloMsg) (binders : List Bytes)
    (h : binders.map List.length = m.pskBinders.map List.length) (o : Option Bytes) (n : Nat)
    (outerExts : List UInt16) :
    SameLen (encodeInnerClientHelloReorderOuterExts { m with pskBinders := binders, original := o } n
      (some outerExts)) (encodeInnerClientHelloReorderOuterExts m n (some outerExts)) := by
  have hexts : SameLen ({ m with pskBinders := binders, original := o }.innerExtensions outerExts)
      (m.innerExtensions outerExts) :=
    SameLen.concatOpt (.cons rfl (.cons rfl (.cons rfl (.cons rfl
      (.cons (sameLen_preSharedKeyExt h o) .nil)))))
  refine SameLen.map (hexts.bind fun b b' hb => ?_) fun b b' hb => ?_
  · refine SameLen.bind (SameLen.concatOpt ?_) fun _ _ hc => (SameLen.lp hc).map fun _ _ hd => by
      simp [hd]
    refine .cons rfl (.cons rfl (.cons rfl (.cons rfl (.cons rfl (.cons ?_ .nil)))))
    rw [hb]
    exact SameLen.whenOpt (SameLen.lp hb) _
  · simp [hb]

/-! ## The binder of the inner hello -/

/-- If the connection can compute binders, the first binder of the inner hello has their length. -/
def BinderSized (c : UConn) (inner : ClientHelloMsg) : Prop :=
  ∀ suite, c.pskCipherSuite = some suite → c.pskBinderKey.length ≠ 0 →
    inner.pskIdentities.length ≠ 0 →
      ∃ b bs, inner.pskBinders = b :: bs ∧ b.length = suite.hash.size

lemma BinderSized.of_keys (hb : BinderSized c inner) (h : (c'.pskCipherSuite, c'.pskBinderKey) =
    (c.pskCipherSuite, c.pskBinderKey)) : BinderSized c' inner := by
  obtain ⟨hsuite, hkey⟩ := Prod.mk.inj h
  unfold BinderSized
  rw [hsuite, hkey]
  exact hb

/-- What a context seals with. -/
def EchClientContext.keys (ech : EchClientContext) :=
  (ech.config, ech.hpkeContext, ech.encapsulatedKey, ech.kdfID, ech.aeadID)

lemma outerECHExt_congr {ech' : EchClientContext} (h : ech'.keys = ech.keys) (useKey : Bool)
    (payload : Bytes) : outerECHExt ech' useKey payload = outerECHExt ech useKey payload := by
  simp only [EchClientContext.keys, Prod.mk.injEq] at h
  obtain ⟨h1, -, h3, h4, h5⟩ := h
  simp only [outerECHExt, h1, h3, h4, h5]

lemma length_pskBinder (suite : CipherSuiteTLS13) (key b : Bytes) :
    (pskBinder d suite key b).length = suite.hash.size := d.finishedHash_length _ _ _

/-- Correcting the binder does nothing, or it replaces the first binder of the inner hello.  The
context then has the encoding of the new inner hello, if there is one, and what it decodes to. -/
lemma fixInnerBinder_cases (c : UConn) (outer : Bytes) (outerExts : List UInt16)
    (inner : ClientHelloMsg) (ech : EchClientContext) :
    fixInnerBinder d c outer outerExts inner ech = (inner, ech) ∨
      ∃ suite recon binders inner', c.pskCipherSuite = some suite ∧
        ¬(inner.pskIdentities.length = 0 ∨ c.pskBinderKey.length = 0) ∧
        inner' = { inner with
          pskBinders := inner.pskBinders.set 0 (innerBinder d suite c.pskBinderKey recon binders)
          original := none } ∧
        (fixInnerBinder d c outer outerExts inner ech = (inner', ech) ∨
          ∃ encoded expanded, encodeInnerClientHelloReorderOuterExts inner'
              ech.config.maxNameLength.toNat (some outerExts) = some encoded ∧
            (expanded = ech.expandedInnerHello ∨ ∃ outer decoded,
              decodeInnerClientHelloWithRaw outer encoded = some (decoded, expanded)) ∧
            fixInnerBinder d c outer outerExts inner ech =
              (inner', { ech with encodedInnerHello := encoded, expandedInnerHello := expanded })) := by
  unfold fixInnerBinder
  split
  · rename_i suite _ hsuite _
    split_ifs with hno
    · exact .inl rfl
    split
    · exact .inl rfl
    simp only
    split_ifs
    · exact .inl rfl
    rename_i decoded recon _ _
    refine .inr ⟨suite, recon, decoded.pskBinders, _, hsuite, hno, rfl, ?_⟩
    split
    · exact .inl rfl
    · rename_i encoded hencoded
      split
      · exact .inr ⟨encoded, _, hencoded, .inl rfl, rfl⟩
      · rename_i decoded' expanded hexpanded
        exact .inr ⟨encoded, expanded, hencoded, .inr ⟨_, decoded', hexpanded⟩, rfl⟩
  · exact .inl rfl

/-- Correcting the binder leaves the keys of the context alone. -/
lemma fixInnerBinder_keys (c : UConn) (outer : Bytes) (outerExts : List UInt16)
    (inner : ClientHelloMsg) (ech : EchClientContext) :
    (fixInnerBinder d c outer outerExts inner ech).2.keys = ech.keys := by
  obtain h | ⟨_, _, _, _, -, -, -, h | ⟨_, _, -, -, h⟩⟩ :=
    fixInnerBinder_cases d c outer outerExts inner ech
  · rw [h]
  · rw [h]
  · rw [h]
    rfl

/-- The corrected binder has the length of the binders of the connection. -/
lemma fixInnerBinder_sized (outer : Bytes) (outerExts : List UInt16) (ech : EchClientContext)
    (hb : BinderSized c inner) : BinderSized c (fixInnerBinder d c outer outerExts inner ech).1 := by
  obtain h | ⟨suite, recon, binders, inner', hsuite, hno, rfl, h | ⟨_, _, -, -, h⟩⟩ :=
    fixInnerBinder_cases d c outer outerExts inner ech
  · rw [h]
    exact hb
  all_goals
    rw [h]
    intro suite' hsuite' hk hids
    cases hsuite.symm.trans hsuite'
    obtain ⟨b, bs, hbs, -⟩ := hb suite hsuite hk hids
    exact ⟨innerBinder d suite c.pskBinderKey recon binders, bs, by simp [hbs],
      length_pskBinder d _ _ _⟩

/-- Correcting the binder does not change the length of the encoded inner hello. -/
lemma fixInnerBinder_length (outer : Bytes) (hb : BinderSized c inner)
    (henc : encodeInnerClientHelloReorderOuterExts inner ech.config.maxNameLength.toNat
      (some outerExts) = some ech.encodedInnerHello) :
    (fixInnerBinder d c outer outerExts inner ech).2.encodedInnerHello.length =
      ech.encodedInnerHello.length := by
  obtain h | ⟨suite, recon, binders, inner', hsuite, hno, rfl, h | ⟨encoded, _, hencoded, -, h⟩⟩ :=
    fixInnerBinder_cases d c outer outerExts inner ech
  · rw [h]
  · rw [h]
  rw [h]
  -- the new binder is as long as the old one
  rw [not_or] at hno
  obtain ⟨b, bs, hbs, hsize⟩ := hb suite hsuite hno.2 hno.1
  have hsame := sameLen_encodeInner inner (inner.pskBinders.set 0
    (innerBinder d suite c.pskBinderKey recon binders)) ?_ none ech.config.maxNameLength.toNat outerExts
  · rw [hencoded, henc] at hsame
    exact some.inj hsame
  · rw [hbs, set_cons_zero, map_cons, map_cons, innerBinder, length_pskBinder, hsize]

/-- Correcting the binder reads the keys of the connection only. -/
lemma fixInnerBinder_congr (hs : c'.pskCipherSuite = c.pskCipherSuite)
    (hk : c'.pskBinderKey = c.pskBinderKey) (outer : Bytes) (outerExts : List UInt16)
    (inner : ClientHelloMsg) (ech : EchClientContext) :
    fixInnerBinder d c' outer outerExts inner ech = fixInnerBinder d c outer outerExts inner ech := by
  simp only [fixInnerBinder, hs, hk]

/-! ## Sealing -/

/-- The fields that sealing does not touch. -/
def UConn.unsealed (c : UConn) : UConn :=
  { c with
    heap := fun _ => .sct
    nextRef := 0
    draws := 0
    extensions := []
    hello := { c.hello with original := none } }

/-- What sealing the inner hello does: caches are filled, new objects are made, and `Hello.Raw` is
written. -/
structure EchStep (c c' : UConn) : Prop where
  frame : c'.unsealed = c.unsealed
  extensions : c'.extensions = c.extensions
  next : c.nextRef ≤ c'.nextRef
  heap : ∀ r < c.nextRef, (c.heap r).Refresh (c'.heap r)
  regular : c.RegularHeap → c'.RegularHeap

/-- An untouched field. -/
lemma EchStep.field {α : Type} (h : EchStep c c') (f : UConn → α)
    (hf : ∀ c : UConn, f c.unsealed = f c := by intro; rfl) : f c' = f c := by
  rw [← hf c', ← hf c, h.frame]

lemma EchStep.regularExts (h : EchStep c c') (hc : c.Has c.extensions) (hx : c.RegularExts) :
    c'.RegularExts := hx.of_heap h.extensions fun r hr => (h.heap r (hc r hr)).regular

instance : IsPreorder UConn EchStep where
  refl _ := ⟨rfl, rfl, le_rfl, fun _ _ => .refl _, id⟩
  trans _ _ _ h h' := ⟨h'.frame.trans h.frame, h'.extensions.trans h.extensions, h.next.trans h'.next,
    fun r hr => (h.heap r hr).trans (h'.heap r (lt_of_lt_of_le hr h.next)),
    fun hr => h'.regular (h.regular hr)⟩

lemma MarshalStep.echStep (h : MarshalStep c c') : EchStep c c' := by
  have hregular := h.configStep.regularHeap
  obtain ⟨heap, draws, raw, rfl, hheap⟩ := h
  exact ⟨rfl, rfl, le_rfl, fun r _ => hheap r, hregular⟩

/-- In the place of the extension at index `i`, `Hello.Raw` holds an outer ECH extension with the
keys of the context and the given payload.  The payload is the encoded inner hello of the context,
sealed under the sequence number `n`; the additional data is the hello itself, with zeros in the
place of the payload. -/
structure SealedAt (c : UConn) (i : Nat) (useKey : Bool) (ctx : EchClientContext) (n : Nat)
    (payload : Bytes) : Prop where
  raw : ∃ data, outerECHExt ctx useKey payload = some data ∧
    c.hello.original = some (clientHelloEncoding d.parseIP c.hello
      (c.exts.set i (.generic extensionEncryptedClientHello data)))
  sealed : ∃ zeroed, outerECHExt ctx useKey (List.replicate payload.length 0) = some zeroed ∧
    payload = d.hpkeSeal ctx.aeadID ctx.hpkeContext.secret n
      ((clientHelloEncoding d.parseIP c.hello
        (c.exts.set i (.generic extensionEncryptedClientHello zeroed))).drop 4)
      ctx.encodedInnerHello

/-- The context after one more message. -/
def EchClientContext.next (ech : EchClientContext) : EchClientContext :=
  { ech with hpkeContext := { ech.hpkeContext with seqNum := ech.hpkeContext.seqNum + 1 } }

lemma EchClientContext.keys_next {ech' : EchClientContext} (h : ech'.keys = ech.keys) :
    ech'.next.keys = ech.next.keys := by
  simp only [EchClientContext.keys, Prod.mk.injEq] at h
  obtain ⟨h1, h2, h3, h4, h5⟩ := h
  simp only [EchClientContext.keys, EchClientContext.next, h1, h2, h3, h4, h5]

lemma storeExpanded_spec (raw : Bytes) (ech : EchClientContext) :
    (storeExpanded raw ech).keys = ech.keys ∧
      (storeExpanded raw ech).encodedInnerHello = ech.encodedInnerHello := by
  unfold storeExpanded
  split <;> exact ⟨rfl, rfl⟩

lemma fallbackContext_spec (pskExt : Option UtlsPreSharedKeyExtension) (outer : Bytes)
    (ech : EchClientContext) :
    (fallbackContext d pskExt outer ech).keys = ech.keys ∧
      (fallbackContext d pskExt outer ech).encodedInnerHello = ech.encodedInnerHello := by
  unfold fallbackContext
  split
  · split_ifs <;> exact ⟨rfl, rfl⟩
  · exact ⟨rfl, rfl⟩

lemma fallbackContext_eq (hf : d.echPskFallback = false) (pskExt : Option UtlsPreSharedKeyExtension)
    (outer : Bytes) (ech : EchClientContext) : fallbackContext d pskExt outer ech = ech := by
  cases pskExt with
  | none => rfl
  | some p => exact if_neg fun h => by simp [hf] at h

/-- The encoded inner hello of a context is the one that correcting the binder gives, for the outer
hello with zeros in the place of the payload. -/
structure Corrected (c c' : UConn) (i : Nat) (useKey : Bool) (inner : ClientHelloMsg)
    (ech ctx : EchClientContext) (outerExts : List UInt16)
    (pskExt : Option UtlsPreSharedKeyExtension)
    (n : Nat) (encoded zeroed : Bytes) : Prop where
  encodes : encodeInnerClientHelloReorderOuterExts inner ech.config.maxNameLength.toNat
    (some outerExts) = some encoded
  size : n = encoded.length + 16
  zeros : outerECHExt ctx useKey (List.replicate n 0) = some zeroed
  corrected : ∀ outer, outer = clientHelloEncoding d.parseIP c'.hello
      (c'.exts.set i (.generic extensionEncryptedClientHello zeroed)) →
    ctx.encodedInnerHello = (fixInnerBinder d c (outer.drop 4) outerExts inner
      (fallbackContext d pskExt (outer.drop 4)
        { ech with encodedInnerHello := encoded })).2.encodedInnerHello

/-- The list of outer extensions that the inner hello is encoded with. -/
def sealedTypes (outerExts : List UInt16) (pskExt : Option UtlsPreSharedKeyExtension) : List UInt16 :=
  if pskExt.isNone then outerExts.filter (· ≠ extensionEarlyData) else outerExts

/-- How `computeAndUpdateOuterECHExtensionWithOuterExts` returns: the hello is marshalled with zeros in
the place of the payload (`c₁`), the binder corrected, and the hello marshalled with the payload
(`c₂`). -/
structure SealRun (inner : ClientHelloMsg) (ech : EchClientContext) (useKey : Bool)
    (outerExts : List UInt16) (pskExt : Option UtlsPreSharedKeyExtension) (c : UConn) where
  i : Nat
  (encoded zeroed data : Bytes)
  (c₁ c₂ : UConn)
  fixed : ClientHelloMsg × EchClientContext
  encodes : encodeInnerClientHelloReorderOuterExts inner ech.config.maxNameLength.toNat
    (some (sealedTypes outerExts pskExt)) = some encoded
  zeros : outerECHExt ech useKey (List.replicate (encoded.length + 16) 0) = some zeroed
  index : echIndex c.exts = some i
  first : Marshalled d (c.withEch i zeroed) c₁
  fixes : fixed = fixInnerBinder d c₁ (c₁.raw.drop 4) (sealedTypes outerExts pskExt) inner
    (fallbackContext d pskExt (c₁.raw.drop 4) { ech with encodedInnerHello := encoded })
  outerExt : outerECHExt (sealInner d fixed.2 (c₁.raw.drop 4)).2 useKey
    (sealInner d fixed.2 (c₁.raw.drop 4)).1 = some data
  second : Marshalled d (c₁.withEch i data) c₂

/-- The context that is returned. -/
def SealRun.ctx {d : Deps} (run : SealRun d inner ech useKey outerExts pskExt c) :
    EchClientContext :=
  { storeExpanded run.c₂.raw (sealInner d run.fixed.2 (run.c₁.raw.drop 4)).2 with
    innerHello := some run.fixed.1 }

/-- The connection at the end, with the placeholder back in its place. -/
def SealRun.final {d : Deps} (run : SealRun d inner ech useKey outerExts pskExt c) : UConn :=
  { run.c₂ with extensions := run.c₂.extensions.set run.i (c.extensions.getD run.i 0) }

lemma computeOuterECH_run {ctx : EchClientContext}
    (h : computeAndUpdateOuterECHExtensionWithOuterExts d inner ech useKey outerExts pskExt c =
      .ok ctx c') :
    ∃ run : SealRun d inner ech useKey outerExts pskExt c, ctx = run.ctx ∧ c' = run.final := by
  obtain ⟨encoded, henc, h⟩ := ofOption_bind_eq_ok.mp h
  obtain ⟨zeroed, hzeroed, h⟩ := ofOption_bind_eq_ok.mp h
  rw [run_get_bind] at h
  obtain ⟨i, hi, h⟩ := ofOption_bind_eq_ok.mp h
  obtain ⟨ctx', c2, hseal, h⟩ := bind_eq_ok.mp h
  cases h
  obtain ⟨_, c1, hfirst, hseal⟩ := bind_eq_ok.mp hseal
  rw [run_get_bind] at hseal
  obtain ⟨data, hdata, hseal⟩ := ofOption_bind_eq_ok.mp hseal
  obtain ⟨_, _, hsecond, hseal⟩ := bind_eq_ok.mp hseal
  cases hseal
  exact ⟨⟨i, encoded, zeroed, data, _, _, _, henc, hzeroed, hi, marshalWithEch_ok d hfirst, rfl, hdata,
    marshalWithEch_ok d hsecond⟩, rfl, rfl⟩

namespace SealRun

variable {d} (run : SealRun d inner ech useKey outerExts pskExt c)

/-- What is sealed. -/
def payload : Bytes := (sealInner d run.fixed.2 (run.c₁.raw.drop 4)).1

/-- The fallback mode and the binder leave the keys alone. -/
lemma fixed_keys : run.fixed.2.keys = ech.keys := by
  rw [run.fixes]
  exact (fixInnerBinder_keys d _ _ _ _ _).trans (fallbackContext_spec d pskExt _ _).1

/-- The context is the one after the sealing. -/
lemma stored : run.ctx.keys = (sealInner d run.fixed.2 (run.c₁.raw.drop 4)).2.keys ∧
    run.ctx.encodedInnerHello = run.fixed.2.encodedInnerHello :=
  storeExpanded_spec run.c₂.raw (sealInner d run.fixed.2 (run.c₁.raw.drop 4)).2

lemma keys : run.ctx.keys = ech.next.keys :=
  run.stored.1.trans (EchClientContext.keys_next run.fixed_keys)

lemma ext : outerECHExt run.ctx useKey run.payload = some run.data :=
  (outerECHExt_congr run.stored.1 useKey run.payload).trans run.outerExt

lemma sealed : run.payload = d.hpkeSeal run.ctx.aeadID run.ctx.hpkeContext.secret
    ech.hpkeContext.seqNum (run.c₁.raw.drop 4) run.ctx.encodedInnerHello := by
  obtain ⟨hk, he⟩ := run.stored
  have hseq : run.fixed.2.hpkeContext.seqNum = ech.hpkeContext.seqNum :=
    congrArg (fun x => x.2.1.seqNum) run.fixed_keys
  have hsecret : run.ctx.hpkeContext.secret = run.fixed.2.hpkeContext.secret :=
    congrArg (fun x => x.2.1.secret) hk
  have haead : run.ctx.aeadID = run.fixed.2.aeadID := congrArg (fun x => x.2.2.2.2) hk
  rw [haead, hsecret, he, ← hseq]
  rfl

lemma header1 : run.c₁.hello.header = c.hello.header :=
  run.first.step.echStep.field fun c => c.hello.header

lemma header2 : run.c₂.hello.header = run.c₁.hello.header :=
  run.second.step.echStep.field fun c => c.hello.header

/-- The extensions stay regular between the two times the hello is marshalled. -/
lemma regular (hc : c.Has c.extensions) (hx : c.RegularExts) :
    (run.c₁.withEch run.i run.data).RegularExts := by
  refine (run.first.step.regularExts (hx.withEch hc _ _)).withEch ?_ _ _
  obtain ⟨heap, draws, raw, h, -⟩ := run.first.step
  rw [h]
  exact c.has_withEch hc run.i run.zeroed

/-- `Hello.Raw` is the hello that is marshalled the second time. -/
lemma original (hc : c.Has c.extensions) (hx : c.RegularExts) (hr : c.hello.random.length = 32) :
    run.c₂.hello.original = some (clientHelloEncoding d.parseIP run.c₂.hello run.c₂.exts) := by
  have hrandom : (run.c₁.withEch run.i run.data).hello.random = c.hello.random :=
    congrArg (fun x => x.2.1) run.header1
  rw [run.second.raw (run.regular hc hx) (hrandom ▸ hr)]
  exact congrArg some (clientHelloEncoding_congr _ run.header2.symm)

/-- The keys of the connection stay. -/
lemma binderKeys : (run.c₁.pskCipherSuite, run.c₁.pskBinderKey) =
    (c.pskCipherSuite, c.pskBinderKey) :=
  run.first.step.echStep.field fun c => (c.pskCipherSuite, c.pskBinderKey)

/-- The first encoding, in the context that the binder is corrected for. -/
lemma encodes_fallback : encodeInnerClientHelloReorderOuterExts inner
    (fallbackContext d pskExt (run.c₁.raw.drop 4)
      { ech with encodedInnerHello := run.encoded }).config.maxNameLength.toNat
    (some (sealedTypes outerExts pskExt)) =
      some (fallbackContext d pskExt (run.c₁.raw.drop 4)
        { ech with encodedInnerHello := run.encoded }).encodedInnerHello := by
  obtain ⟨hk, he⟩ := fallbackContext_spec d pskExt (run.c₁.raw.drop 4)
    { ech with encodedInnerHello := run.encoded }
  have hconfig : (fallbackContext d pskExt (run.c₁.raw.drop 4)
      { ech with encodedInnerHello := run.encoded }).config = ech.config := congrArg Prod.fst hk
  rw [hconfig, he]
  exact run.encodes

lemma length_payload (hb : BinderSized c inner) : run.payload.length = run.encoded.length + 16 := by
  have hlen := fixInnerBinder_length d (run.c₁.raw.drop 4) (hb.of_keys run.binderKeys)
    run.encodes_fallback
  rw [← run.fixes, (fallbackContext_spec d pskExt _ _).2] at hlen
  rw [payload, sealInner, d.hpkeSeal_length, hlen]

end SealRun

lemma echIndex_lt (h : echIndex c.exts = some i) : i < c.extensions.length := by
  obtain ⟨hlt, -⟩ := findIdx?_eq_some_iff_getElem.mp h
  simpa [UConn.exts] using hlt

/-- Putting the placeholder back. -/
lemma exts_putBack {r : Ref} {l : List Ext} {e : Ext} (h : c.exts = l.set i e) (x : Ext):
    (UConn.exts { c with extensions := c.extensions.set i r }).set i x = l.set i x := by
  change ((c.extensions.set i r).map c.heap).set i x = _
  rw [map_set, List.set_set, ← UConn.exts, h, List.set_set]

/-- What `computeAndUpdateOuterECHExtensionWithOuterExts` does when it returns. -/
lemma computeOuterECH_ok {ctx : EchClientContext}
    (h : computeAndUpdateOuterECHExtensionWithOuterExts d inner ech useKey outerExts pskExt c =
      .ok ctx c') (hc : c.Has c.extensions) (hx : c.RegularExts)
    (hr : c.hello.random.length = 32) (hb : BinderSized c inner) :
    ∃ i payload, echIndex c.exts = some i ∧ ctx.keys = ech.next.keys ∧ EchStep c c' ∧
      SealedAt d c' i useKey ctx ech.hpkeContext.seqNum payload ∧
      ∃ encoded zeroed, Corrected d c c' i useKey inner ech ctx
        (if pskExt.isNone then outerExts.filter (· ≠ extensionEarlyData) else outerExts) pskExt
        payload.length encoded zeroed := by
  obtain ⟨run, rfl, rfl⟩ := computeOuterECH_run d h
  have hi := run.index
  have hlt : run.i < c.extensions.length := echIndex_lt hi
  have hlen := run.length_payload hb
  have hkey : ∀ b, outerECHExt run.ctx useKey b = outerECHExt ech useKey b :=
    fun b => outerECHExt_congr run.keys useKey b
  have hdl : run.data.length = run.zeroed.length := by
    rw [length_generateOuterECHExt (hkey run.payload ▸ run.ext), length_generateOuterECHExt run.zeros,
      hlen, length_replicate]
  obtain ⟨hat, hexts⟩ := run.first.replaceEch d run.second hc hlt hdl
  have hs1 := run.first.step.echStep
  have hs2 := run.second.step.echStep
  have hzeroed : outerECHExt run.ctx useKey (replicate run.payload.length 0) = some run.zeroed := by
    rw [hkey, hlen]
    exact run.zeros
  -- the hello that is marshalled the first time
  have hraw1 : run.c₁.raw = clientHelloEncoding d.parseIP run.c₂.hello
      (run.c₁.exts.set run.i (.generic extensionEncryptedClientHello run.zeroed)) := by
    have hsame : run.c₁.exts.set run.i (.generic extensionEncryptedClientHello run.zeroed) =
        run.c₁.exts := by
      obtain ⟨hi1, hat⟩ := List.getElem?_eq_some_iff.mp hat
      rw [← hat]
      exact set_getElem_self hi1
    rw [hsame, UConn.raw, run.first.raw (hx.withEch hc _ _) hr, getD_some]
    exact clientHelloEncoding_congr _ (run.header2.trans run.header1).symm
  refine ⟨run.i, run.payload, hi, run.keys, ?_, ⟨⟨run.data, run.ext, ?_⟩, ⟨run.zeroed, hzeroed, ?_⟩⟩,
    run.encoded, run.zeroed, ⟨run.encodes, hlen, hzeroed, ?_⟩⟩
  · have hframe1 : run.c₁.unsealed = c.unsealed := hs1.frame
    have hframe2 : run.c₂.unsealed = run.c₁.unsealed := hs2.frame
    have hext1 : run.c₁.extensions = c.extensions.set run.i c.nextRef := hs1.extensions
    have hext2 : run.c₂.extensions = run.c₁.extensions.set run.i run.c₁.nextRef := hs2.extensions
    have hn1 : c.nextRef ≤ run.c₁.nextRef := (Nat.le_succ _).trans hs1.next
    have hn2 : run.c₁.nextRef ≤ run.c₂.nextRef := (Nat.le_succ _).trans hs2.next
    refine ⟨hframe2.trans hframe1, ?_, hn1.trans hn2, fun r hr => ?_, fun h => ?_⟩
    · have hold : c.extensions.getD run.i 0 = c.extensions.get ⟨run.i, hlt⟩ := by simp [hlt]
      change run.c₂.extensions.set run.i (c.extensions.getD run.i 0) = c.extensions
      rw [hext2, hext1, List.set_set, List.set_set, hold]
      exact set_getElem_self hlt
    · have hr1 : r < run.c₁.nextRef := lt_of_lt_of_le hr hn1
      have h1 := hs1.heap r (Nat.lt_succ_of_lt hr)
      have h2 := hs2.heap r (Nat.lt_succ_of_lt hr1)
      have hold1 : (c.withEch run.i run.zeroed).heap r = c.heap r := update_of_ne hr.ne _ _
      have hold2 : (run.c₁.withEch run.i run.data).heap r = run.c₁.heap r :=
        update_of_ne hr1.ne _ _
      rw [hold1] at h1
      rw [hold2] at h2
      exact h1.trans h2
    · have h1 : run.c₁.RegularHeap := hs1.regular (h.alloc trivial)
      exact hs2.regular (h1.alloc trivial)
  · have hraw := run.original hc hx hr
    rw [hexts] at hraw
    rw [SealRun.final, exts_putBack hexts]
    exact hraw
  · rw [SealRun.final, exts_putBack hexts, ← hraw1]
    exact run.sealed
  · rintro outer rfl
    rw [SealRun.final, exts_putBack hexts, ← hraw1, run.stored.2, run.fixes,
      fixInnerBinder_congr d (congrArg Prod.fst run.binderKeys) (congrArg Prod.snd run.binderKeys)]
    rfl

end Deps

end Utls
