import Utls.Lib.LastWrite
import Utls.ApplyConfig

/-!
# The order of the extensions

`ApplyConfig` lets every extension write into the connection, in the order of the list.  The part
of the connection that the handshake negotiates with is `Negotiation`; `Ext.negotiate` is what one
extension writes there, and `applyConfig_negotiation` reads a run of `ApplyConfig` as a fold of it.

Nine of the fields have at most one writer, so their value does not depend on the order.  Two have
more: `signature_algorithms` and `signature_algorithms_cert` both write
`Hello.SupportedSignatureAlgorithms`, and ALPN and NPN both write `config.NextProtos`.
-/

namespace Utls

open Wire Exec LastWrite List Option

/-! ## What is negotiated with -/

/-- The fields of `Hello` and `config` that the handshake negotiates with. -/
structure Negotiation where
  supportedSignatureAlgorithms : List UInt16
  supportedSignatureAlgorithmsCert : List UInt16
  supportedCurves : List UInt16
  keyShares : List KeyShare
  alpnProtocols : List GoString
  supportedVersions : List UInt16
  pskModes : List UInt8
  nextProtos : List GoString
  curvePreferences : List UInt16
  serverName : GoString
  renegotiation : RenegotiationSupport

/-- The negotiation state of a connection. -/
def UConn.negotiation (c : UConn) : Negotiation where
  supportedSignatureAlgorithms := c.hello.supportedSignatureAlgorithms
  supportedSignatureAlgorithmsCert := c.hello.supportedSignatureAlgorithmsCert
  supportedCurves := c.hello.supportedCurves
  keyShares := c.hello.keyShares
  alpnProtocols := c.hello.alpnProtocols
  supportedVersions := c.hello.supportedVersions
  pskModes := c.hello.pskModes
  nextProtos := c.config.nextProtos
  curvePreferences := c.config.curvePreferences
  serverName := c.config.serverName
  renegotiation := c.config.renegotiation

/-- The entries of a list that are not GREASE values. -/
def nonGREASE (l : List UInt16) : List UInt16 := l.filter fun a => !isGREASEUint16 a

/-- What an extension writes there.  `ech` says that an ECH configuration list is set: the name of
the SNI extension is then the public name, and does not replace the name of the server. -/
def Ext.negotiate (ech : Bool) (n : Negotiation) : Ext → Negotiation
  | .sni name => if ech then n else { n with serverName := name }
  | .supportedCurves curves => { n with curvePreferences := curves, supportedCurves := curves }
  | .signatureAlgorithms algs => { n with supportedSignatureAlgorithms := nonGREASE algs }
  | .signatureAlgorithmsCert algs => { n with supportedSignatureAlgorithms := algs }
  | .alpn protos => { n with nextProtos := protos, alpnProtocols := protos }
  | .keyShare shares => { n with keyShares := shares }
  | .pskKeyExchangeModes modes => { n with pskModes := modes }
  | .supportedVersions vs => { n with supportedVersions := vs }
  | .npn protos => { n with nextProtos := protos }
  | .renegotiationInfo kind _ => { n with renegotiation := kind }
  | _ => n

/-- An ECH configuration list is set. -/
def UConn.hasEchList (c : UConn) : Bool := c.config.encryptedClientHelloConfigList.isSome

lemma Ext.negotiate_core (ech : Bool) (n : Negotiation) (e : Ext) :
    e.core.negotiate ech n = e.negotiate ech n := by
  cases e <;> rfl

lemma MarshalStep.negotiation_eq {c c' : UConn} (h : MarshalStep c c') :
    c'.negotiation = c.negotiation := by
  obtain ⟨heap, draws, raw, rfl, -⟩ := h
  rfl

/-! ## A run of `ApplyConfig` -/

section Deps

variable (d : Deps)

lemma negotiation_applyTo (r : Ref) (c : UConn) (e : Ext) :
    (e.applyTo d r c).negotiation = e.negotiate c.hasEchList c.negotiation := by
  cases e with
  | sni name =>
    cases hl : c.config.encryptedClientHelloConfigList with
    | none =>
      simp only [Ext.applyTo, Ext.negotiate, UConn.hasEchList, hl, isNone_none, if_true,
        isSome_none, Bool.false_eq_true, if_false]
      rfl
    | some list =>
      simp only [Ext.applyTo, Ext.negotiate, UConn.hasEchList, hl, isNone_some,
        Bool.false_eq_true, if_false, isSome_some, if_true]
      rfl
  | fakePreSharedKey e =>
    simp only [Ext.applyTo]
    split_ifs <;> rfl
  | renegotiationInfo kind conn =>
    simp only [Ext.applyTo]
    split_ifs <;> rfl
  | _ => rfl

/-- One call of `writeToUConn`. -/
lemma writeToUConn_negotiation {r : Ref} {c c' : UConn} {u : Unit}
    (h : writeToUConn d r c = .ok u c') :
    c'.negotiation = (c.heap r).negotiate c.hasEchList c.negotiation := by
  unfold writeToUConn at h
  simp only [run_bind, run_loadExt] at h
  cases he : c.heap r with
  | greaseECH g =>
    rw [he] at h
    exact ((keeps_marshalClientHelloNoECH d).of_ok h).negotiation_eq
  | trustAnchors t =>
    rw [he] at h
    obtain ⟨t', c1, h1, h2⟩ := bind_eq_ok.mp h
    cases h2
    obtain ⟨n, rfl⟩ := (keeps_chooseOrder d t).of_ok h1
    rfl
  | _ =>
    rw [he] at h
    cases h
    exact negotiation_applyTo d r c _

lemma applyExts_negotiation {rs : List Ref} :
    ∀ {c c' : UConn} {u : Unit}, applyExts d rs c = .ok u c' →
      c'.negotiation =
        (rs.map c.heap).foldl (fun n e => e.negotiate c.hasEchList n) c.negotiation := by
  induction rs with
  | nil =>
    intro c c' u h
    cases h
    rfl
  | cons r rs ih =>
    intro c c' u h
    obtain ⟨_, c1, h1, h2⟩ := bind_eq_ok.mp h
    have hstep := (keeps_writeToUConn d r).of_ok h1
    have hech : c1.hasEchList = c.hasEchList := hstep.field UConn.hasEchList
    -- the call may have stored values in later extensions, but none that they write here
    have hheap : ∀ r n, (c1.heap r).negotiate c.hasEchList n =
        (c.heap r).negotiate c.hasEchList n := by
      intro r n
      rw [← Ext.negotiate_core, (hstep.heap r).core, Ext.negotiate_core]
    rw [ih h2, hech, writeToUConn_negotiation d h1, map_cons, foldl_cons, foldl_map, foldl_map]
    simp only [hheap]

theorem applyConfig_negotiation {c c' : UConn} {u : Unit} (h : applyConfig d c = .ok u c') :
    c'.negotiation = c.exts.foldl (fun n e => e.negotiate c.hasEchList n) c.negotiation :=
  applyExts_negotiation d h

end Deps

/-! ## The writers of each field -/

/-- The values written to `Hello.SupportedSignatureAlgorithms`. -/
def Ext.writtenAlgorithms : Ext → Option (List UInt16)
  | .signatureAlgorithms algs => some (nonGREASE algs)
  | .signatureAlgorithmsCert algs => some algs
  | _ => none

/-- The values written to `config.NextProtos`. -/
def Ext.writtenProtos : Ext → Option (List GoString)
  | .alpn protos | .npn protos => some protos
  | _ => none

/-- The lists written by `supported_groups`, to both of its fields. -/
def Ext.writtenCurves : Ext → Option (List UInt16)
  | .supportedCurves curves => some curves
  | _ => none

def Ext.writtenShares : Ext → Option (List KeyShare)
  | .keyShare shares => some shares
  | _ => none

def Ext.writtenAlpn : Ext → Option (List GoString)
  | .alpn protos => some protos
  | _ => none

def Ext.writtenVersions : Ext → Option (List UInt16)
  | .supportedVersions vs => some vs
  | _ => none

def Ext.writtenModes : Ext → Option (List UInt8)
  | .pskKeyExchangeModes modes => some modes
  | _ => none

def Ext.writtenName (ech : Bool) : Ext → Option GoString
  | .sni name => if ech then none else some name
  | _ => none

def Ext.writtenRenegotiation : Ext → Option RenegotiationSupport
  | .renegotiationInfo kind _ => some kind
  | _ => none

/-- The negotiation state after all extensions of a list, field by field. -/
lemma foldl_negotiate (ech : Bool) (n : Negotiation) (l : List Ext) :
    l.foldl (fun n e => e.negotiate ech n) n =
      { supportedSignatureAlgorithms :=
          lastWrite Ext.writtenAlgorithms l n.supportedSignatureAlgorithms
        supportedSignatureAlgorithmsCert := n.supportedSignatureAlgorithmsCert
        supportedCurves := lastWrite Ext.writtenCurves l n.supportedCurves
        keyShares := lastWrite Ext.writtenShares l n.keyShares
        alpnProtocols := lastWrite Ext.writtenAlpn l n.alpnProtocols
        supportedVersions := lastWrite Ext.writtenVersions l n.supportedVersions
        pskModes := lastWrite Ext.writtenModes l n.pskModes
        nextProtos := lastWrite Ext.writtenProtos l n.nextProtos
        curvePreferences := lastWrite Ext.writtenCurves l n.curvePreferences
        serverName := lastWrite (Ext.writtenName ech) l n.serverName
        renegotiation := lastWrite Ext.writtenRenegotiation l n.renegotiation } := by
  induction l generalizing n with
  | nil => rfl
  | cons e l ih =>
    rw [foldl_cons, ih]
    cases e with
    | sni name => cases ech <;> rfl
    | _ => rfl

lemma Ext.typeId_of_writtenProtos {e : Ext} (h : e.writtenProtos ≠ none) :
    e.typeId = extensionALPN ∨ e.typeId = extensionNextProtoNeg := by
  cases e with
  | alpn => exact .inl rfl
  | npn => exact .inr rfl
  | _ => exact absurd rfl h

lemma Ext.typeId_of_writtenAlgorithms {e : Ext} (h : e.writtenAlgorithms ≠ none) :
    e.typeId = extensionSignatureAlgorithms ∨ e.typeId = extensionSignatureAlgorithmsCert := by
  cases e with
  | signatureAlgorithms => exact .inl rfl
  | signatureAlgorithmsCert => exact .inr rfl
  | _ => exact absurd rfl h

section Order

variable {l l' : List Ext} (hl : (l.map Ext.typeId).Nodup) (hperm : l'.Perm l)

include hl hperm

/-- The nine fields with at most one writer do not depend on the order. -/
lemma foldl_negotiate_perm (ech : Bool) (n : Negotiation) :
    l'.foldl (fun n e => e.negotiate ech n) n = l.foldl (fun n e => e.negotiate ech n) n ↔
      lastWrite Ext.writtenAlgorithms l' n.supportedSignatureAlgorithms =
          lastWrite Ext.writtenAlgorithms l n.supportedSignatureAlgorithms ∧
        lastWrite Ext.writtenProtos l' n.nextProtos =
          lastWrite Ext.writtenProtos l n.nextProtos := by
  have key (t : UInt16) {β : Type} (w : Ext → Option β) (hw : ∀ e, w e ≠ none → e.typeId = t)
      (x : β) : lastWrite w l' x = lastWrite w l x :=
    lastWrite_perm hl hperm fun e _ => hw e
  have hcurves := key extensionSupportedCurves Ext.writtenCurves (by
    intro e he; cases e <;> first | rfl | exact absurd rfl he)
  have hshares := key extensionKeyShare Ext.writtenShares (by
    intro e he; cases e <;> first | rfl | exact absurd rfl he)
  have halpn := key extensionALPN Ext.writtenAlpn (by
    intro e he; cases e <;> first | rfl | exact absurd rfl he)
  have hversions := key extensionSupportedVersions Ext.writtenVersions (by
    intro e he; cases e <;> first | rfl | exact absurd rfl he)
  have hmodes := key extensionPSKModes Ext.writtenModes (by
    intro e he; cases e <;> first | rfl | exact absurd rfl he)
  have hname := key extensionServerName (Ext.writtenName ech) (by
    intro e he; cases e <;> first | rfl | exact absurd rfl he)
  have hreneg := key extensionRenegotiationInfo Ext.writtenRenegotiation (by
    intro e he; cases e <;> first | rfl | exact absurd rfl he)
  rw [foldl_negotiate, foldl_negotiate, hcurves, hcurves, hshares, halpn, hversions, hmodes, hname,
    hreneg]
  constructor
  · intro h
    injection h with h1 _ _ _ _ _ _ h2
    exact ⟨h1, h2⟩
  · rintro ⟨h1, h2⟩
    rw [h1, h2]

/-- `config.NextProtos`. -/
lemma protos_perm_iff (x : List GoString) :
    lastWrite Ext.writtenProtos l' x = lastWrite Ext.writtenProtos l x ↔
      ∀ p q, Ext.alpn p ∈ l → Ext.npn q ∈ l → p = q ∨
        (Before l (.alpn p) (.npn q) ∧ Before l' (.alpn p) (.npn q)) ∨
        (Before l (.npn q) (.alpn p) ∧ Before l' (.npn q) (.alpn p)) := by
  have pair (p q : List GoString) (hp : Ext.alpn p ∈ l) (hq : Ext.npn q ∈ l) :=
    lastWrite_pair_iff (x := x) hl hperm (fun e he => Ext.typeId_of_writtenProtos he) hp hq
      (by simp) (y := p) rfl (z := q) rfl
  constructor
  · intro heq p q hp hq
    exact (pair p q hp hq).mp heq
  · intro h
    by_cases hp : ∃ p, Ext.alpn p ∈ l
    · by_cases hq : ∃ q, Ext.npn q ∈ l
      · obtain ⟨p, hp⟩ := hp
        obtain ⟨q, hq⟩ := hq
        exact (pair p q hp hq).mpr (h p q hp hq)
      · refine lastWrite_perm (k := extensionALPN) hl hperm fun e he hw => ?_
        cases e with
        | alpn => rfl
        | npn q => exact absurd ⟨q, he⟩ hq
        | _ => exact absurd rfl hw
    · refine lastWrite_perm (k := extensionNextProtoNeg) hl hperm fun e he hw => ?_
      cases e with
      | alpn p => exact absurd ⟨p, he⟩ hp
      | npn => rfl
      | _ => exact absurd rfl hw

/-- `Hello.SupportedSignatureAlgorithms`: it holds the entries of `signature_algorithms` in both
orders exactly when no other list replaces them. -/
lemma algorithms_perm_iff (x : List UInt16) :
    (lastWrite Ext.writtenAlgorithms l' x = lastWrite Ext.writtenAlgorithms l x ∧
        ∀ a, Ext.signatureAlgorithms a ∈ l →
          lastWrite Ext.writtenAlgorithms l x = nonGREASE a) ↔
      ∀ a b, Ext.signatureAlgorithms a ∈ l → Ext.signatureAlgorithmsCert b ∈ l →
        b = nonGREASE a ∨
          (Before l (.signatureAlgorithmsCert b) (.signatureAlgorithms a) ∧
            Before l' (.signatureAlgorithmsCert b) (.signatureAlgorithms a)) := by
  have hl' : (l'.map Ext.typeId).Nodup := (hperm.map Ext.typeId).nodup_iff.mpr hl
  have hw {e : Ext} (he : e.writtenAlgorithms ≠ none) := Ext.typeId_of_writtenAlgorithms he
  have last_cert {m : List Ext} {a b : List UInt16} (hm : (m.map Ext.typeId).Nodup)
      (h : Before m (.signatureAlgorithms a) (.signatureAlgorithmsCert b)) :
      lastWrite Ext.writtenAlgorithms m x = b := by
    refine lastWrite_of_before hm ?_ h rfl
    exact fun e he => hw he
  have last_algs {m : List Ext} {a b : List UInt16} (hm : (m.map Ext.typeId).Nodup)
      (h : Before m (.signatureAlgorithmsCert b) (.signatureAlgorithms a)) :
      lastWrite Ext.writtenAlgorithms m x = nonGREASE a := by
    refine lastWrite_of_before hm ?_ h rfl
    exact fun e he => (hw he).symm
  constructor
  · rintro ⟨heq, hval⟩ a b ha hb
    have hne : Ext.signatureAlgorithms a ≠ .signatureAlgorithmsCert b := by simp
    have ha' := hperm.mem_iff.mpr ha
    have hb' := hperm.mem_iff.mpr hb
    rcases before_or_before ha hb hne with h | h
    · exact .inl (by rw [← last_cert hl h, hval a ha])
    · rcases before_or_before ha' hb' hne with h' | h'
      · exact .inl (by rw [← last_cert hl' h', heq, hval a ha])
      · exact .inr ⟨h, h'⟩
  · intro h
    by_cases ha : ∃ a, Ext.signatureAlgorithms a ∈ l
    · obtain ⟨a, ha⟩ := ha
      have ha' := hperm.mem_iff.mpr ha
      -- both orders leave the entries of `a`
      have hvals : lastWrite Ext.writtenAlgorithms l x = nonGREASE a ∧
          lastWrite Ext.writtenAlgorithms l' x = nonGREASE a := by
        by_cases hb : ∃ b, Ext.signatureAlgorithmsCert b ∈ l
        · obtain ⟨b, hb⟩ := hb
          have hb' := hperm.mem_iff.mpr hb
          have hne : Ext.signatureAlgorithms a ≠ .signatureAlgorithmsCert b := by simp
          rcases h a b ha hb with rfl | ⟨h, h'⟩
          · exact ⟨(before_or_before ha hb hne).elim (last_cert hl) (last_algs hl),
              (before_or_before ha' hb' hne).elim (last_cert hl') (last_algs hl')⟩
          · exact ⟨last_algs hl h, last_algs hl' h'⟩
        · have hunique : ∀ e ∈ l, e.writtenAlgorithms ≠ none →
              e.typeId = (Ext.signatureAlgorithms a).typeId := by
            intro e he hw
            cases e with
            | signatureAlgorithms => rfl
            | signatureAlgorithmsCert b => exact absurd ⟨b, he⟩ hb
            | _ => exact absurd rfl hw
          exact ⟨lastWrite_of_unique hl hunique ha rfl, lastWrite_of_unique hl'
            (fun e he => hunique e (hperm.mem_iff.mp he)) ha' rfl⟩
      refine ⟨hvals.2.trans hvals.1.symm, fun a' h' => ?_⟩
      cases eq_of_key_eq hl h' ha rfl
      exact hvals.1
    · refine ⟨lastWrite_perm (k := extensionSignatureAlgorithmsCert) hl hperm fun e he hw => ?_,
        fun a h' => absurd ⟨a, h'⟩ ha⟩
      cases e with
      | signatureAlgorithms a => exact absurd ⟨a, he⟩ ha
      | signatureAlgorithmsCert => rfl
      | _ => exact absurd rfl hw

end Order

/-! ## Two orders of one list -/

/-- The two orders of an extension list agree where two extensions write one field: either they
write the same, or the one that is to decide stands behind the other in both. -/
structure OrderAgrees (l l' : List Ext) : Prop where
  algorithms : ∀ a b, Ext.signatureAlgorithms a ∈ l → Ext.signatureAlgorithmsCert b ∈ l →
    b = nonGREASE a ∨
      (Before l (.signatureAlgorithmsCert b) (.signatureAlgorithms a) ∧
        Before l' (.signatureAlgorithmsCert b) (.signatureAlgorithms a))
  protocols : ∀ p q, Ext.alpn p ∈ l → Ext.npn q ∈ l → p = q ∨
    (Before l (.alpn p) (.npn q) ∧ Before l' (.alpn p) (.npn q)) ∨
    (Before l (.npn q) (.alpn p) ∧ Before l' (.npn q) (.alpn p))

/-- `ApplyConfig` on two orders of a list with pairwise different types leaves the same negotiation
state, with the algorithms of `signature_algorithms` and the protocols of ALPN in it, exactly when
the orders agree on the extensions that share a field. -/
theorem extension_order_iff (d : Deps) {c c₁ c₂ : UConn} {rs : List Ref}
    (htypes : (c.exts.map Ext.typeId).Nodup) (hperm : rs.Perm c.extensions)
    (h₁ : applyConfig d c = .ok () c₁)
    (h₂ : applyConfig d { c with extensions := rs } = .ok () c₂) :
    (c₂.negotiation = c₁.negotiation ∧
        (∀ a, Ext.signatureAlgorithms a ∈ c.exts →
          c₁.hello.supportedSignatureAlgorithms = nonGREASE a) ∧
        ∀ p, Ext.alpn p ∈ c.exts → c₁.hello.alpnProtocols = p) ↔
      OrderAgrees c.exts (rs.map c.heap) := by
  have hp : (rs.map c.heap).Perm c.exts := hperm.map c.heap
  have hn1 : c₁.negotiation =
      c.exts.foldl (fun n e => e.negotiate c.hasEchList n) c.negotiation :=
    applyConfig_negotiation d h₁
  have hn2 : c₂.negotiation =
      (rs.map c.heap).foldl (fun n e => e.negotiate c.hasEchList n) c.negotiation :=
    applyConfig_negotiation d h₂
  have hsame := foldl_negotiate_perm htypes hp c.hasEchList c.negotiation
  have halgs : c₁.hello.supportedSignatureAlgorithms =
      lastWrite Ext.writtenAlgorithms c.exts c.hello.supportedSignatureAlgorithms := by
    rw [foldl_negotiate] at hn1
    exact congrArg Negotiation.supportedSignatureAlgorithms hn1
  have halpn : ∀ p, Ext.alpn p ∈ c.exts → c₁.hello.alpnProtocols = p := by
    intro p hmem
    rw [foldl_negotiate] at hn1
    have hlast : c₁.hello.alpnProtocols =
        lastWrite Ext.writtenAlpn c.exts c.hello.alpnProtocols :=
      congrArg Negotiation.alpnProtocols hn1
    rw [hlast]
    refine lastWrite_of_unique htypes (fun e _ he => ?_) hmem rfl
    cases e with
    | alpn => rfl
    | _ => exact absurd rfl he
  rw [hn1, hn2, hsame, halgs]
  constructor
  · rintro ⟨⟨heq, hprotos⟩, hval, -⟩
    exact ⟨(algorithms_perm_iff htypes hp _).mp ⟨heq, hval⟩,
      (protos_perm_iff htypes hp _).mp hprotos⟩
  · rintro ⟨halg, hproto⟩
    obtain ⟨heq, hval⟩ := (algorithms_perm_iff htypes hp c.hello.supportedSignatureAlgorithms).mpr halg
    exact ⟨⟨heq, (protos_perm_iff htypes hp _).mpr hproto⟩, hval, halpn⟩

/-- Three extensions: `signature_algorithms` with a GREASE value, `signature_algorithms_cert` and an
extension that writes nothing here. -/
def orderExts : Ref → Ext
  | 0 => .signatureAlgorithms [0x1a1a, 0x0403]
  | 1 => .signatureAlgorithmsCert [0x0804]
  | _ => .sct

/-- A client with the given order of these extensions. -/
def orderClient (rs : List Ref) : UConn where
  heap := orderExts
  nextRef := 3
  config := {}
  clientHelloID := .custom
  extensions := rs

/-- The list for certificates replaces the signature algorithms when it stands last. -/
theorem extension_order_matters :
    ∃ c₁ c₂, applyConfig .sample (orderClient [0, 1, 2]) = .ok () c₁ ∧
      applyConfig .sample { orderClient [0, 1, 2] with extensions := [1, 0, 2] } = .ok () c₂ ∧
      ¬(c₂.negotiation = c₁.negotiation ∧
        (∀ a, Ext.signatureAlgorithms a ∈ (orderClient [0, 1, 2]).exts →
          c₁.hello.supportedSignatureAlgorithms = nonGREASE a) ∧
        ∀ p, Ext.alpn p ∈ (orderClient [0, 1, 2]).exts → c₁.hello.alpnProtocols = p) := by
  refine ⟨_, _, rfl, rfl, ?_⟩
  rintro ⟨hsame, -, -⟩
  have h := congrArg Negotiation.supportedSignatureAlgorithms hsame
  revert h
  decide

/-- With the list for certificates in front in both orders, `ApplyConfig` leaves the same state. -/
theorem extension_order_cert_first :
    ∃ c₁ c₂, applyConfig .sample (orderClient [1, 0, 2]) = .ok () c₁ ∧
      applyConfig .sample { orderClient [1, 0, 2] with extensions := [2, 1, 0] } = .ok () c₂ ∧
      c₂.negotiation = c₁.negotiation ∧
      (∀ a, Ext.signatureAlgorithms a ∈ (orderClient [1, 0, 2]).exts →
        c₁.hello.supportedSignatureAlgorithms = nonGREASE a) ∧
      ∀ p, Ext.alpn p ∈ (orderClient [1, 0, 2]).exts → c₁.hello.alpnProtocols = p := by
  refine ⟨_, _, rfl, rfl, (@extension_order_iff .sample (orderClient [1, 0, 2]) _ _ [2, 1, 0]
    (by decide) (by decide) rfl rfl).mpr ⟨?_, ?_⟩⟩
  · intro a b ha hb
    simp only [UConn.exts, orderClient, orderExts, map_cons, map_nil, mem_cons,
      not_mem_nil, or_false, reduceCtorEq, false_or, Ext.signatureAlgorithms.injEq,
      Ext.signatureAlgorithmsCert.injEq] at ha hb
    subst ha hb
    exact .inr ⟨⟨[], [], [.sct], rfl⟩, ⟨[.sct], [], [], rfl⟩⟩
  · intro p q hp
    simp [UConn.exts, orderClient, orderExts] at hp

end Utls
