import Utls.ExtensionRead
import Utls.SessionController

/-!
# The pre-shared key extensions as objects

`FakePreSharedKeyExtension.Write` counts the bytes of its two vectors down in sixteen-bit counters
that are never checked against zero.  A counter that passes below zero starts again at the top,
and reaches zero only after 65536 further bytes, which no extension has: `countedRun_iff` turns
the loops into plain vectors.

`UtlsPreSharedKeyExtension` keeps the length it has computed once.  The length is dropped by
`ResetForReuse` only, so it can be that of identities and binders which have been replaced since.
-/

namespace Utls

open Wire Exec List Option

/-! ## `readPskIntoBytes` -/

/-- Stores identities, each behind its length and with its ticket age. -/
def putIdentities (b : Bytes) (i : Nat) (l : List PskIdentity) : Bytes :=
  putEach
    (fun b i x => putU32 (copyAt (putU16 b i x.label.length) (i + 2) x.label)
      (i + 2 + x.label.length) x.obfuscatedTicketAge.toNat)
    (fun x => 2 + x.label.length + 4) b i l

/-- `readPskIntoBytes`.  Without identities or binders nothing is written, into a buffer of any
size. -/
def readPskIntoBytes (b : Bytes) (identities : List PskIdentity) (binders : List Bytes) :
    Except Err (Nat × Bytes) :=
  let extLen := pskExtLen identities binders
  if extLen = 0 then .ok (0, b)
  else if b.length < extLen then .error .shortBuffer
  else
    let b := putU16 b 0 extensionPreSharedKey.toNat
    let b := putU16 b 2 (extLen - 4)
    let identitiesLength := (identities.map fun i => 2 + i.label.length + 4).sum
    let b := putU16 b 4 identitiesLength
    let b := putIdentities b 6 identities
    let offset := 6 + identitiesLength
    let b := putU16 b offset (binders.map fun x => x.length + 1).sum
    .ok (extLen, putNames b (offset + 2) binders)

lemma putIdentities_mid (l : List PskIdentity) (p a r : Bytes)
    (ha : a.length = (pskIdentityBytes l).length) :
    putIdentities (p ++ (a ++ r)) p.length l = p ++ (pskIdentityBytes l ++ r) := by
  apply putEach_mid fun i : PskIdentity => vec16 i.label ++ u32 i.obfuscatedTicketAge.toNat
  · intro p a r i hi
    obtain ⟨x, a, hx, rfl⟩ := exists_room (b := a) (n := 2) (by simp at hi; omega)
    obtain ⟨y, z, hy, rfl⟩ := exists_room (b := a) (n := i.label.length) (by simp at hi; omega)
    have hz : z.length = 4 := by simp at hi; omega
    have h1 : putU16 (p ++ (x ++ (y ++ (z ++ r)))) p.length i.label.length =
        p ++ (u16 i.label.length ++ (y ++ (z ++ r))) := putU16_mid hx _
    have h2 := copyAt_mid (p := p ++ u16 i.label.length) (a := y) (r := z ++ r) hy
    have h3 := putU32_mid (p := p ++ (u16 i.label.length ++ i.label)) (r := r) hz
      i.obfuscatedTicketAge.toNat
    simp only [append_assoc, length_append, length_u16, ← Nat.add_assoc] at h1 h2 h3 ⊢
    rw [h1, h2, h3, vec16]
    simp only [append_assoc]
  · intro i
    simp [Nat.add_assoc]
  · exact ha

lemma readPskIntoBytes_eq (b : Bytes) (identities : List PskIdentity) (binders : List Bytes) :
    readPskIntoBytes b identities binders =
      if b.length < pskExtLen identities binders then .error .shortBuffer
      else .ok (filled (pskWire identities binders) b) := by
  have hwire := length_pskWire identities binders
  dsimp only [readPskIntoBytes]
  by_cases hzero : pskExtLen identities binders = 0
  · have hnil : pskWire identities binders = [] := length_eq_zero_iff.mp (hwire.trans hzero)
    rw [if_pos hzero, if_neg (by omega), hnil]
    rfl
  · rw [if_neg hzero]
    split_ifs with hshort
    · rfl
    · have hfull : ¬(identities.length = 0 ∨ binders.length = 0) := by
        intro hempty
        exact hzero (if_pos hempty)
      have hids := length_pskIdentityBytes identities
      have hbs := length_pskBinderBytes binders
      have hext : pskExtLen identities binders =
          4 + 2 + (pskIdentityBytes identities).length + 2 + (pskBinderBytes binders).length := by
        rw [pskExtLen, if_neg hfull, hids, hbs]
      obtain ⟨a, c, d, v, r, ha, hc, hd, hv, rfl, hr⟩ :=
        exists_fields (b := b) (k := 2)
          (n := (pskIdentityBytes identities).length + (2 + (pskBinderBytes binders).length))
          (by omega)
      obtain ⟨w, v, hw, rfl⟩ := exists_room (b := v) (n := (pskIdentityBytes identities).length)
        (by omega)
      obtain ⟨x, y, hx, rfl⟩ := exists_room (b := v) (n := 2)
        (by rw [length_append] at hv; omega)
      have hy : y.length = (pskBinderBytes binders).length := by
        simp only [length_append] at hv
        omega
      -- the fields are filled in from the front, each behind those already written
      have h4 (s t n : Nat) : putU16 (u16 s ++ (u16 t ++ (d ++ (w ++ (x ++ (y ++ r)))))) 4 n =
          u16 s ++ (u16 t ++ (u16 n ++ (w ++ (x ++ (y ++ r))))) :=
        putU16_mid (p := u16 s ++ u16 t) hd n
      have h6 (s t n : Nat) :
          putIdentities (u16 s ++ (u16 t ++ (u16 n ++ (w ++ (x ++ (y ++ r)))))) 6 identities =
            u16 s ++ (u16 t ++ (u16 n ++ (pskIdentityBytes identities ++ (x ++ (y ++ r))))) :=
        putIdentities_mid identities (u16 s ++ (u16 t ++ u16 n)) w (x ++ (y ++ r)) hw
      have h7 (s t n m : Nat) := putU16_mid
        (p := u16 s ++ (u16 t ++ (u16 n ++ pskIdentityBytes identities))) (r := y ++ r) hx m
      have h8 (s t n m : Nat) := putNames_mid binders
        (u16 s ++ (u16 t ++ (u16 n ++ (pskIdentityBytes identities ++ u16 m)))) y r hy
      simp only [append_assoc, length_append, length_u16, hids, ← Nat.add_assoc,
        Nat.reduceAdd] at h7 h8
      have hbody : (vec16 (pskIdentityBytes identities) ++ vec16 (pskBinderBytes binders)).length =
          pskExtLen identities binders - 4 := by
        rw [hext]
        simp only [length_append, length_vec16]
        omega
      have hframe : pskWire identities binders ++ r =
          u16 extensionPreSharedKey.toNat ++ (u16 (pskExtLen identities binders - 4) ++
            (u16 (pskIdentityBytes identities).length ++ (pskIdentityBytes identities ++
              (u16 (pskBinderBytes binders).length ++ (protocolNames binders ++ r))))) := by
        rw [pskWire, if_neg hfull, extFrame, vec16, hbody]
        simp only [vec16, append_assoc]
        rfl
      have hsize : 4 + 2 + ((pskIdentityBytes identities).length +
          (2 + (pskBinderBytes binders).length)) = pskExtLen identities binders := by omega
      rw [hsize] at hr
      rw [filled_eq hwire hr, hframe]
      simp only [append_assoc, putU16_type_length ha hc, h4, h6, h7, h8, hids, hbs]

/-! ## Counters and vectors -/

/-- The counter of a round goes down by the bytes the round takes. -/
lemma identityRound_counter {n n' : UInt16} {i : PskIdentity} {b : Bytes}
    (h : IdentityRound n i n' b) :
    UInt16.ofNat b.length + n' = n ∧ i.label.length < 65536 ∧
      b = vec16 i.label ++ u32 i.obfuscatedTicketAge.toNat := by
  obtain ⟨hlen, hle⟩ := h
  refine ⟨?_, hlen, rfl⟩
  simp only [length_append, length_vec16, length_u32, UInt16.ofNat_add]
  grind

lemma binderRound_counter {n n' : UInt16} {x b : Bytes} (h : BinderRound n x n' b) :
    UInt16.ofNat b.length + n' = n ∧ x.length < 256 ∧ b = vec8 x := by
  obtain ⟨hlen, hle⟩ := h
  refine ⟨?_, hlen, rfl⟩
  simp only [length_vec8, UInt16.ofNat_add]
  grind

/-- A counter with enough left reads one more identity. -/
lemma identityRound_of_fits {i : PskIdentity} {n : Nat} (hi : i.label.length < 65536)
    (hle : (vec16 i.label ++ u32 i.obfuscatedTicketAge.toNat).length ≤ n) (hn : n < 65536) :
    IdentityRound (UInt16.ofNat n) i
      (UInt16.ofNat (n - (vec16 i.label ++ u32 i.obfuscatedTicketAge.toNat).length))
      (vec16 i.label ++ u32 i.obfuscatedTicketAge.toNat) := by
  have hcount : UInt16.ofNat n - 2 - UInt16.ofNat i.label.length - 4 =
      UInt16.ofNat (n - (vec16 i.label ++ u32 i.obfuscatedTicketAge.toNat).length) := by
    rw [UInt16.ofNat_sub hle, length_append, length_vec16, length_u32, UInt16.ofNat_add,
      UInt16.ofNat_add]
    grind
  have hsize : (vec16 i.label ++ u32 i.obfuscatedTicketAge.toNat).length =
      2 + i.label.length + 4 := by
    rw [length_append, length_vec16, length_u32]
  rw [← hcount]
  refine .intro hi ?_
  have hsub : UInt16.ofNat (n - 2) = UInt16.ofNat n - 2 := UInt16.ofNat_sub (by omega)
  rw [← hsub, UInt16.le_iff_toNat_le, UInt16.toNat_ofNat', UInt16.toNat_ofNat']
  omega

/-- A counter with enough left reads one more binder. -/
lemma binderRound_of_fits {x : Bytes} {n : Nat} (hx : x.length < 256)
    (hle : (vec8 x).length ≤ n) (hn : n < 65536) :
    BinderRound (UInt16.ofNat n) x (UInt16.ofNat (n - (vec8 x).length)) (vec8 x) := by
  have hcount : UInt16.ofNat n - 1 - UInt16.ofNat x.length =
      UInt16.ofNat (n - (vec8 x).length) := by
    rw [UInt16.ofNat_sub hle, length_vec8, UInt16.ofNat_add]
    grind
  have hsize := length_vec8 x
  rw [← hcount]
  refine .intro hx ?_
  have hsub : UInt16.ofNat (n - 1) = UInt16.ofNat n - 1 := UInt16.ofNat_sub (by omega)
  rw [← hsub, UInt16.le_iff_toNat_le, UInt16.toNat_ofNat', UInt16.toNat_ofNat']
  omega

/-- The body of a pre-shared key extension: the vector of identities and the vector of binders. -/
def pskVectors (identities : List PskIdentity) (binders : List Bytes) : Bytes :=
  vec16 (pskIdentityBytes identities) ++ vec16 (pskBinderBytes binders)

/-- The bytes start with two complete vectors, which the identities and the binders fill. -/
structure StartsWithPsk (identities : List PskIdentity) (binders : List Bytes) (b : Bytes) :
    Prop where
  identities_fit : (pskIdentityBytes identities).length < 65536
  binders_fit : (pskBinderBytes binders).length < 65536
  binder_fits : ∀ x ∈ binders, x.length < 256
  starts : pskVectors identities binders <+: b

/-- In at most 65535 bytes the counters of `Write` read complete vectors and nothing else. -/
lemma readFakePsk_iff {b : Bytes} (hb : b.length ≤ 65535) (ids : List PskIdentity)
    (bs : List Bytes) : (∃ r, readFakePsk b = some ((ids, bs), r)) ↔ StartsWithPsk ids bs b := by
  constructor
  · rintro ⟨r, hread⟩
    obtain ⟨n, m, x, y, hids, hbs, rfl⟩ := readFakePsk_eq_some.mp hread
    obtain ⟨hn, -, rfl⟩ := hids.eq_flatMap fun _ _ _ _ => identityRound_counter
    obtain ⟨hm, hshort, rfl⟩ := hbs.eq_flatMap fun _ _ _ _ => binderRound_counter
    change UInt16.ofNat (pskIdentityBytes ids).length = n at hn
    change UInt16.ofNat (pskBinderBytes bs).length = m at hm
    change (u16 n.toNat ++ (pskIdentityBytes ids ++ (u16 m.toNat ++ pskBinderBytes bs)) ++ r).length
      ≤ 65535 at hb
    simp only [length_append, length_u16] at hb
    -- fewer bytes than a counter can go round
    have hidsLen : (pskIdentityBytes ids).length < 65536 := by omega
    have hbsLen : (pskBinderBytes bs).length < 65536 := by omega
    have hn' : n.toNat = (pskIdentityBytes ids).length := by
      rw [← hn, UInt16.toNat_ofNat', Nat.mod_eq_of_lt hidsLen]
    have hm' : m.toNat = (pskBinderBytes bs).length := by
      rw [← hm, UInt16.toNat_ofNat', Nat.mod_eq_of_lt hbsLen]
    refine ⟨hidsLen, hbsLen, hshort, r, ?_⟩
    rw [pskVectors, vec16, vec16, ← hn', ← hm']
    simp only [append_assoc, pskIdentityBytes, pskBinderBytes]
  · rintro ⟨hidsLen, hbsLen, hshort, r, rfl⟩
    have hlabels : ∀ i ∈ ids, i.label.length < 65536 := by
      intro i hi
      have hle := length_le_flatMap
        (fun i : PskIdentity => vec16 i.label ++ u32 i.obfuscatedTicketAge.toNat) hi
      rw [length_append, length_vec16] at hle
      change (ids.flatMap _).length < _ at hidsLen
      omega
    have hids : CountedRun IdentityRound (UInt16.ofNat (pskIdentityBytes ids).length) ids
        (pskIdentityBytes ids) :=
      countedRun_flatMap (fun _ _ => identityRound_of_fits) (fun i => by simp [vec16, u16]) hlabels
        hidsLen
    have hbs : CountedRun BinderRound (UInt16.ofNat (pskBinderBytes bs).length) bs
        (pskBinderBytes bs) :=
      countedRun_flatMap (fun _ _ => binderRound_of_fits) (fun x => by simp [vec8, u8]) hshort hbsLen
    refine ⟨r, readFakePsk_eq_some.mpr ⟨_, _, _, _, hids, hbs, ?_⟩⟩
    rw [UInt16.toNat_ofNat', UInt16.toNat_ofNat', Nat.mod_eq_of_lt hidsLen, Nat.mod_eq_of_lt hbsLen]
    simp only [pskVectors, vec16, append_assoc]

lemma appendedSlice_inj {α : Type} {l l' : List α} (h : appendedSlice l = appendedSlice l') :
    l = l' := by
  unfold appendedSlice at h
  split_ifs at h with hl hl' hl'
  · rw [hl, hl']
  · exact some.inj h

/-- The extension that `Write` makes out of identities and binders. -/
def fakePsk (ids : List PskIdentity) (bs : List Bytes) : Ext :=
  .fakePreSharedKey ⟨appendedSlice ids, appendedSlice bs, false⟩

lemma write_fakePsk_eq_ok {b : Bytes} {n : Nat} {e : Ext} :
    ExtKind.fakePreSharedKey.write b = (n, .ok e) ↔
      n = b.length ∧ ∃ ids bs r, readFakePsk b = some ((ids, bs), r) ∧ e = fakePsk ids bs := by
  rw [ExtKind.write, ExtKind.parse]
  cases readFakePsk b with
  | none => simp [orText, Except.map]
  | some x =>
    obtain ⟨⟨ids, bs⟩, r⟩ := x
    simp only [orText, Except.map, Prod.mk.injEq, Except.ok.injEq, some.injEq]
    constructor
    · rintro ⟨rfl, rfl⟩
      exact ⟨rfl, ids, bs, r, ⟨⟨rfl, rfl⟩, rfl⟩, rfl⟩
    · rintro ⟨rfl, ids', bs', r', ⟨⟨rfl, rfl⟩, rfl⟩, rfl⟩
      exact ⟨rfl, rfl⟩

/-- `FakePreSharedKeyExtension.Write` on at most 65535 bytes: it succeeds exactly on two complete
vectors followed by anything, it recovers what fills them, and encoding that again gives the
vectors back. -/
theorem write_fakePsk_exact {b : Bytes} (hb : b.length ≤ 65535) :
    ((∃ n e, ExtKind.fakePreSharedKey.write b = (n, .ok e)) ↔ ∃ ids bs, StartsWithPsk ids bs b) ∧
    (∀ ids bs, ExtKind.fakePreSharedKey.write b = (b.length, .ok (fakePsk ids bs)) ↔
      StartsWithPsk ids bs b) ∧
    ∀ ids bs, StartsWithPsk ids bs b → ids ≠ [] → bs ≠ [] → ∃ k, b.take k = pskVectors ids bs ∧
      ∀ buf : Bytes, pskExtLen ids bs ≤ buf.length →
        readPskIntoBytes buf ids bs = .ok (filled (extFrame extensionPreSharedKey (b.take k)) buf) := by
  refine ⟨⟨?_, ?_⟩, fun ids bs => ⟨?_, ?_⟩, ?_⟩
  · rintro ⟨n, e, hwrite⟩
    obtain ⟨-, ids, bs, r, hread, -⟩ := write_fakePsk_eq_ok.mp hwrite
    exact ⟨ids, bs, (readFakePsk_iff hb ids bs).mp ⟨r, hread⟩⟩
  · rintro ⟨ids, bs, hstarts⟩
    obtain ⟨r, hread⟩ := (readFakePsk_iff hb ids bs).mpr hstarts
    exact ⟨_, _, write_fakePsk_eq_ok.mpr ⟨rfl, ids, bs, r, hread, rfl⟩⟩
  · intro hwrite
    obtain ⟨-, ids', bs', r, hread, heq⟩ := write_fakePsk_eq_ok.mp hwrite
    rw [fakePsk, fakePsk, Ext.fakePreSharedKey.injEq, FakePreSharedKeyExtension.mk.injEq] at heq
    rw [appendedSlice_inj heq.1, appendedSlice_inj heq.2.1]
    exact (readFakePsk_iff hb ids' bs').mp ⟨r, hread⟩
  · intro hstarts
    obtain ⟨r, hread⟩ := (readFakePsk_iff hb ids bs).mpr hstarts
    exact write_fakePsk_eq_ok.mpr ⟨rfl, ids, bs, r, hread, rfl⟩
  · intro ids bs hstarts hids hbs
    have htake := prefix_iff_eq_take.mp hstarts.starts
    refine ⟨(pskVectors ids bs).length, htake.symm, fun buf hbuf => ?_⟩
    have hfull : ¬(ids.length = 0 ∨ bs.length = 0) := by simp [hids, hbs]
    rw [readPskIntoBytes_eq, if_neg (by omega), ← htake, pskWire, if_neg hfull, pskVectors]

/-- Two identities and two binders, with a byte behind them. -/
def pskBody : Bytes :=
  [0, 15, 0, 1, 7, 0, 0, 0, 1, 0, 2, 8, 9, 0, 0, 0, 2, 0, 5, 1, 3, 2, 4, 5, 6]

theorem write_pskBody :
    ExtKind.fakePreSharedKey.write pskBody =
      (pskBody.length, .ok (fakePsk [⟨[7], 1⟩, ⟨[8, 9], 2⟩] [[3], [4, 5]])) :=
  ((write_fakePsk_exact (b := pskBody) (by decide)).2.1 _ _).mpr
    ⟨by decide, by decide, by decide, [6], rfl⟩

/-! ## The cached length -/

namespace UtlsPreSharedKeyExtension

variable (e : UtlsPreSharedKeyExtension)

/-- `Len`, with the length it leaves in the cache. -/
def len : Nat × UtlsPreSharedKeyExtension :=
  if e.isBlank then (0, e)
  else
    let length := e.cachedLength.getD (pskExtLen e.identities e.binders)
    (length, { e with cachedLength := some length })

/-- `Read`.  It calls `Len` only if empty extensions are not to be left out. -/
def read (b : Bytes) : UtlsPreSharedKeyExtension × Except Err (Nat × Bytes) :=
  if e.omitEmptyPsk then (e, readPskIntoBytes b e.identities e.binders)
  else
    let (length, e) := e.len
    (e, if length = 0 then .error .emptyPsk else readPskIntoBytes b e.identities e.binders)

/-- `InitializeByUtls`; `none` is the panic of a session with an unknown cipher suite. -/
def initializeByUtls (session : SessionState)
    (earlySecret binderKey : Bytes) (identities : List PskIdentity) :
    Option UtlsPreSharedKeyExtension :=
  if identities = [] ∨ (cipherSuiteTLS13ByID session.cipherSuite).isSome then
    some (initializedPsk e session earlySecret binderKey identities)
  else none

/-- `PatchBuiltHello` on a hello with the bytes `raw`; `none` is a panic. -/
def patchBuiltHello (d : Deps) (e : UtlsPreSharedKeyExtension) (raw : Bytes) :
    Option (UtlsPreSharedKeyExtension × Bytes) :=
  let (length, e) := e.len
  if length = 0 ∨ e.skipBinderPatching then some (e, raw)
  else
    match e.cipherSuite with
    | none => none
    | some suite =>
      if bindersSize e.binders ≤ raw.length then
        let helloBytes := raw.take (raw.length - bindersSize e.binders)
        let binder := pskBinder d suite e.binderKey helloBytes
        if e.binders.map List.length = [binder.length] then
          some ({ e with binders := [binder] }, helloBytes ++ vec16 (vec8 binder))
        else some (e, raw)
      else none

/-- `ResetForReuse`. -/
def resetForReuse : UtlsPreSharedKeyExtension :=
  { e with
    session := none, earlySecret := [], binderKey := [], identities := [], binders := []
    cipherSuite := none, cachedLength := none }

end UtlsPreSharedKeyExtension

/-- What a program may do with a pre-shared key extension. -/
inductive PskCall where
  | setIdentities (identities : List PskIdentity)
  | setBinders (binders : List Bytes)
  | initializeByUtls (session : SessionState) (earlySecret binderKey : Bytes)
      (identities : List PskIdentity)
  | len
  | read (b : Bytes)
  | patchBuiltHello (raw : Bytes)
  | resetForReuse

namespace UtlsPreSharedKeyExtension

/-- The extension after a call; `none` is a panic. -/
def call (d : Deps) (e : UtlsPreSharedKeyExtension) : PskCall → Option UtlsPreSharedKeyExtension
  | .setIdentities identities => some { e with identities := identities }
  | .setBinders binders => some { e with binders := binders }
  | .initializeByUtls session earlySecret binderKey identities =>
    e.initializeByUtls session earlySecret binderKey identities
  | .len => some e.len.2
  | .read b => some (e.read b).1
  | .patchBuiltHello raw => (e.patchBuiltHello d raw).map Prod.fst
  | .resetForReuse => some e.resetForReuse

variable (e : UtlsPreSharedKeyExtension)

/-- `Len` returns the number of bytes that a `Read` into a large enough buffer writes afterwards,
if empty extensions are left out. -/
def LenExact : Prop :=
  ∀ b : Bytes, pskExtLen e.identities e.binders ≤ b.length →
    ∃ b', ({ e.len.2 with omitEmptyPsk := true }.read b).2 = .ok (e.len.1, b')

/-- The property holds of the extension now and after each of the calls. -/
def Throughout (d : Deps) (P : UtlsPreSharedKeyExtension → Prop) :
    UtlsPreSharedKeyExtension → List PskCall → Prop
  | e, [] => P e
  | e, c :: cs => P e ∧ ∀ e', e.call d c = some e' → Throughout d P e' cs

/-- The cached length, if there is one, is that of the given identities and binders. -/
def CacheFits (identities : List PskIdentity) (binders : List Bytes) : Prop :=
  ∀ n ∈ e.cachedLength, n = pskExtLen identities binders

/-- A call puts new identities or binders into the extension only if they leave it empty or have
the length that is cached. -/
def Respects : PskCall → Prop
  | .setIdentities identities =>
    { e with identities := identities }.isBlank = true ∨ e.CacheFits identities e.binders
  | .setBinders binders =>
    { e with binders := binders }.isBlank = true ∨ e.CacheFits e.identities binders
  | .initializeByUtls session earlySecret binderKey identities =>
    e.CacheFits identities (initializedPsk e session earlySecret binderKey identities).binders
  | _ => True

/-- Each of the calls that return respects the cache of the extension it finds. -/
def AllRespect (d : Deps) : UtlsPreSharedKeyExtension → List PskCall → Prop
  | _, [] => True
  | e, c :: cs => ∀ e', e.call d c = some e' → e.Respects c ∧ AllRespect d e' cs

variable {e : UtlsPreSharedKeyExtension}

lemma pskExtLen_of_isBlank (h : e.isBlank = true) : pskExtLen e.identities e.binders = 0 := by
  have hempty : e.identities.length = 0 ∨ e.binders.length = 0 := by
    simp only [isBlank, Bool.and_eq_true, Bool.or_eq_true, beq_iff_eq] at h
    exact h.2
  exact if_pos hempty

/-- `Len` leaves the identities and binders as they are. -/
lemma len_same : e.len.2.identities = e.identities ∧ e.len.2.binders = e.binders := by
  unfold len
  split_ifs
  · exact ⟨rfl, rfl⟩
  · exact ⟨rfl, rfl⟩

lemma len_eq_iff : e.len.1 = pskExtLen e.identities e.binders ↔
    e.isBlank = true ∨ e.CacheFits e.identities e.binders := by
  rw [len]
  by_cases hblank : e.isBlank = true
  · rw [if_pos hblank, pskExtLen_of_isBlank hblank]
    exact iff_of_true rfl (.inl hblank)
  · rw [if_neg hblank, or_iff_right hblank, CacheFits]
    cases e.cachedLength <;> simp

/-- What `Len` promises: nothing is cached, or the cache is right. -/
lemma lenExact_iff :
    e.LenExact ↔ e.isBlank = true ∨ e.CacheFits e.identities e.binders := by
  have hread (b : Bytes) (hb : pskExtLen e.identities e.binders ≤ b.length) :
      ({ e.len.2 with omitEmptyPsk := true }.read b).2 =
        .ok (filled (pskWire e.identities e.binders) b) := by
    rw [read, if_pos rfl]
    dsimp only
    rw [e.len_same.1, e.len_same.2, readPskIntoBytes_eq, if_neg (by omega)]
  refine Iff.trans ⟨fun h => ?_, fun h b hb => ?_⟩ len_eq_iff
  · obtain ⟨b', hb'⟩ := h (replicate (pskExtLen e.identities e.binders) 0) (by simp)
    rw [hread _ (by simp), filled, length_pskWire] at hb'
    exact (Prod.mk.inj (Except.ok.inj hb')).1.symm
  · refine ⟨pskWire e.identities e.binders ++ b.drop (pskWire e.identities e.binders).length, ?_⟩
    rw [hread b hb, h, filled, length_pskWire]

/-- `Len` keeps what it promises. -/
lemma LenExact.len (h : e.LenExact) : e.len.2.LenExact := by
  rw [lenExact_iff] at h ⊢
  unfold UtlsPreSharedKeyExtension.len
  split_ifs with hblank
  · exact .inl hblank
  · have hfits := h.resolve_left hblank
    refine .inr fun n hn => ?_
    obtain rfl := some.inj hn
    cases hcache : e.cachedLength with
    | none => rfl
    | some n => exact hfits n hcache

/-- New binders of the old lengths change nothing. -/
lemma LenExact.of_lengths (h : e.LenExact) {binders : List Bytes}
    (hlen : e.binders.map List.length = binders.map List.length) :
    { e with binders := binders }.LenExact := by
  have hcount : e.binders.length = binders.length := by simpa using congrArg List.length hlen
  have hsum (l : List Bytes) :
      (l.map fun b => b.length + 1).sum = ((l.map List.length).map (· + 1)).sum := by
    rw [List.map_map]
    rfl
  have hsame : pskExtLen e.identities binders = pskExtLen e.identities e.binders := by
    simp only [pskExtLen, hsum, hlen, hcount]
  rw [lenExact_iff] at h ⊢
  simpa only [isBlank, CacheFits, hsame, hcount] using h

/-- What one call does to the promise of `Len`. -/
lemma LenExact.call_iff {d : Deps} (h : e.LenExact) {c : PskCall} {e' : UtlsPreSharedKeyExtension}
    (hcall : e.call d c = some e') : e'.LenExact ↔ e.Respects c := by
  cases c with
  | setIdentities identities =>
    obtain rfl := some.inj hcall
    exact lenExact_iff
  | setBinders binders =>
    obtain rfl := some.inj hcall
    exact lenExact_iff
  | initializeByUtls session earlySecret binderKey identities =>
    simp only [call, UtlsPreSharedKeyExtension.initializeByUtls] at hcall
    split_ifs at hcall
    obtain rfl := some.inj hcall
    rw [lenExact_iff, or_iff_right (by simp [isBlank, initializedPsk])]
    exact Iff.rfl
  | len =>
    obtain rfl := some.inj hcall
    exact iff_of_true h.len trivial
  | read b =>
    obtain rfl := some.inj hcall
    refine iff_of_true ?_ trivial
    unfold UtlsPreSharedKeyExtension.read
    split_ifs
    · exact h
    · exact h.len
  | patchBuiltHello raw =>
    refine iff_of_true ?_ trivial
    obtain ⟨⟨e1, raw'⟩, hpatch, rfl⟩ := map_eq_some_iff.mp hcall
    unfold UtlsPreSharedKeyExtension.patchBuiltHello at hpatch
    dsimp only at hpatch
    by_cases hskip : e.len.1 = 0 ∨ e.len.2.skipBinderPatching = true
    · rw [if_pos hskip] at hpatch
      obtain ⟨rfl, -⟩ := Prod.mk.inj (some.inj hpatch)
      exact h.len
    · rw [if_neg hskip] at hpatch
      cases hsuite : e.len.2.cipherSuite with
      | none => simp [hsuite] at hpatch
      | some suite =>
        simp only [hsuite] at hpatch
        split_ifs at hpatch with hroom hlen
        · obtain ⟨rfl, -⟩ := Prod.mk.inj (some.inj hpatch)
          have hexact := h.len.of_lengths (hlen.trans map_singleton.symm)
          rw [hsuite] at hexact
          exact hexact
        · obtain ⟨rfl, -⟩ := Prod.mk.inj (some.inj hpatch)
          exact h.len
  | resetForReuse =>
    obtain rfl := some.inj hcall
    exact iff_of_true (lenExact_iff.mpr (.inr nofun)) trivial

/-- The run lemma. -/
lemma LenExact.throughout_iff {d : Deps} (h : e.LenExact) (cs : List PskCall) :
    Throughout d LenExact e cs ↔ AllRespect d e cs := by
  induction cs generalizing e with
  | nil => exact iff_of_true h trivial
  | cons c cs ih =>
    rw [Throughout, AllRespect, and_iff_right h]
    refine forall₂_congr fun e' hcall => ?_
    constructor
    · intro hrest
      have he' : e'.LenExact := by
        cases cs with
        | nil => exact hrest
        | cons => exact hrest.1
      exact ⟨(h.call_iff hcall).mp he', (ih he').mp hrest⟩
    · rintro ⟨hc, hrest⟩
      exact (ih ((h.call_iff hcall).mpr hc)).mpr hrest

end UtlsPreSharedKeyExtension

/-- On an extension whose length has not been computed yet, `Len` is right throughout a sequence of
calls exactly if no call replaces identities or binders by others of a length that is not the one
in the cache. -/
theorem pskLen_exact_iff (d : Deps) {e : UtlsPreSharedKeyExtension} (he : e.cachedLength = none)
    (cs : List PskCall) :
    e.Throughout d UtlsPreSharedKeyExtension.LenExact cs ↔ e.AllRespect d cs := by
  have hexact : e.LenExact := UtlsPreSharedKeyExtension.lenExact_iff.mpr (.inr (by simp [
    UtlsPreSharedKeyExtension.CacheFits, he]))
  exact hexact.throughout_iff cs

/-- A session of TLS 1.3 with a ticket. -/
def tls13Session : SessionState where
  ident := 0
  version := VersionTLS13
  cipherSuite := 0x1301
  secret := []
  ticket := some [1]
  createdAt := 0
  useBy := 0
  ageAdd := 0
  peerCertNotAfter := 0
  hasVerifiedChains := true

def unusedPsk : UtlsPreSharedKeyExtension := ⟨[], [], [], [], none, none, none, true, false⟩

/-- Two sessions with tickets of different lengths, and a reset between them. -/
theorem pskLen_exact_after_reset :
    unusedPsk.Throughout Deps.sample UtlsPreSharedKeyExtension.LenExact
      [.initializeByUtls tls13Session [] [] [⟨[1], 0⟩], .len, .resetForReuse,
        .initializeByUtls tls13Session [] [] [⟨[1, 2, 3], 0⟩], .len] := by
  refine (pskLen_exact_iff Deps.sample (e := unusedPsk) rfl _).mpr ?_
  rintro _ ⟨⟩
  refine ⟨nofun, ?_⟩
  rintro _ ⟨⟩
  refine ⟨trivial, ?_⟩
  rintro _ ⟨⟩
  refine ⟨trivial, ?_⟩
  rintro _ ⟨⟩
  refine ⟨nofun, ?_⟩
  rintro _ ⟨⟩
  exact ⟨trivial, trivial⟩

/-- The same two sessions without the reset. -/
def staleCalls : List PskCall :=
  [.initializeByUtls tls13Session [] [] [⟨[1], 0⟩], .len,
    .initializeByUtls tls13Session [] [] [⟨[1, 2, 3], 0⟩]]

/-- The length of the first ticket stays in the cache: `Len` returns 48 where `Read` writes 50
bytes. -/
theorem pskLen_stale :
    (∃ e, staleCalls.foldlM (UtlsPreSharedKeyExtension.call Deps.sample) unusedPsk = some e ∧
      e.len.1 = 48 ∧ (e.read (List.replicate 64 0)).2.map Prod.fst = .ok 50) ∧
    ¬unusedPsk.Throughout Deps.sample UtlsPreSharedKeyExtension.LenExact staleCalls := by
  refine ⟨⟨_, rfl, rfl, by decide +kernel⟩, fun h => ?_⟩
  have hlast := UtlsPreSharedKeyExtension.lenExact_iff.mp (((h.2 _ rfl).2 _ rfl).2 _ rfl)
  have hfits := hlast.resolve_left (by decide) 48 rfl
  revert hfits
  decide

end Utls
