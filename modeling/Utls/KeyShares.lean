import Utls.ExtensionOrder
import Utls.ServerHello
import Utls.SpecOnWire

/-!
# Which key shares can be completed

`ApplyPreset` makes a key pair for each group of a `key_share` extension and keeps three private
keys: the one of the first group without an ML-KEM part, and the two of the last hybrid group.  Here
is what follows for the handshake.  `Filling` is the invariant of the loop over the shares,
`Settled` the one of the loop over the extensions, and `ClientHelloSpec.Completes` tells from the
groups of a specification whether the handshake can go on when the server selects one of them.
-/

namespace Utls

open Wire Exec LastWrite List Option Function

variable {c c' : UConn} {curve g : UInt16} {r : Ref}

/-! ## The groups of a list of shares -/

/-- The groups of the shares that are not GREASE. -/
def shareGroups (l : List KeyShare) : List UInt16 :=
  (l.map fun ks => ks.group).filter fun g => !isGREASEUint16 g

/-- The group whose private key is kept. -/
def firstClassical (groups : List UInt16) : Option UInt16 := groups.find? fun g => !isHybrid g

/-- The hybrid group whose private keys are kept. -/
def lastHybrid (groups : List UInt16) : Option UInt16 := groups.reverse.find? isHybrid

lemma isGREASE_getBoringGREASEValue (seed : List UInt16) (i : Nat) :
    isGREASEUint16 (getBoringGREASEValue seed i) = true := by
  rw [getBoringGREASEValue]
  generalize seed.getD i 0 = v
  simp only [isGREASEUint16, Bool.and_eq_true, beq_iff_eq]
  constructor
  · refine UInt16.toBitVec_inj.mp (BitVec.eq_of_getLsbD_eq fun j hj => ?_)
    interval_cases j <;> simp
  · refine UInt16.toBitVec_inj.mp (BitVec.eq_of_getLsbD_eq fun j hj => ?_)
    interval_cases j <;> simp

lemma shareGroups_append_of_GREASE {ks : KeyShare} (h : isGREASEUint16 ks.group = true)
    (l : List KeyShare) : shareGroups (l ++ [ks]) = shareGroups l := by
  simp [shareGroups, h]

lemma shareGroups_append (h : isGREASEUint16 g = false) (l : List KeyShare)
    (data : Bytes) : shareGroups (l ++ [⟨g, data⟩]) = shareGroups l ++ [g] := by
  simp [shareGroups, h]

lemma mem_shareGroups {l : List KeyShare} :
    g ∈ shareGroups l ↔ isGREASEUint16 g = false ∧ ∃ ks ∈ l, ks.group = g := by
  simp only [shareGroups, mem_filter, List.mem_map, Bool.not_eq_true', and_comm]

lemma firstClassical_append (l : List UInt16) (g : UInt16) :
    firstClassical (l ++ [g]) = (firstClassical l).or (if isHybrid g then none else some g) := by
  rw [firstClassical, find?_append]
  cases h : isHybrid g with
  | false => simp [firstClassical, h]
  | true => simp [firstClassical, h]

lemma lastHybrid_append (l : List UInt16) (g : UInt16) :
    lastHybrid (l ++ [g]) = if isHybrid g then some g else lastHybrid l := by
  rw [lastHybrid, reverse_append, reverse_singleton, singleton_append, find?_cons]
  cases isHybrid g <;> rfl

/-- GREASE values have equal bytes, and the hybrid groups do not. -/
lemma isHybrid_of_isGREASE (h : isGREASEUint16 g = true) : isHybrid g = false := by
  rw [Bool.eq_false_iff]
  intro hh
  rw [isHybrid, Bool.or_eq_true, beq_iff_eq, beq_iff_eq] at hh
  rcases hh with rfl | rfl
  · exact absurd h (by decide)
  · exact absurd h (by decide)

section Deps

variable (d : Deps)

/-! ## One share -/

/-- What `fillKeyShare` does when it returns, to the stored keys and the number of values that were
read from the random stream. -/
inductive ShareFilled (curve : UInt16) (preferred : Bool) (keys : KeySharePrivateKeys) (n : Nat) :
    Bytes × Bool → KeySharePrivateKeys → Nat → Prop where
  | hybrid {secret : Bytes} {mlkem : MlkemKey} (hc : isHybrid curve = true)
      (hk : d.ecdhKey n X25519 = some secret) :
      ShareFilled curve preferred keys n (hybridShare d curve ⟨X25519, secret⟩ mlkem, preferred)
        { keys with mlkem := some mlkem, mlkemEcdhe := some ⟨X25519, secret⟩ } (n + 2)
  | classical {key : EcdhKey} (hc : isHybrid curve = false) (hk : key.curve = curve) :
      ShareFilled curve preferred keys n (key.publicKey d, true)
        (if preferred then keys else { keys with ecdhe := some key }) (n + 1)

lemma fillKeyShare_ok {preferred : Bool} {out : Bytes × Bool}
    (h : fillKeyShare d curve preferred c = .ok out c') :
    ShareFilled d curve preferred c.keyShareKeys c.draws out c'.keyShareKeys c'.draws := by
  unfold fillKeyShare at h
  cases hc : isHybrid curve with
  | true =>
    rw [hc, if_pos rfl] at h
    obtain ⟨key, c1, hgen, hk⟩ := bind_eq_ok.mp h
    obtain ⟨k, rfl, h⟩ := ofOption_bind_eq_ok.mp hk
    obtain ⟨hcurve, hsecret, rfl⟩ := generateECDHEKey_ok d hgen
    obtain ⟨mlkem, c3, hm, h⟩ := bind_eq_ok.mp h
    obtain ⟨seed, c4, hseed, hm⟩ := bind_eq_ok.mp hm
    cases hm
    obtain ⟨b, c5, hrand, hb⟩ := bind_eq_ok.mp hseed
    cases hrand
    obtain ⟨-, rfl⟩ := ofOption_eq_ok.mp hb
    obtain ⟨_, _, h1, h⟩ := bind_eq_ok.mp h
    cases h1
    cases h
    obtain ⟨_, secret⟩ := k
    subst hcurve
    exact .hybrid hc hsecret
  | false =>
    rw [hc, if_neg Bool.false_ne_true] at h
    obtain ⟨key, c1, hgen, hk⟩ := bind_eq_ok.mp h
    obtain ⟨k, rfl, h⟩ := ofOption_bind_eq_ok.mp hk
    obtain ⟨hcurve, -, rfl⟩ := generateECDHEKey_ok d hgen
    obtain ⟨_, c3, h1, h⟩ := bind_eq_ok.mp h
    cases h
    rcases runIf_eq_ok.mp h1 with ⟨rfl, h1⟩ | ⟨hp, rfl⟩
    · cases h1
      exact .classical hc hcurve
    · rw [Bool.not_eq_false] at hp
      subst hp
      exact .classical hc hcurve

/-! ## The loop over the shares -/

/-- The share is of a hybrid group, and its ECDH key is the `n`-th value of the random stream. -/
def DrawnAt (n : Nat) (ks : KeyShare) : Prop :=
  ∃ secret mlkem, d.ecdhKey n X25519 = some secret ∧
    ks.data = hybridShare d ks.group ⟨X25519, secret⟩ mlkem

/-- The stored keys of a hybrid share are those of a share of the group `g` in the list, and were
drawn last of all of them: at `n`, where the keys of other groups were not drawn. -/
structure StoredHybrid (n : Nat) (g : UInt16) (l : List KeyShare) (keys : KeySharePrivateKeys) :
    Prop where
  stored : ∃ secret mlkem, d.ecdhKey n X25519 = some secret ∧
    keys.mlkemEcdhe = some ⟨X25519, secret⟩ ∧ keys.mlkem = some mlkem ∧
    ⟨g, hybridShare d g ⟨X25519, secret⟩ mlkem⟩ ∈ l
  others : ∀ ks ∈ l, isHybrid ks.group = true →
    ∃ n' ≤ n, DrawnAt d n' ks ∧ (ks.group ≠ g → n' ≠ n)

/-- The private keys after the shares of the list were filled, when `n` values have been read from
the random stream.  Before, the kept key was one of the curve `start`. -/
structure Filling (start : Option UInt16) (l : List KeyShare) (keys : KeySharePrivateKeys) (n : Nat) :
    Prop where
  curve : keys.ecdhe.map EcdhKey.curve = (firstClassical (shareGroups l)).or start
  classical : ∀ g, firstClassical (shareGroups l) = some g →
    ∃ key, keys.ecdhe = some key ∧ ⟨g, key.publicKey d⟩ ∈ l
  hybrid : ∀ ks ∈ l, isHybrid ks.group = true → ∃ g, lastHybrid (shareGroups l) = some g ∧
    ∃ k < n, StoredHybrid d k g l keys

variable {d}

lemma Filling.init (n : Nat) (keys : KeySharePrivateKeys) :
    Filling d (keys.ecdhe.map EcdhKey.curve) [] keys n :=
  ⟨rfl, fun _ hg => (nomatch hg), fun _ hks => absurd hks not_mem_nil⟩

lemma StoredHybrid.append {n : Nat} {l l' : List KeyShare}
    {keys keys' : KeySharePrivateKeys} (h : StoredHybrid d n g l keys)
    (hl : ∀ ks ∈ l', isHybrid ks.group = false) (he : keys'.mlkemEcdhe = keys.mlkemEcdhe)
    (hm : keys'.mlkem = keys.mlkem) : StoredHybrid d n g (l ++ l') keys' := by
  refine ⟨?_, fun ks hks hh => ?_⟩
  · obtain ⟨secret, mlkem, hs, h1, h2, hmem⟩ := h.stored
    exact ⟨secret, mlkem, hs, he.trans h1, hm.trans h2, mem_append_left _ hmem⟩
  · rcases mem_append.mp hks with hks | hks
    · exact h.others ks hks hh
    · rw [hl ks hks] at hh
      cases hh

section Step

variable {n : Nat} {start : Option UInt16} {l : List KeyShare} {keys : KeySharePrivateKeys}

variable (h : Filling d start l keys n)

include h

/-- A share that is not hybrid leaves the keys of the last hybrid one. -/
lemma Filling.hybrid_append {ks : KeyShare}
    {keys' : KeySharePrivateKeys} {n' : Nat} (hn : n ≤ n') (hh : isHybrid ks.group = false)
    (he : keys'.mlkemEcdhe = keys.mlkemEcdhe) (hm : keys'.mlkem = keys.mlkem)
    (hlast : lastHybrid (shareGroups (l ++ [ks])) = lastHybrid (shareGroups l)) :
    ∀ ks' ∈ l ++ [ks], isHybrid ks'.group = true →
      ∃ g, lastHybrid (shareGroups (l ++ [ks])) = some g ∧
        ∃ k < n', StoredHybrid d k g (l ++ [ks]) keys' := by
  intro ks' hks' hh'
  have hmem : ks' ∈ l := by
    rcases mem_append.mp hks' with hmem | hmem
    · exact hmem
    · rw [mem_singleton.mp hmem, hh] at hh'
      cases hh'
  obtain ⟨g, hg, k, hk, hs⟩ := h.hybrid ks' hmem hh'
  refine ⟨g, hlast.trans hg, k, hk.trans_le hn, hs.append (fun x hx => ?_) he hm⟩
  rw [mem_singleton.mp hx, hh]

/-- A GREASE share has no private key. -/
lemma Filling.grease {ks : KeyShare}
    (hg : isGREASEUint16 ks.group = true) : Filling d start (l ++ [ks]) keys n := by
  have hgroups := shareGroups_append_of_GREASE hg l
  refine ⟨by rw [hgroups, h.curve], fun g hfirst => ?_, ?_⟩
  · rw [hgroups] at hfirst
    obtain ⟨key, hkey, hmem⟩ := h.classical g hfirst
    exact ⟨key, hkey, mem_append_left _ hmem⟩
  · exact h.hybrid_append le_rfl (isHybrid_of_isGREASE hg) rfl rfl (by rw [hgroups])

/-- A hybrid share takes the place of the one before it. -/
lemma Filling.hybridShare {secret : Bytes}
    {mlkem : MlkemKey} (hg : isGREASEUint16 curve = false) (hc : isHybrid curve = true)
    (hk : d.ecdhKey n X25519 = some secret) :
    Filling d start (l ++ [⟨curve, Utls.hybridShare d curve ⟨X25519, secret⟩ mlkem⟩])
      { keys with mlkem := some mlkem, mlkemEcdhe := some ⟨X25519, secret⟩ } (n + 2) := by
  set ks : KeyShare := ⟨curve, Utls.hybridShare d curve ⟨X25519, secret⟩ mlkem⟩
  have hgroups : shareGroups (l ++ [ks]) = shareGroups l ++ [curve] := shareGroups_append hg l _
  have hfirst : firstClassical (shareGroups (l ++ [ks])) = firstClassical (shareGroups l) := by
    rw [hgroups, firstClassical_append, hc, if_pos rfl, or_none]
  have hlast : lastHybrid (shareGroups (l ++ [ks])) = some curve := by
    rw [hgroups, lastHybrid_append, hc, if_pos rfl]
  have hdrawn : DrawnAt d n ks := ⟨secret, mlkem, hk, rfl⟩
  refine ⟨hfirst ▸ h.curve, fun g hg' => ?_, fun _ _ _ => ?_⟩
  · rw [hfirst] at hg'
    obtain ⟨key, hkey, hmem⟩ := h.classical g hg'
    exact ⟨key, hkey, mem_append_left _ hmem⟩
  · refine ⟨curve, hlast, n, by omega,
      ⟨secret, mlkem, hk, rfl, rfl, mem_append_right _ (mem_singleton_self _)⟩, ?_⟩
    intro ks' hks' hh
    rcases mem_append.mp hks' with hmem | hmem
    · -- the keys of the shares before were drawn before
      obtain ⟨g, -, k, hkn, hs⟩ := h.hybrid ks' hmem hh
      obtain ⟨n', hle, hat, -⟩ := hs.others ks' hmem hh
      exact ⟨n', by omega, hat, fun _ => by omega⟩
    · rw [mem_singleton.mp hmem]
      exact ⟨n, le_rfl, hdrawn, fun hne => absurd rfl hne⟩

/-- Of the other shares the first one keeps its key. -/
lemma Filling.classicalShare {key : EcdhKey}
    (hg : isGREASEUint16 curve = false) (hc : isHybrid curve = false) (hk : key.curve = curve) :
    Filling d start (l ++ [⟨curve, key.publicKey d⟩])
      (if (firstClassical (shareGroups l)).isSome then keys else { keys with ecdhe := some key })
      (n + 1) := by
  have hgroups := shareGroups_append hg l (key.publicKey d)
  have hlast : lastHybrid (shareGroups (l ++ [⟨curve, key.publicKey d⟩])) =
      lastHybrid (shareGroups l) := by
    rw [hgroups, lastHybrid_append, hc, if_neg Bool.false_ne_true]
  cases hf : firstClassical (shareGroups l) with
  | some g0 =>
    have hfirst : firstClassical (shareGroups (l ++ [⟨curve, key.publicKey d⟩])) = some g0 := by
      rw [hgroups, firstClassical_append, hf, some_or]
    refine ⟨?_, fun g hg' => ?_,
      h.hybrid_append (by omega) hc rfl rfl hlast⟩
    · have hcurve := h.curve
      rw [hf] at hcurve
      rw [hfirst]
      exact hcurve
    · obtain ⟨key', hkey', hmem⟩ := h.classical g (hf.trans (hfirst.symm.trans hg'))
      exact ⟨key', hkey', mem_append_left _ hmem⟩
  | none =>
    have hfirst : firstClassical (shareGroups (l ++ [⟨curve, key.publicKey d⟩])) = some curve := by
      rw [hgroups, firstClassical_append, hf, hc, if_neg Bool.false_ne_true, none_or]
    refine ⟨?_, fun g hg' => ?_,
      h.hybrid_append (by omega) hc rfl rfl hlast⟩
    · rw [hfirst]
      exact congrArg some hk
    · cases hfirst.symm.trans hg'
      exact ⟨key, rfl, mem_append_right _ (mem_singleton_self _)⟩

/-- One share that is not GREASE. -/
lemma Filling.share {out : Bytes × Bool}
    {keys' : KeySharePrivateKeys} {n' : Nat} (hg : isGREASEUint16 curve = false)
    (hf : ShareFilled d curve (firstClassical (shareGroups l)).isSome keys n out keys' n') :
    Filling d start (l ++ [⟨curve, out.1⟩]) keys' n' ∧
      out.2 = (firstClassical (shareGroups (l ++ [⟨curve, out.1⟩]))).isSome := by
  rw [shareGroups_append hg, firstClassical_append]
  cases hf with
  | hybrid hc hk =>
    refine ⟨h.hybridShare hg hc hk, ?_⟩
    rw [hc, if_pos rfl, or_none]
  | classical hc hk =>
    refine ⟨h.classicalShare hg hc hk, ?_⟩
    rw [hc, if_neg Bool.false_ne_true]
    cases firstClassical (shareGroups l) <;> rfl

end Step

/-- The loop over the shares of an extension.  The groups stay, up to the GREASE values. -/
lemma fillKeyShares_ok {seed : List UInt16} {start : Option UInt16} {rest : List KeyShare}:
    ∀ {done : List KeyShare} {c c' : UConn} {u : Unit}, c.heap r = .keyShare (done ++ rest) →
      Filling d start done c.keyShareKeys c.draws →
      fillKeyShares d seed r done rest (firstClassical (shareGroups done)).isSome c = .ok u c' →
        ∃ l, c'.heap r = .keyShare l ∧ shareGroups l = shareGroups done ++ shareGroups rest ∧
          Filling d start l c'.keyShareKeys c'.draws := by
  induction rest with
  | nil =>
    intro done c c' u hr hf h
    cases h
    rw [append_nil] at hr
    exact ⟨done, hr, (append_nil _).symm, hf⟩
  | cons ks rest ih =>
    intro done c c' u hr hf h
    have hassoc : ∀ ks' : KeyShare, done ++ ks' :: rest = done ++ [ks'] ++ rest := fun ks' => by
      rw [append_assoc, singleton_append]
    unfold fillKeyShares at h
    cases hg : isGREASEUint16 ks.group with
    | true =>
      rw [hg, if_pos rfl] at h
      obtain ⟨_, c1, h1, h⟩ := bind_eq_ok.mp h
      cases h1
      set ks' : KeyShare :=
        ⟨getBoringGREASEValue seed ssl_grease_group, if ks.data.length = 0 then [0] else ks.data⟩
      have hg' : isGREASEUint16 ks'.group = true := isGREASE_getBoringGREASEValue _ _
      have hgroups := shareGroups_append_of_GREASE hg' done
      rw [← hgroups] at h
      obtain ⟨l, hl, hsame, hf'⟩ := ih (c := c.store r (.keyShare (done ++ ks' :: rest)))
        (by rw [← hassoc]; exact update_self ..) (hf.grease hg') h
      refine ⟨l, hl, ?_, hf'⟩
      rw [hsame, hgroups]
      congr 1
      simp [shareGroups, hg]
    | false =>
      rw [hg, if_neg Bool.false_ne_true] at h
      obtain ⟨_, c1, h1, h⟩ := bind_eq_ok.mp h
      cases h1
      obtain ⟨out, c2, h2, h⟩ := bind_eq_ok.mp h
      obtain ⟨_, c3, h3, h⟩ := bind_eq_ok.mp h
      cases h3
      have hfilled := fillKeyShare_ok d h2
      obtain ⟨hf2, hp⟩ := hf.share hg hfilled
      rw [hp] at h
      obtain ⟨l, hl, hsame, hf'⟩ := ih
        (c := c2.store r (.keyShare (done ++ ⟨ks.group, out.1⟩ :: rest)))
        (by rw [← hassoc]; exact update_self ..) hf2 h
      refine ⟨l, hl, ?_, hf'⟩
      rw [hsame, shareGroups_append hg, append_assoc, singleton_append]
      congr 1
      simp [shareGroups, hg]

/-! ## The loop over the extensions -/

/-- The groups of a `key_share` extension. -/
def Ext.groups (e : Ext) : Option (List UInt16) := e.writtenShares.map shareGroups

/-- The curve of the kept key after the extensions were adapted: that of the first group without an
ML-KEM part in the last `key_share` extension that has one. -/
def storedCurve (l : List (Option (List UInt16))) : Option UInt16 :=
  lastValue (fun groups => groups.bind firstClassical) l

lemma storedCurve_take_succ {l : List (Option (List UInt16))} {i : Nat}
    {x : Option (List UInt16)} (h : l[i]? = some x) :
    storedCurve (l.take (i + 1)) = (x.bind firstClassical).or (storedCurve (l.take i)) :=
  lastValue_take_succ h

/-- Adapting an extension that is no `key_share` extension leaves the shares and their keys. -/
lemma ExtAdapted.shares_eq {i seen n : Nat} (ht : c.Tidy) (hi : c.extensions[i]? = some r)
    (h : ExtAdapted d i r seen c (.ok n c')) (hr : (c.heap r).writtenShares = none) :
    c'.keyShareKeys = c.keyShareKeys ∧ c'.draws = c.draws ∧
      c'.exts.map Ext.writtenShares = c.exts.map Ext.writtenShares := by
  have hshares : c'.exts.map Ext.writtenShares = c.exts.map Ext.writtenShares := by
    refine h.map_eq d ht hi fun e he => ?_
    generalize c.heap r = x at he hr
    cases he with
    | shares l l' => cases hr
    | _ => rfl
  cases h with
  | shares he _ =>
    rw [he] at hr
    cases hr
  | _ => exact ⟨rfl, rfl, hshares⟩

variable (d) in
/-- The private keys after the first `i` extensions were adapted; `groups` are the groups of all
extensions. -/
structure Settled (groups : List (Option (List UInt16))) (i : Nat) (c : UConn) : Prop where
  groups_eq : c.exts.map Ext.groups = groups
  curve : c.keyShareKeys.ecdhe.map EcdhKey.curve = storedCurve (groups.take i)
  last : ∀ l, lastValue id ((c.exts.map Ext.writtenShares).take i) = some l →
    ∃ start, Filling d start l c.keyShareKeys c.draws

lemma map_groups_of_shares (h : c'.exts.map Ext.writtenShares = c.exts.map Ext.writtenShares):
    c'.exts.map Ext.groups = c.exts.map Ext.groups := by
  have h' := congrArg (List.map (Option.map shareGroups)) h
  rwa [List.map_map, List.map_map] at h'

/-- Filling the shares of one extension leaves the groups of all of them. -/
lemma ShareStep.map_groups (h : ShareStep r c c') (hr : (c'.heap r).groups = (c.heap r).groups):
    c'.exts.map Ext.groups = c.exts.map Ext.groups := by
  obtain ⟨heap, keys, draws, rfl, hothers, -⟩ := h
  rw [UConn.exts, UConn.exts, List.map_map, List.map_map]
  refine map_congr_left fun r' _ => ?_
  by_cases hr' : r' = r
  · rw [hr']
    exact hr
  · exact congrArg Ext.groups (hothers r' hr')

lemma Settled.step {i seen n : Nat} {groups : List (Option (List UInt16))}
    (ht : c.Tidy) (hi : c.extensions[i]? = some r) (h : ExtAdapted d i r seen c (.ok n c'))
    (hs : Settled d groups i c) : Settled d groups (i + 1) c' := by
  have hat : ∀ c1 : UConn, c1.extensions[i]? = some r →
      (c1.exts.map Ext.writtenShares)[i]? = some (c1.heap r).writtenShares := by
    intro c1 h1
    rw [UConn.exts, List.map_map, getElem?_map, h1]
    rfl
  have hgroup : groups[i]? = some (c.heap r).groups := by
    rw [← hs.groups_eq, UConn.exts, List.map_map, getElem?_map, hi]
    rfl
  cases hr : (c.heap r).writtenShares with
  | none =>
    obtain ⟨hkeys, hdraws, hshares⟩ := h.shares_eq ht hi hr
    have hnone : (c.heap r).groups = none := by rw [Ext.groups, hr, map_none]
    refine ⟨(map_groups_of_shares hshares).trans hs.groups_eq, ?_, fun l hl => ?_⟩
    · rw [hkeys, hs.curve, storedCurve_take_succ hgroup, hnone]
      rfl
    · rw [hshares, lastValue_take_succ (hat c hi), hr, id, none_or] at hl
      rw [hkeys, hdraws]
      exact hs.last l hl
  | some shares =>
    cases he : c.heap r with
    | keyShare l =>
      have run : fillKeyShares d c.greaseSeed r [] l false c = .ok () c' := by
        cases h with
        | @shares l' _ he' run => exact (Ext.keyShare.inj (he'.symm.trans he)) ▸ run
        | same hsame =>
          rw [he] at hsame
          cases hsame
        | stored _ _ hl => exact absurd he (hl l)
        | grease hr _ => cases hr.symm.trans he
        | quic hr => cases hr.symm.trans he
      obtain ⟨l', hl', hsame, hf⟩ :=
        fillKeyShares_ok (by rw [nil_append]; exact he) (Filling.init _ _) run
      have hstep := (keeps_fillKeyShares d _ r _ _ _).of_ok run
      have hi' : c'.extensions[i]? = some r := by rw [hstep.extensions_eq, hi]
      have hgroups : (c.heap r).groups = some (shareGroups l) := by rw [he]; rfl
      have hgroups' : (c'.heap r).groups = (c.heap r).groups := by
        rw [hgroups, hl']
        exact congrArg some hsame
      refine ⟨(hstep.map_groups hgroups').trans hs.groups_eq, ?_, fun l1 hl1 => ?_⟩
      · rw [storedCurve_take_succ hgroup, hgroups, hf.curve, hsame, hs.curve]
        rfl
      · rw [lastValue_take_succ (hat c' hi'), hl'] at hl1
        cases hl1
        exact ⟨_, hf⟩
    | _ =>
      rw [he] at hr
      cases hr

/-- The whole loop over the extensions. -/
lemma adaptExts_settled {groups : List (Option (List UInt16))} (rs : List Ref) :
    ∀ {c c' : UConn} {i seen : Nat} {u : Unit}, c.Tidy →
      (∀ (k : Nat) (r : Ref), rs[k]? = some r → c.extensions[i + k]? = some r) →
      Settled d groups i c → adaptExts d i rs seen c = .ok u c' →
        Settled d groups (i + rs.length) c' := by
  intro c c' i seen u ht hrs hs h
  obtain ⟨_, hs'⟩ := adaptExts_induction d (P := fun i _ c => Settled d groups i c)
    (fun ht hi h1 hs => hs.step ht hi (adaptExt_ok d h1)) rs ht hrs hs h
  exact hs'

/-! ## The connection after `ApplyPreset` -/

/-- There is no inner hello yet. -/
def UConn.NoInner (c : UConn) : Prop := ∀ ctx, c.echCtx = some ctx → ctx.innerHello = none

/-- `ApplyPreset` starts without private keys. -/
lemma startPreset_keys {p : ClientHelloSpec} {u : Unit}
    (h : startPreset d p c = .ok u c') : c'.keyShareKeys = {} ∧ c'.NoInner := by
  obtain ⟨run⟩ := startPreset_run d h
  have hinner : ∀ ctx, run.made.2 = some ctx → ctx.innerHello = none := by
    obtain ⟨hello, c3, -, hfinish⟩ := bind_eq_ok.mp run.makes
    intro ctx hctx
    obtain ⟨hmade | ⟨ctx', hnone, -, hmade⟩, -⟩ := finishClientHello_ok d hfinish <;>
      rw [hmade] at hctx <;> cases hctx
    exact hnone
  rw [run.result]
  exact ⟨rfl, hinner⟩

lemma Ext.writtenShares_reset (e : Ext) (b : Bool) :
    (e.resetForReuse.setOmitEmptyPsk b).writtenShares = e.writtenShares := by
  cases e <;> rfl

/-- The private keys of a new connection after `ApplyPreset`. -/
lemma applyPreset_settled {p : ClientHelloSpec} {u : Unit} (ht : c.Tidy)
    (hp : c.Has p.extensions) (hticket : c.sessionController.sessionTicketExt = none)
    (hpsk : c.sessionController.pskExtension = none) (h : applyPreset d p c = .ok u c') :
    Settled d (p.extensions.map fun r => (c.heap r).groups) p.extensions.length c' ∧ c'.NoInner := by
  obtain ⟨run⟩ := applyPreset_run d h
  have hs := run.started
  obtain ⟨hkeys, hinner⟩ := startPreset_keys run.starts
  have hadapt := run.adapts ht hp
  have hinit : Settled d (p.extensions.map fun r => (c.heap r).groups) 0 run.c₀ := by
    refine ⟨?_, ?_, fun l hl => ?_⟩
    · rw [UConn.exts, hs.extensions, hs.heap, List.map_map]
      rfl
    · rw [hkeys]
      rfl
    · rw [take_zero] at hl
      cases hl
  have hsettled := adaptExts_settled p.extensions (run.tidy0 ht hp) run.places hinit run.loops
  rw [Nat.zero_add] at hsettled
  -- the session extensions are no `key_share` extensions
  have hshares : c'.exts.map Ext.writtenShares = run.c₁.exts.map Ext.writtenShares := by
    rw [run.exts_reset ht hp hticket hpsk, List.map_map]
    exact map_congr_left fun e _ => e.writtenShares_reset _
  have hframe := (run.synced ht hp).frame
  have hkeys' : c'.keyShareKeys = run.c₁.keyShareKeys :=
    UConn.field_of_unsynced hframe UConn.keyShareKeys
  have hdraws : c'.draws = run.c₁.draws := UConn.field_of_unsynced hframe UConn.draws
  have hctx : c'.echCtx = run.c₁.echCtx := UConn.field_of_unsynced hframe UConn.echCtx
  have hctx1 : run.c₁.echCtx = run.c₀.echCtx := hadapt.field UConn.echCtx
  refine ⟨⟨?_, ?_, fun l hl => ?_⟩, fun ctx h => hinner ctx ?_⟩
  · exact (map_groups_of_shares hshares).trans hsettled.groups_eq
  · rw [hkeys', hsettled.curve]
  · rw [hshares] at hl
    rw [hkeys', hdraws]
    exact hsettled.last l hl
  · rw [← hctx1, ← hctx, h]

end Deps

end Utls
