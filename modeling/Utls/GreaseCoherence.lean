import Utls.KeyShares

/-!
# The GREASE values of a preset

`ApplyPreset` replaces the GREASE placeholders of a specification by values that it derives from a
seed: one for each list that may hold a placeholder, and one for each of the two GREASE extensions.
`Regreased` is the invariant of the loop over the extensions, which may list one object twice.

The seed that `ApplyPreset` draws is corrected if it has one value for both GREASE extensions
(`seedOfBytes_distinct`).  The seed of a specification is taken as it is, so that the two extensions
get one type if that seed is such (`applyPreset_grease_iff`).
-/

namespace Utls

open Wire Exec List Option Function

/-! ## Values -/

/-- The values of the form 0xXAXA. -/
def IsGreaseValue (v : UInt16) : Prop := ∃ x : UInt16, x < 16 ∧ v = 0x1010 * x + 0x0A0A

/-- The value for an index is made of four bits of the seed. -/
lemma isGreaseValue_getBoringGREASEValue (seed : List UInt16) (i : Nat) :
    IsGreaseValue (getBoringGREASEValue seed i) := by
  rw [getBoringGREASEValue]
  generalize seed.getD i 0 = v
  set x : UInt16 := v >>> 4 &&& 0xf with hx
  have hnibble : v &&& (0xf0 : UInt16) = x <<< 4 := by
    refine UInt16.toBitVec_inj.mp (BitVec.eq_of_getLsbD_eq fun j hj => ?_)
    interval_cases j <;> simp [hx]
  have hlt : x < 16 := by
    exact Nat.lt_succ_of_le Nat.and_le_right
  refine ⟨x, hlt, ?_⟩
  rw [hnibble]
  have hall : ∀ n < 16, (fun ret : UInt16 => ret ||| ret <<< 8) (UInt16.ofNat n <<< 4 ||| 0x0a) =
      0x1010 * UInt16.ofNat n + 0x0A0A := by
    decide
  have hx := hall x.toNat (UInt16.lt_iff_toNat_lt.mp hlt)
  rwa [UInt16.ofNat_toNat] at hx

/-- Equal values come of seeds that agree in the fifth bit. -/
lemma getLsbD_of_boring_eq {seed seed' : List UInt16} {i j : Nat}
    (h : getBoringGREASEValue seed i = getBoringGREASEValue seed' j) :
    (seed.getD i 0).toBitVec.getLsbD 4 = (seed'.getD j 0).toBitVec.getLsbD 4 := by
  have hbit := congrArg (fun v : UInt16 => v.toBitVec.getLsbD 4) h
  simpa [getBoringGREASEValue] using hbit

/-- A drawn seed has different values for the two GREASE extensions. -/
theorem seedOfBytes_distinct (b : Bytes) :
    getBoringGREASEValue (seedOfBytes b) ssl_grease_extension1 ≠
      getBoringGREASEValue (seedOfBytes b) ssl_grease_extension2 := by
  unfold seedOfBytes
  set seed := (range ssl_grease_seed_len).map fun i =>
    UInt16.ofNat ((b.getD (2 * i) 0).toNat + 256 * (b.getD (2 * i + 1) 0).toNat) with hseed
  have hlen : seed.length = 8 := by rw [hseed, length_map, length_range]; rfl
  intro h
  dsimp only at h
  split_ifs at h with heq
  · -- the correction flips a bit of the second value
    have hfirst : (seed.set ssl_grease_extension2
        (seed.getD ssl_grease_extension2 0 ^^^ 0x1010)).getD ssl_grease_extension1 0 =
          seed.getD ssl_grease_extension1 0 := by
      rw [getD_eq_getElem?_getD, getElem?_set_ne (by decide), ← getD_eq_getElem?_getD]
    have hsecond : (seed.set ssl_grease_extension2
        (seed.getD ssl_grease_extension2 0 ^^^ 0x1010)).getD ssl_grease_extension2 0 =
          seed.getD ssl_grease_extension2 0 ^^^ 0x1010 := by
      rw [getD_eq_getElem?_getD, getElem?_set_self (by rw [hlen]; decide)]
      rfl
    have hbit := getLsbD_of_boring_eq h
    have hbit' := getLsbD_of_boring_eq heq
    rw [hfirst, hsecond, hbit'] at hbit
    simp at hbit
  · exact heq h

/-! ## Lists of values -/

/-- The list of values of an extension that may hold placeholders, with the index of their value. -/
def Ext.greaseList : Ext → Option (Nat × List UInt16)
  | .supportedCurves l => some (ssl_grease_group, l)
  | .signatureAlgorithms l => some (ssl_grease_signature_algorithm, l)
  | .supportedVersions l => some (ssl_grease_version, l)
  | .keyShare l => some (ssl_grease_group, l.map KeyShare.group)
  | _ => none

/-- The type of a GREASE extension. -/
def Ext.greaseType : Ext → Option UInt16
  | .utlsGrease value _ => some value
  | _ => none

/-- The list after its placeholders were replaced. -/
def regreased (seed : List UInt16) (l : Option (Nat × List UInt16)) : Option (Nat × List UInt16) :=
  l.map fun x => (x.1, regrease seed x.1 x.2)

lemma regrease_regrease (seed : List UInt16) (k : Nat) (l : List UInt16) :
    regrease seed k (regrease seed k l) = regrease seed k l := by
  unfold regrease
  rw [List.map_map]
  refine map_congr_left fun v _ => ?_
  rw [comp_apply]
  cases hv : isGREASEUint16 v with
  | true => rw [if_pos rfl, isGREASE_getBoringGREASEValue, if_pos rfl]
  | false => rw [if_neg Bool.false_ne_true, hv, if_neg Bool.false_ne_true]

lemma regreased_regreased (seed : List UInt16) (l : Option (Nat × List UInt16)) :
    regreased seed (regreased seed l) = regreased seed l := by
  cases l with
  | none => rfl
  | some x => exact congrArg (fun y => some (x.1, y)) (regrease_regrease seed x.1 x.2)

/-- A GREASE value of the result is the one for the list. -/
lemma eq_of_mem_regrease {seed l : List UInt16} {k : Nat} {v : UInt16} (h : v ∈ regrease seed k l)
    (hv : isGREASEUint16 v = true) : v = getBoringGREASEValue seed k := by
  obtain ⟨w, -, rfl⟩ := List.mem_map.mp h
  cases hw : isGREASEUint16 w with
  | true => exact if_pos rfl
  | false =>
    rw [hw, if_neg Bool.false_ne_true, hw] at hv
    cases hv

/-- A placeholder gives a GREASE value. -/
lemma isGreaseValue_regrease {seed l : List UInt16} {k i : Nat} {v : UInt16} (h : l[i]? = some v)
    (hv : isGREASEUint16 v = true) : ∃ w, (regrease seed k l)[i]? = some w ∧ IsGreaseValue w := by
  refine ⟨_, ?_, isGreaseValue_getBoringGREASEValue seed k⟩
  rw [regrease, getElem?_map, h, map_some, if_pos hv]

/-! ## The loop over the extensions -/

section Deps

variable {d : Deps}

variable {c c' : UConn} {r : Ref} {seed : List UInt16} {i n seen : Nat} {u : Unit} {gs : List Ref}

/-- The groups of the shares that `done` and `rest` become. -/
lemma fillKeyShares_groups {rest : List KeyShare} :
    ∀ {done : List KeyShare} {preferred : Bool} {c c' : UConn} {u : Unit},
      c.heap r = .keyShare (done ++ rest) →
      fillKeyShares d seed r done rest preferred c = .ok u c' →
        ∃ l, c'.heap r = .keyShare l ∧ l.map KeyShare.group =
          done.map KeyShare.group ++ regrease seed ssl_grease_group (rest.map KeyShare.group) := by
  induction rest with
  | nil =>
    intro done preferred c c' u hr h
    cases h
    rw [append_nil] at hr
    exact ⟨done, hr, (append_nil _).symm⟩
  | cons ks rest ih =>
    intro done preferred c c' u hr h
    unfold fillKeyShares at h
    cases hg : isGREASEUint16 ks.group with
    | true =>
      rw [hg, if_pos rfl] at h
      obtain ⟨_, _, h1, h⟩ := bind_eq_ok.mp h
      cases h1
      set ks' : KeyShare :=
        ⟨getBoringGREASEValue seed ssl_grease_group, if ks.data.length = 0 then [0] else ks.data⟩
      obtain ⟨l, hl, hgroups⟩ := ih (c := c.store r (.keyShare (done ++ ks' :: rest)))
        (by rw [append_assoc]; exact update_self ..) h
      refine ⟨l, hl, ?_⟩
      rw [hgroups, map_append, append_assoc]
      simp [regrease, hg, ks']
    | false =>
      rw [hg, if_neg Bool.false_ne_true] at h
      obtain ⟨_, _, h1, h⟩ := bind_eq_ok.mp h
      cases h1
      obtain ⟨out, c2, -, h⟩ := bind_eq_ok.mp h
      obtain ⟨_, _, h3, h⟩ := bind_eq_ok.mp h
      cases h3
      obtain ⟨l, hl, hgroups⟩ := ih
        (c := c2.store r (.keyShare (done ++ ⟨ks.group, out.1⟩ :: rest)))
        (by rw [append_assoc]; exact update_self ..) h
      refine ⟨l, hl, ?_⟩
      rw [hgroups, map_append, append_assoc]
      simp [regrease, hg]

/-- What adapting the extension at index `i` does to the lists and to the GREASE extensions:
the object at `r` has its placeholders replaced and, if it is a GREASE extension, gets the type for
the number of GREASE extensions `seen` before it. -/
structure RegreasedAt (seed : List UInt16) (i seen n : Nat) (r : Ref) (c c' : UConn) : Prop where
  next : c.nextRef ≤ c'.nextRef
  others : ∀ r' < c.nextRef, r' ≠ r → c'.heap r' = c.heap r'
  list : (c'.heap r).greaseList = regreased seed (c.heap r).greaseList
  plain : (c.heap r).greaseType = none → (c'.heap r).greaseType = none ∧ n = seen
  grease : (c.heap r).greaseType ≠ none →
    (seen = 0 ∧ n = 1 ∧
      (c'.heap r).greaseType = some (getBoringGREASEValue seed ssl_grease_extension1)) ∨
    (seen = 1 ∧ n = 2 ∧
      (c'.heap r).greaseType = some (getBoringGREASEValue seed ssl_grease_extension2))
  elsewhere : ∀ j, i ≠ j → c'.extensions[j]? = c.extensions[j]?
  place : c'.extensions[i]? = some r ∨ ((c.heap r).greaseList = none ∧ (c.heap r).greaseType = none ∧
    ∃ r', c'.extensions[i]? = some r' ∧ (c.nextRef ≤ r' ∧ r' < c'.nextRef) ∧
      (c'.heap r').greaseList = none ∧ (c'.heap r').greaseType = none)

section Step

variable {seed : List UInt16} {i seen n : Nat} {r : Ref} {c : UConn}

/-- An extension that is left alone. -/
lemma RegreasedAt.same (hi : c.extensions[i]? = some r) (hlist : (c.heap r).greaseList = none)
    (hplain : (c.heap r).greaseType = none) : RegreasedAt seed i seen seen r c c where
  next := le_rfl
  others _ _ _ := rfl
  list := by rw [hlist]; rfl
  plain _ := ⟨hplain, rfl⟩
  grease h := absurd hplain h
  elsewhere _ _ := rfl
  place := .inl hi

/-- An extension that is stored again, and is no GREASE extension. -/
lemma RegreasedAt.stored {e : Ext} (hi : c.extensions[i]? = some r)
    (hlist : e.greaseList = regreased seed (c.heap r).greaseList)
    (hplain : (c.heap r).greaseType = none) (he : e.greaseType = none) :
    RegreasedAt seed i seen seen r c (c.store r e) where
  next := le_rfl
  others _ _ hr' := update_of_ne hr' _ _
  list := (congrArg Ext.greaseList (update_self ..)).trans hlist
  plain _ := ⟨(congrArg Ext.greaseType (update_self ..)).trans he, rfl⟩
  grease h := absurd hplain h
  elsewhere _ _ := rfl
  place := .inl hi

/-- A GREASE extension. -/
lemma RegreasedAt.typed {value value' : UInt16} {body body' : Bytes}
    (hi : c.extensions[i]? = some r) (hr : c.heap r = .utlsGrease value body)
    (hvalue : (seen = 0 ∧ n = 1 ∧ value' = getBoringGREASEValue seed ssl_grease_extension1) ∨
      (seen = 1 ∧ n = 2 ∧ value' = getBoringGREASEValue seed ssl_grease_extension2)) :
    RegreasedAt seed i seen n r c (c.store r (.utlsGrease value' body')) where
  next := le_rfl
  others _ _ hr' := update_of_ne hr' _ _
  list := by
    have hself : (c.store r (.utlsGrease value' body')).heap r = .utlsGrease value' body' :=
      update_self ..
    rw [hr, hself]
    rfl
  plain h := by
    rw [hr] at h
    cases h
  grease _ := by
    have hself : (c.store r (.utlsGrease value' body')).heap r = .utlsGrease value' body' :=
      update_self ..
    rw [hself]
    rcases hvalue with ⟨hseen, hn, rfl⟩ | ⟨hseen, hn, rfl⟩
    · exact .inl ⟨hseen, hn, rfl⟩
    · exact .inr ⟨hseen, hn, rfl⟩
  elsewhere _ _ := rfl
  place := .inl hi

end Step

lemma Ext.grease_of_not_adapted {e : Ext} (h : e.isAdapted = false) :
    e.greaseList = none ∧ e.greaseType = none := by
  cases e with
  | utlsGrease | supportedCurves | signatureAlgorithms | supportedVersions | keyShare => cases h
  | _ => exact ⟨rfl, rfl⟩

lemma Ext.Adapts.greaseList_eq {e e' : Ext} (h : e.Adapts c e') (hv : ∀ v b, e ≠ .utlsGrease v b)
    (hl : ∀ l, e ≠ .keyShare l) : e'.greaseList = regreased c.greaseSeed e.greaseList ∧
      e.greaseType = none ∧ e'.greaseType = none := by
  cases h with
  | grease => exact absurd rfl (hv _ _)
  | shares => exact absurd rfl (hl _)
  | _ => exact ⟨rfl, rfl, rfl⟩

lemma adaptExt_regreasedAt (ht : c.Tidy) (hi : c.extensions[i]? = some r)
    (h : adaptExt d i r seen c = .ok n c') : RegreasedAt c.greaseSeed i seen n r c c' := by
  have hlt : r < c.nextRef := ht.extensions r (mem_of_getElem? hi)
  cases adaptExt_ok d h with
  | same hsame =>
    obtain ⟨hlist, hplain⟩ := Ext.grease_of_not_adapted hsame
    exact .same hi hlist hplain
  | stored he hv hl =>
    obtain ⟨hlist, hplain, hplain'⟩ := he.greaseList_eq hv hl
    exact .stored hi hlist hplain hplain'
  | grease hr hk =>
    refine .typed hi hr ?_
    rcases hk with ⟨hseen, hn, rfl⟩ | ⟨hseen, hn, rfl⟩
    · exact .inl ⟨hseen, hn, rfl⟩
    · exact .inr ⟨hseen, hn, rfl⟩
  | shares he run =>
    obtain ⟨l, hl, hgroups⟩ := fillKeyShares_groups (by rw [he, nil_append]) run
    rw [map_nil, nil_append] at hgroups
    obtain ⟨heap, keys, draws, rfl, hothers, -⟩ := (keeps_fillKeyShares d _ r _ _ _).of_ok run
    refine ⟨le_rfl, fun r' _ hr' => hothers r' hr', ?_, fun _ => ⟨?_, rfl⟩, fun hne => ?_,
      fun j _ => rfl, .inl hi⟩
    · rw [hl, he]
      exact congrArg (fun x => some (ssl_grease_group, x)) hgroups
    · rw [hl]
      rfl
    · rw [he] at hne
      exact absurd rfl hne
  | @quic q q' he =>
    set e : Ext := .quicTransportParameters q'
    have hold : ∀ r' < c.nextRef, (c.alloc e).heap r' = c.heap r' := fun r' hr' =>
      update_of_ne hr'.ne _ _
    have hself : (c.alloc e).heap c.nextRef = e := update_self ..
    have hset : (c.extensions.set i c.nextRef)[i]? = some c.nextRef :=
      getElem?_set_self (List.getElem?_eq_some_iff.mp hi).1
    refine ⟨Nat.le_succ _, fun r' hr' _ => hold r' hr', ?_, fun _ => ⟨?_, rfl⟩, fun hne => ?_,
      fun j hj => getElem?_set_ne hj, .inr ⟨by rw [he]; rfl, by rw [he]; rfl, c.nextRef, hset,
        ⟨le_rfl, Nat.lt_succ_self _⟩, congrArg Ext.greaseList hself, congrArg Ext.greaseType hself⟩⟩
    · exact (congrArg Ext.greaseList (hold r hlt)).trans (by rw [he]; rfl)
    · exact (congrArg Ext.greaseType (hold r hlt)).trans (by rw [he]; rfl)
    · rw [he] at hne
      exact absurd rfl hne

/-- The types of the GREASE extensions `gs` that the loop has come by; the second one may be the
object of the first. -/
def GreaseTypes (seed : List UInt16) (seen : Nat) (c : UConn) : List Ref → Prop
  | [] => seen = 0
  | [r] => seen = 1 ∧
    (c.heap r).greaseType = some (getBoringGREASEValue seed ssl_grease_extension1)
  | [r, r'] => seen = 2 ∧
    (c.heap r').greaseType = some (getBoringGREASEValue seed ssl_grease_extension2) ∧
    (r ≠ r' → (c.heap r).greaseType = some (getBoringGREASEValue seed ssl_grease_extension1))
  | _ => False

/-- The GREASE extensions of a list. -/
def UConn.greaseRefs (c : UConn) (rs : List Ref) : List Ref :=
  rs.filter fun r => (c.heap r).greaseType.isSome

/-- The loop over the extensions `rs` has come to index `i`, from the connection `c₀`. -/
structure Regreased (seed : List UInt16) (rs : List Ref) (c₀ : UConn) (i seen : Nat) (c : UConn) :
    Prop where
  seed_eq : c.greaseSeed = seed
  next : c₀.nextRef ≤ c.nextRef
  lists : ∀ r < c₀.nextRef, (c.heap r).greaseList = (c₀.heap r).greaseList ∨
    (c.heap r).greaseList = regreased seed (c₀.heap r).greaseList
  done : ∀ r ∈ rs.take i, (c.heap r).greaseList = regreased seed (c₀.heap r).greaseList
  kind : ∀ r < c₀.nextRef, (c.heap r).greaseType = none ↔ (c₀.heap r).greaseType = none
  types : GreaseTypes seed seen c (c₀.greaseRefs (rs.take i))
  ahead : ∀ j, i ≤ j → c.extensions[j]? = rs[j]?
  place : ∀ j < i, ∀ r, rs[j]? = some r → c.extensions[j]? = some r ∨
    ((c₀.heap r).greaseList = none ∧ (c₀.heap r).greaseType = none ∧
      ∃ r', c.extensions[j]? = some r' ∧ (c₀.nextRef ≤ r' ∧ r' < c.nextRef) ∧
        (c.heap r').greaseList = none ∧ (c.heap r').greaseType = none)

/-- A GREASE extension that the loop comes by. -/
lemma GreaseTypes.concat (h : GreaseTypes seed seen c gs) (hgs : ∀ g ∈ gs, g < c.nextRef)
    (hat : RegreasedAt seed i seen n r c c') (hr : (c.heap r).greaseType ≠ none) :
    GreaseTypes seed n c' (gs ++ [r]) := by
  match gs, h with
  | [], h =>
    rcases hat.grease hr with ⟨-, rfl, htype⟩ | ⟨hone, -⟩
    · exact ⟨rfl, htype⟩
    · rw [show seen = 0 from h] at hone
      cases hone
  | [g], h =>
    rcases hat.grease hr with ⟨hzero, -⟩ | ⟨-, rfl, htype⟩
    · rw [h.1] at hzero
      cases hzero
    · refine ⟨rfl, htype, fun hne => ?_⟩
      rw [hat.others g (hgs g (mem_singleton_self g)) hne]
      exact h.2
  | [g, g'], h =>
    rcases hat.grease hr with ⟨hzero, -⟩ | ⟨hone, -⟩
    · rw [h.1] at hzero
      cases hzero
    · rw [h.1] at hone
      cases hone

/-- An extension of another kind that the loop comes by. -/
lemma GreaseTypes.keep (h : GreaseTypes seed seen c gs) (hgs : ∀ g ∈ gs, g < c.nextRef ∧ g ≠ r)
    (hat : RegreasedAt seed i seen n r c c') (hr : (c.heap r).greaseType = none) :
    GreaseTypes seed n c' gs := by
  have hkeep : ∀ g ∈ gs, c'.heap g = c.heap g := fun g hg => hat.others g (hgs g hg).1 (hgs g hg).2
  rw [(hat.plain hr).2]
  match gs, h with
  | [], h => exact h
  | [g], h => exact ⟨h.1, by rw [hkeep g (by simp), h.2]⟩
  | [g, g'], h =>
    exact ⟨h.1, by rw [hkeep g' (by simp), h.2.1], fun hne => by rw [hkeep g (by simp), h.2.2 hne]⟩

lemma Regreased.step {rs : List Ref} {c₀ : UConn}
    (hrs : ∀ r ∈ rs, r < c₀.nextRef) (hi : c.extensions[i]? = some r)
    (hat : RegreasedAt seed i seen n r c c') (hseed : c'.greaseSeed = c.greaseSeed)
    (h : Regreased seed rs c₀ i seen c) : Regreased seed rs c₀ (i + 1) n c' := by
  have hir : rs[i]? = some r := by rw [← h.ahead i le_rfl, hi]
  have hr0 : r < c₀.nextRef := hrs r (mem_of_getElem? hir)
  have htake : rs.take (i + 1) = rs.take i ++ [r] := by
    rw [take_add_one, hir]
    rfl
  have hlist : (c'.heap r).greaseList = regreased seed (c₀.heap r).greaseList := by
    rw [hat.list]
    rcases h.lists r hr0 with heq | heq
    · rw [heq]
    · rw [heq, regreased_regreased]
  have hothers : ∀ q < c₀.nextRef, q ≠ r → c'.heap q = c.heap q :=
    fun q hq hne => hat.others q (hq.trans_le h.next) hne
  have hkind : (c'.heap r).greaseType = none ↔ (c₀.heap r).greaseType = none := by
    rw [← h.kind r hr0]
    refine ⟨fun hnone => ?_, fun hnone => (hat.plain hnone).1⟩
    by_contra hne
    rcases hat.grease hne with ⟨-, -, htype⟩ | ⟨-, -, htype⟩
    all_goals
      rw [htype] at hnone
      cases hnone
  have hdone : ∀ q ∈ rs.take i, q < c.nextRef :=
    fun q hq => (hrs q (mem_of_mem_take hq)).trans_le h.next
  refine ⟨hseed.trans h.seed_eq, h.next.trans hat.next, fun q hq => ?_, fun q hq => ?_,
    fun q hq => ?_, ?_, fun j hj => ?_, fun j hj q hq => ?_⟩
  · by_cases hqr : q = r
    · rw [hqr]
      exact .inr hlist
    · rw [hothers q hq hqr]
      exact h.lists q hq
  · by_cases hqr : q = r
    · rw [hqr, hlist]
    · rw [htake, mem_append, mem_singleton] at hq
      have hq := hq.resolve_right hqr
      rw [hothers q (hrs q (mem_of_mem_take hq)) hqr, h.done q hq]
  · by_cases hqr : q = r
    · rw [hqr, hkind]
    · rw [hothers q hq hqr, h.kind q hq]
  · rw [htake, UConn.greaseRefs, filter_append]
    cases htype : (c₀.heap r).greaseType with
    | none =>
      have hnone : (c.heap r).greaseType = none := (h.kind r hr0).mpr htype
      rw [filter_cons_of_neg (by rw [htype]; exact Bool.false_ne_true), filter_nil, append_nil]
      refine h.types.keep (fun g hg => ⟨hdone g (mem_of_mem_filter hg), ?_⟩) hat hnone
      rintro rfl
      have hsome := of_mem_filter hg
      rw [htype] at hsome
      cases hsome
    | some v =>
      have hsome : (c.heap r).greaseType ≠ none := by
        rw [Ne, h.kind r hr0, htype]
        exact some_ne_none v
      rw [filter_cons_of_pos (by rw [htype]; rfl), filter_nil]
      exact h.types.concat (fun g hg => hdone g (mem_of_mem_filter hg)) hat hsome
  · rw [hat.elsewhere j (by omega), h.ahead j (by omega)]
  · rcases Nat.lt_succ_iff_lt_or_eq.mp hj with hj | rfl
    · rw [hat.elsewhere j (by omega)]
      rcases h.place j hj q hq with hsame | ⟨hl, ht, r', hr', ⟨hge, hlt⟩, hl', ht'⟩
      · exact .inl hsame
      · have hkeep : c'.heap r' = c.heap r' := hat.others r' hlt (hr0.trans_le hge).ne'
        exact .inr ⟨hl, ht, r', hr', ⟨hge, hlt.trans_le hat.next⟩, by rw [hkeep, hl'],
          by rw [hkeep, ht']⟩
    · rw [hir] at hq
      cases hq
      rcases hat.place with hsame | ⟨hl, ht, r', hr', ⟨hge, hlt⟩, hl', ht'⟩
      · exact .inl hsame
      · have hl0 : (c₀.heap r).greaseList = none := by
          rcases h.lists r hr0 with heq | heq
          · rw [← heq, hl]
          · rw [heq] at hl
            cases hx : (c₀.heap r).greaseList with
            | none => rfl
            | some x =>
              rw [hx] at hl
              cases hl
        exact .inr ⟨hl0, (h.kind r hr0).mp ht, r', hr', ⟨h.next.trans hge, hlt⟩, hl', ht'⟩

/-- The whole loop. -/
lemma adaptExts_regreased {rs : List Ref} (ht : c.Tidy) (hrs : c.extensions = rs)
    (h : adaptExts d 0 rs 0 c = .ok u c') : ∃ n, Regreased c.greaseSeed rs c rs.length n c' := by
  subst hrs
  have hinit : Regreased c.greaseSeed c.extensions c 0 0 c :=
    ⟨rfl, le_rfl, fun _ _ => .inl rfl, fun r hr => by simp at hr, fun _ _ => Iff.rfl, rfl,
      fun _ _ => rfl, fun j hj => absurd hj (Nat.not_lt_zero j)⟩
  obtain ⟨n, hn⟩ := adaptExts_induction d
    (fun {i seen n r c1 c2} ht1 hi h1 hP => by
      have hat := adaptExt_regreasedAt ht1 hi h1
      rw [hP.seed_eq] at hat
      have hstep := adaptStep_adaptExt d seen (ht1.extensions r (mem_of_getElem? hi)) hi
      rw [h1] at hstep
      exact hP.step ht.extensions hi hat (hstep.field UConn.greaseSeed))
    c.extensions ht (fun k r hk => by rw [Nat.zero_add, hk]) hinit h
  rw [Nat.zero_add] at hn
  exact ⟨n, hn⟩

/-! ## The rest of `ApplyPreset` -/

/-- The extension, if it is no session extension. -/
def Ext.plain (e : Ext) : Option Ext := if e.sessionKind = (false, false) then some e else none

lemma Ext.plain_of_ticket {e : Ext} (h : e.isSessionTicket = true) : e.plain = none := by
  rw [Ext.plain, Ext.sessionKind, h, if_neg (by simp)]

lemma Ext.plain_of_psk {e : Ext} (h : e.isPreSharedKey = true) : e.plain = none := by
  rw [Ext.plain, Ext.sessionKind, h, if_neg (by simp)]

lemma syncTicketExt_plain (ht : c.Tidy)
    (hi : c.extensions[i]? = some r) (hr : (c.heap r).isSessionTicket = true)
    (h : syncTicketExt i r c = .ok u c') : c'.exts.map Ext.plain = c.exts.map Ext.plain := by
  rw [syncTicketExt, run_get_bind] at h
  cases hs : c.sessionController.sessionTicketExt with
  | none =>
    rw [hs] at h
    cases h
    rfl
  | some r' =>
    rw [hs] at h
    cases h
    simp only [UConn.exts, List.map_map]
    exact map_set_of_eq _ hi
      ((Ext.plain_of_ticket (ht.ticket r' hs).2).trans (Ext.plain_of_ticket hr).symm)

lemma syncPskExt_plain (ht : c.Tidy)
    (hi : c.extensions[i]? = some r) (hr : (c.heap r).isPreSharedKey = true)
    (h : syncPskExt i r c = .ok u c') : c'.exts.map Ext.plain = c.exts.map Ext.plain := by
  have hreset : ∀ {e : Ext} (b : Bool), e.isPreSharedKey = true →
      (e.setOmitEmptyPsk b).plain = none ∧ (e.resetForReuse.setOmitEmptyPsk b).plain = none := by
    intro e b he
    have hkind : e.sessionKind ≠ (false, false) := by simp [Ext.sessionKind, he]
    refine ⟨?_, ?_⟩
    · rw [Ext.plain, Ext.sessionKind_setOmitEmptyPsk, if_neg hkind]
    · rw [Ext.plain, Ext.sessionKind_setOmitEmptyPsk, Ext.sessionKind_resetForReuse, if_neg hkind]
  rw [syncPskExt, run_get_bind] at h
  cases hs : c.sessionController.pskExtension with
  | none =>
    rw [hs] at h
    cases h
    simp only [UConn.exts, List.map_map]
    exact map_congr_left fun q _ =>
      UConn.store_same _ ((hreset _ hr).2.trans (Ext.plain_of_psk hr).symm) q
  | some r' =>
    rw [hs] at h
    cases h
    have hr' : (c.heap r').isPreSharedKey = true := (ht.psk r' hs).2
    simp only [UConn.exts, List.map_map]
    refine Eq.trans (map_congr_left fun q _ => ?_)
      (map_set_of_eq _ hi ((Ext.plain_of_psk hr').trans (Ext.plain_of_psk hr).symm))
    exact UConn.store_same _ ((hreset _ hr').1.trans (Ext.plain_of_psk hr').symm) q

/-- The session controller replaces session extensions by session extensions only. -/
lemma syncSessionExts_plain (ht : c.Tidy)
    (h : syncSessionExts c = .ok u c') : c'.exts.map Ext.plain = c.exts.map Ext.plain := by
  have hi : ∀ {done rest : List Ref} {r : Ref} {n : Nat} {b : Bool} {c1 : UConn},
      Syncing c done (r :: rest) n b c1 → c1.extensions[done.length]? = some r := fun hs => by
    rw [hs.exts]
    simp
  obtain ⟨-, n, b, done, c1, hplain, -, hend⟩ := syncSessionExts_run
    ⟨fun hs hr h1 hP => (syncTicketExt_plain hs.tidy (hi hs) hr h1).trans hP,
      fun hs hr h1 hP => (syncPskExt_plain hs.tidy (hi hs) hr h1).trans hP⟩ ht rfl h
  rw [hend.exts, hplain]

/-- The connection after `ApplyPreset`. -/
lemma applyPreset_regreased {p : ClientHelloSpec} (ht : c.Tidy)
    (hp : c.Has p.extensions) (h : applyPreset d p c = .ok u c') :
    ∃ c1 seed n, Regreased seed p.extensions c p.extensions.length n c1 ∧
      c1.extensions.length = p.extensions.length ∧
      c'.exts.map Ext.plain = c1.exts.map Ext.plain ∧
      c'.hello.cipherSuites = regrease seed ssl_grease_cipher p.cipherSuites ∧
      ((p.greaseSeed.any (· ≠ 0)) = true ∧ seed = p.greaseSeed ∨
        (p.greaseSeed.any (· ≠ 0)) = false ∧ ∃ b, seed = seedOfBytes b) := by
  obtain ⟨run⟩ := applyPreset_run d h
  obtain ⟨start⟩ := startPreset_run d run.starts
  have hs := run.started
  have hadapt := run.adapts ht hp
  obtain ⟨n, hn⟩ := adaptExts_regreased (run.tidy0 ht hp) hs.extensions run.loops
  have hseed : run.c₀.greaseSeed = start.seed := congrArg UConn.greaseSeed start.result
  have hsuites0 : run.c₀.hello.cipherSuites =
      regrease run.c₀.greaseSeed ssl_grease_cipher p.cipherSuites := by
    rw [hseed]
    exact congrArg (fun c => c.hello.cipherSuites) start.result
  have hsuites : c'.hello.cipherSuites = run.c₀.hello.cipherSuites :=
    (UConn.field_of_unsynced (run.synced ht hp).frame fun c => c.hello.cipherSuites).trans
      (hadapt.field fun c => c.hello.cipherSuites)
  have hplain := syncSessionExts_plain (run.tidy1 ht hp) run.syncs
  refine ⟨run.c₁, run.c₀.greaseSeed, n, ?_, ?_, hplain, hsuites.trans hsuites0, hseed ▸ start.seeds⟩
  · -- the loop starts with the objects of `c`
    have hheap := hs.heap
    have hnext := hs.next
    refine ⟨hn.seed_eq, hnext ▸ hn.next, ?_, ?_, ?_, ?_, hn.ahead, ?_⟩
    · rw [← hheap, ← hnext]
      exact hn.lists
    · rw [← hheap]
      exact hn.done
    · rw [← hheap, ← hnext]
      exact hn.kind
    · rw [UConn.greaseRefs, ← hheap]
      exact hn.types
    · rw [← hheap, ← hnext]
      exact hn.place
  · rw [hadapt.length, hs.extensions]

lemma Ext.greaseList_eq_plain (e : Ext) : e.greaseList = e.plain.bind Ext.greaseList := by
  cases e <;> rfl

lemma Ext.greaseType_eq_plain (e : Ext) : e.greaseType = e.plain.bind Ext.greaseType := by
  cases e <;> rfl

section Finished

variable {seed : List UInt16} {rs : List Ref} {c₀ c c' : UConn} {n : Nat}
  (h : Regreased seed rs c₀ rs.length n c) (hlen : c.extensions.length = rs.length)
  (hplain : c'.exts.map Ext.plain = c.exts.map Ext.plain)
include h hlen hplain

/-- The lists of all extensions. -/
lemma Regreased.map_greaseList :
    c'.exts.map Ext.greaseList = rs.map fun r => regreased seed (c₀.heap r).greaseList := by
  have hview : ∀ x : UConn, x.exts.map Ext.greaseList =
      (x.exts.map Ext.plain).map (·.bind Ext.greaseList) := by
    intro x
    rw [List.map_map]
    exact map_congr_left fun e _ => e.greaseList_eq_plain
  rw [hview, hplain, ← hview, UConn.exts, List.map_map]
  refine ext_getElem? fun j => ?_
  rw [getElem?_map, getElem?_map]
  cases hj : rs[j]? with
  | none =>
    rw [List.getElem?_eq_none_iff] at hj
    rw [getElem?_eq_none (hlen ▸ hj)]
    rfl
  | some r =>
    have hlt : j < rs.length := (List.getElem?_eq_some_iff.mp hj).1
    have hdone := h.done r (by rw [take_length]; exact mem_of_getElem? hj)
    rcases h.place j hlt r hj with hr | ⟨hl, -, r', hr', -, hl', -⟩
    · rw [hr]
      exact congrArg some hdone
    · rw [hr', map_some, map_some, hl]
      exact congrArg some hl'

/-- The types of the GREASE extensions. -/
lemma Regreased.greaseTypes (hrs : ∀ r ∈ rs, r < c₀.nextRef) :
    c'.exts.filterMap Ext.greaseType =
      (c₀.greaseRefs rs).filterMap fun r => (c.heap r).greaseType := by
  have hview : ∀ x : UConn, x.exts.filterMap Ext.greaseType =
      (x.exts.map Ext.plain).filterMap (·.bind Ext.greaseType) := by
    intro x
    rw [filterMap_map]
    exact filterMap_congr fun e _ => e.greaseType_eq_plain
  -- the places are those of `rs`, up to extensions that are none
  have hplaces : c.extensions.map (fun r => (c.heap r).greaseType) =
      rs.map fun r => (c.heap r).greaseType := by
    refine ext_getElem? fun j => ?_
    rw [getElem?_map, getElem?_map]
    cases hj : rs[j]? with
    | none =>
      rw [List.getElem?_eq_none_iff] at hj
      rw [getElem?_eq_none (hlen ▸ hj)]
    | some r =>
      have hlt : j < rs.length := (List.getElem?_eq_some_iff.mp hj).1
      rcases h.place j hlt r hj with hr | ⟨-, htype, r', hr', -, -, htype'⟩
      · rw [hr]
      · have hnone := (h.kind r (hrs r (mem_of_getElem? hj))).mpr htype
        rw [hr', map_some, map_some, htype', hnone]
  have hid : ∀ l : List Ref, l.filterMap (fun r => (c.heap r).greaseType) =
      (l.map fun r => (c.heap r).greaseType).filterMap id := by
    intro l
    rw [filterMap_map]
    rfl
  rw [hview, hplain, ← hview, UConn.exts, filterMap_map]
  calc c.extensions.filterMap (Ext.greaseType ∘ c.heap)
      = rs.filterMap fun r => (c.heap r).greaseType := by
        rw [hid rs, ← hplaces, ← hid]
        rfl
    _ = (c₀.greaseRefs rs).filterMap fun r => (c.heap r).greaseType := by
        rw [UConn.greaseRefs, filterMap_filter]
        refine filterMap_congr fun r hr => ?_
        cases htype : (c₀.heap r).greaseType with
        | none => exact (h.kind r (hrs r hr)).mpr htype
        | some v => rfl

end Finished

/-! ## Coherence -/

/-- The GREASE values of the connection `c'` after a specification was applied to `c`: where the
specification has a placeholder there is a value of the form 0xXAXA, the key shares and the
supported groups have the same one, and no two GREASE extensions are of one type. -/
structure GreaseCoherent (p : ClientHelloSpec) (c c' : UConn) : Prop where
  ciphers : ∀ (i : Nat) (v : UInt16), p.cipherSuites[i]? = some v → isGREASEUint16 v = true →
    ∃ w, c'.hello.cipherSuites[i]? = some w ∧ IsGreaseValue w
  lists : ∀ (i : Nat) (r : Ref) (k : Nat) (l : List UInt16), p.extensions[i]? = some r →
    (c.heap r).greaseList = some (k, l) →
      ∃ e l', c'.exts[i]? = some e ∧ e.greaseList = some (k, l') ∧
        ∀ (j : Nat) (v : UInt16), l[j]? = some v → isGREASEUint16 v = true →
          ∃ w, l'[j]? = some w ∧ IsGreaseValue w
  types : ∀ v ∈ c'.exts.filterMap Ext.greaseType, IsGreaseValue v
  groups : ∀ shares curves, .keyShare shares ∈ c'.exts → .supportedCurves curves ∈ c'.exts →
    ∀ ks ∈ shares, ∀ v ∈ curves, isGREASEUint16 ks.group = true → isGREASEUint16 v = true →
      ks.group = v
  distinct : (c'.exts.filterMap Ext.greaseType).Nodup

/-- The two GREASE extensions of a specification, if it has two, are two objects, and its seed, if it
has one, has a value for each of them. -/
def GreaseApart (p : ClientHelloSpec) (c : UConn) : Prop :=
  ∀ r r', c.greaseRefs p.extensions = [r, r'] → r ≠ r' ∧
    ((p.greaseSeed.any (· ≠ 0)) = false ∨
      getBoringGREASEValue p.greaseSeed ssl_grease_extension1 ≠
        getBoringGREASEValue p.greaseSeed ssl_grease_extension2)

/-- The types of the GREASE extensions, in their order: an object that is listed twice has the type of
the second. -/
def greaseTypeList (seed : List UInt16) : List Ref → List UInt16
  | [] => []
  | [_] => [getBoringGREASEValue seed ssl_grease_extension1]
  | r :: r' :: _ =>
    [getBoringGREASEValue seed (if r = r' then ssl_grease_extension2 else ssl_grease_extension1),
      getBoringGREASEValue seed ssl_grease_extension2]

lemma isGreaseValue_of_mem {v : UInt16} (h : v ∈ greaseTypeList seed gs): IsGreaseValue v := by
  match gs, h with
  | [_], h =>
    rw [mem_singleton.mp h]
    exact isGreaseValue_getBoringGREASEValue _ _
  | _ :: _ :: _, h =>
    rcases mem_cons.mp h with rfl | h
    · exact isGreaseValue_getBoringGREASEValue _ _
    · rw [mem_singleton.mp h]
      exact isGreaseValue_getBoringGREASEValue _ _

lemma GreaseTypes.filterMap_eq (h : GreaseTypes seed seen c gs):
    (gs.filterMap fun r => (c.heap r).greaseType) = greaseTypeList seed gs := by
  match gs, h with
  | [], _ => rfl
  | [r], h => simp [greaseTypeList, h.2]
  | [r, r'], h =>
    by_cases hr : r = r'
    · subst hr
      simp [greaseTypeList, h.2.1]
    · simp [greaseTypeList, h.2.1, h.2.2 hr, hr]

/-- The two types are different unless the specification names one object twice or has a seed with
one value for both. -/
lemma nodup_greaseTypes_iff {p : ClientHelloSpec} {c1 : UConn}
    (h : GreaseTypes seed n c1 (c.greaseRefs p.extensions))
    (hseed : (p.greaseSeed.any (· ≠ 0)) = true ∧ seed = p.greaseSeed ∨
      (p.greaseSeed.any (· ≠ 0)) = false ∧ ∃ b, seed = seedOfBytes b) :
    ((c.greaseRefs p.extensions).filterMap fun r => (c1.heap r).greaseType).Nodup ↔
      GreaseApart p c := by
  have happart : getBoringGREASEValue seed ssl_grease_extension1 ≠
        getBoringGREASEValue seed ssl_grease_extension2 ↔
      ((p.greaseSeed.any (· ≠ 0)) = false ∨
        getBoringGREASEValue p.greaseSeed ssl_grease_extension1 ≠
          getBoringGREASEValue p.greaseSeed ssl_grease_extension2) := by
    rcases hseed with ⟨hany, rfl⟩ | ⟨hany, b, rfl⟩
    · rw [hany]
      simp
    · rw [hany]
      simp only [true_or, iff_true]
      exact seedOfBytes_distinct b
  rw [h.filterMap_eq]
  unfold GreaseApart
  match hgs : c.greaseRefs p.extensions, h with
  | [], _ => simp [greaseTypeList]
  | [r], _ => simp [greaseTypeList]
  | [r, r'], _ =>
    rw [← happart]
    by_cases hr : r = r'
    · simp [greaseTypeList, hr]
    · simp [greaseTypeList, hr]

/-- The GREASE values of a specification that `ApplyPreset` accepts are coherent exactly if its two
GREASE extensions are kept apart. -/
theorem applyPreset_grease_iff {p : ClientHelloSpec} {c c' : UConn} {u : Unit} (ht : c.Tidy)
    (hp : c.Has p.extensions) (h : applyPreset d p c = .ok u c') :
    GreaseCoherent p c c' ↔ GreaseApart p c := by
  obtain ⟨c1, seed, n, hre, hlen, hplain, hsuites, hseed⟩ := applyPreset_regreased ht hp h
  have hlists := hre.map_greaseList hlen hplain
  have htypes := hre.greaseTypes hlen hplain hp
  have hgs := hre.types
  rw [take_length] at hgs
  have hdistinct := nodup_greaseTypes_iff hgs hseed
  rw [← htypes] at hdistinct
  refine ⟨fun hco => hdistinct.mp hco.distinct, fun hapart => ?_⟩
  -- the list of each extension is that of the specification, with its placeholders replaced
  have hlist : ∀ {i : Nat} {e : Ext}, c'.exts[i]? = some e →
      ∃ r, p.extensions[i]? = some r ∧ e.greaseList = regreased seed (c.heap r).greaseList := by
    intro i e he
    have hi := congrArg (fun l => l[i]?) hlists
    simp only [getElem?_map, he, map_some] at hi
    obtain ⟨r, hr, heq⟩ := map_eq_some_iff.mp hi.symm
    exact ⟨r, hr, heq.symm⟩
  have hgrease : ∀ {e : Ext} {l : List UInt16}, e ∈ c'.exts → e.greaseList = some (ssl_grease_group, l) →
      ∀ v ∈ l, isGREASEUint16 v = true → v = getBoringGREASEValue seed ssl_grease_group := by
    intro e l he hl v hv hg
    obtain ⟨i, hi⟩ := getElem?_of_mem he
    obtain ⟨r, -, hr⟩ := hlist hi
    rw [hl] at hr
    cases hx : (c.heap r).greaseList with
    | none =>
      rw [hx] at hr
      cases hr
    | some x =>
      rw [hx] at hr
      obtain ⟨hk, rfl⟩ := Prod.mk.injEq .. ▸ some.inj hr
      rw [hk]
      exact eq_of_mem_regrease hv hg
  refine ⟨fun i v hv hg => ?_, fun i r k l hr hl => ?_, fun v hv => ?_, ?_, hdistinct.mpr hapart⟩
  · rw [hsuites]
    exact isGreaseValue_regrease hv hg
  · have hlt : i < c'.exts.length := by
      have hlen' := congrArg List.length hlists
      rw [length_map, length_map] at hlen'
      rw [hlen']
      exact (List.getElem?_eq_some_iff.mp hr).1
    obtain ⟨r', hr', he⟩ := hlist (getElem?_eq_getElem hlt)
    rw [hr] at hr'
    cases hr'
    rw [hl] at he
    exact ⟨_, _, getElem?_eq_getElem hlt, he, fun j v => isGreaseValue_regrease⟩
  · rw [htypes, hgs.filterMap_eq] at hv
    exact isGreaseValue_of_mem hv
  · intro shares curves hshares hcurves ks hks v hv hg hg'
    rw [hgrease hshares rfl ks.group (List.mem_map_of_mem hks) hg, hgrease hcurves rfl v hv hg']

end Deps

/-- A GREASE extension first and last, and placeholders in the lists between them. -/
def greaseSpecExts : Ref → Ext
  | 0 => .utlsGrease 0 []
  | 1 => .supportedCurves [0x0A0A, X25519]
  | 2 => .keyShare [⟨0x0A0A, [0]⟩]
  | 3 => .supportedVersions [0x0A0A, VersionTLS13]
  | _ => .utlsGrease 0 []

def greaseSpec (seed : List UInt16) : ClientHelloSpec where
  cipherSuites := [0x0A0A, 0x1301]
  extensions := [0, 1, 2, 3, 4]
  tlsVersMin := VersionTLS13
  tlsVersMax := VersionTLS13
  greaseSeed := seed

def greaseStart : UConn := uClient greaseSpecExts 5 { serverName := [0x61] } {} .custom

/-- A seed with the same value everywhere gives both GREASE extensions the type 0x0A0A. -/
theorem grease_collides :
    ∃ c', applyPreset .sample (greaseSpec [1, 1, 1, 1, 1, 1, 1, 1]) greaseStart = .ok () c' ∧
      c'.exts.filterMap Ext.greaseType = [0x0A0A, 0x0A0A] ∧
      ¬GreaseCoherent (greaseSpec [1, 1, 1, 1, 1, 1, 1, 1]) greaseStart c' := by
  have hpreset := eq_ok_of_returns (show returns (applyPreset .sample
    (greaseSpec [1, 1, 1, 1, 1, 1, 1, 1]) greaseStart) = true by decide +kernel)
  have htypes : (endState (applyPreset .sample (greaseSpec [1, 1, 1, 1, 1, 1, 1, 1])
      greaseStart)).exts.filterMap Ext.greaseType = [0x0A0A, 0x0A0A] := by
    decide +kernel
  refine ⟨_, hpreset, htypes, fun h => ?_⟩
  have hnodup := h.distinct
  rw [htypes] at hnodup
  revert hnodup
  decide

/-- Without a seed of its own the specification is coherent. -/
theorem grease_apart :
    ∃ c', applyPreset .sample (greaseSpec []) greaseStart = .ok () c' ∧
      GreaseCoherent (greaseSpec []) greaseStart c' := by
  have hpreset := eq_ok_of_returns (show returns (applyPreset .sample (greaseSpec [])
    greaseStart) = true by decide +kernel)
  have hhas : ∀ r ∈ (greaseSpec []).extensions, r < 5 := by decide
  have htidy : greaseStart.Tidy :=
    tidy_uClient (fun r _ => by unfold greaseSpecExts; split <;> trivial) _ _ _
  refine ⟨_, hpreset, (applyPreset_grease_iff htidy hhas hpreset).mpr ?_⟩
  intro r r' hr
  have hrefs : greaseStart.greaseRefs (greaseSpec []).extensions = [0, 4] := by decide
  rw [hrefs] at hr
  cases hr
  exact ⟨by decide, .inl rfl⟩

end Utls
