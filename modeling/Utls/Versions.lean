import Utls.Preset

/-!
# The versions of a specification

`SetTLSVers` takes the two bounds of a specification, or looks for them in its extensions, checks
each of them, and stores all versions in between.  It does not compare the bounds with each other.
The number of versions is a sixteen-bit difference, so bounds in the wrong order give a list of
almost all sixteen-bit values.
-/

namespace Utls

open Wire Exec List

/-! ## The range of a list -/

/-- The smaller bound that is found in a list of versions is not above the larger one. -/
lemma versionRange_ordered (versions : List UInt16) :
    (versionRange versions).1 ≤ (versionRange versions).2 := by
  have hfold : ∀ (l : List UInt16) (r : UInt16 × UInt16), r.1 ≤ r.2 →
      (l.foldl (fun r v => (if r.1 > v ∨ r.1 = 0 then v else r.1,
        if r.2 < v ∨ r.2 = 0 then v else r.2)) r).1 ≤
      (l.foldl (fun r v => (if r.1 > v ∨ r.1 = 0 then v else r.1,
        if r.2 < v ∨ r.2 = 0 then v else r.2)) r).2 := by
    intro l
    induction l with
    | nil => exact fun r hr => hr
    | cons v l ih =>
      rintro ⟨lo, hi⟩ hr
      refine ih _ ?_
      -- a bound that is not replaced is on its side of `v`
      dsimp only at hr ⊢
      split_ifs with h1 h2 h2
      · exact UInt16.le_refl v
      · exact UInt16.not_lt.mp fun hlt => h2 (.inl hlt)
      · exact UInt16.not_lt.mp fun hlt => h1 (.inl hlt)
      · exact hr
  exact hfold _ (0, 0) (UInt16.le_refl 0)

/-! ## All versions between two bounds -/

/-- The list holds all versions from `hi` down to `lo`, which are versions of the package. -/
structure VersionsBetween (lo hi : UInt16) (l : List UInt16) : Prop where
  lower : VersionTLS10 ≤ lo
  ordered : lo ≤ hi
  upper : hi ≤ VersionTLS13
  nonempty : l ≠ []
  descending : l.Pairwise (· > ·)
  all : ∀ v, v ∈ l ↔ lo ≤ v ∧ v ≤ hi

section Between

variable {lo hi : UInt16}

/-- Within the range of the package the number of versions does not wrap around. -/
lemma toNat_numVersions (h : lo ≤ hi) (hhi : hi ≤ VersionTLS13) :
    (hi - lo + 1).toNat = hi.toNat - lo.toNat + 1 := by
  have hle : lo.toNat ≤ hi.toNat := h
  have hup : hi.toNat ≤ 772 := hhi
  have hsub : (hi - lo).toNat = hi.toNat - lo.toNat := UInt16.toNat_sub_of_le _ _ h
  rw [UInt16.toNat_add, hsub, UInt16.toNat_one]
  omega

lemma toNat_version {i : Nat} (hhi : hi ≤ VersionTLS13) (hi' : i ≤ hi.toNat) :
    (hi - UInt16.ofNat i).toNat = hi.toNat - i := by
  have hup : hi.toNat ≤ 772 := hhi
  have hi1 : (UInt16.ofNat i).toNat = i := UInt16.toNat_ofNat_of_lt' (by
    simp only [UInt16.size]
    omega)
  have hle : UInt16.ofNat i ≤ hi := by
    rw [UInt16.le_iff_toNat_le, hi1]
    exact hi'
  rw [UInt16.toNat_sub_of_le _ _ hle, hi1]

lemma makeSupportedVersions_between (hlo : VersionTLS10 ≤ lo) (h : lo ≤ hi)
    (hhi : hi ≤ VersionTLS13) : VersionsBetween lo hi (makeSupportedVersions lo hi) := by
  have hle : lo.toNat ≤ hi.toNat := h
  have hn := toNat_numVersions h hhi
  refine ⟨hlo, h, hhi, ?_, ?_, fun v => ?_⟩
  · intro hnil
    have hlen := congrArg List.length hnil
    rw [makeSupportedVersions, length_map, length_range, hn] at hlen
    simp at hlen
  · rw [makeSupportedVersions, hn, pairwise_map]
    refine pairwise_lt_range.imp_of_mem fun {i j} hi hj hij => ?_
    have hi := mem_range.mp hi
    have hj := mem_range.mp hj
    change (_ : UInt16) < _
    rw [UInt16.lt_iff_toNat_lt, toNat_version hhi (by omega), toNat_version hhi (by omega)]
    omega
  · rw [makeSupportedVersions, hn, List.mem_map]
    constructor
    · rintro ⟨i, hi, rfl⟩
      have hi := mem_range.mp hi
      rw [UInt16.le_iff_toNat_le, UInt16.le_iff_toNat_le, toNat_version hhi (by omega)]
      omega
    · rintro ⟨hlov, hvhi⟩
      have hlov : lo.toNat ≤ v.toNat := hlov
      have hvhi : v.toNat ≤ hi.toNat := hvhi
      refine ⟨hi.toNat - v.toNat, mem_range.mpr (by omega), ?_⟩
      rw [← UInt16.toNat_inj, toNat_version hhi (by omega)]
      omega

end Between

/-! ## `SetTLSVers` -/

/-- The bounds that `SetTLSVers` goes on with: those of the specification or, if both are zero, those
of its extensions. -/
def specVersions (minTLSVers maxTLSVers : UInt16) (exts : List Ext) :
    Except Err (UInt16 × UInt16) :=
  if minTLSVers = 0 ∧ maxTLSVers = 0 then rangeOfExtensions exts else .ok (minTLSVers, maxTLSVers)

/-- Bounds that come from the extensions are in order. -/
lemma rangeOfExtensions_ordered {exts : List Ext} {r : UInt16 × UInt16}
    (h : rangeOfExtensions exts = .ok r) : r.1 ≤ r.2 := by
  unfold rangeOfExtensions at h
  split_ifs at h
  split at h
  · cases h
    decide
  · cases h
    exact versionRange_ordered _
  · cases h

lemma checkRange_eq_ok {r : UInt16 × UInt16} {u : Unit} (h : checkRange r = .ok u) :
    (VersionTLS10 ≤ r.1 ∧ r.1 ≤ VersionTLS13) ∧ VersionTLS10 ≤ r.2 ∧ r.2 ≤ VersionTLS13 := by
  unfold checkRange at h
  split_ifs at h with h1 h2
  simp only [not_or, UInt16.not_lt, gt_iff_lt] at h1 h2
  exact ⟨h1, h2⟩

/-- What `SetTLSVers` stores when it returns. -/
lemma setTLSVers_ok {lo hi : UInt16} {rs : List Ref} {c c' : UConn} {u : Unit}
    (h : setTLSVers lo hi rs c = .ok u c') :
    ∃ r, specVersions lo hi (rs.map c.heap) = .ok r ∧ checkRange r = .ok () ∧
      c'.hello.supportedVersions = makeSupportedVersions r.1 r.2 := by
  rw [setTLSVers, run_get_bind] at h
  obtain ⟨r, hr, h⟩ := ofExcept_bind_eq_ok.mp h
  obtain ⟨_, hc, h⟩ := ofExcept_bind_eq_ok.mp h
  obtain ⟨_, _, hm, h⟩ := bind_eq_ok.mp h
  cases hm
  refine ⟨r, hr, hc, ?_⟩
  rcases runIf_eq_ok.mp h with ⟨-, h⟩ | ⟨-, rfl⟩
  · cases h
    rfl
  · rfl

/-- Bounds of the package are accepted, whatever their order. -/
lemma setTLSVers_of_bounds {lo hi : UInt16} (hlo : VersionTLS10 ≤ lo ∧ lo ≤ VersionTLS13)
    (hhi : VersionTLS10 ≤ hi ∧ hi ≤ VersionTLS13) (rs : List Ref) (c : UConn) :
    ∃ c', setTLSVers lo hi rs c = .ok () c' := by
  have hne : ¬(lo = 0 ∧ hi = 0) := by
    rintro ⟨rfl, -⟩
    exact absurd hlo.1 (by decide)
  have hcheck : checkRange (lo, hi) = .ok () := by
    unfold checkRange
    rw [if_neg, if_neg]
    · simpa only [not_or, UInt16.not_lt, gt_iff_lt] using hhi
    · simpa only [not_or, UInt16.not_lt, gt_iff_lt] using hlo
  rw [setTLSVers, run_get_bind, if_neg hne]
  by_cases hech : c.config.encryptedClientHelloConfigList.isNone = true
  · exact ⟨_, bind_eq_ok.mpr ⟨_, c, ofExcept_eq_ok.mpr ⟨rfl, rfl⟩, bind_eq_ok.mpr
      ⟨_, c, ofExcept_eq_ok.mpr ⟨hcheck, rfl⟩, bind_eq_ok.mpr
        ⟨_, _, rfl, runIf_eq_ok.mpr (.inl ⟨hech, rfl⟩)⟩⟩⟩⟩
  · exact ⟨_, bind_eq_ok.mpr ⟨_, c, ofExcept_eq_ok.mpr ⟨rfl, rfl⟩, bind_eq_ok.mpr
      ⟨_, c, ofExcept_eq_ok.mpr ⟨hcheck, rfl⟩, bind_eq_ok.mpr
        ⟨_, _, rfl, runIf_eq_ok.mpr (.inr ⟨hech, rfl⟩)⟩⟩⟩⟩

/-- Whenever `SetTLSVers` returns, `Hello.SupportedVersions` holds all versions between the bounds it
went on with, and these are in order. -/
def SetsVersions (lo hi : UInt16) (rs : List Ref) (c : UConn) : Prop :=
  ∀ c', setTLSVers lo hi rs c = .ok () c' → ∃ r, specVersions lo hi (rs.map c.heap) = .ok r ∧
    VersionsBetween r.1 r.2 c'.hello.supportedVersions

/-- Bounds of the package in the wrong order are stored without an error. -/
lemma not_setsVersions {lo hi : UInt16} (hhi : VersionTLS10 ≤ hi) (hlt : hi < lo)
    (hlo : lo ≤ VersionTLS13) (rs : List Ref) (c : UConn) : ¬SetsVersions lo hi rs c := by
  intro h
  have hle : hi ≤ lo := UInt16.le_of_lt hlt
  obtain ⟨c', hc'⟩ := setTLSVers_of_bounds ⟨UInt16.le_trans hhi hle, hlo⟩
    ⟨hhi, UInt16.le_trans hle hlo⟩ rs c
  obtain ⟨r, hr, hv⟩ := h c' hc'
  have hne : ¬(lo = 0 ∧ hi = 0) := by
    rintro ⟨-, rfl⟩
    exact absurd hhi (by decide)
  rw [specVersions, if_neg hne] at hr
  cases hr
  exact absurd hv.ordered (UInt16.not_le.mpr hlt)

/-- That is so unless the specification has both bounds, each of them a version of the package, in
the wrong order. -/
theorem setsVersions_iff (lo hi : UInt16) (rs : List Ref) (c : UConn) :
    SetsVersions lo hi rs c ↔ ¬(VersionTLS10 ≤ hi ∧ hi < lo ∧ lo ≤ VersionTLS13) := by
  constructor
  · rintro h ⟨hhi, hlt, hlo⟩
    exact not_setsVersions hhi hlt hlo rs c h
  · intro h c' hc'
    obtain ⟨r, hr, hcheck, hv⟩ := setTLSVers_ok hc'
    obtain ⟨⟨hlo, hlo'⟩, hhi, hhi'⟩ := checkRange_eq_ok hcheck
    have hord : r.1 ≤ r.2 := by
      unfold specVersions at hr
      split_ifs at hr with hz
      · exact rangeOfExtensions_ordered hr
      · cases hr
        exact UInt16.not_lt.mp fun hlt => h ⟨hhi, hlt, hlo'⟩
    refine ⟨r, hr, ?_⟩
    rw [hv]
    exact makeSupportedVersions_between hlo hord hhi'

/-- A connection that has not been touched. -/
def versionsClient : UConn where
  heap := fun _ => .sct
  nextRef := 0
  config := {}
  clientHelloID := .custom

/-- The bounds of a record of TLS 1.2 that holds a hello of TLS 1.0: the list has 65535 entries. -/
theorem setTLSVers_wraps :
    ¬SetsVersions VersionTLS12 VersionTLS10 [] versionsClient ∧
      (endState (setTLSVers VersionTLS12 VersionTLS10 [] versionsClient)).hello.supportedVersions.length
        = 65535 := by
  refine ⟨not_setsVersions (by decide) (by decide) (by decide) _ _, ?_⟩
  obtain ⟨c', hc'⟩ := setTLSVers_of_bounds (by decide : VersionTLS10 ≤ VersionTLS12 ∧ _)
    (by decide : VersionTLS10 ≤ VersionTLS10 ∧ _) [] versionsClient
  obtain ⟨r, hr, -, hv⟩ := setTLSVers_ok hc'
  have hr : specVersions VersionTLS12 VersionTLS10 [] = .ok r := hr
  rw [specVersions, if_neg (by decide)] at hr
  cases hr
  rw [hc', endState_ok, hv, makeSupportedVersions, length_map, length_range]
  decide

end Utls
