import Mathlib.Data.List.DropRight
import Utls.HelloRetry
import Utls.Lib.Swaps

/-!
# Extensions that move and extensions that do not

GREASE, padding and pre-shared key extensions are pinned to their slots.  `shufflePermutable` takes
the others out of the list, lets the shuffler swap them there, and writes them back;
`shufflePermutable_eq` reads this as a refill of the slots that are not pinned.

A cookie that a HelloRetryRequest asks for is put between the movable extensions.  The range that it
is drawn from ends where the leading run of pinned extensions ends and where the trailing one starts
(`cookieSpliceRange_eq`).
-/

namespace Utls

open Wire Exec Swaps
open List hiding after

/-! ## The shuffle -/

/-- The extensions that are not pinned. -/
abbrev movableExts (exts : List Ext) : List Ext := movable Ext.positionInvariant exts

variable (exts : List Ext)

/-- `shufflePermutable`, for the swaps that the shuffler makes.  Every swap of `rand.Shuffle` is of two
positions of the list; one that is not would be a panic there and is nothing here. -/
def shufflePermutable (swaps : List (Nat × Nat)) : List Ext :=
  let idx := movableIndices Ext.positionInvariant exts
  if idx.length < 2 then exts
  else
    let moved := idx.filterMap (exts[·]?)
    writeBack idx (swapAll swaps moved) exts

/-- The movable extensions are rearranged, and the slots that they came from refilled. -/
theorem shufflePermutable_eq (swaps : List (Nat × Nat)) : shufflePermutable exts swaps =
      refill Ext.positionInvariant exts (swapAll swaps (movableExts exts)) := by
  have hlen : (swapAll swaps (movableExts exts)).length = (movableExts exts).length :=
    length_swapAll swaps _
  simp only [shufflePermutable, filterMap_movableIndices]
  split_ifs with hshort
  · -- with fewer than two there is nothing to swap
    rw [length_movableIndices] at hshort
    rw [swapAll_of_short swaps hshort, refill_movable]
  · exact writeBack_movableIndices hlen

/-- `out` is `exts` with its movable extensions in the order `order`: the pinned ones are in the slots
they had, and the movable ones in the others. -/
structure Rearranged (exts order out : List Ext) : Prop where
  perm : out.Perm exts
  pinned : ∀ (i : Nat) (e : Ext), exts[i]? = some e → e.positionInvariant = true →
    out[i]? = some e
  slots : ∀ i : Nat, out[i]?.map Ext.positionInvariant = exts[i]?.map Ext.positionInvariant
  movable : movableExts out = order

lemma rearranged_refill {exts order : List Ext} (h : order.Perm (movableExts exts)) :
    Rearranged exts order (refill Ext.positionInvariant exts order) := by
  have hmovable : ∀ e ∈ order, e.positionInvariant = false := by
    intro e he
    have he := of_mem_filter (h.mem_iff.mp he)
    simpa using he
  exact ⟨refill_perm h, fun i => (refill_slots hmovable i).2, fun i => (refill_slots hmovable i).1,
    movable_refill h.length_eq hmovable⟩

/-- The shuffle leaves the pinned extensions where they are and puts the movable ones into the order
that the swaps make; the swaps of a shuffler can make every order. -/
theorem shufflePermutable_rearranges (exts : List Ext) (swaps : List (Nat × Nat)) :
    Rearranged exts (swapAll swaps (movableExts exts)) (shufflePermutable exts swaps) ∧
      ∀ order : List Ext, order.Perm (movableExts exts) →
        ∃ draw : Nat → Nat, (∀ i, draw i ≤ i) ∧
          Rearranged exts order
            (shufflePermutable exts (fisherYates (movableExts exts).length draw)) := by
  refine ⟨?_, fun order horder => ?_⟩
  · rw [shufflePermutable_eq]
    exact rearranged_refill (swapAll_perm swaps _)
  · obtain ⟨draw, hdraw, heq⟩ := exists_draws _ rfl horder
    refine ⟨draw, hdraw, ?_⟩
    rw [shufflePermutable_eq, heq]
    exact rearranged_refill horder

example :
    shufflePermutable [.utlsGrease 0 [], .sct, .extendedMasterSecret, .utlsGrease 0 []] [(1, 0)] =
      [.utlsGrease 0 [], .extendedMasterSecret, .sct, .utlsGrease 0 []] :=
  rfl

/-! ## The range of the cookie -/

/-- An iteration of the loop of `cookieSpliceRange`, which keeps the first and the last index of a
movable extension. -/
def spliceStep (found : Option (Nat × Nat)) (e : Ext × Nat) : Option (Nat × Nat) :=
  if e.1.positionInvariant then found
  else
    match found with
    | none => some (e.2, e.2)
    | some (first, _) => some (first, e.2)

/-- The loop of `cookieSpliceRange`. -/
def spliceScan : Option (Nat × Nat) :=
  exts.zipIdx.foldl spliceStep none

lemma spliceScan_concat (e : Ext) :
    spliceScan (exts ++ [e]) = spliceStep (spliceScan exts) (e, exts.length) := by
  unfold spliceScan
  rw [zipIdx_append, foldl_append, Nat.zero_add]
  rfl

/-- The extensions from the first movable one on, and those up to the last. -/
lemma spliceScan_eq :
    spliceScan exts = (exts.findIdx? fun e => !e.positionInvariant).map fun first =>
      (first, exts.length - 1 - (exts.reverse.findIdx? fun e => !e.positionInvariant).getD 0) := by
  induction exts using reverseRecOn with
  | nil => rfl
  | append_singleton exts e ih =>
    rw [spliceScan_concat, ih, findIdx?_append, reverse_concat, findIdx?_cons]
    cases he : e.positionInvariant with
    | true =>
      simp only [spliceStep, he, findIdx?_cons, length_append, length_singleton]
      cases hfirst : exts.findIdx? fun e => !e.positionInvariant with
      | none => rfl
      | some first =>
        cases hlast : exts.reverse.findIdx? fun e => !e.positionInvariant with
        | none =>
          rw [findIdx?_eq_none_iff] at hlast
          obtain ⟨hlt, hmov, -⟩ := findIdx?_eq_some_iff_getElem.mp hfirst
          have hpin := hlast _ (mem_reverse.mpr (getElem_mem hlt))
          rw [hmov] at hpin
          cases hpin
        | some last =>
          simp
          omega
    | false =>
      simp only [spliceStep, he, findIdx?_cons, length_append, length_singleton]
      cases hfirst : exts.findIdx? fun e => !e.positionInvariant with
      | none => simp
      | some first => simp

/-- `cookieSpliceRange` is the range between the two indices that its loop finds. -/
theorem cookieSpliceRange_eq_scan (exts : List Ext) :
    cookieSpliceRange exts =
      match spliceScan exts with
      | none => if exts.length = 0 then (0, 0) else (1, 1)
      | some (first, last) => (first, last + 1) := by
  rw [spliceScan_eq, cookieSpliceRange]
  cases hfirst : exts.findIdx? fun e => !e.positionInvariant with
  | none => rfl
  | some first =>
    obtain ⟨hlt, hmov, -⟩ := findIdx?_eq_some_iff_getElem.mp hfirst
    have hback : (exts.reverse.findIdx? fun e => !e.positionInvariant).getD 0 < exts.length := by
      cases hlast : exts.reverse.findIdx? fun e => !e.positionInvariant with
      | none => exact (Nat.zero_le first).trans_lt hlt
      | some last =>
        obtain ⟨hlt, -⟩ := findIdx?_eq_some_iff_getElem.mp hlast
        exact hlt.trans_eq length_reverse
    simp only [Option.map_some, Prod.mk.injEq, true_and]
    omega

/-- The run of pinned extensions that the list starts with. -/
def leadingRun : List Ext := exts.takeWhile Ext.positionInvariant

/-- The run of pinned extensions that the list ends with. -/
def trailingRun : List Ext := exts.rtakeWhile Ext.positionInvariant

lemma leadingRun_eq_take : leadingRun exts = exts.take (leadingRun exts).length :=
  prefix_iff_eq_take.mp ( takeWhile_prefix _)

lemma trailingRun_eq_drop :
    trailingRun exts = exts.drop (exts.length - (trailingRun exts).length) :=
  suffix_iff_eq_drop.mp (rtakeWhile_suffix _ _)

lemma length_leadingRun :
    (leadingRun exts).length = exts.findIdx fun e => !e.positionInvariant := by
  rw [leadingRun, takeWhile_eq_take_findIdx_not, length_take, Nat.min_eq_left findIdx_le_length]

section Movable

variable {exts : List Ext} (h : ∃ e ∈ exts, e.positionInvariant = false)
include h

lemma leadingRun_lt : (leadingRun exts).length < exts.length := by
  rw [length_leadingRun, findIdx_lt_length]
  obtain ⟨e, he, hmov⟩ := h
  exact ⟨e, he, by rw [hmov]; rfl⟩

/-- The first movable extension is between the two runs. -/
lemma runs_disjoint : (leadingRun exts).length + (trailingRun exts).length < exts.length := by
  have hlead := leadingRun_lt h
  have hmov : (!exts[(leadingRun exts).length].positionInvariant) = true := by
    simp only [length_leadingRun]
    exact findIdx_getElem (p := fun e : Ext => !e.positionInvariant)
  by_contra hge
  have hin : exts[(leadingRun exts).length] ∈ trailingRun exts := by
    rw [trailingRun_eq_drop, mem_drop_iff_getElem]
    refine ⟨(leadingRun exts).length - (exts.length - (trailingRun exts).length), by omega, ?_⟩
    congr 1
    omega
  rw [mem_rtakeWhile_imp hin] at hmov
  cases hmov

/-- The range goes from the end of the leading run to the start of the trailing one. -/
theorem cookieSpliceRange_eq :
    cookieSpliceRange exts =
      ((leadingRun exts).length, exts.length - (trailingRun exts).length) := by
  obtain ⟨e, he, hmov⟩ := h
  have hany : ∃ x ∈ exts, (!x.positionInvariant) = true := ⟨e, he, by rw [hmov]; rfl⟩
  have hfirst : exts.findIdx? (fun e => !e.positionInvariant) = some (leadingRun exts).length := by
    rw [length_leadingRun]
    exact findIdx?_eq_some_of_exists hany
  have hrev : ∃ x ∈ exts.reverse, (!x.positionInvariant) = true := by
    obtain ⟨x, hx, hm⟩ := hany
    exact ⟨x, mem_reverse.mpr hx, hm⟩
  have hlast : exts.reverse.findIdx? (fun e => !e.positionInvariant) =
      some (trailingRun exts).length := by
    rw [findIdx?_eq_some_of_exists hrev, ← length_leadingRun, trailingRun, rtakeWhile,
      length_reverse, leadingRun]
  rw [cookieSpliceRange, hfirst, hlast]
  rfl

end Movable


/-! ## The splice -/

lemma Ext.positionInvariant_of_isPreSharedKey {e : Ext} (h : e.isPreSharedKey = true) :
    e.positionInvariant = true := by
  cases e <;> first | rfl | cases h

section Slices

variable {α : Type*}

/-- The array after `append(s[:n], xs...)`, for a slice `s` at the front of the array `arr`: it is
written in place if it has room, and is a new one with `spare` behind the elements otherwise. -/
def appendAt (arr spare : List α) (n : Nat) (xs : List α) : List α :=
  if n + xs.length ≤ arr.length then arr.take n ++ xs ++ arr.drop (n + xs.length)
  else arr.take n ++ xs ++ spare

/-- `append(s[:k], append([]T{x}, s[k:]...)...)`, for a slice `s` of `len` elements: the inner append
makes a copy of what the outer one may then overwrite. -/
def spliceAt (arr spare : List α) (len k : Nat) (x : α) : List α :=
  let tail := [x] ++ (arr.take len).drop k
  appendAt arr spare k tail

lemma take_appendAt {arr : List α} (spare : List α) {n : Nat} (h : n ≤ arr.length)
    (xs : List α) : (appendAt arr spare n xs).take (n + xs.length) = arr.take n ++ xs := by
  have hlen : (arr.take n ++ xs).length = n + xs.length := by
    rw [length_append, length_take, Nat.min_eq_left h]
  unfold appendAt
  split_ifs
  all_goals exact take_left' hlen

lemma take_spliceAt {arr : List α} (spare : List α) {len k : Nat} (hk : k ≤ len)
    (hlen : len ≤ arr.length) (x : α) :
    (spliceAt arr spare len k x).take (len + 1) =
      (arr.take len).take k ++ x :: (arr.take len).drop k := by
  have htail : k + ([x] ++ (arr.take len).drop k).length = len + 1 := by
    rw [length_append, length_drop, length_take, Nat.min_eq_left hlen, length_singleton]
    omega
  rw [spliceAt, ← htail, take_appendAt spare (hk.trans hlen), take_take, Nat.min_eq_left hk]
  rfl

end Slices

/-- `out` is `exts` with one cookie, which is behind the leading run of pinned extensions and before
the trailing one. -/
structure CookieSpliced (exts : List Ext) (cookie : Bytes) (out : List Ext) : Prop where
  one : out.filter Ext.isCookie = [.cookie cookie]
  rest : out.filter (fun e => !e.isCookie) = exts
  between : ∃ before after, out = before ++ .cookie cookie :: after ∧
    leadingRun exts <+: before ∧ trailingRun exts <:+ after
  pskLast : ∀ e ∈ out.dropLast, e.isPreSharedKey = false
  greaseFirst : ∀ value body, exts.head? = some (.utlsGrease value body) →
    out.head? = some (.utlsGrease value body)

section Movable

variable {exts : List Ext} (hmov : ∃ e ∈ exts, e.positionInvariant = false)
  (hpsk : ∀ e ∈ exts.dropLast, e.isPreSharedKey = false)
  (hcookie : ∀ e ∈ exts, e.isCookie = false)
include hmov hpsk hcookie

/-- A cookie that is put between the two runs. -/
lemma cookieSpliced_of_between {k : Nat} (hlo : (leadingRun exts).length ≤ k)
    (hhi : k ≤ exts.length - (trailingRun exts).length) (cookie : Bytes) :
    CookieSpliced exts cookie (exts.take k ++ .cookie cookie :: exts.drop k) where
  one := by
    have hnone : exts.filter Ext.isCookie = [] := filter_eq_nil_iff.mpr fun e he => by
      rw [hcookie e he]
      exact Bool.false_ne_true
    rw [← take_append_drop k exts, filter_append, append_eq_nil_iff] at hnone
    rw [filter_append, filter_cons_of_pos rfl, hnone.1, hnone.2]
    rfl
  rest := by
    have hall : exts.filter (fun e => !e.isCookie) = exts := filter_eq_self.mpr fun e he => by
      rw [hcookie e he]
      rfl
    rw [filter_append, filter_cons_of_neg (by simp [Ext.isCookie]), ← filter_append,
      take_append_drop, hall]
  between := by
    refine ⟨_, _, rfl, ?_, ?_⟩
    · rw [leadingRun_eq_take]
      exact take_prefix_take_left hlo
    · rw [trailingRun_eq_drop]
      exact drop_suffix_drop_left exts hhi
  pskLast := by
    intro e he
    rw [dropLast_append_of_ne_nil (cons_ne_nil _ _)] at he
    cases htail : exts.drop k with
    | nil =>
      -- the cookie is last, so that the last extension is not pinned
      rw [htail, dropLast_singleton, append_nil] at he
      have htrail : trailingRun exts = [] := by
        rw [drop_eq_nil_iff] at htail
        have hle := (rtakeWhile_suffix Ext.positionInvariant exts).length_le
        have hpos := runs_disjoint hmov
        exact length_eq_zero_iff.mp (by omega)
      have hne : exts ≠ [] := ne_nil_of_mem (mem_of_mem_take he)
      have hlast : ¬(exts.getLast hne).positionInvariant = true :=
        rtakeWhile_eq_nil_iff.mp htrail hne
      have he := mem_of_mem_take he
      rw [← dropLast_append_getLast hne, mem_append, mem_singleton] at he
      rcases he with he | rfl
      · exact hpsk e he
      · exact Bool.eq_false_iff.mpr fun hp => hlast (Ext.positionInvariant_of_isPreSharedKey hp)
    | cons x rest =>
      rw [htail, dropLast_cons_of_ne_nil (cons_ne_nil _ _), ← htail] at he
      rcases mem_append.mp he with he | he
      · refine hpsk e ?_
        rw [← take_append_drop k exts,
          dropLast_append_of_ne_nil (by rw [htail]; exact cons_ne_nil _ _)]
        exact mem_append_left _ he
      · rcases mem_cons.mp he with rfl | he
        · rfl
        · refine hpsk e ?_
          rw [← take_append_drop k exts,
            dropLast_append_of_ne_nil (by rw [htail]; exact cons_ne_nil _ _)]
          exact mem_append_right _ he
  greaseFirst := by
    intro value body hhead
    obtain ⟨rest, rfl⟩ := head?_eq_some_iff.mp hhead
    have hlead : 0 < (leadingRun (.utlsGrease value body :: rest)).length := by
      rw [leadingRun, takeWhile_cons_of_pos rfl]
      exact Nat.succ_pos _
    obtain ⟨k, rfl⟩ := Nat.exists_eq_add_of_lt (hlead.trans_le hlo)
    rw [Nat.zero_add]
    rfl

end Movable


/-- Where the cookie of a HelloRetryRequest goes: every index of the range is one of the list and
keeps the pinned extensions at its ends, the appends that insert the cookie do not lose an extension
that they overwrite, and the connection's list is the result for the index that was drawn. -/
theorem cookie_splice {exts : List Ext} (cookie : Bytes)
    (hmov : ∃ e ∈ exts, e.positionInvariant = false)
    (hpsk : ∀ e ∈ exts.dropLast, e.isPreSharedKey = false)
    (hcookie : ∀ e ∈ exts, e.isCookie = false) :
    ((cookieSpliceRange exts).1 ≤ (cookieSpliceRange exts).2 ∧
      (cookieSpliceRange exts).2 ≤ exts.length) ∧
    (∀ i < (cookieSpliceRange exts).2 - (cookieSpliceRange exts).1 + 1,
      ∀ arr spare : List Ext, exts.length ≤ arr.length → arr.take exts.length = exts →
        CookieSpliced exts cookie
          ((spliceAt arr spare exts.length ((cookieSpliceRange exts).1 + i) (.cookie cookie)).take
            (exts.length + 1))) ∧
    ∀ (d : Deps) (c c' : UConn) (u : Unit), c.exts = exts → c.Has c.extensions →
      spliceCookie d cookie c = .ok u c' → CookieSpliced exts cookie c'.exts := by
  have hruns := runs_disjoint hmov
  have hrange := cookieSpliceRange_eq hmov
  have hlo : (cookieSpliceRange exts).1 = (leadingRun exts).length := congrArg Prod.fst hrange
  have hhi : (cookieSpliceRange exts).2 = exts.length - (trailingRun exts).length :=
    congrArg Prod.snd hrange
  have hspliced : ∀ i < (cookieSpliceRange exts).2 - (cookieSpliceRange exts).1 + 1,
      CookieSpliced exts cookie (exts.take ((cookieSpliceRange exts).1 + i) ++
        .cookie cookie :: exts.drop ((cookieSpliceRange exts).1 + i)) := by
    intro i hi
    exact cookieSpliced_of_between hmov hpsk hcookie (by omega) (by omega) cookie
  refine ⟨⟨by omega, by omega⟩, ?_, ?_⟩
  · intro i hi arr spare hlen harr
    rw [take_spliceAt spare (by omega) hlen, harr]
    exact hspliced i hi
  · intro d c c' u hexts hc hrun
    obtain ⟨i, n, hi, rfl⟩ := spliceCookie_ok d hrun
    have hexts' : (c.atDraw n).exts = exts := hexts
    rw [UConn.exts_spliced (c := c.atDraw n) hc, hexts', hexts]
    rw [hexts] at hi
    exact hspliced i hi

/-- Behind the leading GREASE there are two places for the cookie; here it gets the second one. -/
theorem cookie_splice_between :
    CookieSpliced [.utlsGrease 0x0A0A [], .sct, .utlsGrease 0x1A1A []] [7]
      [.utlsGrease 0x0A0A [], .sct, .cookie [7], .utlsGrease 0x1A1A []] := by
  have hcookie : ∀ e ∈ [.utlsGrease 0x0A0A [], .sct, .utlsGrease 0x1A1A []],
      Ext.isCookie e = false := by
    simp [Ext.isCookie]
  have hpsk : ∀ e ∈ [.utlsGrease 0x0A0A [], .sct, .utlsGrease 0x1A1A []].dropLast,
      Ext.isPreSharedKey e = false := by
    simp [Ext.isPreSharedKey]
  exact (cookie_splice [7] ⟨.sct, by simp, rfl⟩ hpsk hcookie).2.1 1 (by decide) _ [] le_rfl rfl

end Utls
