import Mathlib.Data.List.Basic
import Mathlib.Data.List.Perm.Basic
import Mathlib.Tactic

/-!
# Swaps in a list, and slots that are left out of them

`swapAt` exchanges two elements of a list.  `fisherYates n draw` is the sequence of exchanges that
the usual shuffle of `n` elements makes, when `draw i` is the partner that is drawn for index `i`;
every arrangement is reached by some draws (`exists_draws`).

The second half is about lists some of whose elements are pinned.  The others are taken out into a
list of their own, changed there, and written back through the list of their indices.  `refill` is
the same written as a recursion over the list, so that taking out and writing back are seen to be
inverse to each other.
-/

namespace Swaps

open List Function

variable {α : Type*}

/-! ## Swaps -/

/-- Exchanges two elements; indices outside the list exchange nothing. -/
def swapAt (l : List α) (s : Nat × Nat) : List α :=
  match l[s.1]?, l[s.2]? with
  | some x, some y => (l.set s.1 y).set s.2 x
  | _, _ => l

variable {l : List α}

lemma swapAt_of_lt {i j : Nat} (hi : i < l.length) (hj : j < l.length) :
    swapAt l (i, j) = (l.set i l[j]).set j l[i] := by
  simp only [swapAt, getElem?_eq_getElem hi, getElem?_eq_getElem hj]

lemma swapAt_perm (l : List α) (s : Nat × Nat) : (swapAt l s).Perm l := by
  obtain ⟨i, j⟩ := s
  by_cases hi : i < l.length
  · by_cases hj : j < l.length
    · rw [swapAt_of_lt hi hj]
      exact set_set_perm hi hj
    · simp only [swapAt, getElem?_eq_none (Nat.le_of_not_lt hj)]
      cases l[i]? <;> exact .refl l
  · simp only [swapAt, getElem?_eq_none (Nat.le_of_not_lt hi)]
    exact .refl l

variable (swaps : List (Nat × Nat))

/-- The list after a sequence of swaps. -/
def swapAll (l : List α) : List α := swaps.foldl swapAt l

lemma swapAll_perm : ∀ l : List α, (swapAll swaps l).Perm l := by
  induction swaps with
  | nil => exact fun l => .refl l
  | cons s swaps ih => exact fun l => (ih (swapAt l s)).trans (swapAt_perm l s)

lemma length_swapAll (l : List α) : (swapAll swaps l).length = l.length :=
  (swapAll_perm swaps l).length_eq

/-- A swap within the front of a list. -/
lemma swapAt_append (r : List α) {i j : Nat} (hi : i < l.length) (hj : j < l.length) :
    swapAt (l ++ r) (i, j) = swapAt l (i, j) ++ r := by
  have hi' : i < (l ++ r).length := by rw [length_append]; omega
  have hj' : j < (l ++ r).length := by rw [length_append]; omega
  rw [swapAt_of_lt hi' hj', swapAt_of_lt hi hj, getElem_append_left hi, getElem_append_left hj,
    set_append_left _ _ hi, set_append_left _ _ (by simpa using hj)]

/-- A list of at most one element is not changed. -/
lemma swapAll_of_short (h : l.length < 2) : swapAll swaps l = l := by
  have hp := swapAll_perm swaps l
  match l, h with
  | [], _ => exact hp.eq_nil
  | [x], _ => exact perm_singleton.mp hp

/-! ## The shuffle -/

/-- The swaps of a shuffle of `n` elements: from the last index down to 1, each with the partner that
is drawn for it. -/
def fisherYates (n : Nat) (draw : Nat → Nat) : List (Nat × Nat) :=
  (List.range (n - 1)).reverse.map fun k => (k + 1, draw (k + 1))

lemma fisherYates_succ (n : Nat) (draw : Nat → Nat) :
    fisherYates (n + 2) draw = (n + 1, draw (n + 1)) :: fisherYates (n + 1) draw := by
  simp [fisherYates, range_succ]

lemma fisherYates_lt {n : Nat} {draw : Nat → Nat} (hd : ∀ i, draw i ≤ i) :
    ∀ s ∈ fisherYates n draw, s.1 < n ∧ s.2 < n := by
  intro s hs
  obtain ⟨k, hk, rfl⟩ := List.mem_map.mp hs
  have hk := mem_range.mp (mem_reverse.mp hk)
  have hle := hd (k + 1)
  dsimp only
  omega

/-- The shuffle reads the draws for the indices of the list only. -/
lemma fisherYates_congr {n : Nat} {draw draw' : Nat → Nat} (h : ∀ i < n, draw i = draw' i) :
    fisherYates n draw = fisherYates n draw' := by
  refine map_congr_left fun k hk => ?_
  have hk := mem_range.mp (mem_reverse.mp hk)
  rw [h (k + 1) (by omega)]

/-- Swaps within the front of a list. -/
lemma swapAll_append (r : List α) : ∀ {l : List α}, (∀ s ∈ swaps, s.1 < l.length ∧ s.2 < l.length) →
      swapAll swaps (l ++ r) = swapAll swaps l ++ r := by
  induction swaps with
  | nil => exact fun _ => rfl
  | cons s swaps ih =>
    intro l h
    obtain ⟨hi, hj⟩ := h s mem_cons_self
    change swapAll swaps (swapAt (l ++ r) s) = swapAll swaps (swapAt l s) ++ r
    rw [show s = (s.1, s.2) from rfl, swapAt_append r hi hj]
    refine ih fun t ht => ?_
    rw [(swapAt_perm l _).length_eq]
    exact h t (mem_cons_of_mem _ ht)

/-- A swap brings any element to the end of the list. -/
lemma exists_swap_last {x : α} (hx : x ∈ l) :
    ∃ j < l.length, ∃ l', swapAt l (l.length - 1, j) = l' ++ [x] := by
  obtain ⟨j, hj, rfl⟩ := getElem_of_mem hx
  have hlast : l.length - 1 < l.length := by omega
  have hlen := (swapAt_perm l (l.length - 1, j)).length_eq
  have hne : swapAt l (l.length - 1, j) ≠ [] := by
    intro hnil
    rw [hnil] at hlen
    simp only [length_nil] at hlen
    omega
  refine ⟨j, hj, (swapAt l (l.length - 1, j)).dropLast, ?_⟩
  have hget : (swapAt l (l.length - 1, j)).getLast hne = l[j] := by
    rw [getLast_eq_getElem]
    simp only [swapAt_of_lt hlast hj, length_set, getElem_set]
    split_ifs with h
    · subst h
      rfl
    · rfl
  rw [← hget, dropLast_append_getLast hne]

/-- Every arrangement of a list is the result of its shuffle for some draws. -/
theorem exists_draws (n : Nat) : ∀ {l t : List α}, l.length = n → t.Perm l →
    ∃ draw : Nat → Nat, (∀ i, draw i ≤ i) ∧ swapAll (fisherYates n draw) l = t := by
  induction n with
  | zero =>
    intro l t hl ht
    obtain rfl := length_eq_zero_iff.mp hl
    exact ⟨fun i => i, fun i => le_rfl, ht.eq_nil.symm⟩
  | succ n ih =>
    intro l t hl ht
    -- the last element of the arrangement is put into its place by the first swap
    have htlen : t.length = n + 1 := ht.length_eq.trans hl
    have htne : t ≠ [] := by
      intro hnil
      rw [hnil] at htlen
      cases htlen
    obtain ⟨j, hj, l', hl'⟩ := exists_swap_last (ht.mem_iff.mp (getLast_mem htne))
    have hperm : t.dropLast.Perm l' := by
      have h1 : (l' ++ [t.getLast htne]).Perm (t.dropLast ++ [t.getLast htne]) := by
        rw [← hl', dropLast_append_getLast htne]
        exact (swapAt_perm l _).trans ht.symm
      exact ((perm_append_right_iff _).mp h1).symm
    have hlen' : l'.length = n := by
      rw [← hperm.length_eq, length_dropLast, htlen]
      rfl
    obtain ⟨draw, hdraw, heq⟩ := ih hlen' hperm
    rw [hl] at hl'
    cases n with
    | zero =>
      -- a list of one element is not shuffled
      refine ⟨fun i => i, fun i => le_rfl, ?_⟩
      match l, hl with
      | [x], _ => exact (perm_singleton.mp ht).symm
    | succ n =>
      refine ⟨Function.update draw (n + 1) j, fun i => ?_, ?_⟩
      · by_cases hi : i = n + 1
        · subst hi
          rw [update_self]
          omega
        · rw [update_of_ne hi]
          exact hdraw i
      · have hcongr : fisherYates (n + 1) (Function.update draw (n + 1) j) =
            fisherYates (n + 1) draw :=
          fisherYates_congr fun i hi => update_of_ne (by omega) _ _
        rw [fisherYates_succ, update_self, hcongr]
        have hl' : swapAt l (n + 1, j) = l' ++ [t.getLast htne] := hl'
        change swapAll (fisherYates (n + 1) draw) (swapAt l (n + 1, j)) = t
        rw [hl', swapAll_append _ _ (by rw [hlen']; exact fisherYates_lt hdraw), heq,
          dropLast_append_getLast htne]

/-! ## Pinned slots -/

section Slots

variable (pinned : α → Bool)

/-- The indices of the elements that are not pinned. -/
def movableIndices (l : List α) : List Nat :=
  (l.zipIdx.filter fun p => !pinned p.1).map Prod.snd

/-- Writes elements to the slots with the given indices. -/
def writeBack (idx : List Nat) (ms l : List α) : List α :=
  (idx.zip ms).foldl (fun l p => l.set p.1 p.2) l

/-- The list with its elements that are not pinned replaced by those of `ms`, in order. -/
def refill : List α → List α → List α
  | [], _ => []
  | x :: l, ms => if pinned x then x :: refill l ms else ms.headD x :: refill l ms.tail

/-- The elements that are not pinned. -/
def movable (l : List α) : List α := l.filter fun x => !pinned x

variable {pinned}

variable {x : α} {l : List α}

lemma movable_cons_of_pinned (h : pinned x = true) (l : List α) :
    movable pinned (x :: l) = movable pinned l :=
  filter_cons_of_neg (by simp [h])

lemma movable_cons_of_not (h : pinned x = false) (l : List α) :
    movable pinned (x :: l) = x :: movable pinned l :=
  filter_cons_of_pos (by simp [h])

lemma refill_cons_of_pinned (h : pinned x = true) (l ms : List α) :
    refill pinned (x :: l) ms = x :: refill pinned l ms :=
  if_pos h

lemma refill_cons_of_not (h : pinned x = false) (l : List α) (m : α) (ms : List α) :
    refill pinned (x :: l) (m :: ms) = m :: refill pinned l ms :=
  if_neg (by simp [h])

/-- The elements at the indices are the elements that are not pinned; `pre` is what the indices have
passed over. -/
lemma filterMap_movableIndices (l : List α) :
    (movableIndices pinned l).filterMap (l[·]?) = movable pinned l := by
  have hfrom : ∀ (l pre : List α),
      ((l.zipIdx pre.length).filter fun p => !pinned p.1).filterMap (fun p => (pre ++ l)[p.2]?) =
        movable pinned l := by
    intro l
    induction l with
    | nil => exact fun _ => rfl
    | cons x l ih =>
      intro pre
      have ih := ih (pre ++ [x])
      rw [length_append, length_singleton, append_assoc, singleton_append] at ih
      rw [zipIdx_cons]
      cases hx : pinned x with
      | true =>
        rw [filter_cons_of_neg (by simp [hx]), movable_cons_of_pinned hx, ih]
      | false =>
        rw [filter_cons_of_pos (by simp [hx]), movable_cons_of_not hx, filterMap_cons, ih]
        simp
  have h := hfrom l []
  rw [movableIndices, filterMap_map]
  exact h

lemma length_movableIndices (l : List α) :
    (movableIndices pinned l).length = (movable pinned l).length := by
  have hfst : ∀ n, ((l.zipIdx n).filter fun p => !pinned p.1).length = (movable pinned l).length := by
    induction l with
    | nil => exact fun _ => rfl
    | cons x l ih =>
      intro n
      rw [zipIdx_cons]
      cases hx : pinned x with
      | true => rw [filter_cons_of_neg (by simp [hx]), movable_cons_of_pinned hx, ih]
      | false =>
        rw [filter_cons_of_pos (by simp [hx]), movable_cons_of_not hx, length_cons, length_cons, ih]
  rw [movableIndices, length_map, hfst]

/-- Writing back through the indices fills the slots in order. -/
lemma writeBack_movableIndices {ms : List α} (h : ms.length = (movable pinned l).length) :
    writeBack (movableIndices pinned l) ms l = refill pinned l ms := by
  -- the slots of `pre` have been dealt with
  have hfrom : ∀ (l pre ms : List α), ms.length = (movable pinned l).length →
      writeBack (((l.zipIdx pre.length).filter fun p => !pinned p.1).map Prod.snd) ms (pre ++ l) =
        pre ++ refill pinned l ms := by
    intro l
    induction l with
    | nil => exact fun pre ms _ => rfl
    | cons x l ih =>
      intro pre ms hms
      rw [zipIdx_cons]
      cases hx : pinned x with
      | true =>
        rw [movable_cons_of_pinned hx] at hms
        have ih := ih (pre ++ [x]) ms hms
        rw [length_append, length_singleton, append_assoc, append_assoc,
          singleton_append, singleton_append] at ih
        rw [filter_cons_of_neg (by simp [hx]), ih, refill_cons_of_pinned hx]
      | false =>
        rw [movable_cons_of_not hx, length_cons] at hms
        cases ms with
        | nil => cases hms
        | cons m ms =>
          have ih := ih (pre ++ [m]) ms (by simpa using hms)
          rw [length_append, length_singleton, append_assoc, append_assoc,
            singleton_append, singleton_append] at ih
          have hset : (pre ++ x :: l).set pre.length m = pre ++ m :: l := by simp
          rw [filter_cons_of_pos (by simp [hx]), map_cons, writeBack, zip_cons_cons,
            foldl_cons, hset, refill_cons_of_not hx]
          exact ih
  exact hfrom l [] ms h

/-! ## What is in the slots -/

/-- A list is refilled with its own elements by leaving it alone. -/
lemma refill_movable (l : List α) : refill pinned l (movable pinned l) = l := by
  induction l with
  | nil => rfl
  | cons x l ih =>
    cases hx : pinned x with
    | true => rw [movable_cons_of_pinned hx, refill_cons_of_pinned hx, ih]
    | false => rw [movable_cons_of_not hx, refill_cons_of_not hx, ih]

/-- The elements that are not pinned are those that were filled in. -/
lemma movable_refill : ∀ {ms : List α}, ms.length = (movable pinned l).length →
    (∀ m ∈ ms, pinned m = false) → movable pinned (refill pinned l ms) = ms := by
  induction l with
  | nil => exact fun h _ => (length_eq_zero_iff.mp h).symm
  | cons x l ih =>
    intro ms h hms
    cases hx : pinned x with
    | true =>
      rw [movable_cons_of_pinned hx] at h
      rw [refill_cons_of_pinned hx, movable_cons_of_pinned hx, ih h hms]
    | false =>
      rw [movable_cons_of_not hx] at h
      cases ms with
      | nil => cases h
      | cons m ms =>
        have hm := hms m mem_cons_self
        rw [refill_cons_of_not hx, movable_cons_of_not hm, ih (by simpa using h) fun y hy =>
          hms y (mem_cons_of_mem _ hy)]

/-- The pinned elements are in the slots they had, and the others in the other slots. -/
lemma refill_slots : ∀ {ms : List α}, (∀ m ∈ ms, pinned m = false) → ∀ i : Nat,
    (refill pinned l ms)[i]?.map pinned = l[i]?.map pinned ∧
      ∀ x, l[i]? = some x → pinned x = true → (refill pinned l ms)[i]? = some x := by
  induction l with
  | nil => exact fun _ i => ⟨rfl, fun x hx => by simp at hx⟩
  | cons y l ih =>
    intro ms hms i
    cases hy : pinned y with
    | true =>
      rw [refill_cons_of_pinned hy]
      cases i with
      | zero => exact ⟨rfl, fun x hx _ => hx⟩
      | succ i => simpa using ih hms i
    | false =>
      cases ms with
      | nil =>
        have hnil : refill pinned (y :: l) [] = y :: refill pinned l [] := if_neg (by simp [hy])
        rw [hnil]
        cases i with
        | zero => exact ⟨rfl, fun x hx _ => hx⟩
        | succ i => simpa using ih hms i
      | cons m ms =>
        have hm := hms m mem_cons_self
        rw [refill_cons_of_not hy]
        cases i with
        | zero =>
          refine ⟨by simp [hm, hy], fun x hx hp => ?_⟩
          cases hx
          rw [hy] at hp
          cases hp
        | succ i => simpa using ih (fun z hz => hms z (mem_cons_of_mem _ hz)) i

/-- Filling in an arrangement of the elements permutes the list. -/
lemma refill_perm : ∀ {ms : List α}, ms.Perm (movable pinned l) →
    (refill pinned l ms).Perm l := by
  have hcons : ∀ {l ms : List α}, ms.length = (movable pinned l).length →
      (refill pinned l ms).Perm (ms ++ l.filter pinned) := by
    intro l
    induction l with
    | nil =>
      intro ms h
      rw [length_eq_zero_iff.mp h]
      exact .refl _
    | cons x l ih =>
      intro ms h
      cases hx : pinned x with
      | true =>
        rw [movable_cons_of_pinned hx] at h
        rw [refill_cons_of_pinned hx, filter_cons_of_pos hx]
        exact ((ih h).cons x).trans perm_middle.symm
      | false =>
        rw [movable_cons_of_not hx] at h
        cases ms with
        | nil => cases h
        | cons m ms =>
          rw [refill_cons_of_not hx, filter_cons_of_neg (by simp [hx])]
          exact (ih (by simpa using h)).cons m
  intro ms h
  refine (hcons h.length_eq).trans ((h.append_right _).trans ?_)
  have hparts := filter_append_perm (fun x => !pinned x) l
  simpa [movable] using hparts

end Slots

end Swaps
