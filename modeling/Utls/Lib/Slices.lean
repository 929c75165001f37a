import Utls.Lib.Bytes

/-!
# Byte slices over shared arrays

A slice refers to an array that other slices may refer to as well, and appending to a slice writes
into its array as long as the array has room.  `Memory` holds the arrays, `Memory.append` is the
append of a slice, and `Memory.Owns` says that each slice of a list has an array of its own.

Appending to the last slice of such a list extends what it reads by the appended bytes and changes
nothing that the others read (`owns_append`).
-/

namespace Slices

open Wire List Function

/-- A slice that starts at the front of its array. -/
structure Slice where
  arr : Nat
  len : Nat
  deriving DecidableEq, Repr

/-- The arrays that were allocated so far; the length of an array is its capacity. -/
structure Memory where
  arrays : Nat → Bytes
  next : Nat

namespace Memory

/-- The bytes of a slice; the nil slice is `none`. -/
def read (m : Memory) : Option Slice → Bytes
  | none => []
  | some s => (m.arrays s.arr).take s.len

/-- Replaces an array. -/
def write (m : Memory) (arr : Nat) (b : Bytes) : Memory :=
  { m with arrays := Function.update m.arrays arr b }

variable (spare : Nat → Nat)

/-- Allocates an array for `b`; `spare` is the room that the allocator leaves behind it. -/
def alloc (m : Memory) (b : Bytes) : Slice × Memory :=
  (⟨m.next, b.length⟩,
    { arrays := Function.update m.arrays m.next (b ++ List.replicate (spare b.length) 0)
      next := m.next + 1 })

/-- Appends `b` to a slice: in place if the array has room, into a new array otherwise.  Appending
nothing gives the slice back. -/
def append (m : Memory) (s : Option Slice) (b : Bytes) : Option Slice × Memory :=
  if b = [] then (s, m)
  else
    match s with
    | none => ((m.alloc spare b).1, (m.alloc spare b).2)
    | some t =>
      if t.len + b.length ≤ (m.arrays t.arr).length then
        (some ⟨t.arr, t.len + b.length⟩,
          m.write t.arr ((m.arrays t.arr).take t.len ++ (b ++
            (m.arrays t.arr).drop (t.len + b.length))))
      else
        ((m.alloc spare (m.read s ++ b)).1, (m.alloc spare (m.read s ++ b)).2)

/-- The slices have arrays of their own, which are allocated and long enough. -/
structure Owns (m : Memory) (l : List (Option Slice)) : Prop where
  nodup : (l.filterMap fun s => s.map Slice.arr).Nodup
  valid : ∀ s, some s ∈ l → s.arr < m.next ∧ s.len ≤ (m.arrays s.arr).length

variable {spare} {m m' : Memory} {l : List (Option Slice)} {s : Option Slice} {b : Bytes}

lemma arrays_write_self (arr : Nat) (c : Bytes) : (m.write arr c).arrays arr = c :=
  update_self ..

lemma arrays_write_of_ne {arr a : Nat} (h : a ≠ arr) (c : Bytes) :
    (m.write arr c).arrays a = m.arrays a :=
  update_of_ne h _ _

lemma arrays_alloc_of_ne {a : Nat} (h : a ≠ m.next) (b : Bytes) :
    (m.alloc spare b).2.arrays a = m.arrays a :=
  update_of_ne h _ _

lemma owns_nil : m.Owns [] where
  nodup := nodup_nil
  valid := by simp

/-- Slices read what they read before as long as their arrays are not written to. -/
lemma read_congr {t : Option Slice} (h : ∀ u, t = some u → m'.arrays u.arr = m.arrays u.arr) :
    m'.read t = m.read t := by
  cases t with
  | none => rfl
  | some u => rw [read, read, h u rfl]

lemma Owns.left {l' : List (Option Slice)} (h : m.Owns (l ++ l')) : m.Owns l where
  nodup := by
    have hn := h.nodup
    rw [filterMap_append] at hn
    exact hn.of_append_left
  valid s hs := h.valid s (mem_append_left _ hs)

lemma Owns.concat_none (h : m.Owns l) : m.Owns (l ++ [none]) where
  nodup := by
    rw [filterMap_append]
    simpa using h.nodup
  valid s hs := h.valid s (by simpa using hs)

/-- The array of the last slice is none of the others'. -/
lemma Owns.arr_ne {t u : Slice} (h : m.Owns (l ++ [some t])) (hu : some u ∈ l) : u.arr ≠ t.arr := by
  have hn := h.nodup
  rw [filterMap_append] at hn
  have hdis := disjoint_of_nodup_append hn
  intro heq
  refine hdis (mem_filterMap.mpr ⟨some u, hu, rfl⟩) ?_
  simp [heq]

lemma owns_alloc (spare : Nat → Nat) (h : m.Owns l) (b : Bytes) :
    (m.alloc spare b).2.Owns (l ++ [some (m.alloc spare b).1]) ∧
      (∀ t ∈ l, (m.alloc spare b).2.read t = m.read t) ∧
      (m.alloc spare b).2.read (some (m.alloc spare b).1) = b := by
  have hne : ∀ u, some u ∈ l → u.arr ≠ m.next := fun u hu => (h.valid u hu).1.ne
  refine ⟨⟨?_, ?_⟩, ?_, ?_⟩
  · rw [filterMap_append]
    refine h.nodup.append (nodup_singleton m.next) ?_
    intro a ha hnext
    obtain ⟨t, ht, hta⟩ := mem_filterMap.mp ha
    obtain ⟨u, rfl, rfl⟩ := Option.map_eq_some_iff.mp hta
    exact hne u ht (mem_singleton.mp hnext)
  · intro t ht
    rcases mem_append.mp ht with ht | ht
    · obtain ⟨hlt, hlen⟩ := h.valid t ht
      refine ⟨Nat.lt_succ_of_lt hlt, ?_⟩
      rw [arrays_alloc_of_ne (hne t ht)]
      exact hlen
    · obtain rfl : t = (m.alloc spare b).1 := by simpa using ht
      exact ⟨Nat.lt_succ_self _, by simp [alloc]⟩
  · intro t ht
    refine read_congr fun u hu => ?_
    subst hu
    exact arrays_alloc_of_ne (hne u ht) b
  · simp [alloc, read]

/-- Writing to the array of the last slice leaves the others as they are. -/
lemma owns_write {t : Slice} {n : Nat} {c : Bytes} (h : m.Owns (l ++ [some t]))
    (hn : n ≤ c.length) :
    (m.write t.arr c).Owns (l ++ [some ⟨t.arr, n⟩]) ∧
      (∀ u ∈ l, (m.write t.arr c).read u = m.read u) := by
  refine ⟨⟨?_, ?_⟩, ?_⟩
  · have hnodup := h.nodup
    rw [filterMap_append] at hnodup ⊢
    exact hnodup
  · intro u hu
    rcases mem_append.mp hu with hu | hu
    · obtain ⟨hlt, hlen⟩ := h.valid u (mem_append_left _ hu)
      refine ⟨hlt, ?_⟩
      rw [arrays_write_of_ne (h.arr_ne hu)]
      exact hlen
    · obtain rfl : u = ⟨t.arr, n⟩ := by simpa using hu
      refine ⟨(h.valid t (by simp)).1, ?_⟩
      rw [arrays_write_self]
      exact hn
  · intro u hu
    refine read_congr fun v hv => ?_
    subst hv
    exact arrays_write_of_ne (h.arr_ne hu) c

/-- Appending to the last slice. -/
theorem owns_append (spare : Nat → Nat) (h : m.Owns (l ++ [s])) (b : Bytes) :
    (m.append spare s b).2.Owns (l ++ [(m.append spare s b).1]) ∧
      (∀ t ∈ l, (m.append spare s b).2.read t = m.read t) ∧
      (m.append spare s b).2.read (m.append spare s b).1 = m.read s ++ b := by
  unfold append
  split_ifs with hb
  · subst hb
    exact ⟨h, fun _ _ => rfl, (append_nil _).symm⟩
  · cases s with
    | none => exact owns_alloc spare h.left b
    | some t =>
      have hlen := (h.valid t (by simp)).2
      dsimp only
      split_ifs with hroom
      · have htake : ((m.arrays t.arr).take t.len ++ (b ++
            (m.arrays t.arr).drop (t.len + b.length))).length = (m.arrays t.arr).length := by
          simp only [length_append, length_take, length_drop]
          omega
        obtain ⟨howns, hread⟩ := owns_write h (hroom.trans htake.ge)
        refine ⟨howns, hread, ?_⟩
        rw [read, read, arrays_write_self, ← append_assoc, take_append_of_le_length,
          take_of_length_le]
        · simp only [length_append, length_take]
          omega
        · simp only [length_append, length_take]
          omega
      · exact owns_alloc spare h.left _

end Memory

end Slices
