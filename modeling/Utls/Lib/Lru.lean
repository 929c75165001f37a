import Mathlib.Data.Finmap
import Mathlib.Tactic

/-!
# Least-recently-used maps

A `Store` is a finite map in which every key carries the time of its last use.  A key is used
when a value is put under it and when a lookup finds it.  `Step capacity` is what one operation
does to a store that may hold `capacity` keys: a new key that does not fit takes the place of a
key that was used least recently.

Implementations do not keep times.  They keep the keys in a list with the latest use at the
front, which is what `AList.insert` does to an association list.  `Store.OrderedBy` says that a
list holds the entries of a store in this order, and the lemmas about it say that moving to the
front, removing, and giving up the last entry of the list are the steps of the store.
-/

namespace Lru

open List Function

/-- An operation on a map; putting nothing under a key removes the key. -/
inductive Op (κ σ : Type) where
  | put (k : κ) (v : Option σ)
  | get (k : κ)
  deriving DecidableEq

/-- The answer to an operation.  An implementation may find an empty value under a key. -/
inductive Answer (σ : Type) where
  | done
  | notFound
  | found (v : Option σ)
  deriving DecidableEq

variable {κ σ : Type} [DecidableEq κ]

/-- A finite map with the time of the last use of every key. -/
structure Store (κ σ : Type) where
  held : Finmap fun _ : κ => σ
  used : κ → Nat
  now : Nat

namespace Store

/-- The store that holds nothing. -/
def empty : Store κ σ := ⟨∅, fun _ => 0, 0⟩

/-- Uses the key `k`. -/
def touch (s : Store κ σ) (k : κ) : Store κ σ :=
  { s with used := Function.update s.used k s.now, now := s.now + 1 }

/-- Puts `v` under `k`, which uses `k`. -/
def insert (s : Store κ σ) (k : κ) (v : σ) : Store κ σ :=
  { s.touch k with held := s.held.insert k v }

/-- Removes the key `k`. -/
def remove (s : Store κ σ) (k : κ) : Store κ σ := { s with held := s.held.erase k }

end Store

/-- What an operation answers and does to a store of at most `capacity` keys. -/
inductive Step (capacity : Nat) : Store κ σ → Op κ σ → Answer σ → Store κ σ → Prop
  | hit {s k v} (h : s.held.lookup k = some v) :
      Step capacity s (.get k) (.found (some v)) (s.touch k)
  | miss {s k} (h : k ∉ s.held) : Step capacity s (.get k) .notFound s
  | remove {s k} : Step capacity s (.put k none) .done (s.remove k)
  | store {s k v} (h : k ∈ s.held ∨ s.held.keys.card < capacity) :
      Step capacity s (.put k (some v)) .done (s.insert k v)
  | evict {s k v w} (hk : k ∉ s.held) (hfull : s.held.keys.card = capacity) (hw : w ∈ s.held)
      (hleast : ∀ x ∈ s.held, s.used w ≤ s.used x) :
      Step capacity s (.put k (some v)) .done ((s.remove w).insert k v)

/-! ## Lists with the latest use at the front -/

/-- Applies `f` to the values of an association list. -/
def mapValues {ω : Type} (f : σ → ω) (l : AList fun _ : κ => σ) : AList fun _ : κ => ω where
  entries := l.entries.map fun e => ⟨e.1, f e.2⟩
  nodupKeys := by
    rw [List.NodupKeys, List.keys, List.map_map]
    exact l.nodupKeys

section mapValues

variable {ω : Type} (f : σ → ω) (l : AList fun _ : κ => σ)

omit [DecidableEq κ] in
@[simp] lemma keys_mapValues : (mapValues f l).keys = l.keys := by
  simp [mapValues, AList.keys, List.keys]

omit [DecidableEq κ] in
lemma mem_mapValues {k : κ} : k ∈ mapValues f l ↔ k ∈ l := by
  rw [AList.mem_keys, keys_mapValues, AList.mem_keys]

lemma mapValues_erase (k : κ) : mapValues f (l.erase k) = (mapValues f l).erase k := by
  refine AList.ext ?_
  change (kerase k l.entries).map _ = kerase k (l.entries.map _)
  rw [kerase, kerase, eraseP_map]
  rfl

lemma mapValues_insert (k : κ) (v : σ) :
    mapValues f (l.insert k v) = (mapValues f l).insert k (f v) := by
  refine AList.ext ?_
  have herase := congrArg AList.entries (mapValues_erase f l k)
  change _ :: (mapValues f (l.erase k)).entries = _ :: ((mapValues f l).erase k).entries
  rw [herase]

lemma lookup_mapValues (k : κ) : (mapValues f l).lookup k = (l.lookup k).map f := by
  cases h : l.lookup k with
  | none =>
    rw [AList.lookup_eq_none] at h
    exact AList.lookup_eq_none.mpr fun hk => h ((mem_mapValues f l).mp hk)
  | some v =>
    refine AList.mem_lookup_iff.mpr ?_
    exact List.mem_map.mpr ⟨⟨k, v⟩, AList.mem_lookup_iff.mp h, rfl⟩

end mapValues

/-- The list holds the entries of the store, the latest use first. -/
structure Store.OrderedBy (s : Store κ σ) (l : AList fun _ : κ => σ) : Prop where
  held : s.held = l.toFinmap
  recent : l.keys.Pairwise fun a b => s.used b < s.used a
  past : ∀ k ∈ l, s.used k < s.now

namespace Store.OrderedBy

variable {s : Store κ σ} {l : AList fun _ : κ => σ} {k w : κ} {v : σ}

omit [DecidableEq κ] in
lemma empty : (Store.empty : Store κ σ).OrderedBy ∅ where
  held := rfl
  recent := List.Pairwise.nil
  past := by simp

variable (h : s.OrderedBy l)

include h

lemma lookup_eq (k : κ) : s.held.lookup k = l.lookup k := by
  rw [h.held]
  exact Finmap.lookup_toFinmap k l

omit [DecidableEq κ] in
lemma mem_iff : k ∈ s.held ↔ k ∈ l := by
  rw [h.held]
  exact Finmap.mem_toFinmap

omit [DecidableEq κ] in
lemma card_keys : s.held.keys.card = l.entries.length := by
  rw [h.held]
  have hval : l.toFinmap.keys.val = l.keys := Finmap.keys_val l
  rw [Finset.card_def, hval]
  simp [AList.keys, List.keys]

/-- Removing a key keeps the order of the others. -/
lemma remove (k : κ) : (s.remove k).OrderedBy (l.erase k) where
  held := by
    change s.held.erase k = _
    rw [h.held]
    exact Finmap.erase_toFinmap k l
  recent := by
    rw [AList.keys_erase]
    exact h.recent.sublist erase_sublist
  past := fun x hx => h.past x (AList.mem_erase.mp hx).2

/-- Putting a value under a key moves the key to the front. -/
theorem insert (k : κ) (v : σ) : (s.insert k v).OrderedBy (l.insert k v) where
  held := by
    change s.held.insert k v = _
    rw [h.held]
    exact Finmap.insert_toFinmap k v l
  recent := by
    rw [AList.keys_insert]
    -- every other key keeps its time, which lies before the present one
    have hother : ∀ b ∈ l.keys.erase k, (s.insert k v).used b = s.used b := by
      intro b hb
      have hne : b ≠ k := (l.keys_nodup.mem_erase_iff.mp hb).1
      exact update_of_ne hne _ _
    refine pairwise_cons.mpr ⟨fun b hb => ?_, ?_⟩
    · rw [hother b hb]
      have hk : (s.insert k v).used k = s.now := update_self _ _ _
      rw [hk]
      exact h.past b (AList.mem_keys.mpr (mem_of_mem_erase hb))
    · refine (h.recent.sublist erase_sublist).imp_of_mem ?_
      intro a b ha hb hab
      rw [hother a ha, hother b hb]
      exact hab
  past := by
    intro x hx
    change Function.update s.used k s.now x < s.now + 1
    rcases eq_or_ne x k with rfl | hne
    · rw [update_self]
      exact Nat.lt_succ_self _
    · rw [update_of_ne hne]
      have hmem : x ∈ l := ((AList.mem_insert l).mp hx).resolve_left hne
      exact (h.past x hmem).trans (Nat.lt_succ_self _)

/-- Looking a key up moves it to the front. -/
lemma touch (hv : l.lookup k = some v) : (s.touch k).OrderedBy (l.insert k v) := by
  have hsame : s.insert k v = s.touch k := by
    have hheld : s.held.insert k v = s.held := by
      refine Finmap.ext_lookup fun x => ?_
      rcases eq_or_ne x k with rfl | hne
      · rw [Finmap.lookup_insert, h.lookup_eq, hv]
      · exact Finmap.lookup_insert_of_ne _ hne
    change { s.touch k with held := s.held.insert k v } = s.touch k
    rw [hheld]
    rfl
  rw [← hsame]
  exact h.insert k v

omit [DecidableEq κ] in
/-- The last key of the list was used least recently. -/
lemma used_getLast (hw : l.keys.getLast? = some w) : ∀ x ∈ s.held, s.used w ≤ s.used x := by
  intro x hx
  obtain ⟨init, hinit⟩ := getLast?_eq_some_iff.mp hw
  have hmem : x ∈ init ++ [w] := hinit ▸ AList.mem_keys.mp (h.mem_iff.mp hx)
  have hrecent := h.recent
  rw [hinit] at hrecent
  rcases mem_append.mp hmem with hxi | hxw
  · exact ((pairwise_append.mp hrecent).2.2 x hxi w (mem_singleton_self w)).le
  · exact (congrArg s.used (mem_singleton.mp hxw)).ge

end Store.OrderedBy

end Lru
