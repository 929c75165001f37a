import Mathlib.Data.List.Basic
import Mathlib.Tactic

/-!
# The last write wins

A list of writers sets a cell one after the other: `lastWrite w l x` is what the cell holds
afterwards, where `w a` is the value that `a` writes, if it writes at all.  Writers carry keys, and
a list has at most one writer of each key.

* With one key that writes, the order of the list does not matter (`lastWrite_perm`).
* With two, the value is that of the writer that stands behind the other (`lastWrite_of_before`).
-/

namespace LastWrite

open List

variable {α β κ : Type}

/-- The content of a cell after the writes of `l`. -/
def lastWrite (w : α → Option β) (l : List α) (x : β) : β := l.foldl (fun x a => (w a).getD x) x

/-- The last value that is written, if there is one. -/
def lastValue (w : α → Option β) (l : List α) : Option β := l.foldl (fun o a => (w a).or o) none

/-- `a` stands in front of `b`. -/
def Before (l : List α) (a b : α) : Prop := ∃ l₁ l₂ l₃, l = l₁ ++ a :: (l₂ ++ b :: l₃)

variable {w : α → Option β} {l l₁ l₂ l' : List α} {a b : α} {x y : β}

lemma lastWrite_append : lastWrite w (l₁ ++ l₂) x = lastWrite w l₂ (lastWrite w l₁ x) :=
  foldl_append

lemma lastWrite_of_none (h : ∀ a ∈ l, w a = none) : lastWrite w l x = x := by
  induction l with
  | nil => rfl
  | cons a l ih =>
    have ha : w a = none := h a (by simp)
    have hl := ih fun b hb => h b (by simp [hb])
    rw [lastWrite, foldl_cons, ha]
    exact hl

/-- A writer that no other writer follows decides. -/
lemma lastWrite_of_last (ha : w a = some y) (h : ∀ b ∈ l₂, w b = none) :
    lastWrite w (l₁ ++ a :: l₂) x = y := by
  have htail : lastWrite w (a :: l₂) (lastWrite w l₁ x) = lastWrite w l₂ y := by
    rw [lastWrite, foldl_cons, ha]
    rfl
  rw [lastWrite_append, htail, lastWrite_of_none h]

lemma lastValue_append_singleton : lastValue w (l ++ [a]) = (w a).or (lastValue w l) := by
  rw [lastValue, foldl_append]
  rfl

/-- There is a last value if there is one at all. -/
lemma exists_lastValue (ha : a ∈ l) (hy : w a = some y) : ∃ z, lastValue w l = some z := by
  induction l using reverseRecOn with
  | nil => cases ha
  | append_singleton l b ih =>
    rw [lastValue_append_singleton]
    cases hb : w b with
    | some z => exact ⟨z, rfl⟩
    | none =>
      rcases mem_append.mp ha with ha | ha
      · exact ih ha
      · rw [← mem_singleton.mp ha, hy] at hb
        cases hb

lemma lastValue_take_succ {i : Nat} (h : l[i]? = some a) :
    lastValue w (l.take (i + 1)) = (w a).or (lastValue w (l.take i)) := by
  rw [take_add_one, h]
  exact lastValue_append_singleton

lemma lastWrite_eq_getD : lastWrite w l x = (lastValue w l).getD x := by
  induction l using reverseRecOn with
  | nil => rfl
  | append_singleton l a ih =>
    rw [lastWrite_append, lastValue_append_singleton]
    change (w a).getD (lastWrite w l x) = _
    rw [ih]
    cases w a <;> rfl

/-- Leaving out what writes nothing changes nothing. -/
lemma lastValue_filter {p : α → Bool} (h : ∀ a, p a = false → w a = none) :
    lastValue w (l.filter p) = lastValue w l := by
  induction l using reverseRecOn with
  | nil => rfl
  | append_singleton l a ih =>
    rw [filter_append, lastValue_append_singleton]
    cases hp : p a with
    | true =>
      rw [filter_singleton, hp]
      exact lastValue_append_singleton.trans (by rw [ih])
    | false =>
      rw [filter_singleton, hp, h a hp, Option.none_or, ← ih]
      exact congrArg (lastValue w) (append_nil _)

lemma lastValue_map {γ : Type} {f : γ → α} {m : List γ} :
    lastValue w (m.map f) = lastValue (fun c => w (f c)) m := by
  rw [lastValue, foldl_map]
  rfl

lemma before_or_before (ha : a ∈ l) (hb : b ∈ l) (hne : a ≠ b) : Before l a b ∨ Before l b a := by
  obtain ⟨l₁, l₂, rfl⟩ := append_of_mem ha
  rcases mem_append.mp hb with hb | hb
  · obtain ⟨m1, m2, rfl⟩ := append_of_mem hb
    refine .inr ⟨m1, m2, l₂, ?_⟩
    rw [append_assoc, cons_append]
  · obtain ⟨m1, m2, rfl⟩ := append_of_mem ((mem_cons.mp hb).resolve_left hne.symm)
    exact .inl ⟨l₁, m1, m2, rfl⟩

section Keys

variable {key : α → κ}

lemma eq_of_key_eq (hl : (l.map key).Nodup) (ha : a ∈ l) (hb : b ∈ l) (h : key a = key b) : a = b :=
  inj_on_of_nodup_map hl ha hb h

/-- Behind an element there is no other element with its key. -/
lemma key_ne_of_append (hl : ((l₁ ++ a :: l₂).map key).Nodup) (hb : b ∈ l₂) : key b ≠ key a := by
  rw [map_append, map_cons] at hl
  intro h
  have hnot := (nodup_cons.mp (nodup_append.mp hl).2.1).1
  exact hnot (h ▸ List.mem_map_of_mem hb)

/-- A cell that only writers of one key set holds the value of that writer. -/
lemma lastWrite_of_unique (hl : (l.map key).Nodup) (hw : ∀ c ∈ l, w c ≠ none → key c = key a)
    (ha : a ∈ l) (hy : w a = some y) : lastWrite w l x = y := by
  obtain ⟨l₁, l₂, rfl⟩ := append_of_mem ha
  refine lastWrite_of_last hy fun b hb => ?_
  by_contra hne
  exact key_ne_of_append hl hb (hw b (by simp [hb]) hne)

/-- A cell that only writers of one key set does not depend on the order. -/
theorem lastWrite_perm {k : κ} (hl : (l.map key).Nodup) (hperm : l'.Perm l)
    (hw : ∀ c ∈ l, w c ≠ none → key c = k) : lastWrite w l' x = lastWrite w l x := by
  have hl' : (l'.map key).Nodup := (hperm.map key).nodup_iff.mpr hl
  by_cases h : ∃ a ∈ l, w a ≠ none
  · obtain ⟨a, ha, hwa⟩ := h
    obtain ⟨y, hy⟩ := Option.ne_none_iff_exists'.mp hwa
    have hkey : ∀ c ∈ l, w c ≠ none → key c = key a := fun c hc hwc => by
      rw [hw c hc hwc, hw a ha hwa]
    have hkey' : ∀ c ∈ l', w c ≠ none → key c = key a := fun c hc => hkey c (hperm.mem_iff.mp hc)
    rw [lastWrite_of_unique hl hkey ha hy, lastWrite_of_unique hl' hkey' (hperm.mem_iff.mpr ha) hy]
  · have hnone : ∀ a ∈ l, w a = none := fun a ha => by
      by_contra hne
      exact h ⟨a, ha, hne⟩
    rw [lastWrite_of_none hnone, lastWrite_of_none fun a ha => hnone a (hperm.mem_iff.mp ha)]

/-- Of two writers, the one behind the other decides. -/
theorem lastWrite_of_before (hl : (l.map key).Nodup)
    (hw : ∀ c, w c ≠ none → key c = key a ∨ key c = key b) (h : Before l a b) (hy : w b = some y) :
    lastWrite w l x = y := by
  obtain ⟨l₁, l₂, l3, rfl⟩ := h
  have hl' : (((l₁ ++ a :: l₂) ++ b :: l3).map key).Nodup := by
    rwa [append_assoc, cons_append]
  have hlast : lastWrite w ((l₁ ++ a :: l₂) ++ b :: l3) x = y := by
    refine lastWrite_of_last hy fun c hc => ?_
    by_contra hne
    rcases hw c hne with hca | hcb
    · exact key_ne_of_append hl (by simp [hc]) hca
    · exact key_ne_of_append hl' hc hcb
  rwa [append_assoc, cons_append] at hlast

/-- Two writers leave the same value in both orders of a list exactly when they write the same or
stand in the same order. -/
lemma lastWrite_pair_iff {z : β} (hl : (l.map key).Nodup) (hperm : l'.Perm l)
    (hw : ∀ c, w c ≠ none → key c = key a ∨ key c = key b) (ha : a ∈ l) (hb : b ∈ l) (hne : a ≠ b)
    (hy : w a = some y) (hz : w b = some z) :
    lastWrite w l' x = lastWrite w l x ↔
      y = z ∨ (Before l a b ∧ Before l' a b) ∨ (Before l b a ∧ Before l' b a) := by
  have hl' : (l'.map key).Nodup := (hperm.map key).nodup_iff.mpr hl
  have hw' : ∀ c, w c ≠ none → key c = key b ∨ key c = key a := fun c hc => (hw c hc).symm
  have horder := before_or_before ha hb hne
  have horder' := before_or_before (hperm.mem_iff.mpr ha) (hperm.mem_iff.mpr hb) hne
  have last_b {m : List α} (hm : (m.map key).Nodup) (h : Before m a b) : lastWrite w m x = z :=
    lastWrite_of_before hm hw h hz
  have last_a {m : List α} (hm : (m.map key).Nodup) (h : Before m b a) : lastWrite w m x = y :=
    lastWrite_of_before hm hw' h hy
  constructor
  · intro heq
    rcases horder with h | h <;> rcases horder' with h' | h'
    · exact .inr (.inl ⟨h, h'⟩)
    · rw [last_b hl h, last_a hl' h'] at heq
      exact .inl heq
    · rw [last_a hl h, last_b hl' h'] at heq
      exact .inl heq.symm
    · exact .inr (.inr ⟨h, h'⟩)
  · rintro (rfl | ⟨h, h'⟩ | ⟨h, h'⟩)
    · have both {m : List α} (hm : (m.map key).Nodup) (h : Before m a b ∨ Before m b a) :
          lastWrite w m x = y := h.elim (last_b hm) (last_a hm)
      rw [both hl horder, both hl' horder']
    · rw [last_b hl h, last_b hl' h']
    · rw [last_a hl h, last_a hl' h']

end Keys

end LastWrite
