import Mathlib.Data.List.Basic
import Mathlib.Tactic

/-!
# Sequences whose neighbours may be merged

A producer appends entries to a sequence, and an entry may be merged into the one in front of it.
`push` appends with merging, `coalesce` merges a whole sequence, and `assemble` merges a sequence
in which some entries are *sealed off*: what such an entry follows was no longer open to merging
when it was appended.

For a lawful merge, merging a part of a sequence early does not change what it coalesces to
(`coalesce_append_push`), and no reading of the entries that merging concatenates is lost
(`flatMap_assemble`).
-/

namespace Coalesce

open List

variable {α β : Type}

section Defs

variable (merge : α → α → Option α)

/-- Appends an entry, merging it into the last one where that is possible. -/
def push : List α → α → List α
  | [], a => [a]
  | [b], a => ((merge b a).map fun c => [c]).getD [b, a]
  | b :: c :: l, a => b :: push (c :: l) a

/-- Merges all neighbours of a sequence. -/
def coalesce (l : List α) : List α := l.foldl (push merge) []

/-- Appends an entry; a sealed-off one is not merged. -/
def pushSealed (l : List α) (e : α × Bool) : List α := if e.2 then l ++ [e.1] else push merge l e.1

/-- Merges neighbours of a sequence, except where an entry is sealed off. -/
def assemble (log : List (α × Bool)) : List α := log.foldl (pushSealed merge) []

/-- Merging is associative, and an entry that takes in what follows it is no more open to the one in
front of it than before. -/
structure Lawful : Prop where
  assoc : ∀ {a b c ab bc}, merge a b = some ab → merge b c = some bc →
    ∃ abc, merge ab c = some abc ∧ merge a bc = some abc
  none_left : ∀ {a b c bc}, merge b c = some bc → merge a b = none → merge a bc = none

end Defs

variable {merge : α → α → Option α}

@[simp] lemma push_nil (a : α) : push merge [] a = [a] := rfl

lemma push_singleton_some {a b c : α} (h : merge b a = some c) : push merge [b] a = [c] := by
  simp [push, h]

lemma push_singleton_none {a b : α} (h : merge b a = none) : push merge [b] a = [b, a] := by
  simp [push, h]

lemma push_append {l' : List α} (hne : l' ≠ []) (l : List α) (a : α) :
    push merge (l ++ l') a = l ++ push merge l' a := by
  induction l with
  | nil => rfl
  | cons b l ih =>
    obtain ⟨c, t, hc⟩ := exists_cons_of_ne_nil (append_ne_nil_of_right_ne_nil l hne)
    rw [cons_append, hc, push, ← hc, ih, cons_append]

@[simp] lemma coalesce_concat (l : List α) (a : α) :
    coalesce merge (l ++ [a]) = push merge (coalesce merge l) a := by
  simp [coalesce]

@[simp] lemma assemble_concat (log : List (α × Bool)) (e : α × Bool) :
    assemble merge (log ++ [e]) = pushSealed merge (assemble merge log) e := by
  simp [assemble]

/-! ## Merging early -/

/-- Appending a merged entry is appending its parts. -/
lemma push_merged (hm : Lawful merge) {a b c : α} (h : merge b a = some c) (l : List α) :
    push merge l c = push merge (push merge l b) a := by
  rcases eq_nil_or_concat l with rfl | ⟨l', z, rfl⟩
  · rw [push_nil, push_nil, push_singleton_some h]
  · rw [concat_eq_append, push_append (by simp), push_append (by simp)]
    cases hz : merge z b with
    | some zb =>
      obtain ⟨zba, hzba, hzc⟩ := hm.assoc hz h
      rw [push_singleton_some hz, push_append (by simp), push_singleton_some hzba,
        push_singleton_some hzc]
    | none =>
      have hbreak : push merge (l' ++ [z, b]) a = (l' ++ [z]) ++ push merge [b] a := by
        rw [← push_append (by simp), append_assoc]
        rfl
      rw [push_singleton_none hz, hbreak, push_singleton_some h,
        push_singleton_none (hm.none_left h hz), append_assoc]
      rfl

lemma foldl_push_push (hm : Lawful merge) (acc m : List α) (a : α) :
    (push merge m a).foldl (push merge) acc = push merge (m.foldl (push merge) acc) a := by
  rcases eq_nil_or_concat m with rfl | ⟨m', b, rfl⟩
  · rfl
  · rw [concat_eq_append, push_append (by simp)]
    cases h : merge b a with
    | some c =>
      rw [push_singleton_some h]
      simp only [foldl_append, foldl_cons, foldl_nil]
      exact push_merged hm h _
    | none =>
      rw [push_singleton_none h]
      simp only [foldl_append, foldl_cons, foldl_nil]

/-- A sequence whose end was merged early coalesces to the same sequence. -/
theorem coalesce_append_push (hm : Lawful merge) (l m : List α) (a : α) :
    coalesce merge (l ++ push merge m a) = push merge (coalesce merge (l ++ m)) a := by
  rw [coalesce, coalesce, foldl_append, foldl_append, foldl_push_push hm]

/-- Sealing entries off does not change what a sequence coalesces to. -/
lemma coalesce_assemble (hm : Lawful merge) (log : List (α × Bool)) :
    coalesce merge (assemble merge log) = coalesce merge (log.map Prod.fst) := by
  induction log using reverseRecOn with
  | nil => rfl
  | append_singleton log e ih =>
    rw [assemble_concat, pushSealed, map_append, map_singleton, coalesce_concat, ← ih]
    split_ifs
    · exact coalesce_concat _ _
    · exact coalesce_append_push hm [] (assemble merge log) e.1

/-! ## Readings of the entries -/

section Reading

variable {read : α → List β} (hread : ∀ {a b c}, merge a b = some c → read c = read a ++ read b)

include hread

lemma flatMap_push (l : List α) (a : α) :
    (push merge l a).flatMap read = l.flatMap read ++ read a := by
  rcases eq_nil_or_concat l with rfl | ⟨l', b, rfl⟩
  · simp
  · rw [concat_eq_append, push_append (by simp)]
    cases h : merge b a with
    | some c => simp [push_singleton_some h, hread h]
    | none => simp [push_singleton_none h]

/-- Merging keeps what the entries concatenate to. -/
theorem flatMap_assemble (log : List (α × Bool)) :
    (assemble merge log).flatMap read = log.flatMap fun e => read e.1 := by
  induction log using reverseRecOn with
  | nil => rfl
  | append_singleton log e ih =>
    rw [assemble_concat, pushSealed, flatMap_append, ← ih]
    split_ifs
    · simp
    · simp [flatMap_push hread]

end Reading

end Coalesce
