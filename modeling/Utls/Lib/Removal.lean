import Utls.Lib.Exec

/-!
# Removing elements from a slice while scanning it

`loop` is the usual loop that cuts elements out of the slice it runs over: when the element at the
index is to go, the rest of the slice moves down by one, and the bound and the index are adjusted by
hand so that the element that has moved up is looked at next.  `keep` is the same as a recursion over
the elements, without indices.  The two are equal (`loop_eq`): the loop never leaves the slice, and
looks at every element from its first index on exactly once.
-/

namespace Removal

open Exec List

variable {ε σ α : Type}

/-- `for i < sliceLen; i++` over the slice `s`, where `remove i x` decides about the element `x` at
`i`.  The second list is a ghost, the elements that have been looked at. -/
def loop (remove : Nat → α → Prog ε σ Bool) :
    Nat → List α → Nat → Nat → Prog ε σ (List α × List α)
  | 0, _, _, _ => panicWith "the loop does not end"
  | fuel + 1, s, i, sliceLen =>
    if i < sliceLen then
      match s[i]? with
      | none => panicWith "index out of range"
      | some x => do
        let gone ← remove i x
        if gone then
          -- the decrement of the index and the increment of the loop cancel out
          let r ← loop remove fuel (s.take i ++ s.drop (i + 1)) i (sliceLen - 1)
          pure (r.1, x :: r.2)
        else
          let r ← loop remove fuel s (i + 1) sliceLen
          pure (r.1, x :: r.2)
    else if sliceLen ≤ s.length then pure (s.take sliceLen, [])
    else panicWith "slice bounds out of range"

/-- The elements of a list that stay, when the first of them would have the index `i`. -/
def keep (remove : Nat → α → Prog ε σ Bool) : Nat → List α → Prog ε σ (List α)
  | _, [] => pure []
  | i, x :: l => do
    let gone ← remove i x
    if gone then keep remove i l
    else
      let l' ← keep remove (i + 1) l
      pure (x :: l')

/-- The loop from the end of `front` on: nothing is indexed outside the slice, `front` is not touched
and every element of `rest` is looked at. -/
theorem loop_eq (remove : Nat → α → Prog ε σ Bool) (rest : List α) :
    ∀ (fuel : Nat) (front : List α), rest.length < fuel →
      loop remove fuel (front ++ rest) front.length (front ++ rest).length =
        (do let l ← keep remove front.length rest; pure (front ++ l, rest)) := by
  -- induction on what is left of the slice; a removal shortens it, a step moves its head to `front`
  induction rest with
  | nil =>
    intro fuel front hfuel
    obtain ⟨fuel, rfl⟩ : ∃ k, fuel = k + 1 := Nat.exists_eq_add_one.mpr hfuel
    simp [loop, keep]
  | cons x rest ih =>
    intro fuel front hfuel
    obtain ⟨fuel, rfl⟩ : ∃ k, fuel = k + 1 := Nat.exists_eq_add_one.mpr (Nat.zero_lt_of_lt hfuel)
    have hfuel' : rest.length < fuel := by
      rw [length_cons] at hfuel
      omega
    have hin : front.length < (front ++ x :: rest).length := by simp
    have hget : (front ++ x :: rest)[front.length]? = some x := by simp
    have hcut : (front ++ x :: rest).take front.length ++
        (front ++ x :: rest).drop (front.length + 1) = front ++ rest := by
      simp [drop_append]
    have hlen : (front ++ x :: rest).length - 1 = (front ++ rest).length := by simp
    have hmove : front ++ x :: rest = (front ++ [x]) ++ rest := by simp
    rw [loop, if_pos hin, hget, keep, hcut, hlen, ih fuel front hfuel']
    simp only [bind_assoc]
    refine bind_congr fun gone => ?_
    cases gone with
    | true => simp
    | false =>
      have hstep := ih fuel (front ++ [x]) hfuel'
      rw [← hmove, length_append, length_singleton] at hstep
      simp only [Bool.false_eq_true, if_false, hstep]
      simp

/-- A decision that only reads the element is a filter. -/
lemma keep_pure (p : α → Bool) (l : List α) :
    ∀ i, keep (fun _ x => (pure (p x) : Prog ε σ Bool)) i l = pure (l.filter fun x => !p x) := by
  induction l with
  | nil => exact fun _ => rfl
  | cons x l ih =>
    intro i
    rw [keep, pure_bind]
    cases hp : p x with
    | true => simp [ih, hp]
    | false => simp [ih, hp]

/-- A decision that always returns and moves the state by `next` is made once for every element, and
what stays is in its old order. -/
lemma keep_sublist {remove : Nat → α → Prog ε σ Bool} {next : σ → σ}
    (h : ∀ i x s, ∃ gone, remove i x s = .ok gone (next s)) (l : List α) :
    ∀ i s, ∃ l', keep remove i l s = .ok l' (next^[l.length] s) ∧ l'.Sublist l := by
  induction l with
  | nil => exact fun _ s => ⟨[], rfl, .slnil⟩
  | cons x l ih =>
    intro i s
    obtain ⟨gone, hgone⟩ := h i x s
    cases gone with
    | true =>
      obtain ⟨l', hrun, hsub⟩ := ih i (next s)
      exact ⟨l', by simp [keep, hgone, hrun], hsub.cons x⟩
    | false =>
      obtain ⟨l', hrun, hsub⟩ := ih (i + 1) (next s)
      exact ⟨x :: l', by simp [keep, hgone, hrun], hsub.cons_cons x⟩

end Removal
