import Utls.Lib.Bytes

/-!
# Writing into a buffer by index

An encoder that is given a buffer writes its bytes at computed positions.  The operations below
replace bytes in the middle of a list, and the lemmas read a buffer as a part in front of the
position, the part that is overwritten, and a part behind it:

* `putU16` and `putU32` write an integer and `copyAt` a whole string;
* `putEach` is the loop that writes items one behind the other.
-/

namespace Wire

open List

/-- `b[i] = byte(n >> 8)` and `b[i+1] = byte(n)`. -/
def putU16 (b : Bytes) (i n : Nat) : Bytes :=
  (b.set i (UInt8.ofNat (n / 256))).set (i + 1) (UInt8.ofNat n)

/-- The four bytes of a `uint32`, from `b[i]` on. -/
def putU32 (b : Bytes) (i n : Nat) : Bytes :=
  putU16 (putU16 b i (n / 65536)) (i + 2) n

/-- `copy(b[i:], s)`: as much of `s` as there is room for. -/
def copyAt (b : Bytes) (i : Nat) (s : Bytes) : Bytes :=
  b.take i ++ (s.take (b.length - i) ++ b.drop (i + s.length))

section

variable {α : Type} (put : Bytes → Nat → α → Bytes) (size : α → Nat)

/-- Writes items from the position `i` on; an item moves the position by its size. -/
def putEach : Bytes → Nat → List α → Bytes
  | b, _, [] => b
  | b, i, x :: xs => putEach (put b i x) (i + size x) xs

end

variable {p a r : Bytes}

lemma set_mid (x y : UInt8) : (p ++ x :: r).set p.length y = p ++ y :: r := by
  rw [set_append_right _ _ le_rfl, Nat.sub_self, set_cons_zero]

lemma putU16_mid (ha : a.length = 2) (n : Nat) :
    putU16 (p ++ (a ++ r)) p.length n = p ++ (u16 n ++ r) := by
  obtain ⟨x, y, rfl⟩ := length_eq_two.mp ha
  have h := set_mid (p := p ++ [UInt8.ofNat (n / 256)]) (r := r) y (UInt8.ofNat n)
  simp only [append_assoc, cons_append, nil_append, length_append, length_singleton] at h
  rw [putU16, cons_append, set_mid, cons_append, nil_append, h]
  rfl

lemma putU32_mid (ha : a.length = 4) (n : Nat) :
    putU32 (p ++ (a ++ r)) p.length n = p ++ (u32 n ++ r) := by
  have htake : (a.take 2).length = 2 := by rw [length_take]; omega
  have hdrop : (a.drop 2).length = 2 := by rw [length_drop]; omega
  have h1 := putU16_mid (p := p) (r := a.drop 2 ++ r) htake (n / 65536)
  have h2 := putU16_mid (p := p ++ u16 (n / 65536)) (r := r) hdrop n
  rw [← append_assoc (a.take 2), take_append_drop] at h1
  rw [length_append, length_u16, append_assoc] at h2
  rw [putU32, h1, h2, append_assoc]
  simp only [u32, u16, Nat.div_div_eq_div_mul]
  rfl

lemma copyAt_mid {s : Bytes} (ha : a.length = s.length) :
    copyAt (p ++ (a ++ r)) p.length s = p ++ (s ++ r) := by
  have hroom : s.length ≤ (p ++ (a ++ r)).length - p.length := by
    simp only [length_append]
    omega
  rw [copyAt, take_left, take_of_length_le hroom, ← drop_drop, drop_left, ← ha, drop_left]

lemma copyAt_nil {b s : Bytes} {i : Nat} (h : s = []) : copyAt b i s = b := by
  rw [h, copyAt, take_nil, nil_append, length_nil, Nat.add_zero, take_append_drop]

@[simp] lemma length_putU16 (b : Bytes) (i n : Nat) : (putU16 b i n).length = b.length := by
  simp [putU16]

lemma getElem?_copyAt {b : Bytes} {i j : Nat} (hj : j < i) (hi : i ≤ b.length) (s : Bytes) :
    (copyAt b i s)[j]? = b[j]? := by
  have hfront : j < (b.take i).length := by
    rw [length_take]
    omega
  rw [copyAt, getElem?_append_left hfront, getElem?_take_of_lt hj]

/-- A loop whose items are written as `enc` writes the concatenation of the encodings. -/
lemma putEach_mid {α : Type} {put : Bytes → Nat → α → Bytes} {size : α → Nat} (enc : α → Bytes)
    (hput : ∀ p a r x, a.length = (enc x).length →
      put (p ++ (a ++ r)) p.length x = p ++ (enc x ++ r)) (hsize : ∀ x, size x = (enc x).length) :
    ∀ (xs : List α) (p a r : Bytes), a.length = (xs.flatMap enc).length →
      putEach put size (p ++ (a ++ r)) p.length xs = p ++ (xs.flatMap enc ++ r) := by
  intro xs
  induction xs with
  | nil =>
    intro p a r ha
    rw [length_eq_zero_iff.mp ha]
    rfl
  | cons x xs ih =>
    intro p a r ha
    -- Split the room off for the first item; what is behind it is room for the others.
    rw [flatMap_cons, length_append] at ha
    have htake : (a.take (enc x).length).length = (enc x).length := by
      rw [length_take]
      omega
    have hdrop : (a.drop (enc x).length).length = (xs.flatMap enc).length := by
      rw [length_drop]
      omega
    have hsplit : a ++ r = a.take (enc x).length ++ (a.drop (enc x).length ++ r) := by
      rw [← append_assoc, take_append_drop]
    have hrest := ih (p ++ enc x) (a.drop (enc x).length) r hdrop
    simp only [append_assoc, length_append] at hrest
    rw [putEach, hsplit, hput _ _ _ _ htake, hsize, hrest, flatMap_cons, append_assoc]

end Wire
