import Mathlib.Data.List.Basic
import Mathlib.Tactic

/-!
# Big-endian byte strings

A wire format is written with fixed-width big-endian integers and length-prefixed
vectors, and is read back from the front of a byte string.  This file fixes the
two halves and proves that they are inverse.

* `u8`, `u16`, `u24`, `u32` write the low bytes of a number, as a conversion to a
  machine byte does: a number that is too large is truncated, not refused.
* `lp8`, `lp16`, `lp24` are the length-prefixed vectors of a *checked* builder: they
  fail when the length does not fit its prefix.
* `readU8`, `readU16`, … take a value from the front of a string and return the rest.
* `parseAll` repeats an item reader until the string is empty, `drainAll` one that carries a state.
-/

namespace Wire

open List Option

/-- A byte string. -/
abbrev Bytes := List UInt8

/-! ## Writers -/

/-- The low byte of `n`. -/
def u8 (n : Nat) : Bytes := [UInt8.ofNat n]

/-- The two low bytes of `n`, most significant first. -/
def u16 (n : Nat) : Bytes := [UInt8.ofNat (n / 256), UInt8.ofNat n]

/-- The three low bytes of `n`, most significant first. -/
def u24 (n : Nat) : Bytes := [UInt8.ofNat (n / 65536), UInt8.ofNat (n / 256), UInt8.ofNat n]

/-- The four low bytes of `n`, most significant first. -/
def u32 (n : Nat) : Bytes :=
  [UInt8.ofNat (n / 16777216), UInt8.ofNat (n / 65536), UInt8.ofNat (n / 256), UInt8.ofNat n]

@[simp] lemma length_u8 (n : Nat) : (u8 n).length = 1 := rfl
@[simp] lemma length_u16 (n : Nat) : (u16 n).length = 2 := rfl
@[simp] lemma length_u24 (n : Nat) : (u24 n).length = 3 := rfl
@[simp] lemma length_u32 (n : Nat) : (u32 n).length = 4 := rfl

/-- A vector behind a length prefix written by `pre`; `none` when the length reaches `bound`. -/
def lp (bound : Nat) (pre : Nat → Bytes) (b : Bytes) : Option Bytes :=
  if b.length < bound then some (pre b.length ++ b) else none

/-- A vector with a one-byte length prefix. -/
def lp8 : Bytes → Option Bytes := lp 256 u8

/-- A vector with a two-byte length prefix. -/
def lp16 : Bytes → Option Bytes := lp 65536 u16

/-- A vector with a three-byte length prefix. -/
def lp24 : Bytes → Option Bytes := lp 16777216 u24

variable {b c s r : Bytes}

lemma lp_eq_some {bound : Nat} {pre : Nat → Bytes} :
    lp bound pre b = some c ↔ b.length < bound ∧ c = pre b.length ++ b := by
  unfold lp
  split_ifs with h
  · simp only [some.injEq, h, true_and]
    exact eq_comm
  · simp [h]

lemma lp8_eq_some :
    lp8 b = some c ↔ b.length < 256 ∧ c = u8 b.length ++ b := lp_eq_some

lemma lp16_eq_some :
    lp16 b = some c ↔ b.length < 65536 ∧ c = u16 b.length ++ b := lp_eq_some

lemma lp24_eq_some :
    lp24 b = some c ↔ b.length < 16777216 ∧ c = u24 b.length ++ b := lp_eq_some

/-! ## Readers -/

/-- Takes one byte. -/
def readU8 : Bytes → Option (UInt8 × Bytes)
  | a :: s => some (a, s)
  | _ => none

/-- Takes a two-byte integer. -/
def readU16 : Bytes → Option (UInt16 × Bytes)
  | a :: b :: s => some (UInt16.ofNat (a.toNat * 256 + b.toNat), s)
  | _ => none

/-- Takes a three-byte integer. -/
def readU24 : Bytes → Option (Nat × Bytes)
  | a :: b :: c :: s => some (a.toNat * 65536 + b.toNat * 256 + c.toNat, s)
  | _ => none

/-- Takes a four-byte integer. -/
def readU32 : Bytes → Option (UInt32 × Bytes)
  | a :: b :: c :: d :: s =>
    some (UInt32.ofNat (a.toNat * 16777216 + b.toNat * 65536 + c.toNat * 256 + d.toNat), s)
  | _ => none

/-- Takes exactly `n` bytes. -/
def readN (n : Nat) (s : Bytes) : Option (Bytes × Bytes) :=
  if n ≤ s.length then some (s.take n, s.drop n) else none

/-- Takes a vector with a one-byte length prefix. -/
def readLP8 (s : Bytes) : Option (Bytes × Bytes) :=
  (readU8 s).bind fun (n, s) => readN n.toNat s

/-- Takes a vector with a two-byte length prefix. -/
def readLP16 (s : Bytes) : Option (Bytes × Bytes) :=
  (readU16 s).bind fun (n, s) => readN n.toNat s

/-- Takes a vector with a three-byte length prefix. -/
def readLP24 (s : Bytes) : Option (Bytes × Bytes) :=
  (readU24 s).bind fun (n, s) => readN n s

@[simp] lemma readU8_u8 (n : Nat) (s : Bytes) :
    readU8 (u8 n ++ s) = some (UInt8.ofNat n, s) := rfl

lemma readU16_u16 (n : Nat) (s : Bytes) : readU16 (u16 n ++ s) = some (UInt16.ofNat n, s) := by
  simp only [u16, cons_append, nil_append, readU16, some.injEq, Prod.mk.injEq, and_true]
  apply UInt16.toNat.inj
  simp only [UInt8.toNat_ofNat', UInt16.toNat_ofNat']
  omega

/-- A sixteen-bit value survives being written and read. -/
@[simp] lemma readU16_u16_toNat (x : UInt16) (s : Bytes) :
    readU16 (u16 x.toNat ++ s) = some (x, s) := by
  rw [readU16_u16]
  simp

@[simp] lemma readU32_u32_toNat (x : UInt32) (s : Bytes) :
    readU32 (u32 x.toNat ++ s) = some (x, s) := by
  simp only [u32, cons_append, nil_append, readU32, some.injEq, Prod.mk.injEq, and_true]
  apply UInt32.toNat.inj
  have hx := x.toNat_lt
  simp only [UInt8.toNat_ofNat', UInt32.toNat_ofNat']
  omega

lemma readU24_u24 {n : Nat} (h : n < 16777216) (s : Bytes) :
    readU24 (u24 n ++ s) = some (n, s) := by
  simp only [u24, cons_append, nil_append, readU24, some.injEq, Prod.mk.injEq,
    and_true, UInt8.toNat_ofNat']
  omega

/-- Reading as many bytes as were written in front gives them back. -/
@[simp] lemma readN_append (b s : Bytes) : readN b.length (b ++ s) = some (b, s) := by
  simp [readN]

lemma readN_eq_some {n : Nat} : readN n s = some (b, r) ↔ b.length = n ∧ s = b ++ r := by
  unfold readN
  constructor
  · intro h
    split_ifs at h with hn
    obtain ⟨rfl, rfl⟩ : s.take n = b ∧ s.drop n = r := by simpa using h
    exact ⟨by simpa using hn, (take_append_drop n s).symm⟩
  · rintro ⟨rfl, rfl⟩
    simp

lemma readLP8_u8 (h : b.length < 256) (s : Bytes) :
    readLP8 (u8 b.length ++ (b ++ s)) = some (b, s) := by
  have hn : (UInt8.ofNat b.length).toNat = b.length := by
    rw [UInt8.toNat_ofNat']; omega
  simp [readLP8, hn]

lemma readLP16_u16 (h : b.length < 65536) (s : Bytes) :
    readLP16 (u16 b.length ++ (b ++ s)) = some (b, s) := by
  have hn : (UInt16.ofNat b.length).toNat = b.length := by
    rw [UInt16.toNat_ofNat']; omega
  simp [readLP16, readU16_u16, hn]

lemma readLP24_u24 (h : b.length < 16777216) (s : Bytes) :
    readLP24 (u24 b.length ++ (b ++ s)) = some (b, s) := by
  simp [readLP24, readU24_u24 h]

lemma readU8_eq_some {x : UInt8} : readU8 s = some (x, r) ↔ s = x :: r := by
  cases s with
  | nil => simp [readU8]
  | cons a s => simp [readU8]

lemma readU16_eq_some {x : UInt16} : readU16 s = some (x, r) ↔ s = u16 x.toNat ++ r := by
  constructor
  · intro h
    match s, h with
    | a :: b :: s, h =>
      simp only [readU16, some.injEq, Prod.mk.injEq] at h
      obtain ⟨rfl, rfl⟩ := h
      have ha := a.toNat_lt
      have hb := b.toNat_lt
      simp only [u16, cons_append, nil_append, List.cons.injEq, and_true]
      constructor <;> apply UInt8.toNat.inj <;>
        simp only [UInt8.toNat_ofNat', UInt16.toNat_ofNat'] <;> omega
  · rintro rfl
    exact readU16_u16_toNat x r

lemma readU32_eq_some {x : UInt32} : readU32 s = some (x, r) ↔ s = u32 x.toNat ++ r := by
  constructor
  · intro h
    match s, h with
    | a :: b :: c :: d :: s, h =>
      simp only [readU32, some.injEq, Prod.mk.injEq] at h
      obtain ⟨rfl, rfl⟩ := h
      have ha := a.toNat_lt
      have hb := b.toNat_lt
      have hc := c.toNat_lt
      have hd := d.toNat_lt
      simp only [u32, cons_append, nil_append, List.cons.injEq, and_true]
      refine ⟨?_, ?_, ?_, ?_⟩ <;> apply UInt8.toNat.inj <;>
        simp only [UInt8.toNat_ofNat', UInt32.toNat_ofNat'] <;> omega
  · rintro rfl
    exact readU32_u32_toNat x r

/-- What a two-byte length-prefixed read accepts is the prefix followed by the body. -/
lemma readLP16_eq_some :
    readLP16 s = some (b, r) ↔ b.length < 65536 ∧ s = u16 b.length ++ (b ++ r) := by
  constructor
  · intro h
    obtain ⟨⟨n, s'⟩, hn, hb⟩ := bind_eq_some_iff.mp h
    rw [readU16_eq_some] at hn
    obtain ⟨hl, rfl⟩ := readN_eq_some.mp hb
    have := n.toNat_lt
    exact ⟨by omega, by rw [hn, hl]⟩
  · rintro ⟨hb, rfl⟩
    exact readLP16_u16 hb r

/-- What a one-byte length-prefixed read accepts is the prefix followed by the body. -/
lemma readLP8_eq_some :
    readLP8 s = some (b, r) ↔ b.length < 256 ∧ s = u8 b.length ++ (b ++ r) := by
  constructor
  · intro h
    obtain ⟨⟨n, s'⟩, hn, hb⟩ := bind_eq_some_iff.mp h
    rw [readU8_eq_some] at hn
    obtain ⟨hl, rfl⟩ := readN_eq_some.mp hb
    have hlt := n.toNat_lt
    refine ⟨by omega, ?_⟩
    rw [hn, hl, u8, UInt8.ofNat_toNat]
    rfl
  · rintro ⟨hb, rfl⟩
    exact readLP8_u8 hb r

/-! ## Repetition -/

/-- An item's encoding is no longer than the concatenation. -/
lemma length_le_flatMap {α : Type} (g : α → Bytes) {l : List α} {a : α} (ha : a ∈ l) :
    (g a).length ≤ (l.flatMap g).length := by
  rw [flatMap_def]
  exact (sublist_flatten_of_mem (List.mem_map_of_mem ha)).length_le

section ParseAll

variable {α : Type} (item : Bytes → Option (α × Bytes))

/-- Reads items until the string is empty; `fuel` bounds the number of items. -/
def parseFuel : Nat → Bytes → Option (List α)
  | _, [] => some []
  | 0, _ :: _ => none
  | fuel + 1, s =>
    (item s).bind fun (x, r) => (parseFuel fuel r).map (x :: ·)

/-- Reads items until the string is empty.  An item reader that consumes at least one
byte is called at most once per byte, so the length of the string is enough fuel. -/
def parseAll (s : Bytes) : Option (List α) := parseFuel item s.length s

variable {item}

variable {s : Bytes} {enc : α → Bytes} {xs : List α} {P : α → Prop}

lemma parseAll_eq_none (hs : s ≠ []) (h : item s = none) : parseAll item s = none := by
  obtain ⟨a, t, rfl⟩ := exists_cons_of_ne_nil hs
  rw [parseAll, length_cons, parseFuel, h]
  · rfl
  · exact hs

/-- If `item` inverts `enc` on the front of every string, `parseAll` inverts the
concatenation of the encodings. -/
lemma parseFuel_flatMap
    (hitem : ∀ x ∈ xs, ∀ r, item (enc x ++ r) = some (x, r)) (hne : ∀ x ∈ xs, enc x ≠ []) :
    ∀ fuel, (xs.flatMap enc).length ≤ fuel → parseFuel item fuel (xs.flatMap enc) = some xs := by
  induction xs with
  | nil => intro fuel _; cases fuel <;> rfl
  | cons x xs ih =>
    intro fuel hf
    obtain ⟨a, t, hx⟩ := exists_cons_of_ne_nil (hne x (by simp))
    have hlen : 1 ≤ (enc x).length := by simp [hx]
    cases fuel with
    | zero => simp [hx] at hf
    | succ fuel =>
      have hstep := hitem x (by simp) (xs.flatMap enc)
      have hrest := ih (fun y hy => hitem y (by simp [hy])) (fun y hy => hne y (by simp [hy])) fuel
        (by simp only [flatMap_cons, length_append] at hf; omega)
      rw [flatMap_cons]
      rw [hx] at hstep ⊢
      simp only [cons_append] at hstep ⊢
      simp [parseFuel, hstep, hrest]

lemma parseAll_flatMap (hitem : ∀ x ∈ xs, ∀ r, item (enc x ++ r) = some (x, r))
    (hne : ∀ x ∈ xs, enc x ≠ []) : parseAll item (xs.flatMap enc) = some xs :=
  parseFuel_flatMap hitem hne _ le_rfl

/-- If every string `item` accepts is the encoding of the item followed by the rest, a
string that `parseAll` accepts is the concatenation of the encodings. -/
lemma eq_flatMap_of_parseFuel (hitem : ∀ s x r, item s = some (x, r) → s = enc x ++ r) :
    ∀ fuel s xs, parseFuel item fuel s = some xs → s = xs.flatMap enc := by
  intro fuel
  induction fuel with
  | zero =>
    intro s xs h
    cases s with
    | nil =>
      obtain rfl : [] = xs := by simpa [parseFuel] using h
      rfl
    | cons a s => simp [parseFuel] at h
  | succ fuel ih =>
    intro s xs h
    cases s with
    | nil =>
      obtain rfl : [] = xs := by simpa [parseFuel] using h
      rfl
    | cons a s =>
      simp only [parseFuel] at h
      obtain ⟨⟨x, r⟩, hx, hr⟩ := bind_eq_some_iff.mp h
      obtain ⟨ys, hys, rfl⟩ := map_eq_some_iff.mp hr
      rw [hitem _ _ _ hx, ih r ys hys, flatMap_cons]

lemma eq_flatMap_of_parseAll (hitem : ∀ s x r, item s = some (x, r) → s = enc x ++ r)
    (h : parseAll item s = some xs) : s = xs.flatMap enc :=
  eq_flatMap_of_parseFuel hitem _ s xs h

/-- What every accepted item satisfies, all items of an accepted string satisfy. -/
lemma forall_of_parseFuel (hitem : ∀ s x r, item s = some (x, r) → P x) :
    ∀ fuel s xs, parseFuel item fuel s = some xs → ∀ x ∈ xs, P x := by
  intro fuel
  induction fuel with
  | zero =>
    intro s xs h
    cases s with
    | nil =>
      cases h
      simp
    | cons a s => cases h
  | succ fuel ih =>
    intro s xs h
    cases s with
    | nil =>
      cases h
      simp
    | cons a s =>
      obtain ⟨⟨x, r⟩, hx, hr⟩ := bind_eq_some_iff.mp h
      obtain ⟨ys, hys, rfl⟩ := map_eq_some_iff.mp hr
      intro y hy
      rcases mem_cons.mp hy with rfl | hy
      · exact hitem _ _ _ hx
      · exact ih r ys hys y hy

lemma forall_of_parseAll (hitem : ∀ s x r, item s = some (x, r) → P x)
    (h : parseAll item s = some xs) : ∀ x ∈ xs, P x :=
  forall_of_parseFuel hitem _ s xs h

/-- An item reader that accepts exactly the encodings of the items with `P` makes `parseAll`
accept exactly the concatenations of such encodings. -/
lemma parseAll_eq_some (hitem : ∀ s x r, item s = some (x, r) ↔ P x ∧ s = enc x ++ r)
    (hne : ∀ x, P x → enc x ≠ []) :
    parseAll item s = some xs ↔ (∀ x ∈ xs, P x) ∧ s = xs.flatMap enc := by
  constructor
  · intro h
    refine ⟨forall_of_parseAll (fun s x r hx => ((hitem s x r).mp hx).1) h, ?_⟩
    exact eq_flatMap_of_parseAll (fun s x r hx => ((hitem s x r).mp hx).2) h
  · rintro ⟨hP, rfl⟩
    apply parseAll_flatMap
    · intro x hx r
      exact (hitem _ x r).mpr ⟨hP x hx, rfl⟩
    · intro x hx
      exact hne x (hP x hx)

/-- A string that is not empty holds at least one item. -/
lemma ne_nil_of_parseAll (h : parseAll item s = some xs) (hs : s ≠ []) : xs ≠ [] := by
  obtain ⟨a, t, rfl⟩ := exists_cons_of_ne_nil hs
  obtain ⟨⟨x, r⟩, -, hr⟩ := bind_eq_some_iff.mp h
  obtain ⟨ys, -, rfl⟩ := map_eq_some_iff.mp hr
  simp

end ParseAll

section Counted

variable {α : Type} (round : UInt16 → Bytes → Option ((α × UInt16) × Bytes))

/-- Repeats `round` until a sixteen-bit counter is zero.  A round gets the counter, and returns the
item it read together with the new counter; `fuel` bounds the number of rounds. -/
def readCounted : Nat → UInt16 → Bytes → Option (List α × Bytes)
  | fuel, n, s =>
    if n = 0 then some ([], s)
    else match fuel with
      | 0 => none
      | fuel + 1 =>
        (round n s).bind fun ((x, n'), s') =>
          (readCounted fuel n' s').map fun (xs, r) => (x :: xs, r)

/-- The items that rounds with the given relation read from the counter value `n` on, and the bytes
they take. -/
inductive CountedRun (Round : UInt16 → α → UInt16 → Bytes → Prop) : UInt16 → List α → Bytes → Prop
  | done : CountedRun Round 0 [] []
  | step {n n' : UInt16} {x : α} {xs : List α} {b b' : Bytes} (hn : n ≠ 0) (head : Round n x n' b)
      (rest : CountedRun Round n' xs b') : CountedRun Round n (x :: xs) (b ++ b')

variable {round} {Round : UInt16 → α → UInt16 → Bytes → Prop}

lemma readCounted_zero (fuel : Nat) (s : Bytes) : readCounted round fuel 0 s = some ([], s) := by
  unfold readCounted
  simp

lemma countedRun_zero {xs : List α} {b : Bytes} : CountedRun Round 0 xs b ↔ xs = [] ∧ b = [] := by
  constructor
  · intro h
    cases h with
    | done => exact ⟨rfl, rfl⟩
    | step hn => exact absurd rfl hn
  · rintro ⟨rfl, rfl⟩
    exact .done

lemma readCounted_zero_eq_some {fuel : Nat} {s r : Bytes} {xs : List α} :
    readCounted round fuel 0 s = some (xs, r) ↔ ∃ b, CountedRun Round 0 xs b ∧ s = b ++ r := by
  simp only [readCounted_zero, countedRun_zero, some.injEq, Prod.mk.injEq]
  constructor
  · rintro ⟨rfl, rfl⟩
    exact ⟨[], ⟨rfl, rfl⟩, rfl⟩
  · rintro ⟨b, ⟨rfl, rfl⟩, rfl⟩
    exact ⟨rfl, rfl⟩

/-- Rounds that take at least one byte each never run out of as much fuel as there are bytes: the
loop succeeds exactly on a run followed by the rest. -/
lemma readCounted_eq_some
    (hround : ∀ n s x n' r, round n s = some ((x, n'), r) ↔ ∃ b, Round n x n' b ∧ s = b ++ r)
    (hne : ∀ n x n' b, Round n x n' b → b ≠ []) :
    ∀ (fuel : Nat) {n : UInt16} {s r : Bytes} {xs : List α}, s.length ≤ fuel →
      (readCounted round fuel n s = some (xs, r) ↔ ∃ b, CountedRun Round n xs b ∧ s = b ++ r) := by
  intro fuel
  induction fuel with
  | zero =>
    intro n s r xs hs
    by_cases hn : n = 0
    · subst hn
      exact readCounted_zero_eq_some
    · obtain rfl := length_eq_zero_iff.mp (Nat.le_zero.mp hs)
      rw [readCounted, if_neg hn]
      constructor
      · intro h
        cases h
      · rintro ⟨b, hrun, hb⟩
        cases hrun with
        | done => exact absurd rfl hn
        | step _ head => simp [hne _ _ _ _ head] at hb
  | succ fuel ih =>
    intro n s r xs hs
    by_cases hn : n = 0
    · subst hn
      exact readCounted_zero_eq_some
    · rw [readCounted, if_neg hn]
      constructor
      · intro h
        obtain ⟨⟨⟨x, n'⟩, s'⟩, hx, hrest⟩ := bind_eq_some_iff.mp h
        obtain ⟨⟨ys, r'⟩, hys, heq⟩ := map_eq_some_iff.mp hrest
        cases heq
        obtain ⟨b, hb, rfl⟩ := (hround _ _ _ _ _).mp hx
        have hpos := length_pos_of_ne_nil (hne _ _ _ _ hb)
        have hfuel : s'.length ≤ fuel := by
          rw [length_append] at hs
          omega
        obtain ⟨b', hrun, rfl⟩ := (ih hfuel).mp hys
        exact ⟨b ++ b', .step hn hb hrun, (append_assoc _ _ _).symm⟩
      · rintro ⟨c, hrun, rfl⟩
        cases hrun with
        | done => exact absurd rfl hn
        | @step _ n' x ys b b' _ head rest =>
          have hpos := length_pos_of_ne_nil (hne _ _ _ _ head)
          have hfuel : (b' ++ r).length ≤ fuel := by
            simp only [length_append] at hs ⊢
            omega
          have hx := (hround n (b ++ b' ++ r) x n' (b' ++ r)).mpr
            ⟨b, head, append_assoc _ _ _⟩
          simp only [hx, bind_some, (ih hfuel).mpr ⟨b', rest, rfl⟩, map_some]

section Encoded

variable {enc : α → Bytes} {P : α → Prop}

/-- Rounds that count down the bytes they take read encoded items, as many bytes of them as the
counter said, up to multiples of 65536. -/
lemma CountedRun.eq_flatMap {n : UInt16} {xs : List α} {b : Bytes} (h : CountedRun Round n xs b)
    (hround : ∀ n x n' b, Round n x n' b → UInt16.ofNat b.length + n' = n ∧ P x ∧ b = enc x) :
    UInt16.ofNat b.length = n ∧ (∀ x ∈ xs, P x) ∧ b = xs.flatMap enc := by
  induction h with
  | done => exact ⟨rfl, nofun, rfl⟩
  | step hn head _ ih =>
    obtain ⟨hcount, hx, rfl⟩ := hround _ _ _ _ head
    obtain ⟨hrest, hxs, rfl⟩ := ih
    refine ⟨?_, forall_mem_cons.mpr ⟨hx, hxs⟩, flatMap_cons.symm⟩
    rw [length_append, UInt16.ofNat_add, hrest, hcount]

/-- The encodings of items that fit a counter are read by it. -/
lemma countedRun_flatMap (hround : ∀ x n, P x → (enc x).length ≤ n → n < 65536 →
      Round (UInt16.ofNat n) x (UInt16.ofNat (n - (enc x).length)) (enc x)) (hne : ∀ x, enc x ≠ [])
    {xs : List α} (hxs : ∀ x ∈ xs, P x) (hlen : (xs.flatMap enc).length < 65536) :
    CountedRun Round (UInt16.ofNat (xs.flatMap enc).length) xs (xs.flatMap enc) := by
  induction xs with
  | nil => exact .done
  | cons x xs ih =>
    obtain ⟨hx, hxs⟩ := forall_mem_cons.mp hxs
    have hpos := length_pos_iff.mpr (hne x)
    rw [flatMap_cons, length_append] at hlen ⊢
    have hhead := hround x _ hx (Nat.le_add_right (enc x).length (xs.flatMap enc).length) hlen
    rw [Nat.add_sub_cancel_left] at hhead
    refine .step ?_ hhead (ih hxs (by omega))
    intro hzero
    have htoNat := congrArg UInt16.toNat hzero
    rw [UInt16.toNat_ofNat', Nat.mod_eq_of_lt hlen] at htoNat
    change _ = 0 at htoNat
    omega

end Encoded

end Counted

section Drain

variable {α σ : Type} {m : Type → Type} [Monad m] (stuck : m σ) (step : σ → Bytes → m (σ × Bytes))

/-- Repeats `step` until the string is empty, carrying what was read so far; `fuel` bounds the
number of rounds. -/
def drain : Nat → σ → Bytes → m σ
  | _, acc, [] => pure acc
  | 0, _, _ :: _ => stuck
  | fuel + 1, acc, s => do
    let (acc, s) ← step acc s
    drain fuel acc s

/-- Repeats `step` until the string is empty.  A step that takes at least one byte runs at most once
per byte, so the length of the string is enough fuel. -/
def drainAll (acc : σ) (s : Bytes) : m σ := drain stuck step s.length acc s

variable {stuck step}

@[simp] lemma drainAll_nil (acc : σ) : drainAll stuck step acc [] = pure acc := rfl

/-- A step that takes the encoding of an item and adds the item to what was read, whenever that
satisfies `P`, folds a concatenation of encodings. -/
lemma drain_flatMap [LawfulMonad m] {enc : α → Bytes} {f : σ → α → σ} (P : σ → Prop) {xs : List α}
    (hstep : ∀ x ∈ xs, ∀ acc r, P acc → step acc (enc x ++ r) = pure (f acc x, r))
    (hP : ∀ x ∈ xs, ∀ acc, P acc → P (f acc x)) (hne : ∀ x ∈ xs, enc x ≠ []) :
    ∀ fuel acc, P acc → (xs.flatMap enc).length ≤ fuel →
      drain stuck step fuel acc (xs.flatMap enc) = pure (xs.foldl f acc) := by
  induction xs with
  | nil =>
    intro fuel acc _ _
    cases fuel <;> rfl
  | cons x xs ih =>
    intro fuel acc hacc hf
    obtain ⟨a, t, hx⟩ := exists_cons_of_ne_nil (hne x (mem_cons_self ..))
    cases fuel with
    | zero => simp [hx] at hf
    | succ fuel =>
      have hlen : 1 ≤ (enc x).length := by simp [hx]
      have hfuel : (xs.flatMap enc).length ≤ fuel := by
        rw [flatMap_cons, length_append] at hf
        omega
      have hhead := hstep x (mem_cons_self ..) acc (xs.flatMap enc) hacc
      have hrest := ih (fun y hy => hstep y (mem_cons_of_mem _ hy))
        (fun y hy => hP y (mem_cons_of_mem _ hy))
        (fun y hy => hne y (mem_cons_of_mem _ hy)) fuel (f acc x)
        (hP x (mem_cons_self ..) acc hacc) hfuel
      rw [flatMap_cons, foldl_cons, ← hrest]
      rw [hx, cons_append] at hhead ⊢
      rw [drain, hhead, pure_bind]
      simp

/-- The first step, if the steps after it succeed with any fuel that is long enough. -/
lemma drainAll_step [LawfulMonad m] {acc acc' out : σ} {b r : Bytes}
    (hstep : step acc (b ++ r) = pure (acc', r)) (hb : b ≠ [])
    (hrest : ∀ fuel, r.length ≤ fuel → drain stuck step fuel acc' r = pure out) :
    drainAll stuck step acc (b ++ r) = pure out := by
  obtain ⟨a, t, rfl⟩ := exists_cons_of_ne_nil hb
  rw [cons_append] at hstep ⊢
  rw [drainAll, length_cons, drain, hstep, pure_bind]
  · exact hrest _ (by simp)
  · simp

/-- The case in which the items are put in a list. -/
lemma drainAll_append [LawfulMonad m] {stuck : m (List α)}
    {step : List α → Bytes → m (List α × Bytes)} {enc : α → Bytes} {xs : List α}
    (hstep : ∀ x ∈ xs, ∀ acc r, step acc (enc x ++ r) = pure (acc ++ [x], r))
    (hne : ∀ x ∈ xs, enc x ≠ []) (acc : List α) :
    drainAll stuck step acc (xs.flatMap enc) = pure (acc ++ xs) := by
  rw [drainAll, drain_flatMap (fun _ => True) (fun x hx acc r _ => hstep x hx acc r)
    (fun _ _ _ _ => trivial) hne _ acc trivial le_rfl]
  congr 1
  induction xs generalizing acc with
  | nil => simp
  | cons x xs ih =>
    rw [foldl_cons, ih (fun y hy => hstep y (mem_cons_of_mem _ hy))
      (fun y hy => hne y (mem_cons_of_mem _ hy))]
    simp

end Drain

end Wire
