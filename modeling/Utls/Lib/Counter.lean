import Utls.Lib.Bytes

/-!
# Big-endian counters

A counter of `n` bytes, most significant byte first, and its increment in place: the last byte is
increased, and as long as a byte becomes zero the one before it is increased as well.
`Counter.succ` is `none` if the carry runs out of the counter.

`Counter.succ_eq_some_iff` and `Counter.succ_eq_none_iff` say what this does to the value.
-/

namespace Wire

open List

/-- Increments the first `i` bytes, as a counter of their own. -/
def incFrom : Nat → Bytes → Option Bytes
  | 0, _ => none
  | i + 1, s =>
    let s' := s.set i (s.getD i 0 + 1)
    if s'.getD i 0 ≠ 0 then some s' else incFrom i s'

/-- The number that the bytes stand for. -/
def counterValue (s : Bytes) : Nat := Nat.ofDigits 256 (s.reverse.map UInt8.toNat)

lemma counterValue_concat (p : Bytes) (b : UInt8) :
    counterValue (p ++ [b]) = b.toNat + 256 * counterValue p := by
  rw [counterValue, reverse_append, reverse_singleton, singleton_append,
    map_cons, Nat.ofDigits_cons]
  rfl

lemma counterValue_lt (s : Bytes) : counterValue s < 256 ^ s.length := by
  have h := Nat.ofDigits_lt_base_pow_length (b := 256) (l := s.reverse.map UInt8.toNat)
    (by decide) fun x hx => ?_
  · rwa [length_map, length_reverse] at h
  · obtain ⟨b, -, rfl⟩ := List.mem_map.mp hx
    exact UInt8.toNat_lt b

lemma counterValue_inj {s t : Bytes} (hlen : s.length = t.length)
    (h : counterValue s = counterValue t) : s = t := by
  induction s using reverseRecOn generalizing t with
  | nil => exact (length_eq_zero_iff.mp hlen.symm).symm
  | append_singleton s b ih =>
    cases t using reverseRecOn with
    | nil => simp at hlen
    | append_singleton t c =>
      rw [counterValue_concat, counterValue_concat] at h
      have hb := UInt8.toNat_lt b
      have hc := UInt8.toNat_lt c
      have hbc : b.toNat = c.toNat := by omega
      rw [UInt8.toNat_inj.mp hbc, ih (by simpa using hlen) (by omega)]

/-- The `n` bytes of a number, most significant byte first. -/
def counterBytes : Nat → Nat → Bytes
  | 0, _ => []
  | n + 1, v => counterBytes n (v / 256) ++ [UInt8.ofNat v]

lemma length_counterBytes (n v : Nat) : (counterBytes n v).length = n := by
  induction n generalizing v with
  | zero => rfl
  | succ n ih => rw [counterBytes, length_append, ih, length_singleton]

lemma counterValue_counterBytes (n v : Nat) : counterValue (counterBytes n v) = v % 256 ^ n := by
  induction n generalizing v with
  | zero => rw [pow_zero, Nat.mod_one]; rfl
  | succ n ih =>
    have hmod : v % 256 ^ (n + 1) = v % 256 + 256 * (v / 256 % 256 ^ n) := by
      rw [pow_succ', Nat.mod_mul]
    rw [counterBytes, counterValue_concat, ih, UInt8.toNat_ofNat', hmod]

lemma counterValue_append (p q : Bytes) :
    counterValue (p ++ q) = counterValue p * 256 ^ q.length + counterValue q := by
  induction q using reverseRecOn with
  | nil => simp [counterValue]
  | append_singleton q b ih =>
    rw [← append_assoc, counterValue_concat, counterValue_concat, ih, length_append,
      length_singleton, pow_succ]
    ring

/-- The value of the last bytes. -/
lemma counterValue_drop (s : Bytes) (k : Nat) :
    counterValue (s.drop k) = counterValue s % 256 ^ (s.length - k) := by
  have hsplit := counterValue_append (s.take k) (s.drop k)
  rw [take_append_drop, length_drop] at hsplit
  have hlt := counterValue_lt (s.drop k)
  rw [length_drop] at hlt
  rw [hsplit, Nat.mul_add_mod', Nat.mod_eq_of_lt hlt]

/-- The increment of the first bytes leaves the others alone. -/
lemma incFrom_append (p q : Bytes) :
    (counterValue p + 1 = 256 ^ p.length ∧ incFrom p.length (p ++ q) = none) ∨
      ∃ p', p'.length = p.length ∧ counterValue p' = counterValue p + 1 ∧
        incFrom p.length (p ++ q) = some (p' ++ q) := by
  induction p using reverseRecOn generalizing q with
  | nil => exact .inl ⟨rfl, rfl⟩
  | append_singleton p b ih =>
    have hset : (p ++ [b] ++ q).set p.length ((p ++ [b] ++ q).getD p.length 0 + 1) =
        p ++ (b + 1) :: q := by
      simp [getD_eq_getElem?_getD]
    have hget : (p ++ (b + 1) :: q).getD p.length 0 = b + 1 := by
      simp [getD_eq_getElem?_getD]
    have hstep : incFrom (p ++ [b]).length (p ++ [b] ++ q) =
        if b + 1 ≠ 0 then some (p ++ (b + 1) :: q) else incFrom p.length (p ++ (b + 1) :: q) := by
      rw [length_append, length_singleton, incFrom, hset, hget]
    have hlt := UInt8.toNat_lt b
    have hsucc : (b + 1).toNat = (b.toNat + 1) % 256 := by
      rw [UInt8.toNat_add]
      rfl
    rw [hstep, counterValue_concat, length_append, length_singleton, pow_succ]
    by_cases hb : b + 1 = 0
    · -- the byte becomes zero, and the carry goes to the bytes before it
      have hzero : (b.toNat + 1) % 256 = 0 := by rw [← hsucc, hb]; rfl
      rw [if_neg (not_not.mpr hb), hb]
      rcases ih (0 :: q) with ⟨hfull, hnone⟩ | ⟨p', hlen, hvalue, hsome⟩
      · exact .inl ⟨by omega, hnone⟩
      · refine .inr ⟨p' ++ [0], by simp [hlen], ?_, by rw [hsome]; simp⟩
        rw [counterValue_concat, hvalue]
        change 0 + _ = _
        omega
    · have hne : (b + 1).toNat ≠ 0 := fun h => hb (UInt8.toNat_inj.mp h)
      rw [if_pos hb]
      refine .inr ⟨p ++ [b + 1], by simp, ?_, by simp⟩
      rw [counterValue_concat]
      omega

/-- A counter of `n` bytes. -/
structure Counter (n : Nat) where
  bytes : Bytes
  length_eq : bytes.length = n

namespace Counter

variable {n : Nat}

/-- The value of a counter. -/
def value (c : Counter n) : Nat := counterValue c.bytes

lemma ext_bytes {c d : Counter n} (h : c.bytes = d.bytes) : c = d := by
  cases c
  cases d
  cases h
  rfl

lemma value_lt (c : Counter n) : c.value < 256 ^ n :=
  (counterValue_lt c.bytes).trans_eq (by rw [c.length_eq])

lemma value_inj {c d : Counter n} (h : c.value = d.value) : c = d :=
  ext_bytes (counterValue_inj (c.length_eq.trans d.length_eq.symm) h)

lemma length_incFrom {s t : Bytes} (h : incFrom s.length s = some t) : t.length = s.length := by
  rcases incFrom_append s [] with ⟨-, hnone⟩ | ⟨s', hlen, -, hsome⟩
  · rw [append_nil, h] at hnone
    cases hnone
  · rw [append_nil, h] at hsome
    rw [Option.some.inj hsome, append_nil, hlen]

/-- The increment; `none` if the counter wraps around. -/
def succ (c : Counter n) : Option (Counter n) :=
  match h : incFrom c.bytes.length c.bytes with
  | none => none
  | some b => some ⟨b, (length_incFrom h).trans c.length_eq⟩

lemma succ_cases (c : Counter n) :
    (c.value + 1 = 256 ^ n ∧ c.succ = none) ∨
      ∃ d : Counter n, d.value = c.value + 1 ∧ c.succ = some d := by
  rcases incFrom_append c.bytes [] with ⟨hfull, hnone⟩ | ⟨s, hlen, hvalue, hsome⟩
  · rw [append_nil] at hnone
    refine .inl ⟨hfull.trans (by rw [c.length_eq]), ?_⟩
    rw [succ]
    split
    · rfl
    · rename_i b hb
      rw [hnone] at hb
      cases hb
  · rw [append_nil, append_nil] at hsome
    refine .inr ⟨⟨s, hlen.trans c.length_eq⟩, hvalue, ?_⟩
    rw [succ]
    split
    · rename_i hb
      rw [hsome] at hb
      cases hb
    · rename_i b hb
      rw [hsome] at hb
      cases hb
      rfl

theorem succ_eq_some_iff {c d : Counter n} : c.succ = some d ↔ d.value = c.value + 1 := by
  rcases c.succ_cases with ⟨hfull, hnone⟩ | ⟨d', hvalue, hsome⟩
  · rw [hnone]
    have hlt := d.value_lt
    refine iff_of_false (fun h => ?_) fun h => ?_
    · cases h
    · omega
  · rw [hsome, ← hvalue]
    constructor
    · intro h
      cases h
      rfl
    · intro h
      rw [value_inj h]

theorem succ_eq_none_iff {c : Counter n} : c.succ = none ↔ c.value + 1 = 256 ^ n := by
  rcases c.succ_cases with ⟨hfull, hnone⟩ | ⟨d, hvalue, hsome⟩
  · exact iff_of_true hnone hfull
  · have hlt := d.value_lt
    refine iff_of_false (fun h => ?_) fun h => ?_
    · rw [hsome] at h
      cases h
    · omega

end Counter

end Wire
