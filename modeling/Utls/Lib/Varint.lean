import Utls.Lib.Bytes

/-!
# Variable-length integers

A number below `2 ^ 62` takes one, two, four or eight bytes.  The two high bits of the first byte
say how many, and the other bits are the number, most significant first.

* `appendVarint` takes the shortest of the four forms and refuses a number that has none.
* `readVarint` reads any form, and inverts `appendVarint` in front of any bytes.
-/

namespace Wire

open List

/-- The four forms of a number; `none` if it does not fit into 62 bits. -/
def appendVarint (i : Nat) : Option Bytes :=
  if i ≤ 63 then some (u8 i)
  else if i ≤ 16383 then some [UInt8.ofNat (i / 2 ^ 8) ||| 0x40, UInt8.ofNat i]
  else if i ≤ 1073741823 then
    some [UInt8.ofNat (i / 2 ^ 24) ||| 0x80, UInt8.ofNat (i / 2 ^ 16), UInt8.ofNat (i / 2 ^ 8),
      UInt8.ofNat i]
  else if i ≤ 4611686018427387903 then
    some [UInt8.ofNat (i / 2 ^ 56) ||| 0xc0, UInt8.ofNat (i / 2 ^ 48), UInt8.ofNat (i / 2 ^ 40),
      UInt8.ofNat (i / 2 ^ 32), UInt8.ofNat (i / 2 ^ 24), UInt8.ofNat (i / 2 ^ 16),
      UInt8.ofNat (i / 2 ^ 8), UInt8.ofNat i]
  else none

/-- Takes a number; `none` if the bytes end inside it. -/
def readVarint : Bytes → Option (Nat × Bytes)
  | [] => none
  | b :: s =>
    let b1 := (b &&& 0x3f).toNat
    match (b >>> 6).toNat, s with
    | 0, s => some (b1, s)
    | 1, b2 :: s => some (b2.toNat + b1 * 2 ^ 8, s)
    | 2, b2 :: b3 :: b4 :: s =>
      some (b4.toNat + b3.toNat * 2 ^ 8 + b2.toNat * 2 ^ 16 + b1 * 2 ^ 24, s)
    | 3, b2 :: b3 :: b4 :: b5 :: b6 :: b7 :: b8 :: s =>
      some (b8.toNat + b7.toNat * 2 ^ 8 + b6.toNat * 2 ^ 16 + b5.toNat * 2 ^ 24 +
        b4.toNat * 2 ^ 32 + b3.toNat * 2 ^ 40 + b2.toNat * 2 ^ 48 + b1 * 2 ^ 56, s)
    | _, _ => none

variable {i : Nat} {b : Bytes}

lemma appendVarint_isSome : (∃ b, appendVarint i = some b) ↔ i < 2 ^ 62 := by
  unfold appendVarint
  split_ifs <;> simp <;> omega

lemma length_appendVarint_le (h : appendVarint i = some b) : b.length ≤ 8 := by
  unfold appendVarint at h
  split_ifs at h <;> cases h <;> simp

/-- The two halves of a first byte. -/
lemma tagged_byte {t x : Nat} {g : UInt8} (hg : g = UInt8.ofNat (64 * t)) (ht : t < 4)
    (hx : x < 64) :
    ((UInt8.ofNat x ||| g) &&& 0x3f).toNat = x ∧ ((UInt8.ofNat x ||| g) >>> 6).toNat = t := by
  have h : ∀ (t : Fin 4) (x : Fin 64),
      ((UInt8.ofNat x ||| UInt8.ofNat (64 * t)) &&& 0x3f).toNat = x ∧
        ((UInt8.ofNat x ||| UInt8.ofNat (64 * t)) >>> 6).toNat = t := by decide +kernel
  rw [hg]
  exact h ⟨t, ht⟩ ⟨x, hx⟩

lemma readVarint_append (h : appendVarint i = some b) (s : Bytes) :
    readVarint (b ++ s) = some (i, s) := by
  unfold appendVarint at h
  split_ifs at h with h1 h2 h4 h8 <;> cases h
  · obtain ⟨hlow, htag⟩ := tagged_byte (g := 0) (t := 0) rfl (by omega) (show i < 64 by omega)
    rw [UInt8.or_zero] at hlow htag
    simp only [u8, cons_append, nil_append, readVarint, hlow, htag]
  · obtain ⟨hlow, htag⟩ :=
      tagged_byte (g := 0x40) (t := 1) rfl (by omega) (show i / 2 ^ 8 < 64 by omega)
    simp only [cons_append, nil_append, readVarint, hlow, htag, UInt8.toNat_ofNat']
    congr 2
    omega
  · obtain ⟨hlow, htag⟩ :=
      tagged_byte (g := 0x80) (t := 2) rfl (by omega) (show i / 2 ^ 24 < 64 by omega)
    simp only [cons_append, nil_append, readVarint, hlow, htag, UInt8.toNat_ofNat']
    congr 2
    omega
  · obtain ⟨hlow, htag⟩ :=
      tagged_byte (g := 0xc0) (t := 3) rfl (by omega) (show i / 2 ^ 56 < 64 by omega)
    simp only [cons_append, nil_append, readVarint, hlow, htag, UInt8.toNat_ofNat']
    congr 2
    omega

lemma appendVarint_ne_nil (h : appendVarint i = some b) : b ≠ [] := by
  rintro rfl
  have hread := readVarint_append h []
  cases hread

end Wire
