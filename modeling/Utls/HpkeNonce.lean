import Mathlib.Data.Nat.Size
import Utls.Lib.Cipher
import Utls.Lib.Counter
import Utls.Lib.Exec

/-!
# The nonces of an HPKE context

A context computes the nonce of a message from a base nonce and a sequence number of 128 bits, of
which it adds the last 96 to the base nonce.  It counts a message after it was sealed or opened, and
panics when the sequence number has too many bits.

The length that it looks at is the sum of the lengths of the two halves, which is not the length of
the number.  From zero on it stops the counter all the same, before the 96 bits are used up
(`bitLen_lt_iff`), so that every message has a nonce of its own.
-/

namespace Utls

open Wire Exec Option
open List hiding after

/-! ## The sequence number -/

/-- `uint128`. -/
structure Uint128 where
  hi : UInt64
  lo : UInt64
  deriving DecidableEq, Repr

/-- `bits.Add64`: the sum and the carry. -/
def add64 (x y carry : UInt64) : UInt64 × UInt64 :=
  (x + y + carry, if x.toNat + y.toNat + carry.toNat < 2 ^ 64 then 0 else 1)

/-- `bits.Len64`. -/
def len64 (x : UInt64) : Nat := x.toNat.size

namespace Uint128

/-- The number. -/
def value (u : Uint128) : Nat := u.hi.toNat * 2 ^ 64 + u.lo.toNat

def addOne (u : Uint128) : Uint128 :=
  let sum := add64 u.lo 1 0
  ⟨u.hi + sum.2, sum.1⟩

def bitLen (u : Uint128) : Nat := len64 u.hi + len64 u.lo

def bytes (u : Uint128) : Bytes := counterBytes 8 u.hi.toNat ++ counterBytes 8 u.lo.toNat

lemma length_bytes (u : Uint128) : u.bytes.length = 16 := by
  rw [bytes, length_append, length_counterBytes, length_counterBytes]

lemma counterValue_bytes (u : Uint128) : counterValue u.bytes = u.value := by
  have hpow : 256 ^ 8 = 2 ^ 64 := by norm_num
  rw [bytes, counterValue_append, counterValue_counterBytes, counterValue_counterBytes,
    length_counterBytes, hpow, Nat.mod_eq_of_lt u.hi.toNat_lt, Nat.mod_eq_of_lt u.lo.toNat_lt, value]

/-- The increment, as long as the upper half has room for a carry. -/
lemma value_addOne {u : Uint128} (h : u.hi.toNat + 1 < 2 ^ 64) : u.addOne.value = u.value + 1 := by
  have hlo := u.lo.toNat_lt
  have hone : (1 : UInt64).toNat = 1 := rfl
  have hzero : (0 : UInt64).toNat = 0 := rfl
  simp only [value, addOne, add64, UInt64.toNat_add, hone, hzero, Nat.add_zero]
  split_ifs with hcarry
  · rw [hzero, Nat.add_zero, Nat.mod_mod, Nat.mod_eq_of_lt u.hi.toNat_lt, Nat.mod_eq_of_lt hcarry]
    omega
  · -- the lower half was full
    rw [hone, Nat.mod_eq_of_lt h]
    omega

/-- The last sequence number. -/
@[irreducible] def limit : Nat := 2 ^ 94 + 2 ^ 63

/-- Up to the last sequence number the sum of the two lengths stays below 95 bits: the upper half has at
most 30 bits, or it has 31 and the lower half fewer than 64. -/
lemma bitLen_lt_iff {u : Uint128} (h : u.value ≤ limit) : u.bitLen < 95 ↔ u.value < limit := by
  have hlo := u.lo.toNat_lt
  have hlo64 : u.lo.toNat.size ≤ 64 := Nat.size_le.mpr hlo
  unfold bitLen len64
  unfold value limit at h ⊢
  constructor
  · intro hlen
    by_contra hge
    have hhi : u.hi.toNat = 2 ^ 30 := by omega
    have hhalf : u.lo.toNat = 2 ^ 63 := by omega
    rw [hhi, hhalf, Nat.size_pow, Nat.size_pow] at hlen
    omega
  · intro hlt
    by_cases hhi : u.hi.toNat < 2 ^ 30
    · have hsize := Nat.size_le.mpr hhi
      omega
    · have hhi31 : u.hi.toNat.size ≤ 31 := Nat.size_le.mpr (by omega)
      have hlo63 : u.lo.toNat.size ≤ 63 := Nat.size_le.mpr (by omega)
      omega

end Uint128

/-! ## Contexts -/

/-- The size of the nonces of all supported AEADs. -/
def hpkeNonceSize : Nat := 12

/-- The part of a `context` that `Seal` and `Open` use. -/
structure HpkeContext where
  aead : Aead
  baseNonce : Bytes
  seqNum : Uint128
  length_baseNonce : baseNonce.length = hpkeNonceSize

/-- The error of `Open`. -/
inductive HpkeErr where
  | messageAuthenticationFailed
  deriving DecidableEq, Repr

/-- A method of a context. -/
abbrev HpkeM := Prog HpkeErr HpkeContext

namespace HpkeContext

variable {ctx : HpkeContext}

/-- `nextNonce`. -/
def nextNonce (ctx : HpkeContext) : Bytes :=
  let nonce := ctx.seqNum.bytes.drop (16 - hpkeNonceSize)
  nonce.zipWith (· ^^^ ·) ctx.baseNonce

/-- `incrementNonce`. -/
def incrementNonce : HpkeM Unit := do
  let ctx ← get
  assert (ctx.seqNum.bitLen < hpkeNonceSize * 8 - 1) "message limit reached"
  set { ctx with seqNum := ctx.seqNum.addOne }

/-- `Seal` of a sender. -/
def sealMsg (aad plaintext : Bytes) : HpkeM Bytes := do
  let ctx ← get
  let ciphertext := ctx.aead.sealBytes ctx.nextNonce aad plaintext
  incrementNonce
  return ciphertext

/-- `Open` of a recipient. -/
def openMsg (aad ciphertext : Bytes) : HpkeM Bytes := do
  let ctx ← get
  let plaintext ← ofOption .messageAuthenticationFailed
    (ctx.aead.openBytes ctx.nextNonce aad ciphertext)
  incrementNonce
  return plaintext

/-- The ciphertexts that a run of calls of `Seal` returns; a panic ends the run. -/
def sealed : List (Bytes × Bytes) → HpkeContext → List Bytes
  | [], _ => []
  | m :: ms, ctx =>
    match sealMsg m.1 m.2 ctx with
    | .ok ciphertext ctx' => ciphertext :: sealed ms ctx'
    | .error _ _ => []

/-- The messages of a run of calls of `Open` that are opened, with their plaintexts. -/
def opened : List (Bytes × Bytes) → HpkeContext → List ((Bytes × Bytes) × Bytes)
  | [], _ => []
  | m :: ms, ctx =>
    match openMsg m.1 m.2 ctx with
    | .ok plaintext ctx' => (m, plaintext) :: opened ms ctx'
    | .error (.error _) ctx' => opened ms ctx'
    | .error (.panic _) _ => []

/-! ## The nonce of a sequence number -/

/-- The nonce of the message with number `k`. -/
def nonceAt (base : Bytes) (k : Nat) : Bytes :=
  (counterBytes hpkeNonceSize k).zipWith (· ^^^ ·) base

lemma nextNonce_eq (ctx : HpkeContext) :
    ctx.nextNonce = nonceAt ctx.baseNonce ctx.seqNum.value := by
  have hraw : ctx.seqNum.bytes.drop (16 - hpkeNonceSize) =
      counterBytes hpkeNonceSize ctx.seqNum.value := by
    refine counterValue_inj ?_ ?_
    · rw [length_drop, Uint128.length_bytes, length_counterBytes]
      rfl
    · rw [counterValue_drop, Uint128.length_bytes, Uint128.counterValue_bytes,
        counterValue_counterBytes]
      rfl
  rw [nextNonce, hraw, nonceAt]

lemma zipWith_xor_xor {l base : Bytes} (h : l.length = base.length) :
    (l.zipWith (· ^^^ ·) base).zipWith (· ^^^ ·) base = l := by
  induction l generalizing base with
  | nil => rfl
  | cons x l ih =>
    cases base with
    | nil => cases h
    | cons b base =>
      rw [zipWith_cons_cons, zipWith_cons_cons, ih (by simpa using h), UInt8.xor_assoc,
        UInt8.xor_self, UInt8.xor_zero]

/-- Two numbers below the size of the nonces have different nonces. -/
lemma nonceAt_inj {base : Bytes} (hbase : base.length = hpkeNonceSize) {j k : Nat}
    (hj : j < 256 ^ hpkeNonceSize) (hk : k < 256 ^ hpkeNonceSize)
    (h : nonceAt base j = nonceAt base k) : j = k := by
  have hlen : ∀ v, (counterBytes hpkeNonceSize v).length = base.length := fun v => by
    rw [length_counterBytes, hbase]
  have hbytes : counterBytes hpkeNonceSize j = counterBytes hpkeNonceSize k := by
    rw [← zipWith_xor_xor (hlen j), ← zipWith_xor_xor (hlen k)]
    exact congrArg (zipWith (· ^^^ ·) · base) h
  have hvalue := congrArg counterValue hbytes
  rwa [counterValue_counterBytes, counterValue_counterBytes, Nat.mod_eq_of_lt hj,
    Nat.mod_eq_of_lt hk] at hvalue

/-! ## One call -/

/-- The context after one more message. -/
def counted (ctx : HpkeContext) : HpkeContext := { ctx with seqNum := ctx.seqNum.addOne }

/-- The context has not come to the last sequence number yet. -/
abbrev HasRoom (ctx : HpkeContext) : Prop := ctx.seqNum.bitLen < hpkeNonceSize * 8 - 1

lemma run_incrementNonce (ctx : HpkeContext) :
    incrementNonce ctx =
      if ctx.HasRoom then .ok () ctx.counted else .error (.panic "message limit reached") ctx := by
  rw [incrementNonce, run_get_bind, run_bind]
  by_cases hroom : ctx.HasRoom
  · rw [if_pos hroom, run_assert_true hroom]
    rfl
  · rw [if_neg hroom, run_assert_false hroom]

lemma sealMsg_eq (aad plaintext : Bytes) (ctx : HpkeContext) :
    sealMsg aad plaintext ctx =
      if ctx.HasRoom then .ok (ctx.aead.sealBytes ctx.nextNonce aad plaintext) ctx.counted
      else .error (.panic "message limit reached") ctx := by
  rw [sealMsg, run_get_bind, run_bind, run_incrementNonce]
  split_ifs <;> rfl

lemma openMsg_eq (aad ciphertext : Bytes) (ctx : HpkeContext) :
    openMsg aad ciphertext ctx =
      match ctx.aead.openBytes ctx.nextNonce aad ciphertext with
      | none => .error (.error .messageAuthenticationFailed) ctx
      | some plaintext =>
        if ctx.HasRoom then .ok plaintext ctx.counted
        else .error (.panic "message limit reached") ctx := by
  rw [openMsg, run_get_bind, run_bind]
  cases ctx.aead.openBytes ctx.nextNonce aad ciphertext with
  | none => rfl
  | some plaintext =>
    simp only [ofOption]
    change (incrementNonce >>= fun _ => pure plaintext) ctx = _
    rw [run_bind, run_incrementNonce]
    split_ifs <;> rfl

/-! ## Runs -/

/-- The sequence number of a context that has not come past the last one. -/
lemma hasRoom_iff (h : ctx.seqNum.value ≤ Uint128.limit) :
    ctx.HasRoom ↔ ctx.seqNum.value < Uint128.limit :=
  Uint128.bitLen_lt_iff h

lemma value_counted (h : ctx.seqNum.value < Uint128.limit) :
    ctx.counted.seqNum.value = ctx.seqNum.value + 1 := by
  refine Uint128.value_addOne ?_
  unfold Uint128.value Uint128.limit at h
  omega

/-- The ciphertext at position `k` of a run of `Seal` is sealed under the `k`-th nonce from the current
one, and there is one for every message up to the last sequence number. -/
lemma getElem?_sealed (msgs : List (Bytes × Bytes)) (h : ctx.seqNum.value ≤ Uint128.limit) (k : Nat) :
    (sealed msgs ctx)[k]? =
      if ctx.seqNum.value + k < Uint128.limit then
        msgs[k]?.map fun m =>
          ctx.aead.sealBytes (nonceAt ctx.baseNonce (ctx.seqNum.value + k)) m.1 m.2
      else none := by
  induction msgs generalizing ctx k with
  | nil => simp [sealed]
  | cons m msgs ih =>
    rw [sealed, sealMsg_eq, nextNonce_eq]
    by_cases hroom : ctx.HasRoom
    · have hlt := (hasRoom_iff h).mp hroom
      have hcounted := value_counted hlt
      simp only [if_pos hroom]
      cases k with
      | zero => simp [hlt]
      | succ k =>
        rw [getElem?_cons_succ, getElem?_cons_succ, ih (hcounted ▸ hlt), hcounted, Nat.add_assoc,
          Nat.add_comm 1, counted]
    · have hge := mt (hasRoom_iff h).mpr hroom
      simp only [if_neg hroom]
      rw [if_neg (by omega), getElem?_nil]

/-- So is the message at position `k` that a run of `Open` opens. -/
lemma openBytes_of_opened (msgs : List (Bytes × Bytes)) (h : ctx.seqNum.value ≤ Uint128.limit)
    {k : Nat} {x : (Bytes × Bytes) × Bytes} (hx : (opened msgs ctx)[k]? = some x) :
    ctx.aead.openBytes (nonceAt ctx.baseNonce (ctx.seqNum.value + k)) x.1.1 x.1.2 = some x.2 := by
  induction msgs generalizing ctx k with
  | nil => cases hx
  | cons m msgs ih =>
    rw [opened, openMsg_eq, nextNonce_eq] at hx
    cases hopen : ctx.aead.openBytes (nonceAt ctx.baseNonce ctx.seqNum.value) m.1 m.2 with
    | none =>
      simp only [hopen] at hx
      exact ih h hx
    | some plaintext =>
      by_cases hroom : ctx.HasRoom
      · have hlt := (hasRoom_iff h).mp hroom
        have hcounted := value_counted hlt
        simp only [hopen, if_pos hroom] at hx
        cases k with
        | zero =>
          cases hx
          rwa [Nat.add_zero]
        | succ k =>
          have hk := ih (hcounted ▸ hlt) hx
          rwa [hcounted, Nat.add_assoc, Nat.add_comm 1, counted] at hk
      · simp only [hopen, if_neg hroom] at hx
        cases hx

/-- A call of `Seal` whose result is not looked at. -/
def sealCall (m : Bytes × Bytes) : HpkeM Unit := do
  let _ ← sealMsg m.1 m.2

/-- A call of `Open` whose result is not looked at. -/
def openCall (m : Bytes × Bytes) : HpkeM Unit := do
  let _ ← openMsg m.1 m.2

lemma after_sealCall (m : Bytes × Bytes) (ctx : HpkeContext) :
    after (sealCall m) ctx = if ctx.HasRoom then some ctx.counted else none := by
  unfold after sealCall
  rw [run_bind, sealMsg_eq]
  split_ifs <;> rfl

/-- A run of `Seal` counts every call, and ends in a panic if there are too many of them. -/
lemma run_sealCall (msgs : List (Bytes × Bytes)) (h : ctx.seqNum.value ≤ Uint128.limit):
    (ctx.seqNum.value + msgs.length ≤ Uint128.limit →
      ∃ ctx', run sealCall msgs ctx = some ctx' ∧
        ctx'.seqNum.value = ctx.seqNum.value + msgs.length) ∧
    (Uint128.limit < ctx.seqNum.value + msgs.length → run sealCall msgs ctx = none) := by
  induction msgs generalizing ctx with
  | nil =>
    rw [length_nil, Nat.add_zero]
    exact ⟨fun _ => ⟨ctx, rfl, rfl⟩, fun hlt => absurd h (Nat.not_le.mpr hlt)⟩
  | cons m msgs ih =>
    rw [run, after_sealCall, length_cons]
    by_cases hroom : ctx.HasRoom
    · have hlt := (hasRoom_iff h).mp hroom
      have hcounted := value_counted hlt
      have hnext : ctx.counted.seqNum.value ≤ Uint128.limit := by omega
      obtain ⟨hfits, hover⟩ := ih hnext
      rw [if_pos hroom, bind_some]
      refine ⟨fun hle => ?_, fun hgt => hover (by omega)⟩
      obtain ⟨ctx', hrun, hvalue⟩ := hfits (by omega)
      exact ⟨ctx', hrun, by omega⟩
    · have hlt := mt (hasRoom_iff h).mpr hroom
      rw [if_neg hroom, bind_none]
      exact ⟨fun hle => absurd hle (by omega), fun _ => rfl⟩

/-- A recipient counts the calls of `Open` that return a plaintext. -/
lemma run_openCall (msgs : List (Bytes × Bytes)) {ctx' : HpkeContext}
    (h : ctx.seqNum.value ≤ Uint128.limit) (hrun : run openCall msgs ctx = some ctx') :
    ctx'.seqNum.value = ctx.seqNum.value + (opened msgs ctx).length ∧
      ctx'.seqNum.value ≤ Uint128.limit := by
  induction msgs generalizing ctx with
  | nil =>
    cases hrun
    rw [opened, length_nil, Nat.add_zero]
    exact ⟨rfl, h⟩
  | cons m msgs ih =>
    obtain ⟨ctx1, hafter, hrun⟩ := run_cons hrun
    unfold after openCall at hafter
    rw [run_bind] at hafter
    rw [opened]
    rw [openMsg_eq] at hafter ⊢
    cases hopen : ctx.aead.openBytes ctx.nextNonce m.1 m.2 with
    | none =>
      simp only [hopen] at hafter ⊢
      cases hafter
      exact ih h hrun
    | some plaintext =>
      by_cases hroom : ctx.HasRoom
      · simp only [hopen, if_pos hroom] at hafter ⊢
        cases hafter
        have hlt := (hasRoom_iff h).mp hroom
        have hcounted := value_counted hlt
        have hnext : ctx.counted.seqNum.value ≤ Uint128.limit := by omega
        obtain ⟨hvalue, hle⟩ := ih hnext hrun
        rw [length_cons]
        exact ⟨by omega, hle⟩
      · simp only [hopen, if_neg hroom] at hafter
        cases hafter

/-- A number that a context uses is below the size of the nonces. -/
lemma lt_of_le_limit {k : Nat} (h : k ≤ Uint128.limit) : k < 256 ^ hpkeNonceSize := by
  unfold Uint128.limit at h
  unfold hpkeNonceSize
  omega

end HpkeContext

open HpkeContext

/-- The nonces of a sender and of the recipient with the same base nonce.  The sequence numbers have
pairwise different nonces; the `k`-th message of a sender is sealed under the nonce of `k`, and so is
the `k`-th that a recipient opens; a message that is not opened is not counted; and a sender counts
its messages up to the last sequence number and panics at the next one. -/
theorem hpke_nonces {s r : HpkeContext} (hs : s.seqNum = ⟨0, 0⟩) (hr : r.seqNum = ⟨0, 0⟩)
    (hbase : r.baseNonce = s.baseNonce) :
    (∀ j ≤ Uint128.limit, ∀ k ≤ Uint128.limit,
      nonceAt s.baseNonce j = nonceAt s.baseNonce k → j = k) ∧
    (∀ (msgs : List (Bytes × Bytes)) (k : Nat), (sealed msgs s)[k]? =
      if k < Uint128.limit then
        msgs[k]?.map fun m => s.aead.sealBytes (nonceAt s.baseNonce k) m.1 m.2
      else none) ∧
    (∀ (cts : List (Bytes × Bytes)) (k : Nat) (x : (Bytes × Bytes) × Bytes),
      (opened cts r)[k]? = some x →
        r.aead.openBytes (nonceAt s.baseNonce k) x.1.1 x.1.2 = some x.2) ∧
    (∀ ctx ctx' aad ciphertext e, openMsg aad ciphertext ctx = .error (.error e) ctx' → ctx' = ctx) ∧
    (∀ msgs, (msgs.length ≤ Uint128.limit →
        ∃ s', run sealCall msgs s = some s' ∧ s'.seqNum.value = msgs.length) ∧
      (Uint128.limit < msgs.length → run sealCall msgs s = none)) ∧
    (∀ cts r', run openCall cts r = some r' →
      r'.seqNum.value = (opened cts r).length ∧ r'.seqNum.value ≤ Uint128.limit) ∧
    Uint128.limit < 256 ^ hpkeNonceSize := by
  have hzero : (⟨0, 0⟩ : Uint128).value = 0 := rfl
  have hs0 : s.seqNum.value = 0 := by rw [hs, hzero]
  have hr0 : r.seqNum.value = 0 := by rw [hr, hzero]
  have hsle : s.seqNum.value ≤ Uint128.limit := by rw [hs0]; exact Nat.zero_le _
  have hrle : r.seqNum.value ≤ Uint128.limit := by rw [hr0]; exact Nat.zero_le _
  refine ⟨fun j hj k hk => ?_, fun msgs k => ?_, fun cts k x hx => ?_, ?_, fun msgs => ?_,
    fun cts r' hrun => ?_, lt_of_le_limit le_rfl⟩
  · exact nonceAt_inj s.length_baseNonce (lt_of_le_limit hj) (lt_of_le_limit hk)
  · have hk := getElem?_sealed msgs hsle k
    rwa [hs0, Nat.zero_add] at hk
  · have hk := openBytes_of_opened cts hrle hx
    rwa [hr0, Nat.zero_add, hbase] at hk
  · intro ctx ctx' aad ciphertext e h
    rw [openMsg_eq] at h
    cases hopen : ctx.aead.openBytes ctx.nextNonce aad ciphertext with
    | none =>
      simp only [hopen] at h
      cases h
      rfl
    | some plaintext =>
      simp only [hopen] at h
      split_ifs at h
      cases h
  · have hrun := run_sealCall msgs hsle
    rwa [hs0, Nat.zero_add] at hrun
  · have hcount := run_openCall cts hrle hrun
    rwa [hr0, Nat.zero_add] at hcount

/-- A context with a cipher that changes nothing. -/
def hpkeSample : HpkeContext where
  aead :=
    { explicitNonceLen := 0, overhead := 0, sealBytes := fun _ _ p => p
      openBytes := fun _ _ c => some c, length_seal := fun _ _ _ => rfl, open_seal := fun _ _ _ => rfl }
  baseNonce := List.replicate 12 7
  seqNum := ⟨0, 0⟩
  length_baseNonce := rfl

theorem hpke_nonces_two :
    (sealed [([], [1]), ([], [2])] hpkeSample)[1]? = some [2] ∧
      ∃ s', run sealCall [([], [1]), ([], [2])] hpkeSample = some s' ∧ s'.seqNum.value = 2 := by
  obtain ⟨-, hsealed, -, -, hcount, -, -⟩ :=
    hpke_nonces (s := hpkeSample) (r := hpkeSample) rfl rfl rfl
  refine ⟨(hsealed _ 1).trans ?_, (hcount [([], [1]), ([], [2])]).1 ?_⟩ <;> unfold Uint128.limit
  · rfl
  · decide

end Utls
