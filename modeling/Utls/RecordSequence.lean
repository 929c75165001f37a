import Utls.RecordLayer

/-!
# Sequence numbers of a receiver

A record is checked under the sequence number of its half-connection.  A number is used up by a record
that is accepted; a record that is rejected leaves it, and the counter panics before it would start
over.  So the numbers of a run are consecutive, whatever bytes arrive (`accepts_consecutive`).
-/

namespace Utls

open Wire Exec List

namespace HalfConn

variable {σ τ α β : Type} {hc hc1 : HalfConn σ τ} {P : α → Prop}

/-- The record passes the checks under the sequence number `n`: its MAC is that of `n`, and the
authenticated encryption opens it with the nonce and the additional data of `n`. -/
structure AcceptedUnder (hc : HalfConn σ τ) (n : Counter 8) (record plaintext : Bytes) : Prop where
  mac : ∀ mac, hc.mac = some mac → ∃ o hc1,
    openRecord record (record.drop recordHeaderLen) hc = .ok o hc1 ∧
      checkMAC n.bytes record mac o = .ok plaintext
  aead : ∀ c, hc.cipher = .aead c → ∃ explicit sealed inner,
    record.drop recordHeaderLen = explicit ++ sealed ∧ explicit.length = c.explicitNonceLen ∧
      c.openBytes (if explicit.length = 0 then n.bytes else explicit)
        (if hc.version = VersionTLS13 then record.take recordHeaderLen
          else n.bytes ++ (record.take 3 ++ u16 (sealed.length - c.overhead))) sealed = some inner

/-- The records that the receiver accepts pass the checks under the numbers `ns`, in their order.  A
record that is rejected, and a `change_cipher_spec` of TLS 1.3, has no number; a panic ends the run. -/
def Accepts : HalfConn σ τ → List Bytes → List (Counter 8) → Prop
  | _, [], ns => ns = []
  | hc, record :: records, ns =>
    match decrypt record hc with
    | .ok x hc' =>
      if hc.version = VersionTLS13 ∧ record.getD 0 0 = recordTypeChangeCipherSpec then
        Accepts hc' records ns
      else ∃ n ns', ns = n :: ns' ∧ hc.AcceptedUnder n record x.1 ∧ Accepts hc' records ns'
    | .error (.error _) hc' => Accepts hc' records ns
    | .error (.panic _) _ => ns = []

/-- A call uses up the sequence number if it returns, with a result that has the property. -/
def Counts (hc : HalfConn σ τ) (P : α → Prop) :
    EStateM.Result (Fault Err) (HalfConn σ τ) α → Prop
  | .ok a hc' => hc.seq.succ = some hc'.seq ∧ P a
  | .error (.error _) hc' => hc'.seq = hc.seq
  | .error (.panic _) _ => True

/-- A part that leaves the sequence number alone may come first. -/
lemma counts_bind {x : Prog Err (HalfConn σ τ) β} {f : β → Prog Err (HalfConn σ τ) α}
    (hx : (endState (x hc1)).seq = hc.seq)
    (hf : ∀ b hc', x hc1 = .ok b hc' → hc'.seq = hc.seq → Counts hc P (f b hc')) :
    Counts hc P ((x >>= f) hc1) := by
  rw [run_bind]
  cases hr : x hc1 with
  | ok b hc' =>
    rw [hr] at hx
    exact hf b hc' hr hx
  | error fault hc' =>
    rw [hr] at hx
    cases fault with
    | error e => exact hx
    | panic m => trivial

lemma counts_ofExcept {o : Except Err β} {f : β → Prog Err (HalfConn σ τ) α}
    (hseq : hc1.seq = hc.seq) (hf : ∀ b, o = .ok b → Counts hc P (f b hc1)) :
    Counts hc P ((ofExcept o >>= f : Prog Err (HalfConn σ τ) α) hc1) := by
  cases o with
  | error e => exact hseq
  | ok b => exact hf b rfl

lemma seq_openRecord (record payload : Bytes) (hc : HalfConn σ τ) :
    (endState (openRecord record payload hc)).seq = hc.seq := by
  rw [openRecord, run_get_bind]
  cases hc.cipher with
  | nil => rfl
  | stream c state => rfl
  | aead c =>
    dsimp only
    split
    · rfl
    · generalize c.openBytes _ _ _ = opened
      cases opened <;> rfl
  | cbc c state =>
    cases hc.mac with
    | none => rfl
    | some mac =>
      dsimp only
      split_ifs <;> rfl

/-- What authenticated encryption opens, it opens under the sequence number. -/
lemma acceptedUnder_of_openRecord {record plaintext inner : Bytes} {o : Opened}
    (h : openRecord record (record.drop recordHeaderLen) hc = .ok o hc1)
    (hchecked : hc.checkedPlaintext record o inner = .ok plaintext) :
    hc.AcceptedUnder hc.seq record plaintext := by
  refine ⟨fun mac hmac => ⟨o, hc1, h, ?_⟩, fun c hcipher => ?_⟩
  · rwa [checkedPlaintext, hmac] at hchecked
  · rw [openRecord, run_get_bind, hcipher] at h
    have hn : hc.explicitNonceLen = c.explicitNonceLen := by rw [explicitNonceLen, hcipher]
    rw [hn] at h
    dsimp only at h
    by_cases hshort : (record.drop recordHeaderLen).length < c.explicitNonceLen
    · rw [if_pos hshort] at h
      cases h
    · rw [if_neg hshort] at h
      generalize hopen : c.openBytes _ _ _ = opened at h
      cases opened with
      | none => cases h
      | some inner =>
        exact ⟨_, _, inner, (take_append_drop c.explicitNonceLen _).symm,
          length_take_of_le (Nat.le_of_not_lt hshort), hopen⟩

/-- A record that `decrypt` returns is accepted under the sequence number, which it uses up. -/
lemma counts_decrypt {record : Bytes}
    (hccs : ¬(hc.version = VersionTLS13 ∧ record.getD 0 0 = recordTypeChangeCipherSpec)) :
    Counts hc (fun x => hc.AcceptedUnder hc.seq record x.1) (decrypt record hc) := by
  rw [decrypt, run_bind]
  by_cases hlen : recordHeaderLen ≤ record.length
  · rw [run_assert_true hlen]
    dsimp only
    rw [run_get_bind, if_neg hccs]
    refine counts_bind (seq_openRecord _ _ hc) fun o hc1 hopen hseq => ?_
    refine counts_ofExcept hseq fun inner _ => counts_ofExcept hseq fun plaintext hchecked => ?_
    rw [run_bind, run_incSeq, hseq]
    cases hs : hc.seq.succ with
    | none => trivial
    | some seq => exact ⟨hs, acceptedUnder_of_openRecord hopen hchecked⟩
  · rw [Exec.assert, if_neg hlen]
    trivial

/-- The records of a run are accepted under consecutive sequence numbers from the current one, so none
of them is used twice and the receiver stays in step with the sender. -/
theorem accepts_consecutive (hc : HalfConn σ τ) (records : List Bytes) :
    ∃ ns, Accepts hc records ns ∧ ns.map Counter.value = range' hc.seq.value ns.length := by
  induction records generalizing hc with
  | nil => exact ⟨[], rfl, rfl⟩
  | cons record records ih =>
    simp only [Accepts]
    by_cases hccs : hc.version = VersionTLS13 ∧ record.getD 0 0 = recordTypeChangeCipherSpec
    · simp only [if_pos hccs]
      by_cases hlen : recordHeaderLen ≤ record.length
      · rw [decrypt, run_bind, run_assert_true hlen]
        dsimp only
        rw [run_get_bind, if_pos hccs]
        exact ih hc
      · rw [decrypt, run_bind, Exec.assert, if_neg hlen]
        exact ⟨[], rfl, rfl⟩
    · simp only [if_neg hccs]
      have hcounts := counts_decrypt hccs
      cases hdecrypt : decrypt record hc with
      | ok x hc' =>
        rw [hdecrypt] at hcounts
        obtain ⟨ns, haccepts, hvalues⟩ := ih hc'
        refine ⟨hc.seq :: ns, ⟨hc.seq, ns, rfl, hcounts.2, haccepts⟩, ?_⟩
        rw [map_cons, hvalues, Counter.succ_eq_some_iff.mp hcounts.1, length_cons, range'_succ]
      | error fault hc' =>
        rw [hdecrypt] at hcounts
        cases fault with
        | error e =>
          obtain ⟨ns, haccepts, hvalues⟩ := ih hc'
          exact ⟨ns, haccepts, hcounts ▸ hvalues⟩
        | panic m => exact ⟨[], rfl, rfl⟩

end HalfConn

end Utls
