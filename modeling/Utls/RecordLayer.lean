import Utls.Types
import Utls.Lib.Exec
import Utls.Lib.Cipher
import Utls.Lib.Counter

/-!
# Protection of records

One direction of the record layer, `halfConn`, with `encrypt` and `decrypt` for every kind of
cipher.  The ciphers are those of `Wire`: what is known about them is that decryption inverts
encryption.

The two ends of a direction are two half-connections that start in the same state.
`decrypt_encrypt` says that a record that one end encrypted is decrypted by the other and that both
are in the same state afterwards; `recordLayer_roundTrip` follows for every sequence of records.
-/

namespace Utls

open Wire Exec Option
open List hiding Vector

/-! ## Half-connections -/

def recordHeaderLen : Nat := 5
def maxPlaintext : Nat := 16384
def recordTypeChangeCipherSpec : UInt8 := 20
def recordTypeApplicationData : UInt8 := 23

def alertUnexpectedMessage : Err := .alert "unexpected_message" "unexpected message"
def alertBadRecordMAC : Err := .alert "bad_record_mac" "bad record MAC"
def alertRecordOverflow : Err := .alert "record_overflow" "record overflow"

/-- The cipher of a half-connection, with its state. -/
inductive CipherState (σ τ : Type) where
  | nil
  | stream (c : Stream σ) (state : σ)
  | aead (c : Aead)
  | cbc (c : BlockMode τ) (state : τ)

/-- `halfConn`: the fields that `encrypt` and `decrypt` use. -/
structure HalfConn (σ τ : Type) where
  version : UInt16
  cipher : CipherState σ τ
  mac : Option Mac
  seq : Counter 8

/-- A random source: `n` bytes on request, or an error. -/
abbrev RandomSource := (n : Nat) → Except Err (Vector UInt8 n)

/-- `tls10MAC`. -/
def tls10MAC (h : Mac) (seq header data : Bytes) : Bytes := h.tag (seq ++ (header ++ data))

/-- `record[3] = byte(n >> 8); record[4] = byte(n)`. -/
def setLength (record : Bytes) (n : Nat) : Bytes :=
  (record.set 3 (UInt8.ofNat (n / 256))).set 4 (UInt8.ofNat n)

/-- `byte(int32(^t) >> 31)`: all ones if bit 31 of `t` is not set, and zero otherwise. -/
def signMask (t : BitVec 64) : UInt8 :=
  ⟨(((~~~t).setWidth 32).sshiftRight 31).setWidth 8⟩

/-- One round of the loop of `extractPadding`. -/
def checkPaddingByte (paddingLen : UInt8) (payload : Bytes) (good : UInt8) (i : Nat) : UInt8 :=
  let mask := signMask (BitVec.ofNat 64 paddingLen.toNat - BitVec.ofNat 64 i)
  let b := payload.getD (payload.length - 1 - i) 0
  good &&& ~~~((mask &&& paddingLen) ^^^ (mask &&& b))

/-- ANDs the bits together and replicates the result. -/
def spreadBits (good : UInt8) : UInt8 :=
  let good := good &&& (good <<< 4)
  let good := good &&& (good <<< 2)
  let good := good &&& (good <<< 1)
  (good.toInt8 >>> 7).toUInt8

/-- `extractPadding`: the length of the padding to remove, and 255 if the padding is valid. -/
def extractPadding (payload : Bytes) : Nat × UInt8 :=
  if payload.length < 1 then (0, 0)
  else
    let paddingLen := payload.getD (payload.length - 1) 0
    let t := BitVec.ofNat 64 (payload.length - 1) - BitVec.ofNat 64 paddingLen.toNat
    let toCheck := if 256 > payload.length then payload.length else 256
    let good := spreadBits
      ((List.range toCheck).foldl (checkPaddingByte paddingLen payload) (signMask t))
    ((paddingLen &&& good).toNat + 1, good)

def roundUp (a b : Nat) : Nat := a + (b - a % b) % b

namespace HalfConn

variable {σ τ : Type}

variable (hc : HalfConn σ τ)

/-- `explicitNonceLen`. -/
def explicitNonceLen : Nat :=
  match hc.cipher with
  | .nil => 0
  | .stream _ _ => 0
  | .aead c => c.explicitNonceLen
  | .cbc c _ => if hc.version ≥ VersionTLS11 then c.blockSize else 0

/-- `incSeq`. -/
def incSeq : Prog Err (HalfConn σ τ) Unit := do
  let hc ← get
  match hc.seq.succ with
  | some seq => set { hc with seq := seq }
  | none => panicWith "TLS: sequence number wraparound"

/-! ## Encryption -/

/-- The explicit nonce, if there is one: the sequence number for short nonces of authenticated
encryption, random bytes otherwise. -/
def explicitNonce (rand : RandomSource) : Except Err Bytes :=
  let n := hc.explicitNonceLen
  if n > 0 then
    match hc.cipher with
    | .cbc _ _ => (rand n).map Vector.toList
    | _ => if n < 16 then .ok ((hc.seq.bytes ++ List.replicate 8 0).take n)
      else (rand n).map Vector.toList
  else .ok []

/-- The nonce of authenticated encryption: the explicit one, or the sequence number. -/
def aeadNonce (explicit : Bytes) : Bytes :=
  if explicit.length = 0 then hc.seq.bytes else explicit

/-- The part of `encrypt` that depends on the kind of the cipher: the record, which holds the header
and the explicit nonce already, with the protected payload, and the next state of the cipher.
`none` is the use of a MAC that is not there. -/
def protect (record explicit payload : Bytes) : Option (Bytes × CipherState σ τ) :=
  match hc.cipher with
  | .nil => some (record ++ payload, .nil)
  | .stream c state =>
    hc.mac.map fun mac =>
      let tag := tls10MAC mac hc.seq.bytes (record.take recordHeaderLen) payload
      let x := c.xorKeyStream state payload
      let y := c.xorKeyStream x.2 tag
      (record ++ (x.1 ++ y.1), .stream c y.2)
  | .aead c =>
    let nonce := hc.aeadNonce explicit
    if hc.version = VersionTLS13 then
      let record := record ++ payload
      let record := record ++ [record.getD 0 0]
      let record := record.set 0 recordTypeApplicationData
      let record := setLength record (payload.length + 1 + c.overhead)
      let header := record.take recordHeaderLen
      some (header ++ c.sealBytes nonce header (record.drop recordHeaderLen), .aead c)
    else
      let additionalData := hc.seq.bytes ++ record.take recordHeaderLen
      some (record ++ c.sealBytes nonce additionalData payload, .aead c)
  | .cbc c state =>
    hc.mac.map fun mac =>
      let tag := tls10MAC mac hc.seq.bytes (record.take recordHeaderLen) payload
      let plaintextLen := payload.length + tag.length
      let paddingLen := c.blockSize - plaintextLen % c.blockSize
      let dst := payload ++ (tag ++ List.replicate paddingLen (UInt8.ofNat (paddingLen - 1)))
      let state := if explicit.length > 0 then c.setIV state explicit else state
      let x := c.encryptBlocks state dst
      (record ++ x.1, .cbc c x.2)

/-- The part of `encrypt` after the explicit nonce. -/
def encryptWith (record payload explicit : Bytes) : Prog Err (HalfConn σ τ) Bytes := do
  let hc ← get
  match hc.protect (record ++ explicit) explicit payload with
  | none => panicWith "runtime error: invalid memory address or nil pointer dereference"
  | some (record, cipher) =>
    set { hc with cipher := cipher }
    incSeq
    return setLength record (record.length - recordHeaderLen)

/-- `encrypt`.  `record` holds the header of the record. -/
def encrypt (record payload : Bytes) (rand : RandomSource) : Prog Err (HalfConn σ τ) Bytes := do
  let hc ← get
  match hc.cipher with
  | .nil => return record ++ payload
  | _ =>
    let explicit ← ofExcept (hc.explicitNonce rand)
    encryptWith record payload explicit

/-! ## Decryption -/

/-- What the first part of `decrypt` has found out. -/
structure Opened where
  plaintext : Bytes := []
  payload : Bytes
  paddingLen : Nat := 0
  paddingGood : UInt8 := 255

/-- The part of `decrypt` that depends on the kind of the cipher. -/
def openRecord (record payload : Bytes) : Prog Err (HalfConn σ τ) Opened := do
  let hc ← get
  let n := hc.explicitNonceLen
  match hc.cipher with
  | .nil => return { plaintext := payload, payload := payload }
  | .stream c state =>
    let x := c.xorKeyStream state payload
    set ({ hc with cipher := .stream c x.2 } : HalfConn σ τ)
    return { payload := x.1 }
  | .aead c =>
    if payload.length < n then fail alertBadRecordMAC
    else
      let nonce := hc.aeadNonce (payload.take n)
      let payload := payload.drop n
      let len := payload.length - c.overhead
      let additionalData :=
        if hc.version = VersionTLS13 then record.take recordHeaderLen
        else hc.seq.bytes ++ (record.take 3 ++ u16 len)
      match c.openBytes nonce additionalData payload with
      | none => fail alertBadRecordMAC
      | some plaintext => return { plaintext := plaintext, payload := payload }
  | .cbc c state =>
    match hc.mac with
    | none => panicWith "runtime error: invalid memory address or nil pointer dereference"
    | some mac =>
      if payload.length % c.blockSize ≠ 0 ∨
          payload.length < n + roundUp (mac.size + 1) c.blockSize then
        fail alertBadRecordMAC
      else
        let state := if n > 0 then c.setIV state (payload.take n) else state
        let x := c.decryptBlocks state (payload.drop n)
        set ({ hc with cipher := .cbc c x.2 } : HalfConn σ τ)
        let (paddingLen, paddingGood) := extractPadding x.1
        return { payload := x.1, paddingLen := paddingLen, paddingGood := paddingGood }

/-- The loop that looks for the content type from the end, at the first `i` bytes. -/
def scanContentType (plaintext : Bytes) : Nat → Option (Bytes × UInt8)
  | 0 => none
  | i + 1 =>
    let b := plaintext.getD i 0
    if b ≠ 0 then some (plaintext.take i, b) else scanContentType plaintext i

/-- The part of `decrypt` for TLS 1.3: removes the padding and finds the content type. -/
def innerPlaintext (plaintext : Bytes) (typ : UInt8) : Except Err (Bytes × UInt8) :=
  if typ ≠ recordTypeApplicationData then .error alertUnexpectedMessage
  else if plaintext.length > maxPlaintext + 1 then .error alertRecordOverflow
  else if plaintext.length = 0 then .ok (plaintext, typ)
  else
    match scanContentType plaintext plaintext.length with
    | some r => .ok r
    | none => .error alertUnexpectedMessage

/-- `subtle.ConstantTimeSelect(int(uint32(n)>>31), 0, n)`. -/
def clampNegative (n : Int) : Nat := if (BitVec.ofInt 32 n).msb then 0 else n.toNat

/-- The part of `decrypt` that checks the MAC. -/
def checkMAC (seq record : Bytes) (mac : Mac) (o : Opened) : Except Err Bytes :=
  if o.payload.length < mac.size then .error alertBadRecordMAC
  else
    let n := clampNegative ((o.payload.length : Int) - mac.size - o.paddingLen)
    let header := (setLength record n).take recordHeaderLen
    let remoteMAC := (o.payload.drop n).take mac.size
    let localMAC := tls10MAC mac seq header (o.payload.take n)
    let equal : UInt8 := if localMAC = remoteMAC then 1 else 0
    if equal &&& o.paddingGood ≠ 1 then .error alertBadRecordMAC
    else .ok (o.payload.take n)

/-- The plaintext and the content type before the MAC is looked at. -/
def typedPlaintext (o : Opened) (typ : UInt8) : Except Err (Bytes × UInt8) :=
  match hc.cipher with
  | .nil => .ok (o.plaintext, typ)
  | _ =>
    if hc.version = VersionTLS13 then innerPlaintext o.plaintext typ else .ok (o.plaintext, typ)

/-- The plaintext after the MAC, if there is one, has been checked. -/
def checkedPlaintext (record : Bytes) (o : Opened) (plaintext : Bytes) : Except Err Bytes :=
  match hc.mac with
  | none => .ok plaintext
  | some mac => checkMAC hc.seq.bytes record mac o

/-- `decrypt`: the plaintext and its content type. -/
def decrypt (record : Bytes) : Prog Err (HalfConn σ τ) (Bytes × UInt8) := do
  assert (recordHeaderLen ≤ record.length) "runtime error: slice bounds out of range"
  let hc ← get
  let typ := record.getD 0 0
  let payload := record.drop recordHeaderLen
  if hc.version = VersionTLS13 ∧ typ = recordTypeChangeCipherSpec then return (payload, typ)
  else
    let o ← openRecord record payload
    let (plaintext, typ) ← ofExcept (hc.typedPlaintext o typ)
    let plaintext ← ofExcept (hc.checkedPlaintext record o plaintext)
    incSeq
    return (plaintext, typ)

end HalfConn


/-! ## Padding -/

lemma sshiftRight_31 (x : BitVec 32) :
    x.sshiftRight 31 = if x.msb then BitVec.allOnes 32 else 0#32 := by
  have hlt := BitVec.toInt_lt (x := x)
  have hle := BitVec.le_toInt (x := x)
  apply BitVec.eq_of_toInt_eq
  rw [BitVec.toInt_sshiftRight, Int.shiftRight_eq_div_pow, x.msb_eq_toInt]
  by_cases h : x.toInt < 0
  · simp [h]
    omega
  · simp [h]
    omega

lemma signMask_eq (t : BitVec 64) : signMask t = if t.getLsbD 31 then 0 else 255 := by
  have hmsb : ((~~~t).setWidth 32).msb = !t.getLsbD 31 := by
    rw [BitVec.msb_setWidth, BitVec.getLsbD_not]
    simp
  rw [signMask, sshiftRight_31, hmsb]
  cases t.getLsbD 31 <;> rfl


lemma signMask_sub_of_le {a b : Nat} (hba : b ≤ a) (ha : a < 2 ^ 31) :
    signMask (BitVec.ofNat 64 a - BitVec.ofNat 64 b) = 255 := by
  have hvalue : (BitVec.ofNat 64 a - BitVec.ofNat 64 b).toNat = a - b := by
    rw [BitVec.toNat_sub, BitVec.toNat_ofNat, BitVec.toNat_ofNat]
    omega
  have hbit : (BitVec.ofNat 64 a - BitVec.ofNat 64 b).getLsbD 31 = false := by
    exact Nat.testBit_lt_two_pow (by omega)
  rw [signMask_eq, hbit]
  rfl

lemma signMask_sub_of_lt {a b : Nat} (hab : a < b) (hb : b ≤ 2 ^ 31) :
    signMask (BitVec.ofNat 64 a - BitVec.ofNat 64 b) = 0 := by
  have hvalue : (BitVec.ofNat 64 a - BitVec.ofNat 64 b).toNat = 2 ^ 64 - (b - a) := by
    rw [BitVec.toNat_sub, BitVec.toNat_ofNat, BitVec.toNat_ofNat]
    omega
  have hbit : (BitVec.ofNat 64 a - BitVec.ofNat 64 b).getLsbD 31 = true := by
    rw [BitVec.getLsbD, hvalue, Nat.testBit_eq_decide_div_mod_eq, decide_eq_true_eq]
    omega
  rw [signMask_eq, hbit]
  rfl

lemma and_not_xor_eq {a x y : UInt8} : a &&& ~~~(x ^^^ y) = 255 ↔ a = 255 ∧ x = y := by
  have hones : ∀ i (hi : i < 8), (255#8)[i] = true := by decide
  constructor
  · intro h
    have hbit : ∀ i (hi : i < 8), a.toBitVec[i] = true ∧ x.toBitVec[i] = y.toBitVec[i] := by
      intro i hi
      simpa [hi, hones] using congrArg (fun z : UInt8 => z.toBitVec.getLsbD i) h
    refine ⟨UInt8.eq_of_toBitVec_eq (BitVec.eq_of_getElem_eq fun i hi => ?_),
      UInt8.eq_of_toBitVec_eq (BitVec.eq_of_getElem_eq fun i hi => (hbit i hi).2)⟩
    exact (hbit i hi).1.trans (hones i hi).symm
  · rintro ⟨rfl, rfl⟩
    rw [UInt8.xor_self]
    rfl

lemma spreadBits_eq (good : UInt8) : spreadBits good = if good = 255 then 255 else 0 := by
  have hall : ∀ n : Fin 256, spreadBits (.ofFin n) = if UInt8.ofFin n = 255 then 255 else 0 := by
    decide +kernel
  exact hall good.toFin

variable {p good : UInt8} {payload data : Bytes} {k : Nat}

/-- A round keeps all bits of `good` exactly if the byte is not part of the padding or is `p`. -/
lemma checkPaddingByte_eq_iff {i : Nat} (hi : i < 256) : checkPaddingByte p payload good i = 255 ↔
    good = 255 ∧ (i ≤ p.toNat → payload.getD (payload.length - 1 - i) 0 = p) := by
  have hp := p.toNat_lt
  rw [checkPaddingByte, and_not_xor_eq]
  refine and_congr_right fun _ => ?_
  by_cases hip : i ≤ p.toNat
  · rw [signMask_sub_of_le hip (by omega)]
    simp only [hip, forall_const]
    rw [show (255 : UInt8) = -1 from rfl, UInt8.neg_one_and, UInt8.neg_one_and, eq_comm]
  · rw [signMask_sub_of_lt (by omega) (by omega)]
    simp [hip]

lemma foldl_checkPaddingByte_iff {n : Nat} (hn : n ≤ 256) :
    (List.range n).foldl (checkPaddingByte p payload) good = 255 ↔
      good = 255 ∧ ∀ i < n, i ≤ p.toNat → payload.getD (payload.length - 1 - i) 0 = p := by
  induction n with
  | zero => simp
  | succ n ih =>
    rw [range_succ, foldl_append, foldl_cons, foldl_nil, checkPaddingByte_eq_iff (by omega),
      ih (by omega), and_assoc]
    refine and_congr_right fun _ => ⟨fun ⟨h, hlast⟩ i hi => ?_, fun h => ⟨fun i hi => ?_, ?_⟩⟩
    · rcases Nat.lt_succ_iff_lt_or_eq.mp hi with hi | rfl
      · exact h i hi
      · exact hlast
    · exact h i (Nat.lt_succ_of_lt hi)
    · exact h n (Nat.lt_succ_self n)

/-- `extractPadding` for a payload with the last byte `p`. -/
lemma extractPadding_eq (hlast : payload.getLast? = some p) (hlen : payload.length < 2 ^ 31) :
    extractPadding payload = if p.toNat + 1 ≤ payload.length ∧
      ∀ i ≤ p.toNat, payload.getD (payload.length - 1 - i) 0 = p then (p.toNat + 1, 255)
      else (1, 0) := by
  have hp := p.toNat_lt
  have hpos : ¬payload.length < 1 := by
    have := length_pos_of_mem (mem_of_getLast? hlast)
    omega
  have hbyte : payload.getD (payload.length - 1) 0 = p := by
    rw [getD_eq_getElem?_getD, ← getLast?_eq_getElem?, hlast, getD_some]
  rw [extractPadding, if_neg hpos, hbyte]
  dsimp only
  set good := foldl (checkPaddingByte p payload) _ _ with hdef
  have hgood : good = 255 ↔ p.toNat + 1 ≤ payload.length ∧
      ∀ i ≤ p.toNat, payload.getD (payload.length - 1 - i) 0 = p := by
    rw [hdef, foldl_checkPaddingByte_iff (by split <;> omega)]
    by_cases hle : p.toNat ≤ payload.length - 1
    · rw [signMask_sub_of_le hle (by omega)]
      refine and_congr (iff_of_true rfl (by omega)) ⟨fun h i hi => h i ?_ hi, fun h i _ => h i⟩
      split <;> omega
    · rw [signMask_sub_of_lt (by omega) (by omega)]
      exact iff_of_false (by simp) (by omega)
  rw [spreadBits_eq]
  split_ifs with h h' h'
  · exact congrArg (fun x : UInt8 => (x.toNat + 1, (255 : UInt8))) UInt8.and_neg_one
  · exact absurd (hgood.mp h) h'
  · exact absurd (hgood.mpr h') h
  · simp

/-- The bytes that the loop looks at are the last ones. -/
lemma forall_drop_iff (hle : p.toNat + 1 ≤ payload.length) :
    (∀ b ∈ payload.drop (payload.length - (p.toNat + 1)), b = p) ↔
      ∀ i ≤ p.toNat, payload.getD (payload.length - 1 - i) 0 = p := by
  constructor
  · intro h i hi
    rw [getD_eq_getElem?_getD, getElem?_eq_getElem (by omega), getD_some]
    refine h _ (mem_iff_getElem.mpr ⟨p.toNat - i, by rw [length_drop]; omega, ?_⟩)
    rw [getElem_drop]
    congr 1
    omega
  · intro h b hb
    obtain ⟨j, hj, rfl⟩ := mem_iff_getElem.mp hb
    rw [length_drop] at hj
    have hbyte := h (p.toNat - j) (by omega)
    rw [getD_eq_getElem?_getD, getElem?_eq_getElem (by omega), getD_some] at hbyte
    refine Eq.trans ?_ hbyte
    rw [getElem_drop]
    congr 1
    omega

/-- `data` with `k + 1` bytes of padding. -/
def padded (data : Bytes) (k : Nat) : Bytes := data ++ List.replicate (k + 1) (UInt8.ofNat k)

lemma length_padded (data : Bytes) (k : Nat) : (padded data k).length = data.length + (k + 1) := by
  rw [padded, length_append, length_replicate]

/-- Valid padding is recognised. -/
lemma extractPadding_padded (hk : k < 256)
    (hlen : (padded data k).length < 2 ^ 31) : extractPadding (padded data k) = (k + 1, 255) := by
  have hvalue : (UInt8.ofNat k).toNat = k := by rw [UInt8.toNat_ofNat', Nat.mod_eq_of_lt hk]
  have hlast : (padded data k).getLast? = some (UInt8.ofNat k) := by
    simp [padded, replicate_succ']
  have hle : (UInt8.ofNat k).toNat + 1 ≤ (padded data k).length := by
    rw [length_padded, hvalue]
    exact Nat.le_add_left _ _
  have hbytes : ∀ b ∈ (padded data k).drop ((padded data k).length - ((UInt8.ofNat k).toNat + 1)),
      b = UInt8.ofNat k := by
    rw [hvalue, length_padded, Nat.add_sub_cancel, padded, drop_left]
    exact fun b hb => eq_of_mem_replicate hb
  rw [extractPadding_eq hlast hlen, if_pos ⟨hle, (forall_drop_iff hle).mp hbytes⟩, hvalue]

/-- The last byte is `p`, and the last `p + 1` bytes are there and are all `p`. -/
def ValidPadding (payload : Bytes) (p : UInt8) : Prop :=
  payload.getLast? = some p ∧ p.toNat + 1 ≤ payload.length ∧
    ∀ b ∈ payload.drop (payload.length - (p.toNat + 1)), b = p

/-- `extractPadding` finds valid padding with its length, and nothing else. -/
theorem extractPadding_spec {payload : Bytes} (hlen : payload.length < 2 ^ 31) :
    (∀ p, ValidPadding payload p → extractPadding payload = (p.toNat + 1, 255)) ∧
      ((¬∃ p, ValidPadding payload p) →
        extractPadding payload = (if payload = [] then 0 else 1, 0)) := by
  constructor
  · rintro p ⟨hlast, hle, hbytes⟩
    rw [extractPadding_eq hlast hlen, if_pos ⟨hle, (forall_drop_iff hle).mp hbytes⟩]
  · intro hno
    cases hlast : payload.getLast? with
    | none =>
      rw [getLast?_eq_none_iff.mp hlast]
      rfl
    | some p =>
      have hne : payload ≠ [] := ne_nil_of_mem (mem_of_getLast? hlast)
      rw [extractPadding_eq hlast hlen, if_neg, if_neg hne]
      rintro ⟨hle, hbytes⟩
      exact hno ⟨p, hlast, hle, (forall_drop_iff hle).mpr hbytes⟩

/-- Two bytes of padding. -/
theorem extractPadding_two_bytes : extractPadding [5, 1, 1] = (2, 255) :=
  (extractPadding_spec (by decide)).1 1 ⟨rfl, by decide, by simp⟩

/-! ## Headers, MAC and content type -/

/-- The header of a record with `n` bytes. -/
def recordHeader (typ : UInt8) (vers : UInt16) (n : Nat) : Bytes :=
  typ :: (u16 vers.toNat ++ u16 n)

section Header

variable (typ : UInt8) (vers : UInt16) (n m : Nat) (r : Bytes)

lemma setLength_recordHeader :
    setLength (recordHeader typ vers n ++ r) m = recordHeader typ vers m ++ r := rfl

lemma take_recordHeader :
    (recordHeader typ vers n ++ r).take recordHeaderLen = recordHeader typ vers n := rfl

lemma drop_recordHeader : (recordHeader typ vers n ++ r).drop recordHeaderLen = r := rfl

lemma length_recordHeader :
    (recordHeader typ vers n ++ r).length = recordHeaderLen + r.length := by
  rw [length_append]
  rfl

lemma recordHeaderLen_le : recordHeaderLen ≤ (recordHeader typ vers n ++ r).length := by
  rw [length_recordHeader]
  exact Nat.le_add_right _ _

end Header

lemma clampNegative_natCast {n : Nat} (h : n < 2 ^ 31) : HalfConn.clampNegative n = n := by
  have hmsb : (BitVec.ofInt 32 n).msb = false := by
    rw [BitVec.ofInt_natCast, BitVec.msb_eq_false_iff_two_mul_lt, BitVec.toNat_ofNat]
    omega
  rw [HalfConn.clampNegative, hmsb]
  rfl

/-- The MAC of the data is accepted, with any padding after it. -/
lemma checkMAC_tag {mac : Mac} {seq pad r : Bytes} {typ : UInt8} {vers : UInt16} {m : Nat}
    {o : HalfConn.Opened} (hpayload : o.payload =
      data ++ (tls10MAC mac seq (recordHeader typ vers data.length) data ++ pad))
    (hpad : o.paddingLen = pad.length) (hgood : o.paddingGood = 255)
    (hlen : o.payload.length < 2 ^ 31) :
    HalfConn.checkMAC seq (recordHeader typ vers m ++ r) mac o = .ok data := by
  have hlength : o.payload.length = data.length + (mac.size + pad.length) := by
    rw [hpayload, length_append, length_append, tls10MAC, mac.length_tag]
  have hn : HalfConn.clampNegative ((o.payload.length : Int) - mac.size - o.paddingLen) =
      data.length := by
    have hcast : (o.payload.length : Int) - mac.size - o.paddingLen = (data.length : Nat) := by
      omega
    rw [hcast, clampNegative_natCast (by omega)]
  have htake : o.payload.take data.length = data := by
    rw [hpayload, take_left]
  have hremote : (o.payload.drop data.length).take mac.size =
      tls10MAC mac seq (recordHeader typ vers data.length) data := by
    rw [hpayload, drop_left, tls10MAC, ← mac.length_tag, take_left]
  rw [HalfConn.checkMAC, if_neg (by omega), hn]
  dsimp only
  rw [setLength_recordHeader, take_recordHeader, htake, hremote, if_pos rfl, hgood]
  rfl

/-- The loop stops at a byte that is not zero. -/
lemma scanContentType_found {payload rest : Bytes} {typ : UInt8} (htyp : typ ≠ 0) :
    HalfConn.scanContentType (payload ++ typ :: rest) (payload.length + 1) = some (payload, typ) := by
  have hlast : (payload ++ typ :: rest).getD payload.length 0 = typ := by
    simp [getD_eq_getElem?_getD]
  rw [HalfConn.scanContentType, hlast, if_pos htyp, take_left]

/-- The loop passes over zeros. -/
lemma scanContentType_zeros (start : Bytes) {zeros : Bytes} (hzero : ∀ b ∈ zeros, b = 0) {n : Nat}
    (hn : n ≤ zeros.length) : HalfConn.scanContentType (start ++ zeros) (start.length + n) =
      HalfConn.scanContentType (start ++ zeros) start.length := by
  induction n with
  | zero => rfl
  | succ n ih =>
    have hbyte : (start ++ zeros).getD (start.length + n) 0 = 0 := by
      rw [getD_eq_getElem?_getD, getElem?_append_right (Nat.le_add_right _ _),
        Nat.add_sub_cancel_left, getElem?_eq_getElem (by omega), getD_some]
      exact hzero _ (getElem_mem _)
    rw [← Nat.add_assoc, HalfConn.scanContentType, hbyte, if_neg (not_not.mpr rfl)]
    exact ih (by omega)

lemma exists_last_nonzero {l : Bytes} {b : UInt8} (hb : b ∈ l) (hne : b ≠ 0) :
    ∃ pre typ zeros, l = pre ++ typ :: zeros ∧ typ ≠ 0 ∧ ∀ b ∈ zeros, b = 0 := by
  obtain ⟨typ, hfind⟩ := isSome_iff_exists.mp (find?_isSome.mpr ⟨b, mem_reverse.mpr hb,
    show decide (b ≠ 0) = true by simpa using hne⟩ : (l.reverse.find? (· ≠ 0)).isSome)
  obtain ⟨htyp, zeros, pre, hsplit, hzero⟩ := find?_eq_some_iff_append.mp hfind
  refine ⟨pre.reverse, typ, zeros.reverse, ?_, by simpa using htyp, by simpa using hzero⟩
  rw [← reverse_reverse l, hsplit]
  simp

lemma innerPlaintext_eq {plaintext : Bytes} (hlen : plaintext.length ≤ maxPlaintext + 1)
    (hne : plaintext ≠ []) : HalfConn.innerPlaintext plaintext recordTypeApplicationData =
      match HalfConn.scanContentType plaintext plaintext.length with
      | some r => .ok r
      | none => .error alertUnexpectedMessage := by
  rw [HalfConn.innerPlaintext, if_neg (not_not.mpr rfl), if_neg (by omega),
    if_neg (length_eq_zero_iff.not.mpr hne)]

/-- The content type is the last byte that is not zero. -/
lemma innerPlaintext_typed {payload zeros : Bytes} {typ : UInt8} (htyp : typ ≠ 0)
    (hzero : ∀ b ∈ zeros, b = 0) (hlen : (payload ++ typ :: zeros).length ≤ maxPlaintext + 1) :
    HalfConn.innerPlaintext (payload ++ typ :: zeros) recordTypeApplicationData =
      .ok (payload, typ) := by
  have hscan : HalfConn.scanContentType (payload ++ typ :: zeros)
      (payload ++ typ :: zeros).length = some (payload, typ) := by
    have h := scanContentType_zeros (payload ++ [typ]) hzero le_rfl
    rwa [append_assoc, length_append, length_singleton, singleton_append, scanContentType_found htyp,
      Nat.add_assoc, Nat.add_comm 1, ← length_cons (a := typ), ← length_append] at h
  rw [innerPlaintext_eq hlen (by simp), hscan]

lemma innerPlaintext_zeros {plaintext : Bytes} (hzero : ∀ b ∈ plaintext, b = 0)
    (hlen : plaintext.length ≤ maxPlaintext + 1) (hne : plaintext ≠ []) :
    HalfConn.innerPlaintext plaintext recordTypeApplicationData = .error alertUnexpectedMessage := by
  have hscan := scanContentType_zeros [] hzero le_rfl
  rw [nil_append, length_nil, Nat.zero_add] at hscan
  rw [innerPlaintext_eq hlen hne, hscan]
  rfl

/-! ## One record -/

namespace HalfConn

variable {σ τ : Type} {hc : HalfConn σ τ}

/-- The kinds of protection: a stream cipher or a block cipher with a MAC, or authenticated
encryption, which has no explicit nonce in TLS 1.3. -/
def Protecting (hc : HalfConn σ τ) : Prop :=
  match hc.cipher with
  | .nil => False
  | .stream _ _ => hc.mac.isSome = true ∧ hc.version ≠ VersionTLS13
  | .cbc _ _ => hc.mac.isSome = true ∧ hc.version ≠ VersionTLS13
  | .aead c => hc.mac = none ∧ (hc.version = VersionTLS13 → c.explicitNonceLen = 0)

/-- The explicit nonce is drawn from the random source. -/
def DrawsNonce (hc : HalfConn σ τ) : Prop :=
  match hc.cipher with
  | .cbc _ _ => 0 < hc.explicitNonceLen
  | _ => 16 ≤ hc.explicitNonceLen

/-- What the explicit nonce is: random bytes, or the front of the sequence number. -/
lemma explicitNonce_cases (hc : HalfConn σ τ) (rand : RandomSource) :
    (hc.DrawsNonce ∧ hc.explicitNonce rand = (rand hc.explicitNonceLen).map Vector.toList) ∨
      hc.explicitNonceLen < 16 ∧
        hc.explicitNonce rand = .ok ((hc.seq.bytes ++ replicate 8 0).take hc.explicitNonceLen) := by
  rw [explicitNonce, DrawsNonce]
  by_cases hpos : hc.explicitNonceLen > 0
  · rw [if_pos hpos]
    cases hc.cipher with
    | cbc c state => exact .inl ⟨hpos, rfl⟩
    | _ =>
      by_cases hlt : hc.explicitNonceLen < 16
      · exact .inr ⟨hlt, if_pos hlt⟩
      · exact .inl ⟨Nat.le_of_not_lt hlt, if_neg hlt⟩
  · rw [Nat.eq_zero_of_not_pos hpos]
    exact .inr ⟨by decide, rfl⟩

/-- The explicit nonce of a record has its length, and without random bytes it is the front of the
sequence number. -/
structure NonceFrom (hc : HalfConn σ τ) (n : Counter 8) (explicit : Bytes) : Prop where
  length_eq : explicit.length = hc.explicitNonceLen
  counted : ¬hc.DrawsNonce → explicit = (n.bytes ++ replicate 8 0).take hc.explicitNonceLen

/-- Only a random source can fail to give the explicit nonce. -/
lemma explicitNonce_spec (hc : HalfConn σ τ) (rand : RandomSource) :
    match hc.explicitNonce rand with
    | .ok explicit => hc.NonceFrom hc.seq explicit
    | .error e => hc.DrawsNonce ∧ rand hc.explicitNonceLen = .error e := by
  rcases explicitNonce_cases hc rand with ⟨hdraws, h⟩ | ⟨hlt, h⟩
  · rw [h]
    cases rand hc.explicitNonceLen with
    | error e => exact ⟨hdraws, rfl⟩
    | ok v => exact ⟨Vector.length_toList, fun hno => absurd hdraws hno⟩
  · rw [h]
    refine ⟨?_, fun _ => rfl⟩
    rw [length_take, length_append, hc.seq.length_eq, length_replicate]
    omega

/-- The record with the header `header` and the payload is protected under the sequence number `n`:
the number goes into its MAC, or into its nonce and additional data. -/
def ProtectedUnder (hc : HalfConn σ τ) (n : Counter 8) (header payload record : Bytes) : Prop :=
  match hc.cipher with
  | .nil => False
  | .stream c state => ∃ mac, hc.mac = some mac ∧ record.drop recordHeaderLen =
      (c.xorKeyStream state (payload ++ tls10MAC mac n.bytes header payload)).1
  | .aead c =>
    if hc.version = VersionTLS13 then record.drop recordHeaderLen =
      c.sealBytes n.bytes (record.take recordHeaderLen) (payload ++ [header.getD 0 0])
    else ∃ explicit, hc.NonceFrom n explicit ∧ record.drop recordHeaderLen = explicit ++
      c.sealBytes (if explicit.length = 0 then n.bytes else explicit) (n.bytes ++ header) payload
  | .cbc c state => ∃ mac explicit k, hc.mac = some mac ∧ hc.NonceFrom n explicit ∧
      record.drop recordHeaderLen = explicit ++
        (c.encryptBlocks (if explicit.length > 0 then c.setIV state explicit else state)
          (padded (payload ++ tls10MAC mac n.bytes header payload) k)).1

/-- The receiver `hc` takes apart the record of a sender in the same state: it gets the payload and
the type, and its cipher is then in the state `cipher`. -/
structure Opens (hc : HalfConn σ τ) (record : Bytes) (cipher : CipherState σ τ) (typ : UInt8)
    (vers : UInt16) (payload : Bytes) : Prop where
  length_le : recordHeaderLen ≤ record.length
  outerType : hc.version = VersionTLS13 → record.getD 0 0 = recordTypeApplicationData
  under : hc.ProtectedUnder hc.seq (recordHeader typ vers payload.length) payload record
  opened : ∃ o plaintext, openRecord record (record.drop recordHeaderLen) hc =
      .ok o { hc with cipher := cipher } ∧
    hc.typedPlaintext o (record.getD 0 0) = .ok (plaintext, typ) ∧
    hc.checkedPlaintext record o plaintext = .ok payload

section Kinds

variable {typ : UInt8} {vers : UInt16} {payload explicit record : Bytes}
  {cipher : CipherState σ τ} {n : Nat}

lemma opens_stream {c : Stream σ} {state : σ} (hcipher : hc.cipher = .stream c state)
    (hversion : hc.version ≠ VersionTLS13) (hlen : payload.length ≤ maxPlaintext)
    (h : hc.protect (recordHeader typ vers payload.length ++ []) [] payload =
      some (record, cipher)) : hc.Opens (setLength record n) cipher typ vers payload := by
  rw [protect, hcipher] at h
  obtain ⟨mac, hmac, h⟩ := map_eq_some_iff.mp h
  rw [take_recordHeader, append_nil] at h
  cases h
  let tag := tls10MAC mac hc.seq.bytes (recordHeader typ vers payload.length) payload
  have happend := c.xor_append state payload tag
  rw [setLength_recordHeader]
  refine ⟨recordHeaderLen_le .., fun h13 => absurd h13 hversion, ?_,
    { payload := payload ++ (tag ++ []) }, [], ?_, ?_, ?_⟩
  · rw [ProtectedUnder, hcipher]
    exact ⟨mac, hmac, (congrArg Prod.fst happend).symm⟩
  · rw [drop_recordHeader, openRecord, run_get_bind, hcipher]
    dsimp only
    have hxor := c.xor_xor state (payload ++ tag)
    rw [happend] at hxor
    rw [hxor, append_nil]
    rfl
  · rw [typedPlaintext, hcipher]
    exact if_neg hversion
  · rw [checkedPlaintext, hmac]
    refine checkMAC_tag rfl rfl rfl ?_
    have hsize := mac.size_lt
    have htag : tag.length = mac.size := mac.length_tag _
    rw [append_nil, length_append, htag]
    rw [maxPlaintext] at hlen
    omega

/-- The additional data of authenticated encryption before TLS 1.3 is the same at both ends. -/
lemma opens_aead {c : Aead} (hcipher : hc.cipher = .aead c) (hmac : hc.mac = none)
    (hversion : hc.version ≠ VersionTLS13) (hnonce : hc.NonceFrom hc.seq explicit)
    (h : hc.protect (recordHeader typ vers payload.length ++ explicit) explicit payload =
      some (record, cipher)) : hc.Opens (setLength record n) cipher typ vers payload := by
  rw [protect, hcipher] at h
  dsimp only at h
  rw [if_neg hversion, take_recordHeader, append_assoc] at h
  cases h
  let sealed := c.sealBytes (hc.aeadNonce explicit)
    (hc.seq.bytes ++ recordHeader typ vers payload.length) payload
  have hsealed : sealed.length - c.overhead = payload.length := by
    rw [c.length_seal, Nat.add_sub_cancel]
  rw [setLength_recordHeader]
  have hlength := hnonce.length_eq
  refine ⟨recordHeaderLen_le .., fun h13 => absurd h13 hversion, ?_,
    { plaintext := payload, payload := sealed }, payload, ?_, ?_, ?_⟩
  · rw [ProtectedUnder, hcipher]
    dsimp only
    rw [if_neg hversion]
    exact ⟨explicit, hnonce, rfl⟩
  · rw [drop_recordHeader, openRecord, run_get_bind, hcipher]
    dsimp only
    rw [if_neg (by rw [length_append, hlength]; omega), ← hlength, take_left,
      drop_left, if_neg hversion, hsealed]
    have hdata : hc.seq.bytes ++ ((recordHeader typ vers n ++ (explicit ++ sealed)).take 3 ++
        u16 payload.length) = hc.seq.bytes ++ recordHeader typ vers payload.length := rfl
    have hopen : c.openBytes (hc.aeadNonce explicit) _ sealed = some payload :=
      c.open_seal (hc.aeadNonce explicit)
        (hc.seq.bytes ++ recordHeader typ vers payload.length) payload
    rw [hdata, hopen, ← hcipher]
    rfl
  · rw [typedPlaintext, hcipher]
    exact if_neg hversion
  · rw [checkedPlaintext, hmac]

lemma opens_aead13 {c : Aead} (hcipher : hc.cipher = .aead c) (hmac : hc.mac = none)
    (hversion : hc.version = VersionTLS13) (hnonce : hc.explicitNonceLen = 0) (htyp : typ ≠ 0)
    (hlen : payload.length ≤ maxPlaintext)
    (h : hc.protect (recordHeader typ vers payload.length ++ []) [] payload =
      some (record, cipher)) :
    hc.Opens (setLength record (record.length - recordHeaderLen)) cipher typ vers payload := by
  rw [protect, hcipher] at h
  dsimp only at h
  rw [if_pos hversion, append_nil] at h
  -- the header is rewritten before it is used as additional data
  let header := recordHeader recordTypeApplicationData vers (payload.length + 1 + c.overhead)
  let sealed := c.sealBytes (hc.aeadNonce []) header (payload ++ [typ])
  have hrecord : (record, cipher) = (header ++ sealed, CipherState.aead c) := by
    rw [← some.inj h]
    rfl
  cases hrecord
  have hlength : (header ++ sealed).length - recordHeaderLen = payload.length + 1 + c.overhead := by
    rw [length_recordHeader, Nat.add_sub_cancel_left, c.length_seal, length_append,
      length_singleton]
  rw [hlength, setLength_recordHeader]
  refine ⟨recordHeaderLen_le .., fun _ => rfl, ?_,
    { plaintext := payload ++ [typ], payload := sealed }, payload, ?_, ?_, ?_⟩
  · rw [ProtectedUnder, hcipher]
    exact (if_pos hversion).mpr rfl
  · have hopen : c.openBytes (hc.aeadNonce []) header sealed = some (payload ++ [typ]) :=
      c.open_seal (hc.aeadNonce []) header (payload ++ [typ])
    rw [drop_recordHeader, openRecord, run_get_bind, hcipher]
    dsimp only
    rw [hnonce, if_neg (Nat.not_lt_zero _), take_zero, drop_zero, if_pos hversion,
      take_recordHeader, hopen, ← hcipher]
    rfl
  · rw [typedPlaintext, hcipher]
    rw [if_pos hversion]
    exact innerPlaintext_typed htyp (by simp) (by simpa using hlen)
  · rw [checkedPlaintext, hmac]

/-- The length of the padding that fills the last block. -/
lemma dvd_padded_length {bs len : Nat} (hbs : 0 < bs) : bs ∣ len + (bs - len % bs) := by
  have hmod := Nat.mod_lt len hbs
  have hdiv := Nat.div_add_mod len bs
  refine ⟨len / bs + 1, ?_⟩
  rw [Nat.mul_add, Nat.mul_one]
  omega

lemma roundUp_le {a bs len : Nat} (hbs : 0 < bs) (ha : a ≤ len) (hlen : bs ∣ len) :
    roundUp a bs ≤ len := by
  obtain ⟨q, rfl⟩ := hlen
  have hdiv := Nat.div_add_mod a bs
  rw [roundUp]
  rcases Nat.eq_zero_or_pos (a % bs) with hzero | hpos
  · rw [hzero, Nat.sub_zero, Nat.mod_self]
    exact ha
  · rw [Nat.mod_eq_of_lt (by omega : bs - a % bs < bs)]
    have hlt : a / bs < q := by
      by_contra hge
      have hmul := Nat.mul_le_mul_left bs (not_lt.mp hge)
      omega
    have hmul := Nat.mul_le_mul_left bs hlt
    rw [Nat.mul_succ] at hmul
    omega

lemma opens_cbc {c : BlockMode τ} {state : τ} (hcipher : hc.cipher = .cbc c state)
    (hversion : hc.version ≠ VersionTLS13) (hnonce : hc.NonceFrom hc.seq explicit)
    (hlen : payload.length ≤ maxPlaintext)
    (h : hc.protect (recordHeader typ vers payload.length ++ explicit) explicit payload =
      some (record, cipher)) : hc.Opens (setLength record n) cipher typ vers payload := by
  rw [protect, hcipher] at h
  obtain ⟨mac, hmac, h⟩ := map_eq_some_iff.mp h
  rw [take_recordHeader] at h
  dsimp only at h
  generalize htag : tls10MAC mac hc.seq.bytes (recordHeader typ vers payload.length) payload =
    tag at h
  have htagLen : tag.length = mac.size := by
    rw [← htag]
    exact mac.length_tag _
  have hbs := c.blockSize_pos
  have hbsLe := c.blockSize_le
  have hsize := mac.size_lt
  have hmod := Nat.mod_lt (payload.length + tag.length) hbs
  -- one byte of the padding is its length
  obtain ⟨k, hk⟩ : ∃ k, c.blockSize - (payload.length + tag.length) % c.blockSize = k + 1 :=
    Nat.exists_eq_add_one.mpr (by omega)
  have hdvd : c.blockSize ∣ (padded (payload ++ tag) k).length := by
    rw [length_padded, length_append, ← hk]
    exact dvd_padded_length hbs
  have hdst : payload ++ (tag ++ replicate (k + 1) (UInt8.ofNat k)) =
      padded (payload ++ tag) k := by
    rw [padded, append_assoc]
  have hdstLen : (padded (payload ++ tag) k).length = payload.length + mac.size + (k + 1) := by
    rw [length_padded, length_append, htagLen]
  rw [hk, Nat.add_sub_cancel, hdst, append_assoc] at h
  cases h
  generalize hstate : (if explicit.length > 0 then c.setIV state explicit else state) = state'
  have hblocks : (c.encryptBlocks state' (padded (payload ++ tag) k)).1.length =
      (padded (payload ++ tag) k).length := c.length_encrypt _ _ hdvd
  have hlength := hnonce.length_eq
  have hexpDvd : c.blockSize ∣ explicit.length := by
    rw [hlength, explicitNonceLen, hcipher]
    dsimp only
    split
    · exact dvd_refl _
    · exact dvd_zero _
  have hbound : (padded (payload ++ tag) k).length < 2 ^ 31 := by
    rw [maxPlaintext] at hlen
    omega
  rw [setLength_recordHeader]
  refine ⟨recordHeaderLen_le .., fun h13 => absurd h13 hversion, ?_,
    ⟨[], padded (payload ++ tag) k, k + 1, 255⟩, [], ?_, ?_, ?_⟩
  · rw [ProtectedUnder, hcipher]
    refine ⟨mac, explicit, k, hmac, hnonce, ?_⟩
    rw [htag, hstate]
    rfl
  · rw [drop_recordHeader, openRecord, run_get_bind, hcipher]
    rw [hmac]
    dsimp only
    have hround := roundUp_le hbs (show mac.size + 1 ≤ (padded (payload ++ tag) k).length by omega)
    have haccept : ¬((explicit ++ (c.encryptBlocks state' (padded (payload ++ tag) k)).1).length %
        c.blockSize ≠ 0 ∨
        (explicit ++ (c.encryptBlocks state' (padded (payload ++ tag) k)).1).length <
          hc.explicitNonceLen + roundUp (mac.size + 1) c.blockSize) := by
      rw [length_append, hblocks, not_or, not_not]
      exact ⟨Nat.mod_eq_zero_of_dvd (Nat.dvd_add hexpDvd hdvd), by omega⟩
    rw [if_neg haccept, ← hlength, take_left, drop_left, hstate,
      c.decrypt_encrypt _ _ hdvd, run_bind, run_set]
    rw [extractPadding_padded (by omega) hbound]
    rfl
  · rw [typedPlaintext, hcipher]
    exact if_neg hversion
  · rw [checkedPlaintext, hmac]
    refine checkMAC_tag ?_ (length_replicate (n := k + 1) (a := UInt8.ofNat k)).symm rfl hbound
    rw [htag]
    exact hdst.symm

end Kinds

/-- A record is opened by a receiver in the state of its sender, whatever the kind of protection. -/
lemma Protecting.opens {typ : UInt8} {vers : UInt16} {payload explicit record : Bytes}
    {cipher : CipherState σ τ} (hprot : hc.Protecting) (htyp : typ ≠ 0)
    (hlen : payload.length ≤ maxPlaintext) (hnonce : hc.NonceFrom hc.seq explicit)
    (h : hc.protect (recordHeader typ vers payload.length ++ explicit) explicit payload =
      some (record, cipher)) :
    hc.Opens (setLength record (record.length - recordHeaderLen)) cipher typ vers payload := by
  rw [Protecting] at hprot
  cases hcipher : hc.cipher with
  | nil =>
    rw [hcipher] at hprot
    exact hprot.elim
  | stream c state =>
    rw [hcipher] at hprot
    obtain rfl : explicit = [] := by
      have hlength := hnonce.length_eq
      rw [explicitNonceLen, hcipher] at hlength
      exact length_eq_zero_iff.mp hlength
    exact opens_stream hcipher hprot.2 hlen h
  | cbc c state =>
    rw [hcipher] at hprot
    exact opens_cbc hcipher hprot.2 hnonce hlen h
  | aead c =>
    rw [hcipher] at hprot
    by_cases h13 : hc.version = VersionTLS13
    · have hzero : hc.explicitNonceLen = 0 := by
        rw [explicitNonceLen, hcipher]
        exact hprot.2 h13
      obtain rfl : explicit = [] := length_eq_zero_iff.mp (hnonce.length_eq.trans hzero)
      exact opens_aead13 hcipher hprot.1 h13 hzero htyp hlen h
    · exact opens_aead hcipher hprot.1 h13 hnonce h

/-- The next state of the cipher is of the same kind. -/
lemma Protecting.protect (hprot : hc.Protecting) (record explicit payload : Bytes) :
    ∃ record' cipher, hc.protect record explicit payload = some (record', cipher) ∧
      ∀ seq, Protecting { hc with cipher := cipher, seq := seq } := by
  rw [Protecting] at hprot
  rw [HalfConn.protect]
  cases hcipher : hc.cipher with
  | nil =>
    rw [hcipher] at hprot
    exact hprot.elim
  | stream c state =>
    rw [hcipher] at hprot
    obtain ⟨mac, hmac⟩ := isSome_iff_exists.mp hprot.1
    rw [hmac]
    exact ⟨_, _, rfl, fun seq => ⟨rfl, hprot.2⟩⟩
  | cbc c state =>
    rw [hcipher] at hprot
    obtain ⟨mac, hmac⟩ := isSome_iff_exists.mp hprot.1
    rw [hmac]
    exact ⟨_, _, rfl, fun seq => ⟨rfl, hprot.2⟩⟩
  | aead c =>
    rw [hcipher] at hprot
    dsimp only
    by_cases h13 : hc.version = VersionTLS13
    · rw [if_pos h13]
      exact ⟨_, _, rfl, fun seq => hprot⟩
    · rw [if_neg h13]
      exact ⟨_, _, rfl, fun seq => hprot⟩

/-- The sequence number is advanced, unless it would wrap around. -/
lemma run_incSeq (hc : HalfConn σ τ) : incSeq hc =
    match hc.seq.succ with
    | some seq => .ok () { hc with seq := seq }
    | none => .error (.panic "TLS: sequence number wraparound") hc := by
  rw [incSeq, run_get_bind]
  cases hc.seq.succ <;> rfl

/-- What is opened is decrypted. -/
theorem Opens.decrypt {record payload : Bytes} {cipher : CipherState σ τ} {typ : UInt8}
    {vers : UInt16} {seq : Counter 8} (h : hc.Opens record cipher typ vers payload)
    (hseq : hc.seq.succ = some seq) :
    decrypt record hc = .ok (payload, typ) { hc with cipher := cipher, seq := seq } := by
  obtain ⟨o, plaintext, hopen, htyped, hchecked⟩ := h.opened
  have hccs : ¬(hc.version = VersionTLS13 ∧ record.getD 0 0 = recordTypeChangeCipherSpec) := by
    rintro ⟨h13, htyp⟩
    rw [h.outerType h13] at htyp
    exact absurd htyp (by decide)
  rw [HalfConn.decrypt, run_bind, run_assert_true h.length_le]
  dsimp only
  rw [run_get_bind, if_neg hccs, run_bind, hopen]
  dsimp only
  rw [htyped, run_bind]
  change (ofExcept (hc.checkedPlaintext record o plaintext) >>= _ : Prog Err (HalfConn σ τ) _) _ = _
  rw [hchecked]
  change (incSeq >>= _ : Prog Err (HalfConn σ τ) _) _ = _
  rw [run_bind, run_incSeq]
  rw [hseq]
  rfl

/-- `hc` opens the application data record in TLS 1.3, to `plaintext`. -/
structure Opens13 (hc : HalfConn σ τ) (c : Aead) (record plaintext : Bytes) : Prop where
  version : hc.version = VersionTLS13
  cipher : hc.cipher = .aead c
  mac : hc.mac = none
  typ : record.getD 0 0 = recordTypeApplicationData
  length_le : recordHeaderLen + c.explicitNonceLen ≤ record.length
  opens : c.openBytes (hc.aeadNonce ((record.drop recordHeaderLen).take c.explicitNonceLen))
    (record.take recordHeaderLen) ((record.drop recordHeaderLen).drop c.explicitNonceLen) =
      some plaintext

/-- What `decrypt` makes of the plaintext. -/
lemma Opens13.decrypt_eq (h : hc.Opens13 c record plaintext) : decrypt record hc =
    (ofExcept (innerPlaintext plaintext recordTypeApplicationData) >>= fun r =>
      incSeq >>= fun _ => pure r : Prog Err (HalfConn σ τ) (Bytes × UInt8)) hc := by
  have hn : hc.explicitNonceLen = c.explicitNonceLen := by rw [explicitNonceLen, h.cipher]
  have hlen := h.length_le
  have hshort : ¬(record.drop recordHeaderLen).length < c.explicitNonceLen := by
    rw [length_drop]
    omega
  have hopen : openRecord record (record.drop recordHeaderLen) hc =
      .ok ⟨plaintext, (record.drop recordHeaderLen).drop c.explicitNonceLen, 0, 255⟩ hc := by
    rw [openRecord, run_get_bind, h.cipher]
    dsimp only
    rw [hn, if_neg hshort, if_pos h.version, h.opens]
    rfl
  have hccs : ¬(hc.version = VersionTLS13 ∧ record.getD 0 0 = recordTypeChangeCipherSpec) := by
    rw [h.typ]
    exact fun h => absurd h.2 (by decide)
  rw [HalfConn.decrypt, run_bind, run_assert_true (by omega)]
  dsimp only
  rw [run_get_bind, if_neg hccs, run_bind, hopen]
  dsimp only
  rw [typedPlaintext, h.cipher]
  rw [if_pos h.version, h.typ, run_bind, run_bind]
  cases innerPlaintext plaintext recordTypeApplicationData with
  | error e => rfl
  | ok r =>
    simp only [checkedPlaintext, h.mac]
    rfl

/-- The content type is the last byte of the plaintext that is not zero, and a plaintext without such
a byte is rejected and the sequence number kept, exactly if the plaintext is not empty and the sequence
number has a successor. -/
theorem decrypt_inner_iff (h : hc.Opens13 c record plaintext)
    (hlen : plaintext.length ≤ maxPlaintext + 1) :
    ((∀ payload typ zeros, plaintext = payload ++ typ :: zeros → typ ≠ 0 → (∀ b ∈ zeros, b = 0) →
        ∃ seq, hc.seq.succ = some seq ∧
          decrypt record hc = .ok (payload, typ) { hc with seq := seq }) ∧
      ((∀ b ∈ plaintext, b = 0) →
        decrypt record hc = .error (.error alertUnexpectedMessage) hc)) ↔
    plaintext ≠ [] ∧ ((∃ b ∈ plaintext, b ≠ 0) → hc.seq.succ.isSome) := by
  have hreturns : ∀ r, innerPlaintext plaintext recordTypeApplicationData = .ok r →
      decrypt record hc = (incSeq >>= fun _ => pure r : Prog Err (HalfConn σ τ) _) hc := by
    intro r hr
    rw [h.decrypt_eq, hr]
    rfl
  constructor
  · rintro ⟨htyped, hrejects⟩
    refine ⟨?_, ?_⟩
    · -- the loop does not run for an empty plaintext
      rintro rfl
      have hrun := hrejects (by simp)
      rw [hreturns _ rfl, run_bind, run_incSeq] at hrun
      cases hseq : hc.seq.succ <;> rw [hseq] at hrun <;> cases hrun
    · rintro ⟨b, hb, hne⟩
      obtain ⟨payload, typ, zeros, hsplit, htyp, hzero⟩ := exists_last_nonzero hb hne
      obtain ⟨seq, hseq, -⟩ := htyped payload typ zeros hsplit htyp hzero
      rw [hseq, isSome_some]
  · rintro ⟨hne, hseq⟩
    refine ⟨?_, fun hzero => ?_⟩
    · rintro payload typ zeros rfl htyp hzero
      obtain ⟨seq, hsucc⟩ := isSome_iff_exists.mp (hseq ⟨typ, by simp, htyp⟩)
      refine ⟨seq, hsucc, ?_⟩
      rw [hreturns _ (innerPlaintext_typed htyp hzero hlen), run_bind, run_incSeq, hsucc]
      rfl
    · rw [h.decrypt_eq, innerPlaintext_zeros hzero hlen hne]
      rfl

lemma length_idSeal (_ _ p : Bytes) : p.length = p.length + 0 := rfl

lemma open_idSeal (_ _ p : Bytes) : some p = some p := rfl

/-- Authenticated encryption that does nothing. -/
def idAead : Aead where
  explicitNonceLen := 0
  overhead := 0
  sealBytes _ _ p := p
  openBytes _ _ b := some b
  length_seal := length_idSeal
  open_seal := open_idSeal

/-- A half-connection of TLS 1.3 at its first record. -/
def half13 : HalfConn Unit Unit where
  version := VersionTLS13
  cipher := .aead idAead
  mac := none
  seq := ⟨[0, 0, 0, 0, 0, 0, 0, 0], rfl⟩

/-- One byte of a handshake message with two bytes of padding. -/
theorem decrypt_inner_padded : ∃ hc', decrypt [23, 3, 3, 0, 4, 7, 22, 0, 0] half13 =
    .ok ([7], 22) hc' := by
  have hopens : half13.Opens13 idAead [23, 3, 3, 0, 4, 7, 22, 0, 0] [7, 22, 0, 0] :=
    ⟨rfl, rfl, rfl, rfl, by decide, rfl⟩
  have hlaw := (decrypt_inner_iff hopens (by decide)).mpr ⟨by simp, fun _ => by decide⟩
  obtain ⟨seq, -, h⟩ := hlaw.1 [7] 22 [0, 0] rfl (by decide) (by simp)
  exact ⟨_, h⟩

/-- An empty plaintext is accepted as application data. -/
theorem decrypt_inner_empty : half13.Opens13 idAead [23, 3, 3, 0, 0] [] ∧
    ∃ hc', decrypt [23, 3, 3, 0, 0] half13 = .ok ([], recordTypeApplicationData) hc' ∧
      hc'.seq ≠ half13.seq :=
  ⟨⟨rfl, rfl, rfl, rfl, by decide, rfl⟩, { half13 with seq := ⟨[0, 0, 0, 0, 0, 0, 0, 1], rfl⟩ }, rfl,
    by simp [half13]⟩

end HalfConn

/-! ## Sequences of records -/

/-- A record to be sent: its type, the version in its header, its payload, and the random source at
that time. -/
structure PlainRecord where
  typ : UInt8
  vers : UInt16
  payload : Bytes
  rand : RandomSource
  typ_ne : typ ≠ 0
  length_le : payload.length ≤ maxPlaintext

/-- The header that is passed to `encrypt`. -/
def PlainRecord.header (q : PlainRecord) : Bytes := recordHeader q.typ q.vers q.payload.length

namespace HalfConn

variable {σ τ : Type} {hc : HalfConn σ τ}

/-- The record of `q` is protected under the sequence number of `hc`, and the receiver decrypts it and
is then in the state of the sender. -/
structure Sent (hc : HalfConn σ τ) (q : PlainRecord) (record : Bytes) (hc' : HalfConn σ τ) :
    Prop where
  under : hc.ProtectedUnder hc.seq q.header q.payload record
  decrypt : decrypt record hc = .ok (q.payload, q.typ) hc'
  protecting : hc'.Protecting
  seq : hc.seq.succ = some hc'.seq

/-- With its explicit nonce a record is sent, unless the sequence number would wrap around. -/
lemma encryptWith_cases (hprot : hc.Protecting) (q : PlainRecord) {explicit : Bytes}
    (hnonce : hc.NonceFrom hc.seq explicit) :
    (hc.seq.succ = none ∧
        ∃ m s, encryptWith q.header q.payload explicit hc = .error (.panic m) s) ∨
      ∃ record hc', encryptWith q.header q.payload explicit hc = .ok record hc' ∧
        hc.Sent q record hc' := by
  obtain ⟨record, cipher, hprotect, hnext⟩ :=
    hprot.protect (q.header ++ explicit) explicit q.payload
  have hopens := hprot.opens q.typ_ne q.length_le hnonce hprotect
  have hrun : encryptWith q.header q.payload explicit hc =
      (incSeq >>= fun _ => pure (setLength record (record.length - recordHeaderLen)) :
        Prog Err (HalfConn σ τ) Bytes) { hc with cipher := cipher } := by
    rw [encryptWith, run_get_bind, hprotect]
    rfl
  rw [hrun, run_bind, run_incSeq]
  cases hseq : hc.seq.succ with
  | none => exact .inl ⟨rfl, _, _, rfl⟩
  | some seq => exact .inr ⟨_, _, rfl, hopens.under, hopens.decrypt hseq, hnext seq, hseq⟩

/-- What `encrypt` can do: the random source fails, or the record is sent. -/
lemma encrypt_cases (hprot : hc.Protecting) (q : PlainRecord) :
    (∃ e, encrypt q.header q.payload q.rand hc = .error (.error e) hc ∧ hc.DrawsNonce ∧
        q.rand hc.explicitNonceLen = .error e) ∨
      (hc.seq.succ = none ∧
        ∃ m s, encrypt q.header q.payload q.rand hc = .error (.panic m) s) ∨
      ∃ record hc', encrypt q.header q.payload q.rand hc = .ok record hc' ∧
        hc.Sent q record hc' := by
  have hencrypt : encrypt q.header q.payload q.rand hc =
      (ofExcept (hc.explicitNonce q.rand) >>= encryptWith q.header q.payload :
        Prog Err (HalfConn σ τ) Bytes) hc := by
    rw [encrypt, run_get_bind]
    cases hcipher : hc.cipher with
    | nil =>
      rw [Protecting, hcipher] at hprot
      exact hprot.elim
    | _ => rfl
  have hspec := explicitNonce_spec hc q.rand
  rw [hencrypt]
  cases hnonce : hc.explicitNonce q.rand with
  | error e =>
    rw [hnonce] at hspec
    exact .inl ⟨e, rfl, hspec⟩
  | ok explicit =>
    rw [hnonce] at hspec
    exact .inr (encryptWith_cases hprot q hspec)

/-- Each record of the sender `s` is fed to the receiver `r`.  Each one is protected under the next
number of `ns`; what is returned is the payload and the type, and the sequence numbers stay equal.  A
record is not sent if there are no random bytes for its nonce.  The only panic is that of a sequence
number that would wrap around. -/
def RoundTrip : HalfConn σ τ → HalfConn σ τ → List PlainRecord → List (Counter 8) → Prop
  | _, _, [], ns => ns = []
  | s, r, q :: qs, ns =>
    match encrypt q.header q.payload q.rand s with
    | .ok record s' =>
      ∃ n ns' r', ns = n :: ns' ∧ s.ProtectedUnder n q.header q.payload record ∧
        decrypt record r = .ok (q.payload, q.typ) r' ∧ r'.seq = s'.seq ∧ RoundTrip s' r' qs ns'
    | .error (.error e) s' =>
      s.DrawsNonce ∧ q.rand s.explicitNonceLen = .error e ∧ s'.seq = r.seq ∧ RoundTrip s' r qs ns
    | .error (.panic _) _ => s.seq.value + 1 = 256 ^ 8 ∧ ns = []

/-- The numbers count up from that of the half-connection. -/
lemma Protecting.roundTrip (hprot : hc.Protecting) (qs : List PlainRecord) :
    ∃ ns, RoundTrip hc hc qs ns ∧ ns.map Counter.value = range' hc.seq.value ns.length := by
  induction qs generalizing hc with
  | nil => exact ⟨[], rfl, rfl⟩
  | cons q qs ih =>
    simp only [RoundTrip]
    rcases encrypt_cases hprot q with ⟨e, h, hdraws, herr⟩ | ⟨hfull, m, s, h⟩ | ⟨record, hc', h, hsent⟩
    · obtain ⟨ns, htrip, hvalues⟩ := ih hprot
      rw [h]
      exact ⟨ns, ⟨hdraws, herr, rfl, htrip⟩, hvalues⟩
    · rw [h]
      exact ⟨[], ⟨Counter.succ_eq_none_iff.mp hfull, rfl⟩, rfl⟩
    · obtain ⟨ns, htrip, hvalues⟩ := ih hsent.protecting
      rw [h]
      refine ⟨hc.seq :: ns, ⟨hc.seq, ns, hc', rfl, hsent.under, hsent.decrypt, rfl, htrip⟩, ?_⟩
      rw [map_cons, hvalues, Counter.succ_eq_some_iff.mp hsent.seq, length_cons, range'_succ]

/-- Protection of records is a round trip for every kind of cipher and every sequence of records,
and no two records are protected under one sequence number. -/
theorem recordLayer_roundTrip (hprot : hc.Protecting) (qs : List PlainRecord) :
    ∃ ns, RoundTrip hc hc qs ns ∧ ns.Nodup := by
  obtain ⟨ns, htrip, hvalues⟩ := hprot.roundTrip qs
  exact ⟨ns, htrip, .of_map _ (hvalues ▸ nodup_range')⟩

/-- A cipher that does nothing, with a MAC of one byte. -/
def idStream : Stream Unit where
  xorKeyStream k b := (b, k)
  length_xor _ _ := rfl
  xor_append _ _ _ := rfl
  xor_xor _ _ := rfl

def oneByteMac : Mac where
  size := 1
  size_lt := by decide
  tag _ := [7]
  length_tag _ := rfl

/-- A half-connection at the last sequence number but one. -/
def sampleHalfConn : HalfConn Unit Unit where
  version := VersionTLS12
  cipher := .stream idStream ()
  mac := some oneByteMac
  seq := ⟨[255, 255, 255, 255, 255, 255, 255, 254], rfl⟩

def sampleRecord : PlainRecord where
  typ := 22
  vers := VersionTLS12
  payload := [1, 2]
  rand _ := .error (.text "no random source")
  typ_ne := by decide
  length_le := by decide

theorem recordLayer_roundTrip_sample :
    ∃ ns, RoundTrip sampleHalfConn sampleHalfConn [sampleRecord, sampleRecord] ns ∧ ns.Nodup := by
  have hprot : sampleHalfConn.Protecting := ⟨rfl, by decide⟩
  exact recordLayer_roundTrip hprot [sampleRecord, sampleRecord]

end HalfConn

end Utls
