import Utls.Lib.Exec
import Utls.Lib.Varint

/-!
# QUIC transport parameters

`Marshal` writes each parameter as a varint id, a varint length and the value.  It asks a parameter
for its value twice, once for the length and once for the bytes; a GREASE parameter draws its id and
its value when it is first asked and keeps them, and `VersionInformation` draws new GREASE versions
every time.

The bytes decode to the ids and values exactly if nothing panics (`marshal_decodes_iff`).  What can
panic is an id: any `27 + 31 n` is accepted as the id of a GREASE parameter, although a varint ends
at `2 ^ 62`, and a `FakeQUICTransportParameter` may not have the id 0.

A GREASE version is a random number with the bits of `0x0a0a0a0a` added.  The other bits of the low
nibbles are those of the number, so that few of the numbers give the reserved form
(`value_reserved_iff`).
-/

namespace Utls

open Wire Exec Option
open List hiding Vector

/-- The results of `rand.Int` and `rand.Read`: the call number `k` and what it is asked for. -/
structure RandReader where
  int : (k max : Nat) → Option (Fin max)
  read : (k n : Nat) → Vector UInt8 n

/-- A program that draws random numbers, with the number of draws before it. -/
abbrev Greasing := Prog Empty Nat

def draw {α : Type} (f : Nat → α) : Greasing α := fun k => .ok (f k) (k + 1)

@[simp] lemma run_draw {α : Type} (f : Nat → α) (k : Nat) : draw f k = .ok (f k) (k + 1) := rfl

/-- `quicvarint.Append` to an empty slice. -/
def varint (i : Nat) : Greasing Bytes :=
  match appendVarint i with
  | some b => pure b
  | none => panicWith ("0x" ++ String.ofList (Nat.toDigits 16 i) ++ " doesn't fit into 62 bits")

lemma varint_eq_ok {i k k' : Nat} {b : Bytes} :
    varint i k = .ok b k' ↔ appendVarint i = some b ∧ k = k' := by
  unfold varint
  cases appendVarint i with
  | none => simp
  | some c => simp

/-! ## Version information -/

def versionNegotiation : UInt32 := 0x00000000
def version1 : UInt32 := 0x00000001
def version2 : UInt32 := 0x6b3343cf
def versionGrease : UInt32 := 0x0a0a0a0a

structure VersionInformation where
  choosenVersion : UInt32
  availableVersions : List UInt32
  legacyID : Bool

variable (r : RandReader)

namespace VersionInformation

/-- `GetGREASEVersion`. -/
def getGREASEVersion : Greasing UInt32 := draw fun k =>
  match r.int k 0xffffffff with
  | none => versionGrease
  | some n => UInt32.ofNat n ||| 0x0a0a0a0a

/-- The loop of `Value`. -/
def entries : List UInt32 → Greasing (List UInt32)
  | [] => pure []
  | version :: versions => do
    let e ← if version ≠ versionGrease then pure version else getGREASEVersion r
    let es ← entries versions
    return e :: es

/-- `Value`. -/
def value (v : VersionInformation) : Greasing Bytes := do
  let es ← entries r v.availableVersions
  return u32 v.choosenVersion.toNat ++ es.flatMap fun e => u32 e.toNat

/-- Every second nibble is `a`. -/
def Reserved (version : UInt32) : Prop := version &&& 0x0f0f0f0f = 0x0a0a0a0a

/-- The draws of the placeholders leave the reserved nibbles alone. -/
def DrawsReserved (k : Nat) (versions : List UInt32) : Prop :=
  ∀ j < versions.count versionGrease, ∀ n, r.int (k + j) 0xffffffff = some n →
    UInt32.ofNat n &&& 0x05050505 = 0

/-- An entry that stands for `version`. -/
def Stands (version e : UInt32) : Prop :=
  if version = versionGrease then Reserved e ∧ e ∉ [versionNegotiation, version1, version2]
  else e = version

/-- Adding the bits `a` gives `a` on `a` and `b` together exactly if no bit of `b` was there. -/
lemma or_and_or_eq_iff {x a b : UInt32} (hab : a &&& b = 0) :
    (x ||| a) &&& (a ||| b) = a ↔ x &&& b = 0 := by
  have hbits : ∀ {u v : UInt32}, u = v ↔ ∀ i, u.toBitVec.getLsbD i = v.toBitVec.getLsbD i := by
    intro u v
    refine ⟨fun h i => by rw [h], fun h => ?_⟩
    exact UInt32.eq_of_toBitVec_eq (BitVec.eq_of_getLsbD_eq fun i _ => h i)
  rw [hbits] at hab
  rw [hbits, hbits]
  refine forall_congr' fun i => ?_
  have hi := hab i
  revert hi
  simp only [UInt32.toBitVec_and, UInt32.toBitVec_or, BitVec.getLsbD_and, BitVec.getLsbD_or]
  cases x.toBitVec.getLsbD i <;> cases a.toBitVec.getLsbD i <;> cases b.toBitVec.getLsbD i <;> simp

lemma reserved_or {x : UInt32} : Reserved (x ||| 0x0a0a0a0a) ↔ x &&& 0x05050505 = 0 :=
  or_and_or_eq_iff (a := 0x0a0a0a0a) (b := 0x05050505) (by decide)

lemma Reserved.not_real {e : UInt32} (h : Reserved e) :
    e ∉ [versionNegotiation, version1, version2] := by
  intro he
  simp only [mem_cons, not_mem_nil, or_false] at he
  unfold Reserved at h
  obtain rfl | rfl | rfl := he <;> revert h <;> decide

/-- The version that stands for a placeholder. -/
lemma stands_getGREASEVersion (k : Nat) {e : UInt32} {k' : Nat}
    (h : getGREASEVersion r k = .ok e k') :
    k' = k + 1 ∧ (Stands versionGrease e ↔
      ∀ n, r.int k 0xffffffff = some n → UInt32.ofNat n &&& 0x05050505 = 0) := by
  have hstands : Stands versionGrease e ↔ Reserved e := by
    rw [Stands, if_pos rfl]
    exact ⟨And.left, fun h => ⟨h, h.not_real⟩⟩
  rw [getGREASEVersion, run_draw] at h
  cases hint : r.int k 0xffffffff with
  | none =>
    rw [hint] at h
    cases h
    refine ⟨rfl, ?_⟩
    rw [hstands]
    exact iff_of_true rfl nofun
  | some n =>
    rw [hint] at h
    cases h
    refine ⟨rfl, ?_⟩
    rw [hstands, reserved_or]
    exact ⟨fun h m hm => by cases hm; exact h, fun h => h n rfl⟩

/-- The loop draws once for each placeholder. -/
lemma entries_ok (versions : List UInt32) (k : Nat) :
    ∃ es, entries r versions k = .ok es (k + versions.count versionGrease) ∧
      es.length = versions.length ∧
      (Forall₂ Stands versions es ↔ DrawsReserved r k versions) := by
  induction versions generalizing k with
  | nil => exact ⟨[], rfl, rfl, iff_of_true .nil (by simp [DrawsReserved])⟩
  | cons version versions ih =>
    by_cases hv : version = versionGrease
    · subst hv
      obtain ⟨e, k', he⟩ : ∃ e k', getGREASEVersion r k = .ok e k' := ⟨_, _, rfl⟩
      obtain ⟨rfl, hstands⟩ := stands_getGREASEVersion r k he
      obtain ⟨es, hes, hlen, hiff⟩ := ih (k + 1)
      refine ⟨e :: es, ?_, congrArg Nat.succ hlen, ?_⟩
      · simp only [entries, ne_eq, not_true, if_false, run_bind, he, hes, run_pure, count_cons_self]
        congr 1
        omega
      · rw [forall₂_cons, hstands, hiff, DrawsReserved, DrawsReserved, count_cons_self]
        constructor
        · rintro ⟨h0, h⟩ j hj
          cases j with
          | zero => exact h0
          | succ j => simpa only [Nat.add_assoc, Nat.add_comm 1] using h j (by omega)
        · intro h
          refine ⟨h 0 (by omega), fun j hj => ?_⟩
          simpa only [Nat.add_assoc, Nat.add_comm 1] using h (j + 1) (by omega)
    · obtain ⟨es, hes, hlen, hiff⟩ := ih k
      refine ⟨version :: es, ?_, congrArg Nat.succ hlen, ?_⟩
      · simp only [entries, ne_eq, hv, not_false_eq_true, if_true, run_bind, run_pure, hes,
          count_cons_of_ne hv]
      · rw [forall₂_cons, hiff, Stands, if_neg hv, DrawsReserved, DrawsReserved,
          count_cons_of_ne hv]
        exact and_iff_right rfl

lemma value_of_entries {v : VersionInformation} {k k' : Nat} {es : List UInt32}
    (h : entries r v.availableVersions k = .ok es k') :
    value r v k = .ok (u32 v.choosenVersion.toNat ++ es.flatMap fun e => u32 e.toNat) k' := by
  simp only [value, run_bind, h, run_pure]

lemma value_ok (v : VersionInformation) (k : Nat) :
    ∃ b k', value r v k = .ok b k' ∧ b.length = 4 * (1 + v.availableVersions.length) := by
  obtain ⟨es, hes, hlen, -⟩ := entries_ok r v.availableVersions k
  refine ⟨_, _, value_of_entries r hes, ?_⟩
  rw [length_append, length_flatMap]
  simp only [length_u32, map_const', sum_replicate, smul_eq_mul, hlen]
  ring

lemma flatMap_u32_inj {es es' : List UInt32}
    (h : (es.flatMap fun e => u32 e.toNat) = es'.flatMap fun e => u32 e.toNat) : es = es' := by
  have hread : ∀ es : List UInt32, parseAll readU32 (es.flatMap fun e => u32 e.toNat) = some es :=
    fun es => parseAll_flatMap (fun e _ s => readU32_u32_toNat e s) fun e _ => cons_ne_nil _ _
  have heq := congrArg (parseAll readU32) h
  rw [hread, hread] at heq
  exact some.inj heq

/-- `Value` writes the chosen version and an entry for each version of the list.  The entries of the
placeholders have the reserved form exactly if no draw has a bit in the reserved nibbles other than
those that are added. -/
theorem value_reserved_iff (v : VersionInformation) (k : Nat) :
    (∃ es k', value r v k = .ok (u32 v.choosenVersion.toNat ++ es.flatMap fun e => u32 e.toNat) k' ∧
        List.Forall₂ Stands v.availableVersions es) ↔
      DrawsReserved r k v.availableVersions := by
  obtain ⟨es, hes, -, hiff⟩ := entries_ok r v.availableVersions k
  rw [← hiff]
  constructor
  · rintro ⟨es', k', hrun, hall⟩
    rw [value_of_entries r hes] at hrun
    injection hrun with hbytes
    rw [flatMap_u32_inj (append_cancel_left hbytes)]
    exact hall
  · intro hall
    exact ⟨es, _, value_of_entries r hes, hall⟩

/-- A reader that always draws 1. -/
def drawsOne : RandReader where
  int _ max := if h : 1 < max then some ⟨1, h⟩ else none
  read _ n := Vector.replicate n 1

/-- The only placeholder becomes `0x0a0a0a0b`. -/
theorem value_not_reserved :
    ¬∃ es k', value drawsOne ⟨version1, [versionGrease], false⟩ 0 =
        .ok (u32 version1.toNat ++ es.flatMap fun e => u32 e.toNat) k' ∧
      List.Forall₂ Stands [versionGrease] es := by
  rintro ⟨es, k', hrun, hall⟩
  have hvalue : value drawsOne ⟨version1, [versionGrease], false⟩ 0 =
      .ok (u32 version1.toNat ++ [0x0a0a0a0b].flatMap fun e : UInt32 => u32 e.toNat) 1 := rfl
  rw [hvalue] at hrun
  injection hrun with hbytes
  rw [← flatMap_u32_inj (append_cancel_left hbytes), forall₂_cons, Stands, if_pos rfl]
    at hall
  exact absurd hall.1.1 (by unfold Reserved; decide)

end VersionInformation

/-! ## The parameters -/

/-- The parameters whose value is a varint. -/
inductive IntegerParameter where
  | maxIdleTimeout | maxUDPPayloadSize | initialMaxData | initialMaxStreamDataBidiLocal
  | initialMaxStreamDataBidiRemote | initialMaxStreamDataUni | initialMaxStreamsBidi
  | initialMaxStreamsUni | maxAckDelay | activeConnectionIDLimit | maxDatagramFrameSize

def IntegerParameter.id : IntegerParameter → UInt64
  | maxIdleTimeout => 0x1
  | maxUDPPayloadSize => 0x3
  | initialMaxData => 0x4
  | initialMaxStreamDataBidiLocal => 0x5
  | initialMaxStreamDataBidiRemote => 0x6
  | initialMaxStreamDataUni => 0x7
  | initialMaxStreamsBidi => 0x8
  | initialMaxStreamsUni => 0x9
  | maxAckDelay => 0xb
  | activeConnectionIDLimit => 0xe
  | maxDatagramFrameSize => 0x20

inductive TransportParameter where
  | grease (idOverride : UInt64) (length : UInt16) (valueOverride : Bytes)
  | integer (kind : IntegerParameter) (v : UInt64)
  | disableActiveMigration
  | initialSourceConnectionID (b : Bytes)
  | versionInformation (v : VersionInformation)
  | padding (b : Bytes)
  | greaseQUICBit
  | fake (id : UInt64) (val : Bytes)

def greaseMaxMultiplier : Nat := (0x3fffffffffffffff - 27) / 31

/-- `IsGREASEID`. -/
def isGREASEID (id : UInt64) : Bool := 27 ≤ id && (id - 27) % 31 == 0

/-- `GetGREASEID`. -/
def getGREASEID : Greasing UInt64 := draw fun k =>
  match r.int k greaseMaxMultiplier with
  | none => 27
  | some n => 27 + UInt64.ofNat n * 31

namespace TransportParameter

/-- `ID`, with the parameter as it leaves it. -/
def id : TransportParameter → Greasing (UInt64 × TransportParameter)
  | grease idOverride length valueOverride =>
    if isGREASEID idOverride then return (idOverride, grease idOverride length valueOverride)
    else do
      let id ← getGREASEID r
      return (id, grease id length valueOverride)
  | integer kind v => return (kind.id, integer kind v)
  | disableActiveMigration => return (0xc, disableActiveMigration)
  | initialSourceConnectionID b => return (0xf, initialSourceConnectionID b)
  | versionInformation v =>
    return (if v.legacyID then 0xff73db else 0x11, versionInformation v)
  | padding b => return (0x15, padding b)
  | greaseQUICBit => return (0x2ab2, greaseQUICBit)
  | fake id val => do
    assert (id ≠ 0)
      "it is not allowed to use a FakeQUICTransportParameter without setting the ID"
    return (id, fake id val)

/-- `Value`, with the parameter as it leaves it. -/
def value : TransportParameter → Greasing (Bytes × TransportParameter)
  | grease idOverride length valueOverride =>
    if valueOverride.length = 0 then do
      let b ← draw fun k => (r.read k length.toNat).toList
      return (b, grease idOverride length b)
    else return (valueOverride, grease idOverride length valueOverride)
  | integer kind v => do
    let b ← varint v.toNat
    return (b, integer kind v)
  | disableActiveMigration => return ([], disableActiveMigration)
  | initialSourceConnectionID b => return (b, initialSourceConnectionID b)
  | versionInformation v => do
    let b ← v.value r
    return (b, versionInformation v)
  | padding b => return (b, padding b)
  | greaseQUICBit => return ([], greaseQUICBit)
  | fake id val => return (val, fake id val)

/-- `Marshal`, with the parameters as it leaves them. -/
def marshal : List TransportParameter → Greasing (Bytes × List TransportParameter)
  | [] => return ([], [])
  | tp :: tps => do
    let (id, tp) ← tp.id r
    let head ← varint id.toNat
    let (sized, tp) ← tp.value r
    let len ← varint sized.length
    let (v, tp) ← tp.value r
    let (b, tps) ← marshal tps
    return (head ++ (len ++ (v ++ b)), tp :: tps)

end TransportParameter

/-- One parameter, read with `quicvarint.Read`. -/
def readParameter (s : Bytes) : Option ((Nat × Bytes) × Bytes) :=
  (readVarint s).bind fun (id, s) =>
    (readVarint s).bind fun (len, s) =>
      (readN len s).map fun (v, s) => ((id, v), s)

namespace TransportParameter

/-- The integers of a parameter are below `2 ^ 62`. -/
def IntegersFit : TransportParameter → Prop
  | integer _ v => v.toNat < 2 ^ 62
  | fake id _ => id.toNat < 2 ^ 62
  | _ => True

/-- What else a parameter needs so that its id and its length are varints. -/
def Writable : TransportParameter → Prop
  | grease id _ v => (isGREASEID id = true → id.toNat < 2 ^ 62) ∧ v.length < 2 ^ 62
  | initialSourceConnectionID b | padding b => b.length < 2 ^ 62
  | versionInformation v => 4 * (1 + v.availableVersions.length) < 2 ^ 62
  | fake id val => id ≠ 0 ∧ val.length < 2 ^ 62
  | _ => True

/-- A parameter that has been asked: what a GREASE parameter has is kept, what it lacks is drawn. -/
def Settles : TransportParameter → TransportParameter → Prop
  | grease id length v, tp => ∃ id' v', tp = grease id' length v' ∧
    (isGREASEID id = true → id' = id) ∧ (v ≠ [] → v' = v)
  | tp, tp' => tp' = tp

/-- The parameter answers with this id and this value. -/
def Answers (tp : TransportParameter) (p : Nat × Bytes) : Prop :=
  (∃ id k k', id.toNat = p.1 ∧ tp.id r k = .ok (id, tp) k') ∧
    ∃ k k', tp.value r k = .ok (p.2, tp) k'

/-- The three questions of an iteration of `Marshal` and the answers to them. -/
structure Asked (tp : TransportParameter) (k : Nat) where
  id : UInt64
  named : TransportParameter
  k₁ : Nat
  id_eq : tp.id r k = .ok (id, named) k₁
  sized : Bytes
  left : TransportParameter
  k₂ : Nat
  sized_eq : named.value r k₁ = .ok (sized, left) k₂
  v : Bytes
  k₃ : Nat
  value_eq : left.value r k₂ = .ok (v, left) k₃
  id_lt : id.toNat < 2 ^ 62
  sized_lt : sized.length < 2 ^ 62
  length_eq : v.length = sized.length
  settles : tp.Settles left
  again : ∃ k k', left.id r k = .ok (id, left) k'

lemma getGREASEID_ok (k : Nat) :
    ∃ id, getGREASEID r k = .ok id (k + 1) ∧ id.toNat < 2 ^ 62 ∧ isGREASEID id = true := by
  rw [getGREASEID, run_draw]
  refine ⟨_, rfl, ?_⟩
  generalize r.int k greaseMaxMultiplier = drawn
  cases drawn with
  | none => decide
  | some n =>
    have hn : n.val < 148764065110560899 := n.isLt
    have hid : (27 + UInt64.ofNat n * 31).toNat = 27 + n * 31 := by
      simp only [UInt64.toNat_add, UInt64.toNat_mul, UInt64.toNat_ofNat', UInt64.reduceToNat]
      omega
    refine ⟨by dsimp only; omega, ?_⟩
    have hle : (27 : UInt64) ≤ 27 + UInt64.ofNat n * 31 := by
      rw [UInt64.le_iff_toNat_le, hid]
      exact Nat.le_add_right 27 _
    have hmod : (27 + UInt64.ofNat n * 31 - 27) % 31 = 0 := by
      apply UInt64.toNat.inj
      rw [UInt64.toNat_mod, UInt64.toNat_sub_of_le _ _ hle, hid]
      simp
    simp only [isGREASEID, decide_eq_true hle, hmod, beq_self_eq_true, Bool.and_self]

/-- A GREASE parameter with an id answers with the value it has, or with drawn bytes that it keeps. -/
lemma value_grease (id : UInt64) (length : UInt16) (v : Bytes) (hv : v.length < 2 ^ 62) (k : Nat) :
    ∃ b k1 b' k2, (grease id length v).value r k = .ok (b, grease id length b) k1 ∧
      (grease id length b).value r k1 = .ok (b', grease id length b) k2 ∧ b.length < 2 ^ 62 ∧
      b'.length = b.length ∧ (v ≠ [] → b = v) := by
  by_cases hlen : v.length = 0
  · have hv : v = [] := length_eq_zero_iff.mp hlen
    have hdrawn : ∀ k, ((r.read k length.toNat).toList).length = length.toNat := by simp
    by_cases hzero : length.toNat = 0
    · -- an empty value is drawn again, and is empty again
      have hnil : ∀ k, (r.read k length.toNat).toList = [] :=
        fun k => length_eq_zero_iff.mp (by rw [hdrawn, hzero])
      refine ⟨[], k + 1, [], k + 2, ?_, ?_, by simp, rfl, fun h => absurd hv h⟩
      · simp [value, hv, hnil]
      · simp [value, hnil]
    · have hne : ((r.read k length.toNat).toList).length ≠ 0 := by rwa [hdrawn]
      refine ⟨(r.read k length.toNat).toList, k + 1, (r.read k length.toNat).toList, k + 1, ?_, ?_,
        ?_, rfl, fun h => absurd hv h⟩
      · simp only [value, if_pos hlen, run_bind, run_draw, run_pure]
      · simp only [value, if_neg hne, run_pure]
      · rw [hdrawn]
        exact length.toNat_lt.trans (by decide)
  · refine ⟨v, k, v, k, ?_, ?_, hv, rfl, fun _ => rfl⟩ <;>
      simp only [value, if_neg hlen, run_pure]

lemma asked (tp : TransportParameter) (hfit : tp.IntegersFit) (hw : tp.Writable) (k : Nat) :
    Nonempty (tp.Asked r k) := by
  cases tp with
  | grease id length v =>
    by_cases hid : isGREASEID id = true
    · obtain ⟨b, k1, b', k2, h1, h2, hlt, hlen, hkeep⟩ := value_grease r id length v hw.2 k
      have hname : ∀ v k, (grease id length v).id r k = .ok (id, grease id length v) k := by
        intro v k
        simp only [TransportParameter.id, if_pos hid, run_pure]
      exact ⟨⟨id, _, k, hname v k, b, _, k1, h1, b', k2, h2, hw.1 hid, hlt, hlen,
        ⟨id, b, rfl, fun _ => rfl, hkeep⟩, k, k, hname b k⟩⟩
    · obtain ⟨id', hdraw, hlt', hid'⟩ := getGREASEID_ok r k
      obtain ⟨b, k1, b', k2, h1, h2, hlt, hlen, hkeep⟩ := value_grease r id' length v hw.2 (k + 1)
      refine ⟨⟨id', _, k + 1, ?_, b, _, k1, h1, b', k2, h2, hlt', hlt, hlen,
        ⟨id', b, rfl, fun h => absurd h hid, hkeep⟩, k, k, ?_⟩⟩
      · simp only [TransportParameter.id, if_neg hid, run_bind, hdraw, run_pure]
      · simp only [TransportParameter.id, if_pos hid', run_pure]
  | integer kind v =>
    obtain ⟨b, hb⟩ := appendVarint_isSome.mpr hfit
    have hvalue : (integer kind v).value r k = .ok (b, integer kind v) k := by
      simp only [value, run_bind, varint_eq_ok.mpr ⟨hb, rfl⟩, run_pure]
    have hlt : kind.id.toNat < 2 ^ 62 := by cases kind <;> decide
    exact ⟨⟨_, _, k, rfl, b, _, k, hvalue, b, k, hvalue, hlt,
      (length_appendVarint_le hb).trans_lt (by decide), rfl, rfl, k, k, rfl⟩⟩
  | versionInformation v =>
    obtain ⟨b, k1, hb, hlen⟩ := v.value_ok r k
    obtain ⟨b', k2, hb', hlen'⟩ := v.value_ok r k1
    refine ⟨⟨_, _, k, rfl, b, .versionInformation v, k1, ?_, b', k2, ?_, ?_, ?_, ?_, rfl, k, k,
      rfl⟩⟩
    · simp only [value, run_bind, hb, run_pure]
    · simp only [value, run_bind, hb', run_pure]
    · split_ifs <;> decide
    · rw [hlen]
      exact hw
    · rw [hlen, hlen']
  | fake id val =>
    have hid : (fake id val).id r k = .ok (id, fake id val) k := by
      simp only [TransportParameter.id, run_bind, run_assert_true hw.1, run_pure]
    exact ⟨⟨_, _, k, hid, val, _, k, rfl, val, k, rfl, hfit, hw.2, rfl, rfl, k, k, hid⟩⟩
  | initialSourceConnectionID b | padding b =>
    exact ⟨⟨_, _, k, rfl, b, _, k, rfl, b, k, rfl, by decide, hw, rfl, rfl, k, k, rfl⟩⟩
  | disableActiveMigration | greaseQUICBit =>
    exact ⟨⟨_, _, k, rfl, [], _, k, rfl, [], k, rfl, by decide, by decide, rfl, rfl, k, k, rfl⟩⟩

/-- The bytes of a parameter with this id and this value. -/
def written (p : Nat × Bytes) : Bytes :=
  (appendVarint p.1).getD [] ++ ((appendVarint p.2.length).getD [] ++ p.2)

lemma readParameter_written {p : Nat × Bytes} (hid : p.1 < 2 ^ 62) (hlen : p.2.length < 2 ^ 62)
    (s : Bytes) : readParameter (written p ++ s) = some (p, s) := by
  obtain ⟨head, hhead⟩ := appendVarint_isSome.mpr hid
  obtain ⟨len, hlen⟩ := appendVarint_isSome.mpr hlen
  simp only [written, hhead, hlen, getD_some, append_assoc, readParameter, readVarint_append hhead,
    readVarint_append hlen, bind_some, readN_append, map_some]

lemma written_ne_nil {p : Nat × Bytes} (hid : p.1 < 2 ^ 62) : written p ≠ [] := by
  obtain ⟨head, hhead⟩ := appendVarint_isSome.mpr hid
  simp [written, hhead, appendVarint_ne_nil hhead]

/-- The loop writes what the parameters answer. -/
lemma marshal_ok (tps : List TransportParameter) (hfit : ∀ tp ∈ tps, tp.IntegersFit)
    (hw : ∀ tp ∈ tps, tp.Writable) (k : Nat) :
    ∃ tps' pairs k', marshal r tps k = .ok (pairs.flatMap written, tps') k' ∧
      Forall₂ Settles tps tps' ∧ Forall₂ (Answers r) tps' pairs ∧
      ∀ p ∈ pairs, p.1 < 2 ^ 62 ∧ p.2.length < 2 ^ 62 := by
  induction tps generalizing k with
  | nil => exact ⟨[], [], k, rfl, .nil, .nil, nofun⟩
  | cons tp tps ih =>
    obtain ⟨hfit, hfits⟩ := forall_mem_cons.mp hfit
    obtain ⟨hw, hws⟩ := forall_mem_cons.mp hw
    obtain ⟨a⟩ := asked r tp hfit hw k
    obtain ⟨tps', pairs, k', hrest, hsettles, hanswers, hlt⟩ := ih hfits hws a.k₃
    obtain ⟨head, hhead⟩ := appendVarint_isSome.mpr a.id_lt
    obtain ⟨len, hlen⟩ := appendVarint_isSome.mpr a.sized_lt
    obtain ⟨j, j', hagain⟩ := a.again
    refine ⟨a.left :: tps', (a.id.toNat, a.v) :: pairs, k', ?_, .cons a.settles hsettles,
      .cons ⟨⟨a.id, j, j', rfl, hagain⟩, a.k₂, a.k₃, a.value_eq⟩ hanswers,
      forall_mem_cons.mpr ⟨⟨a.id_lt, a.length_eq ▸ a.sized_lt⟩, hlt⟩⟩
    simp only [marshal, run_bind, a.id_eq, varint_eq_ok.mpr ⟨hhead, rfl⟩, a.sized_eq,
      varint_eq_ok.mpr ⟨hlen, rfl⟩, a.value_eq, hrest, run_pure, flatMap_cons, written, hhead,
      a.length_eq, hlen, getD_some, append_assoc]

/-- A parameter whose id and length are written is writable. -/
lemma writable_of_ok {tp named sizedTp : TransportParameter} {k k1 k2 : Nat} {id : UInt64}
    {sized : Bytes} (hid : tp.id r k = .ok (id, named) k1)
    (hvalue : named.value r k1 = .ok (sized, sizedTp) k2) (hlt : id.toNat < 2 ^ 62)
    (hsized : sized.length < 2 ^ 62) : tp.Writable := by
  cases tp with
  | grease id0 length v =>
    have hnamed : named = .grease id length v ∧ (isGREASEID id0 = true → id0 = id) := by
      simp only [TransportParameter.id] at hid
      split_ifs at hid with hgrease
      · cases hid
        exact ⟨rfl, fun _ => rfl⟩
      · obtain ⟨id', k', -, hrun⟩ := bind_eq_ok.mp hid
        cases hrun
        exact ⟨rfl, fun h => absurd h hgrease⟩
    obtain ⟨rfl, hkeeps⟩ := hnamed
    refine ⟨fun h => hkeeps h ▸ hlt, ?_⟩
    by_cases hzero : v.length = 0
    · rw [hzero]
      decide
    · simp only [value, if_neg hzero] at hvalue
      cases hvalue
      exact hsized
  | integer kind v => trivial
  | disableActiveMigration => trivial
  | greaseQUICBit => trivial
  | initialSourceConnectionID b =>
    cases hid
    cases hvalue
    exact hsized
  | padding b =>
    cases hid
    cases hvalue
    exact hsized
  | versionInformation v =>
    cases hid
    obtain ⟨b, k', hb, hrun⟩ := bind_eq_ok.mp hvalue
    obtain ⟨b', k'', hb', hlen⟩ := v.value_ok r k
    cases hb.symm.trans hb'
    cases hrun
    rw [hlen] at hsized
    exact hsized
  | fake id0 val =>
    obtain ⟨u, k', hassert, hrun⟩ := bind_eq_ok.mp hid
    obtain ⟨hne, rfl⟩ := assert_eq_ok.mp hassert
    cases hrun
    cases hvalue
    exact ⟨hne, hsized⟩

lemma writable_of_marshal {tps : List TransportParameter} {k k' : Nat}
    {x : Bytes × List TransportParameter} (h : marshal r tps k = .ok x k') :
    ∀ tp ∈ tps, tp.Writable := by
  induction tps generalizing k k' x with
  | nil => exact nofun
  | cons tp tps ih =>
    obtain ⟨⟨id, named⟩, k1, hid, h⟩ := bind_eq_ok.mp h
    obtain ⟨head, k2, hhead, h⟩ := bind_eq_ok.mp h
    obtain ⟨hfits, rfl⟩ := varint_eq_ok.mp hhead
    obtain ⟨⟨sized, sizedTp⟩, k3, hsized, h⟩ := bind_eq_ok.mp h
    obtain ⟨len, k4, hlen, h⟩ := bind_eq_ok.mp h
    obtain ⟨hlens, rfl⟩ := varint_eq_ok.mp hlen
    obtain ⟨⟨v, tp'⟩, k5, hvalue, h⟩ := bind_eq_ok.mp h
    obtain ⟨⟨b, tps'⟩, k6, hrest, h⟩ := bind_eq_ok.mp h
    exact forall_mem_cons.mpr ⟨writable_of_ok r hid hsized
      (appendVarint_isSome.mp ⟨_, hfits⟩) (appendVarint_isSome.mp ⟨_, hlens⟩), ih hrest⟩

/-- Parameters whose integers are below `2 ^ 62` are written, and read back as the ids and the
values of the parameters, exactly if the id of each GREASE parameter is a varint, each fake
parameter has an id, and the lengths are varints. -/
theorem marshal_decodes_iff (tps : List TransportParameter) (k : Nat)
    (hfit : ∀ tp ∈ tps, tp.IntegersFit) :
    (∃ b tps' pairs k', marshal r tps k = .ok (b, tps') k' ∧ List.Forall₂ Settles tps tps' ∧
        List.Forall₂ (Answers r) tps' pairs ∧ parseAll readParameter b = some pairs) ↔
      ∀ tp ∈ tps, tp.Writable := by
  constructor
  · rintro ⟨b, tps', pairs, k', hrun, -⟩
    exact writable_of_marshal r hrun
  · intro hw
    obtain ⟨tps', pairs, k', hrun, hsettles, hanswers, hlt⟩ := marshal_ok r tps hfit hw k
    refine ⟨_, tps', pairs, k', hrun, hsettles, hanswers, ?_⟩
    exact parseAll_flatMap (fun p hp s => readParameter_written (hlt p hp).1 (hlt p hp).2 s)
      fun p hp => written_ne_nil (hlt p hp).1

theorem marshal_decodes_sample :
    ∃ b tps' pairs k', marshal VersionInformation.drawsOne
        [integer .maxIdleTimeout 30000, grease 0 5 []] 0 = .ok (b, tps') k' ∧
      List.Forall₂ Settles [integer .maxIdleTimeout 30000, grease 0 5 []] tps' ∧
      List.Forall₂ (Answers VersionInformation.drawsOne) tps' pairs ∧
      parseAll readParameter b = some pairs := by
  refine (marshal_decodes_iff _ _ 0 ?_).mpr ?_ <;>
    simp [IntegersFit, Writable, isGREASEID]

/-- The id of this GREASE parameter is accepted, and is too large for a varint. -/
theorem marshal_panics :
    IntegersFit (grease 4611686018427387927 0 []) ∧
      ¬∃ b tps' pairs k', marshal VersionInformation.drawsOne
          [grease 4611686018427387927 0 []] 0 = .ok (b, tps') k' ∧
        List.Forall₂ Settles [grease 4611686018427387927 0 []] tps' ∧
        List.Forall₂ (Answers VersionInformation.drawsOne) tps' pairs ∧
        parseAll readParameter b = some pairs := by
  refine ⟨trivial, ?_⟩
  rintro ⟨b, tps', pairs, k', hrun, -⟩
  have hw := writable_of_marshal _ hrun _ (mem_singleton_self _)
  exact absurd (hw.1 (by decide)) (by decide)

end TransportParameter

end Utls
