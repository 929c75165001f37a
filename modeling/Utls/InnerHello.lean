import Utls.Ech

/-!
# The encoded inner hello

`encodeInnerClientHelloReorderOuterExts` writes the inner hello, with references to the outer hello
in the place of the extensions that both have, and adds zeros.  How many zeros depends on how much
shorter the server name is than the longest name of the configuration; but only the remainder modulo
32 is used, so the length of the encoding still moves with the length of the name
(`encoded_length_hides_name_iff`).
-/

namespace Utls

open Wire List Option

lemma concatOpt_cons_eq_some {x : Option Bytes} {xs : List (Option Bytes)} {b : Bytes}
    (h : concatOpt (x :: xs) = some b) :
    ∃ b1 b2, x = some b1 ∧ concatOpt xs = some b2 ∧ b = b1 ++ b2 := by
  obtain ⟨b1, hb1, h⟩ := bind_eq_some_iff.mp h
  obtain ⟨b2, hb2, rfl⟩ := map_eq_some_iff.mp h
  exact ⟨b1, b2, hb1, hb2, rfl⟩

/-! ## Lengths that move together -/

/-- If both parts can be written, one is as much longer than the other as `i` than `j`. -/
def Apart (i j : Nat) (x y : Option Bytes) : Prop :=
  ∀ a b, x = some a → y = some b → a.length + j = b.length + i

namespace Apart

variable {i j i' j' : Nat} {x y : Option Bytes}

lemma refl (x : Option Bytes) : Apart 0 0 x x := by
  intro a b ha hb
  rw [ha] at hb
  cases hb
  rfl

lemma bind {f g : Bytes → Option Bytes} (h : Apart i j x y)
    (hfg : ∀ a b, x = some a → y = some b → a.length + j = b.length + i → Apart i j (f a) (g b)) :
    Apart i j (x.bind f) (y.bind g) := by
  intro a b ha hb
  obtain ⟨a', ha', hfa⟩ := bind_eq_some_iff.mp ha
  obtain ⟨b', hb', hgb⟩ := bind_eq_some_iff.mp hb
  exact hfg a' b' ha' hb' (h a' b' ha' hb') a b hfa hgb

lemma map {f g : Bytes → Bytes} (k : Nat) (h : Apart i j x y)
    (hf : ∀ a, (f a).length = a.length + k) (hg : ∀ b, (g b).length = b.length + k) :
    Apart i j (x.map f) (y.map g) := by
  intro a b ha hb
  obtain ⟨a', ha', rfl⟩ := map_eq_some_iff.mp ha
  obtain ⟨b', hb', rfl⟩ := map_eq_some_iff.mp hb
  have := h a' b' ha' hb'
  rw [hf, hg]
  omega

/-- A length prefix adds the same to both. -/
lemma lp {bound : Nat} {pre : Nat → Bytes} {k : Nat} (hpre : ∀ n, (pre n).length = k) {a b : Bytes}
    (h : a.length + j = b.length + i) : Apart i j (Wire.lp bound pre a) (Wire.lp bound pre b) := by
  intro a' b' ha hb
  obtain ⟨-, rfl⟩ := lp_eq_some.mp ha
  obtain ⟨-, rfl⟩ := lp_eq_some.mp hb
  simp only [length_append, hpre]
  omega

lemma extOpt (id : UInt16) (h : Apart i j x y) : Apart i j (Utls.extOpt id x)
    (Utls.extOpt id y) :=
  h.bind fun _ _ _ _ hab => (lp length_u16 hab).map 2 (fun _ => by simp; omega) fun _ => by simp; omega

lemma whenOpt {b b' : Bool} (hb : b = true) (hb' : b' = true) (h : Apart i j x y) :
    Apart i j (Utls.whenOpt b x) (Utls.whenOpt b' y) := by
  subst hb hb'
  exact h

lemma concat_cons {xs ys : List (Option Bytes)} (h : Apart i j x y)
    (hs : Apart i' j' (concatOpt xs) (concatOpt ys)) :
    Apart (i + i') (j + j') (concatOpt (x :: xs)) (concatOpt (y :: ys)) := by
  intro a b ha hb
  obtain ⟨a1, a2, ha1, ha2, rfl⟩ := concatOpt_cons_eq_some ha
  obtain ⟨b1, b2, hb1, hb2, rfl⟩ := concatOpt_cons_eq_some hb
  have h1 := h a1 b1 ha1 hb1
  have h2 := hs a2 b2 ha2 hb2
  simp only [length_append]
  omega

/-- A part that both have in front. -/
lemma concat_same {xs ys : List (Option Bytes)} (x : Option Bytes)
    (hs : Apart i j (concatOpt xs) (concatOpt ys)) :
    Apart i j (concatOpt (x :: xs)) (concatOpt (x :: ys)) := by
  have h := concat_cons (refl x) hs
  rwa [Nat.zero_add, Nat.zero_add] at h

/-- A part that differs, with the same rest. -/
lemma concat_rest {xs : List (Option Bytes)} (h : Apart i j x y) :
    Apart i j (concatOpt (x :: xs)) (concatOpt (y :: xs)) := by
  have h := concat_cons h (refl (concatOpt xs))
  rwa [Nat.add_zero, Nat.add_zero] at h

end Apart

/-- What is concatenated contains each of its parts. -/
lemma length_le_concatOpt {l : List (Option Bytes)} {b : Bytes} (h : concatOpt l = some b) :
    ∀ x ∈ l, ∃ p, x = some p ∧ p.length ≤ b.length := by
  induction l generalizing b with
  | nil => simp
  | cons y l ih =>
    intro x hx
    obtain ⟨b1, b2, hb1, hb2, rfl⟩ := concatOpt_cons_eq_some h
    rcases mem_cons.mp hx with rfl | hx
    · exact ⟨b1, hb1, by simp⟩
    · obtain ⟨p, hp, hle⟩ := ih hb2 x hx
      refine ⟨p, hp, hle.trans ?_⟩
      rw [length_append]
      omega

/-! ## The server name and the length -/

namespace ClientHelloMsg

variable {m : ClientHelloMsg} {n n' : GoString}

lemma apart_serverNameExt (m : ClientHelloMsg) (hn : n.length ≠ 0) (hn' : n'.length ≠ 0) :
    Apart n.length n'.length { m with serverName := n }.serverNameExt
      { m with serverName := n' }.serverNameExt := by
  refine .whenOpt (by simp; omega) (by simp; omega) (.extOpt _ (.bind (Apart.lp length_u16 ?_) ?_))
  · exact Nat.add_comm _ _
  · intro a b _ _ hab
    refine Apart.lp length_u16 ?_
    simp only [length_cons]
    omega

/-- A hello with a server name has extensions. -/
lemma length_pos_of_serverNameExt {l : List (Option Bytes)} {b : Bytes}
    (hm : m.serverName.length ≠ 0)
    (hmem : m.serverNameExt ∈ l) (h : concatOpt l = some b) : 0 < b.length := by
  obtain ⟨p, hp, hle⟩ := length_le_concatOpt h _ hmem
  rw [serverNameExt, whenOpt, if_pos (by simp; omega)] at hp
  obtain ⟨body, -, hp⟩ := bind_eq_some_iff.mp hp
  obtain ⟨block, -, rfl⟩ := map_eq_some_iff.mp hp
  rw [length_append, length_u16] at hle
  omega

/-- The extension block for one of the two formats. -/
def echInnerExtensions (m : ClientHelloMsg) : Option (List UInt16) → Option Bytes
  | some l => m.innerExtensions l
  | none => m.standardExtensions true

lemma apart_echInnerExtensions (m : ClientHelloMsg) (hn : n.length ≠ 0) (hn' : n'.length ≠ 0)
    (outerExts : Option (List UInt16)) :
    Apart n.length n'.length ({ m with serverName := n }.echInnerExtensions outerExts)
      ({ m with serverName := n' }.echInnerExtensions outerExts) := by
  cases outerExts with
  | some l => exact .concat_same _ (.concat_rest (m.apart_serverNameExt hn hn'))
  | none => exact .concat_rest (m.apart_serverNameExt hn hn')

lemma length_pos_echInnerExtensions (hm : m.serverName.length ≠ 0)
    {outerExts : Option (List UInt16)}
    {b : Bytes} (h : m.echInnerExtensions outerExts = some b) : 0 < b.length := by
  cases outerExts with
  | some l => exact length_pos_of_serverNameExt hm (by simp) h
  | none => exact length_pos_of_serverNameExt hm (by simp) h

/-- The message around an extension block. -/
def echInnerMessage (m : ClientHelloMsg) (extBytes : Bytes) : Option Bytes :=
  (concatOpt
    [some (u16 m.vers.toNat),
      if m.random.length = 32 then some m.random else none,
      lp8 [],
      lp16 (u16s m.cipherSuites),
      lp8 m.compressionMethods,
      whenOpt (extBytes.length > 0) (lp16 extBytes)]).bind fun body => (lp24 body).map (1 :: ·)

lemma marshalInner_eq (m : ClientHelloMsg) (outerExts : Option (List UInt16)) :
    m.marshalMsgReorderOuterExts true outerExts =
      (m.echInnerExtensions outerExts).bind m.echInnerMessage := by
  cases outerExts <;> rfl

/-- Two inner hellos that differ in their names differ in their lengths as the names do. -/
lemma apart_marshalInner (m : ClientHelloMsg) (hn : n.length ≠ 0) (hn' : n'.length ≠ 0)
    (outerExts : Option (List UInt16)) :
    Apart n.length n'.length ({ m with serverName := n }.marshalMsgReorderOuterExts true outerExts)
      ({ m with serverName := n' }.marshalMsgReorderOuterExts true outerExts) := by
  rw [marshalInner_eq, marshalInner_eq]
  refine (m.apart_echInnerExtensions hn hn' outerExts).bind fun a b ha hb hab => ?_
  have hpos := length_pos_echInnerExtensions (m := { m with serverName := n }) hn ha
  have hpos' := length_pos_echInnerExtensions (m := { m with serverName := n' }) hn' hb
  refine .bind (.concat_same _ (.concat_same _ (.concat_same _ (.concat_same _ (.concat_same _
    (.concat_rest (.whenOpt (by simpa using hpos) (by simpa using hpos') (.lp length_u16 hab))))))))
    fun _ _ _ _ hab => ?_
  exact (Apart.lp length_u24 hab).map 1 (fun _ => by simp) fun _ => by simp

/-- An inner hello is longer than its header. -/
lemma lt_length_marshalInner {outerExts : Option (List UInt16)} {b : Bytes}
    (h : m.marshalMsgReorderOuterExts true outerExts = some b) : 4 < b.length := by
  rw [marshalInner_eq] at h
  obtain ⟨exts, -, h⟩ := bind_eq_some_iff.mp h
  obtain ⟨body, hbody, h⟩ := bind_eq_some_iff.mp h
  obtain ⟨block, hblock, rfl⟩ := map_eq_some_iff.mp h
  obtain ⟨-, rfl⟩ := lp24_eq_some.mp hblock
  obtain ⟨p, hp, hle⟩ := length_le_concatOpt hbody (some (u16 m.vers.toNat)) (by simp)
  cases hp
  simp only [length_cons, length_append, length_u24]
  rw [length_u16] at hle
  omega

end ClientHelloMsg

/-- The length of an encoded inner hello with a server name. -/
lemma length_encodeInner {m : ClientHelloMsg} {maxNameLength : Nat}
    {outerExts : Option (List UInt16)} {e : Bytes} (hm : m.serverName.length ≠ 0)
    (h : encodeInnerClientHelloReorderOuterExts m maxNameLength outerExts = some e) :
    ∃ b, m.marshalMsgReorderOuterExts true outerExts = some b ∧ 4 < b.length ∧
      e.length = b.length - 4 +
        (31 - (b.length - 4 + (maxNameLength - m.serverName.length) - 1) % 32) := by
  obtain ⟨b, hb, rfl⟩ := map_eq_some_iff.mp h
  refine ⟨b, hb, ClientHelloMsg.lt_length_marshalInner hb, ?_⟩
  simp only [if_pos hm, length_append, length_replicate, length_drop]

/-- The encodings of two inner hellos that differ in their server names, neither of them longer than
the configuration allows for, have the same length and fill blocks of 32 bytes only if the names
have the same length and are shorter than the longest name by a multiple of 32. -/
theorem encoded_length_hides_name_iff (m : ClientHelloMsg) {n n' : GoString} {maxNameLength : Nat}
    (outerExts : Option (List UInt16)) {e e' : Bytes} (hn : n.length ≠ 0) (hn' : n'.length ≠ 0)
    (hle : n.length ≤ maxNameLength) (hle' : n'.length ≤ maxNameLength)
    (h : encodeInnerClientHelloReorderOuterExts { m with serverName := n } maxNameLength outerExts =
      some e)
    (h' : encodeInnerClientHelloReorderOuterExts { m with serverName := n' } maxNameLength outerExts =
      some e') :
    (e.length = e'.length ∧ 32 ∣ e.length ∧ 32 ∣ e'.length) ↔
      n.length = n'.length ∧ 32 ∣ maxNameLength - n.length := by
  obtain ⟨b, hb, hpos, hlen⟩ := length_encodeInner (m := { m with serverName := n }) hn h
  obtain ⟨b', hb', hpos', hlen'⟩ := length_encodeInner (m := { m with serverName := n' }) hn' h'
  have hapart := m.apart_marshalInner hn hn' outerExts b b' hb hb'
  -- with the padding that is asked for, both would have the same length
  have hsame : b.length - 4 + (maxNameLength - n.length) =
      b'.length - 4 + (maxNameLength - n'.length) := by omega
  have hlen : e.length = b.length - 4 +
    (31 - (b.length - 4 + (maxNameLength - n.length) - 1) % 32) := hlen
  have hlen' : e'.length = b'.length - 4 +
    (31 - (b'.length - 4 + (maxNameLength - n'.length) - 1) % 32) := hlen'
  rw [← hsame] at hlen'
  constructor
  · rintro ⟨heq, hdvd, -⟩
    have hnames : n.length = n'.length := by omega
    exact ⟨hnames, by omega⟩
  · rintro ⟨hnames, hdvd⟩
    have heq : e.length = e'.length := by omega
    have h32 : 32 ∣ e.length := by omega
    exact ⟨heq, h32, heq ▸ h32⟩

/-- An inner hello of TLS 1.3 without a name. -/
def sampleInner : ClientHelloMsg where
  vers := VersionTLS12
  random := List.replicate 32 7
  cipherSuites := [0x1301]
  compressionMethods := [0]
  supportedVersions := [VersionTLS13]
  encryptedClientHello := [1]

/-- Two names of the longest length. -/
theorem encoded_length_hides_longest_names :
    ∃ e e', encodeInnerClientHelloReorderOuterExts { sampleInner with serverName := [97, 98] } 2
        (some []) = some e ∧
      encodeInnerClientHelloReorderOuterExts { sampleInner with serverName := [99, 100] } 2
        (some []) = some e' ∧ e.length = e'.length ∧ 32 ∣ e.length ∧ 32 ∣ e'.length := by
  obtain ⟨e, he⟩ := isSome_iff_exists.mp (show (encodeInnerClientHelloReorderOuterExts
    { sampleInner with serverName := [97, 98] } 2 (some [])).isSome = true by decide +kernel)
  obtain ⟨e', he'⟩ := isSome_iff_exists.mp (show (encodeInnerClientHelloReorderOuterExts
    { sampleInner with serverName := [99, 100] } 2 (some [])).isSome = true by decide +kernel)
  exact ⟨e, e', he, he', (encoded_length_hides_name_iff sampleInner (some []) (by decide) (by decide)
    (by decide) (by decide) he he').mpr ⟨rfl, by decide⟩⟩

/-- Two names of one and two bytes, with two bytes allowed for, give two lengths, and the first is
not a multiple of 32. -/
theorem encoded_length_shows_name :
    ∃ e e', encodeInnerClientHelloReorderOuterExts { sampleInner with serverName := [97] } 2
        (some []) = some e ∧
      encodeInnerClientHelloReorderOuterExts { sampleInner with serverName := [97, 98] } 2
        (some []) = some e' ∧ e.length ≠ e'.length ∧ ¬32 ∣ e.length := by
  refine ⟨_, _, rfl, rfl, ?_, ?_⟩ <;> decide +kernel

end Utls
