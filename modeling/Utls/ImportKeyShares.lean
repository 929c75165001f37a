import Utls.ExtensionWrite
import Utls.Lib.Exec

/-!
# Key shares of an imported fingerprint

A fingerprint lists the key shares of a ClientHello as pairs of a group and a length.
`ImportTLSClientHello` rebuilds a `key_share` extension from them, with zeros in the place of the
keys, and lets `KeyShareExtension.Write` read it.  It takes the number of zeros from the last byte of
the pair alone, while `Write` reads the whole length.

A share with a length of two bytes then swallows the pairs that follow.  The reader may find its way
back into the data, but not with as many shares: the length of a share it reads is not zero, so
that every share meets the pair of a share that was given, no two of them the same one
(`length_le_spaced`, `spaced_expand_le`), and those that were swallowed are met by none.
-/

namespace Utls

open Wire Exec List Option

/-! ## The import -/

/-- The loop that puts zeros behind each pair, as many as its last byte says; `none` if the list ends
inside a pair. -/
def expandPairs : Bytes → Option Bytes
  | [] => some []
  | a :: b :: c :: e :: rest =>
    (expandPairs rest).map ([a, b, c, e] ++ List.replicate e.toNat 0 ++ ·)
  | _ => none

/-- The `key_share` case of `ImportTLSClientHello`. -/
def importKeyShare (data : Bytes) : Except (Fault Err) Ext :=
  match expandPairs data with
  | none => .error (.panic "index out of range")
  | some fixedData =>
    -- the length prefix has sixteen bits
    match (ExtKind.keyShare.write (vec16 fixedData)).2 with
    | .ok e => .ok e
    | .error err => .error (.error err)

/-- A group and the length of its key. -/
abbrev SharePair := UInt16 × UInt16

/-- The list of the fingerprint. -/
def pairBytes (l : List SharePair) : Bytes := l.flatMap fun p => u16 p.1.toNat ++ u16 p.2.toNat

/-- The shares with the given lengths fit a `key_share` extension. -/
def FitsKeyShare (l : List SharePair) : Prop := 2 + (l.map fun p => 4 + p.2.toNat).sum ≤ 65535

instance (l : List SharePair) : Decidable (FitsKeyShare l) :=
  inferInstanceAs (Decidable (_ ≤ _))

/-- The bytes that the loop makes of a list. -/
def expanded (l : List SharePair) : Bytes :=
  l.flatMap fun p => (u16 p.1.toNat ++ u16 p.2.toNat) ++ List.replicate (p.2.toNat % 256) 0

lemma expandPairs_pairBytes (l : List SharePair) : expandPairs (pairBytes l) = some (expanded l) := by
  induction l with
  | nil => rfl
  | cons p l ih =>
    have hlow : (UInt8.ofNat p.2.toNat).toNat = p.2.toNat % 256 := UInt8.toNat_ofNat'
    unfold pairBytes at ih ⊢
    rw [flatMap_cons]
    simp only [u16, cons_append, nil_append, expandPairs] at ih ⊢
    rw [ih, map_some, hlow]
    rfl

/-- A list of pairs is what the loop accepts. -/
lemma eq_pairBytes_of_expandPairs {b fixed : Bytes} (h : expandPairs b = some fixed) :
    ∃ l, b = pairBytes l := by
  induction b using expandPairs.induct generalizing fixed with
  | case1 => exact ⟨[], rfl⟩
  | case2 a b c e rest ih =>
    rw [expandPairs] at h
    obtain ⟨tail, htail, -⟩ := map_eq_some_iff.mp h
    obtain ⟨l, rfl⟩ := ih htail
    have hgroup := readU16_eq_some.mp
      (show readU16 (a :: b :: c :: e :: pairBytes l) = some (_, c :: e :: pairBytes l) from rfl)
    have hlen := readU16_eq_some.mp
      (show readU16 (c :: e :: pairBytes l) = some (_, pairBytes l) from rfl)
    refine ⟨(UInt16.ofNat (a.toNat * 256 + b.toNat), UInt16.ofNat (c.toNat * 256 + e.toNat)) :: l, ?_⟩
    exact hgroup.trans (congrArg (u16 _ ++ ·) hlen)
  | case3 b h1 h2 =>
    rw [expandPairs] at h
    · cases h
    · exact h1
    · exact h2

/-! ## Bytes that are apart -/

/-- The number of bytes that a scan meets which are not zero, when it goes on three bytes behind each
of them; the first `k` bytes are left out. -/
def spaced : Nat → Bytes → Nat
  | _, [] => 0
  | k + 1, _ :: s => spaced k s
  | 0, x :: s => if x = 0 then spaced 0 s else spaced 3 s + 1

/-- A later start meets fewer bytes, and four bytes hold at most one that is met. -/
lemma spaced_step (s : Bytes) :
    (∀ k, spaced (k + 1) s ≤ spaced k s) ∧ spaced 0 s ≤ spaced 4 s + 1 := by
  induction s with
  | nil => exact ⟨fun k => by cases k <;> exact le_rfl, Nat.zero_le _⟩
  | cons x s ih =>
    obtain ⟨hlater, hfour⟩ := ih
    have hnext : spaced 0 s ≤ spaced 3 s + 1 := hfour.trans (Nat.succ_le_succ (hlater 3))
    refine ⟨fun k => ?_, ?_⟩
    · cases k with
      | zero =>
        rw [spaced, spaced]
        split_ifs
        · exact le_rfl
        · exact hnext
      | succ k => exact hlater k
    · change (if x = 0 then spaced 0 s else spaced 3 s + 1) ≤ spaced 3 s + 1
      split_ifs
      · exact hnext
      · exact le_rfl

lemma spaced_anti {j k : Nat} (h : j ≤ k) (s : Bytes) : spaced k s ≤ spaced j s := by
  induction h with
  | refl => exact le_rfl
  | step _ ih => exact ((spaced_step s).1 _).trans ih

lemma spaced_append (p s : Bytes) (k : Nat) : spaced (p.length + k) (p ++ s) = spaced k s := by
  induction p with
  | nil => rw [length_nil, Nat.zero_add, nil_append]
  | cons x p ih =>
    rw [length_cons, cons_append, Nat.add_right_comm, spaced, ih]

lemma spaced_zeros (n : Nat) (s : Bytes) : spaced 0 (List.replicate n 0 ++ s) = spaced 0 s := by
  induction n with
  | zero => rfl
  | succ n ih => rw [replicate_succ, cons_append, spaced, if_pos rfl, ih]

lemma expanded_cons (p : SharePair) (l : List SharePair) :
    expanded (p :: l) = u16 p.1.toNat ++ (u16 p.2.toNat ++
      (List.replicate (p.2.toNat % 256) 0 ++ expanded l)) := by
  rw [expanded, flatMap_cons, append_assoc, append_assoc]
  rfl

/-- Behind its pair a share has zeros only. -/
lemma spaced_expanded_cons (p : SharePair) (l : List SharePair) :
    spaced 4 (expanded (p :: l)) = spaced 0 (expanded l) := by
  rw [expanded_cons, ← append_assoc]
  exact (spaced_append (u16 p.1.toNat ++ u16 p.2.toNat) _ 0).trans (spaced_zeros _ _)

/-- Each pair of the list is met once at most. -/
theorem spaced_expand_le (l : List SharePair) : spaced 0 (expanded l) ≤ l.length := by
  induction l with
  | nil => exact le_rfl
  | cons p l ih =>
    calc spaced 0 (expanded (p :: l)) ≤ spaced 4 (expanded (p :: l)) + 1 := (spaced_step _).2
      _ ≤ (p :: l).length := by rw [spaced_expanded_cons]; exact Nat.succ_le_succ ih

/-- The entry of a share with the shares behind it. -/
lemma keyShareEntries_cons (ks : KeyShare) (l : List KeyShare) :
    keyShareEntries (ks :: l) = u16 ks.group.toNat ++ (vec16 ks.data ++ keyShareEntries l) := by
  rw [keyShareEntries, flatMap_cons, append_assoc]
  rfl

/-- The length of each share that is read is met, also when the scan starts behind a group. -/
theorem length_le_spaced {l : List KeyShare} (h : ∀ ks ∈ l, SoundShare ks) :
    l.length ≤ spaced 2 (keyShareEntries l) := by
  induction l with
  | nil => exact Nat.zero_le _
  | cons ks l ih =>
    obtain ⟨hne, hlt⟩ := h ks mem_cons_self
    have ih := ih fun ks' hks' => h ks' (mem_cons_of_mem _ hks')
    have hpos := length_pos_iff.mpr hne
    set rest := ks.data ++ keyShareEntries l
    -- behind the length there is at least one byte of the key
    have htail : spaced 2 (keyShareEntries l) ≤ spaced 3 rest := by
      have happ := spaced_append ks.data (keyShareEntries l) 2
      rw [← happ]
      exact spaced_anti (by omega) rest
    have hskip : spaced 2 (keyShareEntries (ks :: l)) =
        spaced 0 (UInt8.ofNat (ks.data.length / 256) :: UInt8.ofNat ks.data.length :: rest) := by
      rw [keyShareEntries_cons, vec16, append_assoc]
      exact spaced_append (u16 ks.group.toNat) _ 0
    rw [hskip, length_cons, spaced]
    split_ifs with hhigh
    · -- the length is below 256, and its low byte is not zero
      have hlow : UInt8.ofNat ks.data.length ≠ 0 := by
        intro hzero
        have h1 := congrArg UInt8.toNat hhigh
        have h2 := congrArg UInt8.toNat hzero
        rw [UInt8.toNat_ofNat'] at h1 h2
        change _ = 0 at h1
        change _ = 0 at h2
        omega
      rw [spaced, if_neg hlow]
      exact Nat.succ_le_succ (ih.trans htail)
    · exact Nat.succ_le_succ (ih.trans (htail.trans (spaced_anti (by decide) rest)))

/-! ## What is read back -/

variable {l : List SharePair}

/-- If as many shares are read as pairs were given, the lengths are those that one byte holds and that
are not zero. -/
lemma lengths_of_entries {shares : List KeyShare}
    (hsound : ∀ ks ∈ shares, SoundShare ks) (h : keyShareEntries shares = expanded l)
    (hlen : shares.length = l.length) : ∀ p ∈ l, 1 ≤ p.2.toNat ∧ p.2.toNat ≤ 255 := by
  induction l generalizing shares with
  | nil => exact fun p hp => absurd hp not_mem_nil
  | cons p l ih =>
    obtain ⟨ks, shares, rfl⟩ := exists_cons_of_length_eq_add_one hlen
    obtain ⟨hne, hlt⟩ := hsound ks mem_cons_self
    have hsound' : ∀ ks' ∈ shares, SoundShare ks' :=
      fun ks' hks' => hsound ks' (mem_cons_of_mem _ hks')
    have hlen' : shares.length = l.length := Nat.succ.inj hlen
    rw [keyShareEntries_cons, expanded_cons] at h
    -- the group and the length are read as they were given
    have hgroup := congrArg readU16 h
    rw [readU16_u16_toNat, readU16_u16_toNat] at hgroup
    have h := congrArg Prod.snd (some.inj hgroup)
    dsimp only at h
    rw [vec16, append_assoc] at h
    have hlength := congrArg readU16 h
    rw [readU16_u16, readU16_u16_toNat] at hlength
    have hp : ks.data.length = p.2.toNat := by
      have heq := congrArg UInt16.toNat (congrArg Prod.fst (some.inj hlength))
      rw [UInt16.toNat_ofNat'] at heq
      dsimp only at heq
      omega
    have h := congrArg Prod.snd (some.inj hlength)
    dsimp only at h
    have hpos := length_pos_iff.mpr hne
    by_cases hsmall : p.2.toNat ≤ 255
    · -- the zeros are the key, and the rest goes on
      have hmod : p.2.toNat % 256 = p.2.toNat := Nat.mod_eq_of_lt (by omega)
      rw [hmod] at h
      have hrest := (append_inj h (by rw [length_replicate, hp])).2
      intro q hq
      rcases mem_cons.mp hq with rfl | hq
      · exact ⟨by omega, hsmall⟩
      · exact ih hsound' hrest hlen' q hq
    · exfalso
      have htotal := congrArg List.length h
      rw [length_append, length_append, length_replicate] at htotal
      cases l with
      | nil =>
        -- nothing is left to fill the key with
        have hnil : (expanded []).length = 0 := rfl
        omega
      | cons p' l =>
        -- the key swallows the next pair, and there are not enough of them behind it
        have hmet : spaced 0 (keyShareEntries shares) ≤ l.length := by
          calc spaced 0 (keyShareEntries shares)
              = spaced ks.data.length (ks.data ++ keyShareEntries shares) :=
                (spaced_append _ _ 0).symm
            _ = spaced ks.data.length
                  (replicate (p.2.toNat % 256) 0 ++ expanded (p' :: l)) := by rw [h]
            _ ≤ spaced ((replicate (p.2.toNat % 256) (0 : UInt8)).length + 4)
                  (replicate (p.2.toNat % 256) 0 ++ expanded (p' :: l)) :=
                spaced_anti (by rw [length_replicate]; omega) _
            _ = spaced 0 (expanded l) := by rw [spaced_append, spaced_expanded_cons]
            _ ≤ l.length := spaced_expand_le l
        have hshares := (length_le_spaced hsound').trans (spaced_anti (Nat.zero_le 2) _)
        rw [hlen', length_cons] at hshares
        omega

/-- The shares with the given lengths are read back. -/
lemma entries_of_lengths (h : ∀ p ∈ l, 1 ≤ p.2.toNat ∧ p.2.toNat ≤ 255) :
    ∃ shares : List KeyShare, (∀ ks ∈ shares, SoundShare ks) ∧ keyShareEntries shares = expanded l ∧
      shares.map KeyShare.group = l.map Prod.fst := by
  induction l with
  | nil => exact ⟨[], fun ks hks => absurd hks not_mem_nil, rfl, rfl⟩
  | cons p l ih =>
    obtain ⟨shares, hsound, hentries, hgroups⟩ := ih fun q hq => h q (mem_cons_of_mem _ hq)
    obtain ⟨hpos, hle⟩ := h p mem_cons_self
    have hmod : p.2.toNat % 256 = p.2.toNat := Nat.mod_eq_of_lt (by omega)
    refine ⟨⟨p.1, replicate p.2.toNat 0⟩ :: shares, ?_, ?_, ?_⟩
    · intro ks hks
      rcases mem_cons.mp hks with rfl | hks
      · refine ⟨ne_nil_of_length_pos ?_, ?_⟩
        · rw [length_replicate]
          omega
        · rw [length_replicate]
          omega
      · exact hsound ks hks
    · rw [keyShareEntries_cons, expanded_cons, hentries, hmod, vec16, append_assoc,
        length_replicate]
    · rw [map_cons, map_cons, hgroups]

/-- What `Write` makes of a list with its length in front: it reads as many bytes as the sixteen bits
of the length say. -/
lemma write_keyShare_eq_ok {fixed : Bytes} {e : Ext} :
    (ExtKind.keyShare.write (vec16 fixed)).2 = .ok e ↔
      ∃ shares : List KeyShare, (∀ ks ∈ shares, SoundShare ks) ∧
        keyShareEntries shares = fixed.take (fixed.length % 65536) ∧
        e = .keyShare (shares.map storedKeyShare) := by
  constructor
  · intro h
    have hwrite : ExtKind.keyShare.write (vec16 fixed) =
        ((ExtKind.keyShare.write (vec16 fixed)).1, .ok e) := Prod.ext rfl h
    obtain ⟨-, r, hparse⟩ := ExtKind.write_eq_ok.mp hwrite
    obtain ⟨body, hbody, heq⟩ := ExtKind.exists_body_of_parse hparse
    cases hbody with
    | @keyShare shares hsound hlen =>
      refine ⟨shares, hsound, ?_, rfl⟩
      -- the two prefixes agree, and so does what follows them
      unfold vec16 at heq
      rw [append_assoc] at heq
      have hread := congrArg readU16 heq
      rw [readU16_u16, readU16_u16] at hread
      have hannounced := congrArg UInt16.toNat (congrArg Prod.fst (some.inj hread))
      have hrest := congrArg Prod.snd (some.inj hread)
      dsimp only at hannounced hrest
      rw [UInt16.toNat_ofNat', UInt16.toNat_ofNat', Nat.mod_eq_of_lt hlen] at hannounced
      have hannounced : fixed.length % 65536 = (keyShareEntries shares).length := hannounced
      rw [hannounced, hrest, take_left]
  · rintro ⟨shares, hsound, heq, rfl⟩
    have hlen : (keyShareEntries shares).length = fixed.length % 65536 := by
      rw [heq, length_take]
      exact Nat.min_eq_left (Nat.mod_le _ _)
    have hlt : (keyShareEntries shares).length < 65536 := by
      rw [hlen]
      exact Nat.mod_lt _ (by decide)
    have hannounced : u16 fixed.length = u16 (keyShareEntries shares).length := by
      have hread := readU16_u16 fixed.length []
      have hof : UInt16.ofNat fixed.length = UInt16.ofNat (keyShareEntries shares).length := by
        refine UInt16.toNat_inj.mp ?_
        rw [UInt16.toNat_ofNat', UInt16.toNat_ofNat', hlen, Nat.mod_mod]
      rw [hof] at hread
      have heq := readU16_eq_some.mp hread
      rw [append_nil, append_nil, UInt16.toNat_ofNat_of_lt' hlt] at heq
      exact heq
    have hparse := (ExtKind.Body.keyShare hsound hlt).parse (fixed.drop (fixed.length % 65536))
    have hbytes : vec16 (keyShareEntries shares) ++ fixed.drop (fixed.length % 65536) =
        vec16 fixed := by
      rw [vec16, append_assoc, heq, take_append_drop, ← heq, ← hannounced, vec16]
    rw [hbytes] at hparse
    exact congrArg Prod.snd (ExtKind.write_eq_ok.mpr ⟨rfl, _, hparse⟩)

/-! ## Imports -/

/-- A list of pairs that fits an extension is imported with its groups, their GREASE values replaced by
the placeholder; any other string is refused with an error. -/
structure ImportsKeyShares (b : Bytes) : Prop where
  list : ∀ l, b = pairBytes l → FitsKeyShare l → ∃ shares,
    importKeyShare b = .ok (.keyShare shares) ∧
      shares.map KeyShare.group = l.map fun p => unGREASEUint16 p.1
  other : (∀ l, b = pairBytes l → ¬FitsKeyShare l) → ∃ err, importKeyShare b = .error (.error err)

lemma pairBytes_inj {l' : List SharePair} (h : pairBytes l = pairBytes l') : l = l' := by
  induction l generalizing l' with
  | nil =>
    cases l' with
    | nil => rfl
    | cons p l' => cases h
  | cons p l ih =>
    cases l' with
    | nil => cases h
    | cons p' l' =>
      unfold pairBytes at h ih
      rw [flatMap_cons, flatMap_cons, append_assoc, append_assoc] at h
      have hgroup := congrArg readU16 h
      rw [readU16_u16_toNat, readU16_u16_toNat] at hgroup
      obtain ⟨hgroup, h⟩ := Prod.mk.injEq .. ▸ some.inj hgroup
      have hlen := congrArg readU16 h
      rw [readU16_u16_toNat, readU16_u16_toNat] at hlen
      obtain ⟨hlen, h⟩ := Prod.mk.injEq .. ▸ some.inj hlen
      rw [ih h, Prod.ext hgroup hlen]

lemma length_expanded_le (l : List SharePair) :
    (expanded l).length ≤ (l.map fun p => 4 + p.2.toNat).sum := by
  induction l with
  | nil => exact le_rfl
  | cons p l ih =>
    have hmod := Nat.mod_le p.2.toNat 256
    rw [expanded_cons, length_append, length_append, length_append, length_u16,
      length_u16, length_replicate, map_cons, sum_cons]
    omega

lemma importKeyShare_pairBytes {e : Ext} :
    importKeyShare (pairBytes l) = .ok e ↔
      ∃ shares : List KeyShare, (∀ ks ∈ shares, SoundShare ks) ∧
        keyShareEntries shares = (expanded l).take ((expanded l).length % 65536) ∧
        e = .keyShare (shares.map storedKeyShare) := by
  rw [← write_keyShare_eq_ok, importKeyShare, expandPairs_pairBytes]
  cases hwrite : (ExtKind.keyShare.write (vec16 (expanded l))).2 with
  | ok e' => simp [hwrite]
  | error err => simp [hwrite]

/-- A list of pairs is not a panic. -/
lemma importKeyShare_error (h : ∀ e, importKeyShare (pairBytes l) ≠ .ok e) :
    ∃ err, importKeyShare (pairBytes l) = .error (.error err) := by
  rw [importKeyShare, expandPairs_pairBytes] at h ⊢
  cases hwrite : (ExtKind.keyShare.write (vec16 (expanded l))).2 with
  | ok e =>
    simp only [hwrite] at h
    exact absurd rfl (h e)
  | error err => exact ⟨err, by simp only [hwrite]⟩

/-- The first shares of the rebuilt list, as many bytes of it as the sixteen bits of its length say,
can be read. -/
def ReadableCut (l : List SharePair) : Prop :=
  ∃ shares : List KeyShare, (∀ ks ∈ shares, SoundShare ks) ∧
    keyShareEntries shares = (expanded l).take ((expanded l).length % 65536)

/-- The imports that are as they should be: lists of whole pairs whose lengths are all between 1 and
255, if they fit an extension, and of which nothing can be read that the wrapped length leaves, if
they do not. -/
theorem importsKeyShares_iff (b : Bytes) :
    ImportsKeyShares b ↔ ∃ l, b = pairBytes l ∧
      if FitsKeyShare l then ∀ p ∈ l, 1 ≤ p.2.toNat ∧ p.2.toNat ≤ 255 else ¬ReadableCut l := by
  constructor
  · intro h
    cases hexpand : expandPairs b with
    | none =>
      -- a list that ends inside a pair is a panic
      have hnot : ∀ l, b ≠ pairBytes l := by
        rintro l rfl
        rw [expandPairs_pairBytes] at hexpand
        cases hexpand
      obtain ⟨err, herr⟩ := h.other fun l hl => absurd hl (hnot l)
      rw [importKeyShare, hexpand] at herr
      cases herr
    | some fixed =>
      obtain ⟨l, rfl⟩ := eq_pairBytes_of_expandPairs hexpand
      refine ⟨l, rfl, ?_⟩
      split_ifs with hfits
      · obtain ⟨stored, himport, hgroups⟩ := h.list l rfl hfits
        obtain ⟨shares, hsound, hentries, hstored⟩ := importKeyShare_pairBytes.mp himport
        have hshort := length_expanded_le l
        unfold FitsKeyShare at hfits
        rw [Nat.mod_eq_of_lt (by omega), take_length] at hentries
        refine lengths_of_entries hsound hentries ?_
        have hlen := congrArg List.length hgroups
        rwa [Ext.keyShare.inj hstored, length_map, length_map, length_map] at hlen
      · rintro ⟨shares, hsound, hentries⟩
        have himport := importKeyShare_pairBytes.mpr ⟨shares, hsound, hentries, rfl⟩
        obtain ⟨err, herr⟩ := h.other fun l' hl' => by rwa [← pairBytes_inj hl']
        rw [himport] at herr
        cases herr
  · rintro ⟨l, rfl, hcond⟩
    refine ⟨fun l' hl' hfits => ?_, fun hother => ?_⟩
    · rw [← pairBytes_inj hl'] at hfits ⊢
      rw [if_pos hfits] at hcond
      obtain ⟨shares, hsound, hentries, hgroups⟩ := entries_of_lengths hcond
      have hshort := length_expanded_le l
      unfold FitsKeyShare at hfits
      refine ⟨shares.map storedKeyShare, importKeyShare_pairBytes.mpr ⟨shares, hsound, ?_, rfl⟩, ?_⟩
      · rw [Nat.mod_eq_of_lt (by omega), take_length, hentries]
      · rw [List.map_map]
        have hstored := congrArg (List.map unGREASEUint16) hgroups
        rwa [List.map_map, List.map_map] at hstored
    · rw [if_neg (hother l rfl)] at hcond
      refine importKeyShare_error fun e he => ?_
      obtain ⟨shares, hsound, hentries, -⟩ := importKeyShare_pairBytes.mp he
      exact hcond ⟨shares, hsound, hentries⟩

/-- The share of X25519MLKEM768, of 1216 bytes, is refused, and a list that ends inside a pair is a
panic. -/
theorem hybridShare_refused :
    (∃ err, importKeyShare [0x11, 0xEC, 0x04, 0xC0] = .error (.error err)) ∧
      importKeyShare [0x00, 0x1D, 0x00] = .error (.panic "index out of range") ∧
      ¬ImportsKeyShares [0x11, 0xEC, 0x04, 0xC0] ∧ ¬ImportsKeyShares [0x00, 0x1D, 0x00] := by
  have hrefused : ∃ err, importKeyShare [0x11, 0xEC, 0x04, 0xC0] = .error (.error err) := by
    refine importKeyShare_error (l := [(X25519MLKEM768, 1216)]) fun e he => ?_
    have hnone : (importKeyShare (pairBytes [(X25519MLKEM768, 1216)])).toOption.isSome = false := by
      decide +kernel
    rw [he] at hnone
    cases hnone
  refine ⟨hrefused, rfl, fun h => ?_, fun h => ?_⟩
  · obtain ⟨shares, himport, -⟩ := h.list [(X25519MLKEM768, 1216)] rfl (by decide)
    obtain ⟨err, herr⟩ := hrefused
    rw [himport] at herr
    cases herr
  · obtain ⟨err, himport⟩ := h.other fun l hl => by
      have hlen := congrArg expandPairs hl
      rw [expandPairs_pairBytes] at hlen
      cases hlen
    cases himport

end Utls
