import Utls.Ech
import Utls.ExtensionWrite

/-!
# Lists of ECH configurations

`parseECHConfigList` has two cursors.  The loop moves over the list by the length that each
configuration announces, while `parseECHConfig` reads the fields of a configuration from
everything that is left of the list.  Both the loop and the length check compute in sixteen bits.

* The loop is cut into rounds (`configRound`), and a `Walk` is a sequence of them.  On a list of
  at most 65535 bytes every round moves forward; `parse_terminates_iff` says on which other
  inputs the function still ends as it should.
* `readECHConfigFields_eq_some` says which bytes the fields of a configuration are read from.
  They are the announced ones exactly if the announced length is the sum of the lengths that
  stand in front of the fields (`ownBytes_iff`).
-/

namespace Utls

open Wire Exec List Option

variable {r s t : Bytes} {n : Nat} {ec : Option EchConfig} {l : List (Bytes × Option EchConfig)}
  {out : Except Err (List EchConfig)}

/-! ## Rounds of the loop -/

/-- The length that the configuration at the front of a list announces. -/
def announcedLength (s : Bytes) : Nat := (s.getD 2 0).toNat * 256 + (s.getD 3 0).toNat

/-- The number of bytes by which a round moves the cursor, a sixteen-bit sum. -/
def configStep (s : Bytes) : Nat := (UInt16.ofNat (announcedLength s) + 4).toNat

/-- One round of the loop of `parseECHConfigList`: the configuration, if it is not skipped, and the
rest of the list. -/
def configRound (s : Bytes) : Except Err (Option EchConfig × Bytes) :=
  if s.length < 4 then .error (.text "tls: malformed ECHConfig")
  else
    match parseECHConfig s with
    | .error e => .error e
    | .ok ec => .ok (ec, s.drop (configStep s))

lemma parseECHConfigs_succ (hs : s ≠ []) (n : Nat) :
    parseECHConfigs (n + 1) s =
      match configRound s with
      | .error e => some (.error e)
      | .ok (ec, r) => (parseECHConfigs n r).map fun rest => rest.map fun l => ec.toList ++ l := by
  obtain ⟨x, s, rfl⟩ := exists_cons_of_ne_nil hs
  rw [parseECHConfigs, configRound]
  split_ifs with hshort
  · rfl
  · cases parseECHConfig (x :: s) with
    | error e => rfl
    | ok ec => rfl

lemma parseECHConfigs_zero (hs : s ≠ []) : parseECHConfigs 0 s = none := by
  obtain ⟨x, s, rfl⟩ := exists_cons_of_ne_nil hs
  rfl

@[simp] lemma parseECHConfigs_nil (n : Nat) : parseECHConfigs n [] = some (.ok []) := by
  cases n with
  | zero => rfl
  | succ n => rfl

/-- The loop ends within `n` rounds with the result `out`: at the end of the list, or at a round that
fails. -/
inductive LoopRun : Nat → Bytes → Except Err (List EchConfig) → Prop
  | done (n : Nat) : LoopRun n [] (.ok [])
  | failed {n : Nat} {s : Bytes} {e : Err} (hs : s ≠ []) (hround : configRound s = .error e) :
      LoopRun (n + 1) s (.error e)
  | round {n : Nat} {s r : Bytes} {ec : Option EchConfig} {out : Except Err (List EchConfig)}
      (hs : s ≠ []) (hround : configRound s = .ok (ec, r)) (rest : LoopRun n r out) :
      LoopRun (n + 1) s (out.map fun l => ec.toList ++ l)

lemma LoopRun.parse (h : LoopRun n s out): parseECHConfigs n s = some out := by
  induction h with
  | done n => exact parseECHConfigs_nil n
  | failed hs hround => rw [parseECHConfigs_succ hs, hround]
  | round hs hround _ ih =>
    rw [parseECHConfigs_succ hs, hround]
    dsimp only
    rw [ih, map_some]

lemma loopRun_of_parse (h : parseECHConfigs n s = some out): LoopRun n s out := by
  induction n generalizing s out with
  | zero =>
    by_cases hs : s = []
    · subst hs
      cases h
      exact .done 0
    · rw [parseECHConfigs_zero hs] at h
      cases h
  | succ n ih =>
    by_cases hs : s = []
    · subst hs
      cases h
      exact .done (n + 1)
    · rw [parseECHConfigs_succ hs] at h
      cases hround : configRound s with
      | error e =>
        rw [hround] at h
        cases h
        exact .failed hs hround
      | ok x =>
        rw [hround] at h
        obtain ⟨rest, hrest, rfl⟩ := map_eq_some_iff.mp h
        exact .round hs hround (ih hrest)

/-- The two bytes of a sixteen-bit number. -/
lemma value_u16 (hn : n < 65536) :
    (UInt8.ofNat (n / 256)).toNat * 256 + (UInt8.ofNat n).toNat = n := by
  rw [UInt8.toNat_ofNat', UInt8.toNat_ofNat']
  omega

lemma announcedLength_header (v l : UInt16) (rest : Bytes) :
    announcedLength (u16 v.toNat ++ (u16 l.toNat ++ rest)) = l.toNat :=
  value_u16 l.toNat_lt

lemma configStep_header (v l : UInt16) (rest : Bytes) :
    configStep (u16 v.toNat ++ (u16 l.toNat ++ rest)) = (l + 4).toNat := by
  rw [configStep, announcedLength_header, UInt16.ofNat_toNat]

/-- A configuration that `parseECHConfig` accepts: its header, at least as many bytes as the header
announces, and the outcome. -/
lemma parseECHConfig_ok (h : parseECHConfig s = .ok ec) :
    ∃ v l rest, s = u16 v.toNat ++ (u16 l.toNat ++ rest) ∧ l.toNat ≤ rest.length ∧
      ((v ≠ extensionEncryptedClientHello ∧ ec = none) ∨
        (v = extensionEncryptedClientHello ∧ ∃ c, ec = some c ∧
          parseECHConfigFields (s.take (l + 4).toNat) v l rest = some c)) := by
  unfold parseECHConfig at h
  cases hread : (readU16 s).bind fun x => (readU16 x.2).map fun y => (x.1, y.1, y.2) with
  | none => rw [hread] at h; cases h
  | some x =>
    obtain ⟨v', l', rest'⟩ := x
    rw [hread] at h
    obtain ⟨⟨v, s1⟩, hv, hread1⟩ := bind_eq_some_iff.mp hread
    obtain ⟨⟨l, rest⟩, hl, heq⟩ := map_eq_some_iff.mp hread1
    cases heq
    have hs : s = u16 v.toNat ++ (u16 l.toNat ++ rest) := by
      rw [readU16_eq_some.mp hv, ← readU16_eq_some.mp hl]
    dsimp only at h
    by_cases hshort : s.length < l.toNat + 4
    · rw [if_pos hshort] at h
      cases h
    · rw [if_neg hshort] at h
      have hlen : l.toNat ≤ rest.length := by
        rw [hs] at hshort
        simp only [length_append, length_u16] at hshort
        omega
      refine ⟨v, l, rest, hs, hlen, ?_⟩
      by_cases hv : v = extensionEncryptedClientHello
      · rw [if_neg (not_not.mpr hv)] at h
        cases hfields : parseECHConfigFields (s.take (l + 4).toNat) v l rest with
        | none => rw [hfields] at h; cases h
        | some c =>
          rw [hfields] at h
          exact .inr ⟨hv, c, (Except.ok.inj h).symm, rfl⟩
      · rw [if_pos hv] at h
        exact .inl ⟨hv, (Except.ok.inj h).symm⟩

/-- A round that does not fail. -/
lemma configRound_ok (h : configRound s = .ok (ec, r)) :
    parseECHConfig s = .ok ec ∧ r = s.drop (configStep s) := by
  unfold configRound at h
  split_ifs at h
  cases hparse : parseECHConfig s with
  | error e => rw [hparse] at h; cases h
  | ok ec' =>
    rw [hparse] at h
    cases h
    exact ⟨rfl, rfl⟩

lemma configRound_of_ok (h : parseECHConfig s = .ok ec) :
    configRound s = .ok (ec, s.drop (configStep s)) := by
  obtain ⟨v, l, rest, hs, -, -⟩ := parseECHConfig_ok h
  have hlong : ¬s.length < 4 := by
    rw [hs]
    simp only [length_append, length_u16]
    omega
  rw [configRound, if_neg hlong, h]

/-- On a short list a round that does not fail moves forward by the announced length. -/
lemma configStep_of_short (h : parseECHConfig s = .ok ec)
    (hs : s.length ≤ 65535) : 4 ≤ configStep s ∧ configStep s ≤ s.length := by
  obtain ⟨v, l, rest, rfl, hlen, -⟩ := parseECHConfig_ok h
  rw [configStep_header]
  simp only [length_append, length_u16] at hs ⊢
  have hsum : (l + 4).toNat = l.toNat + 4 := by
    change (l.toNat + 4) % 65536 = _
    omega
  omega

/-! ## Walks -/

/-- The rounds that lead from one cursor to another, each with the cursor it starts from. -/
inductive Walk : Bytes → List (Bytes × Option EchConfig) → Bytes → Prop
  | nil {s : Bytes} : Walk s [] s
  | cons {s r t : Bytes} {ec : Option EchConfig} {l : List (Bytes × Option EchConfig)}
      (hs : s ≠ []) (head : configRound s = .ok (ec, r)) (rest : Walk r l t) :
      Walk s ((s, ec) :: l) t

/-- The bytes over which the rounds of a walk move the cursor. -/
def consumed (l : List (Bytes × Option EchConfig)) : List Bytes :=
  l.map fun p => p.1.take (configStep p.1)

lemma Walk.eq_consumed (h : Walk s l t) : s = (consumed l).flatten ++ t := by
  induction h with
  | nil => rfl
  | @cons s r t ec l hs head _ ih =>
    obtain ⟨-, hr⟩ := configRound_ok head
    have hsplit : (consumed ((s, ec) :: l)).flatten = s.take (configStep s) ++
        (consumed l).flatten := rfl
    rw [hsplit, append_assoc, ← ih, hr, take_append_drop]

lemma Walk.length_le (h : Walk s l t) : t.length ≤ s.length := by
  rw [h.eq_consumed, length_append]
  omega

/-- Every round that is reached from `s` and does not fail shortens the list. -/
def Shortens (s : Bytes) : Prop :=
  ∀ l t ec r, Walk s l t → t ≠ [] → configRound t = .ok (ec, r) → r.length < t.length

lemma Shortens.next (h : Shortens s) (hs : s ≠ [])
    (hround : configRound s = .ok (ec, r)) : Shortens r :=
  fun _ t ec' r' hwalk => h _ t ec' r' (.cons hs hround hwalk)

lemma shortens_of_short (hs : s.length ≤ 65535) : Shortens s := by
  intro l t ec r hwalk ht hround
  obtain ⟨hparse, rfl⟩ := configRound_ok hround
  have hlen := hwalk.length_le
  obtain ⟨hpos, hle⟩ := configStep_of_short hparse (hlen.trans hs)
  rw [length_drop]
  omega

/-- A loop whose rounds shorten the list has ended after as many rounds as there are bytes. -/
lemma Shortens.returns (h : Shortens s) (hn : s.length ≤ n) :
    ∃ r, parseECHConfigs n s = some r := by
  induction n generalizing s with
  | zero =>
    obtain rfl := length_eq_zero_iff.mp (Nat.le_zero.mp hn)
    exact ⟨_, parseECHConfigs_nil 0⟩
  | succ n ih =>
    by_cases hs : s = []
    · rw [hs]
      exact ⟨_, parseECHConfigs_nil _⟩
    · rw [parseECHConfigs_succ hs]
      cases hround : configRound s with
      | error e => exact ⟨_, rfl⟩
      | ok x =>
        obtain ⟨ec, r⟩ := x
        have hlt := h [] s ec r .nil hs hround
        obtain ⟨out, hout⟩ := ih (h.next hs hround) (by omega)
        dsimp only
        rw [hout]
        exact ⟨_, rfl⟩

/-- A list that is returned comes from a walk to the end. -/
lemma walk_of_parseECHConfigs {configs : List EchConfig}
    (h : parseECHConfigs n s = some (.ok configs)) :
    ∃ l, Walk s l [] ∧ l.length ≤ n ∧ configs = l.filterMap Prod.snd := by
  generalize hout : Except.ok configs = out at h
  induction loopRun_of_parse h generalizing configs with
  | done n =>
    cases hout
    exact ⟨[], .nil, Nat.zero_le n, rfl⟩
  | failed hs hround => cases hout
  | @round n s r ec out hs hround hrest ih =>
    cases out with
    | error e => cases hout
    | ok rest =>
      obtain ⟨l, hwalk, hlen, rfl⟩ := ih rfl hrest.parse
      obtain rfl := Except.ok.inj hout
      refine ⟨(s, ec) :: l, .cons hs hround hwalk, Nat.succ_le_succ hlen, ?_⟩
      cases ec with
      | none => rfl
      | some c => rfl

/-! ## Termination -/

/-- The length in front of the list is the number of bytes behind it, in sixteen bits. -/
def PrefixOk (data : Bytes) : Prop :=
  ∃ length, readU16 data = some (length, data.drop 2) ∧ length = UInt16.ofNat (data.length - 2)

/-- A malformed configuration is reached by rounds that all move forward. -/
inductive ReachesMalformed : Bytes → Prop
  | here {s : Bytes} {e : Err} (hs : s ≠ []) (h : configRound s = .error e) : ReachesMalformed s
  | next {s r : Bytes} {ec : Option EchConfig} (hs : s ≠ []) (h : configRound s = .ok (ec, r))
      (hlt : r.length < s.length) (rest : ReachesMalformed r) : ReachesMalformed s

/-- `parseECHConfigList` ends, each of its rounds shortens the list, and if it returns
configurations then its rounds have consumed exactly the bytes behind the length, whose number the
length is. -/
structure TerminatesExactly (data : Bytes) : Prop where
  shortens : PrefixOk data → Shortens (data.drop 2)
  returns : ∃ r, parseECHConfigList data = some r
  consumes : ∀ configs, parseECHConfigList data = some (.ok configs) →
    ∃ l, Walk (data.drop 2) l [] ∧ l.length ≤ data.length ∧ configs = l.filterMap Prod.snd ∧
      (consumed l).flatten = data.drop 2 ∧
      ∃ length, readU16 data = some (length, data.drop 2) ∧ length.toNat = (data.drop 2).length

lemma readU16_drop {data : Bytes} {x : UInt16} (h : readU16 data = some (x, s)) :
    s = data.drop 2 := by
  rw [readU16_eq_some.mp h]
  rfl

/-- The loop is entered exactly if the length is right. -/
lemma parseECHConfigList_eq (data : Bytes) :
    (PrefixOk data ∧ parseECHConfigList data =
      parseECHConfigs (data.drop 2).length (data.drop 2)) ∨
    (¬PrefixOk data ∧ parseECHConfigList data = some (.error errMalformedECHConfig)) := by
  unfold parseECHConfigList
  cases hread : readU16 data with
  | none =>
    refine .inr ⟨?_, rfl⟩
    rintro ⟨length, hlength, -⟩
    rw [hread] at hlength
    cases hlength
  | some x =>
    obtain ⟨length, s⟩ := x
    obtain rfl := readU16_drop hread
    dsimp only
    by_cases hlength : length = UInt16.ofNat (data.length - 2)
    · rw [if_neg (not_not.mpr hlength)]
      exact .inl ⟨⟨length, hread, hlength⟩, rfl⟩
    · rw [if_pos hlength]
      refine .inr ⟨?_, rfl⟩
      rintro ⟨length', hlength', heq⟩
      rw [hread] at hlength'
      cases hlength'
      exact hlength heq

/-- A loop that returns an error after rounds that move forward has met a malformed
configuration. -/
lemma Shortens.reachesMalformed {e : Err} (h : Shortens s)
    (herr : parseECHConfigs n s = some (.error e)) : ReachesMalformed s := by
  generalize hout : Except.error e = out at herr
  induction loopRun_of_parse herr with
  | done n => cases hout
  | failed hs hround => exact .here hs hround
  | @round n s r ec out hs hround hrest ih =>
    cases out with
    | error e' =>
      cases hout
      exact .next hs hround (h [] s ec r .nil hs hround) (ih (h.next hs hround) rfl hrest.parse)
    | ok rest => cases hout

lemma ReachesMalformed.shortens (h : ReachesMalformed s) : Shortens s := by
  induction h with
  | here hs hround =>
    intro l t ec r hwalk ht hok
    cases hwalk with
    | nil => rw [hround] at hok; cases hok
    | cons _ head _ => rw [hround] at head; cases head
  | next hs hround hlt _ ih =>
    intro l t ec r hwalk ht hok
    cases hwalk with
    | nil =>
      rw [hround] at hok
      cases hok
      exact hlt
    | cons _ head rest =>
      rw [hround] at head
      cases head
      exact ih _ t ec r rest ht hok

lemma ReachesMalformed.not_walk (h : ReachesMalformed s)
    (l : List (Bytes × Option EchConfig)) : ¬Walk s l [] := by
  induction h generalizing l with
  | here hs hround =>
    intro hwalk
    cases hwalk with
    | nil => exact hs rfl
    | cons _ head _ => rw [hround] at head; cases head
  | next hs hround _ _ ih =>
    intro hwalk
    cases hwalk with
    | nil => exact hs rfl
    | cons _ head rest =>
      rw [hround] at head
      cases head
      exact ih _ rest

/-- `parseECHConfigList` ends as it should exactly on the inputs whose list has at most 65535
bytes, and on those which it rejects for their length or for a malformed configuration. -/
theorem parse_terminates_iff (data : Bytes) :
    TerminatesExactly data ↔
      data.length ≤ 65537 ∨ ¬PrefixOk data ∨ ReachesMalformed (data.drop 2) := by
  rcases parseECHConfigList_eq data with ⟨hcount, hloop⟩ | ⟨hcount, hloop⟩
  · constructor
    · intro h
      by_contra hnot
      push Not at hnot
      obtain ⟨hlong, -, hbad⟩ := hnot
      obtain ⟨r, hr⟩ := h.returns
      cases r with
      | error e =>
        rw [hloop] at hr
        exact hbad ((h.shortens hcount).reachesMalformed hr)
      | ok configs =>
        obtain ⟨l, -, -, -, -, length, -, hlength⟩ := h.consumes configs hr
        have hlt := length.toNat_lt
        rw [hlength, length_drop] at hlt
        omega
    · rintro (hshort | hnot | hbad)
      · have hlen : (data.drop 2).length ≤ 65535 := by
          rw [length_drop]
          omega
        have hshortens := shortens_of_short hlen
        refine ⟨fun _ => hshortens, ?_, fun configs hok => ?_⟩
        · rw [hloop]
          exact hshortens.returns le_rfl
        · rw [hloop] at hok
          obtain ⟨l, hwalk, hl, hconfigs⟩ := walk_of_parseECHConfigs hok
          have hflat := hwalk.eq_consumed
          rw [append_nil] at hflat
          obtain ⟨length, hread, rfl⟩ := hcount
          refine ⟨l, hwalk, hl.trans ?_, hconfigs, hflat.symm, _, hread, ?_⟩
          · rw [length_drop]
            omega
          · rw [UInt16.toNat_ofNat', length_drop]
            omega
      · exact absurd hcount hnot
      · refine ⟨fun _ => hbad.shortens, ?_, fun configs hok => ?_⟩
        · rw [hloop]
          exact hbad.shortens.returns le_rfl
        · rw [hloop] at hok
          obtain ⟨l, hwalk, -⟩ := walk_of_parseECHConfigs hok
          exact absurd hwalk (hbad.not_walk l)
  · refine iff_of_true ⟨fun h => absurd h hcount, ⟨_, hloop⟩, fun configs hok => ?_⟩
      (.inr (.inl hcount))
    rw [hloop] at hok
    cases hok

/-- A round that leaves the cursor where it is goes on for ever. -/
lemma parseECHConfigs_stuck (hs : s ≠ [])
    (h : configRound s = .ok (ec, s)) (n : Nat) : parseECHConfigs n s = none := by
  induction n with
  | zero => exact parseECHConfigs_zero hs
  | succ n ih =>
    rw [parseECHConfigs_succ hs, h]
    dsimp only
    rw [ih]
    rfl

/-- A list of 65536 bytes behind the length 0.  Its only configuration is of another version and
announces 65532 bytes, so that the cursor moves by 0. -/
def wrappedList : Bytes :=
  u16 0 ++ (u16 (0 : UInt16).toNat ++ (u16 (0xfffc : UInt16).toNat ++ List.replicate 65532 0))

theorem wrappedList_not_terminates :
    (∀ n, parseECHConfigs n (wrappedList.drop 2) = none) ∧ ¬TerminatesExactly wrappedList := by
  have hdrop : wrappedList.drop 2 =
      u16 (0 : UInt16).toNat ++ (u16 (0xfffc : UInt16).toNat ++ replicate 65532 0) := rfl
  have hlen : (wrappedList.drop 2).length = 65536 := by
    rw [hdrop]
    simp only [length_append, length_u16, length_replicate]
  have hparse : parseECHConfig (wrappedList.drop 2) = .ok none := by
    rw [parseECHConfig, hlen, hdrop, readU16_u16_toNat]
    simp only [bind_some, readU16_u16_toNat, map_some]
    rw [if_neg (by decide), if_pos (by decide)]
  have hround := configRound_of_ok hparse
  have hstep : configStep (wrappedList.drop 2) = 0 := by
    rfl
  have hstuck := parseECHConfigs_stuck (s := wrappedList.drop 2) (by
    intro hnil
    rw [hnil] at hlen
    cases hlen) hround
  refine ⟨hstuck, fun h => ?_⟩
  have hcount : PrefixOk wrappedList := by
    have htotal : wrappedList.length - 2 = 65536 := by rw [← length_drop, hlen]
    refine ⟨0, rfl, ?_⟩
    rw [htotal]
    rfl
  obtain ⟨r, hr⟩ := h.returns
  rcases parseECHConfigList_eq wrappedList with ⟨-, hloop⟩ | ⟨hnot, -⟩
  · rw [hloop, hstuck] at hr
    cases hr
  · exact hnot hcount

/-! ## The bytes of a configuration -/

/-- `parseECHConfigFields` with what it leaves. -/
def readECHConfigFields (raw : Bytes) (version length : UInt16) (s : Bytes) :
    Option (EchConfig × Bytes) :=
  (readU8 s).bind fun (configID, s) => (readU16 s).bind fun (kemID, s) =>
  (readLP16 s).bind fun (publicKey, s) => (readLP16 s).bind fun (suites, s) =>
  (parseAll readEchCipher suites).bind fun symmetricCipherSuite =>
  (readU8 s).bind fun (maxNameLength, s) => (readLP8 s).bind fun (publicName, s) =>
  (readLP16 s).bind fun (exts, rest) => (parseAll readRawExtension exts).map fun extensions =>
    ({ raw, version, length, configID, kemID, publicKey, symmetricCipherSuite, maxNameLength,
       publicName, extensions }, rest)

/-- The fields of the configuration `ec`, written one behind the other. -/
inductive Contents (ec : EchConfig) : Bytes → Prop
  | intro {suites exts : Bytes} (hkey : ec.publicKey.length < 65536) (hsuites : suites.length < 65536)
      (hname : ec.publicName.length < 256) (hexts : exts.length < 65536)
      (suites_eq : parseAll readEchCipher suites = some ec.symmetricCipherSuite)
      (exts_eq : parseAll readRawExtension exts = some ec.extensions) :
      Contents ec (ec.configID :: (u16 ec.kemID.toNat ++ (vec16 ec.publicKey ++ (vec16 suites ++
        (ec.maxNameLength :: (vec8 ec.publicName ++ vec16 exts))))))

lemma parseECHConfigFields_eq (raw : Bytes) (version length : UInt16) (s : Bytes) :
    parseECHConfigFields raw version length s =
      (readECHConfigFields raw version length s).map Prod.fst := by
  simp only [parseECHConfigFields, readECHConfigFields, Option.map_bind, Function.comp_def,
    Option.map_map]

/-- The fields are read from their encoding, whatever stands behind it. -/
theorem readECHConfigFields_eq_some {raw : Bytes} {version length : UInt16} {ec : EchConfig} :
    readECHConfigFields raw version length s = some (ec, r) ↔
      ec.raw = raw ∧ ec.version = version ∧ ec.length = length ∧
        ∃ c, Contents ec c ∧ s = c ++ r := by
  constructor
  · intro h
    obtain ⟨⟨configID, s1⟩, h1, h⟩ := bind_eq_some_iff.mp h
    obtain ⟨⟨kemID, s2⟩, h2, h⟩ := bind_eq_some_iff.mp h
    obtain ⟨⟨key, s3⟩, h3, h⟩ := bind_eq_some_iff.mp h
    obtain ⟨⟨suites, s4⟩, h4, h⟩ := bind_eq_some_iff.mp h
    obtain ⟨ciphers, hciphers, h⟩ := bind_eq_some_iff.mp h
    obtain ⟨⟨maxName, s5⟩, h5, h⟩ := bind_eq_some_iff.mp h
    obtain ⟨⟨name, s6⟩, h6, h⟩ := bind_eq_some_iff.mp h
    obtain ⟨⟨exts, s7⟩, h7, h⟩ := bind_eq_some_iff.mp h
    obtain ⟨extensions, hextensions, h⟩ := map_eq_some_iff.mp h
    cases h
    obtain ⟨hkey, e3⟩ := readLP16_eq_vec16.mp h3
    obtain ⟨hsuites, e4⟩ := readLP16_eq_vec16.mp h4
    obtain ⟨hname, e6⟩ := readLP8_eq_vec8.mp h6
    obtain ⟨hexts, e7⟩ := readLP16_eq_vec16.mp h7
    refine ⟨rfl, rfl, rfl, _, .intro hkey hsuites hname hexts hciphers hextensions, ?_⟩
    rw [readU8_eq_some.mp h1, readU16_eq_some.mp h2, e3, e4, readU8_eq_some.mp h5, e6, e7]
    simp only [cons_append, append_assoc]
  · rintro ⟨rfl, rfl, rfl, c, ⟨hkey, hsuites, hname, hexts, hciphers, hextensions⟩, rfl⟩
    simp only [readECHConfigFields, cons_append, append_assoc, readU8, bind_some, readU16_u16_toNat,
      readLP16_eq_vec16.mpr ⟨hkey, rfl⟩, readLP16_eq_vec16.mpr ⟨hsuites, rfl⟩, hciphers,
      readLP8_eq_vec8.mpr ⟨hname, rfl⟩, readLP16_eq_vec16.mpr ⟨hexts, rfl⟩, hextensions, map_some]

/-- `parseECHConfig` on a header with enough bytes behind it. -/
lemma parseECHConfig_header {v l : UInt16} {rest : Bytes} (hlen : l.toNat ≤ rest.length) :
    parseECHConfig (u16 v.toNat ++ (u16 l.toNat ++ rest)) =
      if v ≠ extensionEncryptedClientHello then .ok none
      else
        match parseECHConfigFields ((u16 v.toNat ++ (u16 l.toNat ++ rest)).take (l + 4).toNat) v l
            rest with
        | none => .error errMalformedECHConfig
        | some ec => .ok (some ec) := by
  have hlong : ¬(u16 v.toNat ++ (u16 l.toNat ++ rest)).length < l.toNat + 4 := by
    simp only [length_append, length_u16]
    omega
  simp only [parseECHConfig, readU16_u16_toNat, bind_some, map_some]
  exact if_neg hlong

/-- Where a configuration that is returned comes from. -/
lemma parseECHConfig_some {ec : EchConfig} (h : parseECHConfig s = .ok (some ec)) :
    ∃ c r, Contents ec c ∧ ec.version = extensionEncryptedClientHello ∧
      s = u16 ec.version.toNat ++ (u16 ec.length.toNat ++ (c ++ r)) ∧
      ec.length.toNat ≤ (c ++ r).length ∧ ec.raw = s.take (ec.length + 4).toNat := by
  obtain ⟨v, l, rest, hs, hlen, ⟨-, hnone⟩ | ⟨hv, c, hc, hfields⟩⟩ := parseECHConfig_ok h
  · cases hnone
  · cases hc
    rw [parseECHConfigFields_eq] at hfields
    obtain ⟨⟨ec', r⟩, hread, rfl⟩ := map_eq_some_iff.mp hfields
    obtain ⟨hraw, rfl, rfl, c, hcontents, rfl⟩ := readECHConfigFields_eq_some.mp hread
    exact ⟨c, r, hcontents, hv, hs, hlen, hraw⟩

/-- More bytes behind a configuration do not change what is read. -/
lemma parseECHConfig_append (h : parseECHConfig s = .ok ec)
    (more : Bytes) : parseECHConfig (s ++ more) = .ok ec := by
  obtain ⟨v, l, rest, rfl, hlen, hcase⟩ := parseECHConfig_ok h
  have hlen' : l.toNat ≤ (rest ++ more).length := by
    rw [length_append]
    omega
  have hsum : (l + 4).toNat ≤ l.toNat + 4 := by
    exact Nat.mod_le _ _
  have htake : (u16 v.toNat ++ (u16 l.toNat ++ (rest ++ more))).take (l + 4).toNat =
      (u16 v.toNat ++ (u16 l.toNat ++ rest)).take (l + 4).toNat := by
    rw [← append_assoc (u16 l.toNat), ← append_assoc (u16 v.toNat)]
    refine take_append_of_le_length ?_
    simp only [length_append, length_u16]
    omega
  simp only [append_assoc]
  rw [parseECHConfig_header hlen', htake]
  rcases hcase with ⟨hv, rfl⟩ | ⟨hv, c, rfl, hfields⟩
  · exact if_pos hv
  · rw [parseECHConfigFields_eq] at hfields
    obtain ⟨⟨ec', r⟩, hread, rfl⟩ := map_eq_some_iff.mp hfields
    obtain ⟨hraw, hversion, hlength, c, hcontents, rfl⟩ := readECHConfigFields_eq_some.mp hread
    have hmore := readECHConfigFields_eq_some.mpr
      ⟨hraw, hversion, hlength, c, hcontents, append_assoc c r more⟩
    rw [if_neg (not_not.mpr hv), parseECHConfigFields_eq, hmore]
    rfl

/-! ### The announced length -/

/-- The end of a two-byte vector that starts at the position `i`. -/
def vec16End (s : Bytes) (i : Nat) : Nat :=
  i + 2 + ((s.getD i 0).toNat * 256 + (s.getD (i + 1) 0).toNat)

/-- The end of a one-byte vector that starts at the position `i`. -/
def vec8End (s : Bytes) (i : Nat) : Nat := i + 1 + (s.getD i 0).toNat

/-- The number of bytes that the fields of a configuration take, by the lengths in front of them:
an identifier of one byte and one of two, the public key, the cipher suites, one byte, the public
name and the extensions. -/
def fieldsEnd (s : Bytes) : Nat :=
  vec16End s (vec8End s (vec16End s (vec16End s 3) + 1))

lemma getD_append_add (p q : Bytes) (i : Nat) (x : UInt8) :
    (p ++ q).getD (p.length + i) x = q.getD i x := by
  rw [getD_eq_getElem?_getD, getElem?_append_right (Nat.le_add_right _ _),
    Nat.add_sub_cancel_left, getD_eq_getElem?_getD]

lemma vec16End_eq {p b : Bytes} {i : Nat} (hs : s = p ++ (vec16 b ++ r)) (hi : p.length = i)
    (hb : b.length < 65536) : vec16End s i = i + (2 + b.length) := by
  subst hs hi
  have hvalue := value_u16 hb
  have hfst := getD_append_add p (vec16 b ++ r) 0 0
  have hsnd := getD_append_add p (vec16 b ++ r) 1 0
  change _ = UInt8.ofNat (b.length / 256) at hfst
  change _ = UInt8.ofNat b.length at hsnd
  rw [vec16End, hsnd, ← Nat.add_zero p.length, hfst]
  omega

lemma vec8End_eq {p b : Bytes} {i : Nat} (hs : s = p ++ (vec8 b ++ r)) (hi : p.length = i)
    (hb : b.length < 256) : vec8End s i = i + (1 + b.length) := by
  subst hs hi
  have hfst := getD_append_add p (vec8 b ++ r) 0 0
  change _ = UInt8.ofNat b.length at hfst
  have hvalue : (UInt8.ofNat b.length).toNat = b.length := by
    rw [UInt8.toNat_ofNat']
    omega
  rw [vec8End, ← Nat.add_zero p.length, hfst, hvalue]
  omega

lemma Contents.fieldsEnd_eq {ec : EchConfig} {c : Bytes} (h : Contents ec c) (r : Bytes) :
    fieldsEnd (c ++ r) = c.length := by
  obtain @⟨suites, exts, hkey, hsuites, hname, hexts, -, -⟩ := h
  -- the position behind each field, with everything in front of the field as one string
  have h1 := vec16End_eq (p := ec.configID :: u16 ec.kemID.toNat) (i := 3)
    (r := vec16 suites ++ (ec.maxNameLength :: (vec8 ec.publicName ++ (vec16 exts ++ r))))
    rfl rfl hkey
  have h2 := vec16End_eq (p := ec.configID :: (u16 ec.kemID.toNat ++ vec16 ec.publicKey))
    (i := 3 + (2 + ec.publicKey.length))
    (r := ec.maxNameLength :: (vec8 ec.publicName ++ (vec16 exts ++ r)))
    rfl (by simp; omega) hsuites
  have h3 := vec8End_eq (p := ec.configID :: (u16 ec.kemID.toNat ++ (vec16 ec.publicKey ++
      (vec16 suites ++ [ec.maxNameLength]))))
    (i := 3 + (2 + ec.publicKey.length) + (2 + suites.length) + 1) (r := vec16 exts ++ r)
    rfl (by simp; omega) hname
  have h4 := vec16End_eq (p := ec.configID :: (u16 ec.kemID.toNat ++ (vec16 ec.publicKey ++
      (vec16 suites ++ (ec.maxNameLength :: vec8 ec.publicName)))))
    (i := 3 + (2 + ec.publicKey.length) + (2 + suites.length) + 1 + (1 + ec.publicName.length))
    (r := r) rfl (by simp; omega) hexts
  simp only [cons_append, append_assoc, nil_append] at h1 h2 h3 h4 ⊢
  rw [fieldsEnd, h1, h2, h3, h4]
  simp only [length_cons, length_append, length_u16, length_vec16, length_vec8]
  omega

/-- The configuration at the front of `s` is read from its own bytes: its raw bytes are the header
and as many bytes as the header announces, and its fields are what those bytes encode, with nothing
left over. -/
structure OwnBytes (s : Bytes) (ec : EchConfig) : Prop where
  header : s.take 4 = u16 ec.version.toNat ++ u16 ec.length.toNat
  raw_eq : ec.raw = s.take (4 + ec.length.toNat)
  fields : readECHConfigFields ec.raw ec.version ec.length ((s.drop 4).take ec.length.toNat) =
    some (ec, [])

/-- The announced length is the one of the fields, and the length of the raw bytes fits sixteen
bits. -/
structure LengthExact (s : Bytes) : Prop where
  fits : announcedLength s + 4 < 65536
  exact_fields : fieldsEnd (s.drop 4) = announcedLength s

theorem ownBytes_iff {ec : EchConfig} (h : parseECHConfig s = .ok (some ec)) :
    OwnBytes s ec ↔ LengthExact s := by
  obtain ⟨c, r, hcontents, -, hs, hlen, hraw⟩ := parseECHConfig_some h
  have hannounced : announcedLength s = ec.length.toNat := by rw [hs, announcedLength_header]
  have hdrop : s.drop 4 = c ++ r := by rw [hs]; rfl
  have hend : fieldsEnd (s.drop 4) = c.length := by rw [hdrop, hcontents.fieldsEnd_eq]
  have hsize : s.length = 4 + (c ++ r).length := by
    rw [hs]
    simp only [length_append, length_u16]
    omega
  constructor
  · rintro ⟨-, hraw', hfields⟩
    refine ⟨?_, ?_⟩
    · -- a sum that wraps would cut the raw bytes off
      rw [hraw] at hraw'
      have hcut := congrArg List.length hraw'
      rw [length_take, length_take, UInt16.toNat_add] at hcut
      omega
    · obtain ⟨-, -, -, c', hcontents', heq⟩ := readECHConfigFields_eq_some.mp hfields
      rw [append_nil, hdrop] at heq
      -- the same fields have the same encoding length, and these bytes are a part of the list
      have hc' := hcontents'.fieldsEnd_eq ((c ++ r).drop ec.length.toNat)
      rw [← heq, take_append_drop, hcontents.fieldsEnd_eq] at hc'
      rw [hend, hannounced, hc', length_take]
      omega
  · rintro ⟨hfits, hexact⟩
    rw [hend, hannounced] at hexact
    have hsum : (ec.length + 4).toNat = 4 + ec.length.toNat := by
      change (ec.length.toNat + 4) % 65536 = _
      omega
    refine ⟨by rw [hs]; rfl, by rw [hraw, hsum], ?_⟩
    rw [hdrop, ← hexact, take_left]
    exact readECHConfigFields_eq_some.mpr ⟨rfl, rfl, rfl, c, hcontents, (append_nil c).symm⟩

/-! ### Whole lists -/

/-- Every returned configuration of the list is read from its own bytes. -/
def ReadsOwnBytes (data : Bytes) (configs : List EchConfig) : Prop :=
  ∃ l, Walk (data.drop 2) l [] ∧ configs = l.filterMap Prod.snd ∧
    ∀ s ec, (s, some ec) ∈ l → OwnBytes s ec

/-- Configurations that are appended to the list do not change those in front of them. -/
def AppendStable (data : Bytes) (configs : List EchConfig) : Prop :=
  ∀ more configs', parseECHConfigList (u16 (data.drop 2 ++ more).length ++ (data.drop 2 ++ more)) =
    some (.ok configs') → configs <+: configs'

/-- Every configuration of the version that is not skipped, at whatever cursor the rounds reach,
announces the length of its fields. -/
def LengthsExact (data : Bytes) : Prop :=
  ∀ l, Walk (data.drop 2) l [] → ∀ p ∈ l,
    p.1.take 2 = u16 extensionEncryptedClientHello.toNat → LengthExact p.1

lemma Walk.unique {l' : List (Bytes × Option EchConfig)} (h : Walk s l [])
    (h' : Walk s l' []) : l = l' := by
  induction l generalizing s l' with
  | nil =>
    cases h
    cases h' with
    | nil => rfl
    | cons hs _ _ => exact absurd rfl hs
  | cons p l ih =>
    cases h with
    | cons hs head rest =>
      cases h' with
      | nil => exact absurd rfl hs
      | cons _ head' rest' =>
        rw [head] at head'
        cases head'
        rw [ih rest rest']

/-- What the rounds of a walk found at their cursors. -/
lemma Walk.parse_mem (h : Walk s l t)
    {p : Bytes × Option EchConfig} (hp : p ∈ l) : parseECHConfig p.1 = .ok p.2 := by
  induction h with
  | nil => cases hp
  | cons _ head _ ih =>
    rcases mem_cons.mp hp with rfl | hp
    · exact (configRound_ok head).1
    · exact ih hp

/-- A round is the same with more bytes behind the list. -/
lemma configRound_append (h : configRound s = .ok (ec, r)) (more : Bytes):
    configRound (s ++ more) = .ok (ec, r ++ more) := by
  obtain ⟨hparse, rfl⟩ := configRound_ok h
  obtain ⟨v, l, rest, rfl, hlen, -⟩ := parseECHConfig_ok hparse
  have hround := configRound_of_ok (parseECHConfig_append hparse more)
  have hstep : (l + 4).toNat ≤ (u16 v.toNat ++ (u16 l.toNat ++ rest)).length := by
    have hsum : (l + 4).toNat ≤ l.toNat + 4 := by
      exact Nat.mod_le _ _
    simp only [length_append, length_u16]
    omega
  rw [configStep_header, ← drop_append_of_le_length hstep]
  simp only [append_assoc] at hround ⊢
  rwa [configStep_header] at hround

/-- The configurations at the front of a longer list. -/
lemma Walk.append_configs (h : Walk s l t) (more : Bytes) {out : List EchConfig}
    (hout : parseECHConfigs n (s ++ more) = some (.ok out)) : l.filterMap Prod.snd <+: out := by
  induction h generalizing n out with
  | nil => exact nil_prefix
  | @cons s r t ec l hs head _ ih =>
    have hne : s ++ more ≠ [] := by simp [hs]
    cases n with
    | zero =>
      rw [parseECHConfigs_zero hne] at hout
      cases hout
    | succ n =>
      rw [parseECHConfigs_succ hne, configRound_append head more] at hout
      obtain ⟨res, hres, hmap⟩ := map_eq_some_iff.mp hout
      cases res with
      | error e => cases hmap
      | ok rest =>
        obtain rfl := Except.ok.inj hmap
        have hcons : ((s, ec) :: l).filterMap Prod.snd = ec.toList ++ l.filterMap Prod.snd := by
          cases ec with
          | none => rfl
          | some c => rfl
        rw [hcons]
        exact (prefix_append_right_inj _).mpr (ih hres)

/-- Of a list that is accepted, appending never changes the configurations; and they are read from
their own bytes exactly if each announces the length of its fields. -/
theorem parse_ownBytes_iff {data : Bytes} {configs : List EchConfig}
    (h : parseECHConfigList data = some (.ok configs)) :
    ReadsOwnBytes data configs ∧ AppendStable data configs ↔ LengthsExact data := by
  rcases parseECHConfigList_eq data with ⟨-, hloop⟩ | ⟨-, hloop⟩
  swap
  · rw [hloop] at h
    cases h
  rw [hloop] at h
  obtain ⟨l, hwalk, -, hconfigs⟩ := walk_of_parseECHConfigs h
  have hstable : AppendStable data configs := by
    intro more configs' hmore
    rcases parseECHConfigList_eq (u16 (data.drop 2 ++ more).length ++ (data.drop 2 ++ more)) with
      ⟨-, hloop'⟩ | ⟨-, hloop'⟩
    · rw [hloop'] at hmore
      rw [hconfigs]
      exact hwalk.append_configs more hmore
    · rw [hloop'] at hmore
      cases hmore
  rw [and_iff_left hstable]
  constructor
  · rintro ⟨l1, hwalk1, -, hown⟩ l2 hwalk2 ⟨s, ec⟩ hp hversion
    have hparse := hwalk2.parse_mem hp
    rw [hwalk2.unique hwalk1] at hp
    cases ec with
    | none =>
      -- a configuration of this version is not skipped
      obtain ⟨v, len, rest, hs, -, ⟨hv, -⟩ | ⟨-, c, hc, -⟩⟩ := parseECHConfig_ok hparse
      · refine absurd ?_ hv
        rw [hs] at hversion
        have hread := readU16_u16_toNat v []
        rw [append_nil, show u16 v.toNat = _ from hversion] at hread
        have hread' := readU16_u16_toNat extensionEncryptedClientHello []
        rw [append_nil, hread] at hread'
        exact (Prod.mk.inj (some.inj hread')).1
      · cases hc
    | some c => exact (ownBytes_iff hparse).mp (hown s c hp)
  · intro hexact
    refine ⟨l, hwalk, hconfigs, fun s ec hmem => ?_⟩
    have hparse := hwalk.parse_mem hmem
    refine (ownBytes_iff hparse).mpr (hexact l hwalk _ hmem ?_)
    obtain ⟨c, r, -, hv, hs, -⟩ := parseECHConfig_some hparse
    rw [hs, hv]
    rfl

/-- A list with one configuration whose fields are those of an empty key, no suites, an empty name
and no extensions. -/
def smallList : Bytes :=
  [0, 15, 0xfe, 0x0d, 0, 11, 1, 0, 0x20, 0, 0, 0, 0, 0, 0, 0, 0]

/-- The same bytes with the announced length 3: the other eight bytes are two configurations of
another version. -/
def shortLengthList : Bytes :=
  [0, 15, 0xfe, 0x0d, 0, 3, 1, 0, 0x20, 0, 0, 0, 0, 0, 0, 0, 0]

/-- The configuration that is returned for both lists, with its raw bytes. -/
def smallConfig (raw : Bytes) (length : UInt16) : EchConfig where
  raw := raw
  version := extensionEncryptedClientHello
  length := length
  configID := 1
  kemID := 0x20
  publicKey := []
  symmetricCipherSuite := []
  maxNameLength := 0
  publicName := []
  extensions := []

theorem smallList_ownBytes :
    ReadsOwnBytes smallList [smallConfig (smallList.drop 2) 11] ∧
      AppendStable smallList [smallConfig (smallList.drop 2) 11] := by
  refine (parse_ownBytes_iff (by decide +kernel)).mpr fun l hwalk p hp _ => ?_
  have hround : configRound (smallList.drop 2) =
      .ok (some (smallConfig (smallList.drop 2) 11), []) := by decide +kernel
  rw [hwalk.unique (.cons (by decide) hround .nil)] at hp
  obtain rfl := mem_singleton.mp hp
  exact ⟨by decide, by decide⟩

/-- The configuration of the second list has raw bytes that end before its fields do. -/
theorem shortLengthList_foreignBytes :
    parseECHConfigList shortLengthList =
      some (.ok [smallConfig [0xfe, 0x0d, 0, 3, 1, 0, 0x20] 3]) ∧
    ¬ReadsOwnBytes shortLengthList [smallConfig [0xfe, 0x0d, 0, 3, 1, 0, 0x20] 3] := by
  refine ⟨by decide +kernel, ?_⟩
  rintro ⟨l, hwalk, -, hown⟩
  have hfst : configRound (shortLengthList.drop 2) =
      .ok (some (smallConfig [0xfe, 0x0d, 0, 3, 1, 0, 0x20] 3), replicate 8 0) := by
    decide +kernel
  cases hwalk with
  | cons _ head _ =>
    rw [hfst] at head
    cases head
    have hexact := (ownBytes_iff (configRound_ok hfst).1).mp (hown _ _ mem_cons_self)
    have hfields := hexact.exact_fields
    revert hfields
    decide

end Utls
