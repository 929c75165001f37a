import Utls.Lib.Removal
import Utls.Lib.Swaps
import Utls.Types

/-!
# The cipher suites of a randomized ClientHello

`shuffledCiphers` orders the suites of the package by a random permutation, those that are only for
TLS 1.2 first; `removeRC4Ciphers` and `removeRandomCiphers` then cut suites out of the list in place.

The generator is a stream of draws.  A draw says what it gives for every way it may be asked: as a
coin of a weight, as a number below a bound, as a permutation or as the swaps of a shuffle.  A
program's state is the number of draws it has made, so that the k-th draw is the same whatever was
asked before.
-/

namespace Utls

open Exec List

/-! ## The generator -/

/-- What the generator gives at one draw. -/
structure Draw where
  coin : Float → Bool
  intn : Nat → Nat
  perm : Nat → List Nat
  swaps : Nat → List (Nat × Nat)
  intn_lt : ∀ n, 0 < n → intn n < n
  perm_range : ∀ n, (perm n).Perm (List.range n)

/-- `prng`: a stream of draws. -/
abbrev Prng := Nat → Draw

/-- A program that draws; its state is the number of draws so far. -/
abbrev Drawing (α : Type) := Prog String Nat α

variable (r : Prng)

/-- The next draw. -/
def Prng.next : Drawing Draw := do
  let k ← get
  set (k + 1)
  pure (r k)

/-- `FlipWeightedCoin`. -/
def Prng.flipWeightedCoin (weight : Float) : Drawing Bool := do
  let d ← r.next
  pure (d.coin weight)

/-- `Intn`. -/
def Prng.intn (n : Nat) : Drawing Nat := do
  let d ← r.next
  pure (d.intn n)

/-- `Perm`. -/
def Prng.perm (n : Nat) : Drawing (List Nat) := do
  let d ← r.next
  pure (d.perm n)

/-- `rand.Shuffle` of a slice, by exchanging elements of it. -/
def Prng.shuffle {α : Type} (l : List α) : Drawing (List α) := do
  let d ← r.next
  pure (Swaps.swapAll (d.swaps l.length) l)

@[simp] lemma Prng.run_flipWeightedCoin (weight : Float) (k : Nat) :
    r.flipWeightedCoin weight k = .ok ((r k).coin weight) (k + 1) := rfl

@[simp] lemma Prng.run_intn (n k : Nat) : r.intn n k = .ok ((r k).intn n) (k + 1) := rfl

@[simp] lemma Prng.run_perm (n k : Nat) : r.perm n k = .ok ((r k).perm n) (k + 1) := rfl

@[simp] lemma Prng.run_shuffle {α : Type} (l : List α) (k : Nat) :
    r.shuffle l k = .ok (Swaps.swapAll ((r k).swaps l.length) l) (k + 1) := rfl

/-! ## The suites of the package -/

def suiteECDHE : Nat := 1
def suiteECSign : Nat := 2
def suiteTLS12 : Nat := 4
def suiteSHA384 : Nat := 8

/-- A `cipherSuite`, as far as it is read here. -/
structure CipherSuite where
  id : UInt16
  flags : Nat

def TLS_RSA_WITH_RC4_128_SHA : UInt16 := 0x0005
def TLS_RSA_WITH_3DES_EDE_CBC_SHA : UInt16 := 0x000a
def TLS_RSA_WITH_AES_128_CBC_SHA : UInt16 := 0x002f
def TLS_RSA_WITH_AES_256_CBC_SHA : UInt16 := 0x0035
def TLS_RSA_WITH_AES_128_CBC_SHA256 : UInt16 := 0x003c
def TLS_RSA_WITH_AES_128_GCM_SHA256 : UInt16 := 0x009c
def TLS_RSA_WITH_AES_256_GCM_SHA384 : UInt16 := 0x009d
def TLS_ECDHE_ECDSA_WITH_RC4_128_SHA : UInt16 := 0xc007
def TLS_ECDHE_ECDSA_WITH_AES_128_CBC_SHA : UInt16 := 0xc009
def TLS_ECDHE_ECDSA_WITH_AES_256_CBC_SHA : UInt16 := 0xc00a
def TLS_ECDHE_RSA_WITH_RC4_128_SHA : UInt16 := 0xc011
def TLS_ECDHE_RSA_WITH_3DES_EDE_CBC_SHA : UInt16 := 0xc012
def TLS_ECDHE_RSA_WITH_AES_128_CBC_SHA : UInt16 := 0xc013
def TLS_ECDHE_RSA_WITH_AES_256_CBC_SHA : UInt16 := 0xc014
def TLS_ECDHE_ECDSA_WITH_AES_128_CBC_SHA256 : UInt16 := 0xc023
def TLS_ECDHE_RSA_WITH_AES_128_CBC_SHA256 : UInt16 := 0xc027
def TLS_ECDHE_RSA_WITH_AES_128_GCM_SHA256 : UInt16 := 0xc02f
def TLS_ECDHE_ECDSA_WITH_AES_128_GCM_SHA256 : UInt16 := 0xc02b
def TLS_ECDHE_RSA_WITH_AES_256_GCM_SHA384 : UInt16 := 0xc030
def TLS_ECDHE_ECDSA_WITH_AES_256_GCM_SHA384 : UInt16 := 0xc02c
def TLS_ECDHE_RSA_WITH_CHACHA20_POLY1305 : UInt16 := 0xcca8
def TLS_ECDHE_ECDSA_WITH_CHACHA20_POLY1305 : UInt16 := 0xcca9
def TLS_AES_128_GCM_SHA256 : UInt16 := 0x1301
def TLS_AES_256_GCM_SHA384 : UInt16 := 0x1302
def TLS_CHACHA20_POLY1305_SHA256 : UInt16 := 0x1303

/-- The table `cipherSuites`. -/
def cipherSuites : List CipherSuite :=
  [⟨TLS_ECDHE_RSA_WITH_CHACHA20_POLY1305, suiteECDHE ||| suiteTLS12⟩,
    ⟨TLS_ECDHE_ECDSA_WITH_CHACHA20_POLY1305, suiteECDHE ||| suiteECSign ||| suiteTLS12⟩,
    ⟨TLS_ECDHE_RSA_WITH_AES_128_GCM_SHA256, suiteECDHE ||| suiteTLS12⟩,
    ⟨TLS_ECDHE_ECDSA_WITH_AES_128_GCM_SHA256, suiteECDHE ||| suiteECSign ||| suiteTLS12⟩,
    ⟨TLS_ECDHE_RSA_WITH_AES_256_GCM_SHA384, suiteECDHE ||| suiteTLS12 ||| suiteSHA384⟩,
    ⟨TLS_ECDHE_ECDSA_WITH_AES_256_GCM_SHA384,
      suiteECDHE ||| suiteECSign ||| suiteTLS12 ||| suiteSHA384⟩,
    ⟨TLS_ECDHE_RSA_WITH_AES_128_CBC_SHA256, suiteECDHE ||| suiteTLS12⟩,
    ⟨TLS_ECDHE_RSA_WITH_AES_128_CBC_SHA, suiteECDHE⟩,
    ⟨TLS_ECDHE_ECDSA_WITH_AES_128_CBC_SHA256, suiteECDHE ||| suiteECSign ||| suiteTLS12⟩,
    ⟨TLS_ECDHE_ECDSA_WITH_AES_128_CBC_SHA, suiteECDHE ||| suiteECSign⟩,
    ⟨TLS_ECDHE_RSA_WITH_AES_256_CBC_SHA, suiteECDHE⟩,
    ⟨TLS_ECDHE_ECDSA_WITH_AES_256_CBC_SHA, suiteECDHE ||| suiteECSign⟩,
    ⟨TLS_RSA_WITH_AES_128_GCM_SHA256, suiteTLS12⟩,
    ⟨TLS_RSA_WITH_AES_256_GCM_SHA384, suiteTLS12 ||| suiteSHA384⟩,
    ⟨TLS_RSA_WITH_AES_128_CBC_SHA256, suiteTLS12⟩,
    ⟨TLS_RSA_WITH_AES_128_CBC_SHA, 0⟩,
    ⟨TLS_RSA_WITH_AES_256_CBC_SHA, 0⟩,
    ⟨TLS_ECDHE_RSA_WITH_3DES_EDE_CBC_SHA, suiteECDHE⟩,
    ⟨TLS_RSA_WITH_3DES_EDE_CBC_SHA, 0⟩,
    ⟨TLS_RSA_WITH_RC4_128_SHA, 0⟩,
    ⟨TLS_ECDHE_RSA_WITH_RC4_128_SHA, suiteECDHE⟩,
    ⟨TLS_ECDHE_ECDSA_WITH_RC4_128_SHA, suiteECDHE ||| suiteECSign⟩]

/-- `defaultCipherSuitesTLS13`. -/
def defaultCipherSuitesTLS13 : List UInt16 :=
  [TLS_AES_128_GCM_SHA256, TLS_AES_256_GCM_SHA384, TLS_CHACHA20_POLY1305_SHA256]

/-! ## The shuffled suites -/

/-- A `sortableCipher`. -/
structure SortableCipher where
  isObsolete : Bool
  randomTag : Nat
  suite : UInt16

/-- `Less`. -/
def SortableCipher.less (a b : SortableCipher) : Bool :=
  if a.isObsolete && !b.isObsolete then false
  else if b.isObsolete && !a.isObsolete then true
  else a.randomTag < b.randomTag

/-- `sort.Sort`: some arrangement in which no element is less than one before it. -/
structure Sorting where
  sort : List SortableCipher → List SortableCipher
  perm : ∀ l, (sort l).Perm l
  sorted : ∀ l, (sort l).Pairwise fun a b => b.less a = false

/-- The entries that `shuffledCiphers` sorts. -/
def sortableCiphers (perm : List Nat) : List SortableCipher :=
  (cipherSuites.zip perm).map fun entry =>
    ⟨entry.1.flags &&& suiteTLS12 == 0, entry.2, entry.1.id⟩

/-- `shuffledCiphers`. -/
def shuffledCiphers (S : Sorting) (r : Prng) : Drawing (List UInt16) := do
  let perm ← r.perm cipherSuites.length
  pure ((S.sort (sortableCiphers perm)).map (·.suite))

/-! ## The removal loops -/

/-- The suites that `removeRC4Ciphers` removes. -/
def isRC4 (cipher : UInt16) : Bool :=
  cipher == TLS_ECDHE_ECDSA_WITH_RC4_128_SHA || cipher == TLS_ECDHE_RSA_WITH_RC4_128_SHA ||
    cipher == TLS_RSA_WITH_RC4_128_SHA

/-- The loop of `removeRC4Ciphers`, with the suites it looks at. -/
def removeRC4Loop (s : List UInt16) : Drawing (List UInt16 × List UInt16) :=
  Removal.loop (fun _ cipher => pure (isRC4 cipher)) (s.length + 1) s 0 s.length

/-- `removeRC4Ciphers`. -/
def removeRC4Ciphers (s : List UInt16) : Drawing (List UInt16) := do
  let out ← removeRC4Loop s
  pure out.1

/-- The coin of `removeRandomCiphers` for the suite at `i` of a list of `n`. -/
def Prng.removalCoin (maxRemovalProbability : Float) (n i : Nat) : Drawing Bool :=
  r.flipWeightedCoin (maxRemovalProbability * Float.ofNat i / Float.ofNat n)

/-- The loop of `removeRandomCiphers`, with the suites it flips a coin for. -/
def removeRandomLoop (s : List UInt16) (maxRemovalProbability : Float) :
    Drawing (List UInt16 × List UInt16) :=
  if s.length ≤ 1 then pure (s, [])
  else
    Removal.loop (fun i _ => r.removalCoin maxRemovalProbability s.length i) (s.length + 1) s 1
      s.length

/-- `removeRandomCiphers`. -/
def removeRandomCiphers (s : List UInt16) (maxRemovalProbability : Float) :
    Drawing (List UInt16) := do
  let out ← removeRandomLoop r s maxRemovalProbability
  pure out.1


lemma removeRC4Loop_eq (s : List UInt16) :
    removeRC4Loop s = pure (s.filter fun cipher => !isRC4 cipher, s) := by
  have hloop := Removal.loop_eq (ε := String) (σ := Nat) (fun _ cipher => pure (isRC4 cipher)) s
    (s.length + 1) [] (Nat.lt_succ_self _)
  rw [Removal.keep_pure, pure_bind] at hloop
  exact hloop

/-- One coin is flipped for every suite but the first, which stays. -/
lemma removeRandomLoop_ok (s : List UInt16) (w : Float) (k : Nat) :
    ∃ kept, removeRandomLoop r s w k = .ok (kept, s.tail) (k + (s.length - 1)) ∧
      kept.Sublist s ∧ kept.head? = s.head? := by
  match s with
  | [] => exact ⟨[], rfl, .slnil, rfl⟩
  | [x] => exact ⟨[x], rfl, .refl _, rfl⟩
  | x :: y :: rest =>
    have hcoin : ∀ (i : Nat) (_ : UInt16) (k : Nat), ∃ gone,
        r.removalCoin w (x :: y :: rest).length i k = .ok gone (Nat.succ k) :=
      fun i _ k => ⟨_, r.run_flipWeightedCoin _ k⟩
    obtain ⟨kept, hkept, hsub⟩ := Removal.keep_sublist hcoin (y :: rest) 1 k
    rw [Nat.succ_iterate] at hkept
    refine ⟨x :: kept, ?_, hsub.cons_cons x, rfl⟩
    have hlong : ¬(x :: y :: rest).length ≤ 1 := by simp
    have hloop := Removal.loop_eq (fun i _ => r.removalCoin w (x :: y :: rest).length i) (y :: rest)
      ((x :: y :: rest).length + 1) [x] (by simp)
    rw [removeRandomLoop, if_neg hlong]
    refine (congrFun hloop k).trans ?_
    exact Exec.bind_eq_ok.mpr ⟨kept, _, hkept, rfl⟩

lemma removeRC4Ciphers_eq (s : List UInt16) :
    removeRC4Ciphers s = pure (s.filter fun cipher => !isRC4 cipher) := by
  rw [removeRC4Ciphers, removeRC4Loop_eq, pure_bind]

lemma removeRandomCiphers_ok (s : List UInt16) (w : Float) (k : Nat) :
    ∃ kept, removeRandomCiphers r s w k = .ok kept (k + (s.length - 1)) ∧
      kept.Sublist s ∧ kept.head? = s.head? := by
  obtain ⟨kept, hkept, hsub, hhead⟩ := removeRandomLoop_ok r s w k
  exact ⟨kept, Exec.bind_eq_ok.mpr ⟨_, _, hkept, rfl⟩, hsub, hhead⟩

/-! ## What the lists are made of -/

/-- The suites that are only for TLS 1.2. -/
def isTLS12Only (cipher : UInt16) : Bool :=
  cipherSuites.any fun suite => suite.id == cipher && !(suite.flags &&& suiteTLS12 == 0)

/-- The suites of the package without that flag, TLS 1.3 suites aside. -/
def isLegacy (cipher : UInt16) : Bool :=
  cipherSuites.any fun suite => suite.id == cipher && suite.flags &&& suiteTLS12 == 0

/-- The TLS 1.3 suites. -/
def isTLS13Suite (cipher : UInt16) : Bool := cipherSuitesTLS13.any fun suite => suite.id == cipher

/-- No element with `q` stands before one with `p`. -/
def AllBefore (p q : UInt16 → Bool) (l : List UInt16) : Prop :=
  l.Pairwise fun a b => ¬(q a = true ∧ p b = true)

variable {l l' : List UInt16}

lemma AllBefore.sublist {p q : UInt16 → Bool} (h : AllBefore p q l)
    (hsub : l'.Sublist l) : AllBefore p q l' :=
  List.Pairwise.sublist hsub h

lemma AllBefore.append {p q : UInt16 → Bool} (hl : ∀ a ∈ l, q a = false)
    (h : AllBefore p q l') : AllBefore p q (l ++ l') := by
  have hfront : ∀ a ∈ l, ∀ b, ¬(q a = true ∧ p b = true) := fun a ha b => by simp [hl a ha]
  refine pairwise_append.mpr ⟨?_, h, fun a ha b _ => hfront a ha b⟩
  exact pairwise_of_forall_mem_list fun a ha b _ => hfront a ha b

lemma cipherSuites_nodup : (cipherSuites.map (·.id)).Nodup := by decide

/-- The flag of a sortable entry is the one of its suite. -/
lemma isObsolete_of_mem {perm : List Nat} {c : SortableCipher} (h : c ∈ sortableCiphers perm) :
    c.isObsolete = isLegacy c.suite ∧ c.isObsolete = !isTLS12Only c.suite := by
  have htable : ∀ suite ∈ cipherSuites,
      (suite.flags &&& suiteTLS12 == 0) = isLegacy suite.id ∧
        (suite.flags &&& suiteTLS12 == 0) = !isTLS12Only suite.id := by
    decide
  obtain ⟨entry, hentry, rfl⟩ := List.mem_map.mp h
  exact htable entry.1 (of_mem_zip hentry).1

lemma map_suite_sortableCiphers {perm : List Nat} (h : cipherSuites.length ≤ perm.length) :
    (sortableCiphers perm).map (·.suite) = cipherSuites.map (·.id) := by
  calc (sortableCiphers perm).map (·.suite)
      = ((cipherSuites.zip perm).map Prod.fst).map (·.id) := by
        simp [sortableCiphers, Function.comp_def]
    _ = cipherSuites.map (·.id) := by rw [map_fst_zip h]

/-- The shuffled suites: those of the package, in an order in which the ones that are only for TLS 1.2
come first. -/
lemma shuffledCiphers_ok (S : Sorting) (r : Prng) (k : Nat) :
    ∃ l, shuffledCiphers S r k = .ok l (k + 1) ∧ l.Perm (cipherSuites.map (·.id)) ∧
      AllBefore isTLS12Only isLegacy l := by
  set perm := (r k).perm cipherSuites.length
  have hlen : perm.length = cipherSuites.length := by
    rw [((r k).perm_range cipherSuites.length).length_eq, length_range]
  refine ⟨_, rfl, ?_, ?_⟩
  · rw [← map_suite_sortableCiphers hlen.ge]
    exact (S.perm _).map _
  · refine pairwise_map.mpr ((S.sorted _).imp_of_mem ?_)
    rintro a b ha hb hless ⟨hlegacy, honly⟩
    -- an obsolete suite before one that is not is a pair that is out of order
    have ha' : a.isObsolete = true := by
      rw [(isObsolete_of_mem ((S.perm _).mem_iff.mp ha)).1, hlegacy]
    have hb' : b.isObsolete = false := by
      rw [(isObsolete_of_mem ((S.perm _).mem_iff.mp hb)).2, honly, Bool.not_true]
    simp [SortableCipher.less, ha', hb'] at hless

/-- What is promised of the suites of a spec whose highest version is `tlsVersMax`. -/
structure GoodCiphers (tlsVersMax : UInt16) (suites : List UInt16) : Prop where
  ne_nil : suites ≠ []
  nodup : suites.Nodup
  known : ∀ cipher ∈ suites, cipher ∈ cipherSuites.map (·.id) ∨ isTLS13Suite cipher = true
  tls12First : AllBefore isTLS12Only isLegacy suites
  tls13Head : tlsVersMax = VersionTLS13 → suites.head?.any isTLS13Suite = true
  tls13First : tlsVersMax = VersionTLS13 →
    AllBefore isTLS13Suite (fun cipher => !isTLS13Suite cipher) suites
  noRC4 : tlsVersMax = VersionTLS13 → ∀ cipher ∈ suites, isRC4 cipher = false

/-- Removing suites other than the first keeps the promises. -/
lemma GoodCiphers.sublist {v : UInt16} (h : GoodCiphers v l)
    (hsub : l'.Sublist l) (hhead : l'.head? = l.head?) : GoodCiphers v l' where
  ne_nil hnil := by
    rw [hnil, head?_nil] at hhead
    exact h.ne_nil (head?_eq_none_iff.mp hhead.symm)
  nodup := h.nodup.sublist hsub
  known cipher hc := h.known cipher (hsub.subset hc)
  tls12First := h.tls12First.sublist hsub
  tls13Head hv := hhead ▸ h.tls13Head hv
  tls13First hv := (h.tls13First hv).sublist hsub
  noRC4 hv cipher hc := h.noRC4 hv cipher (hsub.subset hc)

/-- The list for TLS 1.2. -/
lemma goodCiphers_tls12 (hperm : l.Perm (cipherSuites.map (·.id)))
    (hfirst : AllBefore isTLS12Only isLegacy l) : GoodCiphers VersionTLS12 l where
  ne_nil hnil := by
    rw [hnil] at hperm
    cases hperm.length_eq
  nodup := hperm.nodup_iff.mpr cipherSuites_nodup
  known _ hc := .inl (hperm.mem_iff.mp hc)
  tls12First := hfirst
  tls13Head hv := absurd hv (by decide)
  tls13First hv := absurd hv (by decide)
  noRC4 hv := absurd hv (by decide)

/-- The list for TLS 1.3: its own suites in any order, then the others without the RC4 suites. -/
lemma goodCiphers_tls13 {t : List UInt16} (ht : t.Perm defaultCipherSuitesTLS13)
    (hperm : l.Perm (cipherSuites.map (·.id))) (hfirst : AllBefore isTLS12Only isLegacy l) :
    GoodCiphers VersionTLS13 ((t ++ l).filter fun cipher => !isRC4 cipher) := by
  have hnew : (defaultCipherSuitesTLS13.all fun cipher =>
      isTLS13Suite cipher && !isLegacy cipher && !isRC4 cipher) = true := by decide
  have hold : ((cipherSuites.map (·.id)).all fun cipher => !isTLS13Suite cipher) = true := by decide
  have htall : ∀ cipher ∈ t,
      (isTLS13Suite cipher = true ∧ isLegacy cipher = false) ∧ isRC4 cipher = false :=
    fun cipher hc => by simpa using List.all_eq_true.mp hnew cipher (ht.mem_iff.mp hc)
  have ht13 : ∀ cipher ∈ t, isTLS13Suite cipher = true := fun cipher hc => (htall cipher hc).1.1
  have hl : ∀ cipher ∈ l, isTLS13Suite cipher = false :=
    fun cipher hc => by simpa using List.all_eq_true.mp hold cipher (hperm.mem_iff.mp hc)
  have hfilter : (t ++ l).filter (fun cipher => !isRC4 cipher) =
      t ++ l.filter fun cipher => !isRC4 cipher := by
    rw [filter_append, filter_eq_self.mpr fun cipher hc => by simp [(htall cipher hc).2]]
  have hsub : (l.filter fun cipher => !isRC4 cipher).Sublist l := filter_sublist
  have hall : ((t ++ l).filter fun cipher => !isRC4 cipher).Sublist (t ++ l) := filter_sublist
  refine ⟨?_, ?_, ?_, ?_, fun _ => ?_, fun _ => ?_, fun _ cipher hc => ?_⟩
  · rw [hfilter]
    intro hnil
    rw [append_eq_nil_iff] at hnil
    rw [hnil.1] at ht
    cases ht.length_eq
  · have hboth : (defaultCipherSuitesTLS13 ++ cipherSuites.map (·.id)).Nodup := by decide
    exact ((ht.append hperm).nodup_iff.mpr hboth).sublist hall
  · intro cipher hc
    rcases mem_append.mp (hall.subset hc) with h | h
    · exact .inr (ht13 cipher h)
    · exact .inl (hperm.mem_iff.mp h)
  · rw [hfilter]
    exact (hfirst.sublist hsub).append fun cipher hc => (htall cipher hc).1.2
  · rw [hfilter]
    match t, ht, ht13 with
    | [], ht, _ => cases ht.length_eq
    | cipher :: _, _, ht13 => exact ht13 cipher mem_cons_self
  · rw [hfilter]
    refine AllBefore.append (fun cipher hc => by rw [ht13 cipher hc, Bool.not_true]) ?_
    refine pairwise_of_forall_mem_list fun a _ b hb hab => ?_
    rw [hl b (hsub.subset hb)] at hab
    cases hab.2
  · simpa using (mem_filter.mp hc).2

/-- The suites that are left after the RC4 suites have made room for those of TLS 1.3. -/
lemma length_tls13 {t : List UInt16} (ht : t.Perm defaultCipherSuitesTLS13)
    (hperm : l.Perm (cipherSuites.map (·.id))) :
    ((t ++ l).filter fun cipher => !isRC4 cipher).length = 22 := by
  rw [((ht.append hperm).filter _).length_eq]
  decide

end Utls
