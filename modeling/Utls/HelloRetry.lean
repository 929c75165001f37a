import Utls.Handshake13
import Utls.BytesSent

/-!
# The second ClientHello

What `processHelloRetryRequest` does without ECH, part by part.  The key shares and the cookie are
written to the extension objects; seen from the extension list this is a map over its values
(`run_storeAll`), or the insertion of one extension (`spliceCookie_ok`).  `RetryRun` collects the
parts of a run in which the second hello is sent.
-/

namespace Utls

open Wire Exec List Option

variable {sh : ServerHelloMsg} {hello hello' : ClientHelloMsg} {sent : List KeyShare}
  {keys keys' : KeySharePrivateKeys}

/-! ## Writing to the extension objects -/

/-- The extension, or `e` in the place of one of the kind of `e`. -/
def Ext.replace (kind : Ext → Bool) (e x : Ext) : Ext := if kind x then e else x

/-- The connection with its listed extension objects changed. -/
def UConn.mapExts (c : UConn) (rs : List Ref) (f : Ext → Ext) : UConn :=
  { c with heap := fun r => if r ∈ rs then f (c.heap r) else c.heap r }

lemma UConn.exts_mapExts (c : UConn) (f : Ext → Ext) :
    (c.mapExts c.extensions f).exts = c.exts.map f := by
  unfold UConn.exts
  rw [List.map_map]
  exact map_congr_left fun r hr => if_pos hr

/-- Changing an object twice is as good as once. -/
lemma UConn.mapExts_cons (c : UConn) {f : Ext → Ext} (hf : ∀ e, f (f e) = f e) (r : Ref)
    (rs : List Ref) : (c.store r (f (c.heap r))).mapExts rs f = c.mapExts (r :: rs) f := by
  have hheap : (fun q => if q ∈ rs then f ((c.store r (f (c.heap r))).heap q)
      else (c.store r (f (c.heap r))).heap q) =
      fun q => if q ∈ r :: rs then f (c.heap q) else c.heap q := by
    funext q
    by_cases hq : q = r
    · subst hq
      simp [hf]
    · simp [hq]
  unfold UConn.mapExts
  rw [hheap]
  rfl

/-- The loop writes to every object of the kind. -/
theorem run_storeAll {kind : Ext → Bool} {e : Ext} (he : kind e = true) (rs : List Ref) :
    ∀ c : UConn, storeAll kind e rs c =
      .ok (rs.any fun r => kind (c.heap r)) (c.mapExts rs (Ext.replace kind e)) := by
  have hidem : ∀ x, Ext.replace kind e (Ext.replace kind e x) = Ext.replace kind e x := by
    intro x
    unfold Ext.replace
    split_ifs <;> rfl
  induction rs with
  | nil =>
    intro c
    simp [storeAll, UConn.mapExts]
  | cons r rs ih =>
    intro c
    rw [storeAll, run_loadExt_bind, ← c.mapExts_cons hidem r rs]
    cases hk : kind (c.heap r) with
    | true =>
      have hr : Ext.replace kind e (c.heap r) = e := if_pos hk
      simp only [hr, if_true, run_bind, run_storeExt, ih, run_pure, any_cons, hk, Bool.true_or]
    | false =>
      have hr : Ext.replace kind e (c.heap r) = c.heap r := if_neg (by simp [hk])
      have hsame : c.store r (c.heap r) = c := by
        simp [UConn.store]
      rw [hr, hsame, if_neg (by simp), ih, any_cons, hk, Bool.false_or]

/-- Objects that are all of another kind stay as they are. -/
lemma UConn.mapExts_replace_of_none (c : UConn) {kind : Ext → Bool} (e : Ext)
    (h : c.exts.any kind = false) : c.mapExts c.extensions (Ext.replace kind e) = c := by
  have hheap : (fun r => if r ∈ c.extensions then Ext.replace kind e (c.heap r) else c.heap r) =
      c.heap := by
    funext r
    split_ifs with hr
    · exact if_neg (List.any_eq_false.mp h _ (List.mem_map_of_mem hr))
    · rfl
  unfold UConn.mapExts
  rw [hheap]

/-! ## The cookie -/

/-- The connection with a new extension `e` in front of the `i`-th one. -/
def UConn.spliced (c : UConn) (i : Nat) (e : Ext) : UConn :=
  { c.store c.nextRef e with
    nextRef := c.nextRef + 1
    extensions := c.extensions.take i ++ c.nextRef :: c.extensions.drop i }

lemma UConn.exts_spliced {c : UConn} (h : c.Has c.extensions) (i : Nat) (e : Ext) :
    (c.spliced i e).exts = c.exts.take i ++ e :: c.exts.drop i := by
  have hold : ∀ r ∈ c.extensions, Function.update c.heap c.nextRef e r = c.heap r := by
    intro r hr
    exact Function.update_of_ne (h r hr).ne _ _
  unfold UConn.exts UConn.spliced
  rw [map_append, map_cons, ← map_take, ← map_drop]
  congr 1
  · exact map_congr_left fun r hr => hold r (mem_of_mem_take hr)
  · congr 1
    · exact Function.update_self _ _ _
    · exact map_congr_left fun r hr => hold r (mem_of_mem_drop hr)

/-- How a connection echoes the cookie of a HelloRetryRequest. -/
inductive Echoed (cookie : Bytes) (c : UConn) : UConn → Prop where
  /-- There is none. -/
  | nothing (h : cookie = []) : Echoed cookie c c
  /-- It is written to the extensions for it. -/
  | stored (h : cookie ≠ []) (hk : c.exts.any Ext.isCookie = true) :
      Echoed cookie c (c.mapExts c.extensions (Ext.replace Ext.isCookie (.cookie cookie)))
  /-- It is put into the list. -/
  | spliced (h : cookie ≠ []) (hk : c.exts.any Ext.isCookie = false) (i n : Nat) :
      Echoed cookie c ((c.atDraw n).spliced i (.cookie cookie))

namespace Echoed

variable {cookie : Bytes} {c c' : UConn}

lemma hello_eq (h : Echoed cookie c c') : c'.hello = c.hello := by
  cases h <;> rfl

/-- Every extension that is there afterwards was there before, or is the one with the cookie. -/
lemma mem_exts (h : Echoed cookie c c') (hc : c.Has c.extensions) {e : Ext} (he : e ∈ c'.exts) :
    e ∈ c.exts ∨ e = .cookie cookie := by
  cases h with
  | nothing _ => exact .inl he
  | stored _ _ =>
    rw [UConn.exts_mapExts] at he
    obtain ⟨x, hx, rfl⟩ := List.mem_map.mp he
    unfold Ext.replace
    split_ifs
    · exact .inr rfl
    · exact .inl hx
  | spliced _ _ i n =>
    rw [UConn.exts_spliced (c := c.atDraw n) hc] at he
    rcases mem_append.mp he with he | he
    · exact .inl (mem_of_mem_take he)
    · rcases mem_cons.mp he with rfl | he
      · exact .inr rfl
      · exact .inl (mem_of_mem_drop he)

/-- New key shares and the cookie are regular. -/
lemma regularExts {shares : List KeyShare}
    (h : Echoed cookie (c.mapExts c.extensions (Ext.replace Ext.isKeyShare (.keyShare shares))) c')
    (hc : c.Has c.extensions) (hx : c.RegularExts) : c'.RegularExts := by
  intro e he
  rcases h.mem_exts hc he with he | rfl
  · rw [UConn.exts_mapExts] at he
    obtain ⟨x, hmem, rfl⟩ := List.mem_map.mp he
    unfold Ext.replace
    split_ifs
    · trivial
    · exact hx x hmem
  · trivial

end Echoed

section Deps

variable (d : Deps)

variable {c c' : UConn} {hs : HandshakeState13}

theorem spliceCookie_ok {cookie : Bytes} {u : Unit} (h : spliceCookie d cookie c = .ok u c'):
    ∃ i n, i < (cookieSpliceRange c.exts).2 - (cookieSpliceRange c.exts).1 + 1 ∧
      c' = (c.atDraw n).spliced ((cookieSpliceRange c.exts).1 + i) (.cookie cookie) := by
  rw [spliceCookie, run_get_bind] at h
  obtain ⟨drawn, c1, h1, h⟩ := bind_eq_ok.mp h
  obtain ⟨b, c2, h2, h3⟩ := bind_eq_ok.mp h1
  cases h2
  cases h3
  obtain ⟨i, hi, h⟩ := ofOption_bind_eq_ok.mp h
  cases h
  obtain ⟨b, -, rfl⟩ := map_eq_some_iff.mp hi
  exact ⟨_, _, Nat.mod_lt _ (Nat.succ_pos _), rfl⟩

lemma echoCookie_ok {cookie : Bytes} {u : Unit}
    (h : echoCookie d cookie c = .ok u c') : Echoed cookie c c' := by
  unfold echoCookie at h
  split_ifs at h with hlen
  · cases h
    exact .nothing (length_eq_zero_iff.mp hlen)
  have hne : cookie ≠ [] := fun h0 => hlen (length_eq_zero_iff.mpr h0)
  rw [run_get_bind, run_bind, setCookieExts, run_storeAll rfl] at h
  have hany : (c.extensions.any fun r => (c.heap r).isCookie) = c.exts.any Ext.isCookie := by
    rw [UConn.exts, List.any_map]
    rfl
  rw [hany] at h
  rcases runIf_eq_ok.mp h with ⟨hk, h⟩ | ⟨hk, rfl⟩
  · rw [c.mapExts_replace_of_none _ hk] at h
    obtain ⟨i, n, -, rfl⟩ := spliceCookie_ok d h
    exact .spliced hne hk _ n
  · exact .stored hne (by simpa using hk)

/-! ## The extensions of the second hello -/

/-- The extension objects get the key shares and the cookie, and the hello is marshalled. -/
lemma retryExtensions_ok (h : retryExtensions d sh hello c = .ok hello' c'):
    hello.pskIdentities = [] ∧ c.exts.any Ext.isKeyShare = true ∧ ∃ c1,
      Echoed (sh.cookie.getD [])
        (c.mapExts c.extensions (Ext.replace Ext.isKeyShare (.keyShare hello.keyShares))) c1 ∧
      marshalClientHelloNoECH d c1 = .ok () c' ∧ hello' = { hello with original := some c'.raw } := by
  unfold retryExtensions at h
  split_ifs at h with hpsk
  · cases h
  have hnil : hello.pskIdentities = [] := by
    by_contra hne
    exact hpsk (length_pos_iff.mpr hne)
  rw [run_get_bind, run_bind, setKeyShareExts, run_storeAll rfl] at h
  have hany : (c.extensions.any fun r => (c.heap r).isKeyShare) = c.exts.any Ext.isKeyShare := by
    rw [UConn.exts, List.any_map]
    rfl
  simp only [hany] at h
  cases hk : c.exts.any Ext.isKeyShare with
  | false =>
    rw [hk] at h
    cases h
  | true =>
    rw [hk] at h
    obtain ⟨_, c1, h1, h⟩ := bind_eq_ok.mp h
    obtain ⟨_, c2, h2, h⟩ := bind_eq_ok.mp h
    cases h
    exact ⟨hnil, rfl, c1, echoCookie_ok d h1, h2, rfl⟩

/-! ## The parts of a retry -/

/-- The key share of the group that the server has selected: a new key, whose public half is the
only share of the hello. -/
inductive Regrouped (sh : ServerHelloMsg) (sent : List KeyShare) (keys : KeySharePrivateKeys)
    (hello : ClientHelloMsg) (c : UConn) : ClientHelloMsg → KeySharePrivateKeys → UConn → Prop where
  | kept (h : sh.selectedGroup = 0) (hc : sh.cookie ≠ none) :
      Regrouped sh sent keys hello c { hello with cookie := sh.cookie.getD hello.cookie } keys c
  | renewed (h : sh.selectedGroup ≠ 0) (hlisted : sh.selectedGroup ∈ hello.supportedCurves)
      (hnew : ∀ ks ∈ sent, ks.group ≠ sh.selectedGroup) {key : EcdhKey}
      (hkey : key.curve = sh.selectedGroup) :
      Regrouped sh sent keys hello c
        { hello with
          cookie := sh.cookie.getD hello.cookie
          keyShares := [⟨sh.selectedGroup, key.publicKey d⟩] }
        { curveID := sh.selectedGroup, ecdhe := some key } (c.atDraw (c.draws + 1))

/-- Making a key is the only thing that happens to the connection. -/
lemma Regrouped.drawn_eq
    (h : Regrouped d sh sent keys hello c hello' keys' c') : ∃ n, c' = c.atDraw n := by
  cases h with
  | kept _ _ => exact ⟨c.draws, rfl⟩
  | renewed _ _ _ _ => exact ⟨_, rfl⟩

lemma Regrouped.psk_eq (h : Regrouped d sh sent keys hello c hello' keys' c'):
    hello'.pskIdentities = hello.pskIdentities ∧ hello'.pskBinders = hello.pskBinders := by
  cases h <;> exact ⟨rfl, rfl⟩

lemma Regrouped.ech_eq (h : Regrouped d sh sent keys hello c hello' keys' c'):
    hello'.encryptedClientHello = hello.encryptedClientHello := by
  cases h <;> rfl

/-- A group that the server may select has no share in the first hello. -/
lemma Regrouped.not_sent (h : Regrouped d sh sent keys hello c hello' keys' c')
    (hsel : sh.selectedGroup ≠ 0) : ∀ ks ∈ sent, ks.group ≠ sh.selectedGroup := by
  cases h with
  | kept hzero _ => exact absurd hzero hsel
  | renewed _ _ hnew _ => exact hnew

lemma generateECDHEKey_ok {curve : UInt16} {k : EcdhKey}
    (h : generateECDHEKey d curve c = .ok (some k) c') :
    k.curve = curve ∧ d.ecdhKey c.draws curve = some k.secret ∧ c' = c.atDraw (c.draws + 1) := by
  unfold generateECDHEKey at h
  split_ifs at h
  · change EStateM.Result.ok ((d.ecdhKey c.draws curve).map fun secret => ⟨curve, secret⟩)
      (c.atDraw (c.draws + 1)) = .ok (some k) c' at h
    injection h with hkey hc
    obtain ⟨secret, hsecret, rfl⟩ := map_eq_some_iff.mp hkey
    exact ⟨rfl, hsecret, hc.symm⟩
  · cases h

lemma retryHello_ok {out : ClientHelloMsg × KeySharePrivateKeys}
    (h : retryHello d sh sent keys hello c = .ok out c') :
    Regrouped d sh sent keys hello c out.1 out.2 c' := by
  unfold retryHello at h
  split_ifs at h with h1 h2
  · cases h
  · cases h
  unfold retryKeyShare at h
  split_ifs at h with h3 h4 h5 h6
  · cases h
    exact .kept h3 fun hc => h1 ⟨h3, hc⟩
  · cases h
  · cases h
  · cases h
  · obtain ⟨key, c1, hgen, h⟩ := bind_eq_ok.mp h
    obtain ⟨k, rfl, h⟩ := ofOption_bind_eq_ok.mp h
    obtain ⟨hcurve, -, rfl⟩ := generateECDHEKey_ok d hgen
    cases h
    refine .renewed h3 (by simpa using h4) (fun ks hks heq => h5 ?_) hcurve
    exact List.any_eq_true.mpr ⟨ks, hks, by simp [heq]⟩

/-- The transcript in front of the second hello. -/
def HandshakeState13.retried (hs : HandshakeState13) (suite : CipherSuiteTLS13) :
    HandshakeState13 :=
  { hs with transcript := messageHash d suite hs.transcript ++ hs.serverHello.original }

/-- The parts of a run of `processHelloRetryRequest` without ECH. -/
structure RetryRun (suite : CipherSuiteTLS13) (hs : HandshakeState13) (c : UConn)
    (hs' : HandshakeState13) (c' : UConn) where
  regrouped : ClientHelloMsg
  keys : KeySharePrivateKeys
  drawn : UConn
  bound : ClientHelloMsg
  sent : ClientHelloMsg
  bytes : Bytes
  group : Regrouped d hs.serverHello hs.hello.keyShares hs.keyShareKeys hs.hello c regrouped keys drawn
  psk : retryPsk d suite (hs.retried d suite) (hs.retried d suite).transcript regrouped drawn =
    .ok bound drawn
  exts : retryExtensions d hs.serverHello bound drawn = .ok sent c'
  marshal : ({ sent with earlyData := false } : ClientHelloMsg).marshal = some bytes
  result : hs' =
    { hs.retried d suite with
      keyShareKeys := keys
      hello := { sent with earlyData := false }
      transcript := (hs.retried d suite).transcript ++ bytes }

/-- Renewing the pre-shared key changes its fields of the hello only.  A key that is not dropped keeps
the lengths of its binders. -/
lemma retryPsk_ok {suite : CipherSuiteTLS13} {hashed : Bytes} {out : ClientHelloMsg}
    (h : retryPsk d suite hs hashed hello c = .ok out c') :
    c' = c ∧ ∃ ids binders, out = { hello with pskIdentities := ids, pskBinders := binders } ∧
      (ids = [] ∨ ids.length = hello.pskIdentities.length ∧
        binders.map List.length = hello.pskBinders.map List.length) := by
  unfold retryPsk at h
  split_ifs at h with hnil
  · cases h
    exact ⟨rfl, _, _, rfl, .inr ⟨rfl, rfl⟩⟩
  · cases hsession : hs.session with
    | none =>
      rw [hsession] at h
      cases h
    | some s =>
      rw [hsession] at h
      obtain ⟨pskSuite, -, h⟩ := ofOption_bind_eq_ok.mp h
      split_ifs at h with hhash
      · cases h
        exact ⟨rfl, _, _, rfl, .inl rfl⟩
      · rw [run_get_bind] at h
        obtain ⟨hbound, rfl⟩ := ofOption_eq_ok.mp h
        obtain ⟨helloBytes, -, hupdate⟩ := bind_eq_some_iff.mp hbound
        rw [ClientHelloMsg.updateBinders] at hupdate
        split_ifs at hupdate with hlen
        cases hupdate
        exact ⟨rfl, _, _, rfl, .inr ⟨length_modify .., hlen⟩⟩

variable {hs' : HandshakeState13}

lemma exists_retryRun (confirmation : HashId → Bytes → String → Bytes → Bytes)
    {suite : CipherSuiteTLS13} (hech : hs.echContext = none)
    (h : processHelloRetryRequest d confirmation suite hs c = .ok hs' c') :
    Nonempty (RetryRun d suite hs c hs' c') := by
  obtain ⟨⟨hs1, isInner⟩, c1, h1, hrest1⟩ := bind_eq_ok.mp h
  have hretried : hs1 = hs.retried d suite ∧ isInner = false ∧ c1 = c := by
    rw [retryTranscripts, run_get_bind, hech] at h1
    change (ite _ _ _ : M _) c = _ at h1
    split_ifs at h1
    · cases h1
    · cases h1
      exact ⟨by rw [HandshakeState13.retried, hech], rfl, rfl⟩
  obtain ⟨rfl, rfl, rfl⟩ := hretried
  have hnone : (hs.retried d suite).echContext = none := hech
  obtain ⟨⟨hello1, keys⟩, c2, h2, hrest2⟩ := bind_eq_ok.mp hrest1
  obtain ⟨hello2, c3, h3, hrest3⟩ := bind_eq_ok.mp hrest2
  have hc3 := (retryPsk_ok d h3).1
  subst hc3
  obtain ⟨hello3, c4, h4, hrest4⟩ := bind_eq_ok.mp hrest3
  obtain ⟨hs2, c5, h5, hrest5⟩ := bind_eq_ok.mp hrest4
  obtain ⟨bytes, c6, h6, hrest6⟩ := bind_eq_ok.mp hrest5
  cases h5
  obtain ⟨hbytes, rfl⟩ := ofOption_eq_ok.mp h6
  cases hrest6
  simp only [hnone, isSome_none, Bool.false_eq_true, if_false] at h2 h3 h4
  exact ⟨⟨hello1, keys, _, hello2, hello3, bytes, retryHello_ok d h2, h3, h4, hbytes, rfl⟩⟩

namespace RetryRun

variable {d} {suite : CipherSuiteTLS13} {hs hs' : HandshakeState13} {c c' : UConn}

/-- The bytes that are sent and hashed are those of the marshalled hello. -/
lemma bytes_eq (run : RetryRun d suite hs c hs' c') : run.bytes = c'.raw := by
  obtain ⟨-, -, c1, -, -, hsent⟩ := retryExtensions_ok d run.exts
  have hm := run.marshal
  rw [hsent] at hm
  exact (some.inj hm).symm

lemma hello_original (run : RetryRun d suite hs c hs' c') : hs'.hello.original = some c'.raw := by
  obtain ⟨-, -, c1, -, -, hsent⟩ := retryExtensions_ok d run.exts
  rw [run.result, hsent]

/-- Every extension of the second hello was in the first one, or has the key shares or the cookie.
-/
lemma mem_exts (run : RetryRun d suite hs c hs' c') (hc : c.Has c.extensions) :
    ∃ c1, c1.hello = c.hello ∧ marshalClientHelloNoECH d c1 = .ok () c' ∧ ∀ e ∈ c1.exts,
      e ∈ c.exts ∨ e = .keyShare run.bound.keyShares ∨ e = .cookie (hs.serverHello.cookie.getD []) := by
  obtain ⟨-, -, c1, hecho, hm, -⟩ := retryExtensions_ok d run.exts
  obtain ⟨n, hdrawn⟩ := run.group.drawn_eq d
  rw [hdrawn] at hecho
  refine ⟨c1, hecho.hello_eq, hm, fun e he => ?_⟩
  rcases hecho.mem_exts hc he with he | rfl
  · rw [UConn.exts_mapExts] at he
    obtain ⟨x, hx, rfl⟩ := List.mem_map.mp he
    unfold Ext.replace
    split_ifs
    · exact .inr (.inl rfl)
    · exact .inl hx
  · exact .inr (.inr rfl)

end RetryRun

/-! ## From the first hello to the second -/

lemma checkServerHelloOrHRR_ok (h : hs.checkServerHelloOrHRR = .ok hs'):
    ∃ suite, cipherSuiteTLS13ByID hs.serverHello.cipherSuite = some suite ∧
      hs' = { hs with suite := some suite } := by
  unfold HandshakeState13.checkServerHelloOrHRR at h
  dsimp only at h
  split_ifs at h
  split at h
  · cases h
  · rename_i suite hsuite
    cases h
    refine ⟨suite, ?_, rfl⟩
    unfold mutualCipherSuiteTLS13 at hsuite
    split_ifs at hsuite
    exact hsuite

/-- Without ECH, the checks of the server's answer leave the hello as it is. -/
lemma beginHandshake13_ok (hech : hs.echContext = none) (h : beginHandshake13 d hs c = .ok hs' c') :
    ∃ suite bytes, cipherSuiteTLS13ByID hs.serverHello.cipherSuite = some suite ∧
      hs.hello.marshal = some bytes ∧ c' = c ∧ c.handshakes = 0 ∧
      hs' = { hs with suite := some suite, transcript := bytes } := by
  rw [beginHandshake13, run_get_bind] at h
  split_ifs at h with hn hkeys
  · cases h
  · cases h
  obtain ⟨hs1, hcheck, hrest1⟩ := ofExcept_bind_eq_ok.mp h
  obtain ⟨suite, hsuite, rfl⟩ := checkServerHelloOrHRR_ok hcheck
  obtain ⟨bytes, hbytes, hrest2⟩ := ofOption_bind_eq_ok.mp hrest1
  rw [show ({ hs with suite := some suite } : HandshakeState13).echContext = none from hech] at hrest2
  cases hrest2
  exact ⟨suite, bytes, hsuite, hbytes, rfl, by omega, by rw [hech]⟩

/-- The parts of a handshake without ECH up to the second hello. -/
structure SecondRun (sh : ServerHelloMsg) (c : UConn) (hs : HandshakeState13) (c' : UConn) where
  built : UConn
  suite : CipherSuiteTLS13
  build : buildHandshakeState d true c = .ok () built
  suite_eq : cipherSuiteTLS13ByID sh.cipherSuite = some suite
  first : HandshakeState13
  hello : first.hello = built.privateHello
  server : first.serverHello = sh
  keys : first.keyShareKeys = built.keyShareKeys
  session : first.session = built.session
  binderKey : first.binderKey = built.binderKey
  transcript : built.privateHello.marshal = some first.transcript
  retry : RetryRun d suite first built hs c'

lemma startHandshake13_ok (h : startHandshake13 d sh c = .ok hs c'):
    buildHandshakeState d true c = .ok () c' ∧
      hs = { hello := c'.privateHello
             serverHello := sh
             keyShareKeys := c'.keyShareKeys
             session := c'.session
             binderKey := c'.binderKey
             echContext := c'.echCtx
             serverName := c'.privateHello.serverName } := by
  obtain ⟨_, c1, h1, hrest⟩ := bind_eq_ok.mp h
  rw [run_get_bind] at hrest
  obtain ⟨_, -, hrest2⟩ := ofExcept_bind_eq_ok.mp hrest
  cases hrest2
  exact ⟨h1, rfl⟩

lemma exists_secondRun {confirmation : HashId → Bytes → String → Bytes → Bytes}
    (hctx : ∀ b, buildHandshakeState d true c = .ok () b → b.echCtx = none)
    (h : secondHello d confirmation sh c = .ok (some hs) c') :
    Nonempty (SecondRun d sh c hs c') := by
  obtain ⟨hs1, c1, h1, hrest1⟩ := bind_eq_ok.mp h
  obtain ⟨hbuild, rfl⟩ := startHandshake13_ok d h1
  obtain ⟨hs2, c2, h2, hrest2⟩ := bind_eq_ok.mp hrest1
  obtain ⟨suite, bytes, hsuite, hbytes, rfl, -, rfl⟩ := beginHandshake13_ok d (hctx c1 hbuild) h2
  dsimp only at hrest2
  split_ifs at hrest2
  · obtain ⟨hs3, c3, h3, hrest3⟩ := bind_eq_ok.mp hrest2
    cases hrest3
    obtain ⟨run⟩ := exists_retryRun d confirmation
      (show _ = none from hctx _ hbuild) h3
    exact ⟨⟨_, suite, hbuild, hsuite, _, rfl, rfl, rfl, rfl, rfl, hbytes, run⟩⟩
  · cases hrest2

end Deps

end Utls
