import Utls.Ech

/-!
# What a parsed hello says

Facts about `unmarshal`.  Each extension of a hello is read on its own: whether it is accepted does
not depend on the extensions in front of it, apart from a repeated type, and it only sets the fields
of its own type (`applyExtension_frame`).  So a hello that is put together from extensions of hellos
that were accepted is accepted as well, and its fields can be read off its extensions.
-/

namespace Utls

open Wire List Option

/-! ## One extension -/

namespace ClientHelloMsg

variable {m m' : ClientHelloMsg} {e : RawExtension} {last : Bool}

/-- What an extension does not set. -/
structure ExtFrame (e : RawExtension) (m m' : ClientHelloMsg) : Prop where
  header : m'.header = m.header
  extensions : m'.extensions = m.extensions
  original : m'.original = m.original
  serverName : e.extType ≠ extensionServerName → m'.serverName = m.serverName
  cookie : e.extType ≠ extensionCookie → m'.cookie = m.cookie
  versions : e.extType ≠ extensionSupportedVersions → m'.supportedVersions = m.supportedVersions
  psk : e.extType ≠ extensionPreSharedKey →
    (m'.pskIdentities, m'.pskBinders) = (m.pskIdentities, m.pskBinders)
  ech : e.extType ≠ extensionEncryptedClientHello → m'.encryptedClientHello = m.encryptedClientHello
  keyShares : e.extType ≠ extensionKeyShare → m'.keyShares = m.keyShares

/-- `x` reads from the extension what it sets, and accepts it or not, whatever the message says.  Only
a server name depends on the name there is, and a pre-shared key on its place. -/
def SetsRead (e : RawExtension) (name : GoString) (place : Bool)
    (x : ClientHelloMsg → Bool → Option ClientHelloMsg) : Prop :=
  ∃ o : Option (ClientHelloMsg → ClientHelloMsg), (∀ f ∈ o, ∀ m, ExtFrame e m (f m)) ∧
    ∀ m last, (e.extType = extensionServerName → m.serverName = name) →
      (e.extType = extensionPreSharedKey → last = place) → x m last = o.map fun f => f m

namespace SetsRead

variable {α : Type} {name : GoString} {place : Bool}
  {x y : ClientHelloMsg → Bool → Option ClientHelloMsg}

lemma none : SetsRead e name place fun _ _ => .none := ⟨.none, nofun, fun _ _ _ _ => rfl⟩

lemma some {f : ClientHelloMsg → ClientHelloMsg} (h : ∀ m, ExtFrame e m (f m)) :
    SetsRead e name place fun m _ => .some (f m) :=
  ⟨.some f, fun _ hf => Option.some.inj hf ▸ h, fun _ _ _ _ => rfl⟩

lemma bind (o : Option α) {x : α → ClientHelloMsg → Bool → Option ClientHelloMsg}
    (h : ∀ a, SetsRead e name place (x a)) :
    SetsRead e name place fun m last => o.bind fun a => x a m last := by
  cases o with
  | none => exact none
  | some a => exact h a

lemma map (o : Option α) {f : α → ClientHelloMsg → ClientHelloMsg}
    (h : ∀ a m, ExtFrame e m (f a m)) : SetsRead e name place fun m _ => o.map fun a => f a m := by
  cases o with
  | none => exact none
  | some a => exact some (h a)

lemma ite {p : Prop} [Decidable p] (hx : p → SetsRead e name place x)
    (hy : ¬p → SetsRead e name place y) :
    SetsRead e name place fun m last => if p then x m last else y m last := by
  by_cases hp : p
  · simpa only [if_pos hp] using hx hp
  · simpa only [if_neg hp] using hy hp

/-- The side conditions may be used to say what is read. -/
lemma congr (hy : SetsRead e name place y)
    (h : ∀ m last, (e.extType = extensionServerName → m.serverName = name) →
      (e.extType = extensionPreSharedKey → last = place) → x m last = y m last) :
    SetsRead e name place x := by
  obtain ⟨o, ho, heq⟩ := hy
  exact ⟨o, ho, fun m last hn hp => (h m last hn hp).trans (heq m last hn hp)⟩

end SetsRead

/-- Every kind of extension is read on its own. -/
lemma setsRead_applyExtension (e : RawExtension) (name : GoString) (place : Bool) :
    SetsRead e name place (applyExtension · e ·) := by
  unfold applyExtension
  refine .ite (fun ht => .congr (.map _ fun _ _ => ?_) fun _ _ hn _ => by rw [hn ht]) fun _ =>
    .ite (fun _ => .bind _ fun _ => .bind _ fun _ => .map _ fun _ _ => ?_) fun _ =>
    .ite (fun _ => .map _ fun _ _ => ?_) fun _ => .ite (fun _ => .map _ fun _ _ => ?_) fun _ =>
    .ite (fun _ => .some fun _ => ?_) fun _ => .ite (fun _ => .map _ fun _ _ => ?_) fun _ =>
    .ite (fun _ => .map _ fun _ _ => ?_) fun _ => .ite (fun _ => .map _ fun _ _ => ?_) fun _ =>
    .ite (fun _ => .ite (fun _ => .some fun _ => ?_) fun _ => .none) fun _ =>
    .ite (fun _ => .map _ fun _ _ => ?_) fun _ =>
    .ite (fun _ => .ite (fun _ => .some fun _ => ?_) fun _ => .none) fun _ =>
    .ite (fun ht => .map _ fun _ _ => ?_) fun _ => .ite (fun ht => .map _ fun _ _ => ?_) fun _ =>
    .ite (fun ht => .map _ fun _ _ => ?_) fun _ =>
    .ite (fun _ => .ite (fun _ => .some fun _ => ?_) fun _ => .none) fun _ =>
    .ite (fun _ => .map _ fun _ _ => ?_) fun _ => .ite (fun _ => .some fun _ => ?_) fun _ =>
    .ite (fun ht => .congr (.ite (p := place = true) (fun _ => .map _ fun _ _ => ?_) fun _ => .none)
      fun _ _ _ hp => by rw [hp ht]) fun _ =>
    .ite (fun ht => .some fun _ => ?_) fun _ => .some fun _ => ?_
  -- a type sets at most its own one of the fields in question
  all_goals refine ⟨rfl, rfl, rfl, ?_, ?_, ?_, ?_, ?_, ?_⟩
  all_goals first | exact fun _ => rfl | exact fun hne => absurd ht hne

theorem applyExtension_frame (h : m.applyExtension e last = some m') : ExtFrame e m m' := by
  obtain ⟨o, ho, heq⟩ := setsRead_applyExtension e m.serverName last
  obtain ⟨f, hf, rfl⟩ := map_eq_some_iff.mp ((heq m last (fun _ => rfl) fun _ => rfl).symm.trans h)
  exact ho f hf m

/-- Whether an extension is accepted does not depend on the extensions in front of it. -/
lemma isSome_applyExtension (m m1 : ClientHelloMsg) (e : RawExtension) (last last1 : Bool)
    (hname : e.extType = extensionServerName → m.serverName = m1.serverName)
    (hlast : e.extType = extensionPreSharedKey → last = last1) :
    (m.applyExtension e last).isSome = (m1.applyExtension e last1).isSome := by
  obtain ⟨o, -, heq⟩ := setsRead_applyExtension e m1.serverName last1
  calc (m.applyExtension e last).isSome = (o.map fun f => f m).isSome :=
        congrArg isSome (heq m last hname hlast)
    _ = (o.map fun f => f m1).isSome := by rw [isSome_map, isSome_map]
    _ = (m1.applyExtension e last1).isSome :=
        congrArg isSome (heq m1 last1 (fun _ => rfl) fun _ => rfl).symm

/-! ## The list of extensions -/

variable {l : List RawExtension} {r : ClientHelloMsg}

/-- The first step of `applyExtensions`. -/
lemma applyExtensions_cons (h : m.applyExtensions (e :: l) = some r) :
    e.extType ∉ m.extensions ∧
      ∃ m1, applyExtension { m with extensions := m.extensions ++ [e.extType] } e l.isEmpty =
        some m1 ∧ m1.applyExtensions l = some r := by
  rw [applyExtensions] at h
  split_ifs at h with hc
  obtain ⟨m1, h1, h2⟩ := bind_eq_some_iff.mp h
  exact ⟨by simpa using hc, m1, h1, h2⟩

/-- The types are recorded in their order, and none of them is repeated. -/
lemma applyExtensions_types (h : m.applyExtensions l = some r) :
    r.extensions = m.extensions ++ l.map (·.extType) ∧ (l.map (·.extType)).Nodup ∧
      ∀ e ∈ l, e.extType ∉ m.extensions := by
  induction l generalizing m with
  | nil =>
    cases h
    simp
  | cons e l ih =>
    obtain ⟨hnew, m1, h1, h⟩ := applyExtensions_cons h
    have hm1 : m1.extensions = m.extensions ++ [e.extType] := (applyExtension_frame h1).extensions
    obtain ⟨hr, hnodup, hall⟩ := ih h
    rw [hm1] at hr hall
    refine ⟨by rw [hr, append_assoc]; rfl, ?_, fun e' he' => ?_⟩
    · rw [map_cons, nodup_cons]
      refine ⟨fun hmem => ?_, hnodup⟩
      obtain ⟨e', he', heq⟩ := List.mem_map.mp hmem
      exact hall e' he' (by simp [heq])
    · rcases mem_cons.mp he' with rfl | he'
      · exact hnew
      · exact fun hmem => hall e' he' (by simp [hmem])

/-- The extensions leave the other fields alone. -/
lemma applyExtensions_header (h : m.applyExtensions l = some r) :
    r.header = m.header ∧ r.original = m.original := by
  induction l generalizing m with
  | nil =>
    cases h
    exact ⟨rfl, rfl⟩
  | cons e l ih =>
    obtain ⟨-, m1, h1, h⟩ := applyExtensions_cons h
    have hframe := applyExtension_frame h1
    obtain ⟨hh, ho⟩ := ih h
    exact ⟨hh.trans hframe.header, ho.trans hframe.original⟩

/-- A field that only extensions of one type set: it is as before if there is no such extension, and
otherwise it is what the only one makes of it. -/
lemma field_of_applyExtensions {β : Type} (F : ClientHelloMsg → β) (t : UInt16)
    (hF : ∀ m e last m', applyExtension m e last = some m' → e.extType ≠ t → F m' = F m)
    (hext : ∀ m (ts : List UInt16), F { m with extensions := ts } = F m)
    (h : m.applyExtensions l = some r) :
    (t ∉ l.map (·.extType) → F r = F m) ∧ ∀ e ∈ l, e.extType = t →
      ∃ m1 m2 last, F m1 = F m ∧ applyExtension m1 e last = some m2 ∧ F r = F m2 := by
  induction l generalizing m with
  | nil =>
    cases h
    simp
  | cons e0 l ih =>
    obtain ⟨-, hnodup, -⟩ := applyExtensions_types h
    rw [map_cons, nodup_cons] at hnodup
    obtain ⟨-, m1, h1, h⟩ := applyExtensions_cons h
    obtain ⟨hnone, hone⟩ := ih h
    have hskip : e0.extType ≠ t → F m1 = F m := fun hne => (hF _ _ _ _ h1 hne).trans (hext _ _)
    refine ⟨fun ht => ?_, fun e he ht => ?_⟩
    · rw [map_cons, mem_cons, not_or] at ht
      rw [hnone ht.2, hskip fun heq => ht.1 heq.symm]
    · rcases mem_cons.mp he with rfl | he
      · refine ⟨_, m1, _, hext m _, h1, hnone ?_⟩
        rw [← ht]
        exact hnodup.1
      · have hne : e0.extType ≠ t := by
          rintro heq
          exact hnodup.1 (List.mem_map.mpr ⟨e, he, ht.trans heq.symm⟩)
        obtain ⟨m2, m3, last, h2, h3, h4⟩ := hone e he ht
        exact ⟨m2, m3, last, h2.trans (hskip hne), h3, h4⟩

/-- The extensions of a hello that was accepted are accepted in any other one. -/
lemma accepted_of_applyExtensions (h : m.applyExtensions l = some r) :
    ∀ e ∈ l, e.extType ≠ extensionServerName → e.extType ≠ extensionPreSharedKey →
      ∀ m1 last, (applyExtension m1 e last).isSome = true := by
  induction l generalizing m with
  | nil => simp
  | cons e0 l ih =>
    intro e he hname hpsk m1 last
    obtain ⟨-, m2, h2, h⟩ := applyExtensions_cons h
    rcases mem_cons.mp he with rfl | he
    · have hsame := isSome_applyExtension m1 { m with extensions := m.extensions ++ [e.extType] } e last
        l.isEmpty (fun ht => absurd ht hname) fun ht => absurd ht hpsk
      rw [hsame, h2]
      rfl
    · exact ih h e he hname hpsk m1 last

/-- A list of extensions is accepted if its types are new and different, and each extension is
accepted in its place. -/
lemma isSome_applyExtensions (hnodup : (l.map (·.extType)).Nodup)
    (hnew : ∀ e ∈ l, e.extType ∉ m.extensions)
    (hname : extensionServerName ∈ l.map (·.extType) → m.serverName = [])
    (hacc : ∀ pre e post, l = pre ++ e :: post → (applyExtension {} e post.isEmpty).isSome = true) :
    (m.applyExtensions l).isSome = true := by
  induction l generalizing m with
  | nil => rfl
  | cons e l ih =>
    rw [map_cons, nodup_cons] at hnodup
    have hhead := hacc [] e l rfl
    set m0 : ClientHelloMsg := { m with extensions := m.extensions ++ [e.extType] } with hm0
    have hsame : (applyExtension m0 e l.isEmpty).isSome = true := by
      rw [← hhead]
      exact isSome_applyExtension _ _ _ _ _ (fun ht => hname (by simp [ht])) fun _ => rfl
    obtain ⟨m1, h1⟩ := isSome_iff_exists.mp hsame
    have hframe := applyExtension_frame h1
    have hrest : (m1.applyExtensions l).isSome = true := by
      refine ih hnodup.2 (fun e' he' hmem => ?_) (fun ht => ?_) fun pre e' post hl => ?_
      · rw [hframe.extensions, hm0] at hmem
        rcases mem_append.mp hmem with hmem | hmem
        · exact hnew e' (by simp [he']) hmem
        · rw [mem_singleton] at hmem
          exact hnodup.1 (List.mem_map.mpr ⟨e', he', hmem⟩)
      · have hne : e.extType ≠ extensionServerName := fun heq => hnodup.1 (by rwa [heq])
        rw [hframe.serverName hne]
        exact hname (by simp [ht])
      · exact hacc (e :: pre) e' post (by rw [hl]; rfl)
    have hnot : m.extensions.contains e.extType = false := by
      simpa using hnew e (by simp)
    rw [applyExtensions, hnot, if_neg (by simp), h1]
    exact hrest

/-! ## The message -/

/-- A hello before its extensions are read. -/
def start (data : Bytes) (vers : UInt16) (random sessionId : Bytes) (cipherSuites : List UInt16)
    (compressionMethods : Bytes) : ClientHelloMsg where
  original := some data
  vers := vers
  random := random
  sessionId := sessionId
  cipherSuites := cipherSuites
  compressionMethods := compressionMethods
  secureRenegotiationSupported := cipherSuites.contains scsvRenegotiation

/-- The bytes in front of the extension block. -/
def front (header : Bytes) (vers : UInt16) (random sessionId : Bytes) (cipherSuites : List UInt16)
    (compressionMethods rest : Bytes) : Bytes :=
  header ++ (u16 vers.toNat ++ (random ++ (vec8 sessionId ++ (vec16 (u16s cipherSuites) ++
    (vec8 compressionMethods ++ rest)))))

lemma readLP8_vec8 {b : Bytes} (h : b.length < 256) (s : Bytes) :
    readLP8 (vec8 b ++ s) = some (b, s) := by
  rw [vec8, append_assoc]
  exact readLP8_u8 h s

lemma readLP16_vec16 {b : Bytes} (h : b.length < 65536) (s : Bytes) :
    readLP16 (vec16 b ++ s) = some (b, s) := by
  rw [vec16, append_assoc]
  exact readLP16_u16 h s

lemma readLP8_vec8_nil {b : Bytes} (h : b.length < 256) : readLP8 (vec8 b) = some (b, []) := by
  simpa using readLP8_vec8 h []

lemma readLP16_vec16_nil {b : Bytes} (h : b.length < 65536) :
    readLP16 (vec16 b) = some (b, []) := by
  simpa using readLP16_vec16 h []

lemma parseAll_u16s (l : List UInt16) : parseAll readU16 (u16s l) = some l :=
  parseAll_flatMap (fun x _ r => readU16_u16_toNat x r) fun x _ => by simp [u16]

section Front

variable {header random sessionId compressionMethods : Bytes} {cipherSuites : List UInt16}

/-- Reading a hello that is put together from its parts. -/
lemma unmarshal_front (hh : header.length = 4) (vers : UInt16) (hr : random.length = 32)
    (hs : sessionId.length < 256) (hc : (u16s cipherSuites).length < 65536)
    (hm : compressionMethods.length < 256) {exts : Bytes} (he : exts.length < 65536) :
    unmarshal (front header vers random sessionId cipherSuites compressionMethods (vec16 exts)) =
      (parseAll readRawExtension exts).bind (start (front header vers random sessionId cipherSuites
        compressionMethods (vec16 exts)) vers random sessionId cipherSuites
        compressionMethods).applyExtensions := by
  have hne : (vec16 exts).length ≠ 0 := by simp
  rw [unmarshal]
  generalize hdata : front header vers random sessionId cipherSuites compressionMethods
    (vec16 exts) = data
  have h1 : readN 4 data = some (header, u16 vers.toNat ++ (random ++ (vec8 sessionId ++
      (vec16 (u16s cipherSuites) ++ (vec8 compressionMethods ++ vec16 exts))))) := by
    rw [← hdata]
    exact readN_eq_some.mpr ⟨hh, rfl⟩
  simp only [h1, bind_some, readU16_u16_toNat, readN_eq_some.mpr ⟨hr, rfl⟩, readLP8_vec8 hs,
    readLP16_vec16 hc, parseAll_u16s, readLP8_vec8 hm, readLP16_vec16_nil he, if_neg hne, atEnd]
  rfl

/-- The raw extensions of such a hello. -/
lemma extractRawExtensions_front (hh : header.length = 4) (vers : UInt16) (hr : random.length = 32)
    (hs : sessionId.length < 256) (hc : (u16s cipherSuites).length < 65536)
    (hm : compressionMethods.length < 256) (rest : Bytes) :
    extractRawExtensions (front header vers random sessionId cipherSuites compressionMethods rest) =
      (readLP16 rest).bind fun x => parseAll readRawExtension x.1 := by
  have h1 : readN 38 (front header vers random sessionId cipherSuites compressionMethods rest) =
      some (header ++ (u16 vers.toNat ++ random), vec8 sessionId ++ (vec16 (u16s cipherSuites) ++
        (vec8 compressionMethods ++ rest))) := by
    refine readN_eq_some.mpr ⟨?_, ?_⟩
    · simp [hh, hr]
    · simp [front]
  simp only [extractRawExtensions, h1, bind_some, readLP8_vec8 hs, readLP16_vec16 hc,
    readLP8_vec8 hm]

end Front

/-- What an accepted hello consists of. -/
lemma unmarshal_eq_some {data : Bytes} {m : ClientHelloMsg} (h : unmarshal data = some m) :
    ∃ header rest, header.length = 4 ∧ m.random.length = 32 ∧ m.sessionId.length < 256 ∧
      (u16s m.cipherSuites).length < 65536 ∧ m.compressionMethods.length < 256 ∧
      data = front header m.vers m.random m.sessionId m.cipherSuites m.compressionMethods rest ∧
      m.original = some data ∧
      ((rest = [] ∧ m.extensions = []) ∨ ∃ exts l, exts.length < 65536 ∧ rest = vec16 exts ∧
        parseAll readRawExtension exts = some l ∧ (start data m.vers m.random m.sessionId
          m.cipherSuites m.compressionMethods).applyExtensions l = some m) := by
  obtain ⟨⟨header, s1⟩, h1, h⟩ := bind_eq_some_iff.mp h
  obtain ⟨⟨vers, s2⟩, h2, h⟩ := bind_eq_some_iff.mp h
  obtain ⟨⟨random, s3⟩, h3, h⟩ := bind_eq_some_iff.mp h
  obtain ⟨⟨sessionId, s4⟩, h4, h⟩ := bind_eq_some_iff.mp h
  obtain ⟨⟨suites, s5⟩, h5, h⟩ := bind_eq_some_iff.mp h
  obtain ⟨cipherSuites, h6, h⟩ := bind_eq_some_iff.mp h
  obtain ⟨⟨compressionMethods, s6⟩, h7, h⟩ := bind_eq_some_iff.mp h
  obtain ⟨hh, hd1⟩ := readN_eq_some.mp h1
  have hd2 := readU16_eq_some.mp h2
  obtain ⟨hr, hd3⟩ := readN_eq_some.mp h3
  obtain ⟨hs, hd4⟩ := readLP8_eq_some.mp h4
  obtain ⟨hc, hd5⟩ := readLP16_eq_some.mp h5
  obtain ⟨hm, hd6⟩ := readLP8_eq_some.mp h7
  have hsuites : suites = u16s cipherSuites :=
    eq_flatMap_of_parseAll (fun s x r hx => readU16_eq_some.mp hx) h6
  rw [hsuites] at hc hd5
  have hdata : data = front header vers random sessionId cipherSuites compressionMethods s6 := by
    rw [hd1, hd2, hd3, hd4, hd5, hd6, front]
    simp only [vec8, vec16, append_assoc]
  have h : (if s6.length = 0 then
        some (start data vers random sessionId cipherSuites compressionMethods)
      else ((readLP16 s6).bind atEnd).bind fun exts => (parseAll readRawExtension exts).bind
        (start data vers random sessionId cipherSuites compressionMethods).applyExtensions) =
      some m := h
  split_ifs at h with hrest
  · cases h
    exact ⟨header, s6, hh, hr, hs, hc, hm, hdata, rfl, .inl ⟨length_eq_zero_iff.mp hrest, rfl⟩⟩
  · obtain ⟨exts, hexts, h⟩ := bind_eq_some_iff.mp h
    obtain ⟨l, hl, h⟩ := bind_eq_some_iff.mp h
    obtain ⟨⟨exts', s7⟩, hlp, hend⟩ := bind_eq_some_iff.mp hexts
    obtain ⟨hlen, hs6⟩ := readLP16_eq_some.mp hlp
    obtain ⟨hs7, hexts'⟩ : s7 = [] ∧ exts' = exts := by
      cases s7 with
      | nil => exact ⟨rfl, some.inj hend⟩
      | cons _ _ => cases hend
    obtain ⟨hheader, horiginal⟩ := applyExtensions_header h
    simp only [ClientHelloMsg.header, Prod.mk.injEq] at hheader
    obtain ⟨hv, hran, hsid, hcs, hcm⟩ := hheader
    rw [hv, hran, hsid, hcs, hcm]
    rw [hexts'] at hlen hs6
    refine ⟨header, s6, hh, hr, hs, hc, hm, hdata, horiginal, .inr ⟨exts, l, hlen, ?_, hl, h⟩⟩
    rw [hs6, hs7, append_nil]
    rfl

end ClientHelloMsg

end Utls
