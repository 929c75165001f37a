import Utls.Types
import Utls.Lib.RWMutex

/-!
# Session ticket keys of a configuration

`Config.ticketKeys` returns the keys for the session tickets of a connection.  It takes them from
the configuration that `GetConfigForClient` returned if that one has keys of its own, and from the
configuration of the listener otherwise, where they are made and rotated as needed.  On the way it
takes and gives up the mutexes of both configurations by hand.

The part of a configuration that this needs is a `TicketConfig`, and `Configs` is a heap of them.
For each function there is one lemma that says what it leaves behind (`initLegacy_ok`,
`ownTicketKeys_ok`, `clientTicketKeys_ok`); the two theorems about sequences of calls follow from
these: `ticketKeys_neutral_iff` about the mutexes, and `rotation_spec` about the keys.
-/

namespace Utls

open Wire Exec Option Function
open List hiding Vector

/-! ## Keys and configurations -/

/-- `[32]byte`. -/
abbrev Key32 := Vector UInt8 32

/-- Times and durations are nanoseconds. -/
def hour : Int := 3600 * 1000000000

def ticketKeyLifetime : Int := 7 * 24 * hour

def ticketKeyRotation : Int := 24 * hour

/-- `ticketKey`. -/
structure TicketKey where
  aesKey : Bytes
  hmacKey : Bytes
  created : Int
  deriving DecidableEq, Repr

/-- The fields of `Config` that concern session ticket keys, with the mutex. -/
structure TicketConfig where
  sessionTicketsDisabled : Bool
  sessionTicketKey : Key32
  sessionTicketKeys : List TicketKey
  autoSessionTicketKeys : List TicketKey
  mutex : RWMutex

instance : HasMutex TicketConfig where
  mutex := TicketConfig.mutex
  setMutex c m := { c with mutex := m }
  mutex_set _ _ := rfl
  set_set _ _ _ := rfl
  set_self _ := rfl

/-- The zero value of `SessionTicketKey`. -/
def zeroKey : Key32 := Vector.replicate 32 0

/-- The bytes of `DEPRECATED`. -/
def deprecatedSessionTicketKey : Bytes := [68, 69, 80, 82, 69, 67, 65, 84, 69, 68]

/-- `bytes.HasPrefix(key[:], deprecatedSessionTicketKey)`. -/
def isDeprecated (key : Key32) : Bool := deprecatedSessionTicketKey.isPrefixOf key.toList

/-- `copy(key[:], deprecatedSessionTicketKey)`. -/
def markDeprecated (key : Key32) : Key32 :=
  Vector.ofFn fun i => deprecatedSessionTicketKey.getD i.val (key.get i)

section Hash

variable (sum512 : Bytes → Bytes)

variable (now : Int)

/-- `ticketKeyFromBytes`. -/
def ticketKeyFromBytes (b : Key32) : TicketKey :=
  let hashed := sum512 b.toList
  ⟨(hashed.drop 16).take 16, (hashed.drop (16 + 16)).take 16, now⟩

/-! ## The functions -/

/-- The part of `initLegacySessionTicketKeyRLocked` that holds the write lock.  `random` is what
the random source gives, `none` an error. -/
def legacyKeyLocked (random : Option Key32) : Prog Blocked TicketConfig Unit := do
  let c ← get
  if c.sessionTicketKey = zeroKey then
    match random with
    | none => panicWith "tls: unable to generate random session ticket key"
    | some key => set { c with sessionTicketKey := markDeprecated key }
  else if isDeprecated c.sessionTicketKey = false ∧ c.sessionTicketKeys.length = 0 then
    set { c with sessionTicketKeys := [ticketKeyFromBytes sum512 now c.sessionTicketKey] }
  else return ()

/-- `initLegacySessionTicketKeyRLocked`. -/
def initLegacySessionTicketKeyRLocked (random : Option Key32) : Prog Blocked TicketConfig Unit := do
  let c ← get
  if c.sessionTicketKey ≠ zeroKey ∧
      (isDeprecated c.sessionTicketKey = true ∨ c.sessionTicketKeys.length > 0) then
    return ()
  else exclusively (legacyKeyLocked sum512 now random)

/-- The first of the automatic keys is fresh enough to encrypt tickets. -/
def freshAt : List TicketKey → Bool
  | [] => false
  | key :: _ => decide (now - key.created < ticketKeyRotation)

/-- The keys after a rotation that brings in `key`. -/
def rotateKeys (key : TicketKey) (keys : List TicketKey) : List TicketKey :=
  key :: keys.filter fun k => decide (now - k.created < ticketKeyLifetime)

/-- The part of `ticketKeys` that holds the write lock of the configuration. -/
def rotateLocked (random : Option Key32) : Prog Blocked TicketConfig (List TicketKey) := do
  let c ← get
  if freshAt now c.autoSessionTicketKeys then return c.autoSessionTicketKeys
  else
    match random with
    | none => panicWith "unable to generate random session ticket key"
    | some newKey => do
      let valid := rotateKeys now (ticketKeyFromBytes sum512 now newKey) c.autoSessionTicketKeys
      set { c with autoSessionTicketKeys := valid }
      return valid

/-- The part of `ticketKeys` on the configuration of the listener, under its read lock. -/
def ticketKeysRLocked (legacy newKey : Option Key32) :
    Prog Blocked TicketConfig (List TicketKey) := do
  let c ← get
  if c.sessionTicketsDisabled then return []
  else
    initLegacySessionTicketKeyRLocked sum512 now legacy
    let c ← get
    if c.sessionTicketKeys.length ≠ 0 then return c.sessionTicketKeys
    else if freshAt now c.autoSessionTicketKeys then return c.autoSessionTicketKeys
    else exclusively (rotateLocked sum512 now newKey)

/-- The part of `ticketKeys` on the configuration of the listener. -/
def ownTicketKeys (legacy newKey : Option Key32) : Prog Blocked TicketConfig (List TicketKey) :=
  reading (ticketKeysRLocked sum512 now legacy newKey)

/-- The part of `ticketKeys` on the configuration for the client; `some` is what the function
returns there.  It returns without giving up the read lock if tickets are disabled. -/
def clientTicketKeys (legacy : Option Key32) :
    Prog Blocked TicketConfig (Option (List TicketKey)) := do
  rLock
  let c ← get
  if c.sessionTicketsDisabled then return some []
  else
    initLegacySessionTicketKeyRLocked sum512 now legacy
    let c ← get
    rUnlock
    return if c.sessionTicketKeys.length ≠ 0 then some c.sessionTicketKeys else none

end Hash

/-- The configurations of a program; the first `count` have been made so far. -/
structure Configs where
  config : Nat → TicketConfig
  count : Nat

/-- Runs a program on one configuration. -/
def onConfig {α : Type} (i : Nat) (x : Prog Blocked TicketConfig α) : Prog Blocked Configs α :=
  fun s =>
    match x (s.config i) with
    | .ok a c => .ok a { s with config := Function.update s.config i c }
    | .error e c => .error e { s with config := Function.update s.config i c }

/-- What the environment gives to a call of `ticketKeys`: the time, and the bytes of the random
source for the three places where it may be read. -/
structure TicketEnv where
  now : Int
  clientLegacy : Option Key32
  legacy : Option Key32
  newKey : Option Key32

section Hash

variable (sum512 : Bytes → Bytes)

/-- `ticketKeys`. -/
def ticketKeys (c : Nat) (configForClient : Option Nat) (env : TicketEnv) :
    Prog Blocked Configs (List TicketKey) :=
  match configForClient with
  | none => onConfig c (ownTicketKeys sum512 env.now env.legacy env.newKey)
  | some j => do
    match ← onConfig j (clientTicketKeys sum512 env.now env.clientLegacy) with
    | some keys => return keys
    | none => onConfig c (ownTicketKeys sum512 env.now env.legacy env.newKey)

/-- The part of `SetSessionTicketKeys` on its configuration. -/
def replaceTicketKeys (now : Int) (keys : List Key32) : Prog Blocked TicketConfig Unit := do
  assert (keys.length ≠ 0) "tls: keys must have at least one key"
  lock
  modify fun c => { c with sessionTicketKeys := keys.map (ticketKeyFromBytes sum512 now) }
  unlock

/-- `SetSessionTicketKeys`. -/
def setSessionTicketKeys (i : Nat) (keys : List Key32) (now : Int) : Prog Blocked Configs Unit :=
  onConfig i (replaceTicketKeys sum512 now keys)

/-- `Clone`; the clone has a mutex of its own. -/
def cloneConfig (i : Nat) : Prog Blocked Configs Nat := do
  let c ← onConfig i (reading get)
  let s ← get
  let config := Function.update s.config s.count { c with mutex := .free }
  set (⟨config, s.count + 1⟩ : Configs)
  return s.count

end Hash

/-! ## What the functions leave behind -/

/-- The configuration has no explicit keys, and no legacy key to make them from. -/
def TicketConfig.NoKeys (c : TicketConfig) : Prop :=
  c.sessionTicketKeys = [] ∧ (c.sessionTicketKey = zeroKey ∨ isDeprecated c.sessionTicketKey = true)

/-- `d` differs from `c` at most in the mutex and in the keys that the legacy key gives. -/
structure TicketConfig.LegacyStep (c d : TicketConfig) : Prop where
  disabled : d.sessionTicketsDisabled = c.sessionTicketsDisabled
  auto : d.autoSessionTicketKeys = c.autoSessionTicketKeys
  noKeys : c.NoKeys → d.NoKeys

lemma isDeprecated_markDeprecated (key : Key32) : isDeprecated (markDeprecated key) = true := by
  rw [isDeprecated, markDeprecated, Vector.toList_ofFn]
  rfl


section Hash

variable {sum512 : Bytes → Bytes} {now : Int} {c d : TicketConfig}

variable {random legacy : Option Key32} {keys : List TicketKey}

lemma legacyKeyLocked_ok {u : Unit} (h : legacyKeyLocked sum512 now random c = .ok u d) :
    d.mutex = c.mutex ∧ TicketConfig.LegacyStep c d := by
  rw [legacyKeyLocked, run_get_bind] at h
  by_cases hzero : c.sessionTicketKey = zeroKey
  · rw [if_pos hzero] at h
    cases random with
    | none => cases h
    | some key =>
      cases h
      exact ⟨rfl, rfl, rfl, fun hc => ⟨hc.1, .inr (isDeprecated_markDeprecated key)⟩⟩
  · rw [if_neg hzero] at h
    by_cases huser : isDeprecated c.sessionTicketKey = false ∧ c.sessionTicketKeys.length = 0
    · rw [if_pos huser] at h
      cases h
      refine ⟨rfl, rfl, rfl, fun hc => ?_⟩
      rcases hc.2 with hz | hdep
      · exact absurd hz hzero
      · exact absurd (hdep.symm.trans huser.1) (by decide)
    · rw [if_neg huser] at h
      cases h
      exact ⟨rfl, rfl, rfl, id⟩

theorem initLegacy_ok {u : Unit} (hc : c.mutex = .shared)
    (h : initLegacySessionTicketKeyRLocked sum512 now random c = .ok u d) :
    d.mutex = .shared ∧ TicketConfig.LegacyStep c d := by
  rw [initLegacySessionTicketKeyRLocked, run_get_bind] at h
  by_cases hset : c.sessionTicketKey ≠ zeroKey ∧
      (isDeprecated c.sessionTicketKey = true ∨ c.sessionTicketKeys.length > 0)
  · rw [if_pos hset] at h
    cases h
    exact ⟨hc, rfl, rfl, id⟩
  · rw [if_neg hset, exclusively_eq_ok hc fun _ _ hok => (legacyKeyLocked_ok hok).1] at h
    obtain ⟨e, hok, rfl⟩ := h
    have hstep := (legacyKeyLocked_ok hok).2
    exact ⟨rfl, hstep.disabled, hstep.auto, hstep.noKeys⟩

/-- The keys of an automatic configuration after a call: the old ones while the first is fresh, and
a new key with the unexpired old ones otherwise. -/
def Rotation (now : Int) (old keys : List TicketKey) : Prop :=
  if freshAt now old then keys = old
  else ∃ key : TicketKey, key.created = now ∧ keys = rotateKeys now key old

lemma rotateLocked_ok (h : rotateLocked sum512 now random c = .ok keys d) :
    d = { c with autoSessionTicketKeys := keys } ∧ Rotation now c.autoSessionTicketKeys keys := by
  rw [rotateLocked, run_get_bind] at h
  rw [Rotation]
  by_cases hfresh : freshAt now c.autoSessionTicketKeys = true
  · rw [if_pos hfresh] at h ⊢
    cases h
    exact ⟨rfl, rfl⟩
  · rw [if_neg hfresh] at h ⊢
    cases random with
    | none => cases h
    | some newKey =>
      cases h
      exact ⟨rfl, ticketKeyFromBytes sum512 now newKey, rfl, rfl⟩

/-- What a call of `ticketKeys` leaves of the configuration of the listener. -/
structure OwnStep (now : Int) (c d : TicketConfig) (keys : List TicketKey) : Prop where
  disabled : d.sessionTicketsDisabled = c.sessionTicketsDisabled
  noKeys : c.NoKeys → d.NoKeys
  rotation : c.sessionTicketsDisabled = false → c.NoKeys →
    keys = d.autoSessionTicketKeys ∧ Rotation now c.autoSessionTicketKeys keys

lemma ticketKeysRLocked_ok {newKey : Option Key32}
    (hc : c.mutex = .shared) (h : ticketKeysRLocked sum512 now legacy newKey c = .ok keys d) :
    d.mutex = .shared ∧ OwnStep now c d keys := by
  rw [ticketKeysRLocked, run_get_bind] at h
  cases hdis : c.sessionTicketsDisabled with
  | true =>
    rw [if_pos hdis] at h
    cases h
    exact ⟨hc, rfl, id, fun hen => absurd (hdis.symm.trans hen) (by decide)⟩
  | false =>
    rw [if_neg (by rw [hdis]; decide)] at h
    obtain ⟨u, e, hinit, hrest⟩ := bind_eq_ok.mp h
    obtain ⟨hshared, hstep⟩ := initLegacy_ok hc hinit
    rw [run_get_bind] at hrest
    by_cases hkeys : e.sessionTicketKeys.length ≠ 0
    · rw [if_pos hkeys] at hrest
      cases hrest
      refine ⟨hshared, hstep.disabled, hstep.noKeys, fun _ hno => ?_⟩
      exact absurd (congrArg List.length (hstep.noKeys hno).1) hkeys
    · rw [if_neg hkeys] at hrest
      by_cases hfresh : freshAt now e.autoSessionTicketKeys = true
      · rw [if_pos hfresh] at hrest
        cases hrest
        refine ⟨hshared, hstep.disabled, hstep.noKeys, fun _ _ => ⟨rfl, ?_⟩⟩
        rw [hstep.auto] at hfresh ⊢
        rw [Rotation, if_pos hfresh]
      · rw [if_neg hfresh, exclusively_eq_ok hshared fun _ _ hok => by
          rw [(rotateLocked_ok hok).1]; rfl] at hrest
        obtain ⟨f, hok, rfl⟩ := hrest
        obtain ⟨rfl, hrot⟩ := rotateLocked_ok hok
        refine ⟨rfl, hstep.disabled, hstep.noKeys, fun _ _ => ⟨rfl, ?_⟩⟩
        rw [← hstep.auto]
        exact hrot

theorem ownTicketKeys_ok {newKey : Option Key32}
    (hc : c.mutex = .free) (h : ownTicketKeys sum512 now legacy newKey c = .ok keys d) :
    d.mutex = .free ∧ OwnStep now c d keys := by
  rw [ownTicketKeys, reading_eq_ok hc fun _ _ hok => (ticketKeysRLocked_ok rfl hok).1] at h
  obtain ⟨e, hok, rfl⟩ := h
  have hstep := (ticketKeysRLocked_ok rfl hok).2
  exact ⟨rfl, hstep.disabled, hstep.noKeys, hstep.rotation⟩

/-- What a call of `ticketKeys` leaves of the configuration for the client: the mutex is free
exactly if tickets are enabled. -/
theorem clientTicketKeys_ok {r : Option (List TicketKey)}
    (hc : c.mutex = .free) (h : clientTicketKeys sum512 now legacy c = .ok r d) :
    d.mutex = (if c.sessionTicketsDisabled then .shared else .free) ∧
      TicketConfig.LegacyStep c d ∧
      (c.sessionTicketsDisabled = true → r = some []) ∧
      (c.sessionTicketsDisabled = false → c.NoKeys → r = none) := by
  rw [clientTicketKeys, run_bind, rLock_of_free hc] at h
  dsimp only at h
  rw [run_get_bind] at h
  cases hdis : c.sessionTicketsDisabled with
  | true =>
    rw [if_pos (show (HasMutex.setMutex c .shared).sessionTicketsDisabled = true from hdis)] at h
    cases h
    exact ⟨rfl, ⟨rfl, rfl, id⟩, fun _ => rfl, fun hen => absurd hen (by decide)⟩
  | false =>
    have hen : ¬(HasMutex.setMutex c .shared).sessionTicketsDisabled = true := by
      change ¬c.sessionTicketsDisabled = true
      rw [hdis]
      decide
    rw [if_neg hen] at h
    obtain ⟨u, e, hinit, hrest⟩ := bind_eq_ok.mp h
    obtain ⟨hshared, hstep⟩ := initLegacy_ok rfl hinit
    rw [run_get_bind, run_bind, rUnlock_of_shared hshared] at hrest
    cases hrest
    refine ⟨rfl, ⟨hstep.disabled, hstep.auto, hstep.noKeys⟩, fun hdis => absurd hdis (by decide),
      fun _ hno => if_neg ?_⟩
    exact not_not.mpr (congrArg List.length (hstep.noKeys hno).1)

end Hash

/-! ## Calls on several configurations -/

lemma onConfig_eq_ok {α : Type} {i : Nat} {x : Prog Blocked TicketConfig α} {s t : Configs}
    {a : α} : onConfig i x s = .ok a t ↔
      ∃ d, x (s.config i) = .ok a d ∧ t = { s with config := Function.update s.config i d } := by
  rw [onConfig]
  cases hx : x (s.config i) with
  | ok b d =>
    constructor
    · intro h
      cases h
      exact ⟨d, rfl, rfl⟩
    · rintro ⟨e, he, rfl⟩
      cases he
      rfl
  | error e d =>
    constructor
    · intro h
      cases h
    · rintro ⟨d, hd, -⟩
      cases hd

/-- No mutex is locked. -/
def Configs.Unlocked (s : Configs) : Prop := ∀ i, (s.config i).mutex = .free

lemma Configs.Unlocked.update_iff {s : Configs} (hs : s.Unlocked) {i n : Nat} {d : TicketConfig} :
    Configs.Unlocked ⟨Function.update s.config i d, n⟩ ↔ d.mutex = .free := by
  constructor
  · intro h
    have hi : (Function.update s.config i d i).mutex = .free := h i
    rwa [update_self] at hi
  · intro hd j
    exact (forall_update_iff s.config fun _ c => c.mutex = RWMutex.free).mpr
      ⟨hd, fun k _ => hs k⟩ j

/-- The calls that take a mutex. -/
inductive TicketCall where
  | ticketKeys (c : Nat) (configForClient : Option Nat) (env : TicketEnv)
  | setSessionTicketKeys (i : Nat) (keys : List Key32) (now : Int)
  | clone (i : Nat)

section Hash

variable (sum512 : Bytes → Bytes)

/-- One call, without its result. -/
def TicketCall.run : TicketCall → Prog Blocked Configs Unit
  | .ticketKeys c configForClient env => do
    let _ ← Utls.ticketKeys sum512 c configForClient env
    return ()
  | .setSessionTicketKeys i keys now => Utls.setSessionTicketKeys sum512 i keys now
  | .clone i => do
    let _ ← cloneConfig i
    return ()

/-- `SetSessionTicketKeys` can take the write lock of every configuration. -/
def Configs.CanSet (s : Configs) : Prop :=
  ∀ i keys now, keys ≠ [] → ∃ t, setSessionTicketKeys sum512 i keys now s = .ok () t

/-- After each call that returns no mutex is locked, and keys can be set. -/
def LockNeutral : Configs → List TicketCall → Prop
  | _, [] => True
  | s, q :: qs => ∀ t, q.run sum512 s = .ok () t → (t.Unlocked ∧ t.CanSet sum512) ∧ LockNeutral t qs

/-- The configuration for the client that a call is given has session tickets enabled. -/
def TicketCall.ClientEnabled (s : Configs) : TicketCall → Prop
  | .ticketKeys _ (some j) _ => (s.config j).sessionTicketsDisabled = false
  | _ => True

/-- No call that returns was given a configuration for the client with tickets disabled. -/
def ClientsEnabled : Configs → List TicketCall → Prop
  | _, [] => True
  | s, q :: qs => ∀ t, q.run sum512 s = .ok () t → q.ClientEnabled s ∧ ClientsEnabled t qs

variable {sum512} {s t : Configs}

lemma replaceTicketKeys_of_free {now : Int} {keys : List Key32} {c : TicketConfig}
    (hc : c.mutex = .free) (hkeys : keys ≠ []) : replaceTicketKeys sum512 now keys c =
      .ok () { c with sessionTicketKeys := keys.map (ticketKeyFromBytes sum512 now) } := by
  have hne : keys.length ≠ 0 := fun h => hkeys (length_eq_zero_iff.mp h)
  rw [replaceTicketKeys, run_bind, run_assert_true hne]
  dsimp only
  rw [run_bind, lock_of_free hc]
  dsimp only
  rw [run_bind, run_modify]
  dsimp only
  cases c
  cases hc
  rfl

lemma Configs.Unlocked.canSet (hs : s.Unlocked) : s.CanSet sum512 := by
  intro i keys now hkeys
  exact ⟨_, onConfig_eq_ok.mpr ⟨_, replaceTicketKeys_of_free (hs i) hkeys, rfl⟩⟩

lemma setSessionTicketKeys_unlocked {i : Nat} {keys : List Key32} {now : Int} {u : Unit}
    (hs : s.Unlocked) (h : setSessionTicketKeys sum512 i keys now s = .ok u t) : t.Unlocked := by
  obtain ⟨d, hd, rfl⟩ := onConfig_eq_ok.mp h
  have hkeys : keys ≠ [] := by
    rintro rfl
    exact (assert_bind_eq_ok.mp hd).1 rfl
  rw [replaceTicketKeys_of_free (hs i) hkeys] at hd
  cases hd
  exact hs.update_iff.mpr (hs i)

lemma cloneConfig_unlocked {i n : Nat} (hs : s.Unlocked) (h : cloneConfig i s = .ok n t) :
    t.Unlocked := by
  obtain ⟨c, s', hget, hrest⟩ := bind_eq_ok.mp h
  obtain ⟨d, hd, rfl⟩ := onConfig_eq_ok.mp hget
  have hfree : d.mutex = .free := by
    rw [reading_eq_ok (hs i) fun _ _ hok => by cases hok; rfl] at hd
    obtain ⟨e, -, rfl⟩ := hd
    rfl
  cases hrest
  exact ((hs.update_iff (n := s.count)).mpr hfree).update_iff.mpr rfl

lemma ticketKeys_unlocked_iff {c : Nat} {configForClient : Option Nat} {env : TicketEnv}
    {keys : List TicketKey} (hs : s.Unlocked)
    (h : ticketKeys sum512 c configForClient env s = .ok keys t) :
    t.Unlocked ↔ (TicketCall.ticketKeys c configForClient env).ClientEnabled s := by
  cases configForClient with
  | none =>
    obtain ⟨d, hd, rfl⟩ := onConfig_eq_ok.mp h
    exact iff_of_true (hs.update_iff.mpr (ownTicketKeys_ok (hs c) hd).1) trivial
  | some j =>
    obtain ⟨r, s', hclient, hrest⟩ := bind_eq_ok.mp h
    obtain ⟨d, hd, rfl⟩ := onConfig_eq_ok.mp hclient
    obtain ⟨hmutex, -, hnil, -⟩ := clientTicketKeys_ok (hs j) hd
    cases hdis : (s.config j).sessionTicketsDisabled with
    | true =>
      rw [hnil hdis] at hrest
      cases hrest
      rw [hs.update_iff, hmutex, TicketCall.ClientEnabled, hdis]
      decide
    | false =>
      rw [if_neg (by rw [hdis]; decide)] at hmutex
      have hs' := (hs.update_iff (i := j) (n := s.count)).mpr hmutex
      refine iff_of_true ?_ hdis
      cases r with
      | some keys' =>
        cases hrest
        exact hs'
      | none =>
        obtain ⟨e, he, rfl⟩ := onConfig_eq_ok.mp hrest
        exact hs'.update_iff.mpr (ownTicketKeys_ok (hs' c) he).1

/-- One call leaves every mutex free exactly if it is not given a configuration for the client with
tickets disabled. -/
lemma TicketCall.unlocked_iff {q : TicketCall} (hs : s.Unlocked)
    (h : q.run sum512 s = .ok () t) : t.Unlocked ↔ q.ClientEnabled s := by
  cases q with
  | ticketKeys c configForClient env =>
    obtain ⟨keys, t', hkeys, hret⟩ := bind_eq_ok.mp h
    cases hret
    exact ticketKeys_unlocked_iff hs hkeys
  | setSessionTicketKeys i keys now =>
    exact iff_of_true (setSessionTicketKeys_unlocked hs h) trivial
  | clone i =>
    obtain ⟨n, t', hclone, hret⟩ := bind_eq_ok.mp h
    cases hret
    exact iff_of_true (cloneConfig_unlocked hs hclone) trivial

/-- Every call of a sequence leaves the mutexes free, so that keys can be set afterwards, exactly
if no call that returns is given a configuration for the client with tickets disabled. -/
theorem ticketKeys_neutral_iff (hs : s.Unlocked) (calls : List TicketCall) :
    LockNeutral sum512 s calls ↔ ClientsEnabled sum512 s calls := by
  induction calls generalizing s with
  | nil => exact Iff.rfl
  | cons q qs ih =>
    refine forall₂_congr fun t ht => ?_
    rw [TicketCall.unlocked_iff hs ht |>.symm]
    constructor
    · rintro ⟨⟨hunlocked, -⟩, hrest⟩
      exact ⟨hunlocked, (ih hunlocked).mp hrest⟩
    · rintro ⟨hunlocked, hrest⟩
      exact ⟨⟨hunlocked, hunlocked.canSet⟩, (ih hunlocked).mpr hrest⟩

end Hash

/-- A configuration with nothing set. -/
def blankTicketConfig : TicketConfig := ⟨false, zeroKey, [], [], .free⟩

/-- Two configurations; the second has session tickets disabled if `disabled` is set. -/
def twoConfigs (disabled : Bool) : Configs :=
  ⟨fun i => { blankTicketConfig with sessionTicketsDisabled := disabled && i == 1 }, 2⟩

/-- A call at `now`, with a random source that gives zeros. -/
def zeroEnv (now : Int) : TicketEnv := ⟨now, some zeroKey, some zeroKey, some zeroKey⟩

theorem enabledClient_neutral :
    LockNeutral (fun _ => []) (twoConfigs false) [.ticketKeys 0 (some 1) (zeroEnv 0)] :=
  (ticketKeys_neutral_iff (fun _ => rfl) _).mpr fun _ _ => ⟨rfl, trivial⟩

/-- A configuration for the client with tickets disabled stays locked; its keys cannot be set. -/
theorem disabledClient_locked :
    (twoConfigs true).Unlocked ∧
      ¬LockNeutral (fun _ => []) (twoConfigs true) [.ticketKeys 0 (some 1) (zeroEnv 0)] ∧
      ∃ t, (TicketCall.ticketKeys 0 (some 1) (zeroEnv 0)).run (fun _ => []) (twoConfigs true) =
          .ok () t ∧
        (setSessionTicketKeys (fun _ => []) 1 [zeroKey] 0 t) matches .error (.error .lock) _ := by
  refine ⟨fun _ => rfl, fun h => ?_, _, rfl, rfl⟩
  have hfree := (h _ rfl).1.1 1
  cases hfree

/-! ## Rotation

The automatic keys of a configuration after a sequence of calls are described by `KeysAt`, which
speaks of the creation times only. -/

/-- The keys as they are after a call at time `last`: newest first, made at `last` or before, and
each younger than its lifetime when the first was made. -/
structure KeysAt (last : Int) (keys : List TicketKey) : Prop where
  sorted : keys.Pairwise fun k k' => k'.created < k.created
  made : ∀ k ∈ keys, k.created ≤ last
  young : ∀ first ∈ keys.head?, ∀ k ∈ keys, first.created - k.created < ticketKeyLifetime

/-- The answer of a call at `now`: not empty, newest first, with a first key younger than a
rotation period, and no key older than its lifetime by a rotation period. -/
structure AnswerAt (now : Int) (keys : List TicketKey) : Prop where
  nonempty : keys ≠ []
  sorted : keys.Pairwise fun k k' => k'.created < k.created
  fresh : ∀ first ∈ keys.head?, now - first.created < ticketKeyRotation
  young : ∀ k ∈ keys, now - k.created < ticketKeyLifetime + ticketKeyRotation

variable {now : Int} {keys : List TicketKey}

lemma KeysAt.rotateKeys {last : Int} {key : TicketKey}
    (h : KeysAt last keys) (hkey : key.created = now)
    (hstale : freshAt now keys = false) : KeysAt now (rotateKeys now key keys) := by
  have hpos : (0 : Int) < ticketKeyRotation := by decide
  have holder : ∀ k ∈ keys, k.created < now := by
    intro k hk
    cases keys with
    | nil => cases hk
    | cons first rest =>
      have hfirst : ticketKeyRotation ≤ now - first.created := not_lt.mp (of_decide_eq_false hstale)
      rcases mem_cons.mp hk with rfl | hrest
      · omega
      · have := (pairwise_cons.mp h.sorted).1 k hrest
        omega
  refine ⟨pairwise_cons.mpr ⟨fun k hk => ?_, h.sorted.filter _⟩, fun k hk => ?_,
    fun first hfirst k hk => ?_⟩
  · rw [hkey]
    exact holder k (mem_filter.mp hk).1
  · rcases mem_cons.mp hk with rfl | hold
    · exact hkey.le
    · exact (holder k (mem_filter.mp hold).1).le
  · obtain rfl : key = first := some.inj hfirst
    rcases mem_cons.mp hk with rfl | hold
    · rw [sub_self]
      decide
    · rw [hkey]
      exact of_decide_eq_true (mem_filter.mp hold).2

lemma KeysAt.rotation {last : Int} {old : List TicketKey} (h : KeysAt last old)
    (hnow : last ≤ now) (hrot : Rotation now old keys) : KeysAt now keys ∧ AnswerAt now keys := by
  rw [Rotation] at hrot
  cases hfresh : freshAt now old with
  | true =>
    rw [if_pos hfresh] at hrot
    subst hrot
    cases keys with
    | nil => cases hfresh
    | cons first rest =>
      have hage : now - first.created < ticketKeyRotation := of_decide_eq_true hfresh
      refine ⟨⟨h.sorted, fun k hk => (h.made k hk).trans hnow, h.young⟩,
        cons_ne_nil _ _, h.sorted, fun k hk => ?_, fun k hk => ?_⟩
      · obtain rfl : first = k := some.inj hk
        exact hage
      · have := h.young first rfl k hk
        omega
  | false =>
    rw [if_neg (by rw [hfresh]; decide)] at hrot
    obtain ⟨key, hkey, rfl⟩ := hrot
    have hnew := h.rotateKeys hkey hfresh
    have hpos : (0 : Int) < ticketKeyRotation := by decide
    refine ⟨hnew, cons_ne_nil _ _, hnew.sorted, fun k hk => ?_, fun k hk => ?_⟩
    · obtain rfl : key = k := some.inj hk
      omega
    · have := hnew.young key rfl k hk
      omega

/-- A key that is younger than its lifetime at a call is kept by it. -/
lemma Rotation.mem {old : List TicketKey} (h : Rotation now old keys)
    {k : TicketKey} (hk : k ∈ old) (hage : now - k.created < ticketKeyLifetime) : k ∈ keys := by
  rw [Rotation] at h
  split at h
  · rw [h]
    exact hk
  · obtain ⟨key, -, rfl⟩ := h
    exact mem_cons_of_mem _ (mem_filter.mpr ⟨hk, decide_eq_true hage⟩)

/-- The times at which keys were made, newest first, after a call at `now`: the call makes a key unless
the newest one is fresh. -/
def madeAt (now : Int) : List Int → List Int
  | [] => [now]
  | t :: made => if now - t < ticketKeyRotation then t :: made else now :: t :: made

/-- No call comes when a key that was younger than its lifetime at the last rotation has reached it. -/
def InTime : List Int → List Int → Prop
  | _, [] => True
  | made, now :: times =>
    (∀ t ∈ (madeAt now made).head?, ∀ x ∈ madeAt now made,
        t - x < ticketKeyLifetime → now - x < ticketKeyLifetime) ∧
      InTime (madeAt now made) times

/-- The keys are the newest one that was made and those that were younger than their lifetime then. -/
def KeptKeys : List Int → List TicketKey → Prop
  | [], keys => keys = []
  | t :: made, keys =>
    keys.map TicketKey.created = t :: made.filter fun x => decide (t - x < ticketKeyLifetime)

lemma KeptKeys.rotation {made : List Int} {old : List TicketKey} (h : KeptKeys made old)
    (hnow : ∀ k ∈ old, k.created ≤ now) (hrot : Rotation now old keys) :
    KeptKeys (madeAt now made) keys := by
  rw [Rotation] at hrot
  cases made with
  | nil =>
    cases h
    obtain ⟨key, rfl, rfl⟩ := hrot
    rfl
  | cons t made =>
    obtain ⟨k, rest, rfl, rfl, hrest⟩ := map_eq_cons_iff.mp h
    rw [madeAt]
    rw [freshAt] at hrot
    by_cases hfresh : now - k.created < ticketKeyRotation
    · rw [if_pos (decide_eq_true hfresh)] at hrot
      rw [if_pos hfresh, hrot]
      exact h
    · rw [if_neg (by simpa using hfresh)] at hrot
      obtain ⟨key, hkey, rfl⟩ := hrot
      rw [if_neg hfresh, KeptKeys, Utls.rotateKeys, map_cons, hkey]
      -- what has expired at the last rotation has expired now
      have hle := hnow k mem_cons_self
      have hexpired : (made.filter fun x => decide (k.created - x < ticketKeyLifetime)).filter
          (fun x => decide (now - x < ticketKeyLifetime)) =
          made.filter fun x => decide (now - x < ticketKeyLifetime) := by
        rw [List.filter_filter]
        refine filter_congr fun x _ => ?_
        rw [← Bool.decide_and, decide_eq_decide]
        omega
      rw [← hrest, List.filter_map] at hexpired
      rw [filter_cons, filter_cons, ← hexpired]
      split_ifs <;> rfl

/-- All of them are younger than their lifetime exactly if the time is right. -/
lemma KeptKeys.young_iff {made : List Int} (h : KeptKeys made keys) (now : Int) :
    (∀ k ∈ keys, now - k.created < ticketKeyLifetime) ↔ ∀ t ∈ made.head?, ∀ x ∈ made,
      t - x < ticketKeyLifetime → now - x < ticketKeyLifetime := by
  cases made with
  | nil =>
    cases h
    simp
  | cons t made =>
    have hpos : (0 : Int) < ticketKeyLifetime := by decide
    have hmap := forall_mem_map (f := TicketKey.created) (l := keys)
      (P := fun x => now - x < ticketKeyLifetime)
    rw [← hmap, h]
    simp [hpos]

/-- The configuration makes its keys itself. -/
structure TicketConfig.Automatic (c : TicketConfig) : Prop where
  enabled : c.sessionTicketsDisabled = false
  noKeys : c.NoKeys

section Hash

variable {sum512 : Bytes → Bytes} {s t : Configs}

lemma update_automatic {i j n : Nat} {d : TicketConfig}
    (hd : (s.config i).Automatic → d.Automatic) (hj : (s.config j).Automatic) :
    ((⟨Function.update s.config i d, n⟩ : Configs).config j).Automatic := by
  change (Function.update s.config i d j).Automatic
  rcases eq_or_ne j i with rfl | hne
  · rw [update_self]
    exact hd hj
  · rwa [update_of_ne hne]

variable {c : Nat}

/-- `ticketKeys` on configurations that make their keys themselves answers with the rotated keys of
the listener, keeps these, and leaves all such configurations what they are. -/
lemma ticketKeys_automatic {configForClient : Option Nat} {env : TicketEnv}
    {keys : List TicketKey} (hs : s.Unlocked) (hc : (s.config c).Automatic)
    (hclient : ∀ j ∈ configForClient, (s.config j).Automatic)
    (h : ticketKeys sum512 c configForClient env s = .ok keys t) :
    t.Unlocked ∧ (∀ i, (s.config i).Automatic → (t.config i).Automatic) ∧
      keys = (t.config c).autoSessionTicketKeys ∧
      Rotation env.now (s.config c).autoSessionTicketKeys keys := by
  -- the part on the listener's configuration, from any state in which that one is automatic
  have hown : ∀ {s' : Configs}, s'.Unlocked → (s'.config c).Automatic →
      onConfig c (ownTicketKeys sum512 env.now env.legacy env.newKey) s' = .ok keys t →
      t.Unlocked ∧ (∀ i, (s'.config i).Automatic → (t.config i).Automatic) ∧
        keys = (t.config c).autoSessionTicketKeys ∧
        Rotation env.now (s'.config c).autoSessionTicketKeys keys := by
    intro s' hs' hc' h'
    obtain ⟨d, hd, rfl⟩ := onConfig_eq_ok.mp h'
    obtain ⟨hfree, hstep⟩ := ownTicketKeys_ok (hs' c) hd
    obtain ⟨hkeys, hrot⟩ := hstep.rotation hc'.enabled hc'.noKeys
    refine ⟨hs'.update_iff.mpr hfree, fun i hi => update_automatic (fun ha => ?_) hi, ?_, hrot⟩
    · exact ⟨hstep.disabled.trans ha.enabled, hstep.noKeys ha.noKeys⟩
    · change keys = (Function.update s'.config c d c).autoSessionTicketKeys
      rw [update_self]
      exact hkeys
  cases configForClient with
  | none => exact hown hs hc h
  | some j =>
    have hj := hclient j rfl
    obtain ⟨r, s', hclientOk, hrest⟩ := bind_eq_ok.mp h
    obtain ⟨d, hd, rfl⟩ := onConfig_eq_ok.mp hclientOk
    obtain ⟨hmutex, hstep, -, hnone⟩ := clientTicketKeys_ok (hs j) hd
    rw [if_neg (by rw [hj.enabled]; decide)] at hmutex
    rw [hnone hj.enabled hj.noKeys] at hrest
    have hkeep : ∀ i, (s.config i).Automatic →
        ((⟨Function.update s.config j d, s.count⟩ : Configs).config i).Automatic := fun i hi =>
      update_automatic
        (fun ha => ⟨hstep.disabled.trans ha.enabled, hstep.noKeys ha.noKeys⟩) hi
    have hauto : (Function.update s.config j d c).autoSessionTicketKeys =
        (s.config c).autoSessionTicketKeys := by
      rcases eq_or_ne c j with rfl | hne
      · rw [update_self]
        exact hstep.auto
      · rw [update_of_ne hne]
    obtain ⟨ht, hkept, hkeys, hrot⟩ := hown (hs.update_iff.mpr hmutex) (hkeep c hc) hrest
    refine ⟨ht, fun i hi => hkept i (hkeep i hi), hkeys, ?_⟩
    rw [← hauto]
    exact hrot

variable (sum512)

/-- The answers of a sequence of calls of `ticketKeys` on the configuration `c`, with their times.
The sequence ends at a call that does not return. -/
def answers (c : Nat) : Configs → List (Option Nat × TicketEnv) → List (Int × List TicketKey)
  | _, [] => []
  | s, (configForClient, env) :: calls =>
    match ticketKeys sum512 c configForClient env s with
    | .ok keys t => (env.now, keys) :: answers c t calls
    | .error _ _ => []

variable {sum512}

lemma exists_call_of_mem_answers {calls : List (Option Nat × TicketEnv)} {a : Int × List TicketKey}
    (h : a ∈ answers sum512 c s calls) : ∃ q ∈ calls, a.1 = q.2.now := by
  induction calls generalizing s with
  | nil => cases h
  | cons q calls ih =>
    obtain ⟨configForClient, env⟩ := q
    rw [answers] at h
    cases hcall : ticketKeys sum512 c configForClient env s with
    | error e t =>
      rw [hcall] at h
      cases h
    | ok keys t =>
      rw [hcall] at h
      rcases mem_cons.mp h with rfl | hrest
      · exact ⟨_, mem_cons_self, rfl⟩
      · obtain ⟨q, hq, hnow⟩ := ih hrest
        exact ⟨q, mem_cons_of_mem _ hq, hnow⟩

/-- The calls are given configurations that make their keys themselves, or none. -/
def AutomaticClients (s : Configs) (calls : List (Option Nat × TicketEnv)) : Prop :=
  ∀ q ∈ calls, ∀ j ∈ q.1, (s.config j).Automatic

variable (sum512) in
/-- What holds of the answers of calls from a state with keys `KeysAt`: each is as it should be,
the keys of the start as well as the first key of each answer are in the later answers while they are
younger than their lifetime, and there are no others exactly if the calls are in time. -/
lemma KeysAt.answers {calls : List (Option Nat × TicketEnv)} {last : Int} (hs : s.Unlocked)
    (hc : (s.config c).Automatic) (hclients : AutomaticClients s calls)
    (hkeys : KeysAt last (s.config c).autoSessionTicketKeys) (hlast : ∀ q ∈ calls, last ≤ q.2.now)
    (hmono : calls.Pairwise fun q q' => q.2.now ≤ q'.2.now) (made : List Int)
    (hmade : KeptKeys made (s.config c).autoSessionTicketKeys) :
    (∀ a ∈ answers sum512 c s calls, AnswerAt a.1 a.2) ∧
      (∀ k ∈ (s.config c).autoSessionTicketKeys, ∀ a ∈ answers sum512 c s calls,
        a.1 - k.created < ticketKeyLifetime → k ∈ a.2) ∧
      ((answers sum512 c s calls).Pairwise fun a a' =>
        ∀ k ∈ a.2.head?, a'.1 - k.created < ticketKeyLifetime → k ∈ a'.2) ∧
      ((∀ a ∈ answers sum512 c s calls, ∀ k ∈ a.2, a.1 - k.created < ticketKeyLifetime) ↔
        InTime made ((answers sum512 c s calls).map Prod.fst)) := by
  induction calls generalizing s last made with
  | nil => simp [Utls.answers, InTime]
  | cons q calls ih =>
    obtain ⟨configForClient, env⟩ := q
    rw [Utls.answers]
    cases hcall : ticketKeys sum512 c configForClient env s with
    | error e t => simp [InTime]
    | ok keys t =>
      obtain ⟨ht, hkept, hauto, hrot⟩ :=
        ticketKeys_automatic hs hc (hclients _ mem_cons_self) hcall
      obtain ⟨hnext, hanswer⟩ := hkeys.rotation (hlast _ mem_cons_self) hrot
      have hnow := hlast _ mem_cons_self
      have hmade' := hmade.rotation (fun k hk => (hkeys.made k hk).trans hnow) hrot
      have hyoung := hmade'.young_iff env.now
      rw [hauto] at hnext hmade'
      obtain ⟨hall, hstart, hpairs, htime⟩ := ih ht (hkept c hc)
        (fun q hq j hj => hkept j (hclients q (mem_cons_of_mem _ hq) j hj)) hnext
        (pairwise_cons.mp hmono).1 (pairwise_cons.mp hmono).2 _ hmade'
      rw [← hauto] at hstart
      refine ⟨forall_mem_cons.mpr ⟨hanswer, hall⟩, fun k hk => ?_,
        pairwise_cons.mpr ⟨fun a ha k hk => hstart k (mem_of_mem_head? hk) a ha, hpairs⟩,
        forall_mem_cons.trans (and_congr hyoung htime)⟩
      refine forall_mem_cons.mpr ⟨fun hage => hrot.mem hk hage, fun a ha hage => ?_⟩
      -- a key that is young enough at a later call is so at this one
      obtain ⟨q, hq, htime⟩ := exists_call_of_mem_answers ha
      have hle : env.now ≤ q.2.now := (pairwise_cons.mp hmono).1 q hq
      exact hstart k (hrot.mem hk (by omega)) a ha hage

/-- Automatic rotation.  On a configuration that makes its keys itself and has none yet, every
answer to a sequence of calls at non-decreasing times is not empty, newest first, has a first key
younger than 24 hours and no key of 8 days or more.  A key that was first in an answer is in every
later one while it is younger than 7 days; and no answer has a key of 7 days or more exactly if no
call comes when a key that the last rotation kept has reached that age. -/
theorem rotation_spec {c : Nat} {calls : List (Option Nat × TicketEnv)} (hs : s.Unlocked)
    (hc : (s.config c).Automatic) (hnone : (s.config c).autoSessionTicketKeys = [])
    (hclients : AutomaticClients s calls)
    (hmono : calls.Pairwise fun q q' => q.2.now ≤ q'.2.now) :
    (∀ a ∈ answers sum512 c s calls, a.2 ≠ [] ∧
        a.2.Pairwise (fun k k' => k'.created < k.created) ∧
        (∀ first ∈ a.2.head?, a.1 - first.created < 24 * hour) ∧
        ∀ k ∈ a.2, a.1 - k.created < 8 * 24 * hour) ∧
      ((answers sum512 c s calls).Pairwise fun a a' =>
        ∀ k ∈ a.2.head?, a'.1 - k.created < 7 * 24 * hour → k ∈ a'.2) ∧
      ((∀ a ∈ answers sum512 c s calls, ∀ k ∈ a.2, a.1 - k.created < 7 * 24 * hour) ↔
        InTime [] ((answers sum512 c s calls).map Prod.fst)) := by
  cases calls with
  | nil => simp [answers, InTime]
  | cons q calls =>
    have hkeys : KeysAt q.2.now (s.config c).autoSessionTicketKeys := by
      rw [hnone]
      exact ⟨List.Pairwise.nil, fun k hk => absurd hk not_mem_nil,
        fun _ _ k hk => absurd hk not_mem_nil⟩
    obtain ⟨hall, -, hpairs, htime⟩ := hkeys.answers sum512 hs hc hclients
      (forall_mem_cons.mpr ⟨le_refl _, (pairwise_cons.mp hmono).1⟩) hmono [] hnone
    refine ⟨fun a ha => ?_, hpairs, htime⟩
    have h := hall a ha
    refine ⟨h.nonempty, h.sorted, h.fresh, fun k hk => ?_⟩
    exact (h.young k hk).trans_eq (by decide)

end Hash

/-- Calls with no configuration for the client, at the given hours. -/
def callsAt (hours : List Int) : List (Option Nat × TicketEnv) :=
  hours.map fun h => (none, zeroEnv (h * hour))

theorem rotation_spec_daily :
    InTime [] ((answers (fun _ => []) 0 (twoConfigs false) (callsAt [0, 25, 50])).map Prod.fst) ∧
    ∀ a ∈ answers (fun _ => []) 0 (twoConfigs false) (callsAt [0, 25, 50]), a.2 ≠ [] ∧
      ∀ k ∈ a.2, a.1 - k.created < 7 * 24 * hour := by
  have hspec := @rotation_spec (fun _ => []) (twoConfigs false) 0 (callsAt [0, 25, 50]) (fun _ => rfl)
    ⟨rfl, rfl, .inl rfl⟩ rfl
    (fun q hq j hj => by
      obtain ⟨h, -, rfl⟩ := List.mem_map.mp hq
      cases hj) (by decide)
  have htimes : (answers (fun _ => []) 0 (twoConfigs false) (callsAt [0, 25, 50])).map Prod.fst =
      [0, 25 * hour, 50 * hour] := by decide +kernel
  have hin : InTime [] [0, 25 * hour, 50 * hour] := by
    simp [InTime, madeAt, ticketKeyRotation, ticketKeyLifetime, hour]
  rw [← htimes] at hin
  exact ⟨hin, fun a ha => ⟨(hspec.1 a ha).1, hspec.2.2.mpr hin a ha⟩⟩

/-- A key made at hour 0 survives the rotation at hour 167 and is still there at hour 169. -/
theorem rotation_keeps_expired :
    ∃ a ∈ answers (fun _ => []) 0 (twoConfigs false) (callsAt [0, 167, 169]),
      ∃ k ∈ a.2, 7 * 24 * hour ≤ a.1 - k.created := by
  decide +kernel

end Utls
