import Utls.Types
import Utls.Lib.Lru

/-!
# The session cache

`lruSessionCache` keeps sessions in a linked list with the latest use at the front, and a map from
keys to the elements of that list.  An element is recycled when a new key pushes the last one out,
so list and map have to be changed together.

The model keeps the elements: an element is a number, the list is a list of them, the map sends
keys to them, and a table says what stands in each.  `Lists` says that the list, read through the
table, is an association list that the map indexes.  Every call keeps this
(`Lists.put`, `Lists.get`), and on association lists the calls are easy to compare with an
`Lru.Store`.  They do what the store does except when nothing is put under a key that the cache
does not hold.
-/

namespace Utls

open Lru List Option Function

variable {σ : Type}

/-! ## The cache -/

/-- `lruSessionCacheEntry`; the state `none` is a nil pointer. -/
structure LruSessionCacheEntry (σ : Type) where
  sessionKey : GoString
  state : Option σ

/-- `lruSessionCache`.  List elements are numbers; `value` is what stands in an element and `next`
the element that `PushFront` allocates next. -/
structure LruSessionCache (σ : Type) where
  m : AList fun _ : GoString => Nat
  q : List Nat
  capacity : Nat
  value : Nat → LruSessionCacheEntry σ
  next : Nat

def defaultSessionCacheCapacity : Nat := 64

/-- `NewLRUClientSessionCache`. -/
def newLRUClientSessionCache (capacity : Int) : LruSessionCache σ where
  m := ∅
  q := []
  capacity := if capacity < 1 then defaultSessionCacheCapacity else capacity.toNat
  value := fun _ => ⟨[], none⟩
  next := 0

namespace LruSessionCache

variable (c : LruSessionCache σ)

/-- `list.MoveToFront`. -/
def moveToFront (elem : Nat) : LruSessionCache σ :=
  { c with q := elem :: c.q.erase elem }

/-- `Put`; `none` is the panic of reading the back of an empty list. -/
def put (sessionKey : GoString) (cs : Option σ) : Option (LruSessionCache σ) :=
  match c.m.lookup sessionKey with
  | some elem =>
    match cs with
    | none => some { c with q := c.q.erase elem, m := c.m.erase sessionKey }
    | some _ =>
      let entry := { c.value elem with state := cs }
      some ({ c with value := Function.update c.value elem entry }.moveToFront elem)
  | none =>
    if c.q.length < c.capacity then
      some { c with
        value := Function.update c.value c.next ⟨sessionKey, cs⟩
        q := c.next :: c.q
        m := c.m.insert sessionKey c.next
        next := c.next + 1 }
    else
      match c.q.getLast? with
      | none => none
      | some elem =>
        let m := c.m.erase (c.value elem).sessionKey
        let c := { c with value := Function.update c.value elem ⟨sessionKey, cs⟩ }.moveToFront elem
        some { c with m := m.insert sessionKey elem }

/-- `Get`. -/
def get (sessionKey : GoString) : LruSessionCache σ × Answer σ :=
  match c.m.lookup sessionKey with
  | some elem => (c.moveToFront elem, .found (c.value elem).state)
  | none => (c, .notFound)

/-- One call. -/
def call : Op GoString σ → Option (LruSessionCache σ × Answer σ)
  | .put k cs => (c.put k cs).map fun c' => (c', .done)
  | .get k => some (c.get k)

/-! ## List and map -/

/-- The entry of an element, as a pair of an association list. -/
def entry (elem : Nat) : Σ _ : GoString, Option σ :=
  ⟨(c.value elem).sessionKey, (c.value elem).state⟩

/-- The keys in the list, the latest use first. -/
def listKeys : List GoString :=
  c.q.map fun elem => (c.value elem).sessionKey

/-- The list holds the entries `l`, and the map points to them. -/
structure Lists (c : LruSessionCache σ) (l : AList fun _ : GoString => Option σ) : Prop where
  entries : c.q.map c.entry = l.entries
  lookup : ∀ k elem, c.m.lookup k = some elem ↔ elem ∈ c.q ∧ (c.value elem).sessionKey = k
  allocated : ∀ elem ∈ c.q, elem < c.next
  fits : c.q.length ≤ c.capacity

end LruSessionCache

/-- `Put` on association lists. -/
def listPut (capacity : Nat) (l : AList fun _ : GoString => Option σ) (k : GoString)
    (cs : Option σ) : AList fun _ : GoString => Option σ :=
  if k ∈ l then
    match cs with
    | none => l.erase k
    | some _ => l.insert k cs
  else if l.entries.length < capacity then l.insert k cs
  else
    match l.keys.getLast? with
    | none => l
    | some w => (l.erase w).insert k cs

lemma eraseP_congr {α : Type} {p r : α → Bool} {l : List α} (h : ∀ a ∈ l, p a = r a) :
    l.eraseP p = l.eraseP r := by
  induction l with
  | nil => rfl
  | cons a l ih =>
    rw [eraseP_cons, eraseP_cons, h a mem_cons_self, ih fun b hb => h b (mem_cons_of_mem a hb)]

namespace LruSessionCache.Lists

variable {c : LruSessionCache σ} {l : AList fun _ : GoString => Option σ} {k : GoString}

variable (h : c.Lists l)

include h

lemma keys_eq : c.listKeys = l.keys := by
  change _ = l.entries.map Sigma.fst
  rw [← h.entries, List.map_map]
  rfl

lemma nodup : c.q.Nodup := by
  have hkeys : c.listKeys.Nodup := h.keys_eq ▸ l.keys_nodup
  exact hkeys.of_map _

/-- The map and the list hold the same keys. -/
lemma mem_iff : k ∈ c.m ↔ k ∈ l := by
  rw [AList.mem_keys (s := l), ← h.keys_eq, ← AList.lookup_isSome, isSome_iff_exists]
  constructor
  · rintro ⟨elem, helem⟩
    obtain ⟨hq, hk⟩ := (h.lookup k elem).mp helem
    exact List.mem_map.mpr ⟨elem, hq, hk⟩
  · intro hk
    obtain ⟨elem, hq, hk⟩ := List.mem_map.mp hk
    exact ⟨elem, (h.lookup k elem).mpr ⟨hq, hk⟩⟩

variable {elem : Nat}

/-- What the map points to is what the association list holds. -/
lemma lookup_eq (helem : c.m.lookup k = some elem) : l.lookup k = some (c.value elem).state := by
  obtain ⟨hq, hk⟩ := (h.lookup k elem).mp helem
  refine AList.mem_lookup_iff.mpr ?_
  rw [← h.entries]
  exact List.mem_map.mpr ⟨elem, hq, by rw [entry, hk]⟩

/-- Two elements of the list that hold the same key are the same. -/
lemma elem_inj {a b : Nat} (ha : a ∈ c.q) (hb : b ∈ c.q)
    (hab : (c.value a).sessionKey = (c.value b).sessionKey) : a = b := by
  have hla := (h.lookup _ a).mpr ⟨ha, hab⟩
  have hlb := (h.lookup _ b).mpr ⟨hb, rfl⟩
  exact some.inj (hla.symm.trans hlb)

/-- Taking an element out of the list takes its key out of the association list. -/
lemma map_erase (helem : elem ∈ c.q) :
    (c.q.erase elem).map c.entry = (l.erase (c.value elem).sessionKey).entries := by
  change _ = kerase _ l.entries
  rw [← h.entries, kerase, eraseP_map, erase_eq_eraseP]
  congr 1
  refine eraseP_congr fun a ha => ?_
  rw [Bool.eq_iff_iff, beq_iff_eq]
  constructor
  · rintro rfl
    exact decide_eq_true rfl
  · intro hkey
    exact h.elem_inj helem ha (of_decide_eq_true hkey)

/-- A new entry goes to the front: the element `elem` is filled anew and linked in before the
others, which hold `rest`, and the map `m` points to it. -/
lemma front {rest : AList fun _ : GoString => Option σ}
    {m : AList fun _ : GoString => Nat} {next : Nat} (cs : Option σ)
    (hrest : (c.q.erase elem).map c.entry = rest.entries) (hk : k ∉ rest)
    (hm : ∀ x e, m.lookup x = some e ↔
      e = elem ∧ x = k ∨ e ∈ c.q.erase elem ∧ (c.value e).sessionKey = x)
    (hnext : elem < next ∧ c.next ≤ next) (hfits : (c.q.erase elem).length < c.capacity) :
    Lists
      { c with
        value := Function.update c.value elem ⟨k, cs⟩
        q := elem :: c.q.erase elem
        m := m
        next := next }
      (rest.insert k cs) := by
  have hnot : elem ∉ c.q.erase elem := fun he => (h.nodup.mem_erase_iff.mp he).1 rfl
  -- the other elements keep what stands in them
  have hother : ∀ e ∈ c.q.erase elem, Function.update c.value elem ⟨k, cs⟩ e = c.value e := by
    intro e he
    have hne : e ≠ elem := fun heq => hnot (heq ▸ he)
    exact update_of_ne hne _ _
  refine ⟨?_, fun x e => ?_, fun e he => ?_, ?_⟩
  · rw [AList.entries_insert_of_notMem hk, ← hrest]
    simp only [map_cons, entry, update_self]
    congr 1
    refine map_congr_left fun e he => ?_
    simp only [entry, hother e he]
  · rw [hm x e]
    simp only [mem_cons]
    constructor
    · rintro (⟨rfl, rfl⟩ | ⟨he, hx⟩)
      · exact ⟨.inl rfl, by rw [update_self]⟩
      · exact ⟨.inr he, by rw [hother e he]; exact hx⟩
    · rintro ⟨rfl | he, hx⟩
      · rw [update_self] at hx
        exact .inl ⟨rfl, hx.symm⟩
      · rw [hother e he] at hx
        exact .inr ⟨he, hx⟩
  · rcases mem_cons.mp he with rfl | he
    · exact hnext.1
    · exact (h.allocated e (mem_of_mem_erase he)).trans_le hnext.2
  · exact hfits

/-- The entries that stay when the entry of `k` is moved to the front. -/
lemma move (helem : c.m.lookup k = some elem) (cs : Option σ) : Lists
      ({ c with value := Function.update c.value elem ⟨k, cs⟩ }.moveToFront elem)
      (l.insert k cs) := by
  obtain ⟨hq, hk⟩ := (h.lookup k elem).mp helem
  have hsame : (l.erase k).insert k cs = l.insert k cs := by
    refine AList.ext ?_
    rw [AList.entries_insert_of_notMem (fun hmem => (AList.mem_erase.mp hmem).1 rfl)]
    rfl
  rw [← hsame]
  refine h.front cs (hk ▸ h.map_erase hq) (fun hmem => (AList.mem_erase.mp hmem).1 rfl) ?_
    ⟨h.allocated elem hq, le_rfl⟩ ?_
  · intro x e
    rw [h.lookup x e, h.nodup.mem_erase_iff]
    constructor
    · rintro ⟨he, hx⟩
      rcases eq_or_ne e elem with rfl | hne
      · exact .inl ⟨rfl, hx.symm.trans hk⟩
      · exact .inr ⟨⟨hne, he⟩, hx⟩
    · rintro (⟨rfl, rfl⟩ | ⟨⟨-, he⟩, hx⟩)
      · exact ⟨hq, hk⟩
      · exact ⟨he, hx⟩
  · rw [length_erase_of_mem hq]
    have hpos := length_pos_of_mem hq
    have hfits := h.fits
    omega

/-- Removing a key. -/
lemma removed (helem : c.m.lookup k = some elem) :
    Lists { c with q := c.q.erase elem, m := c.m.erase k } (l.erase k) := by
  obtain ⟨hq, hk⟩ := (h.lookup k elem).mp helem
  refine ⟨hk ▸ h.map_erase hq, fun x e => ?_, fun e he => ?_, ?_⟩
  · rw [h.nodup.mem_erase_iff]
    rcases eq_or_ne x k with rfl | hne
    · rw [AList.lookup_erase]
      refine iff_of_false nofun ?_
      rintro ⟨⟨hne, he⟩, hx⟩
      exact hne (h.elem_inj he hq (hx.trans hk.symm))
    · rw [AList.lookup_erase_ne hne, h.lookup x e]
      refine ⟨fun ⟨he, hx⟩ => ⟨⟨?_, he⟩, hx⟩, fun ⟨⟨_, he⟩, hx⟩ => ⟨he, hx⟩⟩
      rintro rfl
      exact hne (hx.symm.trans hk)
  · exact h.allocated e (mem_of_mem_erase he)
  · exact (length_erase_le).trans h.fits

/-- A new key with room for it. -/
lemma pushed (hk : c.m.lookup k = none) (hroom : c.q.length < c.capacity) (cs : Option σ) :
    Lists
      { c with
        value := Function.update c.value c.next ⟨k, cs⟩
        q := c.next :: c.q
        m := c.m.insert k c.next
        next := c.next + 1 }
      (l.insert k cs) := by
  have hnew : c.next ∉ c.q := fun hmem => (h.allocated _ hmem).ne rfl
  have hq : c.q.erase c.next = c.q := erase_of_not_mem hnew
  have hout : k ∉ l := fun hmem => AList.lookup_eq_none.mp hk (h.mem_iff.mpr hmem)
  have hm : ∀ x e, (c.m.insert k c.next).lookup x = some e ↔
      e = c.next ∧ x = k ∨ e ∈ c.q.erase c.next ∧ (c.value e).sessionKey = x := by
    intro x e
    rw [hq, ← h.lookup x e]
    rcases eq_or_ne x k with rfl | hne
    · rw [AList.lookup_insert, hk]
      simp [eq_comm]
    · rw [AList.lookup_insert_ne hne]
      simp [hne]
  have hnext : c.next < c.next + 1 ∧ c.next ≤ c.next + 1 := ⟨Nat.lt_succ_self _, Nat.le_succ _⟩
  have hfront := h.front cs (hq.symm ▸ h.entries) hout hm hnext (hq.symm ▸ hroom)
  rw [hq] at hfront
  exact hfront

/-- A new key takes the place of the last one. -/
lemma recycled (hk : c.m.lookup k = none) (hback : c.q.getLast? = some elem) (cs : Option σ) :
    Lists
      { c with
        value := Function.update c.value elem ⟨k, cs⟩
        q := elem :: c.q.erase elem
        m := (c.m.erase (c.value elem).sessionKey).insert k elem }
      ((l.erase (c.value elem).sessionKey).insert k cs) := by
  have hq : elem ∈ c.q := mem_of_getLast? hback
  have hout : k ∉ l := fun hmem => AList.lookup_eq_none.mp hk (h.mem_iff.mpr hmem)
  have hrest := h.removed ((h.lookup _ elem).mpr ⟨hq, rfl⟩)
  refine h.front cs (h.map_erase hq) (fun hmem => hout (AList.mem_erase.mp hmem).2) ?_
    ⟨h.allocated elem hq, le_rfl⟩ ?_
  · intro x e
    rcases eq_or_ne x k with rfl | hne
    · have hno : ¬(e ∈ c.q.erase elem ∧ (c.value e).sessionKey = x) := by
        rintro ⟨he, hx⟩
        have := (h.lookup x e).mpr ⟨mem_of_mem_erase he, hx⟩
        rw [hk] at this
        cases this
      rw [AList.lookup_insert, or_iff_left hno]
      simp [eq_comm]
    · rw [AList.lookup_insert_ne hne, hrest.lookup x e]
      simp [hne]
  · rw [length_erase_of_mem hq]
    have hpos := length_pos_of_mem hq
    have hfits := h.fits
    omega

/-- `Put` does to the list what `listPut` does, and does not panic. -/
theorem put (hcap : 1 ≤ c.capacity) (k : GoString) (cs : Option σ) :
    ∃ c', c.put k cs = some c' ∧ c'.capacity = c.capacity ∧
      c'.Lists (listPut c.capacity l k cs) := by
  have hlen : l.entries.length = c.q.length := by rw [← h.entries, length_map]
  unfold LruSessionCache.put listPut
  cases hk : c.m.lookup k with
  | some elem =>
    have hmem : k ∈ l := h.mem_iff.mp (AList.lookup_isSome.mp (hk ▸ rfl))
    rw [if_pos hmem]
    cases cs with
    | none => exact ⟨_, rfl, rfl, h.removed hk⟩
    | some v =>
      have hkey := ((h.lookup k elem).mp hk).2
      have hmove := h.move hk (some v)
      rw [← hkey] at hmove ⊢
      exact ⟨_, rfl, rfl, hmove⟩
  | none =>
    have hmem : k ∉ l := fun hmem => AList.lookup_eq_none.mp hk (h.mem_iff.mpr hmem)
    rw [if_neg hmem, hlen]
    by_cases hroom : c.q.length < c.capacity
    · simp only [if_pos hroom]
      exact ⟨_, rfl, rfl, h.pushed hk hroom cs⟩
    · simp only [if_neg hroom]
      have hpos : c.q ≠ [] := by
        intro hnil
        rw [hnil] at hroom
        exact hroom hcap
      have hback : c.q.getLast? = some (c.q.getLast hpos) := getLast?_eq_some_getLast hpos
      generalize c.q.getLast hpos = elem at hback
      have hlast : l.keys.getLast? = some (c.value elem).sessionKey := by
        rw [← h.keys_eq, listKeys, getLast?_map, hback]
        rfl
      rw [hback, hlast]
      exact ⟨_, rfl, rfl, h.recycled hk hback cs⟩

/-- `Get` finds what the list holds and moves it to the front. -/
lemma get_of_lookup {v : Option σ} (hv : l.lookup k = some v) :
    (c.get k).2 = .found v ∧ (c.get k).1.capacity = c.capacity ∧
      (c.get k).1.Lists (l.insert k v) := by
  have hmem : k ∈ c.m := h.mem_iff.mpr (AList.lookup_isSome.mp (hv ▸ rfl))
  obtain ⟨elem, helem⟩ := isSome_iff_exists.mp (AList.lookup_isSome.mpr hmem)
  have hstate : (c.value elem).state = v := some.inj ((h.lookup_eq helem).symm.trans hv)
  have hvalue : (⟨k, v⟩ : LruSessionCacheEntry σ) = c.value elem := by
    rw [← hstate, ← ((h.lookup k elem).mp helem).2]
  have hmove := h.move helem v
  rw [hvalue, update_eq_self] at hmove
  rw [LruSessionCache.get, helem]
  exact ⟨congrArg Answer.found hstate, rfl, hmove⟩

lemma get_of_not_mem (hk : k ∉ l) : c.get k = (c, .notFound) := by
  have hnone : c.m.lookup k = none := AList.lookup_eq_none.mpr fun hmem => hk (h.mem_iff.mp hmem)
  rw [LruSessionCache.get, hnone]

end LruSessionCache.Lists

/-- A new cache is empty. -/
lemma newLRUClientSessionCache_lists (capacity : Int) :
    (newLRUClientSessionCache capacity : LruSessionCache σ).Lists ∅ where
  entries := rfl
  lookup := by simp [newLRUClientSessionCache]
  allocated := by simp [newLRUClientSessionCache]
  fits := Nat.zero_le _

/-! ## Comparison with the abstract map -/

namespace LruSessionCache

/-- What the cache holds under a key. -/
def stored (c : LruSessionCache σ) (k : GoString) : Option (Option σ) :=
  (c.m.lookup k).map fun elem => (c.value elem).state

/-- The cache holds what the store holds: its map and its list have the same keys, at most
`capacity` of them, and under every key stands the state that the store has there. -/
structure Represents (c : LruSessionCache σ) (s : Store GoString σ) : Prop where
  same_keys : c.m.keys.Perm c.listKeys
  fits : c.m.keys.length ≤ c.capacity
  stored_eq : ∀ k, c.stored k = (s.held.lookup k).map some

/-- Along a sequence of calls the cache answers as the abstract map does, and holds what the
abstract map holds before and after every call. -/
def Refines : LruSessionCache σ → Store GoString σ → List (Op GoString σ) → Prop
  | c, s, [] => c.Represents s
  | c, s, op :: ops => c.Represents s ∧ ∃ c' a s',
      c.call op = some (c', a) ∧ Step c.capacity s op a s' ∧ Refines c' s' ops

/-- Along a sequence of calls nothing is put only under keys that the cache then holds. -/
def RemovesHeld : LruSessionCache σ → List (Op GoString σ) → Prop
  | _, [] => True
  | c, op :: ops => (∀ k, op = .put k none → k ∈ c.m) ∧
      ∀ c' a, c.call op = some (c', a) → RemovesHeld c' ops

variable {c : LruSessionCache σ} {s : Store GoString σ}

variable {l : AList fun _ : GoString => σ} {ops : List (Op GoString σ)}

/-- A cache whose list is the recency order of a store represents the store. -/
lemma Lists.represents (h : c.Lists (mapValues some l)) (hs : s.OrderedBy l) : c.Represents s := by
  have hperm : c.m.keys.Perm c.listKeys := by
    refine (perm_ext_iff_of_nodup c.m.keys_nodup (h.keys_eq ▸ AList.keys_nodup _)).mpr ?_
    intro k
    rw [← AList.mem_keys, h.mem_iff, h.keys_eq, AList.mem_keys]
  refine ⟨hperm, ?_, fun k => ?_⟩
  · rw [hperm.length_eq, listKeys, length_map]
    exact h.fits
  · rw [hs.lookup_eq, ← lookup_mapValues]
    cases hk : c.m.lookup k with
    | some elem =>
      rw [h.lookup_eq hk, stored, hk]
      rfl
    | none =>
      have hout : k ∉ mapValues some l := fun hmem =>
        AList.lookup_eq_none.mp hk (h.mem_iff.mpr hmem)
      rw [AList.lookup_eq_none.mpr hout, stored, hk]
      rfl

/-- One call, seen on the store: if it puts nothing only under a key that is held, the cache
answers and ends as the store does. -/
lemma Lists.step (h : c.Lists (mapValues some l)) (hs : s.OrderedBy l) (hcap : 1 ≤ c.capacity)
    {op : Op GoString σ} (hop : ∀ k, op = .put k none → k ∈ c.m) :
    ∃ c' a s' l', c.call op = some (c', a) ∧ Step c.capacity s op a s' ∧
      c'.capacity = c.capacity ∧ c'.Lists (mapValues some l') ∧ s'.OrderedBy l' := by
  cases op with
  | get k =>
    cases hk : l.lookup k with
    | some v =>
      have hv : (mapValues some l).lookup k = some (some v) := by rw [lookup_mapValues, hk]; rfl
      obtain ⟨hans, hcap', hlists⟩ := h.get_of_lookup hv
      rw [← mapValues_insert] at hlists
      refine ⟨(c.get k).1, .found (some v), s.touch k, l.insert k v, ?_, .hit ?_, hcap', hlists,
        hs.touch hk⟩
      · rw [call, ← hans]
      · rw [hs.lookup_eq, hk]
    | none =>
      have hout : k ∉ l := AList.lookup_eq_none.mp hk
      have hget := h.get_of_not_mem fun hmem => hout ((mem_mapValues _ _).mp hmem)
      exact ⟨c, .notFound, s, l, by rw [call, hget], .miss fun hmem => hout (hs.mem_iff.mp hmem),
        rfl, h, hs⟩
  | put k cs =>
    obtain ⟨c', hput, hcap', hlists⟩ := h.put hcap k cs
    have hcall : c.call (.put k cs) = some (c', .done) := by rw [call, hput]; rfl
    have hlen : (mapValues some l).entries.length = l.entries.length := length_map _
    simp only [listPut, mem_mapValues, keys_mapValues, hlen] at hlists
    cases cs with
    | none =>
      have hmem : k ∈ l := (mem_mapValues _ _).mp (h.mem_iff.mp (hop k rfl))
      rw [if_pos hmem, ← mapValues_erase] at hlists
      exact ⟨c', .done, s.remove k, l.erase k, hcall, .remove, hcap', hlists, hs.remove k⟩
    | some v =>
      by_cases hmem : k ∈ l
      · rw [if_pos hmem, ← mapValues_insert] at hlists
        exact ⟨c', .done, s.insert k v, l.insert k v, hcall, .store (.inl (hs.mem_iff.mpr hmem)),
          hcap', hlists, hs.insert k v⟩
      · rw [if_neg hmem] at hlists
        by_cases hroom : l.entries.length < c.capacity
        · rw [if_pos hroom, ← mapValues_insert] at hlists
          exact ⟨c', .done, s.insert k v, l.insert k v, hcall,
            .store (.inr (hs.card_keys ▸ hroom)), hcap', hlists, hs.insert k v⟩
        · rw [if_neg hroom] at hlists
          have hfits : l.entries.length ≤ c.capacity := by
            rw [← hlen, ← h.entries, length_map]
            exact h.fits
          cases hlast : l.keys.getLast? with
          | none =>
            have hnil : l.entries = [] := map_eq_nil_iff.mp (getLast?_eq_none_iff.mp hlast)
            rw [hnil] at hroom
            exact absurd hcap hroom
          | some w =>
            simp only [hlast] at hlists
            rw [← mapValues_erase, ← mapValues_insert] at hlists
            refine ⟨c', .done, (s.remove w).insert k v, (l.erase w).insert k v, hcall,
              .evict (fun hk => hmem (hs.mem_iff.mp hk)) ?_ ?_ (hs.used_getLast hlast), hcap',
              hlists, (hs.remove w).insert k v⟩
            · rw [hs.card_keys]
              omega
            · exact hs.mem_iff.mpr (AList.mem_keys.mpr (mem_of_getLast? hlast))

/-- The run lemma for caches that start in step with a store. -/
lemma Lists.refines (h : c.Lists (mapValues some l)) (hs : s.OrderedBy l) (hcap : 1 ≤ c.capacity)
    (hops : c.RemovesHeld ops) : c.Refines s ops := by
  induction ops generalizing c s l with
  | nil => exact h.represents hs
  | cons op ops ih =>
    obtain ⟨c', a, s', l', hcall, hstep, hcap', hlists, hord⟩ := h.step hs hcap hops.1
    exact ⟨h.represents hs, c', a, s', hcall, hstep,
      ih hlists hord (hcap'.symm ▸ hcap) (hops.2 c' a hcall)⟩

/-- Putting nothing under a key that the cache does not hold leaves the key in the cache. -/
lemma stored_of_put_none {k : GoString} (hk : k ∉ c.m) {c' : LruSessionCache σ}
    (h : c.put k none = some c') : c'.stored k = some none := by
  unfold put at h
  rw [AList.lookup_eq_none.mpr hk] at h
  by_cases hroom : c.q.length < c.capacity
  · simp only [if_pos hroom] at h
    cases h
    simp [stored]
  · simp only [if_neg hroom] at h
    cases hback : c.q.getLast? with
    | none => simp [hback] at h
    | some elem =>
      rw [hback] at h
      cases h
      simp [stored, moveToFront]

lemma Refines.represents (h : c.Refines s ops) : c.Represents s := by
  cases ops with
  | nil => exact h
  | cons op ops => exact h.1

/-- A run that follows the store puts nothing only under keys that are held. -/
lemma Refines.removesHeld (h : c.Refines s ops) : c.RemovesHeld ops := by
  induction ops generalizing c s with
  | nil => trivial
  | cons op ops ih =>
    obtain ⟨-, c', a, s', hcall, hstep, hrest⟩ := h
    refine ⟨?_, fun c1 a1 hcall1 => ?_⟩
    · rintro k rfl
      by_contra hk
      obtain ⟨c2, hput, heq⟩ := map_eq_some_iff.mp hcall
      obtain ⟨rfl, rfl⟩ := Prod.mk.inj heq
      cases hstep
      have hstored := hrest.represents.stored_eq k
      rw [stored_of_put_none hk hput] at hstored
      simp [Store.remove] at hstored
    · rw [hcall] at hcall1
      obtain ⟨rfl, rfl⟩ := Prod.mk.inj (some.inj hcall1)
      exact ih hrest

end LruSessionCache

/-- A new cache follows the abstract map through a sequence of calls exactly if nothing is put
only under keys that the cache holds at that point. -/
theorem lruSessionCache_refines_iff {capacity : Int} (hcap : 1 ≤ capacity)
    (ops : List (Op GoString σ)) :
    (newLRUClientSessionCache capacity : LruSessionCache σ).Refines Store.empty ops ↔
      (newLRUClientSessionCache capacity : LruSessionCache σ).RemovesHeld ops := by
  refine ⟨LruSessionCache.Refines.removesHeld, fun hops => ?_⟩
  refine (newLRUClientSessionCache_lists capacity).refines (l := ∅) Store.OrderedBy.empty ?_ hops
  change 1 ≤ if capacity < 1 then _ else capacity.toNat
  rw [if_neg (by omega)]
  omega

/-- A session that is put and removed again, with another one beside it. -/
def removal : List (Op GoString Nat) :=
  [.put [97] (some 0), .put [98] (some 1), .put [97] none, .get [97]]

theorem removal_refines :
    (newLRUClientSessionCache 2 : LruSessionCache Nat).Refines Store.empty removal := by
  refine (lruSessionCache_refines_iff (by decide) _).mpr ⟨nofun, fun c a h => ?_⟩
  cases h
  refine ⟨nofun, fun c a h => ?_⟩
  cases h
  refine ⟨?_, fun c a h => ?_⟩
  · rintro k ⟨⟩
    decide +kernel
  · cases h
    exact ⟨nofun, fun _ _ _ => trivial⟩

/-- A full cache that holds `b`: putting nothing under `a` removes `b` and leaves `a` in the
cache. -/
theorem put_none_evicts :
    ((newLRUClientSessionCache 1).call (.put [98] (some 0))).bind (fun r =>
        (r.1.call (.put [97] none)).map fun r => ((r.1.get [97]).2, (r.1.get [98]).2)) =
      some ((.found none, .notFound) : Answer Nat × Answer Nat) ∧
    ¬(newLRUClientSessionCache 1 : LruSessionCache Nat).Refines Store.empty
      [.put [98] (some 0), .put [97] none] := by
  refine ⟨by decide +kernel, fun h => ?_⟩
  have hheld := ((LruSessionCache.Refines.removesHeld h).2 _ _ rfl).1 [97] rfl
  revert hheld
  decide +kernel

end Utls
