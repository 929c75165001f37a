import Utls.Binders
import Utls.Objects

/-!
# Taking over the session extensions of a specification

`syncSessionExts` walks over the extension list, which may hold one session ticket extension, and a
pre-shared key extension at its end.  `Syncing` is the invariant of its loop and `Synced` what holds
when it returns: the extensions of the controller are those of the list, or there are none.
`Preset` puts this together with the rest of `ApplyPreset`.
-/

namespace Utls

open Wire Exec Function
open List hiding after

variable {u : Unit}

variable {c c' : UConn}

/-! ## The loop -/

/-- An extension that is reset keeps its type. -/
lemma Ext.sessionKind_resetForReuse (e : Ext) : e.resetForReuse.sessionKind = e.sessionKind := by
  cases e <;> rfl

/-- So does one whose flag is set. -/
lemma Ext.sessionKind_setOmitEmptyPsk (b : Bool) (e : Ext) :
    (e.setOmitEmptyPsk b).sessionKind = e.sessionKind := by
  cases e <;> rfl

/-- The fields that `syncSessionExts` does not touch. -/
def UConn.unsynced (c : UConn) : UConn :=
  { c with
    heap := fun _ => .sct
    extensions := []
    sessionController := { c.sessionController with sessionTicketExt := none, pskExtension := none }
    hello := { c.hello with sessionTicket := [] }
    session := none
    earlySecret := []
    binderKey := []
    helloPskIdentities := .own [] }

/-- An untouched field. -/
lemma UConn.field_of_unsynced {α : Type} (h : c'.unsynced = c.unsynced)
    (f : UConn → α) (hf : ∀ c : UConn, f c.unsynced = f c := by intro; rfl) : f c' = f c := by
  rw [← hf c', ← hf c, h]

/-- How the pre-shared key extension at `r` was taken over: it is the one of the list, reset, or the
one of the caller, which takes the place of the one of the list. -/
def TookPsk (c₀ c : UConn) (r : Ref) : Prop :=
  (c₀.sessionController.pskExtension = none ∧ c₀.extensions.getLast? = some r ∧
    c.heap = Function.update c₀.heap r
      ((c₀.heap r).resetForReuse.setOmitEmptyPsk c₀.config.omitEmptyPsk)) ∨
  (c₀.sessionController.pskExtension = some r ∧
    c.heap = Function.update c₀.heap r ((c₀.heap r).setOmitEmptyPsk c₀.config.omitEmptyPsk))

/-- The loop has been through `done`, with `n` session ticket extensions and a pre-shared key
extension if `b`; it has `rest` still to go. -/
structure Syncing (c₀ : UConn) (done rest : List Ref) (n : Nat) (b : Bool) (c : UConn) : Prop where
  tidy : c.Tidy
  exts : c.extensions = done ++ rest
  start : ∃ pre, c₀.extensions = pre ++ rest
  frame : c.unsynced = c₀.unsynced
  placeholders : c.placeholders = c₀.placeholders
  noTicket : n = 0 → c.sessionController.sessionTicketExt = c₀.sessionController.sessionTicketExt ∧
    ∀ r ∈ done, (c.heap r).isSessionTicket = false
  ticket : n ≠ 0 → ∃ r ∈ done, c.sessionController.sessionTicketExt = some r
  noPsk : b = false → c.sessionController.pskExtension = c₀.sessionController.pskExtension ∧
    c.heap = c₀.heap ∧ ∀ r ∈ done, (c.heap r).isPreSharedKey = false
  psk : b = true → rest = [] ∧ ∃ pre r, done = pre ++ [r] ∧
    c.sessionController.pskExtension = some r ∧ (∀ r' ∈ pre, (c.heap r').isPreSharedKey = false) ∧
    TookPsk c₀ c r

namespace Syncing

variable {c₀ c : UConn} {done rest : List Ref} {r : Ref} {n : Nat} {b : Bool}

/-- The loop starts with nothing done. -/
lemma init (h : c.Tidy) : Syncing c [] c.extensions 0 false c where
  tidy := h
  exts := rfl
  start := ⟨[], rfl⟩
  frame := rfl
  placeholders := rfl
  noTicket := fun _ => ⟨rfl, by simp⟩
  ticket := by simp
  noPsk := fun _ => ⟨rfl, rfl, by simp⟩
  psk := by simp

/-- As long as there is something to do, no pre-shared key extension has been seen. -/
lemma false_of_cons (h : Syncing c₀ done (r :: rest) n b c) : b = false := by
  cases b with
  | false => rfl
  | true => exact absurd (h.psk rfl).1 (by simp)

/-- What is left to do is a tail of the list the loop started from. -/
lemma start_tail (h : Syncing c₀ done (r :: rest) n b c) : ∃ pre, c₀.extensions = pre ++ rest := by
  obtain ⟨pre, hpre⟩ := h.start
  exact ⟨pre ++ [r], by simp [hpre]⟩

/-- An extension that is no session extension is passed over. -/
lemma plain (h : Syncing c₀ done (r :: rest) n b c) (ht : (c.heap r).isSessionTicket = false)
    (hp : (c.heap r).isPreSharedKey = false) : Syncing c₀ (done ++ [r]) rest n b c := by
  have hb := h.false_of_cons
  subst hb
  refine ⟨h.tidy, by simp [h.exts], h.start_tail, h.frame, h.placeholders, fun hn => ?_,
    fun hn => ?_, fun _ => ?_, by simp⟩
  · obtain ⟨h1, h2⟩ := h.noTicket hn
    refine ⟨h1, fun r' hr' => ?_⟩
    rcases mem_append.mp hr' with hr' | hr'
    · exact h2 r' hr'
    · rw [mem_singleton.mp hr']
      exact ht
  · obtain ⟨r', hr', hs⟩ := h.ticket hn
    exact ⟨r', by simp [hr'], hs⟩
  · obtain ⟨h1, h2, h3⟩ := h.noPsk rfl
    refine ⟨h1, h2, fun r' hr' => ?_⟩
    rcases mem_append.mp hr' with hr' | hr'
    · exact h3 r' hr'
    · rw [mem_singleton.mp hr']
      exact hp

/-- The replacement of the extension the loop is at. -/
lemma exts_set (h : Syncing c₀ done (r :: rest) n b c) (r' : Ref) :
    c.extensions.set done.length r' = (done ++ [r']) ++ rest := by
  rw [h.exts, set_append_right _ _ le_rfl, Nat.sub_self, set_cons_zero,
    append_assoc, singleton_append]

/-- A session ticket extension of the list. -/
lemma ticketStep {c' : UConn} (h : Syncing c₀ done (r :: rest) n b c)
    (ht : (c.heap r).isSessionTicket = true) (hx : syncTicketExt done.length r c = .ok u c') :
    ∃ r', Syncing c₀ (done ++ [r']) rest (n + 1) b c' := by
  have hb := h.false_of_cons
  subst hb
  obtain ⟨hpsk, hheap, hdone⟩ := h.noPsk rfl
  have hlt : r < c.nextRef := h.tidy.extensions r (by simp [h.exts])
  -- neither the session ticket extension of the list nor that of the caller is a pre-shared key
  have hnopsk : ∀ r', (c.heap r').isSessionTicket = true →
      ∀ q ∈ done ++ [r'], (c.heap q).isPreSharedKey = false := by
    intro r' hr' q hq
    rcases mem_append.mp hq with hq | hq
    · exact hdone q hq
    · rw [mem_singleton.mp hq]
      exact Ext.not_both hr'
  rw [syncTicketExt, run_get_bind] at hx
  cases hs : c.sessionController.sessionTicketExt with
  | none =>
    rw [hs] at hx
    cases hx
    refine ⟨r, ⟨h.tidy.extensions, h.tidy.spec, ?_, h.tidy.psk, h.tidy.regular⟩, by simp [h.exts],
      h.start_tail, h.frame, h.placeholders, by simp, fun _ => ⟨r, by simp, rfl⟩,
      fun _ => ⟨hpsk, hheap, hnopsk r ht⟩, by simp⟩
    intro r' hr'
    cases hr'
    exact ⟨hlt, ht⟩
  | some r' =>
    rw [hs] at hx
    cases hx
    obtain ⟨hlt', ht'⟩ := h.tidy.ticket r' hs
    have hat : c.extensions[done.length]? = some r := by simp [h.exts]
    have hsame : (c.heap r').isGreaseECH = (c.heap r).isGreaseECH := by
      rw [Ext.isGreaseECH_of_session (by simp [Ext.sessionKind, ht']),
        Ext.isGreaseECH_of_session (by simp [Ext.sessionKind, ht])]
    refine ⟨r', ⟨?_, h.tidy.spec, h.tidy.ticket, h.tidy.psk, h.tidy.regular⟩, h.exts_set r',
      h.start_tail, h.frame, (UConn.placeholders_set hat hsame).trans h.placeholders, by simp,
      fun _ => ⟨r', by simp, hs⟩, fun _ => ⟨hpsk, hheap, hnopsk r' ht'⟩, by simp⟩
    intro q hq
    rcases mem_or_eq_of_mem_set hq with hq | rfl
    · exact h.tidy.extensions q hq
    · exact hlt'

/-- The pre-shared key extension at `q` ends up at the end of the list and in the controller. -/
lemma took {c' : UConn} {q : Ref} {e : Ext} (h : Syncing c₀ done [r] n false c)
    (hr : (c.heap r).isPreSharedKey = true) (hq : q < c.nextRef)
    (hp : (c.heap q).isPreSharedKey = true)
    (hk : e.sessionKind = (c.heap q).sessionKind) (hheap : c'.heap = Function.update c.heap q e)
    (hexts : c'.extensions = done ++ [q]) (hframe : c'.unsynced = c.unsynced)
    (hsc : c'.sessionController = { c.sessionController with pskExtension := some q })
    (htook : TookPsk c₀ c' q) : Syncing c₀ (done ++ [q]) [] n true c' := by
  have hnext : c'.nextRef = c.nextRef := UConn.field_of_unsynced hframe UConn.nextRef
  have hspec : c'.clientHelloSpec = c.clientHelloSpec :=
    UConn.field_of_unsynced hframe UConn.clientHelloSpec
  have hticket : c'.sessionController.sessionTicketExt = c.sessionController.sessionTicketExt := by
    rw [hsc]
  -- the store changes no type
  have hkind : ∀ x, (c'.heap x).sessionKind = (c.heap x).sessionKind := by
    intro x
    rw [hheap]
    by_cases hx : x = q
    · subst hx
      rw [update_self, hk]
    · rw [update_of_ne hx]
  have htk : ∀ x, (c'.heap x).isSessionTicket = (c.heap x).isSessionTicket :=
    fun x => congrArg Prod.fst (hkind x)
  have hpk : ∀ x, (c'.heap x).isPreSharedKey = (c.heap x).isPreSharedKey :=
    fun x => congrArg Prod.snd (hkind x)
  -- both the extension that was there and the one that is there now are pre-shared keys
  have hno : ∀ x, (c.heap x).isPreSharedKey = true → (c.heap x).isGreaseECH = false :=
    fun x hx => Ext.isGreaseECH_of_session (by simp [Ext.sessionKind, hx])
  have hplaceholders : c'.placeholders = c.placeholders := by
    have hgrease : ∀ x, (c'.heap x).isGreaseECH = (c.heap x).isGreaseECH := by
      intro x
      rw [hheap]
      by_cases hx : x = q
      · subst hx
        rw [update_self, hno x hp]
        exact Ext.isGreaseECH_of_session (by rw [hk]; simp [Ext.sessionKind, hp])
      · rw [update_of_ne hx]
    simp only [UConn.placeholders, UConn.exts, List.map_map, hexts, h.exts, map_append,
      map_cons, map_nil, comp_def, hgrease, hno q hp, hno r hr]
  refine ⟨⟨?_, ?_, ?_, ?_, fun x hx => ?_⟩, by rw [hexts, append_nil], ?_, hframe.trans h.frame,
    hplaceholders.trans h.placeholders, fun hn => ?_, fun hn => ?_, by simp,
    fun _ => ⟨rfl, done, q, rfl, by rw [hsc], ?_, htook⟩⟩
  · intro x hx
    rw [hexts] at hx
    rw [hnext]
    rcases mem_append.mp hx with hx | hx
    · exact h.tidy.extensions x (by simp [h.exts, hx])
    · rw [mem_singleton.mp hx]
      exact hq
  · rw [hspec, hnext]
    exact h.tidy.spec
  · intro x hx
    rw [hnext, htk]
    exact h.tidy.ticket x (hticket ▸ hx)
  · intro x hx
    rw [hsc] at hx
    cases hx
    rw [hnext, hpk]
    exact ⟨hq, hp⟩
  · by_cases hxq : x = q
    · exact Ext.regular_of_session (by rw [hkind, hxq]; simp [Ext.sessionKind, hp])
    · rw [hheap, update_of_ne hxq]
      exact h.tidy.regular x (hnext ▸ hx)
  · obtain ⟨pre, hpre⟩ := h.start_tail
    exact ⟨pre, hpre⟩
  · obtain ⟨h1, h2⟩ := h.noTicket hn
    refine ⟨hticket.trans h1, fun x hx => ?_⟩
    rw [htk]
    rcases mem_append.mp hx with hx | hx
    · exact h2 x hx
    · rw [mem_singleton.mp hx]
      cases ht : (c.heap q).isSessionTicket with
      | false => rfl
      | true => rw [Ext.not_both ht] at hp; cases hp
  · obtain ⟨x, hx, hs⟩ := h.ticket hn
    exact ⟨x, by simp [hx], hticket.trans hs⟩
  · intro x hx
    rw [hpk]
    exact (h.noPsk rfl).2.2 x hx

/-- A pre-shared key extension at the end of the list. -/
lemma pskStep {c' : UConn} (h : Syncing c₀ done [r] n b c)
    (hp : (c.heap r).isPreSharedKey = true) (hx : syncPskExt done.length r c = .ok u c') :
    ∃ r', Syncing c₀ (done ++ [r']) [] n true c' := by
  have hb := h.false_of_cons
  subst hb
  obtain ⟨hpsk, hheap, -⟩ := h.noPsk rfl
  have hcfg : c.config = c₀.config := UConn.field_of_unsynced h.frame UConn.config
  have hlast : c₀.extensions.getLast? = some r := by
    obtain ⟨pre, hpre⟩ := h.start
    simp [hpre]
  rw [syncPskExt, run_get_bind] at hx
  cases hs : c.sessionController.pskExtension with
  | none =>
    rw [hs] at hx
    cases hx
    have hlt : r < c.nextRef := h.tidy.extensions r (by simp [h.exts])
    refine ⟨r, h.took hp hlt hp ?_ rfl h.exts rfl rfl (.inl ⟨?_, hlast, ?_⟩)⟩
    · rw [Ext.sessionKind_setOmitEmptyPsk, Ext.sessionKind_resetForReuse]
    · rw [← hpsk, hs]
    · rw [← hheap, ← hcfg]
      rfl
  | some r' =>
    rw [hs] at hx
    cases hx
    obtain ⟨hlt', hp'⟩ := h.tidy.psk r' hs
    refine ⟨r', h.took hp hlt' hp' (Ext.sessionKind_setOmitEmptyPsk _ _) rfl ?_ rfl ?_ (.inr ⟨?_, ?_⟩)⟩
    · have := h.exts_set r'
      rwa [append_nil] at this
    · rw [← hs]
      rfl
    · rw [← hpsk, hs]
    · rw [← hheap, ← hcfg]
      rfl

/-- Both steps of the loop keep `P`. -/
structure StepsKeep (c₀ : UConn) (P : UConn → Prop) : Prop where
  ticket : ∀ {done rest : List Ref} {r : Ref} {b : Bool} {c₁ c₂ : UConn} {u : Unit},
    Syncing c₀ done (r :: rest) 0 b c₁ → (c₁.heap r).isSessionTicket = true →
      syncTicketExt done.length r c₁ = .ok u c₂ → P c₁ → P c₂
  psk : ∀ {done : List Ref} {r : Ref} {n : Nat} {c₁ c₂ : UConn} {u : Unit},
    Syncing c₀ done [r] n false c₁ → (c₁.heap r).isPreSharedKey = true →
      syncPskExt done.length r c₁ = .ok u c₂ → P c₁ → P c₂

/-- The whole loop, with what both steps keep. -/
lemma loop {P : UConn → Prop} {total : Nat} {c c' : UConn} {o : Nat × Bool}
    (hP : StepsKeep c₀ P) (h : Syncing c₀ done rest n b c) (hc : P c)
    (htotal : total = done.length + rest.length)
    (hx : syncLoop total done.length rest n b c = .ok o c') :
    P c' ∧ ∃ done', Syncing c₀ done' [] o.1 o.2 c' := by
  induction rest generalizing done n b c with
  | nil =>
    cases hx
    exact ⟨hc, done, h⟩
  | cons r rest ih =>
    have hlen : ∀ r' : Ref, (done ++ [r']).length = done.length + 1 := by simp
    have htotal' : ∀ r' : Ref, total = (done ++ [r']).length + rest.length := by
      intro r'
      rw [htotal, hlen, length_cons]
      omega
    rw [syncLoop, run_loadExt_bind] at hx
    by_cases ht : (c.heap r).isSessionTicket = true
    · rw [if_pos ht, assert_bind_eq_ok] at hx
      obtain ⟨rfl, hx⟩ := hx
      obtain ⟨_, c1, h1, h2⟩ := bind_eq_ok.mp hx
      obtain ⟨r', h'⟩ := h.ticketStep ht h1
      rw [← hlen r'] at h2
      exact ih h' (hP.ticket h ht h1 hc) (htotal' r') h2
    · by_cases hp : (c.heap r).isPreSharedKey = true
      · rw [if_neg ht, if_pos hp, assert_bind_eq_ok] at hx
        obtain ⟨hend, hx⟩ := hx
        have hrest : rest = [] := by
          rw [htotal, length_cons] at hend
          exact length_eq_zero_iff.mp (by omega)
        subst hrest
        have hb := h.false_of_cons
        subst hb
        obtain ⟨_, c1, h1, h2⟩ := bind_eq_ok.mp hx
        obtain ⟨r', h'⟩ := h.pskStep hp h1
        exact ih h' (hP.psk h hp h1 hc) (htotal' r') h2
      · rw [if_neg ht, if_neg hp, ← hlen r] at hx
        exact ih (h.plain (by simpa using ht) (by simpa using hp)) hc (htotal' r) hx

end Syncing

/-! ## `syncSessionExts` -/

/-- What holds after `syncSessionExts`: the two extensions of the controller are those of the
list. -/
structure Synced (c₀ c : UConn) : Prop where
  tidy : c.Tidy
  frame : c.unsynced = c₀.unsynced
  state : c.sessionController.state ∈
    [.noSession, .sessionTicketExtInitialized, .pskExtInitialized]
  ticket : (c.sessionController.sessionTicketExt = none ∧
      ∀ r ∈ c.extensions, (c.heap r).isSessionTicket = false) ∨
    ∃ r ∈ c.extensions, c.sessionController.sessionTicketExt = some r
  psk : (c.sessionController.pskExtension = none ∧
      ∀ r ∈ c.extensions, (c.heap r).isPreSharedKey = false) ∨
    ∃ r, c.sessionController.pskExtension = some r ∧ c.EndsIn r ∧ TookPsk c₀ c r
  only : ∀ r ∈ c.extensions, (c.heap r).isPreSharedKey = true →
    c.sessionController.pskExtension = some r
  placeholders : c.placeholders = c₀.placeholders

/-- The ticket extension is dropped if its state allows it. -/
lemma dropTicketExt_eq_ok (h : dropTicketExt c = .ok u c') : c' = c.withoutTicketExt := by
  rw [dropTicketExt, run_get_bind] at h
  split_ifs at h
  · cases h
  · cases h
    rfl

/-- The same of the pre-shared key extension. -/
lemma dropPskExt_eq_ok (h : dropPskExt c = .ok u c') : c' = c.withoutPskExt := by
  rw [dropPskExt, run_get_bind] at h
  split_ifs at h
  · cases h
  · cases h
    rfl

/-- The two fields of the controller are not among the untouched ones. -/
lemma UConn.unsynced_withoutTicketExt (c : UConn) :
    c.withoutTicketExt.unsynced = c.unsynced := rfl

/-- As for the ticket extension. -/
lemma UConn.unsynced_withoutPskExt (c : UConn) : c.withoutPskExt.unsynced = c.unsynced := rfl

/-- An owner that is forgotten leaves less to check. -/
lemma UConn.Tidy.withoutTicketExt (h : c.Tidy) : c.withoutTicketExt.Tidy :=
  ⟨h.extensions, h.spec, fun r hr => (by cases hr), h.psk, h.regular⟩

/-- As for the ticket extension. -/
lemma UConn.Tidy.withoutPskExt (h : c.Tidy) : c.withoutPskExt.Tidy :=
  ⟨h.extensions, h.spec, h.ticket, fun r hr => (by cases hr), h.regular⟩

/-- What happens after the loop: the controller forgets the extensions that were not found. -/
structure SyncEnd (n : Nat) (b : Bool) (c c' : UConn) : Prop where
  heap : c'.heap = c.heap
  extensions : c'.extensions = c.extensions
  frame : c'.unsynced = c.unsynced
  ticket : c'.sessionController.sessionTicketExt =
    if n = 0 then none else c.sessionController.sessionTicketExt
  psk : c'.sessionController.pskExtension =
    if b = false then none else c.sessionController.pskExtension

/-- The last step leaves the extensions alone. -/
lemma SyncEnd.exts {n : Nat} {b : Bool} (h : SyncEnd n b c c') : c'.exts = c.exts := by
  rw [UConn.exts, UConn.exts, h.heap, h.extensions]

/-- The controller keeps an object, or forgets it. -/
lemma SyncEnd.tidy {n : Nat} {b : Bool} (h : SyncEnd n b c c') (ht : c.Tidy) : c'.Tidy := by
  have hnext : c'.nextRef = c.nextRef := UConn.field_of_unsynced h.frame UConn.nextRef
  have hspec : c'.clientHelloSpec = c.clientHelloSpec :=
    UConn.field_of_unsynced h.frame UConn.clientHelloSpec
  refine ⟨?_, ?_, fun r hr => ?_, fun r hr => ?_, fun r hr => ?_⟩
  · rw [h.extensions, hnext]
    exact ht.extensions
  · rw [hspec, hnext]
    exact ht.spec
  · rw [h.ticket] at hr
    split_ifs at hr
    rw [hnext, h.heap]
    exact ht.ticket r hr
  · rw [h.psk] at hr
    split_ifs at hr
    rw [hnext, h.heap]
    exact ht.psk r hr
  · rw [h.heap]
    exact ht.regular r (hnext ▸ hr)

/-- The two optional drops, together. -/
lemma syncEnd_of_ok {n : Nat} {b : Bool} {c1 : UConn} {u' : Unit}
    (h1 : runIf (n = 0) dropTicketExt c = .ok u c1)
    (h2 : runIf (b = false) dropPskExt c1 = .ok u' c') : SyncEnd n b c c' := by
  rcases runIf_eq_ok.mp h1 with ⟨hn, h1⟩ | ⟨hn, rfl⟩
  · rw [dropTicketExt_eq_ok h1] at h2
    rcases runIf_eq_ok.mp h2 with ⟨hb, h2⟩ | ⟨hb, rfl⟩
    · rw [dropPskExt_eq_ok h2]
      refine ⟨by simp, by simp, ?_, by simp [hn], by simp [hb]⟩
      rw [UConn.unsynced_withoutPskExt, UConn.unsynced_withoutTicketExt]
    · exact ⟨rfl, rfl, c.unsynced_withoutTicketExt, (if_pos hn).symm, (if_neg hb).symm⟩
  · rcases runIf_eq_ok.mp h2 with ⟨hb, h2⟩ | ⟨hb, rfl⟩
    · rw [dropPskExt_eq_ok h2]
      exact ⟨rfl, rfl, c.unsynced_withoutPskExt, (if_neg hn).symm, (if_pos hb).symm⟩
    · exact ⟨rfl, rfl, rfl, (if_neg hn).symm, (if_neg hb).symm⟩

/-- How `syncSessionExts` returns, with what both steps of its loop keep. -/
lemma syncSessionExts_run {P : UConn → Prop} (hP : Syncing.StepsKeep c P) (ht : c.Tidy) (hc : P c)
    (h : syncSessionExts c = .ok u c') :
    c.sessionController.state ∈ [.noSession, .sessionTicketExtInitialized, .pskExtInitialized] ∧
      ∃ n b done c1, P c1 ∧ Syncing c done [] n b c1 ∧ SyncEnd n b c1 c' := by
  simp only [syncSessionExts, bind_eq_ok, assertNotLocked_eq_ok, assertHelloNotBuilt_eq_ok,
    assertControllerState_eq_ok, run_get_bind, and_assoc, exists_and_left, exists_eq_left',
    exists_const] at h
  obtain ⟨-, -, hstate, o, c1, hloop, u1, c2, h1, h2⟩ := h
  obtain ⟨hc1, done, hs⟩ := (Syncing.init ht).loop hP hc (by simp) hloop
  exact ⟨hstate, o.1, o.2, done, c1, hc1, hs, syncEnd_of_ok h1 h2⟩

/-- Afterwards the controller has the session extensions of the list, and no others. -/
lemma syncSessionExts_ok (ht : c.Tidy) (h : syncSessionExts c = .ok u c'): Synced c c' := by
  obtain ⟨hstate, n, b, done, c1, -, hs, hend⟩ := syncSessionExts_run (P := fun _ => True)
    ⟨fun _ _ _ _ => trivial, fun _ _ _ _ => trivial⟩ ht trivial h
  have hframe := hend.frame.trans hs.frame
  have hstate' : c'.sessionController.state = c.sessionController.state :=
    UConn.field_of_unsynced hframe fun c => c.sessionController.state
  have hexts : c'.extensions = done := by rw [hend.extensions, hs.exts, append_nil]
  have hplaceholders : c'.placeholders = c.placeholders := by
    rw [UConn.placeholders, hend.exts]
    exact hs.placeholders
  refine ⟨hend.tidy hs.tidy, hframe, hstate' ▸ hstate, ?_, ?_, ?_, hplaceholders⟩
  · rw [hend.ticket, hend.heap, hexts]
    by_cases hn : n = 0
    · exact .inl ⟨if_pos hn, (hs.noTicket hn).2⟩
    · rw [if_neg hn]
      exact .inr (hs.ticket hn)
  · rw [hend.psk, hend.heap, hexts]
    cases b with
    | false => exact .inl ⟨if_pos rfl, (hs.noPsk rfl).2.2⟩
    | true =>
      -- the pre-shared key extension that was found is the last one, and nowhere else
      obtain ⟨-, pre, r, hdone, hr, hpre, htook⟩ := hs.psk rfl
      refine .inr ⟨r, hr, ⟨pre, hexts.trans hdone, fun hmem => ?_⟩, ?_⟩
      · have hk := (hs.tidy.psk r hr).2
        rw [hpre r hmem] at hk
        cases hk
      · rw [TookPsk, hend.heap]
        exact htook
  · intro r hr hk
    rw [hexts] at hr
    rw [hend.heap] at hk
    rw [hend.psk]
    cases b with
    | false =>
      rw [(hs.noPsk rfl).2.2 r hr] at hk
      cases hk
    | true =>
      obtain ⟨-, pre, r', hdone, hr', hpre, -⟩ := hs.psk rfl
      rw [hdone] at hr
      rcases mem_append.mp hr with hr | hr
      · rw [hpre r hr] at hk
        cases hk
      · rw [mem_singleton.mp hr]
        exact hr'

/-- A list that is refused is refused by a panic. -/
lemma noFail_syncLoop (total : Nat) (rs : List Ref) :
    ∀ i n b, NoFail (syncLoop total i rs n b) := by
  have hticket : ∀ i r, NoFail (syncTicketExt i r) := by
    intro i r
    refine FailsOnly.get.bind fun c => ?_
    cases c.sessionController.sessionTicketExt <;> exact .modify _
  have hpsk : ∀ i r, NoFail (syncPskExt i r) := by
    intro i r
    refine FailsOnly.get.bind fun c => ?_
    cases c.sessionController.pskExtension <;> exact (FailsOnly.modify _).bind fun _ => .modify _
  induction rs with
  | nil => exact fun _ _ _ => .pure _
  | cons r rs ih =>
    intro i n b
    refine FailsOnly.bind (fun c e c' h => by cases h) fun e => FailsOnly.ite ?_ (FailsOnly.ite ?_ ?_)
    · exact (FailsOnly.assert _ _).bind fun _ => (hticket i r).bind fun _ => ih _ _ _
    · exact (FailsOnly.assert _ _).bind fun _ => (hpsk i r).bind fun _ => ih _ _ _
    · exact ih _ _ _

/-- One of the two extensions is dropped from the controller, or none. -/
def Dropped (c c' : UConn) : Prop := c' = c ∨ c' = c.withoutTicketExt ∨ c' = c.withoutPskExt

/-- However it ends, only the ticket extension is dropped. -/
lemma keeps_dropTicketExt : Keeps Dropped dropTicketExt := by
  refine Keeps.get_bind fun c => ?_
  split_ifs
  · exact .inl rfl
  · exact .inr (.inl rfl)

/-- However it ends, only the pre-shared key extension is dropped. -/
lemma keeps_dropPskExt : Keeps Dropped dropPskExt := by
  refine Keeps.get_bind fun c => ?_
  split_ifs
  · exact .inl rfl
  · exact .inr (.inr rfl)

/-- However `syncSessionExts` ends, short of a panic, the connection is tidy. -/
lemma after_syncSessionExts (ht : c.Tidy) (h : after syncSessionExts c = some c') :
    c'.Tidy ∧ c'.unsynced = c.unsynced := by
  obtain ⟨_, _, h1, h⟩ := (noFail_assertHelloNotBuilt _).after_bind h
  obtain ⟨-, rfl⟩ := assertHelloNotBuilt_eq_ok.mp h1
  obtain ⟨_, _, h1, h⟩ := (noFail_assertNotLocked _).after_bind h
  obtain ⟨-, rfl⟩ := assertNotLocked_eq_ok.mp h1
  obtain ⟨_, _, h1, h⟩ := (noFail_assertControllerState _ _).after_bind h
  obtain ⟨-, rfl⟩ := assertControllerState_eq_ok.mp h1
  obtain ⟨_, _, h1, h⟩ := NoFail.after_bind .get h
  cases h1
  obtain ⟨o, c1, hloop, h⟩ := (noFail_syncLoop _ _ _ _ _).after_bind h
  obtain ⟨-, done, hs⟩ := (Syncing.init ht).loop (P := fun _ => True)
    ⟨fun _ _ _ _ => trivial, fun _ _ _ _ => trivial⟩ trivial (by simp) hloop
  -- what comes after the loop drops one of the two extensions, or none
  have hdrop : ∀ c1 : UConn, c1.Tidy ∧ c1.unsynced = c.unsynced →
      ∀ {p : Prop} [Decidable p] {x : M Unit},
        Keeps Dropped x →
        (endState (runIf p x c1)).Tidy ∧ (endState (runIf p x c1)).unsynced = c.unsynced := by
    rintro c1 ⟨ht1, hf1⟩ p _ x hx
    unfold runIf
    split_ifs
    · rcases hx c1 with h | h | h
      · rw [h]
        exact ⟨ht1, hf1⟩
      · rw [h]
        exact ⟨ht1.withoutTicketExt, by rw [UConn.unsynced_withoutTicketExt, hf1]⟩
      · rw [h]
        exact ⟨ht1.withoutPskExt, by rw [UConn.unsynced_withoutPskExt, hf1]⟩
    · exact ⟨ht1, hf1⟩
  have h2 := hdrop c1 ⟨hs.tidy, hs.frame⟩ (p := o.1 = 0) keeps_dropTicketExt
  rcases after_bind h with ⟨e, he⟩ | ⟨_, c2, he, h⟩
  · rw [he] at h2
    exact h2
  · rw [he] at h2
    have h3 := hdrop c2 h2 (p := o.2 = false) keeps_dropPskExt
    rcases after_eq_some h with ⟨u, he⟩ | ⟨e, he⟩
    · rwa [he] at h3
    · rwa [he] at h3

/-! ## `ApplyPreset` -/

section Deps

variable (d : Deps)

variable {c c' : UConn} {p : ClientHelloSpec}

/-- All of the objects exist. -/
def UConn.Has (rs : List Ref) (c : UConn) : Prop := ∀ r ∈ rs, r < c.nextRef

/-- Objects stay allocated. -/
lemma BuildStep.has {rs : List Ref} (h : BuildStep c c') (hr : c.Has rs) :
    c'.Has rs := fun r hm => lt_of_lt_of_le (hr r hm) h.frame.next

/-- What stands is not touched by taking the session extensions over. -/
lemma UConn.standing_of_unsynced (h : c'.unsynced = c.unsynced) :
    c'.standing = c.standing := UConn.field_of_unsynced h UConn.standing

/-- The part in front of the loop is a build step, given the objects of the specification. -/
lemma keepsFrom_startPreset (p : ClientHelloSpec) :
    KeepsFrom (UConn.Has p.extensions) BuildStep (startPreset d p) := by
  have hP : ∀ c c' : UConn, BuildStep c c' → c.Has p.extensions → c'.Has p.extensions :=
    fun _ _ h hr => h.has hr
  have hmodify : ∀ g : UConn → UConn, (∀ c, (g c).standing = c.standing) →
      (∀ c, (g c).owners = c.owners) → (∀ c, (g c).heap = c.heap) →
      Keeps BuildStep (modify g : M Unit) := fun g h1 h2 h3 =>
    Keeps.modify fun c => buildStep_of_owners (h1 c) (h2 c) fun r => by rw [h3]; exact .refl _
  refine .bind hP (.of_keeps (keeps_setTLSVers _ _ _)) fun _ => .bind hP
    (.of_keeps (keeps_of_draw (keeps_makeClientHelloForApplyPreset d))) fun made => .bind hP
    (.of_keeps (hmodify _ (fun _ => rfl) (fun _ => rfl) fun _ => rfl)) fun _ => .bind hP
    (.of_keeps (keeps_chooseGreaseSeed d _)) fun _ => .bind hP
    (.of_keeps (hmodify _ (fun _ => rfl) (fun _ => rfl) fun _ => rfl)) fun _ => .bind hP
    (.of_keeps (keeps_of_draw (keeps_drawSessionId d))) fun sessionId c hc => ?_
  exact ⟨⟨rfl, le_rfl, fun _ _ => rfl⟩, fun h => ⟨hc, h.spec, h.ticket, h.psk, h.regular⟩⟩

/-- How `startPreset` returns: the versions are set, a hello is made, and the seed and the session id
are chosen. -/
structure StartRun (p : ClientHelloSpec) (c c' : UConn) where
  (c₁ c₂ : UConn)
  made : ClientHelloMsg × Option EchClientContext
  seed : List UInt16
  sessionId : Bytes
  draws : Nat
  versions : setTLSVers p.tlsVersMin p.tlsVersMax p.extensions c = .ok () c₁
  makes : makeClientHelloForApplyPreset d c₁ = .ok made c₂
  seeds : (p.greaseSeed.any (· ≠ 0)) = true ∧ seed = p.greaseSeed ∨
    (p.greaseSeed.any (· ≠ 0)) = false ∧ ∃ b, seed = seedOfBytes b
  short : sessionId.length ≤ 32
  result : c' = { (c₂.withHello made).atDraw draws with
    greaseSeed := seed
    hello := { made.1 with
      cipherSuites := regrease seed ssl_grease_cipher p.cipherSuites, sessionId := sessionId }
    extensions := p.extensions }

/-- The seed is that of the specification, unless it is zero; then it is drawn. -/
lemma chooseGreaseSeed_ok {specSeed : List UInt16} (h : chooseGreaseSeed d specSeed c = .ok u c'):
    ∃ seed n, ((specSeed.any (· ≠ 0)) = true ∧ seed = specSeed ∨
      (specSeed.any (· ≠ 0)) = false ∧ ∃ b, seed = seedOfBytes b) ∧
        c' = { c.atDraw n with greaseSeed := seed } := by
  unfold chooseGreaseSeed at h
  cases hany : specSeed.any (· ≠ 0) with
  | true =>
    rw [hany, if_pos rfl] at h
    cases h
    exact ⟨specSeed, c.draws, .inl ⟨rfl, rfl⟩, rfl⟩
  | false =>
    rw [hany, if_neg Bool.false_ne_true] at h
    obtain ⟨b, c1, hb, h⟩ := bind_eq_ok.mp h
    obtain ⟨n, rfl⟩ := (keeps_readRand d _).of_ok hb
    cases h
    exact ⟨seedOfBytes b, n, .inr ⟨rfl, b, rfl⟩, rfl⟩

/-- How the part in front of the loop returns. -/
lemma startPreset_run (h : startPreset d p c = .ok u c'): Nonempty (StartRun d p c c') := by
  obtain ⟨_, c1, hvers, h⟩ := bind_eq_ok.mp h
  obtain ⟨made, c2, hmade, h⟩ := bind_eq_ok.mp h
  obtain ⟨_, _, h1, h⟩ := bind_eq_ok.mp h
  cases h1
  obtain ⟨_, c3, h2, h⟩ := bind_eq_ok.mp h
  obtain ⟨seed, j, hseed, rfl⟩ := chooseGreaseSeed_ok d h2
  obtain ⟨_, _, h1, h⟩ := bind_eq_ok.mp h
  cases h1
  obtain ⟨sessionId, c4, hid, h⟩ := bind_eq_ok.mp h
  obtain ⟨n, rfl⟩ := (keeps_drawSessionId d).of_ok hid
  cases h
  exact ⟨⟨c1, c2, made, seed, sessionId, n, hvers, hmade, hseed, yields_drawSessionId d _ _ _ hid, rfl⟩⟩

/-- What `ApplyPreset` has done when it comes to the loop over the extensions. -/
structure Started (p : ClientHelloSpec) (c c' : UConn) : Prop where
  extensions : c'.extensions = p.extensions
  heap : c'.heap = c.heap
  next : c'.nextRef = c.nextRef
  controller : c'.sessionController = c.sessionController
  spec : c'.clientHelloSpec = c.clientHelloSpec
  random : c'.hello.random.length = 32
  sessionId : c'.hello.sessionId.length ≤ 32
  compression : c'.hello.compressionMethods = [0]

/-- The objects, the controller and the stored specification. -/
def UConn.objects (c : UConn) := (c.heap, c.nextRef, c.sessionController, c.clientHelloSpec)

/-- Choosing the versions touches no object. -/
lemma keeps_setTLSVers_objects (lo hi : UInt16) (rs : List Ref) :
    Keeps (Same UConn.objects) (setTLSVers lo hi rs) := by
  refine Keeps.get.bind fun _ => (Keeps.ofExcept _).bind fun _ => (Keeps.ofExcept _).bind fun _ =>
    (Keeps.modify fun _ => ?_).bind fun _ => Keeps.runIf _ (Keeps.modify fun _ => ?_) <;> rfl

/-- The list of the specification is in place when the loop starts. -/
lemma startPreset_ok (h : startPreset d p c = .ok u c'): Started p c c' := by
  obtain ⟨run⟩ := startPreset_run d h
  have hobj : run.c₂.objects = c.objects := by
    obtain ⟨n, hn⟩ := (keeps_makeClientHelloForApplyPreset d).of_ok run.makes
    have hvers := (keeps_setTLSVers_objects _ _ _).of_ok run.versions
    rw [hn]
    exact hvers
  simp only [UConn.objects, Prod.mk.injEq] at hobj
  obtain ⟨hheap, hnext, hsc, hspec⟩ := hobj
  -- the hello of the configuration
  have hmade : run.made.1.random.length = 32 ∧ run.made.1.compressionMethods = [0] := by
    obtain ⟨hello, c3, hstart, hfinish⟩ := bind_eq_ok.mp run.makes
    obtain ⟨-, random, sessionId, hrandom, rfl⟩ := startClientHello_ok d hstart
    obtain ⟨hmade | ⟨ctx, -, -, hmade⟩, -⟩ := finishClientHello_ok d hfinish <;>
      rw [hmade] <;> exact ⟨hrandom, rfl⟩
  rw [run.result]
  exact ⟨rfl, hheap, hnext, hsc, hspec, hmade.1, run.short, hmade.2⟩

/-- The connection with the note whether its hello has an NPN extension. -/
def UConn.noteNPN (c : UConn) : UConn :=
  c.updHello fun h => { h with nextProtoNeg := c.exts.any (·.isNPN) }

/-- The flag for NPN owns nothing. -/
lemma UConn.Tidy.noteNPN (h : c.Tidy) : c.noteNPN.Tidy :=
  ⟨h.extensions, h.spec, h.ticket, h.psk, h.regular⟩

/-- How `ApplyPreset` returns: `c₀` is the connection when the loop over the extensions starts, `c₁`
when it ends. -/
structure PresetRun (p : ClientHelloSpec) (c c' : UConn) where
  (c₀ c₁ : UConn)
  starts : startPreset d p c = .ok () c₀
  loops : adaptExts d 0 p.extensions 0 c₀ = .ok () c₁
  syncs : syncSessionExts c₁.noteNPN = .ok () c'

/-- How `ApplyPreset` returns. -/
lemma applyPreset_run (h : applyPreset d p c = .ok u c'): Nonempty (PresetRun d p c c') := by
  obtain ⟨_, c₀, h0, h⟩ := bind_eq_ok.mp h
  obtain ⟨_, c1, h1, h⟩ := bind_eq_ok.mp h
  obtain ⟨_, _, h2, h⟩ := bind_eq_ok.mp h
  cases h2
  exact ⟨⟨c₀, c1, h0, h1, h⟩⟩

namespace PresetRun

variable {d} {p : ClientHelloSpec} {c c' : UConn} (run : PresetRun d p c c')
include run

/-- The connection when the loop starts. -/
lemma started : Started p c run.c₀ := startPreset_ok d run.starts

/-- The loop finds every extension in its place. -/
lemma places (k : Nat) (r : Ref) (hk : p.extensions[k]? = some r) :
    run.c₀.extensions[0 + k]? = some r := by
  rw [run.started.extensions, Nat.zero_add, hk]

variable (ht : c.Tidy) (hp : c.Has p.extensions)
include ht hp

/-- The loop starts from a tidy connection. -/
lemma tidy0 : run.c₀.Tidy := by
  have hstart := keepsFrom_startPreset d p c hp
  rw [run.starts] at hstart
  exact hstart.tidy ht

/-- What the loop does. -/
lemma adapts : AdaptStep run.c₀ run.c₁ := by
  have hadapt := adaptStep_adaptExts d p.extensions 0 0 (run.tidy0 ht hp) run.places
  rwa [run.loops] at hadapt

/-- The loop leaves the connection tidy. -/
lemma tidy1 : run.c₁.noteNPN.Tidy := ((run.adapts ht hp).buildStep.tidy (run.tidy0 ht hp)).noteNPN

/-- The session extensions are taken over at the end. -/
lemma synced : Synced run.c₁.noteNPN c' := syncSessionExts_ok (run.tidy1 ht hp) run.syncs

end PresetRun

/-- What a successful `ApplyPreset` has done: `c₀` is the connection when the loop over the
extensions starts, `c₁` when the session extensions are taken over. -/
structure Applied (p : ClientHelloSpec) (c c' : UConn) : Prop where
  tidy : c'.Tidy
  standing : c'.standing = c.standing
  random : c'.hello.random.length = 32
  synced : ∃ c₀ c₁, Started p c c₀ ∧ AdaptStep c₀ c₁ ∧ Synced c₁ c'

/-- `ApplyPreset` keeps the connection tidy, however it ends short of a panic. -/
lemma after_applyPreset (ht : c.Tidy) (hp : c.Has p.extensions)
    (h : after (applyPreset d p) c = some c') : c'.Tidy ∧ c'.standing = c.standing := by
  have h0 := keepsFrom_startPreset d p c hp
  rcases after_bind h with ⟨e, he⟩ | ⟨_, c₀, he, h⟩
  · rw [he] at h0
    exact ⟨h0.tidy ht, h0.frame.standing⟩
  · rw [he] at h0
    have hext := (startPreset_ok d he).extensions
    have h1 := adaptStep_adaptExts d p.extensions 0 0 (h0.tidy ht) fun k r hk => by
      rw [endState_ok, hext, Nat.zero_add, hk]
    rcases after_bind h with ⟨e, he1⟩ | ⟨_, c1, he1, h⟩
    · rw [endState_ok, he1] at h1
      exact ⟨h1.buildStep.tidy (h0.tidy ht), h1.buildStep.frame.standing.trans h0.frame.standing⟩
    · rw [endState_ok, he1] at h1
      obtain ⟨_, _, h2, h⟩ := NoFail.after_bind (.modify _) h
      cases h2
      have ht1 : c1.Tidy := h1.buildStep.tidy (h0.tidy ht)
      obtain ⟨ht', hf⟩ := after_syncSessionExts ht1.noteNPN h
      refine ⟨ht', (UConn.standing_of_unsynced hf).trans ?_⟩
      exact h1.buildStep.frame.standing.trans h0.frame.standing

/-- `ApplyPreset` on a tidy connection, with objects of its caller. -/
lemma applyPreset_ok (ht : c.Tidy)
    (hp : c.Has p.extensions) (h : applyPreset d p c = .ok u c') : Applied p c c' := by
  obtain ⟨ht', hst⟩ := after_applyPreset d ht hp (after_of_ok h)
  obtain ⟨run⟩ := applyPreset_run d h
  have h1 := run.adapts ht hp
  have h12 : AdaptStep run.c₀ run.c₁.noteNPN :=
    ⟨h1.frame, h1.next, h1.kind, h1.session, h1.length, h1.place, h1.fresh, h1.grease,
      h1.placeholders, h1.regular⟩
  have hsync := run.synced ht hp
  refine ⟨ht', hst, ?_, run.c₀, run.c₁.noteNPN, run.started, h12, hsync⟩
  have hrandom : c'.hello.random = run.c₁.noteNPN.hello.random :=
    UConn.field_of_unsynced hsync.frame fun c => c.hello.random
  rw [hrandom, ← run.started.random]
  exact congrArg List.length (h12.field fun c => c.hello.random)

/-- The session id has at most 32 bytes, and there is one compression method. -/
lemma Applied.short (h : Applied p c c') :
    c'.hello.sessionId.length ≤ 32 ∧ c'.hello.compressionMethods = [0] := by
  obtain ⟨c₀, c1, hs, ha, hsync⟩ := h.synced
  have h1 : (c1.hello.sessionId, c1.hello.compressionMethods) =
      (c₀.hello.sessionId, c₀.hello.compressionMethods) :=
    ha.field fun c => (c.hello.sessionId, c.hello.compressionMethods)
  have h2 : (c'.hello.sessionId, c'.hello.compressionMethods) =
      (c1.hello.sessionId, c1.hello.compressionMethods) :=
    UConn.field_of_unsynced hsync.frame fun c => (c.hello.sessionId, c.hello.compressionMethods)
  obtain ⟨hid, hcomp⟩ := Prod.mk.inj (h2.trans h1)
  rw [hid, hcomp]
  exact ⟨hs.sessionId, hs.compression⟩

/-- `ApplyPreset` does not note the specification on the connection. -/
lemma Applied.spec (h : Applied p c c') : c'.clientHelloSpec = c.clientHelloSpec := by
  obtain ⟨c₀, c1, hs, ha, hsync⟩ := h.synced
  have h1 : c1.clientHelloSpec = c₀.clientHelloSpec := ha.field UConn.clientHelloSpec
  have h2 : c'.clientHelloSpec = c1.clientHelloSpec :=
    UConn.field_of_unsynced hsync.frame UConn.clientHelloSpec
  rw [h2, h1, hs.spec]

/-! ## The specification of a connection -/

/-- Making objects is a build step. -/
lemma keeps_allocExts {es : List Ext} (hes : ∀ e ∈ es, e.Regular) :
    Keeps BuildStep (allocExts es) := by
  induction es with
  | nil => exact .pure _
  | cons e es ih =>
    obtain ⟨he, hes⟩ := forall_mem_cons.mp hes
    refine Keeps.bind (fun c => ?_) fun _ => (ih hes).bind fun _ => .pure _
    exact buildStep_alloc c he

/-- The objects that were made are allocated. -/
lemma allocExts_ok {es : List Ext} :
    ∀ {c c' : UConn} {rs : List Ref}, (∀ e ∈ es, e.Regular) → allocExts es c = .ok rs c' →
      c'.Has rs := by
  induction es with
  | nil =>
    intro c c' rs _ h
    cases h
    exact fun r hr => by simp at hr
  | cons e es ih =>
    intro c c' rs hes h
    have hes := (forall_mem_cons.mp hes).2
    obtain ⟨_, _, h1, h⟩ := bind_eq_ok.mp h
    cases h1
    obtain ⟨rs', c1, h2, h⟩ := bind_eq_ok.mp h
    cases h
    intro r hr
    rcases mem_cons.mp hr with rfl | hr
    · exact lt_of_lt_of_le (Nat.lt_succ_self _) ((keeps_allocExts hes).of_ok h2).frame.next
    · exact ih hes h2 r hr

/-- So is making the specification of a preset. -/
lemma keeps_generateSpec (n : Nat) : Keeps BuildStep (generateSpec d n) := by
  unfold generateSpec
  cases hdata : d.utlsIdToSpec n with
  | none => exact fun c => refl c
  | some data =>
    have hregular := d.utlsIdToSpec_regular n data hdata
    exact ((keeps_allocExts hregular).bind fun _ => .pure _ :)

/-- The list of a preset has new objects only. -/
lemma generateSpec_ok {n : Nat} (h : generateSpec d n c = .ok p c'): c'.Has p.extensions := by
  obtain ⟨data, c1, h1, h⟩ := bind_eq_ok.mp h
  obtain ⟨rs, c2, h2, h⟩ := bind_eq_ok.mp h
  cases h
  exact allocExts_ok (d.utlsIdToSpec_regular n data (ofOption_eq_ok.mp h1).1) h2

/-- Storing a specification whose objects exist. -/
lemma buildStep_setSpec (hp : c.Has p.extensions) :
    BuildStep c { c with clientHelloSpec := some p } := by
  refine ⟨⟨rfl, le_rfl, fun _ _ => rfl⟩, fun h => ⟨h.extensions, fun q hq => ?_, h.ticket, h.psk,
    h.regular⟩⟩
  cases hq
  exact hp

/-- Looking up the specification is a build step. -/
lemma keeps_specOfID : Keeps BuildStep (specOfID d) := by
  refine Keeps.get_bind fun c => ?_
  cases hs : c.clientHelloSpec with
  | some p => exact refl c
  | none =>
    cases c.clientHelloID with
    | preset n =>
      simp only [run_bind]
      have hk := keeps_generateSpec d n c
      cases hg : generateSpec d n c with
      | error e c1 =>
        rw [hg] at hk
        exact hk
      | ok p c1 =>
        rw [hg] at hk
        exact IsTrans.trans _ _ _ hk (buildStep_setSpec (generateSpec_ok d hg))
    | golang => exact refl c
    | custom => exact refl c

/-- The specification of a connection: the stored one or, for a preset, a new one. -/
lemma specOfID_ok {o : Option ClientHelloSpec} (ht : c.Tidy) (h : specOfID d c = .ok o c'):
    (∃ p, o = some p ∧ c'.Has p.extensions) ∨ (o = none ∧ c = c' ∧ ∀ n, c.clientHelloID ≠ .preset n) := by
  rw [specOfID, run_get_bind] at h
  cases hs : c.clientHelloSpec with
  | some p =>
    rw [hs] at h
    cases h
    exact .inl ⟨p, rfl, ht.spec p hs⟩
  | none =>
    rw [hs] at h
    cases hi : c.clientHelloID with
    | preset n =>
      rw [hi] at h
      obtain ⟨p, c1, h1, h⟩ := bind_eq_ok.mp h
      cases h
      have hp := generateSpec_ok d h1
      exact .inl ⟨p, rfl, hp⟩
    | golang =>
      rw [hi] at h
      cases h
      exact .inr ⟨rfl, rfl, by simp⟩
    | custom =>
      rw [hi] at h
      cases h
      exact .inr ⟨rfl, rfl, by simp⟩

/-- `applyPresetByID` keeps the connection tidy, however it ends short of a panic. -/
lemma after_applyPresetByID (ht : c.Tidy)
    (h : after (applyPresetByID d) c = some c') : c'.Tidy ∧ c'.standing = c.standing := by
  have hk := keeps_specOfID d c
  rcases after_bind h with ⟨e, he⟩ | ⟨o, c1, he, h⟩
  · rw [he] at hk
    exact ⟨hk.tidy ht, hk.frame.standing⟩
  · rw [he] at hk
    have ht1 : c1.Tidy := hk.tidy ht
    rcases specOfID_ok d ht he with ⟨p, rfl, hp⟩ | ⟨rfl, -, -⟩
    · obtain ⟨ht', hst⟩ := after_applyPreset d ht1 hp h
      exact ⟨ht', hst.trans hk.frame.standing⟩
    · cases h
      exact ⟨ht1, hk.frame.standing⟩

/-- A successful `applyPresetByID` has applied a specification, unless the caller has. -/
lemma applyPresetByID_ok (ht : c.Tidy) (h : applyPresetByID d c = .ok u c'):
    (∃ p c1, BuildStep c c1 ∧ Applied p c1 c') ∨ (c' = c ∧ ∀ n, c.clientHelloID ≠ .preset n) := by
  obtain ⟨o, c1, he, h1⟩ := bind_eq_ok.mp h
  have hk := (keeps_specOfID d).of_ok he
  rcases specOfID_ok d ht he with ⟨p, rfl, hp⟩ | ⟨rfl, rfl, hid⟩
  · exact .inl ⟨p, c1, hk, applyPreset_ok d (hk.tidy ht) hp h1⟩
  · cases h1
    exact .inr ⟨rfl, hid⟩

/-- The connection without `server_name` extensions. -/
def UConn.withoutSNI (c : UConn) : UConn :=
  { c with extensions := c.extensions.filter fun r => (c.heap r).asSNI.isNone }

/-- What a first build does before the configuration is applied. -/
lemma prepareBuild_ok (h : prepareBuild d c = .ok u c') :
    ∃ c1, applyPresetByID d c = .ok () c1 ∧ (c' = c1.withoutSNI ∨ c' = c1) := by
  obtain ⟨_, c1, h1, h⟩ := bind_eq_ok.mp h
  refine ⟨c1, h1, ?_⟩
  rcases runIf_eq_ok.mp h with ⟨-, h⟩ | ⟨-, rfl⟩
  · cases h
    exact .inl rfl
  · exact .inr rfl

/-- Removing the server name does not fail. -/
lemma prepareBuild_error {e : Err} (h : prepareBuild d c = .error (.error e) c') :
    applyPresetByID d c = .error (.error e) c' :=
  NoFail.bind_eq_error (fun _ => FailsOnly.get.bind fun _ => .runIf _ (.modify _)) h

end Deps

end Utls
