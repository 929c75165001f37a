import Utls.ApplyConfig
import Utls.ExtensionRead

/-!
# The order of trust anchors

A `TrustAnchorsExtension` has two lists: the identifiers it was given, and the order in which
`writeToUConn` decided to send them.  `Len` counts the first list and `Read` writes the second.

Here the extension goes through any sequence of calls.  `Guarded` says of such a sequence that every
`Read` finds an order that was chosen for the identifiers it has, and identifiers that fit their length
byte.  Then every `Read` writes a permutation of the identifiers (`Tracked.readsFollow`).
-/

namespace Utls

open Wire Exec Option
open List hiding after

/-- What a program may do with a trust anchors extension. -/
inductive AnchorsCall where
  | setTrustAnchors (trustAnchors : List Bytes)
  | write (b : Bytes)
  | writeToUConn (d : Deps) (c : UConn)
  | read (b : Bytes)

namespace TrustAnchorsExtension

variable (e : TrustAnchorsExtension)

/-- `Write`: the new fields, and what it returns. -/
def write (b : Bytes) : TrustAnchorsExtension × Except Err Nat :=
  match writeVector readLP16 true readNonEmpty8 "unable to read trust_anchors extension data"
      "unable to read a trust_anchors entry" b with
  | .ok (anchors, _) => ({ e with trustAnchors := anchors }, .ok b.length)
  | .error err => (e, .error err)

/-- The extension after `writeToUConn` in a connection. -/
def ordered (d : Deps) (c : UConn) : TrustAnchorsExtension :=
  match e.chooseOrder d c with
  | .ok e' _ => e'
  | .error _ _ => e

/-- The extension after a call. -/
def call : AnchorsCall → TrustAnchorsExtension
  | .setTrustAnchors trustAnchors => { e with trustAnchors := trustAnchors }
  | .write b => (e.write b).1
  | .writeToUConn d c => e.ordered d c
  | .read _ => e

/-! ## What a `Read` should do -/

/-- A `Read` into `b` that follows the list: an identifier that is too long for its length byte
gives an error, and if the call succeeds it has written `Len` bytes at the front of the buffer,
with a permutation of the identifiers, in their own order if they are not to be shuffled. -/
def ReadFollows (b : Bytes) : Prop :=
  ((∃ ta ∈ e.trustAnchors, 255 < ta.length) → ∃ err, e.readInto b = some (.error err)) ∧
  ∀ n b', e.readInto b = some (.ok (n, b')) → n = e.len ∧
    ∃ l : List Bytes, l.Perm e.trustAnchors ∧ (e.shuffle = false → l = e.trustAnchors) ∧
      b' = extFrame utlsExtensionTrustAnchors (vec16 (protocolNames l)) ++ b.drop n

/-- Every `Read` of a sequence of calls follows the list, and none changes it. -/
def ReadsFollow : TrustAnchorsExtension → List AnchorsCall → Prop
  | _, [] => True
  | e, c :: cs => (∀ b, c = .read b → e.ReadFollows b ∧ (e.call c).trustAnchors = e.trustAnchors) ∧
      ReadsFollow (e.call c) cs

/-- Every `Read` of a sequence of calls finds an order for the identifiers it has, and finds them
short enough or too many for the extension.  The flag says that the order, if there is one, was
chosen for the present identifiers; a call that changes them while there is an order clears it. -/
def Guarded : Bool → TrustAnchorsExtension → List AnchorsCall → Prop
  | _, _, [] => True
  | current, e, c :: cs =>
    match c with
    | .setTrustAnchors _ | .write _ =>
      Guarded (e.emitOrder.isNone || (current && decide ((e.call c).trustAnchors = e.trustAnchors)))
        (e.call c) cs
    | .writeToUConn _ _ => Guarded true (e.call c) cs
    | .read _ => current = true ∧
      ((∀ ta ∈ e.trustAnchors, ta.length ≤ 255) ∨ 0xffff - 2 < e.len - 6) ∧
      Guarded current (e.call c) cs

variable {e : TrustAnchorsExtension} {current : Bool}

/-- What `Read` does while the order is one of the present identifiers. -/
lemma Current.readInto_eq (h : e.Current) (b : Bytes) :
    e.readInto b =
      if b.length < e.len then some (.error .shortBuffer)
      else if e.len - 6 > 0xffff - 2 then
        some (.error (.text "tls: trust_anchors list does not fit a uint16 length"))
      else some (.ok (e.len, extFrame utlsExtensionTrustAnchors (vec16 (protocolNames e.list)) ++
        b.drop e.len)) := by
  have hlen : (extFrame utlsExtensionTrustAnchors (vec16 (protocolNames e.list))).length = e.len :=
    Ext.length_wire (fun _ => false) (e := .trustAnchors e) nofun (Ext.Regular.exact h)
  rw [TrustAnchorsExtension.readInto_eq e rfl b, hlen]
  split_ifs
  · rfl
  · rfl
  · rfl

/-- `writeToUConn` chooses an order of the present identifiers. -/
lemma ordered_spec (d : Deps) (c : UConn) :
    (Ext.trustAnchors e).Rewrite c (.trustAnchors (e.ordered d c)) ∧ (e.ordered d c).Current := by
  obtain ⟨e', c', h⟩ := chooseOrder_returns d e c
  have hspec := yields_chooseOrder d c e _ _ _ h
  rwa [ordered, h]

/-- The invariant of a run: the order is current where the flag says so, and there is none if the
identifiers are not to be shuffled. -/
structure Tracked (current : Bool) (e : TrustAnchorsExtension) : Prop where
  current_of : current = true → e.Current
  unshuffled : e.shuffle = false → e.emitOrder = none

lemma Tracked.list_eq (h : Tracked current e) (hs : e.shuffle = false) :
    e.list = e.trustAnchors := by
  rw [list, h.unshuffled hs]
  rfl

lemma Tracked.readFollows (h : Tracked true e) {b : Bytes}
    (hfits : (∀ ta ∈ e.trustAnchors, ta.length ≤ 255) ∨ 0xffff - 2 < e.len - 6) :
    e.ReadFollows b := by
  have hcurrent := h.current_of rfl
  refine ⟨fun ⟨ta, hta, hlong⟩ => ?_, fun n b' hread => ?_⟩
  · have hmany := hfits.resolve_left fun hshort => absurd (hshort ta hta) (by omega)
    rw [hcurrent.readInto_eq]
    by_cases hroom : b.length < e.len
    · exact ⟨_, if_pos hroom⟩
    · exact ⟨_, by rw [if_neg hroom, if_pos hmany]⟩
  · rw [hcurrent.readInto_eq] at hread
    split_ifs at hread
    · cases hread
    · cases hread
    · obtain ⟨rfl, rfl⟩ := Prod.mk.inj (Except.ok.inj (some.inj hread))
      exact ⟨rfl, e.list, hcurrent.list_perm, h.list_eq, rfl⟩

/-- A call that gives the extension other identifiers and leaves the order alone. -/
lemma Tracked.changed (h : Tracked current e) {e' : TrustAnchorsExtension}
    (hshuffle : e'.shuffle = e.shuffle) (horder : e'.emitOrder = e.emitOrder) :
    Tracked (e.emitOrder.isNone || (current && decide (e'.trustAnchors = e.trustAnchors))) e' := by
  refine ⟨fun hflag => ?_, fun hs => horder.trans (h.unshuffled (hshuffle ▸ hs))⟩
  intro o ho
  rw [horder] at ho
  rcases Bool.or_eq_true_iff.mp hflag with hnone | hsame
  · rw [isNone_iff_eq_none.mp hnone] at ho
    cases ho
  · obtain ⟨hc, heq⟩ := Bool.and_eq_true_iff.mp hsame
    rw [of_decide_eq_true heq]
    exact h.current_of hc o ho

lemma write_frame (b : Bytes) :
    (e.write b).1.shuffle = e.shuffle ∧ (e.write b).1.emitOrder = e.emitOrder := by
  unfold write
  split
  · exact ⟨rfl, rfl⟩
  · exact ⟨rfl, rfl⟩

/-- The run lemma. -/
lemma Tracked.readsFollow (h : Tracked current e) {cs : List AnchorsCall}
    (hcs : Guarded current e cs) : e.ReadsFollow cs := by
  induction cs generalizing current e with
  | nil => trivial
  | cons c cs ih =>
    cases c with
    | setTrustAnchors l =>
      exact ⟨nofun, ih (h.changed rfl rfl) hcs⟩
    | write b =>
      exact ⟨nofun, ih (h.changed (e.write_frame b).1 (e.write_frame b).2) hcs⟩
    | writeToUConn d c =>
      obtain ⟨hrewrite, hcurrent⟩ := e.ordered_spec d c
      refine ⟨nofun, ih ⟨fun _ => hcurrent, fun hs => ?_⟩ hcs⟩
      -- without shuffling there was no order, and none is chosen
      have hcore := hrewrite.core
      simp only [Ext.core, Ext.trustAnchors.injEq, mk.injEq, and_true] at hcore
      have hshuffle : (e.ordered d c).shuffle = e.shuffle := hcore.2
      have hsteady : (Ext.trustAnchors e).Steady c :=
        ⟨fun h => by simp [hshuffle.symm.trans hs] at h, h.unshuffled (hshuffle.symm.trans hs)⟩
      rw [call, Ext.trustAnchors.inj (hrewrite.steady trivial rfl hsteady)]
      exact hsteady.2
    | read b =>
      obtain ⟨rfl, hfits, hrest⟩ := hcs
      refine ⟨?_, ih h hrest⟩
      rintro _ ⟨⟩
      exact ⟨h.readFollows hfits, rfl⟩

end TrustAnchorsExtension

/-- On an extension that has not chosen an order yet, every `Read` of a guarded sequence of calls
writes exactly `Len` bytes with a permutation of the identifiers of that moment. -/
theorem trustAnchors_readsFollow {e : TrustAnchorsExtension} (he : e.emitOrder = none)
    {cs : List AnchorsCall} (hcs : TrustAnchorsExtension.Guarded true e cs) : e.ReadsFollow cs := by
  refine TrustAnchorsExtension.Tracked.readsFollow ⟨fun _ o ho => ?_, fun _ => he⟩ hcs
  rw [he] at ho
  cases ho

/-- A connection that has read `k` times from the random source. -/
def anchorsClient (k : Nat) : UConn where
  heap _ := .sct
  nextRef := 0
  draws := k
  config := {}
  clientHelloID := .custom

/-- Two identifiers that are to be shuffled. -/
def shuffled : TrustAnchorsExtension := ⟨[[1], [2]], true, none⟩

/-- The calls of two connections with different identifiers, each of which chooses its order. -/
theorem shuffled_readsFollow :
    shuffled.ReadsFollow
      [.writeToUConn .sample (anchorsClient 0), .read (List.replicate 16 0),
        .setTrustAnchors [[3], [4, 5]], .writeToUConn .sample (anchorsClient 1),
        .read (List.replicate 16 0)] :=
  trustAnchors_readsFollow rfl (by
    refine ⟨rfl, .inl (by decide), rfl, .inl ?_, trivial⟩
    decide)

/-- The same extension with other identifiers assigned behind the choice of the order. -/
def reassigned : TrustAnchorsExtension :=
  (shuffled.call (.writeToUConn .sample (anchorsClient 0))).call (.setTrustAnchors [[9]])

/-- An identifier that does not fit its length byte. -/
def longAnchor : TrustAnchorsExtension := ⟨[List.replicate 256 7], false, none⟩

/-- Identifiers assigned behind the choice are counted by `Len` and not sent: eight bytes are
reported, and the list has the two old identifiers.  An identifier of 256 bytes is sent with the
length 0. -/
theorem reassigned_stale :
    reassigned.readInto (List.replicate 10 0) =
      some (.ok (8, [0xca, 0x34, 0, 6, 0, 4, 1, 2, 1, 1])) ∧
    ¬reassigned.ReadFollows (List.replicate 10 0) ∧
    ¬longAnchor.ReadFollows (List.replicate 300 0) := by
  have hread : reassigned.readInto (replicate 10 0) =
      some (.ok (8, [0xca, 0x34, 0, 6, 0, 4, 1, 2, 1, 1])) := by decide +kernel
  refine ⟨hread, fun h => ?_, fun h => ?_⟩
  · obtain ⟨-, l, hperm, -, hbytes⟩ := h.2 _ _ hread
    obtain rfl : l = [[9]] := perm_singleton.mp hperm
    revert hbytes
    decide +kernel
  · have hlong : 255 < (replicate 256 (7 : UInt8)).length := by
      rw [length_replicate]
      omega
    obtain ⟨err, herr⟩ := h.1 ⟨_, mem_singleton_self _, hlong⟩
    have hok : (longAnchor.readInto (replicate 300 0)).map Except.isOk = some true := by
      decide +kernel
    rw [herr] at hok
    cases hok

end Utls
