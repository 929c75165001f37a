import Utls.Lib.Swaps
import Utls.Types

/-!
# Dialing with one hello ID after the other

`dial` shuffles the hello IDs, puts the ID that worked last in front, and tries one after the other
until a handshake succeeds or the TCP connection fails.  A connection whose handshake fails is left
open, so that the connections are accounted for exactly if the first handshake does not fail
(`dial_closes_iff`).
-/

namespace Utls

open List Swaps

/-- What an attempt meets: no TCP connection, a handshake that fails, or a TLS connection with its
hello ID. -/
inductive DialOutcome (ID : Type) where
  | tcpFailure (err : Err)
  | tlsFailure (err : Err)
  | success (helloID : ID)

structure Roller (ID : Type) where
  helloIDs : List ID
  workingHelloID : Option ID

/-- What a call of `dial` has done.  A TCP connection is named by the number of its attempt. -/
structure DialLog (ID : Type) where
  attempts : List ID := []
  opened : List Nat := []
  closed : List Nat := []

variable {ID : Type}

/-- The connection that is returned and its hello ID, or the error. -/
abbrev DialResult (ID : Type) := Option (Nat × ID) × Option Err

/-- The loop over the hello IDs; `err` is the last error. -/
def dialLoop (net : Nat → ID → DialOutcome ID) (err : Option Err) :
    List ID → DialLog ID → DialResult ID × DialLog ID
  | [], log => ((none, err), log)
  | helloID :: helloIDs, log =>
    let k := log.attempts.length
    let attempts := log.attempts ++ [helloID]
    match net k helloID with
    | .tcpFailure e => ((none, some e), { log with attempts })
    | .tlsFailure e => dialLoop net (some e) helloIDs { log with attempts, opened := log.opened ++ [k] }
    | .success id => ((some (k, id), none), { log with attempts, opened := log.opened ++ [k] })

namespace Roller

variable [DecidableEq ID]

/-- The working hello ID is pushed first. -/
def pushFirst (working : ID) (helloIDs : List ID) : List ID :=
  match helloIDs.findIdx? (· = working) with
  | some i => (helloIDs.set i (helloIDs.headD working)).set 0 working
  | none => working :: helloIDs

/-- The hello IDs in the order in which they are tried. -/
def order (c : Roller ID) (swaps : List (Nat × Nat)) : List ID :=
  let helloIDs := swapAll swaps c.helloIDs
  match c.workingHelloID with
  | some working => pushFirst working helloIDs
  | none => helloIDs

/-- `Dial`. -/
def dial (c : Roller ID) (swaps : List (Nat × Nat)) (net : Nat → ID → DialOutcome ID) :
    DialResult ID × DialLog ID × Roller ID :=
  let (result, log) := dialLoop net none (c.order swaps) {}
  (result, log, match result.1 with
    | some (_, id) => { c with workingHelloID := some id }
    | none => c)

/-- The hello IDs that may be tried, each as often as it stands here. -/
def candidates (c : Roller ID) : List ID :=
  match c.workingHelloID with
  | some working => if working ∈ c.helloIDs then c.helloIDs else working :: c.helloIDs
  | none => c.helloIDs

lemma pushFirst_perm (working : ID) (l : List ID) :
    (pushFirst working l).Perm (if working ∈ l then l else working :: l) := by
  rw [pushFirst]
  cases h : l.findIdx? (· = working) with
  | none =>
    have hnot : working ∉ l := fun hmem =>
      absurd (findIdx?_eq_none_iff.mp h working hmem) (by simp)
    rw [if_neg hnot]
  | some i =>
    obtain ⟨hi, hw, -⟩ := findIdx?_eq_some_iff_getElem.mp h
    obtain rfl : l[i] = working := of_decide_eq_true hw
    have hpos : 0 < l.length := by omega
    have hhead : l.headD l[i] = l[0] := by
      rw [headD_eq_head?_getD, head?_eq_getElem?, getElem?_eq_getElem hpos, Option.getD_some]
    rw [if_pos (getElem_mem hi)]
    dsimp only
    rw [hhead, ← swapAt_of_lt hi hpos]
    exact swapAt_perm l (i, 0)

lemma head?_pushFirst (working : ID) (l : List ID) :
    (pushFirst working l).head? = some working := by
  rw [pushFirst]
  cases h : l.findIdx? (· = working) with
  | none => rfl
  | some i =>
    obtain ⟨hi, -⟩ := findIdx?_eq_some_iff_getElem.mp h
    obtain ⟨x, l, rfl⟩ := exists_cons_of_length_pos (Nat.zero_lt_of_lt hi)
    cases i <;> rfl

lemma order_perm (c : Roller ID) (swaps : List (Nat × Nat)) :
    (c.order swaps).Perm c.candidates := by
  have hswaps := swapAll_perm swaps c.helloIDs
  unfold order candidates
  cases c.workingHelloID with
  | none => exact hswaps
  | some working =>
    refine (pushFirst_perm working _).trans ?_
    simp only [hswaps.mem_iff]
    split_ifs
    · exact hswaps
    · exact hswaps.cons working

end Roller

/-- The attempts follow the order, and all but the last fail in the handshake.  What the last one
meets is the result, and it is only a failed handshake if there is no other ID left. -/
structure Stops (net : Nat → ID → DialOutcome ID) (order : List ID) (result : DialResult ID)
    (log : DialLog ID) : Prop where
  follows : log.attempts <+: order
  failed : ∀ i id, i + 1 < log.attempts.length → log.attempts[i]? = some id →
    ∃ e, net i id = .tlsFailure e
  last : match log.attempts.getLast? with
    | none => order = [] ∧ result = (none, none)
    | some id => match net (log.attempts.length - 1) id with
      | .tcpFailure e => result = (none, some e)
      | .tlsFailure e => log.attempts = order ∧ result = (none, some e)
      | .success id' => result = (some (log.attempts.length - 1, id'), none)

/-- Every handshake so far has failed, the last one with `err`. -/
structure Retrying (net : Nat → ID → DialOutcome ID) (err : Option Err) (log : DialLog ID) :
    Prop where
  failed : ∀ i id, log.attempts[i]? = some id → ∃ e, net i id = .tlsFailure e
  last : match log.attempts.getLast? with
    | none => err = none
    | some id => ∃ e, net (log.attempts.length - 1) id = .tlsFailure e ∧ err = some e

section Loop

variable {net : Nat → ID → DialOutcome ID} {err : Option Err} {log : DialLog ID}

lemma getElem?_concat {l : List ID} {a b : ID} {i : Nat} (h : (l ++ [a])[i]? = some b) :
    l[i]? = some b ∨ (i = l.length ∧ a = b) := by
  rcases Nat.lt_trichotomy i l.length with hi | rfl | hi
  · rw [getElem?_append_left hi] at h
    exact .inl h
  · rw [getElem?_concat_length] at h
    exact .inr ⟨rfl, Option.some.inj h⟩
  · rw [getElem?_eq_none (by simp; omega)] at h
    cases h

/-- A failed handshake leads to the next iteration. -/
lemma Retrying.next (h : Retrying net err log) {id : ID} {e : Err}
    (hnet : net log.attempts.length id = .tlsFailure e) (opened : List Nat) :
    Retrying net (some e) { log with attempts := log.attempts ++ [id], opened } where
  failed i id' hi := by
    rcases getElem?_concat hi with hi | ⟨rfl, rfl⟩
    · exact h.failed i id' hi
    · exact ⟨e, hnet⟩
  last := by
    rw [getLast?_concat]
    exact ⟨e, by simpa using hnet, rfl⟩

/-- Any other outcome ends the loop. -/
lemma Retrying.stops (h : Retrying net err log) {id : ID} {helloIDs : List ID}
    {result : DialResult ID} (opened : List Nat) (hlast : match net log.attempts.length id with
      | .tcpFailure e => result = (none, some e)
      | .tlsFailure _ => False
      | .success id' => result = (some (log.attempts.length, id'), none)) :
    Stops net (log.attempts ++ id :: helloIDs) result
      { log with attempts := log.attempts ++ [id], opened } where
  follows := ⟨helloIDs, by simp⟩
  failed i id' hi hget := by
    rcases getElem?_concat hget with hget | ⟨rfl, -⟩
    · exact h.failed i id' hget
    · simp at hi
  last := by
    rw [getLast?_concat]
    simp only [length_append, length_singleton, Nat.add_sub_cancel]
    cases hnet : net log.attempts.length id with
    | tcpFailure e => simpa only [hnet] using hlast
    | tlsFailure e => simp [hnet] at hlast
    | success id' => simpa only [hnet] using hlast

lemma Retrying.loop (h : Retrying net err log) (helloIDs : List ID) :
    Stops net (log.attempts ++ helloIDs) (dialLoop net err helloIDs log).1
      (dialLoop net err helloIDs log).2 := by
  induction helloIDs generalizing err log with
  | nil =>
    rw [append_nil]
    refine ⟨prefix_refl _, fun i id _ => h.failed i id, ?_⟩
    have hlast := h.last
    dsimp only [dialLoop]
    cases hget : log.attempts.getLast? with
    | none =>
      rw [hget] at hlast
      exact ⟨getLast?_eq_none_iff.mp hget, by rw [hlast]⟩
    | some id =>
      rw [hget] at hlast
      obtain ⟨e, hnet, rfl⟩ := hlast
      simp only [hnet, true_and]
  | cons id helloIDs ih =>
    rw [dialLoop]
    cases hnet : net log.attempts.length id with
    | tcpFailure e => exact h.stops _ (by rw [hnet])
    | success id' => exact h.stops _ (by rw [hnet])
    | tlsFailure e =>
      have hrest := ih (h.next hnet (log.opened ++ [log.attempts.length]))
      rwa [append_assoc, singleton_append] at hrest

/-- No iteration closes a connection. -/
lemma dialLoop_keeps (helloIDs : List ID) :
    (dialLoop net err helloIDs log).2.closed = log.closed ∧
      log.opened ⊆ (dialLoop net err helloIDs log).2.opened ∧
      ∀ k id, (dialLoop net err helloIDs log).1.1 = some (k, id) → log.attempts.length ≤ k := by
  induction helloIDs generalizing err log with
  | nil => exact ⟨rfl, Subset.refl _, nofun⟩
  | cons id helloIDs ih =>
    rw [dialLoop]
    cases net log.attempts.length id with
    | tcpFailure e => exact ⟨rfl, Subset.refl _, nofun⟩
    | success id' =>
      refine ⟨rfl, subset_append_left _ _, ?_⟩
      rintro k id h
      cases h
      exact le_rfl
    | tlsFailure e =>
      obtain ⟨hclosed, hopened, hk⟩ := @ih (some e) { log with
        attempts := log.attempts ++ [id], opened := log.opened ++ [log.attempts.length] }
      refine ⟨hclosed, fun k hk => hopened (mem_append_left _ hk), fun k id' h => ?_⟩
      have hle := hk k id' h
      rw [length_append] at hle
      exact Nat.le_of_add_right_le hle

end Loop

namespace Roller

variable [DecidableEq ID]

/-- The ID that is tried first. -/
def first (c : Roller ID) (swaps : List (Nat × Nat)) : Option ID :=
  c.workingHelloID.or (swapAll swaps c.helloIDs).head?

lemma head?_order (c : Roller ID) (swaps : List (Nat × Nat)) :
    (c.order swaps).head? = c.first swaps := by
  unfold order first
  cases c.workingHelloID with
  | none => rfl
  | some working => exact head?_pushFirst working _

/-- The connections that are opened are returned or closed exactly if the first handshake does not
fail. -/
lemma closed_iff (c : Roller ID) (swaps : List (Nat × Nat)) (net : Nat → ID → DialOutcome ID) :
    (∀ k ∈ (c.dial swaps net).2.1.opened, (∀ id, (c.dial swaps net).1.1 ≠ some (k, id)) →
        k ∈ (c.dial swaps net).2.1.closed) ↔
      ∀ id e, c.first swaps = some id → net 0 id ≠ .tlsFailure e := by
  rw [← head?_order]
  unfold dial
  cases c.order swaps with
  | nil => simp [dialLoop]
  | cons id helloIDs =>
    cases hnet : net 0 id with
    | tcpFailure e =>
      refine iff_of_true (by simp [dialLoop, hnet]) ?_
      rintro id e h
      cases h
      simp [hnet]
    | success id' =>
      refine iff_of_true (by simp [dialLoop, hnet]) ?_
      rintro id e h
      cases h
      simp [hnet]
    | tlsFailure e =>
      refine iff_of_false (fun h => ?_) fun h => h id e rfl hnet
      obtain ⟨hclosed, hopened, hk⟩ :=
        @dialLoop_keeps ID net (some e) { attempts := [id], opened := [0] } helloIDs
      have hrun : dialLoop net none (id :: helloIDs) {} =
        dialLoop net (some e) helloIDs { attempts := [id], opened := [0] } := by simp [dialLoop, hnet]
      simp only [hrun] at h
      have hmem := h 0 (hopened (mem_singleton_self 0)) fun id' h => absurd (hk 0 id' h) (by simp)
      rw [hclosed] at hmem
      cases hmem

/-- `dial` tries the working ID first, and each ID at most as often as it stands in the list; it stops
at the first TLS connection, whose ID it keeps, or the first TCP failure.  Every TCP connection that
is not returned is closed exactly if the first handshake does not fail. -/
theorem dial_closes_iff (c : Roller ID) (swaps : List (Nat × Nat))
    (net : Nat → ID → DialOutcome ID) :
    ((∀ working, c.workingHelloID = some working →
          (c.dial swaps net).2.1.attempts.head? = some working) ∧
        (∀ id, (c.dial swaps net).2.1.attempts.count id ≤ c.candidates.count id) ∧
        (∃ order, order.Perm c.candidates ∧
          Stops net order (c.dial swaps net).1 (c.dial swaps net).2.1) ∧
        (c.dial swaps net).2.2 = { c with
          workingHelloID := ((c.dial swaps net).1.1.map (·.2)).or c.workingHelloID } ∧
        ∀ k ∈ (c.dial swaps net).2.1.opened, (∀ id, (c.dial swaps net).1.1 ≠ some (k, id)) →
          k ∈ (c.dial swaps net).2.1.closed) ↔
      ∀ id e, c.first swaps = some id → net 0 id ≠ .tlsFailure e := by
  rw [closed_iff]
  have hstart : Retrying net none ({} : DialLog ID) := ⟨nofun, rfl⟩
  have hstops := hstart.loop (c.order swaps)
  have hperm := c.order_perm swaps
  refine ⟨fun h => h.2.2.2.2, fun h => ⟨?_, ?_, ⟨_, hperm, hstops⟩, ?_, h⟩⟩
  · intro working hworking
    have hhead : (c.order swaps).head? = some working := by
      rw [head?_order, first, hworking]
      rfl
    obtain ⟨rest, hrest⟩ := hstops.follows
    have hlast := hstops.last
    change (dialLoop net none (c.order swaps) {}).2.attempts.head? = _
    cases hattempts : (dialLoop net none (c.order swaps) {}).2.attempts with
    | nil =>
      rw [hattempts] at hlast
      rw [show c.order swaps = [] from hlast.1] at hhead
      cases hhead
    | cons id ids =>
      rw [hattempts] at hrest
      rw [← hhead, ← show id :: ids ++ rest = c.order swaps from hrest]
      rfl
  · intro id
    rw [← hperm.count_eq]
    exact hstops.follows.sublist.count_le id
  · unfold dial
    obtain ⟨⟨conn, err⟩, log⟩ := dialLoop net none (c.order swaps) {}
    cases conn <;> rfl

/-- The only handshake fails, and its connection stays open. -/
theorem dial_leaves_open :
    ∃ run, run = (Roller.mk [7] none).dial [] (fun _ _ => .tlsFailure (.dependency "EOF")) ∧
      run.1.1 = none ∧ 0 ∈ run.2.1.opened ∧ 0 ∉ run.2.1.closed :=
  ⟨_, rfl, rfl, by decide, by decide⟩

end Roller

end Utls
