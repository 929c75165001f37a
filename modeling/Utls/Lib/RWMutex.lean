import Utls.Lib.Exec

/-!
# Readers-writer locks

The state of a readers-writer lock, and the four operations on it as programs on a state that
holds such a lock.  An operation that would wait ends the run with `Blocked`: one goroutine is
modelled, so nobody is left who could wake it.  Giving up a lock that is not held is a panic.

The lemmas say what an operation does to a lock whose state is known, and that a lock taken and
given up again is as before.
-/

namespace Exec

/-- A lock that is held by a number of readers, or by a writer. -/
structure RWMutex where
  readers : Nat
  writer : Bool
  deriving DecidableEq, Repr

/-- The lock that nobody holds. -/
def RWMutex.free : RWMutex := ⟨0, false⟩

/-- The lock with one reader. -/
def RWMutex.shared : RWMutex := ⟨1, false⟩

/-- The lock with its writer. -/
def RWMutex.held : RWMutex := ⟨0, true⟩

/-- The operation that waits. -/
inductive Blocked where
  | rLock
  | lock
  deriving DecidableEq, Repr

/-- A state with a lock. -/
class HasMutex (σ : Type) where
  mutex : σ → RWMutex
  setMutex : σ → RWMutex → σ
  mutex_set : ∀ s m, mutex (setMutex s m) = m
  set_set : ∀ s m m', setMutex (setMutex s m) m' = setMutex s m'
  set_self : ∀ s, setMutex s (mutex s) = s

section

variable {σ : Type} [HasMutex σ]

open HasMutex

/-- `RLock`. -/
def rLock : Prog Blocked σ Unit := fun s =>
  if (mutex s).writer then .error (.error .rLock) s
  else .ok () (setMutex s { mutex s with readers := (mutex s).readers + 1 })

/-- `RUnlock`. -/
def rUnlock : Prog Blocked σ Unit := fun s =>
  if (mutex s).readers = 0 then .error (.panic "sync: RUnlock of unlocked RWMutex") s
  else .ok () (setMutex s { mutex s with readers := (mutex s).readers - 1 })

/-- `Lock`. -/
def lock : Prog Blocked σ Unit := fun s =>
  if (mutex s).writer ∨ (mutex s).readers ≠ 0 then .error (.error .lock) s
  else .ok () (setMutex s { mutex s with writer := true })

/-- `Unlock`. -/
def unlock : Prog Blocked σ Unit := fun s =>
  if (mutex s).writer then .ok () (setMutex s { mutex s with writer := false })
  else .error (.panic "sync: Unlock of unlocked RWMutex") s

/-- `RLock` with a deferred `RUnlock` around `x`.  A panic leaves the lock as it is there. -/
def reading {α : Type} (x : Prog Blocked σ α) : Prog Blocked σ α := do
  rLock
  let a ← x
  rUnlock
  return a

/-- A reader that gives up its lock, runs `x` as the writer and becomes a reader again: `RUnlock`
with a deferred `RLock`, then `Lock` with a deferred `Unlock`. -/
def exclusively {α : Type} (x : Prog Blocked σ α) : Prog Blocked σ α := do
  rUnlock
  lock
  let a ← x
  unlock
  rLock
  return a

variable {s : σ}

lemma rLock_of_free (h : mutex s = .free) : rLock s = .ok () (setMutex s .shared) := by
  rw [rLock, h]
  rfl

lemma rUnlock_of_shared (h : mutex s = .shared) : rUnlock s = .ok () (setMutex s .free) := by
  rw [rUnlock, h]
  rfl

lemma lock_of_free (h : mutex s = .free) : lock s = .ok () (setMutex s .held) := by
  rw [lock, h]
  rfl

lemma unlock_of_held (h : mutex s = .held) : unlock s = .ok () (setMutex s .free) := by
  rw [unlock, h]
  rfl

/-- `reading` on a free lock, around a program that leaves the lock to its reader. -/
lemma reading_eq_ok {α : Type} {x : Prog Blocked σ α} {a : α} {t : σ} (h : mutex s = .free)
    (hx : ∀ b s', x (setMutex s .shared) = .ok b s' → mutex s' = .shared) :
    reading x s = .ok a t ↔ ∃ s', x (setMutex s .shared) = .ok a s' ∧ t = setMutex s' .free := by
  rw [reading, run_bind, rLock_of_free h]
  dsimp only
  rw [bind_eq_ok]
  constructor
  · rintro ⟨b, s', hok, hrest⟩
    rw [run_bind, rUnlock_of_shared (hx b s' hok)] at hrest
    cases hrest
    exact ⟨s', hok, rfl⟩
  · rintro ⟨s', hok, rfl⟩
    refine ⟨a, s', hok, ?_⟩
    rw [run_bind, rUnlock_of_shared (hx a s' hok)]
    rfl

/-- `exclusively` with one reader, around a program that leaves the lock to the writer. -/
lemma exclusively_eq_ok {α : Type} {x : Prog Blocked σ α} {a : α} {t : σ}
    (h : mutex s = .shared) (hx : ∀ b s', x (setMutex s .held) = .ok b s' → mutex s' = .held) :
    exclusively x s = .ok a t ↔
      ∃ s', x (setMutex s .held) = .ok a s' ∧ t = setMutex s' .shared := by
  have hrelock : ∀ b s', x (setMutex s .held) = .ok b s' →
      (do unlock; rLock; return b : Prog Blocked σ α) s' = .ok b (setMutex s' .shared) := by
    intro b s' hok
    rw [run_bind, unlock_of_held (hx b s' hok)]
    dsimp only
    rw [run_bind, rLock_of_free (mutex_set s' _), set_set]
    rfl
  rw [exclusively, run_bind, rUnlock_of_shared h]
  dsimp only
  rw [run_bind, lock_of_free (mutex_set s _), set_set]
  dsimp only
  rw [bind_eq_ok]
  constructor
  · rintro ⟨b, s', hok, hrest⟩
    rw [hrelock b s' hok] at hrest
    cases hrest
    exact ⟨s', hok, rfl⟩
  · rintro ⟨s', hok, rfl⟩
    exact ⟨a, s', hok, hrelock a s' hok⟩

end

end Exec
