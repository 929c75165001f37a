import Mathlib.Order.RelClasses
import Mathlib.Tactic

/-!
# Stateful programs that return errors or panic

`Prog ε σ α` is a program on a state `σ`.  A run ends in one of three ways: it returns a
value, it returns an error of type `ε`, or it panics.  The state is kept in all three
cases, since a caller that handles an error goes on from the state the callee left behind.

Two kinds of statement are made about programs.

* `Keeps R x`: whatever way `x` ends, its initial and final states are related by `R`.  For
  the relation `Same f` this is the frame property "`x` does not touch `f`".
* `Yields P x`: a value that `x` returns satisfies `P`; `FailsOnly P x`: an error that it returns
  does, and `NoFail x`: there is none.

A caller's sequence of calls is a `run`; `run_induction` is the rule for invariants of runs.
-/

namespace Exec

/-- How a program ends when it does not return. -/
inductive Fault (ε : Type) where
  /-- An error value is returned to the caller. -/
  | error (e : ε)
  /-- The program stops with a panic message. -/
  | panic (msg : String)

/-- A stateful program with error returns and panics. -/
abbrev Prog (ε σ α : Type) := EStateM (Fault ε) σ α

variable {ε σ α β : Type}

/-- Returns the error `e`. -/
def fail (e : ε) : Prog ε σ α := throw (.error e)

/-- Panics. -/
def panicWith (msg : String) : Prog ε σ α := throw (.panic msg)

/-- Panics unless `p` holds. -/
def assert (p : Prop) [Decidable p] (msg : String) : Prog ε σ Unit :=
  if p then pure () else panicWith msg

/-- Runs `x` if `p` holds. -/
def runIf (p : Prop) [Decidable p] (x : Prog ε σ Unit) : Prog ε σ Unit :=
  if p then x else pure ()

/-- Runs `x` and hands its error, if any, to the caller as a value; the state `x` left is
kept and a panic is passed on. -/
def attempt (x : Prog ε σ α) : Prog ε σ (Except ε α) := fun s =>
  match x s with
  | .ok a s' => .ok (.ok a) s'
  | .error (.error e) s' => .ok (.error e) s'
  | .error (.panic m) s' => .error (.panic m) s'

/-- An option as a program that fails with `e` on `none`. -/
def ofOption (e : ε) : Option α → Prog ε σ α
  | some a => pure a
  | none => fail e

/-- An `Except` value as a program. -/
def ofExcept : Except ε α → Prog ε σ α
  | .ok a => pure a
  | .error e => fail e

/-! ## Running the primitives -/

@[simp] lemma run_pure (a : α) (s : σ) : (pure a : Prog ε σ α) s = .ok a s := rfl

@[simp] lemma run_get (s : σ) : (get : Prog ε σ σ) s = .ok s s := rfl

@[simp] lemma run_set (t s : σ) : (set t : Prog ε σ PUnit) s = .ok ⟨⟩ t := rfl

@[simp] lemma run_modify (g : σ → σ) (s : σ) : (modify g : Prog ε σ PUnit) s = .ok ⟨⟩ (g s) := rfl

@[simp] lemma run_fail (e : ε) (s : σ) :
    (fail e : Prog ε σ α) s = .error (.error e) s := rfl

@[simp] lemma run_panicWith (m : String) (s : σ) :
    (panicWith m : Prog ε σ α) s = .error (.panic m) s := rfl

@[simp] lemma run_bind (x : Prog ε σ α) (f : α → Prog ε σ β) (s : σ) :
    (x >>= f) s = match x s with
      | .ok a s' => f a s'
      | .error e s' => .error e s' := by
  change EStateM.bind x f s = _
  unfold EStateM.bind
  cases x s <;> rfl

/-- A program that starts by reading the state. -/
lemma run_get_bind (f : σ → Prog ε σ β) (s : σ) : (get >>= f) s = f s s := rfl

@[simp] lemma run_map (f : α → β) (x : Prog ε σ α) (s : σ) :
    (f <$> x) s = match x s with
      | .ok a s' => .ok (f a) s'
      | .error e s' => .error e s' := by
  change EStateM.map f x s = _
  unfold EStateM.map
  cases x s <;> rfl

variable {p : Prop} {x : Prog ε σ α} {f : α → Prog ε σ β} {s s' : σ} {e : ε} {a : α}

@[simp] lemma run_assert_true [Decidable p] (h : p) (m : String) (s : σ) :
    (assert p m : Prog ε σ Unit) s = .ok () s := by
  simp [assert, h]

@[simp] lemma run_assert_false [Decidable p] (h : ¬p) (m : String) (s : σ) :
    (assert p m : Prog ε σ Unit) s = .error (.panic m) s := by
  simp [assert, h]

/-- A sequence returns exactly if both halves do. -/
lemma bind_eq_ok {s'' : σ} {b : β} :
    (x >>= f) s = .ok b s'' ↔ ∃ a s', x s = .ok a s' ∧ f a s' = .ok b s'' := by
  rw [run_bind]
  cases x s <;> simp

/-- The first half of a sequence failed, or it returned and the second half failed. -/
lemma bind_eq_error {e : Fault ε} :
    (x >>= f) s = .error e s' ↔
      x s = .error e s' ∨ ∃ a s1, x s = .ok a s1 ∧ f a s1 = .error e s' := by
  rw [run_bind]
  cases x s with
  | ok a s1 => simp
  | error e1 s1 => simp

lemma assert_eq_ok [Decidable p] {m : String} {u : Unit} :
    (assert p m : Prog ε σ Unit) s = .ok u s' ↔ p ∧ s = s' := by
  by_cases h : p
  · simp [h]
  · simp [h]

/-- A sequence that starts with an assertion. -/
lemma assert_bind_eq_ok [Decidable p] {m : String} {f : Unit → Prog ε σ β}
    {b : β} : (assert p m >>= f) s = .ok b s' ↔ p ∧ f () s = .ok b s' := by
  by_cases h : p <;> simp [h]

lemma runIf_eq_ok [Decidable p] {x : Prog ε σ Unit} {u : Unit} :
    runIf p x s = .ok u s' ↔ (p ∧ x s = .ok u s') ∨ (¬p ∧ s = s') := by
  by_cases h : p <;> simp [runIf, h]

lemma ofOption_eq_ok {o : Option α} :
    (ofOption e o : Prog ε σ α) s = .ok a s' ↔ o = some a ∧ s = s' := by
  cases o <;> simp [ofOption]

lemma ofExcept_eq_ok {o : Except ε α} :
    (ofExcept o : Prog ε σ α) s = .ok a s' ↔ o = .ok a ∧ s = s' := by
  cases o <;> simp [ofExcept]

/-- A sequence that starts with reading an option. -/
lemma ofOption_bind_eq_ok {o : Option α} {f : α → Prog ε σ β} {b : β} :
    (ofOption e o >>= f) s = .ok b s' ↔ ∃ a, o = some a ∧ f a s = .ok b s' := by
  cases o <;> simp [ofOption]

/-- A sequence that starts with a result of pure code. -/
lemma ofExcept_bind_eq_ok {o : Except ε α} {f : α → Prog ε σ β} {b : β} :
    (ofExcept o >>= f) s = .ok b s' ↔ ∃ a, o = .ok a ∧ f a s = .ok b s' := by
  cases o <;> simp [ofExcept]

lemma attempt_eq_ok :
    attempt x s = .ok (.ok a) s' ↔ x s = .ok a s' := by
  unfold attempt
  split <;> rename_i h <;> simp [h]

/-- An error of `x` that is handed to the caller. -/
lemma attempt_eq_error :
    attempt x s = .ok (.error e) s' ↔ x s = .error (.error e) s' := by
  unfold attempt
  split <;> rename_i h <;> simp [h]

/-! ## Final states and relations they keep -/

/-- The state in which a run ends. -/
def endState : EStateM.Result (Fault ε) σ α → σ
  | .ok _ s => s
  | .error _ s => s

@[simp] lemma endState_ok (a : α) (s : σ) :
    endState (.ok a s : EStateM.Result (Fault ε) σ α) = s := rfl

@[simp] lemma endState_error (e : Fault ε) (s : σ) :
    endState (.error e s : EStateM.Result (Fault ε) σ α) = s := rfl

/-- The run returns. -/
def returns : EStateM.Result (Fault ε) σ α → Bool
  | .ok _ _ => true
  | .error _ _ => false

/-- A run that returns nothing of interest is known by its final state. -/
lemma eq_ok_of_returns {r : EStateM.Result (Fault ε) σ Unit} (h : returns r = true) :
    r = .ok () (endState r) := by
  cases r with
  | ok _ s => rfl
  | error e s => cases h

/-- The run returns, and what it returns passes the test. -/
def returnsWith (p : α → σ → Bool) : EStateM.Result (Fault ε) σ α → Bool
  | .ok a s => p a s
  | .error _ _ => false

lemma exists_eq_ok_of_returnsWith {p : α → σ → Bool} {r : EStateM.Result (Fault ε) σ α}
    (h : returnsWith p r = true) : ∃ a s, r = .ok a s ∧ p a s = true := by
  cases r with
  | ok a s => exact ⟨a, s, rfl, h⟩
  | error e s => cases h

/-- The run fails with the error `e`. -/
def failsWith [DecidableEq ε] (e : ε) : EStateM.Result (Fault ε) σ α → Bool
  | .error (.error e') _ => decide (e' = e)
  | _ => false

lemma exists_eq_error_of_failsWith [DecidableEq ε] {r : EStateM.Result (Fault ε) σ α}
    (h : failsWith e r = true) : ∃ s, r = .error (.error e) s := by
  match r with
  | .error (.error e') s =>
    obtain rfl : e' = e := of_decide_eq_true h
    exact ⟨s, rfl⟩
  | .error (.panic m) s => cases h
  | .ok a s => cases h

/-- Every run of `x` relates its initial to its final state by `R`. -/
def Keeps (R : σ → σ → Prop) (x : Prog ε σ α) : Prop := ∀ s, R s (endState (x s))

/-- The states agree under `f`. -/
def Same {γ : Type*} (f : σ → γ) (s s' : σ) : Prop := f s' = f s

instance {γ : Type*} (f : σ → γ) : IsPreorder σ (Same f) where
  refl _ := rfl
  trans _ _ _ h h' := h'.trans h

namespace Keeps

variable {R : σ → σ → Prop}

lemma modify {g : σ → σ} (h : ∀ s, R s (g s)) :
    Keeps R (modify g : Prog ε σ PUnit) := h

/-- A program that starts by reading the state. -/
lemma get_bind {f : σ → Prog ε σ β} (h : ∀ s, R s (endState (f s s))) :
    Keeps R (MonadState.get >>= f) := h

variable {x : Prog ε σ α}

lemma attempt (hx : Keeps R x) : Keeps R (Exec.attempt x) := by
  intro s
  have h := hx s
  unfold Exec.attempt
  split <;> rename_i hr <;> rw [hr] at h <;> exact h

lemma ite {p : Prop} [Decidable p] {y : Prog ε σ α} (hx : Keeps R x) (hy : Keeps R y) :
    Keeps R (if p then x else y) := by
  split_ifs
  · exact hx
  · exact hy

/-- What a successful run relates. -/
lemma of_ok (hx : Keeps R x) {s s' : σ} {a : α} (h : x s = .ok a s') : R s s' := by
  have := hx s
  rwa [h] at this

variable [IsPreorder σ R]

lemma pure (a : α) : Keeps R (Pure.pure a : Prog ε σ α) := fun s => refl s

lemma get : Keeps R (MonadState.get : Prog ε σ σ) := fun s => refl s

lemma fail (e : ε) : Keeps R (Exec.fail e : Prog ε σ α) := fun s => refl s

lemma panicWith (m : String) : Keeps R (Exec.panicWith m : Prog ε σ α) := fun s => refl s

lemma bind {f : α → Prog ε σ β} (hx : Keeps R x) (hf : ∀ a, Keeps R (f a)) : Keeps R (x >>= f) := by
  intro s
  have h := hx s
  rw [run_bind]
  cases hr : x s with
  | ok a s' =>
    rw [hr] at h
    exact IsTrans.trans _ _ _ h (hf a s')
  | error e s' =>
    rw [hr] at h
    exact h

lemma assert (p : Prop) [Decidable p] (m : String) : Keeps R (Exec.assert p m : Prog ε σ Unit) := by
  unfold Exec.assert
  split_ifs
  · exact Keeps.pure ()
  · exact Keeps.panicWith m

lemma runIf (p : Prop) [Decidable p] {x : Prog ε σ Unit} (hx : Keeps R x) :
    Keeps R (Exec.runIf p x) :=
  ite hx (pure ())

lemma ofOption (e : ε) (o : Option α) : Keeps R (Exec.ofOption e o : Prog ε σ α) := by
  cases o with
  | none => exact Keeps.fail e
  | some a => exact Keeps.pure a

lemma ofExcept (o : Except ε α) : Keeps R (Exec.ofExcept o : Prog ε σ α) := by
  cases o with
  | error e => exact Keeps.fail e
  | ok a => exact Keeps.pure a

end Keeps

lemma Keeps.mono {R R' : σ → σ → Prop} (hx : Keeps R x)
    (h : ∀ s s', R s s' → R' s s') : Keeps R' x := fun s => h _ _ (hx s)

/-- Every run of `x` from a state in `P` relates its initial to its final state by `R`. -/
def KeepsFrom (P : σ → Prop) (R : σ → σ → Prop) (x : Prog ε σ α) : Prop :=
  ∀ s, P s → R s (endState (x s))

namespace KeepsFrom

variable {P : σ → Prop} {R : σ → σ → Prop}

lemma of_keeps {x : Prog ε σ α} (hx : Keeps R x) : KeepsFrom P R x := fun s _ => hx s

/-- The condition holds again in front of the second part, since `R` keeps it. -/
lemma bind [IsPreorder σ R] {x : Prog ε σ α} {f : α → Prog ε σ β} (hP : ∀ s s', R s s' → P s → P s')
    (hx : KeepsFrom P R x) (hf : ∀ a, KeepsFrom P R (f a)) : KeepsFrom P R (x >>= f) := by
  intro s hs
  have h := hx s hs
  rw [run_bind]
  cases hr : x s with
  | ok a s' =>
    rw [hr] at h
    exact IsTrans.trans _ _ _ h (hf a s' (hP _ _ h hs))
  | error e s' =>
    rw [hr] at h
    exact h

end KeepsFrom

/-! ## Returned values -/

/-- Every value that `x` returns satisfies `P`, whatever the state. -/
def Yields (P : α → Prop) (x : Prog ε σ α) : Prop := ∀ s a s', x s = .ok a s' → P a

namespace Yields

variable {P : α → Prop}

variable {x : Prog ε σ α}

lemma mono {Q : α → Prop} (hx : Yields P x) (h : ∀ a, P a → Q a) :
    Yields Q x := fun s a s' ha => h a (hx s a s' ha)

lemma pure {a : α} (h : P a) : Yields P (Pure.pure a : Prog ε σ α) := by
  rintro s b s' hb
  cases hb
  exact h

lemma bind {P : β → Prop} {Q : α → Prop} {f : α → Prog ε σ β}
    (hx : Yields Q x) (hf : ∀ a, Q a → Yields P (f a)) : Yields P (x >>= f) := by
  intro s b s'' h
  obtain ⟨a, s', ha, hb⟩ := bind_eq_ok.mp h
  exact hf a (hx s a s' ha) s' b s'' hb

/-- When nothing needs to be known about the value of the first part. -/
lemma after {P : β → Prop} {f : α → Prog ε σ β} (hf : ∀ a, Yields P (f a)) : Yields P (x >>= f) :=
  bind (fun _ _ _ _ => trivial : Yields (fun _ => True) x) fun a _ => hf a

lemma ite {p : Prop} [Decidable p] {y : Prog ε σ α} (hx : Yields P x) (hy : Yields P y) :
    Yields P (if p then x else y) := by
  split_ifs
  · exact hx
  · exact hy

end Yields

/-! ## Returned errors -/

/-- Every error that `x` returns satisfies `P`. -/
def FailsOnly (P : ε → Prop) (x : Prog ε σ α) : Prop := ∀ s e s', x s = .error (.error e) s' → P e

/-- `x` returns or panics, but does not return an error. -/
abbrev NoFail (x : Prog ε σ α) : Prop := FailsOnly (fun _ => False) x

namespace FailsOnly

variable {P : ε → Prop}

lemma pure (a : α) : FailsOnly P (Pure.pure a : Prog ε σ α) := by
  intro s e s' h
  cases h

lemma get : FailsOnly P (MonadState.get : Prog ε σ σ) := by
  intro s e s' h
  cases h

lemma set (t : σ) : FailsOnly P (set t : Prog ε σ PUnit) := by
  intro s e s' h
  cases h

lemma modify (g : σ → σ) : FailsOnly P (modify g : Prog ε σ PUnit) := by
  intro s e s' h
  cases h

lemma panicWith (m : String) : FailsOnly P (Exec.panicWith m : Prog ε σ α) := by
  intro s e s' h
  cases h

lemma attempt (x : Prog ε σ α) : FailsOnly P (Exec.attempt x) := by
  intro s e s' h
  unfold Exec.attempt at h
  split at h <;> cases h

variable {x : Prog ε σ α}

lemma of_noFail (hx : NoFail x) : FailsOnly P x :=
  fun s e s' h => absurd h (hx s e s')

lemma fail {e : ε} (h : P e) : FailsOnly P (Exec.fail e : Prog ε σ α) := by
  intro s e' s' h'
  cases h'
  exact h

lemma ofOption {e : ε} (h : P e) (o : Option α) : FailsOnly P (Exec.ofOption e o : Prog ε σ α) := by
  cases o with
  | none => exact fail h
  | some a => exact pure a

lemma ofExcept {o : Except ε α} (h : ∀ e, o = .error e → P e) :
    FailsOnly P (Exec.ofExcept o : Prog ε σ α) := by
  cases o with
  | error e => exact fail (h e rfl)
  | ok a => exact pure a

lemma ite {p : Prop} [Decidable p] {y : Prog ε σ α} (hx : FailsOnly P x) (hy : FailsOnly P y) :
    FailsOnly P (if p then x else y) := by
  split_ifs
  · exact hx
  · exact hy

lemma assert (p : Prop) [Decidable p] (m : String) :
    FailsOnly P (Exec.assert p m : Prog ε σ Unit) :=
  ite (pure ()) (panicWith m)

lemma runIf (p : Prop) [Decidable p] {x : Prog ε σ Unit} (hx : FailsOnly P x) :
    FailsOnly P (Exec.runIf p x) :=
  ite hx (pure ())

lemma bind {f : α → Prog ε σ β} (hx : FailsOnly P x)
    (hf : ∀ a, FailsOnly P (f a)) : FailsOnly P (x >>= f) := by
  intro s e s' h
  rcases bind_eq_error.mp h with h | ⟨a, s1, -, h⟩
  · exact hx s e s' h
  · exact hf a s1 e s' h

end FailsOnly

/-- An error of a sequence whose second half does not fail comes from the first half. -/
lemma NoFail.bind_eq_error (hf : ∀ a, NoFail (f a))
    (h : (x >>= f) s = .error (.error e) s') : x s = .error (.error e) s' := by
  rcases Exec.bind_eq_error.mp h with h | ⟨a, s1, -, h⟩
  · exact h
  · exact absurd h (hf a s1 e s')

/-! ## Runs of calls

A caller makes one call after another.  A call that returns an error leaves its state to the next
one; a call that panics ends the run. -/

/-- The state after a call, unless it panics. -/
def after (x : Prog ε σ α) (s : σ) : Option σ :=
  match x s with
  | .ok _ s' => some s'
  | .error (.error _) s' => some s'
  | .error (.panic _) _ => none

lemma after_eq_some (h : after x s = some s') :
    (∃ a, x s = .ok a s') ∨ ∃ e, x s = .error (.error e) s' := by
  unfold after at h
  split at h <;> simp_all

/-- After a sequence: its first half failed, or it returned and the second half went on. -/
lemma after_bind (h : after (x >>= f) s = some s') :
    (∃ e, x s = .error (.error e) s') ∨ ∃ a s1, x s = .ok a s1 ∧ after (f a) s1 = some s' := by
  unfold after at h
  rw [run_bind] at h
  cases hx : x s with
  | ok a s1 =>
    rw [hx] at h
    exact .inr ⟨a, s1, rfl, h⟩
  | error e s1 =>
    rw [hx] at h
    cases e with
    | error e =>
      cases h
      exact .inl ⟨e, rfl⟩
    | panic m => cases h

/-- A program that does not fail returns, if it does not panic. -/
lemma NoFail.of_after (hx : NoFail x) (h : after x s = some s') : ∃ a, x s = .ok a s' := by
  rcases after_eq_some h with ha | ⟨e, he⟩
  · exact ha
  · exact absurd he (hx s e s')

lemma NoFail.after_bind (hx : NoFail x)
    (h : after (x >>= f) s = some s') : ∃ a s1, x s = .ok a s1 ∧ after (f a) s1 = some s' := by
  rcases Exec.after_bind h with ⟨e, he⟩ | h
  · exact absurd he (hx s e s')
  · exact h

lemma after_of_ok (h : x s = .ok a s') : after x s = some s' := by
  simp [after, h]

/-- Whatever a program keeps holds between calls. -/
lemma Keeps.of_after {R : σ → σ → Prop} (hx : Keeps R x) (h : after x s = some s') : R s s' := by
  have hk := hx s
  rcases after_eq_some h with ⟨a, ha⟩ | ⟨e, he⟩
  · rwa [ha] at hk
  · rwa [he] at hk

section Run

variable {κ : Type} (exec : κ → Prog ε σ Unit)

/-- The state after a sequence of calls, unless one of them panics. -/
def run : List κ → σ → Option σ
  | [], s => some s
  | op :: ops, s => (after (exec op) s).bind (run ops)

/-- Every call of the sequence is made in a state that meets `P`. -/
def Along (P : κ → σ → Prop) : List κ → σ → Prop
  | [], _ => True
  | op :: ops, s => P op s ∧ ∀ s', after (exec op) s = some s' → Along P ops s'

variable {exec}

lemma run_cons {op : κ} {ops : List κ} {s s' : σ} (h : run exec (op :: ops) s = some s') :
    ∃ s1, after (exec op) s = some s1 ∧ run exec ops s1 = some s' :=
  Option.bind_eq_some_iff.mp h

/-- What every call keeps under its condition holds after every run whose calls meet theirs. -/
theorem run_induction {I : σ → Prop} {P : κ → σ → Prop}
    (hstep : ∀ op s s', I s → P op s → after (exec op) s = some s' → I s') {ops : List κ} :
    ∀ {s s' : σ}, I s → Along exec P ops s → run exec ops s = some s' → I s' := by
  induction ops with
  | nil =>
    intro s s' hi _ h
    cases h
    exact hi
  | cons op ops ih =>
    intro s s' hi hp h
    obtain ⟨s1, h1, h2⟩ := run_cons h
    exact ih (hstep op s s1 hi hp.1 h1) (hp.2 s1 h1) h2

end Run

end Exec
