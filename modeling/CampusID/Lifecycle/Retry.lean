import CampusID.Lib.Effects

/-!
# Retries

`with_retries`: an operation is tried up to five times.  A transient failure is
noted and the next attempt made; anything else the operation raises goes straight
through; and when the attempts are used up, `RetriesExhausted` is raised with the
history.

`settle` says where the attempts end without saying how the exceptions are handled:
the first outcome that is not a transient failure, if there is one among them.
`withRetries_of_settled` and `withRetries_of_exhausted` are the specification of the
loop in these terms.  The waits
between attempts only let time pass and are left out.
-/

namespace CampusID

open Lib

/-- `Attempt`: one try, and what it raised. -/
structure Attempt where
  number : Nat
  error : String
  deriving DecidableEq, Repr

/-- What a provisioning step can raise: `RetriesExhausted`, or whatever a downstream
system raises, of the arbitrary type `E`. -/
inductive Exn (E : Type) where
  | retriesExhausted (attempts : List Attempt)
  | downstream (e : E)
  deriving DecidableEq, Repr

/-- How an orchestrator retries: the class of exceptions it takes for transient, and the
text of an exception. -/
structure RetryPolicy (E : Type) where
  transient : Exn E → Bool
  text : Exn E → String

/-- `MAX_ATTEMPTS`. -/
def maxAttempts : Nat := 5

namespace RetryPolicy

variable {E σ α : Type} (policy : RetryPolicy E)

/-- The loop of `with_retries`, from a given attempt on. -/
def attemptsFrom (operation : Eff σ (Exn E) α) :
    (number left : Nat) → List Attempt → Eff σ (Exn E) α
  | _, 0, history => Eff.raise (.retriesExhausted history)
  | number, left + 1, history => Eff.attempt operation >>= fun outcome =>
    match outcome with
    | .ok a => pure a
    | .error e =>
      if policy.transient e then
        attemptsFrom operation (number + 1) left (history ++ [⟨number, policy.text e⟩])
      else Eff.raise e

/-- `with_retries`. -/
def withRetries (operation : Eff σ (Exn E) α) : Eff σ (Exn E) α :=
  policy.attemptsFrom operation 1 maxAttempts []

/-- Where up to `n` attempts end: the first outcome that is not a transient failure, if
any, and the state it leaves. -/
def settle (operation : Eff σ (Exn E) α) : Nat → σ → Option (Except (Exn E) α) × σ
  | 0, s => (none, s)
  | n + 1, s =>
    match operation.run s with
    | (.ok a, s') => (some (.ok a), s')
    | (.error e, s') => if policy.transient e then settle operation n s' else (some (.error e), s')

theorem attemptsFrom_of_settled {operation : Eff σ (Exn E) α} {n : Nat} {s s' : σ}
    {outcome : Except (Exn E) α} (h : policy.settle operation n s = (some outcome, s'))
    (number : Nat) (history : List Attempt) :
    (policy.attemptsFrom operation number n history).run s = (outcome, s') := by
  induction n generalizing number history s with
  | zero => simp [settle] at h
  | succ n ih =>
    rcases hop : operation.run s with ⟨e | a, m⟩
    · by_cases ht : policy.transient e
      · simp only [settle, hop, ht, if_true] at h
        simpa [attemptsFrom, hop, ht] using ih h _ _
      · simp only [settle, hop, ht] at h
        simpa [attemptsFrom, hop, ht] using h
    · simp only [settle, hop] at h
      simpa [attemptsFrom, hop] using h

theorem attemptsFrom_of_exhausted {operation : Eff σ (Exn E) α} {n : Nat} {s s' : σ}
    (h : policy.settle operation n s = (none, s')) (number : Nat) (history : List Attempt) :
    ∃ attempts, attempts.length = history.length + n ∧
      (policy.attemptsFrom operation number n history).run s =
        (.error (.retriesExhausted attempts), s') := by
  induction n generalizing number history s with
  | zero =>
    obtain rfl : s = s' := by simpa [settle] using h
    exact ⟨history, rfl, rfl⟩
  | succ n ih =>
    rcases hop : operation.run s with ⟨e | a, m⟩
    · by_cases ht : policy.transient e
      · simp only [settle, hop, ht, if_true] at h
        obtain ⟨attempts, hlen, hrun⟩ :=
          ih h (number + 1) (history ++ [⟨number, policy.text e⟩])
        refine ⟨attempts, ?_, by simpa [attemptsFrom, hop, ht] using hrun⟩
        rw [hlen, List.length_append, List.length_singleton]
        omega
      · simp [settle, hop, ht] at h
    · simp [settle, hop] at h

/-- **Settled attempts**: the retries come to the first outcome that is not a transient
failure. -/
theorem withRetries_of_settled {operation : Eff σ (Exn E) α} {s s' : σ}
    {outcome : Except (Exn E) α} (h : policy.settle operation maxAttempts s = (some outcome, s')) :
    (policy.withRetries operation).run s = (outcome, s') :=
  policy.attemptsFrom_of_settled h 1 []

/-- **Exhausted attempts**: five transient failures are one `RetriesExhausted`. -/
theorem withRetries_of_exhausted {operation : Eff σ (Exn E) α} {s s' : σ}
    (h : policy.settle operation maxAttempts s = (none, s')) :
    ∃ attempts, attempts.length = maxAttempts ∧
      (policy.withRetries operation).run s = (.error (.retriesExhausted attempts), s') := by
  obtain ⟨attempts, hlen, hrun⟩ := policy.attemptsFrom_of_exhausted h 1 []
  exact ⟨attempts, by simpa using hlen, hrun⟩

end RetryPolicy

end CampusID
