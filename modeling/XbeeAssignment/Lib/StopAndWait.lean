import Mathlib.Data.List.Basic
import Mathlib.Logic.Function.Iterate

/-!
# Stop and wait over a link that loses messages

A client sends a request, waits for the answer and sends the same request again if it
takes none, up to a number of rounds.  The link loses the request or the answer of any
round.  The server serves every request that arrives, and does not know one that it has
served before.

`exchange` stops at the first round whose answer the client takes (`exchange_cases`).  Its
state is the request served as often as it arrived (`stateAt_eq_iterate`), which is
as good as once exactly for a request that does no more when it is served again
(`state_of_idempotent`).

To the client of such requests the link is one that loses whole requests or confirmations
and never repeats anything (`AtMostOnce`): one exchange after the other, each is served at
most once, in order, and before its answer is taken (`atMostOnce_exchange`).
-/

namespace StopAndWait

/-- What becomes of the two messages of a round. -/
inductive Round
  | requestLost
  | answerLost
  | delivered
  deriving DecidableEq

/-- The server gets the request. -/
def Round.arrives : Round → Bool
  | .requestLost => false
  | .answerLost | .delivered => true

/-- One request: what serving it does, what is answered, and which answers the client takes. -/
structure Service (σ ρ : Type*) where
  serve : σ → σ
  /-- In the state before the request is served. -/
  answer : σ → ρ
  accepts : ρ → Bool

/-- The server's state, the rounds that were made, and the answer the client took. -/
structure Outcome (σ ρ : Type*) where
  state : σ
  rounds : ℕ
  taken : Option ρ

namespace Service

variable {σ ρ : Type*} (service : Service σ ρ)

/-- The server's state after a round. -/
def advance (s : σ) (round : Round) : σ :=
  if round.arrives then service.serve s else s

/-- The answer the client takes in a round. -/
def received (s : σ) (round : Round) : Option ρ :=
  if round = .delivered ∧ service.accepts (service.answer s) then some (service.answer s) else none

/-- At most `n` rounds. -/
def exchange : ℕ → (ℕ → Round) → σ → Outcome σ ρ
  | 0, _, s => { state := s, rounds := 0, taken := none }
  | n + 1, link, s =>
      match service.received s (link 0) with
      | some r => { state := service.advance s (link 0), rounds := 1, taken := some r }
      | none =>
          let rest := exchange n (fun k => link (k + 1)) (service.advance s (link 0))
          { rest with rounds := rest.rounds + 1 }

/-- The server's state before round `k`, as long as the client goes on. -/
def stateAt (link : ℕ → Round) (s : σ) : ℕ → σ
  | 0 => s
  | k + 1 => service.advance (stateAt link s k) (link k)

/-- The requests that arrive in the first `k` rounds. -/
def arrivals (link : ℕ → Round) (k : ℕ) : ℕ :=
  (List.range k).countP fun j => (link j).arrives

variable {service} {link : ℕ → Round} {s : σ}

theorem received_of_delivered {round : Round} {r : ρ} (h : service.received s round = some r) :
    round = .delivered ∧ r = service.answer s ∧ service.accepts r = true := by
  unfold received at h
  split at h
  · next hboth =>
      cases h
      exact ⟨hboth.1, rfl, hboth.2⟩
  · cases h

/-- The first round taken off. -/
theorem stateAt_succ (k : ℕ) :
    service.stateAt link s (k + 1) =
      service.stateAt (fun j => link (j + 1)) (service.advance s (link 0)) k := by
  induction k with
  | zero => rfl
  | succ k ih => rw [stateAt, ih, stateAt]

theorem arrivals_succ (link : ℕ → Round) (k : ℕ) :
    arrivals link (k + 1) = arrivals link k + if (link k).arrives then 1 else 0 := by
  unfold arrivals
  rw [List.range_succ, List.countP_append, List.countP_singleton]

/-- Every request that arrives is served. -/
theorem stateAt_eq_iterate (k : ℕ) :
    service.stateAt link s k = service.serve^[arrivals link k] s := by
  induction k with
  | zero => rfl
  | succ k ih =>
      rw [stateAt, advance, arrivals_succ, ih]
      split
      · rw [Function.iterate_succ_apply']
      · rfl

/-- Serving again what was served does nothing more. -/
theorem state_of_idempotent (hidem : service.serve (service.serve s) = service.serve s) (n : ℕ) :
    service.serve^[n + 1] s = service.serve s := by
  induction n with
  | zero => rfl
  | succ n ih => rw [Function.iterate_succ_apply', ih, hidem]

/-- The client stops at the first answer it takes, or after the last round. -/
theorem exchange_cases (service : Service σ ρ) (n : ℕ) (link : ℕ → Round) (s : σ) :
    (∃ k r, k < n ∧ (∀ j < k, service.received (service.stateAt link s j) (link j) = none) ∧
      service.received (service.stateAt link s k) (link k) = some r ∧
      service.exchange n link s =
        { state := service.stateAt link s (k + 1), rounds := k + 1, taken := some r }) ∨
    ((∀ k < n, service.received (service.stateAt link s k) (link k) = none) ∧
      service.exchange n link s =
        { state := service.stateAt link s n, rounds := n, taken := none }) := by
  induction n generalizing link s with
  | zero => exact .inr ⟨by simp, rfl⟩
  | succ n ih =>
      cases hfirst : service.received s (link 0) with
      | some r =>
          exact .inl ⟨0, r, n.succ_pos, by simp, hfirst, by rw [exchange, hfirst]; rfl⟩
      | none =>
          -- the rounds after the first, from the state it leaves
          rcases ih (fun k => link (k + 1)) (service.advance s (link 0)) with
            ⟨k, r, hk, hbefore, hr, heq⟩ | ⟨hnone, heq⟩
          · refine .inl ⟨k + 1, r, Nat.succ_lt_succ hk, ?_, ?_, ?_⟩
            · intro j hj
              cases j with
              | zero => exact hfirst
              | succ j =>
                  rw [stateAt_succ]
                  exact hbefore j (Nat.lt_of_succ_lt_succ hj)
            · rw [stateAt_succ]
              exact hr
            · rw [exchange, hfirst]
              simp only [heq, ← stateAt_succ]
          · refine .inr ⟨?_, ?_⟩
            · intro k hk
              cases k with
              | zero => exact hfirst
              | succ k =>
                  rw [stateAt_succ]
                  exact hnone k (Nat.lt_of_succ_lt_succ hk)
            · rw [exchange, hfirst]
              simp only [heq, ← stateAt_succ]

/-- The state after all rounds made. -/
theorem exchange_state (service : Service σ ρ) (n : ℕ) (link : ℕ → Round) (s : σ) :
    (service.exchange n link s).state =
      service.stateAt link s (service.exchange n link s).rounds := by
  rcases service.exchange_cases n link s with ⟨k, r, -, -, -, heq⟩ | ⟨-, heq⟩ <;> rw [heq]

/-- An answer that was taken is the answer to a request that arrived. -/
theorem arrivals_pos_of_taken {n : ℕ} {r : ρ} (h : (service.exchange n link s).taken = some r) :
    0 < arrivals link (service.exchange n link s).rounds := by
  rcases service.exchange_cases n link s with ⟨k, r', -, -, hr, heq⟩ | ⟨-, heq⟩
  · rw [heq, arrivals_succ, (received_of_delivered hr).1]
    simp [Round.arrives]
  · rw [heq] at h
    cases h

/-- A request that arrives any number of times is served once or not at all. -/
theorem iterate_of_idempotent (hidem : service.serve (service.serve s) = service.serve s) (n : ℕ) :
    service.serve^[n] s = s ∨ service.serve^[n] s = service.serve s := by
  cases n with
  | zero => exact .inl rfl
  | succ n => exact .inr (state_of_idempotent hidem n)

end Service

/-! ## One exchange after the other -/

/-- The requests `qs` lead from `s` to `t`, each served at most once, and the answers that were
taken were given before or after that. -/
inductive AtMostOnce {θ σ ρ : Type*} (service : θ → Service σ ρ) :
    List θ → σ → List (Option ρ) → σ → Prop
  | nil (s : σ) : AtMostOnce service [] s [] s
  /-- The request is lost. -/
  | lost {q : θ} {qs : List θ} {s t : σ} {answers : List (Option ρ)} :
      AtMostOnce service qs s answers t → AtMostOnce service (q :: qs) s (none :: answers) t
  /-- The answer may be lost. -/
  | served {q : θ} {qs : List θ} {s t : σ} {answer : Option ρ} {answers : List (Option ρ)} :
      (∀ r ∈ answer, (service q).accepts r = true ∧
        (r = (service q).answer s ∨ r = (service q).answer ((service q).serve s))) →
      AtMostOnce service qs ((service q).serve s) answers t →
      AtMostOnce service (q :: qs) s (answer :: answers) t

/-- An exchange is one step of it, if serving the request again does no more. -/
theorem atMostOnce_exchange {θ σ ρ : Type*} {service : θ → Service σ ρ} {q : θ} {qs : List θ}
    {s t : σ} {answers : List (Option ρ)}
    (hidem : (service q).serve ((service q).serve s) = (service q).serve s) (n : ℕ)
    (link : ℕ → Round)
    (hrest : AtMostOnce service qs ((service q).exchange n link s).state answers t) :
    AtMostOnce service (q :: qs) s (((service q).exchange n link s).taken :: answers) t := by
  have hstate := (service q).exchange_state n link s
  rw [Service.stateAt_eq_iterate] at hstate
  rcases Nat.eq_zero_or_pos (Service.arrivals link ((service q).exchange n link s).rounds) with
    hnone | hsome
  · have htaken : ((service q).exchange n link s).taken = none := by
      by_contra hne
      obtain ⟨r, hr⟩ := Option.ne_none_iff_exists'.mp hne
      exact absurd (Service.arrivals_pos_of_taken hr) (by omega)
    rw [hnone, Function.iterate_zero_apply] at hstate
    rw [hstate] at hrest
    rw [htaken]
    exact .lost hrest
  · obtain ⟨k, hk⟩ := Nat.exists_eq_add_of_le' hsome
    rw [hk, Service.state_of_idempotent hidem] at hstate
    rw [hstate] at hrest
    refine .served (fun r hr => ?_) hrest
    rcases (service q).exchange_cases n link s with ⟨j, r', -, -, hreceived, heq⟩ | ⟨-, heq⟩
    · rw [heq] at hr
      obtain rfl := Option.some.inj hr
      obtain ⟨-, hanswer, haccepts⟩ := Service.received_of_delivered hreceived
      refine ⟨haccepts, ?_⟩
      rw [hanswer, Service.stateAt_eq_iterate]
      exact (Service.iterate_of_idempotent hidem _).imp (congrArg _) (congrArg _)
    · rw [heq] at hr
      cases hr

end StopAndWait
