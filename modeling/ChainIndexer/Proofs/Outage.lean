import ChainIndexer.Proofs.RetryPolicy
import ChainIndexer.Proofs.Round

/-!
The loop in an outage. Without a bound on its steps and without being asked to end, the loop goes on
as long as every step that fails does so transiently and the delay after it is in range; `Rounds`
are the rounds it has then made, each with the wait at its end. The count of failures in a row is
not bounded, so a long enough outage can take the delay out of range, and that failure is not one of
a step: it ends the loop (`rounds_exceeded`).
-/

namespace ChainIndexer

namespace Indexer

open Act

variable {n : Type → Type} [Monad n] {σ : Type} [Threaded n σ] {x : Indexer n} {start : σ}

/-- The rounds of a loop from a start: their number, the steps that have failed in a row, and the
state that the last wait has left. -/
inductive Rounds (x : Indexer n) (start : σ) : Nat → Nat → σ → Prop
  | zero : Rounds x start 0 0 start
  | success {i f k : Nat} {s s' : σ} (h : Rounds x start i f s)
      (hstep : exec x.step s = (.ok k, s')) :
      Rounds x start (i + 1) 0 (Threaded.exec (x.sleep x.interval) s').2
  | failure {i f : Nat} {s s' : σ} {e : Failure} {d : Amount} (h : Rounds x start i f s)
      (hstep : exec x.step s = (.error e, s')) (htransient : e.kind.isTransient = true)
      (hdelay : x.retry.delay (f + 1 : Nat) = .ok d) :
      Rounds x start (i + 1) (f + 1) (Threaded.exec (x.sleep d) s').2

/-! ### Runs -/

/-- After its first rounds the loop goes on from where they have left it. -/
theorem Rounds.run {i f : Nat} {s : σ} (hstop : ∀ s, Threaded.exec x.isStopped s = (false, s))
    (h : Rounds x start i f s) (count : Nat) :
    exec (x.rounds none (i + count) {}) start = exec (x.rounds none count ⟨f, i⟩) s := by
  induction h generalizing count with
  | zero => rw [Nat.zero_add]
  | @success i f k s s' _ hstep ih =>
    have hmore : isEnough none (i + 1) = false := rfl
    have hround := round_of_wake (p := ⟨f, i⟩) (hstop s) (wake_success hstep) hmore
    rw [Nat.add_right_comm, Nat.add_assoc, ih (count + 1), rounds_next hround]
  | @failure i f s s' e d _ hstep htransient hdelay ih =>
    have hwake := wake_delayed hstep htransient hdelay
    have hmore : isEnough none (i + 1) = false := rfl
    have hround := round_of_wake (p := ⟨f, i⟩) (hstop s) hwake hmore
    rw [Nat.add_right_comm, Nat.add_assoc, ih (count + 1), rounds_next hround]

theorem Rounds.run_ok {i f : Nat} {s : σ} (hstop : ∀ s, Threaded.exec x.isStopped s = (false, s))
    (h : Rounds x start i f s) : exec (x.rounds none i {}) start = (.ok (), s) := by
  have hrun := h.run hstop 0
  rw [Nat.add_zero] at hrun
  rw [hrun]
  exact exec_pure _ _

/-- A failure whose delay is out of range ends the loop. -/
theorem Rounds.run_exceeded {i f : Nat} {s s' : σ} {e : Failure}
    (hstop : ∀ s, Threaded.exec x.isStopped s = (false, s)) (h : Rounds x start i f s)
    (hstep : exec x.step s = (.error e, s')) (htransient : e.kind.isTransient = true)
    (hexceeds : x.retry.Exceeds (f + 1)) {count : Nat} (hcount : i < count) :
    exec (x.rounds none count {}) start = (.error (.fault .overflow), s') := by
  obtain ⟨more, rfl⟩ : ∃ more, count = i + (more + 1) := ⟨count - i - 1, by omega⟩
  have hdelay := (RetryPolicy.delay_eq_error_iff (Nat.le_add_left 1 f)).mpr hexceeds
  have hwake := wake_exceeded hstep htransient hdelay
  rw [h.run hstop]
  exact rounds_failed (round_of_wake_error (p := ⟨f, i⟩) (hstop s) hwake)

/-- A loop whose failures are all transient and in range makes any number of rounds. -/
theorem exists_rounds (hretry : x.retry.Grows)
    (htransient : ∀ i f s e s', Rounds x start i f s → exec x.step s = (.error e, s') →
      e.kind.isTransient = true)
    (hrange : ∀ i f s e s', Rounds x start i f s → exec x.step s = (.error e, s') →
      ¬ x.retry.Exceeds (f + 1)) (count : Nat) : ∃ f s, Rounds x start count f s := by
  induction count with
  | zero => exact ⟨0, start, .zero⟩
  | succ count ih =>
    obtain ⟨f, s, h⟩ := ih
    cases hstep : exec x.step s with
    | mk result s' =>
      cases result with
      | ok k => exact ⟨0, _, .success h hstep⟩
      | error e =>
        obtain ⟨d, hdelay, -⟩ := RetryPolicy.delay_bounds hretry (Nat.le_add_left 1 f)
          (hrange count f s e s' h hstep)
        exact ⟨f + 1, _, .failure h hstep (htransient count f s e s' h hstep) hdelay⟩

/-- How long an outage may last. The delay after any number of failures in a row either is out of
range, and then it fails, or lies between zero and the greatest delay; with the policy that nothing
was said about it is out of range from the 1025th failure on. A loop that is never asked to end and
whose steps fail transiently only makes any number of rounds, each with its wait, just if no failure
that it comes to takes the delay out of range; the first that does ends it with a failure that is no
failure of a step. -/
theorem outage_survived_iff (x : Indexer n) (start : σ) (hretry : x.retry.Grows)
    (hstop : ∀ s, Threaded.exec x.isStopped s = (false, s))
    (htransient : ∀ i f s e s', Rounds x start i f s → exec x.step s = (.error e, s') →
      e.kind.isTransient = true) :
    (∀ k : Nat, 1 ≤ k →
      (x.retry.Exceeds k ∧ x.retry.delay k = .error .overflow) ∨
        (¬ x.retry.Exceeds k ∧
          ∃ d, x.retry.delay k = .ok d ∧ Amount.ofInt 0 ≤ d ∧ d ≤ x.retry.maxDelay)) ∧
    (∀ k : Nat, RetryPolicy.Exceeds {} k ↔ 1025 ≤ k) ∧
    ((∀ count, ∃ f s, Rounds x start count f s ∧
        exec (x.rounds none count {}) start = (.ok (), s)) ↔
      ∀ i f s e s', Rounds x start i f s → exec x.step s = (.error e, s') →
        ¬ x.retry.Exceeds (f + 1)) ∧
    ∀ i f s e s', Rounds x start i f s → exec x.step s = (.error e, s') →
      x.retry.Exceeds (f + 1) →
      ∀ count, i < count → exec (x.rounds none count {}) start = (.error (.fault .overflow), s') := by
  refine ⟨fun k hk => ?_, RetryPolicy.exceeds_default_iff, ⟨?_, ?_⟩, ?_⟩
  · by_cases hexceeds : x.retry.Exceeds k
    · exact Or.inl ⟨hexceeds, (RetryPolicy.delay_eq_error_iff hk).mpr hexceeds⟩
    · exact Or.inr ⟨hexceeds, RetryPolicy.delay_bounds hretry hk hexceeds⟩
  · intro hgoes i f s e s' h hstep hexceeds
    obtain ⟨f', s'', -, hok⟩ := hgoes (i + 1)
    rw [h.run_exceeded hstop hstep (htransient i f s e s' h hstep) hexceeds (Nat.lt_succ_self i)]
      at hok
    cases hok
  · intro hrange count
    obtain ⟨f, s, h⟩ := exists_rounds hretry htransient hrange count
    exact ⟨f, s, h, h.run_ok hstop⟩
  · intro i f s e s' h hstep hexceeds count hcount
    exact h.run_exceeded hstop hstep (htransient i f s e s' h hstep) hexceeds hcount

/-! ### A node that never answers -/

/-- A loop without a stored cursor whose node never answers. -/
def unanswered : Indexer (StateM Unit) where
  adapter := ⟨fun _ => throw (.foreign .transient "no answer"), fun _ => return none⟩
  disk := Files.Place.disk ⟨fun _ => {}, fun _ s => s⟩
  checkpoint := ⟨"cursor.json"⟩
  push _ := return ()
  sleep _ := return ()
  isStopped := return false

theorem unanswered_step (s : Unit) :
    exec unanswered.step s = (.error (.foreign .transient "no answer"), ()) := by
  rfl

/-- The loop makes a round for every failure that the policy has a delay for. -/
theorem unanswered_rounds {i : Nat} (hi : i ≤ 1024) : Rounds unanswered () i i () := by
  induction i with
  | zero => exact .zero
  | succ i ih =>
    have hgrows : RetryPolicy.Grows {} := ⟨by decide +kernel, by decide +kernel, by decide +kernel⟩
    have hrange : ¬ RetryPolicy.Exceeds {} (i + 1) := by
      rw [RetryPolicy.exceeds_default_iff]
      omega
    obtain ⟨d, hdelay, -⟩ := RetryPolicy.delay_bounds hgrows (Nat.le_add_left 1 i) hrange
    exact .failure (ih (by omega)) (unanswered_step ()) rfl hdelay

/-- The 1025th failure ends the loop. -/
theorem unanswered_ends : unanswered.retry.Grows ∧
    (∀ s, Threaded.exec unanswered.isStopped s = (false, s)) ∧
    Rounds unanswered () 1024 1024 () ∧
    exec (unanswered.rounds none 1025 {}) () = (.error (.fault .overflow), ()) := by
  have hgrows : unanswered.retry.Grows :=
    ⟨by decide +kernel, by decide +kernel, by decide +kernel⟩
  have hstop : ∀ s, Threaded.exec unanswered.isStopped s = (false, s) := fun _ => rfl
  have hrounds := unanswered_rounds (Nat.le_refl 1024)
  refine ⟨hgrows, hstop, hrounds, ?_⟩
  obtain ⟨-, hdefault, -, hends⟩ := outage_survived_iff unanswered () hgrows hstop (by
    intro i f s e s' _ hstep
    rw [unanswered_step] at hstep
    cases hstep
    rfl)
  exact hends 1024 1024 () _ () hrounds (unanswered_step ()) ((hdefault 1025).mpr (Nat.le_refl _))
    1025 (Nat.lt_succ_self _)

end Indexer

end ChainIndexer
