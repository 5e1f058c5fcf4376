import ChainIndexer.Indexer
import ChainIndexer.Proofs.Activity

/-!
One round of the loop. What it comes to is decided by whether the loop has been asked to end, by how
its step ended, and by whether it was the last of its steps; there is one lemma for each of these.
-/

namespace ChainIndexer

namespace Indexer

open Act

variable {n : Type → Type} [Monad n] {σ : Type} [Threaded n σ] {x : Indexer n} {s s' : σ} {f : Nat}

/-! ### The step and the wait that it asks for -/

theorem exec_observe (s : σ) :
    exec (Act.sure x.step.observe : Act n (Except Failure Nat)) s =
      (.ok (exec x.step s).1, (exec x.step s).2) :=
  exec_sure _ s

theorem wake_success {k : Nat} (hstep : exec x.step s = (.ok k, s')) :
    exec (x.wake f) s = (.ok (0, x.interval), s') := by
  have hobserved := exec_observe (x := x) s
  rw [hstep] at hobserved
  exact (exec_bind_of_ok hobserved _).trans (exec_pure _ _)

theorem wake_failure {e : Failure} (hstep : exec x.step s = (.error e, s'))
    (htransient : e.kind.isTransient = true) :
    exec (x.wake f) s =
      exec (do return (f + 1, ← x.retry.delay (f + 1 : Nat)) : Act n (Nat × Amount)) s' := by
  have hobserved := exec_observe (x := x) s
  rw [hstep] at hobserved
  refine (exec_bind_of_ok hobserved _).trans ?_
  dsimp only
  rw [if_pos htransient]

theorem wake_delayed {e : Failure} {d : Amount} (hstep : exec x.step s = (.error e, s'))
    (htransient : e.kind.isTransient = true) (hdelay : x.retry.delay (f + 1 : Nat) = .ok d) :
    exec (x.wake f) s = (.ok (f + 1, d), s') := by
  rw [wake_failure hstep htransient, hdelay]
  exact (exec_bind_of_ok (exec_liftFault _ _) _).trans (exec_pure _ _)

theorem wake_exceeded {e : Failure} {g : Fault} (hstep : exec x.step s = (.error e, s'))
    (htransient : e.kind.isTransient = true) (hdelay : x.retry.delay (f + 1 : Nat) = .error g) :
    exec (x.wake f) s = (.error (.fault g), s') := by
  rw [wake_failure hstep htransient, hdelay]
  exact exec_bind_of_error (exec_liftFault _ _) _

/-- A failure that is not transient is handed on. -/
theorem wake_broken {e : Failure} (hstep : exec x.step s = (.error e, s'))
    (hbroken : e.kind.isTransient = false) : exec (x.wake f) s = (.error e, s') := by
  have hobserved := exec_observe (x := x) s
  rw [hstep] at hobserved
  refine (exec_bind_of_ok hobserved _).trans ?_
  dsimp only
  rw [hbroken]
  exact exec_throw _ _

/-! ### The round -/

variable {limit : Option Int} {p : Progress}

theorem round_stopped (hstopped : Threaded.exec x.isStopped s = (true, s)) :
    exec (x.round limit p) s = (.ok none, s) := by
  have hasked : exec (Act.sure x.isStopped : Act n Bool) s = (.ok true, s) := by
    rw [exec_sure, hstopped]
  exact (exec_bind_of_ok hasked _).trans (exec_pure _ _)

theorem round_of_wake_error {e : Failure} (hgoing : Threaded.exec x.isStopped s = (false, s))
    (hwake : exec (x.wake p.failures) s = (.error e, s')) :
    exec (x.round limit p) s = (.error e, s') := by
  have hasked : exec (Act.sure x.isStopped : Act n Bool) s = (.ok false, s) := by
    rw [exec_sure, hgoing]
  exact (exec_bind_of_ok hasked _).trans (exec_bind_of_error hwake _)

theorem round_of_wake {f' : Nat} {d : Amount} (hgoing : Threaded.exec x.isStopped s = (false, s))
    (hwake : exec (x.wake p.failures) s = (.ok (f', d), s'))
    (hmore : isEnough limit (p.steps + 1) = false) :
    exec (x.round limit p) s =
      (.ok (some ⟨f', p.steps + 1⟩), (Threaded.exec (x.sleep d) s').2) := by
  have hasked : exec (Act.sure x.isStopped : Act n Bool) s = (.ok false, s) := by
    rw [exec_sure, hgoing]
  refine (exec_bind_of_ok hasked _).trans ?_
  refine (exec_bind_of_ok hwake _).trans ?_
  dsimp only
  rw [hmore]
  exact (exec_bind_of_ok (exec_sure _ _) _).trans (exec_pure _ _)

/-- After the last of its steps the loop does not wait. -/
theorem round_enough {f' : Nat} {d : Amount} (hgoing : Threaded.exec x.isStopped s = (false, s))
    (hwake : exec (x.wake p.failures) s = (.ok (f', d), s'))
    (henough : isEnough limit (p.steps + 1) = true) :
    exec (x.round limit p) s = (.ok none, s') := by
  have hasked : exec (Act.sure x.isStopped : Act n Bool) s = (.ok false, s) := by
    rw [exec_sure, hgoing]
  refine (exec_bind_of_ok hasked _).trans ?_
  refine (exec_bind_of_ok hwake _).trans ?_
  dsimp only
  rw [henough]
  exact exec_pure _ _

/-! ### The rounds after it -/

variable {count : Nat}

theorem rounds_next {p' : Progress} (h : exec (x.round limit p) s = (.ok (some p'), s')) :
    exec (x.rounds limit (count + 1) p) s = exec (x.rounds limit count p') s' := by
  rw [rounds]
  exact exec_bind_of_ok h _

theorem rounds_ended (h : exec (x.round limit p) s = (.ok none, s')) :
    exec (x.rounds limit (count + 1) p) s = (.ok (), s') := by
  rw [rounds]
  exact (exec_bind_of_ok h _).trans (exec_pure _ _)

theorem rounds_failed {e : Failure} (h : exec (x.round limit p) s = (.error e, s')) :
    exec (x.rounds limit (count + 1) p) s = (.error e, s') := by
  rw [rounds]
  exact exec_bind_of_error h _

end Indexer

end ChainIndexer
