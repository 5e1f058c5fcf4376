import ChainIndexer.Proofs.Round

/-!
The schedule of the loop: which steps and waits it makes, one after another, and why it ends. `Runs`
follows the rounds of a loop with the results of the steps before them, and `exec_rounds` says that
the loop goes like this. The failures in a row that the loop counts are the transient failures at the
end of the results (`exec_wake`), so that each wait is a matter of the results alone; what else is
said about a schedule is an induction over `Runs`.
-/

namespace ChainIndexer

namespace Indexer

open Act

/-- What a loop does. -/
inductive Mark where
  | step (result : Except Failure Nat)
  | sleep (d : Amount)

/-- Steps with their results, and a sleep after each of them as long as there are sleeps. -/
def weave : List (Except Failure Nat) → List Amount → List Mark
  | [], _ => []
  | o :: os, [] => .step o :: weave os []
  | o :: os, d :: ds => .step o :: .sleep d :: weave os ds

def isTransientFailure : Except Failure Nat → Bool
  | .ok _ => false
  | .error e => e.kind.isTransient

/-- The length of the unbroken block of transient failures at the end of some results. -/
def failuresInRow (results : List (Except Failure Nat)) : Nat :=
  (results.reverse.takeWhile isTransientFailure).length

theorem failuresInRow_concat (results : List (Except Failure Nat)) (o : Except Failure Nat) :
    failuresInRow (results ++ [o]) =
      if isTransientFailure o then failuresInRow results + 1 else 0 := by
  unfold failuresInRow
  rw [List.reverse_append, List.reverse_singleton, List.singleton_append, List.takeWhile_cons]
  split
  · rfl
  · rfl

variable {n : Type → Type} {x : Indexer n} {σ : Type} {stopped : σ → Bool} {limit : Option Int}

/-- How long a loop sleeps after the last of some results: as usual after a success, for the delay of
the block of failures after a transient failure. Any other failure it fails with itself. -/
def waitAfter (x : Indexer n) (results : List (Except Failure Nat)) : Except Failure Amount :=
  match results.getLast? with
  | some (.error e) =>
    if e.kind.isTransient then (x.retry.delay (failuresInRow results)).mapError .fault
    else .error e
  | _ => .ok x.interval

theorem waitAfter_broken {results : List (Except Failure Nat)} {e : Failure}
    (hbroken : e.kind.isTransient = false) :
    x.waitAfter (results ++ [.error e]) = .error e := by
  unfold waitAfter
  simp [hbroken]

/-- Why a loop has ended that went on, after steps with the results `past`, with some steps and
sleeps to a state, and with which result. -/
inductive Ended (x : Indexer n) (stopped : σ → Bool) (limit : Option Int) (count : Nat)
    (past os : List (Except Failure Nat)) (ds : List Amount) (s : σ) : Except Failure Unit → Prop
  /-- It had been asked to end. -/
  | asked (hlength : ds.length = os.length) (h : stopped s = true) :
      Ended x stopped limit count past os ds s (.ok ())
  /-- It has made all its steps, and the last of them would have been followed by a sleep. -/
  | enough {d : Amount} (hlength : ds.length + 1 = os.length)
      (h : isEnough limit (past ++ os).length = true) (hwait : x.waitAfter (past ++ os) = .ok d) :
      Ended x stopped limit count past os ds s (.ok ())
  /-- Its last step failed, or the delay after it did. -/
  | failed {f : Failure} (hlength : ds.length + 1 = os.length)
      (hwait : x.waitAfter (past ++ os) = .error f) :
      Ended x stopped limit count past os ds s (.error f)
  /-- It goes on, but no more than this number of rounds is looked at. -/
  | cut (hlength : ds.length = os.length) (hcount : os.length = count) :
      Ended x stopped limit count past os ds s (.ok ())

theorem Ended.alternating {count : Nat} {past os : List (Except Failure Nat)} {ds : List Amount}
    {s : σ} {r : Except Failure Unit} (h : Ended x stopped limit count past os ds s r) :
    ds.length = os.length ∨ ds.length + 1 = os.length := by
  cases h with
  | asked hlength _ => exact Or.inl hlength
  | enough hlength _ _ => exact Or.inr hlength
  | failed hlength _ => exact Or.inr hlength
  | cut hlength _ => exact Or.inl hlength

/-! ### How a loop goes -/

variable [Monad n] [Threaded n σ]

/-- How a loop goes on for some rounds at most, after steps with the results `past`: the results of
its steps, its sleeps, and the state and the result in which it ends. -/
inductive Runs (x : Indexer n) (stopped : σ → Bool) (limit : Option Int) :
    (count : Nat) → (past : List (Except Failure Nat)) → σ → List (Except Failure Nat) →
      List Amount → σ → Except Failure Unit → Prop
  | cut {past : List (Except Failure Nat)} {s : σ} : Runs x stopped limit 0 past s [] [] s (.ok ())
  | stopped {count : Nat} {past : List (Except Failure Nat)} {s : σ} (h : stopped s = true) :
      Runs x stopped limit (count + 1) past s [] [] s (.ok ())
  | failed {count : Nat} {past : List (Except Failure Nat)} {s s' : σ} {o : Except Failure Nat}
      {f : Failure} (hgoing : stopped s = false) (hstep : exec x.step s = (o, s'))
      (hwait : x.waitAfter (past ++ [o]) = .error f) :
      Runs x stopped limit (count + 1) past s [o] [] s' (.error f)
  | enough {count : Nat} {past : List (Except Failure Nat)} {s s' : σ} {o : Except Failure Nat}
      {d : Amount} (hgoing : stopped s = false) (hstep : exec x.step s = (o, s'))
      (hwait : x.waitAfter (past ++ [o]) = .ok d)
      (henough : isEnough limit (past.length + 1) = true) :
      Runs x stopped limit (count + 1) past s [o] [] s' (.ok ())
  | slept {count : Nat} {past : List (Except Failure Nat)} {s s' s'' : σ}
      {o : Except Failure Nat} {d : Amount} {os : List (Except Failure Nat)} {ds : List Amount}
      {r : Except Failure Unit} (hgoing : stopped s = false) (hstep : exec x.step s = (o, s'))
      (hwait : x.waitAfter (past ++ [o]) = .ok d)
      (hmore : isEnough limit (past.length + 1) = false)
      (hrest : Runs x stopped limit count (past ++ [o]) (Threaded.exec (x.sleep d) s').2 os ds s'' r) :
      Runs x stopped limit (count + 1) past s (o :: os) (d :: ds) s'' r

/-- The failures that the loop counts are those at the end of the results. -/
theorem exec_wake (past : List (Except Failure Nat)) {s s' : σ} {o : Except Failure Nat}
    (hstep : exec x.step s = (o, s')) :
    exec (x.wake (failuresInRow past)) s =
      ((x.waitAfter (past ++ [o])).map fun d => (failuresInRow (past ++ [o]), d), s') := by
  have hlast : (past ++ [o]).getLast? = some o := by simp
  unfold waitAfter
  rw [hlast]
  have hcount := failuresInRow_concat past o
  cases o with
  | ok k =>
    rw [hcount]
    exact wake_success hstep
  | error e =>
    dsimp only
    split
    · rename_i htransient
      have hfailures : failuresInRow (past ++ [.error e]) = failuresInRow past + 1 := by
        rw [hcount]
        exact if_pos htransient
      rw [hfailures]
      cases hdelay : x.retry.delay (failuresInRow past + 1 : Nat) with
      | ok d => exact wake_delayed hstep htransient hdelay
      | error g => exact wake_exceeded hstep htransient hdelay
    · rename_i hbroken
      exact wake_broken hstep (Bool.eq_false_iff.mpr hbroken)

/-- A loop goes as `Runs` says. -/
theorem exec_rounds (hread : ∀ s, Threaded.exec x.isStopped s = (stopped s, s)) (count : Nat)
    (past : List (Except Failure Nat)) (s : σ) :
    ∃ os ds s' r, Runs x stopped limit count past s os ds s' r ∧
      exec (x.rounds limit count ⟨failuresInRow past, past.length⟩) s = (r, s') := by
  induction count generalizing past s with
  | zero => exact ⟨[], [], s, .ok (), .cut, exec_pure _ _⟩
  | succ count ih =>
    have hasked := hread s
    cases hflag : stopped s with
    | true =>
      rw [hflag] at hasked
      exact ⟨[], [], s, .ok (), .stopped hflag, rounds_ended (round_stopped hasked)⟩
    | false =>
      rw [hflag] at hasked
      obtain ⟨o, s', hstep⟩ : ∃ o s', exec x.step s = (o, s') := ⟨_, _, rfl⟩
      have hwake := exec_wake past hstep
      cases hwait : x.waitAfter (past ++ [o]) with
      | error f =>
        rw [hwait] at hwake
        exact ⟨[o], [], s', .error f, .failed hflag hstep hwait,
          rounds_failed (round_of_wake_error hasked hwake)⟩
      | ok d =>
        rw [hwait] at hwake
        cases henough : isEnough limit (past.length + 1) with
        | true =>
          exact ⟨[o], [], s', .ok (), .enough hflag hstep hwait henough,
            rounds_ended (round_enough hasked hwake henough)⟩
        | false =>
          obtain ⟨os, ds, s'', r, hrest, hexec⟩ :=
            ih (past ++ [o]) (Threaded.exec (x.sleep d) s').2
          refine ⟨o :: os, d :: ds, s'', r, .slept hflag hstep hwait henough hrest, ?_⟩
          have hround := round_of_wake (p := ⟨failuresInRow past, past.length⟩) hasked hwake henough
          rw [rounds_next hround, ← hexec, List.length_append, List.length_singleton]

/-! ### What is done -/

/-- Steps and sleeps from one state to another; a step is begun only if the loop has not been asked
to end, and made to its end. -/
inductive Performs (x : Indexer n) (stopped : σ → Bool) : σ → List Mark → σ → Prop
  | nil {s : σ} : Performs x stopped s [] s
  | step {s s' s'' : σ} {o : Except Failure Nat} {marks : List Mark}
      (hgoing : stopped s = false) (hstep : exec x.step s = (o, s'))
      (hrest : Performs x stopped s' marks s'') : Performs x stopped s (.step o :: marks) s''
  | sleep {s s'' : σ} {d : Amount} {marks : List Mark}
      (hrest : Performs x stopped (Threaded.exec (x.sleep d) s).2 marks s'') :
      Performs x stopped s (.sleep d :: marks) s''

theorem Performs.of_append {s s'' : σ} {before after : List Mark}
    (h : Performs x stopped s (before ++ after) s'') {s' : σ}
    (hbefore : Performs x stopped s before s') : Performs x stopped s' after s'' := by
  induction hbefore with
  | nil => exact h
  | step hgoing hstep _ ih =>
    cases h with
    | step _ hstep' hrest =>
      rw [hstep] at hstep'
      cases hstep'
      exact ih hrest
  | sleep _ ih =>
    cases h with
    | sleep hrest => exact ih hrest

/-- Once the loop has been asked to end, which no sleep takes back, no step is begun. -/
theorem Performs.no_step {s s' : σ} {marks : List Mark} (h : Performs x stopped s marks s')
    (hkeep : ∀ d s, stopped s = true → stopped (Threaded.exec (x.sleep d) s).2 = true)
    (hstopped : stopped s = true) (o : Except Failure Nat) : .step o ∉ marks := by
  induction h with
  | nil => exact List.not_mem_nil
  | step hgoing _ _ _ =>
    rw [hgoing] at hstopped
    cases hstopped
  | @sleep s s'' d marks _ ih =>
    intro hmem
    rcases List.mem_cons.mp hmem with hmem | hmem
    · cases hmem
    · exact ih (hkeep d s hstopped) hmem

namespace Runs

variable {count : Nat} {past os : List (Except Failure Nat)} {ds : List Amount} {s s' : σ}
  {r : Except Failure Unit}

theorem performs (h : Runs x stopped limit count past s os ds s' r) :
    Performs x stopped s (weave os ds) s' := by
  induction h with
  | cut => exact .nil
  | stopped _ => exact .nil
  | failed hgoing hstep _ => exact .step hgoing hstep .nil
  | enough hgoing hstep _ _ => exact .step hgoing hstep .nil
  | slept hgoing hstep _ _ _ ih => exact .step hgoing hstep (.sleep ih)

theorem waitAfter_eq (h : Runs x stopped limit count past s os ds s' r) {i : Nat}
    (hi : i < ds.length) : x.waitAfter (past ++ os.take (i + 1)) = .ok ds[i] := by
  induction h generalizing i with
  | slept _ _ hwait _ _ ih =>
    cases i with
    | zero => exact hwait
    | succ i =>
      have hrest := ih (Nat.lt_of_succ_lt_succ hi)
      rw [List.append_assoc] at hrest
      exact hrest
  | _ => cases hi

theorem not_isEnough (h : Runs x stopped limit count past s os ds s' r) {i : Nat}
    (hi : i < ds.length) : isEnough limit (past.length + i + 1) = false := by
  induction h generalizing i with
  | slept _ _ _ hmore _ ih =>
    cases i with
    | zero => exact hmore
    | succ i =>
      have hrest := ih (Nat.lt_of_succ_lt_succ hi)
      rw [List.length_append, List.length_singleton, Nat.add_right_comm _ 1 i] at hrest
      exact hrest
  | _ => cases hi

theorem nonempty (h : Runs x stopped limit count past s os ds s' r) (hgoing : stopped s = false)
    (hcount : 0 < count) : os ≠ [] := by
  cases h with
  | cut => cases hcount
  | stopped hstopped =>
    rw [hgoing] at hstopped
    cases hstopped
  | failed => exact List.cons_ne_nil _ _
  | enough => exact List.cons_ne_nil _ _
  | slept => exact List.cons_ne_nil _ _

end Runs

theorem Runs.ended {count : Nat} {past os : List (Except Failure Nat)} {ds : List Amount}
    {s s' : σ} {r : Except Failure Unit} (h : Runs x stopped limit count past s os ds s' r) :
    Ended x stopped limit count past os ds s' r := by
  induction h with
  | cut => exact .cut rfl rfl
  | stopped h => exact .asked rfl h
  | failed _ _ hwait => exact .failed rfl hwait
  | enough _ _ hwait henough => exact .enough rfl (by simpa using henough) hwait
  | slept _ _ _ _ _ ih =>
    cases ih with
    | asked hlength h => exact .asked (congrArg Nat.succ hlength) h
    | enough hlength h hwait =>
      rw [List.append_assoc] at h hwait
      exact .enough (congrArg Nat.succ hlength) h hwait
    | failed hlength hwait =>
      rw [List.append_assoc] at hwait
      exact .failed (congrArg Nat.succ hlength) hwait
    | cut hlength hcount => exact .cut (congrArg Nat.succ hlength) (congrArg Nat.succ hcount)

/-! ### The whole schedule -/

/-- The steps and sleeps of a loop from its start, for a number of rounds at most. -/
structure Scheduled (x : Indexer n) (stopped : σ → Bool) (limit : Option Int) (count : Nat)
    (start : σ) (os : List (Except Failure Nat)) (ds : List Amount) (s : σ)
    (r : Except Failure Unit) : Prop where
  /-- Steps and sleeps alternate. -/
  performed : Performs x stopped start (weave os ds) s
  alternating : ds.length = os.length ∨ ds.length + 1 = os.length
  /-- There is a step unless the loop had been asked to end before. -/
  first : stopped start = false → 0 < count → os ≠ []
  /-- Each sleep is as long as the results up to it have it. -/
  wait : ∀ i (hi : i < ds.length), x.waitAfter (os.take (i + 1)) = .ok ds[i]
  /-- A failure that is not transient is the last that is done, and ends the loop. -/
  broken : ∀ i e, os[i]? = some (.error e) → e.kind.isTransient = false →
    os.length = i + 1 ∧ ds.length = i ∧ r = .error e
  /-- The number of steps is bounded, and the last of them is not followed by a sleep. -/
  limited : ∀ k : Int, limit = some k →
    os.length ≤ k ∧ (os.length = k → ds.length + 1 = os.length)
  /-- Once the loop has been asked to end, no further step is begun. -/
  halted : ∀ before after s', weave os ds = before ++ after → Performs x stopped start before s' →
    stopped s' = true → ∀ o, .step o ∉ after
  ended : Ended x stopped limit count [] os ds s r

/-- After a failure that is not transient there is no sleep, and the loop fails with it. -/
theorem Runs.broken {count : Nat} {os : List (Except Failure Nat)} {ds : List Amount} {s s' : σ}
    {r : Except Failure Unit} (h : Runs x stopped limit count [] s os ds s' r) {i : Nat}
    {e : Failure} (hstep : os[i]? = some (.error e)) (hbroken : e.kind.isTransient = false) :
    os.length = i + 1 ∧ ds.length = i ∧ r = .error e := by
  obtain ⟨hi, hget⟩ := List.getElem?_eq_some_iff.mp hstep
  have hwait : x.waitAfter (os.take (i + 1)) = .error e := by
    rw [List.take_succ_eq_append_getElem hi, hget]
    exact waitAfter_broken hbroken
  have hlast : ds.length ≤ i := by
    by_contra hlt
    have hslept := h.waitAfter_eq (i := i) (by omega)
    rw [List.nil_append, hwait] at hslept
    cases hslept
  have halternating := h.ended.alternating
  have hlength : os.length = i + 1 := by omega
  refine ⟨hlength, by omega, ?_⟩
  have hall : os.take (i + 1) = os := List.take_of_length_le (by omega)
  rw [hall] at hwait
  cases h.ended with
  | asked hslept _ => omega
  | cut hslept _ => omega
  | enough _ _ hwait' =>
    rw [List.nil_append, hwait] at hwait'
    cases hwait'
  | failed _ hwait' =>
    rw [List.nil_append, hwait] at hwait'
    cases hwait'
    rfl

theorem Runs.limited {count : Nat} {os : List (Except Failure Nat)} {ds : List Amount} {s s' : σ}
    {r : Except Failure Unit} (h : Runs x stopped limit count [] s os ds s' r) {k : Int}
    (hlimit : limit = some k) (hk : 1 ≤ k) :
    os.length ≤ k ∧ (os.length = k → ds.length + 1 = os.length) := by
  have hslept : (ds.length : Int) < k := by
    cases hds : ds.length with
    | zero => omega
    | succ i =>
      have hmore := h.not_isEnough (i := i) (by omega)
      rw [hlimit] at hmore
      have hnot := of_decide_eq_false hmore
      simp only [List.length_nil] at hnot
      omega
  have halternating := h.ended.alternating
  omega

/-- The schedule of a loop whose flag is read off its state, and is not taken back by a sleep. -/
theorem exists_schedule (x : Indexer n) {stopped : σ → Bool}
    (hread : ∀ s, Threaded.exec x.isStopped s = (stopped s, s))
    (hkeep : ∀ d s, stopped s = true → stopped (Threaded.exec (x.sleep d) s).2 = true)
    {limit : Option Int} (hlimit : ∀ k, limit = some k → 1 ≤ k) (count : Nat) (start : σ) :
    ∃ os ds s r, exec (x.rounds limit count {}) start = (r, s) ∧
      x.Scheduled stopped limit count start os ds s r := by
  obtain ⟨os, ds, s, r, hruns, hexec⟩ : ∃ os ds s r,
      Runs x stopped limit count [] start os ds s r ∧
        exec (x.rounds limit count {}) start = (r, s) :=
    exec_rounds hread count [] start
  refine ⟨os, ds, s, r, hexec, ?_⟩
  constructor
  · exact hruns.performs
  · exact hruns.ended.alternating
  · exact hruns.nonempty
  · intro i hi
    exact hruns.waitAfter_eq hi
  · intro i e hstep hbroken
    exact hruns.broken hstep hbroken
  · intro k hk
    exact hruns.limited hk (hlimit k hk)
  · intro before after s' hweave hbefore hstopped o
    have hperforms := hruns.performs
    rw [hweave] at hperforms
    exact (hperforms.of_append hbefore).no_step hkeep hstopped o
  · exact hruns.ended

/-- What a loop does is settled by the results of its steps, the flag by which it is asked to end and
the number of its steps: without such a number for as many rounds as are looked at, and with a number
from one on for the whole of it. -/
theorem run_scheduled (x : Indexer n) (stopped : σ → Bool)
    (hread : ∀ s, Threaded.exec x.isStopped s = (stopped s, s))
    (hkeep : ∀ d s, stopped s = true → stopped (Threaded.exec (x.sleep d) s).2 = true)
    (start : σ) :
    (∀ count, ∃ os ds s r, exec (x.rounds none count {}) start = (r, s) ∧
      x.Scheduled stopped none count start os ds s r) ∧
    ∀ k : Int, 1 ≤ k → ∃ os ds s r, exec (x.run k) start = (r, s) ∧
      x.Scheduled stopped (some k) k.toNat start os ds s r := by
  constructor
  · intro count
    exact exists_schedule x hread hkeep (by simp) count start
  · intro k hk
    have hcount : max 1 k.toNat = k.toNat := by omega
    unfold run
    rw [hcount]
    apply exists_schedule x hread hkeep
    rintro k' ⟨⟩
    exact hk

/-- A loop whose steps fail and that is asked to end during its second sleep. Its state is the number
of the sleeps. -/
def interrupted : Indexer (StateM Nat) where
  adapter := ⟨fun _ => throw (.foreign .transient "no answer"), fun _ => return none⟩
  disk := Files.Place.disk ⟨fun _ => {}, fun _ s => s⟩
  checkpoint := ⟨"cursor.json"⟩
  push _ := return ()
  retry := ⟨.ofInt 1, .ofInt 2, .ofInt 60⟩
  sleep _ := fun slept => ((), slept + 1)
  isStopped := fun slept => (decide (2 ≤ slept), slept)

theorem interrupted_scheduled :
    (∀ s, Threaded.exec interrupted.isStopped s = (decide (2 ≤ s), s)) ∧
    (∀ d s, decide (2 ≤ s) = true →
      decide (2 ≤ (Threaded.exec (interrupted.sleep d) s).2) = true) ∧
    exec (interrupted.run 5) 0 = (.ok (), 2) ∧
    ∃ os ds, interrupted.Scheduled (fun s => decide (2 ≤ s)) (some 5) 5 0 os ds 2 (.ok ()) := by
  have hread : ∀ s, Threaded.exec interrupted.isStopped s = (decide (2 ≤ s), s) := fun _ => rfl
  have hkeep : ∀ d s, decide (2 ≤ s) = true →
      decide (2 ≤ (Threaded.exec (interrupted.sleep d) s).2) = true := by
    intro d s h
    have hle := of_decide_eq_true h
    exact decide_eq_true (Nat.le_succ_of_le hle)
  have hrun : exec (interrupted.run 5) 0 = (.ok (), 2) := by rfl
  refine ⟨hread, hkeep, hrun, ?_⟩
  obtain ⟨-, hall⟩ := run_scheduled interrupted _ hread hkeep 0
  obtain ⟨os, ds, s, r, hexec, hscheduled⟩ := hall 5 (by decide)
  rw [hrun] at hexec
  cases hexec
  exact ⟨os, ds, hscheduled⟩

end Indexer
end ChainIndexer
