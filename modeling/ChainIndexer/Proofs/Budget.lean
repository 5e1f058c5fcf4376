import ChainIndexer.Proofs.Attempts

/-!
What the calls of a transport do over its life, whatever the line answers and whatever became of the
calls before. The number of the next post is one more than the posts that were made, which every
call preserves (`exists_log_of_calls`); so the numbers of all posts are 1, 2, 3, and so on, and each
call spends its budget as `WithinBudget` has it (`calls_within_budget`). A budget is spent only as
far as the clock makes the waits between the posts. Two transports on one line are left open, since
each has numbers of its own.
-/

namespace ChainIndexer

namespace Post

/-- A member of the request in a post. -/
def member? (p : Post) (name : String) : Option Value :=
  match p.content with
  | .json (.object fields) => Value.field? fields name
  | _ => none

/-- The number of the request in a post. -/
def number? (p : Post) : Option Value :=
  p.member? "id"

/-- The method that a post asks for. -/
def method? (p : Post) : Option Value :=
  p.member? "method"

/-- The parameters that a post carries. -/
def params? (p : Post) : Option Value :=
  p.member? "params"

end Post

open Act Signal

namespace Transport

/-! ### The posts of a call -/

/-- The posts among some signals bear the numbers that follow on `k`. -/
def Numbered (k : Nat) (log : List Signal) : Prop :=
  (posts log).map Post.number? =
    (List.range' (k + 1) (posts log).length).map fun i => some (.int i)

theorem Numbered.append {k : Nat} {log log' : List Signal} (h : Numbered k log)
    (h' : Numbered (k + (posts log).length) log') : Numbered k (log ++ log') := by
  unfold Numbered at *
  rw [posts_append, List.map_append, h, h', List.length_append, ← List.map_append,
    Nat.add_right_comm, List.range'_append_1]

theorem numbered_exchange (t : Transport) (l : Line) (method : String) (params : List Value)
    (k : Nat) (waits : List Amount) :
    Numbered k (exchange (t.sent l method params) k waits) := by
  induction waits generalizing k with
  | nil => rfl
  | cons wait waits ih =>
    have hrest := ih (k + 1)
    unfold Numbered at *
    simp only [exchange, sent, posts_posted, posts_waited, List.map_cons, List.length_cons,
      List.range'_succ]
    rw [hrest]
    rfl

/-- Every post of a call carries its method and its parameters. -/
theorem carried_of_exchange {t : Transport} {l : Line} {method : String} {params : List Value}
    {k : Nat} {waits : List Amount} {p : Post}
    (h : p ∈ posts (exchange (t.sent l method params) k waits)) :
    p.method? = some (.text method) ∧ p.params? = some (.list params) := by
  induction waits generalizing k with
  | nil =>
    obtain rfl := List.mem_singleton.mp h
    exact ⟨rfl, rfl⟩
  | cons wait waits ih =>
    rcases List.mem_cons.mp h with rfl | h
    · exact ⟨rfl, rfl⟩
    · exact ih h

/-! ### Calls one after another -/

variable {n : Type → Type} [Monad n] {σ : Type} [Threaded n σ]

theorem exec_callWith (t : Transport) (l : Line) (method : String) {params : Value}
    {ps : List Value} (h : listed params = .ok ps) (s : Nat × List Signal × σ) :
    exec (t.callWith (l.http (n := n)) method params) s =
      exec (t.call (l.http (n := n)) method ps) s :=
  exec_liftFault_bind h (fun ps => t.call (l.http (n := n)) method ps) s

/-- Parameters that are no list and cannot be made one are not posted. -/
theorem exec_callWith_error (t : Transport) (l : Line) (method : String) {params : Value}
    {f : Fault} (h : listed params = .error f) (s : Nat × List Signal × σ) :
    exec (t.callWith (l.http (n := n)) method params) s = (.error (.fault f), s) := by
  refine exec_bind_of_error ?_ _
  rw [exec_liftFault, h]
  rfl

/-- The number of the next post, what was seen of the line and the state beside it after some calls
of a new transport, whatever became of each. -/
def afterCalls (n : Type → Type) [Monad n] [Threaded n σ] (t : Transport) (l : Line) (s : σ)
    (calls : List (String × Value)) : Nat × List Signal × σ :=
  calls.foldl (fun state c => (exec (t.callWith (l.http (n := n)) c.1 c.2) state).2)
    (firstId, [], s)

/-- After any calls the next number is that of the next post, and all posts are numbered. -/
theorem exists_log_of_calls (t : Transport) (l : Line) (s : σ) (calls : List (String × Value)) :
    ∃ log, afterCalls n t l s calls = ((posts log).length + 1, log, s) ∧ Numbered 0 log := by
  induction calls using List.reverseRecOn with
  | nil => exact ⟨[], rfl, rfl⟩
  | append_singleton calls c ih =>
    obtain ⟨log, hstate, hnumbered⟩ := ih
    unfold afterCalls at *
    rw [List.foldl_append, hstate, List.foldl_cons, List.foldl_nil]
    cases hlisted : listed c.2 with
    | error f => exact ⟨log, by rw [exec_callWith_error t l c.1 hlisted], hnumbered⟩
    | ok ps =>
      obtain ⟨waits, r, -, hexec⟩ := exec_attempts (n := n) t l c.1 ps t.maxRetries 0 log s
      refine ⟨log ++ exchange (t.sent l c.1 ps) (posts log).length waits, ?_, ?_⟩
      · rw [exec_callWith t l c.1 hlisted]
        change (exec (t.attempts _ c.1 ps t.maxRetries 0) _).2 = _
        rw [hexec, posts_append, List.length_append, length_posts_exchange, ← Nat.add_assoc]
      · apply hnumbered.append
        rw [Nat.zero_add]
        exact numbered_exchange t l c.1 ps _ waits

/-! ### The budget of a call -/

/-- The clock of a line makes the first waits of a call that has found `first` posts on it. -/
def Makes (t : Transport) (l : Line) (first count : Nat) : Prop :=
  ∀ i < count, ∃ wait, t.backoff? (l.jitter (first + i + 1)) i = some wait ∧ l.refusal wait = none

/-- A call that has found `first` posts on the line and repeats its own after some waits. -/
structure WithinBudget (t : Transport) (l : Line) (method : String) (first : Nat)
    (waits : List Amount) (r : Except Failure Value) : Prop where
  /-- It ends with the first outcome that is final, if that comes within the budget and the waits
  before can be made. -/
  final : ∀ j r', j ≤ t.maxRetries →
    (∀ i < j, (outcome method (l.answer (first + i))).final? = none) → t.Makes l first j →
    (outcome method (l.answer (first + j))).final? = some r' → waits.length = j ∧ r = r'
  /-- It uses up the budget if no outcome within it is final and all waits can be made. -/
  exhausted : (∀ i ≤ t.maxRetries, (outcome method (l.answer (first + i))).final? = none) →
    t.Makes l first t.maxRetries → waits.length = t.maxRetries ∧ ∃ reason,
      outcome method (l.answer (first + t.maxRetries)) = .retry reason ∧
      r = .error (.rpcExhausted method t.url (t.maxRetries + 1) reason)
  /-- It ends with the first wait that the clock refuses, if no outcome before it is final. -/
  refused : ∀ j wait f, j < t.maxRetries →
    (∀ i ≤ j, (outcome method (l.answer (first + i))).final? = none) → t.Makes l first j →
    t.backoff? (l.jitter (first + j + 1)) j = some wait → l.refusal wait = some f →
    waits.length = j ∧ r = .error (.fault f)
  /-- Each wait is the one that belongs to its repetition, and is not negative. -/
  wait : ∀ i (hi : i < waits.length),
    t.backoff? (l.jitter (first + i + 1)) i = some waits[i] ∧ waits[i].lt (.ofInt 0) = false

theorem Attempts.withinBudget {t : Transport} {l : Line} {method : String} {first : Nat}
    {waits : List Amount} {r : Except Failure Value}
    (h : Attempts t l method t.maxRetries 0 first waits r)
    (hnonneg : ∀ k i wait, t.backoff? (l.jitter k) i = some wait → wait.lt (.ofInt 0) = false) :
    t.WithinBudget l method first waits r := by
  have hmade : ∀ {count}, t.Makes l first count → ∀ i < count,
      ∃ wait, t.backoff l.refusal (l.jitter (first + i + 1)) (0 + i) = .ok wait := by
    intro count hmakes i hi
    obtain ⟨wait, hwait⟩ := hmakes i hi
    exact ⟨wait, by rw [Nat.zero_add]; exact backoff_eq_ok_iff.mpr hwait⟩
  constructor
  · intro j r' hj hretry hmakes hfinal
    exact h.of_final hj hretry (hmade hmakes) hfinal
  · intro hretry hmakes
    have hexhausted := h.of_retries hretry (hmade hmakes)
    rwa [Nat.zero_add] at hexhausted
  · intro j wait f hj hretry hmakes hwait hrefused
    refine h.of_stopped hj hretry (hmade hmakes) ?_
    rw [Nat.zero_add, backoff, hwait]
    dsimp only
    rw [hrefused]
  · intro i hi
    have hbackoff := h.backoff_eq hi
    rw [Nat.zero_add] at hbackoff
    obtain ⟨hwait, -⟩ := backoff_eq_ok_iff.mp hbackoff
    exact ⟨hwait, hnonneg _ _ _ hwait⟩

/-- For a transport with up to 1024 repetitions and binary64 settings that are not negative, after
any calls before, whatever became of them: the posts so far bear the numbers 1, 2, 3, and so on; a
call keeps within its budget, and what it adds is one post more than it makes waits, with one wait
before each but the first, all of them with its method and with its parameters as a list. No wait of
such a transport is out of range, and with a cap below `2 ^ 28` seconds a clock that makes the waits
of some years refuses none of them. -/
theorem calls_within_budget (t : Transport) (l : Line) {x y : Float}
    (hretries : t.maxRetries ≤ 1024) (hseconds : t.backoffSeconds = .real x)
    (hcap : t.backoffCap = .real y) (hx : Amount.ofInt 0 ≤ .real x)
    (hy : Amount.ofInt 0 ≤ .real y)
    (hjitter : ∀ k, (Amount.real (l.jitter k)).lt (.ofInt 0) = false) (s : σ)
    (calls : List (String × Value)) :
    (∀ first i, i < t.maxRetries → ∃ wait, t.backoff? (l.jitter (first + i + 1)) i = some wait) ∧
    ((Amount.real y).lt (.ofInt (2 ^ 28)) = true →
      (∀ k, (Amount.real (l.jitter k)).lt (.ofInt 1) = true) → Clock.Enduring l.refusal →
        ∀ first, t.Makes l first t.maxRetries) ∧
    ∃ log, afterCalls n t l s calls = ((posts log).length + 1, log, s) ∧
      (posts log).map Post.number? =
        (List.range' 1 (posts log).length).map (fun i => some (.int i)) ∧
      ∀ method params,
        (∀ f, listed params = .error f →
          exec (t.callWith (l.http (n := n)) method params) (afterCalls n t l s calls) =
            (.error (.fault f), afterCalls n t l s calls)) ∧
        ∀ ps, listed params = .ok ps → ∃ waits r,
          t.WithinBudget l method (posts log).length waits r ∧
          let traffic := exchange (t.sent l method ps) (posts log).length waits
          (posts traffic).length = waits.length + 1 ∧
          (∀ p ∈ posts traffic, p.method? = some (.text method) ∧ p.params? = some (.list ps)) ∧
          exec (t.callWith (l.http (n := n)) method params) (afterCalls n t l s calls) =
            (r, (posts (log ++ traffic)).length + 1, log ++ traffic, s) := by
  have hx' := Amount.not_lt_zero hx
  have hy' := Amount.not_lt_zero hy
  have hrange : ∀ first i, i < t.maxRetries →
      ∃ wait, t.backoff? (l.jitter (first + i + 1)) i = some wait := fun first i hi =>
    exists_backoff hseconds hcap _ (Nat.lt_of_lt_of_le hi hretries)
  have hnonneg : ∀ k i wait, t.backoff? (l.jitter k) i = some wait →
      wait.lt (.ofInt 0) = false := by
    intro k i wait hwait
    exact backoff_not_lt_zero (hseconds ▸ hx') (hcap ▸ hy') (hjitter k) hwait
  refine ⟨hrange, ?_, ?_⟩
  · intro hbound hone hclock first i hi
    obtain ⟨wait, hwait⟩ := hrange first i hi
    refine ⟨wait, hwait, hclock wait (hnonneg _ _ _ hwait) ?_⟩
    exact backoff_lt hseconds hcap hx' hy' hbound (hjitter _) (hone _) hwait
  obtain ⟨log, hstate, hnumbered⟩ := exists_log_of_calls (n := n) t l s calls
  refine ⟨log, hstate, hnumbered, fun method params => ⟨?_, ?_⟩⟩
  · intro f hlisted
    exact exec_callWith_error t l method hlisted _
  · intro ps hlisted
    obtain ⟨waits, r, hattempts, hexec⟩ :=
      exec_attempts (n := n) t l method ps t.maxRetries 0 log s
    refine ⟨waits, r, hattempts.withinBudget hnonneg, length_posts_exchange .., ?_, ?_⟩
    · intro p hp
      exact carried_of_exchange hp
    · rw [hstate, exec_callWith t l method hlisted, posts_append, List.length_append,
        length_posts_exchange]
      exact hexec

/-- A line that is busy once and then answers. -/
def busyOnce : Line where
  answer k := .ok (if k = 0 then ⟨503, ""⟩ else ⟨200, "\x7b\"result\": 5\x7d"⟩)
  jitter _ := 0.5

theorem busyOnce_retried : (outcome "eth_blockNumber" (busyOnce.answer 0)).final? = none := by
  cbv

theorem busyOnce_answered :
    (outcome "eth_blockNumber" (busyOnce.answer 1)).final? = some (.ok (.int 5)) := by
  cbv

/-- A first call over this line makes two posts and one wait, and has a result. -/
theorem busyOnce_within_budget :
    let t : Transport := { url := "https://node" }
    t.maxRetries ≤ 1024 ∧ Amount.ofInt 0 ≤ t.backoffSeconds ∧ Amount.ofInt 0 ≤ t.backoffCap ∧
    (∀ k, (Amount.real (busyOnce.jitter k)).lt (.ofInt 0) = false) ∧
    ∃ wait, exec (t.callWith (busyOnce.http (n := StateM Unit)) "eth_blockNumber" .null)
      (firstId, [], ()) =
        (.ok (.int 5), 3, exchange (t.sent busyOnce "eth_blockNumber" []) 0 [wait], ()) := by
  intro t
  have hretries : t.maxRetries ≤ 1024 := by decide
  have hseconds : Amount.ofInt 0 ≤ t.backoffSeconds := by decide +kernel
  have hcap : Amount.ofInt 0 ≤ t.backoffCap := by decide +kernel
  have hhalf : (Amount.real 0.5).lt (.ofInt 0) = false := by decide +kernel
  have hjitter : ∀ k, (Amount.real (busyOnce.jitter k)).lt (.ofInt 0) = false := fun _ => hhalf
  have hone : (Amount.real 0.5).lt (.ofInt 1) = true := by decide +kernel
  refine ⟨hretries, hseconds, hcap, hjitter, ?_⟩
  obtain ⟨-, hmakes, log, hstate, -, hcall⟩ := calls_within_budget (n := StateM Unit) t busyOnce
    hretries rfl rfl hseconds hcap hjitter () []
  obtain ⟨-, hlisted⟩ := hcall "eth_blockNumber" .null
  obtain ⟨waits, r, hbudget, -, -, hexec⟩ := hlisted [] rfl
  obtain rfl : log = [] := congrArg (fun state => state.2.1) hstate.symm
  have hmade : t.Makes busyOnce 0 t.maxRetries :=
    hmakes (by decide +kernel) (fun _ => hone) Clock.enduring_refusal 0
  obtain ⟨hlength, rfl⟩ := hbudget.final 1 _ (by decide) (by
    intro i hi
    obtain rfl : i = 0 := by omega
    exact busyOnce_retried) (fun i hi => hmade i (Nat.lt_trans hi (by decide))) busyOnce_answered
  obtain ⟨wait, rfl⟩ := List.length_eq_one_iff.mp hlength
  exact ⟨wait, hexec⟩

/-- A transport that is to wait for longer than a clock counts. -/
def slow : Transport where
  url := "https://node"
  backoffSeconds := .real 100000000000
  backoffCap := .real 100000000000

theorem backoff_slow : slow.backoff Clock.refusal 0.5 0 = .error .overflow := by
  have hwait : slow.backoff? 0.5 0 = some (.real 100000000000) := by decide +kernel
  have hrefused : Clock.refusal (.real 100000000000) = some .overflow := by decide +kernel
  rw [backoff, hwait]
  dsimp only
  rw [hrefused]

/-- A line that answers at once. -/
def prompt : Line where
  answer _ := .ok ⟨200, "\x7b\"result\": 5\x7d"⟩
  jitter _ := 0.5

/-- A budget is not always spent: where the clock refuses the first wait a call ends with that after
its only post, although the outcome of a second one is final and its settings are finite and not
negative. Nor are parameters always posted as they come: of an object the names are. -/
theorem slow_call_stops :
    let params : Value := .object [("to", .text "0x0c")]
    1 ≤ slow.maxRetries ∧ slow.maxRetries ≤ 1024 ∧
    Amount.ofInt 0 ≤ slow.backoffSeconds ∧ Amount.ofInt 0 ≤ slow.backoffCap ∧
    (outcome "eth_blockNumber" (busyOnce.answer 0)).final? = none ∧
    (outcome "eth_blockNumber" (busyOnce.answer 1)).final? = some (.ok (.int 5)) ∧
    exec (slow.callWith (busyOnce.http (n := StateM Unit)) "eth_blockNumber" .null)
      (firstId, [], ()) =
        (.error (.fault .overflow), 2, [slow.sent busyOnce "eth_blockNumber" [] 0], ()) ∧
    (posts (exec (slow.callWith (prompt.http (n := StateM Unit)) "eth_call" params)
      (firstId, [], ())).2.2.1).map Post.params? = [some (.list [.text "to"])] ∧
    .list [.text "to"] ≠ params := by
  intro params
  have hretry : outcome "eth_blockNumber" (busyOnce.answer (posts []).length) =
      .retry (.status 503) := by
    cbv
  have hanswer : (outcome "eth_call" (prompt.answer (posts []).length)).final? =
      some (.ok (.int 5)) := by
    cbv
  refine ⟨by decide, by decide, by decide +kernel, by decide +kernel, busyOnce_retried,
    busyOnce_answered, ?_, ?_, nofun⟩
  · rw [exec_callWith slow busyOnce _ rfl]
    exact exec_attempts_stopped hretry backoff_slow ()
  · have hlisted : listed params = .ok [.text "to"] := rfl
    rw [exec_callWith slow prompt _ hlisted]
    have hexec : exec (slow.call (prompt.http (n := StateM Unit)) "eth_call" [.text "to"])
        (firstId, [], ()) =
          (.ok (.int 5), 2, [slow.sent prompt "eth_call" [.text "to"] 0], ()) :=
      exec_attempts_final hanswer ()
    rw [hexec]
    rfl

end Transport

end ChainIndexer
