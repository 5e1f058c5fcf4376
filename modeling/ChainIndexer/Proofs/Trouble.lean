import ChainIndexer.Client
import ChainIndexer.Proofs.Budget
import ChainIndexer.Proofs.Checkpoint
import ChainIndexer.Proofs.Evm.Processing
import ChainIndexer.Proofs.Round
import ChainIndexer.Proofs.Solana.Processing

/-!
Trouble on the side of the server or on the way to it: no answer in time, no connection, and the
statuses 429 and 500 to 599. A call repeats its post after it, with the exception of the statuses
that it does not know (`IsOverlooked`), in which it ends at once and for good, and of waits that are
out of range or that the clock refuses. `Withstands` says this of everything that is seen of a line
during an activity, and is put together like the activity (`weathers_closed`), so that it holds of
every step of the loop over any ledger.
-/

namespace ChainIndexer

open Act Signal

/-- No answer in time or no connection, or a status that blames the server or the traffic. -/
def IsTrouble : Except NoAnswer Answer → Prop
  | .error e => e.problem ∈ [RequestProblem.timeout, .connectTimeout, .readTimeout,
      .connectionError, .proxyError, .sslError]
  | .ok a => a.status = 429 ∨ 500 ≤ a.status ∧ a.status ≤ 599

/-- A status that blames the server, but that a call does not repeat its post after. -/
def IsOverlooked : Except NoAnswer Answer → Prop
  | .error _ => False
  | .ok a => a.status = 501 ∨ 505 ≤ a.status ∧ a.status ≤ 599

namespace Transport

/-! ### A post -/

theorem outcome_of_overlooked {a : Except NoAnswer Answer} (h : IsOverlooked a) (method : String) :
    outcome method a = .failed (.rpcStatus method) := by
  cases a with
  | error e => exact absurd h id
  | ok a =>
    have hstatus : a.status = 501 ∨ 505 ≤ a.status ∧ a.status ≤ 599 := h
    have hunknown : retryableStatus.contains a.status = false := by
      simp [retryableStatus]
      omega
    have herror : a.isError = true := by
      simp [Answer.isError]
      omega
    change ofAnswer method a = _
    unfold ofAnswer
    rw [hunknown, herror]
    rfl

theorem exists_retry_of_trouble {a : Except NoAnswer Answer} (h : IsTrouble a)
    (hknown : ¬ IsOverlooked a) (method : String) : ∃ reason, outcome method a = .retry reason := by
  cases a with
  | error e =>
    have hproblem : e.problem.isPassing = true := by
      have hmem : e.problem ∈ [RequestProblem.timeout, .connectTimeout, .readTimeout,
        .connectionError, .proxyError, .sslError] := h
      simp only [List.mem_cons, List.not_mem_nil, or_false] at hmem
      rcases hmem with hp | hp | hp | hp | hp | hp
      all_goals rw [hp]; rfl
    exact ⟨_, if_pos hproblem⟩
  | ok a =>
    have hstatus : a.status = 429 ∨ 500 ≤ a.status ∧ a.status ≤ 599 := h
    have hknown' : ¬ (a.status = 501 ∨ 505 ≤ a.status ∧ a.status ≤ 599) := hknown
    have hretryable : retryableStatus.contains a.status = true := by
      simp [retryableStatus]
      omega
    exact ⟨_, if_pos hretryable⟩

theorem overlooked_of_final {a : Except NoAnswer Answer} {method : String}
    {r : Except Failure Value} (h : IsTrouble a) (hfinal : (outcome method a).final? = some r) :
    IsOverlooked a ∧ r = .error (.rpcStatus method) := by
  by_cases hknown : IsOverlooked a
  · rw [outcome_of_overlooked hknown] at hfinal
    cases hfinal
    exact ⟨hknown, rfl⟩
  · obtain ⟨reason, hretry⟩ := exists_retry_of_trouble h hknown method
    rw [hretry] at hfinal
    cases hfinal

theorem known_of_retry {a : Except NoAnswer Answer} {method : String} {reason : Retry}
    (hretry : outcome method a = .retry reason) : ¬ IsOverlooked a := by
  intro h
  rw [outcome_of_overlooked h] at hretry
  cases hretry

/-! ### A call -/

/-- The failure in which an activity ends after trouble. It is the failure of the call that met it,
but in the place of a wait that was refused there may be a failure of decoding. -/
inductive EndsIn (t : Transport) (l : Line) (a : Except NoAnswer Answer) : Failure → Prop
  | overlooked {method : String} (h : IsOverlooked a) : EndsIn t l a (.rpcStatus method)
  | exhausted {method : String} {reason : Retry} (h : ¬ IsOverlooked a) :
      EndsIn t l a (.rpcExhausted method t.url (t.maxRetries + 1) reason)
  | stopped {k attempt : Nat} {f : Fault} {e : Failure} (h : ¬ IsOverlooked a)
      (hattempt : attempt < t.maxRetries)
      (hwait : t.backoff l.refusal (l.jitter k) attempt = .error f)
      (he : e = .fault f ∨ f ≠ .overflow ∧ e.kind = .decode) : EndsIn t l a e

/-- Only the failure of a call that has used up its budget is transient. -/
theorem EndsIn.isTransient_iff {t : Transport} {l : Line} {a : Except NoAnswer Answer} {e : Failure}
    (h : EndsIn t l a e) : e.kind.isTransient = true ↔
      ∃ method reason, e = .rpcExhausted method t.url (t.maxRetries + 1) reason := by
  cases h with
  | overlooked h => simp [Failure.kind, Kind.isTransient]
  | exhausted h => exact ⟨fun _ => ⟨_, _, rfl⟩, fun _ => rfl⟩
  | stopped h hattempt hwait he =>
    rcases he with rfl | ⟨-, hdecode⟩
    · simp [Failure.kind, Kind.isTransient]
    · rw [hdecode]
      constructor
      · intro htransient
        cases htransient
      · rintro ⟨method, reason, rfl⟩
        cases hdecode

/-- What is promised of a call whose `i`-th repetition met trouble: a further post if there are
repetitions left, and otherwise the failure of a call that has used them up. -/
def Repeats (t : Transport) (method : String) (waits : List Amount) (r : Except Failure Value)
    (i : Nat) : Prop :=
  (i < t.maxRetries → i < waits.length) ∧
    (t.maxRetries ≤ i →
      ∃ reason, r = .error (.rpcExhausted method t.url (t.maxRetries + 1) reason))

/-- Among some signals each post that met trouble is sent once more after a wait, unless it is the
last signal, and then the activity has failed with it. -/
def Withstands (t : Transport) (l : Line) {α : Type} (new : List Signal) (r : Except Failure α) :
    Prop :=
  ∀ before p a after, new = before ++ .posted p a :: after → IsTrouble a →
    (¬ IsOverlooked a ∧ ∃ wait method params k rest, .posted p a = t.sent l method params k ∧
      after = .waited wait :: t.sent l method params (k + 1) :: rest) ∨
    (after = [] ∧ ∃ e, r = .error e ∧ EndsIn t l a e)

variable {t : Transport} {l : Line} {method : String} {params : List Value} {α β : Type}

theorem Withstands.nil (r : Except Failure α) : Withstands t l [] r := by
  intro before p a after h
  simp at h

theorem Withstands.error {new : List Signal} {e : Failure}
    (h : Withstands t l new (.error e : Except Failure α)) :
    Withstands t l new (.error e : Except Failure β) := by
  intro before p a after hnew htrouble
  rcases h before p a after hnew htrouble with hrepeated | ⟨hafter, e', he', hends⟩
  · exact Or.inl hrepeated
  · cases he'
    exact Or.inr ⟨hafter, e, rfl, hends⟩

/-- What was withstood first did not end the activity. -/
theorem Withstands.append {new new' : List Signal} {b : β} {r : Except Failure α}
    (h : Withstands t l new (.ok b)) (h' : Withstands t l new' r) :
    Withstands t l (new ++ new') r := by
  intro before p a after hnew htrouble
  rcases List.append_eq_append_iff.mp hnew with ⟨more, rfl, hmore⟩ | ⟨more, hmore, hafter⟩
  · exact h' more p a after hmore htrouble
  · cases more with
    | nil => exact h' [] p a after hafter.symm htrouble
    | cons signal more =>
      obtain ⟨rfl, rfl⟩ := List.cons.inj hafter
      rcases h before p a more hmore htrouble with
        ⟨hknown, wait, method, params, k, rest, hsent, rfl⟩ | ⟨-, e, he, -⟩
      · exact Or.inl ⟨hknown, wait, method, params, k, rest ++ new', hsent, rfl⟩
      · cases he

/-- Trouble is followed by a further post while there are repetitions left, and by the failure of a
call that has used them up, but for statuses that are overlooked and waits that cannot be made. -/
theorem Attempts.repeats_iff {retries attempt k : Nat} {waits : List Amount}
    {r : Except Failure Value} (h : Attempts t l method retries attempt k waits r) {i : Nat}
    (hi : i ≤ waits.length) (htrouble : IsTrouble (l.answer (k + i))) :
    ((i < retries → i < waits.length) ∧
      (retries ≤ i →
        ∃ reason, r = .error (.rpcExhausted method t.url (attempt + retries + 1) reason))) ↔
    ¬ IsOverlooked (l.answer (k + i)) ∧ (i < retries →
      ∃ wait, t.backoff l.refusal (l.jitter (k + i + 1)) (attempt + i) = .ok wait) := by
  cases h.turn hi with
  | repeated hlt hbudget hretry hwait =>
    exact ⟨fun _ => ⟨known_of_retry hretry, fun _ => ⟨_, hwait⟩⟩,
      fun _ => ⟨fun _ => hlt, fun hle => absurd hle (Nat.not_le_of_lt hbudget)⟩⟩
  | ended hlast hfinal =>
    obtain ⟨hoverlooked, rfl⟩ := overlooked_of_final htrouble hfinal
    constructor
    · rintro ⟨hlater, hexhausted⟩
      rcases Nat.lt_or_ge i retries with hlt | hle
      · exact absurd hlast (hlater hlt).ne
      · obtain ⟨reason, hr⟩ := hexhausted hle
        cases hr
    · rintro ⟨hknown, -⟩
      exact absurd hoverlooked hknown
  | exhausted hlast hbudget hretry hr =>
    exact ⟨fun _ => ⟨known_of_retry hretry, fun hlt => absurd hbudget hlt.ne⟩,
      fun _ => ⟨fun hlt => absurd hbudget hlt.ne, fun _ => ⟨_, hr⟩⟩⟩
  | stopped hlast hbudget hretry hwait hr =>
    constructor
    · rintro ⟨hlater, -⟩
      exact absurd hlast (hlater hbudget).ne
    · rintro ⟨-, hmade⟩
      obtain ⟨wait, hok⟩ := hmade hbudget
      rw [hwait] at hok
      cases hok

/-- A status that is overlooked ends its call. -/
theorem Attempts.of_overlooked {retries attempt k : Nat} {waits : List Amount}
    {r : Except Failure Value} (h : Attempts t l method retries attempt k waits r) {i : Nat}
    (hi : i ≤ waits.length) (hoverlooked : IsOverlooked (l.answer (k + i))) :
    i = waits.length ∧ r = .error (.rpcStatus method) := by
  cases h.turn hi with
  | ended hlast hfinal =>
    rw [outcome_of_overlooked hoverlooked] at hfinal
    exact ⟨hlast, (Option.some.inj hfinal).symm⟩
  | repeated _ _ hretry => exact absurd hoverlooked (known_of_retry hretry)
  | exhausted _ _ hretry => exact absurd hoverlooked (known_of_retry hretry)
  | stopped _ _ hretry => exact absurd hoverlooked (known_of_retry hretry)

/-- So does a wait that cannot be made. -/
theorem Attempts.of_wait_error {retries attempt k : Nat} {waits : List Amount}
    {r : Except Failure Value} (h : Attempts t l method retries attempt k waits r) {i : Nat}
    (hi : i ≤ waits.length) (htrouble : IsTrouble (l.answer (k + i)))
    (hknown : ¬ IsOverlooked (l.answer (k + i))) (hbudget : i < retries) {f : Fault}
    (herror : t.backoff l.refusal (l.jitter (k + i + 1)) (attempt + i) = .error f) :
    i = waits.length ∧ r = .error (.fault f) := by
  cases h.turn hi with
  | repeated _ _ _ hwait =>
    rw [hwait] at herror
    cases herror
  | ended hlast hfinal => exact absurd (overlooked_of_final htrouble hfinal).1 hknown
  | exhausted _ heq => exact absurd heq hbudget.ne
  | stopped hlast _ _ hwait hr =>
    rw [hwait] at herror
    cases herror
    exact ⟨hlast, hr⟩

theorem exchange_eq_cons (sent : Nat → Signal) (k : Nat) (waits : List Amount) :
    ∃ rest, exchange sent k waits = sent k :: rest := by
  cases waits with
  | nil => exact ⟨_, rfl⟩
  | cons => exact ⟨_, rfl⟩

/-- A single post that ended its call. -/
theorem withstands_sent {k : Nat} {r : Except Failure Value}
    (h : IsTrouble (l.answer k) → ∃ e, r = .error e ∧ EndsIn t l (l.answer k) e) :
    Withstands t l [t.sent l method params k] r := by
  intro before p a after hnew htrouble
  cases before with
  | nil =>
    obtain ⟨hsignal, hafter⟩ := List.cons.inj hnew
    cases hsignal
    exact Or.inr ⟨hafter.symm, h htrouble⟩
  | cons signal before => simp at hnew

theorem Attempts.withstands {retries attempt k : Nat} {waits : List Amount}
    {r : Except Failure Value} (h : Attempts t l method retries attempt k waits r)
    (hbudget : attempt + retries = t.maxRetries) :
    Withstands t l (exchange (t.sent l method params) k waits) r := by
  induction h with
  | ended hfinal =>
    apply withstands_sent
    intro htrouble
    obtain ⟨hoverlooked, rfl⟩ := overlooked_of_final htrouble hfinal
    exact ⟨_, rfl, .overlooked hoverlooked⟩
  | @exhausted attempt k reason hretry =>
    apply withstands_sent
    intro _
    obtain rfl : attempt = t.maxRetries := hbudget
    exact ⟨_, rfl, .exhausted (known_of_retry hretry)⟩
  | stopped hretry hwait =>
    apply withstands_sent
    intro _
    exact ⟨_, rfl, .stopped (known_of_retry hretry) (by omega) hwait (Or.inl rfl)⟩
  | @again retries attempt k reason wait waits r hretry _ _ ih =>
    have hrest := ih (by omega)
    intro before p a after hnew htrouble
    match before with
    | [] =>
      obtain ⟨hsignal, rfl⟩ := List.cons.inj hnew
      obtain ⟨rest, hexchange⟩ := exchange_eq_cons (t.sent l method params) (k + 1) waits
      have hsent := hsignal
      cases hsignal
      refine Or.inl ⟨known_of_retry hretry, wait, method, params, k, rest, rfl, ?_⟩
      rw [← hexchange]
    | [_] =>
      obtain ⟨-, htail⟩ := List.cons.inj hnew
      cases (List.cons.inj htail).1
    | _ :: _ :: before =>
      obtain ⟨-, htail⟩ := List.cons.inj hnew
      exact hrest before p a after (List.cons.inj htail).2 htrouble

/-! ### An activity -/

section Activities

variable {n : Type → Type} [Monad n] {τ : Type} [Threaded n τ] {line : τ → Nat × List Signal}

/-- What an activity sees of the line beside it, if it finds the number of the next post right, it
withstands, and leaves the number right. -/
def Weathers (t : Transport) (l : Line) (line : τ → Nat × List Signal) (x : Act n α) : Prop :=
  ∀ s, (line s).1 = (posts (line s).2).length + 1 →
    ∃ new, line (exec x s).2 = ((posts ((line s).2 ++ new)).length + 1, (line s).2 ++ new) ∧
      Withstands t l new (exec x s).1

/-- What does not use the line weathers everything. -/
theorem weathers_of_silent {x : Act n α} (h : ∀ s, line (exec x s).2 = line s) :
    Weathers t l line x := by
  intro s hs
  refine ⟨[], ?_, .nil _⟩
  rw [h, List.append_nil, ← hs]

theorem Weathers.bind {x : Act n α} {f : α → Act n β} (hx : Weathers t l line x)
    (hf : ∀ a, Weathers t l line (f a)) : Weathers t l line (x >>= f) := by
  intro s hs
  obtain ⟨new, hline, hnew⟩ := hx s hs
  rw [exec_bind]
  cases hexec : exec x s with
  | mk r s₁ =>
    rw [hexec] at hline hnew
    dsimp only at hline hnew
    cases r with
    | error e => exact ⟨new, hline, hnew.error⟩
    | ok a =>
      have hs₁ : (line s₁).1 = (posts (line s₁).2).length + 1 := by rw [hline]
      obtain ⟨new', hline', hnew'⟩ := hf a s₁ hs₁
      rw [hline, List.append_assoc] at hline'
      exact ⟨new ++ new', hline', hnew.append hnew'⟩

/-- What a handler of the program makes of a failure in which an activity ends after trouble. -/
theorem EndsIn.rewording {caught : Kind → Bool} {wrap : Failure → Failure}
    (hcaught : Passes caught wrap) {a : Except NoAnswer Answer} {e : Failure} (h : EndsIn t l a e) :
    EndsIn t l a (if caught e.kind then wrap e else e) := by
  cases h with
  | @overlooked method h =>
    have hpassed : caught (Failure.rpcStatus method).kind = false := hcaught.answer
    rw [hpassed]
    exact .overlooked h
  | @exhausted method reason h =>
    have hpassed : caught (Failure.rpcExhausted method t.url (t.maxRetries + 1) reason).kind =
      false := hcaught.transport
    rw [hpassed]
    exact .exhausted h
  | @stopped k attempt f e h hattempt hwait he =>
    refine .stopped h hattempt hwait ?_
    split
    · rename_i hreworded
      refine Or.inr ⟨?_, hcaught.decode e⟩
      rintro rfl
      rcases he with rfl | ⟨hne, -⟩
      · exact Bool.false_ne_true (hcaught.overflow.symm.trans hreworded)
      · exact hne rfl
    · exact he

theorem Weathers.rewording {x : Act n α} {caught : Kind → Bool} {wrap : Failure → Failure}
    (hcaught : Passes caught wrap) (hx : Weathers t l line x) :
    Weathers t l line (x.rewording caught wrap) := by
  intro s hs
  obtain ⟨new, hline, hnew⟩ := hx s hs
  rw [exec_rewording]
  refine ⟨new, hline, ?_⟩
  intro before p a after hsplit htrouble
  rcases hnew before p a after hsplit htrouble with hrepeated | ⟨hafter, e, he, hends⟩
  · exact Or.inl hrepeated
  · refine Or.inr ⟨hafter, _, ?_, hends.rewording hcaught⟩
    rw [he]
    rfl

theorem weathers_closed (t : Transport) (l : Line) (line : τ → Nat × List Signal) :
    Closed fun α => (Weathers t l line : Act n α → Prop) where
  pure _ := weathers_of_silent fun s => by rw [exec_pure]
  throw _ := weathers_of_silent fun s => by rw [exec_throw]
  lift _ := weathers_of_silent fun s => by rw [exec_lift]
  liftFault _ := weathers_of_silent fun s => by rw [exec_liftFault]
  bind := Weathers.bind
  rewording := Weathers.rewording

theorem weathers_closedBeside {μ : Type} (t : Transport) (l : Line) (line : τ → Nat × List Signal) :
    ClosedBeside (fun α => (Weathers t l line : Act n α → Prop))
      fun α => (Weathers t l (fun s => line s.2) : Act (StateT μ n) α → Prop) where
  toClosed := weathers_closed t l _
  within hx := by
    rintro ⟨m, s⟩ hs
    rw [exec_within]
    exact hx s hs
  memory := weathers_of_silent fun ⟨m, s⟩ => by rw [exec_memory]
  remember _ := weathers_of_silent fun ⟨m, s⟩ => by rw [exec_remember]

end Activities

/-- The number of the next post and what was seen of a line, without the state beside them. -/
def lineOf {σ : Type} (s : Nat × List Signal × σ) : Nat × List Signal :=
  (s.1, s.2.1)

variable {n : Type → Type} [Monad n] {σ : Type} [Threaded n σ]

theorem call_weathers (t : Transport) (l : Line) (method : String) (params : List Value) :
    Weathers t l lineOf (t.call (l.http (n := n)) method params) := by
  rintro ⟨k, log, s⟩ hs
  obtain rfl : k = (posts log).length + 1 := hs
  obtain ⟨waits, r, hattempts, hexec⟩ :=
    exec_attempts (n := n) t l method params t.maxRetries 0 log s
  have hcall : exec (t.call (l.http (n := n)) method params) ((posts log).length + 1, log, s) = _ :=
    hexec
  rw [hcall]
  refine ⟨exchange (t.sent l method params) (posts log).length waits, ?_, ?_⟩
  · rw [posts_append, List.length_append, length_posts_exchange]
    rfl
  · exact hattempts.withstands (Nat.zero_add _)

/-! ### A step of the loop -/

/-- An activity beside the line does not use it. -/
theorem within_weathers {μ : Type} (t : Transport) (l : Line) (x : Act n α) :
    Weathers t l (fun s => lineOf s.2)
      (within (within (within x)) : Act (StateT μ (StateT Nat (StateT (List Signal) n))) α) := by
  apply weathers_of_silent
  rintro ⟨m, k, log, s⟩
  simp only [exec_within, lineOf]

end Transport

/-- The loop of a client that calls its node over a line. Its files and its sink are beside the
line. -/
def Line.indexer {n : Type → Type} [Monad n] (l : Line) (t : Transport) (client : Client)
    (c : Checkpoint) (disk : Disk n) (push : Push.Payload → Act n Unit) :
    Indexer (StateT client.Memory (StateT Nat (StateT (List Signal) n))) where
  adapter := client.adapter (t.call l.http)
  disk := disk.within.within.within
  checkpoint := c
  push p := within (within (within (push p)))
  sleep _ := return ()
  isStopped := return false

namespace Line

variable {n : Type → Type} [Monad n] {σ : Type} [Threaded n σ] (l : Line) (t : Transport)
  (client : Client) (c : Checkpoint) (disk : Disk n) (push : Push.Payload → Act n Unit)

theorem fetch_weathers (cursor : Cursor) :
    t.Weathers l (fun s => Transport.lineOf s.2)
      ((client.adapter (t.call (l.http (n := n)))).fetch cursor) := by
  have hP := Transport.weathers_closed (n := StateT Nat (StateT (List Signal) n)) t l
    Transport.lineOf
  have hcall := t.call_weathers (n := n) l
  cases client with
  | evm c =>
    exact Evm.Client.fetch_closed hP (Transport.weathers_closedBeside t l _) (hcall _) (hcall _) c
      cursor
  | solana c =>
    exact Solana.Client.fetch_closed hP (Transport.weathers_closedBeside t l _) (hcall _) c cursor
  | unsupported network => exact (Transport.weathers_closed t l _).throw _

theorem process_weathers (j : Job) :
    t.Weathers l (fun s => Transport.lineOf s.2)
      ((client.adapter (t.call (l.http (n := n)))).process j) := by
  have hP := Transport.weathers_closed (n := StateT Nat (StateT (List Signal) n)) t l
    Transport.lineOf
  have hcall := t.call_weathers (n := n) l
  cases client with
  | evm c =>
    exact Evm.Client.process_closed hP (Transport.weathers_closedBeside t l _) (hcall _) (hcall _) c
      j
  | solana c =>
    exact (Transport.weathers_closedBeside t l _).within
      (Solana.Client.process_closed hP (hcall _) (hcall _) c j)
  | unsupported network => exact (Transport.weathers_closed t l _).throw _

theorem deliver_weathers (jobs : List Job) :
    t.Weathers l (fun s => Transport.lineOf s.2)
      ((l.indexer t client c disk push).deliver jobs) := by
  have hQ := Transport.weathers_closed
    (n := StateT client.Memory (StateT Nat (StateT (List Signal) n))) t l
    (fun s => Transport.lineOf s.2)
  have hpush : ∀ payloads, t.Weathers l (fun s => Transport.lineOf s.2)
      ((l.indexer t client c disk push).pushAll payloads) := by
    intro payloads
    induction payloads with
    | nil => exact hQ.pure _
    | cons p rest ih => exact hQ.bind (Transport.within_weathers t l (push p)) fun _ => ih
  induction jobs with
  | nil => exact hQ.pure _
  | cons j rest ih =>
    refine hQ.bind (process_weathers l t client j) fun payloads? => ?_
    exact hQ.bind (hpush _) fun _ => hQ.bind ih fun _ => hQ.pure _

/-- A step of the loop withstands what it sees of the line. -/
theorem step_weathers [LawfulMonad n] :
    t.Weathers l (fun s => Transport.lineOf s.2) (l.indexer t client c disk push).step := by
  have hQ := Transport.weathers_closed
    (n := StateT client.Memory (StateT Nat (StateT (List Signal) n))) t l
    (fun s => Transport.lineOf s.2)
  have hget : c.get (disk.within.within.within :
      Disk (StateT client.Memory (StateT Nat (StateT (List Signal) n)))) =
        within (within (within (c.get disk))) := by
    simp only [Checkpoint.get_within]
  have hupdate : ∀ next, c.update (disk.within.within.within :
      Disk (StateT client.Memory (StateT Nat (StateT (List Signal) n)))) next =
        within (within (within (c.update disk next))) := by
    intro next
    simp only [Checkpoint.update_within]
  unfold Indexer.step
  refine hQ.bind (hget ▸ Transport.within_weathers t l _) fun cursor => ?_
  refine hQ.bind (fetch_weathers l t client cursor) fun ⟨jobs, next⟩ => ?_
  refine hQ.bind (deliver_weathers l t client c disk push jobs) fun pushed => ?_
  exact hQ.bind (hupdate next ▸ Transport.within_weathers t l _) fun _ => hQ.pure _

end Line

open Transport in
/-- What becomes of trouble, over any line and for any transport. A call whose `i`-th repetition met
it does as is promised just if the status is not one of those that are overlooked and the wait
before a further post can be made; a status that is overlooked ends the call at once, and so does a
wait that is out of range or that the clock refuses. A step of the loop over any ledger withstands
all that it meets; if trouble is the last of it then the step has failed with it, transiently just
if the budget of the call is used up, and every other such failure ends the loop. -/
theorem trouble_repeated_iff {n : Type → Type} [Monad n] [LawfulMonad n] {σ : Type} [Threaded n σ]
    (t : Transport) (l : Line) (s : σ) :
    (∀ calls method params, ∃ log waits r,
      afterCalls n t l s calls = ((posts log).length + 1, log, s) ∧
      exec (t.call (l.http (n := n)) method params) (afterCalls n t l s calls) =
        (r, (posts log).length + waits.length + 2,
          log ++ exchange (t.sent l method params) (posts log).length waits, s) ∧
      ∀ i ≤ waits.length, IsTrouble (l.answer ((posts log).length + i)) →
        (t.Repeats method waits r i ↔ ¬ IsOverlooked (l.answer ((posts log).length + i)) ∧
          (i < t.maxRetries → ∃ wait,
            t.backoff? (l.jitter ((posts log).length + i + 1)) i = some wait ∧
              l.refusal wait = none)) ∧
        (IsOverlooked (l.answer ((posts log).length + i)) →
          i = waits.length ∧ r = .error (.rpcStatus method)) ∧
        (¬ IsOverlooked (l.answer ((posts log).length + i)) → i < t.maxRetries →
          ∀ f, t.backoff l.refusal (l.jitter ((posts log).length + i + 1)) i = .error f →
            i = waits.length ∧ r = .error (.fault f))) ∧
    ∀ (client : Client) (c : Checkpoint) (disk : Disk n) (push : Push.Payload → Act n Unit)
      (m : client.Memory) (log : List Signal),
      let x := l.indexer t client c disk push
      let state := (m, (posts log).length + 1, log, s)
      ∃ new r m' s', t.Withstands l new r ∧
        exec x.step state = (r, m', (posts (log ++ new)).length + 1, log ++ new, s') ∧
        ∀ before p a, new = before ++ [.posted p a] → IsTrouble a →
          ∃ e, r = .error e ∧ t.EndsIn l a e ∧
            (e.kind.isTransient = true ↔
              ∃ method reason, e = .rpcExhausted method t.url (t.maxRetries + 1) reason) ∧
            (e.kind.isTransient = false → ∀ limit progress,
              (exec (x.round limit progress) state).1 = .error e) := by
  constructor
  · intro calls method params
    obtain ⟨log, hstate, -⟩ := exists_log_of_calls (n := n) t l s calls
    obtain ⟨waits, r, hattempts, hexec⟩ :=
      exec_attempts (n := n) t l method params t.maxRetries 0 log s
    refine ⟨log, waits, r, hstate, by rw [hstate]; exact hexec, ?_⟩
    intro i hi htrouble
    have hrepeats := hattempts.repeats_iff hi htrouble
    simp only [Nat.zero_add, backoff_eq_ok_iff] at hrepeats
    refine ⟨hrepeats, hattempts.of_overlooked hi, fun hknown hbudget f herror => ?_⟩
    exact hattempts.of_wait_error hi htrouble hknown hbudget (by rwa [Nat.zero_add])
  · intro client c disk push m log x state
    obtain ⟨new, hline, hnew⟩ := Line.step_weathers l t client c disk push state rfl
    obtain ⟨r, m', k', log', s', hexec⟩ : ∃ r m' k' log' s',
        exec x.step state = (r, m', k', log', s') := ⟨_, _, _, _, _, rfl⟩
    rw [hexec] at hline hnew
    obtain ⟨rfl, rfl⟩ := Prod.mk.inj hline
    refine ⟨new, r, m', s', hnew, hexec, ?_⟩
    intro before p a hsplit htrouble
    rcases hnew before p a [] hsplit htrouble with ⟨-, _, _, _, _, _, -, hmore⟩ | ⟨-, e, rfl, hends⟩
    · cases hmore
    · refine ⟨e, rfl, hends, hends.isTransient_iff, ?_⟩
      intro hbroken limit progress
      have hgoing : Threaded.exec x.isStopped state = (false, state) := Threaded.exec_pure _ _
      rw [Indexer.round_of_wake_error hgoing (Indexer.wake_broken hexec hbroken)]

/-- A server that does not know the request. -/
def unimplemented : Line where
  answer _ := .ok ⟨501, "not implemented"⟩
  jitter _ := 0.5

open Transport in
/-- A call of it is not repeated, although it may be three times. -/
theorem unimplemented_ends_call :
    let t : Transport := { url := "https://node" }
    t.maxRetries = 3 ∧ IsTrouble (unimplemented.answer 0) ∧
    exec (t.call (unimplemented.http (n := StateM Unit)) "eth_blockNumber" [])
      (firstId, [], ()) =
        (.error (.rpcStatus "eth_blockNumber"), 2, [t.sent unimplemented "eth_blockNumber" [] 0],
          ()) := by
  intro t
  have htrouble : IsTrouble (unimplemented.answer 0) := Or.inr (by decide)
  have hoverlooked : IsOverlooked (unimplemented.answer 0) := Or.inl rfl
  refine ⟨rfl, htrouble, ?_⟩
  obtain ⟨hcalls, -⟩ := trouble_repeated_iff (n := StateM Unit) t unimplemented ()
  obtain ⟨log, waits, r, hstate, hexec, hall⟩ := hcalls [] "eth_blockNumber" []
  obtain rfl : log = [] := congrArg (fun state => state.2.1) hstate.symm
  obtain ⟨hlength, rfl⟩ := (hall 0 (Nat.zero_le _) htrouble).2.1 hoverlooked
  obtain rfl : waits = [] := List.length_eq_zero_iff.mp hlength.symm
  exact hexec

end ChainIndexer
