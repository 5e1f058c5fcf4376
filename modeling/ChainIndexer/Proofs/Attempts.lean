import ChainIndexer.Proofs.Activity
import ChainIndexer.Proofs.Magnitude
import ChainIndexer.Proofs.RetryPolicy
import ChainIndexer.Transport

/-!
Calls over a line. A `Line` says what each post is answered, by how many posts came before it, which
waits its clock refuses, and keeps an account of the posts and the waits beside whatever else the
base monad does. `Attempts` is how a call goes from one of its posts on, with the waits that it
made; `exec_attempts` says that the loop of a call goes like this, and everything else is an
induction over it. The wait before a post is repeated is in range for up to 1024 repetitions
(`exists_backoff`), so that such a call ends in one of three ways: with the first outcome that is
final, with its budget used up, or with a wait that the clock refuses, and none of the waits under a
cap of some years is refused (`backoff_lt`).
-/

namespace ChainIndexer

/-- What is seen of a line. -/
inductive Signal where
  | posted (p : Post) (answer : Except NoAnswer Answer)
  | waited (a : Amount)

namespace Signal

def post? : Signal → Option Post
  | .posted p _ => some p
  | .waited _ => none

/-- The posts among some signals, in order. -/
def posts (log : List Signal) : List Post :=
  log.filterMap post?

@[simp] theorem posts_append (log log' : List Signal) :
    posts (log ++ log') = posts log ++ posts log' :=
  List.filterMap_append

@[simp] theorem posts_nil : posts [] = [] := rfl

@[simp] theorem posts_posted (p : Post) (answer : Except NoAnswer Answer) (log : List Signal) :
    posts (.posted p answer :: log) = p :: posts log := rfl

@[simp] theorem posts_waited (a : Amount) (log : List Signal) :
    posts (.waited a :: log) = posts log := rfl

end Signal

namespace Clock

/-- A clock that makes every wait of zero to `2 ^ 32` seconds, which are some 136 years. -/
def Enduring (refusal : Amount → Option Fault) : Prop :=
  ∀ a : Amount, a.lt (.ofInt 0) = false → a.lt (.ofInt (2 ^ 32)) = true → refusal a = none

theorem enduring_refusal : Enduring refusal := by
  intro a hzero hlt
  cases a with
  | whole w =>
    have hlow : ¬ w.toInt < 0 := of_decide_eq_false hzero
    have hhigh : w.toInt < 2 ^ 32 := of_decide_eq_true hlt
    unfold refusal limit
    dsimp only
    rw [if_neg (by omega), if_neg (by omega)]
  | real x =>
    have hlow : Binary64.ltInt x 0 = false := hzero
    have hsmall : Binary64.Small 32 x := .of_ltInt hlow hlt
    have hbillion : Binary64.Small 30 1000000000 :=
      .of_ltInt (Binary64.ltInt_ofNat _) (by decide +kernel)
    have hproduct : Binary64.ltInt (x * 1000000000) limit = true :=
      (hsmall.mul hbillion (by decide)).ltInt
    have habove : Binary64.ltInt (x * 1000000000) (-limit) = false :=
      Binary64.ltInt_of_nonpos (Binary64.ltInt_mul hlow (Binary64.ltInt_ofNat _)) (by decide)
    have hnumber : Binary64.shape x ≠ .nan := hsmall.shape_ne_nan
    unfold refusal
    dsimp only
    rw [if_neg hnumber, habove, hproduct, hlow]
    rfl

end Clock

open Act Signal

/-- A line: what a post on it is answered, and by which number a wait on it is drawn, after a number
of posts; and the fault of a wait that its clock refuses. -/
structure Line where
  answer : Nat → Except NoAnswer Answer
  jitter : Nat → Float
  refusal : Amount → Option Fault := Clock.refusal

namespace Line

variable {n : Type → Type} [Monad n]

/-- The line as a connection that keeps an account of what is seen of it. -/
def http (l : Line) : Http (StateT (List Signal) n) where
  post p := fun log =>
    let answer := l.answer (posts log).length
    pure (answer, log ++ [.posted p answer])
  refusal := l.refusal
  pause a := fun log => pure ((), log ++ [.waited a])
  jitter := fun log => pure (l.jitter (posts log).length, log)

@[simp] theorem refusal_http (l : Line) : (l.http (n := n)).refusal = l.refusal := rfl

variable {σ : Type} [Threaded n σ]

theorem exec_quick {μ α : Type} (x : StateT (List Signal) n α) {log log' : List Signal} {a : α}
    (hx : x log = pure (a, log')) (m : μ) (s : σ) :
    exec (within (sure x) : Act (StateT μ (StateT (List Signal) n)) α) (m, log, s) =
      (.ok a, m, log', s) := by
  have hthread : Threaded.exec x (log, s) = (a, log', s) := by
    change (let r := Threaded.exec (x log) s; (r.1.1, r.1.2, r.2)) = (a, log', s)
    rw [hx, Threaded.exec_pure]
  rw [exec_within, exec_sure, hthread]

theorem exec_post {μ : Type} (l : Line) (p : Post) (m : μ) (log : List Signal) (s : σ) :
    exec (within (sure (l.http.post p)) : Act (StateT μ (StateT (List Signal) n)) _) (m, log, s) =
      (.ok (l.answer (posts log).length), m,
        log ++ [.posted p (l.answer (posts log).length)], s) :=
  exec_quick _ rfl m s

theorem exec_jitter {μ : Type} (l : Line) (m : μ) (log : List Signal) (s : σ) :
    exec (within (sure l.http.jitter) : Act (StateT μ (StateT (List Signal) n)) _) (m, log, s) =
      (.ok (l.jitter (posts log).length), m, log, s) :=
  exec_quick _ rfl m s

theorem exec_pause {μ : Type} (l : Line) (a : Amount) (m : μ) (log : List Signal) (s : σ) :
    exec (within (sure (l.http.pause a)) : Act (StateT μ (StateT (List Signal) n)) _)
      (m, log, s) = (.ok (), m, log ++ [.waited a], s) :=
  exec_quick _ rfl m s

end Line

namespace Transport

/-! ### How a call goes -/

/-- The result in which a post ends its call, `none` if it may be repeated. -/
def Outcome.final? : Outcome → Option (Except Failure Value)
  | .result v => some (.ok v)
  | .failed f => some (.error f)
  | .retry _ => none

theorem Outcome.exists_retry {o : Outcome} (h : o.final? = none) : ∃ reason, o = .retry reason := by
  cases o with
  | retry reason => exact ⟨reason, rfl⟩
  | _ => cases h

/-- What is seen of a post after `k` others on the line. -/
def sent (t : Transport) (l : Line) (method : String) (params : List Value) (k : Nat) : Signal :=
  .posted ⟨t.url, t.headers, t.timeout, .json (request (k + 1) method params)⟩ (l.answer k)

/-- What is seen of posts from the one after `k` others on, with a wait before each further one. -/
def exchange (sent : Nat → Signal) : (k : Nat) → (waits : List Amount) → List Signal
  | k, [] => [sent k]
  | k, wait :: waits => sent k :: .waited wait :: exchange sent (k + 1) waits

/-- How a call goes on that has some repetitions left and has made `attempt` of them, when there are
`k` posts on the line: the waits that it makes yet, and the result in which it ends. -/
inductive Attempts (t : Transport) (l : Line) (method : String) :
    (retries attempt k : Nat) → (waits : List Amount) → Except Failure Value → Prop
  | ended {retries attempt k : Nat} {r : Except Failure Value}
      (h : (outcome method (l.answer k)).final? = some r) :
      Attempts t l method retries attempt k [] r
  | exhausted {attempt k : Nat} {reason : Retry}
      (h : outcome method (l.answer k) = .retry reason) :
      Attempts t l method 0 attempt k []
        (.error (.rpcExhausted method t.url (attempt + 1) reason))
  | stopped {retries attempt k : Nat} {reason : Retry} {f : Fault}
      (h : outcome method (l.answer k) = .retry reason)
      (hwait : t.backoff l.refusal (l.jitter (k + 1)) attempt = .error f) :
      Attempts t l method (retries + 1) attempt k [] (.error (.fault f))
  | again {retries attempt k : Nat} {reason : Retry} {wait : Amount} {waits : List Amount}
      {r : Except Failure Value} (h : outcome method (l.answer k) = .retry reason)
      (hwait : t.backoff l.refusal (l.jitter (k + 1)) attempt = .ok wait)
      (hrest : Attempts t l method retries (attempt + 1) (k + 1) waits r) :
      Attempts t l method (retries + 1) attempt k (wait :: waits) r

theorem length_posts_exchange (t : Transport) (l : Line) (method : String) (params : List Value)
    (k : Nat) (waits : List Amount) :
    (posts (exchange (t.sent l method params) k waits)).length = waits.length + 1 := by
  induction waits generalizing k with
  | nil => rfl
  | cons wait waits ih => simp [exchange, sent, ih]

section Exec

variable {n : Type → Type} [Monad n] {σ : Type} [Threaded n σ]

/-- Sending a request takes a number and puts a post on the line. -/
theorem exec_send {β : Type} (t : Transport) (l : Line) (method : String) (params : List Value)
    (f : Except NoAnswer Answer → Act (StateT Nat (StateT (List Signal) n)) β)
    (log : List Signal) (s : σ) :
    exec (do
        let id ← memory
        remember (id + 1)
        let answer ← within (sure (l.http.post
          ⟨t.url, t.headers, t.timeout, .json (request id method params)⟩))
        f answer) ((posts log).length + 1, log, s) =
      exec (f (l.answer (posts log).length)) ((posts log).length + 2,
        log ++ [t.sent l method params (posts log).length], s) := by
  rw [exec_bind_of_ok (exec_memory _ _), exec_bind_of_ok (exec_remember _ _ _),
    exec_bind_of_ok (Line.exec_post _ _ _ _ _)]
  rfl

theorem length_posts_sent (t : Transport) (l : Line) (method : String) (params : List Value)
    (log : List Signal) (k : Nat) :
    (posts (log ++ [t.sent l method params k])).length = (posts log).length + 1 := by
  simp [sent]

/-- A post whose outcome is final ends its call. -/
theorem exec_attempts_final {t : Transport} {l : Line} {method : String} {params : List Value}
    {retries attempt : Nat} {log : List Signal} {r : Except Failure Value}
    (h : (outcome method (l.answer (posts log).length)).final? = some r) (s : σ) :
    exec (t.attempts (l.http (n := n)) method params retries attempt)
      ((posts log).length + 1, log, s) =
        (r, (posts log).length + 2, log ++ [t.sent l method params (posts log).length], s) := by
  unfold attempts
  rw [exec_send]
  cases houtcome : outcome method (l.answer (posts log).length) with
  | result v =>
    rw [houtcome] at h
    cases h
    exact exec_pure _ _
  | failed f =>
    rw [houtcome] at h
    cases h
    exact exec_throw _ _
  | retry reason =>
    rw [houtcome] at h
    cases h

/-- Without repetitions left a post that may be repeated ends its call too. -/
theorem exec_attempts_exhausted {t : Transport} {l : Line} {method : String} {params : List Value}
    {attempt : Nat} {log : List Signal} {reason : Retry}
    (h : outcome method (l.answer (posts log).length) = .retry reason) (s : σ) :
    exec (t.attempts (l.http (n := n)) method params 0 attempt)
      ((posts log).length + 1, log, s) =
        (.error (.rpcExhausted method t.url (attempt + 1) reason), (posts log).length + 2,
          log ++ [t.sent l method params (posts log).length], s) := by
  unfold attempts
  rw [exec_send, h]
  exact exec_throw _ _

theorem exec_attempts_stopped {t : Transport} {l : Line} {method : String} {params : List Value}
    {retries attempt : Nat} {log : List Signal} {reason : Retry} {f : Fault}
    (h : outcome method (l.answer (posts log).length) = .retry reason)
    (hwait : t.backoff l.refusal (l.jitter ((posts log).length + 1)) attempt = .error f) (s : σ) :
    exec (t.attempts (l.http (n := n)) method params (retries + 1) attempt)
      ((posts log).length + 1, log, s) =
        (.error (.fault f), (posts log).length + 2,
          log ++ [t.sent l method params (posts log).length], s) := by
  unfold attempts
  rw [exec_send, h]
  dsimp only
  rw [exec_bind_of_ok (Line.exec_jitter _ _ _ _), length_posts_sent]
  refine exec_bind_of_error ?_ _
  rw [exec_liftFault, Line.refusal_http, hwait]
  rfl

theorem exec_attempts_again {t : Transport} {l : Line} {method : String} {params : List Value}
    {retries attempt : Nat} {log : List Signal} {reason : Retry} {wait : Amount}
    (h : outcome method (l.answer (posts log).length) = .retry reason)
    (hwait : t.backoff l.refusal (l.jitter ((posts log).length + 1)) attempt = .ok wait) (s : σ) :
    exec (t.attempts (l.http (n := n)) method params (retries + 1) attempt)
      ((posts log).length + 1, log, s) =
        exec (t.attempts (l.http (n := n)) method params retries (attempt + 1))
          ((posts log).length + 2,
            log ++ [t.sent l method params (posts log).length, .waited wait], s) := by
  rw [attempts, exec_send, h]
  dsimp only
  rw [exec_bind_of_ok (Line.exec_jitter _ _ _ _), length_posts_sent, Line.refusal_http,
    exec_liftFault_bind hwait, exec_bind_of_ok (Line.exec_pause _ _ _ _ _), List.append_assoc]
  rfl

/-- From a post on, a call does what `Attempts` says. -/
theorem exec_attempts (t : Transport) (l : Line) (method : String) (params : List Value)
    (retries attempt : Nat) (log : List Signal) (s : σ) :
    ∃ waits r, Attempts t l method retries attempt (posts log).length waits r ∧
      exec (t.attempts (l.http (n := n)) method params retries attempt)
        ((posts log).length + 1, log, s) =
          (r, (posts log).length + waits.length + 2,
            log ++ exchange (t.sent l method params) (posts log).length waits, s) := by
  induction retries generalizing attempt log with
  | zero =>
    cases hfinal : (outcome method (l.answer (posts log).length)).final? with
    | some r => exact ⟨[], r, .ended hfinal, exec_attempts_final hfinal s⟩
    | none =>
      obtain ⟨reason, h⟩ := Outcome.exists_retry hfinal
      exact ⟨[], _, .exhausted h, exec_attempts_exhausted h s⟩
  | succ retries ih =>
    cases hfinal : (outcome method (l.answer (posts log).length)).final? with
    | some r => exact ⟨[], r, .ended hfinal, exec_attempts_final hfinal s⟩
    | none =>
      obtain ⟨reason, h⟩ := Outcome.exists_retry hfinal
      cases hwait : t.backoff l.refusal (l.jitter ((posts log).length + 1)) attempt with
      | error f => exact ⟨[], _, .stopped h hwait, exec_attempts_stopped h hwait s⟩
      | ok wait =>
        have hposts : (posts (log ++ [t.sent l method params (posts log).length,
            .waited wait])).length = (posts log).length + 1 := by
          simp [sent]
        obtain ⟨waits, r, hrest, hexec⟩ :=
          ih (attempt + 1) (log ++ [t.sent l method params (posts log).length, .waited wait])
        rw [hposts] at hrest hexec
        refine ⟨wait :: waits, r, .again h hwait hrest, ?_⟩
        rw [exec_attempts_again h hwait, hexec]
        simp only [exchange, List.append_assoc, List.length_cons]
        congr 2
        omega

end Exec

/-! ### The waits of a call -/

theorem two_pow_lt_limit {attempt : Nat} (h : attempt < 1024) : 2 ^ attempt < Binary64.limit := by
  obtain ⟨hlimit, -⟩ := Binary64.limit_bounds
  have hpow : (2 : ℚ) ^ attempt ≤ 2 ^ 1023 := by
    apply pow_le_pow_right₀ (by norm_num)
    omega
  rw [zpow_ofNat] at hlimit
  exact_mod_cast lt_of_le_of_lt hpow hlimit

theorem backoff_eq_ok_iff {t : Transport} {refusal : Amount → Option Fault} {jitter : Float}
    {attempt : Nat} {wait : Amount} : t.backoff refusal jitter attempt = .ok wait ↔
      t.backoff? jitter attempt = some wait ∧ refusal wait = none := by
  unfold backoff
  cases t.backoff? jitter attempt with
  | none => simp
  | some wait' =>
    dsimp only
    cases hclock : refusal wait' with
    | none =>
      constructor
      · intro h
        cases h
        exact ⟨rfl, hclock⟩
      · rintro ⟨h, -⟩
        cases h
        rfl
    | some f =>
      constructor
      · intro h
        cases h
      · rintro ⟨h, hmade⟩
        cases h
        rw [hclock] at hmade
        cases hmade

/-- With binary64 settings a wait is in range for the first 1024 repetitions. -/
theorem exists_backoff {t : Transport} {x y : Float} (hseconds : t.backoffSeconds = .real x)
    (hcap : t.backoffCap = .real y) (jitter : Float) {attempt : Nat} (h : attempt < 1024) :
    ∃ wait, t.backoff? jitter attempt = some wait := by
  have hfactor : (Amount.ofInt (2 ^ attempt)).toFloat? = some (Float.ofInt (2 ^ attempt)) := by
    apply if_neg
    rw [not_le]
    have habs : ((2 : Int) ^ attempt).natAbs = 2 ^ attempt := by simp [Int.natAbs_pow]
    exact habs ▸ two_pow_lt_limit h
  have hgrowing : (Amount.real x).mul? (.ofInt (2 ^ attempt)) =
      some (.real (x * Float.ofInt (2 ^ attempt))) := by
    change ((Amount.real x).toFloat?.bind fun a =>
      (Amount.ofInt (2 ^ attempt)).toFloat?.bind fun b => some (Amount.real (a * b))) = _
    rw [hfactor]
    rfl
  unfold backoff? Amount.least
  rw [hseconds, hcap, hgrowing]
  dsimp only [Option.bind_eq_bind, Option.bind_some]
  split
  · exact ⟨_, rfl⟩
  · exact ⟨_, rfl⟩

theorem least_not_lt_zero {a b : Amount} (ha : a.lt (.ofInt 0) = false)
    (hb : b.lt (.ofInt 0) = false) : (a.least b).lt (.ofInt 0) = false := by
  unfold Amount.least
  split
  · exact hb
  · exact ha

theorem two_pow_not_lt_zero (attempt : Nat) :
    (Amount.ofInt (2 ^ attempt)).lt (.ofInt 0) = false := by
  change decide ((2 : Int) ^ attempt < 0) = false
  rw [decide_eq_false_iff_not, Int.not_lt]
  exact Int.pow_nonneg (by decide)

/-- No wait is negative if none of its parts is. -/
theorem backoff_not_lt_zero {t : Transport} {jitter : Float} {attempt : Nat} {wait : Amount}
    (hseconds : t.backoffSeconds.lt (.ofInt 0) = false)
    (hcap : t.backoffCap.lt (.ofInt 0) = false)
    (hjitter : (Amount.real jitter).lt (.ofInt 0) = false)
    (h : t.backoff? jitter attempt = some wait) : wait.lt (.ofInt 0) = false := by
  obtain ⟨growing, hgrowing, h⟩ := Option.bind_eq_some_iff.mp h
  have hgrowing' := Amount.mul?_not_lt_zero hseconds (two_pow_not_lt_zero attempt) hgrowing
  have hspread : (Amount.real (0.8 + 0.4 * jitter)).lt (.ofInt 0) = false := by
    apply Binary64.ltInt_add (Binary64.ltInt_ofScientific _ _ _)
    exact Binary64.ltInt_mul (Binary64.ltInt_ofScientific _ _ _) hjitter
  exact Amount.mul?_not_lt_zero (least_not_lt_zero hcap hgrowing') hspread h

/-- Under a cap below `2 ^ 28` seconds every wait is below `2 ^ 32` seconds. -/
theorem backoff_lt {t : Transport} {x y jitter : Float} {attempt : Nat} {wait : Amount}
    (hseconds : t.backoffSeconds = .real x) (hcap : t.backoffCap = .real y)
    (hx : Binary64.ltInt x 0 = false) (hy : Binary64.ltInt y 0 = false)
    (hbound : Binary64.ltInt y (2 ^ 28 : Nat) = true) (hjitter : Binary64.ltInt jitter 0 = false)
    (hone : Binary64.ltInt jitter (2 ^ 0 : Nat) = true)
    (h : t.backoff? jitter attempt = some wait) : wait.lt (.ofInt (2 ^ 32)) = true := by
  rw [backoff?, hseconds, hcap] at h
  obtain ⟨growing, hgrowing, h⟩ := Option.bind_eq_some_iff.mp h
  obtain ⟨z, hz, rfl⟩ := Amount.of_mul?_real hgrowing
  have hfactor : Binary64.ltInt z 0 = false :=
    Amount.ltInt_toFloat? (two_pow_not_lt_zero attempt) hz
  have hcapped : Binary64.Small 28 y := .of_ltInt hy hbound
  have hspread : Binary64.Small 3 (0.8 + 0.4 * jitter) := by
    have height : Binary64.Small 0 0.8 :=
      .of_ltInt (Binary64.ltInt_ofScientific _ _ _) (by decide +kernel)
    have hfour : Binary64.Small 0 0.4 :=
      .of_ltInt (Binary64.ltInt_ofScientific _ _ _) (by decide +kernel)
    exact (height.mono (Nat.zero_le 1)).add (hfour.mul (.of_ltInt hjitter hone) (by decide))
      (by decide)
  have hwait : ∀ v : Float, Binary64.Small 28 v →
      (Amount.real v).mul? (.real (0.8 + 0.4 * jitter)) = some wait →
        wait.lt (.ofInt (2 ^ 32)) = true := by
    intro v hv hproduct
    cases hproduct
    exact (hv.mul hspread (by decide)).ltInt
  unfold Amount.least at h
  split at h
  · rename_i hlt
    exact hwait _ (.of_lt (Binary64.ltInt_mul hx hfactor) (of_decide_eq_true hlt) hcapped) h
  · exact hwait _ hcapped h

/-! ### The budget of a call -/

namespace Attempts

variable {t : Transport} {l : Line} {method : String} {retries attempt k : Nat}
  {waits : List Amount} {r : Except Failure Value}

/-- A call whose first `j` posts may be repeated, after waits that can be made, goes on with the
post behind them. -/
theorem of_waits (h : Attempts t l method retries attempt k waits r) {j : Nat} (hj : j ≤ retries)
    (hretry : ∀ i < j, (outcome method (l.answer (k + i))).final? = none)
    (hwait : ∀ i < j, ∃ wait, t.backoff l.refusal (l.jitter (k + i + 1)) (attempt + i) = .ok wait) :
    ∃ made rest, made.length = j ∧ waits = made ++ rest ∧
      Attempts t l method (retries - j) (attempt + j) (k + j) rest r := by
  induction j generalizing retries attempt k waits with
  | zero => exact ⟨[], waits, rfl, rfl, h⟩
  | succ j ih =>
    have hfirst : (outcome method (l.answer k)).final? = none := hretry 0 (Nat.succ_pos j)
    obtain ⟨wait, hmade⟩ : ∃ wait, t.backoff l.refusal (l.jitter (k + 1)) attempt = .ok wait :=
      hwait 0 (Nat.succ_pos j)
    cases h with
    | ended hfinal =>
      rw [hfinal] at hfirst
      cases hfirst
    | exhausted => exact absurd hj (Nat.not_succ_le_zero j)
    | stopped _ hback =>
      rw [hback] at hmade
      cases hmade
    | @again retries _ _ _ wait waits _ _ _ hrest =>
      have hk : ∀ i, k + 1 + i = k + (i + 1) := by omega
      have hattempt : ∀ i, attempt + 1 + i = attempt + (i + 1) := by omega
      obtain ⟨made, rest, hlength, rfl, hlater⟩ := ih hrest (Nat.le_of_succ_le_succ hj)
        (fun i hi => by rw [hk]; exact hretry _ (Nat.succ_lt_succ hi))
        (fun i hi => by rw [hk, hattempt]; exact hwait _ (Nat.succ_lt_succ hi))
      rw [hk, hattempt] at hlater
      exact ⟨wait :: made, rest, congrArg Nat.succ hlength, rfl, by rwa [Nat.succ_sub_succ]⟩

/-- A call ends with the first outcome that is final, if that comes within its budget and behind
waits that can be made. -/
theorem of_final (h : Attempts t l method retries attempt k waits r) {j : Nat}
    {r' : Except Failure Value} (hj : j ≤ retries)
    (hretry : ∀ i < j, (outcome method (l.answer (k + i))).final? = none)
    (hwait : ∀ i < j, ∃ wait, t.backoff l.refusal (l.jitter (k + i + 1)) (attempt + i) = .ok wait)
    (hfinal : (outcome method (l.answer (k + j))).final? = some r') :
    waits.length = j ∧ r = r' := by
  obtain ⟨made, rest, rfl, rfl, hlater⟩ := h.of_waits hj hretry hwait
  generalize retries - made.length = left at hlater
  cases hlater with
  | ended hlast =>
    rw [hlast] at hfinal
    exact ⟨by rw [List.append_nil], Option.some.inj hfinal⟩
  | exhausted hlast =>
    rw [hlast] at hfinal
    cases hfinal
  | stopped hlast =>
    rw [hlast] at hfinal
    cases hfinal
  | again hlast =>
    rw [hlast] at hfinal
    cases hfinal

/-- A call uses up its budget if no outcome within it is final and all waits can be made. -/
theorem of_retries (h : Attempts t l method retries attempt k waits r)
    (hretry : ∀ i ≤ retries, (outcome method (l.answer (k + i))).final? = none)
    (hwait : ∀ i < retries,
      ∃ wait, t.backoff l.refusal (l.jitter (k + i + 1)) (attempt + i) = .ok wait) :
    waits.length = retries ∧ ∃ reason, outcome method (l.answer (k + retries)) = .retry reason ∧
      r = .error (.rpcExhausted method t.url (attempt + retries + 1) reason) := by
  obtain ⟨made, rest, hlength, rfl, hlater⟩ :=
    h.of_waits (Nat.le_refl _) (fun i hi => hretry i hi.le) hwait
  rw [Nat.sub_self] at hlater
  cases hlater with
  | ended hlast =>
    have hretried := hretry retries (Nat.le_refl _)
    rw [hlast] at hretried
    cases hretried
  | exhausted hlast => exact ⟨by rw [List.append_nil, hlength], _, hlast, rfl⟩

/-- A call ends with a wait that cannot be made, if no outcome before it is final. -/
theorem of_stopped (h : Attempts t l method retries attempt k waits r) {j : Nat} {f : Fault}
    (hj : j < retries) (hretry : ∀ i ≤ j, (outcome method (l.answer (k + i))).final? = none)
    (hwait : ∀ i < j, ∃ wait, t.backoff l.refusal (l.jitter (k + i + 1)) (attempt + i) = .ok wait)
    (hstop : t.backoff l.refusal (l.jitter (k + j + 1)) (attempt + j) = .error f) :
    waits.length = j ∧ r = .error (.fault f) := by
  obtain ⟨made, rest, rfl, rfl, hlater⟩ :=
    h.of_waits hj.le (fun i hi => hretry i hi.le) hwait
  obtain ⟨left, hleft⟩ := Nat.exists_eq_succ_of_ne_zero (Nat.sub_ne_zero_of_lt hj)
  rw [hleft] at hlater
  cases hlater with
  | ended hlast =>
    have hretried := hretry _ (Nat.le_refl _)
    rw [hlast] at hretried
    cases hretried
  | stopped _ hback =>
    rw [hback] at hstop
    cases hstop
    exact ⟨by rw [List.append_nil], rfl⟩
  | again _ hback =>
    rw [hback] at hstop
    cases hstop

end Attempts

/-! ### Each post of a call -/

/-- What follows on the `i`-th repetition of a post in a call. -/
inductive Turn (t : Transport) (l : Line) (method : String) (retries attempt k : Nat)
    (waits : List Amount) (r : Except Failure Value) (i : Nat) : Prop
  | repeated {reason : Retry} (hi : i < waits.length) (hbudget : i < retries)
      (hretry : outcome method (l.answer (k + i)) = .retry reason)
      (hwait : t.backoff l.refusal (l.jitter (k + i + 1)) (attempt + i) = .ok waits[i])
  | ended (hi : i = waits.length) (hfinal : (outcome method (l.answer (k + i))).final? = some r)
  | exhausted {reason : Retry} (hi : i = waits.length) (hbudget : i = retries)
      (hretry : outcome method (l.answer (k + i)) = .retry reason)
      (hr : r = .error (.rpcExhausted method t.url (attempt + retries + 1) reason))
  | stopped {reason : Retry} {f : Fault} (hi : i = waits.length) (hbudget : i < retries)
      (hretry : outcome method (l.answer (k + i)) = .retry reason)
      (hwait : t.backoff l.refusal (l.jitter (k + i + 1)) (attempt + i) = .error f)
      (hr : r = .error (.fault f))

/-- Each post of a call is followed by one of these. -/
theorem Attempts.turn {t : Transport} {l : Line} {method : String} {retries attempt k : Nat}
    {waits : List Amount} {r : Except Failure Value}
    (h : Attempts t l method retries attempt k waits r) {i : Nat} (hi : i ≤ waits.length) :
    Turn t l method retries attempt k waits r i := by
  induction h generalizing i with
  | ended hfinal =>
    obtain rfl : i = 0 := Nat.le_zero.mp hi
    exact .ended rfl hfinal
  | exhausted hretry =>
    obtain rfl : i = 0 := Nat.le_zero.mp hi
    exact .exhausted rfl rfl hretry rfl
  | stopped hretry hwait =>
    obtain rfl : i = 0 := Nat.le_zero.mp hi
    exact .stopped rfl (Nat.succ_pos _) hretry hwait rfl
  | @again retries attempt k reason wait waits r hretry hwait _ ih =>
    cases i with
    | zero => exact .repeated (Nat.succ_pos _) (Nat.succ_pos _) hretry hwait
    | succ i =>
      have hk : k + 1 + i = k + (i + 1) := by omega
      have hattempt : attempt + 1 + i = attempt + (i + 1) := by omega
      have hbudget : attempt + 1 + retries + 1 = attempt + (retries + 1) + 1 := by omega
      cases ih (Nat.le_of_succ_le_succ hi) with
      | repeated hi hlt hretry hwait =>
        rw [hk] at hretry hwait
        rw [hattempt] at hwait
        exact .repeated (Nat.succ_lt_succ hi) (Nat.succ_lt_succ hlt) hretry hwait
      | ended hi hfinal =>
        rw [hk] at hfinal
        exact .ended (congrArg Nat.succ hi) hfinal
      | exhausted hi heq hretry hr =>
        rw [hk] at hretry
        rw [hbudget] at hr
        exact .exhausted (congrArg Nat.succ hi) (congrArg Nat.succ heq) hretry hr
      | stopped hi hlt hretry hwait hr =>
        rw [hk] at hretry hwait
        rw [hattempt] at hwait
        exact .stopped (congrArg Nat.succ hi) (Nat.succ_lt_succ hlt) hretry hwait hr

/-- Each wait is the one that belongs to its repetition. -/
theorem Attempts.backoff_eq {t : Transport} {l : Line} {method : String} {retries attempt k : Nat}
    {waits : List Amount} {r : Except Failure Value}
    (h : Attempts t l method retries attempt k waits r) {i : Nat} (hi : i < waits.length) :
    t.backoff l.refusal (l.jitter (k + i + 1)) (attempt + i) = .ok waits[i] := by
  cases h.turn hi.le with
  | repeated _ _ _ hwait => exact hwait
  | ended hlast => omega
  | exhausted hlast => omega
  | stopped hlast => omega

end Transport
end ChainIndexer
