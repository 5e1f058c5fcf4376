import ChainIndexer.Proofs.Step

/-!
Runs of a process: steps of the loop in a world, with restarts between them that clear what the
process remembers. An end of the process in the middle of a step is no turn of its own: it is a step
that breaks down, and then a restart. `run_induction` is how every property of runs is proved.
-/

namespace ChainIndexer

open Act

/-- The job that was handled, if one was. -/
def Incident.job? : Incident → Option Job
  | .handled j _ => some j
  | _ => none

/-- What happens next to a process: it takes a step, or it is started anew. -/
inductive Turn where
  | step
  | restart
  deriving DecidableEq, Repr

/-- A step that was taken: how it ended and what happened in it. -/
structure Visit where
  result : Except Failure Nat
  events : List Incident

/-- A process under way: what it remembers, the world around it and the steps it has taken. -/
structure Course (μ : Type) where
  memory : μ
  world : World
  visits : List Visit := []

namespace Visit

/-- The jobs that were handled in a step, in order. -/
def jobs (v : Visit) : List Job :=
  v.events.filterMap Incident.job?

/-- A step settles a job if it has handled it and the sink has then accepted all its payloads,
before the cursor was stored. -/
def Settles (v : Visit) (j : Job) : Prop :=
  ∃ before payloads between content after,
    v.events = before ++ .handled j payloads :: (between ++ .stored content :: after) ∧
      ∀ p ∈ payloads, .accepted p ∈ between

end Visit

namespace Course

variable {μ : Type}

/-- The steps that have committed a cursor. -/
def commits (r : Course μ) : List Visit :=
  r.visits.filter fun v => v.result.isOk

/-- All that has happened, in order. -/
def events (r : Course μ) : List Incident :=
  r.visits.flatMap Visit.events

/-- A step of a process. -/
def step (x : Indexer (StateT μ (StateM World))) (r : Course μ) : Course μ :=
  let (result, memory, world) := Act.exec x.step (r.memory, r.world.begun)
  ⟨memory, world, r.visits ++ [⟨result, world.events⟩]⟩

/-- A process that starts anew has nothing in its memory. -/
def restart (fresh : μ) (r : Course μ) : Course μ :=
  { r with memory := fresh }

/-- The next turn of a process. -/
def turn (x : Indexer (StateT μ (StateM World))) (fresh : μ) (r : Course μ) : Turn → Course μ
  | .step => r.step x
  | .restart => r.restart fresh

/-- A process that starts among some files, after a number of turns. -/
def run (x : Indexer (StateT μ (StateM World))) (fresh : μ) (files : Files) (turns : List Turn) :
    Course μ :=
  turns.foldl (turn x fresh) ⟨fresh, { files }, []⟩

/-- What holds at the start and is kept by every step and restart holds after every run. -/
theorem run_induction {x : Indexer (StateT μ (StateM World))} {fresh : μ} {files : Files}
    {P : Course μ → Prop} (start : P ⟨fresh, { files }, []⟩)
    (step : ∀ r, P r → P (r.step x)) (restart : ∀ r, P r → P (r.restart fresh))
    (turns : List Turn) : P (run x fresh files turns) := by
  have later : ∀ r, P r → P (turns.foldl (turn x fresh) r) := by
    induction turns with
    | nil => exact fun _ hr => hr
    | cons t rest ih =>
      intro r hr
      cases t with
      | step => exact ih _ (step r hr)
      | restart => exact ih _ (restart r hr)
  exact later _ start

/-! ### Steps among the visits of a run -/

variable {x : Indexer (StateT μ (StateM World))}

theorem step_of_exec {r : Course μ} {result : Except Failure Nat} {m : μ} {w : World}
    (h : Act.exec x.step (r.memory, r.world.begun) = (result, m, w)) :
    r.step x = ⟨m, w, r.visits ++ [⟨result, w.events⟩]⟩ := by
  unfold step
  rw [h]

/-- A step is a visit more, by the way it has ended. -/
theorem step_cases (x : Indexer (StateT μ (StateM World))) (r : Course μ) :
    (∃ k m w, Act.exec x.step (r.memory, r.world.begun) = (.ok k, m, w) ∧
        r.step x = ⟨m, w, r.visits ++ [⟨.ok k, w.events⟩]⟩) ∨
      ∃ e m w, Act.exec x.step (r.memory, r.world.begun) = (.error e, m, w) ∧
        r.step x = ⟨m, w, r.visits ++ [⟨.error e, w.events⟩]⟩ := by
  rcases hexec : Act.exec x.step (r.memory, r.world.begun) with ⟨result, m, w⟩
  cases result with
  | ok k => exact Or.inl ⟨k, m, w, rfl, step_of_exec hexec⟩
  | error e => exact Or.inr ⟨e, m, w, rfl, step_of_exec hexec⟩

theorem commits_ok {m : μ} {w : World} {visits : List Visit} {k : Nat} {es : List Incident} :
    commits ⟨m, w, visits ++ [⟨.ok k, es⟩]⟩ = visits.filter (·.result.isOk) ++ [⟨.ok k, es⟩] := by
  simp [commits, Except.isOk, Except.toBool]

theorem commits_error {m : μ} {w : World} {visits : List Visit} {e : Failure}
    {es : List Incident} :
    commits ⟨m, w, visits ++ [⟨.error e, es⟩]⟩ = visits.filter (·.result.isOk) := by
  simp [commits, Except.isOk, Except.toBool]

theorem events_append {m : μ} {w : World} {visits : List Visit} {v : Visit} :
    events ⟨m, w, visits ++ [v]⟩ = visits.flatMap Visit.events ++ v.events := by
  simp [events]

end Course

/-! ### Jobs that were delivered -/

variable {P : Incident → Prop} {S : Job → List Push.Payload → Prop}

theorem jobs_of_requests {es : List Incident} (h : ∀ e ∈ es, IsRequest e) :
    es.filterMap Incident.job? = [] := by
  rw [List.filterMap_eq_nil_iff]
  intro e he
  cases e with
  | asked => rfl
  | _ => exact absurd (h _ he) (by simp [IsRequest])

theorem jobs_of_accepted (ps : List Push.Payload) :
    (ps.map Incident.accepted).filterMap Incident.job? = [] := by
  simp [List.filterMap_eq_nil_iff, Incident.job?]

/-- The jobs that were handled in a delivery are those of the page. -/
theorem Delivered.jobs_eq {jobs : List Job} {es : List Incident} (h : Delivered P S jobs es)
    (hP : ∀ e, P e → IsRequest e) : es.filterMap Incident.job? = jobs := by
  induction h with
  | nil => rfl
  | @cons j rest asks es payloads hasks _ _ ih =>
    rw [List.filterMap_append, jobs_of_requests fun e he => hP e (hasks e he), List.nil_append,
      List.filterMap_cons, List.filterMap_append, jobs_of_accepted, ih]
    rfl

/-- Each job of a delivery was handled, and then all its payloads were accepted. -/
theorem Delivered.handled {jobs : List Job} {es : List Incident} (h : Delivered P S jobs es)
    {j : Job} (hj : j ∈ jobs) :
    ∃ before payloads after, es = before ++ .handled j payloads :: after ∧ S j payloads ∧
      ∀ p ∈ payloads, .accepted p ∈ after := by
  induction h with
  | nil => cases hj
  | @cons i rest asks es payloads _ hpayloads _ ih =>
    rcases List.mem_cons.mp hj with rfl | hj
    · refine ⟨asks, payloads, _, rfl, hpayloads, fun p hp => ?_⟩
      exact List.mem_append_left _ (List.mem_map_of_mem hp)
    · obtain ⟨before, payloads', after, rfl, hpayloads', haccepted⟩ := ih hj
      refine ⟨asks ++ .handled i payloads :: (payloads.map .accepted ++ before), payloads', after,
        ?_, hpayloads', haccepted⟩
      simp

/-- A visit in which jobs were delivered before the cursor was stored settles them. -/
theorem Delivered.settles {jobs : List Job} {es first : List Incident} {content : Bytes}
    {v : Visit} (h : Delivered P S jobs es) (hv : v.events = first ++ es ++ [.stored content])
    {j : Job} (hj : j ∈ jobs) : v.Settles j := by
  obtain ⟨before, payloads, after, rfl, -, haccepted⟩ := h.handled hj
  refine ⟨first ++ before, payloads, after, content, [], ?_, haccepted⟩
  rw [hv]
  simp

end ChainIndexer
