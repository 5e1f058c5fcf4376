import ChainIndexer.Proofs.Checkpoint

/-!
What a step of the loop does in a world, for any kind of ledger. `Delivered` describes what happens
while the jobs of a page are delivered, `Broken` what has happened when the delivery has come to an
end anywhere; every beginning of a delivery is a broken one (`Broken.of_prefix`). `step_ok` and
`step_error` are all that later proofs know of a step: a step that succeeded has read the stored
cursor, fetched a page from it, delivered all jobs in order and then stored the next cursor; a step
that failed has left the stored cursor and has done no more than a beginning of this.
-/

namespace ChainIndexer

open Act

/-- A later world with the same files, and what has happened in between. -/
structure World.Reaches (w w' : World) (es : List Incident) : Prop where
  clock : w.clock ≤ w'.clock
  files : w'.files = w.files
  events : w'.events = w.events ++ es

theorem World.Reaches.refl (w : World) : w.Reaches w [] :=
  ⟨Nat.le_refl _, rfl, (List.append_nil _).symm⟩

theorem World.Reaches.trans {w w' w'' : World} {es es' : List Incident} (h : w.Reaches w' es)
    (h' : w'.Reaches w'' es') : w.Reaches w'' (es ++ es') :=
  ⟨Nat.le_trans h.clock h'.clock, h'.files.trans h.files, by
    rw [h'.events, h.events, List.append_assoc]⟩

theorem World.reaches_after (w : World) (es : List Incident) : w.Reaches (w.after es) es :=
  ⟨Nat.le_succ _, rfl, rfl⟩

/-- A later world with the same files, in which only certain things have happened in between. -/
def World.Tells (P : Incident → Prop) (w w' : World) : Prop :=
  ∃ es, w.Reaches w' es ∧ ∀ e ∈ es, P e

instance (P : Incident → Prop) : Lasting (World.Tells P) where
  refl w := ⟨[], World.Reaches.refl w, by simp⟩
  trans := by
    rintro w w' w'' ⟨es, hes, hP⟩ ⟨es', hes', hP'⟩
    refine ⟨es ++ es', hes.trans hes', fun e he => ?_⟩
    rcases List.mem_append.mp he with he | he
    · exact hP e he
    · exact hP' e he

theorem Scenario.exec_rpc {sc : Scenario} {method : String} {params : List Value} {w : World}
    {r : Except Failure Value} (h : sc.node w.clock method params = r) :
    Act.exec (sc.rpc method params) w = (r, w.after [.asked method params r]) := by
  subst h
  rfl

theorem Scenario.of_exec_rpc {sc : Scenario} {method : String} {params : List Value} {w w' : World}
    {r : Except Failure Value} (h : Act.exec (sc.rpc method params) w = (r, w')) :
    sc.node w.clock method params = r ∧ w' = w.after [.asked method params r] := by
  obtain ⟨hr, hw⟩ := Prod.mk.inj h
  refine ⟨hr, ?_⟩
  rw [← hw, ← hr]

/-- A request to the node. -/
def IsRequest : Incident → Prop
  | .asked .. => True
  | _ => False

/-- Neither the acceptance of a payload nor the storing of a cursor. -/
def IsSilent : Incident → Prop
  | .accepted _ | .stored _ => False
  | _ => True

theorem isSilent_of_isRequest {e : Incident} (h : IsRequest e) : IsSilent e := by
  cases e with
  | asked => trivial
  | _ => exact absurd h id

/-- A request to the node is all that has happened after it. -/
theorem Scenario.rpc_keeps {P : Incident → Prop} (sc : Scenario) {method : String}
    {params : List Value} (hP : ∀ answer, P (.asked method params answer)) :
    Keeps (World.Tells P) (sc.rpc method params) := by
  intro w
  refine ⟨[.asked method params (sc.node w.clock method params)], w.reaches_after _, ?_⟩
  simpa using hP _

variable {P : Incident → Prop} {S : Job → List Push.Payload → Prop}

/-- What happens while jobs are delivered: for each of them requests, the processing, and then the
acceptance of its payloads. -/
inductive Delivered (P : Incident → Prop) (S : Job → List Push.Payload → Prop) :
    List Job → List Incident → Prop
  | nil : Delivered P S [] []
  | cons {j : Job} {rest : List Job} {asks es : List Incident} {payloads : List Push.Payload}
      (hasks : ∀ e ∈ asks, P e) (hpayloads : S j payloads) (hrest : Delivered P S rest es) :
      Delivered P S (j :: rest)
        (asks ++ .handled j payloads :: (payloads.map .accepted ++ es))

/-- What has happened while jobs were being delivered, however far that has come. -/
inductive Broken (P : Incident → Prop) (S : Job → List Push.Payload → Prop) :
    List Job → List Incident → Prop
  | asking {jobs : List Job} {asks : List Incident} (hasks : ∀ e ∈ asks, P e) :
      Broken P S jobs asks
  | pushing {j : Job} {rest : List Job} {asks : List Incident} {payloads taken : List Push.Payload}
      (hasks : ∀ e ∈ asks, P e) (hpayloads : S j payloads) (htaken : taken <+: payloads) :
      Broken P S (j :: rest) (asks ++ .handled j payloads :: taken.map .accepted)
  | later {j : Job} {rest : List Job} {asks es : List Incident} {payloads : List Push.Payload}
      (hasks : ∀ e ∈ asks, P e) (hpayloads : S j payloads) (hrest : Broken P S rest es) :
      Broken P S (j :: rest)
        (asks ++ .handled j payloads :: (payloads.map .accepted ++ es))

theorem Delivered.broken {jobs : List Job} {es : List Incident} (h : Delivered P S jobs es) :
    Broken P S jobs es := by
  induction h with
  | nil => exact .asking (by simp)
  | cons hasks hpayloads _ ih => exact .later hasks hpayloads ih

/-- What happens in a delivery: requests, the processing of jobs and the acceptance of payloads. -/
theorem Delivered.of_mem {jobs : List Job} {es : List Incident} (h : Delivered P S jobs es)
    {e : Incident} (he : e ∈ es) :
    P e ∨ (∃ j payloads, e = .handled j payloads) ∨ ∃ p, e = .accepted p := by
  induction h with
  | nil => cases he
  | @cons j rest asks es payloads hasks _ _ ih =>
    rcases List.mem_append.mp he with he | he
    · exact Or.inl (hasks e he)
    rcases List.mem_cons.mp he with rfl | he
    · exact Or.inr (Or.inl ⟨j, payloads, rfl⟩)
    rcases List.mem_append.mp he with he | he
    · obtain ⟨p, -, rfl⟩ := List.mem_map.mp he
      exact Or.inr (Or.inr ⟨p, rfl⟩)
    · exact ih he

theorem prefix_append_cases {α : Type} {l a b : List α} (h : l <+: a ++ b) :
    l <+: a ∨ ∃ t, t <+: b ∧ l = a ++ t := by
  obtain ⟨r, hr⟩ := h
  rcases List.append_eq_append_iff.mp hr with ⟨t, ht, -⟩ | ⟨t, rfl, ht⟩
  · exact Or.inl ⟨t, ht.symm⟩
  · exact Or.inr ⟨t, ⟨r, ht.symm⟩, rfl⟩

/-- A beginning of the processing of a job and of the acceptance of its payloads. -/
private theorem broken_of_prefix_pushing {j : Job} {rest : List Job} {asks es : List Incident}
    {payloads taken : List Push.Payload} (hasks : ∀ e ∈ asks, P e) (hpayloads : S j payloads)
    (htaken : taken <+: payloads)
    (hes : es <+: asks ++ .handled j payloads :: taken.map .accepted) :
    Broken P S (j :: rest) es := by
  rcases prefix_append_cases hes with h | ⟨t, ht, rfl⟩
  · exact .asking fun e he => hasks e (h.subset he)
  · rcases List.prefix_cons_iff.mp ht with rfl | ⟨t', rfl, ht'⟩
    · rw [List.append_nil]
      exact .asking hasks
    · obtain ⟨taken', htaken', rfl⟩ := List.prefix_map_iff.mp ht'
      exact .pushing hasks hpayloads (htaken'.trans htaken)

/-- A beginning of what has happened has happened as well. -/
theorem Broken.of_prefix {jobs : List Job} {es es' : List Incident} (h : Broken P S jobs es)
    (hes : es' <+: es) : Broken P S jobs es' := by
  induction h generalizing es' with
  | asking hasks => exact .asking fun e he => hasks e (hes.subset he)
  | pushing hasks hpayloads htaken => exact broken_of_prefix_pushing hasks hpayloads htaken hes
  | @later j rest asks es payloads hasks hpayloads _ ih =>
    rw [← List.cons_append, ← List.append_assoc] at hes
    rcases prefix_append_cases hes with h | ⟨t, ht, rfl⟩
    · exact broken_of_prefix_pushing hasks hpayloads (List.prefix_refl _) h
    · rw [List.append_assoc, List.cons_append]
      exact .later hasks hpayloads (ih ht)

/-- Less may be known of what happens in a delivery, and of the payloads of its jobs. -/
theorem Delivered.mono {P' : Incident → Prop} {S' : Job → List Push.Payload → Prop}
    {jobs : List Job} {es : List Incident} (hP : ∀ e, P e → P' e)
    (hS : ∀ j ∈ jobs, ∀ payloads, S j payloads → S' j payloads) (h : Delivered P S jobs es) :
    Delivered P' S' jobs es := by
  induction h with
  | nil => exact .nil
  | cons hasks hpayloads _ ih =>
    refine .cons (fun e he => hP e (hasks e he)) (hS _ (by simp) _ hpayloads) (ih ?_)
    exact fun j hj => hS j (List.mem_cons_of_mem _ hj)

theorem Broken.mono {P' : Incident → Prop} {S' : Job → List Push.Payload → Prop}
    {jobs : List Job} {es : List Incident} (hP : ∀ e, P e → P' e)
    (hS : ∀ j ∈ jobs, ∀ payloads, S j payloads → S' j payloads) (h : Broken P S jobs es) :
    Broken P' S' jobs es := by
  induction h with
  | asking hasks => exact .asking fun e he => hP e (hasks e he)
  | pushing hasks hpayloads htaken =>
    exact .pushing (fun e he => hP e (hasks e he)) (hS _ (by simp) _ hpayloads) htaken
  | later hasks hpayloads _ ih =>
    refine .later (fun e he => hP e (hasks e he)) (hS _ (by simp) _ hpayloads) (ih ?_)
    exact fun j hj => hS j (List.mem_cons_of_mem _ hj)

/-- What happens before a delivery can be counted among the requests of its first job. -/
theorem Broken.behind {jobs : List Job} {first es : List Incident} (hfirst : ∀ e ∈ first, P e)
    (h : Broken P S jobs es) : Broken P S jobs (first ++ es) := by
  have hmore : ∀ asks : List Incident, (∀ e ∈ asks, P e) → ∀ e ∈ first ++ asks, P e := by
    intro asks hasks e he
    rcases List.mem_append.mp he with he | he
    · exact hfirst e he
    · exact hasks e he
  cases h with
  | asking hasks => exact .asking (hmore _ hasks)
  | pushing hasks hpayloads htaken =>
    rw [← List.append_assoc]
    exact .pushing (hmore _ hasks) hpayloads htaken
  | later hasks hpayloads hrest =>
    rw [← List.append_assoc]
    exact .later (hmore _ hasks) hpayloads hrest

/-- What the processing of a job does to a world and which payloads it gives. -/
structure Adapter.Processes {μ : Type} (a : Adapter (StateT μ (StateM World)))
    (M : μ → μ → Prop) (P : Incident → Prop) (S : Job → List Push.Payload → Prop) : Prop where
  keeps : ∀ j, Keeps (Beside M (World.Tells P)) (a.process j)
  yields : ∀ j s s' payloads?, Act.exec (a.process j) s = (.ok payloads?, s') →
    S j (payloads?.getD [])

namespace Scenario

variable {μ : Type} {M : μ → μ → Prop} {sc : Scenario} {c : Checkpoint}
  {a : Adapter (StateT μ (StateM World))} {m m' : μ} {w w' : World}

/-! ### Delivering the jobs of a page -/

theorem exec_sink (sc : Scenario) (p : Push.Payload) (w : World) :
    Act.exec (sc.push p) w =
      match sc.sink w.clock p with
      | .accepted => (.ok (), w.after [.accepted p])
      | .lost e => (.error e, w.after [.accepted p])
      | .refused e => (.error e, w.after []) :=
  rfl

/-- The sink takes a payload, and may take it although it fails, or not take it at all. -/
theorem exec_push (sc : Scenario) (p : Push.Payload) (m : μ) (w : World) :
    Act.exec (Act.within (sc.push p) : Act (StateT μ (StateM World)) Unit) (m, w) =
        (.ok (), m, w.after [.accepted p]) ∨
      ∃ e taken, taken <+: [p] ∧
        Act.exec (Act.within (sc.push p) : Act (StateT μ (StateM World)) Unit) (m, w) =
          (.error e, m, w.after (taken.map .accepted)) := by
  rw [exec_within, exec_sink]
  cases sc.sink w.clock p with
  | accepted => exact Or.inl rfl
  | lost e => exact Or.inr ⟨e, [p], List.prefix_refl _, rfl⟩
  | refused e => exact Or.inr ⟨e, [], List.nil_prefix, rfl⟩

/-- Payloads are accepted in order, all of them or the first ones. -/
theorem exec_pushAll (sc : Scenario) (c : Checkpoint) (a : Adapter (StateT μ (StateM World)))
    (ps : List Push.Payload) (m : μ) (w : World) :
    (∃ w', Act.exec ((sc.indexer c a).pushAll ps) (m, w) = (.ok (), m, w') ∧
        w.Reaches w' (ps.map .accepted)) ∨
      ∃ e taken w', taken <+: ps ∧
        Act.exec ((sc.indexer c a).pushAll ps) (m, w) = (.error e, m, w') ∧
        w.Reaches w' (taken.map .accepted) := by
  induction ps generalizing w with
  | nil => exact Or.inl ⟨w, exec_pure _ _, World.Reaches.refl w⟩
  | cons p rest ih =>
    rcases exec_push sc p m w with hpush | ⟨e, taken, htaken, hpush⟩
    · have first := w.reaches_after [.accepted p]
      rcases ih (w.after [.accepted p]) with ⟨w', hexec, hw'⟩ | ⟨e, taken, w', htaken, hexec, hw'⟩
      · exact Or.inl ⟨w', (exec_bind_of_ok hpush _).trans hexec, first.trans hw'⟩
      · refine Or.inr ⟨e, p :: taken, w', ?_, (exec_bind_of_ok hpush _).trans hexec,
          first.trans hw'⟩
        exact (List.prefix_cons_inj p).mpr htaken
    · refine Or.inr ⟨e, taken, _, ?_, exec_bind_of_error hpush _, w.reaches_after _⟩
      exact htaken.trans ((List.prefix_cons_inj p).mpr List.nil_prefix)

theorem exec_finish (sc : Scenario) (j : Job) (ps : List Push.Payload) (w : World) :
    Act.exec (sc.finish j ps) w =
      match sc.interrupt w.clock with
      | some e => (.error e, w.after [])
      | none => (.ok (), w.after [.handled j ps]) :=
  rfl

/-- A job that was processed is on the account behind the requests of its processing. -/
theorem watched_ok [Lasting M] (ha : a.Processes M P S) {j : Job}
    {payloads? : Option (List Push.Payload)}
    (h : Act.exec ((sc.watched a).process j) (m, w) = (.ok payloads?, m', w')) :
    M m m' ∧ S j (payloads?.getD []) ∧
      ∃ asks, (∀ e ∈ asks, P e) ∧ w.Reaches w' (asks ++ [.handled j (payloads?.getD [])]) := by
  obtain ⟨ps?, ⟨m₁, w₁⟩, hprocess, h⟩ := exec_bind_ok h
  obtain ⟨⟨⟩, ⟨m₂, w₂⟩, hfinish, h⟩ := exec_bind_ok h
  rw [exec_pure] at h
  cases h
  obtain ⟨hdone, rfl⟩ := of_exec_within hfinish
  obtain ⟨hm, asks, hreach, hasks⟩ := (ha.keeps j).of_exec hprocess
  rw [exec_finish] at hdone
  split at hdone
  · cases hdone
  · cases hdone
    exact ⟨hm, ha.yields j _ _ _ hprocess, asks, hasks, hreach.trans (w₁.reaches_after _)⟩

/-- A job whose processing failed has left requests only. -/
theorem watched_error [Lasting M] (ha : a.Processes M P S) {j : Job} {e : Failure}
    (h : Act.exec ((sc.watched a).process j) (m, w) = (.error e, m', w')) :
    Beside M (World.Tells P) (m, w) (m', w') := by
  rcases exec_bind_error h with hprocess | ⟨ps?, ⟨m₁, w₁⟩, hprocess, h⟩
  · exact (ha.keeps j).of_exec hprocess
  refine Lasting.trans ((ha.keeps j).of_exec hprocess) ?_
  rcases exec_bind_error h with hfinish | ⟨⟨⟩, ⟨m₂, w₂⟩, hfinish, h⟩
  · rw [exec_within, exec_finish] at hfinish
    split at hfinish
    · cases hfinish
      exact ⟨Lasting.refl _, [], w₁.reaches_after [], by simp⟩
    · cases hfinish
  · rw [exec_pure] at h
    cases h

/-- A delivery that succeeded has handled all jobs in order, each with all its payloads. -/
theorem deliver_ok [Lasting M] (ha : a.Processes M P S) {jobs : List Job} {k : Nat}
    (h : Act.exec ((sc.indexer c a).deliver jobs) (m, w) = (.ok k, m', w')) :
    M m m' ∧ ∃ es, Delivered P S jobs es ∧ w.Reaches w' es := by
  induction jobs generalizing k m w with
  | nil =>
    rw [Indexer.deliver, exec_pure] at h
    cases h
    exact ⟨Lasting.refl _, [], .nil, World.Reaches.refl _⟩
  | cons j rest ih =>
    obtain ⟨ps?, ⟨m₁, w₁⟩, hprocess, h⟩ := exec_bind_ok h
    obtain ⟨⟨⟩, ⟨m₂, w₂⟩, hpush, h⟩ := exec_bind_ok h
    obtain ⟨k', ⟨m₃, w₃⟩, hrest, h⟩ := exec_bind_ok h
    rw [exec_pure] at h
    cases h
    obtain ⟨hm, hpayloads, asks, hasks, hreach⟩ := watched_ok ha hprocess
    have hpushed : m₂ = m₁ ∧ w₁.Reaches w₂ ((ps?.getD []).map .accepted) := by
      rcases exec_pushAll sc c a (ps?.getD []) m₁ w₁ with ⟨w', heq, hw'⟩ | ⟨_, _, _, _, heq, _⟩
      · rw [heq] at hpush
        cases hpush
        exact ⟨rfl, hw'⟩
      · rw [heq] at hpush
        cases hpush
    obtain ⟨rfl, hpushed⟩ := hpushed
    obtain ⟨hm', es, hdelivered, hreach'⟩ := ih hrest
    refine ⟨Lasting.trans hm hm', _, .cons hasks hpayloads hdelivered, ?_⟩
    simpa using (hreach.trans hpushed).trans hreach'

/-- A delivery that failed has handled a beginning of the jobs. -/
theorem deliver_error [Lasting M] (ha : a.Processes M P S) {jobs : List Job} {e : Failure}
    (h : Act.exec ((sc.indexer c a).deliver jobs) (m, w) = (.error e, m', w')) :
    M m m' ∧ ∃ es, Broken P S jobs es ∧ w.Reaches w' es := by
  induction jobs generalizing m w with
  | nil =>
    rw [Indexer.deliver, exec_pure] at h
    cases h
  | cons j rest ih =>
    rcases exec_bind_error h with hprocess | ⟨ps?, ⟨m₁, w₁⟩, hprocess, h⟩
    · obtain ⟨hm, asks, hreach, hasks⟩ := watched_error ha hprocess
      exact ⟨hm, asks, .asking hasks, hreach⟩
    obtain ⟨hm, hpayloads, asks, hasks, hreach⟩ := watched_ok ha hprocess
    rcases exec_pushAll sc c a (ps?.getD []) m₁ w₁ with
      ⟨w₂, hpush, hpushed⟩ | ⟨e', taken, w₂, htaken, hpush, hpushed⟩
    · rw [exec_bind_of_ok hpush] at h
      rcases exec_bind_error h with hrest | ⟨k, ⟨m₃, w₃⟩, hrest, h⟩
      · obtain ⟨hm', es, hbroken, hreach'⟩ := ih hrest
        refine ⟨Lasting.trans hm hm', _, .later hasks hpayloads hbroken, ?_⟩
        simpa using (hreach.trans hpushed).trans hreach'
      · rw [exec_pure] at h
        cases h
    · rw [exec_bind_of_error hpush] at h
      cases h
      refine ⟨hm, _, .pushing hasks hpayloads htaken, ?_⟩
      simpa using hreach.trans hpushed

/-! ### A whole step -/

theorem step_eq (sc : Scenario) (c : Checkpoint) (a : Adapter (StateT μ (StateM World))) :
    (sc.indexer c a).step = (do
      let cursor ← Act.within (c.get sc.disk)
      let (jobs, next) ← a.fetch cursor
      let pushed ← (sc.indexer c a).deliver jobs
      Act.within (c.update sc.disk next)
      return pushed) := by
  simp only [← Checkpoint.get_within, ← Checkpoint.update_within]
  rfl

/-- A step that succeeded has fetched a page from the stored cursor, has delivered its jobs and has
then stored the cursor behind the page. -/
theorem step_ok [Lasting M] (ha : a.Processes M P S) {k : Nat}
    (h : Act.exec (sc.indexer c a).step (m, w) = (.ok k, m', w')) :
    ∃ cursor jobs next m₁ w₀ w₁ es content,
      c.stored w.files = .ok cursor ∧ World.Spares c.path w w₀ ∧
      Act.exec (a.fetch cursor) (m, w₀) = (.ok (jobs, next), m₁, w₁) ∧
      M m₁ m' ∧ Delivered P S jobs es ∧ w₁.clock ≤ w'.clock ∧
      w'.events = w₁.events ++ es ++ [.stored content] ∧
      Checkpoint.ofBytes content = .ok next.settled ∧
      c.stored w'.files = .ok next.settled := by
  rw [step_eq] at h
  obtain ⟨cursor, ⟨m₀, w₀⟩, hget, h⟩ := exec_bind_ok h
  obtain ⟨⟨jobs, next⟩, ⟨m₁, w₁⟩, hfetch, h⟩ := exec_bind_ok h
  obtain ⟨k', ⟨m₂, w₂⟩, hdeliver, h⟩ := exec_bind_ok h
  obtain ⟨⟨⟩, ⟨m₃, w₃⟩, hupdate, h⟩ := exec_bind_ok h
  rw [exec_pure] at h
  cases h
  obtain ⟨hread, rfl⟩ := of_exec_within hget
  obtain ⟨hwritten, rfl⟩ := of_exec_within hupdate
  obtain ⟨hm, es, hdelivered, hreach⟩ := deliver_ok ha hdeliver
  obtain ⟨hstored, hclock, content, hcontent, hevents⟩ := Checkpoint.update_ok hwritten
  refine ⟨cursor, jobs, next, m₁, w₀, w₁, es, content, Checkpoint.get_ok hread,
    (Checkpoint.get_keeps sc c).of_exec hread, hfetch, hm, hdelivered,
    Nat.le_trans hreach.clock hclock, ?_, hcontent, hstored⟩
  rw [hevents, hreach.events]

/-- A step that failed has not come to a page, or it has come to one and has left the file of the
cursor as it was while the page was being delivered. -/
theorem step_error [Lasting M] (ha : a.Processes M P S) {e : Failure}
    (h : Act.exec (sc.indexer c a).step (m, w) = (.error e, m', w')) :
    (m' = m ∧ World.Spares c.path w w') ∨
      ∃ cursor w₀, c.stored w.files = .ok cursor ∧ World.Spares c.path w w₀ ∧
        (Act.exec (a.fetch cursor) (m, w₀) = (.error e, m', w') ∨
          ∃ jobs next m₁ w₁ es,
            Act.exec (a.fetch cursor) (m, w₀) = (.ok (jobs, next), m₁, w₁) ∧
            M m₁ m' ∧ Broken P S jobs es ∧ w₁.clock ≤ w'.clock ∧
            w'.files.lookup c.path = w₁.files.lookup c.path ∧
            w'.events = w₁.events ++ es) := by
  rw [step_eq] at h
  rcases exec_bind_error h with hget | ⟨cursor, ⟨m₀, w₀⟩, hget, hafter⟩
  · obtain ⟨hread, rfl⟩ := of_exec_within hget
    exact Or.inl ⟨rfl, (Checkpoint.get_keeps sc c).of_exec hread⟩
  obtain ⟨hread, hm₀⟩ := of_exec_within hget
  subst hm₀
  refine Or.inr ⟨cursor, w₀, Checkpoint.get_ok hread, (Checkpoint.get_keeps sc c).of_exec hread, ?_⟩
  rcases exec_bind_error hafter with hfetch | ⟨⟨jobs, next⟩, ⟨m₁, w₁⟩, hfetch, hpage⟩
  · exact Or.inl hfetch
  rcases exec_bind_error hpage with hdeliver | ⟨k, ⟨m₂, w₂⟩, hdeliver, hcommit⟩
  · obtain ⟨hm, es, hbroken, hreach⟩ := deliver_error ha hdeliver
    refine Or.inr ⟨jobs, next, m₁, w₁, es, hfetch, hm, hbroken, hreach.clock, ?_, hreach.events⟩
    rw [hreach.files]
  obtain ⟨hm, es, hdelivered, hreach⟩ := deliver_ok ha hdeliver
  rcases exec_bind_error hcommit with hupdate | ⟨⟨⟩, ⟨m₃, w₃⟩, hupdate, hreturn⟩
  · obtain ⟨hwritten, rfl⟩ := of_exec_within hupdate
    have hspared := Checkpoint.update_error hwritten
    refine Or.inr ⟨jobs, next, m₁, w₁, es, hfetch, hm, hdelivered.broken,
      Nat.le_trans hreach.clock hspared.clock, ?_, ?_⟩
    · rw [hspared.lookup, hreach.files]
    · rw [hspared.events, hreach.events]
  · rw [exec_pure] at hreturn
    cases hreturn

/-- A step that failed has left the stored cursor, if fetching a page leaves the files alone. -/
theorem step_error_stored [Lasting M] (ha : a.Processes M P S) {M' : μ → μ → Prop}
    {P' : Incident → Prop} (hf : ∀ cursor, Keeps (Beside M' (World.Tells P')) (a.fetch cursor))
    {e : Failure} (h : Act.exec (sc.indexer c a).step (m, w) = (.error e, m', w')) :
    c.stored w'.files = c.stored w.files := by
  apply Checkpoint.stored_congr
  rcases step_error ha h with ⟨-, hspared⟩ | ⟨cursor, w₀, -, hspared, hfetch | hpage⟩
  · exact hspared.lookup
  · obtain ⟨-, es, hreach, -⟩ := (hf cursor).of_exec hfetch
    rw [hreach.files, hspared.lookup]
  · obtain ⟨jobs, next, m₁, w₁, es, hfetch, -, -, -, hlookup, -⟩ := hpage
    obtain ⟨-, es, hreach, -⟩ := (hf cursor).of_exec hfetch
    rw [hlookup, hreach.files, hspared.lookup]

end Scenario

end ChainIndexer
