import ChainIndexer.Proofs.Step

/-!
A step commits all of a page or nothing of it. The client may be any adapter whatever: `Adapter.beside`
lets it run on a state of its own next to the world, so it can do what it likes but touch the files
and the sink, and notes of each job what the sink had accepted when its processing began. What the
client would yield for the jobs of a page then does not depend on the world (`Adapter.yields`), and
the payloads that a step delivers can be compared with it. `deliver_spec` is the induction over the
jobs; the step is put together from it and the laws of the checkpoint.
-/

namespace ChainIndexer

open Act Push

/-! ### What the sink has accepted -/

def Incident.payload? : Incident → Option Payload
  | .accepted p => some p
  | _ => none

/-- The payloads that the sink has accepted, in order. -/
def World.accepted (w : World) : List Payload :=
  w.events.filterMap Incident.payload?

theorem World.accepted_of_events {w w' : World} {es : List Incident}
    (h : w'.events = w.events ++ es) :
    w'.accepted = w.accepted ++ es.filterMap Incident.payload? := by
  simp [World.accepted, h]

theorem payload?_accepted (ps : List Payload) :
    (ps.map Incident.accepted).filterMap Incident.payload? = ps := by
  induction ps with
  | nil => rfl
  | cons p rest ih => simpa [Incident.payload?] using ih

theorem World.accepted_pushed {w w' : World} {ps : List Payload}
    (h : w.Reaches w' (ps.map .accepted)) : w'.accepted = w.accepted ++ ps := by
  rw [World.accepted_of_events h.events, payload?_accepted]

/-! ### Jobs in their turn -/

/-- The beginning of the processing of a job, and what the sink had accepted by then. -/
structure Start where
  job : Job
  accepted : List Payload

/-- The processing of jobs began one after the other, and of each when the payloads of the earlier
ones had been accepted behind those from before. -/
def InTurn (before : List Payload) (jobs : List Job) (lists : List (List Payload))
    (starts : List Start) : Prop :=
  ∀ i start, starts[i]? = some start →
    jobs[i]? = some start.job ∧ i ≤ lists.length ∧
      start.accepted = before ++ (lists.take i).flatten

theorem InTurn.nil (before : List Payload) (jobs : List Job) (lists : List (List Payload)) :
    InTurn before jobs lists [] := by
  intro i start h
  simp at h

theorem InTurn.cons {before ps : List Payload} {j : Job} {rest : List Job}
    {lists : List (List Payload)} {starts : List Start}
    (h : InTurn (before ++ ps) rest lists starts) :
    InTurn before (j :: rest) (ps :: lists) (⟨j, before⟩ :: starts) := by
  intro i start hstart
  cases i with
  | zero =>
    obtain rfl : ⟨j, before⟩ = start := by simpa using hstart
    simp
  | succ i =>
    obtain ⟨hjob, hle, haccepted⟩ := h i start (by simpa using hstart)
    refine ⟨by simpa using hjob, by simpa using hle, ?_⟩
    rw [haccepted]
    simp

/-- The first of some jobs has been begun and no other. -/
theorem InTurn.first (before : List Payload) (j : Job) (rest : List Job)
    (lists : List (List Payload)) : InTurn before (j :: rest) lists [⟨j, before⟩] := by
  intro i start h
  cases i with
  | zero =>
    obtain rfl : ⟨j, before⟩ = start := by simpa using h
    simp
  | succ i => simp at h

/-- How far jobs with their lists of payloads have been delivered: which were begun, which payloads
were taken behind those from before, and with what result. -/
structure Carried (before : List Payload) (jobs : List Job) (lists : List (List Payload))
    (starts : List Start) (taken : List Payload) (result : Except Failure Nat) : Prop where
  inTurn : InTurn before jobs lists starts
  begins : taken <+: lists.flatten
  ok : ∀ count, result = .ok count → taken = lists.flatten ∧ lists.length = jobs.length ∧
    starts.length = jobs.length ∧ count = taken.length

theorem Carried.first {before taken : List Payload} {lists : List (List Payload)} (j : Job)
    (rest : List Job) (e : Failure) (h : taken <+: lists.flatten) :
    Carried before (j :: rest) lists [⟨j, before⟩] taken (.error e) where
  inTurn := InTurn.first _ _ _ _
  begins := h
  ok _ := nofun

theorem Carried.cons {before ps taken : List Payload} {rest : List Job}
    {lists : List (List Payload)} {starts : List Start} {result : Except Failure Nat} (j : Job)
    (h : Carried (before ++ ps) rest lists starts taken result) :
    Carried before (j :: rest) (ps :: lists) (⟨j, before⟩ :: starts) (ps ++ taken)
      (result.map (ps.length + ·)) where
  inTurn := h.inTurn.cons
  begins := by
    rw [List.flatten_cons]
    exact (List.prefix_append_right_inj ps).mpr h.begins
  ok count hcount := by
    cases result with
    | error e => cases hcount
    | ok rest =>
      cases hcount
      obtain ⟨rfl, hlists, hstarts, rfl⟩ := h.ok rest rfl
      simp [hlists, hstarts]

/-! ### Any client beside a world -/

variable {n : Type → Type} [Monad n] {σ : Type} [Threaded n σ]

namespace Adapter

/-- A client that runs on its own state next to a world, with notes of the jobs that it began to
process. -/
def beside (k : Adapter n) : Adapter (StateT (σ × List Start) (StateM World)) where
  fetch cursor := ExceptT.mk fun s w =>
    let r := Act.exec (k.fetch cursor) s.1
    ((r.1, r.2, s.2), w)
  process j := ExceptT.mk fun s w =>
    let r := Act.exec (k.process j) s.1
    ((r.1, r.2, s.2 ++ [⟨j, w.accepted⟩]), w)

/-- The payloads of jobs that are processed one after the other, up to a job that fails. No list of
payloads counts as an empty one. -/
def yields (k : Adapter n) : σ → List Job → List (List Payload)
  | _, [] => []
  | s, j :: rest =>
    match Act.exec (k.process j) s with
    | (.ok payloads?, s') => payloads?.getD [] :: k.yields s' rest
    | (.error _, _) => []

/-- Behind a cursor a client has a page of jobs with their payloads, and the cursor after it. -/
def Offers (k : Adapter n) (s : σ) (cursor : Cursor) (jobs : List Job)
    (lists : List (List Payload)) (next : Cursor) : Prop :=
  ∃ s', Act.exec (k.fetch cursor) s = (.ok (jobs, next), s') ∧ lists = k.yields s' jobs

variable {k : Adapter n} {s s' : σ} {starts : List Start} {w : World}

theorem yields_of_ok {j : Job} {payloads? : Option (List Payload)}
    (h : Act.exec (k.process j) s = (.ok payloads?, s')) (rest : List Job) :
    k.yields s (j :: rest) = payloads?.getD [] :: k.yields s' rest := by
  rw [yields, h]

theorem exec_beside_fetch (k : Adapter n) (cursor : Cursor) (s : σ) (starts : List Start)
    (w : World) :
    Act.exec (k.beside.fetch cursor) ((s, starts), w) =
      ((Act.exec (k.fetch cursor) s).1, ((Act.exec (k.fetch cursor) s).2, starts), w) :=
  rfl

/-- A job is noted when its processing begins. Then it is processed, which may fail or be broken
off. -/
theorem exec_watched (sc : Scenario) (k : Adapter n) (j : Job) (s : σ) (starts : List Start)
    (w : World) :
    Act.exec ((sc.watched k.beside).process j) ((s, starts), w) =
      match Act.exec (k.process j) s with
      | (.error e, s') => (.error e, (s', starts ++ [⟨j, w.accepted⟩]), w)
      | (.ok payloads?, s') =>
        match sc.interrupt w.clock with
        | some e => (.error e, (s', starts ++ [⟨j, w.accepted⟩]), w.after [])
        | none =>
          (.ok payloads?, (s', starts ++ [⟨j, w.accepted⟩]),
            w.after [.handled j (payloads?.getD [])]) := by
  have hprocess : Act.exec (k.beside.process j) ((s, starts), w) =
      ((Act.exec (k.process j) s).1,
        ((Act.exec (k.process j) s).2, starts ++ [⟨j, w.accepted⟩]), w) := rfl
  rcases hexec : Act.exec (k.process j) s with ⟨r, s'⟩
  rw [hexec] at hprocess
  cases r with
  | error e => exact exec_bind_of_error hprocess _
  | ok payloads? =>
    have hfinish := exec_within (sc.finish j (payloads?.getD []))
      (s', starts ++ [⟨j, w.accepted⟩]) w
    rw [Scenario.exec_finish] at hfinish
    refine (exec_bind_of_ok hprocess _).trans ?_
    dsimp only
    cases hinterrupt : sc.interrupt w.clock with
    | some e =>
      rw [hinterrupt] at hfinish
      exact exec_bind_of_error hfinish _
    | none =>
      rw [hinterrupt] at hfinish
      exact (exec_bind_of_ok hfinish _).trans (exec_pure _ _)

end Adapter

namespace Scenario

/-- The jobs of a page are delivered up to the first failure, and the files are left alone. -/
theorem deliver_spec (sc : Scenario) (c : Checkpoint) (k : Adapter n) (jobs : List Job) (s : σ)
    (starts : List Start) (w : World) :
    match Act.exec ((sc.indexer c k.beside).deliver jobs) ((s, starts), w) with
    | (result, (_, starts'), w') => ∃ new taken, starts' = starts ++ new ∧ w'.files = w.files ∧
        w'.accepted = w.accepted ++ taken ∧
        Carried w.accepted jobs (k.yields s jobs) new taken result := by
  induction jobs generalizing s starts w with
  | nil =>
    rw [Indexer.deliver, exec_pure]
    refine ⟨[], [], by simp, rfl, by simp, InTurn.nil _ _ _, List.nil_prefix, ?_⟩
    rintro count ⟨⟩
    simp [Adapter.yields]
  | cons j rest ih =>
    have hwatched : Act.exec ((sc.indexer c k.beside).adapter.process j) ((s, starts), w) = _ :=
      Adapter.exec_watched sc k j s starts w
    rw [Indexer.deliver]
    rcases hprocess : Act.exec (k.process j) s with ⟨r, s₁⟩
    rw [hprocess] at hwatched
    cases r with
    | error e =>
      rw [exec_bind_of_error hwatched]
      exact ⟨_, [], rfl, rfl, by simp, Carried.first j rest e List.nil_prefix⟩
    | ok payloads? =>
      have hyields := Adapter.yields_of_ok hprocess rest
      cases hinterrupt : sc.interrupt w.clock with
      | some e =>
        simp only [hinterrupt] at hwatched
        rw [exec_bind_of_error hwatched]
        exact ⟨_, [], rfl, rfl, by simp [World.accepted], Carried.first j rest e List.nil_prefix⟩
      | none =>
        simp only [hinterrupt] at hwatched
        rw [exec_bind_of_ok hwatched, hyields]
        generalize hw₁ : w.after [.handled j (payloads?.getD [])] = w₁
        generalize payloads?.getD [] = ps at *
        have hfiles : w₁.files = w.files := by rw [← hw₁, World.files_after]
        have hsame : w₁.accepted = w.accepted := by
          rw [← hw₁]
          simp [World.accepted, Incident.payload?]
        rcases exec_pushAll sc c k.beside ps (s₁, starts ++ [⟨j, w.accepted⟩]) w₁ with
          ⟨w₂, hpush, hpushed⟩ | ⟨e, taken, w₂, htaken, hpush, hpushed⟩
        · have haccepted := World.accepted_pushed hpushed
          rw [hsame] at haccepted
          have hrest := ih s₁ (starts ++ [⟨j, w.accepted⟩]) w₂
          rcases hexec : Act.exec ((sc.indexer c k.beside).deliver rest)
            ((s₁, starts ++ [⟨j, w.accepted⟩]), w₂) with ⟨r, ⟨s₂, starts'⟩, w'⟩
          rw [hexec] at hrest
          obtain ⟨new, taken, rfl, hfiles', haccepted', hcarried⟩ := hrest
          rw [haccepted] at hcarried haccepted'
          rw [exec_bind_of_ok hpush, exec_bind_pure, hexec]
          refine ⟨⟨j, w.accepted⟩ :: new, ps ++ taken, by simp, ?_, ?_, hcarried.cons j⟩
          · rw [hfiles', hpushed.files, hfiles]
          · rw [haccepted', List.append_assoc]
        · have haccepted := World.accepted_pushed hpushed
          rw [hsame] at haccepted
          rw [exec_bind_of_error hpush]
          refine ⟨_, taken, rfl, hpushed.files.trans hfiles, haccepted, Carried.first j rest e ?_⟩
          rw [List.flatten_cons]
          exact htaken.trans (List.prefix_append _ _)

/-- Once a page was fetched, all of it is delivered and the cursor behind it stored, or a beginning of
it is delivered and the file of the cursor is left. -/
theorem page_spec (sc : Scenario) (c : Checkpoint) (k : Adapter n) (jobs : List Job)
    (next : Cursor) (s : σ) {w : World} (hnone : w.accepted = []) :
    match Act.exec (do
        let pushed ← (sc.indexer c k.beside).deliver jobs
        Act.within (c.update sc.disk next)
        return pushed) ((s, []), w) with
    | (.ok count, (_, starts), w') => (k.yields s jobs).length = jobs.length ∧
        w'.accepted = (k.yields s jobs).flatten ∧ count = (k.yields s jobs).flatten.length ∧
        c.stored w'.files = .ok next.settled ∧
        starts.length = jobs.length ∧ InTurn [] jobs (k.yields s jobs) starts
    | (.error _, (_, starts), w') => w'.files.lookup c.path = w.files.lookup c.path ∧
        w'.accepted <+: (k.yields s jobs).flatten ∧ InTurn [] jobs (k.yields s jobs) starts := by
  have hdeliver := deliver_spec sc c k jobs s [] w
  rw [exec_bind]
  rcases hexec : Act.exec ((sc.indexer c k.beside).deliver jobs) ((s, []), w) with
    ⟨r, ⟨s', starts⟩, w₁⟩
  rw [hexec] at hdeliver
  obtain ⟨_, taken, rfl, hfiles, haccepted, hcarried⟩ := hdeliver
  rw [hnone] at haccepted hcarried
  obtain rfl : w₁.accepted = taken := by simpa using haccepted
  cases r with
  | error e => exact ⟨by rw [hfiles], hcarried.begins, hcarried.inTurn⟩
  | ok count =>
    dsimp only
    rw [exec_bind, exec_within]
    rcases hupdate : Act.exec (c.update sc.disk next) w₁ with ⟨r, w₂⟩
    cases r with
    | error e =>
      have hleft := Checkpoint.update_error hupdate
      have hsame : w₂.accepted = w₁.accepted := by simp only [World.accepted, hleft.events]
      refine ⟨by rw [hleft.lookup, hfiles], ?_, hcarried.inTurn⟩
      rw [hsame]
      exact hcarried.begins
    | ok _ =>
      obtain ⟨hnow, -, content, -, hevents⟩ := Checkpoint.update_ok hupdate
      have hsame : w₂.accepted = w₁.accepted := by
        rw [World.accepted_of_events hevents]
        exact List.append_nil _
      obtain ⟨hall, hlists, hstarts, rfl⟩ := hcarried.ok count rfl
      dsimp only
      rw [exec_pure]
      exact ⟨hlists, hsame.trans hall, by rw [hall], hnow, hstarts, hcarried.inTurn⟩

/-- A step that fails has left the file of the cursor as it was, and what the sink has accepted is a
beginning of the payloads of the page. A step that succeeds has had all of them accepted in order,
gives their number, and has stored the cursor behind the page, which is read back with a height that
is a truth value as the number it is equal to. Either way no job was begun before the payloads of the
one before it were accepted. -/
theorem step_all_or_nothing (sc : Scenario) (c : Checkpoint) (k : Adapter n) (s : σ) (w : World) :
    match Act.exec (sc.indexer c k.beside).step ((s, []), w.begun) with
    | (.ok count, (_, starts), w') => ∃ cursor jobs lists next,
        c.stored w.files = .ok cursor ∧ k.Offers s cursor jobs lists next ∧
        lists.length = jobs.length ∧ w'.accepted = lists.flatten ∧ count = lists.flatten.length ∧
        c.stored w'.files = .ok next.settled ∧
        starts.length = jobs.length ∧ InTurn [] jobs lists starts
    | (.error _, (_, starts), w') => w'.files.lookup c.path = w.files.lookup c.path ∧
        ((w'.accepted = [] ∧ starts = []) ∨ ∃ cursor jobs lists next,
          c.stored w.files = .ok cursor ∧ k.Offers s cursor jobs lists next ∧
          w'.accepted <+: lists.flatten ∧ InTurn [] jobs lists starts) := by
  rw [step_eq, exec_bind, exec_within]
  rcases hget : Act.exec (c.get sc.disk) w.begun with ⟨r, w₀⟩
  have hspared := (Checkpoint.get_keeps sc c).of_exec hget
  have hnone : w₀.accepted = [] := by simp [World.accepted, hspared.events]
  cases r with
  | error e => exact ⟨hspared.lookup, Or.inl ⟨hnone, rfl⟩⟩
  | ok cursor =>
    have hstored : c.stored w.begun.files = .ok cursor := Checkpoint.get_ok hget
    rw [World.files_begun] at hstored
    dsimp only
    rw [exec_bind, Adapter.exec_beside_fetch]
    rcases hfetch : Act.exec (k.fetch cursor) s with ⟨r, s₁⟩
    cases r with
    | error e => exact ⟨hspared.lookup, Or.inl ⟨hnone, rfl⟩⟩
    | ok page =>
      obtain ⟨jobs, next⟩ := page
      have hoffers : k.Offers s cursor jobs (k.yields s₁ jobs) next := ⟨s₁, hfetch, rfl⟩
      have hpage := page_spec sc c k jobs next s₁ hnone
      dsimp only
      rcases hexec : Act.exec (do
          let pushed ← (sc.indexer c k.beside).deliver jobs
          Act.within (c.update sc.disk next)
          return pushed) ((s₁, []), w₀) with ⟨r, ⟨s₂, starts⟩, w₁⟩
      rw [hexec] at hpage
      cases r with
      | error e =>
        obtain ⟨hlookup, hbegins, hturn⟩ := hpage
        exact ⟨hlookup.trans hspared.lookup,
          Or.inr ⟨cursor, jobs, _, next, hstored, hoffers, hbegins, hturn⟩⟩
      | ok count => exact ⟨cursor, jobs, _, next, hstored, hoffers, hpage⟩

end Scenario

end ChainIndexer
