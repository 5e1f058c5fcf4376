import ChainIndexer.Proofs.Checkpoint.ReadBack
import ChainIndexer.Proofs.Course

/-!
Steps one after the other, all of which succeed. What a step that succeeds makes of a run is passed
on from each number of steps to the next one (`steps_induction`). Steps do succeed in a smooth
world: the sink accepts every payload, no processing is broken off and no operation on a file breaks
down, so that all depends on the pages that can be fetched and on the jobs in them (`step_smooth`).
-/

namespace ChainIndexer

open Act

variable {μ : Type}

namespace Course

/-- All steps that were taken have succeeded. -/
def Succeeds (r : Course μ) : Prop :=
  ∀ v ∈ r.visits, v.result.isOk = true

variable {x : Indexer (StateT μ (StateM World))} {fresh : μ} {files : Files}
  {I : Nat → Course μ → Prop}

theorem run_step_succ (x : Indexer (StateT μ (StateM World))) (fresh : μ) (files : Files)
    (k : Nat) : run x fresh files (List.replicate (k + 1) .step) =
      (run x fresh files (List.replicate k .step)).step x := by
  simp [run, List.replicate_succ', List.foldl_append, turn]

/-- What each step says of itself by its number is said of a step more. -/
theorem map_visits_succ {β : Type} {f : Visit → β} {g : Nat → β} {visits : List Visit} {v : Visit}
    {i : Nat} (h : visits.map f = (List.range i).map g) (hv : f v = g i) :
    (visits ++ [v]).map f = (List.range (i + 1)).map g := by
  rw [List.map_append, h, List.range_succ, List.map_append, List.map_singleton,
    List.map_singleton, hv]

/-- A run after a number of steps has succeeded in all of them, if a step more has. -/
private theorem succeeds_of_succ {r : Course μ} (h : (r.step x).Succeeds) :
    r.Succeeds ∧ ∃ k m w, Act.exec x.step (r.memory, r.world.begun) = (.ok k, m, w) ∧
      r.step x = ⟨m, w, r.visits ++ [⟨.ok k, w.events⟩]⟩ := by
  rcases step_cases x r with ⟨k, m, w, hexec, heq⟩ | ⟨e, m, w, hexec, heq⟩
  · rw [heq] at h
    exact ⟨fun v hv => h v (List.mem_append_left _ hv), k, m, w, hexec, heq⟩
  · rw [heq] at h
    have hfailed := h ⟨.error e, w.events⟩ (by simp)
    cases hfailed

/-- What holds at the start, and after each step that succeeds for a step more, holds of a run whose
steps have all succeeded for their number. -/
theorem steps_induction (start : I 0 ⟨fresh, { files }, []⟩)
    (step : ∀ i r k m w, I i r → Act.exec x.step (r.memory, r.world.begun) = (.ok k, m, w) →
      I (i + 1) ⟨m, w, r.visits ++ [⟨.ok k, w.events⟩]⟩) {k : Nat}
    (h : (run x fresh files (List.replicate k .step)).Succeeds) :
    I k (run x fresh files (List.replicate k .step)) := by
  induction k with
  | zero => exact start
  | succ k ih =>
    rw [run_step_succ] at h ⊢
    obtain ⟨hbefore, j, m, w, hexec, heq⟩ := succeeds_of_succ h
    rw [heq]
    exact step k _ j m w (ih hbefore) hexec

/-- If such a run can always take a step that succeeds, then it takes any number of them. -/
theorem succeeds_steps (start : I 0 ⟨fresh, { files }, []⟩)
    (step : ∀ i r k m w, I i r → Act.exec x.step (r.memory, r.world.begun) = (.ok k, m, w) →
      I (i + 1) ⟨m, w, r.visits ++ [⟨.ok k, w.events⟩]⟩)
    (goes : ∀ i r, I i r → ∃ k m w, Act.exec x.step (r.memory, r.world.begun) = (.ok k, m, w))
    (k : Nat) : (run x fresh files (List.replicate k .step)).Succeeds := by
  induction k with
  | zero => exact fun v hv => absurd hv (by simp [run])
  | succ k ih =>
    obtain ⟨j, m, w, hexec⟩ := goes k _ (steps_induction start step ih)
    rw [run_step_succ]
    rcases step_cases x (run x fresh files (List.replicate k .step)) with
      ⟨j', m', w', -, heq⟩ | ⟨e, m', w', hfailed, -⟩
    · rw [heq]
      intro v hv
      rcases List.mem_append.mp hv with hv | hv
      · exact ih v hv
      · rw [List.mem_singleton.mp hv]
        rfl
    · rw [hexec] at hfailed
      cases hfailed

end Course

/-- The file of a cursor can be written and replaced. -/
structure Checkpoint.Takes (c : Checkpoint) (files : Files) : Prop where
  scratch : files.Takes c.scratch
  path : files.Takes c.path

theorem Checkpoint.Takes.congr {c : Checkpoint} {fs fs' : Files} (h : c.Takes fs)
    (same : Files.SameDirectories fs fs') : c.Takes fs' :=
  ⟨h.scratch.congr same, h.path.congr same⟩

/-- A world that puts nothing in the way of a step. -/
structure Scenario.Smooth (sc : Scenario) : Prop where
  accepts : ∀ time p, sc.sink time p = .accepted
  finishes : ∀ time, sc.interrupt time = none
  calm : ∀ time, sc.breakdown time = none

/-- The processing of a job succeeds, whatever has happened before. -/
def Adapter.Handles (a : Adapter (StateT μ (StateM World))) (j : Job) : Prop :=
  ∀ s, ∃ payloads? s', Act.exec (a.process j) s = (.ok payloads?, s')

namespace Scenario

variable {M : μ → μ → Prop} {P : Incident → Prop} {S : Job → List Push.Payload → Prop}
  {sc : Scenario} {c : Checkpoint} {a : Adapter (StateT μ (StateM World))} {m m' : μ}
  {w w' : World}

theorem Smooth.calmFrom (smooth : sc.Smooth) (t : Nat) : sc.CalmFrom t :=
  fun later _ => smooth.calm later

theorem pushAll_smooth (smooth : sc.Smooth) (ps : List Push.Payload) (m : μ) (w : World) :
    ∃ w', Act.exec ((sc.indexer c a).pushAll ps) (m, w) = (.ok (), m, w') := by
  induction ps generalizing w with
  | nil => exact ⟨w, exec_pure _ _⟩
  | cons p rest ih =>
    obtain ⟨w', hrest⟩ := ih (w.after [.accepted p])
    have hpush : Act.exec (sc.push p) w = (.ok (), w.after [.accepted p]) := by
      rw [exec_sink, smooth.accepts]
    exact ⟨w', (exec_bind_of_ok (exec_within_eq hpush m) _).trans hrest⟩

theorem watched_smooth (smooth : sc.Smooth) {j : Job} (h : a.Handles j) (s : μ × World) :
    ∃ payloads? s', Act.exec ((sc.watched a).process j) s = (.ok payloads?, s') := by
  obtain ⟨payloads?, ⟨m', w'⟩, hprocess⟩ := h s
  have hfinish : Act.exec (sc.finish j (payloads?.getD [])) w' =
      (.ok (), w'.after [.handled j (payloads?.getD [])]) := by
    rw [exec_finish, smooth.finishes]
  refine ⟨payloads?, (m', w'.after [.handled j (payloads?.getD [])]), ?_⟩
  refine (exec_bind_of_ok hprocess _).trans ?_
  exact (exec_bind_of_ok (exec_within_eq hfinish m') _).trans (exec_pure _ _)

/-- Jobs that can be processed are delivered. -/
theorem deliver_smooth (smooth : sc.Smooth) {jobs : List Job} (h : ∀ j ∈ jobs, a.Handles j)
    (s : μ × World) : ∃ k s', Act.exec ((sc.indexer c a).deliver jobs) s = (.ok k, s') := by
  induction jobs generalizing s with
  | nil => exact ⟨0, s, exec_pure _ _⟩
  | cons j rest ih =>
    obtain ⟨payloads?, ⟨m₁, w₁⟩, hprocess⟩ := watched_smooth smooth (h j (by simp)) s
    obtain ⟨w₂, hpush⟩ := pushAll_smooth (c := c) (a := a) smooth (payloads?.getD []) m₁ w₁
    obtain ⟨k, s', hrest⟩ := ih (fun j hj => h j (List.mem_cons_of_mem _ hj)) (m₁, w₂)
    refine ⟨(payloads?.getD []).length + k, s', ?_⟩
    refine (exec_bind_of_ok hprocess _).trans ((exec_bind_of_ok hpush _).trans ?_)
    exact (exec_bind_of_ok hrest _).trans (exec_pure _ _)

/-- What it takes for a step to succeed in a smooth world: from the stored cursor, whatever is
remembered, a page can be fetched whose jobs can be processed, and the cursor behind the page can be
stored. -/
theorem step_smooth [Lasting M] (ha : a.Processes M P S) (smooth : sc.Smooth)
    (takes : c.Takes w.files) {cursor : Cursor} (hstored : c.stored w.files = .ok cursor)
    (hfetch : ∀ w₀, ∃ jobs next m₁ w₁,
      Act.exec (a.fetch cursor) (m, w₀) = (.ok (jobs, next), m₁, w₁) ∧ w₁.files = w₀.files ∧
      (∀ j ∈ jobs, a.Handles j) ∧ next.Follows cursor ∧ next.isWritable = true) :
    ∃ k m' w', Act.exec (sc.indexer c a).step (m, w) = (.ok k, m', w') := by
  have hread := Checkpoint.get_result sc c w
  rw [smooth.calm, hstored] at hread
  rcases hget : Act.exec (c.get sc.disk) w with ⟨r, w₀⟩
  obtain rfl : r = .ok cursor := by
    rw [hget] at hread
    simpa using hread
  have hspared := (Checkpoint.get_keeps sc c).of_exec hget
  have hleads := (Checkpoint.get_leads sc c).of_exec hget
  obtain ⟨jobs, next, m₁, w₁, hpage, hfiles, hjobs, hfollows, hwritable⟩ := hfetch w₀
  obtain ⟨k, ⟨m₂, w₂⟩, hdeliver⟩ := deliver_smooth (c := c) smooth hjobs (m₁, w₁)
  obtain ⟨-, es, -, hreach⟩ := deliver_ok ha hdeliver
  have hsame : w₂.files = w₀.files := hreach.files.trans hfiles
  have hkept : c.stored w₂.files = .ok cursor := by
    rw [hsame, Checkpoint.stored_congr hspared.lookup, hstored]
  have htakes : c.Takes w₂.files := by
    rw [hsame]
    exact takes.congr hleads.directories
  obtain ⟨w₃, hupdate⟩ := Checkpoint.update_calm (smooth.calmFrom _) htakes.scratch htakes.path
    hkept hfollows hwritable
  refine ⟨k, m₂, w₃, ?_⟩
  rw [step_eq, exec_bind_of_ok (exec_within_eq hget m), exec_bind_of_ok hpage,
    exec_bind_of_ok hdeliver, exec_bind_of_ok (exec_within_eq hupdate m₂), exec_pure]

/-- After a step that succeeded the file of the cursor can be written again. -/
theorem step_takes {k : Nat} (h : Act.exec (sc.indexer c a).step (m, w) = (.ok k, m', w')) :
    c.Takes w'.files := by
  rw [step_eq] at h
  obtain ⟨cursor, ⟨m₀, w₀⟩, -, h⟩ := exec_bind_ok h
  obtain ⟨⟨jobs, next⟩, ⟨m₁, w₁⟩, -, h⟩ := exec_bind_ok h
  obtain ⟨k', ⟨m₂, w₂⟩, -, h⟩ := exec_bind_ok h
  obtain ⟨⟨⟩, ⟨m₃, w₃⟩, hupdate, h⟩ := exec_bind_ok h
  rw [exec_pure] at h
  cases h
  obtain ⟨hscratch, hpath⟩ := Checkpoint.takes_of_update (of_exec_within hupdate).1
  exact ⟨hscratch, hpath⟩

end Scenario

end ChainIndexer
