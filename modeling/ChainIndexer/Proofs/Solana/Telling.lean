import ChainIndexer.Proofs.Solana.Coverage

/-!
The client that tells which pages it takes is otherwise the client itself. One activity mirrors
another if it does the same in a world whose account holds no pages (`Mirrors`), which is put
together like the activities, from what is asked, accepted and written. So it holds of every step,
and a run of the client has the results, the memory, the files and the account of a run that tells
its pages, but for the pages (`run_eq_course`).
-/

namespace ChainIndexer

/-- Whether a page was taken. -/
def Incident.isPaged : Incident → Bool
  | .paged _ => true
  | _ => false

/-- An account without the pages. -/
def unpaged (es : List Incident) : List Incident :=
  es.filter fun e => !e.isPaged

/-- The world with an account that holds no pages. -/
def World.unpaged (w : World) : World :=
  { w with events := ChainIndexer.unpaged w.events }

/-- A process under way, with accounts that hold no pages. -/
def Course.unpaged {μ : Type} (r : Course μ) : Course μ :=
  ⟨r.memory, r.world.unpaged, r.visits.map fun v => ⟨v.result, ChainIndexer.unpaged v.events⟩⟩

namespace Act

/-- The second activity does through a map of the states what the first one does. -/
def Mirrors {n : Type → Type} [Monad n] {σ : Type} [Threaded n σ] {α : Type} (f : σ → σ)
    (x y : Act n α) : Prop :=
  ∀ s, exec y (f s) = ((exec x s).1, f (exec x s).2)

namespace Mirrors

variable {n : Type → Type} [Monad n] {σ : Type} [Threaded n σ] {α β : Type} {f : σ → σ}
  {x y : Act n α}

theorem pure (a : α) : Mirrors f (pure a : Act n α) (pure a) :=
  fun _ => by rw [exec_pure, exec_pure]

theorem throw (e : Failure) : Mirrors f (throw e : Act n α) (throw e) :=
  fun _ => by rw [exec_throw, exec_throw]

theorem lift (r : Except Failure α) : Mirrors f (liftM r : Act n α) (liftM r) :=
  fun _ => by rw [exec_lift, exec_lift]

theorem bind {g h : α → Act n β} (hx : Mirrors f x y) (hg : ∀ a, Mirrors f (g a) (h a)) :
    Mirrors f (x >>= g) (y >>= h) := by
  intro s
  have hfirst := hx s
  rcases hexec : exec x s with ⟨r, s'⟩
  rw [hexec] at hfirst
  cases r with
  | error e => rw [exec_bind_of_error hexec, exec_bind_of_error hfirst]
  | ok a =>
    rw [exec_bind_of_ok hexec, exec_bind_of_ok hfirst]
    exact hg a s'

theorem rewording (hx : Mirrors f x y) (caught : Kind → Bool) (wrap : Failure → Failure) :
    Mirrors f (x.rewording caught wrap) (y.rewording caught wrap) := by
  intro s
  rw [exec_rewording, exec_rewording, hx s]

theorem within {μ : Type} (hx : Mirrors f x y) :
    Mirrors (Prod.map id f) (within x : Act (StateT μ n) α) (within y) := by
  rintro ⟨m, s⟩
  change exec _ (m, f s) = _
  rw [exec_within, exec_within, hx s]
  rfl

/-- The activities that mirror themselves. -/
theorem closed (f : σ → σ) : Closed fun α => fun x : Act n α => Mirrors f x x where
  pure := pure
  throw := throw
  lift := lift
  liftFault _ _ := by rw [exec_liftFault, exec_liftFault]
  bind := bind
  rewording _ hx := hx.rewording _ _

theorem closedBeside {μ : Type} (f : σ → σ) :
    ClosedBeside (fun α => fun x : Act n α => Mirrors f x x)
      fun α => fun x : Act (StateT μ n) α => Mirrors (Prod.map id f) x x where
  toClosed := closed _
  within := within
  memory := by
    rintro ⟨m, s⟩
    change exec memory (m, f s) = _
    rw [exec_memory, exec_memory]
    rfl
  remember k := by
    rintro ⟨m, s⟩
    change exec (remember k) (m, f s) = _
    rw [exec_remember, exec_remember]
    rfl

end Mirrors

end Act

open Act

/-! ### In a world -/

theorem unpaged_append (es es' : List Incident) : unpaged (es ++ es') = unpaged es ++ unpaged es' :=
  List.filter_append ..

namespace World

@[simp] theorem clock_unpaged (w : World) : w.unpaged.clock = w.clock := rfl

@[simp] theorem files_unpaged (w : World) : w.unpaged.files = w.files := rfl

/-- An operation that takes no page. -/
theorem unpaged_after {es : List Incident} (h : ChainIndexer.unpaged es = es) (w : World) :
    w.unpaged.after es = (w.after es).unpaged := by
  unfold unpaged after
  dsimp only
  rw [unpaged_append, h]

end World

namespace Scenario

variable (sc : Scenario) {α : Type} {x : Act (StateM World) α}

theorem rpc_mirrors (method : String) (params : List Value) :
    Mirrors World.unpaged (sc.rpc method params) (sc.rpc method params) :=
  fun w => congrArg (Prod.mk _) (World.unpaged_after rfl w)

theorem push_mirrors (p : Push.Payload) : Mirrors World.unpaged (sc.push p) (sc.push p) := by
  intro w
  rw [exec_sink, exec_sink, World.clock_unpaged]
  cases sc.sink w.clock p with
  | accepted => exact congrArg (Prod.mk _) (World.unpaged_after rfl w)
  | lost e => exact congrArg (Prod.mk _) (World.unpaged_after rfl w)
  | refused e => exact congrArg (Prod.mk _) (World.unpaged_after rfl w)

theorem finish_mirrors (j : Job) (ps : List Push.Payload) :
    Mirrors World.unpaged (sc.finish j ps) (sc.finish j ps) := by
  intro w
  rw [exec_finish, exec_finish, World.clock_unpaged]
  cases sc.interrupt w.clock with
  | some e => exact congrArg (Prod.mk _) (World.unpaged_after rfl w)
  | none => exact congrArg (Prod.mk _) (World.unpaged_after rfl w)

theorem operate_mirrors (name : String) (hx : Mirrors World.unpaged x x)
    (torn : Nat → Files → Files) :
    Mirrors World.unpaged (sc.operate name x torn) (sc.operate name x torn) := by
  intro w
  have hafter : w.unpaged.after [] = (w.after []).unpaged := World.unpaged_after rfl w
  rw [Checkpoint.exec_operate, Checkpoint.exec_operate, World.clock_unpaged, hafter]
  cases sc.breakdown w.clock with
  | some b => rfl
  | none => exact hx (w.after [])

theorem change_mirrors (name : String) (f : Files → Except Fault Files) :
    Mirrors World.unpaged (World.place.change name f) (World.place.change name f) := by
  intro w
  rw [Checkpoint.exec_change, Checkpoint.exec_change, World.files_unpaged]
  cases f w.files with
  | ok next => rfl
  | error e => rfl

theorem tellStored_mirrors (name : String) :
    Mirrors World.unpaged (tellStored name) (tellStored name) := by
  intro w
  rw [Checkpoint.exec_tellStored, Checkpoint.exec_tellStored, World.files_unpaged]
  cases w.files.read name with
  | error e => rfl
  | ok content =>
    unfold World.unpaged
    dsimp only
    rw [unpaged_append]
    rfl

theorem read_mirrors (name : String) :
    Mirrors World.unpaged (sc.disk.read name) (sc.disk.read name) := by
  rw [disk_read]
  exact sc.operate_mirrors name (fun _ => by rw [Checkpoint.exec_read, Checkpoint.exec_read]; rfl) _

theorem create_mirrors (name : String) :
    Mirrors World.unpaged (sc.disk.create name) (sc.disk.create name) := by
  rw [disk_create]
  exact sc.operate_mirrors name (change_mirrors _ _) _

theorem append_mirrors (name : String) (more : Bytes) :
    Mirrors World.unpaged (sc.disk.append name more) (sc.disk.append name more) := by
  rw [disk_append]
  exact sc.operate_mirrors name (change_mirrors _ _) _

theorem replace_mirrors (source target : String) :
    Mirrors World.unpaged (sc.disk.replace source target) (sc.disk.replace source target) := by
  rw [disk_replace]
  refine sc.operate_mirrors source (.bind (change_mirrors _ _) fun _ => ?_) _
  exact tellStored_mirrors target

end Scenario

namespace Checkpoint

variable (sc : Scenario) (c : Checkpoint)

theorem get_mirrors : Mirrors World.unpaged (c.get sc.disk) (c.get sc.disk) := by
  unfold get
  refine Mirrors.bind (fun _ => rfl) fun there => ?_
  cases there with
  | false => exact Mirrors.pure _
  | true =>
    exact Mirrors.rewording (Mirrors.bind (sc.read_mirrors _) fun _ => Mirrors.lift _) _ _

theorem appendAll_mirrors (path : String) (ps : List (Except Fault String)) :
    Mirrors World.unpaged (appendAll sc.disk path ps) (appendAll sc.disk path ps) := by
  induction ps with
  | nil => exact Mirrors.pure _
  | cons p rest ih =>
    cases p with
    | error e => exact Mirrors.throw _
    | ok s => exact Mirrors.bind (sc.append_mirrors path _) fun _ => ih

theorem writeScratch_mirrors (new : Candidate) :
    Mirrors World.unpaged (c.writeScratch sc.disk new) (c.writeScratch sc.disk new) := by
  refine Mirrors.bind (sc.create_mirrors _) fun _ => Mirrors.bind (Mirrors.lift _) fun cursor => ?_
  exact appendAll_mirrors sc _ _

theorem update_mirrors (new : Candidate) :
    Mirrors World.unpaged (c.update sc.disk new) (c.update sc.disk new) := by
  have hP := Mirrors.closed (n := StateM World) World.unpaged
  unfold update
  refine Mirrors.bind (get_mirrors sc c) fun previous => hP.check ?_
  refine Mirrors.rewording (Mirrors.bind (writeScratch_mirrors sc c new) fun _ => ?_) _ _
  exact sc.replace_mirrors _ _

end Checkpoint

/-! ### Runs -/

section Runs

variable {μ : Type} {a a' : Adapter (StateT μ (StateM World))} (sc : Scenario) (ck : Checkpoint)

theorem deliver_mirrors
    (hprocess : ∀ j, Mirrors (Prod.map id World.unpaged) (a.process j) (a'.process j))
    (jobs : List Job) :
    Mirrors (Prod.map id World.unpaged) ((sc.indexer ck a).deliver jobs)
      ((sc.indexer ck a').deliver jobs) := by
  have hpush : ∀ ps, Mirrors (Prod.map id World.unpaged) ((sc.indexer ck a).pushAll ps)
      ((sc.indexer ck a').pushAll ps) := by
    intro ps
    induction ps with
    | nil => exact Mirrors.pure _
    | cons p rest ih => exact Mirrors.bind (sc.push_mirrors p).within fun _ => ih
  induction jobs with
  | nil => exact Mirrors.pure _
  | cons j rest ih =>
    refine Mirrors.bind (Mirrors.bind (hprocess j) fun payloads? => ?_) fun payloads? => ?_
    · exact Mirrors.bind (sc.finish_mirrors j _).within fun _ => Mirrors.pure _
    · exact Mirrors.bind (hpush _) fun _ => Mirrors.bind ih fun _ => Mirrors.pure _

/-- A step over a ledger mirrors one over another if fetching and processing do. -/
theorem step_mirrors
    (hfetch : ∀ cursor, Mirrors (Prod.map id World.unpaged) (a.fetch cursor) (a'.fetch cursor))
    (hprocess : ∀ j, Mirrors (Prod.map id World.unpaged) (a.process j) (a'.process j)) :
    Mirrors (Prod.map id World.unpaged) (sc.indexer ck a).step (sc.indexer ck a').step := by
  have hget : Mirrors (Prod.map id World.unpaged)
      (ck.get (sc.disk.within : Disk (StateT μ (StateM World)))) (ck.get sc.disk.within) := by
    rw [Checkpoint.get_within]
    exact (Checkpoint.get_mirrors sc ck).within
  have hupdate : ∀ next, Mirrors (Prod.map id World.unpaged)
      (ck.update (sc.disk.within : Disk (StateT μ (StateM World))) next)
      (ck.update sc.disk.within next) := by
    intro next
    rw [Checkpoint.update_within]
    exact (Checkpoint.update_mirrors sc ck next).within
  unfold Indexer.step
  refine Mirrors.bind hget fun cursor => Mirrors.bind (hfetch cursor) fun ⟨jobs, next⟩ => ?_
  refine Mirrors.bind (deliver_mirrors sc ck hprocess jobs) fun pushed => ?_
  exact Mirrors.bind (hupdate next) fun _ => Mirrors.pure _

/-- So does a run. -/
theorem run_unpaged
    (hfetch : ∀ cursor, Mirrors (Prod.map id World.unpaged) (a.fetch cursor) (a'.fetch cursor))
    (hprocess : ∀ j, Mirrors (Prod.map id World.unpaged) (a.process j) (a'.process j))
    (fresh : μ) (files : Files) (turns : List Turn) :
    Course.run (sc.indexer ck a') fresh files turns =
      (Course.run (sc.indexer ck a) fresh files turns).unpaged := by
  have hstep : ∀ r : Course μ,
      (r.unpaged).step (sc.indexer ck a') = (r.step (sc.indexer ck a)).unpaged := by
    intro r
    have hmirror := step_mirrors sc ck hfetch hprocess (r.memory, r.world.begun)
    rcases hexec : Act.exec (sc.indexer ck a).step (r.memory, r.world.begun) with ⟨result, m, w⟩
    rw [hexec] at hmirror
    rw [Course.step_of_exec hexec, Course.step_of_exec (r := r.unpaged) hmirror]
    simp [Course.unpaged, World.unpaged]
  have hturns : ∀ r : Course μ, turns.foldl (Course.turn (sc.indexer ck a') fresh) r.unpaged =
      (turns.foldl (Course.turn (sc.indexer ck a) fresh) r).unpaged := by
    induction turns with
    | nil => exact fun _ => rfl
    | cons turn rest ih =>
      intro r
      cases turn with
      | step =>
        rw [List.foldl_cons, List.foldl_cons]
        change List.foldl _ (r.unpaged.step _) _ = _
        rw [hstep]
        exact ih _
      | restart => exact ih (r.restart fresh)
  exact hturns ⟨fresh, { files }, []⟩

end Runs

namespace Solana.Client

theorem exec_fetch_plain (c : Client) (sc : Scenario) (cursor : Cursor) (s : Backlog × World) :
    Act.exec ((c.adapter sc.rpc).fetch cursor) s =
      match Act.exec (c.takePage sc.rpc cursor) s with
      | (.ok (page, next), s') => (.ok ((jobsOf page).map .transaction, next), s')
      | (.error e, s') => (.error e, s') := by
  rcases htake : Act.exec (c.takePage sc.rpc cursor) s with ⟨r, s'⟩
  cases r with
  | error e =>
    have hpage : Act.exec (c.fetchPage sc.rpc cursor) s = (.error e, s') :=
      exec_bind_of_error htake _
    exact exec_bind_of_error hpage _
  | ok p =>
    have hpage : Act.exec (c.fetchPage sc.rpc cursor) s = (.ok (jobsOf p.1, p.2), s') :=
      exec_bind_of_ok htake _
    exact exec_bind_of_ok hpage _

/-- Fetching a page mirrors fetching it and telling. -/
theorem fetch_mirrors (c : Client) (sc : Scenario) (cursor : Cursor) :
    Mirrors (Prod.map id World.unpaged) ((c.telling sc).fetch cursor)
      ((c.adapter sc.rpc).fetch cursor) := by
  rintro ⟨b, w⟩
  have htake := takePage_closed (Mirrors.closed World.unpaged)
    (Mirrors.closedBeside World.unpaged) (sc.rpc_mirrors _) c cursor (b, w)
  rw [exec_fetch_telling, exec_fetch_plain, htake]
  rcases Act.exec (c.takePage sc.rpc cursor) (b, w) with ⟨r, b', w'⟩
  cases r with
  | error e => rfl
  | ok p =>
    have hpaged : World.unpaged { w' with events := w'.events ++ [.paged p.1] } = w'.unpaged := by
      unfold World.unpaged
      dsimp only
      rw [unpaged_append]
      exact congrArg _ (List.append_nil _)
    exact congrArg (fun w => (_, b', w)) hpaged.symm

/-- A run of the client has the results, the memory, the files and the account of a run that tells
its pages, but for the pages. -/
theorem run_eq_course (c : Client) (sc : Scenario) (ck : Checkpoint) (files : Files)
    (turns : List Turn) : Course.run (sc.indexer ck (c.adapter sc.rpc)) {} files turns =
      (c.course sc ck files turns).unpaged := by
  refine run_unpaged sc ck (fetch_mirrors c sc) (fun j => ?_) {} files turns
  exact (process_closed (Mirrors.closed _) (sc.rpc_mirrors _) (sc.rpc_mirrors _) c j).within

end Solana.Client

end ChainIndexer
