import ChainIndexer.Client
import ChainIndexer.Proofs.Course
import ChainIndexer.Proofs.DedupeKey
import ChainIndexer.Proofs.Evm.Refusal
import ChainIndexer.Proofs.Solana.Refusal

/-!
The guards of the loop are never met, whatever the node answers and whatever breaks down. What a
ledger has to do for that is `Adapter.Sound`: fetch from its own positions without a guard, give jobs
that it can process, and move the cursor on to a position of its own that is no step back. The
invariant of a run is that the stored cursor is a position of the ledger; a step keeps it
(`step_owns`), and a step that begins with it meets no guard (`step_unguarded`). Of the options of a
client only the size of a page matters, which is positive however it was given.
-/

namespace ChainIndexer

open Act

/-- The files are left alone, whatever is remembered and told. -/
abbrev SparesFiles {μ : Type} (s s' : μ × World) : Prop :=
  Beside (fun _ _ => True) (World.Tells fun _ => True) s s'

theorem Act.Keeps.sparesFiles {μ α : Type} {M : μ → μ → Prop} {P : Incident → Prop}
    {x : Act (StateT μ (StateM World)) α} (hx : Keeps (Beside M (World.Tells P)) x) :
    Keeps SparesFiles x := by
  refine hx.mono fun {s s'} hkept => ?_
  obtain ⟨-, es, hreach, -⟩ := hkept
  exact ⟨trivial, es, hreach, fun _ _ => trivial⟩

/-- A ledger with positions of its own, from which it is used without a guard. -/
structure Adapter.Sound {μ : Type} (a : Adapter (StateT μ (StateM World))) (sc : Scenario)
    (Owns : Cursor → Prop) : Prop where
  fetch : ∀ {cursor}, Owns cursor → FailsAs sc.Unguarded (a.fetch cursor)
  page : ∀ {cursor jobs next s s'}, Owns cursor →
    Act.exec (a.fetch cursor) s = (.ok (jobs, next), s') →
    Owns next ∧ cursor.regresses next = false ∧ ∀ j ∈ jobs, FailsAs sc.Unguarded (a.process j)
  settled : ∀ {cursor}, Owns cursor → Owns cursor.settled
  fetch_keeps : ∀ cursor, Keeps SparesFiles (a.fetch cursor)
  process_keeps : ∀ j, Keeps SparesFiles (a.process j)

namespace Scenario

variable {μ : Type} {sc : Scenario} {c : Checkpoint} {a : Adapter (StateT μ (StateM World))}
  {Owns : Cursor → Prop} {m m' : μ} {w w' : World}

theorem pushAll_unguarded (sc : Scenario) (c : Checkpoint)
    (a : Adapter (StateT μ (StateM World))) (ps : List Push.Payload) :
    FailsAs sc.Unguarded ((sc.indexer c a).pushAll ps) := by
  induction ps with
  | nil => exact FailsAs.pure _
  | cons p rest ih => exact FailsAs.bind (FailsAs.within (push_unguarded sc p)) fun _ => ih

theorem deliver_unguarded (c : Checkpoint) {jobs : List Job}
    (h : ∀ j ∈ jobs, FailsAs sc.Unguarded (a.process j)) :
    FailsAs sc.Unguarded ((sc.indexer c a).deliver jobs) := by
  induction jobs with
  | nil => exact FailsAs.pure _
  | cons j rest ih =>
    have hrest := ih fun i hi => h i (List.mem_cons_of_mem _ hi)
    refine FailsAs.bind (FailsAs.bind (h j List.mem_cons_self) fun payloads? => ?_) fun _ => ?_
    · exact FailsAs.bind (FailsAs.within (finish_unguarded sc j _)) fun _ => FailsAs.pure _
    · refine FailsAs.bind (pushAll_unguarded sc c a _) fun _ => ?_
      exact FailsAs.bind hrest fun _ => FailsAs.pure _

theorem processes_of_sound (ha : a.Sound sc Owns) :
    a.Processes (fun _ _ => True) (fun _ => True) fun _ _ => True :=
  ⟨ha.process_keeps, fun _ _ _ _ _ => trivial⟩

theorem step_unguarded (ha : a.Sound sc Owns)
    (hown : ∀ cursor, c.stored w.files = .ok cursor → Owns cursor) {e : Failure}
    (h : Act.exec (sc.indexer c a).step (m, w) = (.error e, m', w')) : sc.Unguarded e := by
  rw [step_eq] at h
  rcases exec_bind_error h with hget | ⟨cursor, ⟨m₀, w₀⟩, hget, hafter⟩
  · exact FailsAs.within (Checkpoint.get_failsAs sc c) _ _ _ hget
  obtain ⟨hread, -⟩ := of_exec_within hget
  have hstored := Checkpoint.get_ok hread
  have hcursor := hown cursor hstored
  rcases exec_bind_error hafter with hfetch | ⟨⟨jobs, next⟩, ⟨m₁, w₁⟩, hfetch, hpage⟩
  · exact ha.fetch hcursor _ _ _ hfetch
  obtain ⟨-, hforward, hjobs⟩ := ha.page hcursor hfetch
  rcases exec_bind_error hpage with hdeliver | ⟨k, ⟨m₂, w₂⟩, hdeliver, hcommit⟩
  · exact deliver_unguarded c hjobs _ _ _ hdeliver
  rcases exec_bind_error hcommit with hupdate | ⟨⟨⟩, s₃, -, hreturn⟩
  · obtain ⟨hwritten, -⟩ := of_exec_within hupdate
    rcases Checkpoint.exec_update_guard hwritten with hplain | ⟨previous, hagain, hregresses, -⟩
    · exact Or.inl hplain
    -- the update reads the cursor that the step began with, as nothing has touched the files since
    have hlookup : w₂.files.lookup c.path = w.files.lookup c.path := by
      obtain ⟨-, _, hfetched, -⟩ := (ha.fetch_keeps cursor).of_exec hfetch
      obtain ⟨-, _, -, hdelivered⟩ := deliver_ok (processes_of_sound ha) hdeliver
      rw [hdelivered.files, hfetched.files, ((Checkpoint.get_keeps sc c).of_exec hread).lookup]
    have hprevious := Checkpoint.get_ok hagain
    rw [Checkpoint.stored_congr hlookup, hstored] at hprevious
    obtain rfl := Except.ok.inj hprevious
    rw [Candidate.regresses, hforward] at hregresses
    cases hregresses
  · rw [exec_pure] at hreturn
    cases hreturn

theorem step_owns (ha : a.Sound sc Owns)
    (hown : ∀ cursor, c.stored w.files = .ok cursor → Owns cursor) {r : Except Failure Nat}
    (h : Act.exec (sc.indexer c a).step (m, w) = (r, m', w')) :
    ∀ cursor, c.stored w'.files = .ok cursor → Owns cursor := by
  have hprocesses := processes_of_sound ha
  intro cursor hcursor
  cases r with
  | error e =>
    rw [step_error_stored hprocesses ha.fetch_keeps h] at hcursor
    exact hown cursor hcursor
  | ok count =>
    obtain ⟨before, _, next, _, _, _, _, _, hbefore, -, hfetch, -, -, -, -, -, hstored⟩ :=
      step_ok hprocesses h
    obtain rfl := Except.ok.inj (hstored.symm.trans hcursor)
    exact ha.settled (ha.page (hown before hbefore) hfetch).1

end Scenario

/-- What a run keeps: no step has met a guard, and the stored cursor is a position of the ledger. -/
structure Course.Unguarded {μ : Type} (sc : Scenario) (c : Checkpoint) (Owns : Cursor → Prop)
    (r : Course μ) : Prop where
  visits : ∀ visit ∈ r.visits, ∀ e, visit.result = .error e → sc.Unguarded e
  stored : ∀ cursor, c.stored r.world.files = .ok cursor → Owns cursor

theorem Course.unguarded_run {μ : Type} {sc : Scenario} {c : Checkpoint} {Owns : Cursor → Prop}
    {a : Adapter (StateT μ (StateM World))} (ha : a.Sound sc Owns) {files : Files}
    (hown : ∀ cursor, c.stored files = .ok cursor → Owns cursor) (fresh : μ) (turns : List Turn) :
    (Course.run (sc.indexer c a) fresh files turns).Unguarded sc c Owns := by
  refine run_induction ⟨by simp, hown⟩ (fun r hr => ?_) (fun r hr => ⟨hr.visits, hr.stored⟩) turns
  rcases hexec : Act.exec (sc.indexer c a).step (r.memory, r.world.begun) with ⟨result, m, w⟩
  have hstep : r.step (sc.indexer c a) = ⟨m, w, r.visits ++ [⟨result, w.events⟩]⟩ := by
    simp [step, hexec]
  have hbegun : ∀ cursor, c.stored r.world.begun.files = .ok cursor → Owns cursor := hr.stored
  rw [hstep]
  refine ⟨fun visit hvisit e he => ?_, Scenario.step_owns ha hbegun hexec⟩
  rcases List.mem_append.mp hvisit with hvisit | hvisit
  · exact hr.visits visit hvisit e he
  · rw [List.mem_singleton.mp hvisit] at he
    subst he
    exact Scenario.step_unguarded ha hbegun hexec

/-! ### The clients -/

theorem pageSizeField_pos {fields : Schema.Fields} {key : String} {size : Int}
    (h : Schema.withDefault Settings.defaultPageSize Settings.pageSizeField fields key = .ok size) :
    0 < size := by
  have hfound := Schema.withDefault_finds h
  cases hfield : Value.field? fields key with
  | none =>
    rw [hfield] at hfound
    obtain rfl := hfound
    decide
  | some v =>
    rw [hfield] at hfound
    obtain rfl := Except.ok.inj hfound
    exact Settings.pageSize_pos v _ (by decide)

/-- The options that decide about a client and its node are what the fields of their names hold. -/
theorem Options.make_ok {fields : Schema.Fields} {o : Options} (h : Options.make fields = .ok o) :
    Schema.required Schema.text fields "rpc_url" = .ok o.rpcUrl ∧
      Schema.withDefault none (Schema.optional Schema.text) fields "api_token" = .ok o.apiToken ∧
      Schema.withDefault Settings.defaultPageSize Settings.pageSizeField fields "page_size" =
        .ok o.pageSize := by
  obtain ⟨_, cap, hbackoff, -, rfl⟩ := Schema.Checked.apply_ok (Schema.Checked.orFail_ok h)
  obtain ⟨_, backoff, hretries, -, rfl⟩ := Schema.Checked.apply_ok hbackoff
  obtain ⟨_, retries, htimeout, -, rfl⟩ := Schema.Checked.apply_ok hretries
  obtain ⟨_, timeout, hsized, -, rfl⟩ := Schema.Checked.apply_ok htimeout
  obtain ⟨_, size, hsecret, hsize, rfl⟩ := Schema.Checked.apply_ok hsized
  obtain ⟨_, token, haddress, htoken, rfl⟩ := Schema.Checked.apply_ok hsecret
  obtain ⟨_, address, hreached, -, rfl⟩ := Schema.Checked.apply_ok haddress
  obtain ⟨_, url, hnetwork, hurl, rfl⟩ := Schema.Checked.apply_ok hreached
  obtain ⟨network, -, rfl⟩ := Schema.Checked.map_ok hnetwork
  exact ⟨hurl, htoken, hsize⟩

theorem Options.pageSize_pos {fields : Schema.Fields} {o : Options}
    (h : Options.make fields = .ok o) : 0 < o.pageSize :=
  pageSizeField_pos (Options.make_ok h).2.2

namespace Client

/-- The positions of the ledger of a client. -/
def Owns : Client → Cursor → Prop
  | .evm _ => Evm.Client.Owns
  | .solana _ => Solana.Client.Owns
  | .unsupported _ => fun _ => True

/-- A client of any kind of ledger that was built from options. -/
def BuiltFrom (o : Options) : Client → Prop
  | .evm c => Evm.Client.ofOptions o = .ok c
  | .solana c => Solana.Client.ofOptions o = .ok c
  | .unsupported network => network = o.network

theorem builtFrom_of_ofOptions {o : Options} {client : Client}
    (h : Client.ofOptions o = .ok client) : client.BuiltFrom o := by
  unfold Client.ofOptions at h
  split at h
  · obtain ⟨c, hc, rfl⟩ := map_ok h
    exact hc
  · obtain ⟨c, hc, rfl⟩ := map_ok h
    exact hc
  · obtain rfl := Except.ok.inj h
    rfl

theorem evm_sound (sc : Scenario) {c : Evm.Client} (hsize : 0 < c.pageSize) :
    (c.adapter sc.rpc).Sound sc Evm.Client.Owns where
  fetch hown := Evm.Client.fetch_unguarded sc hsize hown
  page {cursor jobs next s s'} hown h := by
    obtain ⟨hnext, hforward, hlogs⟩ := Evm.Client.fetch_own hown h
    refine ⟨hnext, hforward, fun j hj => ?_⟩
    obtain ⟨log, rfl⟩ := hlogs j hj
    exact Evm.Client.processLog_unguarded sc c log
  settled {cursor} hown := by
    cases cursor with
    | start => trivial
    | block => trivial
    | transaction => exact hown
  fetch_keeps cursor := (Evm.Client.fetch_keeps sc c cursor).sparesFiles
  process_keeps j := (Evm.Client.process_keeps sc c j).sparesFiles

theorem solana_sound (sc : Scenario) (c : Solana.Client) :
    (c.adapter sc.rpc).Sound sc Solana.Client.Owns where
  fetch hown := Solana.Client.fetch_unguarded sc c hown
  page {cursor jobs next s s'} hown h := by
    obtain ⟨hnext, hforward, htxs⟩ := Solana.Client.fetch_own hown h
    refine ⟨hnext, hforward, fun j hj => ?_⟩
    obtain ⟨tx, rfl⟩ := htxs j hj
    exact FailsAs.within (Solana.Client.processTransaction_unguarded sc c tx)
  settled {cursor} hown := by
    cases cursor with
    | start => trivial
    | block => exact hown
    | transaction => trivial
  fetch_keeps cursor := (Solana.Client.fetch_keeps sc c cursor).sparesFiles
  process_keeps j := (Solana.Client.process_keeps sc c j).sparesFiles

theorem unsupported_sound (sc : Scenario) (network : Network) {μ : Type} :
    (unsupportedAdapter network : Adapter (StateT μ (StateM World))).Sound sc fun _ => True where
  fetch _ := FailsAs.throw rfl
  page {cursor jobs next s s'} _ h := by
    cases (exec_throw (Failure.unsupported "fetching" network.word) s).symm.trans h
  settled _ := trivial
  fetch_keeps _ := Keeps.throw _
  process_keeps _ := Keeps.throw _

theorem sound {fields : Schema.Fields} {o : Options} {client : Client}
    (hoptions : Options.make fields = .ok o) (hbuilt : client.BuiltFrom o) (sc : Scenario) :
    (client.adapter sc.rpc).Sound sc client.Owns := by
  cases client with
  | evm c =>
    obtain ⟨contract, -, hc⟩ := bind_ok hbuilt
    obtain rfl := Except.ok.inj hc
    exact evm_sound sc (Options.pageSize_pos hoptions)
  | solana c => exact solana_sound sc c
  | unsupported network => exact unsupported_sound sc network

/-- Whatever the node answers and whatever breaks down, no step of a client that began with a cursor
of its own, or with none, fails with a guard: the cursor does not move back, the client is handed
only cursors of its kind and jobs that it has fetched, and asks for no range of blocks that is none.
A failure that looks like one of a guard was given from outside. And every page of blocks for which
logs were asked has a greater height behind it. -/
theorem guards_never_met (fields : Schema.Fields) (o : Options) (client : Client) (sc : Scenario)
    (ck : Checkpoint) (files : Files) (turns : List Turn)
    (hoptions : Options.make fields = .ok o) (hbuilt : client.BuiltFrom o)
    (hown : ∀ cursor, ck.stored files = .ok cursor → client.Owns cursor) :
    (∀ visit ∈ (Course.run (sc.indexer ck (client.adapter sc.rpc)) client.fresh files turns).visits,
        ∀ e, visit.result = .error e → e.isGuard = false ∨ sc.Gives e) ∧
      ∀ c, client = .evm c → ∀ cursor jobs next m w m' w' es params answer,
        Act.exec ((c.adapter sc.rpc).fetch cursor) (m, w) = (.ok (jobs, next), m', w') →
        w'.events = w.events ++ es → .asked "eth_getLogs" params answer ∈ es →
        ∃ height height' nonneg, Evm.Client.heightOf cursor = .ok height ∧
          next = .block height' nonneg ∧ height.toInt < height'.toInt := by
  constructor
  · exact (Course.unguarded_run (sound hoptions hbuilt sc) hown client.fresh turns).visits
  · intro c _ cursor jobs next m w m' w' es params answer hfetch hes hasked
    exact Evm.Client.fetch_higher hfetch hes hasked

/-! A run against a fickle node: at first it has no list of logs, then it has one up to block five,
and after a restart of the client the head of its chain is back at block zero. -/

def fickleScenario : Scenario where
  node time method _ :=
    if method = "eth_getLogs" then (if time < 3 then .ok .null else .ok (.list []))
    else .ok (.text (if time < 8 then "0x5" else "0x0"))
  sink _ _ := .accepted
  interrupt _ := none
  breakdown _ := none

def sampleFields : Schema.Fields :=
  [("network", .text "ethereum"), ("rpc_url", .text "http://node"),
    ("contract_address", .text "0x000000000000000000000000000000000000000c")]

def sampleOptions : Options where
  network := .ethereum
  rpcUrl := "http://node"
  contractAddress := "0x000000000000000000000000000000000000000c"
  apiToken := none
  pageSize := 500
  timeout := 30
  maxRetries := 3
  backoffSeconds := 0.5
  backoffCap := 8

def sampleClient : Client :=
  .evm ⟨.ethereum, "0x000000000000000000000000000000000000000c", 500⟩

/-- Without a file the cursor is the start, which is a position of every ledger. -/
theorem owns_of_no_file {client : Client} {ck : Checkpoint} {files : Files}
    (habsent : files.isThere ck.path = false) :
    ∀ cursor, ck.stored files = .ok cursor → client.Owns cursor := by
  intro cursor h
  rw [Checkpoint.stored_absent habsent] at h
  obtain rfl := Except.ok.inj h
  cases client <;> trivial

/-- One step fails and two succeed, none of them with a guard. -/
theorem fickle_unguarded :
    let r := Course.run (fickleScenario.indexer ⟨"cursor"⟩ (sampleClient.adapter fickleScenario.rpc))
      sampleClient.fresh {} [.step, .step, .restart, .step]
    (∀ visit ∈ r.visits, ∀ e, visit.result = .error e →
        e.isGuard = false ∨ fickleScenario.Gives e) ∧
      r.visits.map (·.result.toOption) = [none, some 0, some 0] :=
  ⟨(guards_never_met sampleFields sampleOptions sampleClient fickleScenario ⟨"cursor"⟩ {}
      [.step, .step, .restart, .step] rfl (builtFrom_of_ofOptions rfl) (owns_of_no_file rfl)).1,
    by decide +kernel⟩

end Client

end ChainIndexer
