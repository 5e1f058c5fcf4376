import ChainIndexer.Proofs.Solana.Page

/-!
Indexing the transactions of a program skips nothing and repeats nothing. While the ledger grows at
any time, and wherever steps break down, the pages of the steps that have committed are together the
beginning of the ledger, and the committed cursor is its end (`course_covers_ledger`); each
transaction of a page that did not fail was handled, and its payloads were accepted, in the step
that committed the page. Pages are read off the account of a client that tells them.
-/

namespace ChainIndexer.Solana

open Act

/-- The entries of a page that was taken. -/
def pagedEntries : Incident → List Entry
  | .paged entries => entries
  | _ => []

/-- The entries of the page of a step. -/
def pageOf (v : Visit) : List Entry :=
  v.events.flatMap pagedEntries

/-- The job of an entry. -/
def jobOf (e : Entry) : Job :=
  .transaction ⟨e.signature, e.slot⟩

namespace Client

/-- The transactions of a program as a ledger that tells which pages are taken from it. -/
def telling (c : Client) (sc : Scenario) : Adapter (StateT Backlog (StateM World)) where
  fetch cursor := do
    let (page, next) ← c.takePage sc.rpc cursor
    Act.within (Scenario.tell (.paged page))
    return ((jobsOf page).map .transaction, next)
  process := (c.adapter sc.rpc).process

variable {sc : Scenario} {c : Client} {ck : Checkpoint} {b b' : Backlog} {w w' : World}
  {ledger : Nat → List Record}

theorem exec_fetch_telling (c : Client) (sc : Scenario) (cursor : Cursor) (b : Backlog)
    (w : World) :
    Act.exec ((c.telling sc).fetch cursor) (b, w) =
      match Act.exec (c.takePage sc.rpc cursor) (b, w) with
      | (.ok (page, next), b', w') =>
        (.ok ((jobsOf page).map .transaction, next), b',
          { w' with events := w'.events ++ [.paged page] })
      | (.error e, s) => (.error e, s) := by
  rcases htake : Act.exec (c.takePage sc.rpc cursor) (b, w) with ⟨r, b', w'⟩
  cases r with
  | error e => exact exec_bind_of_error htake _
  | ok p => exact exec_bind_of_ok htake _

theorem processes (sc : Scenario) (c : Client) :
    (c.telling sc).Processes (fun s s' => s' = s) IsRequest fun _ _ => True :=
  ⟨process_keeps sc c, fun _ _ _ _ _ => trivial⟩

theorem pagedEntries_of_request {e : Incident} (h : IsRequest e) : pagedEntries e = [] := by
  cases e with
  | asked => rfl
  | _ => exact absurd h (by simp [IsRequest])

/-- Requests tell of no page. -/
theorem pagedEntries_of_requests {es : List Incident} (h : ∀ e ∈ es, IsRequest e) :
    es.flatMap pagedEntries = [] :=
  List.flatMap_eq_nil_iff.mpr fun e he => pagedEntries_of_request (h e he)

/-- A delivery tells of no page. -/
theorem pagedEntries_of_delivered {S : Job → List Push.Payload → Prop} {jobs : List Job}
    {es : List Incident} (h : Delivered IsRequest S jobs es) : es.flatMap pagedEntries = [] := by
  rw [List.flatMap_eq_nil_iff]
  intro e he
  rcases h.of_mem he with hrequest | ⟨j, payloads, rfl⟩ | ⟨p, rfl⟩
  · exact pagedEntries_of_request hrequest
  · rfl
  · rfl

theorem settled_cursorBehind (rs : List Record) : (cursorBehind rs).settled = cursorBehind rs := by
  unfold cursorBehind
  cases rs.getLast? <;> rfl

/-- What a run has come to: the transactions that are consumed are a beginning of the ledger, the
stored cursor is behind them, and the backlog fits the ledger. -/
structure Stands (ck : Checkpoint) (ledger : Nat → List Record) (b : Backlog) (w : World)
    (consumed : List Record) : Prop where
  beginning : consumed <+: ledger w.clock
  stored : ck.stored w.files = .ok (cursorBehind consumed)
  fits : b.Fits (ledger w.clock)

/-- A step of which the transactions that did not fail were settled. -/
def SettlesPage (v : Visit) : Prop :=
  ∀ e ∈ pageOf v, e.err.isNull = true → v.Settles (jobOf e)

/-- Where a run stands does not change while time goes by and the file of the cursor is left. -/
theorem Stands.later (grows : Grows ledger) {consumed : List Record}
    (h : Stands ck ledger b w consumed) (hclock : w.clock ≤ w'.clock)
    (hlookup : w'.files.lookup ck.path = w.files.lookup ck.path) : Stands ck ledger b w' consumed :=
  ⟨h.beginning.trans (grows.later hclock), (Checkpoint.stored_congr hlookup).trans h.stored,
    h.fits.mono (grows.later hclock)⟩

/-- Fetching a page from where a run stands leaves it there, and the page comes right behind. -/
theorem fetch_stands (grows : Grows ledger) (serves : ServesSignatures sc.node c.program ledger)
    {consumed : List Record} {r : Except Failure (List Job × Cursor)}
    (hstands : Stands ck ledger b w consumed)
    (h : Act.exec ((c.telling sc).fetch (cursorBehind consumed)) (b, w) = (r, b', w')) :
    Stands ck ledger b' w' consumed ∧ World.Tells IsSilent w w' ∧
      ∀ jobs next, r = .ok (jobs, next) → ∃ taken asks,
        consumed ++ taken <+: ledger w'.clock ∧ next = cursorBehind (consumed ++ taken) ∧
        jobs = (jobsOf (taken.map Record.entry)).map .transaction ∧ (∀ e ∈ asks, IsRequest e) ∧
        w'.events = w.events ++ asks ++ [.paged (taken.map Record.entry)] := by
  obtain ⟨after, hafter⟩ := hstands.beginning
  rw [exec_fetch_telling] at h
  rcases htake : Act.exec (c.takePage sc.rpc (cursorBehind consumed)) (b, w) with ⟨r', b₁, w₁⟩
  obtain ⟨⟨asks, hreach, hasks⟩, hfits, hpage⟩ :=
    takePage_spec grows serves hstands.fits hafter.symm htake
  have hstands₁ : Stands ck ledger b₁ w₁ consumed :=
    ⟨hstands.beginning.trans (grows.later hreach.clock),
      by rw [hreach.files, hstands.stored], hfits⟩
  have hsilent : World.Tells IsSilent w w₁ :=
    ⟨asks, hreach, fun e he => isSilent_of_isRequest (hasks e he)⟩
  rw [htake] at h
  cases r' with
  | error e =>
    cases h
    exact ⟨hstands₁, hsilent, fun jobs next heq => by cases heq⟩
  | ok p =>
    obtain ⟨taken, rest, hledger, hentries, hnext⟩ := hpage p.1 p.2 rfl
    cases h
    have htold : World.Tells IsSilent w₁ { w₁ with events := w₁.events ++ [.paged p.1] } :=
      ⟨[.paged p.1], ⟨Nat.le_refl _, rfl, rfl⟩, by simp [IsSilent]⟩
    refine ⟨⟨hstands₁.beginning, hstands₁.stored, hstands₁.fits⟩, Lasting.trans hsilent htold, ?_⟩
    intro jobs next heq
    cases heq
    refine ⟨taken, asks, ?_, hnext, by rw [hentries], hasks, ?_⟩
    · have htaken : consumed ++ taken <+: ledger w.clock := ⟨rest, hledger.symm⟩
      exact htaken.trans (grows.later hreach.clock)
    · rw [← hentries, ← hreach.events]

/-- The jobs of a page of transactions. -/
def jobsIn (taken : List Record) : List Job :=
  (jobsOf (taken.map Record.entry)).map .transaction

variable {S : Job → List Push.Payload → Prop}

/-- A step that succeeds takes the page right behind what is consumed, delivers its jobs and then
stores the cursor behind the page. -/
theorem step_page (ha : (c.telling sc).Processes (fun s s' => s' = s) IsRequest S)
    (grows : Grows ledger) (serves : ServesSignatures sc.node c.program ledger) {k : Nat}
    {consumed : List Record} (hstands : Stands ck ledger b w consumed)
    (h : Act.exec (sc.indexer ck (c.telling sc)).step (b, w.begun) = (.ok k, b', w')) :
    ∃ taken asks es content, (∀ e ∈ asks, IsRequest e) ∧
      Delivered IsRequest S (jobsIn taken) es ∧
      w'.events = asks ++ [.paged (taken.map Record.entry)] ++ es ++ [.stored content] ∧
      Checkpoint.ofBytes content = .ok (cursorBehind (consumed ++ taken)) ∧
      Stands ck ledger b' w' (consumed ++ taken) ∧ w.clock ≤ w'.clock := by
  obtain ⟨cursor, jobs, next, b₁, w₀, w₁, es, content, hstored, hspared, hfetch, hkept, hdelivered,
    hclock, hevents, hcontent, hstored'⟩ := Scenario.step_ok ha h
  obtain rfl := Except.ok.inj (hstored.symm.trans hstands.stored)
  have hstands₀ := hstands.later grows hspared.clock hspared.lookup
  obtain ⟨hstands₁, ⟨told, hreach, -⟩, hpage⟩ := fetch_stands grows serves hstands₀ hfetch
  obtain ⟨taken, asks, htaken, rfl, rfl, hasks, hfetched⟩ := hpage _ _ rfl
  have hbegun : w₀.events = [] := hspared.events
  rw [hfetched, hbegun, List.nil_append] at hevents
  rw [settled_cursorBehind] at hcontent hstored'
  refine ⟨taken, asks, es, content, hasks, hdelivered, hevents, hcontent,
    ⟨htaken.trans (grows.later hclock), hstored', ?_⟩, ?_⟩
  · rw [hkept]
    exact hstands₁.fits.mono (grows.later hclock)
  · exact Nat.le_trans hspared.clock (Nat.le_trans hreach.clock hclock)

/-- A step that fails leaves the run where it stood, and it has come anywhere in the delivery of a
page right behind what is consumed. -/
theorem step_broken (ha : (c.telling sc).Processes (fun s s' => s' = s) IsRequest S)
    (grows : Grows ledger) (serves : ServesSignatures sc.node c.program ledger) {e : Failure}
    {consumed : List Record} (hstands : Stands ck ledger b w consumed)
    (h : Act.exec (sc.indexer ck (c.telling sc)).step (b, w.begun) = (.error e, b', w')) :
    Stands ck ledger b' w' consumed ∧ w.clock ≤ w'.clock ∧ ∃ taken,
      consumed ++ taken <+: ledger w'.clock ∧ Broken IsSilent S (jobsIn taken) w'.events := by
  rcases Scenario.step_error ha h with ⟨rfl, hspared⟩ | ⟨cursor, w₀, hstored, hspared, hfetch⟩
  · have hstands' := hstands.later grows hspared.clock hspared.lookup
    have hnone : w'.events = [] := hspared.events
    refine ⟨hstands', hspared.clock, [], ?_, ?_⟩
    · rw [List.append_nil]
      exact hstands'.beginning
    · rw [hnone]
      exact .asking (by simp)
  obtain rfl := Except.ok.inj (hstored.symm.trans hstands.stored)
  have hstands₀ := hstands.later grows hspared.clock hspared.lookup
  have hbegun : w₀.events = [] := hspared.events
  rcases hfetch with hfetch | ⟨jobs, next, b₁, w₁, es, hfetch, rfl, hbroken, hclock, hlookup, hevents⟩
  · obtain ⟨hstands', ⟨asks, hreach, hasks⟩, -⟩ := fetch_stands grows serves hstands₀ hfetch
    refine ⟨hstands', Nat.le_trans hspared.clock hreach.clock, [], ?_, ?_⟩
    · rw [List.append_nil]
      exact hstands'.beginning
    · rw [hreach.events, hbegun]
      exact .asking hasks
  · obtain ⟨hstands', ⟨told, hreach, htold⟩, hpage⟩ := fetch_stands grows serves hstands₀ hfetch
    obtain ⟨taken, asks, htaken, -, rfl, -, -⟩ := hpage _ _ rfl
    refine ⟨hstands'.later grows hclock hlookup,
      Nat.le_trans hspared.clock (Nat.le_trans hreach.clock hclock), taken,
      htaken.trans (grows.later hclock), ?_⟩
    rw [hevents, hreach.events, hbegun, List.nil_append]
    exact (hbroken.mono (fun e => isSilent_of_isRequest) fun _ _ _ => id).behind htold

/-- A step that succeeds consumes its page. -/
theorem step_consumes (grows : Grows ledger) (serves : ServesSignatures sc.node c.program ledger)
    {k : Nat} {consumed : List Record} (hstands : Stands ck ledger b w consumed)
    (h : Act.exec (sc.indexer ck (c.telling sc)).step (b, w.begun) = (.ok k, b', w')) :
    ∃ taken, pageOf ⟨.ok k, w'.events⟩ = taken.map Record.entry ∧
      Stands ck ledger b' w' (consumed ++ taken) ∧ SettlesPage ⟨.ok k, w'.events⟩ := by
  obtain ⟨taken, asks, es, content, hasks, hdelivered, hevents, -, hstands', -⟩ :=
    step_page (processes sc c) grows serves hstands h
  have hpageOf : pageOf ⟨.ok k, w'.events⟩ = taken.map Record.entry := by
    simp [pageOf, hevents, pagedEntries_of_requests hasks, pagedEntries_of_delivered hdelivered,
      pagedEntries]
  refine ⟨taken, hpageOf, hstands', fun e he herr => ?_⟩
  rw [hpageOf] at he
  refine hdelivered.settles hevents ?_
  refine List.mem_map_of_mem ?_
  exact List.mem_map_of_mem (List.mem_filter.mpr ⟨he, herr⟩)

/-- The run of a process that indexes the transactions of a program. -/
def course (c : Client) (sc : Scenario) (ck : Checkpoint) (files : Files) (turns : List Turn) :
    Course Backlog :=
  Course.run (sc.indexer ck (c.telling sc)) {} files turns

/-- The invariant of a run: the pages of the committed steps are what is consumed. -/
structure Covered (ck : Checkpoint) (ledger : Nat → List Record) (r : Course Backlog) : Prop where
  pages : ∃ consumed, Stands ck ledger r.memory r.world consumed ∧
    r.commits.flatMap pageOf = consumed.map Record.entry
  settles : ∀ v ∈ r.commits, SettlesPage v

theorem covered_step (grows : Grows ledger) (serves : ServesSignatures sc.node c.program ledger)
    {r : Course Backlog} (h : Covered ck ledger r) :
    Covered ck ledger (r.step (sc.indexer ck (c.telling sc))) := by
  obtain ⟨⟨consumed, hstands, hpages⟩, hsettles⟩ := h
  rcases Course.step_cases (sc.indexer ck (c.telling sc)) r with
    ⟨k, b, w, hexec, heq⟩ | ⟨e, b, w, hexec, heq⟩
  · obtain ⟨taken, hpage, hstands', hnew⟩ := step_consumes grows serves hstands hexec
    rw [heq]
    constructor
    · refine ⟨consumed ++ taken, hstands', ?_⟩
      rw [Course.commits_ok, List.flatMap_append, ← Course.commits, hpages]
      simp [hpage]
    · intro v hv
      rw [Course.commits_ok, List.mem_append, List.mem_singleton] at hv
      rcases hv with hv | rfl
      · exact hsettles v hv
      · exact hnew
  · rw [heq]
    constructor
    · refine ⟨consumed, (step_broken (processes sc c) grows serves hstands hexec).1, ?_⟩
      rw [Course.commits_error]
      exact hpages
    · rw [Course.commits_error]
      exact hsettles

theorem covered_restart {r : Course Backlog} (h : Covered ck ledger r) :
    Covered ck ledger (r.restart {}) := by
  obtain ⟨⟨consumed, hstands, hpages⟩, hsettles⟩ := h
  exact ⟨⟨consumed, ⟨hstands.beginning, hstands.stored, Backlog.fits_empty _⟩, hpages⟩, hsettles⟩

theorem covered_course (grows : Grows ledger) (serves : ServesSignatures sc.node c.program ledger)
    {files : Files} (absent : files.isThere ck.path = false) (turns : List Turn) :
    Covered ck ledger (c.course sc ck files turns) := by
  refine Course.run_induction ?_ ?_ ?_ turns
  · refine ⟨⟨[], ⟨List.nil_prefix, ?_, Backlog.fits_empty _⟩, rfl⟩, by simp [Course.commits]⟩
    exact Checkpoint.stored_absent absent
  · exact fun r hr => covered_step grows serves hr
  · exact fun r hr => covered_restart hr

/-- Over every run that starts without a committed cursor, the pages of the committed steps are
together a beginning of the ledger, the committed cursor is the one behind it, and every transaction
of it that did not fail was settled in the step that committed it. -/
theorem course_covers_ledger (c : Client) (sc : Scenario) (ck : Checkpoint) (files : Files)
    (ledger : Nat → List Record) (grows : Grows ledger)
    (serves : ServesSignatures sc.node c.program ledger)
    (absent : files.isThere ck.path = false) (turns : List Turn) :
    ∃ consumed, consumed <+: ledger (c.course sc ck files turns).world.clock ∧
      (c.course sc ck files turns).commits.flatMap pageOf = consumed.map Record.entry ∧
      ck.stored (c.course sc ck files turns).world.files = .ok (cursorBehind consumed) ∧
      ∀ v ∈ (c.course sc ck files turns).commits, ∀ e ∈ pageOf v, e.err.isNull = true →
        v.Settles (jobOf e) := by
  obtain ⟨⟨consumed, hstands, hpages⟩, hsettles⟩ := covered_course grows serves absent turns
  exact ⟨consumed, hstands.beginning, hpages, hstands.stored, hsettles⟩

/-! A run over a ledger of three transactions, of which the node knows only the first one at the
beginning. The second transaction has failed. The first step commits a page of one transaction, the
second one breaks off when the cursor is to be stored, and the last one commits the other two. -/

/-- A transaction with a signature. -/
def sampleRecord (signature : String) (nonempty : signature ≠ "") (err : Value) : Record :=
  ⟨signature, nonempty, .int 7, err⟩

def sampleLedger (time : Nat) : List Record :=
  let first := sampleRecord "a" (by decide) .null
  if time < 5 then [first]
  else [first, sampleRecord "b" (by decide) (.text "failed"), sampleRecord "c" (by decide) .null]

def sampleNode (time : Nat) (method : String) (params : List Value) : Except Failure Value :=
  if method = "getSignaturesForAddress" then
    match listing? "P" params with
    | some listing => .ok (.list ((listed (sampleLedger time) listing).map Record.value))
    | none => .ok .null
  else .ok (.object [("meta", .object [("err", .text "unknown")])])

def sampleScenario : Scenario where
  node := sampleNode
  sink _ _ := .accepted
  interrupt _ := none
  breakdown time := if time = 30 then some ⟨.noSuchFile, 0⟩ else none

def sampleClient : Client where
  network := .solana
  program := "P"
  pageSize := 2

theorem sampleLedger_grows : Grows sampleLedger := by
  constructor
  · intro t t' ht
    unfold sampleLedger
    by_cases hlate : t < 5
    · by_cases hlater : t' < 5
      · simp [hlate, hlater]
      · simp [hlate, hlater]
    · have hlater : ¬ t' < 5 := by omega
      simp [hlate, hlater]
  · intro t
    unfold sampleLedger
    split <;> simp [sampleRecord]

theorem sampleNode_serves : ServesSignatures sampleNode "P" sampleLedger := by
  refine servesSignatures_of_listed sampleLedger_grows fun time params listing hlisting => ?_
  simp only [sampleNode, if_true, hlisting]

/-- The run in which the second page is handled twice and committed once. -/
theorem sample_covered :
    let r := sampleClient.course sampleScenario ⟨"cursor"⟩ {} [.step, .step, .restart, .step]
    (∃ consumed, consumed <+: sampleLedger r.world.clock ∧
      r.commits.flatMap pageOf = consumed.map Record.entry ∧
      (⟨"cursor"⟩ : Checkpoint).stored r.world.files = .ok (cursorBehind consumed) ∧
      ∀ v ∈ r.commits, ∀ e ∈ pageOf v, e.err.isNull = true → v.Settles (jobOf e)) ∧
    (⟨"cursor"⟩ : Checkpoint).stored r.world.files = .ok (.transaction "c" (by decide)) :=
  ⟨course_covers_ledger sampleClient sampleScenario ⟨"cursor"⟩ {} sampleLedger sampleLedger_grows
    sampleNode_serves (by decide) [.step, .step, .restart, .step],
    ok_of_toOption (by decide +kernel)⟩

end Client

end ChainIndexer.Solana
