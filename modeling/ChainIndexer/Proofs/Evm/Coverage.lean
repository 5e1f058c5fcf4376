import ChainIndexer.Proofs.Course
import ChainIndexer.Proofs.Evm.Page

/-!
Indexing a chain skips nothing and repeats nothing. Whatever the head of the chain is said to be,
and wherever steps break down, the ranges of blocks of the steps that have committed follow each
other without a gap from block zero up to the committed height (`course_covers_blocks`); and each of
these steps has handled exactly the live logs of its range and seen all their payloads accepted
before it committed. A range counts as the one that the step has asked the node for. Nothing is said
about how far a step gets, which depends on the head.
-/

namespace ChainIndexer.Evm

open Act

/-- The blocks whose logs were asked for. -/
def askedBlocks (contract : String) : Incident → List Nat
  | .asked "eth_getLogs" params _ => (requestedBlocks? contract params).getD []
  | _ => []

/-- The blocks whose logs a step has asked for, in order. -/
def blocksOf (contract : String) (v : Visit) : List Nat :=
  v.events.flatMap (askedBlocks contract)

/-- The live logs of some blocks as jobs. -/
def liveJobs (chain : Nat → List Value) (blocks : List Nat) : List Job :=
  ((blocks.flatMap chain).filter isLive).map jobOf

/-- A step has handled its range of blocks: all the live logs, each with all its payloads. -/
structure Complete (contract : String) (chain : Nat → List Value) (v : Visit) : Prop where
  range : ∃ first count, blocksOf contract v = List.range' first count
  jobs : v.jobs.Perm (liveJobs chain (blocksOf contract v))
  settles : ∀ j ∈ v.jobs, v.Settles j

/-- A cursor says that the blocks below a height have been consumed. -/
def CursorAt (height : Nat) (cursor : Cursor) : Prop :=
  (cursor = .start ∧ height = 0) ∨ ∃ nonneg, cursor = .block (.number height) nonneg

/-- The stored cursor says that the blocks below a height have been consumed. -/
def AtHeight (ck : Checkpoint) (fs : Files) (height : Nat) : Prop :=
  ∃ cursor, ck.stored fs = .ok cursor ∧ CursorAt height cursor

/-- The logs of a page: the live ones of some blocks, put in order. -/
def IsPage (chain : Nat → List Value) (blocks : List Nat) (ordered : List LogJob) : Prop :=
  ∃ logs live, logs.Perm (blocks.flatMap chain) ∧ Client.liveLogs logs = .ok live ∧
    Client.inOrder live = .ok ordered

theorem askedBlocks_of_lookup {contract : String} {e : Incident} (h : IsLookup e) :
    askedBlocks contract e = [] := by
  cases e with
  | asked method params answer =>
    have hne : method ≠ "eth_getLogs" := by
      rintro rfl
      exact absurd h (by simp [IsLookup])
    unfold askedBlocks
    split
    · rename_i heq
      injection heq with hmethod
      exact absurd hmethod hne
    · rfl
  | _ => exact absurd h (by simp [IsLookup])

/-- A delivery asks for no logs. -/
theorem askedBlocks_of_delivered {contract : String} {S : Job → List Push.Payload → Prop}
    {jobs : List Job} {es : List Incident} (h : Delivered IsLookup S jobs es) :
    es.flatMap (askedBlocks contract) = [] := by
  rw [List.flatMap_eq_nil_iff]
  intro e he
  rcases h.of_mem he with hlookup | ⟨j, payloads, rfl⟩ | ⟨p, rfl⟩
  · exact askedBlocks_of_lookup hlookup
  · rfl
  · rfl

theorem isRequest_of_isLookup {e : Incident} (h : IsLookup e) : IsRequest e := by
  cases e with
  | asked => trivial
  | _ => exact absurd h (by simp [IsLookup])

namespace Client

variable {sc : Scenario} {c : Client} {ck : Checkpoint} {chain : Nat → List Value}
  {m m' : Timestamps} {w w' : World}

theorem processes (sc : Scenario) (c : Client) :
    (c.adapter sc.rpc).Processes (fun _ _ => True) IsLookup fun _ _ => True :=
  ⟨process_keeps sc c, fun _ _ _ _ _ => trivial⟩

theorem isPage_nil (chain : Nat → List Value) : IsPage chain [] [] :=
  ⟨[], [], List.Perm.refl _, rfl, by simp [inOrder, pure, Except.pure, bind, Except.bind]⟩

/-- The jobs of a page are the live logs of its range. -/
theorem jobs_perm {ordered : List LogJob} {blocks : List Nat} (h : IsPage chain blocks ordered) :
    (ordered.map Job.log).Perm (liveJobs chain blocks) := by
  obtain ⟨logs, live, hlogs, hlive, horder⟩ := h
  have hperm := (inOrder_perm horder).map Job.log
  rw [liveLogs_ok hlive, List.map_map] at hperm
  exact hperm.trans ((hlogs.filter isLive).map jobOf)

/-- A cursor at a height stands for this height. -/
theorem heightOf_cursorAt {height : Nat} {cursor : Cursor} (h : CursorAt height cursor) :
    ∃ first, heightOf cursor = .ok first ∧ first.toInt = height := by
  rcases h with ⟨rfl, rfl⟩ | ⟨nonneg, rfl⟩
  · exact ⟨_, rfl, rfl⟩
  · exact ⟨_, rfl, rfl⟩

/-- A cursor at a height is stored as it is. -/
theorem settled_cursorAt {height : Nat} {cursor : Cursor} (h : CursorAt height cursor) :
    cursor.settled = cursor := by
  rcases h with ⟨rfl, -⟩ | ⟨nonneg, rfl⟩
  · rfl
  · rfl

theorem cursorAt_block {height : Nat} {n : Int} {nonneg : 0 ≤ n} (hn : n = height) :
    CursorAt height (.block (.number n) nonneg) := by
  subst hn
  exact Or.inr ⟨nonneg, rfl⟩

/-- A page that was fetched at a height holds the live logs of the blocks from there up to another
height, at which the cursor is behind it; its blocks were asked for. -/
theorem fetch_page (serves : ServesLogs sc.node c.contract chain) {height : Nat}
    {cursor next : Cursor} {jobs : List Job} (hcursor : CursorAt height cursor)
    (h : Act.exec ((c.adapter sc.rpc).fetch cursor) (m, w) = (.ok (jobs, next), m', w')) :
    ∃ count ordered asks, IsPage chain (List.range' height count) ordered ∧
      jobs = ordered.map .log ∧ CursorAt (height + count) next ∧ (∀ e ∈ asks, IsRequest e) ∧
      asks.flatMap (askedBlocks c.contract) = List.range' height count ∧ w.Reaches w' asks := by
  obtain ⟨first, hfirst, hheight⟩ := heightOf_cursorAt hcursor
  obtain ⟨first', answer, head, hfirst', -, ⟨-, rfl, rfl, hreach, -⟩ | hrange⟩ := fetch_ok h
  · exact ⟨0, [], _, isPage_nil chain, rfl, hcursor, by simp [IsRequest], by simp [askedBlocks],
      hreach⟩
  · obtain ⟨last, time, logs, live, ordered, nonneg, -, -, hle, hnode, hlive, horder, rfl, rfl,
      hreach, -⟩ := hrange
    obtain rfl : first = first' := Except.ok.inj (hfirst.symm.trans hfirst')
    obtain ⟨last, rfl⟩ : ∃ l : Nat, last = l := ⟨last.toNat, by omega⟩
    rw [hheight] at hnode hreach hle
    have hrequest := requestedBlocks?_logsRequest c height last
    obtain ⟨logs', heq, hlogs⟩ := serves time _ _ _ hrequest hnode
    cases heq
    refine ⟨last + 1 - height, ordered, _, ⟨logs, live, hlogs, hlive, horder⟩, rfl, ?_,
      by simp [IsRequest], by simp [askedBlocks, hrequest], hreach⟩
    exact cursorAt_block (by omega)

variable {S : Job → List Push.Payload → Prop}

/-- A step that succeeds goes on from the height of the stored cursor to the one that it stores, and
delivers the page of the blocks between the two. -/
theorem step_page (ha : (c.adapter sc.rpc).Processes (fun _ _ => True) IsLookup S)
    (serves : ServesLogs sc.node c.contract chain) {height k : Nat}
    (hat : AtHeight ck w.files height)
    (h : Act.exec (sc.indexer ck (c.adapter sc.rpc)).step (m, w.begun) = (.ok k, m', w')) :
    ∃ count ordered asks es content next, IsPage chain (List.range' height count) ordered ∧
      (∀ e ∈ asks, IsRequest e) ∧
      asks.flatMap (askedBlocks c.contract) = List.range' height count ∧
      Delivered IsLookup S (ordered.map .log) es ∧ w'.events = asks ++ es ++ [.stored content] ∧
      Checkpoint.ofBytes content = .ok next ∧ ck.stored w'.files = .ok next ∧
      CursorAt (height + count) next := by
  obtain ⟨cursor, jobs, next, m₁, w₀, w₁, es, content, hstored, hspared, hfetch, -, hdelivered, -,
    hevents, hcontent, hstored'⟩ := Scenario.step_ok ha h
  obtain ⟨cursor', hstored'', hcursor⟩ := hat
  obtain rfl := Except.ok.inj (hstored''.symm.trans hstored)
  obtain ⟨count, ordered, asks, hpage, rfl, hnext, hasks, hblocks, hreach⟩ :=
    fetch_page serves hcursor hfetch
  have hbegun : w₀.events = [] := hspared.events
  rw [settled_cursorAt hnext] at hcontent hstored'
  rw [hreach.events, hbegun, List.nil_append] at hevents
  exact ⟨count, ordered, asks, es, content, next, hpage, hasks, hblocks, hdelivered, hevents,
    hcontent, hstored', hnext⟩

/-- A step that fails leaves the height, and it has come anywhere in the delivery of such a page. -/
theorem step_broken (ha : (c.adapter sc.rpc).Processes (fun _ _ => True) IsLookup S)
    (serves : ServesLogs sc.node c.contract chain) {height : Nat} {e : Failure}
    (hat : AtHeight ck w.files height)
    (h : Act.exec (sc.indexer ck (c.adapter sc.rpc)).step (m, w.begun) = (.error e, m', w')) :
    ck.stored w'.files = ck.stored w.files ∧ ∃ count ordered,
      IsPage chain (List.range' height count) ordered ∧
      Broken IsRequest S (ordered.map .log) w'.events := by
  have hkept := Scenario.step_error_stored ha (fetch_keeps sc c) h
  refine ⟨hkept, ?_⟩
  rcases Scenario.step_error ha h with ⟨-, hspared⟩ | ⟨cursor, w₀, hstored, hspared, hfetch⟩
  · have hnone : w'.events = [] := hspared.events
    refine ⟨0, [], isPage_nil chain, ?_⟩
    rw [hnone]
    exact .asking (by simp)
  have hbegun : w₀.events = [] := hspared.events
  obtain ⟨cursor', hstored', hcursor⟩ := hat
  obtain rfl := Except.ok.inj (hstored'.symm.trans hstored)
  rcases hfetch with hfetch | ⟨jobs, next, m₁, w₁, es, hfetch, -, hbroken, -, -, hevents⟩
  · obtain ⟨-, asks, hreach, hasks⟩ := (fetch_keeps sc c cursor').of_exec hfetch
    refine ⟨0, [], isPage_nil chain, ?_⟩
    rw [hreach.events, hbegun]
    exact .asking hasks
  · obtain ⟨count, ordered, asks, hpage, rfl, -, hasks, -, hreach⟩ :=
      fetch_page serves hcursor hfetch
    refine ⟨count, ordered, hpage, ?_⟩
    rw [hevents, hreach.events, hbegun, List.nil_append]
    exact (hbroken.mono (fun e => isRequest_of_isLookup) fun _ _ _ => id).behind hasks

/-- A step that succeeds has handled the blocks that it has asked for. -/
theorem step_covers (serves : ServesLogs sc.node c.contract chain) {height k : Nat}
    (hat : AtHeight ck w.files height)
    (h : Act.exec (sc.indexer ck (c.adapter sc.rpc)).step (m, w.begun) = (.ok k, m', w')) :
    ∃ count, blocksOf c.contract ⟨.ok k, w'.events⟩ = List.range' height count ∧
      AtHeight ck w'.files (height + count) ∧
      Complete c.contract chain ⟨.ok k, w'.events⟩ := by
  obtain ⟨count, ordered, asks, es, content, next, hpage, hasks, hasked, hdelivered, hevents, -,
    hstored, hnext⟩ := step_page (processes sc c) serves hat h
  have hblocks : blocksOf c.contract ⟨.ok k, w'.events⟩ = List.range' height count := by
    simp [blocksOf, hevents, hasked, askedBlocks_of_delivered hdelivered, askedBlocks]
  have hjobs : Visit.jobs ⟨.ok k, w'.events⟩ = ordered.map .log := by
    have hes := hdelivered.jobs_eq fun e he => isRequest_of_isLookup he
    simp [Visit.jobs, hevents, jobs_of_requests hasks, hes, Incident.job?]
  refine ⟨count, hblocks, ⟨next, hstored, hnext⟩, ⟨height, count, hblocks⟩, ?_, ?_⟩
  · rw [hjobs, hblocks]
    exact jobs_perm hpage
  · rw [hjobs]
    exact fun j hj => hdelivered.settles hevents hj

theorem step_error_height (serves : ServesLogs sc.node c.contract chain) {height : Nat}
    {e : Failure} (hat : AtHeight ck w.files height)
    (h : Act.exec (sc.indexer ck (c.adapter sc.rpc)).step (m, w.begun) = (.error e, m', w')) :
    AtHeight ck w'.files height := by
  obtain ⟨hstored, -⟩ := step_broken (processes sc c) serves hat h
  unfold AtHeight
  rw [hstored]
  exact hat

/-- The run of a process that indexes the logs of a contract. -/
def course (c : Client) (sc : Scenario) (ck : Checkpoint) (files : Files) (turns : List Turn) :
    Course Timestamps :=
  Course.run (sc.indexer ck (c.adapter sc.rpc)) [] files turns

/-- The invariant of a run: the committed steps have consumed the blocks below the stored height one
after the other, each of them completely. -/
structure Covered (c : Client) (ck : Checkpoint) (chain : Nat → List Value)
    (r : Course Timestamps) : Prop where
  blocks : ∃ height, AtHeight ck r.world.files height ∧
    r.commits.flatMap (blocksOf c.contract) = List.range height
  complete : ∀ v ∈ r.commits, Complete c.contract chain v

theorem covered_step (serves : ServesLogs sc.node c.contract chain) {r : Course Timestamps}
    (h : Covered c ck chain r) :
    Covered c ck chain (r.step (sc.indexer ck (c.adapter sc.rpc))) := by
  obtain ⟨⟨height, hat, htiled⟩, hcomplete⟩ := h
  rcases Course.step_cases (sc.indexer ck (c.adapter sc.rpc)) r with
    ⟨k, m, w, hexec, heq⟩ | ⟨e, m, w, hexec, heq⟩
  · obtain ⟨count, hblocks, hat', hnew⟩ := step_covers serves hat hexec
    rw [heq]
    constructor
    · refine ⟨height + count, hat', ?_⟩
      rw [Course.commits_ok, List.flatMap_append, ← Course.commits, htiled]
      simp [hblocks, List.range_eq_range', ← List.range'_append_1]
    · intro v hv
      rw [Course.commits_ok, List.mem_append, List.mem_singleton] at hv
      rcases hv with hv | rfl
      · exact hcomplete v hv
      · exact hnew
  · rw [heq]
    constructor
    · refine ⟨height, step_error_height serves hat hexec, ?_⟩
      rw [Course.commits_error]
      exact htiled
    · rw [Course.commits_error]
      exact hcomplete

theorem covered_course (serves : ServesLogs sc.node c.contract chain) {files : Files}
    (absent : files.isThere ck.path = false) (turns : List Turn) :
    Covered c ck chain (c.course sc ck files turns) := by
  refine Course.run_induction ?_ ?_ ?_ turns
  · exact ⟨⟨0, ⟨.start, Checkpoint.stored_absent absent, Or.inl ⟨rfl, rfl⟩⟩, rfl⟩,
      by simp [Course.commits]⟩
  · exact fun r hr => covered_step serves hr
  · exact fun r hr => ⟨hr.blocks, hr.complete⟩

/-- Over every run that starts without a committed cursor, the ranges of the committed steps tile
the blocks below the committed height in order, each of these steps has handled its range completely,
and so every live log of these blocks was settled by the step that committed its block. -/
theorem course_covers_blocks (c : Client) (sc : Scenario) (ck : Checkpoint) (files : Files)
    (chain : Nat → List Value) (serves : ServesLogs sc.node c.contract chain)
    (absent : files.isThere ck.path = false) (turns : List Turn) (height : Whole)
    (nonneg : 0 ≤ height.toInt)
    (committed : ck.stored (c.course sc ck files turns).world.files = .ok (.block height nonneg)) :
    (c.course sc ck files turns).commits.flatMap (blocksOf c.contract) =
        List.range height.toInt.toNat ∧
      (∀ v ∈ (c.course sc ck files turns).commits, Complete c.contract chain v) ∧
      ∀ b < height.toInt.toNat, ∀ log ∈ chain b, isLive log = true →
        ∃ v ∈ (c.course sc ck files turns).commits,
          b ∈ blocksOf c.contract v ∧ v.Settles (jobOf log) := by
  obtain ⟨⟨h, ⟨cursor, hstored, hcursor⟩, htiled⟩, hcomplete⟩ := covered_course serves absent turns
  have hheight : height.toInt.toNat = h := by
    obtain rfl := Except.ok.inj (committed.symm.trans hstored)
    obtain ⟨first, hfirst, hh⟩ := heightOf_cursorAt hcursor
    obtain rfl : height = first := Except.ok.inj hfirst
    omega
  rw [hheight]
  refine ⟨htiled, hcomplete, fun b hb log hlog hlive => ?_⟩
  have hmem : b ∈ (c.course sc ck files turns).commits.flatMap (blocksOf c.contract) := by
    rw [htiled]
    exact List.mem_range.mpr hb
  obtain ⟨v, hv, hbv⟩ := List.mem_flatMap.mp hmem
  refine ⟨v, hv, hbv, (hcomplete v hv).settles _ ?_⟩
  rw [(hcomplete v hv).jobs.mem_iff]
  refine List.mem_map_of_mem (List.mem_filter.mpr ⟨?_, hlive⟩)
  exact List.mem_flatMap.mpr ⟨b, hbv, hlog⟩

/-! A run of three steps with a restart before the last one, over a chain whose second block holds a
log. The first step commits block zero, the second one breaks off when the cursor is to be stored,
and the last one commits block one. -/

/-- A log of an event that carries no record. -/
def initializedLog : Value :=
  .object [("blockNumber", .text "0x1"), ("logIndex", .text "0x0"), ("transactionHash", .text "0xab"),
    ("topics", .list [.text "0xd2b214d5e2d2f958eb3b30690fa010715ebfdb9438837a496031fd1d0462e593"])]

def twoBlocks (b : Nat) : List Value :=
  if b = 1 then [initializedLog] else []

/-- A node of this chain, which says for a while that block zero is the head. -/
def twoBlocksNode (time : Nat) (method : String) (params : List Value) : Except Failure Value :=
  if method = "eth_getLogs" then
    match requestedBlocks? "0xc" params with
    | some blocks => .ok (.list (blocks.flatMap twoBlocks))
    | none => .ok .null
  else .ok (.text (if time < 5 then "0x0" else "0x1"))

def twoBlocksScenario : Scenario where
  node := twoBlocksNode
  sink _ _ := .accepted
  interrupt _ := none
  breakdown time := if time = 30 then some ⟨.noSuchFile, 0⟩ else none

theorem twoBlocks_serves : ServesLogs twoBlocksNode "0xc" twoBlocks := by
  intro time params blocks answer hrequest h
  simp only [twoBlocksNode, if_true, hrequest] at h
  exact ⟨_, (Except.ok.inj h).symm, List.Perm.refl _⟩

def twoBlocksClient : Client where
  network := .ethereum
  contract := "0xc"
  pageSize := 5

/-- The run in which block one is handled twice and committed once. -/
theorem twoBlocks_covered :
    let r := twoBlocksClient.course twoBlocksScenario ⟨"cursor"⟩ {} [.step, .step, .restart, .step]
    r.commits.flatMap (blocksOf "0xc") = List.range 2 ∧
      (∀ v ∈ r.commits, Complete "0xc" twoBlocks v) ∧
      ∀ b < 2, ∀ log ∈ twoBlocks b, isLive log = true →
        ∃ v ∈ r.commits, b ∈ blocksOf "0xc" v ∧ v.Settles (jobOf log) :=
  course_covers_blocks twoBlocksClient twoBlocksScenario ⟨"cursor"⟩ {} twoBlocks twoBlocks_serves
    (by decide) [.step, .step, .restart, .step] (.number 2) (by decide)
    (ok_of_toOption (by decide +kernel))

end Client

end ChainIndexer.Evm
