import ChainIndexer.Proofs.Evm.Arrangement
import ChainIndexer.Proofs.Evm.Coverage
import ChainIndexer.Proofs.Smooth

/-!
Catching up with a chain that stands still. As long as steps succeed, the pages of a process that
starts without a cursor are the ranges of one size from block zero on, the last of them cut off at
the head, and behind the head no more logs are asked for. `Paced` is the closed form of such a run;
`paced_step` carries it over a step, whatever the logs are that the node answers with. Steps do
succeed in a smooth world whose node answers every request for a range up to the head with logs that
can be processed (`succeeds_steps`).
-/

namespace ChainIndexer.Evm

open Act

/-- The parameters of a request for logs. -/
def logsRequest? : Incident → Option (List Value)
  | .asked "eth_getLogs" params _ => some params
  | _ => none

/-- The requests for logs that a step has made. -/
def logsRequests (v : Visit) : List (List Value) :=
  v.events.filterMap logsRequest?

/-- Whatever head the node tells, it is the same one. -/
def StandsStill (sc : Scenario) (head : Nat) : Prop :=
  ∀ time answer told, TellsHead sc time answer told → told = head

theorem logsRequest?_of_lookup {e : Incident} (h : IsLookup e) : logsRequest? e = none := by
  cases e with
  | asked method params answer =>
    rcases h with rfl | rfl
    · rfl
    · rfl
  | _ => rfl

/-- A delivery asks for no logs. -/
theorem logsRequests_of_delivered {S : Job → List Push.Payload → Prop} {jobs : List Job}
    {es : List Incident} (h : Delivered IsLookup S jobs es) : es.filterMap logsRequest? = [] := by
  rw [List.filterMap_eq_nil_iff]
  intro e he
  rcases h.of_mem he with hlookup | ⟨j, payloads, rfl⟩ | ⟨p, rfl⟩
  · exact logsRequest?_of_lookup hlookup
  · rfl
  · rfl

namespace Client

/-- The request for logs in the step of a number, of which there is none behind the head. -/
def requestOf (c : Client) (size head i : Nat) : List (List Value) :=
  if i * size ≤ head then
    [c.logsRequest (i * size : Nat) (min ((i + 1) * size - 1) head : Nat)]
  else []

/-- What a number of steps have come to: the blocks of so many pages are consumed, or all blocks up
to the head, and each step has asked for the logs of its own page. -/
structure Paced (c : Client) (ck : Checkpoint) (size head k : Nat) (r : Course Timestamps) :
    Prop where
  height : AtHeight ck r.world.files (min (k * size) (head + 1))
  requests : r.visits.map logsRequests = (List.range k).map (c.requestOf size head)

variable {sc : Scenario} {c : Client} {ck : Checkpoint} {m m' : Timestamps} {w w' : World}
  {size head : Nat}

theorem cursorAt_number {height : Nat} {cursor : Cursor} (h : CursorAt height cursor)
    (hpos : 0 < height) : ∃ nonneg, cursor = .block (.number height) nonneg := by
  rcases h with ⟨-, rfl⟩ | hblock
  · cases hpos
  · exact hblock

/-- The page of the step of a number: it asks for the logs of its range, if that begins below the
head or at it, and the cursor behind it is the one of the next number. -/
theorem fetch_paced (hsize : c.pageSize = size) (hpos : 1 ≤ size) (still : StandsStill sc head)
    {i : Nat} {cursor next : Cursor} {jobs : List Job}
    (hcursor : CursorAt (min (i * size) (head + 1)) cursor)
    (h : Act.exec ((c.adapter sc.rpc).fetch cursor) (m, w) = (.ok (jobs, next), m', w')) :
    CursorAt (min ((i + 1) * size) (head + 1)) next ∧
      ∃ asks, w.Reaches w' asks ∧ asks.filterMap logsRequest? = c.requestOf size head i := by
  obtain ⟨first, hfirst, hheight⟩ := heightOf_cursorAt hcursor
  have hnext : (i + 1) * size = i * size + size := Nat.succ_mul i size
  obtain ⟨first', answer, told, hfirst', htells, hpage⟩ := fetch_ok h
  obtain rfl : first = first' := Except.ok.inj (hfirst.symm.trans hfirst')
  obtain rfl := still _ _ _ htells
  -- the height is that of so many full pages as long as it is not behind the head
  rcases hpage with ⟨hbelow, rfl, rfl, hreach, -⟩ | hrange
  · have hbehind : ¬ i * size ≤ head := by omega
    have hsame : min ((i + 1) * size) (head + 1) = min (i * size) (head + 1) := by omega
    refine ⟨?_, _, hreach, ?_⟩
    · rw [hsame]
      exact hcursor
    · rw [requestOf, if_neg hbehind]
      rfl
  · obtain ⟨last, time, logs, live, ordered, nonneg, hlast, -, hle, -, -, -, rfl, rfl, hreach, -⟩ :=
      hrange
    unfold lastBlock at hlast
    have hwithin : i * size ≤ head := by omega
    have hstart : first.toInt = (i * size : Nat) := by omega
    have hend : last = (min ((i + 1) * size - 1) head : Nat) := by omega
    refine ⟨cursorAt_block (by omega), _, hreach, ?_⟩
    rw [requestOf, if_pos hwithin, hstart, hend]
    simp [logsRequest?]

/-- A step that succeeds keeps pace. -/
theorem paced_step (hsize : c.pageSize = size) (hpos : 1 ≤ size) (still : StandsStill sc head)
    {i k : Nat} {r : Course Timestamps} (h : Paced c ck size head i r)
    (hexec : Act.exec (sc.indexer ck (c.adapter sc.rpc)).step (r.memory, r.world.begun) =
      (.ok k, m, w)) :
    Paced c ck size head (i + 1) ⟨m, w, r.visits ++ [⟨.ok k, w.events⟩]⟩ := by
  obtain ⟨cursor, jobs, next, m₁, w₀, w₁, es, content, hstored, hspared, hfetch, -, hdelivered, -,
    hevents, -, hstored'⟩ := Scenario.step_ok (processes sc c) hexec
  obtain ⟨⟨cursor', hstored'', hcursor⟩, hrequests⟩ := h
  obtain rfl := Except.ok.inj (hstored''.symm.trans hstored)
  obtain ⟨hnext, asks, hreach, hasked⟩ := fetch_paced hsize hpos still hcursor hfetch
  have hbegun : w₀.events = [] := hspared.events
  rw [settled_cursorAt hnext] at hstored'
  have hnew : logsRequests ⟨.ok k, w.events⟩ = c.requestOf size head i := by
    simp [logsRequests, hevents, hreach.events, hbegun, hasked,
      logsRequests_of_delivered hdelivered, logsRequest?]
  exact ⟨⟨next, hstored', hnext⟩, Course.map_visits_succ hrequests hnew⟩

theorem paced_start {files : Files} (absent : files.isThere ck.path = false) :
    Paced c ck size head 0 ⟨[], { files }, []⟩ where
  height := by
    refine ⟨.start, Checkpoint.stored_absent absent, Or.inl ⟨rfl, ?_⟩⟩
    rw [Nat.zero_mul, Nat.zero_min]
  requests := rfl

/-- A node that tells a head and answers each request for a range of blocks up to it with logs whose
places can be read and of which the live ones can be processed. -/
structure Obliging (sc : Scenario) (c : Client) (head : Nat) : Prop where
  tells : ∀ time, ∃ answer, TellsHead sc time answer head
  logs : ∀ time (first last : Nat), first ≤ last → last ≤ head →
    ∃ logs, sc.node time "eth_getLogs" (c.logsRequest first last) = .ok (.list logs) ∧
      Readable logs ∧ ∀ log ∈ logs, isLive log = true → (c.adapter sc.rpc).Handles (jobOf log)

/-- From such a node a page can be fetched at every height, and its jobs can be processed. -/
theorem fetch_obliging (obliging : Obliging sc c head) (hpos : 1 ≤ c.pageSize)
    (writable : Numeral.isWritable (head + 1 : Nat) = true) {height : Nat} (hle : height ≤ head + 1)
    {cursor : Cursor} (hcursor : CursorAt height cursor) (m : Timestamps) (w : World) :
    ∃ jobs next m₁ w₁,
      Act.exec ((c.adapter sc.rpc).fetch cursor) (m, w) = (.ok (jobs, next), m₁, w₁) ∧
      w₁.files = w.files ∧ (∀ j ∈ jobs, (c.adapter sc.rpc).Handles j) ∧ next.Follows cursor ∧
      next.isWritable = true := by
  obtain ⟨first, hfirst, hheight⟩ := heightOf_cursorAt hcursor
  obtain ⟨answer, htells⟩ := obliging.tells w.clock
  by_cases hhead : (head : Int) < first.toInt
  · refine ⟨[], cursor, _, _, exec_fetch_idle hfirst hhead htells, rfl, by simp,
      Cursor.follows_iff.mpr (Cursor.regresses_self cursor), ?_⟩
    rcases hcursor with ⟨rfl, -⟩ | ⟨nonneg, rfl⟩
    · rfl
    · refine Numeral.isWritable_of_le ?_ writable
      change (height : Int).natAbs ≤ _
      omega
  · obtain ⟨last, hlast⟩ : ∃ last : Nat, c.lastBlock first.toInt head = last := by
      refine Int.eq_ofNat_of_zero_le ?_
      unfold lastBlock
      omega
    have hrange : height ≤ last ∧ last ≤ head := by
      unfold lastBlock at hlast
      omega
    obtain ⟨logs, hlogs, hreadable, hhandles⟩ := obliging.logs (w.clock + 1) height last hrange.1
      hrange.2
    rw [← hheight, ← hlast] at hlogs
    obtain ⟨nonneg, hexec⟩ := exec_fetch_range hpos hfirst (by omega) hreadable sc m w answer htells
      hlogs
    refine ⟨_, _, _, _, hexec, rfl, ?_, ?_, ?_⟩
    · intro j hj
      obtain ⟨log, hlog, rfl⟩ := List.mem_map.mp hj
      obtain ⟨hmem, hlive⟩ := List.mem_filter.mp ((arranges_arranged logs).same.mem_iff.mp hlog)
      exact hhandles log hmem hlive
    · rcases hcursor with ⟨rfl, -⟩ | ⟨hnonneg, rfl⟩
      · trivial
      · change (height : Int) ≤ c.lastBlock first.toInt head + 1
        omega
    · refine Numeral.isWritable_of_le ?_ writable
      change (c.lastBlock first.toInt head + 1).natAbs ≤ _
      omega

/-- What a run has come to after a number of steps, of which there was at least one. -/
structure CaughtUp (c : Client) (ck : Checkpoint) (size head k : Nat) (r : Course Timestamps) :
    Prop where
  stored : ∃ nonneg, ck.stored r.world.files =
    .ok (.block (.number (min (k * size) (head + 1) : Nat)) nonneg)
  requests : r.visits.map logsRequests = (List.range k).map (c.requestOf size head)

/-- A run of steps that all succeed has kept pace. -/
theorem caughtUp_course (hsize : c.pageSize = size) (hpos : 1 ≤ size) (still : StandsStill sc head)
    {files : Files} (absent : files.isThere ck.path = false) {k : Nat} (hk : 1 ≤ k)
    (h : (c.course sc ck files (List.replicate k .step)).Succeeds) :
    c.CaughtUp ck size head k (c.course sc ck files (List.replicate k .step)) := by
  have hpaced : Paced c ck size head k (c.course sc ck files (List.replicate k .step)) :=
    Course.steps_induction (I := Paced c ck size head) (paced_start absent)
      (fun _ _ _ _ _ hr hexec => paced_step hsize hpos still hr hexec) h
  obtain ⟨cursor, hstored, hcursor⟩ := hpaced.height
  have hconsumed : 1 ≤ k * size := Nat.mul_pos hk hpos
  obtain ⟨nonneg, rfl⟩ := cursorAt_number hcursor (by omega)
  exact ⟨⟨nonneg, hstored⟩, hpaced.requests⟩

/-- In a smooth world with an obliging node all steps succeed. -/
theorem succeeds_course (hsize : c.pageSize = size) (hpos : 1 ≤ size) (still : StandsStill sc head)
    {files : Files} (absent : files.isThere ck.path = false) (smooth : sc.Smooth)
    (takes : ck.Takes files) (obliging : Obliging sc c head)
    (writable : Numeral.isWritable (head + 1 : Nat) = true) (k : Nat) :
    (c.course sc ck files (List.replicate k .step)).Succeeds := by
  refine Course.succeeds_steps (I := fun k r => Paced c ck size head k r ∧ ck.Takes r.world.files)
    ⟨paced_start absent, takes⟩ ?_ ?_ k
  · exact fun _ _ _ _ _ hr hexec =>
      ⟨paced_step hsize hpos still hr.1 hexec, Scenario.step_takes hexec⟩
  · intro i r hr
    obtain ⟨cursor, hstored, hcursor⟩ := hr.1.height
    refine Scenario.step_smooth (processes sc c) smooth hr.2 hstored fun w₀ => ?_
    exact fetch_obliging obliging (by omega) writable (Nat.min_le_right _ _) hcursor _ w₀

end Client

end ChainIndexer.Evm
