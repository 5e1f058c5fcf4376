import ChainIndexer.Proofs.Smooth
import ChainIndexer.Proofs.Solana.Coverage

/-!
Catching up with a ledger that does not grow. As long as steps succeed, the pages of a process that
starts without a cursor are the groups of one size, the oldest transactions first. The first step
walks over all signatures and leaves what it does not take as the backlog; each later step takes its
page off the backlog without asking for signatures, until nothing is left and each step walks anew
and finds nothing. `Paced` is the closed form of such a run, and `remaining` the backlog that goes
with the committed cursor, which is what makes `paced_step` go through. Steps do succeed in a smooth
world whose node lists signatures whenever it is asked and whose transactions can be processed.
-/

namespace ChainIndexer.Solana

open Act

/-- Whether an incident is a request for signatures. -/
def isListing : Incident → Bool
  | .asked "getSignaturesForAddress" _ _ => true
  | _ => false

/-- Whether a step has asked for signatures. -/
def listsSignatures (v : Visit) : Bool :=
  v.events.any isListing

/-- A request for a transaction or for an account. -/
def IsInquiry : Incident → Prop
  | .asked method _ _ => method = "getTransaction" ∨ method = "getAccountInfo"
  | _ => False

theorem isRequest_of_isInquiry {e : Incident} (h : IsInquiry e) : IsRequest e := by
  cases e with
  | asked => trivial
  | _ => exact h.elim

theorem isListing_of_isInquiry {e : Incident} (h : IsInquiry e) : isListing e = false := by
  cases e with
  | asked method params answer =>
    rcases h with rfl | rfl
    · rfl
    · rfl
  | _ => rfl

/-- A delivery does not ask for signatures. -/
theorem any_isListing_of_delivered {S : Job → List Push.Payload → Prop} {jobs : List Job}
    {es : List Incident} (h : Delivered IsInquiry S jobs es) : es.any isListing = false := by
  rw [List.any_eq_false]
  intro e he
  rw [Bool.not_eq_true]
  rcases h.of_mem he with hinquiry | ⟨j, payloads, rfl⟩ | ⟨p, rfl⟩
  · exact isListing_of_isInquiry hinquiry
  · rfl
  · rfl

/-- A ledger that does not grow. -/
theorem grows_still {rs : List Record} (distinct : (rs.map Record.signature).Nodup) :
    Grows fun _ => rs :=
  ⟨fun _ => List.prefix_rfl, fun _ => distinct⟩

/-- What remains of a ledger behind its first transactions, as a backlog. -/
def remaining (rs : List Record) (count : Nat) : Backlog :=
  ⟨(rs.drop count).map Record.entry, Value.ofText? (endOf (rs.take count))⟩

theorem entries_remaining_eq_nil {rs : List Record} {count : Nat} :
    (remaining rs count).entries = [] ↔ rs.length ≤ count := by
  simp [remaining]

/-- The transactions of the page of a number, if all pages before it were full. -/
def group (rs : List Record) (size i : Nat) : List Record :=
  (rs.drop (i * size)).take size

namespace Client

/-- Each of a number of steps has taken the group of its number and handled what did not fail in it.
It has asked for signatures just if it was the first one or all transactions had been taken. -/
structure InGroups (rs : List Record) (size k : Nat) (r : Course Backlog) : Prop where
  pages : r.visits.map pageOf = (List.range k).map fun i => (group rs size i).map Record.entry
  jobs : r.visits.map Visit.jobs = (List.range k).map fun i => jobsIn (group rs size i)
  listings : r.visits.map listsSignatures =
    (List.range k).map fun i => decide (i = 0 ∨ rs.length ≤ i * size)

/-- What a number of steps have come to: the groups of these numbers are consumed, the stored cursor
is behind them, and the backlog is what remains. -/
structure Paced (ck : Checkpoint) (rs : List Record) (size k : Nat) (r : Course Backlog) :
    Prop extends InGroups rs size k r where
  stored : ck.stored r.world.files = .ok (cursorBehind (rs.take (k * size)))
  backlog : r.memory = if k = 0 then {} else remaining rs (k * size)

variable {sc : Scenario} {c : Client} {ck : Checkpoint} {b b' : Backlog} {w w' : World}
  {rs : List Record} {size : Nat}

/-! ### A page -/

/-- A walk that succeeds has asked for signatures. -/
theorem walk_lists (distinct : (rs.map Record.signature).Nodup)
    (serves : ServesSignatures sc.node c.program fun _ => rs) {count : Nat} {entries : List Entry}
    (h : Act.exec (c.walk sc.rpc (endOf (rs.take count))) w = (.ok entries, w')) :
    ∃ asks, (∀ e ∈ asks, IsRequest e) ∧ w.Reaches w' asks ∧ asks.any isListing = true := by
  obtain ⟨calls, hreach, -, hwalked | ⟨-, hr⟩⟩ := walk_spec (grows_still distinct) serves
    (List.take_append_drop count rs).symm (endsAt_endOf _) h
  · cases hwalked with
    | whole answered hcount =>
      have hsome : 0 < calls.length := by
        rw [hcount]
        exact Nat.succ_pos _
      obtain ⟨call, hcall⟩ := List.exists_mem_of_length_pos hsome
      refine ⟨calls, fun e he => ?_, hreach, List.any_eq_true.mpr ⟨call, hcall, ?_⟩⟩
      · obtain ⟨answer, -, -, -, -, -, rfl⟩ := answered e he
        trivial
      · obtain ⟨answer, -, -, -, -, -, rfl⟩ := answered call hcall
        rfl
  · cases hr

/-- A backlog that goes with the cursor behind the first transactions: what remains, or nothing at
the beginning. -/
def Goes (rs : List Record) (count : Nat) (b : Backlog) : Prop :=
  b = remaining rs count ∨ b.entries = []

/-- What is pending behind the first transactions are the others, and they become the backlog, which
they are already if it holds anything. -/
theorem pending_ok_of_goes (distinct : (rs.map Record.signature).Nodup)
    (serves : ServesSignatures sc.node c.program fun _ => rs) {count : Nat} {entries : List Entry}
    (hgoes : Goes rs count b)
    (h : Act.exec (c.pending sc.rpc (endOf (rs.take count))) (b, w) = (.ok entries, b', w')) :
    entries = (rs.drop count).map Record.entry ∧ b' = remaining rs count ∧
      ∃ asks, (∀ e ∈ asks, IsRequest e) ∧ w.Reaches w' asks ∧
        asks.any isListing = b.entries.isEmpty := by
  rw [exec_pending] at h
  by_cases hempty : b.entries = []
  · -- without a backlog the client walks, from whatever cursor
    rw [hempty] at h
    rcases hwalk : Act.exec (c.walk sc.rpc (endOf (rs.take count))) w with ⟨r, w₁⟩
    rw [hwalk] at h
    cases r with
    | error e => cases h
    | ok found =>
      obtain ⟨rfl, -⟩ := walk_ok (grows_still distinct) serves (List.take_append_drop count rs).symm
        (endsAt_endOf _) hwalk
      cases h
      obtain ⟨asks, hasks, hreach, hlists⟩ := walk_lists distinct serves hwalk
      exact ⟨rfl, rfl, asks, hasks, hreach, by rw [hlists, hempty]; rfl⟩
  · obtain rfl : b = remaining rs count := hgoes.resolve_right hempty
    have hkept : (!(remaining rs count).entries.isEmpty &&
        (remaining rs count).follows (endOf (rs.take count))) = true := by
      rw [(follows_iff rfl).mpr rfl, Bool.and_true, Bool.not_eq_true', List.isEmpty_eq_false_iff]
      exact hempty
    rw [if_pos hkept] at h
    cases h
    refine ⟨rfl, rfl, [], by simp, World.Reaches.refl w, ?_⟩
    rw [List.isEmpty_eq_false_iff.mpr hempty]
    rfl

/-- Taking a group off what remains leaves what remains behind the group. -/
theorem leftBehind_remaining (rs : List Record) (count size : Nat) :
    leftBehind (remaining rs count) (rs.take count) (rs.drop count) size =
      remaining rs (count + size) := by
  have htake : rs.take count ++ (rs.drop count).take size = rs.take (count + size) :=
    List.take_add.symm
  unfold leftBehind
  split
  · -- a group of nothing: either nothing remains or the groups are empty
    rename_i hnone
    have hall := List.take_append_drop size (rs.drop count)
    rw [hnone, List.nil_append, List.drop_drop] at hall
    rw [hnone, List.append_nil] at htake
    rw [remaining, remaining, hall, htake]
  · rw [htake, List.drop_drop]
    rfl

/-- The page of a step: it begins behind the first transactions, what remains behind it is the
backlog, and signatures are asked for just if there was none. -/
theorem fetch_paced (distinct : (rs.map Record.signature).Nodup)
    (serves : ServesSignatures sc.node c.program fun _ => rs) (hsize : c.pageSize = size)
    {count : Nat} (hgoes : Goes rs count b) {jobs : List Job} {next : Cursor}
    (h : Act.exec ((c.telling sc).fetch (cursorBehind (rs.take count))) (b, w) =
      (.ok (jobs, next), b', w')) :
    jobs = jobsIn ((rs.drop count).take size) ∧ next = cursorBehind (rs.take (count + size)) ∧
      b' = remaining rs (count + size) ∧ ∃ asks, (∀ e ∈ asks, IsRequest e) ∧
        asks.any isListing = b.entries.isEmpty ∧ w'.events =
          w.events ++ asks ++ [.paged (((rs.drop count).take size).map Record.entry)] := by
  have hnat : c.pageSize.toNat = size := by omega
  rw [exec_fetch_telling] at h
  rcases hpending : Act.exec (c.pending sc.rpc (endOf (rs.take count))) (b, w) with ⟨r, b₁, w₁⟩
  cases r with
  | error e =>
    rw [takePage_of_pending_error hpending] at h
    cases h
  | ok entries =>
    obtain ⟨rfl, rfl, asks, hasks, hreach, hlists⟩ :=
      pending_ok_of_goes distinct serves hgoes hpending
    rw [takePage_of_pending hpending, hnat] at h
    cases h
    refine ⟨rfl, ?_, leftBehind_remaining rs count size, asks, hasks, hlists, ?_⟩
    · rw [List.take_add]
    · rw [← hreach.events]

/-! ### A step -/

theorem processes_inquiring (sc : Scenario) (c : Client) :
    (c.telling sc).Processes (fun s s' => s' = s) IsInquiry fun _ _ => True where
  keeps j := Keeps.within (process_closed (Keeps.closed _)
    (fun _ => sc.rpc_keeps fun _ => Or.inl rfl) (fun _ => sc.rpc_keeps fun _ => Or.inr rfl) c j)
  yields _ _ _ _ _ := trivial

theorem Paced.goes {k : Nat} {r : Course Backlog} (h : Paced ck rs size k r) :
    Goes rs (k * size) r.memory := by
  rw [h.backlog]
  split
  · exact Or.inr rfl
  · exact Or.inl rfl

/-- Nothing remains at the beginning and when all transactions are consumed. -/
theorem Paced.isEmpty {k : Nat} {r : Course Backlog} (h : Paced ck rs size k r) :
    r.memory.entries.isEmpty = decide (k = 0 ∨ rs.length ≤ k * size) := by
  rw [h.backlog]
  split
  · rename_i hk
    simp [hk]
  · rename_i hk
    rw [Bool.eq_iff_iff]
    simp [hk, entries_remaining_eq_nil]

/-- A step that succeeds keeps pace. -/
theorem paced_step (distinct : (rs.map Record.signature).Nodup)
    (serves : ServesSignatures sc.node c.program fun _ => rs) (hsize : c.pageSize = size)
    {i k : Nat} {r : Course Backlog} (h : Paced ck rs size i r)
    (hexec : Act.exec (sc.indexer ck (c.telling sc)).step (r.memory, r.world.begun) =
      (.ok k, b, w)) :
    Paced ck rs size (i + 1) ⟨b, w, r.visits ++ [⟨.ok k, w.events⟩]⟩ := by
  obtain ⟨cursor, jobs, next, b₁, w₀, w₁, es, content, hstored, hspared, hfetch, rfl, hdelivered, -,
    hevents, -, hstored'⟩ := Scenario.step_ok (processes_inquiring sc c) hexec
  obtain rfl := Except.ok.inj (h.stored.symm.trans hstored)
  obtain ⟨rfl, rfl, rfl, asks, hasks, hlists, hfetched⟩ :=
    fetch_paced distinct serves hsize h.goes hfetch
  have hbegun : w₀.events = [] := hspared.events
  have hnext : (i + 1) * size = i * size + size := Nat.succ_mul i size
  rw [hfetched, hbegun, List.nil_append] at hevents
  have hquiet := hdelivered.mono (fun e => isRequest_of_isInquiry) fun _ _ _ => id
  have hpage : pageOf ⟨.ok k, w.events⟩ = (group rs size i).map Record.entry := by
    simp [pageOf, hevents, pagedEntries_of_requests hasks, pagedEntries_of_delivered hquiet,
      pagedEntries, group]
  have hjobs : Visit.jobs ⟨.ok k, w.events⟩ = jobsIn (group rs size i) := by
    have hes := hquiet.jobs_eq fun e he => he
    simp [Visit.jobs, hevents, jobs_of_requests hasks, hes, Incident.job?, List.filterMap_cons,
      group]
  have hlisting : listsSignatures ⟨.ok k, w.events⟩ = decide (i = 0 ∨ rs.length ≤ i * size) := by
    rw [← h.isEmpty, ← hlists]
    simp [listsSignatures, hevents, any_isListing_of_delivered hdelivered, isListing]
  refine ⟨⟨Course.map_visits_succ h.pages hpage, Course.map_visits_succ h.jobs hjobs,
    Course.map_visits_succ h.listings hlisting⟩, ?_, ?_⟩
  · rw [hnext]
    rwa [settled_cursorBehind] at hstored'
  · rw [if_neg (Nat.succ_ne_zero i), hnext]

theorem paced_start {files : Files} (absent : files.isThere ck.path = false) :
    Paced ck rs size 0 ⟨{}, { files }, []⟩ where
  stored := by
    rw [Nat.zero_mul, List.take_zero]
    exact Checkpoint.stored_absent absent
  backlog := rfl
  pages := rfl
  jobs := rfl
  listings := rfl

/-! ### A node that helps -/

/-- A node that lists signatures whenever it is asked, within the patience of a client, and whose
transactions can be processed. -/
structure Obliging (sc : Scenario) (c : Client) (rs : List Record) : Prop where
  answers : AnswersSignatures sc.node c.program
  patience : rs.length / batchSize < c.patience
  handles : ∀ record ∈ rs, record.err.isNull = true →
    (c.telling sc).Handles (jobOf record.entry)

/-- The others are pending behind the first transactions. -/
theorem pending_obliging (distinct : (rs.map Record.signature).Nodup)
    (serves : ServesSignatures sc.node c.program fun _ => rs) (obliging : Obliging sc c rs)
    (count : Nat) (b : Backlog) (w : World) :
    ∃ entries b' w', Act.exec (c.pending sc.rpc (endOf (rs.take count))) (b, w) =
      (.ok entries, b', w') ∧ w'.files = w.files := by
  have hpatience : (rs.drop count).length / batchSize < c.patience := by
    refine Nat.lt_of_le_of_lt (Nat.div_le_div_right ?_) obliging.patience
    rw [List.length_drop]
    exact Nat.sub_le _ _
  obtain ⟨found, w', hwalk⟩ := walk_answered (w := w) (grows_still distinct) serves obliging.answers
    (List.take_append_drop count rs).symm (endsAt_endOf _) hpatience
  obtain ⟨es, hreach, -⟩ :=
    (walkFrom_keeps sc c (endOf (rs.take count)) c.patience .null []).of_exec hwalk
  rw [exec_pending, hwalk]
  split
  · exact ⟨_, _, _, rfl, rfl⟩
  · exact ⟨_, _, _, rfl, hreach.files⟩

theorem cursorBehind_of_ne_nil {rs : List Record} (h : rs ≠ []) :
    cursorBehind rs = .transaction (rs.getLast h).signature (rs.getLast h).nonempty := by
  unfold cursorBehind
  rw [List.getLast?_eq_some_getLast h]

theorem cursorBehind_follows (before more : List Record) :
    (cursorBehind (before ++ more)).Follows (cursorBehind before) := by
  by_cases h : before = []
  · rw [h]
    trivial
  · have hmore : before ++ more ≠ [] := List.append_ne_nil_of_left_ne_nil h more
    rw [cursorBehind_of_ne_nil h, cursorBehind_of_ne_nil hmore]
    trivial

/-- The cursor behind the first transactions names the last one of them. -/
theorem cursorBehind_take {count : Nat} (hcount : 1 ≤ count) (hrs : rs ≠ []) :
    ∃ record, rs[min count rs.length - 1]? = some record ∧
      cursorBehind (rs.take count) = .transaction record.signature record.nonempty := by
  have hlength : 0 < rs.length := List.length_pos_iff.mpr hrs
  have hbound : min count rs.length - 1 < rs.length := by omega
  have hlast : (rs.take count).getLast? = some rs[min count rs.length - 1] := by
    rw [List.getLast?_eq_getElem?, List.length_take, List.getElem?_take_of_lt (by omega),
      List.getElem?_eq_getElem hbound]
  refine ⟨_, List.getElem?_eq_getElem hbound, ?_⟩
  unfold cursorBehind
  rw [hlast]

theorem isWritable_cursorBehind (rs : List Record) : (cursorBehind rs).isWritable = true := by
  unfold cursorBehind
  cases rs.getLast? <;> rfl

/-- From such a node a page can be fetched behind any first transactions, and its jobs can be
processed. -/
theorem fetch_obliging (distinct : (rs.map Record.signature).Nodup)
    (serves : ServesSignatures sc.node c.program fun _ => rs) (obliging : Obliging sc c rs)
    {count : Nat} (hgoes : Goes rs count b) (w : World) :
    ∃ jobs next b₁ w₁, Act.exec ((c.telling sc).fetch (cursorBehind (rs.take count))) (b, w) =
        (.ok (jobs, next), b₁, w₁) ∧
      w₁.files = w.files ∧ (∀ j ∈ jobs, (c.telling sc).Handles j) ∧
      next.Follows (cursorBehind (rs.take count)) ∧ next.isWritable = true := by
  obtain ⟨entries, b₁, w₁, hpending, hfiles⟩ := pending_obliging distinct serves obliging count b w
  obtain ⟨rfl, -, -⟩ := pending_ok_of_goes distinct serves hgoes hpending
  have htake := takePage_of_pending hpending
  have hfetch := exec_fetch_telling c sc (cursorBehind (rs.take count)) b w
  rw [htake] at hfetch
  refine ⟨_, _, _, _, hfetch, hfiles, ?_, cursorBehind_follows _ _, isWritable_cursorBehind _⟩
  intro j hj
  obtain ⟨job, hjob, rfl⟩ := List.mem_map.mp hj
  obtain ⟨entry, hentry, rfl⟩ := List.mem_map.mp hjob
  obtain ⟨hmem, hsound⟩ := List.mem_filter.mp hentry
  obtain ⟨record, hrecord, rfl⟩ := List.mem_map.mp hmem
  exact obliging.handles record (List.mem_of_mem_drop (List.mem_of_mem_take hrecord)) hsound

/-! ### A run -/

/-- What a run has come to after a number of steps, of which there was at least one. -/
structure CaughtUp (ck : Checkpoint) (rs : List Record) (size k : Nat) (r : Course Backlog) :
    Prop extends InGroups rs size k r where
  stored : ∃ record, rs[min (k * size) rs.length - 1]? = some record ∧
    ck.stored r.world.files = .ok (.transaction record.signature record.nonempty)

/-- A run of steps that all succeed has kept pace. -/
theorem caughtUp_course (hsize : c.pageSize = size) (hpos : 1 ≤ size) (hrs : rs ≠ [])
    (distinct : (rs.map Record.signature).Nodup)
    (serves : ServesSignatures sc.node c.program fun _ => rs)
    {files : Files} (absent : files.isThere ck.path = false) {k : Nat} (hk : 1 ≤ k)
    (h : (c.course sc ck files (List.replicate k .step)).Succeeds) :
    CaughtUp ck rs size k (c.course sc ck files (List.replicate k .step)) := by
  have hpaced : Paced ck rs size k (c.course sc ck files (List.replicate k .step)) :=
    Course.steps_induction (I := Paced ck rs size) (paced_start absent)
      (fun _ _ _ _ _ hr hexec => paced_step distinct serves hsize hr hexec) h
  obtain ⟨record, hrecord, hcursor⟩ := cursorBehind_take (Nat.mul_pos hk hpos) hrs
  exact ⟨hpaced.toInGroups, record, hrecord, hpaced.stored.trans (congrArg _ hcursor)⟩

/-- In a smooth world with an obliging node all steps succeed. -/
theorem succeeds_course (hsize : c.pageSize = size) (distinct : (rs.map Record.signature).Nodup)
    (serves : ServesSignatures sc.node c.program fun _ => rs)
    {files : Files} (absent : files.isThere ck.path = false) (smooth : sc.Smooth)
    (takes : ck.Takes files) (obliging : Obliging sc c rs) (k : Nat) :
    (c.course sc ck files (List.replicate k .step)).Succeeds := by
  refine Course.succeeds_steps (I := fun k r => Paced ck rs size k r ∧ ck.Takes r.world.files)
    ⟨paced_start absent, takes⟩ ?_ ?_ k
  · exact fun _ _ _ _ _ hr hexec =>
      ⟨paced_step distinct serves hsize hr.1 hexec, Scenario.step_takes hexec⟩
  · intro i r hr
    refine Scenario.step_smooth (processes_inquiring sc c) smooth hr.2 hr.1.stored fun w₀ => ?_
    exact fetch_obliging distinct serves obliging hr.1.goes w₀

end Client

end ChainIndexer.Solana
