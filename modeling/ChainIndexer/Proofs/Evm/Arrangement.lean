import ChainIndexer.Proofs.Evm.Order

/-!
A page of logs is arranged in one way. Whatever the order in which a node answers, the jobs of a page
are the live logs of the answer by block and position, and logs of one place stay in the order of the
answer (`arranges_arranged`); so if the places differ, the order of the answer does not matter at all
(`arranged_eq`). `exec_fetch_idle` and `exec_fetch_range` say exactly what fetching a page does while
the node answers, and `fetch_arranges` puts both together.
-/

namespace ChainIndexer.Evm

open Act

/-- The block of a log and its position in the block. -/
def placeIn (log : Value) : Int × Int :=
  let p := Client.placeOf ⟨log⟩
  (p.block, p.index)

/-- A log stands before another one, or at the same place. -/
def ComesBy (a b : Value) : Prop :=
  (placeIn a).1 < (placeIn b).1 ∨ (placeIn a).1 = (placeIn b).1 ∧ (placeIn a).2 ≤ (placeIn b).2

/-- Jobs are the live ones among some logs, each as often as it is there, by block and position; logs
of one place stay in their order. -/
structure Arranges (logs jobs : List Value) : Prop where
  same : jobs.Perm (logs.filter isLive)
  sorted : jobs.Pairwise ComesBy
  stable : ∀ spot : Int × Int, jobs.filter (placeIn · == spot) =
    (logs.filter isLive).filter (placeIn · == spot)

/-- Logs as a node should give them: objects, the live ones with a block and a position that can be
read. -/
structure Readable (logs : List Value) : Prop where
  objects : ∀ log ∈ logs, ∃ fields, log = .object fields
  placed : ∀ log ∈ logs, isLive log = true → ∃ p, Client.place ⟨log⟩ = .ok p

theorem Readable.perm {logs logs' : List Value} (h : Readable logs) (hperm : logs'.Perm logs) :
    Readable logs' :=
  ⟨fun log hlog => h.objects log (hperm.mem_iff.mp hlog),
    fun log hlog => h.placed log (hperm.mem_iff.mp hlog)⟩

/-- The comparison by which logs are sorted. -/
def comesBy (a b : Value) : Bool :=
  (Client.placeOf ⟨a⟩).isBefore (Client.placeOf ⟨b⟩)

/-- The live logs, sorted by their places. -/
def arranged (logs : List Value) : List Value :=
  (logs.filter isLive).mergeSort comesBy

theorem comesBy_iff {a b : Value} : comesBy a b = true ↔ ComesBy a b :=
  Client.Placed.isBefore_iff

theorem comesBy_trans (a b c : Value) (hab : comesBy a b = true) (hbc : comesBy b c = true) :
    comesBy a c = true :=
  Client.Placed.isBefore_trans _ _ _ hab hbc

theorem comesBy_total (a b : Value) : (comesBy a b || comesBy b a) = true :=
  Client.Placed.isBefore_total _ _

/-- Logs of one place stay in their order: they are a sorted part of the logs as it is. -/
theorem filter_arranged (logs : List Value) (spot : Int × Int) :
    (arranged logs).filter (placeIn · == spot) =
      (logs.filter isLive).filter (placeIn · == spot) := by
  have hplace : ∀ a ∈ (logs.filter isLive).filter (placeIn · == spot), placeIn a = spot :=
    fun a ha => eq_of_beq (List.mem_filter.mp ha).2
  have hrow : ((logs.filter isLive).filter (placeIn · == spot)).Pairwise (comesBy · ·) := by
    refine List.pairwise_of_forall_mem_list fun a ha b hb => ?_
    rw [comesBy_iff, ComesBy, hplace a ha, hplace b hb]
    exact Or.inr ⟨rfl, Int.le_refl _⟩
  have hsub := (List.sublist_mergeSort comesBy_trans comesBy_total hrow List.filter_sublist).filter
    (placeIn · == spot)
  rw [List.filter_filter, show (fun a => (placeIn a == spot && placeIn a == spot)) =
    (placeIn · == spot) from funext fun _ => Bool.and_self _] at hsub
  exact (hsub.eq_of_length ((List.mergeSort_perm _ comesBy).filter _).length_eq.symm).symm

theorem arranges_arranged (logs : List Value) : Arranges logs (arranged logs) where
  same := List.mergeSort_perm _ _
  sorted := (List.pairwise_mergeSort comesBy_trans comesBy_total _).imp comesBy_iff.mp
  stable := filter_arranged logs

/-- If the places differ, then the order of the logs does not matter. -/
theorem arranged_eq {logs logs' : List Value} (hperm : logs'.Perm logs)
    (hplaces : ((logs.filter isLive).map placeIn).Nodup) : arranged logs' = arranged logs := by
  have hsame : (arranged logs').Perm (arranged logs) :=
    (List.mergeSort_perm _ _).trans
      ((hperm.filter isLive).trans (List.mergeSort_perm _ _).symm)
  refine List.Perm.eq_of_pairwise ?_ (arranges_arranged logs').sorted
    (arranges_arranged logs).sorted hsame
  intro a b ha hb hab hba
  have hlive : ∀ x ∈ arranged logs, x ∈ logs.filter isLive := fun x hx =>
    (arranges_arranged logs).same.mem_iff.mp hx
  refine List.inj_on_of_nodup_map hplaces (hlive a (hsame.mem_iff.mp ha)) (hlive b hb) ?_
  unfold ComesBy at hab hba
  exact Prod.ext (by omega) (by omega)

namespace Client

/-- A page from a cursor on is fetched as some jobs, from whatever node that tells a head and answers
the request for the logs of the page with certain ones. Nothing else is asked, and no timestamp is
kept. -/
def FetchesAs (c : Client) (cursor : Cursor) (first head : Int) (logs jobs : List Value) : Prop :=
  ∀ (sc : Scenario) (m : Timestamps) (w : World) (answer : Value),
    TellsHead sc w.clock answer head →
    sc.node (w.clock + 1) "eth_getLogs" (c.logsRequest first (c.lastBlock first head)) =
      .ok (.list logs) →
    ∃ nonneg, Act.exec ((c.adapter sc.rpc).fetch cursor) (m, w) =
      (.ok (jobs.map jobOf, .block (.number (c.lastBlock first head + 1)) nonneg), [],
        (w.after [.asked "eth_blockNumber" [] (.ok answer)]).after
          [.asked "eth_getLogs" (c.logsRequest first (c.lastBlock first head)) (.ok (.list logs))])

/-! ### Arranging what was answered -/

theorem liveLogs_of_objects {logs : List Value}
    (h : ∀ log ∈ logs, ∃ fields, log = .object fields) :
    liveLogs logs = .ok ((logs.filter isLive).map LogJob.mk) := by
  induction logs with
  | nil => rfl
  | cons log rest ih =>
    obtain ⟨fields, rfl⟩ := h log (by simp)
    have hrest := ih fun log hlog => h log (by simp [hlog])
    obtain ⟨removed, hremoved⟩ : ∃ removed, (Value.object fields).get "removed" = .ok removed :=
      ⟨_, rfl⟩
    have hlive : isLive (.object fields) = !removed.truthy := by simp [isLive, hremoved]
    rw [liveLogs, bind_of_ok hremoved, bind_of_ok hrest, List.filter_cons, hlive]
    cases removed.truthy <;> rfl

theorem placeOf_job (j : LogJob) : (placeOf j).job = j := by
  unfold placeOf
  split
  · rename_i p h
    exact place_job h
  · rfl

theorem mapM_place {jobs : List LogJob} (h : ∀ j ∈ jobs, ∃ p, place j = .ok p) :
    jobs.mapM place = .ok (jobs.map placeOf) := by
  induction jobs with
  | nil => rfl
  | cons j rest ih =>
    obtain ⟨p, hp⟩ := h j (by simp)
    have hplace : placeOf j = p := by simp [placeOf, hp]
    have hrest := ih fun j hj => h j (by simp [hj])
    rw [List.mapM_cons, bind_of_ok hp, bind_of_ok hrest, List.map_cons, hplace]
    rfl

/-- The live logs of an answer are put in order. -/
theorem inOrder_arranged {logs : List Value} (readable : Readable logs) :
    inOrder ((logs.filter isLive).map LogJob.mk) = .ok ((arranged logs).map LogJob.mk) := by
  have hplaced : ∀ j ∈ (logs.filter isLive).map LogJob.mk, ∃ p, place j = .ok p := by
    intro j hj
    obtain ⟨log, hlog, rfl⟩ := List.mem_map.mp hj
    obtain ⟨hmem, hlive⟩ := List.mem_filter.mp hlog
    exact readable.placed log hmem hlive
  have hsort : (((logs.filter isLive).map LogJob.mk).map placeOf).mergeSort Placed.isBefore =
      (arranged logs).map (fun log => placeOf ⟨log⟩) := by
    rw [List.map_map]
    have hcompare : ∀ a ∈ logs.filter isLive, ∀ b ∈ logs.filter isLive, comesBy a b =
        Placed.isBefore ((placeOf ∘ LogJob.mk) a) ((placeOf ∘ LogJob.mk) b) :=
      fun _ _ _ _ => rfl
    exact (List.map_mergeSort hcompare).symm
  rw [inOrder, bind_of_ok (mapM_place hplaced), hsort, List.map_map]
  refine congrArg Except.ok (List.map_congr_left fun log _ => ?_)
  exact placeOf_job ⟨log⟩

/-! ### Fetching a page while the node answers -/

variable {sc : Scenario} {c : Client} {m : Timestamps} {w : World} {cursor : Cursor} {first : Whole}
  {answer : Value} {head : Int}

theorem exec_latestBlock (h : TellsHead sc w.clock answer head) :
    Act.exec (latestBlock sc.rpc) w =
      (.ok head, w.after [.asked "eth_blockNumber" [] (.ok answer)]) := by
  refine (exec_bind_of_ok (Scenario.exec_rpc h.answered) _).trans ?_
  rw [h.reads]
  exact exec_liftFault _ _

theorem exec_fetchLogs {first last : Int} {logs : List Value} (hfirst : 0 ≤ first)
    (hlast : first ≤ last)
    (h : sc.node w.clock "eth_getLogs" (c.logsRequest first last) = .ok (.list logs)) :
    Act.exec (c.fetchLogs sc.rpc first last) w =
      (.ok logs, w.after [.asked "eth_getLogs" (c.logsRequest first last) (.ok (.list logs))]) := by
  rw [fetchLogs, if_neg (by omega)]
  exact (exec_bind_of_ok (Scenario.exec_rpc h) _).trans (exec_pure _ _)

theorem nonneg_of_heightOf (h : heightOf cursor = .ok first) : 0 ≤ first.toInt := by
  cases cursor with
  | start =>
    cases h
    exact Int.le_refl 0
  | block height nonneg =>
    cases h
    exact nonneg
  | transaction => cases h

/-- Fetching gives the logs of a page as jobs. -/
theorem exec_fetch_of_page {s s' : Timestamps × World} {jobs : List LogJob} {next : Cursor}
    (h : Act.exec (c.fetchPage sc.rpc cursor) s = (.ok (jobs, next), s')) :
    Act.exec ((c.adapter sc.rpc).fetch cursor) s = (.ok (jobs.map .log, next), s') :=
  (exec_bind_of_ok h _).trans (exec_pure _ _)

/-- If the head is below the cursor, no logs are asked for. -/
theorem exec_fetch_idle (hfirst : heightOf cursor = .ok first) (hhead : head < first.toInt)
    (h : TellsHead sc w.clock answer head) :
    Act.exec ((c.adapter sc.rpc).fetch cursor) (m, w) =
      (.ok ([], cursor), m, w.after [.asked "eth_blockNumber" [] (.ok answer)]) := by
  have hpage : Act.exec (c.fetchPage sc.rpc cursor) (m, w) =
      (.ok ([], cursor), m, w.after [.asked "eth_blockNumber" [] (.ok answer)]) := by
    refine (exec_lift_bind hfirst _ _).trans ?_
    refine (exec_bind_of_ok (exec_within_eq (exec_latestBlock h) m) _).trans ?_
    rw [if_pos hhead]
    exact exec_pure _ _
  exact exec_fetch_of_page hpage

/-- Otherwise the page holds the live logs of the answer, arranged. -/
theorem exec_fetch_range {logs : List Value} (hsize : 1 ≤ c.pageSize)
    (hfirst : heightOf cursor = .ok first) (hhead : first.toInt ≤ head)
    (readable : Readable logs) : FetchesAs c cursor first.toInt head logs (arranged logs) := by
  intro sc m w answer htells hlogs
  have hnonneg := nonneg_of_heightOf hfirst
  have hlast : first.toInt ≤ c.lastBlock first.toInt head := by
    unfold lastBlock
    omega
  have hbehind : 0 ≤ (Whole.number (c.lastBlock first.toInt head + 1)).toInt := by
    change 0 ≤ c.lastBlock first.toInt head + 1
    omega
  refine ⟨hbehind, ?_⟩
  have hjobs : (arranged logs).map jobOf = ((arranged logs).map LogJob.mk).map .log := by
    rw [List.map_map]
    rfl
  rw [hjobs]
  refine exec_fetch_of_page ?_
  refine (exec_lift_bind hfirst _ _).trans ?_
  refine (exec_bind_of_ok (exec_within_eq (exec_latestBlock htells) m) _).trans ?_
  rw [if_neg (by omega)]
  refine (exec_bind_of_ok (exec_within_eq (exec_fetchLogs hnonneg hlast hlogs) m) _).trans ?_
  refine (exec_liftFault_bind (liveLogs_of_objects readable.objects) _ _).trans ?_
  refine (exec_liftFault_bind (inOrder_arranged readable) _ _).trans ?_
  refine (exec_bind_of_ok (exec_remember _ _ _) _).trans ?_
  refine (exec_lift_bind (dif_pos hbehind) _ _).trans ?_
  exact exec_pure _ _

/-- The page from a cursor on. If the head of the chain is below the cursor, it is empty, the cursor
stays and no logs are asked for. Otherwise it is the range of blocks from the cursor on, cut off by
its size or at the head: the logs of this range are asked for, the jobs are the live ones among those
that are answered, sorted by their places, and the cursor moves behind the range. If the places of
the live logs differ, then the jobs are the same for every order of the answer. -/
theorem fetch_arranges (c : Client) (size : 1 ≤ c.pageSize) (cursor : Cursor) (first : Whole)
    (starts : heightOf cursor = .ok first) (head : Int) :
    (head < first.toInt → ∀ (sc : Scenario) (m : Timestamps) (w : World) (answer : Value),
      TellsHead sc w.clock answer head →
      Act.exec ((c.adapter sc.rpc).fetch cursor) (m, w) =
        (.ok ([], cursor), m, w.after [.asked "eth_blockNumber" [] (.ok answer)])) ∧
    (first.toInt ≤ head →
      requestedBlocks? c.contract (c.logsRequest first.toInt (c.lastBlock first.toInt head)) =
        some (List.range' first.toInt.toNat
          (c.lastBlock first.toInt head + 1 - first.toInt).toNat) ∧
      ∀ logs, Readable logs → ∃ jobs, Arranges logs jobs ∧
        FetchesAs c cursor first.toInt head logs jobs ∧
        (((logs.filter isLive).map placeIn).Nodup → ∀ logs', logs'.Perm logs →
          FetchesAs c cursor first.toInt head logs' jobs)) := by
  refine ⟨fun hhead sc m w answer h => exec_fetch_idle starts hhead h, fun hhead => ⟨?_, ?_⟩⟩
  · have hnonneg := nonneg_of_heightOf starts
    obtain ⟨a, ha⟩ := Int.eq_ofNat_of_zero_le hnonneg
    obtain ⟨b, hb⟩ : ∃ b : Nat, c.lastBlock first.toInt head = b := by
      refine Int.eq_ofNat_of_zero_le ?_
      unfold lastBlock
      omega
    rw [hb, ha, requestedBlocks?_logsRequest]
    congr 2
    omega
  · intro logs readable
    refine ⟨arranged logs, arranges_arranged logs, exec_fetch_range size starts hhead readable, ?_⟩
    intro hplaces logs' hperm
    rw [← arranged_eq hperm hplaces]
    exact exec_fetch_range size starts hhead (readable.perm hperm)

/-! Logs of two blocks, out of order, one of them removed, and with numbers of every kind. -/

def mixedLogs : List Value :=
  [.object [("blockNumber", .text "0x3"), ("logIndex", .int 1)],
    .object [("blockNumber", .text "2"), ("logIndex", .null)],
    .object [("blockNumber", .int 2), ("removed", .bool true)],
    .object [("blockNumber", .text "0X3"), ("removed", .bool false)]]

def mixedAnswers (logs : List Value) : Scenario where
  node _ method _ := if method = "eth_getLogs" then .ok (.list logs) else .ok (.text "0x3")
  sink _ _ := .accepted
  interrupt _ := none
  breakdown _ := none

def rangeClient : Client :=
  ⟨.ethereum, "0xc", 5⟩

theorem mixedLogs_readable : Readable mixedLogs := by
  constructor
  · simp [mixedLogs]
  · have hplaced : ∀ log ∈ mixedLogs, (place ⟨log⟩).toOption.isSome = true := by decide
    intro log hlog _
    obtain ⟨p, hp⟩ := Option.isSome_iff_exists.mp (hplaced log hlog)
    exact ⟨p, ok_of_toOption hp⟩

theorem mixedLogs_arranged : ∃ jobs, Arranges mixedLogs jobs ∧
    ∀ logs ∈ [mixedLogs, mixedLogs.reverse], ∃ nonneg w',
      Act.exec ((rangeClient.adapter (mixedAnswers logs).rpc).fetch .start) ([], {}) =
        (.ok (jobs.map jobOf, .block (.number 4) nonneg), [], w') := by
  obtain ⟨-, hrange⟩ := fetch_arranges rangeClient (by decide) .start (.number 0) rfl 3
  obtain ⟨-, hpage⟩ := hrange (by decide)
  obtain ⟨jobs, harranges, hfetch, hany⟩ := hpage mixedLogs mixedLogs_readable
  have htells : ∀ logs, TellsHead (mixedAnswers logs) 0 (.text "0x3") 3 := fun _ => ⟨rfl, by decide⟩
  have hreverse := hany (by decide) mixedLogs.reverse (List.reverse_perm _)
  refine ⟨jobs, harranges, fun logs hlogs => ?_⟩
  rw [List.mem_pair] at hlogs
  rcases hlogs with rfl | rfl
  · obtain ⟨nonneg, h⟩ := hfetch (mixedAnswers mixedLogs) [] {} _ (htells _) rfl
    exact ⟨nonneg, _, h⟩
  · obtain ⟨nonneg, h⟩ := hreverse (mixedAnswers mixedLogs.reverse) [] {} _ (htells _) rfl
    exact ⟨nonneg, _, h⟩

end Client

end ChainIndexer.Evm
