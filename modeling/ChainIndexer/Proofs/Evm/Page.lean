import ChainIndexer.Proofs.Evm.Processing
import ChainIndexer.Proofs.Numeral

/-!
A page of logs. `fetch_ok` says all that a page can be: nothing, if the head of the chain lies below
the cursor, or the live logs of a range of blocks that begins at the cursor, in the order of the
chain, with the cursor behind the range. The range ends with the size of a page or at the head,
which may be anywhere. `requestedBlocks?` reads the range back out of the request for its logs.
-/

namespace ChainIndexer.Evm

open Act

/-- The blocks that a request for logs names, if it asks for the logs of a contract. -/
def requestedBlocks? (contract : String) : List Value → Option (List Nat)
  | [.object fields] =>
    match Value.field? fields "address", Value.field? fields "fromBlock",
      Value.field? fields "toBlock" with
    | some address, some (.text first), some (.text last) =>
      match Numeral.read? 16 first, Numeral.read? 16 last with
      | some (.ofNat a), some (.ofNat b) =>
        if address.isText contract then some (List.range' a (b + 1 - a)) else none
      | _, _ => none
    | _, _, _ => none
  | _ => none

/-- A node that answers requests for the logs of a contract with exactly the logs of the blocks that
are asked for, in any order, whenever it answers. -/
def ServesLogs (node : Nat → String → List Value → Except Failure Value) (contract : String)
    (chain : Nat → List Value) : Prop :=
  ∀ time params blocks answer, requestedBlocks? contract params = some blocks →
    node time "eth_getLogs" params = .ok answer →
    ∃ logs, answer = .list logs ∧ logs.Perm (blocks.flatMap chain)

/-- The node answers a request for the head of the chain at a time. -/
structure TellsHead (sc : Scenario) (time : Nat) (answer : Value) (head : Int) : Prop where
  answered : sc.node time "eth_blockNumber" [] = .ok answer
  reads : answer.readHex = .ok head

/-- Whether a log has not been removed from the chain. -/
def isLive (log : Value) : Bool :=
  match log.get "removed" with
  | .ok removed => !removed.truthy
  | .error _ => false

/-- The job of a log. -/
def jobOf (log : Value) : Job :=
  .log ⟨log⟩

namespace Client

/-- The last block of a page. -/
def lastBlock (c : Client) (first head : Int) : Int :=
  min (first + c.pageSize - 1) head

/-- The parameters of the request for the logs of a range of blocks. -/
def logsRequest (c : Client) (first last : Int) : List Value :=
  [.object [("address", .text c.contract), ("fromBlock", .text (Numeral.hexadecimal first)),
    ("toBlock", .text (Numeral.hexadecimal last))]]

/-- The request for a range names its blocks. -/
theorem requestedBlocks?_logsRequest (c : Client) (first last : Nat) :
    requestedBlocks? c.contract (c.logsRequest first last) =
      some (List.range' first (last + 1 - first)) := by
  have haddress : Value.isText (.text c.contract) c.contract = true := by simp [Value.isText]
  have hfirst : Numeral.read? 16 (Numeral.hexadecimal first) = some (.ofNat first) :=
    Numeral.read?_hexadecimal first
  have hlast : Numeral.read? 16 (Numeral.hexadecimal last) = some (.ofNat last) :=
    Numeral.read?_hexadecimal last
  simp [requestedBlocks?, logsRequest, Value.field?, hfirst, hlast, haddress]

theorem liveLogs_ok {logs : List Value} {live : List LogJob} (h : liveLogs logs = .ok live) :
    live = (logs.filter isLive).map LogJob.mk := by
  induction logs generalizing live with
  | nil =>
    cases h
    rfl
  | cons log rest ih =>
    obtain ⟨removed, hremoved, h⟩ := bind_ok h
    obtain ⟨live', hrest, h⟩ := bind_ok h
    have hlive : isLive log = !removed.truthy := by simp [isLive, hremoved]
    obtain rfl := Except.ok.inj h
    rw [List.filter_cons, hlive, ih hrest]
    cases removed.truthy <;> simp

theorem place_job {j : LogJob} {p : Placed} (h : place j = .ok p) : p.job = j := by
  obtain ⟨block, -, h⟩ := bind_ok h
  obtain ⟨index, -, h⟩ := bind_ok h
  obtain rfl := Except.ok.inj h
  rfl

theorem map_job_of_places {jobs : List LogJob} {placed : List Placed}
    (h : List.Forall₂ (fun j p => place j = .ok p) jobs placed) : placed.map (·.job) = jobs := by
  induction h with
  | nil => rfl
  | cons hp _ ih => rw [List.map_cons, place_job hp, ih]

/-- Putting logs in order keeps them. -/
theorem inOrder_perm {jobs ordered : List LogJob} (h : inOrder jobs = .ok ordered) :
    ordered.Perm jobs := by
  obtain ⟨placed, hplaced, h⟩ := bind_ok h
  obtain rfl := Except.ok.inj h
  have hsort := (List.mergeSort_perm placed Placed.isBefore).map (·.job)
  rwa [map_job_of_places (mapM_ok hplaced)] at hsort

theorem ofHeight_ok {w : Whole} {cursor : Cursor} (h : Cursor.ofHeight w = .ok cursor) :
    ∃ nonneg, cursor = .block w nonneg := by
  unfold Cursor.ofHeight at h
  split at h
  · exact ⟨‹_›, (Except.ok.inj h).symm⟩
  · cases h

variable {sc : Scenario} {c : Client} {m m' : Timestamps} {w w' : World}

theorem latestBlock_ok {head : Int}
    (h : Act.exec (latestBlock sc.rpc) w = (.ok head, w')) :
    ∃ answer, TellsHead sc w.clock answer head ∧
      w.Reaches w' [.asked "eth_blockNumber" [] (.ok answer)] := by
  obtain ⟨answer, w₁, hask, hread⟩ := exec_bind_ok h
  obtain ⟨hreads, rfl⟩ := of_exec_liftFault hread
  obtain ⟨hnode, rfl⟩ := Scenario.of_exec_rpc hask
  exact ⟨answer, ⟨hnode, hreads⟩, w.reaches_after _⟩

/-- Logs that were fetched are what the node has answered for a proper range of blocks. -/
theorem fetchLogs_ok {first last : Int} {logs : List Value}
    (h : Act.exec (c.fetchLogs sc.rpc first last) w = (.ok logs, w')) :
    0 ≤ first ∧ first ≤ last ∧
      sc.node w.clock "eth_getLogs" (c.logsRequest first last) = .ok (.list logs) ∧
      w.Reaches w' [.asked "eth_getLogs" (c.logsRequest first last) (.ok (.list logs))] := by
  unfold fetchLogs at h
  split at h
  · obtain ⟨_, _, hthrow, _⟩ := exec_bind_ok h
    rw [exec_throw] at hthrow
    cases hthrow
  rename_i hrange
  obtain ⟨answer, w₁, hask, hlist⟩ := exec_bind_ok h
  obtain ⟨hnode, rfl⟩ := Scenario.of_exec_rpc hask
  cases answer with
  | list items =>
    rw [exec_pure] at hlist
    cases hlist
    exact ⟨by omega, by omega, hnode, w.reaches_after _⟩
  | _ =>
    rw [exec_throw] at hlist
    cases hlist

/-- A page that was fetched: nothing if the head is below the cursor, and otherwise the live logs of
the range of blocks from the cursor on, which were asked for in one request; then all timestamps are
forgotten. -/
theorem fetch_ok {cursor next : Cursor} {jobs : List Job}
    (h : Act.exec ((c.adapter sc.rpc).fetch cursor) (m, w) = (.ok (jobs, next), m', w')) :
    ∃ first answer head, heightOf cursor = .ok first ∧ TellsHead sc w.clock answer head ∧
      ((head < first.toInt ∧ jobs = [] ∧ next = cursor ∧
          w.Reaches w' [.asked "eth_blockNumber" [] (.ok answer)] ∧ m' = m) ∨
        ∃ last time logs live ordered nonneg, last = c.lastBlock first.toInt head ∧
          0 ≤ first.toInt ∧ first.toInt ≤ last ∧
          sc.node time "eth_getLogs" (c.logsRequest first.toInt last) = .ok (.list logs) ∧
          liveLogs logs = .ok live ∧ inOrder live = .ok ordered ∧ jobs = ordered.map .log ∧
          next = .block (.number (last + 1)) nonneg ∧
          w.Reaches w' [.asked "eth_blockNumber" [] (.ok answer),
            .asked "eth_getLogs" (c.logsRequest first.toInt last) (.ok (.list logs))] ∧
          m' = []) := by
  obtain ⟨⟨logJobs, next'⟩, ⟨m₁, w₁⟩, hpage, hjobs⟩ := exec_bind_ok h
  rw [exec_pure] at hjobs
  cases hjobs
  obtain ⟨first, s₁, hheight, hfrom⟩ := exec_bind_ok hpage
  obtain ⟨hfirst, rfl⟩ := of_exec_lift hheight
  obtain ⟨head, ⟨m₂, w₂⟩, hlatest, hrest⟩ := exec_bind_ok hfrom
  obtain ⟨hhead, hm₂⟩ := of_exec_within hlatest
  obtain ⟨answer, htells, hasked⟩ := latestBlock_ok hhead
  refine ⟨first, answer, head, hfirst, htells, ?_⟩
  split at hrest
  · rename_i hbelow
    rw [exec_pure] at hrest
    cases hrest
    exact Or.inl ⟨hbelow, rfl, rfl, hasked, hm₂⟩
  obtain ⟨logs, ⟨m₃, w₃⟩, hfetch, hrest⟩ := exec_bind_ok hrest
  obtain ⟨hlogs, hm₃⟩ := of_exec_within hfetch
  obtain ⟨hnonneg, hle, hnode, hasked'⟩ := fetchLogs_ok hlogs
  obtain ⟨live, s₄, hlift, hrest⟩ := exec_bind_ok hrest
  obtain ⟨hlive, rfl⟩ := of_exec_liftFault hlift
  obtain ⟨ordered, s₅, hlift, hrest⟩ := exec_bind_ok hrest
  obtain ⟨horder, rfl⟩ := of_exec_liftFault hlift
  obtain ⟨⟨⟩, s₆, hforget, hrest⟩ := exec_bind_ok hrest
  rw [exec_remember] at hforget
  cases hforget
  obtain ⟨behind, s₇, hlift, hrest⟩ := exec_bind_ok hrest
  obtain ⟨hbehind, rfl⟩ := of_exec_lift hlift
  rw [exec_pure] at hrest
  cases hrest
  obtain ⟨nonneg, rfl⟩ := ofHeight_ok hbehind
  exact Or.inr ⟨_, _, logs, live, logJobs, nonneg, rfl, hnonneg, hle, hnode, hlive, horder, rfl, rfl,
    hasked.trans hasked', rfl⟩

/-- If no page is fetched, then no timestamp is forgotten. -/
theorem fetch_error {cursor : Cursor} {e : Failure}
    (h : Act.exec ((c.adapter sc.rpc).fetch cursor) (m, w) = (.error e, m', w')) : m' = m := by
  rcases exec_bind_error h with hpage | ⟨_, _, -, hjobs⟩
  swap
  · rw [exec_pure] at hjobs
    cases hjobs
  rcases exec_bind_error hpage with hheight | ⟨first, s₁, hheight, hfrom⟩
  · exact congrArg Prod.fst (of_exec_lift hheight).2
  obtain ⟨-, rfl⟩ := of_exec_lift hheight
  rcases exec_bind_error hfrom with hlatest | ⟨head, ⟨m₂, w₂⟩, hlatest, hrange⟩
  · exact (of_exec_within hlatest).2
  obtain ⟨-, hm₂⟩ := of_exec_within hlatest
  split at hrange
  · rw [exec_pure] at hrange
    cases hrange
  rcases exec_bind_error hrange with hfetch | ⟨logs, ⟨m₃, w₃⟩, hfetch, hanswer⟩
  · exact (of_exec_within hfetch).2.trans hm₂
  obtain ⟨hlogs, hm₃⟩ := of_exec_within hfetch
  obtain ⟨hnonneg, hle, -⟩ := fetchLogs_ok hlogs
  have hkept : m₃ = m := hm₃.trans hm₂
  rcases exec_bind_error hanswer with hlive | ⟨live, s₄, hlive, hsort⟩
  · rw [exec_liftFault] at hlive
    exact (congrArg (·.2.1) hlive).symm.trans hkept
  obtain ⟨-, rfl⟩ := of_exec_liftFault hlive
  rcases exec_bind_error hsort with horder | ⟨ordered, s₅, horder, hforget⟩
  · rw [exec_liftFault] at horder
    exact (congrArg (·.2.1) horder).symm.trans hkept
  obtain ⟨-, rfl⟩ := of_exec_liftFault horder
  -- behind a range of blocks there is always a cursor
  obtain ⟨next, hnext⟩ : ∃ next, Cursor.ofHeight
      (.number (min (first.toInt + c.pageSize - 1) head + 1)) = .ok next :=
    ⟨_, dif_pos (show 0 ≤ min (first.toInt + c.pageSize - 1) head + 1 by omega)⟩
  rw [exec_bind_of_ok (exec_remember _ _ _), exec_lift_bind hnext, exec_pure] at hforget
  cases hforget

end Client

end ChainIndexer.Evm
