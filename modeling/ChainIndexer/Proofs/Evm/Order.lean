import ChainIndexer.Proofs.Deduplication
import ChainIndexer.Proofs.Evm.Page
import Mathlib.Data.List.Nodup
import Mathlib.Data.List.Pairwise

/-!
The order of the logs of a chain. If the live logs of each block stand at different positions, then
a page holds them by block and position, in whatever order the node has answered
(`inOrder_canonical`). A log that is mapped has a key that depends on nothing else than the log, and
the processing of the log gives this key to its payload (`process_yields`); the keys of different
logs differ (`keysBelow_nodup`).
-/

namespace ChainIndexer.Evm

open Act Push

/-- The live logs of a block. -/
def liveIn (chain : Nat → List Value) (block : Nat) : List Value :=
  (chain block).filter isLive

/-- The position of a log in its block. -/
def positionOf (log : Value) : Nat :=
  match (LogJob.mk log).logIndex with
  | .ok index => index.toInt.toNat
  | .error _ => 0

/-- A chain whose live logs are listed by their positions in their blocks, so that these differ, and
in which no two live logs have the same transaction and position. -/
structure WellPlaced (chain : Nat → List Value) : Prop where
  placed : ∀ b, ∀ log ∈ liveIn chain b, Client.place ⟨log⟩ = .ok ⟨b, positionOf log, ⟨log⟩⟩
  ordered : ∀ b, (liveIn chain b).Pairwise fun log log' => positionOf log < positionOf log'
  apart : ∀ b b', ∀ log ∈ liveIn chain b, ∀ log' ∈ liveIn chain b',
    (LogJob.mk log).txHash = (LogJob.mk log').txHash → positionOf log = positionOf log' → b = b'

namespace Client

/-! ### Putting logs in order -/

/-- Whether a log stands before another one. -/
def Placed.Precedes (a b : Placed) : Prop :=
  a.block < b.block ∨ a.block = b.block ∧ a.index < b.index

theorem Placed.isBefore_iff {a b : Placed} :
    a.isBefore b = true ↔ a.block < b.block ∨ a.block = b.block ∧ a.index ≤ b.index := by
  simp [Placed.isBefore]

theorem Placed.isBefore_of_precedes {a b : Placed} (h : a.Precedes b) : a.isBefore b = true := by
  rw [Placed.isBefore_iff]
  rcases h with h | ⟨hblock, hindex⟩
  · exact Or.inl h
  · exact Or.inr ⟨hblock, by omega⟩

theorem Placed.isBefore_trans (a b c : Placed) (hab : a.isBefore b = true)
    (hbc : b.isBefore c = true) : a.isBefore c = true := by
  rw [Placed.isBefore_iff] at *
  omega

theorem Placed.isBefore_total (a b : Placed) : (a.isBefore b || b.isBefore a) = true := by
  rw [Bool.or_eq_true, Placed.isBefore_iff, Placed.isBefore_iff]
  omega

instance : Std.Symm fun a b : Placed => a.block ≠ b.block ∨ a.index ≠ b.index where
  symm _ _ h := h.imp Ne.symm Ne.symm

/-- Two logs at one place of a list in strict order are the same. -/
theorem Placed.eq_of_isBefore {canon : List Placed} (hcanon : canon.Pairwise Placed.Precedes)
    {a b : Placed} (ha : a ∈ canon) (hb : b ∈ canon) (hab : a.isBefore b = true)
    (hba : b.isBefore a = true) : a = b := by
  have hplaces : canon.Pairwise fun a b => a.block ≠ b.block ∨ a.index ≠ b.index := by
    refine hcanon.imp fun h => ?_
    rcases h with h | ⟨-, hindex⟩
    · exact Or.inl (by omega)
    · exact Or.inr (by omega)
  by_contra hne
  have hapart := hplaces.forall ha hb hne
  rw [Placed.isBefore_iff] at hab hba
  omega

/-- Logs that can be put in strict order are put in this order. -/
theorem mergeSort_eq {placed canon : List Placed} (hperm : placed.Perm canon)
    (hcanon : canon.Pairwise Placed.Precedes) : placed.mergeSort Placed.isBefore = canon := by
  have hsort : (placed.mergeSort Placed.isBefore).Perm canon :=
    (List.mergeSort_perm placed Placed.isBefore).trans hperm
  refine List.Perm.eq_of_pairwise ?_
    (List.pairwise_mergeSort Placed.isBefore_trans Placed.isBefore_total placed)
    (hcanon.imp Placed.isBefore_of_precedes) hsort
  intro a b ha hb hab hba
  exact Placed.eq_of_isBefore hcanon (hsort.mem_iff.mp ha) hb hab hba

variable {chain : Nat → List Value}

/-- A log with its place. -/
def placedAt (block : Nat) (log : Value) : Placed :=
  ⟨block, positionOf log, ⟨log⟩⟩

/-- The live logs of a range of blocks with their places. -/
def placedIn (chain : Nat → List Value) (blocks : List Nat) : List Placed :=
  blocks.flatMap fun b => (liveIn chain b).map (placedAt b)

theorem jobs_placedIn (chain : Nat → List Value) (blocks : List Nat) :
    (placedIn chain blocks).map (·.job) = (blocks.flatMap (liveIn chain)).map LogJob.mk := by
  unfold placedIn
  rw [List.map_flatMap, List.map_flatMap]
  congr 1
  funext b
  rw [List.map_map]
  rfl

theorem placedIn_precedes (placed : WellPlaced chain) (first count : Nat) :
    (placedIn chain (List.range' first count)).Pairwise Placed.Precedes := by
  unfold placedIn
  rw [List.pairwise_flatMap]
  constructor
  · intro b _
    rw [List.pairwise_map]
    refine (placed.ordered b).imp fun h => Or.inr ⟨rfl, ?_⟩
    exact Int.ofNat_lt.mpr h
  · refine (List.pairwise_lt_range' 1).imp fun hlt p hp p' hp' => Or.inl ?_
    obtain ⟨log, -, rfl⟩ := List.mem_map.mp hp
    obtain ⟨log', -, rfl⟩ := List.mem_map.mp hp'
    exact Int.ofNat_lt.mpr hlt

/-- The place of a log, if it has one. -/
def placeOf (j : LogJob) : Placed :=
  match place j with
  | .ok p => p
  | .error _ => ⟨0, 0, j⟩

theorem placeOf_of_places {jobs : List LogJob} {found : List Placed}
    (h : List.Forall₂ (fun j p => place j = .ok p) jobs found) : jobs.map placeOf = found := by
  induction h with
  | nil => rfl
  | cons hp _ ih => rw [List.map_cons, ih, placeOf, hp]

theorem placeOf_jobs (placed : WellPlaced chain) (blocks : List Nat) :
    ((placedIn chain blocks).map (·.job)).map placeOf = placedIn chain blocks := by
  rw [List.map_map]
  conv_rhs => rw [← List.map_id (placedIn chain blocks)]
  refine List.map_congr_left fun p hp => ?_
  obtain ⟨b, -, hlog⟩ := List.mem_flatMap.mp hp
  obtain ⟨log, hmem, rfl⟩ := List.mem_map.mp hlog
  have hplace : place (placedAt b log).job = .ok (placedAt b log) := placed.placed b log hmem
  simp [placeOf, hplace]

/-- The logs of a range of blocks, in whatever order they were answered, are put in the order of the
chain. -/
theorem inOrder_canonical (placed : WellPlaced chain) {first count : Nat} {logs : List Value}
    {live ordered : List LogJob} (hlogs : logs.Perm ((List.range' first count).flatMap chain))
    (hlive : liveLogs logs = .ok live) (horder : inOrder live = .ok ordered) :
    ordered = ((List.range' first count).flatMap (liveIn chain)).map LogJob.mk := by
  obtain ⟨canon, hcanon⟩ : ∃ canon, canon = placedIn chain (List.range' first count) := ⟨_, rfl⟩
  have hjobs : live.Perm (canon.map (·.job)) := by
    have hfilter := (hlogs.filter isLive).map LogJob.mk
    rw [liveLogs_ok hlive, hcanon, jobs_placedIn]
    rw [List.filter_flatMap] at hfilter
    exact hfilter
  obtain ⟨found, hfound, hsorted⟩ := bind_ok horder
  obtain rfl := Except.ok.inj hsorted
  have hplaces : found.Perm canon := by
    have hmap := hjobs.map placeOf
    rwa [placeOf_of_places (mapM_ok hfound), hcanon, placeOf_jobs placed, ← hcanon] at hmap
  rw [mergeSort_eq hplaces (hcanon ▸ placedIn_precedes placed first count), hcanon, jobs_placedIn]

/-! ### The keys of logs -/

/-- The keys of the payloads of a log: one if its event carries a record. -/
def logKeys (c : Client) (log : Value) : List String :=
  match eventOf? ⟨log⟩ with
  | .ok (some e) =>
    match e.family?, (LogJob.mk log).txHash with
    | some _, .ok tx => [Payload.keyOf c.network.word tx (positionOf log)]
    | _, _ => []
  | _ => []

/-- The keys of the payloads of a job. -/
def keysOf (c : Client) : Job → List String
  | .log j => c.logKeys j.log
  | .transaction _ => []

/-- The keys of the blocks below a height, in the order of the chain. -/
def keysBelow (c : Client) (chain : Nat → List Value) (height : Nat) : List String :=
  ((List.range height).flatMap (liveIn chain)).flatMap c.logKeys

variable {sc : Scenario} {c : Client}

theorem payloadOf_key {j : LogJob} {e : EventName} {f : Family} {block : Whole}
    {s s' : Timestamps × World} {p : Payload}
    (h : Act.exec (c.payloadOf sc.rpc j e f block) s = (.ok p, s')) :
    ∃ tx, j.txHash = .ok tx ∧ p.dedupeKey = Payload.keyOf c.network.word tx (positionOf j.log) := by
  obtain ⟨data, s₁, -, h⟩ := exec_bind_ok h
  obtain ⟨tx, s₂, htx, h⟩ := exec_bind_ok h
  obtain ⟨index, s₃, hindex, h⟩ := exec_bind_ok h
  obtain ⟨stamp, s₄, -, h⟩ := exec_bind_ok h
  obtain ⟨event, s₅, hevent, h⟩ := exec_bind_ok h
  rw [exec_pure] at h
  cases h
  obtain ⟨hhash, -⟩ := of_exec_liftFault htx
  obtain ⟨hposition, -⟩ := of_exec_liftFault hindex
  obtain ⟨hmade, -⟩ := of_exec_lift hevent
  obtain ⟨rfl, hnumber⟩ := Event.make_ok hmade
  refine ⟨_, hhash, ?_⟩
  have hsame : event.txIndex = positionOf j.log := by
    unfold positionOf
    rw [hposition]
    dsimp only
    omega
  rw [Payload.dedupeKey_eq, hsame]

/-- The processing of a log gives its payloads the keys of the log. -/
theorem processLog_yields {j : LogJob} {s s' : Timestamps × World}
    {payloads? : Option (List Payload)}
    (h : Act.exec (c.processLog sc.rpc j) s = (.ok payloads?, s')) :
    (payloads?.getD []).map Payload.dedupeKey = c.logKeys j.log := by
  obtain ⟨e?, s₁, hlift, h⟩ := exec_bind_ok h
  obtain ⟨hevent, -⟩ := of_exec_lift hlift
  unfold logKeys
  rw [show (⟨j.log⟩ : LogJob) = j from rfl, hevent]
  cases e? with
  | none =>
    rw [exec_pure] at h
    cases h
    rfl
  | some e =>
    dsimp only at h ⊢
    cases hfamily : e.family? with
    | none =>
      rw [hfamily, exec_pure] at h
      cases h
      rfl
    | some f =>
      rw [hfamily] at h
      obtain ⟨block, s₂, -, h⟩ := exec_bind_ok h
      obtain ⟨tx, s₃, -, h⟩ := exec_bind_ok h
      obtain ⟨p, s₄, hpayload, h⟩ := exec_bind_ok h
      rw [exec_pure] at h
      cases h
      obtain ⟨tx', htx', hkey⟩ := payloadOf_key (exec_rewording_ok hpayload)
      simp [htx', hkey]

/-- The processing of a job gives its payloads the keys of the job. -/
theorem process_yields {j : Job} {s s' : Timestamps × World} {payloads? : Option (List Payload)}
    (h : Act.exec (c.process sc.rpc j) s = (.ok payloads?, s')) :
    Yields c.keysOf j (payloads?.getD []) := by
  cases j with
  | log j => exact processLog_yields h
  | transaction j =>
    have hthrow : Act.exec (throw (.jobMismatch "EvmClient" c.network.word
        (Job.transaction j).title) : Act (StateT Timestamps (StateM World)) _) s =
        (.ok payloads?, s') := h
    rw [exec_throw] at hthrow
    cases hthrow

theorem mem_logKeys {log : Value} {key : String} (h : key ∈ c.logKeys log) :
    ∃ tx, (LogJob.mk log).txHash = .ok tx ∧
      key = Payload.keyOf c.network.word tx (positionOf log) := by
  unfold logKeys at h
  split at h
  · split at h
    · rename_i htx
      exact ⟨_, htx, List.mem_singleton.mp h⟩
    · cases h
  · cases h

theorem logKeys_nodup (c : Client) (log : Value) : (c.logKeys log).Nodup := by
  unfold logKeys
  split
  · split
    · exact List.nodup_singleton _
    · exact List.nodup_nil
  · exact List.nodup_nil

/-- A key that two logs have in common comes from one transaction and position. -/
theorem same_of_common_key {log log' : Value} {key : String} (h : key ∈ c.logKeys log)
    (h' : key ∈ c.logKeys log') :
    (LogJob.mk log).txHash = (LogJob.mk log').txHash ∧ positionOf log = positionOf log' := by
  obtain ⟨tx, htx, hkey⟩ := mem_logKeys h
  obtain ⟨tx', htx', hkey'⟩ := mem_logKeys h'
  obtain ⟨rfl, hposition⟩ := Payload.keyOf_inj (hkey.symm.trans hkey')
  exact ⟨htx.trans htx'.symm, hposition⟩

/-- The keys of a chain differ. -/
theorem keysBelow_nodup (placed : WellPlaced chain) (c : Client) (height : Nat) :
    (c.keysBelow chain height).Nodup := by
  unfold keysBelow
  rw [List.nodup_flatMap]
  refine ⟨fun log _ => logKeys_nodup c log, ?_⟩
  rw [List.pairwise_flatMap]
  constructor
  · intro b _
    refine (placed.ordered b).imp fun hlt key h h' => ?_
    obtain ⟨-, hposition⟩ := same_of_common_key h h'
    omega
  · refine List.pairwise_lt_range.imp fun {b b'} hlt log hlog log' hlog' key h h' => ?_
    obtain ⟨htx, hposition⟩ := same_of_common_key h h'
    have hblock := placed.apart b b' log hlog log' hlog' htx hposition
    omega

/-- The keys of a range of blocks follow those below it. -/
theorem keysBelow_add (c : Client) (chain : Nat → List Value) (height count : Nat) :
    c.keysBelow chain (height + count) = c.keysBelow chain height ++
      (((List.range' height count).flatMap (liveIn chain)).map jobOf).flatMap c.keysOf := by
  have hjobs : ∀ logs : List Value, (logs.map jobOf).flatMap c.keysOf = logs.flatMap c.logKeys := by
    intro logs
    rw [List.flatMap_map]
    rfl
  rw [hjobs]
  unfold keysBelow
  rw [List.range_eq_range', ← List.range'_append_1, Nat.zero_add, List.flatMap_append,
    List.flatMap_append, ← List.range_eq_range']

theorem keysBelow_le (c : Client) (chain : Nat → List Value) {height height' : Nat}
    (h : height ≤ height') : c.keysBelow chain height <+: c.keysBelow chain height' := by
  obtain ⟨count, rfl⟩ := Nat.exists_eq_add_of_le h
  rw [keysBelow_add]
  exact List.prefix_append _ _

end Client

end ChainIndexer.Evm
