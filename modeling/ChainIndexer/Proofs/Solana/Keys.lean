import ChainIndexer.Proofs.Deduplication
import ChainIndexer.Proofs.Solana.Page
import Mathlib.Data.List.Nodup

/-!
The keys of the transactions of a ledger. If a node always answers with the same contents of a
transaction, then the instructions of the program that carry a record are known from the ledger, and
the processing of the transaction gives their positions to its payloads, in order
(`process_yields`). What an account holds when its record is read may change, and has no part in the
keys.
-/

namespace ChainIndexer.Solana

open Act Push

/-- A node that answers requests for a transaction, whenever it answers with one, with the same
contents. -/
def ServesTransactions (node : Nat → String → List Value → Except Failure Value)
    (contents : String → Value) : Prop :=
  ∀ time signature params answer,
    node time "getTransaction" (.text signature :: params) = .ok answer →
    answer.isNull = true ∨ answer = contents signature

namespace Client

/-- The keys and the instructions of a transaction, none if it has failed. -/
def instructionsOf? (tx : Value) : Except Fault (Option (List Value × List Value)) := do
  let details := (← tx.get "meta").orElse (.object [])
  let err ← details.get "err"
  if !err.isNull then return none
  let message ← messageOf tx details
  return some (message.keys, ← message.instructions.elements)

/-- Whether an instruction is one of the program that carries a record. -/
def isMapped (c : Client) (keys : List Value) (ix : Value) : Bool :=
  match c.isOwn ix keys, eventOf? ix keys with
  | .ok true, .ok (some (e, _)) => e.family?.isSome
  | _, _ => false

/-- The positions of the mapped instructions among some that are numbered from `position` on. -/
def mappedFrom (c : Client) (keys : List Value) : (position : Nat) → List Value → List Nat
  | _, [] => []
  | position, ix :: rest =>
    (if c.isMapped keys ix then [position] else []) ++ c.mappedFrom keys (position + 1) rest

/-- The positions of the mapped instructions of a transaction. -/
def positionsOf (c : Client) (tx : Value) : List Nat :=
  match instructionsOf? tx with
  | .ok (some (keys, instructions)) => c.mappedFrom keys 0 instructions
  | _ => []

/-- The keys of the mapped instructions of a transaction. -/
def keysAt (c : Client) (contents : String → Value) (signature : String) : List String :=
  (c.positionsOf (contents signature)).map (Payload.keyOf c.network.word signature)

/-- The keys of a transaction of the ledger; one that has failed has none. -/
def recordKeys (c : Client) (contents : String → Value) (r : Record) : List String :=
  if r.err.isNull then c.keysAt contents r.signature else []

/-- The keys of the transactions of a ledger, in order. -/
def ledgerKeys (c : Client) (contents : String → Value) (rs : List Record) : List String :=
  rs.flatMap (c.recordKeys contents)

/-- The keys of a job, none if its signature is no text. -/
def keysOf (c : Client) (contents : String → Value) : Job → List String
  | .transaction ⟨.text signature, _⟩ => c.keysAt contents signature
  | _ => []

variable {sc : Scenario} {c : Client} {contents : String → Value} {w w' : World}

theorem fetchTransaction_ok (serves : ServesTransactions sc.node contents) {signature : String}
    {tx : Value} (h : Act.exec (fetchTransaction sc.rpc (.text signature)) w = (.ok tx, w')) :
    tx = contents signature := by
  obtain ⟨answer, w₁, hask, h⟩ := exec_bind_ok h
  obtain ⟨hnode, -⟩ := Scenario.of_exec_rpc hask
  rcases serves _ _ _ _ hnode with hnull | rfl
  · rw [if_pos hnull] at h
    obtain ⟨_, _, hthrow, -⟩ := exec_bind_ok h
    rw [exec_throw] at hthrow
    cases hthrow
  · split at h
    · obtain ⟨_, _, hthrow, -⟩ := exec_bind_ok h
      rw [exec_throw] at hthrow
      cases hthrow
    · rw [exec_pure] at h
      cases h
      rfl

/-- An instruction has a payload just if it is mapped. -/
theorem payloadOf?_yields {signature : String} {jobSlot : Value} {keys : List Value}
    {slot time : Value} {position : Nat} {ix : Value} {payload? : Option Payload}
    (h : Act.exec (c.payloadOf? sc.rpc ⟨.text signature, jobSlot⟩ keys slot time position ix) w =
      (.ok payload?, w')) :
    payload?.toList.map Payload.dedupeKey =
      if c.isMapped keys ix then [Payload.keyOf c.network.word signature position] else [] := by
  obtain ⟨own, w₁, hown, h⟩ := exec_bind_ok h
  obtain ⟨hisOwn, -⟩ := of_exec_liftFault hown
  unfold isMapped
  rw [hisOwn]
  cases own with
  | false =>
    replace h : Act.exec (pure none : Act (StateM World) (Option Payload)) w₁ = _ := h
    rw [exec_pure] at h
    cases h
    rfl
  | true =>
    obtain ⟨found, w₂, hfound, h⟩ := exec_bind_ok h
    obtain ⟨hevent, -⟩ := of_exec_lift hfound
    rw [hevent]
    rcases found with _ | ⟨e, accounts⟩
    · rw [exec_pure] at h
      cases h
      rfl
    · dsimp only at h ⊢
      rcases Option.eq_none_or_eq_some e.family? with hfamily | ⟨f, hfamily⟩
      · rw [hfamily, exec_pure] at h
        cases h
        simp [hfamily]
      · rw [hfamily] at h
        obtain ⟨data, w₃, -, h⟩ := exec_bind_ok h
        obtain ⟨event, w₄, hlift, h⟩ := exec_bind_ok h
        obtain ⟨hmake, -⟩ := of_exec_lift hlift
        rw [exec_pure] at h
        cases h
        have hmade : Event.make _ (.text _) (.ofWhole (.number position)) _ _ = .ok event := hmake
        obtain ⟨htx, hposition⟩ := Event.make_ok hmade
        obtain rfl : position = event.txIndex := Int.ofNat_inj.mp hposition
        simp [hfamily, Payload.dedupeKey_eq, htx]

theorem instructionsOf?_of_failed {tx details err : Value} (hdetails : tx.get "meta" = .ok details)
    (herr : (details.orElse (.object [])).get "err" = .ok err) (hnull : err.isNull = false) :
    instructionsOf? tx = .ok none := by
  simp [instructionsOf?, hdetails, herr, hnull, bind, Except.bind, pure, Except.pure]

theorem instructionsOf?_of_message {tx details err : Value} {message : Message}
    {instructions : List Value} (hdetails : tx.get "meta" = .ok details)
    (herr : (details.orElse (.object [])).get "err" = .ok err) (hnull : err.isNull = true)
    (hmessage : messageOf tx (details.orElse (.object [])) = .ok message)
    (hinstructions : message.instructions.elements = .ok instructions) :
    instructionsOf? tx = .ok (some (message.keys, instructions)) := by
  simp [instructionsOf?, hdetails, herr, hnull, hmessage, hinstructions, bind, Except.bind, pure,
    Except.pure]

/-- The payloads of instructions have the keys of the mapped ones among them. -/
theorem payloadsOf_yields {signature : String} {jobSlot : Value} {keys : List Value}
    {slot time : Value} {position : Nat} {instructions : List Value} {payloads : List Payload}
    (h : Act.exec (c.payloadsOf sc.rpc ⟨.text signature, jobSlot⟩ keys slot time position
      instructions) w = (.ok payloads, w')) :
    payloads.map Payload.dedupeKey = (c.mappedFrom keys position instructions).map
      (Payload.keyOf c.network.word signature) := by
  induction instructions generalizing position payloads w with
  | nil =>
    rw [payloadsOf, exec_pure] at h
    cases h
    rfl
  | cons ix rest ih =>
    obtain ⟨payload?, w₁, hfirst, h⟩ := exec_bind_ok h
    obtain ⟨payloads', w₂, hrest, h⟩ := exec_bind_ok h
    rw [exec_pure] at h
    cases h
    rw [List.map_append, payloadOf?_yields (exec_rewording_ok hfirst), ih hrest, mappedFrom,
      List.map_append]
    split <;> rfl

/-- The processing of a transaction gives its payloads the keys of the transaction. -/
theorem processTransaction_yields (serves : ServesTransactions sc.node contents)
    {signature : String} {jobSlot : Value} {payloads? : Option (List Payload)}
    (h : Act.exec (c.processTransaction sc.rpc ⟨.text signature, jobSlot⟩) w =
      (.ok payloads?, w')) :
    (payloads?.getD []).map Payload.dedupeKey = c.keysAt contents signature := by
  obtain ⟨tx, w₁, hfetch, h⟩ := exec_bind_ok h
  obtain rfl := fetchTransaction_ok serves hfetch
  obtain ⟨details, w₂, hlift₁, h⟩ := exec_bind_ok h
  obtain ⟨hdetails, -⟩ := of_exec_liftFault hlift₁
  obtain ⟨err, w₃, hlift₂, h⟩ := exec_bind_ok h
  obtain ⟨herr, -⟩ := of_exec_liftFault hlift₂
  dsimp only at h
  unfold keysAt positionsOf
  cases hnull : err.isNull with
  | false =>
    rw [hnull] at h
    replace h : Act.exec (pure none : Act (StateM World) (Option (List Payload))) w₃ = _ := h
    rw [exec_pure] at h
    cases h
    rw [instructionsOf?_of_failed hdetails herr hnull]
    rfl
  | true =>
    rw [hnull] at h
    obtain ⟨message, w₄, hreworded, h⟩ := exec_bind_ok h
    obtain ⟨hmessage, -⟩ := of_exec_liftFault (exec_rewording_ok hreworded)
    obtain ⟨slot, w₅, -, h⟩ := exec_bind_ok h
    obtain ⟨time, w₆, -, h⟩ := exec_bind_ok h
    obtain ⟨instructions, w₇, hlift₃, h⟩ := exec_bind_ok h
    obtain ⟨hinstructions, -⟩ := of_exec_liftFault hlift₃
    obtain ⟨payloads, w₈, hpayloads, h⟩ := exec_bind_ok h
    rw [exec_pure] at h
    cases h
    have hsame : (if payloads.isEmpty then none else some payloads).getD [] = payloads := by
      cases payloads <;> rfl
    rw [instructionsOf?_of_message hdetails herr hnull hmessage hinstructions, hsame]
    exact payloadsOf_yields hpayloads

/-- The processing of a job with a proper signature gives its payloads the keys of the job. -/
theorem process_yields (serves : ServesTransactions sc.node contents) {j : Job} {b b' : Backlog}
    {payloads? : Option (List Payload)}
    (h : Act.exec (Act.within (c.process sc.rpc j) :
      Act (StateT Backlog (StateM World)) (Option (List Payload))) (b, w) =
      (.ok payloads?, b', w')) {signature : String} {slot : Value}
    (hj : j = .transaction ⟨.text signature, slot⟩) :
    Yields (c.keysOf contents) j (payloads?.getD []) := by
  subst hj
  exact processTransaction_yields serves (of_exec_within h).1

/-! ### The keys of a ledger -/

theorem le_of_mem_mappedFrom {keys : List Value} {position i : Nat} {instructions : List Value}
    (h : i ∈ c.mappedFrom keys position instructions) : position ≤ i := by
  induction instructions generalizing position with
  | nil => cases h
  | cons ix rest ih =>
    rw [mappedFrom, List.mem_append] at h
    rcases h with h | h
    · split at h
      · exact Nat.le_of_eq (List.mem_singleton.mp h).symm
      · cases h
    · exact Nat.le_of_succ_le (ih h)

theorem mappedFrom_nodup (c : Client) (keys : List Value) (position : Nat)
    (instructions : List Value) : (c.mappedFrom keys position instructions).Nodup := by
  induction instructions generalizing position with
  | nil => exact List.nodup_nil
  | cons ix rest ih =>
    rw [mappedFrom]
    split
    · refine List.nodup_cons.mpr ⟨fun h => ?_, ih (position + 1)⟩
      have := le_of_mem_mappedFrom h
      omega
    · exact ih (position + 1)

theorem positionsOf_nodup (c : Client) (tx : Value) : (c.positionsOf tx).Nodup := by
  unfold positionsOf
  split
  · exact mappedFrom_nodup _ _ _ _
  · exact List.nodup_nil

theorem recordKeys_nodup (c : Client) (contents : String → Value) (r : Record) :
    (c.recordKeys contents r).Nodup := by
  unfold recordKeys keysAt
  split
  · refine List.Nodup.map (fun i i' h => ?_) (positionsOf_nodup c _)
    exact (Payload.keyOf_inj h).2
  · exact List.nodup_nil

theorem mem_recordKeys {r : Record} {key : String} (h : key ∈ c.recordKeys contents r) :
    ∃ i, key = Payload.keyOf c.network.word r.signature i := by
  unfold recordKeys keysAt at h
  split at h
  · obtain ⟨i, -, rfl⟩ := List.mem_map.mp h
    exact ⟨i, rfl⟩
  · cases h

/-- The keys of a ledger differ, because its signatures do. -/
theorem ledgerKeys_nodup (c : Client) (contents : String → Value) {rs : List Record}
    (hdistinct : (rs.map Record.signature).Nodup) : (c.ledgerKeys contents rs).Nodup := by
  unfold ledgerKeys
  rw [List.nodup_flatMap]
  refine ⟨fun r _ => recordKeys_nodup c contents r, ?_⟩
  have hpairs : rs.Pairwise fun r r' => r.signature ≠ r'.signature := List.pairwise_map.mp hdistinct
  refine hpairs.imp fun hne key h h' => ?_
  obtain ⟨i, hkey⟩ := mem_recordKeys h
  obtain ⟨i', hkey'⟩ := mem_recordKeys h'
  exact hne (Payload.keyOf_inj (hkey.symm.trans hkey')).1

theorem ledgerKeys_append (c : Client) (contents : String → Value) (rs rs' : List Record) :
    c.ledgerKeys contents (rs ++ rs') = c.ledgerKeys contents rs ++ c.ledgerKeys contents rs' :=
  List.flatMap_append

theorem ledgerKeys_mono (c : Client) (contents : String → Value) {rs rs' : List Record}
    (h : rs <+: rs') : c.ledgerKeys contents rs <+: c.ledgerKeys contents rs' := by
  obtain ⟨more, rfl⟩ := h
  rw [ledgerKeys_append]
  exact List.prefix_append _ _

end Client

end ChainIndexer.Solana
