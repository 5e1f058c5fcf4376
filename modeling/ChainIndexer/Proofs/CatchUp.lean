import ChainIndexer.Proofs.Evm.CatchUp
import ChainIndexer.Proofs.Solana.CatchUp

/-!
Catching up, for either kind of ledger. On a ledger that does not grow, the run of a process that
starts without a cursor has a closed form in the size of a page and the number of steps, as long as
the steps succeed; once the ledger is consumed, further steps find nothing and leave the cursor. That
the steps succeed follows if nothing around the loop fails. The size and the number of steps are
arbitrary, so that this covers a last page that is not full, a ledger of full pages only, and the
steps after the end.
-/

namespace ChainIndexer

/-- After a number of steps that succeeded, the stored cursor is behind so many pages, or at the end
of the ledger, and each step has taken just its own page and asked the node for no more than that
takes; and all steps succeed if the node obliges and nothing in the world fails. -/
theorem catches_up (size k : Nat) (full : 1 ≤ size) (begun : 1 ≤ k) (ck : Checkpoint)
    (files : Files) (absent : files.isThere ck.path = false) :
    (∀ (c : Evm.Client) (sc : Scenario) (head : Nat), c.pageSize = size → Evm.StandsStill sc head →
      let r := c.course sc ck files (List.replicate k .step)
      (r.Succeeds → c.CaughtUp ck size head k r) ∧
      (sc.Smooth → ck.Takes files → Evm.Client.Obliging sc c head →
        Numeral.isWritable (head + 1 : Nat) = true → r.Succeeds)) ∧
    (∀ (c : Solana.Client) (sc : Scenario) (rs : List Solana.Record), c.pageSize = size → rs ≠ [] →
      (rs.map Solana.Record.signature).Nodup →
      (Solana.ServesSignatures sc.node c.program fun _ => rs) →
      let r := c.course sc ck files (List.replicate k .step)
      (r.Succeeds → Solana.Client.CaughtUp ck rs size k r) ∧
      (sc.Smooth → ck.Takes files → Solana.Client.Obliging sc c rs → r.Succeeds)) := by
  constructor
  · intro c sc head hsize still r
    refine ⟨Evm.Client.caughtUp_course hsize full still absent begun, ?_⟩
    intro smooth takes obliging writable
    exact Evm.Client.succeeds_course hsize full still absent smooth takes obliging writable k
  · intro c sc rs hsize some distinct serves r
    refine ⟨Solana.Client.caughtUp_course hsize full some distinct serves absent begun, ?_⟩
    intro smooth takes obliging
    exact Solana.Client.succeeds_course hsize distinct serves absent smooth takes obliging k

/-! Four steps with pages of two. The chain has five blocks, of which block one holds a log; the
ledger has three transactions, of which the second one has failed. In both cases the third page is
the last one, and it is not full. -/

section Sample

def stillLedger : List Solana.Record :=
  [Solana.Client.sampleRecord "k" (by decide) .null,
    Solana.Client.sampleRecord "l" (by decide) (.text "failed"),
    Solana.Client.sampleRecord "m" (by decide) .null]

def stillNode (method : String) (params : List Value) : Except Failure Value :=
  if method = "eth_blockNumber" then .ok (.text "0x4")
  else if method = "eth_getLogs" then
    match Evm.requestedBlocks? "0xc" params with
    | some blocks => .ok (.list (blocks.flatMap Evm.Client.twoBlocks))
    | none => .ok .null
  else if method = "getSignaturesForAddress" then
    match Solana.listing? "P" params with
    | some listing => .ok (.list ((Solana.listed stillLedger listing).map Solana.Record.value))
    | none => .ok .null
  else .ok (.object [("meta", .object [("err", .text "unknown")])])

def stillScenario : Scenario where
  node _ := stillNode
  sink _ _ := .accepted
  interrupt _ := none
  breakdown _ := none

def pairsOfBlocks : Evm.Client :=
  { Evm.Client.twoBlocksClient with pageSize := 2 }

theorem stillScenario_smooth : stillScenario.Smooth :=
  ⟨fun _ _ => rfl, fun _ => rfl, fun _ => rfl⟩

theorem takes_nothing : (⟨"cursor"⟩ : Checkpoint).Takes {} :=
  ⟨⟨["cursor.tmp"], by decide +kernel, by decide, by decide⟩,
    ⟨["cursor"], by decide +kernel, by decide, by decide⟩⟩

theorem stillScenario_tells (time : Nat) : Evm.TellsHead stillScenario time (.text "0x4") 4 :=
  ⟨rfl, by decide +kernel⟩

theorem stillScenario_standsStill : Evm.StandsStill stillScenario 4 := by
  intro time answer told htells
  have htold := stillScenario_tells time
  obtain rfl := Except.ok.inj (htells.answered.symm.trans htold.answered)
  exact Except.ok.inj (htells.reads.symm.trans htold.reads)

/-- A log of an event without a record can be processed at once. -/
theorem handles_initializedLog :
    (pairsOfBlocks.adapter stillScenario.rpc).Handles (Evm.jobOf Evm.Client.initializedLog) := by
  intro s
  have hevent : Evm.Client.eventOf? ⟨Evm.Client.initializedLog⟩ = .ok (some .initialized) :=
    ok_of_toOption (by decide +kernel)
  exact ⟨none, s, (Act.exec_lift_bind hevent _ _).trans (Act.exec_pure _ _)⟩

theorem stillScenario_logs (time : Nat) (params : List Value) (blocks : List Nat)
    (h : Evm.requestedBlocks? "0xc" params = some blocks) :
    stillScenario.node time "eth_getLogs" params =
      .ok (.list (blocks.flatMap Evm.Client.twoBlocks)) := by
  change (match Evm.requestedBlocks? "0xc" params with | some blocks => _ | none => _) = _
  rw [h]

theorem eq_initializedLog {blocks : List Nat} {log : Value}
    (h : log ∈ blocks.flatMap Evm.Client.twoBlocks) : log = Evm.Client.initializedLog := by
  obtain ⟨b, -, hb⟩ := List.mem_flatMap.mp h
  unfold Evm.Client.twoBlocks at hb
  split at hb
  · exact List.mem_singleton.mp hb
  · cases hb

theorem readable_twoBlocks (blocks : List Nat) :
    Evm.Readable (blocks.flatMap Evm.Client.twoBlocks) where
  objects log hlog := by
    rw [eq_initializedLog hlog]
    exact ⟨_, rfl⟩
  placed log hlog _ := by
    rw [eq_initializedLog hlog]
    exact ⟨⟨1, 0, ⟨Evm.Client.initializedLog⟩⟩, rfl⟩

theorem stillScenario_obliging_blocks : Evm.Client.Obliging stillScenario pairsOfBlocks 4 where
  tells time := ⟨_, stillScenario_tells time⟩
  logs time first last _ _ := by
    have hrequest := Evm.Client.requestedBlocks?_logsRequest pairsOfBlocks first last
    refine ⟨_, stillScenario_logs time _ _ hrequest, readable_twoBlocks _, fun log hlog _ => ?_⟩
    rw [eq_initializedLog hlog]
    exact handles_initializedLog

theorem stillLedger_distinct : (stillLedger.map Solana.Record.signature).Nodup := by
  simp [stillLedger, Solana.Client.sampleRecord]

theorem stillScenario_lists (time : Nat) (params : List Value) (listing : Solana.Listing)
    (h : Solana.listing? "P" params = some listing) :
    stillScenario.node time "getSignaturesForAddress" params =
      .ok (.list ((Solana.listed stillLedger listing).map Solana.Record.value)) := by
  change (match Solana.listing? "P" params with | some listing => _ | none => _) = _
  rw [h]

theorem stillScenario_serves :
    Solana.ServesSignatures stillScenario.node "P" fun _ => stillLedger :=
  Solana.servesSignatures_of_listed (Solana.grows_still stillLedger_distinct) stillScenario_lists

theorem stillScenario_obliging_ledger :
    Solana.Client.Obliging stillScenario Solana.Client.sampleClient stillLedger where
  answers time params listing hlisting := ⟨_, stillScenario_lists time params listing hlisting⟩
  patience := by decide
  handles record _ _ s := ⟨none, _, rfl⟩

theorem still_caughtUp :
    let c := pairsOfBlocks
    let r := c.course stillScenario ⟨"cursor"⟩ {} (List.replicate 4 .step)
    let r' := Solana.Client.sampleClient.course stillScenario ⟨"cursor"⟩ {} (List.replicate 4 .step)
    (r.Succeeds ∧ c.CaughtUp ⟨"cursor"⟩ 2 4 4 r) ∧
      (r'.Succeeds ∧ Solana.Client.CaughtUp ⟨"cursor"⟩ stillLedger 2 4 r') := by
  obtain ⟨hblocks, hledger⟩ :=
    catches_up 2 4 (by decide) (by decide) ⟨"cursor"⟩ {} (by decide)
  obtain ⟨hcaught, hsucceeds⟩ := hblocks pairsOfBlocks stillScenario 4 rfl stillScenario_standsStill
  obtain ⟨hcaught', hsucceeds'⟩ := hledger Solana.Client.sampleClient stillScenario stillLedger rfl
    (by simp [stillLedger]) stillLedger_distinct stillScenario_serves
  have hr := hsucceeds stillScenario_smooth takes_nothing stillScenario_obliging_blocks
    (Numeral.isWritable_of_lt (by decide))
  have hr' := hsucceeds' stillScenario_smooth takes_nothing stillScenario_obliging_ledger
  exact ⟨⟨hr, hcaught hr⟩, hr', hcaught' hr'⟩

end Sample

end ChainIndexer
