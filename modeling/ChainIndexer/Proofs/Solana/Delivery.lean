import ChainIndexer.Proofs.Solana.Coverage
import ChainIndexer.Proofs.Solana.Keys

/-!
The keys of the transactions of a ledger reach the sink in the order of the ledger. As the ledger
grows, a page that is delivered again may be longer than the first time; what was accepted of the
first one is a beginning of it. The ledger whose keys are meant is the one at the end of the run.
-/

namespace ChainIndexer.Solana.Client

open Act

/-- The keys of the transactions that a cursor says to have been consumed. -/
def keysConsumed (c : Client) (contents : String → Value) (rs : List Record) (cursor : Cursor) :
    List String :=
  match signatureOf cursor with
  | .ok newer => c.ledgerKeys contents (rs.take (rs.length - (behind rs newer).length))
  | .error _ => []

/-- The keys of the transactions of a ledger before a cursor. -/
def KeysBehind (c : Client) (contents : String → Value) (rs : List Record) (cursor : Cursor)
    (ks : List String) : Prop :=
  ∃ before, before <+: rs ∧ cursor = cursorBehind before ∧ ks = c.ledgerKeys contents before

variable {sc : Scenario} {c : Client} {ck : Checkpoint} {contents : String → Value}
  {ledger : Nat → List Record}

theorem keysConsumed_eq {rs : List Record} (hdistinct : (rs.map Record.signature).Nodup)
    {cursor : Cursor} {ks : List String} (h : c.KeysBehind contents rs cursor ks) :
    c.keysConsumed contents rs cursor = ks := by
  obtain ⟨before, ⟨after, rfl⟩, rfl, rfl⟩ := h
  unfold keysConsumed
  rw [signatureOf_cursorBehind]
  dsimp only
  rw [behind_eq hdistinct (endsAt_endOf before)]
  simp

theorem KeysBehind.mono {rs rs' : List Record} (h : rs <+: rs') (cursor : Cursor)
    (ks : List String) (hbehind : c.KeysBehind contents rs cursor ks) :
    c.KeysBehind contents rs' cursor ks := by
  obtain ⟨before, hbefore, hcursor, hks⟩ := hbehind
  exact ⟨before, hbefore.trans h, hcursor, hks⟩

/-- The payloads of a job with a proper signature have the keys of the job. -/
def YieldsProper (c : Client) (contents : String → Value) (j : Job)
    (payloads : List Push.Payload) : Prop :=
  ∀ signature slot, j = .transaction ⟨.text signature, slot⟩ →
    Yields (c.keysOf contents) j payloads

theorem processes_yielding (serves : ServesTransactions sc.node contents) (c : Client) :
    (c.telling sc).Processes (fun s s' => s' = s) IsRequest (c.YieldsProper contents) :=
  ⟨process_keeps sc c, fun _ _ _ _ h _ _ hj => process_yields serves h hj⟩

/-- The jobs of a page have proper signatures. -/
theorem yields_of_mem_jobsIn {taken : List Record} {j : Job} (hj : j ∈ jobsIn taken)
    (payloads : List Push.Payload) (h : c.YieldsProper contents j payloads) :
    Yields (c.keysOf contents) j payloads := by
  obtain ⟨t, ht, rfl⟩ := List.mem_map.mp hj
  obtain ⟨e, he, rfl⟩ := List.mem_map.mp ht
  obtain ⟨r, -, rfl⟩ := List.mem_map.mp (List.mem_filter.mp he).1
  exact h _ _ rfl

/-- The keys of the jobs of a page are those of its transactions. -/
theorem keysOf_jobsIn (c : Client) (contents : String → Value) (taken : List Record) :
    (jobsIn taken).flatMap (c.keysOf contents) = c.ledgerKeys contents taken := by
  induction taken with
  | nil => rfl
  | cons r rest ih =>
    have hcons : c.ledgerKeys contents (r :: rest) =
        c.recordKeys contents r ++ c.ledgerKeys contents rest := List.flatMap_cons
    rw [hcons, ← ih]
    unfold jobsIn jobsOf recordKeys
    rw [List.map_cons, List.filter_cons]
    change List.flatMap _ (List.map _ (List.map _ (if r.err.isNull = true then _ else _))) = _
    split
    · rfl
    · rfl

/-- The invariant of a run: where it stands, it delivers the transactions of the ledger. -/
def DeliversLedger (c : Client) (ck : Checkpoint) (contents : String → Value)
    (ledger : Nat → List Record) (r : Course Backlog) : Prop :=
  ∃ consumed, Stands ck ledger r.memory r.world consumed ∧
    Delivering ck (c.KeysBehind contents (ledger r.world.clock))
      (c.ledgerKeys contents (ledger r.world.clock)) r (c.ledgerKeys contents consumed)

/-- The keys of a page follow those of what is consumed. -/
theorem ledgerKeys_page (c : Client) (contents : String → Value) (consumed taken : List Record) :
    c.ledgerKeys contents consumed ++ (jobsIn taken).flatMap (c.keysOf contents) =
      c.ledgerKeys contents (consumed ++ taken) := by
  rw [keysOf_jobsIn, ledgerKeys_append]

theorem delivers_step (grows : Grows ledger) (serves : ServesSignatures sc.node c.program ledger)
    (fixed : ServesTransactions sc.node contents) {r : Course Backlog}
    (h : DeliversLedger c ck contents ledger r) :
    DeliversLedger c ck contents ledger (r.step (sc.indexer ck (c.telling sc))) := by
  obtain ⟨consumed, hstands, hdelivers⟩ := h
  -- a step ends with a longer ledger than it began with
  have hlater : ∀ clock, r.world.clock ≤ clock →
      Delivering ck (c.KeysBehind contents (ledger clock)) (c.ledgerKeys contents (ledger clock)) r
        (c.ledgerKeys contents consumed) := fun clock hclock =>
    hdelivers.mono (KeysBehind.mono (grows.later hclock))
      (ledgerKeys_mono c contents (grows.later hclock))
  have hkeys := ledgerKeys_page c contents consumed
  rcases Course.step_cases (sc.indexer ck (c.telling sc)) r with
    ⟨k, b, w, hexec, heq⟩ | ⟨e, b, w, hexec, heq⟩
  · obtain ⟨taken, asks, es, content, hasks, hdelivered, hevents, hcontent, hstands', hclock⟩ :=
      step_page (processes_yielding fixed c) grows serves hstands hexec
    have hsilent : ∀ e ∈ asks ++ [.paged (taken.map Record.entry)], IsSilent e := by
      intro e he
      rcases List.mem_append.mp he with he | he
      · exact isSilent_of_isRequest (hasks e he)
      · rw [List.mem_singleton.mp he]
        trivial
    have hproper := hdelivered.mono (fun _ => id) fun j hj => yields_of_mem_jobsIn hj
    have hcommitted := (hlater w.clock hclock).committed heq
      (ledgerKeys_nodup c contents (grows.distinct w.clock))
      (hkeys taken ▸ ledgerKeys_mono c contents hstands'.beginning) hsilent
      (fun e he => isSilent_of_isRequest he) hproper hevents hcontent hstands'.stored
      ⟨consumed ++ taken, hstands'.beginning, rfl, hkeys taken⟩
    rw [hkeys taken] at hcommitted
    refine ⟨consumed ++ taken, ?_, ?_⟩
    · rw [heq]
      exact hstands'
    · rw [heq] at hcommitted ⊢
      exact hcommitted
  · obtain ⟨hstands', hclock, taken, htaken, hbroken⟩ :=
      step_broken (processes_yielding fixed c) grows serves hstands hexec
    have hproper := hbroken.mono (fun _ => id) fun j hj => yields_of_mem_jobsIn hj
    have hkept := (hlater w.clock hclock).broken heq
      (ledgerKeys_nodup c contents (grows.distinct w.clock))
      (hkeys taken ▸ ledgerKeys_mono c contents htaken) hproper
      (hstands'.stored.trans hstands.stored.symm)
    refine ⟨consumed, ?_, ?_⟩
    · rw [heq]
      exact hstands'
    · rw [heq] at hkept ⊢
      exact hkept

theorem delivers_course (grows : Grows ledger)
    (serves : ServesSignatures sc.node c.program ledger)
    (fixed : ServesTransactions sc.node contents) {files : Files}
    (absent : files.isThere ck.path = false) (turns : List Turn) :
    DeliversLedger c ck contents ledger (c.course sc ck files turns) := by
  refine Course.run_induction ?_ ?_ ?_ turns
  · have hstored : ck.stored files = .ok .start := Checkpoint.stored_absent absent
    refine ⟨[], ⟨List.nil_prefix, hstored, Backlog.fits_empty _⟩, hstored, ?_⟩
    exact Always.start ⟨[], List.nil_prefix, rfl, rfl⟩
  · exact fun r hr => delivers_step grows serves fixed hr
  · rintro r ⟨consumed, hstands, hdelivers⟩
    exact ⟨consumed, ⟨hstands.beginning, hstands.stored, Backlog.fits_empty _⟩,
      hdelivers.restart _⟩

end ChainIndexer.Solana.Client
