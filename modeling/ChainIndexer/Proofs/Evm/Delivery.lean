import ChainIndexer.Proofs.Evm.Coverage
import ChainIndexer.Proofs.Evm.Order

/-!
The keys of the logs of a chain reach the sink in the order of the chain. The invariant of a run,
`Delivering`, says that the account of the run is exact at every moment, and that the stored cursor
is the one on the account. A page ends where the head was when it was fetched, so that a step may
deliver more or less than the step before it that broke down.
-/

namespace ChainIndexer.Evm.Client

open Act

/-- The keys of the blocks that a cursor says to have been consumed. -/
def keysConsumed (c : Client) (chain : Nat → List Value) (cursor : Cursor) : List String :=
  match heightOf cursor with
  | .ok height => c.keysBelow chain height.toInt.toNat
  | .error _ => []

/-- The keys below the height of a cursor. -/
def KeysBehind (c : Client) (chain : Nat → List Value) (cursor : Cursor) (ks : List String) : Prop :=
  ∃ height, CursorAt height cursor ∧ ks = c.keysBelow chain height

variable {sc : Scenario} {c : Client} {ck : Checkpoint} {chain : Nat → List Value}

theorem keysConsumed_eq {cursor : Cursor} {ks : List String} (h : c.KeysBehind chain cursor ks) :
    c.keysConsumed chain cursor = ks := by
  obtain ⟨height, hcursor, rfl⟩ := h
  obtain ⟨first, hfirst, hheight⟩ := heightOf_cursorAt hcursor
  unfold keysConsumed
  rw [hfirst]
  dsimp only
  rw [hheight, Int.toNat_natCast]

theorem processes_yielding (sc : Scenario) (c : Client) :
    (c.adapter sc.rpc).Processes (fun _ _ => True) IsLookup (Yields c.keysOf) :=
  ⟨process_keeps sc c, fun _ _ _ _ h => process_yields h⟩

/-- The keys of a page follow those below it. -/
theorem keysBelow_page (placed : WellPlaced chain) {height count : Nat} {ordered : List LogJob}
    (h : IsPage chain (List.range' height count) ordered) :
    c.keysBelow chain height ++ (ordered.map Job.log).flatMap c.keysOf =
      c.keysBelow chain (height + count) := by
  obtain ⟨logs, live, hlogs, hlive, horder⟩ := h
  rw [inOrder_canonical placed hlogs hlive horder, keysBelow_add, List.map_map]
  rfl

/-- The invariant of a run: at the height of the stored cursor, the run delivers the logs of a
chain, of which it has come to know some blocks. -/
def DeliversBelow (c : Client) (ck : Checkpoint) (chain : Nat → List Value)
    (r : Course Timestamps) : Prop :=
  ∃ height bound, CursorAt height (committedIn r.events) ∧
    Delivering ck (c.KeysBehind chain) (c.keysBelow chain bound) r (c.keysBelow chain height)

theorem delivers_step (serves : ServesLogs sc.node c.contract chain) (placed : WellPlaced chain)
    {r : Course Timestamps} (h : DeliversBelow c ck chain r) :
    DeliversBelow c ck chain (r.step (sc.indexer ck (c.adapter sc.rpc))) := by
  obtain ⟨height, bound, hcursor, hdelivers⟩ := h
  have hat : AtHeight ck r.world.files height := ⟨_, hdelivers.stored, hcursor⟩
  -- the page ends at a height that may lie behind or before all that is known
  have hlater : ∀ count, Delivering ck (c.KeysBehind chain)
      (c.keysBelow chain (max bound (height + count))) r (c.keysBelow chain height) ∧
      c.keysBelow chain (height + count) <+: c.keysBelow chain (max bound (height + count)) := by
    intro count
    refine ⟨hdelivers.mono (fun _ _ => id) (keysBelow_le c chain ?_), keysBelow_le c chain ?_⟩
    · exact Nat.le_max_left _ _
    · exact Nat.le_max_right _ _
  rcases Course.step_cases (sc.indexer ck (c.adapter sc.rpc)) r with
    ⟨k, m, w, hexec, heq⟩ | ⟨e, m, w, hexec, heq⟩
  · obtain ⟨count, ordered, asks, es, content, next, hpage, hasks, -, hdelivered, hevents, hcontent,
      hstored, hnext⟩ := step_page (processes_yielding sc c) serves hat hexec
    obtain ⟨hdelivers', hknown⟩ := hlater count
    have hkeys := keysBelow_page (c := c) placed hpage
    have hcommitted := hdelivers'.committed heq (keysBelow_nodup placed c _) (hkeys ▸ hknown)
      (fun e he => isSilent_of_isRequest (hasks e he))
      (fun e he => isSilent_of_isRequest (isRequest_of_isLookup he)) hdelivered hevents hcontent
      hstored ⟨height + count, hnext, hkeys⟩
    refine ⟨height + count, max bound (height + count), ?_, hkeys ▸ hcommitted⟩
    have hfile := hcommitted.stored
    rw [heq] at hfile ⊢
    obtain rfl := Except.ok.inj (hstored.symm.trans hfile)
    exact hnext
  · obtain ⟨hstored, count, ordered, hpage, hbroken⟩ :=
      step_broken (processes_yielding sc c) serves hat hexec
    obtain ⟨hdelivers', hknown⟩ := hlater count
    have hkeys := keysBelow_page (c := c) placed hpage
    have hkept := hdelivers'.broken heq (keysBelow_nodup placed c _) (hkeys ▸ hknown)
      (hbroken.mono (fun e => isSilent_of_isRequest) fun _ _ _ => id) hstored
    refine ⟨height, max bound (height + count), ?_, hkept⟩
    have hfile := hkept.stored
    rw [heq] at hfile ⊢
    have hsame := hfile.symm.trans (hstored.trans hdelivers.stored)
    rw [Except.ok.inj hsame]
    exact hcursor

theorem delivers_course (serves : ServesLogs sc.node c.contract chain) (placed : WellPlaced chain)
    {files : Files} (absent : files.isThere ck.path = false) (turns : List Turn) :
    DeliversBelow c ck chain (c.course sc ck files turns) := by
  refine Course.run_induction ?_ ?_ ?_ turns
  · have hstart : CursorAt 0 .start := Or.inl ⟨rfl, rfl⟩
    refine ⟨0, 0, hstart, Checkpoint.stored_absent absent, ?_⟩
    exact Always.start ⟨0, hstart, rfl⟩
  · exact fun r hr => delivers_step serves placed hr
  · rintro r ⟨height, bound, hcursor, hdelivers⟩
    exact ⟨height, bound, hcursor, hdelivers.restart _⟩

end ChainIndexer.Evm.Client
