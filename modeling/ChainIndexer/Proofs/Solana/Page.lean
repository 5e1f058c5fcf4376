import ChainIndexer.Proofs.Course
import ChainIndexer.Proofs.Solana.Walk

/-!
A page of transactions. The backlog of a client may have run ahead of the committed cursor, because
a step can fail after its page was taken; what always holds is that it is a part of the ledger
without a gap, and that it says correctly what it follows (`Backlog.Fits`). As the signatures
differ, a backlog that follows the cursor is therefore just what comes behind it, and one that does
not is replaced by a new walk. `takePage_spec` draws the consequence: a page that was taken from a
cursor begins right behind it and has no gap, and the cursor that is returned with it is its end.
-/

namespace ChainIndexer.Solana

open Act

/-- The cursor behind some transactions. -/
def cursorBehind (rs : List Record) : Cursor :=
  match rs.getLast? with
  | none => .start
  | some r => .transaction r.signature r.nonempty

/-- The signature at the end of some transactions. -/
def endOf (rs : List Record) : Option String :=
  rs.getLast?.map Record.signature

theorem endsAt_endOf (rs : List Record) : EndsAt rs (endOf rs) := by
  unfold endOf
  cases h : rs.getLast? with
  | none => exact List.getLast?_eq_none_iff.mp h
  | some r => exact ⟨r, h, rfl⟩

private theorem eq_nil_of_endOf_append {before more : List Record}
    (hdistinct : ((before ++ more).map Record.signature).Nodup)
    (hend : endOf (before ++ more) = endOf before) : more = [] := by
  rcases List.eq_nil_or_concat more with rfl | ⟨init, r, rfl⟩
  · rfl
  · rw [List.concat_eq_append] at hdistinct hend
    have hlast : endOf (before ++ (init ++ [r])) = some r.signature := by
      simp [endOf, ← List.append_assoc]
    rw [hlast] at hend
    obtain ⟨r', hr', hsame⟩ := Option.map_eq_some_iff.mp hend.symm
    have hmem : r' ∈ before := List.mem_of_getLast? hr'
    rw [List.map_append, List.nodup_append] at hdistinct
    have hne := hdistinct.2.2 r'.signature (List.mem_map_of_mem hmem) r.signature (by simp)
    exact absurd hsame hne

/-- Beginnings of a list of different signatures that end with the same signature are the same. -/
theorem eq_of_endOf_eq {before before' after after' : List Record}
    (hdistinct : ((before ++ after).map Record.signature).Nodup)
    (h : before ++ after = before' ++ after') (hend : endOf before = endOf before') :
    before = before' := by
  rcases List.append_eq_append_iff.mp h with ⟨more, rfl, -⟩ | ⟨more, rfl, -⟩
  · have hsub : ((before ++ more).map Record.signature).Nodup := by
      rw [h, List.map_append] at hdistinct
      exact (List.nodup_append.mp hdistinct).1
    rw [eq_nil_of_endOf_append hsub hend.symm, List.append_nil]
  · have hsub : ((before' ++ more).map Record.signature).Nodup := by
      rw [List.map_append] at hdistinct
      exact (List.nodup_append.mp hdistinct).1
    rw [eq_nil_of_endOf_append hsub hend, List.append_nil]

/-- A backlog is a part of a ledger, and says what it follows there. -/
def Backlog.Fits (b : Backlog) (rs : List Record) : Prop :=
  ∃ before between after, rs = before ++ between ++ after ∧
    b.entries = between.map Record.entry ∧ b.after = Value.ofText? (endOf before)

theorem Backlog.Fits.mono {b : Backlog} {rs rs' : List Record} (h : b.Fits rs) (hrs : rs <+: rs') :
    b.Fits rs' := by
  obtain ⟨before, between, after, rfl, hentries, hafter⟩ := h
  obtain ⟨more, rfl⟩ := hrs
  exact ⟨before, between, after ++ more, by simp, hentries, hafter⟩

theorem Grows.reached {ledger : Nat → List Record} (h : Grows ledger) {P : Incident → Prop}
    {w w' : World} (htells : World.Tells P w w') : ledger w.clock <+: ledger w'.clock := by
  obtain ⟨es, hreach, -⟩ := htells
  exact h.later hreach.clock

theorem Backlog.fits_empty (rs : List Record) : ({} : Backlog).Fits rs :=
  ⟨[], [], rs, rfl, rfl, rfl⟩

namespace Client

variable {sc : Scenario} {c : Client} {b b' : Backlog} {w w' : World}
  {ledger : Nat → List Record}

theorem follows_iff {b : Backlog} {s s' : Option String} (h : b.after = Value.ofText? s) :
    b.follows s' = true ↔ s = s' := by
  cases s' with
  | none => cases s <;> simp [Backlog.follows, h, Value.ofText?, Value.isNull]
  | some t => cases s <;> simp [Backlog.follows, h, Value.ofText?, Value.isText]

/-- A backlog that fits and follows the end of some transactions holds those right behind them. -/
private theorem entries_of_follows {rs before after : List Record} (hfits : b.Fits rs)
    (hdistinct : (rs.map Record.signature).Nodup) (hledger : rs = before ++ after)
    (hfollows : b.follows (endOf before) = true) :
    ∃ between rest, rs = before ++ between ++ rest ∧ b.entries = between.map Record.entry := by
  obtain ⟨before', between, rest, hrs, hentries, hafter⟩ := hfits
  have hend := (follows_iff hafter).mp hfollows
  rw [hrs, List.append_assoc] at hdistinct hledger
  obtain rfl := eq_of_endOf_eq hdistinct hledger hend
  exact ⟨between, rest, hrs, hentries⟩

/-- What is pending behind a signature is the backlog that follows it, if that holds anything, and
otherwise what a new walk finds, which becomes the backlog. -/
theorem exec_pending (c : Client) (sc : Scenario) (newer : Option String) (b : Backlog) (w : World) :
    Act.exec (c.pending sc.rpc newer) (b, w) =
      if !b.entries.isEmpty && b.follows newer then (.ok b.entries, b, w)
      else match Act.exec (c.walk sc.rpc newer) w with
        | (.ok found, w') => (.ok found, ⟨found, Value.ofText? newer⟩, w')
        | (.error e, w') => (.error e, b, w') := by
  have hread : Act.exec (Act.memory : Act (StateT Backlog (StateM World)) Backlog) (b, w) =
      (.ok b, b, w) := exec_memory b w
  unfold pending
  rw [exec_bind_of_ok hread]
  split
  · exact exec_pure _ _
  · rcases hwalk : Act.exec (c.walk sc.rpc newer) w with ⟨r, w'⟩
    have hwithin := exec_within (c.walk sc.rpc newer) b w
    rw [hwalk] at hwithin
    cases r with
    | error e => exact exec_bind_of_error hwithin _
    | ok found =>
      have hset : Act.exec (Act.remember ⟨found, Value.ofText? newer⟩ :
          Act (StateT Backlog (StateM World)) Unit) (b, w') =
          (.ok (), ⟨found, Value.ofText? newer⟩, w') := exec_remember _ _ _
      rw [exec_bind_of_ok hwithin, exec_bind_of_ok hset, exec_pure]

/-- Looking for what is pending behind a position leaves a backlog that fits, and what is found are
the transactions of the ledger behind the position, as far as they go. -/
theorem pending_spec (grows : Grows ledger) (serves : ServesSignatures sc.node c.program ledger)
    {r : Except Failure (List Entry)} {before after : List Record}
    (hfits : b.Fits (ledger w.clock)) (hledger : ledger w.clock = before ++ after)
    (h : Act.exec (c.pending sc.rpc (endOf before)) (b, w) = (r, b', w')) :
    World.Tells IsRequest w w' ∧ b'.Fits (ledger w'.clock) ∧
      ∀ entries, r = .ok entries → ∃ between rest,
        ledger w.clock = before ++ between ++ rest ∧ entries = between.map Record.entry := by
  rw [exec_pending] at h
  split at h
  · rename_i hfollows
    cases h
    refine ⟨Lasting.refl _, hfits, fun entries heq => ?_⟩
    obtain rfl := Except.ok.inj heq
    simp only [Bool.and_eq_true] at hfollows
    exact entries_of_follows hfits (grows.distinct w.clock) hledger hfollows.2
  · rcases hwalk : Act.exec (c.walk sc.rpc (endOf before)) w with ⟨r', w₁⟩
    have hrequests : World.Tells IsRequest w w₁ :=
      (walkFrom_keeps sc c (endOf before) c.patience .null []).of_exec hwalk
    have hgrown : ledger w.clock <+: ledger w₁.clock := grows.reached hrequests
    rw [hwalk] at h
    cases r' with
    | error e =>
      cases h
      exact ⟨hrequests, hfits.mono hgrown, fun entries heq => by cases heq⟩
    | ok found =>
      have hfound := (walk_ok grows serves hledger (endsAt_endOf before) hwalk).1
      cases h
      refine ⟨hrequests, ?_, fun entries heq => ⟨after, [], by simpa using hledger, ?_⟩⟩
      · refine Backlog.Fits.mono ?_ hgrown
        exact ⟨before, after, [], by simpa using hledger, hfound, rfl⟩
      · rw [← Except.ok.inj heq, hfound]

theorem signatureOf_cursorBehind (rs : List Record) :
    signatureOf (cursorBehind rs) = .ok (endOf rs) := by
  unfold cursorBehind endOf
  cases rs.getLast? <;> rfl

private theorem exec_signatureOf (before : List Record) (b : Backlog) (w : World) :
    Act.exec (liftM (signatureOf (cursorBehind before)) :
      Act (StateT Backlog (StateM World)) (Option String)) (b, w) = (.ok (endOf before), b, w) := by
  rw [exec_lift, signatureOf_cursorBehind]

private theorem cursorBehind_last (before : List Record) {taken : List Record} {last : Record}
    (hlast : taken.getLast? = some last) :
    Cursor.ofSignatureValue last.entry.signature = .ok (cursorBehind (before ++ taken)) := by
  have hbehind : cursorBehind (before ++ taken) = .transaction last.signature last.nonempty := by
    unfold cursorBehind
    rw [List.getLast?_append, hlast]
    rfl
  rw [hbehind]
  simp [Record.entry, Cursor.ofSignatureValue, Cursor.ofSignature, last.nonempty]

/-- What is taken off entries that are pending, if that is anything, is kept as the backlog behind
the page. -/
private theorem exec_take (before left : List Record) {taken : List Record} {last : Record}
    (hlast : taken.getLast? = some last) (b : Backlog) (w : World) :
    Act.exec (do
        Act.remember ⟨((taken ++ left).map Record.entry).drop (taken.map Record.entry).length,
          last.entry.signature⟩
        let next ← Cursor.ofSignatureValue last.entry.signature
        return (taken.map Record.entry, next) :
      Act (StateT Backlog (StateM World)) (List Entry × Cursor)) (b, w) =
      (.ok (taken.map Record.entry, cursorBehind (before ++ taken)),
        ⟨left.map Record.entry, last.entry.signature⟩, w) := by
  have hset := exec_remember (n := StateM World)
    (⟨left.map Record.entry, last.entry.signature⟩ : Backlog) b w
  have hnext : Act.exec (liftM (Cursor.ofSignatureValue last.entry.signature) :
      Act (StateT Backlog (StateM World)) Cursor)
      (⟨left.map Record.entry, last.entry.signature⟩, w) =
      (.ok (cursorBehind (before ++ taken)),
        ⟨left.map Record.entry, last.entry.signature⟩, w) := by
    rw [exec_lift, cursorBehind_last before hlast]
  rw [List.map_append, List.drop_left, exec_bind_of_ok hset, exec_bind_of_ok hnext, exec_pure]

/-- The backlog behind a page of some size that was taken off what is pending behind some
transactions. A page of nothing leaves the backlog as it was. -/
def leftBehind (b : Backlog) (before between : List Record) (size : Nat) : Backlog :=
  if between.take size = [] then b
  else ⟨(between.drop size).map Record.entry, Value.ofText? (endOf (before ++ between.take size))⟩

/-- Taking a page from the cursor behind some transactions takes the first ones off those that are
pending, and the cursor that comes with the page is behind it. -/
theorem takePage_of_pending {before between : List Record}
    (h : Act.exec (c.pending sc.rpc (endOf before)) (b, w) =
      (.ok (between.map Record.entry), b', w')) :
    Act.exec (c.takePage sc.rpc (cursorBehind before)) (b, w) =
      (.ok ((between.take c.pageSize.toNat).map Record.entry,
          cursorBehind (before ++ between.take c.pageSize.toNat)),
        leftBehind b' before between c.pageSize.toNat, w') := by
  unfold takePage leftBehind
  rw [exec_bind_of_ok (exec_signatureOf before b w), exec_bind_of_ok h, ← List.map_take]
  dsimp only
  rw [List.getLast?_map]
  cases hlast : (between.take c.pageSize.toNat).getLast? with
  | none =>
    have hempty : between.take c.pageSize.toNat = [] := List.getLast?_eq_none_iff.mp hlast
    rw [hempty, if_pos rfl, List.append_nil]
    exact exec_pure _ _
  | some last =>
    have hnonempty : between.take c.pageSize.toNat ≠ [] := by
      intro hempty
      rw [hempty] at hlast
      cases hlast
    have hend : Value.ofText? (endOf (before ++ between.take c.pageSize.toNat)) =
        last.entry.signature := by
      simp [endOf, List.getLast?_append, hlast, Value.ofText?, Record.entry]
    have htake := exec_take before (between.drop c.pageSize.toNat) hlast b' w'
    rw [List.take_append_drop] at htake
    rw [if_neg hnonempty, hend]
    exact htake

theorem takePage_of_pending_error {before : List Record} {e : Failure}
    (h : Act.exec (c.pending sc.rpc (endOf before)) (b, w) = (.error e, b', w')) :
    Act.exec (c.takePage sc.rpc (cursorBehind before)) (b, w) = (.error e, b', w') := by
  unfold takePage
  rw [exec_bind_of_ok (exec_signatureOf before b w), exec_bind_of_error h]

/-- Taking a page from the cursor behind some transactions leaves a backlog that fits; the page
holds the transactions right behind them, and the cursor that comes with it is behind the page. -/
theorem takePage_spec (grows : Grows ledger) (serves : ServesSignatures sc.node c.program ledger)
    {r : Except Failure (List Entry × Cursor)} {before after : List Record}
    (hfits : b.Fits (ledger w.clock)) (hledger : ledger w.clock = before ++ after)
    (h : Act.exec (c.takePage sc.rpc (cursorBehind before)) (b, w) = (r, b', w')) :
    World.Tells IsRequest w w' ∧ b'.Fits (ledger w'.clock) ∧
      ∀ page next, r = .ok (page, next) → ∃ between rest,
        ledger w.clock = before ++ between ++ rest ∧ page = between.map Record.entry ∧
        next = cursorBehind (before ++ between) := by
  rcases hpending : Act.exec (c.pending sc.rpc (endOf before)) (b, w) with ⟨r', b₁, w₁⟩
  obtain ⟨hrequests, hfits₁, hfound⟩ := pending_spec grows serves hfits hledger hpending
  cases r' with
  | error e =>
    rw [takePage_of_pending_error hpending] at h
    cases h
    exact ⟨hrequests, hfits₁, fun page next heq => by cases heq⟩
  | ok entries =>
    obtain ⟨between, rest, hrs, rfl⟩ := hfound entries rfl
    rw [takePage_of_pending hpending] at h
    cases h
    have hsplit : ledger w.clock = before ++ between.take c.pageSize.toNat ++
        (between.drop c.pageSize.toNat ++ rest) := by
      rw [hrs]
      nth_rewrite 1 [← List.take_append_drop c.pageSize.toNat between]
      simp only [List.append_assoc]
    refine ⟨hrequests, ?_, fun page next heq => ?_⟩
    · unfold leftBehind
      split
      · exact hfits₁
      · have hrest := hsplit.trans (List.append_assoc _ _ _).symm
        exact Backlog.Fits.mono ⟨_, _, rest, hrest, rfl, rfl⟩ (grows.reached hrequests)
    · cases heq
      exact ⟨_, _, hsplit, rfl, rfl⟩

end Client

end ChainIndexer.Solana
