import ChainIndexer.Proofs.Solana.Coverage

/-!
What the backlog of a client is worth to its caller. A client is called over and over, from any
positions of a ledger in any order; a call may fail, and the ledger may grow at any time. Whatever
has happened before, a call gives what a client would give that was built a moment ago, except that
it may not have seen the latest transactions (`call_transparent`). The invariant is `EndsIn`: a
backlog that holds anything is the end of the ledger as it was when its walk began, and says what it
follows there. As signatures differ, what follows a cursor there is what follows it now, as far as
the ledger had come then.
-/

namespace ChainIndexer.Solana

open Act

/-- A position on a ledger: its beginning, or one of its transactions. -/
def IsPosition (rs : List Record) : Cursor → Prop
  | .start => True
  | .block .. => False
  | .transaction s _ => ∃ r ∈ rs, r.signature = s

instance {rs : List Record} : DecidablePred (IsPosition rs)
  | .start => .isTrue trivial
  | .block .. => .isFalse id
  | .transaction s _ => inferInstanceAs (Decidable (∃ r ∈ rs, r.signature = s))

/-- A position is behind some beginning of the ledger. -/
theorem IsPosition.split {rs : List Record} {cursor : Cursor} (h : IsPosition rs cursor) :
    ∃ before after, rs = before ++ after ∧ cursor = cursorBehind before := by
  cases cursor with
  | start => exact ⟨[], rs, rfl, rfl⟩
  | block => exact h.elim
  | transaction s nonempty =>
    obtain ⟨r, hr, rfl⟩ := h
    obtain ⟨init, after, rfl⟩ := List.append_of_mem hr
    exact ⟨init ++ [r], after, by simp, by simp [cursorBehind]⟩

/-- A page of a ledger from a cursor: the transactions that it consumes stand right behind the
cursor, its jobs are those among them that did not fail, and it comes with the cursor behind them.
-/
def Consumes (rs : List Record) (cursor : Cursor) (result : List TransactionJob × Cursor)
    (page : List Record) : Prop :=
  ∃ before rest, rs = before ++ page ++ rest ∧ cursor = cursorBehind before ∧
    result = (Client.jobsOf (page.map Record.entry), cursorBehind (before ++ page))

/-- A backlog that holds anything is the end of a ledger, and says what it follows there. -/
def Backlog.EndsIn (b : Backlog) (rs : List Record) : Prop :=
  b.entries ≠ [] → ∃ before between, rs = before ++ between ∧
    b.entries = between.map Record.entry ∧ b.after = Value.ofText? (endOf before)

/-- A client between two calls: its backlog, the world, and the time at which the walk began that
the backlog is left of. -/
structure Session where
  backlog : Backlog
  world : World
  walked : Nat

namespace Session

/-- A client that was just built. -/
def built (w : World) : Session :=
  ⟨{}, w, w.clock⟩

/-- The time of the walk from which a page was taken. A call that has asked the node has walked. -/
def walkBy (s : Session) (w' : World) : Nat :=
  if w'.clock = s.world.clock then s.walked else s.world.clock

/-- A call from a cursor: its result, and the session after it. -/
def call (c : Client) (sc : Scenario) (s : Session) (cursor : Cursor) :
    Except Failure (List TransactionJob × Cursor) × Session :=
  let (result, backlog, world) := Act.exec (c.fetchPage sc.rpc cursor) (s.backlog, s.world)
  (result, ⟨backlog, world, if result.isOk then s.walkBy world else s.walked⟩)

/-- The sessions that a client can come to by calls from positions of a ledger. Between two calls
time may go by. -/
inductive Reached (c : Client) (sc : Scenario) (ledger : Nat → List Record) : Session → Prop
  | built (w : World) : Reached c sc ledger (built w)
  | later {s : Session} {w : World} (h : Reached c sc ledger s) (hclock : s.world.clock ≤ w.clock) :
      Reached c sc ledger { s with world := w }
  | call {s : Session} {cursor : Cursor} (h : Reached c sc ledger s)
      (hposition : IsPosition (ledger s.world.clock) cursor) :
      Reached c sc ledger (s.call c sc cursor).2

variable {c : Client} {sc : Scenario} {ledger : Nat → List Record} {s s' : Session}
  {cursor : Cursor}

/-- The backlog of a session is the end of the ledger at the time of its walk. -/
structure Sound (ledger : Nat → List Record) (s : Session) : Prop where
  past : s.walked ≤ s.world.clock
  endsIn : s.backlog.EndsIn (ledger s.walked)

/-- What is left of the end of a ledger behind a page is its end as well. -/
private theorem endsIn_leftBehind {b : Backlog} {rs before between : List Record} {size : Nat}
    (hrs : rs = before ++ between) (hb : b.EndsIn rs) :
    (Client.leftBehind b before between size).EndsIn rs := by
  unfold Client.leftBehind
  split
  · exact hb
  · intro _
    refine ⟨before ++ between.take size, between.drop size, ?_, rfl, rfl⟩
    rw [hrs, List.append_assoc, List.take_append_drop]

/-- A backlog that follows the end of some transactions holds what was behind them when the ledger
ended with it. -/
private theorem entries_of_endsIn {b : Backlog} {rs old before after : List Record}
    (hb : b.EndsIn old) (hold : old <+: rs) (hdistinct : (rs.map Record.signature).Nodup)
    (hrs : rs = before ++ after) (hentries : b.entries ≠ [])
    (hfollows : b.follows (endOf before) = true) :
    ∃ between, old = before ++ between ∧ between <+: after ∧
      b.entries = between.map Record.entry := by
  obtain ⟨before', between, rfl, heq, hafter⟩ := hb hentries
  obtain ⟨more, rfl⟩ := hold
  have hend := (Client.follows_iff hafter).mp hfollows
  rw [List.append_assoc] at hdistinct hrs
  obtain rfl := eq_of_endOf_eq hdistinct hrs hend
  exact ⟨between, rfl, ⟨more, List.append_cancel_left hrs⟩, heq⟩

/-- What is pending behind some transactions of the ledger is what was behind them when the walk
began from which it stems, be it an earlier walk or one of now; and it is not nothing if there is
anything. -/
private theorem pending_ok (grows : Grows ledger) (serves : ServesSignatures sc.node c.program ledger)
    (hs : s.Sound ledger) {before after : List Record}
    (hledger : ledger s.world.clock = before ++ after) {entries : List Entry} {b' : Backlog}
    {w' : World} (h : Act.exec (c.pending sc.rpc (endOf before)) (s.backlog, s.world) =
      (.ok entries, b', w')) :
    ∃ between, entries = between.map Record.entry ∧ between <+: after ∧
      (between = [] → after = []) ∧ s.world.clock ≤ w'.clock ∧ s.walkBy w' ≤ s.world.clock ∧
      ledger (s.walkBy w') = before ++ between ∧ b'.EndsIn (ledger (s.walkBy w')) := by
  rw [Client.exec_pending] at h
  split at h
  · rename_i hkept
    cases h
    simp only [Bool.and_eq_true, Bool.not_eq_true', List.isEmpty_eq_false_iff] at hkept
    obtain ⟨between, hold, hbetween, heq⟩ := entries_of_endsIn hs.endsIn (grows.later hs.past)
      (grows.distinct s.world.clock) hledger hkept.1 hkept.2
    have hwalked : s.walkBy s.world = s.walked := if_pos rfl
    rw [hwalked]
    refine ⟨between, heq, hbetween, ?_, Nat.le_refl _, hs.past, hold, hs.endsIn⟩
    rintro rfl
    exact absurd heq hkept.1
  · rcases hwalk : Act.exec (c.walk sc.rpc (endOf before)) s.world with ⟨r, w₁⟩
    rw [hwalk] at h
    cases r with
    | error e => cases h
    | ok found =>
      obtain ⟨hfound, hclock⟩ := Client.walk_ok grows serves hledger (endsAt_endOf before) hwalk
      cases h
      have hlater : s.world.clock < w'.clock := by
        rw [hclock]
        exact Nat.lt_succ_of_le (Nat.le_add_right _ _)
      have hwalked : s.walkBy w' = s.world.clock := if_neg (Nat.ne_of_gt hlater)
      rw [hwalked]
      exact ⟨after, hfound, List.prefix_rfl, id, Nat.le_of_lt hlater, Nat.le_refl _, hledger,
        fun _ => ⟨before, after, hledger, hfound, rfl⟩⟩

theorem exec_fetchPage {before : List Record} {b b' : Backlog} {w w' : World}
    {found : Except Failure (List Entry × Cursor)}
    (h : Act.exec (c.takePage sc.rpc (cursorBehind before)) (b, w) = (found, b', w')) :
    Act.exec (c.fetchPage sc.rpc (cursorBehind before)) (b, w) =
      (found.map fun p => (Client.jobsOf p.1, p.2), b', w') := by
  have hjobs := exec_bind_pure (c.takePage sc.rpc (cursorBehind before))
    (fun p => (Client.jobsOf p.1, p.2)) (b, w)
  rw [h] at hjobs
  exact hjobs

/-- A call that succeeds gives the first of the transactions that were behind the cursor when the
walk began from which the backlog stems. -/
theorem call_ok (grows : Grows ledger) (serves : ServesSignatures sc.node c.program ledger)
    (hs : s.Sound ledger) {before after : List Record}
    (hledger : ledger s.world.clock = before ++ after) {r : List TransactionJob × Cursor}
    (h : s.call c sc (cursorBehind before) = (.ok r, s')) :
    s'.Sound ledger ∧ s'.walked = s.walkBy s'.world ∧
      ∃ between, ledger s'.walked = before ++ between ∧ between <+: after ∧
        (between = [] → after = []) ∧
        r = (Client.jobsOf ((between.take c.pageSize.toNat).map Record.entry),
          cursorBehind (before ++ between.take c.pageSize.toNat)) := by
  rcases hpending : Act.exec (c.pending sc.rpc (endOf before)) (s.backlog, s.world) with
    ⟨found, b₁, w₁⟩
  cases found with
  | error e =>
    rw [call, exec_fetchPage (Client.takePage_of_pending_error hpending)] at h
    cases h
  | ok entries =>
    obtain ⟨between, rfl, hbetween, hany, hclock, hpast, hthen, hends⟩ :=
      pending_ok grows serves hs hledger hpending
    rw [call, exec_fetchPage (Client.takePage_of_pending hpending)] at h
    cases h
    refine ⟨⟨Nat.le_trans hpast hclock, ?_⟩, rfl, between, hthen, hbetween, hany, rfl⟩
    exact endsIn_leftBehind hthen hends

/-- A call that fails leaves the backlog as it was. -/
theorem call_error (grows : Grows ledger) (serves : ServesSignatures sc.node c.program ledger)
    (hs : s.Sound ledger) {before after : List Record}
    (hledger : ledger s.world.clock = before ++ after) {e : Failure}
    (h : s.call c sc (cursorBehind before) = (.error e, s')) :
    s'.backlog = s.backlog ∧ s'.walked = s.walked ∧ s.world.clock ≤ s'.world.clock := by
  rcases hpending : Act.exec (c.pending sc.rpc (endOf before)) (s.backlog, s.world) with
    ⟨found, b₁, w₁⟩
  cases found with
  | error e' =>
    rw [call, exec_fetchPage (Client.takePage_of_pending_error hpending)] at h
    cases h
    rw [Client.exec_pending] at hpending
    split at hpending
    · cases hpending
    · rcases hwalk : Act.exec (c.walk sc.rpc (endOf before)) s.world with ⟨r, w₂⟩
      rw [hwalk] at hpending
      obtain ⟨es, hreach, -⟩ :=
        (Client.walkFrom_keeps sc c (endOf before) c.patience .null []).of_exec hwalk
      cases r with
      | ok found => cases hpending
      | error e =>
        cases hpending
        exact ⟨rfl, rfl, hreach.clock⟩
  | ok entries =>
    obtain ⟨between, rfl, -⟩ := pending_ok grows serves hs hledger hpending
    rw [call, exec_fetchPage (Client.takePage_of_pending hpending)] at h
    cases h

theorem sound_built (w : World) : (built w).Sound ledger :=
  ⟨Nat.le_refl _, fun hentries => absurd rfl hentries⟩

/-- The backlog of every session is the end of the ledger at the time of its walk. -/
theorem Reached.sound (grows : Grows ledger) (serves : ServesSignatures sc.node c.program ledger)
    (h : Reached c sc ledger s) : s.Sound ledger := by
  induction h with
  | built w => exact sound_built w
  | later _ hclock ih => exact ⟨Nat.le_trans ih.past hclock, ih.endsIn⟩
  | @call s cursor _ hposition ih =>
    obtain ⟨before, after, hledger, rfl⟩ := hposition.split
    rcases hcall : s.call c sc (cursorBehind before) with ⟨r, s'⟩
    cases r with
    | ok r => exact (call_ok grows serves ih hledger hcall).1
    | error e =>
      obtain ⟨hbacklog, hwalked, hclock⟩ := call_error grows serves ih hledger hcall
      refine ⟨?_, ?_⟩
      · rw [hwalked]
        exact Nat.le_trans ih.past hclock
      · rw [hbacklog, hwalked]
        exact ih.endsIn

/-- A client that was just built gives the first of all transactions behind the cursor. -/
theorem call_built (grows : Grows ledger) (serves : ServesSignatures sc.node c.program ledger)
    {w : World} {before after : List Record} (hledger : ledger w.clock = before ++ after)
    {r : List TransactionJob × Cursor}
    (h : (built w).call c sc (cursorBehind before) = (.ok r, s')) :
    r = (Client.jobsOf ((after.take c.pageSize.toNat).map Record.entry),
      cursorBehind (before ++ after.take c.pageSize.toNat)) := by
  obtain ⟨-, hwalked, between, hthen, -, -, hr⟩ :=
    call_ok grows serves (sound_built w) hledger h
  have hnow : s'.walked = w.clock := by
    rw [hwalked, walkBy]
    exact ite_self _
  rw [hnow, hledger] at hthen
  rw [hr, List.append_cancel_left hthen]

/-- A client that was just built gives a page, if the node answers. -/
theorem call_built_answered (grows : Grows ledger)
    (serves : ServesSignatures sc.node c.program ledger)
    (answers : AnswersSignatures sc.node c.program) {w : World} {before after : List Record}
    (hledger : ledger w.clock = before ++ after)
    (hpatience : after.length / batchSize < c.patience) :
    ∃ r s', (built w).call c sc (cursorBehind before) = (.ok r, s') := by
  obtain ⟨found, w', hwalk⟩ := Client.walk_answered grows serves answers hledger
    (endsAt_endOf before) hpatience
  obtain ⟨rfl, -⟩ := Client.walk_ok grows serves hledger (endsAt_endOf before) hwalk
  have hpending : Act.exec (c.pending sc.rpc (endOf before)) ({}, w) =
      (.ok (after.map Record.entry), ⟨after.map Record.entry, Value.ofText? (endOf before)⟩, w') := by
    rw [Client.exec_pending, hwalk]
    rfl
  have hfetch := exec_fetchPage (Client.takePage_of_pending hpending)
  rw [call, built, hfetch]
  exact ⟨_, _, rfl⟩

/-- The backlog shows in nothing but that it may be a little old. After any history of calls from
positions of the ledger, a call that succeeds consumes a page that stands right behind its cursor.
A client that was built at this moment, be it on another node of the same ledger, would consume a
page of which this one is a beginning, and not an empty one unless that one is empty; and it would
give the same, if the ledger has not grown since the walk from which the backlog stems. -/
theorem call_transparent (c : Client) (sc : Scenario) (ledger : Nat → List Record)
    (grows : Grows ledger) (serves : ServesSignatures sc.node c.program ledger)
    (s s' : Session) (reached : Reached c sc ledger s) (cursor : Cursor)
    (position : IsPosition (ledger s.world.clock) cursor) (r : List TransactionJob × Cursor)
    (called : s.call c sc cursor = (.ok r, s')) :
    ∃ page page', Consumes (ledger s.world.clock) cursor r page ∧ page <+: page' ∧
      (page' ≠ [] → page ≠ []) ∧
      ∀ (sc' : Scenario) (ledger' : Nat → List Record), Grows ledger' →
        ServesSignatures sc'.node c.program ledger' →
        ledger' s.world.clock = ledger s.world.clock →
        (∀ r' s'', (built s.world).call c sc' cursor = (.ok r', s'') →
          Consumes (ledger s.world.clock) cursor r' page' ∧
            (ledger s'.walked = ledger s.world.clock → r = r')) ∧
        (AnswersSignatures sc'.node c.program →
          (ledger s.world.clock).length / batchSize < c.patience →
          ∃ r' s'', (built s.world).call c sc' cursor = (.ok r', s'')) := by
  obtain ⟨before, after, hledger, rfl⟩ := position.split
  obtain ⟨-, -, between, hthen, ⟨more, rfl⟩, hany, rfl⟩ :=
    call_ok grows serves (reached.sound grows serves) hledger called
  have hpage : between.take c.pageSize.toNat <+: (between ++ more).take c.pageSize.toNat := by
    rw [List.take_append]
    exact List.prefix_append _ _
  have hsplit : ∀ page rest, page ++ rest = between ++ more →
      Consumes (ledger s.world.clock) (cursorBehind before)
        (Client.jobsOf (page.map Record.entry), cursorBehind (before ++ page)) page := by
    intro page rest heq
    exact ⟨before, rest, by rw [hledger, ← heq, List.append_assoc], rfl, rfl⟩
  refine ⟨between.take c.pageSize.toNat, (between ++ more).take c.pageSize.toNat, ?_, hpage, ?_, ?_⟩
  · refine hsplit _ (between.drop c.pageSize.toNat ++ more) ?_
    rw [← List.append_assoc, List.take_append_drop]
  · intro hsome hnone
    rcases List.take_eq_nil_iff.mp hnone with hsize | hbetween
    · exact hsome (by rw [hsize, List.take_zero])
    · exact hsome (by rw [hany hbetween, List.take_nil])
  · intro sc' ledger' grows' serves' hsame
    have hledger' := hsame.trans hledger
    constructor
    · intro r' s'' hbuilt
      obtain rfl := call_built grows' serves' hledger' hbuilt
      refine ⟨hsplit _ _ (List.take_append_drop c.pageSize.toNat _), fun hstill => ?_⟩
      rw [hthen, hledger] at hstill
      rw [← List.append_cancel_left hstill]
    · intro answers' hpatience
      refine call_built_answered grows' serves' answers' hledger' (Nat.lt_of_le_of_lt ?_ hpatience)
      refine Nat.div_le_div_right ?_
      rw [hledger]
      exact (List.suffix_append before (between ++ more)).length_le

/-! A call that is served from the backlog of the one before, while a transaction has come to the
ledger in between. -/

def lateLedger (time : Nat) : List Record :=
  let early :=
    [Client.sampleRecord "e" (by decide) .null, Client.sampleRecord "f" (by decide) .null,
      Client.sampleRecord "g" (by decide) .null]
  if time = 0 then early else early ++ [Client.sampleRecord "h" (by decide) .null]

def lateScenario : Scenario where
  node time _ params :=
    match listing? "P" params with
    | some listing => .ok (.list ((listed (lateLedger time) listing).map Record.value))
    | none => .ok .null
  sink _ _ := .accepted
  interrupt _ := none
  breakdown _ := none

theorem lateLedger_grows : Grows lateLedger := by
  constructor
  · intro t t' ht
    unfold lateLedger
    by_cases hearly : t' = 0
    · obtain rfl : t = 0 := by omega
      simp [hearly]
    · by_cases h : t = 0
      · simp [h, hearly]
      · simp [h, hearly]
  · intro t
    unfold lateLedger
    split <;> simp [Client.sampleRecord]

theorem lateScenario_serves : ServesSignatures lateScenario.node "P" lateLedger := by
  refine servesSignatures_of_listed lateLedger_grows fun time params listing hlisting => ?_
  simp only [lateScenario, hlisting]

/-- The session after a page of two transactions. -/
def lateSession : Session :=
  ((built {}).call Client.sampleClient lateScenario .start).2

/-- The page from the backlog ends before the page of a client that is built now. -/
theorem late_call_transparent :
    let cursor := Cursor.transaction "f" (by decide)
    let rs := lateLedger lateSession.world.clock
    ∃ r r' s' s'' page page',
      lateSession.call Client.sampleClient lateScenario cursor = (.ok r, s') ∧
      (built lateSession.world).call Client.sampleClient lateScenario cursor = (.ok r', s'') ∧
      Consumes rs cursor r page ∧ Consumes rs cursor r' page' ∧ page <+: page' ∧
      r.2 = .transaction "g" (by decide) ∧ r'.2 = .transaction "h" (by decide) := by
  have hreached : Reached Client.sampleClient lateScenario lateLedger lateSession :=
    .call (.built {}) trivial
  obtain ⟨page, page', h, hpage, -, hbuilt⟩ := call_transparent Client.sampleClient lateScenario
    lateLedger lateLedger_grows lateScenario_serves lateSession _ hreached
    (.transaction "f" (by decide)) (by decide +kernel) _ rfl
  have h' := (hbuilt lateScenario lateLedger lateLedger_grows lateScenario_serves rfl).1 _ _ rfl
  exact ⟨_, _, _, _, page, page', rfl, rfl, h, h'.1, hpage, rfl, rfl⟩

end Session

end ChainIndexer.Solana
