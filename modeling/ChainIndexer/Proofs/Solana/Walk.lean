import ChainIndexer.Proofs.Solana.Processing
import Mathlib.Data.List.Forall2

/-!
The walk back over the signatures of a program. A ledger is a list of transactions of different
signatures that grows at its end as time goes by, and a node lists parts of it from the newest
transaction to the oldest, a limited number at once. `walkFrom_spec` follows the walk, with the
requests that it makes: what shrinks is the part of the ledger between the position that it walks back
to and the oldest transaction that it has found. So a walk that comes to an end has collected exactly
the transactions behind the position that were there when it began, whatever was added in the
meantime (`walk_ok`). A request that names a signature which is not on the ledger may be answered in
any way.
-/

namespace ChainIndexer.Solana

open Act

/-- A transaction of a ledger. -/
structure Record where
  signature : String
  nonempty : signature ≠ ""
  slot : Value
  err : Value

/-- A transaction as the node lists it. -/
def Record.entry (r : Record) : Entry :=
  ⟨.text r.signature, r.slot, r.err⟩

/-- A ledger, by the time: transactions of different signatures, to which later ones are added. -/
structure Grows (ledger : Nat → List Record) : Prop where
  later : ∀ {t t' : Nat}, t ≤ t' → ledger t <+: ledger t'
  distinct : ∀ t, ((ledger t).map Record.signature).Nodup

/-- The end of a list of transactions has a signature; without one, the list is empty. -/
def EndsAt (rs : List Record) : Option String → Prop
  | none => rs = []
  | some s => ∃ r, rs.getLast? = some r ∧ r.signature = s

/-- The beginning of a list of transactions has a signature; without one, the list is empty. -/
def BeginsAt (rs : List Record) : Option String → Prop
  | none => rs = []
  | some s => ∃ r, rs.head? = some r ∧ r.signature = s

theorem EndsAt.ne_empty {rs : List Record} {s : Option String} (h : EndsAt rs s) : s ≠ some "" := by
  rintro rfl
  obtain ⟨r, -, hr⟩ := h
  exact r.nonempty hr

theorem BeginsAt.ne_empty {rs : List Record} {s : Option String} (h : BeginsAt rs s) :
    s ≠ some "" := by
  rintro rfl
  obtain ⟨r, -, hr⟩ := h
  exact r.nonempty hr

/-- A request for the signatures that are newer than one and older than another. -/
structure Listing where
  limit : Nat
  newer : Option String
  older : Option String

/-- A text in a field, `none` if another value is there. -/
def textField? (fields : List (String × Value)) (key : String) : Option (Option String) :=
  match Value.field? fields key with
  | none => some none
  | some (.text s) => some (some s)
  | some _ => none

/-- The listing that a request for signatures asks for, if it is one for a program. -/
def listing? (program : String) : List Value → Option Listing
  | [.text p, .object fields] =>
    match Value.field? fields "limit", textField? fields "until", textField? fields "before" with
    | some (.int limit), some newer, some older =>
      if p = program then some ⟨limit.toNat, newer, older⟩ else none
    | _, _, _ => none
  | _ => none

/-- A node that answers requests for signatures, whenever it answers, with the newest ones among
those that are asked for, as far as the limit allows. -/
def ServesSignatures (node : Nat → String → List Value → Except Failure Value) (program : String)
    (ledger : Nat → List Record) : Prop :=
  ∀ time params listing answer before between after, listing? program params = some listing →
    node time "getSignaturesForAddress" params = .ok answer →
    ledger time = before ++ between ++ after → EndsAt before listing.newer →
    BeginsAt after listing.older →
    ∃ batch, answer = .list batch ∧
      batch.mapM Client.entryOf = .ok ((between.reverse.take listing.limit).map Record.entry)

/-- A node that answers all requests for signatures. -/
def AnswersSignatures (node : Nat → String → List Value → Except Failure Value)
    (program : String) : Prop :=
  ∀ time params listing, listing? program params = some listing →
    ∃ answer, node time "getSignaturesForAddress" params = .ok answer

/-- A request for the signatures of a program, and what the node answered to it. -/
def AsksSignatures (sc : Scenario) (program : String) (answer : Except Failure Value)
    (e : Incident) : Prop :=
  ∃ time params listing, listing? program params = some listing ∧
    sc.node time "getSignaturesForAddress" params = answer ∧
    e = .asked "getSignaturesForAddress" params answer

/-- What becomes of a walk that finds `entries` with a number of requests: all of them are answered,
or one before the end fails, and with it the walk. -/
inductive Walked (sc : Scenario) (program : String) (entries : List Entry) (batches : Nat) :
    Except Failure (List Entry) → List Incident → Prop
  | whole {calls : List Incident}
      (answered : ∀ e ∈ calls, ∃ answer, AsksSignatures sc program (.ok answer) e)
      (count : calls.length = batches) : Walked sc program entries batches (.ok entries) calls
  | broken {calls : List Incident} {last : Incident} {e : Failure}
      (answered : ∀ e ∈ calls, ∃ answer, AsksSignatures sc program (.ok answer) e)
      (count : calls.length < batches) (failed : AsksSignatures sc program (.error e) last) :
      Walked sc program entries batches (.error e) (calls ++ [last])

/-- A request that is answered comes before a walk over the rest. -/
theorem Walked.cons {sc : Scenario} {program : String} {entries : List Entry} {batches : Nat}
    {r : Except Failure (List Entry)} {calls : List Incident} {first : Incident} {answer : Value}
    (hfirst : AsksSignatures sc program (.ok answer) first)
    (h : Walked sc program entries batches r calls) :
    Walked sc program entries (batches + 1) r (first :: calls) := by
  cases h with
  | whole answered count =>
    exact .whole (List.forall_mem_cons.mpr ⟨⟨answer, hfirst⟩, answered⟩) (congrArg (· + 1) count)
  | broken answered count failed =>
    rw [← List.cons_append]
    exact .broken (List.forall_mem_cons.mpr ⟨⟨answer, hfirst⟩, answered⟩)
      (Nat.succ_lt_succ count) failed

/-- A walk is not broken by a node that answers. -/
theorem Walked.eq_ok {sc : Scenario} {program : String} {entries : List Entry} {batches : Nat}
    {r : Except Failure (List Entry)} {calls : List Incident}
    (h : Walked sc program entries batches r calls) (answers : AnswersSignatures sc.node program) :
    r = .ok entries := by
  cases h with
  | whole => rfl
  | broken _ _ failed =>
    obtain ⟨time, params, listing, hlisting, hfailed, -⟩ := failed
    obtain ⟨answer, hanswer⟩ := answers time params listing hlisting
    rw [hfailed] at hanswer
    cases hanswer

/-- The transactions behind the one with a signature. -/
def behind (rs : List Record) : Option String → List Record
  | none => rs
  | some s => (rs.dropWhile fun r => r.signature != s).drop 1

/-- The transactions before the one with a signature. -/
def ahead (rs : List Record) : Option String → List Record
  | none => rs
  | some s => rs.takeWhile fun r => r.signature != s

/-- What a node lists: the newest transactions between the two signatures. -/
def listed (rs : List Record) (listing : Listing) : List Record :=
  (ahead (behind rs listing.newer) listing.older).reverse.take listing.limit

theorem behind_eq {before after : List Record} {newer : Option String}
    (hdistinct : ((before ++ after).map Record.signature).Nodup) (h : EndsAt before newer) :
    behind (before ++ after) newer = after := by
  cases newer with
  | none =>
    obtain rfl : before = [] := h
    rfl
  | some s =>
    obtain ⟨r, hlast, rfl⟩ := h
    obtain ⟨init, rfl⟩ : ∃ init, before = init ++ [r] :=
      ⟨before.dropLast, (List.dropLast_append_getLast? r hlast).symm⟩
    have hne : ∀ x ∈ init, (x.signature != r.signature) = true := by
      intro x hx
      rw [List.append_assoc, List.map_append, List.nodup_append] at hdistinct
      simpa using hdistinct.2.2 x.signature (List.mem_map_of_mem hx) r.signature (by simp)
    rw [behind, List.append_assoc, List.dropWhile_append_of_pos hne]
    simp

theorem ahead_eq {between after : List Record} {older : Option String}
    (hdistinct : ((between ++ after).map Record.signature).Nodup) (h : BeginsAt after older) :
    ahead (between ++ after) older = between := by
  cases older with
  | none =>
    obtain rfl : after = [] := h
    simp [ahead]
  | some s =>
    obtain ⟨r, hfirst, rfl⟩ := h
    obtain ⟨rest, rfl⟩ := List.head?_eq_some_iff.mp hfirst
    have hne : ∀ x ∈ between, (x.signature != r.signature) = true := by
      intro x hx
      rw [List.map_append, List.nodup_append] at hdistinct
      simpa using hdistinct.2.2 x.signature (List.mem_map_of_mem hx) r.signature (by simp)
    rw [ahead, List.takeWhile_append_of_pos hne]
    simp

theorem listed_eq {before between after : List Record} {listing : Listing}
    (hdistinct : ((before ++ between ++ after).map Record.signature).Nodup)
    (hbefore : EndsAt before listing.newer) (hafter : BeginsAt after listing.older) :
    listed (before ++ between ++ after) listing = between.reverse.take listing.limit := by
  rw [List.append_assoc] at hdistinct
  have hrest : ((between ++ after).map Record.signature).Nodup := by
    rw [List.map_append] at hdistinct
    exact (List.nodup_append.mp hdistinct).2.1
  rw [listed, List.append_assoc, behind_eq hdistinct hbefore, ahead_eq hrest hafter]

/-- A transaction as a value in the answer of a node. -/
def Record.value (r : Record) : Value :=
  .object [("signature", .text r.signature), ("slot", r.slot), ("err", r.err)]

theorem mapM_entryOf (rs : List Record) :
    (rs.map Record.value).mapM Client.entryOf = .ok (rs.map Record.entry) := by
  induction rs with
  | nil => rfl
  | cons r rest ih =>
    have hentry : Client.entryOf r.value = .ok r.entry := rfl
    rw [List.map_cons, List.mapM_cons, hentry, ih]
    rfl

/-- A node that lists what stands between the two signatures serves the signatures of a ledger. -/
theorem servesSignatures_of_listed {node : Nat → String → List Value → Except Failure Value}
    {program : String} {ledger : Nat → List Record} (grows : Grows ledger)
    (hnode : ∀ time params listing, listing? program params = some listing →
      node time "getSignaturesForAddress" params =
        .ok (.list ((listed (ledger time) listing).map Record.value))) :
    ServesSignatures node program ledger := by
  intro time params listing answer before between after hlisting hanswer hledger hbefore hafter
  have hdistinct := grows.distinct time
  rw [hnode time params listing hlisting] at hanswer
  rw [hledger] at hanswer hdistinct
  refine ⟨_, (Except.ok.inj hanswer).symm, ?_⟩
  rw [listed_eq hdistinct hbefore hafter, mapM_entryOf]

namespace Client

variable {sc : Scenario} {c : Client} {w w' : World} {ledger : Nat → List Record}

/-- The parameters of a request for signatures. -/
def listRequest (c : Client) (newer : Option String) (older : Value) : List Value :=
  [.text c.program,
    .object ([("limit", .int batchSize), commitment] ++
      (match newer with
        | some s => if s.isEmpty then [] else [("until", .text s)]
        | none => []) ++
      (if older.truthy then [("before", older)] else []))]

theorem listing?_listRequest (c : Client) {newer older : Option String}
    (hnewer : newer ≠ some "") (holder : older ≠ some "") :
    listing? c.program (c.listRequest newer (Value.ofText? older)) =
      some ⟨batchSize, newer, older⟩ := by
  have hlimit : ((batchSize : Nat) : Int).toNat = batchSize := rfl
  cases newer with
  | none =>
    cases older with
    | none =>
      simp [listing?, listRequest, Value.ofText?, Value.truthy, Value.field?, textField?, commitment]
    | some s =>
      have hs : s ≠ "" := fun h => holder (by rw [h])
      simp [listing?, listRequest, Value.ofText?, Value.truthy, Value.field?, textField?, commitment,
        hs]
  | some t =>
    have ht : t ≠ "" := fun h => hnewer (by rw [h])
    cases older with
    | none =>
      simp [listing?, listRequest, Value.ofText?, Value.truthy, Value.field?, textField?, commitment,
        ht]
    | some s =>
      have hs : s ≠ "" := fun h => holder (by rw [h])
      simp [listing?, listRequest, Value.ofText?, Value.truthy, Value.field?, textField?, commitment,
        hs, ht]

/-- A request for signatures comes to what the node answers, if that is a list. -/
theorem exec_fetchSignatures (c : Client) (sc : Scenario) (newer : Option String) (older : Value)
    (w : World) :
    Act.exec (c.fetchSignatures sc.rpc newer older) w =
      (match sc.node w.clock "getSignaturesForAddress" (c.listRequest newer older) with
        | .ok (.list batch) => .ok batch
        | .ok _ => .error (.notAList "getSignaturesForAddress")
        | .error e => .error e,
      w.after [.asked "getSignaturesForAddress" (c.listRequest newer older)
        (sc.node w.clock "getSignaturesForAddress" (c.listRequest newer older))]) := by
  unfold fetchSignatures
  cases hanswer : sc.node w.clock "getSignaturesForAddress" (c.listRequest newer older) with
  | error e => exact exec_bind_of_error (Scenario.exec_rpc hanswer) _
  | ok answer =>
    refine (exec_bind_of_ok (Scenario.exec_rpc hanswer) _).trans ?_
    cases answer with
    | list batch => exact exec_pure _ _
    | _ => exact exec_throw _ _

/-- A request for what stands between two positions fails like the node, or lists the newest
transactions there: those from position `k` on. -/
private theorem fetchSignatures_spec (serves : ServesSignatures sc.node c.program ledger)
    {newer older : Option String} {before between after : List Record}
    (hledger : ledger w.clock = before ++ between ++ after)
    (hbefore : EndsAt before newer) (hafter : BeginsAt after older) :
    ∃ call, (∃ e, AsksSignatures sc c.program (.error e) call ∧
        Act.exec (c.fetchSignatures sc.rpc newer (Value.ofText? older)) w =
          (.error e, w.after [call])) ∨
      ∃ answer batch k, AsksSignatures sc c.program (.ok answer) call ∧
        Act.exec (c.fetchSignatures sc.rpc newer (Value.ofText? older)) w =
          (.ok batch, w.after [call]) ∧
        k = between.length - batchSize ∧
        batch.mapM entryOf = .ok ((between.drop k).reverse.map Record.entry) := by
  have hlisting := listing?_listRequest c hbefore.ne_empty hafter.ne_empty
  rw [exec_fetchSignatures]
  cases hanswer : sc.node w.clock "getSignaturesForAddress"
      (c.listRequest newer (Value.ofText? older)) with
  | error e => exact ⟨_, Or.inl ⟨e, ⟨_, _, _, hlisting, hanswer, rfl⟩, rfl⟩⟩
  | ok answer =>
    obtain ⟨batch, rfl, hbatch⟩ := serves _ _ _ _ _ _ _ hlisting hanswer hledger hbefore hafter
    rw [List.take_reverse] at hbatch
    exact ⟨_, Or.inr ⟨_, batch, _, ⟨_, _, _, hlisting, hanswer, rfl⟩, rfl, rfl, hbatch⟩⟩

/-- One batch of a walk: where the next batch begins and what has been found, or all that there is to
find. -/
def walkOnce {n : Type → Type} [Monad n] (c : Client) (rpc : Rpc n) (newer : Option String) :
    Value × List Entry → Act n ((Value × List Entry) ⊕ List Entry)
  | (older, found) => do
    let batch ← c.fetchSignatures rpc newer older
    let entries ← (batch.mapM entryOf : Except Fault (List Entry))
    let found := found ++ entries
    if batch.length < batchSize then return .inr found.reverse
    match entries.getLast? with
    | some last => return .inl (last.signature, found)
    | none => return .inr found.reverse

/-- With patience for one more batch, a walk goes on behind the next one. -/
theorem walkFrom_succ {n : Type → Type} [Monad n] [LawfulMonad n] (c : Client) (rpc : Rpc n)
    (newer : Option String) (patience : Nat) (older : Value) (found : List Entry) :
    c.walkFrom rpc newer (patience + 1) older found = (do
      match ← c.walkOnce rpc newer (older, found) with
      | .inl (older', found') => c.walkFrom rpc newer patience older' found'
      | .inr entries => return entries) := by
  rw [walkFrom, walkOnce, bind_assoc]
  refine bind_congr fun batch => ?_
  rw [bind_assoc]
  refine bind_congr fun entries => ?_
  by_cases hshort : batch.length < batchSize
  · simp only [if_pos hshort, pure_bind]
  · simp only [if_neg hshort]
    cases entries.getLast? with
    | none => simp only [pure_bind]
    | some last => simp only [pure_bind]

/-- One batch of a walk fails with its request, or it is short and finds all transactions that were
left, or it is full and finds the newest of them, behind which the next batch begins. -/
private theorem walkOnce_spec (serves : ServesSignatures sc.node c.program ledger)
    {newer older : Option String} {found : List Entry} {before between after later : List Record}
    (hledger : ledger w.clock = before ++ between ++ (after ++ later))
    (hbefore : EndsAt before newer) (hafter : BeginsAt (after ++ later) older)
    (hfound : found = (after.map Record.entry).reverse) :
    ∃ call once, Act.exec (c.walkOnce sc.rpc newer (Value.ofText? older, found)) w =
        (once, w.after [call]) ∧
      ((∃ e, AsksSignatures sc c.program (.error e) call ∧ once = .error e) ∨
        ∃ answer, AsksSignatures sc c.program (.ok answer) call ∧
          (between.length < batchSize ∧ once = .ok (.inr ((between ++ after).map Record.entry)) ∨
            ∃ rest last newest, between = rest ++ last :: newest ∧
              (last :: newest).length = batchSize ∧
              once = .ok (.inl (Value.ofText? (some last.signature),
                ((last :: newest ++ after).map Record.entry).reverse)))) := by
  obtain ⟨call, ⟨e, hcall, hfetch⟩ | ⟨answer, batch, k, hcall, hfetch, hk, hbatch⟩⟩ :=
    fetchSignatures_spec serves hledger hbefore hafter
  · exact ⟨call, _, exec_bind_of_error hfetch _, Or.inl ⟨e, hcall, rfl⟩⟩
  have hlength : batch.length = between.length - k := by
    simpa using (mapM_ok hbatch).length_eq
  have hlisted : Act.exec (liftM (batch.mapM entryOf) : Act (StateM World) (List Entry))
      (w.after [call]) =
      (.ok ((between.drop k).reverse.map Record.entry), w.after [call]) := by
    rw [exec_liftFault, hbatch]
    rfl
  have hfound' : found ++ ((between.drop k).reverse.map Record.entry) =
      ((between.drop k ++ after).map Record.entry).reverse := by
    simp [hfound]
  rw [walkOnce, exec_bind_of_ok hfetch, exec_bind_of_ok hlisted, hfound']
  by_cases hshort : batch.length < batchSize
  · -- a short batch is the last one, and all that is left is in it
    have hzero : k = 0 := by omega
    rw [if_pos hshort, exec_pure, hzero, List.drop_zero, List.reverse_reverse]
    exact ⟨call, _, rfl, Or.inr ⟨answer, hcall, Or.inl ⟨by omega, rfl⟩⟩⟩
  · rw [if_neg hshort]
    have hfull : (between.drop k).length = batchSize := by
      rw [List.length_drop]
      omega
    cases hdrop : between.drop k with
    | nil =>
      rw [hdrop] at hfull
      cases hfull
    | cons last newest =>
      have hlast : ((last :: newest).reverse.map Record.entry).getLast? = some last.entry := by
        simp
      have hsplit : between = between.take k ++ last :: newest := by
        rw [← hdrop, List.take_append_drop]
      rw [hlast, exec_pure]
      rw [hdrop] at hfull
      exact ⟨call, _, rfl, Or.inr ⟨answer, hcall, Or.inr ⟨_, last, newest, hsplit, hfull, rfl⟩⟩⟩

/-- A walk finds the transactions between the position that it walks back to and those that it had
found before, with one request for each full batch of them and one more, unless a request fails or
there is patience for the full batches only. -/
theorem walkFrom_spec (grows : Grows ledger) (serves : ServesSignatures sc.node c.program ledger)
    {newer : Option String} {patience : Nat} {older : Option String} {found : List Entry}
    {before between after later : List Record} {r : Except Failure (List Entry)}
    (hledger : ledger w.clock = before ++ between ++ (after ++ later))
    (hbefore : EndsAt before newer) (hafter : BeginsAt (after ++ later) older)
    (hfound : found = (after.map Record.entry).reverse)
    (h : Act.exec (c.walkFrom sc.rpc newer patience (Value.ofText? older) found) w = (r, w')) :
    ∃ calls, w.Reaches w' calls ∧ w'.clock = w.clock + calls.length ∧
      (Walked sc c.program ((between ++ after).map Record.entry) (between.length / batchSize + 1) r
          calls ∨
        patience ≤ between.length / batchSize ∧ r = .error .walkUnfinished) := by
  induction patience generalizing older found between after later w with
  | zero =>
    rw [walkFrom, exec_throw] at h
    cases h
    exact ⟨[], World.Reaches.refl _, rfl, Or.inr ⟨Nat.zero_le _, rfl⟩⟩
  | succ patience ih =>
    rw [walkFrom_succ] at h
    obtain ⟨call, once, honce, ⟨e, hcall, rfl⟩ |
        ⟨answer, hcall, ⟨hshort, rfl⟩ | ⟨rest, last, newest, rfl, hfull, rfl⟩⟩⟩ :=
      walkOnce_spec serves hledger hbefore hafter hfound
    · rw [exec_bind_of_error honce] at h
      cases h
      have hbroken : Walked sc c.program ((between ++ after).map Record.entry)
          (between.length / batchSize + 1) (.error e) ([] ++ [call]) :=
        .broken (List.forall_mem_nil _) (Nat.succ_pos _) hcall
      exact ⟨[call], w.reaches_after [call], rfl, Or.inl hbroken⟩
    · rw [exec_bind_of_ok honce, exec_pure] at h
      cases h
      refine ⟨[call], w.reaches_after [call], rfl, Or.inl (.whole ?_ ?_)⟩
      · simpa using ⟨answer, hcall⟩
      · rw [Nat.div_eq_of_lt hshort]
        rfl
    · rw [exec_bind_of_ok honce] at h
      obtain ⟨grown, hgrowth⟩ := grows.later (Nat.le_succ w.clock)
      have hgrown : ledger (w.after [call]).clock =
          before ++ rest ++ ((last :: newest ++ after) ++ (later ++ grown)) := by
        rw [World.clock_after, ← hgrowth, hledger]
        simp only [List.append_assoc]
      have hbegins : BeginsAt ((last :: newest ++ after) ++ (later ++ grown))
          (some last.signature) := ⟨last, rfl, rfl⟩
      obtain ⟨calls, hreach, hclock, hends⟩ := ih hgrown hbegins rfl h
      have hcount : (rest ++ last :: newest).length / batchSize = rest.length / batchSize + 1 := by
        rw [List.length_append, hfull, Nat.add_div_right _ (by decide)]
      refine ⟨call :: calls, (w.reaches_after [call]).trans hreach, ?_, ?_⟩
      · rw [hclock, World.clock_after, List.length_cons]
        omega
      · rw [← List.append_assoc] at hends
        rw [hcount]
        rcases hends with hwalked | ⟨hpatience, rfl⟩
        · exact Or.inl (hwalked.cons hcall)
        · exact Or.inr ⟨Nat.succ_le_succ hpatience, rfl⟩

theorem walk_spec (grows : Grows ledger) (serves : ServesSignatures sc.node c.program ledger)
    {newer : Option String} {before after : List Record} {r : Except Failure (List Entry)}
    (hledger : ledger w.clock = before ++ after) (hbefore : EndsAt before newer)
    (h : Act.exec (c.walk sc.rpc newer) w = (r, w')) :
    ∃ calls, w.Reaches w' calls ∧ w'.clock = w.clock + calls.length ∧
      (Walked sc c.program (after.map Record.entry) (after.length / batchSize + 1) r calls ∨
        c.patience ≤ after.length / batchSize ∧ r = .error .walkUnfinished) := by
  have hnow : ledger w.clock = before ++ after ++ ([] ++ []) := by simpa using hledger
  have hend : BeginsAt ([] ++ []) none := rfl
  have hspec := walkFrom_spec grows serves hnow hbefore hend rfl h
  rwa [List.append_nil] at hspec

/-- A walk that comes to an end has found all transactions behind a position that were there when it
began, the oldest first. -/
theorem walk_ok (grows : Grows ledger) (serves : ServesSignatures sc.node c.program ledger)
    {newer : Option String} {entries : List Entry} {before after : List Record}
    (hledger : ledger w.clock = before ++ after) (hbefore : EndsAt before newer)
    (h : Act.exec (c.walk sc.rpc newer) w = (.ok entries, w')) :
    entries = after.map Record.entry ∧ w'.clock = w.clock + after.length / batchSize + 1 := by
  obtain ⟨calls, -, hclock, hwalked | ⟨-, hr⟩⟩ := walk_spec grows serves hledger hbefore h
  · cases hwalked with
    | whole answered count =>
      refine ⟨rfl, ?_⟩
      rw [hclock, count, Nat.add_assoc]
  · cases hr

/-- A walk comes to an end, if the node answers. -/
theorem walk_answered (grows : Grows ledger) (serves : ServesSignatures sc.node c.program ledger)
    (answers : AnswersSignatures sc.node c.program) {newer : Option String}
    {before after : List Record} (hledger : ledger w.clock = before ++ after)
    (hbefore : EndsAt before newer) (hpatience : after.length / batchSize < c.patience) :
    ∃ entries w', Act.exec (c.walk sc.rpc newer) w = (.ok entries, w') := by
  rcases hwalk : Act.exec (c.walk sc.rpc newer) w with ⟨r, w'⟩
  obtain ⟨calls, -, -, hwalked | ⟨hunfinished, -⟩⟩ := walk_spec grows serves hledger hbefore hwalk
  · rw [hwalked.eq_ok answers]
    exact ⟨_, w', rfl⟩
  · exact absurd hunfinished (Nat.not_le.mpr hpatience)

end Client

end ChainIndexer.Solana
