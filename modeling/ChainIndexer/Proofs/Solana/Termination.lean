import ChainIndexer.Proofs.Solana.Coverage
import Mathlib.Data.List.Nodup

/-!
How long the walk over the signatures takes. A client stops it after a number of batches that is the
measure of its patience, while `unboundedWalk` goes on for as long as the batches are full, and need
not come to an end on a node that never runs out of them. On an honest node both are the same for
every patience that lasts for the full batches and one more (`walk_exact`): the ledger may grow
meanwhile, but only behind the transactions that are asked for. A request that fails ends the walk
and the page with it, and leaves the backlog as it was (`fetchPage_heeds`), whatever the node
answers.
-/

namespace ChainIndexer.Solana

open Act

/-- A signature, if there is one, is that of a transaction of a ledger. -/
def OnLedger (rs : List Record) (newer : Option String) : Prop :=
  ∀ s, newer = some s → ∃ r ∈ rs, r.signature = s

theorem OnLedger.split {rs : List Record} {newer : Option String} (h : OnLedger rs newer)
    (distinct : (rs.map Record.signature).Nodup) :
    ∃ before, rs = before ++ behind rs newer ∧ EndsAt before newer := by
  cases newer with
  | none => exact ⟨[], rfl, rfl⟩
  | some s =>
    obtain ⟨r, hr, rfl⟩ := h s rfl
    obtain ⟨init, after, rfl⟩ := List.append_of_mem hr
    have hends : EndsAt (init ++ [r]) (some r.signature) := ⟨r, by simp, rfl⟩
    have hbehind := behind_eq (by simpa using distinct) hends
    rw [List.append_cons] at distinct
    rw [List.append_cons, behind_eq distinct hends]
    exact ⟨init ++ [r], rfl, hends⟩

namespace Client

variable {sc : Scenario} {c : Client} {w w' : World} {newer : Option String}

/-! ### A request that fails -/

/-- A request that fails is the end of an activity, which fails with it. -/
def Heeds {α : Type} (x : Act (StateM World) α) : Prop :=
  ∀ w r w', exec x w = (r, w') → ∃ es, w.Reaches w' es ∧
    ∀ method params e, .asked method params (.error e) ∈ es → r = .error e

theorem heeds_of_silent {α : Type} {x : Act (StateM World) α} (h : ∀ w, (exec x w).2 = w) :
    Heeds x := by
  intro w r w' hexec
  have hw := h w
  rw [hexec] at hw
  obtain rfl : w' = w := hw
  exact ⟨[], World.Reaches.refl _, by simp⟩

theorem Heeds.bind {α β : Type} {x : Act (StateM World) α} {f : α → Act (StateM World) β}
    (hx : Heeds x) (hf : ∀ a, Heeds (f a)) : Heeds (x >>= f) := by
  intro w r w' h
  rcases hfirst : exec x w with ⟨r₁, w₁⟩
  obtain ⟨es, hreach, hes⟩ := hx w r₁ w₁ hfirst
  cases r₁ with
  | error e =>
    rw [exec_bind_of_error hfirst] at h
    cases h
    exact ⟨es, hreach, fun method params e' he => by rw [Except.error.inj (hes _ _ _ he)]⟩
  | ok a =>
    rw [exec_bind_of_ok hfirst] at h
    obtain ⟨es', hreach', hes'⟩ := hf a w₁ r w' h
    refine ⟨es ++ es', hreach.trans hreach', fun method params e he => ?_⟩
    rcases List.mem_append.mp he with he | he
    · cases hes _ _ _ he
    · exact hes' _ _ _ he

theorem rpc_heeds (sc : Scenario) (method : String) (params : List Value) :
    Heeds (sc.rpc method params) := by
  intro w r w' h
  obtain ⟨-, rfl⟩ := Scenario.of_exec_rpc h
  refine ⟨_, w.reaches_after _, fun method' params' e he => ?_⟩
  cases List.mem_singleton.mp he
  rfl

theorem walkOnce_heeds (sc : Scenario) (c : Client) (newer : Option String)
    (next : Value × List Entry) : Heeds (c.walkOnce sc.rpc newer next) := by
  refine Heeds.bind (Heeds.bind (rpc_heeds sc _ _) fun answer => ?_) fun batch => ?_
  · refine heeds_of_silent fun w => ?_
    cases answer with
    | list => rw [exec_pure]
    | _ => rw [exec_throw]
  refine Heeds.bind (heeds_of_silent fun w => by rw [exec_liftFault]) fun entries => ?_
  refine heeds_of_silent fun w => ?_
  dsimp only
  split
  · rw [exec_pure]
  · split
    · rw [exec_pure]
    · rw [exec_pure]

theorem walkFrom_heeds (sc : Scenario) (c : Client) (newer : Option String) (patience : Nat)
    (older : Value) (found : List Entry) :
    Heeds (c.walkFrom sc.rpc newer patience older found) := by
  induction patience generalizing older found with
  | zero => exact heeds_of_silent fun w => by rw [walkFrom, exec_throw]
  | succ patience ih =>
    rw [walkFrom_succ]
    refine Heeds.bind (walkOnce_heeds sc c newer (older, found)) fun once => ?_
    cases once with
    | inl next => exact ih next.1 next.2
    | inr entries => exact heeds_of_silent fun w => by rw [exec_pure]

/-- No request among some incidents has failed. -/
def NoneFailed (es : List Incident) : Prop :=
  ∀ method params e, .asked method params (.error e) ∉ es

/-! ### With and without a bound -/

section Loop

variable {n : Type → Type} [Monad n]

/-- Batch after batch, until one says that there is no more to find. -/
def walkOn (c : Client) (rpc : Rpc n) (newer : Option String) (next : Value × List Entry) :
    Act n (List Entry) :=
  repeatM (m := ExceptT Failure n) (c.walkOnce rpc newer) next

/-- The walk without a bound on its batches. -/
def unboundedWalk (c : Client) (rpc : Rpc n) (newer : Option String) : Act n (List Entry) :=
  c.walkOn rpc newer (.null, [])

end Loop

instance : Nonempty World :=
  ⟨{}⟩

theorem walkOn_eq (c : Client) (sc : Scenario) (newer : Option String) (next : Value × List Entry) :
    c.walkOn sc.rpc newer next = (do
      match ← c.walkOnce sc.rpc newer next with
      | .inl next' => c.walkOn sc.rpc newer next'
      | .inr entries => return entries) := by
  rw [walkOn, repeatM_eq_of_monadTail]
  unfold repeatM.body
  refine bind_congr fun once => ?_
  cases once with
  | inl next' => rfl
  | inr entries => rfl

/-- A walk with a bound does the same as the one without, or it runs out of patience while all its
requests are answered. -/
theorem walkFrom_eq_or (c : Client) (sc : Scenario) (newer : Option String) (patience : Nat)
    (older : Value) (found : List Entry) (w : World) :
    exec (c.walkFrom sc.rpc newer patience older found) w =
        exec (c.walkOn sc.rpc newer (older, found)) w ∨
      ∃ w' calls, exec (c.walkFrom sc.rpc newer patience older found) w =
          (.error .walkUnfinished, w') ∧ w.Reaches w' calls ∧ NoneFailed calls := by
  induction patience generalizing older found w with
  | zero =>
    rw [walkFrom, exec_throw]
    exact Or.inr ⟨w, [], rfl, World.Reaches.refl w, by simp [NoneFailed]⟩
  | succ patience ih =>
    rw [walkFrom_succ, walkOn_eq]
    rcases honce : exec (c.walkOnce sc.rpc newer (older, found)) w with ⟨once, w₁⟩
    obtain ⟨calls₁, hreach₁, hcalls₁⟩ := walkOnce_heeds sc c newer (older, found) w once w₁ honce
    rcases once with e | ⟨older', found'⟩ | entries
    · exact Or.inl (by rw [exec_bind_of_error honce, exec_bind_of_error honce])
    · rw [exec_bind_of_ok honce, exec_bind_of_ok honce]
      rcases ih older' found' w₁ with hsame | ⟨w', calls, hend, hreach, hcalls⟩
      · exact Or.inl hsame
      · refine Or.inr ⟨w', calls₁ ++ calls, hend, hreach₁.trans hreach, ?_⟩
        intro method params e he
        rcases List.mem_append.mp he with he | he
        · cases hcalls₁ method params e he
        · exact hcalls method params e he
    · exact Or.inl (by rw [exec_bind_of_ok honce, exec_bind_of_ok honce])

/-- On an honest node the bound makes no difference to a walk, if there is patience for the full
batches and one more. -/
theorem walk_eq_unboundedWalk {ledger : Nat → List Record} (grows : Grows ledger)
    (serves : ServesSignatures sc.node c.program ledger) {before after : List Record}
    (hledger : ledger w.clock = before ++ after) (hbefore : EndsAt before newer)
    (hpatience : after.length / batchSize < c.patience) :
    exec (c.walk sc.rpc newer) w = exec (c.unboundedWalk sc.rpc newer) w := by
  rcases walkFrom_eq_or c sc newer c.patience .null [] w with hsame | ⟨w', es, hend, hreach, hnone⟩
  · exact hsame
  · obtain ⟨calls, hreach', -, hwalked | ⟨hunfinished, -⟩⟩ :=
      walk_spec grows serves hledger hbefore hend
    · cases hwalked with
      | broken _ _ failed =>
        obtain ⟨-, params, -, -, -, rfl⟩ := failed
        have hes := List.append_cancel_left (hreach.events.symm.trans hreach'.events)
        exact absurd (by simp [hes]) (hnone "getSignaturesForAddress" params .walkUnfinished)
    · exact absurd hunfinished (Nat.not_le.mpr hpatience)

/-! ### The page -/

theorem pending_heeds {b b' : Backlog} {r : Except Failure (List Entry)}
    (h : exec (c.pending sc.rpc newer) (b, w) = (r, b', w')) :
    ∃ calls, w.Reaches w' calls ∧
      ∀ method params e, .asked method params (.error e) ∈ calls → r = .error e ∧ b' = b := by
  rw [exec_pending] at h
  split at h
  · cases h
    exact ⟨[], World.Reaches.refl _, by simp⟩
  · rcases hwalk : exec (c.walk sc.rpc newer) w with ⟨found, w₁⟩
    obtain ⟨calls, hreach, hcalls⟩ := walkFrom_heeds sc c newer c.patience .null [] w found w₁ hwalk
    rw [hwalk] at h
    cases found with
    | error e =>
      cases h
      exact ⟨calls, hreach, fun method params e' he => ⟨hcalls method params e' he, rfl⟩⟩
    | ok found =>
      cases h
      exact ⟨calls, hreach, fun method params e' he => by cases hcalls method params e' he⟩

/-- Taking a page makes no request but those that look for what is pending. -/
theorem takePage_heeds {cursor : Cursor} {b b' : Backlog}
    {r : Except Failure (List Entry × Cursor)}
    (h : exec (c.takePage sc.rpc cursor) (b, w) = (r, b', w')) :
    ∃ calls, w.Reaches w' calls ∧
      ∀ method params e, .asked method params (.error e) ∈ calls → r = .error e ∧ b' = b := by
  have hlift := exec_lift (n := StateT Backlog (StateM World)) (signatureOf cursor) (b, w)
  unfold takePage at h
  cases hsignature : signatureOf cursor with
  | error e =>
    rw [hsignature] at h hlift
    rw [exec_bind_of_error hlift] at h
    cases h
    exact ⟨[], World.Reaches.refl _, by simp⟩
  | ok newer =>
    rw [hsignature] at h hlift
    rcases hpending : exec (c.pending sc.rpc newer) (b, w) with ⟨found, b₁, w₁⟩
    obtain ⟨calls, hreach, hcalls⟩ := pending_heeds hpending
    rw [exec_bind_of_ok hlift] at h
    cases found with
    | error e =>
      rw [exec_bind_of_error hpending] at h
      cases h
      refine ⟨calls, hreach, fun method params e' he => ?_⟩
      obtain ⟨hsame, hb⟩ := hcalls method params e' he
      exact ⟨congrArg Except.error (Except.error.inj hsame), hb⟩
    | ok entries =>
      rw [exec_bind_of_ok hpending] at h
      have hworld : Beside (fun _ _ => True) (fun s s' => s' = s) (b₁, w₁) (b', w') := by
        refine Keeps.of_exec ?_ h
        dsimp only
        split
        · exact Keeps.pure _
        · exact Keeps.bind (Keeps.remember fun _ => trivial) fun _ =>
            Keeps.bind (Keeps.lift _) fun _ => Keeps.pure _
      obtain rfl : w' = w₁ := hworld.2
      exact ⟨calls, hreach, fun method params e' he => by cases (hcalls method params e' he).1⟩

/-- A request that fails while a page is fetched is the end of it and leaves the backlog, whatever
the node answers. -/
theorem fetchPage_heeds {cursor : Cursor} {b b' : Backlog}
    {r : Except Failure (List TransactionJob × Cursor)}
    (h : exec (c.fetchPage sc.rpc cursor) (b, w) = (r, b', w')) :
    ∃ calls, w.Reaches w' calls ∧
      ∀ method params e, .asked method params (.error e) ∈ calls → r = .error e ∧ b' = b := by
  rcases htake : exec (c.takePage sc.rpc cursor) (b, w) with ⟨page, b₁, w₁⟩
  obtain ⟨calls, hreach, hcalls⟩ := takePage_heeds htake
  have hfetch := exec_bind_pure (c.takePage sc.rpc cursor) (fun p => (jobsOf p.1, p.2)) (b, w)
  rw [htake] at hfetch
  obtain ⟨rfl, hrest⟩ := Prod.mk.inj (h.symm.trans hfetch)
  cases hrest
  refine ⟨calls, hreach, fun method params e he => ?_⟩
  obtain ⟨rfl, hb⟩ := hcalls method params e he
  exact ⟨rfl, hb⟩

/-- The walk is exact, and as long as it has to be. From a place on a ledger that may grow meanwhile,
it finds exactly the transactions behind this place that were there at its first request, the oldest
first and each once, with one request for each full batch of them and one more; only a request that
fails ends it before. So it does not need a bound on its batches, and every bound that lasts for these
requests makes no difference to it. A request that fails while a page is fetched, from whatever
cursor and node, fails the page and leaves the backlog with the signature that it follows. -/
theorem walk_exact (c : Client) (sc : Scenario) :
    (∀ (ledger : Nat → List Record) (newer : Option String) (w : World), Grows ledger →
      ServesSignatures sc.node c.program ledger → OnLedger (ledger w.clock) newer →
      let found := behind (ledger w.clock) newer
      let batches := found.length / batchSize + 1
      (found.map Record.signature).Nodup ∧
      ∃ r w' calls, exec (c.unboundedWalk sc.rpc newer) w = (r, w') ∧
        (∀ patience, batches ≤ patience →
          exec (({ c with patience } : Client).walk sc.rpc newer) w = (r, w')) ∧
        w.Reaches w' calls ∧ Walked sc c.program (found.map Record.entry) batches r calls ∧
        (AnswersSignatures sc.node c.program → r = .ok (found.map Record.entry))) ∧
    ∀ (cursor : Cursor) (b b' : Backlog) (w w' : World)
      (r : Except Failure (List TransactionJob × Cursor)),
      exec (c.fetchPage sc.rpc cursor) (b, w) = (r, b', w') →
      ∃ calls, w.Reaches w' calls ∧
        ∀ method params e, .asked method params (.error e) ∈ calls → r = .error e ∧ b' = b := by
  refine ⟨fun ledger newer w grows serves place => ?_, fun cursor b b' w w' r => fetchPage_heeds⟩
  intro found batches
  have distinct := grows.distinct w.clock
  obtain ⟨before, hledger, hbefore⟩ := place.split distinct
  have hbounded : ∀ patience, batches ≤ patience →
      exec (({ c with patience } : Client).walk sc.rpc newer) w =
        exec (c.unboundedWalk sc.rpc newer) w :=
    fun patience hpatience =>
      walk_eq_unboundedWalk (c := { c with patience }) grows serves hledger hbefore hpatience
  refine ⟨?_, ?_⟩
  · rw [hledger, List.map_append] at distinct
    exact (List.nodup_append.mp distinct).2.1
  rcases hwalk : exec (c.unboundedWalk sc.rpc newer) w with ⟨r, w'⟩
  have hpatient := (hbounded batches (Nat.le_refl _)).trans hwalk
  obtain ⟨calls, hreach, -, hwalked | ⟨hunfinished, -⟩⟩ :=
    walk_spec (c := { c with patience := batches }) grows serves hledger hbefore hpatient
  · exact ⟨r, w', calls, rfl, fun patience hpatience => (hbounded patience hpatience).trans hwalk,
      hreach, hwalked, hwalked.eq_ok⟩
  · exact absurd hunfinished (Nat.not_succ_le_self _)

/-! A walk over just one full batch, while a transaction comes to the ledger with every request, and
one whose first request fails. -/

/-- The transaction of a number, which is the length of its signature. -/
def tally (i : Nat) : Record :=
  sampleRecord (String.ofList (List.replicate (i + 1) '1')) (by simp [String.ext_iff]) .null

/-- A full batch at the beginning, and one transaction more with every request. -/
def busyLedger (time : Nat) : List Record :=
  (List.range (batchSize + time)).map tally

/-- A node that lists the signatures of the ledger, unless it is down. -/
def busyScenario (down : Option Failure) : Scenario where
  node time _ params :=
    match down with
    | some e => .error e
    | none =>
      match listing? "P" params with
      | some listing => .ok (.list ((listed (busyLedger time) listing).map Record.value))
      | none => .ok .null
  sink _ _ := .accepted
  interrupt _ := none
  breakdown _ := none

theorem busyLedger_grows : Grows busyLedger := by
  constructor
  · intro t t' ht
    have hrange : List.range (batchSize + t) <+: List.range (batchSize + t') := by
      have htake := List.take_prefix (batchSize + t) (List.range (batchSize + t'))
      rwa [List.take_range, Nat.min_eq_left (Nat.add_le_add_left ht _)] at htake
    exact hrange.map tally
  · intro t
    rw [busyLedger, List.map_map]
    refine List.Nodup.map (fun i j hij => ?_) List.nodup_range
    have hchars := String.ofList_injective hij
    simpa using congrArg List.length hchars

theorem busyScenario_serves : ServesSignatures (busyScenario none).node "P" busyLedger := by
  refine servesSignatures_of_listed busyLedger_grows fun time params listing hlisting => ?_
  simp only [busyScenario, hlisting]

theorem busyScenario_answers : AnswersSignatures (busyScenario none).node "P" := by
  intro time params listing hlisting
  simp only [busyScenario, hlisting]
  exact ⟨_, rfl⟩

def outage : Failure :=
  .foreign .rpcTransport "down"

/-- A backlog that does not go with the beginning. -/
def otherBacklog : Backlog :=
  ⟨[(tally 1).entry], .text "1"⟩

theorem fullBatch_exact :
    (∃ w' calls, exec (sampleClient.walk (busyScenario none).rpc none) {} =
        (.ok ((busyLedger 0).map Record.entry), w') ∧
      World.Reaches {} w' calls ∧ calls.length = 2) ∧
    ∃ w', exec (sampleClient.fetchPage (busyScenario (some outage)).rpc .start)
      (otherBacklog, {}) = (.error outage, otherBacklog, w') := by
  have hlength : (behind (busyLedger 0) none).length / batchSize + 1 = 2 := by
    simp [behind, busyLedger, batchSize]
  obtain ⟨-, r, w', calls, -, hbounded, hreach, hwalked, hok⟩ :=
    (walk_exact sampleClient (busyScenario none)).1 busyLedger none {} busyLedger_grows
      busyScenario_serves (by simp [OnLedger])
  obtain rfl := hok busyScenario_answers
  refine ⟨⟨w', calls, hbounded sampleClient.patience (by rw [hlength]; decide), hreach, ?_⟩, ?_⟩
  · cases hwalked with
    | whole answered count => rw [count, hlength]
  · obtain ⟨calls, hreach, hcalls⟩ := (walk_exact sampleClient (busyScenario (some outage))).2
      .start otherBacklog _ {} _ _ rfl
    have hasked : .asked "getSignaturesForAddress" (sampleClient.listRequest none .null)
        (.error outage) ∈ calls := by
      rw [← List.nil_append calls, ← hreach.events]
      exact List.mem_singleton_self _
    obtain ⟨hr, hb⟩ := hcalls _ _ _ hasked
    exact ⟨_, Prod.ext hr (Prod.ext hb rfl)⟩

end Client

end ChainIndexer.Solana
