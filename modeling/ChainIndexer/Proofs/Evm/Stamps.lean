import ChainIndexer.Proofs.Evm.Page
import ChainIndexer.Proofs.Evm.Undecoded

/-!
What the remembered timestamps are worth. A client is called over and over, to fetch pages and to
process jobs in any order. The node may answer anything when it is asked for the head of the chain
or for logs, while what it says of states and blocks is fixed from one page to the next one, at which
it may change altogether, as after a reorganisation. Then nobody can tell a client from one that
remembers nothing, except by the requests that are saved (`process_forgetful`). The invariant is
`Mirrors`: the timestamps that are remembered are those that the node was asked for since the latest
page, once for each block.
-/

namespace ChainIndexer.Evm

open Act Push

/-- A node by its answers: those about states and blocks by era, and all others by the time. -/
structure Node where
  tells : Nat → String → List Value → Except Failure Value
  finds : Nat → String → List Value → Except Failure Value

/-- A node in an era. -/
def Node.scenario (node : Node) (era : Nat) : Scenario where
  node time method params :=
    if method = "eth_call" ∨ method = "eth_getBlockByNumber" then node.finds era method params
    else node.tells time method params
  sink _ _ := .accepted
  interrupt _ := none
  breakdown _ := none

/-- The timestamp in an answer to a request for a block, which may be no block or a block without a
proper timestamp. -/
def readStamp (block : Whole) : Except Failure Value → Except Failure Int
  | .error e => .error e
  | .ok found =>
    if found.truthy then ((found.item "timestamp").bind Value.readHex).mapError .fault
    else .error (.blockNotReady block)

/-- The timestamp that the node was asked for, if that is what has happened and it was found. -/
def stampOf? (block : Int) : Incident → Option Int
  | .asked "eth_getBlockByNumber" [.text number, _] answer =>
    if number = Numeral.hexadecimal block then (readStamp (.number block) answer).toOption else none
  | _ => none

/-- The timestamps of a block that the node was asked for and that were found. -/
def stampsOf (block : Int) (es : List Incident) : List Int :=
  es.filterMap (stampOf? block)

/-- The timestamp of a block that is remembered. -/
def timestampOf (m : Timestamps) (block : Int) : Option Int :=
  (m.find? fun k => k.1 == block).map (·.2)

/-- The timestamp of a block is remembered if it was found. -/
def learn (block : Int) : Except Failure Int → Timestamps → Timestamps
  | .ok t, m => (block, t) :: m
  | .error _, m => m

/-- What is remembered is what the node was asked for, once for each block. -/
def Mirrors (m : Timestamps) (es : List Incident) : Prop :=
  ∀ block, stampsOf block es = (timestampOf m block).toList

/-- Incidents that give no timestamp. -/
def Undated (e : Incident) : Prop :=
  ∀ block, stampOf? block e = none

/-- The timestamps that are remembered are those of an era of the node. -/
def Holds (node : Node) (era : Nat) (m : Timestamps) : Prop :=
  ∀ block t, timestampOf m block = some t →
    (readStamp (.number block) (node.finds era "eth_getBlockByNumber"
      (Client.blockParams (.number block)))).toOption = some t

/-- A payload has the timestamp that is remembered for its block. -/
def Dated (m : Timestamps) (p : Payload) : Prop :=
  ∃ t, p.event.timestamp = some t ∧ timestampOf m p.event.block = some t

/-- A payload has a timestamp of its block that the node was asked for. -/
def Stamped (es : List Incident) (p : Payload) : Prop :=
  ∃ t, p.event.timestamp = some t ∧ t ∈ stampsOf p.event.block es

/-- What is remembered goes on to mirror what the node was asked for. -/
def Recorded (s s' : Timestamps × World) : Prop :=
  ∃ es, s.2.Reaches s'.2 es ∧ ∀ before, Mirrors s.1 before → Mirrors s'.1 (before ++ es)

instance : Lasting Recorded where
  refl s := ⟨[], World.Reaches.refl s.2, fun before h => by rwa [List.append_nil]⟩
  trans := by
    rintro s t u ⟨es, hreach, hmirrors⟩ ⟨es', hreach', hmirrors'⟩
    refine ⟨es ++ es', hreach.trans hreach', fun before h => ?_⟩
    rw [← List.append_assoc]
    exact hmirrors' _ (hmirrors _ h)

/-! ### Timestamps -/

theorem toOption_readStamp (block block' : Whole) (answer : Except Failure Value) :
    (readStamp block answer).toOption = (readStamp block' answer).toOption := by
  cases answer with
  | error e => rfl
  | ok found =>
    dsimp only [readStamp]
    split
    · rfl
    · rfl

theorem stampsOf_append (block : Int) (es es' : List Incident) :
    stampsOf block (es ++ es') = stampsOf block es ++ stampsOf block es' :=
  List.filterMap_append

theorem stampsOf_undated {es : List Incident} (h : ∀ e ∈ es, Undated e) (block : Int) :
    stampsOf block es = [] :=
  List.filterMap_eq_nil_iff.mpr fun e he => h e he block

theorem timestampOf_cons (b t block : Int) (m : Timestamps) :
    timestampOf ((b, t) :: m) block = if b = block then some t else timestampOf m block := by
  by_cases h : b = block <;> simp [timestampOf, h]

/-- A request for a block gives the timestamp of this block and of no other. -/
theorem stampOf?_asked (block : Whole) (answer : Except Failure Value) (other : Int) :
    stampOf? other (.asked "eth_getBlockByNumber" (Client.blockParams block) answer) =
      if block.toInt = other then (readStamp block answer).toOption else none := by
  have hnumber : Numeral.hexadecimal block.toInt = Numeral.hexadecimal other ↔
      block.toInt = other :=
    ⟨Numeral.hexadecimal_inj, congrArg _⟩
  simp only [stampOf?, Client.blockParams, hnumber, toOption_readStamp (.number other) block]

namespace Client

variable {node : Node} {era : Nat} {c : Client} {sc : Scenario} {m m' : Timestamps} {w w' : World}

/-- If no timestamp is remembered, the node is asked, and its answer is remembered if it has one. -/
theorem exec_blockTimestamp_unknown {block : Whole} (hunknown : timestampOf m block.toInt = none) :
    let answer := sc.node w.clock "eth_getBlockByNumber" (blockParams block)
    Act.exec (blockTimestamp sc.rpc block) (m, w) =
      (readStamp block answer, learn block.toInt (readStamp block answer) m,
        w.after [.asked "eth_getBlockByNumber" (blockParams block) answer]) := by
  intro answer
  rw [blockTimestamp, exec_bind_of_ok (exec_memory m w), Option.map_eq_none_iff.mp hunknown]
  cases hanswer : answer with
  | error e => exact exec_bind_of_error (exec_within_eq (Scenario.exec_rpc hanswer) m) _
  | ok found =>
    refine (exec_bind_of_ok (exec_within_eq (Scenario.exec_rpc hanswer) m) _).trans ?_
    dsimp only [readStamp]
    cases hthere : found.truthy with
    | false => exact exec_bind_of_error (exec_throw _ _) _
    | true =>
      cases hitem : found.item "timestamp" with
      | error e => exact exec_bind_of_error (exec_liftFault _ _) _
      | ok stamp =>
        refine (exec_liftFault_bind rfl _ _).trans ?_
        cases hread : stamp.readHex with
        | error e =>
          simp only [Except.bind, hread]
          exact exec_bind_of_error (exec_liftFault _ _) _
        | ok t =>
          simp only [Except.bind, hread]
          refine (exec_liftFault_bind rfl _ _).trans ?_
          exact (exec_bind_of_ok (exec_remember _ _ _) _).trans (exec_pure _ _)

/-- A block whose timestamp is not remembered is asked for, and the answer is remembered just if it
has a timestamp. -/
theorem mirrors_asked {before : List Incident} (h : Mirrors m before) {block : Whole}
    (hunknown : timestampOf m block.toInt = none) (answer : Except Failure Value) :
    Mirrors (learn block.toInt (readStamp block answer) m)
      (before ++ [.asked "eth_getBlockByNumber" (blockParams block) answer]) := by
  intro other
  rw [stampsOf_append, h other, stampsOf, List.filterMap_cons, stampOf?_asked]
  cases readStamp block answer with
  | error e => simp [Except.toOption, learn]
  | ok t =>
    rw [learn, timestampOf_cons]
    by_cases hblock : block.toInt = other
    · subst hblock
      simp [hunknown, Except.toOption]
    · simp [hblock]

theorem blockTimestamp_recorded (sc : Scenario) (block : Whole) :
    Keeps Recorded (blockTimestamp sc.rpc block) := by
  rintro ⟨m, w⟩
  cases hknown : timestampOf m block.toInt with
  | some t =>
    obtain ⟨k, hfind, -⟩ := Option.map_eq_some_iff.mp hknown
    rw [exec_blockTimestamp_of_known hfind]
    exact Lasting.refl _
  | none =>
    rw [exec_blockTimestamp_unknown hknown]
    exact ⟨_, w.reaches_after _, fun before h => mirrors_asked h hknown _⟩

theorem within_recorded {α : Type} {x : Act (StateM World) α} (hx : Keeps (World.Tells Undated) x) :
    Keeps Recorded (Act.within x : Act (StateT Timestamps (StateM World)) α) := by
  rintro ⟨m, w⟩
  obtain ⟨es, hreach, hes⟩ := hx w
  rw [exec_within]
  refine ⟨es, hreach, fun before h block => ?_⟩
  rw [stampsOf_append, stampsOf_undated hes, List.append_nil]
  exact h block

theorem undated_of_method {method : String} (h : method ≠ "eth_getBlockByNumber")
    (params : List Value) (answer : Except Failure Value) :
    Undated (.asked method params answer) := by
  intro block
  unfold stampOf?
  split
  · rename_i heq
    exact absurd (Incident.asked.inj heq).1 h
  · rfl

/-- Processing a job remembers the timestamps that it asks for. -/
theorem process_recorded (sc : Scenario) (c : Client) (j : Job) :
    Keeps Recorded (c.process sc.rpc j) := by
  refine process_closed_of (Keeps.closed _) (fun f log block => ?_) (blockTimestamp_recorded sc) j
  refine within_recorded (recordOf_closed (Keeps.closed _) (fun params => ?_) c f log block)
  exact sc.rpc_keeps (undated_of_method (by decide) params)

/-! ### In an era -/

theorem node_finds (node : Node) (era time : Nat) (params : List Value) :
    (node.scenario era).node time "eth_getBlockByNumber" params =
      node.finds era "eth_getBlockByNumber" params := by
  simp [Node.scenario]

theorem holds_learn (h : Holds node era m) (block : Whole) :
    Holds node era (learn block.toInt
      (readStamp block (node.finds era "eth_getBlockByNumber" (blockParams block))) m) := by
  intro other t hknown
  cases hread : readStamp block (node.finds era "eth_getBlockByNumber" (blockParams block)) with
  | error e =>
    rw [hread] at hknown
    exact h other t hknown
  | ok u =>
    rw [hread, learn, timestampOf_cons] at hknown
    split at hknown
    · rename_i hblock
      subst hblock
      cases hknown
      rw [toOption_readStamp _ block]
      exact congrArg Except.toOption hread
    · exact h other t hknown

/-- Among the timestamps of an era, the one of a block is what the node says of the block, whether it
is remembered or not. -/
theorem blockTimestamp_finds (hm : Holds node era m) (block : Whole) (w : World) :
    (Act.exec (blockTimestamp (node.scenario era).rpc block) (m, w)).1 =
        readStamp block (node.finds era "eth_getBlockByNumber" (blockParams block)) ∧
      Holds node era (Act.exec (blockTimestamp (node.scenario era).rpc block) (m, w)).2.1 := by
  cases hknown : timestampOf m block.toInt with
  | some t =>
    obtain ⟨k, hfind, rfl⟩ := Option.map_eq_some_iff.mp hknown
    rw [exec_blockTimestamp_of_known hfind]
    have hread := hm _ _ hknown
    rw [toOption_readStamp _ block] at hread
    exact ⟨(ok_of_toOption hread).symm, hm⟩
  | none =>
    rw [exec_blockTimestamp_unknown hknown, node_finds]
    exact ⟨rfl, holds_learn hm block⟩

theorem blockTimestamp_steady (node : Node) (era : Nat) (block : Whole) :
    SteadyBeside (Holds node era) (blockTimestamp (node.scenario era).rpc block) := by
  intro m m' w w' hm hm'
  obtain ⟨hresult, hafter⟩ := blockTimestamp_finds hm block w
  exact ⟨hresult.trans (blockTimestamp_finds hm' block w').1.symm, hafter⟩

/-- In an era, what comes of a job depends neither on the moment nor on what is remembered. -/
theorem process_steady (node : Node) (era : Nat) (c : Client) (j : Job) :
    SteadyBeside (Holds node era) (c.process (node.scenario era).rpc j) := by
  have hcall : ∀ params, Steady ((node.scenario era).rpc "eth_call" params) := by
    intro params w w'
    have hnode : ∀ time, (node.scenario era).node time "eth_call" params =
        node.finds era "eth_call" params := by simp [Node.scenario]
    rw [Scenario.exec_rpc (hnode _), Scenario.exec_rpc (hnode _)]
  exact process_closed_of (SteadyBeside.closed _)
    (fun f log block => (recordOf_closed Steady.closed hcall c f log block).within)
    (blockTimestamp_steady node era) j

/-! ### The timestamps of payloads -/

theorem timestampOf_blockTimestamp {block : Whole} {t : Int}
    (h : Act.exec (blockTimestamp sc.rpc block) (m, w) = (.ok t, m', w')) :
    timestampOf m' block.toInt = some t := by
  cases hknown : timestampOf m block.toInt with
  | some u =>
    obtain ⟨k, hfind, rfl⟩ := Option.map_eq_some_iff.mp hknown
    rw [exec_blockTimestamp_of_known hfind] at h
    cases h
    exact hknown
  | none =>
    rw [exec_blockTimestamp_unknown hknown] at h
    obtain ⟨hread, hrest⟩ := Prod.mk.inj h
    obtain ⟨rfl, -⟩ := Prod.mk.inj hrest
    rw [hread, learn, timestampOf_cons, if_pos rfl]

theorem payloadOf_dated {j : LogJob} {e : EventName} {f : Family} {block : Whole} {p : Payload}
    {s : Timestamps × World}
    (h : Act.exec (c.payloadOf sc.rpc j e f block) s = (.ok p, m', w')) : Dated m' p := by
  obtain ⟨data, s₁, -, h⟩ := exec_bind_ok h
  obtain ⟨tx, s₂, -, h⟩ := exec_bind_ok h
  obtain ⟨index, s₃, -, h⟩ := exec_bind_ok h
  obtain ⟨stamp, ⟨m₄, w₄⟩, hstamp, h⟩ := exec_bind_ok h
  obtain ⟨event, s₅, hevent, h⟩ := exec_bind_ok h
  rw [exec_pure] at h
  obtain ⟨hmade, rfl⟩ := of_exec_lift hevent
  cases h
  obtain ⟨-, -, hindex, hblock⟩ := Event.make_parts hmade
  have hposition := natural_ofWhole hindex
  have hnumber := natural_ofWhole hblock
  -- a number that was read is natural, so the parts are the ones that were given
  have hparts :=
    make_event (by omega : 0 ≤ index.toInt) (by omega : 0 ≤ block.toInt) e tx (some stamp)
  obtain rfl := Except.ok.inj (hmade.symm.trans hparts)
  refine ⟨stamp, rfl, ?_⟩
  rw [← hnumber]
  exact timestampOf_blockTimestamp hstamp

theorem process_dated {j : Job} {s : Timestamps × World} {payloads? : Option (List Payload)}
    (h : Act.exec (c.process sc.rpc j) s = (.ok payloads?, m', w')) :
    ∀ p ∈ payloads?.getD [], Dated m' p := by
  cases j with
  | transaction j =>
    have hthrow : Act.exec (throw (.jobMismatch "EvmClient" c.network.word
        (Job.transaction j).title) : Act (StateT Timestamps (StateM World)) _) s =
        (.ok payloads?, m', w') := h
    rw [exec_throw] at hthrow
    cases hthrow
  | log j =>
    obtain ⟨e?, s₁, -, h⟩ := exec_bind_ok h
    split at h
    · rw [exec_pure] at h
      cases h
      simp
    split at h
    · rw [exec_pure] at h
      cases h
      simp
    · obtain ⟨block, s₂, -, h⟩ := exec_bind_ok h
      obtain ⟨tx, s₃, -, h⟩ := exec_bind_ok h
      obtain ⟨p, s₄, hpayload, h⟩ := exec_bind_ok h
      rw [exec_pure] at h
      cases h
      simpa using payloadOf_dated (exec_rewording_ok hpayload)

/-- A payload that is dated by what is remembered is stamped by what was asked for. -/
theorem stamped_of_dated {es : List Incident} {p : Payload} (h : Mirrors m es) (hp : Dated m p) :
    Stamped es p := by
  obtain ⟨t, htime, hknown⟩ := hp
  refine ⟨t, htime, ?_⟩
  rw [h, hknown]
  exact List.mem_singleton_self t

/-- The payloads of a job are stamped by the requests that are mirrored when it was processed. -/
theorem process_stamped {before : List Incident} {j : Job} (hbefore : Mirrors m before)
    (hw : w.events = []) {payloads : List Payload}
    (h : Act.exec (c.process sc.rpc j) (m, w) = (.ok (some payloads), m', w')) :
    ∀ p ∈ payloads, Stamped (before ++ w'.events) p := by
  obtain ⟨es, hreach, hmirrors⟩ := (process_recorded sc c j).of_exec h
  have hevents : w'.events = es := by rw [hreach.events, hw, List.nil_append]
  rw [hevents]
  exact fun p hp => stamped_of_dated (hmirrors before hbefore) (process_dated h p hp)

/-! ### Pages -/

/-- Fetching a page asks for no timestamp. -/
theorem fetch_undated (sc : Scenario) (c : Client) (cursor : Cursor) :
    Keeps (Beside (fun _ _ => True) (World.Tells Undated)) ((c.adapter sc.rpc).fetch cursor) :=
  fetch_closed (Keeps.closed _) Keeps.closedBeside
    (fun params => sc.rpc_keeps (undated_of_method (by decide) params))
    (fun params => sc.rpc_keeps (undated_of_method (by decide) params)) c cursor

/-- A request for logs. -/
def asksForLogs : Incident → Bool
  | .asked method _ _ => method == "eth_getLogs"
  | _ => false

/-- All timestamps are forgotten when a page is fetched for which logs were asked, and only then. -/
theorem fetch_memory {cursor : Cursor} {r : Except Failure (List Job × Cursor)}
    (hw : w.events = [])
    (h : Act.exec ((c.adapter sc.rpc).fetch cursor) (m, w) = (r, m', w')) :
    m' = if r.isOk && w'.events.any asksForLogs then [] else m := by
  cases r with
  | error e => exact fetch_error h
  | ok p =>
    obtain ⟨first, answer, head, -, -, ⟨-, -, -, hreach, rfl⟩ | hpage⟩ := fetch_ok h
    · simp [hreach.events, hw, asksForLogs, Except.isOk, Except.toBool]
    · obtain ⟨_, _, _, _, _, _, -, -, -, -, -, -, -, -, hreach, rfl⟩ := hpage
      simp [hreach.events, hw, asksForLogs, Except.isOk, Except.toBool]

end Client

/-! ### Sessions -/

/-- A client between two calls: its memory, the world, how many pages it has fetched for which logs
were asked, and what has happened since the latest of them. -/
structure Session where
  memory : Timestamps
  world : World
  era : Nat
  since : List Incident

namespace Session

/-- A client that was just built. -/
def built (w : World) : Session :=
  ⟨[], w, 0, []⟩

/-- The session after a page was to be fetched. -/
def fetch (c : Client) (node : Node) (s : Session) (cursor : Cursor) : Session :=
  let (result, memory, world) :=
    Act.exec ((c.adapter (node.scenario s.era).rpc).fetch cursor) (s.memory, s.world.begun)
  if result.isOk && world.events.any Client.asksForLogs then ⟨memory, world, s.era + 1, []⟩
  else ⟨memory, world, s.era, s.since ++ world.events⟩

/-- What came of a job, and the session after it. -/
def process (c : Client) (node : Node) (s : Session) (j : Job) :
    Except Failure (Option (List Payload)) × Session :=
  let (result, memory, world) :=
    Act.exec (c.process (node.scenario s.era).rpc j) (s.memory, s.world.begun)
  (result, ⟨memory, world, s.era, s.since ++ world.events⟩)

/-- The sessions that a client can come to. -/
inductive Reached (c : Client) (node : Node) : Session → Prop
  | built (w : World) : Reached c node (built w)
  | fetch {s : Session} (h : Reached c node s) (cursor : Cursor) :
      Reached c node (s.fetch c node cursor)
  | process {s : Session} (h : Reached c node s) (j : Job) : Reached c node (s.process c node j).2

/-- What comes of a job at some moment if nothing is remembered, and what happens: the node is asked
for the block. -/
def forgetful (c : Client) (sc : Scenario) (j : Job) (w : World) :
    Except Failure (Option (List Payload)) × List Incident :=
  let (result, _, world) := Act.exec (c.process sc.rpc j) ([], w.begun)
  (result, world.events)

/-- What is remembered are the timestamps of the era, once for each block. -/
structure Sound (node : Node) (s : Session) : Prop where
  mirrors : Mirrors s.memory s.since
  holds : Holds node s.era s.memory

variable {c : Client} {node : Node} {s : Session}

theorem mirrors_nil : Mirrors [] [] := fun _ => rfl

theorem holds_nil (node : Node) (era : Nat) : Holds node era [] := by
  intro block t h
  cases h

theorem Sound.process (h : s.Sound node) (c : Client) (j : Job) :
    (s.process c node j).2.Sound node := by
  have hholds := (Client.process_steady node s.era c j _ _ s.world.begun s.world.begun h.holds
    h.holds).2
  rcases hexec : Act.exec (c.process (node.scenario s.era).rpc j) (s.memory, s.world.begun) with
    ⟨r, m, w⟩
  obtain ⟨es, hreach, hmirrors⟩ := (Client.process_recorded _ c j).of_exec hexec
  have hevents : w.events = es := hreach.events
  rw [hexec] at hholds
  rw [Session.process, hexec]
  refine ⟨?_, hholds⟩
  dsimp only
  rw [hevents]
  exact hmirrors _ h.mirrors

theorem Sound.fetch (h : s.Sound node) (c : Client) (cursor : Cursor) :
    (s.fetch c node cursor).Sound node := by
  rcases hexec : Act.exec ((c.adapter (node.scenario s.era).rpc).fetch cursor)
    (s.memory, s.world.begun) with ⟨r, m, w⟩
  have hmemory := Client.fetch_memory rfl hexec
  obtain ⟨-, es, hreach, hes⟩ := (Client.fetch_undated _ c cursor).of_exec hexec
  rw [Session.fetch, hexec]
  dsimp only
  split
  · rename_i hpage
    rw [if_pos hpage] at hmemory
    subst hmemory
    exact ⟨mirrors_nil, holds_nil node _⟩
  · rename_i hpage
    rw [if_neg hpage] at hmemory
    subst hmemory
    refine ⟨fun block => ?_, h.holds⟩
    have hevents : w.events = es := hreach.events
    rw [stampsOf_append, hevents, stampsOf_undated hes, List.append_nil]
    exact h.mirrors block

theorem Reached.sound (h : Reached c node s) : s.Sound node := by
  induction h with
  | built w => exact ⟨mirrors_nil, holds_nil node 0⟩
  | fetch _ cursor ih => exact ih.fetch c cursor
  | process _ j ih => exact ih.process c j

/-- Whatever has happened before, a client makes of a job what one makes of it that remembers nothing
and asks for the block, at any moment of the era: the same payloads, or the same failure. The
timestamp of each payload is one that the node was asked for since the latest page, and in this time
no timestamp is found twice for one block. -/
theorem process_forgetful (c : Client) (node : Node) (s : Session) (reached : Reached c node s)
    (j : Job) :
    (∀ w, (s.process c node j).1 = (forgetful c (node.scenario s.era) j w).1) ∧
      (∀ payloads, (s.process c node j).1 = .ok (some payloads) → ∀ p ∈ payloads,
        Stamped (s.process c node j).2.since p ∧
          ∀ w, Stamped (forgetful c (node.scenario s.era) j w).2 p) ∧
      ∀ block, (stampsOf block (s.process c node j).2.since).length ≤ 1 := by
  have hsound := reached.sound
  have hsame : ∀ w, (s.process c node j).1 = (forgetful c (node.scenario s.era) j w).1 := fun w =>
    (Client.process_steady node s.era c j _ _ s.world.begun w.begun hsound.holds
      (holds_nil node s.era)).1
  refine ⟨hsame, fun payloads hok p hp => ⟨?_, fun w => ?_⟩, fun block => ?_⟩
  · rcases hexec : Act.exec (c.process (node.scenario s.era).rpc j) (s.memory, s.world.begun) with
      ⟨r, m, w⟩
    rw [Session.process, hexec] at hok ⊢
    obtain rfl : r = .ok (some payloads) := hok
    exact Client.process_stamped hsound.mirrors rfl hexec p hp
  · rw [hsame w] at hok
    rcases hexec : Act.exec (c.process (node.scenario s.era).rpc j) ([], w.begun) with ⟨r, m, w'⟩
    rw [forgetful, hexec] at hok ⊢
    obtain rfl : r = .ok (some payloads) := hok
    exact Client.process_stamped mirrors_nil rfl hexec p hp
  · rw [(hsound.process c j).mirrors block]
    exact Option.length_toList_le

/-! A block that gets another timestamp when the chain is reorganised. -/

open Client (ethereumClient sampleFiling sampleLog)

/-- A node on which blocks get another timestamp with each era. -/
def driftingNode : Node where
  tells _ method _ := if method = "eth_getLogs" then .ok (.list []) else .ok (.text "0x0")
  finds era method _ :=
    if method = "eth_call" then .ok (.text ("0x" ++ Hex.write sampleFiling.state))
    else .ok (.object [("timestamp", .text (Numeral.hexadecimal (16 + era)))])

/-- The session in which a job was processed and then an empty page was fetched. -/
def pagedSession : Session :=
  ((built {}).process ethereumClient driftingNode (.log ⟨sampleLog⟩)).2.fetch ethereumClient
    driftingNode .start

theorem pagedSession_reached : Reached ethereumClient driftingNode pagedSession :=
  .fetch (.process (.built {}) _) .start

/-- What a client makes of the log that remembers nothing. -/
theorem forgetful_sampleLog (era : Nat) :
    (forgetful ethereumClient (driftingNode.scenario era) (.log ⟨sampleLog⟩) {}).1 =
      .ok (some [⟨"ethereum", ⟨.updateReporter, "h", 3, 7, some ((16 + era : Nat) : Int)⟩,
        sampleFiling.record⟩]) := by
  have hstate : Client.Answers (driftingNode.scenario era) ethereumClient sampleFiling (.number 7)
      (World.begun {}).clock ("0x" ++ Hex.write sampleFiling.state) :=
    ⟨rfl, Hex.spells_write _, by decide +kernel⟩
  have hread : (Value.text (Numeral.hexadecimal (16 + era : Nat))).readHex =
      .ok ((16 + era : Nat) : Int) := by
    simp only [Value.readHex, Numeral.read?_hexadecimal]
  have hindex : LogJob.logIndex ⟨sampleLog⟩ = .ok (.number 3) := rfl
  have hblock : LogJob.blockNumber ⟨sampleLog⟩ = .ok (.number 7) := rfl
  have htx : LogJob.txHash ⟨sampleLog⟩ = .ok "h" := rfl
  have hfamily : EventName.family? .updateReporter = some sampleFiling.family := rfl
  obtain ⟨s, hpayload⟩ : ∃ s, Act.exec (ethereumClient.payloadOf (driftingNode.scenario era).rpc
      ⟨sampleLog⟩ .updateReporter sampleFiling.family (.number 7)) ([], World.begun {}) =
        (.ok ⟨"ethereum", ⟨.updateReporter, "h", 3, 7, some ((16 + era : Nat) : Int)⟩,
          sampleFiling.record⟩, s) := by
    apply Exists.intro
    refine (exec_bind_of_ok (exec_within_eq
      (Client.exec_recordOf sampleLog_isLogOf hstate) _) _).trans ?_
    refine (exec_liftFault_bind htx _ _).trans ((exec_liftFault_bind hindex _ _).trans ?_)
    refine (exec_bind_of_ok
      (Client.exec_blockTimestamp_of_asked rfl (Scenario.exec_rpc rfl) rfl hread) _).trans ?_
    refine (exec_lift_bind (make_event (by decide) (by decide) _ _ (some _)) _ _).trans ?_
    exact exec_pure _ _
  have hevent := Client.eventOf?_of_isLogOf sampleLog_isLogOf
  change (Act.exec (ethereumClient.process (driftingNode.scenario era).rpc (.log ⟨sampleLog⟩))
    ([], World.begun {})).1 = _
  rw [exec_process hevent hfamily hblock htx, hpayload]
  rfl

theorem pagedSession_forgetful :
    let before := (built {}).process ethereumClient driftingNode (.log ⟨sampleLog⟩)
    let after := pagedSession.process ethereumClient driftingNode (.log ⟨sampleLog⟩)
    (∃ p, before.1 = .ok (some [p]) ∧ p.event.timestamp = some 16) ∧
      (∃ p, after.1 = .ok (some [p]) ∧ p.event.timestamp = some 17) ∧
      ∀ block, (stampsOf block after.2.since).length ≤ 1 := by
  intro before after
  obtain ⟨hbefore, -⟩ := process_forgetful ethereumClient driftingNode (built {}) (.built {})
    (.log ⟨sampleLog⟩)
  obtain ⟨hafter, -, honce⟩ := process_forgetful ethereumClient driftingNode pagedSession
    pagedSession_reached (.log ⟨sampleLog⟩)
  have hera : pagedSession.era = 1 := by rfl
  have hlater := hafter {}
  rw [hera] at hlater
  exact ⟨⟨_, (hbefore {}).trans (forgetful_sampleLog 0), rfl⟩,
    ⟨_, hlater.trans (forgetful_sampleLog 1), rfl⟩, honce⟩

end Session

end ChainIndexer.Evm
