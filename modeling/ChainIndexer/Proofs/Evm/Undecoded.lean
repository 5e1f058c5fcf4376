import ChainIndexer.Proofs.AbiRefusal
import ChainIndexer.Proofs.Evm.Decoding
import ChainIndexer.Proofs.Refusal

/-!
Logs that cannot be decoded. Whatever texts the topics and the data of a log are, and whatever text
the node answers with the state, processing a log gives one payload or says that the log cannot be
decoded, with one exception: a text in the state whose length cannot be addressed. `Settles` tells
the two ways apart in which an activity can end, and holds of what is put together from parts that
are refused as `Undecodable`, with one place at which the exception is met.
-/

namespace ChainIndexer.Evm

open Act Push Abi

/-! ### Refusals -/

/-- A failure to decode a log, or one that counts as such. -/
def Undecodable (e : Failure) : Prop :=
  Client.isUndecoded e.kind = true ∨ e.kind = .decode

theorem Undecodable.of_badValue {e : Failure} (h : e.kind.isBadValue = true) : Undecodable e := by
  left
  simp [Client.isUndecoded, h]

theorem hexBytes_undecodes (s : String) : RefusedAs Undecodable (hexBytes (.text s)) := by
  have htext : ∃ s', (Value.text s).orElse (.text "0x") = .text s' := by
    unfold Value.orElse
    split
    · exact ⟨s, rfl⟩
    · exact ⟨"0x", rfl⟩
  obtain ⟨s', hs'⟩ := htext
  unfold hexBytes
  rw [hs']
  dsimp only
  split
  · exact .ok _
  · exact .error (Or.inr rfl)

theorem undecodable_of_readAt {data : Bytes} {t : Ty} {pos : Nat} {f : Fault}
    (h : ¬ Meets data t pos) (hf : readAt data t pos = .error f) : Undecodable (.fault f) := by
  rcases readAt_refuses t pos hf with rfl | ⟨-, rfl | rfl⟩
  · exact Or.inl rfl
  · exact Or.inl rfl
  · exact absurd ((readAt_overflow_iff t pos).mp hf) h

theorem ofCodeNumber_undecodes {α : Type} [Vocabulary α] (code : Nat) :
    RefusedAs Undecodable (Vocabulary.ofCodeNumber code : Except Failure α) := by
  intro e h
  exact .of_badValue (Vocabulary.ofCodeNumber_badValue code e h)

theorem orFail_undecodes {α : Type} (model : String) (a : Schema.Checked α) :
    RefusedAs Undecodable (a.orFail model) := by
  intro e h
  exact .of_badValue (Schema.Checked.orFail_badValue model a e h)

theorem topicId_undecodes (topic : Bytes) : RefusedAs Undecodable (topicId topic) := by
  unfold topicId
  split
  · exact .error (Or.inr rfl)
  · exact .ok _

theorem topicAddress_undecodes (topic : Bytes) : RefusedAs Undecodable (topicAddress topic) := by
  unfold topicAddress
  split
  · exact .error (Or.inr rfl)
  · exact .ok _

/-! ### Logs of texts -/

/-- A log whose topics and whose data are texts. -/
structure IsTextual (log : Value) (words : List String) (data : String) : Prop where
  topics : log.get "topics" = .ok (.list (words.map .text))
  data : log.get "data" = .ok (.text data)

variable {log : Value} {words : List String} {data : String}

theorem topics_of_textual (h : IsTextual log words data) :
    topics log = .ok (.list (words.map .text)) := by
  unfold topics
  rw [h.topics]
  cases words with
  | nil => rfl
  | cons => rfl

theorem topicAt_undecodes (h : IsTextual log words data) (i : Nat) :
    RefusedAs Undecodable (topicAt log i) := by
  have hcount : (Value.list (words.map .text)).size = .ok words.length := by
    simp [Value.size, Value.elements, Except.map]
  unfold topicAt
  rw [topics_of_textual h]
  refine .bind (.ok _) fun all hall => ?_
  cases hall
  refine .bind (.found hcount) fun count hcount' => ?_
  obtain rfl : words.length = count :=
    Except.ok.inj (hcount.symm.trans (liftFault_ok_iff.mp hcount'))
  by_cases hlt : i < words.length
  · have hnat : ¬(i : Int) < 0 := by omega
    have htopic : (Value.list (words.map .text)).index i = .ok (.text words[i]) := by
      simp [Value.index, Value.elementAt, hnat, hlt]
    refine .check (Or.inr rfl) (.bind (.found htopic) fun topic htopic' => ?_)
    obtain rfl : Value.text words[i] = topic :=
      Except.ok.inj (htopic.symm.trans (liftFault_ok_iff.mp htopic'))
    exact .bind (hexBytes_undecodes _) fun bs _ => .check (Or.inr rfl) (.ok _)
  · rw [if_pos (Nat.le_of_not_lt hlt)]
    exact .error (Or.inr rfl)

theorem logBody_undecodes (h : IsTextual log words data) {types : List Ty}
    (hstatic : Ty.anyDynamic types = false) : RefusedAs Undecodable (Client.logBody log types) := by
  have htuple : (Ty.tuple types).isDynamic = false := by rw [Ty.isDynamic, hstatic]
  unfold Client.logBody
  refine .bind (.found h.data) fun found hfound => ?_
  obtain rfl : Value.text data = found :=
    Except.ok.inj (h.data.symm.trans (liftFault_ok_iff.mp hfound))
  refine .bind (hexBytes_undecodes data) fun bs _ => ?_
  apply RefusedAs.liftFault
  intro f hf
  exact undecodable_of_readAt (not_meets_of_static htuple 0) hf

/-! ### Activities -/

/-- An activity from a state overflows if it meets something bad, and is refused as `Undecodable`, if
at all, if it does not. -/
structure Settles {n : Type → Type} [Monad n] {σ : Type} [Threaded n σ] {α : Type} (s : σ)
    (bad : Prop) (x : Act n α) : Prop where
  overflows : bad → (Act.exec x s).1 = .error (.fault .overflow)
  undecodes : ¬bad → RefusedAs Undecodable (Act.exec x s).1

namespace Settles

variable {n : Type → Type} [Monad n] {σ : Type} [Threaded n σ] {α β : Type} {s : σ} {bad : Prop}

theorem of_iff {bad' : Prop} {x : Act n α} (h : bad' ↔ bad) (hx : Settles s bad x) :
    Settles s bad' x :=
  ⟨fun hbad => hx.overflows (h.mp hbad), fun hbad => hx.undecodes fun hbad' => hbad (h.mpr hbad')⟩

theorem of_exec {m : Type → Type} [Monad m] {τ : Type} [Threaded m τ] {s' : τ} {x : Act n α}
    {y : Act m α} (h : (Act.exec x s).1 = (Act.exec y s').1) (hy : Settles s' bad y) :
    Settles s bad x := by
  constructor
  · intro hbad
    rw [h]
    exact hy.overflows hbad
  · intro hbad
    rw [h]
    exact hy.undecodes hbad

/-- Nothing bad is met in what was found. -/
theorem lift_bind {x : Except Failure α} {f : α → Act n β} (hx : RefusedAs Undecodable x)
    (hbad : bad → ∃ a, x = .ok a) (hf : ∀ a, x = .ok a → Settles s bad (f a)) :
    Settles s bad (liftM x >>= f) := by
  cases x with
  | ok a => exact .of_exec (congrArg (·.1) (exec_lift_bind rfl f s)) (hf a rfl)
  | error e =>
    constructor
    · intro h
      obtain ⟨a, ha⟩ := hbad h
      cases ha
    · intro _
      rw [exec_bind_of_error (exec_lift _ s)]
      exact .error (hx e rfl)

/-- What follows meets nothing bad. -/
theorem bind {x : Act n α} {f : α → Act n β} (hx : Settles s bad x)
    (hf : ∀ a, FailsAs Undecodable (f a)) : Settles s bad (x >>= f) := by
  rcases hexec : Act.exec x s with ⟨r, s'⟩
  constructor
  · intro h
    have hr := hx.overflows h
    rw [hexec] at hr
    obtain rfl : r = .error (.fault .overflow) := hr
    rw [exec_bind_of_error hexec]
  · intro h e he
    have hr := hx.undecodes h
    rw [hexec] at hr
    rcases exec_bind_error (Prod.ext he rfl) with hfirst | ⟨a, s₁, -, hsecond⟩
    · rw [hexec] at hfirst
      cases hfirst
      exact hr e rfl
    · exact hf a s₁ e _ hsecond

theorem check {b : Prop} [Decidable b] {e : Failure} {f : PUnit → Act n α} (he : Undecodable e)
    (hbad : b → ¬bad) (hf : ¬b → Settles s bad (f ⟨⟩)) :
    Settles s bad (if b then throw e >>= f else f ⟨⟩) := by
  split
  · rename_i hb
    constructor
    · intro h
      exact absurd h (hbad hb)
    · intro _
      rw [exec_bind_of_error (exec_throw e s)]
      exact .error he
  · rename_i hb
    exact hf hb

/-- What was found leads from its state on. -/
theorem after {x : Act n α} {f : α → Act n β} {a : α} (hx : (Act.exec x s).1 = .ok a)
    (hf : ∀ s', Settles s' bad (f a)) : Settles s bad (x >>= f) := by
  have hexec : Act.exec (x >>= f) s = Act.exec (f a) (Act.exec x s).2 :=
    exec_bind_of_ok (Prod.ext hx rfl) f
  exact .of_exec (congrArg (·.1) hexec) (hf _)

theorem within {μ : Type} {x : Act n α} (hx : Settles s bad x) (m : μ) :
    Settles (m, s) bad (within x : Act (StateT μ n) α) :=
  .of_exec (congrArg (·.1) (exec_within x m s)) hx

end Settles

/-! ### States -/

/-- A text is the answer with a state, of some type, in which reading comes to a text whose length
cannot be addressed. -/
def Overlong (state : Ty) (answer : String) : Prop :=
  ∃ bs, hexBytes (.text answer) = .ok bs ∧ Meets bs (.tuple [state]) 0

theorem overlong_iff {state : Ty} {answer : String} {bs : Bytes}
    (hbs : hexBytes (.text answer) = .ok bs) :
    Overlong state answer ↔ Meets bs (.tuple [state]) 0 := by
  constructor
  · rintro ⟨bs', hbs', h⟩
    rw [hbs] at hbs'
    cases hbs'
    exact h
  · intro h
    exact ⟨bs, hbs, h⟩

/-- The type of the state of a record of a family. -/
def stateType : Family → Ty
  | .reporter => Client.reporterState
  | .case => Client.caseState
  | .address => Client.addressState
  | .asset => Client.assetState

/-- The states of addresses and of assets hold no texts. -/
theorem holds_texts {f : Family} {answer : String} (h : Overlong (stateType f) answer) :
    f = .reporter ∨ f = .case := by
  obtain ⟨bs, -, hmeets⟩ := h
  cases f with
  | reporter => exact Or.inl rfl
  | case => exact Or.inr rfl
  | address => exact absurd hmeets (not_meets_of_static rfl 0)
  | asset => exact absurd hmeets (not_meets_of_static rfl 0)

section Records

variable {n : Type → Type} [Monad n] {σ : Type} [Threaded n σ] {rpc : Rpc n} {s : σ}
  {answer : String}

/-- The node answers a request for a state with a text. -/
def AnswersState (rpc : Rpc n) (s : σ) (answer : String) : Prop :=
  ∀ params, (Act.exec (rpc "eth_call" params) s).1 = .ok (.text answer)

theorem read_settles (state : Ty) (bs : Bytes) :
    Settles s (Meets bs (.tuple [state]) 0) (liftM (Abi.read state bs) : Act n state.Val) := by
  constructor
  · intro h
    have hread := read_error_iff.mpr ((readAt_overflow_iff _ _).mpr h)
    rw [exec_liftFault, hread]
    rfl
  · intro h
    rw [exec_liftFault]
    apply RefusedAs.liftFault
    intro f hf
    exact undecodable_of_readAt h (read_error_iff.mp hf)

theorem readState_settles
    (hcall : AnswersState rpc s answer) (c : Client)
    (signature : String) (types : List Ty) (args : Ty.Vals types) (state : Ty) (block : Whole) :
    Settles s (Overlong state answer) (c.readState rpc signature types args state block) := by
  unfold Client.readState
  refine .after (hcall _) fun s' => ?_
  refine .lift_bind (hexBytes_undecodes answer) ?_ fun bs hbs => ?_
  · rintro ⟨bs, hbs, -⟩
    exact ⟨bs, hbs⟩
  refine .of_iff (overlong_iff hbs) ?_
  refine .check (Or.inr rfl) ?_ fun _ => read_settles state bs
  intro hempty
  rw [List.isEmpty_iff.mp hempty]
  exact not_meets_nil state

/-! ### Records -/

/-- The second topic of a log names something. -/
def Names {β : Type} (log : Value) (read : Bytes → Except Failure β) (b : β) : Prop :=
  ∃ topic, topicAt log 1 = .ok topic ∧ read topic = .ok b

theorem length_of_topicAt {i : Nat} {topic : Bytes} (h : topicAt log i = .ok topic) :
    topic.length = 32 := by
  obtain ⟨all, -, h⟩ := bind_ok h
  obtain ⟨count, -, h⟩ := bind_ok h
  split at h
  · cases h
  obtain ⟨word, -, h⟩ := bind_ok h
  obtain ⟨bs, -, h⟩ := bind_ok h
  split at h
  · cases h
  · rename_i hlength
    cases h
    exact not_not.mp hlength

theorem Names.id_lt {id : Nat} (h : Names log topicId id) : id < 2 ^ 128 := by
  obtain ⟨topic, htopic, hid⟩ := h
  obtain ⟨-, rfl⟩ := ite_ok hid
  have hlt := Bytes.ofBig_lt (topic.drop 16)
  rw [List.length_drop, length_of_topicAt htopic] at hlt
  exact hlt

theorem Names.length_address {address : Bytes} (h : Names log topicAddress address) :
    address.length = 20 := by
  obtain ⟨topic, htopic, haddress⟩ := h
  obtain ⟨-, rfl⟩ := ite_ok haddress
  rw [List.length_drop, length_of_topicAt htopic]

/-- The bytes of the log of a record are in order, so that its state is looked up. -/
inductive Opens (log : Value) : Family → Prop
  | reporter {id : Nat} {body : Ty.Vals [.address, .uint 8]} (hid : Names log topicId id)
      (hbody : Client.logBody log [.address, .uint 8] = .ok body) : Opens log .reporter
  | case {id : Nat} (hid : Names log topicId id) : Opens log .case
  | address {address : Bytes} {body : Ty.Vals [.uint 8, .uint 8]}
      (haddress : Names log topicAddress address)
      (hbody : Client.logBody log [.uint 8, .uint 8] = .ok body) : Opens log .address
  | asset {address : Bytes} {body : Ty.Vals [.uint 256, .uint 8, .uint 8]}
      (haddress : Names log topicAddress address)
      (hbody : Client.logBody log [.uint 256, .uint 8, .uint 8] = .ok body) : Opens log .asset

theorem named_settles {β γ : Type} {bad : Prop} {read : Bytes → Except Failure β}
    {f : β → Act n γ} (h : IsTextual log words data)
    (hread : ∀ topic, RefusedAs Undecodable (read topic))
    (hbad : bad → ∃ b, Names log read b) (hf : ∀ b, Names log read b → Settles s bad (f b)) :
    Settles s bad (do
      let topic ← (liftM (topicAt log 1) : Act n Bytes)
      let b ← (liftM (read topic) : Act n β)
      f b) := by
  refine .lift_bind (topicAt_undecodes h 1) ?_ fun topic htopic => ?_
  · intro hmet
    obtain ⟨b, topic, htopic, -⟩ := hbad hmet
    exact ⟨topic, htopic⟩
  refine .lift_bind (hread topic) ?_ fun b hb => hf b ⟨topic, htopic, hb⟩
  intro hmet
  obtain ⟨b, topic', htopic', hb⟩ := hbad hmet
  rw [htopic] at htopic'
  cases htopic'
  exact ⟨b, hb⟩

theorem reporterOf_settles (h : IsTextual log words data)
    (hcall : AnswersState rpc s answer) (c : Client) (block : Whole) :
    Settles s (Opens log .reporter ∧ Overlong Client.reporterState answer)
      (c.reporterOf rpc log block) := by
  unfold Client.reporterOf
  refine named_settles h topicId_undecodes ?_ fun id hid => ?_
  · rintro ⟨hopens, -⟩
    cases hopens with
    | reporter hid _ => exact ⟨_, hid⟩
  refine .lift_bind (logBody_undecodes h rfl) ?_ fun ⟨account, role, rest⟩ hbody => ?_
  · rintro ⟨hopens, -⟩
    cases hopens with
    | reporter _ hbody => exact ⟨_, hbody⟩
  dsimp only
  rw [dif_pos hid.id_lt]
  refine .of_iff (and_iff_right (.reporter hid hbody)) ?_
  refine .bind (readState_settles hcall c _ _ _ _ _) fun state => ?_
  refine .bind (.lift_of (ofCodeNumber_undecodes _)) fun role => ?_
  refine .bind (.lift_of (ofCodeNumber_undecodes _)) fun status => ?_
  exact .lift_of (orFail_undecodes _ _)

theorem caseOf_settles (h : IsTextual log words data)
    (hcall : AnswersState rpc s answer) (c : Client) (block : Whole) :
    Settles s (Opens log .case ∧ Overlong Client.caseState answer) (c.caseOf rpc log block) := by
  unfold Client.caseOf
  refine named_settles h topicId_undecodes ?_ fun id hid => ?_
  · rintro ⟨hopens, -⟩
    cases hopens with
    | case hid => exact ⟨_, hid⟩
  rw [dif_pos hid.id_lt]
  refine .of_iff (and_iff_right (.case hid)) ?_
  refine .bind (readState_settles hcall c _ _ _ _ _) fun state => ?_
  refine .bind (.lift_of (ofCodeNumber_undecodes _)) fun status => ?_
  exact .lift_of (orFail_undecodes _ _)

theorem addressOf_settles (h : IsTextual log words data)
    (hcall : AnswersState rpc s answer) (c : Client) (block : Whole) :
    Settles s (Opens log .address ∧ Overlong Client.addressState answer)
      (c.addressOf rpc log block) := by
  unfold Client.addressOf
  refine named_settles h topicAddress_undecodes ?_ fun address haddress => ?_
  · rintro ⟨hopens, -⟩
    cases hopens with
    | address haddress _ => exact ⟨_, haddress⟩
  refine .lift_bind (logBody_undecodes h rfl) ?_ fun ⟨risk, category, rest⟩ hbody => ?_
  · rintro ⟨hopens, -⟩
    cases hopens with
    | address _ hbody => exact ⟨_, hbody⟩
  dsimp only
  rw [dif_pos haddress.length_address]
  refine .of_iff (and_iff_right (.address haddress hbody)) ?_
  refine .bind (readState_settles hcall c _ _ _ _ _) fun state => ?_
  refine .bind (.lift_of (ofCodeNumber_undecodes _)) fun category => ?_
  exact .lift_of (orFail_undecodes _ _)

theorem assetOf_settles (h : IsTextual log words data)
    (hcall : AnswersState rpc s answer) (c : Client) (block : Whole) :
    Settles s (Opens log .asset ∧ Overlong Client.assetState answer)
      (c.assetOf rpc log block) := by
  unfold Client.assetOf
  refine named_settles h topicAddress_undecodes ?_ fun address haddress => ?_
  · rintro ⟨hopens, -⟩
    cases hopens with
    | asset haddress _ => exact ⟨_, haddress⟩
  refine .lift_bind (logBody_undecodes h rfl) ?_ fun ⟨asset, risk, category, rest⟩ hbody => ?_
  · rintro ⟨hopens, -⟩
    cases hopens with
    | asset _ hbody => exact ⟨_, hbody⟩
  dsimp only
  rw [dif_pos haddress.length_address]
  refine .of_iff (and_iff_right (.asset haddress hbody)) ?_
  refine .bind (readState_settles hcall c _ _ _ _ _) fun state => ?_
  refine .bind (.lift_of (ofCodeNumber_undecodes _)) fun category => ?_
  exact .lift_of (orFail_undecodes _ _)

theorem recordOf_settles (h : IsTextual log words data)
    (hcall : AnswersState rpc s answer) (c : Client) (f : Family) (block : Whole) :
    Settles s (Opens log f ∧ Overlong (stateType f) answer) (c.recordOf rpc f log block) := by
  cases f with
  | reporter => exact reporterOf_settles h hcall c block
  | case => exact caseOf_settles h hcall c block
  | address => exact addressOf_settles h hcall c block
  | asset => exact assetOf_settles h hcall c block

/-- The node answers each request for a block with one that has a timestamp. -/
def Dates (rpc : Rpc n) : Prop :=
  ∀ params s, ∃ fields stamp t,
    (Act.exec (rpc "eth_getBlockByNumber" params) s).1 = .ok (.object fields) ∧
      Value.field? fields "timestamp" = some stamp ∧ stamp.readHex = .ok t

theorem blockTimestamp_failsAs (hdates : Dates rpc) (block : Whole) {E : Failure → Prop} :
    FailsAs E (Client.blockTimestamp rpc block) := by
  rintro ⟨known, s⟩ e s' h
  cases hfind : known.find? fun k => k.1 == block.toInt with
  | some k =>
    rw [Client.exec_blockTimestamp_of_known hfind] at h
    cases h
  | none =>
    obtain ⟨fields, stamp, t, hanswer, hfield, hread⟩ := hdates (Client.blockParams block) s
    rw [Client.exec_blockTimestamp_of_asked hfind (Prod.ext hanswer rfl) hfield hread] at h
    cases h

theorem exists_txHash (h : IsTextual log words data) : ∃ tx, LogJob.txHash ⟨log⟩ = .ok tx := by
  cases log with
  | object fields => exact ⟨_, rfl⟩
  | _ => cases h.data

theorem payloadOf_settles (h : IsTextual log words data)
    (hcall : AnswersState rpc s answer)
    (hdates : Dates rpc) {index : Whole} (hindex : LogJob.logIndex ⟨log⟩ = .ok index) (c : Client)
    (e : EventName) (f : Family) (block : Whole) (known : Timestamps) :
    Settles (known, s) (Opens log f ∧ Overlong (stateType f) answer)
      (c.payloadOf rpc ⟨log⟩ e f block) := by
  obtain ⟨tx, htx⟩ := exists_txHash h
  unfold Client.payloadOf
  refine .bind ((recordOf_settles h hcall c f block).within known) fun record => ?_
  refine .bind (.found htx) fun tx => .bind (.found hindex) fun index => ?_
  refine .bind (blockTimestamp_failsAs hdates block) fun stamp => ?_
  exact .bind (.lift_of (orFail_undecodes _ _)) fun event => .pure _

/-! ### Logs -/

/-- A failure with what says of a log that it cannot be decoded in other words. -/
def reworded (e : EventName) (tx : String) (cause : Failure) : Failure :=
  if Client.isUndecoded cause.kind then .eventUndecoded e tx cause else cause

theorem kind_reworded {e : EventName} {tx : String} {cause : Failure} (h : Undecodable cause) :
    (reworded e tx cause).kind = .decode := by
  unfold reworded
  split
  · rfl
  · rename_i hpasses
    exact h.resolve_left hpasses

/-- Processing the log of a record gives the payload with it, or its failure in other words. -/
theorem exec_process {j : LogJob} {e : EventName} {f : Family} {block : Whole} {tx : String}
    (hevent : Client.eventOf? j = .ok (some e)) (hfamily : e.family? = some f)
    (hblock : j.blockNumber = .ok block) (htx : j.txHash = .ok tx) (c : Client)
    (known : Timestamps) :
    (Act.exec (c.process rpc (.log j)) (known, s)).1 =
      ((Act.exec (c.payloadOf rpc j e f block) (known, s)).1.mapError (reworded e tx)).map
        fun p => some [p] := by
  have hprocess : Act.exec (c.process rpc (.log j)) (known, s) =
      Act.exec (do
        let payload ← (c.payloadOf rpc j e f block).rewording Client.isUndecoded
          (.eventUndecoded e tx)
        return some [payload]) (known, s) := by
    refine (exec_lift_bind hevent _ _).trans ?_
    dsimp only
    rw [hfamily]
    refine (exec_liftFault_bind hblock _ _).trans ?_
    exact exec_liftFault_bind htx _ _
  rw [hprocess, exec_bind_pure, exec_rewording]
  rfl

/-- Whatever the topics and the data of a log and the answer with the state say, processing the log
of a record gives one payload or says that the log cannot be decoded, save for one case, in which it
overflows: the log is in order, and reading the state comes to a text whose length cannot be
addressed. Such texts are found in the states of reporters and of cases. -/
theorem process_overflows_iff (c : Client) (rpc : Rpc n) (log : Value) (words : List String)
    (data : String) (textual : IsTextual log words data) (e : EventName) (f : Family)
    (event : Client.eventOf? ⟨log⟩ = .ok (some e)) (mapped : e.family? = some f)
    (block index : Whole) (hasBlock : LogJob.blockNumber ⟨log⟩ = .ok block)
    (hasIndex : LogJob.logIndex ⟨log⟩ = .ok index) (known : Timestamps) (s : σ) (answer : String)
    (answers : AnswersState rpc s answer) (dates : Dates rpc) :
    let r := (Act.exec (c.process rpc (.log ⟨log⟩)) (known, s)).1
    (r = .error (.fault .overflow) ↔ Opens log f ∧ Overlong (stateType f) answer) ∧
      (r ≠ .error (.fault .overflow) →
        (∃ p, r = .ok (some [p])) ∨ ∃ cause, r = .error cause ∧ cause.kind = .decode) ∧
      (Overlong (stateType f) answer → f = .reporter ∨ f = .case) := by
  obtain ⟨tx, htx⟩ := exists_txHash textual
  have hsettles := payloadOf_settles textual answers dates hasIndex c e f block known
  intro r
  have hr : r = ((Act.exec (c.payloadOf rpc ⟨log⟩ e f block) (known, s)).1.mapError
      (reworded e tx)).map fun p => some [p] :=
    exec_process event mapped hasBlock htx c known
  have hover : Opens log f ∧ Overlong (stateType f) answer → r = .error (.fault .overflow) := by
    intro h
    rw [hr, hsettles.overflows h]
    rfl
  have helse : ¬(Opens log f ∧ Overlong (stateType f) answer) →
      (∃ p, r = .ok (some [p])) ∨ ∃ cause, r = .error cause ∧ cause.kind = .decode := by
    intro h
    have hundecodes := hsettles.undecodes h
    cases hpayload : (Act.exec (c.payloadOf rpc ⟨log⟩ e f block) (known, s)).1 with
    | ok p =>
      rw [hpayload] at hr
      exact Or.inl ⟨p, hr⟩
    | error cause =>
      rw [hpayload] at hr
      exact Or.inr ⟨_, hr, kind_reworded (hundecodes cause hpayload)⟩
  refine ⟨⟨?_, hover⟩, ?_, holds_texts⟩
  · intro hoverflow
    by_contra h
    rcases helse h with ⟨p, hp⟩ | ⟨cause, hcause, hkind⟩
    · rw [hoverflow] at hp
      cases hp
    · rw [hoverflow] at hcause
      cases hcause
      cases hkind
  · intro hr'
    exact helse fun h => hr' (hover h)

end Records

/-! A state of a reporter whose name is said to have 2^255 bytes. -/

def overlongState : Bytes :=
  [32, 0, 0, 256, 256, 0, 0, 0, 0, 2 ^ 255].flatMap (Bytes.toBig 32)

def overlongAnswers : Scenario where
  node _ method _ :=
    if method = "eth_call" then .ok (.text ("0x" ++ Hex.write overlongState))
    else .ok (.object [("timestamp", .text (Numeral.hexadecimal 16))])
  sink _ _ := .accepted
  interrupt _ := none
  breakdown _ := none

theorem overlongState_meets : Meets overlongState (.tuple [Client.reporterState]) 0 := by
  have hpointer : wordAt overlongState 0 = .ok 32 := by decide +kernel
  have hid : uintAt overlongState 32 128 = .ok 0 := by decide +kernel
  have haccount : addressAt overlongState 64 = .ok ⟨List.replicate 20 0, rfl⟩ := by decide +kernel
  have hname : wordAt overlongState 96 = .ok 256 := by decide +kernel
  have hlength : wordAt overlongState 288 = .ok (2 ^ 255) := by decide +kernel
  refine .tuple (by decide +kernel) (.first rfl hpointer (.tuple (by decide +kernel) ?_))
  exact .later hid (.later haccount (.first rfl hname (.text hlength (by decide +kernel))))

theorem sampleLog_isLogOf : IsLogOf Client.sampleLog .updateReporter Client.sampleFiling :=
  ⟨⟨_, _, rfl, Hex.spells_write _, Hex.spells_write _⟩, ⟨_, rfl, Hex.spells_write _⟩⟩

theorem sampleLog_opens : Opens Client.sampleLog .reporter := by
  obtain ⟨_, _, htopics, -, hword⟩ := sampleLog_isLogOf.topics
  obtain ⟨_, hdata, hbody⟩ := sampleLog_isLogOf.data
  have htopic := topicAt_one htopics hword (Bytes.length_toBig _ _)
  have hid := topicId_write Client.sampleReporter.id
  exact .reporter ⟨_, htopic, hid⟩
    (Client.logBody_write rfl (by simp) rfl (by decide) hdata hbody)

theorem sampleLog_textual : IsTextual Client.sampleLog
    ["0x" ++ Hex.write (Keccak.ofText (eventSignature .updateReporter)),
      "0x" ++ Hex.write Client.sampleFiling.word] ("0x" ++ Hex.write Client.sampleFiling.body) :=
  ⟨rfl, rfl⟩

theorem overlongAnswers_dates : Dates overlongAnswers.rpc := by
  intro params w
  have hread : (Value.text (Numeral.hexadecimal 16)).readHex = .ok 16 := by decide
  refine ⟨[("timestamp", .text (Numeral.hexadecimal 16))], _, 16, ?_, rfl, hread⟩
  rw [Scenario.exec_rpc rfl]
  rfl

theorem overlongName_overflows :
    (Act.exec (Client.ethereumClient.process overlongAnswers.rpc (.log ⟨Client.sampleLog⟩))
      ([], {})).1 = .error (.fault .overflow) := by
  have hoverlong : Overlong Client.reporterState ("0x" ++ Hex.write overlongState) :=
    ⟨overlongState, hexBytes_of_spells (Hex.spells_write _), overlongState_meets⟩
  have hanswers : AnswersState overlongAnswers.rpc {} ("0x" ++ Hex.write overlongState) := by
    intro params
    rw [Scenario.exec_rpc rfl]
    rfl
  have hevent := Client.eventOf?_of_isLogOf sampleLog_isLogOf
  have hiff := (process_overflows_iff Client.ethereumClient overlongAnswers.rpc Client.sampleLog _ _
    sampleLog_textual .updateReporter .reporter hevent rfl (.number 7) (.number 3) rfl rfl [] {} _
    hanswers overlongAnswers_dates).1
  exact hiff.mpr ⟨sampleLog_opens, hoverlong⟩

end ChainIndexer.Evm
