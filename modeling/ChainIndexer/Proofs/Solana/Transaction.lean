import ChainIndexer.Proofs.Solana.Account
import ChainIndexer.Solana.Client
import Mathlib.Data.List.Nodup

/-!
What the decoding of a transaction has to give. A `Transaction` is what the node answers with, freed
from the shape of the answer, and likewise `Holds` is about the answer with an account. The
discriminators of the instructions differ, so the data of an instruction name one event at most
(`Marks.unique`). `Extracts` then says which payloads belong to the instructions of a transaction,
and what they are made of; it is built up one instruction at a time (`Extracts.skip`,
`Extracts.cons`).
-/

namespace ChainIndexer.Solana

open Act Push

/-! ### Transactions -/

/-- An instruction: the places of its program and of its accounts among the keys, and its data. -/
structure Instruction where
  program : Nat
  accounts : List Nat
  data : String

structure IsInstruction (v : Value) (ix : Instruction) : Prop where
  program : v.item "programIdIndex" = .ok (.int ix.program)
  accounts : v.getD "accounts" (.list []) = .ok (.list (ix.accounts.map fun (n : Nat) => .int n))
  data : ∃ data, v.get "data" = .ok data ∧ data.orElse (.text "") = .text ix.data

structure Transaction where
  err : Value
  accountKeys : List String
  writable : List String
  readonly : List String
  instructions : List Instruction
  slot : Nat
  time : Option Int

/-- All keys, in the order in which instructions refer to them. -/
def Transaction.keys (t : Transaction) : List String :=
  t.accountKeys ++ t.writable ++ t.readonly

structure IsMessage (v : Value) (t : Transaction) : Prop where
  accountKeys : v.item "accountKeys" = .ok (.list (t.accountKeys.map .text))
  instructions : ∃ vs, v.item "instructions" = .ok (.list vs) ∧
    List.Forall₂ IsInstruction vs t.instructions

structure AreDetails (v : Value) (t : Transaction) : Prop where
  err : v.get "err" = .ok t.err
  loaded : ∃ loaded, v.get "loadedAddresses" = .ok loaded ∧
    (loaded.orElse (.object [])).getD "writable" (.list []) = .ok (.list (t.writable.map .text)) ∧
    (loaded.orElse (.object [])).getD "readonly" (.list []) = .ok (.list (t.readonly.map .text))

/-- An answer of the node with a transaction. What is not there counts as empty, save for the keys
and the instructions. -/
structure IsTransaction (v : Value) (t : Transaction) : Prop where
  details : ∃ details, v.get "meta" = .ok details ∧ AreDetails (details.orElse (.object [])) t
  message : ∃ inner message, v.item "transaction" = .ok inner ∧ inner.item "message" = .ok message ∧
    IsMessage message t
  slot : v.item "slot" = .ok (.int t.slot)
  time : v.get "blockTime" = .ok (stampValue t.time)

def transactionParams (signature : String) : List Value :=
  [.text signature, .object [("encoding", .text "json"), Client.commitment,
    ("maxSupportedTransactionVersion", .int 0)]]

def transactionAsked (signature : String) (answer : Value) : Incident :=
  .asked "getTransaction" (transactionParams signature) (.ok answer)

/-! ### Instructions that carry a record -/

namespace Instruction

/-- The data of an instruction begin with the discriminator for an event. -/
def Marks (ix : Instruction) (e : EventName) : Prop :=
  ∃ bs, Base58.read ix.data = .ok bs ∧ bs.take 8 = instructionMark e

/-- An instruction of the program for an event. -/
def Names (c : Client) (keys : List String) (ix : Instruction) (e : EventName) : Prop :=
  keys[ix.program]? = some c.program ∧ ix.Marks e

/-- The key of the account of the record. -/
def recordKey? (keys : List String) (ix : Instruction) (e : EventName) : Option String := do
  keys[← ix.accounts[← recordPlace? e]?]?

end Instruction

theorem instructionHeads : (Vocabulary.members : List EventName).map
    (fun e => (instructionMark e).take 1) =
      [[150], [133], [102], [203], [157], [252], [61], [190], [168], [38], [54], [75], [88], [135],
        [28], [56], [240]] := by
  decide +kernel

theorem instructionMark_inj (e e' : EventName) (h : instructionMark e = instructionMark e') :
    e = e' := by
  have hdistinct : ((Vocabulary.members : List EventName).map
      fun e => (instructionMark e).take 1).Nodup := by
    rw [instructionHeads]
    decide
  refine List.inj_on_of_nodup_map hdistinct (LawfulVocabulary.mem_members e)
    (LawfulVocabulary.mem_members e') ?_
  rw [h]

theorem eventOfMark?_iff {mark : Bytes} {e : EventName} :
    eventOfMark? mark = some e ↔ mark = instructionMark e :=
  Vocabulary.find?_table_iff instructionMark_inj

theorem Instruction.Marks.unique {ix : Instruction} {e e' : EventName} (h : ix.Marks e)
    (h' : ix.Marks e') : e = e' := by
  obtain ⟨bs, hbs, hmark⟩ := h
  obtain ⟨bs', hbs', hmark'⟩ := h'
  obtain rfl : bs = bs' := Except.ok.inj (hbs.symm.trans hbs')
  exact instructionMark_inj e e' (hmark.symm.trans hmark')

/-! ### Accounts -/

def accountParams (key : String) : List Value :=
  [.text key, .object [("encoding", .text "base64"), Client.commitment]]

def accountAsked (key : String) (answer : Value) : Incident :=
  .asked "getAccountInfo" (accountParams key) (.ok answer)

/-- An answer about an account: that there is none, or its owner and its data. -/
def IsAccountAnswer (answer : Value) : Prop :=
  ∃ account, (answer.orElse (.object [])).get "value" = .ok account ∧
    (account = .null ∨ ∃ fields s rest, account = .object fields ∧
      account.item "data" = .ok (.list (.text s :: rest)))

/-- An answer about an account of the program with some data. -/
def HasData (c : Client) (answer : Value) (bs : Bytes) : Prop :=
  ∃ account s rest, (answer.orElse (.object [])).get "value" = .ok account ∧
    account.get "owner" = .ok (.text c.program) ∧
    account.item "data" = .ok (.list (.text s :: rest)) ∧ Base64.read s = .ok bs

/-- An answer about an account of the program that holds a record of a family. -/
def Holds (c : Client) (f : Family) (answer : Value) (r : Data) : Prop :=
  ∃ bs, HasData c answer bs ∧ recordOfAccount f bs = .ok r

/-- A node that answers all requests for accounts. -/
def AnswersAccounts (sc : Scenario) : Prop :=
  ∀ time key, ∃ answer,
    sc.node time "getAccountInfo" (accountParams key) = .ok answer ∧ IsAccountAnswer answer

/-- An instruction whose data and accounts can be made out. -/
structure Instruction.Readable (keys : List String) (ix : Instruction) : Prop where
  data : ∃ bs, Base58.read ix.data = .ok bs ∧ 8 ≤ bs.length
  accounts : ∀ e, ix.Marks e → ∀ n ∈ ix.accounts, n < keys.length

/-- An instruction that can be decoded at any time: it refers to keys that are there, its data are
those of an instruction, and the account of its record holds a record whenever it is asked for. -/
structure Instruction.InOrder (c : Client) (sc : Scenario) (keys : List String)
    (ix : Instruction) : Prop where
  program : ix.program < keys.length
  readable : keys[ix.program]? = some c.program → ix.Readable keys
  record : ∀ e f, ix.Names c keys e → e.family? = some f → ∃ key, ix.recordKey? keys e = some key ∧
    ∀ time answer, sc.node time "getAccountInfo" (accountParams key) = .ok answer →
      ∃ r, Holds c f answer r

/-- The failures of an instruction that is not in order. -/
def Undecoded (e : Failure) : Prop :=
  e.kind = .decode ∨ Client.isUndecoded e.kind = true

theorem Undecoded.reworded {e : Failure} (h : Undecoded e) {wrap : Failure → Failure}
    (hwrap : ∀ e, (wrap e).kind = .decode) :
    (if Client.isUndecoded e.kind then wrap e else e).kind = .decode := by
  split
  · exact hwrap e
  · rename_i hcaught
    exact h.resolve_right hcaught

theorem Unreadable.undecoded {e : Failure} (h : Unreadable e) : Undecoded e := by
  rcases h.2 with h | h
  · exact Or.inl h
  · refine Or.inr ?_
    simp [Client.isUndecoded, h]

/-! ### Payloads -/

/-- A payload of a transaction, with the request that its record came from. -/
structure IsPayload (c : Client) (t : Transaction) (signature : String) (ix : Instruction)
    (p : Payload) (i : Incident) : Prop where
  network : p.network = c.network.word
  tx : p.event.txHash = signature
  block : p.event.block = t.slot
  stamp : p.event.timestamp = t.time
  names : ix.Names c t.keys p.event.name
  record : ∃ f key answer, p.event.name.family? = some f ∧
    ix.recordKey? t.keys p.event.name = some key ∧
    i = accountAsked key answer ∧ Holds c f answer p.data

/-- What an instruction at a position can do. -/
inductive Outcome (c : Client) (sc : Scenario) (t : Transaction) (signature : String)
    (position : Nat) (ix : Instruction) (w : World) :
    Except Failure (Option Payload) → World → Prop
  | unmapped (h : ∀ e, ix.Names c t.keys e → e.family? = none) :
    Outcome c sc t signature position ix w (.ok none) w
  | mapped (p : Payload) (i : Incident) (hp : IsPayload c t signature ix p i)
    (hposition : p.event.txIndex = position) :
    Outcome c sc t signature position ix w (.ok (some p)) (w.after [i])
  | undecoded (e : Failure) (w' : World) (he : Undecoded e) (hix : ¬ix.InOrder c sc t.keys) :
    Outcome c sc t signature position ix w (.error e) w'

/-- The payloads of numbered instructions, with the requests that their records came from: one for
each instruction that is mapped, in the order of the instructions. -/
structure Extracts (c : Client) (t : Transaction) (signature : String)
    (numbered : List (Instruction × Nat)) (payloads : List Payload) (es : List Incident) :
    Prop where
  each : List.Forall₂ (fun p i => ∃ ix, (ix, p.event.txIndex) ∈ numbered ∧
    IsPayload c t signature ix p i) payloads es
  ordered : payloads.Pairwise fun p q => p.event.txIndex < q.event.txIndex
  all : ∀ ix position e, (ix, position) ∈ numbered → ix.Names c t.keys e →
    e.family?.isSome = true → ∃ p ∈ payloads, p.event.txIndex = position ∧ p.event.name = e

theorem exists_of_forall₂ {α β : Type} {R : α → β → Prop} {xs : List α} {ys : List β}
    (h : List.Forall₂ R xs ys) {x : α} (hx : x ∈ xs) : ∃ y, R x y := by
  induction h with
  | nil => cases hx
  | @cons _ y _ _ hxy _ ih =>
    rcases List.mem_cons.mp hx with rfl | hx
    · exact ⟨y, hxy⟩
    · exact ih hx

namespace Extracts

variable {c : Client} {t : Transaction} {signature : String} {numbered : List (Instruction × Nat)}
  {payloads : List Payload} {es : List Incident} {ix : Instruction} {position : Nat}

theorem skip (h : Extracts c t signature numbered payloads es)
    (hunmapped : ∀ e, ix.Names c t.keys e → e.family? = none) :
    Extracts c t signature ((ix, position) :: numbered) payloads es := by
  refine ⟨h.each.imp ?_, h.ordered, ?_⟩
  · rintro p i ⟨ix', hmem, hp⟩
    exact ⟨ix', List.mem_cons_of_mem _ hmem, hp⟩
  · intro ix' position' e hmem hnames hfamily
    rcases List.mem_cons.mp hmem with heq | hmem
    · obtain ⟨rfl, rfl⟩ := Prod.mk.inj heq
      rw [hunmapped e hnames] at hfamily
      cases hfamily
    · exact h.all ix' position' e hmem hnames hfamily

theorem cons {p : Payload} {i : Incident} (h : Extracts c t signature numbered payloads es)
    (hp : IsPayload c t signature ix p i) (hposition : p.event.txIndex = position)
    (hlater : ∀ x ∈ numbered, position < x.2) :
    Extracts c t signature ((ix, position) :: numbered) (p :: payloads) (i :: es) := by
  subst hposition
  refine ⟨.cons ⟨ix, List.mem_cons_self, hp⟩ (h.each.imp ?_), .cons ?_ h.ordered, ?_⟩
  · rintro q j ⟨ix', hmem, hq⟩
    exact ⟨ix', List.mem_cons_of_mem _ hmem, hq⟩
  · intro q hq
    obtain ⟨j, ix', hmem, -⟩ := exists_of_forall₂ h.each hq
    exact hlater _ hmem
  · intro ix' position' e hmem hnames hfamily
    rcases List.mem_cons.mp hmem with heq | hmem
    · obtain ⟨rfl, rfl⟩ := Prod.mk.inj heq
      exact ⟨p, List.mem_cons_self, rfl, hp.names.2.unique hnames.2⟩
    · obtain ⟨q, hq, hq'⟩ := h.all ix' position' e hmem hnames hfamily
      exact ⟨q, List.mem_cons_of_mem _ hq, hq'⟩

end Extracts

end ChainIndexer.Solana
