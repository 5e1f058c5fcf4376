import ChainIndexer.Proofs.Guards
import ChainIndexer.Proofs.Settings.Load
import ChainIndexer.Proofs.Settings.Usable
import ChainIndexer.Setup

/-!
What a set-up holds that was loaded from a file and an environment: no placeholder, and no number
that cannot be used (`load_cleared`). The settings are read once from what is in force and their parts
are handed on to the client, the node and the sink, where the size of a page is read a second time,
which leaves it as it is.
-/

namespace ChainIndexer

open Act

/-- The size of a page of a client whose ledger has an adapter. -/
def Client.pageSize? : Client → Option Int
  | .evm c => some c.pageSize
  | .solana c => some c.pageSize
  | .unsupported _ => none

theorem Client.pageSize?_of_ofOptions {o : Options} {client : Client}
    (h : Client.ofOptions o = .ok client) (hledger : client.network.ledger ≠ .unsupported) :
    client.pageSize? = some o.pageSize := by
  unfold Client.ofOptions at h
  split at h
  · obtain ⟨c, hc, rfl⟩ := map_ok h
    obtain ⟨contract, -, hmade⟩ := bind_ok hc
    cases hmade
    rfl
  · obtain ⟨c, hc, rfl⟩ := map_ok h
    obtain ⟨program, -, hmade⟩ := bind_ok hc
    cases hmade
    rfl
  · rename_i hnone
    obtain rfl := Except.ok.inj h
    exact absurd hnone hledger

namespace Settings

theorem optional_ofText? (s? : Option String) :
    Schema.optional Schema.text (.ofText? s?) = .ok s? := by
  cases s? <;> rfl

/-- The options of the client are parts of the settings. -/
theorem clientOptions_ok {s : Settings} {o : Options} (h : s.clientOptions = .ok o) :
    o.rpcUrl = s.node.url ∧ o.apiToken = s.node.apiToken ∧
      o.pageSize = pageSize (.int s.loop.pageSize) := by
  obtain ⟨hurl, htoken, hsize⟩ := Options.make_ok h
  have htext := Schema.required_ok (v := .text s.node.url) rfl hurl
  have hread : Schema.optional Schema.text (.ofText? s.node.apiToken) = .ok o.apiToken :=
    Schema.withDefault_finds htoken
  rw [optional_ofText?] at hread
  exact ⟨(Except.ok.inj htext).symm, (Except.ok.inj hread).symm,
    (Except.ok.inj (Schema.withDefault_finds hsize)).symm⟩

/-- The size of a page for a value that is in force: the positive number that it denotes, be it a
numeral as it stands or one with further blanks around it, and five hundred if it denotes none. -/
structure Sizes (v? : Option Value) (size : Int) : Prop where
  positive : 1 ≤ size
  denoted : ∀ v n, v? = some v → Denotes v n → size = n
  numeral : ∀ s n, v? = some (.text s) → 0 < n → Numeral.read? 10 s = some n → size = n
  otherwise : (∀ v n, v? = some v → ¬Denotes v n) → size = 500

theorem sizes_of_finds {v? : Option Value} {size : Int}
    (h : Schema.Finds pageSizeField defaultPageSize v? size) : Sizes v? (pageSize (.int size)) := by
  cases v? with
  | none =>
    obtain rfl := h
    rw [pageSize_of_denotes denotes_defaultPageSize]
    exact ⟨by decide, nofun, nofun, fun _ => rfl⟩
  | some v =>
    obtain rfl := Except.ok.inj h
    have hself := denotes_pageSize v
    rw [pageSize_of_denotes hself]
    refine ⟨hself.writable.1, fun v' n hv hn => ?_, fun s n hv hpos hread => ?_, fun hnone => ?_⟩
    · obtain rfl := Option.some.inj hv
      exact pageSize_of_denotes hn
    · obtain rfl := Option.some.inj hv
      exact pageSize_of_denotes (.numeral hpos (Text.read?_strip hread))
    · exact pageSize_of_not_denotes fun n => hnone v n rfl

end Settings

namespace Setup

open Settings

/-- A set-up that holds what is in force for a document and an environment, as far as it can be put
to use. -/
structure Cleared (env : Environment) (d : Yaml.Document) (x : Setup) : Prop where
  url : IsNodeUrl x.transport.url
  headers : x.transport.headers = [] ∨
    ∃ token, Usable token ∧ x.transport.headers = [authorization token]
  delivers : (∃ hook, x.sink = .webhook hook) ↔
    ∃ v url, deliveryUrl? env d = some v ∧ Schema.text v = .ok url ∧ Usable url
  deliversTo : ∀ hook, x.sink = .webhook hook →
    ∃ v, deliveryUrl? env d = some v ∧ Schema.text v = .ok hook.url ∧ Usable hook.url
  deliveryToken : ∀ hook token, x.sink = .webhook hook → hook.token = some token → Usable token
  pageSize : ∃ size, x.client.pageSize? = some size ∧ Sizes (pageSize? env d) size

theorem headers_of_token {o : Options} (h : ∀ token, o.apiToken = some token → Usable token) :
    (Transport.ofOptions o).headers = [] ∨
      ∃ token, Usable token ∧ (Transport.ofOptions o).headers = [authorization token] := by
  unfold Transport.ofOptions
  dsimp only
  split
  · rename_i token htoken
    split
    · exact Or.inl rfl
    · exact Or.inr ⟨token, h token htoken, rfl⟩
  · exact Or.inl rfl

theorem sink_webhook_iff {s : Settings} {hook : Webhook} :
    s.sink = .webhook hook ↔ ∃ url, s.delivery.url = some url ∧
      hook = { url, token := s.delivery.token, timeout := .real s.delivery.timeout } := by
  unfold Settings.sink
  cases s.delivery.url with
  | none => simp
  | some url => simp [eq_comm]

/-- There is a webhook just for a usable address. -/
theorem exists_webhook_iff {s : Settings} {v? : Option Value}
    (h : Schema.Finds usableText none v? s.delivery.url) :
    (∃ hook, s.sink = .webhook hook) ↔
      ∃ v url, v? = some v ∧ Schema.text v = .ok url ∧ Usable url := by
  constructor
  · rintro ⟨hook, hhook⟩
    obtain ⟨url, hurl, -⟩ := sink_webhook_iff.mp hhook
    obtain ⟨v, hv, htext, husable⟩ := usable_of_finds h hurl
    exact ⟨v, url, hv, htext, husable⟩
  · rintro ⟨v, url, rfl, htext, husable⟩
    have hurl := (usableText_ok h url).mpr ⟨htext, husable⟩
    exact ⟨_, sink_webhook_iff.mpr ⟨url, hurl, rfl⟩⟩

/-- The client, the node and the sink of a set-up are those of some settings. -/
def MadeFrom (x : Setup) (s : Settings) : Prop :=
  ∃ o, s.clientOptions = .ok o ∧ Client.ofOptions o = .ok x.client ∧
    x.transport = .ofOptions o ∧ x.sink = s.sink

theorem MadeFrom.cleared {env : Environment} {d : Yaml.Document} {w : Value} {s : Settings}
    {x : Setup} (h : x.MadeFrom s) (hreads : Reads w s)
    (hurl : w.nested? "push" "url" = deliveryUrl? env d)
    (hsize : w.nested? "indexer" "page_size" = pageSize? env d)
    (hledger : x.client.network.ledger ≠ .unsupported) : x.Cleared env d := by
  obtain ⟨o, hoptions, hclient, htransport, hsink⟩ := h
  obtain ⟨hnode, htoken, hpage⟩ := clientOptions_ok hoptions
  have hdelivery := hreads.deliveryUrl
  rw [hurl] at hdelivery
  refine ⟨?_, ?_, ?_, fun hook hhook => ?_, fun hook token hhook ht => ?_, ?_⟩
  · rw [htransport]
    change IsNodeUrl o.rpcUrl
    rw [hnode]
    exact hreads.nodeUrl
  · rw [htransport]
    refine headers_of_token fun token ht => hreads.apiToken token ?_
    rw [← htoken, ht]
  · rw [hsink]
    exact exists_webhook_iff hdelivery
  · obtain ⟨url, hkept, rfl⟩ := sink_webhook_iff.mp (hsink ▸ hhook)
    exact usable_of_finds hdelivery hkept
  · obtain ⟨url, -, rfl⟩ := sink_webhook_iff.mp (hsink ▸ hhook)
    exact hreads.deliveryToken token ht
  · refine ⟨o.pageSize, Client.pageSize?_of_ofOptions hclient hledger, ?_⟩
    rw [hpage, ← hsize]
    exact sizes_of_finds hreads.pageSize

section Loading

variable {n : Type → Type} [Monad n] {σ : Type} [Threaded n σ]

theorem ofSettings_returns (disk : Disk n) (s : Settings) :
    Returns (fun x : Setup => x.MadeFrom s) (ofSettings disk s) := by
  unfold ofSettings
  refine Returns.bind (.lift fun o ho => ho) fun o ho => ?_
  refine Returns.bind (.lift fun client hclient => hclient) fun client hclient => ?_
  refine Returns.after fun _ => Returns.after fun interval => ?_
  exact Returns.pure ⟨o, ho, hclient, rfl, rfl⟩

/-- A set-up for a ledger with an adapter that was loaded holds nothing that cannot be put to
use. -/
theorem load_cleared {disk : Disk n} {env : Environment} {path : String} {s s' : σ} {x : Setup}
    (h : exec (load (documents disk) env disk path) s = (.ok x, s'))
    (hledger : x.client.network.ledger ≠ .unsupported) :
    ∃ bs s₁ text d, exec (disk.read path) s = (.ok bs, s₁) ∧ Text.decode? bs = some text ∧
      Yaml.Document.read text = .ok d ∧ x.Cleared env d := by
  obtain ⟨st, s₁, hload, hmade⟩ := exec_bind_ok h
  obtain ⟨bs, hread, hloaded⟩ := load_ok hload
  obtain ⟨text, d, w, htext, hd, hurl, hsize, hvalue⟩ := loaded_ok hloaded
  have hfrom : x.MadeFrom st := ofSettings_returns disk st _ _ _ hmade
  exact ⟨bs, s₁, text, d, hread, htext, hd, hfrom.cleared (ofValue_reads hvalue) hurl hsize hledger⟩

end Loading

/-! A run with an environment that sets the address for deliveries and the size of a page; before the
digit of the latter stands a separator, which is a blank of texts but none of numerals. -/

def separatorFile : String :=
  "contract_address: '0x2947f98c42597966a0ec25e92843c09ac18fbab7'\nrpc:\n  url: https://node\n" ++
    "  api_token: key\n"

def separatorDisk : Disk (StateM Unit) :=
  oneFile (Text.encode separatorFile)

def separatorEnvironment : Environment := fun name =>
  if name = "INDEXER_PAGE_SIZE" then some "\x1c8"
  else if name = "PUSH_URL" then some "https://hook"
  else none

theorem separator_loads : ∃ x,
    exec (load (documents separatorDisk) separatorEnvironment separatorDisk "config.yaml") () =
      (.ok x, ()) ∧
    x.client = .evm ⟨.ethereum, "0x2947f98c42597966a0ec25e92843c09ac18fbab7", 8⟩ := by
  have hclient : (exec (load (documents separatorDisk) separatorEnvironment separatorDisk
      "config.yaml") ()).1.toOption.map (·.client) =
        some (.evm ⟨.ethereum, "0x2947f98c42597966a0ec25e92843c09ac18fbab7", 8⟩) := by
    decide +kernel
  obtain ⟨x, hx, hmade⟩ := Option.map_eq_some_iff.mp hclient
  exact ⟨x, Prod.ext (ok_of_toOption hx) (Subsingleton.elim _ _), hmade⟩

theorem separator_cleared : ∃ x d,
    exec (load (documents separatorDisk) separatorEnvironment separatorDisk "config.yaml") () =
      (.ok x, ()) ∧
    x.client.network.ledger ≠ .unsupported ∧ Yaml.Document.read separatorFile = .ok d ∧
    x.Cleared separatorEnvironment d := by
  obtain ⟨x, hx, hclient⟩ := separator_loads
  have hledger : x.client.network.ledger ≠ .unsupported := by
    rw [hclient]
    decide
  obtain ⟨bs, s₁, text, d, hbytes, htext, hread, hcleared⟩ := load_cleared hx hledger
  obtain ⟨hbytes, -⟩ := Prod.mk.inj hbytes
  obtain rfl : Text.encode separatorFile = bs := Except.ok.inj hbytes
  rw [Text.decode?_encode] at htext
  obtain rfl := Option.some.inj htext
  exact ⟨x, d, hx, hledger, hread, hcleared⟩

/-- The size of a page is the digit behind the separator, although both together are no numeral. -/
theorem separator_passed_over :
    Numeral.read? 10 "\x1c8" = none ∧
    (∀ d, pageSize? separatorEnvironment d = some (.text "\x1c8")) ∧
    ∃ x, exec (load (documents separatorDisk) separatorEnvironment separatorDisk "config.yaml") () =
        (.ok x, ()) ∧
      x.client.network.ledger ≠ .unsupported ∧ x.client.pageSize? = some 8 := by
  refine ⟨by decide, fun d => rfl, ?_⟩
  obtain ⟨x, hx, hclient⟩ := separator_loads
  refine ⟨x, hx, ?_, ?_⟩
  · rw [hclient]
    decide
  · rw [hclient]
    rfl

end Setup

end ChainIndexer
