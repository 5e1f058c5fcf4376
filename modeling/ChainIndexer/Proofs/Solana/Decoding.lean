import ChainIndexer.Proofs.Solana.Transaction

/-!
Decoding a transaction is complete, ordered and fails closed. What an instruction can do is said
once (`payloadOf?_outcome`): nothing, if it is not mapped; one request for the account of its record
and one payload, if it is mapped and the account holds the record; and else a failure to decode, but
only if the instruction is not in order. The payloads of the whole transaction follow by induction
over its instructions.
-/

namespace ChainIndexer.Solana

open Act Push

namespace Client

variable {sc : Scenario} {c : Client} {w w' : World}

theorem elementOf_nat {α : Type} (items : List α) (n : Nat) :
    Value.elementOf items (.int n) = match items[n]? with
      | some x => .ok x
      | none => .error .badIndex := by
  have hnonneg : ¬(n : Int) < 0 := by omega
  cases hitem : items[n]? with
  | some x => simp [Value.elementOf, Value.elementAt, hnonneg, hitem]
  | none => simp [Value.elementOf, Value.elementAt, hnonneg, hitem]

/-- The keys at some places, if there is a key at each. -/
theorem mapM_elementOf (keys : List String) (places : List Nat) :
    (places.map fun (n : Nat) => Value.int n).mapM (Value.elementOf (keys.map Value.text)) =
      if ∀ n ∈ places, n < keys.length then .ok (places.map fun n => .text (keys.getD n ""))
      else .error .badIndex := by
  induction places with
  | nil => rfl
  | cons n rest ih =>
    rw [List.map_cons, List.mapM_cons, elementOf_nat, ih, List.getElem?_map]
    simp only [List.forall_mem_cons]
    by_cases hn : n < keys.length
    · have hkey : keys[n]? = some (keys.getD n "") := by
        rw [List.getD_eq_getElem?_getD, List.getElem?_eq_getElem hn, Option.getD_some]
      rw [hkey, List.map_cons]
      by_cases hrest : ∀ m ∈ rest, m < keys.length
      · rw [if_pos hrest, if_pos ⟨hn, hrest⟩]
        rfl
      · rw [if_neg hrest, if_neg fun h => hrest h.2]
        rfl
    · rw [List.getElem?_eq_none (Nat.not_lt.mp hn)]
      exact (if_neg fun h => hn h.1).symm

theorem isOwn_eq {v : Value} {ix : Instruction} (hv : IsInstruction v ix) (keys : List String) :
    c.isOwn v (keys.map .text) = match keys[ix.program]? with
      | some key => .ok (key == c.program)
      | none => .error .badIndex := by
  rw [isOwn, hv.program]
  change (do
    let program ← Value.elementOf (keys.map Value.text) (.int ix.program)
    return program.isText c.program) = _
  rw [elementOf_nat, List.getElem?_map]
  cases keys[ix.program]? with
  | some key => rfl
  | none => rfl

theorem instructionBytes_eq {v : Value} {ix : Instruction} (hv : IsInstruction v ix) :
    instructionBytes v = Base58.read ix.data := by
  obtain ⟨data, hget, hdata⟩ := hv.data
  rw [instructionBytes, bind_of_ok hget, hdata]

theorem isBadValue_of_read {s : String} {f : Fault} (h : Base58.read s = .error f) :
    f.isBadValue = true := by
  unfold Base58.read at h
  dsimp only at h
  split at h
  · cases h
    rfl
  · split at h
    · cases h
      rfl
    · cases h

theorem eventOf?_of_read {v : Value} {ix : Instruction} (hv : IsInstruction v ix)
    (keys : List String) {bs : Bytes} (hread : Base58.read ix.data = .ok bs)
    (hlong : ¬bs.length < 8) :
    eventOf? v (keys.map .text) = match eventOfMark? (bs.take 8) with
      | none => .ok none
      | some e =>
        if ∀ n ∈ ix.accounts, n < keys.length then
          .ok (some (e, ix.accounts.map fun n => .text (keys.getD n "")))
        else .error (.fault .badIndex) := by
  unfold eventOf?
  rw [instructionBytes_eq hv, hread, hv.accounts]
  refine (if_neg hlong).trans ?_
  cases eventOfMark? (bs.take 8) with
  | none => rfl
  | some e =>
    change (do
      let accounts ← (liftM ((ix.accounts.map fun (n : Nat) => Value.int n).mapM
        (Value.elementOf (keys.map Value.text))) : Except Failure (List Value))
      return some (e, accounts)) = _
    rw [mapM_elementOf]
    dsimp only
    split
    · rfl
    · rfl

theorem getElem?_recordPlace {keys : List String} {ix : Instruction}
    (hrange : ∀ n ∈ ix.accounts, n < keys.length) (e : EventName) {accounts : List Value}
    (haccounts : accounts = ix.accounts.map fun n => .text (keys.getD n "")) :
    accounts[(recordPlace? e).getD accounts.length]? = (ix.recordKey? keys e).map .text := by
  subst haccounts
  unfold Instruction.recordKey?
  cases recordPlace? e with
  | none => simp
  | some place =>
    cases hplace : ix.accounts[place]? with
    | none => simp [hplace]
    | some n =>
      have hn := hrange n (List.mem_of_getElem? hplace)
      simp [hplace, hn]

/-- What the data of an instruction of the program amount to. -/
theorem eventOf?_cases {v : Value} {ix : Instruction} (hv : IsInstruction v ix)
    (keys : List String) :
    (∃ e, eventOf? v (keys.map .text) = .error e ∧ Undecoded e ∧ ¬ix.Readable keys) ∨
    (eventOf? v (keys.map .text) = .ok none ∧ ∀ e, ¬ix.Marks e) ∨
    ∃ e accounts, eventOf? v (keys.map .text) = .ok (some (e, accounts)) ∧ ix.Marks e ∧
      accounts[(recordPlace? e).getD accounts.length]? = (ix.recordKey? keys e).map .text := by
  cases hread : Base58.read ix.data with
  | error f =>
    refine Or.inl ⟨.fault f, ?_, Or.inr ?_, fun h => ?_⟩
    · unfold eventOf?
      rw [instructionBytes_eq hv, hread]
      rfl
    · simp [isUndecoded, Failure.kind, Kind.isBadValue, isBadValue_of_read hread]
    · obtain ⟨bs, hbs, -⟩ := h.data
      cases hread.symm.trans hbs
  | ok bs =>
    by_cases hshort : bs.length < 8
    · refine Or.inl ⟨.instructionShort bs.length, ?_, Or.inl rfl, fun h => ?_⟩
      · unfold eventOf?
        rw [instructionBytes_eq hv, hread]
        exact if_pos hshort
      · obtain ⟨bs', hbs', hlong⟩ := h.data
        obtain rfl : bs = bs' := Except.ok.inj (hread.symm.trans hbs')
        omega
    · rw [eventOf?_of_read hv keys hread hshort]
      cases hmark : eventOfMark? (bs.take 8) with
      | none =>
        refine Or.inr (Or.inl ⟨rfl, fun e hmarks => ?_⟩)
        obtain ⟨bs', hbs', hhead⟩ := hmarks
        obtain rfl : bs = bs' := Except.ok.inj (hread.symm.trans hbs')
        cases hmark.symm.trans (eventOfMark?_iff.mpr hhead)
      | some e =>
        have hmarks : ix.Marks e := ⟨bs, hread, eventOfMark?_iff.mp hmark⟩
        by_cases hrange : ∀ n ∈ ix.accounts, n < keys.length
        · refine Or.inr (Or.inr ⟨e, _, if_pos hrange, hmarks, ?_⟩)
          exact getElem?_recordPlace hrange e rfl
        · exact Or.inl ⟨_, if_neg hrange, Or.inr rfl, fun h => hrange (h.accounts e hmarks)⟩

/-! ### Records -/

theorem accountBytes_eq {account : Value} {s : String} {rest : List Value}
    (hdata : account.item "data" = .ok (.list (.text s :: rest))) :
    accountBytes account = Base64.read s := by
  rw [accountBytes, hdata]
  rfl

theorem hasData_iff {answer account : Value} {bs : Bytes}
    (hvalue : (answer.orElse (.object [])).get "value" = .ok account) :
    HasData c answer bs ↔ ∃ s rest, account.get "owner" = .ok (.text c.program) ∧
      account.item "data" = .ok (.list (.text s :: rest)) ∧ Base64.read s = .ok bs := by
  constructor
  · rintro ⟨account', s, rest, hvalue', h⟩
    obtain rfl : account = account' := Except.ok.inj (hvalue.symm.trans hvalue')
    exact ⟨s, rest, h⟩
  · rintro ⟨s, rest, h⟩
    exact ⟨account, s, rest, hvalue, h⟩

theorem isText_iff {v : Value} {s : String} : v.isText s = true ↔ v = .text s := by
  cases v with
  | text s' => simp [Value.isText]
  | _ => simp [Value.isText]

/-- What becomes of an answer about an account that is there. -/
theorem exec_fetchAccount_of_owner {key : String} {answer account owner : Value}
    (hnode : sc.node w.clock "getAccountInfo" (accountParams key) = .ok answer)
    (hvalue : (answer.orElse (.object [])).get "value" = .ok account)
    (hnull : account.isNull = false) (howner : account.get "owner" = .ok owner) :
    Act.exec (c.fetchAccount sc.rpc (.text key)) w =
      (if owner.isText c.program then
          (accountBytes account).mapError fun _ => .accountNoData (.text key)
        else .error (.accountForeign (.text key) c.program),
        w.after [accountAsked key answer]) := by
  refine (exec_bind_of_ok (Scenario.exec_rpc hnode) _).trans ?_
  refine (exec_liftFault_bind hvalue _ _).trans ?_
  rw [hnull]
  refine (exec_liftFault_bind howner _ _).trans ?_
  cases owner.isText c.program with
  | false => rfl
  | true =>
    cases accountBytes account with
    | ok bs => rfl
    | error e => rfl

/-- An account is asked for, and its data are found if it is one of the program. -/
theorem exec_fetchAccount {key : String} {answer : Value}
    (hnode : sc.node w.clock "getAccountInfo" (accountParams key) = .ok answer)
    (hanswer : IsAccountAnswer answer) :
    ∃ found, Act.exec (c.fetchAccount sc.rpc (.text key)) w =
        (found, w.after [accountAsked key answer]) ∧
      (∀ bs, found = .ok bs ↔ HasData c answer bs) ∧
      ∀ e, found = .error e → e.kind = .decode := by
  obtain ⟨account, hvalue, hshape⟩ := hanswer
  simp only [hasData_iff hvalue]
  rcases hshape with rfl | ⟨fields, s, rest, rfl, hdata⟩
  · refine ⟨.error (.accountMissing (.text key)), ?_, fun bs => ⟨nofun, ?_⟩, ?_⟩
    · refine (exec_bind_of_ok (Scenario.exec_rpc hnode) _).trans ?_
      exact exec_liftFault_bind hvalue _ _
    · rintro ⟨_, _, howner, -⟩
      cases howner
    · rintro e ⟨⟩
      rfl
  · refine ⟨_, exec_fetchAccount_of_owner hnode hvalue rfl rfl, fun bs => ?_, fun e h => ?_⟩
    · rw [accountBytes_eq hdata]
      constructor
      · intro h
        split at h
        · rename_i hown
          have howner := congrArg (Except.ok : Value → Except Fault Value) (isText_iff.mp hown)
          exact ⟨s, rest, howner, hdata, mapError_ok_iff.mp h⟩
        · cases h
      · rintro ⟨s', rest', howner, hdata', hbytes⟩
        cases hdata.symm.trans hdata'
        rw [if_pos (isText_iff.mpr (Except.ok.inj howner))]
        exact mapError_ok_iff.mpr hbytes
    · split at h
      · obtain ⟨_, -, rfl⟩ := mapError_error h
        rfl
      · cases h
        rfl

/-- The record of an event is what the account at its place holds, and else the instruction is not
in order. -/
theorem exec_recordOf {keys : List String} {ix : Instruction} {e : EventName} {f : Family}
    {accounts : List Value} (answers : AnswersAccounts sc) (hfamily : e.family? = some f)
    (hnames : ix.Names c keys e)
    (hplace : accounts[(recordPlace? e).getD accounts.length]? =
      (ix.recordKey? keys e).map .text) :
    (∃ key answer r, ix.recordKey? keys e = some key ∧
      Act.exec (c.recordOf sc.rpc e f accounts) w =
        (.ok r, w.after [accountAsked key answer]) ∧
      Holds c f answer r) ∨
    ∃ e' w', Act.exec (c.recordOf sc.rpc e f accounts) w = (.error e', w') ∧ Undecoded e' ∧
      ¬ix.InOrder c sc keys := by
  unfold recordOf
  dsimp only
  rw [hplace]
  cases hkey : ix.recordKey? keys e with
  | none =>
    refine Or.inr ⟨_, _, exec_throw _ _, Or.inl rfl, fun h => ?_⟩
    obtain ⟨key, hkey', -⟩ := h.record e f hnames hfamily
    cases hkey.symm.trans hkey'
  | some key =>
    obtain ⟨answer, hnode, hanswer⟩ := answers w.clock key
    obtain ⟨found, hfetch, hfound, herror⟩ := exec_fetchAccount (c := c) hnode hanswer
    -- what both failures below contradict, that of the account and that of its data
    have hheld : ix.InOrder c sc keys →
        ∃ bs r, found = .ok bs ∧ recordOfAccount f bs = .ok r := fun h => by
      obtain ⟨_, hkey', hholds⟩ := h.record e f hnames hfamily
      cases hkey.symm.trans hkey'
      obtain ⟨r, bs, hdata, hrecord⟩ := hholds _ _ hnode
      exact ⟨bs, r, (hfound bs).mpr hdata, hrecord⟩
    cases found with
    | error e' =>
      refine Or.inr ⟨e', _, exec_bind_of_error hfetch _, Or.inl (herror e' rfl), fun h => ?_⟩
      obtain ⟨_, _, hbytes, -⟩ := hheld h
      cases hbytes
    | ok bs =>
      have hexec := (exec_bind_of_ok hfetch fun bs => liftM (recordOfAccount f bs)).trans
        (exec_lift _ _)
      cases hrecord : recordOfAccount f bs with
      | ok r =>
        rw [hrecord] at hexec
        exact Or.inl ⟨key, answer, r, rfl, hexec, bs, (hfound bs).mp rfl, hrecord⟩
      | error e' =>
        rw [hrecord] at hexec
        refine Or.inr ⟨e', _, hexec, (recordOfAccount_unreadable f bs e' hrecord).undecoded,
          fun h => ?_⟩
        obtain ⟨_, r, ⟨⟩, hrecord'⟩ := hheld h
        cases hrecord.symm.trans hrecord'

/-! ### Instructions -/

/-- An event that carries a record gets the payload of its record. -/
theorem exec_payloadOf?_of_event {t : Transaction} {signature : String} {jobSlot v : Value}
    {position : Nat} {e : EventName} {f : Family} {accounts : List Value}
    (hown : c.isOwn v (t.keys.map .text) = .ok true)
    (hevent : eventOf? v (t.keys.map .text) = .ok (some (e, accounts)))
    (hfamily : e.family? = some f) :
    Act.exec (c.payloadOf? sc.rpc ⟨.text signature, jobSlot⟩ (t.keys.map .text) (.int t.slot)
        (stampValue t.time) position v) w =
      Act.exec (do
        let data ← c.recordOf sc.rpc e f accounts
        return some ⟨c.network.word, ⟨e, signature, position, t.slot, t.time⟩, data⟩) w := by
  have hposition : 0 ≤ (Whole.number position).toInt := Int.natCast_nonneg position
  have hslot : 0 ≤ (Whole.number t.slot).toInt := Int.natCast_nonneg t.slot
  have hmake : Event.make e (.text signature) (.int position) (.int t.slot) (stampValue t.time) =
      .ok ⟨e, signature, position, t.slot, t.time⟩ :=
    make_event hposition hslot e signature t.time
  refine (exec_liftFault_bind hown _ _).trans ((exec_lift_bind hevent _ _).trans ?_)
  dsimp only
  rw [hfamily, hmake]
  rfl

/-- What an instruction does, in every case. -/
theorem payloadOf?_outcome (answers : AnswersAccounts sc) (t : Transaction) (signature : String)
    (jobSlot : Value) (position : Nat) {v : Value} {ix : Instruction} (hv : IsInstruction v ix)
    (w : World) :
    ∃ found w', Act.exec (c.payloadOf? sc.rpc ⟨.text signature, jobSlot⟩ (t.keys.map .text)
        (.int t.slot) (stampValue t.time) position v) w = (found, w') ∧
      Outcome c sc t signature position ix w found w' := by
  have hown := isOwn_eq (c := c) hv t.keys
  cases hkey : t.keys[ix.program]? with
  | none =>
    rw [hkey] at hown
    refine ⟨.error (.fault .badIndex), w, ?_, .undecoded _ _ (Or.inr rfl) fun h => ?_⟩
    · refine exec_bind_of_error ?_ _
      rw [hown]
      exact exec_liftFault _ _
    · exact Nat.not_lt.mpr (List.getElem?_eq_none_iff.mp hkey) h.program
  | some key =>
    rw [hkey] at hown
    dsimp only at hown
    by_cases hprogram : key = c.program
    case neg =>
      -- another program's: nothing else of the instruction is looked at
      rw [beq_false_of_ne hprogram] at hown
      refine ⟨.ok none, w, ?_, .unmapped fun e h => ?_⟩
      · exact (exec_liftFault_bind hown _ _).trans (exec_pure _ _)
      · exact absurd (Option.some.inj (hkey.symm.trans h.1)) hprogram
    subst hprogram
    rw [beq_self_eq_true] at hown
    rcases eventOf?_cases hv t.keys with ⟨e, hevent, he, hunreadable⟩ | ⟨hevent, hnone⟩ |
      ⟨e, accounts, hevent, hmarks, hplace⟩
    · refine ⟨.error e, w, ?_, .undecoded _ _ he fun h => hunreadable (h.readable hkey)⟩
      refine (exec_liftFault_bind hown _ _).trans (exec_bind_of_error ?_ _)
      rw [hevent]
      exact exec_lift _ _
    · refine ⟨.ok none, w, ?_, .unmapped fun e h => absurd h.2 (hnone e)⟩
      exact (exec_liftFault_bind hown _ _).trans ((exec_lift_bind hevent _ _).trans rfl)
    · have hnames : ix.Names c t.keys e := ⟨hkey, hmarks⟩
      cases hfamily : e.family? with
      | none =>
        refine ⟨.ok none, w, ?_, .unmapped fun e' h => ?_⟩
        · refine (exec_liftFault_bind hown _ _).trans ((exec_lift_bind hevent _ _).trans ?_)
          dsimp only
          rw [hfamily]
          exact exec_pure _ _
        · obtain rfl := hmarks.unique h.2
          exact hfamily
      | some f =>
        rw [exec_payloadOf?_of_event hown hevent hfamily]
        rcases exec_recordOf (w := w) answers hfamily hnames hplace with
          ⟨key, answer, r, hrecordKey, hread, hholds⟩ | ⟨e', w', hread, he', hix⟩
        · refine ⟨_, _, exec_bind_of_ok hread _, .mapped _ _ ?_ rfl⟩
          exact ⟨rfl, rfl, rfl, rfl, hnames, f, key, answer, hfamily, hrecordKey, rfl, hholds⟩
        · exact ⟨.error e', w', exec_bind_of_error hread _, .undecoded e' w' he' hix⟩

/-- The instructions of a transaction are decoded one after the other, until one is not in order. -/
theorem payloadsOf_outcome (answers : AnswersAccounts sc) (t : Transaction) (signature : String)
    (jobSlot : Value) {vs : List Value} {ixs : List Instruction}
    (hvs : List.Forall₂ IsInstruction vs ixs) (position : Nat) (w : World) :
    ∃ found w', Act.exec (c.payloadsOf sc.rpc ⟨.text signature, jobSlot⟩ (t.keys.map .text)
        (.int t.slot) (stampValue t.time) position vs) w = (found, w') ∧
      ((∃ payloads es, found = .ok payloads ∧ w.Reaches w' es ∧
          Extracts c t signature (ixs.zipIdx position) payloads es) ∨
        ∃ e, found = .error e ∧ e.kind = .decode ∧ ∃ ix ∈ ixs, ¬ix.InOrder c sc t.keys) := by
  induction hvs generalizing position w with
  | nil =>
    refine ⟨.ok [], w, exec_pure _ _, Or.inl ⟨[], [], rfl, World.Reaches.refl w, ?_⟩⟩
    exact ⟨.nil, .nil, by simp⟩
  | @cons v ix vs ixs hv _ ih =>
    obtain ⟨found, w₁, hexec, houtcome⟩ :=
      payloadOf?_outcome (c := c) answers t signature jobSlot position hv w
    have hfirst := exec_rewording (c.payloadOf? sc.rpc ⟨.text signature, jobSlot⟩
      (t.keys.map .text) (.int t.slot) (stampValue t.time) position v) isUndecoded
      (.instructionUndecoded position (.text signature)) w
    rw [hexec] at hfirst
    cases houtcome with
    | undecoded e w' he hix =>
      refine ⟨_, _, exec_bind_of_error hfirst _, Or.inr ⟨_, rfl, ?_, ix, List.mem_cons_self, hix⟩⟩
      exact he.reworded fun _ => rfl
    | unmapped hunmapped =>
      obtain ⟨found, w', hrest, hfound⟩ := ih (position + 1) w
      refine ⟨found.map (([] : List Payload) ++ ·), w', (exec_bind_of_ok hfirst _).trans ?_, ?_⟩
      · exact (exec_bind_pure _ _ _).trans (by rw [hrest]; rfl)
      · rcases hfound with ⟨payloads, es, rfl, hreach, hpayloads⟩ | ⟨e, rfl, he, ix', hmem, hix⟩
        · exact Or.inl ⟨payloads, es, rfl, hreach, hpayloads.skip hunmapped⟩
        · exact Or.inr ⟨e, rfl, he, ix', List.mem_cons_of_mem _ hmem, hix⟩
    | mapped p i hp hposition =>
      obtain ⟨found, w', hrest, hfound⟩ := ih (position + 1) (w.after [i])
      refine ⟨found.map ([p] ++ ·), w', (exec_bind_of_ok hfirst _).trans ?_, ?_⟩
      · exact (exec_bind_pure _ _ _).trans (by rw [hrest]; rfl)
      · rcases hfound with ⟨payloads, es, rfl, hreach, hpayloads⟩ | ⟨e, rfl, he, ix', hmem, hix⟩
        · refine Or.inl ⟨p :: payloads, i :: es, rfl, (w.reaches_after [i]).trans hreach, ?_⟩
          exact hpayloads.cons hp hposition fun x hx => List.le_snd_of_mem_zipIdx hx
        · exact Or.inr ⟨e, rfl, he, ix', List.mem_cons_of_mem _ hmem, hix⟩

/-! ### Transactions -/

theorem exists_object_of_item {v x : Value} {key : String} (h : v.item key = .ok x) :
    ∃ fields, v = .object fields ∧ Value.field? fields key = some x := by
  cases v with
  | object fields =>
    unfold Value.item at h
    dsimp only at h
    split at h
    · rename_i y hy
      cases h
      exact ⟨fields, rfl, hy⟩
    · cases h
  | _ => cases h

theorem messageOf_eq {v details : Value} {t : Transaction} (hdetails : AreDetails details t)
    {inner message : Value} (hinner : v.item "transaction" = .ok inner)
    (hmessage : inner.item "message" = .ok message) (h : IsMessage message t) :
    ∃ vs, messageOf v details = .ok ⟨t.keys.map .text, .list vs⟩ ∧
      List.Forall₂ IsInstruction vs t.instructions := by
  obtain ⟨loaded, hloaded, hwritable, hreadonly⟩ := hdetails.loaded
  obtain ⟨vs, hinstructions, hvs⟩ := h.instructions
  refine ⟨vs, ?_, hvs⟩
  refine (bind_of_ok hinner _).trans ((bind_of_ok hmessage _).trans ?_)
  refine (bind_of_ok hloaded _).trans ?_
  refine (bind_of_ok h.accountKeys _).trans ?_
  refine (bind_of_ok hwritable _).trans ?_
  refine (bind_of_ok hreadonly _).trans ?_
  refine (bind_of_ok hinstructions _).trans ?_
  rw [Transaction.keys, List.map_append, List.map_append]
  rfl

theorem exec_fetchTransaction {t : Transaction} {signature : String} {answer : Value}
    (isTransaction : IsTransaction answer t)
    (answered : sc.node w.clock "getTransaction" (transactionParams signature) = .ok answer) :
    Act.exec (fetchTransaction sc.rpc (.text signature)) w =
      (.ok answer, w.after [transactionAsked signature answer]) := by
  obtain ⟨fields, rfl, -⟩ := exists_object_of_item isTransaction.slot
  exact exec_bind_of_ok (Scenario.exec_rpc answered) _

theorem exec_process_of_failed {t : Transaction} {signature : String} {jobSlot answer : Value}
    (isTransaction : IsTransaction answer t)
    (answered : sc.node w.clock "getTransaction" (transactionParams signature) = .ok answer)
    (herr : t.err ≠ .null) :
    Act.exec (c.process sc.rpc (.transaction ⟨.text signature, jobSlot⟩)) w =
      (.ok none, w.after [transactionAsked signature answer]) := by
  obtain ⟨details, hmeta, hdetails⟩ := isTransaction.details
  have hnull : t.err.isNull = false := by
    cases hvalue : t.err with
    | null => exact absurd hvalue herr
    | _ => rfl
  refine (exec_bind_of_ok (exec_fetchTransaction isTransaction answered) _).trans ?_
  refine (exec_liftFault_bind hmeta _ _).trans ?_
  refine (exec_liftFault_bind hdetails.err _ _).trans ?_
  rw [hnull]
  exact exec_pure _ _

/-- A transaction that did not fail is what its instructions are. -/
theorem exec_process_of_succeeded {t : Transaction} {signature : String} {answer : Value}
    (jobSlot : Value) (isTransaction : IsTransaction answer t)
    (answered : sc.node w.clock "getTransaction" (transactionParams signature) = .ok answer)
    (herr : t.err = .null) :
    ∃ vs, List.Forall₂ IsInstruction vs t.instructions ∧
      Act.exec (c.process sc.rpc (.transaction ⟨.text signature, jobSlot⟩)) w =
        Act.exec (do
          let payloads ← c.payloadsOf sc.rpc ⟨.text signature, jobSlot⟩ (t.keys.map .text)
            (.int t.slot) (stampValue t.time) 0 vs
          return if payloads.isEmpty then none else some payloads)
          (w.after [transactionAsked signature answer]) := by
  obtain ⟨details, hmeta, hdetails⟩ := isTransaction.details
  obtain ⟨inner, message, hinner, hmessage, isMessage⟩ := isTransaction.message
  obtain ⟨vs, hmessageOf, hvs⟩ := messageOf_eq hdetails hinner hmessage isMessage
  have hsucceeded := hdetails.err
  rw [herr] at hsucceeded
  have hworded : ∀ w' : World, Act.exec (Act.rewording (liftM (messageOf answer
      (details.orElse (.object []))) : Act (StateM World) Message) isNoMessage
      fun _ => .noMessage (.text signature)) w' = (.ok ⟨t.keys.map .text, .list vs⟩, w') := by
    intro w'
    rw [exec_rewording, hmessageOf, exec_liftFault]
    rfl
  have hslot : answer.getD "slot" jobSlot = .ok (.int t.slot) := by
    obtain ⟨fields, rfl, hfield⟩ := exists_object_of_item isTransaction.slot
    rw [Value.getD, hfield, Option.getD_some]
  -- a slot of zero counts as none, for which zero is taken
  have hnatural : (Value.int t.slot).orElse (.int 0) = .int t.slot := by
    cases t.slot with
    | zero => rfl
    | succ n => rfl
  refine ⟨vs, hvs, ?_⟩
  refine (exec_bind_of_ok (exec_fetchTransaction isTransaction answered) _).trans ?_
  refine (exec_liftFault_bind hmeta _ _).trans ?_
  refine (exec_liftFault_bind hsucceeded _ _).trans ?_
  refine (exec_bind_of_ok (hworded _) _).trans ?_
  refine (exec_liftFault_bind hslot _ _).trans ?_
  refine (exec_liftFault_bind isTransaction.time _ _).trans ?_
  rw [hnatural]
  rfl

/-- A transaction that failed gives nothing, and no account is asked for. Any other one gives
exactly one payload for each of its mapped instructions, in their order and each with the record of
the account that was asked for it, or is refused as undecoded; and it is refused only if an
instruction is not in order. -/
theorem process_extracts (c : Client) (sc : Scenario) (answers : AnswersAccounts sc)
    (t : Transaction) (answer : Value) (isTransaction : IsTransaction answer t)
    (signature : String) (jobSlot : Value) (w : World)
    (answered : sc.node w.clock "getTransaction" (transactionParams signature) = .ok answer) :
    (t.err ≠ .null → Act.exec (c.process sc.rpc (.transaction ⟨.text signature, jobSlot⟩)) w =
      (.ok none, w.after [transactionAsked signature answer])) ∧
    (t.err = .null → ∃ found w',
      Act.exec (c.process sc.rpc (.transaction ⟨.text signature, jobSlot⟩)) w = (found, w') ∧
      ((∃ payloads es, found = .ok (if payloads.isEmpty then none else some payloads) ∧
          w.Reaches w' (transactionAsked signature answer :: es) ∧
          Extracts c t signature t.instructions.zipIdx payloads es) ∨
        ∃ e, found = .error e ∧ e.kind = .decode ∧
          ∃ ix ∈ t.instructions, ¬ix.InOrder c sc t.keys)) := by
  refine ⟨exec_process_of_failed isTransaction answered, fun herr => ?_⟩
  obtain ⟨vs, hvs, hexec⟩ :=
    exec_process_of_succeeded (c := c) jobSlot isTransaction answered herr
  obtain ⟨found, w', hpayloads, hfound⟩ := payloadsOf_outcome (c := c) answers t signature jobSlot
    hvs 0 (w.after [transactionAsked signature answer])
  refine ⟨found.map fun ps => if ps.isEmpty then none else some ps, w', ?_, ?_⟩
  · rw [hexec, exec_bind_pure, hpayloads]
  · rcases hfound with ⟨payloads, es, rfl, hreach, hextracts⟩ | ⟨e, rfl, he, hix⟩
    · exact Or.inl ⟨payloads, es, rfl, (w.reaches_after _).trans hreach, hextracts⟩
    · exact Or.inr ⟨e, rfl, he, hix⟩

/-! A transaction with an instruction of another program and one that creates a case. -/

def foreignInstruction : Instruction :=
  ⟨1, [7], "0"⟩

def createCase : Instruction :=
  ⟨0, [0, 1, 0, 2], "7VUf4tPzuK9"⟩

def caseTransaction (err : Value) : Transaction where
  err := err
  accountKeys := ["p", "k"]
  writable := ["r"]
  readonly := []
  instructions := [foreignInstruction, createCase]
  slot := 8
  time := none

def caseAnswer (err : Value) : Value :=
  .object
    [("slot", .int 8),
      ("meta", .object
        [("err", err), ("loadedAddresses", .object [("writable", .list [.text "r"])])]),
      ("transaction", .object [("message", .object
        [("accountKeys", .list [.text "p", .text "k"]),
          ("instructions", .list
            [.object
                [("programIdIndex", .int 1), ("accounts", .list [.int 7]), ("data", .text "0")],
              .object [("programIdIndex", .int 0),
                ("accounts", .list [.int 0, .int 1, .int 0, .int 2]),
                ("data", .text "7VUf4tPzuK9")]])])])]

def caseAccount : Value :=
  .object [("value", .object
    [("owner", .text "p"),
      ("data", .list
        [.text ("GN6TGjyimrD/BQAAAAAAAAAAAAAAAAAAAAcHBwcHBwcHBwcHBwcHBwcHBwcHBwcHBwcHBwcHBwcH" ++
            "AwAAAG7DqQkAAAAAAAAAAAAAAAAAAAABAAAAAA=="),
          .text "base64"])])]

def caseNode (err : Value) : Scenario where
  node _ method _ := if method = "getTransaction" then .ok (caseAnswer err) else .ok caseAccount
  sink _ _ := .accepted
  interrupt _ := none
  breakdown _ := none

def caseClient : Client :=
  { network := .solana, program := "p", pageSize := 1 }

theorem caseAccount_holds : Holds caseClient .case caseAccount sampleCase.record := by
  refine ⟨sampleCase.bytes, ⟨_, _, _, rfl, rfl, rfl, by decide +kernel⟩, ?_⟩
  exact recordOfAccount_ok_iff.mpr ⟨sampleCase, List.prefix_rfl, rfl⟩

theorem createCase_data :
    Base58.read createCase.data = .ok [38, 206, 153, 185, 128, 192, 221, 84] := by
  decide +kernel

theorem createCase_marks : createCase.Marks .createCase :=
  ⟨_, createCase_data, by decide +kernel⟩

theorem caseNode_answers (err : Value) : AnswersAccounts (caseNode err) :=
  fun _ _ => ⟨caseAccount, rfl, _, rfl, Or.inr ⟨_, _, _, rfl, rfl⟩⟩

theorem caseAnswer_isTransaction (err : Value) :
    IsTransaction (caseAnswer err) (caseTransaction err) where
  details := ⟨_, rfl, rfl, _, rfl, rfl, rfl⟩
  message := ⟨_, _, rfl, rfl, rfl, _, rfl, .cons ⟨rfl, rfl, _, rfl, rfl⟩
    (.cons ⟨rfl, rfl, _, rfl, rfl⟩ .nil)⟩
  slot := rfl
  time := rfl

theorem caseTransaction_inOrder (err : Value) : ∀ ix ∈ (caseTransaction err).instructions,
    ix.InOrder caseClient (caseNode err) (caseTransaction err).keys := by
  have hkeys : (caseTransaction err).keys = ["p", "k", "r"] := rfl
  rw [hkeys]
  intro ix hix
  rcases List.mem_cons.mp hix with rfl | hix
  · have hforeign : ["p", "k", "r"][foreignInstruction.program]? ≠ some caseClient.program := by
      decide
    exact ⟨by decide, fun h => absurd h hforeign, fun e f h => absurd h.1 hforeign⟩
  · obtain rfl := List.mem_singleton.mp hix
    refine ⟨by decide, fun _ => ⟨⟨_, createCase_data, by decide⟩, fun e _ => by decide⟩, ?_⟩
    intro e f hnames hfamily
    obtain rfl := hnames.2.unique createCase_marks
    cases hfamily
    refine ⟨"r", rfl, fun time answer h => ?_⟩
    cases h
    exact ⟨_, caseAccount_holds⟩

theorem exists_payloads_of_caseTransaction :
    ∃ payloads w', payloads ≠ [] ∧ Act.exec (caseClient.process (caseNode .null).rpc
      (.transaction ⟨.text "s", .null⟩)) {} = (.ok (some payloads), w') := by
  have hanswer : (caseNode .null).node (World.clock {}) "getTransaction" (transactionParams "s") =
      .ok (caseAnswer .null) := rfl
  obtain ⟨vs, hvs, hprocess⟩ := exec_process_of_succeeded (c := caseClient) .null
    (caseAnswer_isTransaction .null) hanswer rfl
  obtain ⟨found, w', hexec, ⟨payloads, es, rfl, -, hextracts⟩ | ⟨e, -, -, ix, hix, hnot⟩⟩ :=
    payloadsOf_outcome (c := caseClient) (caseNode_answers .null) (caseTransaction .null) "s" .null
      hvs 0 (World.after {} [transactionAsked "s" (caseAnswer .null)])
  · obtain ⟨p, hp, -⟩ := hextracts.all createCase 1 .createCase (by simp [caseTransaction])
      ⟨rfl, createCase_marks⟩ rfl
    have hpayloads : payloads ≠ [] := List.ne_nil_of_mem hp
    refine ⟨payloads, w', hpayloads, ?_⟩
    rw [hprocess, exec_bind_pure, hexec]
    simp [Except.map, hpayloads]
  · exact absurd (caseTransaction_inOrder .null ix hix) hnot

theorem caseTransaction_extracts :
    (∃ payloads es w', Act.exec (caseClient.process (caseNode .null).rpc
        (.transaction ⟨.text "s", .null⟩)) {} = (.ok (some payloads), w') ∧
      World.Reaches {} w' (transactionAsked "s" (caseAnswer .null) :: es) ∧
      Extracts caseClient (caseTransaction .null) "s"
        (caseTransaction .null).instructions.zipIdx payloads es) ∧
    Act.exec (caseClient.process (caseNode (.text "e")).rpc
        (.transaction ⟨.text "s", .null⟩)) {} =
      (.ok none, World.after {} [transactionAsked "s" (caseAnswer (.text "e"))]) := by
  constructor
  · obtain ⟨-, hsucceeded⟩ := process_extracts caseClient _ (caseNode_answers .null)
      (caseTransaction .null) (caseAnswer .null) (caseAnswer_isTransaction .null) "s" .null {}
      rfl
    obtain ⟨found, w', hexec, ⟨payloads, es, rfl, hreach, hextracts⟩ | ⟨e, -, -, ix, hix, hnot⟩⟩ :=
      hsucceeded rfl
    · obtain ⟨p, hp, -⟩ := hextracts.all createCase 1 .createCase (by simp [caseTransaction])
        ⟨rfl, createCase_marks⟩ rfl
      cases payloads with
      | nil => cases hp
      | cons q qs => exact ⟨q :: qs, es, w', hexec, hreach, hextracts⟩
    · exact absurd (caseTransaction_inOrder .null ix hix) hnot
  · exact (process_extracts caseClient _ (caseNode_answers (.text "e"))
      (caseTransaction (.text "e")) (caseAnswer (.text "e"))
      (caseAnswer_isTransaction (.text "e")) "s" .null {} rfl).1 nofun

end Client

end ChainIndexer.Solana
