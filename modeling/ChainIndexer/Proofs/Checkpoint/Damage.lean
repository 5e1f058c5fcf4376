import ChainIndexer.Proofs.Checkpoint

/-!
What a checkpoint makes of a damaged file. Whatever the bytes of the file are, reading the cursor is
faithful or a misreading. It is faithful if it gives the start because there is no entry for a
cursor, gives a cursor that the entry itself stands for, or reports the file as unreadable
(`Faithful`). The misreadings are five (`Misread`): collections that are nested too deep, an entry
that is no object and an infinite height fail with a failure of another kind; of a height with a
fraction only the whole part is read, and of a signature that is no text what a message shows of it.
A file with such a damage is misread, and every other one is read faithfully (`get_faithful_iff`).
-/

namespace ChainIndexer

open Value (field?)

/-! ### What the reader refuses -/

namespace Json

/-- The refusals of the reader. -/
def IsRefusal (f : Fault) : Prop :=
  f = .notJson ∨ f = .badValue ∨ f = .tooDeep

/-- A reading that fails with a refusal of the reader only. -/
def Refuses {α : Type} (r : Except Fault α) : Prop :=
  ∀ f, r = .error f → IsRefusal f

variable {α β : Type}

theorem Refuses.ok (a : α) : Refuses (.ok a : Except Fault α) :=
  fun _ h => by cases h

theorem Refuses.notJson : Refuses (.error .notJson : Except Fault α) :=
  fun _ h => by cases h; exact .inl rfl

theorem Refuses.tooDeep : Refuses (.error .tooDeep : Except Fault α) :=
  fun _ h => by cases h; exact .inr (.inr rfl)

theorem Refuses.map {r : Except Fault α} (h : Refuses r) (f : α → β) : Refuses (r.map f) := by
  intro e he
  cases r with
  | error e' =>
    cases he
    exact h _ rfl
  | ok a => cases he

/-- A refusal that is handed on. -/
theorem Refuses.error {r : Except Fault α} {e : Fault} (h : Refuses r) (he : r = .error e) :
    Refuses (.error e : Except Fault β) :=
  fun _ hf => by cases hf; exact h e he

theorem refuses_units (cs : List Char) : Refuses (units cs) := by
  fun_induction units cs with
  | case1 => exact .notJson
  | case2 => exact .ok _
  | case3 => exact .notJson
  | case4 _ _ _ _ _ _ _ ih => exact ih.map _
  | case5 => exact .notJson
  | case6 _ _ _ _ _ ih => exact ih.map _
  | case7 => exact .notJson
  | case8 _ _ _ _ _ _ ih => exact ih.map _

theorem refuses_textBody (cs : List Char) : Refuses (textBody cs) :=
  (refuses_units cs).map _

theorem refuses_unsigned (negative : Bool) (cs : List Char) : Refuses (unsigned negative cs) := by
  unfold unsigned
  split
  · exact .notJson
  · dsimp only
    split
    · split
      · exact fun _ h => by cases h; exact .inr (.inl rfl)
      · exact .ok _
    · exact .ok _

/-- Every value that is read with a fuel, every member and every item. -/
structure AllRefuse (fuel : Nat) : Prop where
  value : ∀ depth cs, Refuses (valueFrom depth fuel cs)
  members : ∀ depth done cs, Refuses (membersFrom depth fuel done cs)
  items : ∀ depth done cs, Refuses (itemsFrom depth fuel done cs)

theorem refuses_valueFrom {fuel : Nat} (h : AllRefuse fuel) (depth : Nat) (cs : List Char) :
    Refuses (valueFrom depth (fuel + 1) cs) := by
  rw [valueFrom.eq_def]
  dsimp only
  split
  · exact (refuses_textBody _).map _
  · split
    · exact .tooDeep
    · exact .ok _
    · exact h.members _ _ _
  · split
    · exact .tooDeep
    · exact .ok _
    · exact h.items _ _ _
  iterate 6 exact .ok _
  · exact refuses_unsigned _ _
  · exact refuses_unsigned _ _

theorem refuses_membersFrom {fuel : Nat} (h : AllRefuse fuel) (depth : Nat)
    (done : List (String × Value)) (cs : List Char) :
    Refuses (membersFrom depth (fuel + 1) done cs) := by
  rw [membersFrom.eq_def]
  dsimp only
  split
  · split
    · rename_i e he
      exact (refuses_textBody _).error he
    · split
      · split
        · rename_i e he
          exact (h.value _ _).error he
        · split
          · exact h.members _ _ _
          · exact .ok _
          · exact .notJson
      · exact .notJson
  · exact .notJson

theorem refuses_itemsFrom {fuel : Nat} (h : AllRefuse fuel) (depth : Nat) (done : List Value)
    (cs : List Char) : Refuses (itemsFrom depth (fuel + 1) done cs) := by
  rw [itemsFrom.eq_def]
  dsimp only
  split
  · rename_i e he
    exact (h.value _ _).error he
  · split
    · exact h.items _ _ _
    · exact .ok _
    · exact .notJson

theorem allRefuse (fuel : Nat) : AllRefuse fuel := by
  induction fuel with
  | zero => exact ⟨fun _ _ => .notJson, fun _ _ _ => .notJson, fun _ _ _ => .notJson⟩
  | succ fuel ih =>
    exact ⟨refuses_valueFrom ih, refuses_membersFrom ih, refuses_itemsFrom ih⟩

theorem refuses_read (s : String) : Refuses (read s) := by
  unfold read
  dsimp only
  split
  · rename_i e he
    exact ((allRefuse _).value _ _).error he
  · split
    · exact .ok _
    · exact .notJson

end Json

namespace Checkpoint

/-! ### Faithful readings and misreadings -/

/-- A value that stands for a whole number: the number itself, a truth value, a number without a
fraction, or a numeral. -/
def Denotes : Value → Int → Prop
  | .int m, n => m = n
  | .bool b, n => (if b then 1 else 0) = n
  | .float x, n => Binary64.eqInt x n = true
  | .text s, n => Numeral.read? 10 s = some n
  | _, _ => False

/-- An entry that stands for a cursor: it has the type of the cursor, and a height that stands for
its height or its signature. -/
inductive Carries : Value → Cursor → Prop
  | start {fields : List (String × Value)} (htype : field? fields "type" = some (.text "none")) :
    Carries (.object fields) .start
  | block {fields : List (String × Value)} {v : Value} {n : Int} (hn : 0 ≤ n)
    (htype : field? fields "type" = some (.text "block"))
    (hheight : field? fields "height" = some v) (hv : Denotes v n) :
    Carries (.object fields) (.block (.number n) hn)
  | transaction {fields : List (String × Value)} {s : String} (hs : s ≠ "")
    (htype : field? fields "type" = some (.text "transaction"))
    (hsignature : field? fields "signature" = some (.text s)) :
    Carries (.object fields) (.transaction s hs)

/-- The value in the bytes of a file. -/
def contentOf (bs : Bytes) : Except Failure Value :=
  match Text.decode? bs with
  | none => .error (.fault .notUtf8)
  | some s => Json.read s

/-- The entry for a cursor, which only an object can have. -/
def entry? : Value → Option Value
  | .object fields => field? fields "cursor"
  | _ => none

/-- What may come of reading a file: the start if there is no entry, a cursor that the entry stands
for, or the report that the file is unreadable. -/
inductive Faithful (bs : Bytes) : Except Failure Cursor → Prop
  | noEntry {v : Value} (hv : contentOf bs = .ok v) (hentry : entry? v = none) :
    Faithful bs (.ok .start)
  | carried {v entry : Value} {cursor : Cursor} (hv : contentOf bs = .ok v)
    (hentry : entry? v = some entry) (hcarries : Carries entry cursor) : Faithful bs (.ok cursor)
  | reported (e : Failure) : Faithful bs (.error (.checkpointUnreadable e))

/-- What is made of an entry that is misread. -/
inductive MisreadEntry : Value → Except Failure Cursor → Prop
  | noObject {entry : Value} (h : ∀ fields, entry ≠ .object fields) :
    MisreadEntry entry (.error (.fault .noMember))
  | infinite {fields : List (String × Value)} {x : Float} {negative : Bool}
    (htype : field? fields "type" = some (.text "block"))
    (hheight : field? fields "height" = some (.float x))
    (hx : Binary64.shape x = .infinite negative) :
    MisreadEntry (.object fields) (.error (.fault .overflow))
  | truncated {fields : List (String × Value)} {x : Float} {negative : Bool} {m : Nat} {e : Int}
    (htype : field? fields "type" = some (.text "block"))
    (hheight : field? fields "height" = some (.float x))
    (hx : Binary64.shape x = .finite negative m e) (hfraction : Binary64.isWhole m e = false)
    (hnonneg : 0 ≤ Binary64.signed negative (Binary64.wholePart m e)) :
    MisreadEntry (.object fields)
      (.ok (.block (.number (Binary64.signed negative (Binary64.wholePart m e))) hnonneg))
  | shown {fields : List (String × Value)} {v : Value}
    (htype : field? fields "type" = some (.text "transaction"))
    (hsignature : field? fields "signature" = some v) (htext : ∀ s, v ≠ .text s)
    (hshown : v.shown ≠ "") : MisreadEntry (.object fields) (.ok (.transaction v.shown hshown))

/-- What is made of a file that is misread. -/
inductive Misread (bs : Bytes) : Except Failure Cursor → Prop
  | tooDeep (h : contentOf bs = .error (.fault .tooDeep)) : Misread bs (.error (.fault .tooDeep))
  | entry {v entry : Value} {r : Except Failure Cursor} (hv : contentOf bs = .ok v)
    (hentry : entry? v = some entry) (hr : MisreadEntry entry r) : Misread bs r

/-- A failure as it leaves the reading of a file. -/
def reportOf (e : Failure) : Failure :=
  if isUnreadable e.kind then .checkpointUnreadable e else e

theorem ofBytes_eq (bs : Bytes) : ofBytes bs = contentOf bs >>= cursorOf := by
  unfold ofBytes contentOf
  cases Text.decode? bs with
  | none => rfl
  | some s => rfl

/-! ### Every entry is read in one of these ways -/

/-- What is made of an entry is a cursor for which it stands, a report, or a misreading. -/
def Classified (entry : Value) (r : Except Failure Cursor) : Prop :=
  (∃ cursor, Carries entry cursor ∧ r = .ok cursor) ∨
    (∃ e, r = .error (.checkpointUnreadable e)) ∨ MisreadEntry entry r

theorem Classified.reported {entry : Value} {e : Failure} (h : isUnreadable e.kind = true) :
    Classified entry (.error (reportOf e)) := by
  refine .inr (.inl ⟨e, ?_⟩)
  simp [reportOf, h]

theorem Classified.carried {entry : Value} {cursor : Cursor} (h : Carries entry cursor) :
    Classified entry (.ok cursor) :=
  .inl ⟨cursor, h, rfl⟩

theorem Classified.misread {entry : Value} {r : Except Failure Cursor} (h : MisreadEntry entry r) :
    Classified entry r :=
  .inr (.inr h)

theorem ofHeight_of_nonneg {n : Int} (hn : 0 ≤ n) :
    Cursor.ofHeight (.number n) = .ok (.block (.number n) hn) :=
  dif_pos hn

theorem ofHeight_of_neg {n : Int} (hn : ¬0 ≤ n) :
    Cursor.ofHeight (.number n) = .error .heightNotNatural :=
  dif_neg hn

theorem toInteger_infinite {x : Float} {negative : Bool}
    (hx : Binary64.shape x = .infinite negative) :
    Value.toInteger (.float x) = .error .overflow := by
  simp [Value.toInteger, hx]

theorem toInteger_finite {x : Float} {negative : Bool} {m : Nat} {e : Int}
    (hx : Binary64.shape x = .finite negative m e) :
    Value.toInteger (.float x) = .ok (Binary64.signed negative (Binary64.wholePart m e)) := by
  simp [Value.toInteger, hx]

section Entry

variable {fields : List (String × Value)} {v : Value}

theorem classified_denoted (htype : field? fields "type" = some (.text "block"))
    (hheight : field? fields "height" = some v) {n : Int} (hv : Denotes v n) :
    Classified (.object fields) ((Cursor.ofHeight (.number n)).mapError reportOf) := by
  by_cases hn : 0 ≤ n
  · rw [ofHeight_of_nonneg hn]
    exact .carried (.block hn htype hheight hv)
  · rw [ofHeight_of_neg hn]
    exact .reported rfl

/-- The whole part of a height with a fraction is taken for the height, unless it is negative. -/
theorem classified_fraction {x : Float} {negative : Bool} {m : Nat} {e : Int}
    (htype : field? fields "type" = some (.text "block"))
    (hheight : field? fields "height" = some (.float x))
    (hx : Binary64.shape x = .finite negative m e) :
    Classified (.object fields) ((Cursor.ofHeight
      (.number (Binary64.signed negative (Binary64.wholePart m e)))).mapError reportOf) := by
  cases hwhole : Binary64.isWhole m e with
  | true =>
    refine classified_denoted htype hheight ?_
    simp [Denotes, Binary64.eqInt, hx, hwhole]
  | false =>
    by_cases hn : 0 ≤ Binary64.signed negative (Binary64.wholePart m e)
    · rw [ofHeight_of_nonneg hn]
      exact .misread (.truncated htype hheight hx hwhole hn)
    · rw [ofHeight_of_neg hn]
      exact .reported rfl

theorem classified_height (htype : field? fields "type" = some (.text "block"))
    (hheight : field? fields "height" = some v) :
    Classified (.object fields) (((liftM v.toInteger : Except Failure Int) >>= fun n =>
      Cursor.ofHeight (.number n)).mapError reportOf) := by
  have hfault : ∀ f : Fault, v.toInteger = .error f → isUnreadable (.fault f) = true →
      Classified (.object fields) (((liftM v.toInteger : Except Failure Int) >>= fun n =>
        Cursor.ofHeight (.number n)).mapError reportOf) := by
    intro f hf hunreadable
    rw [hf]
    exact .reported hunreadable
  cases v with
  | int n => exact classified_denoted htype hheight rfl
  | bool b => exact classified_denoted htype hheight rfl
  | text s =>
    cases hs : Numeral.read? 10 s with
    | none => exact hfault .badValue (by simp [Value.toInteger, hs]) rfl
    | some n =>
      have hread : Value.toInteger (.text s) = .ok n := by simp [Value.toInteger, hs]
      rw [hread]
      exact classified_denoted htype hheight hs
  | float x =>
    cases hx : Binary64.shape x with
    | nan => exact hfault .badValue (by simp [Value.toInteger, hx]) rfl
    | infinite negative =>
      rw [toInteger_infinite hx]
      exact .misread (.infinite htype hheight hx)
    | finite negative m e =>
      rw [toInteger_finite hx]
      exact classified_fraction htype hheight hx
  | null => exact hfault .wrongType rfl rfl
  | bytes bs => exact hfault .wrongType rfl rfl
  | list items => exact hfault .wrongType rfl rfl
  | object fields => exact hfault .wrongType rfl rfl

theorem classified_signature (htype : field? fields "type" = some (.text "transaction"))
    (hsignature : field? fields "signature" = some v) :
    Classified (.object fields) ((Cursor.ofSignature v.shown).mapError reportOf) := by
  by_cases hshown : v.shown = ""
  · have hcursor : Cursor.ofSignature v.shown = .error .signatureEmpty :=
      dif_neg (not_not.mpr hshown)
    rw [hcursor]
    exact .reported rfl
  · have hcursor : Cursor.ofSignature v.shown = .ok (.transaction v.shown hshown) := dif_pos hshown
    rw [hcursor]
    by_cases htext : ∃ s, v = .text s
    · obtain ⟨s, rfl⟩ := htext
      exact .carried (.transaction hshown htype hsignature)
    · exact .misread (.shown htype hsignature (fun s hs => htext ⟨s, hs⟩) hshown)

/-- A text in the place of the type of an entry. -/
theorem field?_of_isText {key s : String} (h : ((field? fields key).getD .null).isText s = true) :
    field? fields key = some (.text s) := by
  cases hfield : field? fields key with
  | none =>
    rw [hfield] at h
    cases h
  | some v =>
    rw [hfield] at h
    cases v with
    | text t => exact congrArg (some ∘ Value.text) (eq_of_beq h)
    | _ => cases h

end Entry

theorem ofValue_object (fields : List (String × Value)) :
    Cursor.ofValue (.object fields) =
      let kind := (field? fields "type").getD .null
      if kind.isText "none" then .ok .start
      else if kind.isText "block" then
        match field? fields "height" with
        | none => .error (.fault .missingKey)
        | some v => (liftM v.toInteger : Except Failure Int) >>= fun n =>
            Cursor.ofHeight (.number n)
      else if kind.isText "transaction" then
        match field? fields "signature" with
        | none => .error (.fault .missingKey)
        | some v => Cursor.ofSignature v.shown
      else .error (.unknownCursorType kind) := by
  change (if ((field? fields "type").getD .null).isText "none" then _ else _) = _
  dsimp only
  split
  · rfl
  split
  · simp only [Value.item]
    cases field? fields "height" <;> rfl
  split
  · simp only [Value.item]
    cases field? fields "signature" <;> rfl
  · rfl

theorem ofValue_block {fields : List (String × Value)} {v : Value}
    (htype : field? fields "type" = some (.text "block"))
    (hheight : field? fields "height" = some v) :
    Cursor.ofValue (.object fields) =
      (liftM v.toInteger : Except Failure Int) >>= fun n => Cursor.ofHeight (.number n) := by
  rw [ofValue_object, htype, hheight]
  rfl

theorem ofValue_transaction {fields : List (String × Value)} {v : Value}
    (htype : field? fields "type" = some (.text "transaction"))
    (hsignature : field? fields "signature" = some v) :
    Cursor.ofValue (.object fields) = Cursor.ofSignature v.shown := by
  rw [ofValue_object, htype, hsignature]
  rfl

/-- What is made of any entry is a cursor for which it stands, a report, or a misreading. -/
theorem classified_ofValue (entry : Value) :
    Classified entry ((Cursor.ofValue entry).mapError reportOf) := by
  by_cases hobject : ∃ fields, entry = .object fields
  · obtain ⟨fields, rfl⟩ := hobject
    rw [ofValue_object]
    dsimp only
    split
    · rename_i hnone
      exact .carried (.start (field?_of_isText hnone))
    split
    · rename_i hblock
      cases hheight : field? fields "height" with
      | none => exact .reported rfl
      | some v => exact classified_height (field?_of_isText hblock) hheight
    split
    · rename_i htransaction
      cases hsignature : field? fields "signature" with
      | none => exact .reported rfl
      | some v => exact classified_signature (field?_of_isText htransaction) hsignature
    · exact .reported rfl
  · have hget : Cursor.ofValue entry = .error (.fault .noMember) := by
      cases entry with
      | object fields => exact absurd ⟨fields, rfl⟩ hobject
      | _ => rfl
    rw [hget]
    exact .misread (.noObject fun fields h => hobject ⟨fields, h⟩)

/-! ### Every file is read in one of these ways -/

theorem faithful_of_unreadable (bs : Bytes) {e : Failure} (h : isUnreadable e.kind = true) :
    Faithful bs (.error (reportOf e)) := by
  have hreport : reportOf e = .checkpointUnreadable e := if_pos h
  rw [hreport]
  exact .reported e

theorem contentOf_error {bs : Bytes} {e : Failure} (h : contentOf bs = .error e) :
    ∃ f, e = .fault f ∧ (f = .notUtf8 ∨ Json.IsRefusal f) := by
  unfold contentOf at h
  split at h
  · cases h
    exact ⟨_, rfl, .inl rfl⟩
  · rename_i s _
    obtain ⟨f, hf, rfl⟩ := mapError_error h
    exact ⟨f, rfl, .inr (Json.refuses_read s f hf)⟩

theorem faithful_or_misread (bs : Bytes) :
    Faithful bs ((ofBytes bs).mapError reportOf) ∨ Misread bs ((ofBytes bs).mapError reportOf) := by
  rw [ofBytes_eq]
  cases hv : contentOf bs with
  | error e =>
    obtain ⟨f, rfl, hf⟩ := contentOf_error hv
    rcases hf with rfl | rfl | rfl | rfl
    · exact .inl (faithful_of_unreadable bs rfl)
    · exact .inl (faithful_of_unreadable bs rfl)
    · exact .inl (faithful_of_unreadable bs rfl)
    · exact .inr (.tooDeep hv)
  | ok v =>
    change Faithful bs ((cursorOf v).mapError reportOf) ∨
      Misread bs ((cursorOf v).mapError reportOf)
    cases v with
    | object fields =>
      cases hentry : field? fields "cursor" with
      | none =>
        have hstart : cursorOf (.object fields) = .ok .start := by simp only [cursorOf, hentry]
        rw [hstart]
        exact .inl (.noEntry hv hentry)
      | some entry =>
        have hread : cursorOf (.object fields) = Cursor.ofValue entry := by
          simp only [cursorOf, hentry]
        rw [hread]
        rcases classified_ofValue entry with ⟨cursor, hcarries, hr⟩ | ⟨e, hr⟩ | hr
        · rw [hr]
          exact .inl (.carried hv hentry hcarries)
        · rw [hr]
          exact .inl (.reported e)
        · exact .inr (.entry hv hentry hr)
    | list items =>
      unfold cursorOf
      dsimp only
      split
      · exact .inl (faithful_of_unreadable bs rfl)
      · exact .inl (.noEntry hv rfl)
    | text s =>
      unfold cursorOf
      dsimp only
      split
      · exact .inl (faithful_of_unreadable bs rfl)
      · exact .inl (.noEntry hv rfl)
    | _ => exact .inl (faithful_of_unreadable bs rfl)

/-- A cursor for which an entry stands is not what a misreading gives. -/
theorem not_carries_of_misreadEntry {entry : Value} {cursor : Cursor}
    (h : MisreadEntry entry (.ok cursor)) : ¬Carries entry cursor := by
  intro hcarries
  cases h with
  | truncated htype hheight hx hfraction hnonneg =>
    cases hcarries with
    | block hn htype' hheight' hv =>
      obtain rfl := Option.some.inj (hheight.symm.trans hheight')
      simp [Denotes, Binary64.eqInt, hx, hfraction] at hv
  | shown htype hsignature htext hshown =>
    cases hcarries with
    | transaction hs htype' hsignature' =>
      exact htext _ (Option.some.inj (hsignature.symm.trans hsignature'))

theorem not_faithful_of_misread {bs : Bytes} {r : Except Failure Cursor} (h : Misread bs r) :
    ¬Faithful bs r := by
  intro hfaithful
  cases h with
  | tooDeep => cases hfaithful
  | entry hv hentry hr =>
    cases hfaithful with
    | noEntry hv' hentry' =>
      obtain rfl := Except.ok.inj (hv.symm.trans hv')
      cases hentry.symm.trans hentry'
    | carried hv' hentry' hcarries =>
      obtain rfl := Except.ok.inj (hv.symm.trans hv')
      obtain rfl := Option.some.inj (hentry.symm.trans hentry')
      exact not_carries_of_misreadEntry hr hcarries
    | reported e => cases hr

/-- An entry that can be misread is misread. -/
theorem ofValue_of_misreadEntry {entry : Value} {r : Except Failure Cursor}
    (h : MisreadEntry entry r) : (Cursor.ofValue entry).mapError reportOf = r := by
  cases h with
  | noObject hobject =>
    cases entry with
    | object fields => exact absurd rfl (hobject fields)
    | _ => rfl
  | infinite htype hheight hx =>
    rw [ofValue_block htype hheight, toInteger_infinite hx]
    rfl
  | truncated htype hheight hx hfraction hnonneg =>
    rw [ofValue_block htype hheight, toInteger_finite hx]
    exact congrArg (Except.mapError reportOf) (ofHeight_of_nonneg hnonneg)
  | shown htype hsignature htext hshown =>
    rw [ofValue_transaction htype hsignature]
    exact congrArg (Except.mapError reportOf) (dif_pos hshown)

theorem ofBytes_of_misread {bs : Bytes} {r : Except Failure Cursor} (h : Misread bs r) :
    (ofBytes bs).mapError reportOf = r := by
  cases h with
  | tooDeep hv =>
    rw [ofBytes_eq, hv]
    rfl
  | @entry v entry _ hv hentry hr =>
    cases v with
    | object fields =>
      have hread : cursorOf (.object fields) = Cursor.ofValue entry := by
        simp only [cursorOf, show field? fields "cursor" = some entry from hentry]
      rw [ofBytes_eq, hv]
      exact (congrArg (Except.mapError reportOf) hread).trans (ofValue_of_misreadEntry hr)
    | _ => cases hentry

theorem stored_of_read {c : Checkpoint} {fs : Files} {bs : Bytes} (h : fs.read c.path = .ok bs) :
    c.stored fs = (ofBytes bs).mapError reportOf := by
  obtain ⟨p, hlookup⟩ := Files.lookup_of_read h
  have there : fs.isThere c.path = true := by simp [Files.isThere, hlookup]
  rw [stored_eq, there, h]
  rfl

/-- Whatever bytes are in the file: if they can be misread, the cursor is misread in just that way;
and what comes of reading it is faithful just if they cannot be misread. -/
theorem get_faithful_iff (c : Checkpoint) {fs : Files} {bs : Bytes} (h : fs.read c.path = .ok bs) :
    let r := (Act.exec (c.get Files.Place.whole.disk) fs).1
    (∀ r', Misread bs r' → r = r') ∧ (Faithful bs r ↔ ∀ r', ¬Misread bs r') := by
  intro r
  have hr : r = (ofBytes bs).mapError reportOf := stored_of_read h
  have hmisread : ∀ r', Misread bs r' → r = r' := fun r' h' => hr.trans (ofBytes_of_misread h')
  refine ⟨hmisread, fun hfaithful r' h' => ?_, fun hnot => ?_⟩
  · obtain rfl := hmisread r' h'
    exact not_faithful_of_misread h' hfaithful
  · rw [hr]
    exact (faithful_or_misread bs).resolve_right (hnot _)

/-- A file with the text of a tellable value holds the value. -/
theorem contentOf_of_write {v : Value} {s : String} (hv : Json.Tellable Json.maxDepth v)
    (hs : Json.write v = .ok s) : contentOf (Text.encode s) = .ok v := by
  unfold contentOf
  rw [Text.decode?_encode]
  dsimp only
  rw [Json.read_write hv hs]
  rfl

/-- An entry that is a number, in a file of that content. -/
def numberEntry : Files :=
  ⟨[(["cursor"], .file (Text.encode "\x7b\"cursor\": 5\x7d"))]⟩

theorem get_numberEntry :
    let c : Checkpoint := ⟨"cursor"⟩
    let bs := Text.encode "\x7b\"cursor\": 5\x7d"
    let r := (Act.exec (c.get Files.Place.whole.disk) numberEntry).1
    numberEntry.read c.path = .ok bs ∧ r = .error (.fault .noMember) ∧ ¬Faithful bs r := by
  intro c bs r
  have hread : numberEntry.read c.path = .ok bs := ok_of_toOption (by decide +kernel)
  have hcontent : contentOf bs = .ok (.object [("cursor", .int 5)]) := by
    have htellable : Json.Tellable Json.maxDepth (.object [("cursor", .int 5)]) :=
      .object (by simp) (by simpa using Numeral.isWritable_of_lt (by decide))
    exact contentOf_of_write htellable (ok_of_toOption (by decide +kernel))
  have hmisread : Misread bs (.error (.fault .noMember)) :=
    .entry hcontent rfl (.noObject fun fields h => by cases h)
  obtain ⟨hsame, hfaithful⟩ := get_faithful_iff c hread
  exact ⟨hread, hsame _ hmisread, fun h => hfaithful.mp h _ hmisread⟩

end Checkpoint

end ChainIndexer
