import ChainIndexer.Proofs.Schema
import ChainIndexer.Proofs.Settings.Override
import ChainIndexer.Proofs.Trim

/-!
What reading settings makes of texts and of page sizes. A text is put to use only if it is not blank
and holds no placeholder (`Usable`); the address of a node begins as one of HTTP does, and where it
holds a placeholder another one stands for it. The size of a page is the number that a value denotes
and a fixed one where it denotes none (`pageSize_of_denotes`); the number denotes itself
(`denotes_pageSize`), so reading it once more changes nothing. `ofValue_reads` puts these together
for the value of a document.
-/

namespace ChainIndexer

namespace Text

theorem containsList_iff (needle cs : List Char) :
    containsList needle cs = true ↔ needle <:+: cs := by
  induction cs with
  | nil => rw [containsList, List.isEmpty_iff, List.infix_nil]
  | cons c cs ih =>
    rw [containsList, Bool.or_eq_true, ih, List.isPrefixOf_iff_prefix, List.infix_cons_iff]

theorem isSome_afterStart?_iff (start cs : List Char) :
    (afterStart? start cs).isSome = true ↔ start <+: cs := by
  induction start generalizing cs with
  | nil => simp [afterStart?]
  | cons p ps ih =>
    cases cs with
    | nil => simp [afterStart?]
    | cons c cs =>
      rw [afterStart?, List.cons_prefix_cons]
      by_cases h : p = c
      · simp [h, ih]
      · simp [h]

theorem startsWith_iff (s start : String) :
    startsWith s start = true ↔ start.toList <+: s.toList :=
  isSome_afterStart?_iff _ _

end Text

namespace Schema

variable {α β : Type} {read : Reader α} {fields : Fields} {key : String}

/-- A field with a default, of a part that has one itself. -/
theorem finds_of_part {part : String} {readPart : Fields → Checked β} {defaultPart b : β}
    (field : β → α) (h : withDefault defaultPart (record readPart) fields part = .ok b)
    (hread : ∀ inner b, readPart inner = .ok b →
      withDefault (field defaultPart) read inner key = .ok (field b)) :
    Finds read (field defaultPart) ((Value.object fields).nested? part key) (field b) := by
  have hpart := withDefault_finds h
  unfold Value.nested? Value.part?
  dsimp only
  cases hfield : Value.field? fields part with
  | none =>
    rw [hfield] at hpart
    exact congrArg field hpart
  | some v =>
    rw [hfield] at hpart
    obtain ⟨inner, rfl, hinner⟩ := record_ok hpart
    exact withDefault_finds (hread inner b hinner)

end Schema

namespace Settings

open Schema

/-! ### Texts -/

def HoldsPlaceholder (s : String) : Prop :=
  ['$', '\x7b'] <:+: s.toList

/-- A text that is put to use as it is: it has a character that is no blank, and no placeholder. -/
structure Usable (s : String) : Prop where
  nonblank : ∃ c ∈ s.toList, Text.isBlank c = false
  plain : ¬HoldsPlaceholder s

/-- An address of HTTP without a placeholder. -/
structure IsNodeUrl (s : String) : Prop where
  scheme : "http://".toList <+: s.toList ∨ "https://".toList <+: s.toList
  plain : ¬HoldsPlaceholder s

theorem isPlaceholder_iff (s : String) : isPlaceholder s = true ↔ HoldsPlaceholder s :=
  Text.containsList_iff _ _

theorem usable_iff (s : String) : Usable s ↔ (isPlaceholder s || Text.allBlank s) = false := by
  rw [Bool.or_eq_false_iff, ← Bool.not_eq_true (isPlaceholder s), isPlaceholder_iff, Text.allBlank,
    List.all_eq_false]
  exact ⟨fun h => ⟨h.plain, by simpa using h.nonblank⟩, fun h => ⟨by simpa using h.2, h.1⟩⟩

/-- A text is read as one to be put to use just if it is usable. -/
theorem usableText_ok {v : Value} {s? : Option String} (h : usableText v = .ok s?) (s : String) :
    s? = some s ↔ text v = .ok s ∧ Usable s := by
  obtain ⟨t?, htext, hs⟩ := refined_ok h
  rcases optional_ok htext with ⟨rfl, rfl⟩ | ⟨t, ht, rfl⟩
  · obtain rfl := Except.ok.inj hs
    exact iff_of_false (fun h => nomatch h) fun h => nomatch h.1
  · obtain rfl := Except.ok.inj hs
    rw [ht]
    constructor
    · intro hkept
      split at hkept
      · cases hkept
      · rename_i hclean
        obtain rfl := Option.some.inj hkept
        exact ⟨rfl, (usable_iff t).mpr (Bool.not_eq_true _ ▸ hclean)⟩
    · rintro ⟨hsame, husable⟩
      obtain rfl := Except.ok.inj hsame
      rw [(usable_iff t).mp husable]
      rfl

theorem nodeUrl_ok {v : Value} {s : String} (h : nodeUrl v = .ok s) : IsNodeUrl s := by
  obtain ⟨t, -, hs⟩ := refined_ok h
  split at hs
  · obtain rfl := Except.ok.inj hs
    refine ⟨Or.inr ((Text.startsWith_iff _ _).mp (by decide)), ?_⟩
    rw [← isPlaceholder_iff]
    decide
  · rename_i hplain
    split at hs
    · rename_i hscheme
      obtain rfl := Except.ok.inj hs
      rw [Bool.or_eq_true, Text.startsWith_iff, Text.startsWith_iff] at hscheme
      exact ⟨hscheme.symm, fun hholds => hplain ((isPlaceholder_iff t).mpr hholds)⟩
    · cases hs

/-! ### The size of a page -/

/-- The size of a page that a value denotes: a positive whole number that is not too long, or the
number of a numeral without the blanks around it. -/
inductive Denotes : Value → Int → Prop where
  | number {n : Int} (hpos : 0 < n) (hshort : Numeral.isWritable n = true) : Denotes (.int n) n
  | numeral {s : String} {n : Int} (hpos : 0 < n)
      (hread : Numeral.read? 10 (Text.strip s) = some n) : Denotes (.text s) n

theorem Denotes.writable {v : Value} {n : Int} (h : Denotes v n) :
    0 < n ∧ Numeral.isWritable n = true := by
  cases h with
  | number hpos hshort => exact ⟨hpos, hshort⟩
  | numeral hpos hread => exact ⟨hpos, Numeral.isWritable_of_read? hread⟩

theorem pageSize_of_denotes {v : Value} {n : Int} (h : Denotes v n) : pageSize v = n := by
  unfold pageSize
  cases h with
  | number hpos hshort => simp [hshort, hpos]
  | numeral hpos hread => simp [hread, hpos]

theorem pageSize_of_not_denotes {v : Value} (h : ∀ n, ¬Denotes v n) :
    pageSize v = defaultPageSize := by
  unfold pageSize
  dsimp only
  split
  · rename_i n hsize
    rw [if_neg]
    intro hpos
    refine h n ?_
    split at hsize
    · split at hsize
      · rename_i hshort
        obtain rfl := Option.some.inj hsize
        exact .number hpos hshort
      · cases hsize
    · exact .numeral hpos hsize
    · cases hsize
  · rfl

theorem denotes_defaultPageSize : Denotes (.int defaultPageSize) defaultPageSize :=
  .number (by decide) (Numeral.isWritable_of_lt (by decide))

/-- The size of a page denotes itself. -/
theorem denotes_pageSize (v : Value) : Denotes (.int (pageSize v)) (pageSize v) := by
  by_cases h : ∃ n, Denotes v n
  · obtain ⟨n, hn⟩ := h
    rw [pageSize_of_denotes hn]
    exact .number hn.writable.1 hn.writable.2
  · rw [pageSize_of_not_denotes fun n hn => h ⟨n, hn⟩]
    exact denotes_defaultPageSize

/-! ### Settings -/

theorem nodeOf_ok {fields : Fields} {node : NodeSettings} (h : nodeOf fields = .ok node) :
    required nodeUrl fields "url" = .ok node.url ∧
      withDefault none usableText fields "api_token" = .ok node.apiToken := by
  obtain ⟨_, cap, hbackoff, -, rfl⟩ := Checked.apply_ok h
  obtain ⟨_, backoff, hretries, -, rfl⟩ := Checked.apply_ok hbackoff
  obtain ⟨_, retries, htimeout, -, rfl⟩ := Checked.apply_ok hretries
  obtain ⟨_, timeout, hfirst, -, rfl⟩ := Checked.apply_ok htimeout
  obtain ⟨_, token, hmade, htoken, rfl⟩ := Checked.apply_ok hfirst
  obtain ⟨url, hurl, rfl⟩ := Checked.map_ok hmade
  exact ⟨hurl, htoken⟩

theorem loopOf_ok {fields : Fields} {loop : LoopSettings} (h : loopOf fields = .ok loop) :
    withDefault defaultPageSize pageSizeField fields "page_size" = .ok loop.pageSize := by
  obtain ⟨_, retry, hinterval, -, rfl⟩ := Checked.apply_ok h
  obtain ⟨_, interval, hmade, -, rfl⟩ := Checked.apply_ok hinterval
  obtain ⟨size, hsize, rfl⟩ := Checked.map_ok hmade
  exact hsize

theorem deliveryOf_ok {fields : Fields} {delivery : DeliverySettings}
    (h : deliveryOf fields = .ok delivery) :
    withDefault none usableText fields "url" = .ok delivery.url ∧
      withDefault none usableText fields "token" = .ok delivery.token := by
  obtain ⟨_, timeout, hfirst, -, rfl⟩ := Checked.apply_ok h
  obtain ⟨_, token, hmade, htoken, rfl⟩ := Checked.apply_ok hfirst
  obtain ⟨url, hurl, rfl⟩ := Checked.map_ok hmade
  exact ⟨hurl, htoken⟩

theorem ofValue_parts {v : Value} {s : Settings} (h : ofValue v = .ok s) :
    ∃ fields, v = .object fields ∧ required (record nodeOf) fields "rpc" = .ok s.node ∧
      withDefault {} (record loopOf) fields "indexer" = .ok s.loop ∧
      withDefault {} (record deliveryOf) fields "push" = .ok s.delivery := by
  obtain ⟨fields, rfl, hread⟩ := record_ok (Checked.orFail_ok h)
  obtain ⟨_, level, hsixth, -, rfl⟩ := Checked.apply_ok hread
  obtain ⟨_, delivery, hfifth, hdelivery, rfl⟩ := Checked.apply_ok hsixth
  obtain ⟨_, file, hfourth, -, rfl⟩ := Checked.apply_ok hfifth
  obtain ⟨_, loop, hthird, hloop, rfl⟩ := Checked.apply_ok hfourth
  obtain ⟨ofNode, node, hsecond, hnode, rfl⟩ := Checked.apply_ok hthird
  obtain ⟨_, address, hfirst, -, rfl⟩ := Checked.apply_ok hsecond
  obtain ⟨network, -, rfl⟩ := Checked.map_ok hfirst
  exact ⟨fields, rfl, hnode, hloop, hdelivery⟩

theorem usable_of_finds {v? : Option Value} {s? : Option String} {s : String}
    (h : Finds usableText none v? s?) (hs : s? = some s) :
    ∃ v, v? = some v ∧ text v = .ok s ∧ Usable s := by
  cases v? with
  | none =>
    rw [show s? = none from h] at hs
    cases hs
  | some v => exact ⟨v, rfl, (usableText_ok h s).mp hs⟩

/-- What the settings hold that are read of a value. -/
structure Reads (v : Value) (s : Settings) : Prop where
  nodeUrl : IsNodeUrl s.node.url
  apiToken : ∀ t, s.node.apiToken = some t → Usable t
  deliveryUrl : Finds usableText none (v.nested? "push" "url") s.delivery.url
  deliveryToken : ∀ t, s.delivery.token = some t → Usable t
  pageSize : Finds pageSizeField defaultPageSize (v.nested? "indexer" "page_size") s.loop.pageSize

theorem ofValue_reads {v : Value} {s : Settings} (h : ofValue v = .ok s) : Reads v s := by
  obtain ⟨fields, rfl, hnode, hloop, hdelivery⟩ := ofValue_parts h
  obtain ⟨_, hnodeFields⟩ := exists_of_required hnode
  obtain ⟨nodeFields, rfl, hnodeFields⟩ := record_ok hnodeFields
  obtain ⟨hurl, hapiToken⟩ := nodeOf_ok hnodeFields
  obtain ⟨_, hurl⟩ := exists_of_required hurl
  have htoken : Finds usableText none ((Value.object fields).nested? "push" "token")
      s.delivery.token :=
    finds_of_part DeliverySettings.token hdelivery fun _ _ h => (deliveryOf_ok h).2
  refine ⟨nodeUrl_ok hurl, fun t ht => ?_, ?_, fun t ht => ?_, ?_⟩
  · obtain ⟨_, -, -, husable⟩ := usable_of_finds (withDefault_finds hapiToken) ht
    exact husable
  · exact finds_of_part DeliverySettings.url hdelivery fun _ _ h => (deliveryOf_ok h).1
  · obtain ⟨_, -, -, husable⟩ := usable_of_finds htoken ht
    exact husable
  · exact finds_of_part LoopSettings.pageSize hloop fun _ _ h => loopOf_ok h

end Settings

end ChainIndexer
