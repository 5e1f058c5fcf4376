import ChainIndexer.Proofs.Activity
import ChainIndexer.Proofs.JsonText

/-!
Values that are written as JSON and read back. A value is tellable if its numbers are whole and
short enough to be written, its objects have each name once and its collections are not nested
deeper than the reader goes. Such a value is written in printable ASCII (`exists_write`), and the
reader takes it back from what was written (`read_write`); so two tellable values that are written
alike are the same.
-/

namespace ChainIndexer.Json

/-- A value with collections nested `depth` deep at most that JSON tells from any other. -/
inductive Tellable : (depth : Nat) → Value → Prop
  | null {depth : Nat} : Tellable depth .null
  | bool {depth : Nat} (b : Bool) : Tellable depth (.bool b)
  | int {depth : Nat} {n : Int} (hn : Numeral.isWritable n = true) : Tellable depth (.int n)
  | text {depth : Nat} (s : String) : Tellable depth (.text s)
  | list {depth : Nat} {items : List Value} (hitems : ∀ v ∈ items, Tellable depth v) :
    Tellable (depth + 1) (.list items)
  | object {depth : Nat} {fields : List (String × Value)} (hnames : (fields.map (·.1)).Nodup)
    (hfields : ∀ f ∈ fields, Tellable depth f.2) : Tellable (depth + 1) (.object fields)

@[simp] theorem tellable_text (depth : Nat) (s : String) : Tellable depth (.text s) :=
  .text s

@[simp] theorem tellable_int {depth : Nat} {n : Int} :
    Tellable depth (.int n) ↔ Numeral.isWritable n = true :=
  ⟨fun h => by cases h; assumption, .int⟩

/-! ### What is written -/

theorem together_cons {t s : String} {ps : List (Except Fault String)}
    (h : together (.ok t :: ps) = .ok s) : ∃ a, together ps = .ok a ∧ s = t ++ a :=
  map_ok h

theorem together_single {t s : String} (h : together [.ok t] = .ok s) : s = t := by
  obtain ⟨a, ha, rfl⟩ := together_cons h
  rw [← Except.ok.inj ha, String.append_empty]

theorem together_append {ps qs : List (Except Fault String)} {s : String}
    (h : together (ps ++ qs) = .ok s) :
    ∃ a b, together ps = .ok a ∧ together qs = .ok b ∧ s = a ++ b := by
  induction ps generalizing s with
  | nil => exact ⟨"", s, rfl, h, by simp⟩
  | cons p ps ih =>
    cases p with
    | error e => cases h
    | ok t =>
      obtain ⟨rest, hrest, rfl⟩ := together_cons h
      obtain ⟨a, b, ha, hb, rfl⟩ := ih hrest
      refine ⟨t ++ a, b, ?_, hb, by rw [String.append_assoc]⟩
      rw [together, ha]
      rfl

/-- A character of printable ASCII. -/
def Printable (c : Char) : Prop :=
  0x20 ≤ c.toNat ∧ c.toNat ≤ 0x7E

instance (c : Char) : Decidable (Printable c) :=
  inferInstanceAs (Decidable (_ ∧ _))

-- goes through the characters of the text, and not through all that there are
instance (cs : List Char) : Decidable (∀ c ∈ cs, Printable c) :=
  List.decidableBAll Printable cs

/-- A piece that was written, in printable ASCII. -/
def Plain (p : Except Fault String) : Prop :=
  ∃ s, p = .ok s ∧ ∀ c ∈ s.toList, Printable c

theorem together_plain {ps : List (Except Fault String)} (h : ∀ p ∈ ps, Plain p) :
    Plain (together ps) := by
  induction ps with
  | nil => exact ⟨"", rfl, by simp⟩
  | cons p ps ih =>
    obtain ⟨t, rfl, ht⟩ := h p List.mem_cons_self
    obtain ⟨rest, hrest, hchars⟩ := ih fun q hq => h q (List.mem_cons_of_mem _ hq)
    refine ⟨t ++ rest, by rw [together, hrest]; rfl, ?_⟩
    intro c hc
    rw [String.toList_append, List.mem_append] at hc
    exact hc.elim (ht c) (hchars c)

theorem printable_hexDigits (width n : Nat) : ∀ c ∈ Text.hexDigits width n, Printable c := by
  have hdigit : ∀ d < 16, Printable (Text.hexChar d) := by decide
  intro c hc
  induction width generalizing n with
  | zero => simp [Text.hexDigits] at hc
  | succ width ih =>
    rw [Text.hexDigits, List.mem_append, List.mem_singleton] at hc
    rcases hc with hc | rfl
    · exact ih _ hc
    · exact hdigit _ (Nat.mod_lt _ (by decide))

theorem printable_escapeUnit (n : Nat) : ∀ c ∈ escapeUnit n, Printable c := by
  intro c hc
  rw [escapeUnit, List.mem_cons, List.mem_cons] at hc
  rcases hc with rfl | rfl | hc
  · decide
  · decide
  · exact printable_hexDigits 4 n c hc

theorem printable_escapeChar (d : Char) : ∀ c ∈ escapeChar d, Printable c := by
  unfold escapeChar
  split_ifs
  iterate 7 decide
  dsimp only
  split_ifs with hplain hsmall
  · simpa [Printable] using hplain
  · exact printable_escapeUnit _
  · intro c hc
    rw [List.mem_append] at hc
    exact hc.elim (printable_escapeUnit _ c) (printable_escapeUnit _ c)

theorem plain_text (s : String) : Plain (.ok (text s)) := by
  refine ⟨text s, rfl, fun c hc => ?_⟩
  simp only [toList_text, List.mem_cons, List.mem_append, List.mem_flatMap, List.not_mem_nil,
    or_false] at hc
  rcases hc with rfl | ⟨d, -, hc⟩ | rfl
  · decide
  · exact printable_escapeChar d c hc
  · decide

theorem printable_of_isDigit {c : Char} (hc : c.isDigit = true) : Printable c := by
  simp only [Char.isDigit, Bool.and_eq_true, decide_eq_true_eq] at hc
  have hle : 48 ≤ c.toNat ∧ c.toNat ≤ 57 := hc
  exact ⟨by omega, by omega⟩

theorem plain_decimal (n : Int) : Plain (.ok (Numeral.decimal n)) := by
  refine ⟨_, rfl, fun c hc => ?_⟩
  cases n with
  | ofNat m =>
    rw [Int.ofNat_eq_natCast, toList_decimal_natural] at hc
    exact printable_of_isDigit (isDigit_of_mem_toDigits hc)
  | negSucc m =>
    rw [toList_decimal_negSucc, List.mem_cons] at hc
    rcases hc with rfl | hc
    · decide
    · exact printable_of_isDigit (isDigit_of_mem_toDigits hc)

theorem plain_itemPieces {items : List Value} (h : ∀ v ∈ items, ∀ p ∈ pieces v, Plain p)
    (first : Bool) : ∀ p ∈ itemPieces first items, Plain p := by
  induction items generalizing first with
  | nil => simp [itemPieces]
  | cons v rest ih =>
    intro p hp
    rw [itemPieces, List.mem_append, List.mem_append] at hp
    rcases hp with (hp | hp) | hp
    · obtain rfl : p = .ok ", " := by
        cases first <;> simp_all
      exact ⟨", ", rfl, by decide⟩
    · exact h v List.mem_cons_self p hp
    · exact ih (fun w hw => h w (List.mem_cons_of_mem _ hw)) false p hp

theorem plain_fieldPieces {fields : List (String × Value)}
    (h : ∀ f ∈ fields, ∀ p ∈ pieces f.2, Plain p) (first : Bool) :
    ∀ p ∈ fieldPieces first fields, Plain p := by
  induction fields generalizing first with
  | nil => simp [fieldPieces]
  | cons f rest ih =>
    intro p hp
    simp only [fieldPieces, List.mem_append, List.mem_cons] at hp
    rcases hp with (hp | rfl | rfl | hp) | hp
    · obtain rfl : p = .ok ", " := by
        cases first <;> simp_all
      exact ⟨", ", rfl, by decide⟩
    · exact plain_text f.1
    · exact ⟨": ", rfl, by decide⟩
    · exact h f List.mem_cons_self p hp
    · exact ih (fun g hg => h g (List.mem_cons_of_mem _ hg)) false p hp

theorem Tellable.plain_pieces {depth : Nat} {v : Value} (h : Tellable depth v) :
    ∀ p ∈ pieces v, Plain p := by
  induction h with
  | null =>
    intro p hp
    obtain rfl := List.mem_singleton.mp hp
    exact ⟨"null", rfl, by decide⟩
  | bool b =>
    intro p hp
    obtain rfl := List.mem_singleton.mp hp
    exact ⟨_, rfl, by cases b <;> decide⟩
  | int hn =>
    intro p hp
    rw [pieces, if_pos hn] at hp
    obtain rfl := List.mem_singleton.mp hp
    exact plain_decimal _
  | text s =>
    intro p hp
    obtain rfl := List.mem_singleton.mp hp
    exact plain_text s
  | list _ ih =>
    intro p hp
    simp only [pieces, List.mem_append, List.mem_cons, List.not_mem_nil, or_false] at hp
    rcases hp with (rfl | hp) | rfl
    · exact ⟨"[", rfl, by decide⟩
    · exact plain_itemPieces ih true p hp
    · exact ⟨"]", rfl, by decide⟩
  | object _ _ ih =>
    intro p hp
    simp only [pieces, List.mem_append, List.mem_cons, List.not_mem_nil, or_false] at hp
    rcases hp with (rfl | hp) | rfl
    · exact ⟨"\x7b", rfl, by decide⟩
    · exact plain_fieldPieces ih true p hp
    · exact ⟨"\x7d", rfl, by decide⟩

/-- A tellable value is written, in printable ASCII. -/
theorem exists_write {depth : Nat} {v : Value} (h : Tellable depth v) :
    ∃ s, write v = .ok s ∧ ∀ c ∈ s.toList, Printable c :=
  together_plain h.plain_pieces

/-! ### What is read -/

/-- Text that opens a value: blanks are not skipped in front of it, and it closes no list. -/
def Opens (cs : List Char) : Prop :=
  ∃ c rest, cs = c :: rest ∧ isBlank c = false ∧ c ≠ ']'

theorem Opens.skip_append {cs : List Char} (h : Opens cs) (rest : List Char) :
    skip (cs ++ rest) = cs ++ rest := by
  obtain ⟨c, more, rfl, hblank, -⟩ := h
  exact skip_cons hblank _

theorem opens_text (s : String) : Opens (text s).toList :=
  ⟨'"', s.toList.flatMap escapeChar ++ ['"'], toList_text s, by decide, by decide⟩

theorem opens_decimal (n : Int) : Opens (Numeral.decimal n).toList := by
  cases n with
  | ofNat m =>
    obtain ⟨d, ds, hds, hd⟩ := toDigits_cons m
    refine ⟨d, ds, (toList_decimal_natural m).trans hds, ?_, ?_⟩
    · refine Bool.eq_false_iff.mpr fun hblank => ?_
      simp only [isBlank, Bool.or_eq_true, beq_iff_eq] at hblank
      rcases hblank with ((rfl | rfl) | rfl) | rfl <;> cases hd
    · rintro rfl
      cases hd
  | negSucc m => exact ⟨'-', _, toList_decimal_negSucc m, by decide, by decide⟩

/-- Text that is read as a value, whatever follows that does not go on with a number. -/
structure ReadAs (depth : Nat) (v : Value) (s : String) : Prop where
  opens : Opens s.toList
  read : ∀ fuel rest, s.toList.length ≤ fuel → Ends rest →
    valueFrom depth fuel (s.toList ++ rest) = .ok (v, rest)

/-- Text that is read as soon as there is any fuel. -/
theorem ReadAs.of_succ {depth : Nat} {v : Value} {s : String} (hopens : Opens s.toList)
    (h : ∀ fuel rest, Ends rest → valueFrom depth (fuel + 1) (s.toList ++ rest) = .ok (v, rest)) :
    ReadAs depth v s := by
  refine ⟨hopens, fun fuel rest hfuel hrest => ?_⟩
  obtain ⟨c, more, hs, -⟩ := hopens
  rw [hs, List.length_cons] at hfuel
  obtain ⟨fuel, rfl⟩ : ∃ k, fuel = k + 1 := ⟨fuel - 1, by omega⟩
  exact h fuel rest hrest

/-- Text that what is written for some value is read as. -/
def Back (depth : Nat) (v : Value) : Prop :=
  ∀ s, write v = .ok s → ReadAs depth v s

/-- Items are read from one of them on as they were written. -/
theorem itemsFrom_written {depth : Nat} {rest : List Value} (hrest : ∀ w ∈ rest, Back depth w)
    {v : Value} {a b : String} (ha : ReadAs depth v a)
    (hb : together (itemPieces false rest) = .ok b) {fuel : Nat}
    (hfuel : a.toList.length + b.toList.length < fuel) (done : List Value) (more : List Char) :
    itemsFrom depth fuel done (a.toList ++ (b.toList ++ ']' :: more)) =
      .ok (.list (done.reverse ++ v :: rest), more) := by
  induction rest generalizing v a b fuel done with
  | nil =>
    obtain rfl : b = "" := (Except.ok.inj hb).symm
    obtain ⟨fuel, rfl⟩ : ∃ k, fuel = k + 1 := ⟨fuel - 1, by omega⟩
    have hv := ha.read fuel (']' :: more) (by simp at hfuel; omega)
      (ends_cons (by decide) (by decide) (by decide) (by decide) _)
    have hclose : skip (']' :: more) = ']' :: more := skip_cons (by decide) _
    simp [itemsFrom, hv, hclose]
  | cons w ws ih =>
    obtain ⟨t, htail, rfl⟩ := together_cons hb
    obtain ⟨a', b', ha', hb', rfl⟩ := together_append htail
    have hw : ReadAs depth w a' := hrest w List.mem_cons_self a' ha'
    obtain ⟨fuel, rfl⟩ : ∃ k, fuel = k + 1 := ⟨fuel - 1, by omega⟩
    simp only [String.toList_append, List.length_append] at hfuel
    have hopen : 0 < a'.toList.length := by
      obtain ⟨c, cs, hcs, -⟩ := hw.opens
      simp [hcs]
    have hlength : ", ".toList.length = 2 := rfl
    have hv := ha.read fuel (',' :: ' ' :: (a'.toList ++ (b'.toList ++ ']' :: more))) (by omega)
      (ends_cons (by decide) (by decide) (by decide) (by decide) _)
    have hcomma := skip_cons (show isBlank ',' = false by decide)
      (' ' :: (a'.toList ++ (b'.toList ++ ']' :: more)))
    have hblank := skip_blank (show isBlank ' ' = true by decide)
      (a'.toList ++ (b'.toList ++ ']' :: more))
    have hnext := ih (fun u hu => hrest u (List.mem_cons_of_mem _ hu)) hw hb'
      (show a'.toList.length + b'.toList.length < fuel by omega) (v :: done)
    have htext : a.toList ++ ((", " ++ (a' ++ b')).toList ++ ']' :: more) =
        a.toList ++ ',' :: ' ' :: (a'.toList ++ (b'.toList ++ ']' :: more)) := by
      simp
    rw [htext, itemsFrom, hv]
    simp only [hcomma, hblank, hw.opens.skip_append, hnext]
    simp

/-- Members are read from one of them on as they were written. -/
theorem membersFrom_written {depth : Nat} {rest : List (String × Value)}
    (hrest : ∀ f ∈ rest, Back depth f.2) (key : String) {v : Value} {a b : String}
    (ha : ReadAs depth v a) (hb : together (fieldPieces false rest) = .ok b) {fuel : Nat}
    (hfuel : a.toList.length + b.toList.length < fuel) (done : List (String × Value))
    (more : List Char) :
    membersFrom depth fuel done
        ((text key).toList ++ ':' :: ' ' :: (a.toList ++ (b.toList ++ '\x7d' :: more))) =
      .ok (Value.objectOf (done ++ (key, v) :: rest), more) := by
  induction rest generalizing key v a b fuel done with
  | nil =>
    obtain rfl : b = "" := (Except.ok.inj hb).symm
    obtain ⟨fuel, rfl⟩ : ∃ k, fuel = k + 1 := ⟨fuel - 1, by omega⟩
    refine membersFrom_last (ha.opens.skip_append _) ?_
    exact ha.read fuel ('\x7d' :: more) (by simp at hfuel; omega)
      (ends_cons (by decide) (by decide) (by decide) (by decide) _)
  | cons f rest ih =>
    obtain ⟨t, htail, rfl⟩ := together_cons hb
    obtain ⟨u, hu, rfl⟩ := together_cons htail
    obtain ⟨w, hw, rfl⟩ := together_cons hu
    obtain ⟨a', b', ha', hb', rfl⟩ := together_append hw
    have hf : ReadAs depth f.2 a' := hrest f List.mem_cons_self a' ha'
    obtain ⟨fuel, rfl⟩ : ∃ k, fuel = k + 1 := ⟨fuel - 1, by omega⟩
    simp only [String.toList_append, List.length_append] at hfuel
    have hlength : ", ".toList.length = 2 := rfl
    set next := (text f.1).toList ++ ':' :: ' ' :: (a'.toList ++ (b'.toList ++ '\x7d' :: more))
      with hnext
    have hv := ha.read fuel (',' :: ' ' :: next) (by omega)
      (ends_cons (by decide) (by decide) (by decide) (by decide) _)
    have htext : a.toList ++ ((", " ++ (text f.1 ++ (": " ++ (a' ++ b')))).toList ++
        '\x7d' :: more) = a.toList ++ ',' :: ' ' :: next := by
      simp [hnext]
    have htail := ih (fun g hg => hrest g (List.mem_cons_of_mem _ hg)) f.1 hf hb'
      (show a'.toList.length + b'.toList.length < fuel by omega) (done ++ [(key, v)])
    rw [htext, membersFrom_next (ha.opens.skip_append _) hv ((opens_text f.1).skip_append _),
      htail, List.append_assoc]
    rfl

theorem setField_of_notMem {fields : List (String × Value)} {key : String}
    (h : key ∉ fields.map (·.1)) (v : Value) :
    Value.setField fields key v = fields ++ [(key, v)] := by
  induction fields with
  | nil => rfl
  | cons f rest ih =>
    rw [List.map_cons, List.mem_cons, not_or] at h
    rw [Value.setField, if_neg (Ne.symm h.1), ih h.2, List.cons_append]

/-- Fields of different names make an object of just these fields. -/
theorem objectOf_of_nodup {fields : List (String × Value)} (h : (fields.map (·.1)).Nodup) :
    Value.objectOf fields = .object fields := by
  have hfold : ∀ (rest done : List (String × Value)), ((done ++ rest).map (·.1)).Nodup →
      rest.foldl (fun acc f => Value.setField acc f.1 f.2) done = done ++ rest := by
    intro rest
    induction rest with
    | nil => simp
    | cons f rest ih =>
      intro done hnodup
      have hnew : f.1 ∉ done.map (·.1) := by
        rw [List.map_append, List.nodup_append] at hnodup
        exact fun hmem => hnodup.2.2 f.1 hmem f.1 (by simp) rfl
      have hsame : done ++ [(f.1, f.2)] ++ rest = done ++ f :: rest := by simp
      rw [List.foldl_cons, setField_of_notMem hnew, ih _ (by rwa [hsame]), hsame]
  rw [Value.objectOf, hfold fields [] h, List.nil_append]

theorem valueFrom_list (depth fuel : Nat) {cs : List Char} (h : Opens cs) (more : List Char) :
    valueFrom (depth + 1) (fuel + 1) ('[' :: (cs ++ more)) =
      itemsFrom depth fuel [] (cs ++ more) := by
  obtain ⟨c, rest, rfl, hblank, hclose⟩ := h
  have hskip : skip (c :: (rest ++ more)) = c :: (rest ++ more) := skip_cons hblank _
  simp [valueFrom, hskip, hclose]

theorem toList_bracketed (opening closing : String) (inner : String) (rest : List Char) :
    (opening ++ (inner ++ closing)).toList ++ rest =
      opening.toList ++ (inner.toList ++ (closing.toList ++ rest)) := by
  simp

/-- A list is read as its items are. -/
theorem back_list {depth : Nat} {items : List Value} (h : ∀ v ∈ items, Back depth v) :
    Back (depth + 1) (.list items) := by
  intro s hs
  obtain ⟨t, ht, rfl⟩ := together_cons hs
  obtain ⟨inner, closing, hinner, hclosing, rfl⟩ := together_append ht
  obtain rfl := together_single hclosing
  refine ⟨⟨'[', inner.toList ++ [']'], by simp, by decide, by decide⟩, fun fuel rest hfuel _ => ?_⟩
  simp only [String.toList_append, List.length_append] at hfuel
  have hbracket : "[".toList.length = 1 ∧ "]".toList.length = 1 := ⟨rfl, rfl⟩
  obtain ⟨fuel, rfl⟩ : ∃ k, fuel = k + 1 := ⟨fuel - 1, by omega⟩
  rw [toList_bracketed]
  cases items with
  | nil =>
    obtain rfl : inner = "" := (Except.ok.inj hinner).symm
    simp [valueFrom, skip_cons (show isBlank ']' = false by decide)]
  | cons v items =>
    obtain ⟨a, b, ha, hb, rfl⟩ := together_append hinner
    have hv : ReadAs depth v a := h v List.mem_cons_self a ha
    simp only [String.toList_append, List.length_append] at hfuel
    have hread := itemsFrom_written (fun w hw => h w (List.mem_cons_of_mem _ hw)) hv hb
      (show a.toList.length + b.toList.length < fuel by omega) [] rest
    have htext : (a ++ b).toList ++ ("]".toList ++ rest) =
        a.toList ++ (b.toList ++ ']' :: rest) := by
      simp
    rw [htext]
    exact (valueFrom_list depth fuel hv.opens _).trans hread

/-- An object of fields with different names is read as its members are. -/
theorem back_object {depth : Nat} {fields : List (String × Value)}
    (hnames : (fields.map (·.1)).Nodup) (h : ∀ f ∈ fields, Back depth f.2) :
    Back (depth + 1) (.object fields) := by
  intro s hs
  obtain ⟨t, ht, rfl⟩ := together_cons hs
  obtain ⟨inner, closing, hinner, hclosing, rfl⟩ := together_append ht
  obtain rfl := together_single hclosing
  refine ⟨⟨'\x7b', inner.toList ++ ['\x7d'], by simp, by decide, by decide⟩,
    fun fuel rest hfuel _ => ?_⟩
  simp only [String.toList_append, List.length_append] at hfuel
  have hbrace : "\x7b".toList.length = 1 ∧ "\x7d".toList.length = 1 := ⟨rfl, rfl⟩
  obtain ⟨fuel, rfl⟩ : ∃ k, fuel = k + 1 := ⟨fuel - 1, by omega⟩
  rw [toList_bracketed]
  cases fields with
  | nil =>
    obtain rfl : inner = "" := (Except.ok.inj hinner).symm
    simp [valueFrom, skip_cons (show isBlank '\x7d' = false by decide)]
  | cons f fields =>
    obtain ⟨u, hu, rfl⟩ := together_cons hinner
    obtain ⟨w, hw, rfl⟩ := together_cons hu
    obtain ⟨a, b, ha, hb, rfl⟩ := together_append hw
    have hf : ReadAs depth f.2 a := h f List.mem_cons_self a ha
    simp only [String.toList_append, List.length_append] at hfuel
    have hread := membersFrom_written (fun g hg => h g (List.mem_cons_of_mem _ hg)) f.1 hf hb
      (show a.toList.length + b.toList.length < fuel by omega) [] rest
    rw [List.nil_append, objectOf_of_nodup hnames] at hread
    have htext : (text f.1 ++ (": " ++ (a ++ b))).toList ++ ("\x7d".toList ++ rest) =
        (text f.1).toList ++ ':' :: ' ' :: (a.toList ++ (b.toList ++ '\x7d' :: rest)) := by
      simp
    rw [htext]
    exact (valueFrom_object depth fuel f.1 _).trans hread

/-- The reader takes back what is written for a tellable value, whatever follows. -/
theorem Tellable.back {depth : Nat} {v : Value} (h : Tellable depth v) : Back depth v := by
  induction h with
  | null =>
    intro s hs
    obtain rfl := together_single hs
    exact .of_succ ⟨'n', _, rfl, by decide, by decide⟩ fun fuel rest _ => by simp [valueFrom]
  | bool b =>
    intro s hs
    obtain rfl := together_single hs
    refine .of_succ ?_ fun fuel rest _ => valueFrom_bool _ fuel b rest
    cases b
    · exact ⟨'f', _, rfl, by decide, by decide⟩
    · exact ⟨'t', _, rfl, by decide, by decide⟩
  | int hn =>
    intro s hs
    rw [write, pieces, if_pos hn] at hs
    obtain rfl := together_single hs
    exact .of_succ (opens_decimal _) fun fuel rest hrest => valueFrom_decimal _ fuel hn hrest
  | text t =>
    intro s hs
    obtain rfl := together_single hs
    exact .of_succ (opens_text t) fun fuel rest _ => valueFrom_text _ fuel t rest
  | list _ ih => exact back_list ih
  | object hnames _ ih => exact back_object hnames ih

/-- The reader takes back every tellable value that was written. -/
theorem read_write {v : Value} {s : String} (h : Tellable maxDepth v) (hs : write v = .ok s) :
    read s = .ok v := by
  have hback := h.back s hs
  have hread := hback.read (2 * s.toList.length + 2) [] (by omega) ends_nil
  have hskip := hback.opens.skip_append []
  rw [List.append_nil] at hread hskip
  unfold read
  simp only [hskip, hread]
  rfl

/-- Tellable values that are written alike are the same. -/
theorem write_inj {v w : Value} {s : String} (hv : Tellable maxDepth v) (hw : Tellable maxDepth w)
    (hvs : write v = .ok s) (hws : write w = .ok s) : v = w :=
  Except.ok.inj ((read_write hv hvs).symm.trans (read_write hw hws))

end ChainIndexer.Json
