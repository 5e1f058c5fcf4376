import ChainIndexer.Json.Printer
import ChainIndexer.Json.Reader
import ChainIndexer.Proofs.Numeral
import Mathlib.Tactic.SplitIfs

/-!
Texts and whole numbers that are written as JSON and read back. A written character is read as its
code units, one or a pair of surrogates, and code units that come from characters are joined to the
same characters again; so the reader takes back every text. A whole number that is short enough to
be written is taken back as well, in front of anything that does not go on with the number. Numbers
with a fraction or an exponent are not treated here.
-/

namespace ChainIndexer.Json

/-- The code units of a character. -/
def unitsOf (c : Char) : List Nat :=
  if c.toNat < 0x10000 then [c.toNat]
  else [0xD800 + (c.toNat - 0x10000) / 0x400, 0xDC00 + (c.toNat - 0x10000) % 0x400]

/-- Puts code units in front of what has been read. -/
def consUnits (us : List Nat) (r : Except Fault (List Nat × List Char)) :
    Except Fault (List Nat × List Char) :=
  r.map fun p => (us ++ p.1, p.2)

theorem hexDigits_four (n : Nat) :
    Text.hexDigits 4 n =
      [Text.hexChar (n / 16 / 16 / 16 % 16), Text.hexChar (n / 16 / 16 % 16),
        Text.hexChar (n / 16 % 16), Text.hexChar (n % 16)] := by
  simp [Text.hexDigits]

theorem units_escapeUnit {n : Nat} (hn : n < 0x10000) (rest : List Char) :
    units (escapeUnit n ++ rest) = consUnits [n] (units rest) := by
  have first := Text.hexDigit?_hexChar (n / 16 / 16 / 16 % 16) (Nat.mod_lt _ (by decide))
  have second := Text.hexDigit?_hexChar (n / 16 / 16 % 16) (Nat.mod_lt _ (by decide))
  have third := Text.hexDigit?_hexChar (n / 16 % 16) (Nat.mod_lt _ (by decide))
  have fourth := Text.hexDigit?_hexChar (n % 16) (Nat.mod_lt _ (by decide))
  have hsum : ((n / 16 / 16 / 16 % 16 * 16 + n / 16 / 16 % 16) * 16 + n / 16 % 16) * 16 + n % 16
      = n := by omega
  unfold escapeUnit
  rw [hexDigits_four]
  simp only [List.cons_append, List.nil_append, units, unit?, first, second, third, fourth]
  simp [hsum, consUnits]

theorem units_letter {c e : Char} (hu : c ≠ 'u') (he : escape? c = some e) (rest : List Char) :
    units ('\\' :: c :: rest) = consUnits [e.toNat] (units rest) := by
  rw [units.eq_def]
  split
  case h_5 hne heq =>
    obtain ⟨rfl, rfl⟩ := List.cons.inj heq
    exact absurd rfl (hne _ _ rfl)
  all_goals simp_all [consUnits]

theorem units_plain {c : Char} (hq : c ≠ '"') (hb : c ≠ '\\') (hc : 0x20 ≤ c.toNat)
    (rest : List Char) : units (c :: rest) = consUnits [c.toNat] (units rest) := by
  rw [units.eq_def]
  split
  case h_5 heq =>
    obtain ⟨rfl, rfl⟩ := List.cons.inj heq
    rw [if_neg (by simp [hb, hc])]
    rfl
  all_goals simp_all

theorem toNat_lt (c : Char) : c.toNat < 0x110000 := by
  have h := c.valid
  simp only [UInt32.isValidChar, Nat.isValidChar] at h
  change c.val.toNat < _
  omega

theorem toNat_not_surrogate (c : Char) : ¬ (0xD800 ≤ c.toNat ∧ c.toNat < 0xE000) := by
  have h := c.valid
  simp only [UInt32.isValidChar, Nat.isValidChar] at h
  change ¬ (_ ≤ c.val.toNat ∧ c.val.toNat < _)
  omega

/-- A written character is read as its code units. -/
theorem units_escapeChar (c : Char) (rest : List Char) :
    units (escapeChar c ++ rest) = consUnits (unitsOf c) (units rest) := by
  have hlt := toNat_lt c
  have hone : ∀ d : Char, d.toNat < 0x10000 → unitsOf d = [d.toNat] := fun d hd => by
    simp [unitsOf, hd]
  unfold escapeChar
  split_ifs with hquote hback hnew hreturn htab hbackspace hfeed
  · subst hquote
    exact units_letter (by decide) rfl rest
  · subst hback
    exact units_letter (by decide) rfl rest
  · subst hnew
    exact units_letter (by decide) rfl rest
  · subst hreturn
    exact units_letter (by decide) rfl rest
  · subst htab
    exact units_letter (by decide) rfl rest
  · subst hbackspace
    exact units_letter (by decide) rfl rest
  · subst hfeed
    exact units_letter (by decide) rfl rest
  dsimp only
  split_ifs with hplain hsmall
  · rw [hone c (by omega)]
    exact units_plain hquote hback hplain.1 rest
  · rw [hone c hsmall, units_escapeUnit hsmall]
  · have hhigh : 0xD800 + (c.toNat - 0x10000) / 0x400 < 0x10000 := by omega
    have hlow : 0xDC00 + (c.toNat - 0x10000) % 0x400 < 0x10000 := by omega
    rw [List.append_assoc, units_escapeUnit hhigh, units_escapeUnit hlow]
    cases hrest : units rest with
    | error f => rfl
    | ok p => simp [consUnits, unitsOf, hsmall, Except.map]

theorem units_flatMap_escapeChar (cs : List Char) (rest : List Char) :
    units (cs.flatMap escapeChar ++ '"' :: rest) = .ok (cs.flatMap unitsOf, rest) := by
  induction cs with
  | nil => simp [units]
  | cons c cs ih =>
    rw [List.flatMap_cons, List.append_assoc, units_escapeChar, ih]
    rfl

/-- Code units that come from characters are joined to these characters. -/
theorem joinPairs_flatMap (cs : List Char) : joinPairs (cs.flatMap unitsOf) = cs := by
  induction cs with
  | nil => rfl
  | cons c cs ih =>
    have hlt := toNat_lt c
    have hnot := toNat_not_surrogate c
    have hscalar : scalar c.toNat = c := by
      simp only [scalar, if_neg hnot, Char.ofNat_toNat]
    rw [List.flatMap_cons]
    by_cases hsmall : c.toNat < 0x10000
    · rw [show unitsOf c = [c.toNat] by simp [unitsOf, hsmall]]
      cases hrest : cs.flatMap unitsOf with
      | nil =>
        rw [hrest] at ih
        simp [joinPairs, hscalar, ← ih]
      | cons u us =>
        rw [hrest] at ih
        have hpair : ¬ (0xD800 ≤ c.toNat ∧ c.toNat < 0xDC00 ∧ 0xDC00 ≤ u ∧ u < 0xE000) := by
          omega
        simp only [List.cons_append, List.nil_append, joinPairs, if_neg hpair, hscalar, ih]
    · have hpair : 0xD800 ≤ 0xD800 + (c.toNat - 0x10000) / 0x400 ∧
          0xD800 + (c.toNat - 0x10000) / 0x400 < 0xDC00 ∧
          0xDC00 ≤ 0xDC00 + (c.toNat - 0x10000) % 0x400 ∧
          0xDC00 + (c.toNat - 0x10000) % 0x400 < 0xE000 := by omega
      have hback : 0x10000 + (0xD800 + (c.toNat - 0x10000) / 0x400 - 0xD800) * 0x400 +
          (0xDC00 + (c.toNat - 0x10000) % 0x400 - 0xDC00) = c.toNat := by omega
      simp only [unitsOf, if_neg hsmall, List.cons_append, List.nil_append, joinPairs,
        if_pos hpair, hback, Char.ofNat_toNat, ih]

/-- The reader takes back a text that was written. -/
theorem textBody_escaped (s : String) (rest : List Char) :
    textBody (s.toList.flatMap escapeChar ++ '"' :: rest) = .ok (s, rest) := by
  simp [textBody, units_flatMap_escapeChar, joinPairs_flatMap, Except.map]

/-! ### Whole numbers -/

/-- Text that does not go on with a whole number. -/
def Ends (rest : List Char) : Prop :=
  ∀ c ∈ rest.head?, c.isDigit = false ∧ c ≠ '.' ∧ c ≠ 'e' ∧ c ≠ 'E'

theorem ends_nil : Ends [] := by
  simp [Ends]

theorem ends_cons {c : Char} (hdigit : c.isDigit = false) (hpoint : c ≠ '.') (he : c ≠ 'e')
    (hE : c ≠ 'E') (rest : List Char) : Ends (c :: rest) := by
  intro d hd
  obtain rfl : c = d := by simpa using hd
  exact ⟨hdigit, hpoint, he, hE⟩

/-- The whole part of a number ends where its digits end. -/
theorem wholePart_toDigits (n : Nat) {rest : List Char} (hrest : Ends rest) :
    wholePart (Nat.toDigits 10 n ++ rest) = some (Nat.toDigits 10 n, rest) := by
  rcases Nat.eq_zero_or_pos n with rfl | hpos
  · rfl
  · obtain ⟨d, ds, hds, hd⟩ := Numeral.head_toDigits_ne_zero hpos
    have hspan : Decimal.spanDigits (Nat.toDigits 10 n ++ rest) = (Nat.toDigits 10 n, rest) :=
      Numeral.spanDigits_toDigits n fun c hc => (hrest c hc).1
    rw [hds, List.cons_append] at hspan ⊢
    rw [wholePart.eq_def]
    split
    · rename_i heq
      exact absurd (List.cons.inj heq).1 hd
    · rw [hspan]

theorem spanFraction_of_ends {rest : List Char} (hrest : Ends rest) :
    Decimal.spanFraction rest = ([], rest) := by
  rw [Decimal.spanFraction.eq_def]
  split
  · exact absurd rfl (hrest '.' rfl).2.1
  · rfl

theorem spanExponent_of_ends {rest : List Char} (hrest : Ends rest) :
    Decimal.spanExponent rest = (none, rest) := by
  rw [Decimal.spanExponent.eq_def]
  split
  · exact absurd rfl (hrest 'e' rfl).2.2.1
  · exact absurd rfl (hrest 'E' rfl).2.2.2
  · rfl

/-- The reader takes back a natural number that is short enough to be written, with a sign, in front
of anything that does not go on with it. -/
theorem unsigned_toDigits (negative : Bool) {n : Nat} (hn : n < 10 ^ Numeral.maxDigits)
    {rest : List Char} (hrest : Ends rest) :
    unsigned negative (Nat.toDigits 10 n ++ rest) =
      .ok (.int (Numeral.signed negative n), rest) := by
  have hlen : ¬ Numeral.maxDigits < (Nat.toDigits 10 n).length := by
    rw [Nat.not_lt, Nat.length_toDigits_le_iff (by decide) (by decide)]
    exact hn
  simp [unsigned, wholePart_toDigits n hrest, spanFraction_of_ends hrest,
    spanExponent_of_ends hrest, hlen, Numeral.decimal_ofDigits]

theorem isDigit_of_mem_toDigits {n : Nat} {d : Char} (hd : d ∈ Nat.toDigits 10 n) :
    d.isDigit = true :=
  Nat.isDigit_of_mem_toDigits (by decide) (by decide) hd

/-- The decimal digits of a number are not empty. -/
theorem toDigits_cons (n : Nat) : ∃ d ds, Nat.toDigits 10 n = d :: ds ∧ d.isDigit = true := by
  cases hds : Nat.toDigits 10 n with
  | nil => simp at hds
  | cons d ds => exact ⟨d, ds, rfl, isDigit_of_mem_toDigits (n := n) (by simp [hds])⟩

/-- A digit opens no other kind of value. -/
theorem valueFrom_digit (depth fuel : Nat) {d : Char} (hd : d.isDigit = true) (cs : List Char) :
    valueFrom depth (fuel + 1) (d :: cs) = unsigned false (d :: cs) := by
  rw [valueFrom.eq_def]
  dsimp only
  split <;> first | rfl | (rename_i heq; obtain ⟨rfl, -⟩ := List.cons.inj heq; cases hd)

/-- A minus sign opens a number, unless an infinity follows. -/
theorem valueFrom_minus (depth fuel : Nat) {d : Char} (hd : d ≠ 'I') (cs : List Char) :
    valueFrom depth (fuel + 1) ('-' :: d :: cs) = unsigned true (d :: cs) := by
  rw [valueFrom.eq_def]
  dsimp only
  split
  case h_9 heq =>
    simp only [List.cons.injEq] at heq
    exact absurd heq.2.1 hd
  case h_10 heq => rw [(List.cons.inj heq).2]
  case h_11 hminus => exact absurd rfl (hminus _)
  all_goals rename_i heq; cases (List.cons.inj heq).1

theorem toList_decimal_natural (n : Nat) :
    (Numeral.decimal n).toList = Nat.toDigits 10 n := by
  simp [Numeral.decimal, Numeral.natural]

theorem toList_decimal_negSucc (n : Nat) :
    (Numeral.decimal (.negSucc n)).toList = '-' :: Nat.toDigits 10 (n + 1) := by
  simp [Numeral.decimal, Numeral.natural]

/-- A whole number that is short enough to be written is read as it is. -/
theorem valueFrom_decimal (depth fuel : Nat) {n : Int} (hn : Numeral.isWritable n = true)
    {rest : List Char} (hrest : Ends rest) :
    valueFrom depth (fuel + 1) ((Numeral.decimal n).toList ++ rest) = .ok (.int n, rest) := by
  have habs : n.natAbs < 10 ^ Numeral.maxDigits := by simpa [Numeral.isWritable] using hn
  cases n with
  | ofNat m =>
    have hread : unsigned false (Nat.toDigits 10 m ++ rest) = .ok (.int m, rest) :=
      unsigned_toDigits false habs hrest
    obtain ⟨d, ds, hds, hd⟩ := toDigits_cons m
    rw [hds] at hread
    rw [Int.ofNat_eq_natCast, toList_decimal_natural, hds, List.cons_append,
      valueFrom_digit depth fuel hd]
    exact hread
  | negSucc m =>
    have hread : unsigned true (Nat.toDigits 10 (m + 1) ++ rest) =
        .ok (.int (.negSucc m), rest) :=
      unsigned_toDigits true habs hrest
    obtain ⟨d, ds, hds, hd⟩ := toDigits_cons (m + 1)
    have hI : d ≠ 'I' := by
      rintro rfl
      cases hd
    rw [hds] at hread
    rw [toList_decimal_negSucc, hds, List.cons_append, List.cons_append,
      valueFrom_minus depth fuel hI]
    exact hread

/-! ### Values without parts, and members of objects -/

theorem skip_blank {c : Char} (hc : isBlank c = true) (cs : List Char) :
    skip (c :: cs) = skip cs := by
  simp [skip, hc]

theorem skip_cons {c : Char} (hc : isBlank c = false) (cs : List Char) :
    skip (c :: cs) = c :: cs := by
  simp [skip, hc]

theorem toList_text (s : String) :
    (text s).toList = '"' :: (s.toList.flatMap escapeChar ++ ['"']) := by
  simp [text]

theorem valueFrom_text (depth fuel : Nat) (s : String) (rest : List Char) :
    valueFrom depth (fuel + 1) ((text s).toList ++ rest) = .ok (.text s, rest) := by
  rw [toList_text, List.cons_append, List.append_assoc]
  simp [valueFrom, textBody_escaped, Except.map]

theorem valueFrom_bool (depth fuel : Nat) (b : Bool) (rest : List Char) :
    valueFrom depth (fuel + 1) ((if b then "true" else "false").toList ++ rest) =
      .ok (.bool b, rest) := by
  cases b
  · simp [valueFrom]
  · simp [valueFrom]

theorem valueFrom_object (depth fuel : Nat) (key : String) (rest : List Char) :
    valueFrom (depth + 1) (fuel + 1) ('\x7b' :: ((text key).toList ++ rest)) =
      membersFrom depth fuel [] ((text key).toList ++ rest) := by
  rw [toList_text]
  simp [valueFrom, skip_cons (show isBlank '"' = false by decide)]

/-- A member that is followed by another one. -/
theorem membersFrom_next {depth fuel : Nat} {done : List (String × Value)} {key : String}
    {v : Value} {cs rest : List Char} (hcs : skip cs = cs)
    (hv : valueFrom depth fuel cs = .ok (v, ',' :: ' ' :: rest)) (hrest : skip rest = rest) :
    membersFrom depth (fuel + 1) done ((text key).toList ++ ':' :: ' ' :: cs) =
      membersFrom depth fuel (done ++ [(key, v)]) rest := by
  have hcolon : skip (':' :: ' ' :: cs) = ':' :: ' ' :: cs := skip_cons (by decide) _
  have hvalue : skip (' ' :: cs) = cs := by rw [skip_blank (by decide), hcs]
  have hcomma : skip (',' :: ' ' :: rest) = ',' :: ' ' :: rest := skip_cons (by decide) _
  have hmore : skip (' ' :: rest) = rest := by rw [skip_blank (by decide), hrest]
  rw [toList_text, List.cons_append, List.append_assoc]
  simp [membersFrom, textBody_escaped, hcolon, hvalue, hv, hcomma, hmore]

/-- The last member of an object. -/
theorem membersFrom_last {depth fuel : Nat} {done : List (String × Value)} {key : String}
    {v : Value} {cs rest : List Char} (hcs : skip cs = cs)
    (hv : valueFrom depth fuel cs = .ok (v, '\x7d' :: rest)) :
    membersFrom depth (fuel + 1) done ((text key).toList ++ ':' :: ' ' :: cs) =
      .ok (Value.objectOf (done ++ [(key, v)]), rest) := by
  have hcolon : skip (':' :: ' ' :: cs) = ':' :: ' ' :: cs := skip_cons (by decide) _
  have hvalue : skip (' ' :: cs) = cs := by rw [skip_blank (by decide), hcs]
  have hclose : skip ('\x7d' :: rest) = '\x7d' :: rest := skip_cons (by decide) _
  rw [toList_text, List.cons_append, List.append_assoc]
  simp [membersFrom, textBody_escaped, hcolon, hvalue, hv, hclose]

end ChainIndexer.Json
