import ChainIndexer.Proofs.Evm.WellFormed
import ChainIndexer.Proofs.Trim

/-!
Which texts are taken for the address of a contract. A text names an address if 40 hexadecimal
digits are left of it without blanks, quotes and `0x`. Such a text and no other gives its digits in
lower case, which name the same address again, with one exception: 39 digits and a line break, which
quotes keep from being trimmed, are let through as they stand. What comes out then is no address,
and it is refused if it is put in again (`contractAddress_normalizes_iff`).
-/

namespace ChainIndexer.Evm

/-- A hexadecimal digit of either case. -/
def IsHexDigit (c : Char) : Prop :=
  ('0' ≤ c ∧ c ≤ '9') ∨ ('a' ≤ c ∧ c ≤ 'f') ∨ ('A' ≤ c ∧ c ≤ 'F')

instance (c : Char) : Decidable (IsHexDigit c) :=
  inferInstanceAs (Decidable (_ ∨ _ ∨ _))

/-- What is left of a text without the blanks around it, then without the double quotes and then
without the single quotes. -/
def Bare (s : String) (core : List Char) : Prop :=
  ∃ a b, Text.Trimmed Text.isBlank s.toList a ∧ Text.Trimmed (· == '"') a b ∧
    Text.Trimmed (· == '\'') b core

/-- A text shows some characters, with or without `0x` in front of them. -/
def Shows (s : String) (rest : List Char) : Prop :=
  ∃ core, Bare s core ∧ (core = rest ∨ core = '0' :: 'x' :: rest ∨ core = '0' :: 'X' :: rest)

/-- A text shows the 40 digits of an address. -/
def Spells (s : String) (digits : List Char) : Prop :=
  Shows s digits ∧ digits.length = 40 ∧ ∀ c ∈ digits, IsHexDigit c

/-- A text shows 39 digits and a line break. -/
def BrokenOff (s : String) (digits : List Char) : Prop :=
  Shows s (digits ++ ['\n']) ∧ digits.length = 39 ∧ ∀ c ∈ digits, IsHexDigit c

/-- Characters in lower case behind `0x`. -/
def lowered (cs : List Char) : String :=
  String.ofList ('0' :: 'x' :: cs.map Char.toLower)

/-- A text is refused as a bad value or gives an address, which stays as it is if it is put in
again; and it gives one just if it names one, with its digits in lower case. -/
structure Normalizes (s : String) : Prop where
  refused : ∀ e, contractAddress (.text s) = .error e → e.kind = .badValue
  shape : ∀ a, contractAddress (.text s) = .ok a → IsAddressText a
  stable : ∀ a, contractAddress (.text s) = .ok a → contractAddress (.text a) = .ok a
  accepted : ∀ a, contractAddress (.text s) = .ok a ↔ ∃ digits, Spells s digits ∧ a = lowered digits

/-! ### Hexadecimal digits -/

/-- What holds of the hexadecimal digits among the ASCII characters holds of all of them. -/
theorem IsHexDigit.of_ascii {P : Char → Prop} {c : Char} (h : IsHexDigit c)
    (hascii : ∀ n < 128, IsHexDigit (Char.ofNat n) → P (Char.ofNat n)) : P c := by
  have hle : c.toNat ≤ 'f'.toNat := by
    obtain ⟨-, h⟩ | ⟨-, h⟩ | ⟨-, h⟩ := h
    · exact Nat.le_trans (show c.toNat ≤ '9'.toNat from h) (by decide)
    · exact h
    · exact Nat.le_trans (show c.toNat ≤ 'F'.toNat from h) (by decide)
  have hcode := hascii c.toNat (Nat.lt_of_le_of_lt hle (by decide))
  rw [Char.ofNat_toNat] at hcode
  exact hcode h

/-- A hexadecimal digit is neither a blank nor a quote nor the letter of a mark. -/
theorem IsHexDigit.plain {c : Char} (h : IsHexDigit c) :
    Text.isBlank c = false ∧ c ≠ '"' ∧ c ≠ '\'' ∧ c ≠ 'x' ∧ c ≠ 'X' :=
  h.of_ascii (P := fun c => Text.isBlank c = false ∧ c ≠ '"' ∧ c ≠ '\'' ∧ c ≠ 'x' ∧ c ≠ 'X')
    (by decide)

theorem IsHexDigit.toLower {c : Char} (h : IsHexDigit c) :
    (('0' ≤ c.toLower ∧ c.toLower ≤ '9') ∨ ('a' ≤ c.toLower ∧ c.toLower ≤ 'f')) ∧
      c.toLower.toLower = c.toLower :=
  h.of_ascii (P := fun c => (('0' ≤ c.toLower ∧ c.toLower ≤ '9') ∨
    ('a' ≤ c.toLower ∧ c.toLower ≤ 'f')) ∧ c.toLower.toLower = c.toLower) (by decide)

theorem isHexDigit_toLower {c : Char} (h : IsHexDigit c) : IsHexDigit c.toLower := by
  obtain ⟨h | h, -⟩ := h.toLower
  · exact Or.inl h
  · exact Or.inr (Or.inl h)

theorem hexDigit?_isSome_iff {c : Char} : (Text.hexDigit? c).isSome = true ↔ IsHexDigit c := by
  unfold Text.hexDigit? IsHexDigit
  split <;> [simp_all; split <;> [simp_all; split <;> simp_all]]

/-- A line of hexadecimal digits is one or more of them, and perhaps a line break. -/
theorem isHexLine_iff {cs : List Char} : isHexLine cs = true ↔
    ∃ digits, digits ≠ [] ∧ (∀ c ∈ digits, IsHexDigit c) ∧
      (cs = digits ∨ cs = digits ++ ['\n']) := by
  have hbreak : (Text.hexDigit? '\n').isSome = false := by decide
  simp only [isHexLine, Bool.and_eq_true, Bool.or_eq_true, Bool.not_eq_true',
    List.isEmpty_eq_false_iff, List.isEmpty_iff, beq_iff_eq]
  constructor
  · rintro ⟨hne, hrest⟩
    refine ⟨_, hne, fun c hc => ?_, ?_⟩
    · exact hexDigit?_isSome_iff.mp
        (List.mem_takeWhile_imp (p := fun c => (Text.hexDigit? c).isSome) hc)
    have hsplit :=
      List.takeWhile_append_dropWhile (p := fun c => (Text.hexDigit? c).isSome) (l := cs)
    rcases hrest with hrest | hrest
    · rw [hrest, List.append_nil] at hsplit
      exact Or.inl hsplit.symm
    · rw [hrest] at hsplit
      exact Or.inr hsplit.symm
  · rintro ⟨digits, hne, hdigits, hcs⟩
    have hall : ∀ c ∈ digits, (Text.hexDigit? c).isSome = true := fun c hc =>
      hexDigit?_isSome_iff.mpr (hdigits c hc)
    rcases hcs with rfl | rfl
    · rw [List.takeWhile_eq_self_iff.mpr hall, List.dropWhile_eq_nil_iff.mpr hall]
      exact ⟨hne, Or.inl rfl⟩
    · rw [List.takeWhile_append_of_pos hall, List.dropWhile_append_of_pos hall,
        List.takeWhile_cons_of_neg (by simp [hbreak]),
        List.dropWhile_cons_of_neg (by simp [hbreak])]
      exact ⟨by simpa using hne, Or.inr rfl⟩

/-! ### What a text shows -/

theorem bare_iff {s : String} {core : List Char} : Bare s core ↔ unquote s.toList = core := by
  constructor
  · rintro ⟨a, b, ha, hb, hcore⟩
    rw [unquote, ha.trim_eq, hb.trim_eq, hcore.trim_eq]
  · rintro rfl
    exact ⟨_, _, Text.trimmed_trim _ _, Text.trimmed_trim _ _, Text.trimmed_trim _ _⟩

/-- Characters that do not look like a mark are what is left without it. -/
theorem dropMark_eq_self {c d : Char} (rest : List Char) (hd : d ≠ 'x' ∧ d ≠ 'X') :
    Hex.dropMark (c :: d :: rest) = c :: d :: rest := by
  unfold Hex.dropMark
  split <;> simp_all

/-- A text shows what is left of it without a mark. -/
theorem shows_dropMark (s : String) : Shows s (Hex.dropMark (unquote s.toList)) := by
  refine ⟨_, bare_iff.mpr rfl, ?_⟩
  unfold Hex.dropMark
  split <;> simp_all

/-- A row that begins with two digits is what is left of a text without a mark if the text shows
it. -/
theorem Shows.dropMark_eq {s : String} {digits rest : List Char} (h : Shows s (digits ++ rest))
    (hdigits : ∀ c ∈ digits, IsHexDigit c) (htwo : 2 ≤ digits.length) :
    Hex.dropMark (unquote s.toList) = digits ++ rest := by
  obtain ⟨core, hbare, hcore⟩ := h
  rw [bare_iff.mp hbare]
  match digits, htwo with
  | c :: d :: more, _ =>
    obtain ⟨-, -, -, hx, hX⟩ := (hdigits d (by simp)).plain
    rcases hcore with rfl | rfl | rfl
    · exact dropMark_eq_self _ ⟨hx, hX⟩
    · rfl
    · rfl

/-- Digits behind `0x`, and blanks behind the digits, show the digits. -/
theorem shows_marked {digits : List Char} (blanks : List Char)
    (hdigits : ∀ c ∈ digits, IsHexDigit c) (hblanks : ∀ c ∈ blanks, Text.isBlank c = true) :
    Shows (String.ofList ('0' :: 'x' :: digits ++ blanks)) digits := by
  have hplain : ∀ c ∈ '0' :: 'x' :: digits,
      Text.isBlank c = false ∧ (c == '"') = false ∧ (c == '\'') = false := by
    intro c hc
    rw [List.mem_cons, List.mem_cons] at hc
    rcases hc with rfl | rfl | hc
    · decide
    · decide
    · obtain ⟨hblank, hdouble, hsingle, -⟩ := (hdigits c hc).plain
      exact ⟨hblank, beq_eq_false_iff_ne.mpr hdouble, beq_eq_false_iff_ne.mpr hsingle⟩
  refine ⟨'0' :: 'x' :: digits, ⟨'0' :: 'x' :: digits, '0' :: 'x' :: digits, ?_, ?_, ?_⟩,
    Or.inr (Or.inl rfl)⟩
  · rw [String.toList_ofList]
    exact .of_plain blanks (fun c hc => (hplain c hc).1) hblanks
  · simpa using Text.Trimmed.of_plain [] (fun c hc => (hplain c hc).2.1) (by simp)
  · simpa using Text.Trimmed.of_plain [] (fun c hc => (hplain c hc).2.2) (by simp)

/-! ### What is accepted -/

theorem contractAddress_text (s : String) : contractAddress (.text s) =
    if s = "" then .error .contractEmpty
    else if (Hex.dropMark (unquote s.toList)).length ≠ 40 ∨
        isHexLine (Hex.dropMark (unquote s.toList)) = false then
      .error (.contractInvalid (.text s))
    else .ok (lowered (Hex.dropMark (unquote s.toList))) := by
  simp only [contractAddress, Value.truthy, Value.shown, lowered, Bool.not_not, String.isEmpty_iff]
  rfl

/-- A text is refused as a bad value only. -/
theorem kind_of_contractAddress_error {s : String} {e : Failure}
    (h : contractAddress (.text s) = .error e) : e.kind = .badValue := by
  rw [contractAddress_text] at h
  split at h
  · cases h
    rfl
  split at h
  · cases h
    rfl
  · cases h

/-- Forty characters that a text shows come out in lower case if they are a line of digits. -/
theorem contractAddress_of_shows {s : String} {digits rest : List Char}
    (h : Shows s (digits ++ rest)) (hdigits : ∀ c ∈ digits, IsHexDigit c) (htwo : 2 ≤ digits.length)
    (hlength : (digits ++ rest).length = 40) (hline : isHexLine (digits ++ rest) = true) :
    contractAddress (.text s) = .ok (lowered (digits ++ rest)) := by
  have hleft := h.dropMark_eq hdigits htwo
  have hne : s ≠ "" := by
    rintro rfl
    -- nothing is left of no text
    have hnil : digits ++ rest = [] := hleft.symm
    rw [hnil] at hlength
    cases hlength
  rw [contractAddress_text, if_neg hne, hleft, if_neg (by simp only [hline, hlength]; decide)]

/-- A text is accepted just if it names an address or shows 39 digits and a line break. -/
theorem contractAddress_ok_iff {s a : String} : contractAddress (.text s) = .ok a ↔
    ∃ digits, (Spells s digits ∧ a = lowered digits) ∨
      (BrokenOff s digits ∧ a = lowered (digits ++ ['\n'])) := by
  constructor
  · intro h
    rw [contractAddress_text] at h
    split at h
    · cases h
    split at h
    · cases h
    rename_i hline
    obtain ⟨hlength, hline⟩ : (Hex.dropMark (unquote s.toList)).length = 40 ∧
        isHexLine (Hex.dropMark (unquote s.toList)) = true := by
      simpa using hline
    obtain rfl := Except.ok.inj h
    obtain ⟨digits, -, hdigits, hcs⟩ := isHexLine_iff.mp hline
    have hshows := shows_dropMark s
    refine ⟨digits, hcs.imp (fun hcs => ?_) fun hcs => ?_⟩
    · rw [hcs] at hshows hlength ⊢
      exact ⟨⟨hshows, hlength, hdigits⟩, rfl⟩
    · rw [hcs] at hshows hlength ⊢
      exact ⟨⟨hshows, by simpa using hlength, hdigits⟩, rfl⟩
  · rintro ⟨digits, ⟨⟨hshows, hlength, hdigits⟩, rfl⟩ | ⟨⟨hshows, hlength, hdigits⟩, rfl⟩⟩
    · rw [← List.append_nil digits] at hshows ⊢
      have hne : digits ≠ [] := List.ne_nil_of_length_eq_add_one hlength
      refine contractAddress_of_shows hshows hdigits (by omega) (by simpa using hlength) ?_
      exact isHexLine_iff.mpr ⟨digits, hne, hdigits, Or.inl (List.append_nil _)⟩
    · have hne : digits ≠ [] := List.ne_nil_of_length_eq_add_one hlength
      refine contractAddress_of_shows hshows hdigits (by omega) (by simp [hlength]) ?_
      exact isHexLine_iff.mpr ⟨digits, hne, hdigits, Or.inr rfl⟩

theorem isAddressText_lowered {digits : List Char} (hlength : digits.length = 40)
    (hdigits : ∀ c ∈ digits, IsHexDigit c) : IsAddressText (lowered digits) := by
  refine ⟨digits.map Char.toLower, String.toList_ofList, by rw [List.length_map, hlength],
    fun c hc => ?_⟩
  obtain ⟨d, hd, rfl⟩ := List.mem_map.mp hc
  exact (hdigits d hd).toLower.1

theorem mem_map_toLower {digits : List Char} (hdigits : ∀ c ∈ digits, IsHexDigit c) :
    ∀ c ∈ digits.map Char.toLower, IsHexDigit c := by
  intro c hc
  obtain ⟨d, hd, rfl⟩ := List.mem_map.mp hc
  exact isHexDigit_toLower (hdigits d hd)

/-- What comes out for digits shows the digits in lower case. -/
theorem shows_lowered {digits : List Char} (blanks : List Char)
    (hdigits : ∀ c ∈ digits, IsHexDigit c)
    (hblanks : ∀ c ∈ blanks.map Char.toLower, Text.isBlank c = true) :
    Shows (lowered (digits ++ blanks)) (digits.map Char.toLower) := by
  have hshows := shows_marked _ (mem_map_toLower hdigits) hblanks
  rwa [List.cons_append, List.cons_append, ← List.map_append] at hshows

/-- An address that comes out names itself. -/
theorem contractAddress_lowered {digits : List Char} (hlength : digits.length = 40)
    (hdigits : ∀ c ∈ digits, IsHexDigit c) :
    contractAddress (.text (lowered digits)) = .ok (lowered digits) := by
  refine contractAddress_ok_iff.mpr ⟨digits.map Char.toLower, Or.inl ⟨⟨?_, ?_, ?_⟩, ?_⟩⟩
  · have hshows := shows_lowered [] hdigits (by simp)
    rwa [List.append_nil] at hshows
  · rw [List.length_map, hlength]
  · exact mem_map_toLower hdigits
  · have htwice : digits.map (Char.toLower ∘ Char.toLower) = digits.map Char.toLower :=
      List.map_congr_left fun c hc => (hdigits c hc).toLower.2
    rw [lowered, lowered, List.map_map, htwice]

/-- What comes out for 39 digits and a line break is refused. -/
theorem contractAddress_brokenOff {digits : List Char} (hlength : digits.length = 39)
    (hdigits : ∀ c ∈ digits, IsHexDigit c) :
    contractAddress (.text (lowered (digits ++ ['\n']))) =
      .error (.contractInvalid (.text (lowered (digits ++ ['\n'])))) := by
  have hbreak : ∀ c ∈ ['\n'].map Char.toLower, Text.isBlank c = true := by
    intro c hc
    rw [List.mem_singleton.mp hc]
    decide
  have hshows := shows_lowered ['\n'] hdigits hbreak
  have hlower := mem_map_toLower hdigits
  have hshort : (digits.map Char.toLower).length = 39 := by rw [List.length_map, hlength]
  rw [← List.append_nil (digits.map _)] at hshows
  have hleft := hshows.dropMark_eq hlower (by omega)
  rw [contractAddress_text, if_neg (by simp [lowered]), hleft,
    if_pos (Or.inl (by simp [hlength]))]

/-- The address of a contract comes out of a text as it should unless 39 digits and a line break are
left of the text, which are let through, and what comes out is refused if it is put in again. -/
theorem contractAddress_normalizes_iff (s : String) :
    (∀ digits, BrokenOff s digits →
      contractAddress (.text s) = .ok (lowered (digits ++ ['\n'])) ∧
        contractAddress (.text (lowered (digits ++ ['\n']))) =
          .error (.contractInvalid (.text (lowered (digits ++ ['\n']))))) ∧
      (Normalizes s ↔ ∀ digits, ¬BrokenOff s digits) := by
  have hbroken : ∀ digits, BrokenOff s digits →
      contractAddress (.text s) = .ok (lowered (digits ++ ['\n'])) ∧
        contractAddress (.text (lowered (digits ++ ['\n']))) =
          .error (.contractInvalid (.text (lowered (digits ++ ['\n'])))) := fun digits h =>
    ⟨contractAddress_ok_iff.mpr ⟨digits, Or.inr ⟨h, rfl⟩⟩, contractAddress_brokenOff h.2.1 h.2.2⟩
  refine ⟨hbroken, fun normal digits h => ?_, fun hnone => ?_⟩
  · obtain ⟨hok, hrefused⟩ := hbroken digits h
    have hstable := normal.stable _ hok
    rw [hrefused] at hstable
    cases hstable
  · have haccepted : ∀ a, contractAddress (.text s) = .ok a ↔
        ∃ digits, Spells s digits ∧ a = lowered digits := by
      intro a
      refine contractAddress_ok_iff.trans (exists_congr fun digits => ?_)
      exact or_iff_left fun h => hnone digits h.1
    refine ⟨fun e => kind_of_contractAddress_error, fun a ha => ?_, fun a ha => ?_, haccepted⟩
    · obtain ⟨digits, ⟨-, hlength, hdigits⟩, rfl⟩ := (haccepted a).mp ha
      exact isAddressText_lowered hlength hdigits
    · obtain ⟨digits, ⟨-, hlength, hdigits⟩, rfl⟩ := (haccepted a).mp ha
      exact contractAddress_lowered hlength hdigits

/-- Thirty-nine digits and a line break between double quotes come out as they stand. -/
theorem brokenLine_not_normalizes :
    contractAddress (.text "\"0xaaaaaaaaaaaaaaaaaaaaaaaaaaaaaaaaaaaaaaa\n\"") =
        .ok "0xaaaaaaaaaaaaaaaaaaaaaaaaaaaaaaaaaaaaaaa\n" ∧
      ¬Normalizes "\"0xaaaaaaaaaaaaaaaaaaaaaaaaaaaaaaaaaaaaaaa\n\"" := by
  have hbroken : BrokenOff "\"0xaaaaaaaaaaaaaaaaaaaaaaaaaaaaaaaaaaaaaaa\n\""
      (List.replicate 39 'a') := by
    refine ⟨⟨_, bare_iff.mpr rfl, Or.inr (Or.inl (by decide))⟩, rfl, fun c hc => ?_⟩
    rw [List.eq_of_mem_replicate hc]
    decide
  obtain ⟨hthrough, hiff⟩ :=
    contractAddress_normalizes_iff "\"0xaaaaaaaaaaaaaaaaaaaaaaaaaaaaaaaaaaaaaaa\n\""
  exact ⟨(hthrough _ hbroken).1, fun h => hiff.mp h _ hbroken⟩

end ChainIndexer.Evm
