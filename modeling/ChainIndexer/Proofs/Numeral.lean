import ChainIndexer.Number.Decimal
import ChainIndexer.Number.Numeral

/-!
Numerals that are written and read back. The digits of a natural number in a base up to sixteen form
a row of digits that denotes it, so the hexadecimal numeral of a natural number is read as that
number, and the decimal one is what a decimal reader finds in front of anything that is no digit. A
number that was read in base ten is short enough to be written (`isWritable_of_read?`).
-/

namespace ChainIndexer.Numeral

/-- The digits of a number in a base, as numbers. -/
theorem toDigits_eq_map {b : Nat} (hb : 1 < b) (n : Nat) :
    ∃ ds : List Nat, Nat.toDigits b n = ds.map Nat.digitChar ∧ ds ≠ [] ∧ (∀ d ∈ ds, d < b) ∧
      ofDigits b ds = n := by
  induction n using Nat.base_induction b hb with
  | single m hm =>
    exact ⟨[m], by simp [Nat.toDigits_of_lt_base hm], by simp, by simpa using hm,
      by simp [ofDigits]⟩
  | digit m k hk hm ih =>
    obtain ⟨ds, hds, _, hlt, hval⟩ := ih
    refine ⟨ds ++ [k], ?_, by simp, ?_, ?_⟩
    · rw [← Nat.toDigits_append_toDigits hb hm hk, hds, Nat.toDigits_of_lt_base hk]
      simp
    · intro d hd
      rcases List.mem_append.mp hd with hd | hd
      · exact hlt d hd
      · simpa [List.mem_singleton.mp hd] using hk
    · simp only [ofDigits, List.foldl_append, List.foldl_cons, List.foldl_nil] at hval ⊢
      rw [hval, Nat.mul_comm]

theorem alphanumeric?_digitChar :
    ∀ d < 16, Text.alphanumeric? (Nat.digitChar d) = some d := by
  decide

theorem digitChar_ne_underscore : ∀ d < 16, Nat.digitChar d ≠ '_' := by
  decide

theorem not_isSpace_digitChar : ∀ d < 16, Text.isSpace (Nat.digitChar d) = false := by
  decide

theorem digitRow?_map {b : Nat} (hb : b ≤ 16) {ds : List Nat} (hne : ds ≠ [])
    (hlt : ∀ d ∈ ds, d < b) : digitRow? b (ds.map Nat.digitChar) = some ds := by
  induction ds with
  | nil => exact absurd rfl hne
  | cons d rest ih =>
    have hd : d < b := hlt d (by simp)
    cases rest with
    | nil => simp [digitRow?, alphanumeric?_digitChar d (by omega), Nat.not_le.mpr hd]
    | cons e more =>
      have he : e < b := hlt e (by simp)
      have ih := ih (by simp) fun x hx => hlt x (by simp [hx])
      have hnext := digitChar_ne_underscore e (by omega)
      rw [List.map_cons] at ih
      simp [digitRow?, alphanumeric?_digitChar d (by omega), Nat.not_le.mpr hd, ih]

theorem trim_eq_self {p : Char → Bool} {c : Char} {cs : List Char} (hc : p c = false)
    (hlast : ∀ x ∈ (c :: cs).getLast?, p x = false) : Text.trim p (c :: cs) = c :: cs := by
  have hdrop : (c :: cs).dropWhile p = c :: cs := by simp [hc]
  unfold Text.trim Text.dropTrailing
  rw [hdrop]
  cases hrev : (c :: cs).reverse with
  | nil => simp at hrev
  | cons x xs =>
    have hx : p x = false := by
      apply hlast x
      rw [← List.head?_reverse, hrev]
      rfl
    rw [List.dropWhile_cons_of_neg (by simp [hx]), ← hrev, List.reverse_reverse]

/-- The hexadecimal numeral of a natural number denotes it. -/
theorem read?_hexadecimal (n : Nat) : read? 16 (hexadecimal n) = some (n : Int) := by
  obtain ⟨ds, hds, hne, hlt, hval⟩ := toDigits_eq_map (by decide : 1 < 16) n
  have htext : (hexadecimal n).toList = '0' :: 'x' :: ds.map Nat.digitChar := by
    rw [← hds]
    simp [hexadecimal]
  have htrim : Text.trim Text.isSpace ('0' :: 'x' :: ds.map Nat.digitChar) =
      '0' :: 'x' :: ds.map Nat.digitChar := by
    refine trim_eq_self (by decide) fun x hx => ?_
    have hmem : x ∈ ds.map Nat.digitChar := by
      have hlast := hx
      rw [List.getLast?_cons_cons, List.getLast?_cons_of_ne_nil (by simpa using hne)] at hlast
      exact List.mem_of_getLast? hlast
    obtain ⟨d, hd, rfl⟩ := List.mem_map.mp hmem
    exact not_isSpace_digitChar d (hlt d hd)
  have hmark : dropMark 16 ('0' :: 'x' :: ds.map Nat.digitChar) = ds.map Nat.digitChar := by
    cases ds with
    | nil => exact absurd rfl hne
    | cons d rest =>
      have hd := digitChar_ne_underscore d (hlt d (by simp))
      have hzero : Text.digit? '0' = some 0 := Text.digit?_digitChar 0 (by decide)
      simp [dropMark, baseLetter?, hzero]
  simp [read?, htext, htrim, splitSign, hmark, digitRow?_map (by decide) hne hlt, hval, signed]

/-- Different whole numbers have different hexadecimal numerals. -/
theorem hexadecimal_inj {a b : Int} (h : hexadecimal a = hexadecimal b) : a = b := by
  have hnatural : ∀ m n : Nat, hexadecimal m = hexadecimal n → m = n := by
    intro m n hmn
    have hread := read?_hexadecimal m
    rw [hmn, read?_hexadecimal] at hread
    exact (Int.ofNat_inj.mp (Option.some.inj hread)).symm
  have hchars := congrArg String.toList h
  cases a with
  | ofNat m =>
    cases b with
    | ofNat n => rw [hnatural m n h]
    | negSucc n => simp [hexadecimal] at hchars
  | negSucc m =>
    cases b with
    | ofNat n => simp [hexadecimal] at hchars
    | negSucc n =>
      simp only [hexadecimal, String.toList_ofList, List.cons.injEq, true_and] at hchars
      have hdigits : hexadecimal (m + 1 : Nat) = hexadecimal (n + 1 : Nat) := by
        change String.ofList _ = String.ofList _
        rw [hchars]
      rw [Nat.succ.inj (hnatural _ _ hdigits)]

/-! ### Decimal digits in front of other text -/

theorem decimal_ofDigits (n : Nat) : Decimal.ofDigits 0 (Nat.toDigits 10 n) = n := by
  have h := Nat.ofDigitChars_ten_toDigits (n := n)
  simpa [Decimal.ofDigits, Nat.ofDigitChars, Nat.mul_comm] using h

theorem head_toDigits_ne_zero {n : Nat} (hn : 0 < n) :
    ∃ c cs, Nat.toDigits 10 n = c :: cs ∧ c ≠ '0' := by
  induction n using Nat.base_induction 10 (by decide) with
  | single m hm =>
    exact ⟨m.digitChar, [], Nat.toDigits_of_lt_base hm, by simpa using Nat.ne_of_gt hn⟩
  | digit m k hk hm ih =>
    obtain ⟨c, cs, hcs, hc⟩ := ih hm
    refine ⟨c, cs ++ Nat.toDigits 10 k, ?_, hc⟩
    rw [← Nat.toDigits_append_toDigits (by decide) hm hk, hcs, List.cons_append]

theorem spanDigits_toDigits (n : Nat) {rest : List Char}
    (hrest : ∀ c ∈ rest.head?, c.isDigit = false) :
    Decimal.spanDigits (Nat.toDigits 10 n ++ rest) = (Nat.toDigits 10 n, rest) := by
  have hdigits : ∀ c ∈ Nat.toDigits 10 n, c.isDigit = true := fun c hc =>
    Nat.isDigit_of_mem_toDigits (by decide) (by decide) hc
  unfold Decimal.spanDigits
  rw [List.takeWhile_append_of_pos hdigits, List.dropWhile_append_of_pos hdigits]
  cases rest with
  | nil => simp
  | cons c cs => simp [hrest c (by simp)]

/-- A number that fits into 128 bits is short enough to be written. -/
theorem isWritable_of_lt {n : Int} (h : n.natAbs < 2 ^ 128) : isWritable n = true := by
  have hpow : 2 ^ 128 < 10 ^ maxDigits :=
    Nat.lt_of_lt_of_le (by decide : 2 ^ 128 < 10 ^ 39)
      (Nat.pow_le_pow_right (by decide) (by decide))
  exact decide_eq_true (Nat.lt_trans h hpow)

/-! ### How long a number is that has been read -/

theorem digitRow?_lt {b : Nat} {cs : List Char} {ds : List Nat} (h : digitRow? b cs = some ds) :
    ∀ d ∈ ds, d < b := by
  fun_induction digitRow? b cs generalizing ds with
  | case1 => cases h
  | case2 => cases h
  | case3 => cases h
  | case4 c d hc hd =>
    cases h
    simpa using hd
  | case5 c d hc hd rest ih =>
    obtain ⟨more, hmore, rfl⟩ := Option.map_eq_some_iff.mp h
    simpa using ⟨by omega, ih hmore⟩
  | case6 c d hc hd next rest hnext ih =>
    obtain ⟨more, hmore, rfl⟩ := Option.map_eq_some_iff.mp h
    simpa using ⟨by omega, ih hmore⟩

theorem foldl_digits_lt {b : Nat} {ds : List Nat} (h : ∀ d ∈ ds, d < b) (n : Nat) :
    ds.foldl (fun n d => n * b + d) n < (n + 1) * b ^ ds.length := by
  induction ds generalizing n with
  | nil => simp
  | cons d rest ih =>
    have hd : d < b := h d (by simp)
    have hrest := ih (fun x hx => h x (by simp [hx])) (n * b + d)
    have hstep : n * b + d + 1 ≤ (n + 1) * b := by
      rw [Nat.add_mul]
      omega
    calc (d :: rest).foldl (fun n d => n * b + d) n < (n * b + d + 1) * b ^ rest.length := hrest
      _ ≤ (n + 1) * b * b ^ rest.length := Nat.mul_le_mul_right _ hstep
      _ = (n + 1) * b ^ (d :: rest).length := by rw [List.length_cons, Nat.pow_succ']; ac_rfl

theorem ofDigits_lt {b : Nat} {ds : List Nat} (h : ∀ d ∈ ds, d < b) :
    ofDigits b ds < b ^ ds.length := by
  simpa [ofDigits] using foldl_digits_lt h 0

theorem natAbs_signed (negative : Bool) (n : Nat) : (signed negative n).natAbs = n := by
  cases negative <;> simp [signed]

/-- A number that was read from a decimal numeral can be written. -/
theorem isWritable_of_read? {s : String} {n : Int} (h : read? 10 s = some n) :
    isWritable n = true := by
  unfold read? at h
  dsimp only at h
  split at h
  · cases h
  · rename_i ds hrow
    split at h
    · cases h
    · rename_i hlength
      obtain rfl := Option.some.inj h
      refine decide_eq_true ?_
      rw [natAbs_signed]
      have hshort : ds.length ≤ maxDigits := by omega
      exact Nat.lt_of_lt_of_le (ofDigits_lt (digitRow?_lt hrow))
        (Nat.pow_le_pow_right (by decide) hshort)

/-- A number that is not longer than one that can be written can be written. -/
theorem isWritable_of_le {n k : Int} (h : n.natAbs ≤ k.natAbs) (hk : isWritable k = true) :
    isWritable n = true :=
  decide_eq_true (Nat.lt_of_le_of_lt h (of_decide_eq_true hk))

end ChainIndexer.Numeral
