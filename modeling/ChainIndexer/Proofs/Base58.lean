import ChainIndexer.Bytes.Base58
import ChainIndexer.Proofs.Trim
import Mathlib.Data.Nat.Digits.Lemmas

/-!
Bytes and base-58 text correspond one to one. A text spells bytes if its digits and the bytes begin
with the same number of zeros and stand for the same number, each in its own base (`Spells`). In any
base a row of digits is determined by these two, because it is the zeros followed by the digits of
the number (`eq_zeros_append_digits`). So there is one text for some bytes, the one that `write`
gives (`spells_iff`), and reading goes back from it and refuses everything else (`read_ok_iff`).
-/

namespace ChainIndexer

namespace Bytes

/-- How many zeros a row of digits or bytes begins with. -/
def leadingZeros {α : Type} [BEq α] [OfNat α 0] (xs : List α) : Nat :=
  (xs.takeWhile (· == 0)).length

/-! ### Rows of digits -/

theorem digitsFrom_eq {b : Nat} (hb : 1 < b) {fuel n : Nat} (h : n ≤ fuel) :
    digitsFrom b fuel n = Nat.digits b n := by
  induction fuel generalizing n with
  | zero =>
    obtain rfl := Nat.le_zero.mp h
    simp [digitsFrom]
  | succ fuel ih =>
    unfold digitsFrom
    split
    · simp_all
    · have hn : 0 < n := by omega
      have hless : n / b < n := Nat.div_lt_self hn hb
      rw [Nat.digits_def' hb hn, ih (by omega)]

theorem digits_eq {b : Nat} (hb : 1 < b) (n : Nat) : digits b n = (Nat.digits b n).reverse := by
  rw [digits, digitsFrom_eq hb (Nat.le_refl n)]

theorem mem_digits_lt {b n d : Nat} (hb : 1 < b) (h : d ∈ digits b n) : d < b := by
  rw [digits_eq hb, List.mem_reverse] at h
  exact Nat.digits_lt_base hb h

theorem ofDigits_reverse_digits {b : Nat} (hb : 1 < b) (n : Nat) :
    Nat.ofDigits b (digits b n).reverse = n := by
  rw [digits_eq hb, List.reverse_reverse, Nat.ofDigits_digits]

/-- A zero in front changes nothing. -/
theorem ofDigits_reverse_zeros (b z : Nat) (ds : List Nat) :
    Nat.ofDigits b (List.replicate z 0 ++ ds).reverse = Nat.ofDigits b ds.reverse := by
  rw [List.reverse_append, List.reverse_replicate, Nat.ofDigits_append_replicate_zero]

/-- The digits of a number do not begin with a zero. -/
theorem head?_digits_ne_zero {b : Nat} (hb : 1 < b) (n : Nat) : (digits b n).head? ≠ some 0 := by
  rw [digits_eq hb, List.head?_reverse]
  intro h
  have hn : n ≠ 0 := by
    rintro rfl
    simp at h
  rw [List.getLast?_eq_getLast_of_ne_nil (Nat.digits_ne_nil_iff_ne_zero.mpr hn)] at h
  exact Nat.getLast_digit_ne_zero b hn (Option.some.inj h)

theorem leadingZeros_zeros_append {α : Type} [BEq α] [LawfulBEq α] [OfNat α 0] (z : Nat)
    {xs : List α} (h : xs.head? ≠ some 0) : leadingZeros (List.replicate z 0 ++ xs) = z := by
  have hxs : xs.takeWhile (· == 0) = [] := by
    cases xs with
    | nil => rfl
    | cons x rest =>
      have hx : x ≠ 0 := fun hx => h (by rw [hx]; rfl)
      simp [hx]
  rw [leadingZeros, List.takeWhile_append_of_pos (by simp), hxs]
  simp

/-- A row of digits is zeros and the digits of the number it stands for. -/
theorem eq_zeros_append_digits {b : Nat} (hb : 1 < b) {ds : List Nat} (hlt : ∀ d ∈ ds, d < b) :
    ds = List.replicate (leadingZeros ds) 0 ++ digits b (Nat.ofDigits b ds.reverse) := by
  induction ds with
  | nil => simp [leadingZeros, digits_eq hb]
  | cons d rest ih =>
    by_cases hd : d = 0
    · subst hd
      have hvalue : Nat.ofDigits b (0 :: rest).reverse = Nat.ofDigits b rest.reverse :=
        ofDigits_reverse_zeros b 1 rest
      have hzeros : leadingZeros (0 :: rest) = leadingZeros rest + 1 := by simp [leadingZeros]
      rw [hvalue, hzeros, List.replicate_succ, List.cons_append,
        ← ih fun d hd => hlt d (List.mem_cons_of_mem _ hd)]
    · have hzeros : leadingZeros (d :: rest) = 0 := by simp [leadingZeros, hd]
      have hcanonical : Nat.digits b (Nat.ofDigits b (d :: rest).reverse) = (d :: rest).reverse := by
        refine Nat.digits_ofDigits b hb _ (fun x hx => hlt x (List.mem_reverse.mp hx)) fun _ => ?_
        rw [List.getLast_reverse]
        exact hd
      rw [hzeros, digits_eq hb, hcanonical, List.reverse_reverse]
      rfl

/-! ### Bytes as a row -/

theorem ofBig_eq (bs : Bytes) : ofBig bs = Nat.ofDigits 256 (bs.map UInt8.toNat).reverse := by
  have hlittle : ∀ bs : Bytes, ofLittle bs = Nat.ofDigits 256 (bs.map UInt8.toNat) := by
    intro bs
    induction bs with
    | nil => rfl
    | cons b rest ih => rw [ofLittle, List.map_cons, Nat.ofDigits_cons, ih]
  rw [ofBig, hlittle, List.map_reverse]

theorem leadingZeros_toNat (bs : Bytes) : leadingZeros (bs.map UInt8.toNat) = leadingZeros bs := by
  induction bs with
  | nil => rfl
  | cons b rest ih =>
    by_cases hb : b = 0
    · subst hb
      simpa [leadingZeros] using ih
    · have hne : b.toNat ≠ 0 := fun h => hb (UInt8.toNat_inj.mp h)
      simp [leadingZeros, hb, hne]

theorem map_ofNat_toNat (bs : Bytes) : (bs.map UInt8.toNat).map UInt8.ofNat = bs := by
  rw [List.map_map]
  exact (List.map_congr_left fun b _ => UInt8.ofNat_toNat).trans (List.map_id bs)

theorem map_toNat_ofNat {ds : List Nat} (h : ∀ d ∈ ds, d < 256) :
    (ds.map UInt8.ofNat).map UInt8.toNat = ds := by
  rw [List.map_map]
  refine (List.map_congr_left fun d hd => ?_).trans (List.map_id ds)
  exact UInt8.toNat_ofNat_of_lt (h d hd)

/-- Bytes are zeros and a number in base 256 just if they begin with as many zeros and stand for the
number. -/
theorem eq_zeros_append_iff {bs : Bytes} {z n : Nat} :
    bs = List.replicate z 0 ++ (digits 256 n).map UInt8.ofNat ↔
      leadingZeros bs = z ∧ ofBig bs = n := by
  have hdigits : ((digits 256 n).map UInt8.ofNat).map UInt8.toNat = digits 256 n :=
    map_toNat_ofNat fun d hd => mem_digits_lt (by decide) hd
  have hzeros : (List.replicate z (0 : UInt8)).map UInt8.toNat = List.replicate z 0 := by simp
  constructor
  · rintro rfl
    rw [← leadingZeros_toNat, ofBig_eq, List.map_append, hdigits, hzeros]
    refine ⟨leadingZeros_zeros_append z (head?_digits_ne_zero (by decide) n), ?_⟩
    rw [ofDigits_reverse_zeros, ofDigits_reverse_digits (by decide)]
  · rintro ⟨rfl, rfl⟩
    have hrow : bs.map UInt8.toNat = List.replicate (leadingZeros (bs.map UInt8.toNat)) 0 ++
        digits 256 (Nat.ofDigits 256 (bs.map UInt8.toNat).reverse) := by
      refine eq_zeros_append_digits (by decide) fun d hd => ?_
      obtain ⟨b, -, rfl⟩ := List.mem_map.mp hd
      exact b.toNat_lt
    have hbytes := congrArg (List.map UInt8.ofNat) hrow
    rw [map_ofNat_toNat, leadingZeros_toNat, ← ofBig_eq, List.map_append] at hbytes
    simpa using hbytes

end Bytes

namespace Base58

open Bytes

/-- The base that the digits belong to. -/
def base : Nat := 58

/-- A text spells bytes: its digits begin with as many zeros as the bytes and stand for the same
number. -/
def Spells (cs : List Char) (bs : Bytes) : Prop :=
  ∃ ds : List Nat, cs = ds.map digitChar ∧ (∀ d ∈ ds, d < base) ∧
    leadingZeros ds = leadingZeros bs ∧ Nat.ofDigits base ds.reverse = ofBig bs

/-! ### Digits as characters -/

theorem digit?_digitChar : ∀ d < base, digit? (digitChar d) = some d := by
  decide +kernel

theorem digitChar_of_digit? {c : Char} {d : Nat} (h : digit? c = some d) :
    d < base ∧ digitChar d = c := by
  obtain ⟨hlt, hc, -⟩ := List.findIdx?_eq_some_iff_getElem.mp h
  refine ⟨hlt, ?_⟩
  rw [digitChar, List.getD_eq_getElem?_getD, List.getElem?_eq_getElem hlt]
  exact beq_iff_eq.mp hc

theorem digitChar_plain : ∀ d < base,
    (digitChar d).toNat < 0x80 ∧ Text.isBlank (digitChar d) = false ∧
      (digitChar d == '1') = (d == 0) := by
  decide +kernel

/-- A row of digits as characters begins with a `1` for each zero. -/
theorem length_ones {ds : List Nat} (h : ∀ d ∈ ds, d < base) :
    ((ds.map digitChar).takeWhile (· == '1')).length = leadingZeros ds := by
  induction ds with
  | nil => rfl
  | cons d rest ih =>
    obtain ⟨-, -, hone⟩ := digitChar_plain d (h d List.mem_cons_self)
    have ih := ih fun d hd => h d (List.mem_cons_of_mem _ hd)
    rw [List.map_cons, leadingZeros, List.takeWhile_cons, List.takeWhile_cons, hone]
    cases d == 0 with
    | true => simpa [leadingZeros] using ih
    | false => rfl

theorem foldl_eq (ds : List Nat) :
    ds.foldl (fun n d => n * base + d) 0 = Nat.ofDigits base ds.reverse := by
  rw [Nat.ofDigits_eq_foldr, List.foldr_reverse]
  simp [Nat.mul_comm, Nat.add_comm]

theorem foldlM_eq_some_iff {cs : List Char} {start n : Nat} :
    cs.foldlM (fun n c => (digit? c).map (n * base + ·)) start = some n ↔
      ∃ ds : List Nat, cs = ds.map digitChar ∧ (∀ d ∈ ds, d < base) ∧
        ds.foldl (fun n d => n * base + d) start = n := by
  constructor
  · intro h
    induction cs generalizing start with
    | nil => exact ⟨[], rfl, by simp, Option.some.inj h⟩
    | cons c rest ih =>
      rw [List.foldlM_cons, Option.bind_eq_bind, Option.bind_eq_some_iff] at h
      obtain ⟨next, hnext, h⟩ := h
      obtain ⟨d, hd, rfl⟩ := Option.map_eq_some_iff.mp hnext
      obtain ⟨hlt, rfl⟩ := digitChar_of_digit? hd
      obtain ⟨ds, rfl, hds, rfl⟩ := ih h
      exact ⟨d :: ds, rfl, List.forall_mem_cons.mpr ⟨hlt, hds⟩, rfl⟩
  · rintro ⟨ds, rfl, hds, rfl⟩
    induction ds generalizing start with
    | nil => rfl
    | cons d rest ih =>
      obtain ⟨hd, hrest⟩ := List.forall_mem_cons.mp hds
      rw [List.map_cons, List.foldlM_cons, digit?_digitChar d hd]
      exact ih hrest

/-- A number is read from a text that is a row of digits. -/
theorem value?_eq_some_iff {cs : List Char} {n : Nat} :
    value? cs = some n ↔ ∃ ds : List Nat, cs = ds.map digitChar ∧ (∀ d ∈ ds, d < base) ∧
      Nat.ofDigits base ds.reverse = n := by
  simp only [← foldl_eq]
  exact foldlM_eq_some_iff

/-! ### Writing and reading -/

/-- Bytes are spelled by the text that they are written as, and by no other. -/
theorem spells_iff {cs : List Char} {bs : Bytes} : Spells cs bs ↔ cs = (write bs).toList := by
  have hones : (List.replicate (leadingZeros bs) 0).map digitChar =
      (bs.takeWhile (· == 0)).map fun _ => '1' := by
    rw [List.map_replicate, List.map_const', leadingZeros]
    rfl
  have hwrite : (write bs).toList =
      (List.replicate (leadingZeros bs) 0 ++ digits base (ofBig bs)).map digitChar := by
    rw [List.map_append, hones, write, String.toList_ofList]
    rfl
  rw [hwrite]
  constructor
  · rintro ⟨ds, rfl, hds, hzeros, hvalue⟩
    rw [← hzeros, ← hvalue, ← eq_zeros_append_digits (by decide) hds]
  · rintro rfl
    refine ⟨_, rfl, fun d hd => ?_, ?_, ?_⟩
    · rcases List.mem_append.mp hd with hd | hd
      · rw [List.eq_of_mem_replicate hd]
        decide
      · exact mem_digits_lt (by decide) hd
    · exact leadingZeros_zeros_append _ (head?_digits_ne_zero (by decide) _)
    · rw [ofDigits_reverse_zeros, ofDigits_reverse_digits (by decide)]

theorem Spells.plain {cs : List Char} {bs : Bytes} (h : Spells cs bs) :
    ∀ c ∈ cs, c.toNat < 0x80 ∧ Text.isBlank c = false := by
  obtain ⟨ds, rfl, hds, -⟩ := h
  intro c hc
  obtain ⟨d, hd, rfl⟩ := List.mem_map.mp hc
  obtain ⟨hascii, hblank, -⟩ := digitChar_plain d (hds d hd)
  exact ⟨hascii, hblank⟩

/-- What is read from a text is the bytes that it spells without the blanks at its end. -/
theorem read_ok_iff {s : String} {bs : Bytes} :
    read s = .ok bs ↔ Spells (Text.dropTrailing Text.isBlank s.toList) bs := by
  unfold read
  generalize Text.dropTrailing Text.isBlank s.toList = cs
  dsimp only
  rw [List.map_const']
  constructor
  · intro h
    split at h
    · cases h
    · split at h
      · cases h
      · rename_i n hn
        obtain ⟨ds, rfl, hds, hvalue⟩ := value?_eq_some_iff.mp hn
        obtain ⟨hzeros, hnumber⟩ := eq_zeros_append_iff.mp (Except.ok.inj h).symm
        rw [length_ones hds] at hzeros
        exact ⟨ds, rfl, hds, hzeros.symm, hvalue.trans hnumber.symm⟩
  · intro h
    have hascii : cs.any (0x80 ≤ ·.toNat) = false :=
      List.any_eq_false.mpr fun c hc => by simpa using (h.plain c hc).1
    obtain ⟨ds, rfl, hds, hzeros, hvalue⟩ := h
    rw [hascii, value?_eq_some_iff.mpr ⟨ds, rfl, hds, hvalue⟩, length_ones hds, hzeros]
    exact congrArg Except.ok (eq_zeros_append_iff.mpr ⟨rfl, rfl⟩).symm

/-- The text of some bytes is read as them. -/
theorem read_of_spells {s : String} {bs : Bytes} (h : Spells s.toList bs) : read s = .ok bs := by
  rw [read_ok_iff, Text.dropTrailing_eq_self fun c hc =>
    (h.plain c (List.mem_of_getLast? hc)).2]
  exact h

theorem read_write (bs : Bytes) : read (write bs) = .ok bs :=
  read_of_spells (spells_iff.mpr rfl)

/-- A text spells one byte string at most. -/
theorem Spells.unique {s : String} {bs bs' : Bytes} (h : Spells s.toList bs)
    (h' : Spells s.toList bs') : bs = bs' :=
  Except.ok.inj ((read_of_spells h).symm.trans (read_of_spells h'))

theorem write_injective {bs bs' : Bytes} (h : write bs = write bs') : bs = bs' :=
  Spells.unique (spells_iff.mpr rfl) (spells_iff.mpr (congrArg String.toList h))

end Base58

end ChainIndexer
