import ChainIndexer.Evm.Topic
import ChainIndexer.Text.Letter

/-!
Texts that spell bytes: `0x` and two hexadecimal digits for each byte, of either case. Such a text
is read as the bytes that it spells (`hexBytes_of_spells`), and in lower case it is the one that is
written for them (`toLower_of_spells`).
-/

namespace ChainIndexer

namespace Hex

/-- A text is `0x` and two hexadecimal digits of either case for each of some bytes. -/
def Spells (s : String) (bs : Bytes) : Prop :=
  ∃ digits, s.toList = '0' :: 'x' :: digits ∧ digits.map Char.toLower = bs.flatMap digitsOf

theorem spells_write (bs : Bytes) : Spells ("0x" ++ write bs) bs := by
  refine ⟨bs.flatMap digitsOf, by simp [write], ?_⟩
  have hlower : ∀ n < 16, (Text.hexChar n).toLower = Text.hexChar n := by decide
  induction bs with
  | nil => rfl
  | cons b bs ih =>
    have hb : b.toNat < 256 := b.toNat_lt
    rw [List.flatMap_cons, List.map_append, ih]
    simp [digitsOf, hlower (b.toNat / 16) (by omega), hlower (b.toNat % 16) (by omega)]

/-- A character whose lower case is a hexadecimal digit is that digit. -/
theorem hexDigit?_of_toLower {c : Char} {n : Nat} (hn : n < 16)
    (h : c.toLower = Text.hexChar n) : Text.hexDigit? c = some n ∧ isBlank c = false := by
  have hlower : ∀ m < 16, Text.hexDigit? (Text.hexChar m) = some m ∧
      isBlank (Text.hexChar m) = false := by decide
  have hupper : ∀ k < 26, ∀ m < 16, (Char.ofNat (65 + k)).toLower = Text.hexChar m →
      Text.hexDigit? (Char.ofNat (65 + k)) = some m ∧ isBlank (Char.ofNat (65 + k)) = false := by
    decide
  by_cases hc : c.val ≥ 'A'.val ∧ c.val ≤ 'Z'.val
  · have hle : 65 ≤ c.toNat ∧ c.toNat ≤ 90 := hc
    have hcode : Char.ofNat (65 + (c.toNat - 65)) = c := by
      rw [Nat.add_sub_cancel' hle.1, Char.ofNat_toNat]
    have hdigit := hupper (c.toNat - 65) (by omega) n hn
    rw [hcode] at hdigit
    exact hdigit h
  · obtain rfl : c = Text.hexChar n := by
      delta Char.toLower at h
      rwa [dif_neg hc] at h
    exact hlower n hn

theorem readList?_of_lower {digits : List Char} {bs : Bytes}
    (h : digits.map Char.toLower = bs.flatMap digitsOf) : readList? digits = some bs := by
  induction bs generalizing digits with
  | nil =>
    obtain rfl : digits = [] := by simpa using h
    rfl
  | cons b bs ih =>
    have hb : b.toNat < 256 := b.toNat_lt
    rw [List.flatMap_cons, digitsOf, List.cons_append, List.cons_append, List.nil_append] at h
    obtain ⟨c, rest, rfl, hc, h⟩ := List.map_eq_cons_iff.mp h
    obtain ⟨d, rest, rfl, hd, h⟩ := List.map_eq_cons_iff.mp h
    obtain ⟨hhigh, hblank⟩ := hexDigit?_of_toLower (by omega) hc
    obtain ⟨hlow, -⟩ := hexDigit?_of_toLower (by omega) hd
    have hvalue : UInt8.ofNat (b.toNat / 16 * 16 + b.toNat % 16) = b := by
      rw [Nat.mul_comm, Nat.div_add_mod]
      simp
    simp only [readList?, hblank, Bool.false_eq_true, if_false, hhigh, hlow, ih h]
    exact congrArg (fun x => some (x :: bs)) hvalue

theorem read?_of_spells {s : String} {bs : Bytes} (h : Spells s bs) :
    read? (String.ofList (dropMark s.toList)) = some bs := by
  obtain ⟨digits, hs, hdigits⟩ := h
  rw [hs, read?, String.toList_ofList]
  exact readList?_of_lower hdigits

theorem exists_hexChar_of_mem {bs : Bytes} {c : Char} (h : c ∈ bs.flatMap digitsOf) :
    ∃ n < 16, c = Text.hexChar n := by
  obtain ⟨b, -, hc⟩ := List.mem_flatMap.mp h
  have hb : b.toNat < 256 := b.toNat_lt
  simp only [digitsOf, List.mem_cons, List.not_mem_nil, or_false] at hc
  rcases hc with rfl | rfl
  · exact ⟨b.toNat / 16, by omega, rfl⟩
  · exact ⟨b.toNat % 16, by omega, rfl⟩

/-- The lower case of a text that spells bytes is the text that is written for them. -/
theorem toLower_of_spells {s : String} {bs : Bytes} (h : Spells s bs) :
    Text.toLower s = "0x" ++ write bs := by
  obtain ⟨digits, hs, hdigits⟩ := h
  have hlower : ∀ c ∈ digits, Text.lowerChar c = c.toLower := by
    intro c hc
    have hmem : c.toLower ∈ bs.flatMap digitsOf := by
      rw [← hdigits]
      exact List.mem_map_of_mem hc
    obtain ⟨n, hn, hdigit⟩ := exists_hexChar_of_mem hmem
    refine if_neg ?_
    rintro rfl
    exact absurd (hexDigit?_of_toLower hn hdigit).1 (by simp [Text.hexDigit?])
  have hmark : Text.lowerChar '0' = '0' ∧ Text.lowerChar 'x' = 'x' := by decide
  rw [Text.toLower, hs, List.map_cons, List.map_cons, List.map_congr_left hlower, hdigits, hmark.1,
    hmark.2, ← String.toList_inj]
  simp [write]

end Hex

theorem Evm.hexBytes_of_spells {s : String} {bs : Bytes} (h : Hex.Spells s bs) :
    hexBytes (.text s) = .ok bs := by
  have hs : s.isEmpty = false := by
    obtain ⟨digits, hs, -⟩ := h
    rw [← Bool.not_eq_true, String.isEmpty_iff]
    rintro rfl
    cases hs
  simp [hexBytes, Value.orElse, Value.truthy, hs, Hex.read?_of_spells h]

end ChainIndexer
