import ChainIndexer.Proofs.Numeral
import Mathlib.Data.List.TakeWhile

/-!
What is left of a text without the blanks or quotes around it. `Trimmed` says it without an
algorithm: the rest stands in the text with nothing but characters of the class before and behind it,
and neither begins nor ends with one. There is just one such rest, and `trim` finds it
(`trimmed_iff`). A numeral that can be read can be read without the blanks around it (`read?_strip`);
the other way round it is not so, as some blanks may not stand around a numeral.
-/

namespace ChainIndexer.Text

/-- A text is another one with characters of a class taken off both its ends, as many as there
are. -/
structure Trimmed (p : Char → Bool) (cs core : List Char) : Prop where
  around : ∃ front back, cs = front ++ core ++ back ∧ (∀ c ∈ front, p c = true) ∧
    ∀ c ∈ back, p c = true
  first : ∀ c ∈ core.head?, p c = false
  last : ∀ c ∈ core.getLast?, p c = false

variable {p : Char → Bool} {cs core : List Char}

theorem head?_dropWhile_false (cs : List Char) : ∀ c ∈ (cs.dropWhile p).head?, p c = false := by
  intro c hc
  by_contra hp
  exact absurd (List.head?_dropWhile_not p cs) (by simp_all)

/-- What is dropped from the end of a text is a row of characters of the class behind the rest. -/
theorem exists_dropTrailing (p : Char → Bool) (cs : List Char) :
    ∃ back, cs = dropTrailing p cs ++ back ∧ ∀ c ∈ back, p c = true := by
  refine ⟨(cs.reverse.takeWhile p).reverse, ?_, fun c hc => ?_⟩
  · rw [dropTrailing, ← List.reverse_append, List.takeWhile_append_dropWhile, List.reverse_reverse]
  · exact List.mem_takeWhile_imp (List.mem_reverse.mp hc)

theorem getLast?_dropTrailing_false (cs : List Char) :
    ∀ c ∈ (dropTrailing p cs).getLast?, p c = false := by
  rw [dropTrailing, List.getLast?_reverse]
  exact head?_dropWhile_false _

/-- Nothing is dropped from the end of a text that does not end with a character of the class. -/
theorem dropTrailing_eq_self (h : ∀ c ∈ cs.getLast?, p c = false) : dropTrailing p cs = cs := by
  obtain ⟨back, hback, hall⟩ := exists_dropTrailing p cs
  rcases List.eq_nil_or_concat back with rfl | ⟨more, c, rfl⟩
  · rw [List.append_nil] at hback
    exact hback.symm
  · rw [hback, List.concat_eq_append, ← List.append_assoc] at h
    have hc : p c = false := h c (by simp)
    rw [hall c (by simp)] at hc
    cases hc

theorem trimmed_trim (p : Char → Bool) (cs : List Char) : Trimmed p cs (trim p cs) := by
  obtain ⟨back, hback, hall⟩ := exists_dropTrailing p (cs.dropWhile p)
  refine ⟨⟨cs.takeWhile p, back, ?_, fun c hc => List.mem_takeWhile_imp hc, hall⟩, ?_, ?_⟩
  · rw [trim, List.append_assoc, ← hback, List.takeWhile_append_dropWhile]
  · intro c hc
    -- the rest begins like the text without its beginning, unless nothing is left
    refine head?_dropWhile_false cs c ?_
    rw [hback, List.head?_append, show (dropTrailing p (cs.dropWhile p)).head? = some c from hc]
    rfl
  · exact getLast?_dropTrailing_false _

theorem Trimmed.trim_eq (h : Trimmed p cs core) : trim p cs = core := by
  obtain ⟨⟨front, back, rfl, hfront, hback⟩, hfirst, hlast⟩ := h
  have hdrop : (front ++ core ++ back).dropWhile p = (core ++ back).dropWhile p := by
    rw [List.append_assoc, List.dropWhile_append_of_pos hfront]
  cases core with
  | nil =>
    have hall : back.dropWhile p = [] := List.dropWhile_eq_nil_iff.mpr hback
    rw [trim, hdrop, List.nil_append, hall]
    rfl
  | cons c rest =>
    have hc : p c = false := hfirst c rfl
    have hself : trim p (c :: rest) = c :: rest := Numeral.trim_eq_self hc hlast
    have hkeep : ∀ more, (c :: rest ++ more).dropWhile p = c :: rest ++ more := fun more => by
      rw [List.cons_append, List.dropWhile_cons_of_neg (by simp [hc])]
    have hreverse : ∀ x ∈ back.reverse, p x = true := fun x hx => hback x (List.mem_reverse.mp hx)
    have hnone : (c :: rest).dropWhile p = c :: rest := by simpa using hkeep []
    rw [trim, hdrop, hkeep, dropTrailing, List.reverse_append,
      List.dropWhile_append_of_pos hreverse]
    rwa [trim, hnone] at hself

/-- A text without a character of the class is what is left when such characters stand behind it. -/
theorem Trimmed.of_plain (back : List Char) (hcore : ∀ c ∈ core, p c = false)
    (hback : ∀ c ∈ back, p c = true) : Trimmed p (core ++ back) core :=
  ⟨⟨[], back, rfl, by simp, hback⟩, fun c hc => hcore c (List.mem_of_mem_head? hc),
    fun c hc => hcore c (List.mem_of_mem_getLast? hc)⟩

/-- Trimming leaves the one rest that stands in a text without characters of the class at its
ends. -/
theorem trimmed_iff : Trimmed p cs core ↔ trim p cs = core :=
  ⟨Trimmed.trim_eq, fun h => h ▸ trimmed_trim p cs⟩

/-- Nothing is taken off a text that neither begins nor ends with a character of the class. -/
theorem Trimmed.of_ends (hfirst : ∀ c ∈ cs.head?, p c = false)
    (hlast : ∀ c ∈ cs.getLast?, p c = false) : Trimmed p cs cs :=
  ⟨⟨[], [], by simp, nofun, nofun⟩, hfirst, hlast⟩

theorem Trimmed.cons {c : Char} (hc : p c = false) (h : Trimmed p cs cs) :
    Trimmed p (c :: cs) (c :: cs) := by
  refine .of_ends (by simpa using hc) ?_
  cases cs with
  | nil => simpa using hc
  | cons x rest => simpa using h.last

/-- Trimming by a class takes off as much as trimming by a narrower one, if that leaves nothing of
the class at the ends. -/
theorem Trimmed.widen {q : Char → Bool} (hqp : ∀ c, q c = true → p c = true)
    (h : Trimmed q cs core) (hcore : Trimmed p core core) : Trimmed p cs core := by
  obtain ⟨front, back, hcs, hfront, hback⟩ := h.around
  exact ⟨⟨front, back, hcs, fun c hc => hqp c (hfront c hc), fun c hc => hqp c (hback c hc)⟩,
    hcore.first, hcore.last⟩

/-! ### Numerals among blanks -/

/-- The code points of the blanks. -/
def blankCodes : List Nat :=
  List.range' 0x09 5 ++ List.range' 0x1C 5 ++ [0x85, 0xA0, 0x1680] ++ List.range' 0x2000 11 ++
    [0x2028, 0x2029, 0x202F, 0x205F, 0x3000]

theorem mem_blankCodes {c : Char} (h : isBlank c = true) : c.toNat ∈ blankCodes := by
  simp [isBlank, isSpace] at h
  simp [blankCodes, List.mem_range'_1]
  omega

theorem alphanumeric?_blankCodes : ∀ n ∈ blankCodes, alphanumeric? (Char.ofNat n) = none := by
  decide

/-- A digit of any script is no blank. -/
theorem isBlank_of_alphanumeric? {c : Char} {d : Nat} (h : alphanumeric? c = some d) :
    isBlank c = false := by
  by_contra hblank
  have hnone := alphanumeric?_blankCodes _ (mem_blankCodes (Bool.not_eq_false _ ▸ hblank))
  rw [Char.ofNat_toNat, h] at hnone
  cases hnone

theorem trimmed_digitRow? {b : Nat} {ds : List Nat} (h : Numeral.digitRow? b cs = some ds) :
    Trimmed isBlank cs cs := by
  fun_induction Numeral.digitRow? b cs generalizing ds with
  | case1 => cases h
  | case2 => cases h
  | case3 => cases h
  | case4 c d hc hd =>
    exact (Trimmed.of_ends (by simp) (by simp)).cons (isBlank_of_alphanumeric? hc)
  | case5 c d hc hd rest ih =>
    obtain ⟨more, hmore, -⟩ := Option.map_eq_some_iff.mp h
    exact ((ih hmore).cons (by decide)).cons (isBlank_of_alphanumeric? hc)
  | case6 c d hc hd next rest hnext ih =>
    obtain ⟨more, hmore, -⟩ := Option.map_eq_some_iff.mp h
    exact (ih hmore).cons (isBlank_of_alphanumeric? hc)

theorem trimmed_of_splitSign (h : Trimmed isBlank (Numeral.splitSign cs).2 (Numeral.splitSign cs).2) :
    Trimmed isBlank cs cs := by
  unfold Numeral.splitSign at h
  split at h
  · exact h.cons (by decide)
  · exact h.cons (by decide)
  · exact h

theorem dropMark_ten (cs : List Char) : Numeral.dropMark 10 cs = cs := by
  unfold Numeral.dropMark
  split
  · exact if_neg fun h => nomatch h.2
  · rfl

/-- A numeral that can be read can be read without the blanks around it. -/
theorem read?_strip {s : String} {n : Int} (h : Numeral.read? 10 s = some n) :
    Numeral.read? 10 (strip s) = some n := by
  have hspaces := trimmed_trim isSpace s.toList
  have hcore : Trimmed isBlank (trim isSpace s.toList) (trim isSpace s.toList) := by
    refine trimmed_of_splitSign ?_
    have hrow : Numeral.digitRow? 10 (Numeral.splitSign (trim isSpace s.toList)).2 ≠ none := by
      intro hnone
      simp [Numeral.read?, dropMark_ten, hnone] at h
    obtain ⟨ds, hds⟩ := Option.ne_none_iff_exists'.mp hrow
    exact trimmed_digitRow? hds
  have hstrip : trim isBlank s.toList = trim isSpace s.toList :=
    (hspaces.widen (fun c => isBlank_of_isSpace) hcore).trim_eq
  have hagain : trim isSpace (trim isSpace s.toList) = trim isSpace s.toList :=
    (Trimmed.of_ends hspaces.first hspaces.last).trim_eq
  unfold Numeral.read? at h ⊢
  rwa [strip, String.toList_ofList, hstrip, hagain]

end ChainIndexer.Text
