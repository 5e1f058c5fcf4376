import ChainIndexer.Abi.Reader
import ChainIndexer.Proofs.Activity

/-!
How reading contract values can fail. A value of a static type is refused only as no encoding; a text
may also be refused because its bytes are none, and fails with an overflow if its length cannot be
addressed (`readAt_refuses`). `Meets` says of some bytes that reading a type from them comes to such a
text before anything is refused, and this is when reading overflows (`readAt_overflow_iff`).
-/

namespace ChainIndexer.Abi

/-! ### Refusals -/

section Refusals

variable {data : Bytes} {f : Fault}

theorem wordAt_refuses {pos : Nat} (h : wordAt data pos = .error f) : f = .notAbi := by
  unfold wordAt at h
  dsimp only at h
  split at h
  · cases h
  · cases h
    rfl

theorem uintAt_refuses {pos bits : Nat} (h : uintAt data pos bits = .error f) : f = .notAbi := by
  rcases bind_error h with h | ⟨k, -, h⟩
  · exact wordAt_refuses h
  · split at h
    · cases h
    · cases h
      rfl

theorem addressAt_refuses {pos : Nat} (h : addressAt data pos = .error f) : f = .notAbi := by
  unfold addressAt at h
  dsimp only at h
  split at h
  · split at h
    · cases h
    · cases h
      rfl
  · cases h
    rfl

/-- A text is refused as no encoding or as no text, and overflows just by its length. -/
theorem textAt_refuses {pos : Nat} (h : textAt data pos = .error f) :
    f = .notAbi ∨ f = .notUtf8 ∨ f = .overflow ∧
      ∃ length, wordAt data pos = .ok length ∧ lengthBound ≤ paddedLength length := by
  rcases bind_error h with h | ⟨length, hlength, h⟩
  · exact Or.inl (wordAt_refuses h)
  dsimp only at h
  split at h
  · rename_i hover
    cases h
    exact Or.inr (Or.inr ⟨rfl, length, hlength, hover⟩)
  split at h
  · cases h
    exact Or.inl rfl
  split at h
  · cases h
    exact Or.inl rfl
  split at h
  · cases h
  · cases h
    exact Or.inr (Or.inl rfl)

theorem textAt_of_overlong {pos length : Nat} (hlength : wordAt data pos = .ok length)
    (hover : lengthBound ≤ paddedLength length) : textAt data pos = .error .overflow := by
  unfold textAt
  rw [bind_of_ok hlength]
  dsimp only
  rw [if_pos hover]
  rfl

/-- A member of a tuple, which begins at `start`, by its position in the head. -/
def memberAt (data : Bytes) (start : Nat) (t : Ty) (pos : Nat) : Except Fault t.Val :=
  if t.isDynamic then do
    let pointer ← wordAt data pos
    readAt data t (start + pointer)
  else readAt data t pos

theorem readMembers_cons (data : Bytes) (start : Nat) (t : Ty) (ts : List Ty) (pos : Nat) :
    readMembers data start (t :: ts) pos = (do
      let v ← memberAt data start t pos
      let vs ← readMembers data start ts (pos + t.headWidth)
      return (v, vs)) := by
  rw [readMembers, memberAt]
  split
  · rw [bind_assoc]
    rfl
  · rfl

mutual

/-- A static type is refused only as no encoding. -/
theorem readAt_refuses : (t : Ty) → (pos : Nat) → readAt data t pos = .error f →
    f = .notAbi ∨ t.isDynamic = true ∧ (f = .notUtf8 ∨ f = .overflow)
  | .uint _, _, h => Or.inl (uintAt_refuses h)
  | .address, _, h => Or.inl (addressAt_refuses h)
  | .string, _, h => by
    rcases textAt_refuses h with h | h | ⟨h, -⟩
    · exact Or.inl h
    · exact Or.inr ⟨rfl, Or.inl h⟩
    · exact Or.inr ⟨rfl, Or.inr h⟩
  | .tuple ts, pos, h => by
    rw [readAt] at h
    rcases bind_error h with h | ⟨_, -, h⟩
    · exact Or.inl (checkHead_refuses ts pos _ pos h)
    · exact readMembers_refuses ts pos pos h

theorem readMembers_refuses : (ts : List Ty) → (start pos : Nat) →
    readMembers data start ts pos = .error f →
    f = .notAbi ∨ Ty.anyDynamic ts = true ∧ (f = .notUtf8 ∨ f = .overflow)
  | [], _, _, h => by cases h
  | t :: ts, start, pos, h => by
    rw [readMembers_cons] at h
    rcases bind_error h with h | ⟨v, -, h⟩
    · have hfirst : f = .notAbi ∨ t.isDynamic = true ∧ (f = .notUtf8 ∨ f = .overflow) := by
        unfold memberAt at h
        split at h
        · rcases bind_error h with h | ⟨pointer, -, h⟩
          · exact Or.inl (wordAt_refuses h)
          · exact readAt_refuses t _ h
        · exact readAt_refuses t _ h
      rcases hfirst with hf | ⟨ht, hf⟩
      · exact Or.inl hf
      · exact Or.inr ⟨by rw [Ty.anyDynamic, ht, Bool.true_or], hf⟩
    · rcases bind_error h with h | ⟨vs, -, h⟩
      · rcases readMembers_refuses ts start _ h with hf | ⟨hts, hf⟩
        · exact Or.inl hf
        · exact Or.inr ⟨by rw [Ty.anyDynamic, hts, Bool.or_true], hf⟩
      · cases h

/-- The head of a tuple holds pointers and static values. -/
theorem checkHead_refuses : (ts : List Ty) → (start behind pos : Nat) →
    checkHead data start behind ts pos = .error f → f = .notAbi
  | [], _, _, _, h => by cases h
  | t :: ts, start, behind, pos, h => by
    rw [checkHead] at h
    split at h
    · rcases bind_error h with h | ⟨pointer, -, h⟩
      · exact wordAt_refuses h
      split at h
      · cases h
        rfl
      · exact checkHead_refuses ts start behind _ h
    · rename_i hstatic
      rcases bind_error h with h | ⟨v, -, h⟩
      · rcases readAt_refuses t pos h with hf | ⟨hdynamic, -⟩
        · exact hf
        · exact absurd hdynamic hstatic
      · exact checkHead_refuses ts start behind _ h

end

/-! ### Overflows -/

mutual

/-- Reading a type from a position comes to a text whose length cannot be addressed. -/
inductive Meets (data : Bytes) : Ty → (pos : Nat) → Prop
  | text {pos length : Nat} (hlength : wordAt data pos = .ok length)
      (hover : lengthBound ≤ paddedLength length) : Meets data .string pos
  | tuple {ts : List Ty} {pos : Nat}
      (hhead : checkHead data pos (pos + 32 * ts.length) ts pos = .ok ())
      (h : MeetsAmong data pos ts pos) : Meets data (.tuple ts) pos

/-- Reading the members of a tuple, which begins at `start`, comes to such a text. -/
inductive MeetsAmong (data : Bytes) : (start : Nat) → List Ty → (pos : Nat) → Prop
  | first {start pos pointer : Nat} {t : Ty} {ts : List Ty} (ht : t.isDynamic = true)
      (hpointer : wordAt data pos = .ok pointer) (h : Meets data t (start + pointer)) :
      MeetsAmong data start (t :: ts) pos
  | later {start pos : Nat} {t : Ty} {ts : List Ty} {v : t.Val}
      (hv : memberAt data start t pos = .ok v)
      (h : MeetsAmong data start ts (pos + t.headWidth)) : MeetsAmong data start (t :: ts) pos

end

mutual

theorem meets_of_overflow : (t : Ty) → (pos : Nat) → readAt data t pos = .error .overflow →
    Meets data t pos
  | .uint _, _, h => by cases uintAt_refuses h
  | .address, _, h => by cases addressAt_refuses h
  | .string, _, h => by
    rcases textAt_refuses h with h | h | ⟨-, length, hlength, hover⟩
    · cases h
    · cases h
    · exact .text hlength hover
  | .tuple ts, pos, h => by
    rw [readAt] at h
    rcases bind_error h with h | ⟨_, hhead, h⟩
    · cases checkHead_refuses ts pos _ pos h
    · exact .tuple hhead (meetsAmong_of_overflow ts pos pos h)

theorem meetsAmong_of_overflow : (ts : List Ty) → (start pos : Nat) →
    readMembers data start ts pos = .error .overflow → MeetsAmong data start ts pos
  | [], _, _, h => by cases h
  | t :: ts, start, pos, h => by
    rw [readMembers_cons] at h
    rcases bind_error h with h | ⟨v, hv, h⟩
    · unfold memberAt at h
      split at h
      · rename_i ht
        rcases bind_error h with h | ⟨pointer, hpointer, h⟩
        · cases wordAt_refuses h
        · exact .first ht hpointer (meets_of_overflow t _ h)
      · rename_i ht
        rcases readAt_refuses t pos h with h | ⟨hdynamic, -⟩
        · cases h
        · exact absurd hdynamic ht
    · rcases bind_error h with h | ⟨vs, -, h⟩
      · exact .later hv (meetsAmong_of_overflow ts start _ h)
      · cases h

end

mutual

theorem overflow_of_meets {t : Ty} {pos : Nat} :
    Meets data t pos → readAt data t pos = .error .overflow
  | .text hlength hover => textAt_of_overlong hlength hover
  | .tuple hhead h => by
    rw [readAt, bind_of_ok hhead]
    exact overflow_of_meetsAmong h

theorem overflow_of_meetsAmong {start pos : Nat} {ts : List Ty} :
    MeetsAmong data start ts pos → readMembers data start ts pos = .error .overflow
  | .first ht hpointer h => by
    rw [readMembers_cons, memberAt, if_pos ht, bind_of_ok hpointer, overflow_of_meets h]
    rfl
  | .later hv h => by
    rw [readMembers_cons, bind_of_ok hv, overflow_of_meetsAmong h]
    rfl

end

/-- Reading overflows just if it comes to a text whose length cannot be addressed. -/
theorem readAt_overflow_iff (t : Ty) (pos : Nat) :
    readAt data t pos = .error .overflow ↔ Meets data t pos :=
  ⟨meets_of_overflow t pos, overflow_of_meets⟩

theorem not_meets_of_static {t : Ty} (ht : t.isDynamic = false) (pos : Nat) :
    ¬ Meets data t pos := by
  intro h
  rcases readAt_refuses t pos ((readAt_overflow_iff t pos).mpr h) with h | ⟨hdynamic, -⟩
  · cases h
  · rw [ht] at hdynamic
    cases hdynamic

theorem not_meets_nil (t : Ty) : ¬ Meets [] (.tuple [t]) 0 := by
  intro h
  cases h with
  | tuple hhead h =>
    cases h with
    | first ht hpointer h => cases hpointer
    | later hv h => cases h

theorem read_error_iff {t : Ty} :
    read t data = .error f ↔ readAt data (.tuple [t]) 0 = .error f := by
  unfold read readAll
  cases readAt data (.tuple [t]) 0 with
  | ok v => simp [Except.map]
  | error f' => simp [Except.map]

end Refusals

end ChainIndexer.Abi
