import ChainIndexer.Abi.Reader

/-!
Contract values are read back as they were written, whatever follows them. `Holds` says which bytes
stand at a position, and the reader of each type is shown to give the value whose bytes it finds
there. A tuple is read in two parts that lie apart, the heads of its members and what stands behind
the heads, so the induction is on the members with a position in either part. The numbers of a type
must fit into a word, and a tuple must have a member, as a value of no bytes could stand behind the
last byte, where no pointer leads.
-/

namespace ChainIndexer.Abi

/-- Some bytes stand at a position. -/
def Holds (data : Bytes) (pos : Nat) (bs : Bytes) : Prop :=
  bs <+: data.drop pos

namespace Holds

variable {data bs cs : Bytes} {pos : Nat}

theorem left (h : Holds data pos (bs ++ cs)) : Holds data pos bs :=
  (List.prefix_append bs cs).trans h

theorem right (h : Holds data pos (bs ++ cs)) : Holds data (pos + bs.length) cs := by
  obtain ⟨more, hmore⟩ := h
  refine ⟨more, ?_⟩
  rw [← List.drop_drop, ← hmore, List.append_assoc, List.drop_left]

theorem take_eq (h : Holds data pos bs) : (data.drop pos).take bs.length = bs :=
  (List.prefix_iff_eq_take.mp h).symm

theorem le_length (h : Holds data pos bs) (hbs : 0 < bs.length) :
    pos + bs.length ≤ data.length := by
  have hle := h.length_le
  rw [List.length_drop] at hle
  omega

end Holds

section Parts

variable {data : Bytes} {pos : Nat}

theorem wordAt_of_holds {n : Nat} (hn : n < 2 ^ 256) (h : Holds data pos (Bytes.toBig 32 n)) :
    wordAt data pos = .ok n := by
  have hword := h.take_eq
  rw [Bytes.length_toBig] at hword
  have hvalue : n % 256 ^ 32 = n := Nat.mod_eq_of_lt hn
  simp only [wordAt, hword, Bytes.length_toBig, if_true, Bytes.ofBig_toBig, hvalue]

theorem uintAt_of_holds {bits : Nat} (hbits : bits ≤ 256) {n : Fin (2 ^ bits)}
    (h : Holds data pos (Bytes.toBig 32 n.val)) : uintAt data pos bits = .ok n := by
  have hn : n.val < 2 ^ 256 :=
    Nat.lt_of_lt_of_le n.isLt (Nat.pow_le_pow_right (by decide) hbits)
  rw [uintAt, wordAt_of_holds hn h]
  exact dif_pos n.isLt

theorem addressAt_of_holds {a : AddressBytes}
    (h : Holds data pos (List.replicate 12 0 ++ a.val)) : addressAt data pos = .ok a := by
  have hpadding : (data.drop pos).take 12 = List.replicate 12 0 := h.left.take_eq
  have haddress : (data.drop (pos + 12)).take 20 = a.val := by
    have htake := h.right.take_eq
    rwa [a.property] at htake
  simp [addressAt, hpadding, haddress, a.property]

theorem le_paddedLength (n : Nat) : n ≤ paddedLength n := by
  unfold paddedLength
  omega

theorem length_writeText (s : String) :
    (writeText s).length = 32 + paddedLength (Text.encode s).length := by
  have hle := le_paddedLength (Text.encode s).length
  simp only [writeText, List.length_append, Bytes.length_toBig, List.length_replicate]
  omega

theorem textAt_of_holds (hdata : data.length < lengthBound) {s : String}
    (h : Holds data pos (writeText s)) : textAt data pos = .ok s := by
  have hle := le_paddedLength (Text.encode s).length
  have hend := h.le_length (by rw [length_writeText]; omega)
  rw [length_writeText] at hend
  have hpadded : ¬lengthBound ≤ paddedLength (Text.encode s).length := by omega
  have hlength : (Text.encode s).length < 2 ^ 256 :=
    Nat.lt_of_le_of_lt hle (Nat.lt_trans (Nat.lt_of_not_le hpadded) (by decide))
  rw [writeText, List.append_assoc] at h
  have hbody : (data.drop (pos + 32)).take (paddedLength (Text.encode s).length) =
      Text.encode s ++
        List.replicate (paddedLength (Text.encode s).length - (Text.encode s).length) 0 := by
    have htake := h.right.take_eq
    rw [Bytes.length_toBig, List.length_append, List.length_replicate,
      Nat.add_sub_cancel' hle] at htake
    exact htake
  have hpadding : (Text.encode s).length +
      (paddedLength (Text.encode s).length - (Text.encode s).length) =
        paddedLength (Text.encode s).length := Nat.add_sub_cancel' hle
  have hzeros : (List.replicate
      (paddedLength (Text.encode s).length - (Text.encode s).length) (0 : UInt8)).all (· == 0) := by
    simp
  simp only [textAt, wordAt_of_holds hlength h.left, bind, Except.bind, hpadded, if_false, hbody,
    List.length_append, List.length_replicate, hpadding, Nat.lt_irrefl, List.drop_left, hzeros,
    List.take_left, Text.decode?_encode, Bool.not_true, Bool.false_eq_true]
  rfl

end Parts

/-! ### The lengths of written values -/

namespace Ty

mutual

/-- A type whose values are read back: its numbers fit into a word, and its tuples have members. -/
def isProper : Ty → Bool
  | .uint bits => bits ≤ 256
  | .address => true
  | .string => true
  | .tuple ts => !ts.isEmpty && allProper ts

def allProper : List Ty → Bool
  | [] => true
  | t :: ts => isProper t && allProper ts

end

mutual

theorem le_width : (t : Ty) → t.isProper = true → 32 ≤ t.width
  | .uint _, _ => Nat.le_refl _
  | .address, _ => Nat.le_refl _
  | .string, _ => Nat.le_refl _
  | .tuple [], h => by cases h
  | .tuple (t :: ts), h => by
    have hmembers : allProper (t :: ts) = true := h
    have hle := le_widths (t :: ts) hmembers
    rw [List.length_cons] at hle
    rw [width]
    omega

theorem le_widths : (ts : List Ty) → allProper ts = true → 32 * ts.length ≤ widths ts
  | [], _ => Nat.le_refl _
  | t :: ts, h => by
    obtain ⟨ht, hts⟩ := Bool.and_eq_true_iff.mp h
    have hfirst := le_width t ht
    have hrest := le_widths ts hts
    rw [widths, List.length_cons]
    omega

end

theorem le_headWidths {ts : List Ty} (h : allProper ts = true) :
    32 * ts.length ≤ headWidths ts := by
  induction ts with
  | nil => exact Nat.le_refl _
  | cons t ts ih =>
    obtain ⟨ht, hts⟩ := Bool.and_eq_true_iff.mp h
    have hfirst : 32 ≤ t.headWidth := by
      unfold headWidth
      split
      · exact Nat.le_refl _
      · exact le_width t ht
    have hrest := ih hts
    rw [headWidths, List.length_cons]
    omega

end Ty

mutual

/-- A value of a static type has the bytes of its type. -/
theorem length_write : (t : Ty) → t.isDynamic = false → (v : t.Val) → (write t v).length = t.width
  | .uint _, _, _ => Bytes.length_toBig _ _
  | .address, _, a => by simp [write, a.property, Ty.width]
  | .string, h, _ => by cases h
  | .tuple ts, h, vs => by
    obtain ⟨hheads, htails⟩ := writeParts_static ts h vs (Ty.headWidths ts)
    simp [write, Ty.width, hheads, htails]

/-- Members of static types stand among the heads of their tuple. -/
theorem writeParts_static : (ts : List Ty) → Ty.anyDynamic ts = false → (vs : Ty.Vals ts) →
    (tail : Nat) →
      (writeParts ts vs tail).1.length = Ty.widths ts ∧ (writeParts ts vs tail).2 = []
  | [], _, _, _ => ⟨rfl, rfl⟩
  | t :: ts, h, (v, vs), tail => by
    obtain ⟨ht, hts⟩ := Bool.or_eq_false_iff.mp h
    obtain ⟨hheads, htails⟩ := writeParts_static ts hts vs tail
    simp [writeParts, ht, Ty.widths, length_write t ht v, hheads, htails]

end

theorem length_heads (ts : List Ty) (vs : Ty.Vals ts) (tail : Nat) :
    (writeParts ts vs tail).1.length = Ty.headWidths ts := by
  induction ts generalizing tail with
  | nil => rfl
  | cons t ts ih =>
    obtain ⟨v, vs⟩ := vs
    cases ht : t.isDynamic with
    | true => simp [writeParts, ht, Ty.headWidths, Ty.headWidth, ih]
    | false => simp [writeParts, ht, Ty.headWidths, Ty.headWidth, length_write t ht v, ih]

theorem length_write_pos {t : Ty} (ht : t.isProper = true) (v : t.Val) :
    0 < (write t v).length := by
  cases t with
  | uint bits => simp [write]
  | address => simp [write]
  | string =>
    rw [write, length_writeText v]
    omega
  | tuple ts =>
    obtain ⟨hts, hmembers⟩ := Bool.and_eq_true_iff.mp ht
    have hle := Ty.le_headWidths hmembers
    have hlength : 0 < ts.length := by
      rw [List.length_pos_iff]
      simpa using hts
    rw [write, List.length_append, length_heads ts v]
    omega

/-! ### Reading -/

section Read

variable {data : Bytes}

/-- The pointer to a member leads to its bytes. -/
theorem wordAt_pointer (hdata : data.length < lengthBound) {pos start tail : Nat} {body : Bytes}
    (hbody : 0 < body.length) (hword : Holds data pos (Bytes.toBig 32 tail))
    (h : Holds data (start + tail) body) :
    wordAt data pos = .ok tail ∧ start + tail < data.length := by
  have hle := h.le_length hbody
  have htail : tail < 2 ^ 256 := by
    refine Nat.lt_trans (Nat.lt_of_le_of_lt ?_ hdata) (by decide)
    omega
  exact ⟨wordAt_of_holds htail hword, by omega⟩

mutual

theorem readAt_of_holds (hdata : data.length < lengthBound) : (t : Ty) → t.isProper = true →
    (v : t.Val) → (pos : Nat) → Holds data pos (write t v) → readAt data t pos = .ok v
  | .uint _, ht, _, _, h => uintAt_of_holds (of_decide_eq_true ht) h
  | .address, _, _, _, h => addressAt_of_holds h
  | .string, _, _, _, h => textAt_of_holds hdata h
  | .tuple ts, ht, vs, pos, h => by
    obtain ⟨-, hmembers⟩ := Bool.and_eq_true_iff.mp ht
    rw [write] at h
    have htails := h.right
    rw [length_heads ts vs] at htails
    have hhead := checkHead_of_holds hdata ts hmembers vs pos (pos + 32 * ts.length) pos _
      (Nat.add_le_add_left (Ty.le_headWidths hmembers) pos) h.left htails
    have hread := readMembers_of_holds hdata ts hmembers vs pos pos _ h.left htails
    rw [readAt, hhead]
    exact hread

theorem readMembers_of_holds (hdata : data.length < lengthBound) : (ts : List Ty) →
    Ty.allProper ts = true → (vs : Ty.Vals ts) → (start pos tail : Nat) →
    Holds data pos (writeParts ts vs tail).1 → Holds data (start + tail) (writeParts ts vs tail).2 →
    readMembers data start ts pos = .ok vs
  | [], _, _, _, _, _, _, _ => rfl
  | t :: ts, hts, (v, vs), start, pos, tail, hheads, htails => by
    obtain ⟨ht, hts⟩ := Bool.and_eq_true_iff.mp hts
    cases hd : t.isDynamic with
    | true =>
      simp only [writeParts, hd, if_true] at hheads htails
      have hpointer := (wordAt_pointer hdata (length_write_pos ht v) hheads.left htails.left).1
      have hv := readAt_of_holds hdata t ht v (start + tail) htails.left
      have hrest := htails.right
      rw [Nat.add_assoc] at hrest
      have hheads := hheads.right
      rw [Bytes.length_toBig] at hheads
      have hvs := readMembers_of_holds hdata ts hts vs start (pos + 32) _ hheads hrest
      simp [readMembers, hd, Ty.headWidth, hpointer, hv, hvs, bind, Except.bind]
      rfl
    | false =>
      simp only [writeParts, hd, Bool.false_eq_true, if_false] at hheads htails
      have hv := readAt_of_holds hdata t ht v pos hheads.left
      have hheads := hheads.right
      rw [length_write t hd v] at hheads
      have hvs := readMembers_of_holds hdata ts hts vs start (pos + t.width) _ hheads htails
      simp [readMembers, hd, Ty.headWidth, hv, hvs, bind, Except.bind]
      rfl

theorem checkHead_of_holds (hdata : data.length < lengthBound) : (ts : List Ty) →
    Ty.allProper ts = true → (vs : Ty.Vals ts) → (start behind pos tail : Nat) →
    behind ≤ start + tail → Holds data pos (writeParts ts vs tail).1 →
    Holds data (start + tail) (writeParts ts vs tail).2 →
    checkHead data start behind ts pos = .ok ()
  | [], _, _, _, _, _, _, _, _, _ => rfl
  | t :: ts, hts, (v, vs), start, behind, pos, tail, hbehind, hheads, htails => by
    obtain ⟨ht, hts⟩ := Bool.and_eq_true_iff.mp hts
    cases hd : t.isDynamic with
    | true =>
      simp only [writeParts, hd, if_true] at hheads htails
      obtain ⟨hpointer, hlt⟩ :=
        wordAt_pointer hdata (length_write_pos ht v) hheads.left htails.left
      have hleads : (start + tail < behind || data.length ≤ start + tail) = false := by
        simp only [Bool.or_eq_false_iff, decide_eq_false_iff_not]
        omega
      have hrest := htails.right
      rw [Nat.add_assoc] at hrest
      have hheads := hheads.right
      rw [Bytes.length_toBig] at hheads
      have hmore := checkHead_of_holds hdata ts hts vs start behind (pos + 32) _
        (by omega) hheads hrest
      simp [checkHead, hd, Ty.headWidth, hpointer, hleads, hmore, bind, Except.bind]
    | false =>
      simp only [writeParts, hd, Bool.false_eq_true, if_false] at hheads htails
      have hv := readAt_of_holds hdata t ht v pos hheads.left
      have hheads := hheads.right
      rw [length_write t hd v] at hheads
      have hmore := checkHead_of_holds hdata ts hts vs start behind (pos + t.width) _ hbehind
        hheads htails
      simp [checkHead, hd, Ty.headWidth, hv, hmore, bind, Except.bind]

end

end Read

/-- Values are read back from the start of bytes that can be addressed. -/
theorem readAll_write {ts : List Ty} (hts : Ty.allProper ts = true) (hsome : ts ≠ [])
    (vs : Ty.Vals ts) (more : Bytes)
    (hlength : (write (.tuple ts) vs ++ more).length < lengthBound) :
    readAll ts (write (.tuple ts) vs ++ more) = .ok vs := by
  refine readAt_of_holds hlength (.tuple ts) ?_ vs 0 (List.prefix_append _ _)
  simp [Ty.isProper, hts, hsome]

theorem read_write {t : Ty} (ht : t.isProper = true) (v : t.Val) (more : Bytes)
    (hlength : (write (.tuple [t]) (v, ()) ++ more).length < lengthBound) :
    read t (write (.tuple [t]) (v, ()) ++ more) = .ok v := by
  have hmembers : Ty.allProper [t] = true := by simp [Ty.allProper, ht]
  rw [read, readAll_write hmembers (by simp) (v, ()) more hlength]
  rfl

end ChainIndexer.Abi
