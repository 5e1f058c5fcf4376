import ChainIndexer.Proofs.Base58
import ChainIndexer.Proofs.Solana.Format

/-!
What a read does, whether it succeeds or not, and what a row of reads does that goes on after reads
that have failed. The formats of fields say when a read succeeds; here the failures are told apart
(`Field.Outcome`). A read that fails for want of bytes has taken nothing but the length of a text, one
that fails later has taken the whole field, and in either case no field stands there. So every read
goes on in the same bytes and stays inside them (`Field.Outcome.advances`), and by induction so does
every row of reads (`Source.after_advances`).
-/

namespace ChainIndexer.Solana

open Act

namespace Source

/-- The bytes that have not been read. -/
def left (s : Source) : Bytes :=
  s.data.drop s.pos

/-- The source behind some of the bytes that are left. -/
def skip (s : Source) (count : Nat) : Source :=
  { s with pos := s.pos + count }

/-- A later place in the same bytes. -/
structure Advances (s s' : Source) : Prop where
  data : s'.data = s.data
  forward : s.pos ≤ s'.pos
  inside : s'.pos ≤ s.data.length

/-- The source after some reads, each from where the one before has left it, be it by a failure. -/
def after (s : Source) : List Field → Source
  | [] => s
  | f :: fs => after (exec f.read s).2 fs

theorem Advances.trans {s s' s'' : Source} (h : s.Advances s') (h' : s'.Advances s'') :
    s.Advances s'' where
  data := h'.data.trans h.data
  forward := Nat.le_trans h.forward h'.forward
  inside := by
    rw [← h.data]
    exact h'.inside

variable {s s' : Source}

@[simp] theorem length_left (s : Source) : s.left.length = s.data.length - s.pos :=
  List.length_drop

theorem left_skip (s : Source) (count : Nat) : (s.skip count).left = s.left.drop count :=
  List.drop_drop.symm

theorem skip_skip (s : Source) (count more : Nat) :
    (s.skip count).skip more = s.skip (count + more) := by
  simp [skip, Nat.add_assoc]

theorem skip_inside {count : Nat} (hs : s.pos ≤ s.data.length) (hcount : count ≤ s.left.length) :
    (s.skip count).pos ≤ (s.skip count).data.length := by
  rw [length_left] at hcount
  change s.pos + count ≤ s.data.length
  omega

theorem advances_skip {count : Nat} (hs : s.pos ≤ s.data.length) (hcount : count ≤ s.left.length) :
    s.Advances (s.skip count) :=
  ⟨rfl, Nat.le_add_right _ _, skip_inside hs hcount⟩

end Source

/-! ### Bytes that are wanted -/

namespace Borsh

variable {s s' : Source} {e : Failure} {count : Nat}

theorem take_ok {bs : Bytes} (h : exec (take count) s = (.ok bs, s')) :
    count ≤ s.left.length ∧ bs = s.left.take count ∧ s' = s.skip count := by
  rw [exec_take] at h
  split at h
  · cases h
  · cases h
    refine ⟨?_, rfl, rfl⟩
    rw [Source.length_left]
    omega

theorem take_error (hs : s.pos ≤ s.data.length) (h : exec (take count) s = (.error e, s')) :
    e.kind = .decode ∧ s.left.length < count ∧ s' = s := by
  rw [exec_take] at h
  split at h
  · cases h
    refine ⟨rfl, ?_, rfl⟩
    rw [Source.length_left]
    omega
  · cases h

/-- A reader that turns bytes into a value fails just for want of them. -/
theorem map_take_error {α : Type} {f : Bytes → α} (hs : s.pos ≤ s.data.length)
    (h : exec (do return f (← take count)) s = (.error e, s')) :
    e.kind = .decode ∧ s.left.length < count ∧ s' = s := by
  rcases exec_bind_error h with htake | ⟨bs, s₁, -, hpure⟩
  · exact take_error hs htake
  · rw [exec_pure] at hpure
    cases hpure

end Borsh

namespace Field

/-- How many of the bytes that are left a field wants. A text says it in the first four. -/
def wants : Field → Bytes → Nat
  | .number width, _ => width
  | .key, _ => 32
  | .text, left => if left.length < 4 then 4 else 4 + Bytes.ofLittle (left.take 4)
  | .fixedText size, _ => size

/-- How far a read gets for which there are too few bytes: behind the length of a text, if that is
there. -/
def lead : Field → Bytes → Nat
  | .text, left => if left.length < 4 then 0 else 4
  | _, _ => 0

/-- What becomes of a read, and of the source: it gives the value of the field that stands there, or
no field stands there, because there are too few bytes or because they are no text. -/
inductive Outcome (f : Field) (s : Source) : Except Failure f.Reading → Source → Prop
  | read (v : f.Val) (stands : f.write v <+: s.left) :
      Outcome f s (.ok (f.reading v)) (s.skip (f.write v).length)
  | short {e : Failure} (none : ∀ v, ¬ f.write v <+: s.left) (decode : e.kind = .decode)
      (wanting : s.left.length < f.wants s.left) : Outcome f s (.error e) (s.skip (f.lead s.left))
  | garbled {e : Failure} (none : ∀ v, ¬ f.write v <+: s.left) (decode : e.kind = .decode)
      (enough : f.wants s.left ≤ s.left.length) : Outcome f s (.error e) (s.skip (f.wants s.left))

/-- What a field wants is what it is written in. -/
theorem wants_write (f : Field) (v : f.Val) (more : Bytes) :
    f.wants (f.write v ++ more) = (f.write v).length := by
  cases f with
  | number width => exact (Bytes.length_toLittle _ _).symm
  | key => exact v.property.symm
  | text =>
    have hwritten : (Field.text.write v).length = 4 + (Text.encode v.val).length := by
      simp [write, Borsh.measured]
    have hlong : ¬ (Field.text.write v ++ more).length < 4 := by
      rw [List.length_append, hwritten]
      omega
    have hhead : (Field.text.write v ++ more).take 4 =
        Bytes.toLittle 4 (Text.encode v.val).length := by
      rw [write, Borsh.measured, List.append_assoc, List.take_left' (Bytes.length_toLittle _ _)]
    rw [wants, if_neg hlong, hhead, Bytes.ofLittle_toLittle, Nat.mod_eq_of_lt v.property, hwritten]
  | fixedText size => exact (Borsh.length_padded v.property.1).symm

theorem lead_le (f : Field) (left : Bytes) : f.lead left ≤ left.length := by
  cases f with
  | text =>
    simp only [lead]
    split
    · exact Nat.zero_le _
    · omega
  | _ => exact Nat.zero_le _

variable {f : Field} {s s' : Source} {e : Failure}

/-- A text fails for want of the bytes of its length, for want of those that it counts, or because
they are no text. -/
private theorem text_error (hs : s.pos ≤ s.data.length)
    (h : exec Borsh.string s = (.error e, s')) :
    e.kind = .decode ∧
      (s.left.length < Field.text.wants s.left ∧ s' = s.skip (Field.text.lead s.left) ∨
        Field.text.wants s.left ≤ s.left.length ∧ s' = s.skip (Field.text.wants s.left)) := by
  simp only [wants, lead]
  rcases exec_bind_error h with hlength | ⟨length, s₁, hlength, hbody⟩
  · obtain ⟨hkind, hshort, rfl⟩ := Borsh.map_take_error hs hlength
    refine ⟨hkind, Or.inl ?_⟩
    rw [if_pos hshort, if_pos hshort]
    exact ⟨hshort, rfl⟩
  obtain ⟨bs, s₂, htake, hpure⟩ := exec_bind_ok hlength
  obtain ⟨hfour, rfl, rfl⟩ := Borsh.take_ok htake
  rw [exec_pure] at hpure
  cases hpure
  rw [if_neg (Nat.not_lt.mpr hfour), if_neg (Nat.not_lt.mpr hfour)]
  rcases exec_bind_error hbody with hbytes | ⟨bs, s₁, hbytes, htext⟩
  · obtain ⟨hkind, hshort, rfl⟩ := Borsh.take_error (Source.skip_inside hs hfour) hbytes
    rw [Source.left_skip, List.length_drop] at hshort
    exact ⟨hkind, Or.inl ⟨by omega, rfl⟩⟩
  · obtain ⟨henough, rfl, rfl⟩ := Borsh.take_ok hbytes
    rw [Source.left_skip, List.length_drop] at henough
    rw [Source.skip_skip] at htext
    have hend : e.kind = .decode ∧
        s' = s.skip (4 + Bytes.ofLittle (s.left.take 4)) := by
      split at htext
      · rw [exec_pure] at htext
        cases htext
      · rcases exec_bind_error htext with hget | ⟨_, _, hget, hthrow⟩
        · rw [exec_sure] at hget
          cases hget
        · rw [exec_sure] at hget
          cases hget
          rw [exec_throw] at hthrow
          cases hthrow
          exact ⟨rfl, rfl⟩
    exact ⟨hend.1, Or.inr ⟨by omega, hend.2⟩⟩

private theorem fixedText_error {size : Nat} (hs : s.pos ≤ s.data.length)
    (h : exec (Borsh.fixedText size) s = (.error e, s')) :
    e.kind = .decode ∧
      (s.left.length < size ∧ s' = s ∨ size ≤ s.left.length ∧ s' = s.skip size) := by
  rcases exec_bind_error h with htake | ⟨bs, s₁, htake, htext⟩
  · obtain ⟨hkind, hshort, rfl⟩ := Borsh.take_error hs htake
    exact ⟨hkind, Or.inl ⟨hshort, rfl⟩⟩
  · obtain ⟨henough, rfl, rfl⟩ := Borsh.take_ok htake
    split at htext
    · rw [exec_pure] at htext
      cases htext
    · rw [exec_throw] at htext
      cases htext
      exact ⟨rfl, Or.inr ⟨henough, rfl⟩⟩

/-- A read fails with a failure of decoding, for want of bytes or behind the field. -/
theorem read_error (hs : s.pos ≤ s.data.length) (h : exec f.read s = (.error e, s')) :
    e.kind = .decode ∧
      (s.left.length < f.wants s.left ∧ s' = s.skip (f.lead s.left) ∨
        f.wants s.left ≤ s.left.length ∧ s' = s.skip (f.wants s.left)) := by
  cases f with
  | number width =>
    obtain ⟨hkind, hshort, rfl⟩ := Borsh.map_take_error hs h
    exact ⟨hkind, Or.inl ⟨hshort, rfl⟩⟩
  | key =>
    obtain ⟨hkind, hshort, rfl⟩ := Borsh.map_take_error hs h
    exact ⟨hkind, Or.inl ⟨hshort, rfl⟩⟩
  | text => exact text_error hs h
  | fixedText size => exact fixedText_error hs h

theorem read_outcome (f : Field) (hs : s.pos ≤ s.data.length) :
    f.Outcome s (exec f.read s).1 (exec f.read s).2 := by
  rcases hread : exec f.read s with ⟨r, s'⟩
  cases r with
  | ok a =>
    obtain ⟨_, ⟨v, rfl, rfl⟩, hstands, rfl⟩ := (f.read_accepts s.data s.pos a s' hs).mp hread
    exact .read v hstands
  | error e =>
    have hnone : ∀ v, ¬ f.write v <+: s.left := by
      intro v hstands
      have hok := (f.read_accepts s.data s.pos (f.reading v) _ hs).mpr
        ⟨f.write v, ⟨v, rfl, rfl⟩, hstands, rfl⟩
      cases hread.symm.trans hok
    obtain ⟨hkind, ⟨hshort, rfl⟩ | ⟨henough, rfl⟩⟩ := read_error hs hread
    · exact .short hnone hkind hshort
    · exact .garbled hnone hkind henough

theorem Outcome.advances {r : Except Failure f.Reading} (hs : s.pos ≤ s.data.length)
    (h : f.Outcome s r s') : s.Advances s' := by
  cases h with
  | read v stands => exact Source.advances_skip hs stands.length_le
  | short => exact Source.advances_skip hs (f.lead_le s.left)
  | garbled _ _ enough => exact Source.advances_skip hs enough

theorem reading_injective (f : Field) : Function.Injective f.reading := by
  cases f with
  | number width => exact Fin.val_injective
  | key => exact fun k k' h => Subtype.ext (Base58.write_injective h)
  | text => exact Subtype.val_injective
  | fixedText size => exact Subtype.val_injective

end Field

/-! ### Rows of reads -/

theorem Source.after_advances {s : Source} (hs : s.pos ≤ s.data.length) (fs : List Field) :
    s.Advances (s.after fs) := by
  induction fs generalizing s with
  | nil => exact ⟨rfl, Nat.le_refl _, hs⟩
  | cons f fs ih =>
    have hfirst := (f.read_outcome hs).advances hs
    have hinside : (exec f.read s).2.pos ≤ (exec f.read s).2.data.length := by
      rw [hfirst.data]
      exact hfirst.inside
    exact hfirst.trans (ih hinside)

namespace Layout

/-- What is read of the values of a layout tells them apart. -/
theorem readings_injective (fs : Layout) : Function.Injective (readings fs) := by
  induction fs with
  | nil => exact fun _ _ _ => rfl
  | cons f fs ih =>
    rintro ⟨v, vs⟩ ⟨v', vs'⟩ h
    obtain ⟨hv, hvs⟩ := Prod.mk.inj h
    rw [f.reading_injective hv, ih hvs]

theorem exec_read (fs : Layout) (vs : Vals fs) (front rest : Bytes) :
    exec (read fs) ⟨front ++ write fs vs ++ rest, front.length⟩ =
      (.ok (readings fs vs),
        ⟨front ++ write fs vs ++ rest, front.length + (write fs vs).length⟩) := by
  refine (read_accepts fs _ _ _ _ (by simp)).mpr ⟨write fs vs, ⟨vs, rfl, rfl⟩, ?_, rfl⟩
  rw [List.append_assoc, List.drop_left]
  exact List.prefix_append _ _

end Layout

/-- Reading is faithful. Values that are written one after the other are read as they are, wherever
they stand, and the source is behind them. And from any place in any bytes, after any reads, failing
ones among them, the source is at a later place in the same bytes; and so it is after one more read,
which gives the value of the field that stands there and goes just behind it, or fails as undecodable
because none stands there, and then goes no further than the length of a text if what it wants is more
than what is left. -/
theorem reads_faithful :
    (∀ (fs : Layout) (vs : Layout.Vals fs) (front rest : Bytes),
      exec (Layout.read fs) ⟨front ++ Layout.write fs vs ++ rest, front.length⟩ =
        (.ok (Layout.readings fs vs), ⟨front ++ Layout.write fs vs ++ rest,
          front.length + (Layout.write fs vs).length⟩)) ∧
    (∀ fs : Layout, Function.Injective (Layout.readings fs)) ∧
    (∀ (f : Field) (v : f.Val) (more : Bytes), f.wants (f.write v ++ more) = (f.write v).length) ∧
    ∀ (front rest : Bytes) (fs : List Field) (f : Field),
      let start : Source := ⟨front ++ rest, front.length⟩
      let s := start.after fs
      let (r, s') := exec f.read s
      start.Advances s ∧ s.Advances s' ∧ f.Outcome s r s' := by
  refine ⟨Layout.exec_read, Layout.readings_injective, Field.wants_write,
    fun front rest fs f => ?_⟩
  intro start s
  have hstart : start.pos ≤ start.data.length := by simp [start]
  have hrow := Source.after_advances hstart fs
  have hs : s.pos ≤ s.data.length := by
    rw [hrow.data]
    exact hrow.inside
  have houtcome := f.read_outcome hs
  exact ⟨hrow, houtcome.advances hs, houtcome⟩

/-- The numbers of accounts have one, four, eight and sixteen bytes. -/
example : (Field.number 1).read = Borsh.u8 ∧ (Field.number 4).read = Borsh.u32 ∧
    (Field.number 8).read = Borsh.u64 ∧ (Field.number 16).read = Borsh.u128 :=
  ⟨rfl, rfl, rfl, rfl⟩

/-- A text of nine bytes of which there is one: its length is taken, and the byte is the next number.
-/
example : (Source.after ⟨[9, 0, 0, 0, 97], 0⟩ [.text, .number 1, .key]).pos = 5 := by decide

end ChainIndexer.Solana
