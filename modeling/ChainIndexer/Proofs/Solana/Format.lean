import ChainIndexer.Proofs.Activity
import ChainIndexer.Solana.Borsh
import Mathlib.Data.List.DropRight

/-!
The formats that readers accept. `Accepts read P` is about every source: what a reader gives, and
how far it gets, is what `P` says of the bytes that stand there, and it gives something just if
there are such bytes. The readers of single fields accept the formats of the fields, and a sequence
of readers accepts the concatenations (`Accepts.bind`), so the format of a record is found by
following its reader. As a reader has one result, no bytes of a format begin with others of it
(`Accepts.prefix_free`).
-/

namespace ChainIndexer.Solana

open Act

/-- A reader gives a result just if bytes of the format of this result come next, and then goes on
behind them. -/
def Accepts {α : Type} (read : Borsh α) (P : α → Bytes → Prop) : Prop :=
  ∀ (data : Bytes) (pos : Nat) (a : α) (s' : Source), pos ≤ data.length →
    (exec read ⟨data, pos⟩ = (.ok a, s') ↔
      ∃ bs, P a bs ∧ bs <+: data.drop pos ∧ s' = ⟨data, pos + bs.length⟩)

namespace Accepts

variable {α β : Type} {read : Borsh α} {P P' : α → Bytes → Prop}

theorem congr (h : Accepts read P) (hP : ∀ a bs, P a bs ↔ P' a bs) : Accepts read P' := by
  intro data pos a s' hpos
  rw [h data pos a s' hpos]
  simp only [hP]

theorem lift (x : Except Failure α) :
    Accepts (liftM x) fun a bs => x = .ok a ∧ bs = [] := by
  intro data pos a s' _
  rw [exec_lift]
  constructor
  · intro h
    cases h
    exact ⟨[], ⟨rfl, rfl⟩, List.nil_prefix, rfl⟩
  · rintro ⟨bs, ⟨rfl, rfl⟩, -, rfl⟩
    rfl

theorem pure (a : α) : Accepts (pure a) fun b bs => b = a ∧ bs = [] := by
  refine (lift (.ok a)).congr fun b bs => ?_
  rw [Except.ok.injEq, eq_comm]

/-- A part of what comes next is not longer than the rest of the source. -/
theorem pos_le {data bs : Bytes} {pos : Nat} (hpos : pos ≤ data.length)
    (h : bs <+: data.drop pos) : pos + bs.length ≤ data.length := by
  have hle := h.length_le
  rw [List.length_drop] at hle
  omega

theorem bind {f : α → Borsh β} {Q : α → β → Bytes → Prop} (hread : Accepts read P)
    (hf : ∀ a, Accepts (f a) (Q a)) :
    Accepts (read >>= f) fun b bs =>
      ∃ a front back, P a front ∧ Q a b back ∧ bs = front ++ back := by
  intro data pos b s' hpos
  constructor
  · intro h
    obtain ⟨a, s₁, hfirst, hsecond⟩ := exec_bind_ok h
    obtain ⟨front, hfront, ⟨rest, hrest⟩, rfl⟩ := (hread data pos a s₁ hpos).mp hfirst
    have hpos' := pos_le hpos ⟨rest, hrest⟩
    obtain ⟨back, hback, ⟨more, hmore⟩, rfl⟩ := (hf a data _ b s' hpos').mp hsecond
    refine ⟨front ++ back, ⟨a, front, back, hfront, hback, rfl⟩, ⟨more, ?_⟩, ?_⟩
    · rw [← List.drop_drop, ← hrest, List.drop_left] at hmore
      rw [← hrest, ← hmore, List.append_assoc]
    · rw [List.length_append, Nat.add_assoc]
  · rintro ⟨bs, ⟨a, front, back, hfront, hback, rfl⟩, ⟨more, hmore⟩, rfl⟩
    rw [List.append_assoc] at hmore
    have hfirst := (hread data pos a _ hpos).mpr ⟨front, hfront, ⟨_, hmore⟩, rfl⟩
    have hpos' := pos_le hpos ⟨_, hmore⟩
    have hbegins : back <+: data.drop (pos + front.length) := by
      rw [← List.drop_drop, ← hmore, List.drop_left]
      exact List.prefix_append _ _
    rw [exec_bind_of_ok hfirst, (hf a data _ b _ hpos').mpr ⟨back, hback, hbegins, rfl⟩,
      List.length_append, Nat.add_assoc]

theorem map (h : Accepts read P) (f : α → β) :
    Accepts (do return f (← read)) fun b bs => ∃ a, P a bs ∧ b = f a := by
  refine (h.bind fun a => pure (f a)).congr fun b bs => ?_
  constructor
  · rintro ⟨a, front, _, hfront, ⟨rfl, rfl⟩, rfl⟩
    exact ⟨a, by rwa [List.append_nil], rfl⟩
  · rintro ⟨a, ha, rfl⟩
    exact ⟨a, bs, [], ha, ⟨rfl, rfl⟩, (List.append_nil bs).symm⟩

/-- A reader that takes nothing, and gives what was found if anything was. -/
theorem found {o : Option α} (hsome : ∀ a, o = some a → read = Pure.pure a)
    (hnone : o = none → ∀ s a s', exec read s ≠ (.ok a, s')) :
    Accepts read fun a bs => o = some a ∧ bs = [] := by
  cases o with
  | some a =>
    rw [hsome a rfl]
    exact (pure a).congr fun b bs => by rw [Option.some.injEq, eq_comm]
  | none =>
    intro data pos a s' _
    constructor
    · intro h
      exact absurd h (hnone rfl _ _ _)
    · rintro ⟨bs, ⟨h, -⟩, -⟩
      cases h

/-- Bytes of a format do not begin with other bytes of the format. -/
theorem prefix_free (h : Accepts read P) {a a' : α} {bs bs' : Bytes} (hbs : P a bs)
    (hbs' : P a' bs') (hbegins : bs <+: bs') : bs = bs' := by
  have hwhole := (h bs' 0 a' _ (Nat.zero_le _)).mpr ⟨bs', hbs', List.prefix_rfl, rfl⟩
  have hpart := (h bs' 0 a _ (Nat.zero_le _)).mpr ⟨bs, hbs, hbegins, rfl⟩
  have hsame := hwhole.symm.trans hpart
  have hlength : bs'.length = bs.length := by simpa using congrArg (fun r => r.2.pos) hsame
  exact hbegins.eq_of_length hlength.symm

end Accepts

/-! ### Fields -/

namespace Borsh

theorem exec_take (count : Nat) (s : Source) :
    exec (take count) s =
      if s.data.length < s.pos + count then
        (.error (.bytesMissing count s.pos (s.data.length - s.pos)), s)
      else (.ok ((s.data.drop s.pos).take count), { s with pos := s.pos + count }) := by
  by_cases hshort : s.data.length < s.pos + count
  · rw [if_pos hshort]
    refine (exec_bind_of_ok (exec_sure _ _) _).trans ?_
    exact (congrArg (fun x => exec x s) (if_pos hshort)).trans rfl
  · rw [if_neg hshort]
    refine (exec_bind_of_ok (exec_sure _ _) _).trans ?_
    exact (congrArg (fun x => exec x s) (if_neg hshort)).trans rfl

theorem take_accepts (count : Nat) :
    Accepts (take count) fun bs' bs => bs' = bs ∧ bs.length = count := by
  intro data pos bs' s' hpos
  rw [exec_take]
  constructor
  · intro h
    split at h
    · cases h
    · rename_i hlong
      cases h
      refine ⟨_, ⟨rfl, ?_⟩, List.take_prefix _ _, ?_⟩
      all_goals
        rw [List.length_take_of_le]
        rw [List.length_drop]
        omega
  · rintro ⟨bs, ⟨rfl, rfl⟩, hbegins, rfl⟩
    have hlong : ¬data.length < pos + bs'.length := Nat.not_lt.mpr (Accepts.pos_le hpos hbegins)
    rw [if_neg hlong, ← List.prefix_iff_eq_take.mp hbegins]

theorem number_accepts (width : Nat) :
    Accepts (number width) fun n bs => n < 256 ^ width ∧ bs = Bytes.toLittle width n := by
  refine ((take_accepts width).map Bytes.ofLittle).congr fun n bs => ?_
  constructor
  · rintro ⟨_, ⟨rfl, rfl⟩, rfl⟩
    exact ⟨Bytes.ofLittle_lt _, (Bytes.toLittle_ofLittle _).symm⟩
  · rintro ⟨hn, rfl⟩
    refine ⟨_, ⟨rfl, Bytes.length_toLittle _ _⟩, ?_⟩
    rw [Bytes.ofLittle_toLittle, Nat.mod_eq_of_lt hn]

theorem key_accepts : Accepts key fun s bs => bs.length = 32 ∧ s = Base58.write bs := by
  refine ((take_accepts 32).map Base58.write).congr fun s bs => ?_
  constructor
  · rintro ⟨_, ⟨rfl, hlength⟩, rfl⟩
    exact ⟨hlength, rfl⟩
  · rintro ⟨hlength, rfl⟩
    exact ⟨_, ⟨rfl, hlength⟩, rfl⟩

theorem decode?_eq_some_iff {bs : Bytes} {s : String} :
    Text.decode? bs = some s ↔ bs = Text.encode s := by
  constructor
  · intro h
    exact (Text.encode_of_decode? h).symm
  · rintro rfl
    exact Text.decode?_encode s

/-- A text behind its length. -/
def measured (s : String) : Bytes :=
  Bytes.toLittle 4 (Text.encode s).length ++ Text.encode s

theorem string_accepts :
    Accepts string fun s bs => (Text.encode s).length < 2 ^ 32 ∧ bs = measured s := by
  refine Accepts.congr (Accepts.bind (number_accepts 4) fun length =>
    Accepts.bind (take_accepts length) fun bs => Accepts.found (o := Text.decode? bs) ?_ ?_)
    fun s bs => ?_
  · intro s hs
    rw [hs]
  · intro hnone s a s' h
    rw [hnone] at h
    obtain ⟨_, _, -, h⟩ := exec_bind_ok h
    rw [exec_throw] at h
    cases h
  · constructor
    · rintro ⟨length, _, _, ⟨hlength, rfl⟩, ⟨body, _, _, ⟨rfl, rfl⟩, ⟨hs, rfl⟩, rfl⟩, rfl⟩
      obtain rfl := decode?_eq_some_iff.mp hs
      refine ⟨hlength, ?_⟩
      rw [List.append_nil, measured]
    · rintro ⟨hlength, rfl⟩
      refine ⟨_, _, _, ⟨hlength, rfl⟩,
        ⟨_, _, [], ⟨rfl, rfl⟩, ⟨Text.decode?_encode s, rfl⟩, rfl⟩, ?_⟩
      rw [List.append_nil, measured]

/-- Bytes with zeros behind them, up to a size. -/
def padded (size : Nat) (bs : Bytes) : Bytes :=
  bs ++ List.replicate (size - bs.length) 0

/-- Some bytes fit into a field, and no zero at their end counts as padding. -/
def Fits (size : Nat) (bs : Bytes) : Prop :=
  bs.length ≤ size ∧ bs.getLast? ≠ some 0

instance (size : Nat) (bs : Bytes) : Decidable (Fits size bs) :=
  inferInstanceAs (Decidable (bs.length ≤ size ∧ bs.getLast? ≠ some 0))

theorem length_padded {size : Nat} {bs : Bytes} (h : bs.length ≤ size) :
    (padded size bs).length = size := by
  rw [padded, List.length_append, List.length_replicate, Nat.add_sub_cancel' h]

/-- The bytes of a field without the zeros at their end are those that were put into it. -/
theorem dropZeros_eq_iff {field bs : Bytes} :
    dropZeros field = bs ↔ Fits field.length bs ∧ field = padded field.length bs := by
  constructor
  · rintro rfl
    have hsplit : dropZeros field ++ field.rtakeWhile (· == 0) = field :=
      List.rdropWhile_append_rtakeWhile
    have hlength := congrArg List.length hsplit
    rw [List.length_append] at hlength
    have hzeros : field.rtakeWhile (· == 0) =
        List.replicate (field.rtakeWhile (· == 0)).length 0 := by
      refine List.eq_replicate_of_mem fun b hb => ?_
      have hzero := List.mem_rtakeWhile_imp hb
      exact eq_of_beq hzero
    have hlast : (dropZeros field).getLast? ≠ some 0 := by
      intro hzero
      obtain ⟨hne, heq⟩ := List.mem_getLast?_eq_getLast hzero
      exact List.rdropWhile_last_not (· == 0) field hne (beq_iff_eq.mpr heq.symm)
    refine ⟨⟨by omega, hlast⟩, ?_⟩
    rw [padded, ← hlength, Nat.add_sub_cancel_left, ← hzeros, hsplit]
  · rintro ⟨⟨hle, hlast⟩, h⟩
    have hkept : List.rdropWhile (· == 0) bs = bs := by
      rw [List.rdropWhile_eq_self_iff]
      intro hne hzero
      rw [List.getLast?_eq_some_getLast hne, eq_of_beq hzero] at hlast
      exact hlast rfl
    rw [h, dropZeros, padded, List.reverse_append, List.reverse_replicate,
      List.dropWhile_append_of_pos (by simp)]
    exact hkept

theorem fixedText_accepts (size : Nat) : Accepts (fixedText size) fun s bs =>
    Fits size (Text.encode s) ∧ bs = padded size (Text.encode s) := by
  refine Accepts.congr (Accepts.bind (take_accepts size) fun bs =>
    Accepts.found (o := Text.decode? (dropZeros bs)) ?_ ?_) fun s bs => ?_
  · intro s hs
    rw [hs]
  · intro hnone s a s' h
    rw [hnone, exec_throw] at h
    cases h
  · constructor
    · rintro ⟨_, field, _, ⟨rfl, rfl⟩, ⟨hs, rfl⟩, rfl⟩
      rw [List.append_nil]
      exact dropZeros_eq_iff.mp (decode?_eq_some_iff.mp hs)
    · rintro ⟨hfits, rfl⟩
      have hlength := length_padded hfits.1
      have hdropped : dropZeros (padded size (Text.encode s)) = Text.encode s :=
        dropZeros_eq_iff.mpr (by rw [hlength]; exact ⟨hfits, rfl⟩)
      refine ⟨_, _, [], ⟨rfl, hlength⟩, ⟨?_, rfl⟩, (List.append_nil _).symm⟩
      rw [hdropped, Text.decode?_encode]

end Borsh

/-! ### Layouts -/

abbrev Key := { bs : Bytes // bs.length = 32 }

/-- A text whose length fits into the four bytes before it. -/
abbrev ShortText := { s : String // (Text.encode s).length < 2 ^ 32 }

/-- A text for a field of a fixed size. -/
abbrev FieldText (size : Nat) := { s : String // Borsh.Fits size (Text.encode s) }

/-- A kind of field. -/
inductive Field where
  | number (width : Nat)
  | key
  | text
  | fixedText (size : Nat)

namespace Field

/-- What a field holds. -/
@[reducible]
def Val : Field → Type
  | .number width => Fin (256 ^ width)
  | .key => Key
  | .text => ShortText
  | .fixedText size => FieldText size

def write : (f : Field) → f.Val → Bytes
  | .number width, n => Bytes.toLittle width n.val
  | .key, bs => bs.val
  | .text, s => Borsh.measured s.val
  | .fixedText size, s => Borsh.padded size (Text.encode s.val)

/-- What the reader of a field gives. -/
@[reducible]
def Reading : Field → Type
  | .number _ => Nat
  | _ => String

def read : (f : Field) → Borsh f.Reading
  | .number width => Borsh.number width
  | .key => Borsh.key
  | .text => Borsh.string
  | .fixedText size => Borsh.fixedText size

/-- What is read of a value. -/
def reading : (f : Field) → f.Val → f.Reading
  | .number _, n => n.val
  | .key, bs => Base58.write bs.val
  | .text, s => s.val
  | .fixedText _, s => s.val

theorem read_accepts (f : Field) :
    Accepts f.read fun r bs => ∃ v, bs = f.write v ∧ r = f.reading v := by
  cases f with
  | number width =>
    refine (Borsh.number_accepts width).congr fun n bs => ?_
    exact ⟨fun ⟨hn, h⟩ => ⟨⟨n, hn⟩, h, rfl⟩, fun ⟨v, h, hn⟩ => ⟨hn ▸ v.isLt, hn ▸ h⟩⟩
  | key =>
    refine Borsh.key_accepts.congr fun s bs => ?_
    exact ⟨fun ⟨hlength, h⟩ => ⟨⟨bs, hlength⟩, rfl, h⟩, fun ⟨v, h, hs⟩ => ⟨h ▸ v.property, h ▸ hs⟩⟩
  | text =>
    refine Borsh.string_accepts.congr fun s bs => ?_
    exact ⟨fun ⟨hs, h⟩ => ⟨⟨s, hs⟩, h, rfl⟩, fun ⟨v, h, hs⟩ => ⟨hs ▸ v.property, hs ▸ h⟩⟩
  | fixedText size =>
    refine (Borsh.fixedText_accepts size).congr fun s bs => ?_
    exact ⟨fun ⟨hs, h⟩ => ⟨⟨s, hs⟩, h, rfl⟩, fun ⟨v, h, hs⟩ => ⟨hs ▸ v.property, hs ▸ h⟩⟩

end Field

/-- The fields of a record, in their order. -/
abbrev Layout := List Field

namespace Layout

@[reducible]
def Vals : Layout → Type
  | [] => Unit
  | f :: fs => f.Val × Vals fs

def write : (fs : Layout) → Vals fs → Bytes
  | [], _ => []
  | f :: fs, (v, vs) => f.write v ++ write fs vs

@[reducible]
def Readings : Layout → Type
  | [] => Unit
  | f :: fs => f.Reading × Readings fs

def read : (fs : Layout) → Borsh (Readings fs)
  | [] => return ()
  | f :: fs => do
    let r ← f.read
    let rs ← read fs
    return (r, rs)

def readings : (fs : Layout) → Vals fs → Readings fs
  | [], _ => ()
  | f :: fs, (v, vs) => (f.reading v, readings fs vs)

/-- Fields are read just where they stand one after the other. -/
theorem read_accepts (fs : Layout) :
    Accepts (read fs) fun rs bs => ∃ vs, bs = write fs vs ∧ rs = readings fs vs := by
  induction fs with
  | nil =>
    refine (Accepts.pure ()).congr fun rs bs => ?_
    exact ⟨fun ⟨_, h⟩ => ⟨(), h, rfl⟩, fun ⟨_, h, _⟩ => ⟨rfl, h⟩⟩
  | cons f fs ih =>
    refine (f.read_accepts.bind fun r => ih.map fun rs => (r, rs)).congr fun rs bs => ?_
    constructor
    · rintro ⟨r, _, _, ⟨v, rfl, rfl⟩, ⟨_, ⟨vs, rfl, rfl⟩, rfl⟩, rfl⟩
      exact ⟨(v, vs), rfl, rfl⟩
    · rintro ⟨⟨v, vs⟩, rfl, rfl⟩
      exact ⟨_, _, _, ⟨v, rfl, rfl⟩, ⟨_, ⟨vs, rfl, rfl⟩, rfl⟩, rfl⟩

end Layout

end ChainIndexer.Solana
