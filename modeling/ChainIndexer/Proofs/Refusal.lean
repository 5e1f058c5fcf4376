import ChainIndexer.Proofs.Step
import ChainIndexer.Push.Code

/-!
How an activity can fail. The guards of the loop are the failures that the program gives when one of
its parts is used in a way in which the others never use it. They are told apart by what they are and
not by their kind, as a bad height in a file and a bad range of blocks are of one kind. `RefusedAs E`
says of a result that it can be refused only with a failure of which `E` holds, `Plain` that it is no
failure of a guard, and `Act.FailsAs E` of an activity that in every state it can fail only with a
failure of which `E` holds; they are closed under every operation, so what holds of the parts of an
activity holds of the whole. Here the operations on a checkpoint are shown to meet no guard, save for
the comparison of an update.
-/

namespace ChainIndexer

/-- The failures of the guards: a cursor that moves back, a cursor of another kind of ledger, a range
of blocks that is none, and a job of another kind of ledger. -/
def Failure.isGuard : Failure → Bool
  | .regression .. | .wrongCursor .. | .blockRangeInvalid | .jobMismatch .. => true
  | _ => false

abbrev Failure.Plain (e : Failure) : Prop :=
  e.isGuard = false

/-- A property of failures that all those have which are not of a guard. -/
class Failure.Lenient (E : Failure → Prop) : Prop where
  of_plain : ∀ {e : Failure}, e.Plain → E e

instance : Failure.Lenient Failure.Plain where
  of_plain := id

/-! ### Results -/

/-- A result is refused, if at all, with a failure that has a property. -/
def RefusedAs (E : Failure → Prop) {α : Type} (x : Except Failure α) : Prop :=
  ∀ e, x = .error e → E e

namespace RefusedAs

variable {E : Failure → Prop} {α β : Type}

theorem ok (a : α) : RefusedAs E (.ok a : Except Failure α) := by
  intro e h
  cases h

theorem error {e : Failure} (he : E e) : RefusedAs E (.error e : Except Failure α) := by
  intro e' h
  rw [← Except.error.inj h]
  exact he

theorem liftFault {x : Except Fault α} (hx : ∀ f, x = .error f → E (.fault f)) :
    RefusedAs E (liftM x : Except Failure α) := by
  intro e h
  obtain ⟨f, hf, rfl⟩ := mapError_error h
  exact hx f hf

theorem found {x : Except Fault α} {a : α} (h : x = .ok a) :
    RefusedAs E (liftM x : Except Failure α) := by
  apply liftFault
  intro f hf
  rw [h] at hf
  cases hf

theorem ite {b : Prop} [Decidable b] {x y : Except Failure α} (hx : RefusedAs E x)
    (hy : RefusedAs E y) : RefusedAs E (if b then x else y) := by
  split
  · exact hx
  · exact hy

theorem bind {x : Except Failure α} {f : α → Except Failure β} (hx : RefusedAs E x)
    (hf : ∀ a, x = .ok a → RefusedAs E (f a)) : RefusedAs E (x >>= f) := by
  intro e h
  rcases bind_error h with h | ⟨a, ha, h⟩
  · exact hx e h
  · exact hf a ha e h

theorem check {b : Prop} [Decidable b] {e : Failure} {f : PUnit → Except Failure α} (he : E e)
    (hf : RefusedAs E (f ⟨⟩)) : RefusedAs E (if b then throw e >>= f else f ⟨⟩) := by
  split
  · exact error he
  · exact hf

end RefusedAs

def Plain {α : Type} (x : Except Failure α) : Prop :=
  ∀ e, x = .error e → e.Plain

namespace Plain

variable {α β : Type}

theorem ok (a : α) : Plain (.ok a : Except Failure α) :=
  RefusedAs.ok a

theorem error {e : Failure} (he : e.Plain) : Plain (.error e : Except Failure α) :=
  RefusedAs.error he

theorem lift (x : Except Fault α) : Plain (liftM x : Except Failure α) :=
  RefusedAs.liftFault fun _ _ => rfl

theorem ite {b : Prop} [Decidable b] {x y : Except Failure α} (hx : Plain x) (hy : Plain y) :
    Plain (if b then x else y) :=
  RefusedAs.ite hx hy

theorem bind {x : Except Failure α} {f : α → Except Failure β} (hx : Plain x)
    (hf : ∀ a, Plain (f a)) : Plain (x >>= f) :=
  RefusedAs.bind hx fun a _ => hf a

theorem check {b : Prop} [Decidable b] {e : Failure} {f : PUnit → Except Failure α}
    (he : e.Plain) (hf : Plain (f ⟨⟩)) : Plain (if b then throw e >>= f else f ⟨⟩) :=
  RefusedAs.check he hf

end Plain

theorem Schema.Checked.orFail_plain {α : Type} (model : String) (a : Schema.Checked α) :
    Plain (a.orFail model) := by
  intro e h
  cases a with
  | ok x => cases h
  | error es =>
    cases h
    rfl

theorem Push.Vocabulary.ofCodeNumber_plain {α : Type} [Push.Vocabulary α] (code : Nat) :
    Plain (ofCodeNumber code : Except Failure α) := by
  unfold ofCodeNumber ofCode
  dsimp only
  split
  · exact Plain.ok _
  · exact Plain.error rfl

/-- A record that is not valid counts as a bad value. -/
theorem Schema.Checked.orFail_badValue {α : Type} (model : String) (a : Schema.Checked α) :
    RefusedAs (fun e => e.kind.isBadValue = true) (a.orFail model) := by
  cases a with
  | ok x => exact .ok x
  | error es => exact .error rfl

theorem Push.Vocabulary.ofCodeNumber_badValue {α : Type} [Push.Vocabulary α] (code : Nat) :
    RefusedAs (fun e => e.kind.isBadValue = true) (ofCodeNumber code : Except Failure α) := by
  unfold ofCodeNumber ofCode
  dsimp only
  split
  · exact .ok _
  · exact .error rfl

/-! ### Activities -/

namespace Act

variable {n : Type → Type} [Monad n] {σ : Type} [Threaded n σ] {α β : Type} {E : Failure → Prop}

def FailsAs (E : Failure → Prop) (x : Act n α) : Prop :=
  ∀ s e s', exec x s = (.error e, s') → E e

namespace FailsAs

theorem pure (a : α) : FailsAs E (pure a : Act n α) := by
  intro s e s' h
  rw [exec_pure] at h
  cases h

theorem throw_of {e : Failure} (he : E e) : FailsAs E (throw e : Act n α) := by
  intro s e' s' h
  rw [exec_throw] at h
  cases h
  exact he

theorem throw [Failure.Lenient E] {e : Failure} (he : e.Plain) :
    FailsAs E (throw e : Act n α) :=
  throw_of (Failure.Lenient.of_plain he)

theorem lift_of {x : Except Failure α} (hx : RefusedAs E x) : FailsAs E (liftM x : Act n α) :=
  fun _ e _ h => hx e (of_exec_lift h).1

theorem lift [Failure.Lenient E] {x : Except Failure α} (hx : Plain x) :
    FailsAs E (liftM x : Act n α) :=
  lift_of fun e h => Failure.Lenient.of_plain (hx e h)

theorem liftFault [Failure.Lenient E] (x : Except Fault α) : FailsAs E (liftM x : Act n α) := by
  intro s e s' h
  rw [exec_liftFault] at h
  cases x with
  | ok a => cases h
  | error f =>
    cases h
    exact Failure.Lenient.of_plain rfl

theorem found {x : Except Fault α} {a : α} (h : x = .ok a) : FailsAs E (liftM x : Act n α) := by
  intro s e s' hexec
  rw [exec_liftFault, h] at hexec
  cases hexec

theorem sure (x : n α) : FailsAs E (sure x : Act n α) := by
  intro s e s' h
  rw [exec_sure] at h
  cases h

theorem bind {x : Act n α} {f : α → Act n β} (hx : FailsAs E x) (hf : ∀ a, FailsAs E (f a)) :
    FailsAs E (x >>= f) := by
  intro s e s' h
  rcases exec_bind_error h with hfirst | ⟨a, s₁, -, hsecond⟩
  · exact hx s e s' hfirst
  · exact hf a s₁ e s' hsecond

/-- What comes after a result that was found needs to be studied for that result only. -/
theorem lift_bind [Failure.Lenient E] {x : Except Failure α} {f : α → Act n β} (hx : Plain x)
    (hf : ∀ a, x = .ok a → FailsAs E (f a)) : FailsAs E ((liftM x : Act n α) >>= f) := by
  intro s e s' h
  rcases exec_bind_error h with hfirst | ⟨a, s₁, hfirst, hsecond⟩
  · exact Failure.Lenient.of_plain (hx e (of_exec_lift hfirst).1)
  · exact hf a (of_exec_lift hfirst).1 s₁ e s' hsecond

theorem ite {b : Prop} [Decidable b] {x y : Act n α} (hx : FailsAs E x) (hy : FailsAs E y) :
    FailsAs E (if b then x else y) := by
  split
  · exact hx
  · exact hy

theorem check_of {b : Prop} [Decidable b] {e : Failure} {f : PUnit → Act n α} (he : E e)
    (hf : FailsAs E (f ⟨⟩)) : FailsAs E (if b then MonadExcept.throw e >>= f else f ⟨⟩) := by
  split
  · intro s e' s' h
    rw [exec_bind_of_error (exec_throw e s)] at h
    cases h
    exact he
  · exact hf

theorem check [Failure.Lenient E] {b : Prop} [Decidable b] {e : Failure} {f : PUnit → Act n α}
    (he : e.Plain) (hf : FailsAs E (f ⟨⟩)) :
    FailsAs E (if b then MonadExcept.throw e >>= f else f ⟨⟩) :=
  check_of (Failure.Lenient.of_plain he) hf

theorem rewording [Failure.Lenient E] {x : Act n α} {caught : Kind → Bool}
    {wrap : Failure → Failure} (hx : FailsAs E x) (hwrap : ∀ e, (wrap e).Plain) :
    FailsAs E (x.rewording caught wrap) := by
  intro s e s' h
  rw [exec_rewording] at h
  rcases hexec : exec x s with ⟨r, s₁⟩
  rw [hexec] at h
  cases r with
  | ok a => cases h
  | error e' =>
    have he' := hx s e' s₁ hexec
    obtain rfl := Except.error.inj (Prod.mk.inj h).1
    dsimp only
    split
    · exact Failure.Lenient.of_plain (hwrap e')
    · exact he'

section Memory

variable {μ : Type}

theorem within {x : Act n α} (hx : FailsAs E x) :
    FailsAs E (within x : Act (StateT μ n) α) := by
  rintro ⟨m, s⟩ e ⟨m', s'⟩ h
  exact hx s e s' (of_exec_within h).1

theorem memory : FailsAs E (memory : Act (StateT μ n) μ) :=
  sure _

theorem remember (k : μ) : FailsAs E (remember k : Act (StateT μ n) Unit) :=
  sure _

end Memory

end FailsAs

end Act

/-! ### What a world gives -/

namespace Scenario

/-- The failures that come from outside the program: from the node, from the sink, and those that
end the processing of a job. -/
inductive Gives (sc : Scenario) : Failure → Prop
  | node {time : Nat} {method : String} {params : List Value} {e : Failure}
      (h : sc.node time method params = .error e) : Gives sc e
  | lost {time : Nat} {p : Push.Payload} {e : Failure} (h : sc.sink time p = .lost e) : Gives sc e
  | refused {time : Nat} {p : Push.Payload} {e : Failure} (h : sc.sink time p = .refused e) :
      Gives sc e
  | interrupt {time : Nat} {e : Failure} (h : sc.interrupt time = some e) : Gives sc e

/-- No guard of the program has given a failure; if it looks like one of a guard, it came from
outside. -/
def Unguarded (sc : Scenario) (e : Failure) : Prop :=
  e.Plain ∨ sc.Gives e

instance (sc : Scenario) : Failure.Lenient sc.Unguarded where
  of_plain := Or.inl

variable {sc : Scenario}

theorem rpc_unguarded (sc : Scenario) (method : String) (params : List Value) :
    Act.FailsAs sc.Unguarded (sc.rpc method params) := by
  intro w e w' h
  exact Or.inr (.node (of_exec_rpc h).1)

theorem push_unguarded (sc : Scenario) (p : Push.Payload) :
    Act.FailsAs sc.Unguarded (sc.push p) := by
  intro w e w' h
  rw [exec_sink] at h
  split at h
  · cases h
  · rename_i e' hsink
    cases h
    exact Or.inr (.lost hsink)
  · rename_i e' hsink
    cases h
    exact Or.inr (.refused hsink)

theorem finish_unguarded (sc : Scenario) (j : Job) (payloads : List Push.Payload) :
    Act.FailsAs sc.Unguarded (sc.finish j payloads) := by
  intro w e w' h
  rw [exec_finish] at h
  split at h
  · rename_i e' hinterrupt
    cases h
    exact Or.inr (.interrupt hinterrupt)
  · cases h

end Scenario

/-! ### Cursors -/

namespace Cursor

theorem ofHeight_plain (h : Whole) : Plain (ofHeight h) := by
  unfold ofHeight
  split
  · exact Plain.ok _
  · exact Plain.error rfl

theorem ofSignature_plain (s : String) : Plain (ofSignature s) := by
  unfold ofSignature
  split
  · exact Plain.ok _
  · exact Plain.error rfl

theorem ofValue_plain (v : Value) : Plain (ofValue v) := by
  unfold ofValue
  refine Plain.bind (Plain.lift _) fun kind => ?_
  split
  · exact Plain.ok _
  split
  · refine Plain.bind (Plain.lift _) fun height => ?_
    exact Plain.bind (Plain.lift _) fun n => ofHeight_plain _
  split
  · exact Plain.bind (Plain.lift _) fun signature => ofSignature_plain _
  · exact Plain.error rfl

end Cursor

/-! ### Checkpoints -/

namespace Checkpoint

open Act

variable {sc : Scenario} {E : Failure → Prop} [Failure.Lenient E]

theorem operate_failsAs {α : Type} {name : String} {x : Act (StateM World) α}
    {torn : Nat → Files → Files} (hx : Act.FailsAs E x) :
    Act.FailsAs E (sc.operate name x torn) := by
  intro w e w' h
  rw [exec_operate] at h
  split at h
  · cases h
    exact Failure.Lenient.of_plain rfl
  · exact hx _ e w' h

theorem change_failsAs (name : String) (f : Files → Except Fault Files) :
    Act.FailsAs E (World.place.change name f) := by
  intro w e w' h
  rw [exec_change] at h
  split at h
  · cases h
  · cases h
    exact Failure.Lenient.of_plain rfl

theorem ofBytes_plain (bs : Bytes) : Plain (ofBytes bs) := by
  unfold ofBytes
  split
  · exact Plain.error rfl
  · refine Plain.bind (Plain.lift _) fun v => ?_
    unfold cursorOf
    split
    · split
      · exact Cursor.ofValue_plain _
      · exact Plain.ok _
    · split
      · exact Plain.error rfl
      · exact Plain.ok _
    · split
      · exact Plain.error rfl
      · exact Plain.ok _
    · exact Plain.error rfl

theorem read_failsAs (sc : Scenario) (name : String) :
    Act.FailsAs E (sc.disk.read name) := by
  rw [Scenario.disk_read]
  refine operate_failsAs ?_
  intro w e w' h
  rw [exec_read] at h
  cases hread : (World.place.get w).read name with
  | ok content => simp [hread, Except.mapError] at h
  | error f =>
    simp only [hread, Except.mapError] at h
    cases h
    exact Failure.Lenient.of_plain rfl

theorem create_failsAs (sc : Scenario) (name : String) :
    Act.FailsAs E (sc.disk.create name) := by
  rw [Scenario.disk_create]
  exact operate_failsAs (change_failsAs name _)

theorem append_failsAs (sc : Scenario) (name : String) (more : Bytes) :
    Act.FailsAs E (sc.disk.append name more) := by
  rw [Scenario.disk_append]
  exact operate_failsAs (change_failsAs name _)

theorem replace_failsAs (sc : Scenario) (source target : String) :
    Act.FailsAs E (sc.disk.replace source target) := by
  have htell : Act.FailsAs E (Scenario.tellStored target) := by
    intro w e w' h
    rw [exec_tellStored] at h
    split at h
    · cases h
    · cases h
  rw [Scenario.disk_replace]
  refine operate_failsAs ?_
  exact FailsAs.bind (change_failsAs source _) fun _ => htell

theorem get_failsAs (sc : Scenario) (c : Checkpoint) :
    Act.FailsAs E (c.get sc.disk) := by
  unfold get
  refine FailsAs.bind (FailsAs.sure _) fun there => ?_
  refine FailsAs.ite (FailsAs.rewording ?_ fun _ => rfl) (FailsAs.pure _)
  exact FailsAs.bind (read_failsAs sc c.path) fun bs => FailsAs.lift (ofBytes_plain bs)

theorem appendAll_failsAs (sc : Scenario) (name : String) (ps : List (Except Fault String)) :
    Act.FailsAs E (appendAll sc.disk name ps) := by
  induction ps with
  | nil => exact FailsAs.pure _
  | cons p rest ih =>
    cases p with
    | ok s => exact FailsAs.bind (append_failsAs sc name _) fun _ => ih
    | error e => exact FailsAs.throw rfl

theorem toValue_plain (new : Candidate) : Plain new.toValue := by
  cases new with
  | cursor c => exact Plain.ok _
  | other v => exact Plain.error rfl

theorem commit_failsAs (sc : Scenario) (c : Checkpoint) (new : Candidate) :
    Act.FailsAs E (c.commit sc.disk new) := by
  refine FailsAs.rewording ?_ fun _ => rfl
  refine FailsAs.bind ?_ fun _ => replace_failsAs sc c.scratch c.path
  refine FailsAs.bind (create_failsAs sc c.scratch) fun _ => ?_
  exact FailsAs.bind (FailsAs.lift (toValue_plain new)) fun v => appendAll_failsAs sc c.scratch _

/-- An update refuses a new cursor as a step back just if it has read a cursor from which it is one;
no other guard is met. -/
theorem exec_update_guard {c : Checkpoint} {new : Candidate} {w w' : World} {e : Failure}
    (h : Act.exec (c.update sc.disk new) w = (.error e, w')) :
    e.Plain ∨ ∃ previous : Cursor, Act.exec (c.get sc.disk) w = (.ok previous, w') ∧
      Candidate.regresses previous new = true ∧ e = .regression previous new := by
  rw [exec_update] at h
  rcases hget : Act.exec (c.get sc.disk) w with ⟨r, w₁⟩
  rw [hget] at h
  cases r with
  | error e' =>
    cases h
    exact Or.inl (get_failsAs (E := Failure.Plain) sc c w _ _ hget)
  | ok previous =>
    dsimp only at h
    split at h
    · rename_i hregresses
      cases h
      exact Or.inr ⟨previous, rfl, hregresses, rfl⟩
    · exact Or.inl (commit_failsAs sc c new w₁ e w' h)

end Checkpoint

end ChainIndexer
