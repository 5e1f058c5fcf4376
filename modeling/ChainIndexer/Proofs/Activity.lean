import ChainIndexer.Effects
import Mathlib.Data.List.Forall2

/-!
What an activity does, seen from outside. A base monad that threads a state takes an activity from a
state to a result and a next state, `Act.exec`; each operation on activities has one equation for
it. `exec_bind_ok` takes a sequence that succeeded apart. An activity beside a memory is put
together like the activity itself (`within_bind`), so what does not use the memory need be studied
only without it. `Act.Keeps R` says that an activity stays within a lasting relation on states
however it ends, which is how the parts of the world that an activity leaves alone are described,
and `Act.Returns P` that what it returns has a property, in whatever state; both are closed under
every operation. A class that is (`Act.Closed`) holds all that is put together from members of it, so
that an activity of the program need be taken apart once for all of them.
-/

namespace ChainIndexer

/-! ### Results -/

/-- A sequence of results has two parts that are results. -/
theorem bind_ok {ε α β : Type} {x : Except ε α} {f : α → Except ε β} {b : β}
    (h : (x >>= f) = .ok b) : ∃ a, x = .ok a ∧ f a = .ok b := by
  cases x with
  | error e => cases h
  | ok a => exact ⟨a, rfl, h⟩

/-- A sequence of results is refused in its first part, or in its second after the first. -/
theorem bind_error {ε α β : Type} {x : Except ε α} {f : α → Except ε β} {e : ε}
    (h : (x >>= f) = .error e) : x = .error e ∨ ∃ a, x = .ok a ∧ f a = .error e := by
  cases x with
  | error e' =>
    obtain rfl : e' = e := Except.error.inj h
    exact Or.inl rfl
  | ok a => exact Or.inr ⟨a, rfl, h⟩

theorem bind_of_ok {ε α β : Type} {x : Except ε α} {a : α} (h : x = .ok a)
    (f : α → Except ε β) : (x >>= f) = f a := by
  rw [h]
  rfl

theorem map_ok {ε α β : Type} {f : α → β} {x : Except ε α} {b : β} (h : x.map f = .ok b) :
    ∃ a, x = .ok a ∧ b = f a := by
  cases x with
  | error e => cases h
  | ok a => exact ⟨a, rfl, (Except.ok.inj h).symm⟩

/-- What was refused on a condition and was not. -/
theorem ite_ok {ε α : Type} {p : Prop} [Decidable p] {e : ε} {a b : α}
    (h : (if p then .error e else .ok a : Except ε α) = .ok b) : ¬p ∧ b = a := by
  split at h
  · cases h
  · rename_i hp
    exact ⟨hp, (Except.ok.inj h).symm⟩

/-- The results of a list stand for its elements one by one. -/
theorem mapM_ok {ε α β : Type} {f : α → Except ε β} {xs : List α} {ys : List β}
    (h : xs.mapM f = .ok ys) : List.Forall₂ (fun x y => f x = .ok y) xs ys := by
  induction xs generalizing ys with
  | nil =>
    cases h
    exact .nil
  | cons x rest ih =>
    rw [List.mapM_cons] at h
    obtain ⟨y, hy, h⟩ := bind_ok h
    obtain ⟨ys', hys', h⟩ := bind_ok h
    cases h
    exact .cons hy (ih hys')

theorem mapError_ok_iff {ε ε' α : Type} {f : ε → ε'} {x : Except ε α} {a : α} :
    x.mapError f = .ok a ↔ x = .ok a := by
  cases x with
  | ok b => simp [Except.mapError]
  | error e => simp [Except.mapError]

theorem mapError_error {ε ε' α : Type} {f : ε → ε'} {x : Except ε α} {e' : ε'}
    (h : x.mapError f = .error e') : ∃ e, x = .error e ∧ e' = f e := by
  cases x with
  | ok a => cases h
  | error e => exact ⟨e, rfl, (Except.error.inj h).symm⟩

/-- A basic operation has the same result when its refusal counts as a failure. -/
theorem liftFault_ok_iff {α : Type} {x : Except Fault α} {a : α} :
    (liftM x : Except Failure α) = .ok a ↔ x = .ok a :=
  mapError_ok_iff

theorem ok_of_toOption {ε α : Type} {x : Except ε α} {a : α} (h : x.toOption = some a) :
    x = .ok a := by
  cases x with
  | error e => cases h
  | ok b =>
    cases h
    rfl

/-! ### Activities -/

/-- A base monad whose computations take a state to a result and a next state. -/
class Threaded (n : Type → Type) (σ : outParam Type) [Monad n] where
  exec : {α : Type} → n α → σ → α × σ
  exec_pure : ∀ {α : Type} (a : α) (s : σ), exec (pure a) s = (a, s)
  exec_bind : ∀ {α β : Type} (x : n α) (f : α → n β) (s : σ),
    exec (x >>= f) s = exec (f (exec x s).1) (exec x s).2
  exec_map : ∀ {α β : Type} (f : α → β) (x : n α) (s : σ),
    exec (f <$> x) s = (f (exec x s).1, (exec x s).2)

instance {σ : Type} : Threaded (StateM σ) σ where
  exec x s := x s
  exec_pure _ _ := rfl
  exec_bind _ _ _ := rfl
  exec_map _ _ _ := rfl

/-- A memory beside a threaded state. -/
instance {μ σ : Type} {n : Type → Type} [Monad n] [Threaded n σ] :
    Threaded (StateT μ n) (μ × σ) where
  exec x s :=
    let r := Threaded.exec (x s.1) s.2
    (r.1.1, r.1.2, r.2)
  exec_pure a s := by
    change (let r := Threaded.exec (pure (a, s.1) : n (_ × μ)) s.2; (r.1.1, r.1.2, r.2)) = (a, s)
    rw [Threaded.exec_pure]
  exec_bind x f s := by simp [bind, StateT.bind, Threaded.exec_bind]
  exec_map f x s := by
    simp [Functor.map, StateT.map, Threaded.exec_bind, Threaded.exec_pure]

namespace Act

section Exec

variable {n : Type → Type} [Monad n] {σ : Type} [Threaded n σ] {α β : Type}

/-- The result of an activity in a state, and the state after it. -/
def exec (x : Act n α) (s : σ) : Except Failure α × σ :=
  Threaded.exec (ExceptT.run x) s

@[simp] theorem exec_pure (a : α) (s : σ) : exec (pure a : Act n α) s = (.ok a, s) :=
  Threaded.exec_pure _ s

@[simp] theorem exec_throw (e : Failure) (s : σ) :
    exec (throw e : Act n α) s = (.error e, s) :=
  Threaded.exec_pure _ s

theorem exec_bind (x : Act n α) (f : α → Act n β) (s : σ) :
    exec (x >>= f) s =
      match exec x s with
      | (.ok a, s') => exec (f a) s'
      | (.error e, s') => (.error e, s') := by
  have h := Threaded.exec_bind (ExceptT.run x) (ExceptT.bindCont f) s
  cases hx : exec x s with
  | mk r s' =>
    unfold exec at hx
    rw [hx] at h
    cases r with
    | ok a => exact h
    | error e => exact h.trans (Threaded.exec_pure _ _)

theorem exec_bind_of_ok {x : Act n α} {s s' : σ} {a : α} (h : exec x s = (.ok a, s'))
    (f : α → Act n β) : exec (x >>= f) s = exec (f a) s' := by
  rw [exec_bind, h]

theorem exec_bind_of_error {x : Act n α} {s s' : σ} {e : Failure}
    (h : exec x s = (.error e, s')) (f : α → Act n β) :
    exec (x >>= f) s = (.error e, s') := by
  rw [exec_bind, h]

/-- A sequence that succeeded has two parts that succeeded, one after the other. -/
theorem exec_bind_ok {x : Act n α} {f : α → Act n β} {s s' : σ} {b : β}
    (h : exec (x >>= f) s = (.ok b, s')) :
    ∃ a s₁, exec x s = (.ok a, s₁) ∧ exec (f a) s₁ = (.ok b, s') := by
  rw [exec_bind] at h
  cases hx : exec x s with
  | mk r s₁ =>
    rw [hx] at h
    cases r with
    | ok a => exact ⟨a, s₁, rfl, h⟩
    | error e => cases h

/-- A sequence that failed has failed in its first part, or in its second after the first. -/
theorem exec_bind_error {x : Act n α} {f : α → Act n β} {s s' : σ} {e : Failure}
    (h : exec (x >>= f) s = (.error e, s')) :
    exec x s = (.error e, s') ∨
      ∃ a s₁, exec x s = (.ok a, s₁) ∧ exec (f a) s₁ = (.error e, s') := by
  rw [exec_bind] at h
  cases hx : exec x s with
  | mk r s₁ =>
    rw [hx] at h
    cases r with
    | ok a => exact Or.inr ⟨a, s₁, rfl, h⟩
    | error e' => exact Or.inl (by simpa using h)

theorem exec_bind_pure (x : Act n α) (f : α → β) (s : σ) :
    exec (x >>= fun a => pure (f a)) s = ((exec x s).1.map f, (exec x s).2) := by
  rw [exec_bind]
  rcases exec x s with ⟨r, s'⟩
  cases r with
  | ok a => exact exec_pure _ _
  | error e => rfl

/-- Two runs of a sequence whose first parts have the same result. -/
theorem exec_bind_congr {x : Act n α} {f : α → Act n β} {s s' : σ}
    (hfirst : (exec x s).1 = (exec x s').1)
    (hrest : ∀ a, (exec x s).1 = .ok a →
      (exec (f a) (exec x s).2).1 = (exec (f a) (exec x s').2).1) :
    (exec (x >>= f) s).1 = (exec (x >>= f) s').1 := by
  rcases hx : exec x s with ⟨r, t⟩
  rcases hx' : exec x s' with ⟨r', t'⟩
  rw [hx, hx'] at hfirst hrest
  obtain rfl : r = r' := hfirst
  cases r with
  | error e => rw [exec_bind_of_error hx, exec_bind_of_error hx']
  | ok a =>
    rw [exec_bind_of_ok hx, exec_bind_of_ok hx']
    exact hrest a rfl

@[simp] theorem exec_lift (x : Except Failure α) (s : σ) :
    exec (liftM x : Act n α) s = (x, s) :=
  Threaded.exec_pure _ s

@[simp] theorem exec_liftFault (x : Except Fault α) (s : σ) :
    exec (liftM x : Act n α) s = (x.mapError .fault, s) :=
  Threaded.exec_pure _ s

theorem of_exec_lift {x r : Except Failure α} {s s' : σ}
    (h : exec (liftM x : Act n α) s = (r, s')) : x = r ∧ s' = s := by
  rw [exec_lift] at h
  cases h
  exact ⟨rfl, rfl⟩

theorem of_exec_liftFault {x : Except Fault α} {a : α} {s s' : σ}
    (h : exec (liftM x : Act n α) s = (.ok a, s')) : x = .ok a ∧ s' = s := by
  rw [exec_liftFault] at h
  cases x with
  | error e => cases h
  | ok b =>
    cases h
    exact ⟨rfl, rfl⟩

theorem exec_lift_bind {x : Except Failure α} {a : α} (h : x = .ok a) (f : α → Act n β) (s : σ) :
    exec ((liftM x : Act n α) >>= f) s = exec (f a) s := by
  rw [h]
  exact exec_bind_of_ok (exec_lift _ s) f

theorem exec_liftFault_bind {x : Except Fault α} {a : α} (h : x = .ok a) (f : α → Act n β)
    (s : σ) : exec ((liftM x : Act n α) >>= f) s = exec (f a) s := by
  rw [h]
  exact exec_bind_of_ok (exec_liftFault _ s) f

theorem exec_sure (x : n α) (s : σ) :
    exec (sure x : Act n α) s = (.ok (Threaded.exec x s).1, (Threaded.exec x s).2) :=
  Threaded.exec_map _ x s

theorem run_rewording (x : Act n α) (caught : Kind → Bool) (wrap : Failure → Failure) :
    ExceptT.run (x.rewording caught wrap) = ExceptT.run x >>= fun r =>
      match r with
      | .ok a => (pure (.ok a) : n (Except Failure α))
      | .error e => pure (.error (if caught e.kind then wrap e else e)) :=
  rfl

theorem exec_rewording (x : Act n α) (caught : Kind → Bool) (wrap : Failure → Failure) (s : σ) :
    exec (x.rewording caught wrap) s =
      ((exec x s).1.mapError fun e => if caught e.kind then wrap e else e, (exec x s).2) := by
  unfold exec
  rw [run_rewording, Threaded.exec_bind]
  cases (Threaded.exec (ExceptT.run x) s).1 with
  | ok a => exact Threaded.exec_pure _ _
  | error e => exact Threaded.exec_pure _ _

theorem exec_rewording_ok {x : Act n α} {caught : Kind → Bool} {wrap : Failure → Failure}
    {s s' : σ} {a : α} (h : exec (x.rewording caught wrap) s = (.ok a, s')) :
    exec x s = (.ok a, s') := by
  rw [exec_rewording] at h
  cases hx : exec x s with
  | mk r s₁ =>
    rw [hx] at h
    cases r with
    | ok b => exact h
    | error e => cases h

theorem exec_rewording_error {x : Act n α} {caught : Kind → Bool} {wrap : Failure → Failure}
    {s s' : σ} {e : Failure} (h : exec (x.rewording caught wrap) s = (.error e, s')) :
    ∃ e', exec x s = (.error e', s') := by
  rw [exec_rewording] at h
  cases hx : exec x s with
  | mk r s₁ =>
    rw [hx] at h
    cases r with
    | ok b => cases h
    | error e' =>
      cases h
      exact ⟨e', rfl⟩

end Exec

section Memory

variable {n : Type → Type} [Monad n] {μ σ : Type} [Threaded n σ] {α : Type}

theorem exec_within (x : Act n α) (m : μ) (s : σ) :
    exec (within x : Act (StateT μ n) α) (m, s) = ((exec x s).1, m, (exec x s).2) := by
  have h := Threaded.exec_bind (ExceptT.run x) (fun a => (pure (a, m) : n (_ × μ))) s
  have h' := h.trans (Threaded.exec_pure _ _)
  change (let r := Threaded.exec (StateT.lift (ExceptT.run x) m) s; (r.1.1, r.1.2, r.2)) = _
  rw [show StateT.lift (ExceptT.run x) m = ExceptT.run x >>= fun a => pure (a, m) from rfl, h']
  rfl

theorem exec_within_eq {x : Act n α} {s s' : σ} {r : Except Failure α} (h : exec x s = (r, s'))
    (m : μ) : exec (within x : Act (StateT μ n) α) (m, s) = (r, m, s') := by
  rw [exec_within, h]

theorem of_exec_within {x : Act n α} {m m' : μ} {s s' : σ} {r : Except Failure α}
    (h : exec (within x : Act (StateT μ n) α) (m, s) = (r, m', s')) :
    exec x s = (r, s') ∧ m' = m := by
  rw [exec_within] at h
  cases hx : exec x s with
  | mk r s₁ =>
    rw [hx] at h
    cases h
    exact ⟨rfl, rfl⟩

@[simp] theorem exec_memory (m : μ) (s : σ) :
    exec (memory : Act (StateT μ n) μ) (m, s) = (.ok m, m, s) := by
  have h : Threaded.exec (get : StateT μ n μ) (m, s) = (m, m, s) := by
    change (let r := Threaded.exec (pure (m, m) : n (μ × μ)) s; (r.1.1, r.1.2, r.2)) = _
    rw [Threaded.exec_pure]
  rw [memory, exec_sure, h]

@[simp] theorem exec_remember (k m : μ) (s : σ) :
    exec (remember k : Act (StateT μ n) Unit) (m, s) = (.ok (), k, s) := by
  have h : Threaded.exec (set k : StateT μ n PUnit) (m, s) = (PUnit.unit, k, s) := by
    change (let r := Threaded.exec (pure (PUnit.unit, k) : n (PUnit × μ)) s;
      (r.1.1, r.1.2, r.2)) = _
    rw [Threaded.exec_pure]
  rw [remember, exec_sure, h]

end Memory

section Beside

variable {n : Type → Type} [Monad n] [LawfulMonad n] {σ : Type} {α β : Type}

theorem within_pure (a : α) : (within (pure a) : Act (StateT σ n) α) = pure a := by
  apply ExceptT.ext
  funext s
  change StateT.lift (pure (Except.ok a)) s = _
  simp [StateT.lift]
  rfl

theorem within_throw (e : Failure) : (within (throw e) : Act (StateT σ n) α) = throw e := by
  apply ExceptT.ext
  funext s
  change StateT.lift (pure (Except.error e)) s = _
  simp [StateT.lift]
  rfl

theorem within_bind (x : Act n α) (f : α → Act n β) :
    (within (x >>= f) : Act (StateT σ n) β) = within x >>= fun a => within (f a) := by
  apply ExceptT.ext
  funext s
  change (do let a ← (ExceptT.run x >>= ExceptT.bindCont f); pure (a, s)) = _
  change _ = ((do let a ← ExceptT.run x; pure (a, s)) >>=
    fun p => (ExceptT.bindCont (fun a => within (f a)) p.1) p.2)
  simp only [bind_assoc, pure_bind]
  congr 1
  funext r
  cases r with
  | ok a => rfl
  | error e => simp [ExceptT.bindCont]; rfl

theorem within_lift (x : Except Failure α) : (within (liftM x) : Act (StateT σ n) α) = liftM x := by
  cases x with
  | ok a => exact within_pure a
  | error e => exact within_throw e

theorem lift_bind (x : Except Failure α) (f : α → Except Failure β) :
    (liftM (x >>= f) : Act n β) = liftM x >>= fun a => liftM (f a) := by
  cases x with
  | ok a => exact (pure_bind a fun a => (liftM (f a) : Act n β)).symm
  | error e =>
    apply ExceptT.ext
    change (pure (Except.error e) : n (Except Failure β)) =
      pure (Except.error e) >>= ExceptT.bindCont fun a => liftM (f a)
    rw [pure_bind]
    rfl

theorem within_sure (x : n α) : (within (sure x) : Act (StateT σ n) α) = sure (StateT.lift x) := by
  apply ExceptT.ext
  funext s
  change (Except.ok <$> x >>= fun r => pure (r, s)) =
    (x >>= fun a => pure (a, s)) >>= fun p => pure (Except.ok p.1, p.2)
  simp

theorem within_rewording (x : Act n α) (caught : Kind → Bool) (wrap : Failure → Failure) :
    (within (x.rewording caught wrap) : Act (StateT σ n) α) = (within x).rewording caught wrap := by
  apply ExceptT.ext
  funext s
  change (ExceptT.run (x.rewording caught wrap) >>= fun r => pure (r, s)) =
    (ExceptT.run x >>= fun r => pure (r, s)) >>= _
  simp only [run_rewording, bind_assoc, pure_bind]
  congr 1
  funext r
  cases r with
  | ok a => exact pure_bind _ _
  | error e => exact pure_bind _ _

end Beside

/-- A relation between an earlier and a later state that any number of activities may extend. -/
class Lasting {σ : Type} (R : σ → σ → Prop) : Prop where
  refl : ∀ s, R s s
  trans : ∀ {s t u}, R s t → R t u → R s u

/-- However the activity ends, the state after it stands in the relation to the state before it. -/
def Keeps {n : Type → Type} [Monad n] {σ : Type} [Threaded n σ] {α : Type} (R : σ → σ → Prop)
    (x : Act n α) : Prop :=
  ∀ s, R s (exec x s).2

namespace Keeps

variable {n : Type → Type} [Monad n] {σ : Type} [Threaded n σ] {α β : Type} {R : σ → σ → Prop}

theorem of_exec {x : Act n α} (hx : Keeps R x) {s s' : σ} {r : Except Failure α}
    (h : exec x s = (r, s')) : R s s' := by
  have := hx s
  rwa [h] at this

theorem mono {R' : σ → σ → Prop} (h : ∀ {s s'}, R s s' → R' s s') {x : Act n α}
    (hx : Keeps R x) : Keeps R' x :=
  fun s => h (hx s)

theorem rewording {x : Act n α} (hx : Keeps R x) (caught : Kind → Bool)
    (wrap : Failure → Failure) : Keeps R (x.rewording caught wrap) := by
  intro s
  rw [exec_rewording]
  exact hx s

theorem ite {b : Prop} [Decidable b] {x y : Act n α} (hx : Keeps R x) (hy : Keeps R y) :
    Keeps R (if b then x else y) := by
  split
  · exact hx
  · exact hy

variable [Lasting R]

theorem pure (a : α) : Keeps R (pure a : Act n α) := by
  intro s
  rw [exec_pure]
  exact Lasting.refl s

theorem throw (e : Failure) : Keeps R (throw e : Act n α) := by
  intro s
  rw [exec_throw]
  exact Lasting.refl s

theorem lift (x : Except Failure α) : Keeps R (liftM x : Act n α) := by
  intro s
  rw [exec_lift]
  exact Lasting.refl s

theorem liftFault (x : Except Fault α) : Keeps R (liftM x : Act n α) := by
  intro s
  rw [exec_liftFault]
  exact Lasting.refl s

theorem bind {x : Act n α} {f : α → Act n β} (hx : Keeps R x) (hf : ∀ a, Keeps R (f a)) :
    Keeps R (x >>= f) := by
  intro s
  have first := hx s
  rw [exec_bind]
  cases hr : exec x s with
  | mk r s' =>
    rw [hr] at first
    cases r with
    | ok a => exact Lasting.trans first (hf a s')
    | error e => exact first

end Keeps

/-! ### Classes of activities -/

/-- A handler that does not take the failures in which a call of a node mostly ends for its own, and
that says of all others that something cannot be decoded. -/
structure Passes (caught : Kind → Bool) (wrap : Failure → Failure) : Prop where
  answer : caught .rpc = false
  transport : caught .rpcTransport = false
  overflow : caught (.fault .overflow) = false
  decode : ∀ e, (wrap e).kind = .decode

/-- A class of activities to which all those belong that do not use the world, and which is closed
under sequences and under the handlers of the program. What is put together like this needs to be
gone through once for all such classes. -/
structure Closed {n : Type → Type} [Monad n] (P : (α : Type) → Act n α → Prop) : Prop where
  pure : ∀ {α : Type} (a : α), P α (pure a)
  throw : ∀ {α : Type} (e : Failure), P α (throw e)
  lift : ∀ {α : Type} (x : Except Failure α), P α (liftM x)
  liftFault : ∀ {α : Type} (x : Except Fault α), P α (liftM x)
  bind : ∀ {α β : Type} {x : Act n α} {f : α → Act n β}, P α x → (∀ a, P β (f a)) → P β (x >>= f)
  rewording : ∀ {α : Type} {x : Act n α} {caught : Kind → Bool} {wrap : Failure → Failure},
    Passes caught wrap → P α x → P α (x.rewording caught wrap)

theorem Closed.ite {n : Type → Type} [Monad n] {P : (α : Type) → Act n α → Prop} {α : Type}
    {b : Prop} [Decidable b] {x y : Act n α} (_ : Closed P) (hx : P α x) (hy : P α y) :
    P α (if b then x else y) := by
  split
  · exact hx
  · exact hy

theorem Closed.check {n : Type → Type} [Monad n] {P : (α : Type) → Act n α → Prop} {α : Type}
    {b : Prop} [Decidable b] {e : Failure} {f : PUnit → Act n α} (hP : Closed P) (hf : P α (f ⟨⟩)) :
    P α (if b then MonadExcept.throw e >>= f else f ⟨⟩) := by
  split
  · exact hP.bind (hP.throw e) fun _ => hf
  · exact hf

/-- A closed class of activities beside a memory, with all those of a class without it. -/
structure ClosedBeside {n : Type → Type} [Monad n] {μ : Type} (P : (α : Type) → Act n α → Prop)
    (Q : (α : Type) → Act (StateT μ n) α → Prop) : Prop extends Closed Q where
  within : ∀ {α : Type} {x : Act n α}, P α x → Q α (within x)
  memory : Q μ memory
  remember : ∀ k : μ, Q Unit (remember k)

theorem Keeps.closed {n : Type → Type} [Monad n] {σ : Type} [Threaded n σ] (R : σ → σ → Prop)
    [Lasting R] : Closed fun α => (Keeps R : Act n α → Prop) where
  pure := Keeps.pure
  throw := Keeps.throw
  lift := Keeps.lift
  liftFault := Keeps.liftFault
  bind := Keeps.bind
  rewording _ hx := hx.rewording _ _

instance {σ : Type} : Lasting (fun s s' : σ => s' = s) where
  refl _ := rfl
  trans h h' := h'.trans h

instance {σ : Type} : Lasting (fun _ _ : σ => True) where
  refl _ := trivial
  trans _ _ := trivial

/-- One relation for the memory and another one for the state beside it. -/
def Beside {μ σ : Type} (M : μ → μ → Prop) (R : σ → σ → Prop) (s s' : μ × σ) : Prop :=
  M s.1 s'.1 ∧ R s.2 s'.2

instance {μ σ : Type} {M : μ → μ → Prop} {R : σ → σ → Prop} [Lasting M] [Lasting R] :
    Lasting (Beside M R) where
  refl s := ⟨Lasting.refl s.1, Lasting.refl s.2⟩
  trans h h' := ⟨Lasting.trans h.1 h'.1, Lasting.trans h.2 h'.2⟩

section Beside

variable {n : Type → Type} [Monad n] {μ σ : Type} [Threaded n σ] {α : Type}
  {M : μ → μ → Prop} {R : σ → σ → Prop}

theorem Keeps.within [Lasting M] {x : Act n α} (hx : Keeps R x) :
    Keeps (Beside M R) (within x : Act (StateT μ n) α) := by
  rintro ⟨m, s⟩
  rw [exec_within]
  exact ⟨Lasting.refl m, hx s⟩

theorem Keeps.memory [Lasting M] [Lasting R] :
    Keeps (Beside M R) (memory : Act (StateT μ n) μ) := by
  rintro ⟨m, s⟩
  rw [exec_memory]
  exact ⟨Lasting.refl m, Lasting.refl s⟩

theorem Keeps.remember [Lasting R] {k : μ} (hk : ∀ m, M m k) :
    Keeps (Beside M R) (remember k : Act (StateT μ n) Unit) := by
  rintro ⟨m, s⟩
  rw [exec_remember]
  exact ⟨hk m, Lasting.refl s⟩

/-- If the memory may become anything. -/
theorem Keeps.closedBeside [Lasting R] :
    ClosedBeside (fun α => (Keeps R : Act n α → Prop))
      fun α => (Keeps (Beside (fun _ _ => True) R) : Act (StateT μ n) α → Prop) where
  toClosed := Keeps.closed _
  within := Keeps.within
  memory := Keeps.memory
  remember _ := Keeps.remember fun _ => trivial

end Beside

/-! ### What an activity returns -/

/-- Whatever the activity returns, in whatever state, has a property. -/
def Returns {n : Type → Type} [Monad n] {σ : Type} [Threaded n σ] {α : Type} (P : α → Prop)
    (x : Act n α) : Prop :=
  ∀ s a s', exec x s = (.ok a, s') → P a

namespace Returns

variable {n : Type → Type} [Monad n] {σ : Type} [Threaded n σ] {α β : Type} {P : α → Prop}
  {Q : β → Prop}

theorem any (x : Act n α) : Returns (fun _ => True) x :=
  fun _ _ _ _ => trivial

theorem pure {a : α} (h : P a) : Returns P (pure a : Act n α) := by
  intro s a' s' hexec
  rw [exec_pure] at hexec
  cases hexec
  exact h

theorem throw (e : Failure) : Returns P (throw e : Act n α) := by
  intro s a s' h
  rw [exec_throw] at h
  cases h

theorem lift {x : Except Failure α} (h : ∀ a, x = .ok a → P a) :
    Returns P (liftM x : Act n α) := by
  intro s a s' hexec
  exact h a (of_exec_lift hexec).1

theorem liftFault {x : Except Fault α} (h : ∀ a, x = .ok a → P a) :
    Returns P (liftM x : Act n α) := by
  intro s a s' hexec
  exact h a (of_exec_liftFault hexec).1

theorem bind {x : Act n α} {f : α → Act n β} (hx : Returns P x) (hf : ∀ a, P a → Returns Q (f a)) :
    Returns Q (x >>= f) := by
  intro s b s' h
  obtain ⟨a, s₁, hfirst, hrest⟩ := exec_bind_ok h
  exact hf a (hx s a s₁ hfirst) s₁ b s' hrest

/-- Nothing is said about what the first activity returns. -/
theorem after {x : Act n α} {f : α → Act n β} (hf : ∀ a, Returns Q (f a)) : Returns Q (x >>= f) :=
  bind (any x) fun a _ => hf a

theorem rewording {x : Act n α} (hx : Returns P x) (caught : Kind → Bool)
    (wrap : Failure → Failure) : Returns P (x.rewording caught wrap) :=
  fun s a s' h => hx s a s' (exec_rewording_ok h)

theorem within {μ : Type} {x : Act n α} (hx : Returns P x) :
    Returns P (within x : Act (StateT μ n) α) := by
  rintro ⟨m, s⟩ a ⟨m', s'⟩ h
  exact hx s a s' (of_exec_within h).1

end Returns

/-! ### What the state has no part in -/

/-- The result does not depend on the state. -/
def Steady {n : Type → Type} [Monad n] {σ : Type} [Threaded n σ] {α : Type} (x : Act n α) : Prop :=
  ∀ s s', (exec x s).1 = (exec x s').1

/-- Among the memories with a property, the result does not depend on the memory, nor on the state
beside it, and the property stays. -/
def SteadyBeside {n : Type → Type} [Monad n] {μ σ : Type} [Threaded n σ] {α : Type} (V : μ → Prop)
    (x : Act (StateT μ n) α) : Prop :=
  ∀ m m' s s', V m → V m' → (exec x (m, s)).1 = (exec x (m', s')).1 ∧ V (exec x (m, s)).2.1

section Steady

variable {n : Type → Type} [Monad n] {μ σ : Type} [Threaded n σ] {α : Type} {V : μ → Prop}

theorem Steady.closed : Closed fun α => (Steady : Act n α → Prop) where
  pure _ _ _ := by simp
  throw _ _ _ := by simp
  lift _ _ _ := by simp
  liftFault _ _ _ := by simp
  bind hx hf s s' := exec_bind_congr (hx s s') fun a _ => hf a _ _
  rewording _ hx s s' := by rw [exec_rewording, exec_rewording, hx s s']

theorem SteadyBeside.closed (V : μ → Prop) :
    Closed fun α => (SteadyBeside V : Act (StateT μ n) α → Prop) where
  pure _ _ _ _ _ hm _ := by
    rw [exec_pure, exec_pure]
    exact ⟨rfl, hm⟩
  throw _ _ _ _ _ hm _ := by
    rw [exec_throw, exec_throw]
    exact ⟨rfl, hm⟩
  lift _ _ _ _ _ hm _ := by
    rw [exec_lift, exec_lift]
    exact ⟨rfl, hm⟩
  liftFault _ _ _ _ _ hm _ := by
    rw [exec_liftFault, exec_liftFault]
    exact ⟨rfl, hm⟩
  bind := by
    intro α β x f hx hf m m' s s' hm hm'
    obtain ⟨hresult, hafter⟩ := hx m m' s s' hm hm'
    obtain ⟨-, hafter'⟩ := hx m' m s' s hm' hm
    refine ⟨exec_bind_congr hresult fun a _ => (hf a _ _ _ _ hafter hafter').1, ?_⟩
    rcases hfirst : exec x (m, s) with ⟨r, t⟩
    rw [hfirst] at hafter
    cases r with
    | error e =>
      rw [exec_bind_of_error hfirst]
      exact hafter
    | ok a =>
      rw [exec_bind_of_ok hfirst]
      exact (hf a _ _ t.2 s' hafter hm').2
  rewording := by
    intro α x caught wrap _ hx m m' s s' hm hm'
    obtain ⟨hresult, hafter⟩ := hx m m' s s' hm hm'
    rw [exec_rewording, exec_rewording, hresult]
    exact ⟨rfl, hafter⟩

theorem Steady.within {x : Act n α} (hx : Steady x) :
    SteadyBeside V (Act.within x : Act (StateT μ n) α) := by
  intro m m' s s' hm _
  rw [exec_within, exec_within]
  exact ⟨hx s s', hm⟩

end Steady

end Act

end ChainIndexer
