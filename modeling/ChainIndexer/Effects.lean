import ChainIndexer.Failure

/-!
What the program does to the world around it. An `Act n` runs in a base monad `n` and either gives a
result or fails; whatever it did to the state of `n` before it failed stays done. With `StateM σ`
for `n` the state `σ` is any model of the world, such as a node that answers as it likes; the
command line takes `IO`.
-/

namespace ChainIndexer

/-- An activity that may fail. -/
abbrev Act (n : Type → Type) (α : Type) := ExceptT Failure n α

/-- A node: it takes a method and its parameters, and answers or fails. -/
abbrev Rpc (n : Type → Type) := (method : String) → (params : List Value) → Act n Value

namespace Act

variable {n : Type → Type} [Monad n] {α β σ : Type}

/-- What was found without touching the world. -/
def ofExcept (x : Except Failure α) : Act n α :=
  ExceptT.mk (pure x)

instance : MonadLift (Except Failure) (ExceptT Failure n) where
  monadLift x := ofExcept x

instance : MonadLift (Except Fault) (ExceptT Failure n) where
  monadLift x := ofExcept (x.mapError .fault)

def sure (x : n α) : Act n α :=
  ExceptT.lift x

/-- The same activity beside a memory that it does not touch. -/
def within (x : Act n α) : Act (StateT σ n) α :=
  ExceptT.mk (StateT.lift x.run)

def memory : Act (StateT σ n) σ :=
  sure get

def remember (s : σ) : Act (StateT σ n) Unit :=
  sure (set s)

/-- What became of an activity, as a result. -/
def observe (x : Act n α) : n (Except Failure α) :=
  x.run

/-- Words the failures of some kinds anew. -/
def rewording (x : Act n α) (caught : Kind → Bool) (wrap : Failure → Failure) : Act n α :=
  ExceptT.mk do
    match ← x.run with
    | .ok a => return .ok a
    | .error e => return .error (if caught e.kind then wrap e else e)

end Act

/-- A node beside a memory that it does not touch. -/
def Rpc.within {n : Type → Type} [Monad n] {σ : Type} (rpc : Rpc n) : Rpc (StateT σ n) :=
  fun method params => Act.within (rpc method params)

end ChainIndexer
