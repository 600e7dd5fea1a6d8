/-
  Programs: what to ask of the outside, as a tree of calls.

  A call goes to a collaborator, which keeps resources of its own, or is a request to an API
  server. A program is done, or makes one call and goes on with the answer; so every run is a path
  through the tree, and what a program may ask never depends on more than the answers so far. An
  action is a program that may fail.
-/
import Rollout.Http
import Rollout.Settings
import Rollout.Watch

namespace Rollout

/-! ## Calls -/

/-- One call to the outside. The calls to a collaborator name it by its id. -/
inductive Call where
  | create (id : String) (ns : Option String) (r : Resource)
  | replace (id : String) (ns : Option String) (r : Resource)
  | delete (id : String) (ns : Option String) (options : DeleteOptions) (r : Resource)
  | reload (id : String) (ns : Option String) (r : Resource)
  | watch (id : String) (ns : Option String) (r : Resource) (options : WatchOptions)
  | awaitReady (id : String) (ns : Option String) (r : Resource) (limit : Duration)
  | request (r : Http.Request)
deriving DecidableEq

/-- What the outside answers to a call. -/
abbrev Call.Answer : Call → Type
  | .create .. => Except Failure Resource
  | .replace .. => Except Failure Resource
  | .delete .. => Except Failure Bool
  | .reload .. => Except Failure (Option Resource)
  | .watch .. => Except Failure (List WatchItem)
  | .awaitReady .. => Except Failure Resource
  | .request _ => Http.Response

/-! ## Programs -/

/-- A tree of calls with results at its leaves. -/
inductive Program (α : Type) : Type where
  | done (a : α)
  | call (c : Call) (next : c.Answer → Program α)

namespace Program

variable {α β γ : Type}

/-- Goes on with `f` where `p` is done. -/
def bind (p : Program α) (f : α → Program β) : Program β :=
  match p with
  | .done a => f a
  | .call c next => .call c fun answer => (next answer).bind f

instance : Monad Program where
  pure := .done
  bind := bind

@[simp] theorem pure_eq (a : α) : (pure a : Program α) = .done a := rfl

@[simp] theorem bind_eq (p : Program α) (f : α → Program β) : p >>= f = p.bind f := rfl

@[simp] theorem done_bind (a : α) (f : α → Program β) : (done a).bind f = f a := rfl

@[simp] theorem call_bind (c : Call) (next : c.Answer → Program α) (f : α → Program β) :
    (call c next).bind f = .call c fun answer => (next answer).bind f := rfl

theorem bind_done (p : Program α) : p.bind .done = p := by
  induction p with
  | done a => rfl
  | call c next ih => simp only [call_bind, ih]

theorem bind_assoc (p : Program α) (f : α → Program β) (g : β → Program γ) :
    (p.bind f).bind g = p.bind fun a => (f a).bind g := by
  induction p with
  | done a => rfl
  | call c next ih => simp only [call_bind, ih]

instance : LawfulMonad Program :=
  LawfulMonad.mk' Program bind_done (fun _ _ => rfl) bind_assoc

/-- Makes one call and is done with its answer. -/
def ask (c : Call) : Program c.Answer := .call c .done

end Program

/-- A program that may fail. -/
abbrev Action (α : Type) := ExceptT Failure Program α

namespace Action

variable {α : Type}

/-- An action that makes no call. -/
def ofExcept (e : Except Failure α) : Action α := ExceptT.mk (.done e)

/-- The action that `p` carries out. -/
def of (p : Program (Except Failure α)) : Action α := ExceptT.mk p

/-- The result of `a`, a failure included. -/
def attempt (a : Action α) : Action (Except Failure α) := ExceptT.lift a.run

end Action

end Rollout
