import Mathlib.Logic.Function.Basic
import Mathlib.Logic.Relation

/-! An object that clients share, as they may take it to be: every call is served at once, at
some time between the call and its reply. A client may have any number of calls waiting, and
they are served and replied to in any order.
-/

namespace SftpServer.Foundations

/-- A call that a client waits for, with its reply once it is served. -/
structure Waiting (Q A : Type) where
  call : Q
  reply : Option A

/-- What is seen of a client. -/
inductive Signal (Q A : Type) where
  | called (call : Q)
  | replied (call : Q) (reply : A)
  deriving DecidableEq, Repr

/-- The object, the calls that are waited for, and what was seen so far. -/
structure AtomicObject (ι Q A σ : Type) where
  state : σ
  waiting : ι → List (Waiting Q A) := fun _ => []
  seen : List (ι × Signal Q A) := []

namespace AtomicObject

variable {ι Q A σ : Type} [DecidableEq ι]

/-- What a step of one client leaves. -/
def after (o : AtomicObject ι Q A σ) (i : ι) (waiting : List (Waiting Q A))
    (signals : List (Signal Q A)) (state : σ) : AtomicObject ι Q A σ where
  state
  waiting := Function.update o.waiting i waiting
  seen := o.seen ++ signals.map fun signal => (i, signal)

@[simp]
theorem after_state (o : AtomicObject ι Q A σ) (i : ι) (waiting : List (Waiting Q A))
    (signals : List (Signal Q A)) (state : σ)
    : (o.after i waiting signals state).state = state :=
  rfl

@[simp]
theorem after_waiting (o : AtomicObject ι Q A σ) (i : ι) (waiting : List (Waiting Q A))
    (signals : List (Signal Q A)) (state : σ)
    : (o.after i waiting signals state).waiting i = waiting :=
  Function.update_self ..

/-- Two steps of one client are seen one after the other. -/
@[simp]
theorem after_after (o : AtomicObject ι Q A σ) (i : ι) (first second : List (Waiting Q A))
    (early late : List (Signal Q A)) (middle last : σ)
    : (o.after i first early middle).after i second late last
      = o.after i second (early ++ late) last := by
  simp [after]

/-- A step in which nothing happens. -/
@[simp]
theorem after_self (o : AtomicObject ι Q A σ) (i : ι)
    : o.after i (o.waiting i) [] o.state = o := by
  simp [after]

section Steps

variable (serves : ι → σ → Q → A → σ → Prop) (leaves : ι → σ → σ → Prop)

/-- A client calls, a call is served, a reply goes out, or a client that waits for nothing
leaves.
-/
inductive Step : AtomicObject ι Q A σ → AtomicObject ι Q A σ → Prop where
  | calls {o : AtomicObject ι Q A σ} (i : ι) (call : Q)
    : Step o (o.after i (o.waiting i ++ [⟨call, none⟩]) [.called call] o.state)
  | serves {o : AtomicObject ι Q A σ} {i : ι} {before after : List (Waiting Q A)} {call : Q}
    {reply : A} {later : σ} (waits : o.waiting i = before ++ ⟨call, none⟩ :: after)
    (served : serves i o.state call reply later)
    : Step o (o.after i (before ++ ⟨call, some reply⟩ :: after) [] later)
  | replies {o : AtomicObject ι Q A σ} {i : ι} {before after : List (Waiting Q A)} {call : Q}
    {reply : A} (waits : o.waiting i = before ++ ⟨call, some reply⟩ :: after)
    : Step o (o.after i (before ++ after) [.replied call reply] o.state)
  | leaves {o : AtomicObject ι Q A σ} {i : ι} {later : σ} (alone : o.waiting i = [])
    (left : leaves i o.state later)
    : Step o (o.after i [] [] later)

/-- Any number of steps. -/
abbrev Steps : AtomicObject ι Q A σ → AtomicObject ι Q A σ → Prop :=
  Relation.ReflTransGen (Step serves leaves)

end Steps

variable {serves : ι → σ → Q → A → σ → Prop} {leaves : ι → σ → σ → Prop}
  {o : AtomicObject ι Q A σ} {i : ι} {before after : List (Waiting Q A)} {call : Q} {reply : A}
  {later : σ}

/-- A call that is served when its reply goes out. -/
theorem Steps.answers (waits : o.waiting i = before ++ ⟨call, none⟩ :: after)
    (served : serves i o.state call reply later)
    : Steps serves leaves o (o.after i (before ++ after) [.replied call reply] later) := by
  have first : Steps serves leaves o _ := .single (.serves waits served)
  simpa using first.tail (.replies (after_waiting ..))

/-- A call that is served and replied to as soon as it is made. -/
theorem Steps.atOnce (served : serves i o.state call reply later)
    : Steps serves leaves o
        (o.after i (o.waiting i) [.called call, .replied call reply] later) := by
  have first : Steps serves leaves o _ := .single (.calls i call)
  simpa using first.trans (Steps.answers (after_waiting ..) served)

end AtomicObject

end SftpServer.Foundations
