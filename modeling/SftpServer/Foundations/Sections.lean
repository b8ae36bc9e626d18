import SftpServer.Foundations.Interaction

/-! Programs that do their work in one critical section: one question opens it, another closes
it. An exclusive section keeps all others out, and a shared one asks for a single piece of
work. Side by side such programs do what they would do one after another: the work of a shared
section happens at its question, that of an exclusive one when the section closes.
-/

namespace SftpServer.Foundations

/-- Whom a section keeps out: all others, or those that are exclusive. -/
inductive Guard where
  | exclusive
  | shared
  deriving DecidableEq, Repr

/-- The questions that open a section, and those that close one. -/
structure Gate (E : Type) where
  opens : E → Option Guard
  closes : E → Bool

/-- Where an environment can be after a trace. -/
inductive Path {E σ : Type} {A : E → Type} (moves : σ → Exchange A → σ → Prop)
    : σ → List (Exchange A) → σ → Prop where
  | nil (s : σ) : Path moves s [] s
  | cons {s middle last : σ} {exchange : Exchange A} {rest : List (Exchange A)}
    (moved : moves s exchange middle) (path : Path moves middle rest last)
    : Path moves s (exchange :: rest) last

section Paths

variable {E σ : Type} {A : E → Type} {moves : σ → Exchange A → σ → Prop}

theorem Path.append {s middle last : σ} {early late : List (Exchange A)}
    (before : Path moves s early middle) (after : Path moves middle late last)
    : Path moves s (early ++ late) last := by
  induction before with
  | nil => exact after
  | cons moved _ ih => exact .cons moved (ih after)

theorem Path.single {s last : σ} {exchange : Exchange A} (moved : moves s exchange last)
    : Path moves s [exchange] last :=
  .cons moved (.nil last)

/-- A branch along which a state machine has answered is the one it runs a program on, by
induction on the branch.
-/
theorem Interaction.Runs.exec_eq {α : Type} {respond : σ → (question : E) → A question × σ}
    (answers : ∀ s exchange later, moves s exchange later
      → respond s exchange.question = (exchange.answer, later))
    {program : Interaction A α} {trace : List (Exchange A)} {value : α} {s last : σ}
    (runs : program.Runs trace value) (path : Path moves s trace last)
    : Interaction.exec respond s program = (value, last) := by
  induction runs generalizing s with
  | ret value =>
      cases path
      rfl
  | ask rest ih =>
      cases path with
      | cons moved path =>
          rw [Interaction.exec_ask, answers _ _ _ moved]
          exact ih path

end Paths

namespace Gate

variable {E : Type} (gate : Gate E)

/-- The question is about the gate, and no work. -/
def Passes (question : E) : Prop :=
  (gate.opens question).isSome = true ∨ gate.closes question = true

/-- What is held after a question. -/
def after (held : Option Guard) (question : E) : Option Guard :=
  match gate.opens question with
  | some guard => some guard
  | none => if gate.closes question then none else held

variable {gate} {question : E}

theorem after_opens {held : Option Guard} {guard : Guard}
    (opens : gate.opens question = some guard)
    : gate.after held question = some guard := by
  simp [after, opens]

theorem after_closes {held : Option Guard} (closes : gate.closes question = true)
    (apart : gate.opens question = none)
    : gate.after held question = none := by
  simp [after, closes, apart]

theorem after_works {held : Option Guard} (works : ¬gate.Passes question)
    : gate.after held question = held := by
  obtain ⟨opens, closes⟩ := not_or.mp works
  simp only [Option.not_isSome_iff_eq_none] at opens
  simp [after, opens, closes]

end Gate

/-- An environment that does not notice the gate. -/
def Quiet {E σ : Type} {A : E → Type} (gate : Gate E) (moves : σ → Exchange A → σ → Prop)
    : Prop :=
  ∀ {s later : σ} {question : E} {answer : A question}, gate.Passes question
    → (moves s ⟨question, answer⟩ later ↔ later = s)

namespace Interaction

variable {E : Type} {A : E → Type} {α : Type}

/-- A body, and the question that closes its section. -/
def closing (close : E) (body : Interaction A α) : Interaction A α :=
  body >>= fun value => .ask close fun _ => .ret value

/-- A body in its section. -/
def enclosed (opening close : E) (body : Interaction A α) : Interaction A α :=
  .ask opening fun _ => closing close body

/-- One question at most. -/
inductive Brief : Interaction A α → Prop where
  | ret (value : α) : Brief (.ret value)
  | ask {question : E} {next : A question → Interaction A α}
    (returns : ∀ answer, ∃ value, next answer = .ret value)
    : Brief (.ask question next)

/-- A body that works under a guard: it leaves the gate alone, and is brief if it is shared. -/
structure InSection (gate : Gate E) (guard : Guard) (opening close : E)
    (body : Interaction A α) : Prop where
  opens : gate.opens opening = some guard
  closes : gate.closes close = true
  apart : gate.opens close = none
  works : body.Asks (fun question => ¬gate.Passes question) fun _ => True
  brief : guard = .shared → body.Brief

/-- Nothing to ask, or all of it in one section. -/
inductive Sectioned (gate : Gate E) : Interaction A α → Prop where
  | plain (value : α) : Sectioned gate (.ret value)
  | guarded {guard : Guard} {opening close : E} {body : Interaction A α}
    (inSection : InSection gate guard opening close body)
    : Sectioned gate (enclosed opening close body)

theorem enclosed_runs {opening close : E} {body : Interaction A α} {trace : List (Exchange A)}
    {value : α} (runs : body.Runs trace value) (opened : A opening) (closed : A close)
    : (enclosed opening close body).Runs (⟨opening, opened⟩ :: (trace ++ [⟨close, closed⟩]))
        value :=
  .ask (runs.bind (.ask (.ret value)))

theorem closing_ne_ret {close : E} {body : Interaction A α} {value : α}
    : closing close body ≠ .ret value := by
  intro same
  cases body <;> cases same

end Interaction

open Interaction

variable {E σ : Type} {A : E → Type} {α : Type}

/-- How far a program is in its section, beside what is left of it where it is done at once.
The environment is at `base` there and at `now` here; only what is exclusive sets them apart.
-/
inductive Stage (gate : Gate E) (moves : σ → Exchange A → σ → Prop) (base now : σ)
    : Option Guard → Interaction A α → Interaction A α → Prop where
  /-- The section is not open: nothing is begun, or all is done. -/
  | outside {program : Interaction A α} (sectioned : program.Sectioned gate)
    : Stage gate moves base now none program program
  /-- A shared section is open, and its work not done. -/
  | entered {opening close : E} {body : Interaction A α} (opened : A opening)
    (inSection : InSection gate .shared opening close body)
    : Stage gate moves base now (some .shared) (enclosed opening close body) (closing close body)
  /-- An exclusive section is open, and some of its work done. -/
  | working {opening close : E} {body rest : Interaction A α} {trace : List (Exchange A)}
    (opened : A opening) (inSection : InSection gate .exclusive opening close body)
    (leaves : body.Leaves trace rest) (path : Path moves base trace now)
    : Stage gate moves base now (some .exclusive) (enclosed opening close body)
        (closing close rest)
  /-- A shared section is still open, but its work is done. -/
  | leaving {close : E} (closes : gate.closes close = true) (apart : gate.opens close = none)
    (value : α)
    : Stage gate moves base now (some .shared) (.ret value) (closing close (.ret value))

namespace Stage

variable {gate : Gate E} {moves : σ → Exchange A → σ → Prop} {base now : σ}
  {held : Option Guard} {spec impl : Interaction A α}

/-- Only what is exclusive knows where the environment is. -/
theorem elsewhere (stage : Stage gate moves base now held spec impl)
    (others : held ≠ some .exclusive) (base' now' : σ)
    : Stage gate moves base' now' held spec impl := by
  cases stage with
  | outside sectioned => exact .outside sectioned
  | entered opened inSection => exact .entered opened inSection
  | working => exact absurd rfl others
  | leaving closes apart value => exact .leaving closes apart value

/-- Outside of its section a program is what it is where it is done at once. -/
theorem eq_of_outside (stage : Stage gate moves base now none spec impl) : spec = impl := by
  cases stage with
  | outside sectioned => rfl

/-- A program that has returned is out of its section, and was done at once as well. -/
theorem returned {value : α} (stage : Stage gate moves base now held spec (.ret value))
    : held = none ∧ spec = .ret value := by
  generalize same : (.ret value : Interaction A α) = impl at stage
  cases stage with
  | outside sectioned => exact ⟨rfl, rfl⟩
  | entered => exact absurd same.symm closing_ne_ret
  | working => exact absurd same.symm closing_ne_ret
  | leaving => exact absurd same.symm closing_ne_ret

/-- What a question does to the program beside it: nothing yet, or all at once. -/
inductive Next (gate : Gate E) (moves : σ → Exchange A → σ → Prop) (base later : σ)
    (held : Option Guard) (spec impl : Interaction A α) : Prop where
  | stays (stage : Stage gate moves base later held spec impl)
    (settled : held = some .exclusive ∨ base = later)
  | performs {calls : List (Exchange A)} {value : α} (runs : spec.Runs calls value)
    (path : Path moves base calls later)
    (stage : Stage gate moves later later held (.ret value) impl)

section Steps

variable {later : σ} {question : E} {next : A question → Interaction A α} {answer : A question}

/-- The section opens. -/
theorem next_opening (quiet : Quiet gate moves) {opening close : E} {body : Interaction A α}
    {guard : Guard} (inSection : InSection gate guard opening close body) {opened : A opening}
    (moved : moves base ⟨opening, opened⟩ later)
    : Next gate moves base later (gate.after none opening) (enclosed opening close body)
        (closing close body) := by
  have opens := inSection.opens
  rw [quiet (.inl (by simp [opens]))] at moved
  subst moved
  rw [Gate.after_opens opens]
  cases guard with
  | exclusive => exact .stays (.working opened inSection .start (.nil _)) (.inl rfl)
  | shared => exact .stays (.entered opened inSection) (.inr rfl)

/-- An exclusive section goes on, or closes; then all its work is done at once. -/
theorem next_working (quiet : Quiet gate moves) {opening close : E}
    {body rest : Interaction A α} {trace : List (Exchange A)} (opened : A opening)
    (inSection : InSection gate .exclusive opening close body) (leaves : body.Leaves trace rest)
    (path : Path moves base trace now) (asks : closing close rest = .ask question next)
    (moved : moves now ⟨question, answer⟩ later)
    : Next gate moves base later (gate.after (some .exclusive) question)
        (enclosed opening close body) (next answer) := by
  cases rest with
  | ret value =>
      cases asks
      rw [Gate.after_closes inSection.closes inSection.apart]
      have unnoticed : moves base ⟨opening, opened⟩ base :=
        (quiet (.inl (by simp [inSection.opens]))).mpr rfl
      exact .performs (enclosed_runs leaves.returned opened answer)
        (.cons unnoticed (path.append (.single moved))) (.outside (.plain value))
  | ask question rest =>
      cases asks
      have works := (leaves.asks inSection.works).1
      rw [Gate.after_works works]
      exact .stays
        (.working opened inSection (leaves.step answer) (path.append (.single moved))) (.inl rfl)

variable [∀ question, Inhabited (A question)]

/-- A shared section does its work, or closes without any. -/
theorem next_entered (quiet : Quiet gate moves) {opening close : E} {body : Interaction A α}
    (opened : A opening) (inSection : InSection gate .shared opening close body)
    (asks : closing close body = .ask question next)
    (moved : moves base ⟨question, answer⟩ later)
    : Next gate moves base later (gate.after (some .shared) question)
        (enclosed opening close body) (next answer) := by
  have unnoticed : moves base ⟨opening, opened⟩ base :=
    (quiet (.inl (by simp [inSection.opens]))).mpr rfl
  cases inSection.brief rfl with
  | ret value =>
      cases asks
      rw [Gate.after_closes inSection.closes inSection.apart]
      have same := (quiet (.inr inSection.closes)).mp moved
      subst same
      exact .performs (enclosed_runs (.ret value) opened answer)
        (.cons unnoticed (.single moved)) (.outside (.plain value))
  | @ask question body returns =>
      cases asks
      rw [Gate.after_works inSection.works.1]
      obtain ⟨value, returned⟩ := returns answer
      have closed : moves later ⟨close, default⟩ later :=
        (quiet (.inr inSection.closes)).mpr rfl
      have runs : Runs (.ask question body) [⟨question, answer⟩] value :=
        .ask (by rw [returned]; exact .ret value)
      refine .performs (enclosed_runs runs opened default)
        (.cons unnoticed (.cons moved (.single closed))) ?_
      dsimp only
      rw [returned]
      exact .leaving inSection.closes inSection.apart value

/-- One question of a program, where the environment is as it would be without the sections
that are still open, or the program's own is the exclusive one.
-/
theorem step (quiet : Quiet gate moves)
    (stage : Stage gate moves base now held spec (.ask question next))
    (settled : held = some .exclusive ∨ base = now)
    (moved : moves now ⟨question, answer⟩ later)
    : Next gate moves base later (gate.after held question) spec (next answer) := by
  generalize asks : (.ask question next : Interaction A α) = impl at stage
  have resolve : held ≠ some .exclusive → moves base ⟨question, answer⟩ later := by
    intro others
    rw [settled.resolve_left others]
    exact moved
  cases stage with
  | outside sectioned =>
      cases sectioned with
      | plain => cases asks
      | guarded inSection =>
          cases asks
          exact next_opening quiet inSection (resolve nofun)
  | entered opened inSection =>
      exact next_entered quiet opened inSection asks.symm (resolve nofun)
  | working opened inSection leaves path =>
      exact next_working quiet opened inSection leaves path asks.symm moved
  | leaving closes apart value =>
      cases asks
      have same := (quiet (.inr closes)).mp (resolve nofun)
      subst same
      rw [Gate.after_closes closes apart]
      exact .stays (.outside (.plain value)) (.inr rfl)

end Steps

end Stage

end SftpServer.Foundations
