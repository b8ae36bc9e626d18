import SftpServer.Foundations.Interaction

/-! Programs that may panic, with what is deferred and what recovers. A panic ends a function
but not what it deferred, and a deferred recovery turns it into a result. What a program may
ask is said of the whole history of its calls.
-/

namespace SftpServer.Foundations

/-- A program that ends in a value or in a panic. -/
abbrev Unwinding (P : Type) {E : Type} (A : E → Type) := ExceptT P (Interaction A)

namespace Unwinding

variable {E : Type} {A : E → Type} {P α β : Type}

/-- A call that returns. -/
def ask (question : E) : Unwinding P A (A question) := ExceptT.lift (.ask question .ret)

/-- `defer`: whatever ends the body, the cleanup comes last, and a panic of its own is the one
that goes on.
-/
def deferring (cleanup : Unwinding P A Unit) (body : Unwinding P A α) : Unwinding P A α :=
  ExceptT.mk do
    let result ← body.run
    match ← cleanup.run with
    | .ok () => return result
    | .error panic => return .error panic

/-- `recover`: a panic of the body is a result. -/
def recovering (result : P → α) (body : Unwinding P A α) : Unwinding P A α :=
  ExceptT.mk do
    match ← body.run with
    | .ok value => return .ok value
    | .error panic => return .ok (result panic)

section Runs

variable {trace : List (Exchange A)}

theorem deferring_runs_iff {cleanup : Unwinding P A Unit} {body : Unwinding P A α}
    {ended : Except P α}
    : (deferring cleanup body).run.Runs trace ended
      ↔ ∃ early late result closed,
          trace = early ++ late
          ∧ body.run.Runs early result
          ∧ cleanup.run.Runs late closed
          ∧ ended = closed.bind fun _ => result := by
  constructor
  · intro runs
    obtain ⟨early, rest, result, rfl, first, second⟩ := runs.bind_split
    obtain ⟨late, none, closed, rfl, cleaned, returns⟩ := second.bind_split
    refine ⟨early, late, result, closed, ?_, first, cleaned, ?_⟩
    · cases closed <;> obtain ⟨rfl, _⟩ := Interaction.runs_ret_iff.mp returns <;> simp
    · cases closed <;> exact (Interaction.runs_ret_iff.mp returns).2
  · rintro ⟨early, late, result, closed, rfl, first, cleaned, rfl⟩
    refine first.bind ?_
    rw [← List.append_nil late]
    refine cleaned.bind ?_
    cases closed <;> exact .ret _

theorem recovering_runs_iff {result : P → α} {body : Unwinding P A α} {ended : Except P α}
    : (recovering result body).run.Runs trace ended
      ↔ ∃ inner, body.run.Runs trace inner
        ∧ ended = .ok (match inner with
          | .ok value => value
          | .error panic => result panic) := by
  constructor
  · intro runs
    obtain ⟨early, none, inner, rfl, first, returns⟩ := runs.bind_split
    refine ⟨inner, ?_, ?_⟩
    · cases inner <;> obtain ⟨rfl, _⟩ := Interaction.runs_ret_iff.mp returns <;> simpa
    · cases inner <;> exact (Interaction.runs_ret_iff.mp returns).2
  · rintro ⟨inner, first, rfl⟩
    rw [← List.append_nil trace]
    refine first.bind ?_
    cases inner <;> exact .ret _

end Runs

section Calls

variable {E P : Type}

/-- Calls one after the other, for as long as none panics. -/
def calls : List E → Unwinding P (fun _ : E => Except P Unit) Unit
  | [] => pure ()
  | question :: rest => do
      ExceptT.mk (.ask question .ret)
      calls rest

/-- All of a script was called, or the first calls of it up to one that panicked. -/
inductive Follows : List E → List (Exchange fun _ : E => Except P Unit) → Except P Unit → Prop where
  | nil : Follows [] [] (.ok ())
  | next {question : E} {script : List E} {trace : List (Exchange fun _ : E => Except P Unit)}
    {result : Except P Unit} (rest : Follows script trace result)
    : Follows (question :: script) (⟨question, .ok ()⟩ :: trace) result
  | panics (question : E) (script : List E) (panic : P)
    : Follows (question :: script) [⟨question, .error panic⟩] (.error panic)

/-- The runs of a sequence of calls, by induction on it. -/
theorem calls_runs_iff {script : List E} {trace : List (Exchange fun _ : E => Except P Unit)}
    {result : Except P Unit}
    : (calls script).run.Runs trace result ↔ Follows script trace result := by
  constructor
  · intro runs
    induction script generalizing trace with
    | nil =>
        obtain ⟨rfl, rfl⟩ := Interaction.runs_ret_iff.mp runs
        exact .nil
    | cons question script ih =>
        obtain ⟨answer, rest, rfl, onward⟩ := Interaction.runs_ask_iff.mp runs
        cases answer with
        | ok value => exact .next (ih onward)
        | error panic =>
            obtain ⟨rfl, rfl⟩ := Interaction.runs_ret_iff.mp onward
            exact .panics question script panic
  · intro follows
    induction follows with
    | nil => exact .ret _
    | next _ ih => exact .ask ih
    | panics question script panic => exact .ask (.ret _)

end Calls

section Asks

variable {Q : E → Prop}

end Asks

end Unwinding

/-- What was asked so far is what a program asks, by induction on the exchanges. -/
theorem Interaction.Leaves.asked {E : Type} {A : E → Type} {α : Type} {Q : E → Prop}
    {post : α → Prop} {program rest : Interaction A α} {trace : List (Exchange A)}
    (leaves : program.Leaves trace rest) (asks : program.Asks Q post)
    : ∀ exchange ∈ trace, Q exchange.question := by
  induction leaves with
  | start => exact fun _ member => (List.not_mem_nil member).elim
  | step before answer ih =>
      refine List.forall_mem_append.mpr ⟨ih, fun exchange member => ?_⟩
      rw [List.mem_singleton.mp member]
      exact (before.asks asks).1

namespace Monitor

variable {E : Type} {A : E → Type} {M P α β : Type} (monitor : Monitor A M)

section Rules

variable (state : M)

/-- A call that returns, followed by the rest. -/
theorem wp_ask_bind_run (question : E) (rest : A question → Unwinding P A α)
    (post : M → Except P α → Prop)
    : monitor.wp (Unwinding.ask question >>= rest).run post state
      ↔ monitor.allowed state question
        ∧ ∀ answer, monitor.legal state question answer
          → monitor.wp (rest answer).run post (monitor.next state question answer) :=
  Iff.rfl

/-- The rule of sequence: a panic skips what follows. -/
theorem wp_bind_run (body : Unwinding P A α) (rest : α → Unwinding P A β)
    (post : M → Except P β → Prop)
    : monitor.wp (body >>= rest).run post state
      ↔ monitor.wp body.run
          (fun later result =>
            match result with
            | .ok value => monitor.wp (rest value).run post later
            | .error panic => post later (.error panic)) state := by
  rw [ExceptT.run_bind, wp_bind]
  constructor
  · refine fun holds => wp_mono holds fun later result holds => ?_
    cases result <;> exact holds
  · refine fun holds => wp_mono holds fun later result holds => ?_
    cases result <;> exact holds

/-- The rule of `defer`. -/
theorem wp_deferring (cleanup : Unwinding P A Unit) (body : Unwinding P A α)
    (post : M → Except P α → Prop)
    : monitor.wp (Unwinding.deferring cleanup body).run post state
      ↔ monitor.wp body.run
          (fun middle result =>
            monitor.wp cleanup.run
              (fun later closed =>
                match closed with
                | .ok () => post later result
                | .error panic => post later (.error panic)) middle) state := by
  simp only [Unwinding.deferring, ExceptT.run_mk, wp_bind]
  constructor
  · refine fun holds => wp_mono holds fun middle result holds => ?_
    exact wp_mono holds fun later closed holds => by cases closed <;> exact holds
  · refine fun holds => wp_mono holds fun middle result holds => ?_
    exact wp_mono holds fun later closed holds => by cases closed <;> exact holds

/-- The rule of `recover`. -/
theorem wp_recovering (result : P → α) (body : Unwinding P A α) (post : M → Except P α → Prop)
    : monitor.wp (Unwinding.recovering result body).run post state
      ↔ monitor.wp body.run
          (fun later ended =>
            match ended with
            | .ok value => post later (.ok value)
            | .error panic => post later (.ok (result panic))) state := by
  simp only [Unwinding.recovering, ExceptT.run_mk, wp_bind]
  constructor
  · refine fun holds => wp_mono holds fun later ended holds => ?_
    cases ended <;> exact holds
  · refine fun holds => wp_mono holds fun later ended holds => ?_
    cases ended <;> exact holds

end Rules

/-- Watches what may be asked after all that was asked and answered before. -/
def recalling (allowed : List (Exchange A) → E → Prop) : Monitor A (List (Exchange A)) where
  legal _ _ _ := True
  allowed
  next past question answer := past ++ [⟨question, answer⟩]

section Recalling

variable {allowed : List (Exchange A) → E → Prop} {post : List (Exchange A) → α → Prop}
  {program rest : Interaction A α} {past trace : List (Exchange A)}

/-- Along every branch each question is allowed after those before it, by induction on the
exchanges.
-/
theorem recalling_leaves (holds : (recalling allowed).wp program post [])
    (leaves : program.Leaves trace rest)
    : (∀ before question answer after, trace = before ++ ⟨question, answer⟩ :: after
        → allowed before question)
      ∧ (recalling allowed).wp rest post trace := by
  induction leaves with
  | start => exact ⟨fun before question answer after empty => by simp at empty, holds⟩
  | @step trace question next _ answer ih =>
      obtain ⟨earlier, asks⟩ := ih
      refine ⟨fun before asked given after split => ?_, asks.2 answer trivial⟩
      rcases List.eq_nil_or_concat after with rfl | ⟨front, last, rfl⟩
      · obtain ⟨rfl, same⟩ := List.append_inj' split rfl
        cases same
        exact asks.1
      · rw [List.concat_eq_append, ← List.cons_append, ← List.append_assoc] at split
        obtain ⟨rfl, _⟩ := List.append_inj' split rfl
        exact earlier before asked given front rfl

end Recalling

end Monitor

end SftpServer.Foundations
