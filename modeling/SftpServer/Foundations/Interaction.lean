import Mathlib.Data.List.Basic

/-! Programs that question an environment, and the logic of what they ask it.
A program is the finite tree of its questions; a branch is one behaviour of the
environment. A monitor states what the environment may answer (rely) and what the
program may ask (guarantee), and `wp` is the weakest precondition of both.
-/

namespace SftpServer.Foundations

/-- A finite program over the questions `E`; `A question` is what can be answered. -/
inductive Interaction {E : Type} (A : E → Type) (α : Type) : Type where
  | ret (value : α)
  | ask (question : E) (next : A question → Interaction A α)

/-- One question with the answer it was given. -/
structure Exchange {E : Type} (A : E → Type) where
  question : E
  answer : A question

namespace Interaction

variable {E : Type} {A : E → Type} {α β : Type}

/-- Continue every branch of a program with the program for its result. -/
protected def bind : Interaction A α → (α → Interaction A β) → Interaction A β
  | .ret value, rest => rest value
  | .ask question next, rest => .ask question (fun answer => (next answer).bind rest)

instance : Monad (Interaction A) where
  pure := .ret
  bind := Interaction.bind

@[simp]
theorem pure_eq (value : α) : (pure value : Interaction A α) = .ret value := rfl

@[simp]
theorem ret_bind (value : α) (rest : α → Interaction A β)
    : (.ret value : Interaction A α) >>= rest = rest value :=
  rfl

@[simp]
theorem ask_bind (question : E) (next : A question → Interaction A α)
    (rest : α → Interaction A β)
    : (.ask question next : Interaction A α) >>= rest
      = .ask question (fun answer => next answer >>= rest) :=
  rfl

theorem bind_assoc {γ : Type} (program : Interaction A α) (middle : α → Interaction A β)
    (rest : β → Interaction A γ)
    : program >>= middle >>= rest = program >>= fun value => middle value >>= rest := by
  induction program with
  | ret value => rfl
  | ask question next ih => exact congrArg (Interaction.ask question) (funext ih)

/-- The trace of exchanges and the result along one branch. -/
inductive Runs : Interaction A α → List (Exchange A) → α → Prop where
  | ret (value : α) : Runs (.ret value) [] value
  | ask {question : E} {next : A question → Interaction A α} {answer : A question}
    {trace : List (Exchange A)} {value : α} (rest : Runs (next answer) trace value)
    : Runs (.ask question next) (⟨question, answer⟩ :: trace) value

/-- A run of a returned value asks nothing. -/
theorem runs_ret_iff {value result : α} {trace : List (Exchange A)}
    : Runs (.ret value : Interaction A α) trace result ↔ trace = [] ∧ result = value := by
  constructor
  · intro run
    cases run
    exact ⟨rfl, rfl⟩
  · intro both
    obtain ⟨rfl, rfl⟩ := both
    exact .ret _

/-- A run of a question is an answer followed by a run of its branch. -/
theorem runs_ask_iff {question : E} {next : A question → Interaction A α}
    {trace : List (Exchange A)} {result : α}
    : Runs (.ask question next) trace result
      ↔ ∃ answer rest,
          trace = ⟨question, answer⟩ :: rest ∧ Runs (next answer) rest result := by
  constructor
  · intro run
    cases run with
    | ask rest => exact ⟨_, _, rfl, rest⟩
  · intro held
    obtain ⟨answer, rest, rfl, run⟩ := held
    exact .ask run

/-- A run of a single question followed by the rest. -/
theorem runs_call_iff {question : E} {rest : A question → Interaction A α}
    {trace : List (Exchange A)} {result : α}
    : Runs ((.ask question .ret : Interaction A (A question)) >>= rest) trace result
      ↔ ∃ answer tail,
          trace = ⟨question, answer⟩ :: tail ∧ Runs (rest answer) tail result :=
  runs_ask_iff

/-- A run of a sequence splits into a run of each part, by induction on the first. -/
theorem Runs.bind_split {program : Interaction A α} {rest : α → Interaction A β}
    {trace : List (Exchange A)} {result : β} (run : Runs (program >>= rest) trace result)
    : ∃ early late value,
        trace = early ++ late
        ∧ Runs program early value
        ∧ Runs (rest value) late result := by
  induction program generalizing trace with
  | ret value => exact ⟨[], trace, value, rfl, .ret value, run⟩
  | ask question next ih =>
      rw [ask_bind, runs_ask_iff] at run
      obtain ⟨answer, tail, rfl, run⟩ := run
      obtain ⟨early, late, value, rfl, first, second⟩ := ih answer run
      exact ⟨_ :: early, late, value, rfl, .ask first, second⟩

/-- Runs of two parts are a run of the sequence, by induction on the first. -/
theorem Runs.bind {program : Interaction A α} {rest : α → Interaction A β} {value : α}
    {early late : List (Exchange A)} {result : β} (first : Runs program early value)
    (second : Runs (rest value) late result)
    : Runs (program >>= rest) (early ++ late) result := by
  induction first with
  | ret value => exact second
  | ask _ ih => exact .ask (ih second)

/-- What is left of a program after these exchanges. -/
inductive Leaves (program : Interaction A α) : List (Exchange A) → Interaction A α → Prop where
  | start : Leaves program [] program
  | step {trace : List (Exchange A)} {question : E} {next : A question → Interaction A α}
    (before : Leaves program trace (.ask question next)) (answer : A question)
    : Leaves program (trace ++ [⟨question, answer⟩]) (next answer)

/-- What is left runs as the program does, by induction on the exchanges. -/
theorem Leaves.runs {program rest : Interaction A α} {early late : List (Exchange A)}
    {value : α} (leaves : Leaves program early rest) (runs : Runs rest late value)
    : Runs program (early ++ late) value := by
  induction leaves generalizing late with
  | start => exact runs
  | step _ answer ih =>
      rw [List.append_assoc]
      exact ih (.ask runs)

/-- A program of which only its value is left has been run. -/
theorem Leaves.returned {program : Interaction A α} {trace : List (Exchange A)} {value : α}
    (leaves : Leaves program trace (.ret value))
    : Runs program trace value := by
  simpa using leaves.runs (.ret value)

/-- Run a program against an environment that is a state machine. -/
def interpret {σ : Type} (respond : σ → (question : E) → A question × σ)
    : σ → Interaction A α → List (Exchange A) × α × σ
  | state, .ret value => ([], value, state)
  | state, .ask question next =>
      let (answer, later) := respond state question
      let (trace, value, final) := interpret respond later (next answer)
      (⟨question, answer⟩ :: trace, value, final)

/-- An interpreted program follows one of its branches. -/
theorem interpret_runs {σ : Type} (respond : σ → (question : E) → A question × σ)
    (state : σ) (program : Interaction A α)
    : Runs program (interpret respond state program).1
        (interpret respond state program).2.1 := by
  induction program generalizing state with
  | ret value => exact .ret value
  | ask question next ih => exact .ask (ih _ _)

/-- The result of an interpreted program, and the environment it leaves. -/
def exec {σ : Type} (respond : σ → (question : E) → A question × σ) (state : σ)
    (program : Interaction A α)
    : α × σ :=
  (interpret respond state program).2

@[simp]
theorem exec_ret {σ : Type} (respond : σ → (question : E) → A question × σ) (state : σ)
    (value : α)
    : exec respond state (.ret value : Interaction A α) = (value, state) :=
  rfl

@[simp]
theorem exec_ask {σ : Type} (respond : σ → (question : E) → A question × σ) (state : σ)
    (question : E) (next : A question → Interaction A α)
    : exec respond state (.ask question next)
      = exec respond (respond state question).2 (next (respond state question).1) :=
  rfl

/-- The rest of a sequence runs in the environment its first part leaves. -/
@[simp]
theorem exec_bind {σ : Type} (respond : σ → (question : E) → A question × σ) (state : σ)
    (program : Interaction A α) (rest : α → Interaction A β)
    : exec respond state (program >>= rest)
      = exec respond (exec respond state program).2 (rest (exec respond state program).1) := by
  induction program generalizing state with
  | ret value => rfl
  | ask question next ih => simp only [ask_bind, exec_ask, ih]

/-- Every question the program can come to ask satisfies `P`, and every result `Q`. -/
def Asks (P : E → Prop) (Q : α → Prop) : Interaction A α → Prop
  | .ret value => Q value
  | .ask question next => P question ∧ ∀ answer, (next answer).Asks P Q

@[simp]
theorem asks_ret (P : E → Prop) (Q : α → Prop) (value : α)
    : (.ret value : Interaction A α).Asks P Q ↔ Q value :=
  Iff.rfl

@[simp]
theorem asks_ask (P : E → Prop) (Q : α → Prop) (question : E)
    (next : A question → Interaction A α)
    : (.ask question next : Interaction A α).Asks P Q
      ↔ P question ∧ ∀ answer, (next answer).Asks P Q :=
  Iff.rfl

/-- The rule of sequence, by induction on the first program. -/
@[simp]
theorem asks_bind (P : E → Prop) (Q : β → Prop) (program : Interaction A α)
    (rest : α → Interaction A β)
    : (program >>= rest).Asks P Q ↔ program.Asks P (fun value => (rest value).Asks P Q) := by
  induction program with
  | ret value => rfl
  | ask question next ih => simp only [ask_bind, asks_ask, ih]

/-- The rule for a single question followed by the rest. -/
theorem Asks.call {P : E → Prop} {Q : α → Prop} {question : E}
    {rest : A question → Interaction A α} (asked : P question)
    (later : ∀ answer, (rest answer).Asks P Q)
    : ((.ask question .ret : Interaction A (A question)) >>= rest).Asks P Q :=
  ⟨asked, later⟩

/-- The rule of consequence. -/
theorem Asks.mono {P P' : E → Prop} {Q Q' : α → Prop} {program : Interaction A α}
    (asks : program.Asks P Q) (questions : ∀ question, P question → P' question)
    (results : ∀ value, Q value → Q' value)
    : program.Asks P' Q' := by
  induction program with
  | ret value => exact results value asks
  | ask question next ih =>
      exact ⟨questions question asks.1, fun answer => ih answer (asks.2 answer)⟩

/-- What is left of a program asks nothing new. -/
theorem Leaves.asks {P : E → Prop} {Q : α → Prop} {program rest : Interaction A α}
    {trace : List (Exchange A)} (leaves : Leaves program trace rest) (asks : program.Asks P Q)
    : rest.Asks P Q := by
  induction leaves with
  | start => exact asks
  | step _ answer ih => exact ih.2 answer

/-- The rule of sequence for what is asked alone. -/
theorem Asks.seq {P : E → Prop} {program : Interaction A α} {rest : α → Interaction A β}
    (first : program.Asks P fun _ => True) (second : ∀ value, (rest value).Asks P fun _ => True)
    : (program >>= rest).Asks P fun _ => True := by
  rw [asks_bind]
  exact first.mono (fun _ holds => holds) fun value _ => second value

theorem asks_true (program : Interaction A α)
    : program.Asks (fun _ => True) fun _ => True := by
  induction program with
  | ret value => trivial
  | ask question next ih => exact ⟨trivial, ih⟩

/-- What every question of a program keeps of its environment, the program keeps, by induction
on the program.
-/
theorem Asks.exec_invariant {σ : Type} {respond : σ → (question : E) → A question × σ}
    {I : σ → Prop} {P : E → Prop} {Q : α → Prop} {program : Interaction A α}
    (kept : ∀ state question, P question → I state → I (respond state question).2)
    (asks : program.Asks P Q) {state : σ} (holds : I state)
    : I (exec respond state program).2 := by
  induction program generalizing state with
  | ret value => exact holds
  | ask question next ih =>
      rw [exec_ask]
      exact ih _ (asks.2 _) (kept state question asks.1 holds)

/-- What no question of a program changes in its environment, the program does not change. -/
theorem Asks.exec_keeps {σ ρ : Type} {respond : σ → (question : E) → A question × σ}
    {observe : σ → ρ} {P : E → Prop} {Q : α → Prop} {program : Interaction A α}
    (frame : ∀ state question, P question
      → observe (respond state question).2 = observe state)
    (asks : program.Asks P Q) (state : σ)
    : observe (exec respond state program).2 = observe state :=
  @exec_invariant _ _ _ _ _ (fun later => observe later = observe state) _ _ _
    (fun later question asked same => (frame later question asked).trans same) asks _ rfl

/-- What is said of every branch holds of each run. -/
theorem Asks.of_runs {P : E → Prop} {Q : α → Prop} {program : Interaction A α}
    {trace : List (Exchange A)} {value : α} (asks : program.Asks P Q)
    (run : program.Runs trace value)
    : (∀ exchange ∈ trace, P exchange.question) ∧ Q value := by
  induction run with
  | ret value => exact ⟨by simp, asks⟩
  | ask _ ih =>
      obtain ⟨later, result⟩ := ih (asks.2 _)
      refine ⟨?_, result⟩
      intro exchange member
      rcases List.mem_cons.mp member with rfl | member
      · exact asks.1
      · exact later exchange member

/-- And of what an environment makes of the program. -/
theorem Asks.exec_result {σ : Type} {P : E → Prop} {Q : α → Prop} {program : Interaction A α}
    (asks : program.Asks P Q) (respond : σ → (question : E) → A question × σ) (state : σ)
    : Q (exec respond state program).1 :=
  (asks.of_runs (interpret_runs respond state program)).2

/-- A program whose questions can all be answered can be run to its end. -/
theorem exists_run [∀ question, Inhabited (A question)] (program : Interaction A α)
    : ∃ trace value, program.Runs trace value :=
  ⟨_, _, interpret_runs (fun (_ : Unit) _ => (default, ())) () program⟩

/-- What holds of every run holds of every branch. -/
theorem Asks.of_all_runs [∀ question, Inhabited (A question)] {P : E → Prop}
    {program : Interaction A α}
    (all : ∀ trace value, program.Runs trace value → ∀ exchange ∈ trace, P exchange.question)
    : program.Asks P fun _ => True := by
  induction program with
  | ret value => trivial
  | ask question next ih =>
      obtain ⟨trace, value, run⟩ := exists_run (next default)
      refine ⟨all _ value (.ask run) ⟨question, default⟩ (by simp), fun answer => ?_⟩
      apply ih
      intro trace value run exchange member
      exact all _ value (.ask run) exchange (List.mem_cons_of_mem ⟨question, answer⟩ member)

end Interaction

/-- A monitor watches a trace from a state of type `M`: `legal` is what the environment
may answer there, `allowed` what the program may ask, `next` the state after the exchange.
-/
structure Monitor {E : Type} (A : E → Type) (M : Type) where
  legal : M → (question : E) → A question → Prop
  allowed : M → E → Prop
  next : M → (question : E) → A question → M

namespace Monitor

variable {E : Type} {A : E → Type} {M : Type} {α β : Type}

/-- The monitor's state after a trace. -/
def after (monitor : Monitor A M) (state : M) : List (Exchange A) → M
  | [] => state
  | exchange :: rest =>
      monitor.after (monitor.next state exchange.question exchange.answer) rest

/-- Every answer of the trace is one the environment may give. -/
def Legal (monitor : Monitor A M) (state : M) : List (Exchange A) → Prop
  | [] => True
  | exchange :: rest =>
      monitor.legal state exchange.question exchange.answer
      ∧ monitor.Legal (monitor.next state exchange.question exchange.answer) rest

/-- Every question of the trace is one the program may ask. -/
def Allowed (monitor : Monitor A M) (state : M) : List (Exchange A) → Prop
  | [] => True
  | exchange :: rest =>
      monitor.allowed state exchange.question
      ∧ monitor.Allowed (monitor.next state exchange.question exchange.answer) rest

/-- Watching an append is watching its parts in turn. -/
theorem after_append (monitor : Monitor A M) (state : M) (early late : List (Exchange A))
    : monitor.after state (early ++ late)
      = monitor.after (monitor.after state early) late := by
  induction early generalizing state with
  | nil => rfl
  | cons exchange rest ih => exact ih _

theorem legal_append {monitor : Monitor A M} {state : M} {early late : List (Exchange A)}
    : monitor.Legal state (early ++ late)
      ↔ monitor.Legal state early
        ∧ monitor.Legal (monitor.after state early) late := by
  induction early generalizing state with
  | nil => simp [Legal, after]
  | cons exchange rest ih => simp [Legal, after, ih, and_assoc]

theorem allowed_append {monitor : Monitor A M} {state : M}
    {early late : List (Exchange A)}
    : monitor.Allowed state (early ++ late)
      ↔ monitor.Allowed state early
        ∧ monitor.Allowed (monitor.after state early) late := by
  induction early generalizing state with
  | nil => simp [Allowed, after]
  | cons exchange rest ih => simp [Allowed, after, ih, and_assoc]

/-- From `state`, the program asks only what is allowed and ends in `post`, whatever
legal answers it is given.
-/
def wp (monitor : Monitor A M) : Interaction A α → (M → α → Prop) → M → Prop
  | .ret value, post, state => post state value
  | .ask question next, post, state =>
      monitor.allowed state question
      ∧ ∀ answer,
          monitor.legal state question answer
          → wp monitor (next answer) post (monitor.next state question answer)

@[simp]
theorem wp_ask (monitor : Monitor A M) (question : E)
    (next : A question → Interaction A α) (post : M → α → Prop) (state : M)
    : monitor.wp (.ask question next) post state
      ↔ monitor.allowed state question
        ∧ ∀ answer,
            monitor.legal state question answer
            → monitor.wp (next answer) post (monitor.next state question answer) :=
  Iff.rfl

/-- Sequencing composes weakest preconditions, by induction on the first program. -/
@[simp]
theorem wp_bind (monitor : Monitor A M) (program : Interaction A α)
    (rest : α → Interaction A β) (post : M → β → Prop) (state : M)
    : monitor.wp (program >>= rest) post state
      ↔ monitor.wp program (fun later value => monitor.wp (rest value) post later)
          state := by
  induction program generalizing state with
  | ret value => rfl
  | ask question next ih => simp only [Interaction.ask_bind, wp_ask, ih]

/-- A weaker postcondition is easier to establish. -/
theorem wp_mono {monitor : Monitor A M} {program : Interaction A α}
    {strong weak : M → α → Prop} {state : M} (holds : monitor.wp program strong state)
    (weaken : ∀ later value, strong later value → weak later value)
    : monitor.wp program weak state := by
  induction program generalizing state with
  | ret value => exact weaken _ _ holds
  | ask question next ih =>
      exact ⟨holds.1, fun answer legal => ih answer (holds.2 answer legal)⟩

/-- A program whose questions are all allowed and leave the monitor's state alone. -/
theorem wp_of_asks {monitor : Monitor A M} {program : Interaction A α} {P : E → Prop}
    {Q : α → Prop} {state : M} (asks : program.Asks P Q)
    (idle : ∀ question, P question
      → monitor.allowed state question
        ∧ ∀ answer, monitor.next state question answer = state)
    : monitor.wp program (fun later value => later = state ∧ Q value) state := by
  induction program with
  | ret value => exact ⟨rfl, asks⟩
  | ask question next ih =>
      obtain ⟨allowed, unchanged⟩ := idle question asks.1
      refine ⟨allowed, fun answer _ => ?_⟩
      rw [unchanged answer]
      exact ih answer (asks.2 answer)

/-- The monitor without a state: `P` may be asked as long as the answers are `legal`. -/
def given (legal : (question : E) → A question → Prop) (P : E → Prop) : Monitor A Unit where
  legal _ := legal
  allowed _ := P
  next _ _ _ := ()

theorem given_of_asks {legal : (question : E) → A question → Prop} {P : E → Prop}
    {Q : α → Prop} {program : Interaction A α} (asks : program.Asks P Q)
    : (given legal P).wp program (fun _ => Q) () :=
  wp_mono (wp_of_asks asks fun _ holds => ⟨holds, fun _ => rfl⟩) fun _ _ both => both.2

theorem given_call {legal : (question : E) → A question → Prop} {P : E → Prop}
    {Q : α → Prop} {question : E} {rest : A question → Interaction A α} (asked : P question)
    (later : ∀ answer, legal question answer → (given legal P).wp (rest answer) (fun _ => Q) ())
    : (given legal P).wp (.ask question .ret >>= rest) (fun _ => Q) () :=
  ⟨asked, later⟩

/-- What a program asks and returns in a run whose answers are legal. -/
theorem given_runs {legal : (question : E) → A question → Prop} {P : E → Prop} {Q : α → Prop}
    {program : Interaction A α} {trace : List (Exchange A)} {value : α}
    (holds : (given legal P).wp program (fun _ => Q) ()) (run : program.Runs trace value)
    (answers : ∀ exchange ∈ trace, legal exchange.question exchange.answer)
    : (∀ exchange ∈ trace, P exchange.question) ∧ Q value := by
  induction run with
  | ret value => exact ⟨fun _ member => (List.not_mem_nil member).elim, holds⟩
  | ask rest ih =>
      obtain ⟨first, others⟩ := List.forall_mem_cons.mp answers
      obtain ⟨asked, result⟩ := ih (holds.2 _ first) others
      exact ⟨List.forall_mem_cons.mpr ⟨holds.1, asked⟩, result⟩

/-- Two monitors side by side. -/
def both {N : Type} (left : Monitor A M) (right : Monitor A N) : Monitor A (M × N) where
  legal state question answer :=
    left.legal state.1 question answer ∧ right.legal state.2 question answer
  allowed state question := left.allowed state.1 question ∧ right.allowed state.2 question
  next state question answer :=
    (left.next state.1 question answer, right.next state.2 question answer)

variable {N : Type} {left : Monitor A M} {right : Monitor A N} {state : M × N}
  {trace : List (Exchange A)}

theorem after_both
    : (left.both right).after state trace
      = (left.after state.1 trace, right.after state.2 trace) := by
  induction trace generalizing state with
  | nil => rfl
  | cons exchange rest ih => exact ih

theorem legal_both
    : (left.both right).Legal state trace
      ↔ left.Legal state.1 trace ∧ right.Legal state.2 trace := by
  induction trace generalizing state with
  | nil => simp [Legal]
  | cons exchange rest ih =>
      simp only [Legal, ih]
      exact and_and_and_comm

theorem allowed_both
    : (left.both right).Allowed state trace
      ↔ left.Allowed state.1 trace ∧ right.Allowed state.2 trace := by
  induction trace generalizing state with
  | nil => simp [Allowed]
  | cons exchange rest ih =>
      simp only [Allowed, ih]
      exact and_and_and_comm

end Monitor

end SftpServer.Foundations
