import Mathlib.Data.List.Basic

/-! Threads beside each other over a shared state. A step is an action of one of them, which it
may end with or start others by; what holds of every reachable state is proved from what one
action does, whichever thread takes it.
-/

namespace SftpServer.Foundations

/-- A shared state, and where each thread is. -/
structure Parallel (σ τ : Type) where
  shared : σ
  threads : List τ

namespace Parallel

variable {σ τ ε : Type}

section Runs

variable (act : σ → τ → ε → σ → List τ → Prop)

/-- One thread acts, and stands afterwards where its action leaves it, with those it started. -/
inductive Step : Parallel σ τ → ε → Parallel σ τ → Prop where
  | mk {s later : σ} {before after next : List τ} {t : τ} {action : ε}
    (acts : act s t action later next)
    : Step ⟨s, before ++ t :: after⟩ action ⟨later, before ++ (next ++ after)⟩

/-- The states of the runs whose steps all meet a condition, each in the state before it. -/
inductive Reaches (meets : Parallel σ τ → ε → Prop) (start : Parallel σ τ)
    : Parallel σ τ → Prop where
  | start : Reaches meets start start
  | step {p q : Parallel σ τ} {action : ε} (reached : Reaches meets start p)
    (met : meets p action) (step : Step act p action q)
    : Reaches meets start q

end Runs

variable {act : σ → τ → ε → σ → List τ → Prop} {meets : Parallel σ τ → ε → Prop}
  {start p : Parallel σ τ}

/-- A condition that the steps of such runs meet anyway may be added. -/
theorem Reaches.mono {fewer : Parallel σ τ → ε → Prop}
    (stronger : ∀ {p q action}, Reaches act fewer start p → fewer p action
      → Step act p action q → meets p action)
    (reached : Reaches act fewer start p)
    : Reaches act meets start p := by
  induction reached with
  | start => exact .start
  | step reached met step ih => exact .step ih (stronger reached met step) step

theorem Reaches.trans {q : Parallel σ τ} (first : Reaches act meets start p)
    (second : Reaches act meets p q)
    : Reaches act meets start q := by
  induction second with
  | start => exact first
  | step _ met step ih => exact .step ih met step

/-- One more step, of the thread after those given. -/
theorem Reaches.next {s later : σ} (before : List τ) {after next : List τ} {t : τ} {action : ε}
    (reached : Reaches act meets start ⟨s, before ++ t :: after⟩)
    (acts : act s t action later next) (met : meets ⟨s, before ++ t :: after⟩ action)
    : Reaches act meets start ⟨later, before ++ (next ++ after)⟩ :=
  .step reached met (.mk acts)

/-- A thread that has nothing more to do stays where it is. -/
theorem Reaches.stays {t : τ} (ended : ∀ {s action later next}, ¬act s t action later next)
    (reached : Reaches act meets start p) (member : t ∈ start.threads)
    : t ∈ p.threads := by
  induction reached with
  | start => exact member
  | step _ _ step ih =>
      cases step with
      | mk acts =>
          rcases List.mem_append.mp ih with earlier | after
          · exact List.mem_append_left _ earlier
          rcases List.mem_cons.mp after with rfl | after
          · exact absurd acts ended
          · exact List.mem_append_right _ (List.mem_append_right _ after)

/-- What holds of every thread before a step, of the others and of what it leaves after it. -/
theorem forall_threads {P Q : τ → Prop} {before after next : List τ} {t : τ}
    (held : ∀ u ∈ before ++ t :: after, P u) (stable : ∀ {u}, P u → Q u)
    (own : P t → ∀ u ∈ next, Q u)
    : ∀ u ∈ before ++ (next ++ after), Q u := by
  intro u member
  rcases List.mem_append.mp member with earlier | member
  · exact stable (held u (by simp [earlier]))
  rcases List.mem_append.mp member with new | later
  · exact own (held t (by simp)) u new
  · exact stable (held u (by simp [later]))

/-- What each thread knows, if its own actions establish it and no action disturbs it. -/
theorem Reaches.each (knows : σ → τ → Prop) (begins : ∀ t ∈ start.threads, knows start.shared t)
    (own : ∀ {threads s t action later next}, meets ⟨s, threads⟩ action
      → act s t action later next → knows s t → ∀ u ∈ next, knows later u)
    (stable : ∀ {threads s t action later next}, meets ⟨s, threads⟩ action
      → act s t action later next → ∀ {u}, knows s u → knows later u)
    (reached : Reaches act meets start p)
    : ∀ t ∈ p.threads, knows p.shared t := by
  induction reached with
  | start => exact begins
  | step _ met step known =>
      cases step with
      | mk acts => exact forall_threads known (stable met acts) (own met acts)

section Counting

variable (weight : τ → Nat)

/-- What all threads weigh together. -/
def total : List τ → Nat
  | [] => 0
  | t :: threads => weight t + total threads

variable {weight}

theorem total_append (left right : List τ)
    : total weight (left ++ right) = total weight left + total weight right := by
  induction left with
  | nil => exact (Nat.zero_add _).symm
  | cons t left ih => rw [List.cons_append, total, total, ih, Nat.add_assoc]

theorem total_eq_zero_iff {threads : List τ}
    : total weight threads = 0 ↔ ∀ t ∈ threads, weight t = 0 := by
  induction threads with
  | nil => exact iff_of_true rfl (List.forall_mem_nil _)
  | cons t threads ih => rw [total, Nat.add_eq_zero_iff, ih, List.forall_mem_cons]

/-- Where all weigh one together, a thread that weighs one is the only one. -/
theorem weight_of_others {before after : List τ} {t : τ}
    (one : total weight (before ++ t :: after) = 1) (heavy : weight t = 1) {u : τ}
    (member : u ∈ before ++ after)
    : weight u = 0 := by
  refine total_eq_zero_iff.mp ?_ u member
  rw [total_append, total] at one
  rw [total_append]
  omega

/-- A counter that every action keeps in step with the threads' weights. -/
theorem Reaches.counts (counter : σ → Nat)
    (begins : counter start.shared = total weight start.threads)
    (balance : ∀ {s t action later next}, act s t action later next → weight t ≤ counter s
      → counter later + weight t = counter s + total weight next)
    (reached : Reaches act meets start p)
    : counter p.shared = total weight p.threads := by
  induction reached with
  | start => exact begins
  | step _ _ step counted =>
      cases step with
      | mk acts =>
          dsimp only at counted ⊢
          rw [total_append, total] at counted
          have balanced := balance acts (by omega)
          rw [total_append, total_append]
          omega

end Counting

/-- Whatever was given out is safe, or some thread holds it. -/
theorem Reaches.entrusted {ι : Type} (given safe : σ → ι → Prop) (holds : τ → ι → Prop)
    (begins : ∀ i, given start.shared i → safe start.shared i)
    (remains : ∀ {s t action later next i}, act s t action later next → safe s i → safe later i)
    (gives : ∀ {s t action later next i}, act s t action later next → given later i
      → given s i ∨ ∃ u ∈ next, holds u i)
    (passes : ∀ {s t action later next i}, act s t action later next → holds t i
      → safe later i ∨ ∃ u ∈ next, holds u i)
    (reached : Reaches act meets start p) {i : ι} (out : given p.shared i)
    : safe p.shared i ∨ ∃ t ∈ p.threads, holds t i := by
  induction reached with
  | start => exact .inl (begins i out)
  | step _ _ step kept =>
      cases step with
      | @mk s later before after next t action acts =>
          have onwards : (safe later i ∨ ∃ u ∈ next, holds u i)
              → safe later i ∨ ∃ u ∈ before ++ (next ++ after), holds u i := by
            rintro (safe | ⟨u, new, held⟩)
            · exact .inl safe
            · exact .inr ⟨u, by simp [new], held⟩
          rcases gives acts out with out | new
          · rcases kept out with safe | ⟨u, member, held⟩
            · exact .inl (remains acts safe)
            rcases List.mem_append.mp member with earlier | member
            · exact .inr ⟨u, by simp [earlier], held⟩
            rcases List.mem_cons.mp member with rfl | after
            · exact onwards (passes acts held)
            · exact .inr ⟨u, by simp [after], held⟩
          · exact onwards (.inr new)

section Simulation

variable {τ' ε' : Type} {act' : σ → τ' → ε' → σ → List τ' → Prop}
  {meets' : Parallel σ τ' → ε' → Prop} {start' p' : Parallel σ τ'}

/-- The same shared state, with each thread seen as another. -/
def map (f : τ' → τ) (p : Parallel σ τ') : Parallel σ τ := ⟨p.shared, p.threads.map f⟩

/-- Threads that act as those they are seen as, or take a step of their own that is not seen,
reach nothing else, by induction on the steps. What each thread knows is carried along.
-/
theorem Reaches.simulates (f : τ' → τ) (knows : τ' → Prop)
    (begins : ∀ t ∈ start'.threads, knows t)
    (own : ∀ {s t action later next}, act' s t action later next → knows t
      → ∀ u ∈ next, knows u)
    (seen : ∀ {s t action later next}, act' s t action later next → knows t
      → (later = s ∧ next.map f = [f t])
        ∨ ∃ action', act s (f t) action' later (next.map f)
          ∧ ∀ threads, meets' ⟨s, threads⟩ action → meets ⟨s, threads.map f⟩ action')
    (reached : Reaches act' meets' start' p')
    : Reaches act meets (start'.map f) (p'.map f) ∧ ∀ t ∈ p'.threads, knows t := by
  induction reached with
  | start => exact ⟨.start, begins⟩
  | step _ met step ih =>
      cases step with
      | @mk s later before after next t action acts =>
          obtain ⟨reached, known⟩ := ih
          refine ⟨?_, forall_threads known id (own acts)⟩
          simp only [map, List.map_append, List.map_cons] at reached ⊢
          rcases seen acts (known t (by simp)) with ⟨rfl, same⟩ | ⟨action', acts', meets⟩
          · rw [same]
            exact reached
          · refine reached.next _ acts' ?_
            simpa using meets _ met

end Simulation

end Parallel

end SftpServer.Foundations
