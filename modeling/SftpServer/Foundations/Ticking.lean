import Mathlib.Order.Basic

/-! Fallible steps over a state, with a counter beside them. A program that ticks is compared
with the one that does not: it has the same outcome, and it ticks so many times at most.
-/

namespace SftpServer.Foundations

/-- Steps over `σ` that fail with `ε`. -/
abbrev Fallible (σ ε : Type) := ExceptT ε (StateM σ)

/-- The same, counting. -/
abbrev Ticked (σ ε : Type) := ExceptT ε (StateM (σ × Nat))

theorem Fallible.bind_eq {σ ε α β : Type} (step : Fallible σ ε α) (rest : α → Fallible σ ε β)
    (s : σ)
    : (step >>= rest) s
      = match step s with
        | (.ok value, later) => rest value later
        | (.error err, later) => (.error err, later) := by
  simp only [bind, ExceptT.bind, ExceptT.mk, StateT.bind]
  rcases step s with ⟨err | value, later⟩
  · rfl
  · rfl

namespace Ticked

variable {σ ε α β : Type}

/-- A step that does not count. -/
def lift (step : Fallible σ ε α) : Ticked σ ε α := fun (s, n) =>
  ((step s).1, (step s).2, n)

def tick : Ticked σ ε Unit := fun (s, n) => (.ok (), s, n + 1)

/-- How often a program ticks from a state. -/
def ticks (timed : Ticked σ ε α) (s : σ) : Nat := (timed (s, 0)).2.2

/-- `timed` is `plain` with at most `bound` ticks, wherever they begin. -/
structure Times (timed : Ticked σ ε α) (plain : Fallible σ ε α) (bound : Nat) : Prop where
  outcome : ∀ s n, (timed (s, n)).1 = (plain s).1
  state : ∀ s n, (timed (s, n)).2.1 = (plain s).2
  within : ∀ s n, (timed (s, n)).2.2 ≤ n + bound

theorem Times.pure (value : α) : Times (Pure.pure value : Ticked σ ε α) (Pure.pure value) 0 :=
  ⟨fun _ _ => rfl, fun _ _ => rfl, fun _ _ => Nat.le_refl _⟩

theorem Times.throw (err : ε) : Times (throw err : Ticked σ ε α) (throw err) 0 :=
  ⟨fun _ _ => rfl, fun _ _ => rfl, fun _ _ => Nat.le_refl _⟩

theorem Times.mono {timed : Ticked σ ε α} {plain : Fallible σ ε α} {less more : Nat}
    (times : Times timed plain less) (le : less ≤ more)
    : Times timed plain more :=
  ⟨times.outcome, times.state, fun s n =>
    Nat.le_trans (times.within s n) (Nat.add_le_add_left le n)⟩

/-- Ticks add up along a sequence. -/
theorem Times.bind {timed : Ticked σ ε α} {plain : Fallible σ ε α} {rest : α → Ticked σ ε β}
    {more : α → Fallible σ ε β} {first second : Nat} (times : Times timed plain first)
    (later : ∀ value, Times (rest value) (more value) second)
    : Times (timed >>= rest) (plain >>= more) (first + second) := by
  have both : ∀ s n, ((timed >>= rest) (s, n)).1 = ((plain >>= more) s).1
      ∧ ((timed >>= rest) (s, n)).2.1 = ((plain >>= more) s).2
      ∧ ((timed >>= rest) (s, n)).2.2 ≤ n + (first + second) := by
    intro s n
    have outcome := times.outcome s n
    have state := times.state s n
    have within := times.within s n
    rw [Fallible.bind_eq, Fallible.bind_eq]
    generalize plain s = plainly at *
    generalize timed (s, n) = counting at *
    obtain ⟨_, _⟩ := plainly
    obtain ⟨result, after, ticked⟩ := counting
    dsimp only at outcome state within
    subst outcome state
    cases result with
    | error err => exact ⟨rfl, rfl, by dsimp only; omega⟩
    | ok value =>
        have rest := (later value).within after ticked
        exact ⟨(later value).outcome after ticked, (later value).state after ticked, by
          dsimp only; omega⟩
  exact ⟨fun s n => (both s n).1, fun s n => (both s n).2.1, fun s n => (both s n).2.2⟩

/-- A step that does not count, and what comes after it. -/
theorem Times.lift {step : Fallible σ ε α} {rest : α → Ticked σ ε β}
    {more : α → Fallible σ ε β} {bound : Nat}
    (later : ∀ value, Times (rest value) (more value) bound)
    : Times (lift step >>= rest) (step >>= more) bound := by
  have plain : Times (Ticked.lift step) step 0 :=
    ⟨fun _ _ => rfl, fun _ _ => rfl, fun _ _ => Nat.le_refl _⟩
  exact (plain.bind later).mono (Nat.le_of_eq (Nat.zero_add bound))

/-- A part that counts, and what comes after it and does not. -/
theorem Times.ending {timed : Ticked σ ε α} {plain : Fallible σ ε α} {rest : α → Ticked σ ε β}
    {more : α → Fallible σ ε β} {bound : Nat} (times : Times timed plain bound)
    (later : ∀ value, Times (rest value) (more value) 0)
    : Times (timed >>= rest) (plain >>= more) bound :=
  times.bind later

theorem Times.tick {timed : Ticked σ ε α} {plain : Fallible σ ε α} {bound : Nat}
    (times : Times timed plain bound)
    : Times (tick >>= fun _ => timed) plain (bound + 1) where
  outcome s n := times.outcome s (n + 1)
  state s n := times.state s (n + 1)
  within s n := Nat.le_trans (times.within s (n + 1)) (by omega)

theorem Times.ite {p : Prop} [Decidable p] {yes no : Ticked σ ε α} {yea nay : Fallible σ ε α}
    {bound : Nat} (pos : p → Times yes yea bound) (neg : ¬p → Times no nay bound)
    : Times (if p then yes else no) (if p then yea else nay) bound := by
  split
  · exact pos ‹_›
  · exact neg ‹_›

theorem Times.ticks {timed : Ticked σ ε α} {plain : Fallible σ ε α} {bound : Nat}
    (times : Times timed plain bound) (s : σ)
    : timed.ticks s ≤ bound :=
  Nat.le_trans (times.within s 0) (by omega)

/-- Whoever ticks this often fails with `err`. -/
def Spent (timed : Ticked σ ε α) (bound : Nat) (err : ε) : Prop :=
  ∀ s n, (timed (s, n)).2.2 = n + bound → (timed (s, n)).1 = .error err

theorem Spent.pure (value : α) (bound : Nat) (err : ε)
    : Spent (Pure.pure value : Ticked σ ε α) (bound + 1) err := by
  intro s n full
  have none : n = n + (bound + 1) := full
  omega

theorem Spent.throw (bound : Nat) (err : ε) : Spent (throw err : Ticked σ ε α) bound err :=
  fun _ _ _ => rfl

theorem Spent.tick {timed : Ticked σ ε α} {bound : Nat} {err : ε}
    (spent : Spent timed bound err)
    : Spent (tick >>= fun _ => timed) (bound + 1) err := by
  intro s n full
  have rest : (timed (s, n + 1)).2.2 = n + (bound + 1) := full
  exact spent s (n + 1) (by omega)

theorem Spent.lift {step : Fallible σ ε α} {rest : α → Ticked σ ε β} {bound : Nat} {err : ε}
    (later : ∀ value, Spent (rest value) (bound + 1) err)
    : Spent (lift step >>= rest) (bound + 1) err := by
  intro s n
  rw [Fallible.bind_eq]
  simp only [Ticked.lift]
  generalize step s = outcome
  obtain ⟨failed | value, after⟩ := outcome
  · intro full
    have none : n = n + (bound + 1) := full
    omega
  · exact later value after n

theorem Spent.ending {timed : Ticked σ ε α} {rest : α → β} {bound : Nat} {err : ε}
    (spent : Spent timed bound err)
    : Spent (timed >>= fun value => Pure.pure (rest value)) bound err := by
  intro s n full
  rw [Fallible.bind_eq] at full ⊢
  have fails := spent s n
  generalize timed (s, n) = outcome at *
  obtain ⟨failed | value, last⟩ := outcome
  · exact congrArg _ (Except.error.inj (fails full))
  · exact nomatch fails full

theorem Spent.ite {p : Prop} [Decidable p] {yes no : Ticked σ ε α} {bound : Nat} {err : ε}
    (pos : p → Spent yes bound err) (neg : ¬p → Spent no bound err)
    : Spent (if p then yes else no) bound err := by
  split
  · exact pos ‹_›
  · exact neg ‹_›

end Ticked

end SftpServer.Foundations
