import Mathlib.Data.List.Sort
import Mathlib.Logic.Relation

/-! Executing items in another order than they arrived in. An order is permitted if it
keeps the arrival order of every conflicting pair; where items that do not conflict
commute, what an item finds when it runs depends only on which others ran before it.
-/

namespace SftpServer.Foundations

variable {ι σ : Type} [LinearOrder ι] {conflict : ι → ι → Prop} {arrival order : List ι}

/-- All of `arrival`, whose items are numbered in order of arrival, with every conflicting
pair in that order.
-/
structure Permitted (conflict : ι → ι → Prop) (arrival order : List ι) : Prop where
  all : order.Perm arrival
  kept : order.Pairwise fun i j => conflict i j → i < j

/-- What is ordered before an item by a chain of conflicts. -/
def MustPrecede (conflict : ι → ι → Prop) : ι → ι → Prop :=
  Relation.TransGen fun i j => i < j ∧ conflict i j

theorem MustPrecede.lt {i j : ι} (must : MustPrecede conflict i j) : i < j := by
  induction must with
  | single direct => exact direct.1
  | tail _ direct ih => exact ih.trans direct.1

/-- The order of arrival keeps every pair. -/
theorem kept_of_sorted (sorted : arrival.Pairwise (· < ·))
    : arrival.Pairwise fun i j => conflict i j → i < j :=
  List.Pairwise.imp (by exact fun less _ => less) sorted

theorem permitted_refl (sorted : arrival.Pairwise (· < ·))
    : Permitted conflict arrival arrival :=
  ⟨.rfl, kept_of_sorted sorted⟩

/-- Running what is closed under `MustPrecede` first is permitted. -/
theorem permitted_filter (symm : ∀ i j, conflict i j → conflict j i)
    (sorted : arrival.Pairwise (· < ·)) (first : ι → Prop) [DecidablePred first]
    (closed : ∀ i j, MustPrecede conflict i j → first j → first i)
    : Permitted conflict arrival
        (arrival.filter (fun i => first i) ++ arrival.filter fun i => ¬first i) where
  all := by simpa using List.filter_append_perm (fun i => decide (first i)) arrival
  kept := by
    refine List.pairwise_append.mpr
      ⟨kept_of_sorted (sorted.filter _), kept_of_sorted (sorted.filter _), ?_⟩
    intro i early j late conflicting
    have ran : first i := by simpa using (List.mem_filter.mp early).2
    have waits : ¬first j := by simpa using (List.mem_filter.mp late).2
    -- The only pair out of order would be one where `j` had to precede `i`.
    rcases lt_trichotomy i j with less | rfl | greater
    · exact less
    · exact absurd ran waits
    · exact absurd (closed j i (.single ⟨greater, symm i j conflicting⟩) ran) waits

/-- What runs before a point of a permitted order is closed under `MustPrecede`, by
induction on the chain.
-/
theorem Permitted.closed {before after : List ι} (symm : ∀ i j, conflict i j → conflict j i)
    (complete : ∀ i, i ∈ arrival)
    (permitted : Permitted conflict arrival (before ++ after)) {i j : ι}
    (must : MustPrecede conflict i j) (ran : j ∈ before)
    : i ∈ before := by
  have direct {i j : ι} (less : i < j) (conflicting : conflict i j) (ran : j ∈ before)
      : i ∈ before := by
    rcases List.mem_append.mp (permitted.all.symm.subset (complete i)) with early | late
    · exact early
    · have kept := (List.pairwise_append.mp permitted.kept).2.2 j ran i late
      exact absurd (kept (symm i j conflicting)) (lt_asymm less)
  induction must with
  | single edge => exact direct edge.1 edge.2 ran
  | tail _ edge ih => exact ih (direct edge.1 edge.2 ran)

section Items

variable {item : ι} {before after : List ι} (sorted : arrival.Pairwise (· < ·))
  (permitted : Permitted conflict arrival (before ++ item :: after))

include permitted

/-- What must precede an item runs before it. -/
theorem Permitted.mem_of_must (symm : ∀ i j, conflict i j → conflict j i)
    (complete : ∀ i, i ∈ arrival) {i : ι} (must : MustPrecede conflict i item)
    : i ∈ before := by
  -- `closed` speaks of a point of the order: the one just behind the item.
  have upTo : Permitted conflict arrival ((before ++ [item]) ++ after) := by
    simpa using permitted
  rcases List.mem_append.mp (upTo.closed symm complete must (by simp)) with early | same
  · exact early
  · exact absurd (List.mem_singleton.mp same) must.lt.ne

include sorted

theorem Permitted.nodup : (before ++ item :: after).Nodup :=
  permitted.all.nodup_iff.mpr (sorted.imp fun less => less.ne)

theorem Permitted.item_notMem : item ∉ before := by
  intro again
  exact (List.nodup_append.mp (permitted.nodup sorted)).2.2 item again item (by simp) rfl

/-- What an item must precede does not run before it. -/
theorem Permitted.not_must_of_mem (symm : ∀ i j, conflict i j → conflict j i)
    (complete : ∀ i, i ∈ arrival) {i : ι} (ran : i ∈ before)
    : ¬MustPrecede conflict item i :=
  fun must => permitted.item_notMem sorted (permitted.closed symm complete must ran)

end Items

section Folds

variable {step : σ → ι → σ}
  (commutes : ∀ i j state, ¬conflict i j → step (step state i) j = step (step state j) i)

include commutes

omit [LinearOrder ι] in
/-- An item that conflicts with none of those before it may run first. -/
theorem foldl_front {item : ι} {before : List ι} (after : List ι) (state : σ)
    (free : ∀ other ∈ before, ¬conflict item other)
    : (before ++ item :: after).foldl step state
      = (item :: before ++ after).foldl step state := by
  induction before generalizing state with
  | nil => rfl
  | cons other rest ih =>
      have swapped := commutes item other state (free other (by simp))
      have moved := ih (step state other) fun other member => free other (by simp [member])
      simpa [swapped] using moved

/-- Every permitted order ends where the order of arrival ends, by induction on the order:
its first item conflicts with nothing that arrived before it.
-/
theorem Permitted.foldl_eq (sorted : arrival.Pairwise (· < ·))
    (permitted : Permitted conflict arrival order) (state : σ)
    : order.foldl step state = arrival.foldl step state := by
  induction order generalizing arrival state with
  | nil =>
      have empty : arrival = [] := List.nil_perm.mp permitted.all
      rw [empty]
  | cons item rest ih =>
      have member : item ∈ arrival := permitted.all.subset (by simp)
      obtain ⟨before, after, rfl⟩ := List.append_of_mem member
      -- Bring the item to the front of the arrivals; the rest is then a permitted order
      -- of the remaining arrivals.
      have others : rest.Perm (before ++ after) :=
        List.perm_cons item |>.mp (permitted.all.trans List.perm_middle)
      obtain ⟨ahead, kept⟩ := List.pairwise_cons.mp permitted.kept
      have free : ∀ other ∈ before, ¬conflict item other := by
        intro other earlier conflicting
        have later : item < other :=
          ahead other (others.symm.subset (List.mem_append_left _ earlier)) conflicting
        have arrived : other < item :=
          (List.pairwise_append.mp sorted).2.2 other earlier item (by simp)
        exact lt_asymm later arrived
      rw [foldl_front commutes after state free]
      exact ih (sorted.sublist ((List.sublist_cons_self item after).append_left before))
        ⟨others, kept⟩ (step state item)

open Classical in
/-- What an item finds when it runs: what must precede it has run in order of arrival, and
after that some of what is free.
-/
theorem Permitted.foldl_before {item : ι} {before after : List ι}
    (symm : ∀ i j, conflict i j → conflict j i) (sorted : arrival.Pairwise (· < ·))
    (complete : ∀ i, i ∈ arrival)
    (permitted : Permitted conflict arrival (before ++ item :: after)) (state : σ)
    : before.foldl step state
      = (arrival.filter fun i => i ∈ before ∧ ¬MustPrecede conflict i item).foldl step
          ((arrival.filter fun i => MustPrecede conflict i item).foldl step state) := by
  -- What ran is itself a permitted order of fewer arrivals, and so is the order of those
  -- arrivals that takes the required ones first.
  let ran := arrival.filter fun i => i ∈ before
  have ranSorted : ran.Pairwise (· < ·) := sorted.filter _
  have reordered : Permitted conflict ran before := by
    refine ⟨?_, (List.pairwise_append.mp permitted.kept).1⟩
    refine (List.perm_ext_iff_of_nodup (List.nodup_append.mp (permitted.nodup sorted)).1
      (ranSorted.imp fun less => less.ne)).mpr fun i => ?_
    simp [ran, complete i]
  have mustFirst := permitted_filter symm ranSorted (fun i => MustPrecede conflict i item)
    fun i j must later => must.trans later
  have musts : (ran.filter fun i => MustPrecede conflict i item)
      = arrival.filter fun i => MustPrecede conflict i item := by
    rw [List.filter_filter]
    refine List.filter_congr fun i _ => ?_
    have early : MustPrecede conflict i item → i ∈ before :=
      permitted.mem_of_must symm complete
    simpa using early
  have others : (ran.filter fun i => ¬MustPrecede conflict i item)
      = arrival.filter fun i => i ∈ before ∧ ¬MustPrecede conflict i item := by
    rw [List.filter_filter]
    refine List.filter_congr fun i _ => ?_
    simp [Bool.and_comm]
  calc before.foldl step state
      = ran.foldl step state := reordered.foldl_eq commutes ranSorted state
    _ = _ := (mustFirst.foldl_eq commutes ranSorted state).symm
    _ = _ := by rw [List.foldl_append, musts, others]

end Folds

section Extremes

variable {item : ι} (sorted : arrival.Pairwise (· < ·)) (member : item ∈ arrival)

include sorted member

/-- An item stands after the smaller ones and before the greater ones: lists in order of
arrival with the same members are equal.
-/
theorem filter_item (smaller greater : ι → Prop) [DecidablePred smaller]
    [DecidablePred greater] (less : ∀ i, smaller i → i < item)
    (more : ∀ i, greater i → item < i)
    : (arrival.filter fun i => i = item ∨ smaller i)
        = (arrival.filter fun i => smaller i) ++ [item]
      ∧ (arrival.filter fun i => i = item ∨ greater i)
        = item :: arrival.filter fun i => greater i := by
  have last : ((arrival.filter fun i => smaller i) ++ [item]).Pairwise (· < ·) := by
    refine List.pairwise_append.mpr ⟨sorted.filter _, List.pairwise_singleton _ _, ?_⟩
    intro i small j same
    rw [List.mem_singleton.mp same]
    exact less i (by simpa using (List.mem_filter.mp small).2)
  have first : (item :: arrival.filter fun i => greater i).Pairwise (· < ·) := by
    refine List.pairwise_cons.mpr ⟨?_, sorted.filter _⟩
    exact fun i great => more i (by simpa using (List.mem_filter.mp great).2)
  refine ⟨(sorted.filter _).eq_of_mem_iff last fun i => ?_,
    (sorted.filter _).eq_of_mem_iff first fun i => ?_⟩
  · simp only [List.mem_filter, List.mem_append, List.mem_singleton, decide_eq_true_eq]
    aesop
  · simp only [List.mem_filter, List.mem_cons, decide_eq_true_eq]
    aesop

variable (symm : ∀ i j, conflict i j → conflict j i)

include symm

open Classical in
/-- An item may run right after what must precede it. -/
theorem exists_permitted_least
    : ∃ after, Permitted conflict arrival
        ((arrival.filter fun i => MustPrecede conflict i item) ++ item :: after) := by
  have split := permitted_filter symm sorted
    (fun i => i = item ∨ MustPrecede conflict i item) (by
      intro i j must member
      rcases member with rfl | later
      · exact Or.inr must
      · exact Or.inr (must.trans later))
  rw [(filter_item sorted member (fun i => MustPrecede conflict i item) (fun _ => False)
    (fun i must => must.lt) (by simp)).1, List.append_assoc] at split
  exact ⟨_, split⟩

open Classical in
/-- An item may run after everything that it need not precede. -/
theorem exists_permitted_most
    : ∃ after, Permitted conflict arrival
        ((arrival.filter fun i => ¬(i = item ∨ MustPrecede conflict item i))
          ++ item :: after) := by
  have split := permitted_filter symm sorted
    (fun i => ¬(i = item ∨ MustPrecede conflict item i)) (by
      intro i j must free member
      rcases member with rfl | later
      · exact free (Or.inr must)
      · exact free (Or.inr (later.trans must)))
  simp only [not_not] at split
  rw [(filter_item sorted member (fun _ => False) (fun i => MustPrecede conflict item i)
    (by simp) (fun i must => must.lt)).2] at split
  exact ⟨_, split⟩

end Extremes

end SftpServer.Foundations
