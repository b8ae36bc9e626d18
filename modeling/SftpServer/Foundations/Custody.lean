import Mathlib.Data.List.Nodup
import SftpServer.Foundations.Interaction

/-! Resources that a program acquires by asking, uses, and releases by asking. The custody
monitor holds what is acquired and not yet released; a run it allows from nothing to
nothing releases every resource once and never uses it afterwards.
-/

namespace SftpServer.Foundations

/-- How questions and answers handle resources `R`: which one an answer brings, and the
keys a question releases and uses.
-/
structure Custody {E : Type} (A : E → Type) (R K : Type) where
  key : R → K
  acquires : (question : E) → A question → Option R
  releases : E → Option K
  uses : E → List K

namespace Custody

variable {E : Type} {A : E → Type} {R K : Type} [DecidableEq K]

/-- The resources a trace brings, in order. -/
def acquired (custody : Custody A R K) (trace : List (Exchange A)) : List R :=
  trace.filterMap fun exchange => custody.acquires exchange.question exchange.answer

/-- The keys a trace releases, in order. -/
def released (custody : Custody A R K) (trace : List (Exchange A)) : List K :=
  trace.filterMap fun exchange => custody.releases exchange.question

/-- The environment brings new resources only; the program uses and releases what it
holds.
-/
def monitor (custody : Custody A R K) : Monitor A (List R) where
  legal held question answer :=
    ∀ resource ∈ custody.acquires question answer,
      custody.key resource ∉ held.map custody.key
  allowed held question :=
    (∀ key ∈ custody.uses question, key ∈ held.map custody.key)
    ∧ ∀ key ∈ custody.releases question, key ∈ held.map custody.key
  next held question answer :=
    (custody.acquires question answer).toList
    ++ held.filter fun resource => custody.releases question ≠ some (custody.key resource)

/-- Allows everything and records the resources that were brought. -/
def record (custody : Custody A R K) : Monitor A (List R) where
  legal _ _ _ := True
  allowed _ _ := True
  next log question answer := log ++ (custody.acquires question answer).toList

variable {custody : Custody A R K} {held : List R} {trace : List (Exchange A)}

section Next

variable {question : E} {answer : A question}

theorem next_idle (brings : custody.acquires question answer = none)
    (releases : custody.releases question = none)
    : custody.monitor.next held question answer = held := by
  simp [monitor, brings, releases]

theorem next_acquired {resource : R} (brings : custody.acquires question answer = some resource)
    (releases : custody.releases question = none)
    : custody.monitor.next held question answer = resource :: held := by
  simp [monitor, brings, releases]

theorem next_released {key : K} (brings : custody.acquires question answer = none)
    (releases : custody.releases question = some key)
    : custody.monitor.next held question answer
      = held.filter fun resource => custody.key resource ≠ key := by
  simp [monitor, brings, releases, eq_comm]

end Next

omit [DecidableEq K] in
theorem acquired_cons (exchange : Exchange A)
    : custody.acquired (exchange :: trace)
      = (custody.acquires exchange.question exchange.answer).toList
        ++ custody.acquired trace := by
  cases here : custody.acquires exchange.question exchange.answer <;> simp [acquired, here]

omit [DecidableEq K] in
theorem acquired_append (early late : List (Exchange A))
    : custody.acquired (early ++ late) = custody.acquired early ++ custody.acquired late :=
  List.filterMap_append

omit [DecidableEq K] in
theorem acquired_subset {early late : List (Exchange A)} (among : early ⊆ late)
    : custody.acquired early ⊆ custody.acquired late :=
  List.filterMap_subset _ among

omit [DecidableEq K] in
/-- What holds of every result holds of it whatever is recorded. -/
theorem wp_record {α : Type} {program : Interaction A α} {P : E → Prop} {Q : α → Prop}
    (asks : program.Asks P Q) (log : List R)
    : custody.record.wp program (fun _ value => Q value) log := by
  induction program generalizing log with
  | ret value => exact asks
  | ask question next ih => exact ⟨trivial, fun answer _ => ih answer (asks.2 answer) _⟩

omit [DecidableEq K] in
/-- What a recorded program ends in, by induction on its run. -/
theorem record_runs {α : Type} {program : Interaction A α} {post : List R → α → Prop}
    {log : List R} {value : α} (holds : custody.record.wp program post log)
    (run : program.Runs trace value)
    : post (log ++ custody.acquired trace) value := by
  induction run generalizing log with
  | ret value =>
      rw [acquired, List.filterMap_nil, List.append_nil]
      exact holds
  | @ask question next answer rest value run ih =>
      have later := ih (holds.2 answer trivial)
      rw [Custody.record, List.append_assoc] at later
      rw [acquired_cons]
      exact later

omit [DecidableEq K] in
theorem released_cons (exchange : Exchange A)
    : custody.released (exchange :: trace)
      = (custody.releases exchange.question).toList ++ custody.released trace := by
  cases here : custody.releases exchange.question <;> simp [released, here]

/-- What an exchange leaves held, apart from what it brings. -/
theorem kept_sublist (custody : Custody A R K) (held : List R) (question : E)
    : ((held.filter fun resource =>
        custody.releases question ≠ some (custody.key resource)).map custody.key).Sublist
          (held.map custody.key) :=
  List.filter_sublist.map _

/-- Holding each key once is kept by every exchange. -/
theorem nodup_next {question : E} {answer : A question}
    (distinct : (held.map custody.key).Nodup)
    (legal : custody.monitor.legal held question answer)
    : ((custody.monitor.next held question answer).map custody.key).Nodup := by
  have kept := kept_sublist custody held question
  cases brought : custody.acquires question answer with
  | none => simpa [monitor, brought] using distinct.sublist kept
  | some resource =>
      have fresh := legal resource brought
      simp only [monitor, brought, Option.toList_some, List.singleton_append, List.map_cons,
        List.nodup_cons]
      exact ⟨fun member => fresh (kept.subset member), distinct.sublist kept⟩

/-- One exchange brings one resource and releases one, and keeps count of the others. -/
theorem count_next {question : E} (answer : A question) (key : K)
    (distinct : (held.map custody.key).Nodup)
    (allowed : custody.monitor.allowed held question)
    : (held.map custody.key).count key
        + ((custody.acquires question answer).toList.map custody.key).count key
      = (custody.releases question).toList.count key
        + ((custody.monitor.next held question answer).map custody.key).count key := by
  have keys : (held.filter fun resource =>
      custody.releases question ≠ some (custody.key resource)).map custody.key
        = (held.map custody.key).filter fun key => custody.releases question ≠ some key := by
    rw [List.filter_map]
    rfl
  have balance : (held.map custody.key).count key
      = (custody.releases question).toList.count key
        + ((held.map custody.key).filter fun key =>
            custody.releases question ≠ some key).count key := by
    -- A released key is held once, as the keys are distinct; every other key is kept.
    by_cases same : custody.releases question = some key
    · have once : (held.map custody.key).count key = 1 :=
        List.count_eq_one_of_mem distinct (allowed.2 key same)
      have gone : ((held.map custody.key).filter fun key =>
          custody.releases question ≠ some key).count key = 0 :=
        List.count_eq_zero.mpr (by simp [same])
      rw [once, gone, same]
      simp
    · have elsewhere : (custody.releases question).toList.count key = 0 :=
        List.count_eq_zero.mpr (by simpa [Option.mem_def, eq_comm] using same)
      rw [elsewhere, List.count_filter (by simpa using same), Nat.zero_add]
  simp only [monitor, List.map_append, List.count_append, keys]
  omega

/-- What is held and brought is what is released and held in the end, by induction on the
trace.
-/
theorem count_after (key : K) (distinct : (held.map custody.key).Nodup)
    (legal : custody.monitor.Legal held trace) (allowed : custody.monitor.Allowed held trace)
    : (held.map custody.key).count key + ((custody.acquired trace).map custody.key).count key
      = (custody.released trace).count key
        + ((custody.monitor.after held trace).map custody.key).count key := by
  induction trace generalizing held with
  | nil => simp [acquired, released, Monitor.after]
  | cons exchange rest ih =>
      have now := count_next exchange.answer key distinct allowed.1
      have later := ih (nodup_next distinct legal.1) legal.2 allowed.2
      rw [acquired_cons, released_cons, List.map_append, List.count_append, List.count_append]
      simp only [Monitor.after]
      omega

/-- Everything held in the end was held at first or brought. -/
theorem mem_of_mem_after {resource : R}
    (member : resource ∈ custody.monitor.after held trace)
    : resource ∈ held ∨ resource ∈ custody.acquired trace := by
  induction trace generalizing held with
  | nil => exact Or.inl member
  | cons exchange rest ih =>
      rcases ih member with now | later
      · simp only [monitor, List.mem_append, List.mem_filter, Option.mem_toList] at now
        rcases now with brought | kept
        · exact Or.inr (List.mem_filterMap.mpr ⟨exchange, by simp, brought⟩)
        · exact Or.inl kept.1
      · obtain ⟨found, within, brought⟩ := List.mem_filterMap.mp later
        exact Or.inr (List.mem_filterMap.mpr ⟨found, List.mem_cons_of_mem _ within, brought⟩)

/-- New resources are legal: their keys are neither held nor brought before. -/
theorem legal_of_nodup
    (distinct : (held.map custody.key ++ (custody.acquired trace).map custody.key).Nodup)
    : custody.monitor.Legal held trace := by
  induction trace generalizing held with
  | nil => trivial
  | cons exchange rest ih =>
      rw [acquired_cons, List.map_append] at distinct
      refine ⟨?_, ih ?_⟩
      · intro resource brought member
        have disjoint := (List.nodup_append.mp distinct).2.2
        exact disjoint _ member (custody.key resource)
          (List.mem_append_left _ (List.mem_map_of_mem (by simpa using brought))) rfl
      · have kept := kept_sublist custody held exchange.question
        have smaller := distinct.sublist (kept.append_right _)
        simp only [monitor, List.map_append]
        rw [← List.append_assoc] at smaller
        exact (List.perm_append_comm.append_right _).nodup_iff.mp smaller

/-- What is not held and never brought is never used. -/
theorem not_used {key : K} (absent : key ∉ held.map custody.key)
    (never : key ∉ (custody.acquired trace).map custody.key)
    (allowed : custody.monitor.Allowed held trace)
    : ∀ exchange ∈ trace, key ∉ custody.uses exchange.question := by
  induction trace generalizing held with
  | nil => simp
  | cons exchange rest ih =>
      rw [acquired_cons, List.map_append, List.mem_append, not_or] at never
      intro other member
      rcases List.mem_cons.mp member with rfl | later
      · exact fun used => absent (allowed.1.1 key used)
      · refine ih ?_ never.2 allowed.2 other later
        simp only [monitor, List.map_append, List.mem_append, not_or]
        have kept := kept_sublist custody held exchange.question
        exact ⟨never.1, fun member => absent (kept.subset member)⟩

/-- What an exchange releases was brought before it, if nothing was held at first. -/
theorem mem_acquired_of_releases {before : List (Exchange A)} {question : E} {key : K}
    (allowed : custody.monitor.allowed (custody.monitor.after [] before) question)
    (releases : custody.releases question = some key)
    : key ∈ (custody.acquired before).map custody.key := by
  obtain ⟨found, member, same⟩ := List.mem_map.mp (allowed.2 key releases)
  rcases mem_of_mem_after member with impossible | first
  · simp at impossible
  · exact List.mem_map.mpr ⟨found, first, same⟩

/-- A released key is not held any more, unless the same exchange brings it. -/
theorem notMem_next {question : E} {answer : A question} {key : K}
    (releases : custody.releases question = some key)
    (other : key ∉ (custody.acquires question answer).toList.map custody.key)
    : key ∉ (custody.monitor.next held question answer).map custody.key := by
  simp only [monitor, List.map_append, List.mem_append, not_or]
  refine ⟨other, ?_⟩
  intro kept
  obtain ⟨found, member, same⟩ := List.mem_map.mp kept
  simp [releases, same] at member

/-- A run from nothing to nothing releases each resource it was brought exactly once, and
does not use it after that.
-/
theorem released_once (distinct : ((custody.acquired trace).map custody.key).Nodup)
    (allowed : custody.monitor.Allowed [] trace) (done : custody.monitor.after [] trace = [])
    {resource : R} (brought : resource ∈ custody.acquired trace)
    : (custody.released trace).count (custody.key resource) = 1
      ∧ ∀ before exchange after,
          trace = before ++ exchange :: after
          → custody.releases exchange.question = some (custody.key resource)
          → ∀ later ∈ after, custody.key resource ∉ custody.uses later.question := by
  have legal : custody.monitor.Legal [] trace := legal_of_nodup (by simpa using distinct)
  have once : ((custody.acquired trace).map custody.key).count (custody.key resource) = 1 :=
    List.count_eq_one_of_mem distinct (List.mem_map_of_mem brought)
  refine ⟨?_, ?_⟩
  · have balance := count_after (custody.key resource) (by simp) legal allowed
    rw [once, done] at balance
    simpa using balance.symm
  · intro before exchange after same releases
    subst same
    rw [Monitor.allowed_append] at allowed
    obtain ⟨_, now, later⟩ := allowed
    -- The key came before its release, so that neither this exchange nor a later one
    -- brings it again.
    have earlier := mem_acquired_of_releases now releases
    rw [acquired_append, acquired_cons, List.map_append, List.map_append] at distinct
    have disjoint := (List.nodup_append.mp distinct).2.2
    refine not_used (notMem_next releases ?_) ?_ later
    · exact fun again => disjoint _ earlier _ (List.mem_append_left _ again) rfl
    · exact fun again => disjoint _ earlier _ (List.mem_append_right _ again) rfl

end Custody

end SftpServer.Foundations
