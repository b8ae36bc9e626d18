import SftpServer.Foundations.Separated
import SftpServer.Wire.Codec

/-! Client paths and how they are made safe (`path.go`).
`clean` is a stack machine over the components of a path, so what it returns is described
by its components: a canonical path has none that is empty, `.` or `..`.
-/

namespace SftpServer.Sftp

open SftpServer.Foundations
open SftpServer.Wire

/-- The byte `/`. -/
def slash : UInt8 := 0x2f

def maxPath : Nat := 4096

/-- One component of the loop in `clean`: `..` pops, and does nothing at the root. -/
def cleanStep (out : List Bytes) (part : Bytes) : List Bytes :=
  if part = [] ∨ part = text "." then out
  else if part = text ".." then out.dropLast
  else out ++ [part]

/-- The absolute path inside the export a client's path names, if it is acceptable. -/
def clean (p : Bytes) : Option Bytes :=
  if 0 ∈ p then none
  else if maxPath < p.length then none
  else some (slash :: [slash].intercalate ((p.splitOn slash).foldl cleanStep []))

/-- Append one directory entry name to a cleaned directory path. -/
def join (dir name : Bytes) : Option Bytes :=
  if name = [] ∨ name = text "." ∨ name = text ".." ∨ slash ∈ name ∨ 0 ∈ name then none
  -- The length of an entry of the root itself is not checked, unlike deeper down.
  else if dir = [slash] then some (slash :: name)
  else if maxPath < (dir ++ slash :: name).length then none
  else some (dir ++ slash :: name)

/-- `strings.LastIndexByte`, which is -1 where there is none. -/
def lastIndexByte (s : Bytes) (c : UInt8) : Option Nat :=
  if c ∈ s then some (s.length - 1 - s.reverse.idxOf c) else none

/-- The containing directory, clamped at the root. -/
def parent (p : Bytes) : Bytes :=
  match lastIndexByte p slash with
  | none | some 0 => [slash]
  | some i => p.take i

/-- The final component of a cleaned path; that of the root is `/`. -/
def base (p : Bytes) : Bytes :=
  if p = [slash] then [slash]
  else
    match lastIndexByte p slash with
    | none => p
    | some i => p.drop (i + 1)

/-- A component a canonical path may have. -/
def ProperComponent (part : Bytes) : Prop := part ≠ [] ∧ part ≠ text "." ∧ part ≠ text ".."

/-- A path that starts with `/`, contains no NUL, and is `/` or a `/`-separated list of
components none of which is empty, `.` or `..`.
-/
def Canonical (p : Bytes) : Prop :=
  p.head? = some slash
  ∧ 0 ∉ p
  ∧ (p = [slash] ∨ ∀ part ∈ p.tail.splitOn slash, ProperComponent part)

instance (part : Bytes) : Decidable (ProperComponent part) :=
  inferInstanceAs (Decidable (_ ∧ _ ∧ _))

instance (p : Bytes) : Decidable (Canonical p) := inferInstanceAs (Decidable (_ ∧ _ ∧ _))

/-- The components that are left of a path. -/
def components (p : Bytes) : List Bytes := (p.splitOn slash).foldl cleanStep []

/-- The absolute path of these components. -/
def rooted (parts : List Bytes) : Bytes := slash :: [slash].intercalate parts

/-- A component that stays itself in a path. -/
def Resolvable (part : Bytes) : Prop := ProperComponent part ∧ slash ∉ part ∧ 0 ∉ part

/-- What the stack of `clean` holds is a component of the path, kept whole. -/
theorem mem_foldl_cleanStep {parts out : List Bytes} {part : Bytes}
    (member : part ∈ parts.foldl cleanStep out)
    : part ∈ out ∨ part ∈ parts ∧ ProperComponent part := by
  induction parts generalizing out with
  | nil => exact Or.inl member
  | cons head rest ih =>
      rcases ih member with kept | ⟨later, proper⟩
      · unfold cleanStep at kept
        split at kept
        · exact Or.inl kept
        · split at kept
          · exact Or.inl (List.dropLast_subset out kept)
          · rename_i usable notParent
            rcases List.mem_append.mp kept with old | new
            · exact Or.inl old
            · rw [List.mem_singleton.mp new]
              exact Or.inr ⟨by simp, by simp_all [ProperComponent]⟩
      · exact Or.inr ⟨by simp [later], proper⟩

/-- Resolvable components join to a canonical path. -/
theorem canonical_rooted {parts : List Bytes} (resolvable : ∀ part ∈ parts, Resolvable part)
    : Canonical (rooted parts) := by
  refine ⟨rfl, ?_, ?_⟩
  · intro nul
    rcases List.mem_cons.mp nul with same | inside
    · exact absurd same (by decide)
    · rcases mem_intercalate inside with same | ⟨part, member, here⟩
      · exact absurd same (by decide)
      · exact (resolvable part member).2.2 here
  · rcases List.eq_nil_or_concat parts with rfl | ⟨init, last, rfl⟩
    · exact Or.inl rfl
    · refine Or.inr ?_
      rw [rooted, List.tail_cons, List.splitOn_intercalate slash
        (fun part member => (resolvable part member).2.1) (by simp)]
      exact fun part member => (resolvable part member).1

/-- A canonical path is that of its components. -/
theorem exists_rooted_of_canonical {p : Bytes} (canonical : Canonical p)
    : ∃ parts, p = rooted parts ∧ ∀ part ∈ parts, Resolvable part := by
  obtain ⟨absolute, noNul, shape⟩ := canonical
  obtain ⟨rest, rfl⟩ : ∃ rest, p = slash :: rest := by
    cases p with
    | nil => simp at absolute
    | cons first rest => exact ⟨rest, by simpa using absolute⟩
  rcases shape with root | proper
  · exact ⟨[], by simpa [rooted] using root, by simp⟩
  · have whole : [slash].intercalate (rest.splitOn slash) = rest := List.intercalate_splitOn slash
    refine ⟨rest.splitOn slash, by rw [rooted, whole], fun part member => ?_⟩
    refine ⟨proper part member, not_mem_of_mem_splitOn member, fun nul => noNul ?_⟩
    rw [← whole]
    exact List.mem_cons_of_mem _ (mem_intercalate_of_mem member nul)

theorem clean_some_iff {p c : Bytes}
    : clean p = some c ↔ 0 ∉ p ∧ p.length ≤ maxPath ∧ c = rooted (components p) := by
  unfold clean
  split
  · simp [*]
  split
  · rename_i long
    simp [Nat.not_le.mpr long]
  · rename_i noNul short
    simp only [Option.some.injEq, noNul, not_false_eq_true, true_and, Nat.not_lt.mp short]
    exact eq_comm

/-- The stack of `clean` starts empty, so each component is one of the split path, which
therefore has no separator, and no NUL that the path does not have.
-/
theorem resolvable_components {p : Bytes} (noNul : 0 ∉ p)
    : ∀ part ∈ components p, Resolvable part := by
  intro part member
  rcases mem_foldl_cleanStep member with impossible | ⟨within, proper⟩
  · simp at impossible
  refine ⟨proper, not_mem_of_mem_splitOn within, fun nul => noNul ?_⟩
  have whole : [slash].intercalate (p.splitOn slash) = p := List.intercalate_splitOn slash
  rw [← whole]
  exact mem_intercalate_of_mem within nul

/-- Containment: whatever `clean` accepts, it returns a canonical path. -/
theorem clean_canonical {p c : Bytes} (accepted : clean p = some c) : Canonical c := by
  obtain ⟨noNul, _, rfl⟩ := clean_some_iff.mp accepted
  exact canonical_rooted (resolvable_components noNul)

/-- Proper components are all pushed, by induction on the components. -/
theorem foldl_cleanStep_proper {parts : List Bytes}
    (proper : ∀ part ∈ parts, ProperComponent part) (out : List Bytes)
    : parts.foldl cleanStep out = out ++ parts := by
  induction parts generalizing out with
  | nil => simp
  | cons head rest ih =>
      obtain ⟨nonempty, notDot, notParent⟩ := proper head (by simp)
      have pushed : cleanStep out head = out ++ [head] := by
        simp [cleanStep, nonempty, notDot, notParent]
      rw [List.foldl_cons, pushed, ih fun part member => proper part (by simp [member])]
      simp

/-- The rest of a path is resolved on the stack that the front of it leaves. -/
theorem components_append (p q : Bytes)
    : components (p ++ slash :: q) = (q.splitOn slash).foldl cleanStep (components p) := by
  rw [components, List.splitOn_append_cons_self, List.foldl_append]
  rfl

/-- The components of a path can be read back from it. -/
theorem components_rooted {parts : List Bytes} (resolvable : ∀ part ∈ parts, Resolvable part)
    : components (rooted parts) = parts := by
  have proper : ∀ part ∈ parts, ProperComponent part := fun part member =>
    (resolvable part member).1
  -- The component in front of the first slash is empty.
  have leading : components (rooted parts)
      = (([slash].intercalate parts).splitOn slash).foldl cleanStep [] :=
    components_append [] ([slash].intercalate parts)
  rw [leading]
  by_cases root : parts = []
  · rw [root]
    rfl
  · rw [List.splitOn_intercalate slash (fun part member => (resolvable part member).2.1) root,
      foldl_cleanStep_proper proper, List.nil_append]

/-- A canonical path is cleaned to itself. -/
theorem clean_of_canonical {p c : Bytes} (canonical : Canonical p) (cleaned : clean p = some c)
    : c = p := by
  obtain ⟨parts, rfl, resolvable⟩ := exists_rooted_of_canonical canonical
  obtain ⟨_, _, rfl⟩ := clean_some_iff.mp cleaned
  rw [components_rooted resolvable]

/-- It is cleaned at all if it is not too long. -/
theorem clean_canonical_iff {p : Bytes} (canonical : Canonical p)
    : clean p = some p ↔ p.length ≤ maxPath := by
  obtain ⟨parts, rfl, resolvable⟩ := exists_rooted_of_canonical canonical
  rw [clean_some_iff, components_rooted resolvable]
  simp [canonical.2.1]

/-- The stack of `clean` holds the components in their order, by induction on the components. -/
theorem foldl_cleanStep_sublist (parts out : List Bytes)
    : (parts.foldl cleanStep out).Sublist (out ++ parts) := by
  induction parts generalizing out with
  | nil => simp
  | cons head rest ih =>
      have kept : (cleanStep out head).Sublist (out ++ [head]) := by
        simp only [cleanStep]
        split_ifs
        · exact List.sublist_append_left out [head]
        · exact (List.dropLast_sublist out).trans (List.sublist_append_left out [head])
        · exact .refl _
      have step := (ih (cleanStep out head)).trans (kept.append_right rest)
      simpa using step

/-- Leaving components out does not lengthen a path. -/
theorem length_rooted_le (p : Bytes) : (rooted (components p)).length ≤ p.length + 1 := by
  have fewer : ([slash].intercalate (components p)).length
      ≤ ([slash].intercalate (p.splitOn slash)).length :=
    length_intercalate_le (foldl_cleanStep_sublist (p.splitOn slash) [])
  rw [List.intercalate_splitOn] at fewer
  rw [rooted, List.length_cons]
  omega

/-- A cleaned path is at most one slash longer than the bound. -/
theorem length_clean {p c : Bytes} (cleaned : clean p = some c) : c.length ≤ maxPath + 1 := by
  obtain ⟨_, short, rfl⟩ := clean_some_iff.mp cleaned
  have length := length_rooted_le p
  omega

/-- One more component, by induction on those before it. -/
theorem rooted_concat {parts : List Bytes} (some : parts ≠ []) (name : Bytes)
    : rooted (parts ++ [name]) = rooted parts ++ slash :: name := by
  have joined : [slash].intercalate (parts ++ [name])
      = [slash].intercalate parts ++ slash :: name := by
    induction parts with
    | nil => exact absurd rfl some
    | cons head rest ih =>
        by_cases last : rest = []
        · simp [last, List.intercalate_cons_cons]
        · rw [List.cons_append, List.intercalate_cons_of_ne_nil (by simp),
            List.intercalate_cons_of_ne_nil last, ih last]
          simp
  rw [rooted, rooted, joined, List.cons_append]

theorem rooted_eq_root_iff {parts : List Bytes} (resolvable : ∀ part ∈ parts, Resolvable part)
    : rooted parts = [slash] ↔ parts = [] := by
  constructor
  · intro root
    rw [← components_rooted resolvable, root]
    rfl
  · intro empty
    rw [empty]
    rfl

theorem join_some_iff {dir name full : Bytes}
    : join dir name = some full
      ↔ Resolvable name
        ∧ (dir = [slash] ∧ full = slash :: name
          ∨ dir ≠ [slash] ∧ full = dir ++ slash :: name ∧ full.length ≤ maxPath) := by
  have usable : ¬(name = [] ∨ name = text "." ∨ name = text ".." ∨ slash ∈ name ∨ 0 ∈ name)
      ↔ Resolvable name := by
    simp only [Resolvable, ProperComponent, not_or, and_assoc]
  unfold join
  split
  · rename_i refused
    simp [← usable, refused]
  rename_i accepted
  rw [← usable]
  split
  · simp_all [eq_comm]
  split
  · rename_i notRoot long
    have unequal : ∀ same : full = dir ++ slash :: name, ¬full.length ≤ maxPath := by
      intro same
      rw [same]
      exact Nat.not_le.mpr long
    simp_all
  · rename_i notRoot short
    simp only [Option.some.injEq, accepted, not_false_eq_true, notRoot, false_and, false_or,
      true_and, ne_eq]
    constructor
    · intro same
      exact ⟨same.symm, same ▸ Nat.not_lt.mp short⟩
    · intro both
      exact both.1.symm

/-- The path of an entry has the components of the directory, then the name. -/
theorem join_rooted {parts : List Bytes} {name full : Bytes}
    (resolvable : ∀ part ∈ parts, Resolvable part) (joined : join (rooted parts) name = some full)
    : full = rooted (parts ++ [name]) ∧ ∀ part ∈ parts ++ [name], Resolvable part := by
  obtain ⟨proper, cases⟩ := join_some_iff.mp joined
  have both : ∀ part ∈ parts ++ [name], Resolvable part := by
    intro part member
    rcases List.mem_append.mp member with old | new
    · exact resolvable part old
    · rw [List.mem_singleton.mp new]
      exact proper
  refine ⟨?_, both⟩
  rcases cases with ⟨root, rfl⟩ | ⟨notRoot, rfl, _⟩
  · rw [(rooted_eq_root_iff resolvable).mp root]
    simp [rooted]
  · exact (rooted_concat (fun empty => notRoot (by rw [empty]; rfl)) name).symm

/-- An entry of a canonical directory has a canonical path. -/
theorem join_canonical {dir name full : Bytes} (canonical : Canonical dir)
    (joined : join dir name = some full)
    : Canonical full := by
  obtain ⟨parts, rfl, resolvable⟩ := exists_rooted_of_canonical canonical
  obtain ⟨rfl, both⟩ := join_rooted resolvable joined
  exact canonical_rooted both

end SftpServer.Sftp
