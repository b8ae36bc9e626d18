import SftpServer.Correctness.Registration

/-! How paths resolve: once more, one entry further, or in two parts. Each comes to the
components one expects. What stands in the way is the bound on the length, which is put on
what a client sends, or on neither, and not on what becomes of it.
-/

namespace SftpServer.Sftp

open SftpServer.Foundations
open SftpServer.Wire

-----------------------------------------------------------------------------------------
-- Once more
-----------------------------------------------------------------------------------------

/-- A path without a leading slash that is as long as a path may be, and of which nothing is
left out.
-/
def FullRelative (p : Bytes) : Prop :=
  p.length = maxPath ∧ ∀ part ∈ p.splitOn slash, ProperComponent part

/-- Such a path outgrows the bound by its slash, and no other does. -/
theorem long_clean_iff {p c : Bytes} (cleaned : clean p = some c)
    : maxPath < c.length ↔ FullRelative p := by
  obtain ⟨_, short, rfl⟩ := clean_some_iff.mp cleaned
  have whole : [slash].intercalate (p.splitOn slash) = p := List.intercalate_splitOn slash
  have bound := length_rooted_le p
  rw [rooted, List.length_cons] at bound ⊢
  constructor
  · intro long
    have full : p.length = maxPath := by omega
    have some : components p ≠ [] := by
      intro empty
      rw [empty] at long
      exact absurd long (by decide)
    -- A component left out would have taken its separator with it.
    have kept : (components p).Sublist (p.splitOn slash) :=
      foldl_cleanStep_sublist (p.splitOn slash) []
    have lengths : ([slash].intercalate (components p)).length
        = ([slash].intercalate (p.splitOn slash)).length := by
      rw [whole]
      omega
    have same : components p = p.splitOn slash := eq_of_length_intercalate kept some lengths
    refine ⟨full, fun part member => ?_⟩
    rw [← same] at member
    rcases mem_foldl_cleanStep member with impossible | ⟨_, proper⟩
    · simp at impossible
    · exact proper
  · rintro ⟨full, proper⟩
    rw [components, foldl_cleanStep_proper proper, List.nil_append, whole]
    omega

/-- All that a request for these attributes does is ask for those of `path`. -/
def AsksStat (path : Bytes) (program : Prog Message) : Prop :=
  ∀ calls reply, program.Runs calls reply
    → ∃ answer, calls = [
        ⟨.lock .lockPath, ()⟩, ⟨.driver (.stat path), answer⟩, ⟨.lock .unlockPath, ()⟩]

/-- The path that came of `p` is canonical and stays as it is: cleaned again, returned by
REALPATH and sent with any later request, or stored with a handle and asked for by FSTAT.
-/
structure Settles (p c : Bytes) : Prop where
  canonical : Canonical c
  fixed : clean c = some c
  realpath : ∀ m : PathRequest, m.path = p
    → opRealpath m = .ret (.nameReply { id := m.id, items := [{ filename := c, longname := c }] })
  accepted : ∀ id, resolve id c = .ok c
  opened : ∀ srv t (m : OpenRequest) calls result, m.path = p
    → (opOpen srv t m).Runs calls result → StoresPath c result
  listed : ∀ t (m : PathRequest) calls result, m.path = p
    → (opOpendir t m).Runs calls result → StoresPath c result
  fstat : ∀ srv (t : Handles) (m : HandleRequest) h, t.get m.handle = some h → h.path = c
    → AsksStat c (opFstat srv t m)

theorem resolve_of_clean {p c : Bytes} (cleaned : clean p = some c) (id : UInt32)
    : resolve id p = .ok c := by
  rw [resolve, cleaned]

theorem opStat_asksStat {srv : Server} {m : PathRequest} {path : Bytes}
    (resolved : resolve m.id m.path = .ok path)
    : AsksStat path (opStat srv m) := by
  intro calls reply run
  unfold opStat at run
  rw [resolved] at run
  obtain ⟨inner, rfl, inside⟩ := runs_withLock run
  obtain ⟨answer, rest, rfl, after⟩ := Interaction.runs_call_iff.mp inside
  refine ⟨answer, ?_⟩
  rcases answer with err | none | st
  all_goals
    rw [(Interaction.runs_ret_iff.mp after).1]
    rfl

/-- A path that is accepted settles exactly if it does not outgrow the bound. -/
theorem clean_settles_iff {p c : Bytes} (cleaned : clean p = some c)
    : Settles p c ↔ ¬FullRelative p := by
  have canonical := clean_canonical cleaned
  rw [← long_clean_iff cleaned, Nat.not_lt]
  constructor
  · intro settles
    exact (clean_canonical_iff canonical).mp settles.fixed
  · intro short
    have fixed := (clean_canonical_iff canonical).mpr short
    refine {
      canonical
      fixed
      realpath := ?_
      accepted := resolve_of_clean fixed
      opened := ?_
      listed := ?_
      fstat := ?_
    }
    · intro m same
      rw [opRealpath, same, resolve_of_clean cleaned m.id]
      rfl
    · intro srv t m calls result same run
      exact opOpen_stores (resolve_of_clean (same ▸ cleaned) m.id) run
    · intro t m calls result same run
      exact opOpendir_stores (resolve_of_clean (same ▸ cleaned) m.id) run
    · intro srv t m h found same
      rw [opFstat, found]
      refine opStat_asksStat ?_
      rw [same]
      exact resolve_of_clean fixed m.id

/-- A short path settles. -/
theorem clean_settles_short
    : clean (text "a") = some (text "/a") ∧ Settles (text "a") (text "/a") := by
  have cleaned : clean (text "a") = some (text "/a") := by decide
  refine ⟨cleaned, (clean_settles_iff cleaned).mpr fun full => ?_⟩
  exact absurd full.1 (by decide)

/-- As long as a path may be, in one component. -/
def fullName : Bytes := List.replicate maxPath 0x61

theorem fullRelative_fullName : FullRelative fullName := by
  refine ⟨List.length_replicate, ?_⟩
  have single : fullName.splitOn slash = [fullName] :=
    List.splitOn_eq_singleton fun member => absurd (List.eq_of_mem_replicate member) (by decide)
  rw [single]
  intro part member
  have long : part.length = maxPath := by
    rw [List.mem_singleton.mp member]
    exact List.length_replicate
  refine ⟨?_, ?_, ?_⟩
  all_goals
    intro same
    rw [same] at long
    exact absurd long (by decide)

/-- It is accepted, and what it becomes is refused. -/
theorem full_path_is_refused_again
    : clean fullName = some (slash :: fullName) ∧ clean (slash :: fullName) = none := by
  have full := fullRelative_fullName
  have noNul : 0 ∉ fullName := fun member =>
    absurd (List.eq_of_mem_replicate member) (by decide)
  constructor
  · refine clean_some_iff.mpr ⟨noNul, full.1.le, ?_⟩
    rw [rooted, components, foldl_cleanStep_proper full.2, List.nil_append,
      List.intercalate_splitOn]
  · rw [clean, if_neg (by simpa [slash] using noNul), if_pos (by simp [full.1])]

-----------------------------------------------------------------------------------------
-- One entry further
-----------------------------------------------------------------------------------------

/-- The paths that `clean` and `join` produce. -/
inductive Produced : Bytes → Prop where
  | cleaned {p c : Bytes} (cleaned : clean p = some c) : Produced c
  | joined {dir name full : Bytes} (within : Produced dir) (joined : join dir name = some full)
    : Produced full

/-- By induction on how it was produced. -/
theorem Produced.canonical {path : Bytes} (produced : Produced path) : Canonical path := by
  induction produced with
  | cleaned cleaned => exact clean_canonical cleaned
  | joined within joined ih => exact join_canonical ih joined

theorem lastIndexByte_append (front : Bytes) {name : Bytes} (noSlash : slash ∉ name)
    : lastIndexByte (front ++ slash :: name) slash = some front.length := by
  have backwards : (front ++ slash :: name).reverse = name.reverse ++ slash :: front.reverse := by
    simp
  have index : (name.reverse ++ slash :: front.reverse).idxOf slash = name.length := by
    rw [List.idxOf_append_of_notMem (by simpa using noSlash), List.idxOf_cons_self]
    simp
  rw [lastIndexByte, if_pos (by simp), backwards, index, List.length_append, List.length_cons]
  congr 1
  omega

theorem parent_append {front : Bytes} (some : front ≠ []) {name : Bytes} (noSlash : slash ∉ name)
    : parent (front ++ slash :: name) = front := by
  obtain ⟨first, rest, rfl⟩ := List.exists_cons_of_ne_nil some
  rw [parent, lastIndexByte_append _ noSlash, List.length_cons]
  exact List.take_left' rfl

theorem base_append (front : Bytes) {name : Bytes} (named : name ≠ []) (noSlash : slash ∉ name)
    : base (front ++ slash :: name) = name := by
  have notRoot : front ++ slash :: name ≠ [slash] := by
    intro root
    have length := congrArg List.length root
    have positive := List.length_pos_of_ne_nil named
    simp only [List.length_append, List.length_cons, List.length_nil] at length
    omega
  rw [base, if_neg notRoot, lastIndexByte_append _ noSlash]
  simp

/-- The directory and the name of an entry are found again. -/
theorem join_inverted {dir name full : Bytes} (joined : join dir name = some full)
    : (dir ≠ [] → parent full = dir) ∧ base full = name := by
  obtain ⟨⟨⟨named, _, _⟩, noSlash, _⟩, cases⟩ := join_some_iff.mp joined
  rcases cases with ⟨rfl, rfl⟩ | ⟨_, rfl, _⟩
  · refine ⟨fun _ => ?_, base_append [] named noSlash⟩
    have index : lastIndexByte (slash :: name) slash = some 0 := lastIndexByte_append [] noSlash
    rw [parent, index]
    rfl
  · exact ⟨fun some => parent_append some noSlash, base_append dir named noSlash⟩

/-- What `join` accepts is too long just below the root, where it does not check. -/
theorem long_join_iff {dir name full : Bytes} (joined : join dir name = some full)
    : maxPath < full.length ↔ dir = [slash] ∧ maxPath ≤ name.length := by
  obtain ⟨_, cases⟩ := join_some_iff.mp joined
  rcases cases with ⟨rfl, rfl⟩ | ⟨notRoot, _, short⟩
  · rw [List.length_cons, Nat.lt_succ_iff]
    exact (and_iff_right rfl).symm
  · simp [notRoot, Nat.not_lt.mpr short]

/-- An entry resolves back to itself exactly if it is not a name of the root that leaves no
room for the slash.
-/
theorem join_resolves_back_iff {dir name full : Bytes} (produced : Produced dir)
    (joined : join dir name = some full)
    : (clean full = some full ∧ parent full = dir ∧ base full = name)
      ↔ ¬(dir = [slash] ∧ maxPath ≤ name.length) := by
  have canonical := produced.canonical
  have inverted := join_inverted joined
  have some : dir ≠ [] := by
    intro empty
    rw [empty] at canonical
    exact absurd canonical.1 (by simp)
  rw [clean_canonical_iff (join_canonical canonical joined), ← long_join_iff joined, Nat.not_lt]
  simp [inverted.1 some, inverted.2]

theorem join_resolves_back_below
    : Produced (text "/a")
      ∧ join (text "/a") (text "b") = some (text "/a/b")
      ∧ clean (text "/a/b") = some (text "/a/b")
      ∧ parent (text "/a/b") = text "/a"
      ∧ base (text "/a/b") = text "b" := by
  have produced : Produced (text "/a") := .cleaned (p := text "/a") (by decide)
  have joined : join (text "/a") (text "b") = some (text "/a/b") := by decide
  exact ⟨produced, joined, (join_resolves_back_iff produced joined).mpr (by decide)⟩

/-- A name of the root that is as long as a path may be is listed and cannot be asked for. -/
theorem full_name_is_listed_and_refused
    : Produced [slash]
      ∧ join [slash] fullName = some (slash :: fullName)
      ∧ clean (slash :: fullName) = none := by
  have full := fullRelative_fullName
  have noNul : 0 ∉ fullName := fun member =>
    absurd (List.eq_of_mem_replicate member) (by decide)
  have noSlash : slash ∉ fullName := fun member =>
    absurd (List.eq_of_mem_replicate member) (by decide)
  have root : clean [slash] = some [slash] := by decide
  refine ⟨.cleaned root, join_some_iff.mpr ⟨⟨?_, noSlash, noNul⟩, .inl ⟨rfl, rfl⟩⟩, ?_⟩
  · exact full.2 fullName (by rw [List.splitOn_eq_singleton noSlash]; simp)
  · rw [clean, if_neg (by simpa [slash] using noNul), if_pos (by simp [full.1])]

-----------------------------------------------------------------------------------------
-- In two parts
-----------------------------------------------------------------------------------------

/-- A path in two parts resolves to what the second part makes of the first one's result,
which is a path inside the export.
-/
theorem clean_composes {p q c : Bytes} (noNul : 0 ∉ p ∧ 0 ∉ q) (cleaned : clean p = some c)
    (whole : (p ++ slash :: q).length ≤ maxPath) (parts : (c ++ slash :: q).length ≤ maxPath)
    : clean (p ++ slash :: q) = clean (c ++ slash :: q)
      ∧ ∃ path, clean (p ++ slash :: q) = some path ∧ Canonical path := by
  obtain ⟨_, _, rfl⟩ := clean_some_iff.mp cleaned
  have resolvable := resolvable_components noNul.1
  -- The stack that the first part leaves is read back from its printed path.
  have same : components (rooted (components p) ++ slash :: q) = components (p ++ slash :: q) := by
    rw [components_append, components_append, components_rooted resolvable]
  have separator : (0 : UInt8) ≠ slash := by decide
  have first : clean (p ++ slash :: q) = some (rooted (components (p ++ slash :: q))) :=
    clean_some_iff.mpr ⟨by simp [noNul, separator], whole, rfl⟩
  have second : clean (rooted (components p) ++ slash :: q)
      = some (rooted (components (p ++ slash :: q))) := by
    refine clean_some_iff.mpr ⟨?_, parts, by rw [same]⟩
    simp [(canonical_rooted resolvable).2.1, noNul.2, separator]
  exact ⟨first.trans second.symm, _, first, clean_canonical first⟩

theorem clean_composes_parent
    : clean (text "a/./b") = some (text "/a/b")
      ∧ clean (text "a/./b/../c") = clean (text "/a/b/../c")
      ∧ clean (text "a/./b/../c") = some (text "/a/c") := by
  have cleaned : clean (text "a/./b") = some (text "/a/b") := by decide
  have composes := clean_composes (q := text "../c") (by decide) cleaned (by decide) (by decide)
  exact ⟨cleaned, composes.1, by decide⟩

end SftpServer.Sftp
