import Mathlib.Data.List.DropRight
import SftpServer.Foundations.Separated
import SftpServer.Sshd.Certificates

/-! Files of authorised keys (`sshd.ParseAuthorizedKeys`). The library's parser skips whatever
it cannot read until it finds a key, so only the lines after the last key are looked at again.
The parser is a parameter, and so is what one line of a file reads as.
-/

namespace SftpServer.Sshd

open SftpServer.Foundations
open SftpServer.Wire

/-- The byte `\n`. -/
def newline : UInt8 := 0x0a

def isSpace (c : UInt8) : Bool := c = 0x20 || c = 0x09 || c = 0x0d || c = newline

/-- Nothing but ASCII whitespace. -/
def allSpace (b : Bytes) : Bool := b.all isSpace

/-- `ssh.ParseAuthorizedKey`: a key and what is left after it, which is less than there was, or
an error.
-/
structure KeyParser where
  parse : Bytes → Except Bytes (PublicKey × Bytes)
  shorter : ∀ {data next : Bytes} {key : PublicKey}, data ≠ [] → parse data = .ok (key, next)
    → next.length < data.length

/-- The loop of `ParseAuthorizedKeys`: `rest` is what is left of the file. -/
def parseKeysLoop (ssh : KeyParser) (rest : Bytes) (keys : List PublicKey)
    : Except Bytes (List PublicKey) :=
  if done : rest = [] then .ok keys
  else
    match found : ssh.parse rest with
    | .error err => if allSpace rest then .ok keys else .error err
    | .ok (key, next) =>
        have := ssh.shorter done found
        parseKeysLoop ssh next (keys ++ [key])
termination_by rest.length

def parseAuthorizedKeys (ssh : KeyParser) (data : Bytes) : Except Bytes (List PublicKey) :=
  parseKeysLoop ssh data []

-----------------------------------------------------------------------------------------
-- Files as lists of lines
-----------------------------------------------------------------------------------------

def linesOf (data : Bytes) : List Bytes := data.splitOn newline

inductive Line where
  | blank
  | comment
  | entry (key : PublicKey)
  | malformed

def Line.key : Line → Option PublicKey
  | .entry key => some key
  | _ => none

/-- What is assumed of the parser, where `lineOf` is what a line reads as: it skips blank lines,
comments and what does not parse, returns the first key with the bytes after its line, and fails
if no line is an entry.
-/
structure KeyParser.Reads (ssh : KeyParser) (lineOf : Bytes → Line) : Prop where
  blank : ∀ line, lineOf line = .blank ↔ allSpace line = true
  first : ∀ {data line : Bytes} {before rest : List Bytes} {key : PublicKey},
    linesOf data = before ++ line :: rest → (∀ skipped ∈ before, (lineOf skipped).key = none)
      → (lineOf line).key = some key → ssh.parse data = .ok (key, [newline].intercalate rest)
  fails : ∀ {data : Bytes}, (∀ line ∈ linesOf data, (lineOf line).key = none)
    → ∃ err, ssh.parse data = .error err

section Lines

variable (lineOf : Bytes → Line)

/-- The keys of a file, in order. -/
def entriesOf (lines : List Bytes) : List PublicKey :=
  lines.filterMap fun line => (lineOf line).key

/-- The lines after the last entry, all of them if there is none. -/
def afterEntries (lines : List Bytes) : List Bytes :=
  lines.rtakeWhile fun line => (lineOf line).key.isNone

/-- The first entry, and the lines after it. -/
def firstEntry : List Bytes → Option (PublicKey × List Bytes)
  | [] => none
  | line :: rest =>
      match (lineOf line).key with
      | some key => some (key, rest)
      | none => firstEntry rest

variable {lineOf}

theorem firstEntry_split {lines rest : List Bytes} {key : PublicKey}
    (found : firstEntry lineOf lines = some (key, rest))
    : ∃ before line, lines = before ++ line :: rest
      ∧ (∀ skipped ∈ before, (lineOf skipped).key = none)
      ∧ (lineOf line).key = some key := by
  induction lines with
  | nil => cases found
  | cons line later ih =>
      unfold firstEntry at found
      cases kind : (lineOf line).key with
      | some other =>
          simp only [kind, Option.some.injEq, Prod.mk.injEq] at found
          obtain ⟨rfl, rfl⟩ := found
          exact ⟨[], line, rfl, List.forall_mem_nil _, kind⟩
      | none =>
          simp only [kind] at found
          obtain ⟨before, entry, rfl, skips, keyed⟩ := ih found
          exact ⟨line :: before, entry, rfl, List.forall_mem_cons.mpr ⟨kind, skips⟩, keyed⟩

theorem firstEntry_none_iff {lines : List Bytes}
    : firstEntry lineOf lines = none ↔ ∀ line ∈ lines, (lineOf line).key = none := by
  induction lines with
  | nil => simp [firstEntry]
  | cons line later ih =>
      unfold firstEntry
      cases kind : (lineOf line).key with
      | some key => simp [kind]
      | none => simp [kind, ih]

theorem firstEntry_append {before rest : List Bytes} {line : Bytes} {key : PublicKey}
    (skips : ∀ skipped ∈ before, (lineOf skipped).key = none)
    (entry : (lineOf line).key = some key)
    : firstEntry lineOf (before ++ line :: rest) = some (key, rest) := by
  induction before with
  | nil => simp [firstEntry, entry]
  | cons skipped before ih =>
      have keyless := skips skipped List.mem_cons_self
      have later := ih fun other member => skips other (List.mem_cons_of_mem _ member)
      simp [firstEntry, keyless, later]

theorem allSpace_intercalate (lines : List Bytes)
    : allSpace ([newline].intercalate lines) = lines.all allSpace := by
  induction lines with
  | nil => rfl
  | cons line rest ih =>
      cases rest with
      | nil => simp
      | cons next later =>
          have space : isSpace newline = true := rfl
          rw [List.intercalate_cons_cons, List.all_cons, ← ih]
          simp [allSpace, space]

theorem allSpace_eq (data : Bytes) : allSpace data = (linesOf data).all allSpace := by
  have whole : [newline].intercalate (linesOf data) = data := List.intercalate_splitOn newline
  rw [← allSpace_intercalate, whole]

/-- Joined lines are split again; no line at all is split into an empty one. -/
theorem linesOf_intercalate {lines : List Bytes} (single : ∀ line ∈ lines, newline ∉ line)
    : linesOf ([newline].intercalate lines) = if lines = [] then [[]] else lines := by
  split
  · subst lines
    rfl
  · exact List.splitOn_intercalate newline single ‹_›

theorem afterEntries_append {before rest : List Bytes} {line : Bytes} {key : PublicKey}
    (entry : (lineOf line).key = some key)
    : afterEntries lineOf (before ++ line :: rest) = afterEntries lineOf rest := by
  simp only [afterEntries, List.rtakeWhile, List.reverse_append, List.reverse_cons,
    List.append_assoc, List.singleton_append]
  rw [List.takeWhile_append]
  split
  · rename_i all
    rw [(List.takeWhile_prefix _).eq_of_length all]
    simp [entry]
  · rfl

end Lines

-----------------------------------------------------------------------------------------
-- What is read of a file
-----------------------------------------------------------------------------------------

section Reading

variable {ssh : KeyParser} {lineOf : Bytes → Line} (reads : ssh.Reads lineOf)

include reads

/-- Where the loop stops there is no entry left, and every line is looked at. -/
theorem KeyParser.Reads.no_entries {rest err : Bytes} (failed : ssh.parse rest = .error err)
    : afterEntries lineOf (linesOf rest) = linesOf rest
      ∧ entriesOf lineOf (linesOf rest) = [] := by
  have keyless : ∀ line ∈ linesOf rest, (lineOf line).key = none := by
    refine firstEntry_none_iff.mp (Option.eq_none_iff_forall_not_mem.mpr ?_)
    rintro ⟨key, later⟩ found
    obtain ⟨before, line, split, skips, entry⟩ := firstEntry_split found
    rw [reads.first split skips entry] at failed
    cases failed
  constructor
  · refine List.rtakeWhile_eq_self_iff.mpr fun line member => ?_
    rw [keyless line member]
    rfl
  · exact List.filterMap_eq_nil_iff.mpr keyless

/-- An empty line is no entry, and is blank. -/
theorem KeyParser.Reads.empty_line
    : (afterEntries lineOf [[]]).all allSpace = true ∧ entriesOf lineOf [[]] = [] := by
  have keyless : (lineOf []).key = none := by
    rw [(reads.blank []).mpr rfl]
    rfl
  simp [afterEntries, List.rtakeWhile, entriesOf, keyless, allSpace]

/-- Where it goes on, the lines up to the entry are left behind. -/
theorem KeyParser.Reads.next_entries {rest next : Bytes} {key : PublicKey}
    (found : ssh.parse rest = .ok (key, next))
    : (afterEntries lineOf (linesOf rest)).all allSpace
        = (afterEntries lineOf (linesOf next)).all allSpace
      ∧ entriesOf lineOf (linesOf rest) = key :: entriesOf lineOf (linesOf next) := by
  cases first : firstEntry lineOf (linesOf rest) with
  | none =>
      obtain ⟨err, failed⟩ := reads.fails (firstEntry_none_iff.mp first)
      rw [failed] at found
      cases found
  | some entry =>
  obtain ⟨own, lines⟩ := entry
  obtain ⟨before, line, split, skips, entry⟩ := firstEntry_split first
  rw [reads.first split skips entry] at found
  cases found
  have single : ∀ line ∈ lines, newline ∉ line := by
    intro line member
    have inside : line ∈ linesOf rest := by simp [split, member]
    exact not_mem_of_mem_splitOn inside
  have skipped : entriesOf lineOf before = [] := List.filterMap_eq_nil_iff.mpr skips
  have keyed : entriesOf lineOf (linesOf rest) = key :: entriesOf lineOf lines := by
    rw [split, entriesOf, List.filterMap_append, ← entriesOf, skipped, List.nil_append]
    simp only [List.filterMap_cons, entry]
    rfl
  rw [keyed, split, afterEntries_append entry, linesOf_intercalate single]
  split
  · -- A file that ends with the entry leaves nothing, which is read as an empty line.
    subst lines
    rw [reads.empty_line.1, reads.empty_line.2]
    exact ⟨rfl, rfl⟩
  · exact ⟨rfl, rfl⟩

/-- What is read depends on the lines alone, by induction along the loop. -/
theorem KeyParser.Reads.loop (rest : Bytes) (keys : List PublicKey)
    : if (afterEntries lineOf (linesOf rest)).all allSpace then
        parseKeysLoop ssh rest keys = .ok (keys ++ entriesOf lineOf (linesOf rest))
      else ∃ err, parseKeysLoop ssh rest keys = .error err := by
  fun_induction parseKeysLoop ssh rest keys with
  | case1 keys =>
      rw [show linesOf [] = [[]] from rfl, if_pos reads.empty_line.1, reads.empty_line.2,
        List.append_nil]
  | case2 rest keys nonempty err failed blank =>
      obtain ⟨all, keyless⟩ := reads.no_entries failed
      rw [all, keyless, ← allSpace_eq, if_pos blank, List.append_nil]
  | case3 rest keys nonempty err failed blank =>
      rw [(reads.no_entries failed).1, ← allSpace_eq, if_neg blank]
      exact ⟨err, rfl⟩
  | case4 rest keys nonempty key next found shorter ih =>
      obtain ⟨after, keyed⟩ := reads.next_entries found
      rw [List.append_assoc, List.singleton_append, ← keyed] at ih
      rwa [after]

end Reading

/-- A file is read whole or refused: its keys in order if no line is malformed, and otherwise
an error.
-/
def ReadWhole (ssh : KeyParser) (lineOf : Bytes → Line) (data : Bytes) : Prop :=
  ((∀ line ∈ linesOf data, lineOf line ≠ .malformed)
    → parseAuthorizedKeys ssh data = .ok (entriesOf lineOf (linesOf data)))
  ∧ ((∃ line ∈ linesOf data, lineOf line = .malformed)
    → ∃ err, parseAuthorizedKeys ssh data = .error err)

/-- Whatever one line reads as, a file is read whole or refused just if it has a malformed line
exactly when some line after its last entry is not blank. A comment there is refused, and a
malformed line before an entry is skipped.
-/
theorem authorizedKeys_read_whole_iff {ssh : KeyParser} {lineOf : Bytes → Line}
    (reads : ssh.Reads lineOf) (data : Bytes)
    : ReadWhole ssh lineOf data
      ↔ ((∃ line ∈ linesOf data, lineOf line = .malformed)
        ↔ ∃ line ∈ afterEntries lineOf (linesOf data), lineOf line ≠ .blank) := by
  have left : (afterEntries lineOf (linesOf data)).all allSpace = true
      ↔ ¬∃ line ∈ afterEntries lineOf (linesOf data), lineOf line ≠ .blank := by
    simp only [List.all_eq_true, ne_eq, not_exists, not_and, not_not, reads.blank]
  have well : (∀ line ∈ linesOf data, lineOf line ≠ .malformed)
      ↔ ¬∃ line ∈ linesOf data, lineOf line = .malformed := by
    simp only [ne_eq, not_exists, not_and]
  have looped := reads.loop data []
  rw [← parseAuthorizedKeys, List.nil_append] at looped
  rw [ReadWhole, well]
  by_cases blank : (afterEntries lineOf (linesOf data)).all allSpace = true
  · have nothing := left.mp blank
    rw [if_pos blank] at looped
    rw [looped]
    constructor
    · intro ⟨_, refuses⟩
      refine iff_of_false (fun bad => ?_) nothing
      obtain ⟨_, refused⟩ := refuses bad
      cases refused
    · intro same
      exact ⟨fun _ => rfl, fun bad => absurd (same.mp bad) nothing⟩
  · have something := not_not.mp (mt left.mpr blank)
    rw [if_neg blank] at looped
    obtain ⟨err, refused⟩ := looped
    rw [refused]
    constructor
    · intro ⟨returns, _⟩
      refine iff_of_true (by_contra fun fine => ?_) something
      cases returns fine
    · intro same
      exact ⟨fun fine => absurd (same.mpr something) fine, fun _ => ⟨err, rfl⟩⟩

-----------------------------------------------------------------------------------------
-- A parser of lines
-----------------------------------------------------------------------------------------

/-- What is left after an entry is shorter. -/
theorem length_after_firstEntry {lineOf : Bytes → Line} {data : Bytes} {rest : List Bytes}
    {key : PublicKey} (nonempty : data ≠ [])
    (found : firstEntry lineOf (linesOf data) = some (key, rest))
    : ([newline].intercalate rest).length < data.length := by
  obtain ⟨before, line, split, _, _⟩ := firstEntry_split found
  have whole : [newline].intercalate (linesOf data) = data := List.intercalate_splitOn newline
  have kept : rest.Sublist (linesOf data) := by
    rw [split]
    exact (List.sublist_cons_self line rest).trans (List.sublist_append_right before _)
  have shorter := @length_intercalate_le _ newline _ _ kept
  rw [whole] at shorter
  refine lt_of_le_of_ne shorter fun same => ?_
  by_cases none : rest = []
  · subst rest
    exact nonempty (List.eq_nil_of_length_eq_zero same.symm)
  · have all : rest = linesOf data := eq_of_length_intercalate kept none (by rw [whole, same])
    have lengths := congrArg List.length (split ▸ all)
    simp only [List.length_append, List.length_cons] at lengths
    omega

/-- The parser that returns the first entry of a file. -/
def KeyParser.ofLines (lineOf : Bytes → Line) : KeyParser where
  parse data :=
    match firstEntry lineOf (linesOf data) with
    | some (key, rest) => .ok (key, [newline].intercalate rest)
    | none => .error (text "ssh: no key found")
  shorter := by
    intro data next key nonempty found
    split at found
    · rename_i own rest first
      cases found
      exact length_after_firstEntry nonempty first
    · cases found

theorem KeyParser.ofLines_reads {lineOf : Bytes → Line}
    (blank : ∀ line, lineOf line = .blank ↔ allSpace line = true)
    : (KeyParser.ofLines lineOf).Reads lineOf where
  blank := blank
  first split skips entry := by
    simp only [KeyParser.ofLines, split, firstEntry_append skips entry]
  fails keyless := by
    simp only [KeyParser.ofLines, firstEntry_none_iff.mpr keyless]
    exact ⟨_, rfl⟩

/-- Lines among which one is an entry. -/
def oneKey (line : Bytes) : Line :=
  if allSpace line then .blank
  else if line.head? = some 0x23 then .comment
  else if line = text "ssh-key" then .entry (.plain line)
  else .malformed

theorem oneKey_blank_iff (line : Bytes) : oneKey line = .blank ↔ allSpace line = true := by
  unfold oneKey
  split
  · rename_i blank
    exact iff_of_true rfl blank
  · rename_i other
    refine iff_of_false ?_ other
    split
    · simp
    · split <;> simp

/-- A comment before the key is skipped, and so is what is blank after it. -/
theorem authorizedKeys_read_whole_commented
    : parseAuthorizedKeys (.ofLines oneKey) (text "# keys\nssh-key\n\n")
      = .ok [.plain (text "ssh-key")] := by
  have lines : linesOf (text "# keys\nssh-key\n\n") = [text "# keys", text "ssh-key", [], []] := by
    decide
  have kinds : [text "# keys", text "ssh-key", [], []].map oneKey
      = [.comment, .entry (.plain (text "ssh-key")), .blank, .blank] := rfl
  have fine : ∀ line ∈ [text "# keys", text "ssh-key", [], []], oneKey line ≠ .malformed := by
    intro line member bad
    have listed := List.mem_map_of_mem (f := oneKey) member
    simp [kinds, bad] at listed
  have blank : afterEntries oneKey [text "# keys", text "ssh-key", [], []] = [[], []] := rfl
  have whole := (authorizedKeys_read_whole_iff (KeyParser.ofLines_reads oneKey_blank_iff)
    (text "# keys\nssh-key\n\n")).mpr (by
      rw [lines, blank]
      refine iff_of_false (fun ⟨line, member, bad⟩ => fine line member bad) ?_
      simp [oneKey, allSpace])
  rw [whole.1 (by rwa [lines]), lines]
  rfl

/-- A comment after the last key makes the file an error; a malformed line before it does not. -/
theorem comment_refused_and_malformed_skipped
    : (∃ err, parseAuthorizedKeys (.ofLines oneKey) (text "ssh-key\n# end\n") = .error err)
      ∧ (∀ line ∈ linesOf (text "ssh-key\n# end\n"), oneKey line ≠ .malformed)
      ∧ parseAuthorizedKeys (.ofLines oneKey) (text "bad\nssh-key\n")
        = .ok [.plain (text "ssh-key")]
      ∧ ∃ line ∈ linesOf (text "bad\nssh-key\n"), oneKey line = .malformed := by
  have reads := KeyParser.ofLines_reads oneKey_blank_iff
  have commented : linesOf (text "ssh-key\n# end\n") = [text "ssh-key", text "# end", []] := by
    decide
  have malformed : linesOf (text "bad\nssh-key\n") = [text "bad", text "ssh-key", []] := by
    decide
  refine ⟨?_, ?_, ?_, text "bad", ?_, rfl⟩
  · have looped := reads.loop (text "ssh-key\n# end\n") []
    rw [commented] at looped
    exact looped
  · have kinds : [text "ssh-key", text "# end", []].map oneKey
        = [.entry (.plain (text "ssh-key")), .comment, .blank] := rfl
    rw [commented]
    intro line member bad
    have listed := List.mem_map_of_mem (f := oneKey) member
    simp [kinds, bad] at listed
  · have looped := reads.loop (text "bad\nssh-key\n") []
    rw [malformed] at looped
    exact looped
  · simp [malformed]

end SftpServer.Sshd
