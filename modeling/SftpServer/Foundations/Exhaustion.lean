import Mathlib.Algebra.BigOperators.Group.Finset.Piecewise
import Mathlib.Data.Fintype.Basic
import Mathlib.Logic.Hydra
import SftpServer.Foundations.Interaction

/-! Why programs side by side come to an end. A program is a finite tree, so each question
leaves less of it; what is left of finitely many of them is a multiset of trees, of which a
step cuts one. A rank comes first, for steps that begin new work and can happen only so often.
-/

namespace SftpServer.Foundations

open Relation

namespace Interaction

variable {E : Type} {A : E → Type} {α : Type}

/-- A program without its result. -/
def hollow (program : Interaction A α) : Interaction A Unit := program >>= fun _ => .ret ()

end Interaction

open Interaction

/-- What is left to do: a rank, and what is left of the programs that have begun. -/
structure Load {E : Type} (A : E → Type) where
  rank : Nat
  work : Multiset (Interaction A Unit)

namespace Load

variable {E : Type} {A : E → Type}

section Members

variable {ι : Type} [DecidableEq ι] [Fintype ι]

/-- What all members have left to do. -/
def sum (loads : ι → Load A) : Load A where
  rank := ∑ i, (loads i).rank
  work := ∑ i, (loads i).work

end Members

end Load

end SftpServer.Foundations
