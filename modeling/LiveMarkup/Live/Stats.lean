/-!
# What a pass has done

Counters kept while a live tree is brought in line with a virtual one.
-/

namespace LiveMarkup.Live

/-- Counters of one pass. -/
structure Stats where
  /-- Live nodes constructed, descendants included. -/
  created : Nat
  /-- Live nodes kept and patched in place. -/
  reused : Nat
  /-- Live subtrees that were disposed of. -/
  disposed : Nat
  /-- Children taken out of the list of a reused node. -/
  detached : Nat
  /-- Children appended to the list of a reused node. -/
  attached : Nat
  deriving DecidableEq, Repr

namespace Stats

/-- Nothing done yet. -/
def zero : Stats := ⟨0, 0, 0, 0, 0⟩

instance : Inhabited Stats := ⟨zero⟩

/-- Whether the pass left the structure of the live tree as it was. -/
def isStructuralNoop (s : Stats) : Bool :=
  s.created == 0 && s.disposed == 0 && s.detached == 0 && s.attached == 0

end Stats

end LiveMarkup.Live
