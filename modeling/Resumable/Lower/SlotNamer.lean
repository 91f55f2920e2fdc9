import Resumable.Name

/-!
# Names of slots

Slots are named after their procedure and what they hold, with a prefix that source text
cannot spell. When a name was handed out before, a number is put behind it.

## Main definitions

* `SlotNamer.fresh`: the first of `stem`, `stem_1`, `stem_2`, … that was not handed out
  before.
-/

namespace Resumable

/-- The names handed out for one procedure. -/
structure SlotNamer where
  names : NameTable
  /-- What every name starts with. -/
  base : String
  used : List Name

/-- Names of the slots that every machine may have. -/
structure BookkeepingNames where
  state : Name
  status : Name
  result : Name
  deriving DecidableEq, Repr

namespace SlotNamer

/-- A namer that has handed out nothing. -/
def new (names : NameTable) (slotPrefix procedure : String) : SlotNamer :=
  ⟨names, slotPrefix ++ procedure ++ "_", []⟩

/-- The text of the `k`-th candidate for a stem. -/
def candidate (base stem : String) (k : Nat) : String :=
  if k = 0 then base ++ stem else s!"{base}{stem}_{k}"

/-- The first candidate from the `k`-th on that is not used, trying a number of times before
taking the next one unseen. -/
def search (base stem : String) (used : List Name) : Nat → Nat → NameTable → Name × NameTable
  | 0, k, names => names.intern (candidate base stem k)
  | tries + 1, k, names =>
    let (name, names') := names.intern (candidate base stem k)
    if name ∈ used then search base stem used tries (k + 1) names' else (name, names')

/-- A name that was not handed out before. As many candidates as there are used names may be
taken, so that many tries are enough. -/
def fresh (n : SlotNamer) (stem : String) : Name × SlotNamer :=
  let (name, names) := search n.base stem n.used n.used.length 0 n.names
  (name, { n with names, used := name :: n.used })

/-- The names of the slots that every machine may have. -/
def bookkeeping (n : SlotNamer) : BookkeepingNames × SlotNamer :=
  let state := n.fresh "state"
  let status := state.2.fresh "status"
  let result := status.2.fresh "result"
  (⟨state.1, status.1, result.1⟩, result.2)

/-- The names of `bookkeeping` are handed out one after the other. -/
theorem bookkeeping_eq (n : SlotNamer) : n.bookkeeping =
    (⟨(n.fresh "state").1, ((n.fresh "state").2.fresh "status").1,
      (((n.fresh "state").2.fresh "status").2.fresh "result").1⟩,
      (((n.fresh "state").2.fresh "status").2.fresh "result").2) := rfl

/-- The name of the dispatch. -/
def dispatch (n : SlotNamer) : Name × SlotNamer :=
  let (name, names) := n.names.intern (n.base ++ "dispatch")
  (name, { n with names })

end SlotNamer

end Resumable
