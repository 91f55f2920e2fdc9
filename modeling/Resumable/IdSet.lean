/-!
# Sets of numbers

Sets of local numbers are kept as strictly increasing lists, so that equal sets are equal
lists and listing a set lists its members in order.

## Main statements

* `IdSet.mem_insert`, `IdSet.mem_union`, `IdSet.mem_diff`: membership after each operation.
-/

namespace Resumable

/-- A finite set of numbers, listed in increasing order. -/
structure IdSet where
  elems : List Nat
  increasing : elems.Pairwise (· < ·)
  deriving DecidableEq

namespace IdSet

instance : Membership Nat IdSet := ⟨fun s n => n ∈ s.elems⟩

instance (n : Nat) (s : IdSet) : Decidable (n ∈ s) :=
  inferInstanceAs (Decidable (n ∈ s.elems))

/-- The set without members. -/
def empty : IdSet := ⟨[], .nil⟩

instance : Inhabited IdSet := ⟨empty⟩

/-- Insertion into an increasing list, which leaves a present number alone. -/
def insertOrdered (n : Nat) : List Nat → List Nat
  | [] => [n]
  | m :: rest =>
    if n < m then n :: m :: rest
    else if n = m then m :: rest
    else m :: insertOrdered n rest

theorem mem_insertOrdered {n k : Nat} {l : List Nat} :
    k ∈ insertOrdered n l ↔ k = n ∨ k ∈ l := by
  induction l with
  | nil => simp [insertOrdered]
  | cons m rest ih => simp only [insertOrdered]; grind

theorem pairwise_insertOrdered {n : Nat} {l : List Nat} (h : l.Pairwise (· < ·)) :
    (insertOrdered n l).Pairwise (· < ·) := by
  induction l with
  | nil => simp [insertOrdered]
  | cons m rest ih =>
    have hrest := ih (List.pairwise_cons.mp h).2
    have hm := (List.pairwise_cons.mp h).1
    simp only [insertOrdered]
    split
    · next hlt =>
      refine List.pairwise_cons.mpr ⟨fun k hk => ?_, h⟩
      rcases List.mem_cons.mp hk with rfl | hk
      · exact hlt
      · exact Nat.lt_trans hlt (hm k hk)
    · split
      · exact h
      · refine List.pairwise_cons.mpr ⟨fun k hk => ?_, hrest⟩
        rcases mem_insertOrdered.mp hk with rfl | hk
        · omega
        · exact hm k hk

/-- The set with one more member. -/
def insert (s : IdSet) (n : Nat) : IdSet :=
  ⟨insertOrdered n s.elems, pairwise_insertOrdered s.increasing⟩

/-- The set of the numbers of a list. -/
def ofList (l : List Nat) : IdSet := l.foldl insert empty

/-- The members of either set. -/
def union (s t : IdSet) : IdSet := t.elems.foldl insert s

/-- The members of `s` that are not members of `t`. -/
def diff (s t : IdSet) : IdSet :=
  ⟨s.elems.filter (· ∉ t), s.increasing.sublist List.filter_sublist⟩

@[simp] theorem not_mem_empty (n : Nat) : ¬ n ∈ empty := List.not_mem_nil

@[simp] theorem mem_insert {s : IdSet} {n k : Nat} : k ∈ s.insert n ↔ k = n ∨ k ∈ s :=
  mem_insertOrdered

theorem mem_foldl_insert {l : List Nat} {s : IdSet} {k : Nat} :
    k ∈ l.foldl insert s ↔ k ∈ s ∨ k ∈ l := by
  induction l generalizing s with
  | nil => simp
  | cons n rest ih => simp only [List.foldl_cons, ih, mem_insert, List.mem_cons]; grind

@[simp] theorem mem_ofList {l : List Nat} {k : Nat} : k ∈ ofList l ↔ k ∈ l := by
  simp [ofList, mem_foldl_insert]

@[simp] theorem mem_union {s t : IdSet} {k : Nat} : k ∈ s.union t ↔ k ∈ s ∨ k ∈ t :=
  mem_foldl_insert

@[simp] theorem mem_diff {s t : IdSet} {k : Nat} : k ∈ s.diff t ↔ k ∈ s ∧ ¬ k ∈ t := by
  show k ∈ s.elems.filter _ ↔ _
  simp only [List.mem_filter, decide_eq_true_eq]
  rfl

end IdSet

end Resumable
