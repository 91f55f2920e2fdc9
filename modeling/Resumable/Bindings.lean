/-!
# Bindings

A finite map as a list of key and value pairs in order of first insertion. Binding a key again
replaces its value in place.

## Main statements

* `Bindings.get?_insert`: what a key is bound to after an insertion.
-/

namespace Resumable

/-- A finite map from `κ` to `α`. -/
structure Bindings (κ α : Type) where
  entries : List (κ × α)
  deriving Repr

namespace Bindings

variable {κ α : Type} [DecidableEq κ]

/-- The map that binds nothing. -/
def empty : Bindings κ α := ⟨[]⟩

instance : Inhabited (Bindings κ α) := ⟨empty⟩

/-- The value of a key in a list of pairs. -/
def lookupIn (k : κ) : List (κ × α) → Option α
  | [] => none
  | (k', a) :: rest => if k' = k then some a else lookupIn k rest

/-- A list of pairs with the key bound to a new value. -/
def insertIn (k : κ) (a : α) : List (κ × α) → List (κ × α)
  | [] => [(k, a)]
  | (k', b) :: rest => if k' = k then (k, a) :: rest else (k', b) :: insertIn k a rest

/-- The value bound to a key. -/
def get? (m : Bindings κ α) (k : κ) : Option α := lookupIn k m.entries

/-- Is the key bound? -/
def contains (m : Bindings κ α) (k : κ) : Bool := (m.get? k).isSome

/-- The map with the key bound to a new value. -/
def insert (m : Bindings κ α) (k : κ) (a : α) : Bindings κ α := ⟨insertIn k a m.entries⟩

@[simp] theorem get?_empty (k : κ) : (empty : Bindings κ α).get? k = none := rfl

theorem lookupIn_insertIn (k k' : κ) (a : α) (l : List (κ × α)) :
    lookupIn k' (insertIn k a l) = if k = k' then some a else lookupIn k' l := by
  induction l with
  | nil => simp [insertIn, lookupIn]
  | cons p rest ih =>
    obtain ⟨j, b⟩ := p
    simp only [insertIn]
    split <;> simp only [lookupIn, ih] <;> grind

theorem get?_insert (m : Bindings κ α) (k k' : κ) (a : α) :
    (m.insert k a).get? k' = if k = k' then some a else m.get? k' :=
  lookupIn_insertIn k k' a m.entries

@[simp] theorem get?_insert_self (m : Bindings κ α) (k : κ) (a : α) :
    (m.insert k a).get? k = some a := by
  simp [get?_insert]

theorem get?_insert_of_ne (m : Bindings κ α) {k k' : κ} (a : α) (h : k ≠ k') :
    (m.insert k a).get? k' = m.get? k' := by
  simp [get?_insert, h]

end Bindings

end Resumable
