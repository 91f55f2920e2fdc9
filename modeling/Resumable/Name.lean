import Resumable.Bindings

/-!
# Names

Identifiers, string literals and synthesised names are represented by numbers handed out by a
`NameTable` in order of first use. The empty string always has the number zero.

Two tables stand behind this: a map that finds the number of a string, and an array that finds
the string of a number. A new string is added to both, so **the two stay inverse to each
other**, and a `NameTable` is such a pair.

## Main definitions

* `Name`: the number of a string.
* `InternTable.Inverse`: the map and the array are inverse to each other.
* `NameTable.intern`: the number of a string, adding the string when it is new.
* `NameTable.lookup`: the string behind a number.

## Main statements

* `InternTable.Inverse.intern`, `InternTable.Inverse.internAll`: interning keeps the tables
  inverse to each other.
-/

namespace Resumable

/-- The number of a string in a `NameTable`. -/
structure Name where
  index : Nat
  deriving DecidableEq, Repr, Inhabited

/-- A name as shown in messages that have no table at hand. -/
def Name.text (n : Name) : String := s!"Name({n.index})"

/-- The number of each string seen so far, and the strings in order of first use. -/
structure InternTable where
  map : Bindings String Nat
  strings : Array String
  deriving Repr

namespace InternTable

/-- The tables that know the empty string only. -/
def empty : InternTable := ⟨Bindings.empty.insert "" 0, #[""]⟩

/-- The name of a string, and the tables that know it: the map is asked, and a string that it
does not have is added to both tables. -/
def intern (t : InternTable) (s : String) : Name × InternTable :=
  match t.map.get? s with
  | some i => (⟨i⟩, t)
  | none => (⟨t.strings.size⟩, ⟨t.map.insert s t.strings.size, t.strings.push s⟩)

theorem intern_cases (t : InternTable) (s : String) :
    t.map.get? s = some (t.intern s).1.index ∧ (t.intern s).2 = t ∨
      t.map.get? s = none ∧ t.intern s =
        (⟨t.strings.size⟩, ⟨t.map.insert s t.strings.size, t.strings.push s⟩) := by
  unfold intern
  cases t.map.get? s with
  | some i => exact Or.inl ⟨rfl, rfl⟩
  | none => exact Or.inr ⟨rfl, rfl⟩

/-- The tables after strings were interned in turn. -/
def internAll (t : InternTable) (texts : List String) : InternTable :=
  texts.foldl (fun t s => (t.intern s).2) t

/-- Are the tables inverse to each other? -/
def Inverse (t : InternTable) : Prop := ∀ s i, t.map.get? s = some i ↔ t.strings[i]? = some s

theorem inverse_empty : empty.Inverse := by
  intro s i
  rw [empty, Bindings.get?_insert, Bindings.get?_empty]
  cases i <;> grind

/-- **Interning a string keeps the tables inverse to each other**, whether the string is new
or not. -/
theorem Inverse.intern {t : InternTable} (h : t.Inverse) (s : String) :
    (t.intern s).2.Inverse := by
  obtain ⟨-, hsame⟩ | ⟨hnone, hadded⟩ := t.intern_cases s
  · rw [hsame]
    exact h
  · have hnew : ∀ i, t.strings[i]? ≠ some s := fun i hi => by
      rw [(h s i).mpr hi] at hnone
      cases hnone
    intro s' i
    rw [hadded, Bindings.get?_insert, Array.getElem?_push]
    have hold := h s' i
    grind

/-- So they stay, whatever is interned in turn. -/
theorem Inverse.internAll {t : InternTable} (h : t.Inverse) (texts : List String) :
    (t.internAll texts).Inverse := by
  induction texts generalizing t with
  | nil => exact h
  | cons s rest ih => exact ih (h.intern s)

end InternTable

/-- The strings seen so far, with tables that are inverse to each other. -/
structure NameTable extends InternTable where
  inverse : toInternTable.Inverse

namespace NameTable

/-- The table that knows the empty string only. -/
def empty : NameTable := ⟨.empty, InternTable.inverse_empty⟩

instance : Inhabited NameTable := ⟨empty⟩

/-- Number of strings known, the empty one included. -/
def size (t : NameTable) : Nat := t.strings.size

/-- The name of a string, and the table that knows it. -/
def intern (t : NameTable) (s : String) : Name × NameTable :=
  let found := t.toInternTable.intern s
  (found.1, ⟨found.2, t.inverse.intern s⟩)

/-- The table after strings were interned in turn. -/
def internAll (t : NameTable) (texts : List String) : NameTable :=
  ⟨t.toInternTable.internAll texts, t.inverse.internAll texts⟩

/-- The string behind a name. -/
def lookup (t : NameTable) (n : Name) : String :=
  t.strings[n.index]?.getD "<unknown>"

/-- The name of a string that is already known. -/
def find? (t : NameTable) (s : String) : Option Name :=
  (t.map.get? s).map Name.mk

/-- What is reported when a table cannot take another string. -/
def overflowText (count : Nat) : String :=
  s!"interner exceeded capacity: {count} strings, max is 4294967295"

end NameTable

end Resumable
