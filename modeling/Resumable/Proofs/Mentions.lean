import Resumable.Bound.Access
import Resumable.Proofs.Occurrence

/-!
# Where variables are mentioned

The hoisting analyses read a tree as the sequence of its accesses.  Here an access is tied to
the construct that makes it: a variable in an expression is a read, an assignment is a write,
a `let` is an introduction.  **Every access of a tree is made at one of its spots**, before
the nodes below that spot or after them.

## Main definitions

* `Bound.Node.opens`, `Bound.Node.closes`: what a node accesses itself, before and after the
  nodes below it.
* `Bound.Node.makes`: the construct that makes an access.
* `Bound.Node.Does`: a tree makes an access, anywhere inside it; `Bound.Node.Refers`,
  `Bound.Node.Mentions`: it reads or assigns a local or a parameter.

## Main statements

* `Bound.Node.accesses_eq`: the accesses of a tree are those of its root around
  those of its children.
* `Bound.Node.does_iff`: an access of a tree is made at a spot.
-/

namespace Resumable.Bound

variable {a : Access} {n : Node}

namespace Node

/-- The accesses of a tree. -/
def accesses : Node → List Access
  | .expr e => e.accesses
  | .stmt s => s.accesses

/-- What a node accesses itself, before the nodes below it. -/
def opens : Node → List Access
  | .expr (.localVar _ id) => [.readLocal id]
  | .expr (.param _ i) => [.readParam i]
  | .expr (.suspend ..) => [.suspend]
  | .stmt (.declare _ id) | .stmt (.bind _ id _) => [.declare id]
  | _ => []

/-- What a node accesses itself, after the nodes below it. -/
def closes : Node → List Access
  | .stmt (.assign _ target _) => target.accesses
  | _ => []

theorem accessesOfArgs_eq_flatMap (args : List Expr) :
    accessesOfArgs args = (args.map .expr).flatMap accesses := by
  induction args with
  | nil => rfl
  | cons e rest ih => rw [accessesOfArgs, ih, List.map_cons, List.flatMap_cons, accesses]

theorem accessesOf_eq_flatMap (stmts : List Stmt) :
    accessesOf stmts = (stmts.map .stmt).flatMap accesses := by
  induction stmts with
  | nil => rfl
  | cons s rest ih => rw [accessesOf, ih, List.map_cons, List.flatMap_cons, accesses]

/-- **The accesses of a tree** are those of its root around those of its children. -/
theorem accesses_eq (n : Node) :
    n.accesses = n.opens ++ n.children.flatMap accesses ++ n.closes := by
  cases n with
  | expr e =>
    cases e with
    | call info target args =>
      simp [accesses, opens, closes, children, Expr.accesses, accessesOfArgs_eq_flatMap]
    | lambda info body =>
      simp [accesses, opens, closes, children, Expr.accesses, accessesOf_eq_flatMap]
    | _ => simp [accesses, opens, closes, children, Expr.accesses]
  | stmt s =>
    cases s with
    | branch info cond onTrue onFalse =>
      simp [accesses, opens, closes, children, Stmt.accesses, accessesOf_eq_flatMap]
    | loop info cond body =>
      simp [accesses, opens, closes, children, Stmt.accesses, accessesOf_eq_flatMap]
    | _ => simp [accesses, opens, closes, children, Stmt.accesses]

/-- **An access of a tree is made at a spot.** -/
theorem mem_accesses {root : Node} :
    a ∈ root.accesses ↔ ∃ spot : Spot root, a ∈ spot.node.opens ∨ a ∈ spot.node.closes := by
  induction root using Node.induct with
  | step root ih =>
    rw [root.accesses_eq, List.mem_append, List.mem_append, List.mem_flatMap]
    constructor
    · rintro ((hopens | ⟨child, hchild, ha⟩) | hcloses)
      · exact ⟨.start root, Or.inl hopens⟩
      · obtain ⟨spot, hspot⟩ := (ih child hchild).mp ha
        obtain ⟨k, hk⟩ := List.getElem?_of_mem hchild
        exact ⟨spot.inChild hk, hspot⟩
      · exact ⟨.start root, Or.inr hcloses⟩
    · rintro ⟨spot, hspot⟩
      rcases spot.eq_start_or_inChild with rfl | ⟨child, k, hk, lower, rfl⟩
      · exact hspot.imp_left Or.inl
      · have hchild := List.mem_of_getElem? hk
        exact Or.inl (Or.inr ⟨child, hchild, (ih child hchild).mpr ⟨lower, hspot⟩⟩)

/-! ### Constructs that mention a variable -/

/-- Is this the construct that makes the access?  A variable that is used as a value is read,
an assignment writes its target, a `let` introduces its local. -/
def makes : Access → Node → Bool
  | .readLocal x, .expr (.localVar _ id) => x == id
  | .writeLocal x, .stmt (.assign _ (.localVar id) _) => x == id
  | .declare x, .stmt (.declare _ id) | .declare x, .stmt (.bind _ id _) => x == id
  | .readParam i, .expr (.param _ index) => i == index
  | .writeParam i, .stmt (.assign _ (.param index) _) => i == index
  | .suspend, .expr (.suspend ..) => true
  | _, _ => false

/-- A tree makes an access, anywhere inside it: in nested blocks and in closures, too. -/
def Does (n : Node) (a : Access) : Prop := ∃ spot : Spot n, spot.node.makes a = true

/-- A tree reads or assigns a local. -/
def Refers (n : Node) (x : LocalId) : Prop := n.Does (.readLocal x) ∨ n.Does (.writeLocal x)

/-- A tree reads or assigns a parameter. -/
def Mentions (n : Node) (i : Nat) : Prop := n.Does (.readParam i) ∨ n.Does (.writeParam i)

/-- What a node does itself, before its parts or after. -/
theorem makes_iff : n.makes a = true ↔ a ∈ n.opens ∨ a ∈ n.closes := by
  cases n with
  | expr e => cases e <;> cases a <;> simp [makes, opens, closes]
  | stmt s =>
    cases s with
    | assign info target value =>
      cases target <;> cases a <;> simp [makes, opens, closes, Place.accesses]
    | _ => cases a <;> simp [makes, opens, closes]

/-- **A tree makes the accesses that it is read as.** -/
theorem does_iff : n.Does a ↔ a ∈ n.accesses :=
  (exists_congr fun _ => makes_iff).trans mem_accesses.symm

theorem refers_iff {x : LocalId} : n.Refers x ↔ ∃ a ∈ n.accesses, a.referenced? = some x := by
  unfold Refers
  rw [does_iff, does_iff]
  constructor
  · rintro (h | h)
    · exact ⟨_, h, rfl⟩
    · exact ⟨_, h, rfl⟩
  · rintro ⟨a, ha, hx⟩
    cases a with
    | readLocal | writeLocal =>
      obtain rfl := Option.some.inj hx
      simp [ha]
    | declare | readParam | writeParam | suspend => cases hx

theorem mentions_iff {i : Nat} : n.Mentions i ↔ ∃ a ∈ n.accesses, a.param? = some i := by
  unfold Mentions
  rw [does_iff, does_iff]
  constructor
  · rintro (h | h)
    · exact ⟨_, h, rfl⟩
    · exact ⟨_, h, rfl⟩
  · rintro ⟨a, ha, hi⟩
    cases a with
    | readParam | writeParam =>
      obtain rfl := Option.some.inj hi
      simp [ha]
    | declare | readLocal | writeLocal | suspend => cases hi

end Node

end Resumable.Bound
