import Resumable.Bound.Syntax
import Resumable.Listing

/-!
# Listings of bound trees

One line per node in visiting order. A `let` shows the local it introduces before its first
value, an assignment shows the place it writes after the value.
-/

namespace Resumable.Bound

/-- A place in a listing. -/
def Place.text (names : NameTable) : Place → String
  | .localVar id => s!"local {id}"
  | .param i => s!"param {i}"
  | .field name => "field " ++ names.lookup name

mutual

/-- The lines of an expression. -/
def Expr.listing (names : NameTable) (depth : Nat) : Expr → List Line
  | .int i v => [⟨depth, s!"int {v.toInt}" ++ i.text names⟩]
  | .float i bits => [⟨depth, "float " ++ bitsText bits ++ i.text names⟩]
  | .bool i v => [⟨depth, s!"bool {v}" ++ i.text names⟩]
  | .str i s => [⟨depth, "str " ++ names.lookup s ++ i.text names⟩]
  | .unit i => [⟨depth, "unit" ++ i.text names⟩]
  | .localVar i id => [⟨depth, s!"local {id}" ++ i.text names⟩]
  | .param i p => [⟨depth, s!"param {p}" ++ i.text names⟩]
  | .field i name => [⟨depth, "field " ++ names.lookup name ++ i.text names⟩]
  | .binary i op left right =>
    ⟨depth, "bin " ++ op.word ++ i.text names⟩ ::
      (left.listing names (depth + 1) ++ right.listing names (depth + 1))
  | .unary i op operand =>
    ⟨depth, "un " ++ op.word ++ i.text names⟩ :: operand.listing names (depth + 1)
  | .call i target args =>
    ⟨depth, s!"call {target.text names} {args.length}" ++ i.text names⟩ ::
      listingOfArgs names (depth + 1) args
  | .lambda i body =>
    ⟨depth, s!"lambda {body.length}" ++ i.text names⟩ :: listingOf names (depth + 1) body
  | .suspend i operand =>
    ⟨depth, "suspend" ++ i.text names⟩ :: operand.listing names (depth + 1)
  | .error i => [⟨depth, "error" ++ i.text names⟩]

/-- The lines of a list of expressions. -/
def listingOfArgs (names : NameTable) (depth : Nat) : List Expr → List Line
  | [] => []
  | e :: rest => e.listing names depth ++ listingOfArgs names depth rest

/-- The lines of a statement. -/
def Stmt.listing (names : NameTable) (depth : Nat) : Stmt → List Line
  | .expr i e => ⟨depth, "expr @" ++ i.span.text⟩ :: e.listing names (depth + 1)
  | .declare i id =>
    [⟨depth, "let uninit @" ++ i.span.text⟩, ⟨depth + 1, s!"declares local {id}"⟩]
  | .bind i id init =>
    ⟨depth, "let @" ++ i.span.text⟩ :: ⟨depth + 1, s!"declares local {id}"⟩ ::
      init.listing names (depth + 1)
  | .assign i target value =>
    ⟨depth, "assign @" ++ i.span.text⟩ ::
      (value.listing names (depth + 1) ++ [⟨depth + 1, "writes " ++ target.text names⟩])
  | .branch i cond onTrue onFalse =>
    ⟨depth, "if @" ++ i.span.text⟩ ::
      (cond.listing names (depth + 1) ++ listingOf names (depth + 1) onTrue ++
        listingOf names (depth + 1) onFalse)
  | .loop i cond body =>
    ⟨depth, "while @" ++ i.span.text⟩ ::
      (cond.listing names (depth + 1) ++ listingOf names (depth + 1) body)
  | .breakLoop i => [⟨depth, "break @" ++ i.span.text⟩]
  | .continueLoop i => [⟨depth, "continue @" ++ i.span.text⟩]
  | .leave i => [⟨depth, "return @" ++ i.span.text⟩]
  | .ret i value => ⟨depth, "return @" ++ i.span.text⟩ :: value.listing names (depth + 1)
  | .goto i l => [⟨depth, "goto " ++ names.lookup l ++ " @" ++ i.span.text⟩]
  | .label i l => [⟨depth, "label " ++ names.lookup l ++ " @" ++ i.span.text⟩]
  | .yield i value => ⟨depth, "yield @" ++ i.span.text⟩ :: value.listing names (depth + 1)

/-- The lines of a list of statements. -/
def listingOf (names : NameTable) (depth : Nat) : List Stmt → List Line
  | [] => []
  | s :: rest => s.listing names depth ++ listingOf names depth rest

end

/-- The lines of a procedure's body. -/
def Procedure.listing (names : NameTable) (p : Procedure) : List Line :=
  match p.body with
  | .block stmts => listingOf names 0 stmts
  | .expr e => e.listing names 0

end Resumable.Bound
