import Resumable.Machine.Tally

/-!
# Numbers of statements

Statements are numbered in the order in which they are finished: the entry before the
dispatch, children before their parents. Lists of statements are laid out one after the other,
each when its last member is finished. A statement that is only named by its number is
finished where it is written out, and nowhere else.

`Machine.located` lists the statements of a machine by number. Each comes with the tally of
what was finished when it was begun, from which the numbers of its children and the ranges of
its lists follow.

## Main definitions

* `Located`: a statement and what was finished before it.
* `Stmt.located`, `locatedOf`: the statements of a tree, in order.
* `Machine.located`: the statements of a machine, by number.
-/

namespace Resumable.Machine

/-- A statement with the tally of what was finished when it was begun. -/
structure Located where
  stmt : Stmt
  before : Tally

mutual

/-- The statements inside an expression. -/
def Expr.located (before : Tally) : Expr → List Located
  | .binary _ _ left right => left.located before ++ right.located (before + left.tally)
  | .unary _ _ operand => operand.located before
  | .call _ _ args => locatedOfArgs before args
  | .lambda _ body => locatedOf before body
  | .int .. | .float .. | .bool .. | .str .. | .unit .. | .localVar .. | .param .. | .field ..
  | .slot .. | .tasksDone .. | .taskValue .. | .cancelRequested .. | .error .. | .absent => []

/-- The statements inside arguments. -/
def locatedOfArgs (before : Tally) : List Expr → List Located
  | [] => []
  | e :: rest => e.located before ++ locatedOfArgs (before + e.tally) rest

/-- A statement after all statements inside it. One that is only named is not listed. -/
def Stmt.located (before : Tally) : Stmt → List Located
  | s@(.expr _ e) | s@(.bind _ _ e) | s@(.assign _ _ e) | s@(.ret _ e) | s@(.finish _ _ e) =>
    e.located before ++ [⟨s, before⟩]
  | s@(.branch _ cond onTrue onFalse) =>
    cond.located before ++ locatedOf (before + cond.tally) onTrue ++
      locatedOf (before + cond.tally + tallyOf onTrue) onFalse ++ [⟨s, before⟩]
  | s@(.loop _ cond body) =>
    cond.located before ++ locatedOf (before + cond.tally) body ++ [⟨s, before⟩]
  | s@(.schedule _ _ timing) => timing.located before ++ [⟨s, before⟩]
  | s@(.switch _ _ arms) => locatedOfArms before arms ++ [⟨s, before⟩]
  | .unresolved _ => []
  | s => [⟨s, before⟩]

/-- The statements inside a timing. -/
def Timing.located (before : Tally) : Timing → List Located
  | .seconds e | .frames e => e.located before
  | .nextFrame | .completion .. => []

/-- The statements of a list. Its entries are laid out after the last of them. -/
def locatedOf (before : Tally) : List Stmt → List Located
  | [] => []
  | s :: rest => s.located before ++ locatedOf (before + s.tally) rest

/-- The statements of arms. -/
def locatedOfArms (before : Tally) : List Arm → List Located
  | [] => []
  | .mk _ body :: rest => locatedOf before body ++ locatedOfArms (before + tallyOf body) rest

end

/-- The statements of a machine, by number. -/
def located (m : Machine) : List Located :=
  locatedOf .zero m.entry.written ++ locatedOf (tallyOf m.entry.written) m.dispatch.written

/-- A statement of a list where it is written out: itself, or the one that it names. -/
def whereWritten (m : Machine) (s : Located) : Located :=
  match s.stmt with
  | .unresolved number => (m.located[number]?).getD s
  | _ => s

end Resumable.Machine
