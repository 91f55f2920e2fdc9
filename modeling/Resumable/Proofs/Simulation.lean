import Resumable.Proofs.Mirror

/-!
# Slotted code does what its source does

**Every run of slotted code that returns is a run of the source**, expression by expression
and statement by statement.  What carries the induction is `Mirrors`: the machine finds the
variables of the activation where it looks for them, so both sides compute the same values,
and each write keeps it so.

## Main definitions

* `Agree R x y`: what `x` returns, on a machine say, `y` returns on the
  activation, and `R` is kept.
* `Echo`, `Echoes`: the same for statements, which may also leave a loop or finish.

## Main statements

* `agree_eval`: covered expressions have the values of their sources.
* `echoes_exec`, `echoes_execBlock`: covered statements have the effects of their sources.
-/

namespace Resumable

open Resumable.Bound (Expr Place Stmt after performAll valuesOf)

variable {α : Type} {site : Site} {σ : Setting} {pending less' : LocalId → Prop}
  {s₀ s : HostState} {frame : Frame} {a : Activation} {q : Place}

/-! ### Runs that agree -/

/-- What the run returns, the other one returns as well, and the relation is kept. -/
def Agree {ρ α : Type} (R : ρ → Activation → Prop) (x : ExceptT Halt (StateM ρ) α)
    (y : Direct α) : Prop :=
  ∀ ⦃s a v s'⦄, R s a → Returns x s v s' → ∃ a', Returns y a v a' ∧ R s' a'

section

variable {ρ β : Type} {R : ρ → Activation → Prop}

theorem agree_pure (v : α) : Agree R (pure v) (pure v) := by
  intro s a w s' h hpure
  obtain ⟨rfl, rfl⟩ := returns_pure.mp hpure
  exact ⟨a, returns_pure.mpr ⟨rfl, rfl⟩, h⟩

theorem agree_bind {x : ExceptT Halt (StateM ρ) α} {y : Direct α}
    {f : α → ExceptT Halt (StateM ρ) β} {g : α → Direct β} (hx : Agree R x y)
    (hf : ∀ v, Agree R (f v) (g v)) : Agree R (x >>= f) (y >>= g) := by
  intro s a w s'' h hret
  obtain ⟨v, s', hfirst, hrest⟩ := returns_bind.mp hret
  obtain ⟨a', hfirst', h'⟩ := hx h hfirst
  obtain ⟨a'', hrest', h''⟩ := hf v h' hrest
  exact ⟨a'', returns_bind.mpr ⟨v, a', hfirst', hrest'⟩, h''⟩

theorem agree_ite {c : Prop} [Decidable c] {x x' : ExceptT Halt (StateM ρ) α}
    {y y' : Direct α} (hx : Agree R x y) (hx' : Agree R x' y') :
    Agree R (if c then x else x') (if c then y else y') := by
  by_cases hc : c
  · rw [if_pos hc, if_pos hc]
    exact hx
  · rw [if_neg hc, if_neg hc]
    exact hx'

end

section

variable {R : HostState → Activation → Prop}

theorem agree_require (why : HostError) (o : Option α) :
    Agree R (Run.require why o) (Direct.require why o) := by
  intro s a v s' h hret
  obtain ⟨ho, rfl⟩ := Run.returns_require.mp hret
  exact ⟨a, Direct.returns_require ho, h⟩

theorem agree_ofExcept (r : Except HostError α) :
    Agree R (Run.ofExcept r) (Direct.ofExcept r) := by
  intro s a v s' h hret
  obtain ⟨hr, rfl⟩ := Run.returns_ofExcept.mp hret
  exact ⟨a, Direct.returns_ofExcept hr, h⟩

end

/-! ### Expressions -/

section

variable {known : LocalId → Prop}

/-- Reading a place that is known. -/
theorem Mirrors.content_eq (h : Mirrors site σ known pending s₀ frame s a)
    (hq : q.Tracked site.machine.layout known) {v : Value}
    (hv : site.content? s frame (site.machine.layout.place q) = some v) :
    a.content? q = some v :=
  (h.agree.content q hq).symm.trans hv

variable (call : Caller) (frame : Frame)

/-- **A place that is known** is read as in the source. -/
theorem agree_read (info : ExprInfo) (hq : q.Tracked site.machine.layout known) :
    Agree (Mirrors site σ known pending s₀ frame)
      (eval site call frame (slottedExpr site.machine.layout (q.read info)))
        ((q.read info).value σ) := by
  intro s a v s' h hret
  rw [slottedExpr_read] at hret
  obtain ⟨hv, rfl⟩ := returns_eval_read.mp hret
  have hcontent := h.content_eq hq hv
  refine ⟨a, ?_, h⟩
  cases q with
  | localVar | param | field =>
    exact returns_bind.mpr ⟨a, a, returns_get.mpr ⟨rfl, rfl⟩, Direct.returns_require hcontent⟩

mutual

/-- **Covered expressions have the values of their sources.** -/
theorem agree_eval (staged : Staged site σ s₀) :
    (e : Expr) → e.Covered site.machine.layout known →
      Agree (Mirrors site σ known pending s₀ frame)
        (eval site call frame (slottedExpr site.machine.layout e)) (e.value σ)
  | .int _ v, _ => by
    unfold Expr.value
    exact agree_pure _
  | .float _ bits, _ => by
    unfold Expr.value
    exact agree_pure _
  | .bool _ v, _ => by
    unfold Expr.value
    exact agree_pure _
  | .str _ name, _ => by
    unfold Expr.value
    rw [← staged.names]
    exact agree_pure _
  | .unit _, _ => by
    unfold Expr.value
    exact agree_pure _
  | .localVar info x, covered =>
    agree_read call frame info (q := .localVar x)
      (covered.finds (.readLocal x) List.mem_cons_self)
  | .param info i, covered =>
    agree_read call frame info (q := .param i)
      (covered.finds (.readParam i) List.mem_cons_self)
  | .field info name, _ => agree_read call frame info (q := .field name) trivial
  | .binary _ op left right, covered => by
    obtain ⟨simple, finds⟩ := covered
    obtain ⟨simpleLeft, simpleRight⟩ := Bool.and_eq_true_iff.mp simple
    have hleft :=
      agree_eval staged left ⟨simpleLeft, fun a ha => finds a (List.mem_append_left _ ha)⟩
    have hright := agree_eval staged right
      ⟨simpleRight, fun a ha => finds a (List.mem_append_right _ ha)⟩
    have expect : ∀ v : Value, Agree
      (Mirrors site σ known pending s₀ frame) (Run.expectBool v)
        (Direct.expectBool v) := fun v => agree_require _ _
    unfold slottedExpr
    -- Conjunction and disjunction may leave the right operand out; the other operators
    -- evaluate both.
    cases op
    case and =>
      unfold eval Expr.value
      exact agree_bind hleft fun v => agree_bind (expect v) fun _ => agree_ite
        (agree_bind hright fun w => agree_bind (expect w) fun _ => agree_pure _)
          (agree_pure _)
    case or =>
      unfold eval Expr.value
      exact agree_bind hleft fun v => agree_bind (expect v) fun _ => agree_ite (agree_pure _)
        (agree_bind hright fun w => agree_bind (expect w) fun _ => agree_pure _)
    all_goals
      unfold eval Expr.value
      exact agree_bind hleft fun _ => agree_bind hright fun _ => agree_ofExcept _
  | .unary _ op operand, covered => by
    unfold slottedExpr eval Expr.value
    exact agree_bind (agree_eval staged operand ⟨covered.simple, covered.finds⟩) fun _ =>
      agree_ofExcept _
  | .call _ (.host function) args, covered => by
    unfold slottedExpr eval Expr.value
    refine agree_bind (agree_evalArgs staged args covered.simple covered.finds)
      fun values => ?_
    exact fun s a v s' h hcall => h.callHost staged hcall
  | .error _, _ => by
    unfold slottedExpr eval
    exact fun _ _ _ _ _ hfail => (Run.not_returns_fail hfail).elim
  | .call _ (.procedure _) _, covered | .call _ (.primitive _) _,
    covered | .lambda _ _, covered
  | .suspend _ _, covered => by cases covered.simple

/-- Covered arguments have the values of their sources. -/
theorem agree_evalArgs (staged : Staged site σ s₀) :
    (args : List Expr) → Bound.areSimple args = true →
      (∀ a ∈ Bound.accessesOfArgs args, a.Findable site.machine.layout known) →
      Agree (Mirrors site σ known pending s₀ frame)
        (evalArgs site call frame (slottedArgs site.machine.layout args)) (valuesOf σ args)
  | [], _, _ => by
    unfold slottedArgs evalArgs valuesOf
    exact agree_pure _
  | e :: rest, simple, finds => by
    obtain ⟨simpleFirst, simpleRest⟩ := Bool.and_eq_true_iff.mp simple
    unfold slottedArgs evalArgs valuesOf
    refine agree_bind (agree_eval staged e
      ⟨simpleFirst, fun a ha => finds a (List.mem_append_left _ ha)⟩)
      fun v => agree_bind (agree_evalArgs staged rest simpleRest fun a ha =>
        finds a (List.mem_append_right _ ha)) fun _ => agree_pure _

end

end

/-! ### Statements -/

/-- **How a statement of a machine and its source leave alike**, which began with `known` and
know `known'` when they go on. -/
inductive Echo (site : Site) (σ : Setting) (known known' pending : LocalId → Prop)
    (s₀ : HostState) : Flow × Frame → HostState → Flow → Activation → Prop where
  | next {frame : Frame} {s : HostState} {a : Activation}
    (mirrors : Mirrors site σ known' pending s₀ frame s a) :
    Echo site σ known known' pending s₀ (.next, frame) s .next a
  | breakLoop {frame : Frame} {s : HostState} {a : Activation}
    (mirrors : Mirrors site σ known pending s₀ frame s a) :
    Echo site σ known known' pending s₀ (.breakLoop, frame) s .breakLoop a
  | continueLoop {frame : Frame} {s : HostState} {a : Activation}
    (mirrors : Mirrors site σ known pending s₀ frame s a) :
    Echo site σ known known' pending s₀ (.continueLoop, frame) s .continueLoop a
  /-- The machine finishes with what the source returns. -/
  | finished {frame : Frame} {mid s : HostState} {a : Activation} {value : Option Value}
    (mirrors : Mirrors site σ known pending s₀ frame mid a)
    (finish : Returns (finish site .succeeded value) mid () s) :
    Echo site σ known known' pending s₀ (.finished, frame) s
      (.ret (value.getD σ.defaultResult)) a

/-- Every way in which the statement of the machine leaves echoes that of the source. -/
def Echoes (site : Site) (σ : Setting) (known known' pending : LocalId → Prop)
    (s₀ : HostState) (frame : Frame) (x : Run (Flow × Frame)) (y : Direct Flow) : Prop :=
  ∀ ⦃s a r s'⦄, Mirrors site σ known pending s₀ frame s a → Returns x s r s' →
    ∃ flow a', Returns y a flow a' ∧ Echo site σ known known' pending s₀ r s' flow a'

section

variable {known known' : LocalId → Prop}

theorem Echo.mono {less : LocalId → Prop} {r : Flow × Frame} {flow : Flow}
    (h : Echo site σ known known' pending s₀ r s flow a) (hless : ∀ x, less x → known x)
    (hless' : ∀ x, less' x → known' x) : Echo site σ less less' pending s₀ r s flow a := by
  cases h with
  | next mirrors => exact .next (mirrors.mono hless' fun _ hx => hx)
  | breakLoop mirrors => exact .breakLoop (mirrors.mono hless fun _ hx => hx)
  | continueLoop mirrors => exact .continueLoop (mirrors.mono hless fun _ hx => hx)
  | finished mirrors finish => exact .finished (mirrors.mono hless fun _ hx => hx) finish

theorem Echoes.mono {x : Run (Flow × Frame)} {y : Direct Flow}
    (h : Echoes site σ known known' pending s₀ frame x y) (hless' : ∀ x, less' x → known' x) :
    Echoes site σ known less' pending s₀ frame x y := by
  intro s a r s' mirrors hret
  obtain ⟨flow, a', hdirect, echo⟩ := h mirrors hret
  exact ⟨flow, a', hdirect, echo.mono (fun _ hx => hx) hless'⟩

theorem echoes_bind {x : Run α} {y : Direct α} {f : α → Run (Flow × Frame)}
    {g : α → Direct Flow} (hx : Agree (Mirrors site σ known pending s₀ frame) x y)
    (hf : ∀ v, Echoes site σ known known' pending s₀ frame (f v) (g v)) :
    Echoes site σ known known' pending s₀ frame (x >>= f) (y >>= g) := by
  intro s a r s'' mirrors hret
  obtain ⟨v, s', hfirst, hrest⟩ := returns_bind.mp hret
  obtain ⟨a', hfirst', mirrors'⟩ := hx mirrors hfirst
  obtain ⟨flow, a'', hrest', echo⟩ := hf v mirrors' hrest
  exact ⟨flow, a'', returns_bind.mpr ⟨v, a', hfirst', hrest'⟩, echo⟩

theorem echoes_ite {c : Prop} [Decidable c] {x x' : Run (Flow × Frame)} {y y' : Direct Flow}
    (hx : Echoes site σ known known' pending s₀ frame x y)
    (hx' : Echoes site σ known known' pending s₀ frame x' y') :
    Echoes site σ known known' pending s₀ frame (if c then x else x')
      (if c then y else y') := by
  by_cases hc : c
  · rw [if_pos hc, if_pos hc]
    exact hx
  · rw [if_neg hc, if_neg hc]
    exact hx'

theorem echoes_next :
    Echoes site σ known known pending s₀ frame (pure (.next, frame)) (pure .next) := by
  intro s a r s' mirrors hpure
  obtain ⟨rfl, rfl⟩ := returns_pure.mp hpure
  exact ⟨.next, a, returns_pure.mpr ⟨rfl, rfl⟩, .next mirrors⟩

/-- **A loop echoes its source** when its condition and its body do, by induction on the
turns that are left. -/
theorem echoes_repeatWhile {cond : Frame → Run Bool} {body : Frame → Run (Flow × Frame)}
    {cond' : Direct Bool} {body' : Direct Flow}
    (hcond : ∀ frame, Agree (Mirrors site σ known pending s₀ frame) (cond frame) cond')
    (hbody : ∀ frame, Echoes site σ known known pending s₀ frame (body frame) body')
    (fuel : Nat) :
    ∀ frame, Echoes site σ known known pending s₀ frame (repeatWhile cond body fuel frame)
      (Direct.repeatWhile cond' body' fuel) := by
  induction fuel with
  | zero => exact fun _ _ _ _ _ _ hthrow => (not_returns_throw hthrow).elim
  | succ fuel ih =>
    intro frame
    unfold repeatWhile Direct.repeatWhile
    refine echoes_bind (hcond frame) fun go => echoes_ite ?_ echoes_next
    intro s a r s'' mirrors hret
    obtain ⟨⟨flow, frame'⟩, s', hturn, hrest⟩ := returns_bind.mp hret
    obtain ⟨flow', a', hturn', echo⟩ := hbody frame mirrors hturn
    cases echo with
    | next mirrors' | continueLoop mirrors' =>
      obtain ⟨flow'', a'', hrest', echo'⟩ := ih frame' mirrors' hrest
      exact ⟨flow'', a'', returns_bind.mpr ⟨_, a', hturn', hrest'⟩, echo'⟩
    | breakLoop mirrors' =>
      obtain ⟨rfl, rfl⟩ := returns_pure.mp hrest
      exact ⟨.next, a', returns_bind.mpr ⟨_, a', hturn', returns_pure.mpr ⟨rfl, rfl⟩⟩,
        .next mirrors'⟩
    | finished mirrors' finish =>
      obtain ⟨rfl, rfl⟩ := returns_pure.mp hrest
      exact ⟨_, a', returns_bind.mpr ⟨_, a', hturn', returns_pure.mpr ⟨rfl, rfl⟩⟩,
        .finished mirrors' finish⟩

variable (call : Caller) (fuel : Nat)

/-- Slotted expressions are there. -/
theorem isAbsent_slottedExpr (l : SlotLayout) (e : Expr) :
    (slottedExpr l e).isAbsent = false := by
  cases e with
  | localVar info x =>
    unfold slottedExpr
    cases l.local? x <;> rfl
  | param info i =>
    unfold slottedExpr
    cases l.param? i <;> rfl
  | _ => rfl

theorem eval?_slottedExpr (l : SlotLayout) (e : Expr) :
    eval? site call frame (slottedExpr l e) = some <$> eval site call frame
      (slottedExpr l e) := by
  unfold eval?
  rw [isAbsent_slottedExpr]
  rfl

/-- The introduction of a local with a value does what an assignment does. -/
theorem exec_bind_slottedExpr (l : SlotLayout) (span : Span) (x : LocalId) (e : Expr) :
    exec site call fuel (.bind span x (slottedExpr l e)) frame =
      exec site call fuel (.assign span (.localVar x) (slottedExpr l e)) frame := by
  unfold exec
  rw [eval?_slottedExpr, ← bind_pure_comp, bind_assoc]
  rfl

/-- **A store echoes the write of its source.** -/
theorem echoes_store (staged : Staged site σ s₀) {target : Place} {e : Expr}
    (writable : target.Writable site.machine.layout pending)
    (covered : e.Covered site.machine.layout known) (span : Span) :
    Echoes site σ known (fun x => known x ∨ target = .localVar x) pending s₀ frame
      (exec site call fuel (.assign span (site.machine.layout.place target)
        (slottedExpr site.machine.layout e)) frame)
      (e.value σ >>= fun v => Direct.write v target >>= fun _ => pure .next) := by
  unfold exec
  refine echoes_bind (agree_eval call frame staged e covered) fun v => ?_
  intro s a r s' mirrors hret
  obtain ⟨frame', hwrite, rfl⟩ := returns_bind_pure.mp hret
  obtain ⟨a', hdirect, mirrors'⟩ := mirrors.write staged writable hwrite
  exact ⟨.next, a', returns_bind_pure.mpr ⟨(), hdirect, rfl⟩,
    .next mirrors'⟩

/-- The introduction of a local that lives for one run. -/
theorem echoes_declare (staged : Staged site σ s₀) {x : LocalId}
    (hslot : site.machine.layout.local? x = none) (hpending : ¬ pending x) (span : Span) :
    Echoes site σ known (fun y => known y ∨ Place.localVar x = .localVar y) pending s₀ frame
      (exec site call fuel (.bind span x .absent) frame)
      (Direct.write (σ.defaultLocal x) (.localVar x) >>= fun _ => pure .next) := by
  intro s a r s' mirrors hret
  obtain ⟨rfl, rfl⟩ := returns_pure.mp (hret : Returns (pure _) s r s')
  have hwrite : Returns (writePlace site frame (σ.defaultLocal x)
    (site.machine.layout.place (.localVar x)))
      s' { frame with locals := frame.locals.insert x (σ.defaultLocal x) } s' := by
    rw [SlotLayout.place_local_of_none hslot]
    exact returns_pure.mpr ⟨rfl, rfl⟩
  have writable : (Place.localVar x).Writable site.machine.layout pending := hpending
  obtain ⟨a', hdirect, mirrors'⟩ := mirrors.write staged writable hwrite
  refine ⟨.next, a', returns_bind_pure.mpr ⟨(), hdirect, rfl⟩, ?_⟩
  have hdefault := staged.defaults x hslot
  show Echo _ _ _ _ _ _
    (.next, { frame with locals := frame.locals.insert x (site.defaultLocal x) }) _ _ _
  rw [hdefault]
  exact .next mirrors'

/-- What a finish of the machine does, its source does by returning. -/
theorem echoes_finish (value : Option Value) : Echoes site σ known known pending s₀ frame
      (finish site .succeeded value >>= fun _ => pure (.finished, frame))
      (pure (.ret (value.getD σ.defaultResult))) := by
  intro s a r s'' mirrors hret
  obtain ⟨_, hfinish, rfl⟩ := returns_bind_pure.mp hret
  exact ⟨_, a, returns_pure.mpr ⟨rfl, rfl⟩, .finished mirrors hfinish⟩

end

section

variable (call : Caller) (fuel : Nat)

/-- Statements in order: what follows the first goes on with what the first has written. -/
theorem echoes_cons {known : LocalId → Prop} {s : Stmt} {s' : Machine.Stmt}
    {rest : List Stmt} {rest' : List Machine.Stmt}
    (hfirst : Echoes site σ known (after known s) pending s₀ frame
      (exec site call fuel s' frame) (s.perform σ fuel))
    (hrest : ∀ frame, Echoes site σ (after known s) (after known s) pending s₀ frame
      (execBlock site call fuel rest' frame) (performAll σ fuel rest)) :
    Echoes site σ known known pending s₀ frame (execBlock site call fuel (s' :: rest') frame)
      (performAll σ fuel (s :: rest)) := by
  intro s a r s'' mirrors hret
  rw [execBlock_cons] at hret
  unfold performAll
  obtain ⟨⟨flow, frame'⟩, mid, hrun, hgo⟩ := returns_bind.mp hret
  obtain ⟨flow', a', hdirect, echo⟩ := hfirst mirrors hrun
  cases echo with
  | next mirrors' =>
    -- What the first has written is known to the rest, and may be forgotten after the block.
    obtain ⟨flow'', a'', hdirect', echo'⟩ := hrest frame' mirrors' hgo
    exact ⟨flow'', a'', returns_bind.mpr ⟨_, a', hdirect, hdirect'⟩,
      echo'.mono (fun _ hx => Or.inl hx) fun _ hx => Or.inl hx⟩
  | breakLoop mirrors' =>
    obtain ⟨rfl, rfl⟩ := returns_pure.mp hgo
    exact ⟨_, a', returns_bind.mpr ⟨_, a', hdirect, returns_pure.mpr ⟨rfl, rfl⟩⟩,
      .breakLoop mirrors'⟩
  | continueLoop mirrors' =>
    obtain ⟨rfl, rfl⟩ := returns_pure.mp hgo
    exact ⟨_, a', returns_bind.mpr ⟨_, a', hdirect, returns_pure.mpr ⟨rfl, rfl⟩⟩,
      .continueLoop mirrors'⟩
  | finished mirrors' finish =>
    obtain ⟨rfl, rfl⟩ := returns_pure.mp hgo
    exact ⟨_, a', returns_bind.mpr ⟨_, a', hdirect, returns_pure.mpr ⟨rfl, rfl⟩⟩,
      .finished mirrors' finish⟩

/-- After a statement that writes no local at its own level, nothing more is known. -/
theorem known_of_after {known : LocalId → Prop} {s : Stmt} (hwrites : writes? s = none)
    (x : LocalId) (hx : after known s x) : known x := by
  rcases hx with hx | hx
  · exact hx
  · rw [hwrites] at hx
    cases hx

mutual

/-- **Covered statements have the effects of their sources.** -/
theorem echoes_exec (staged : Staged site σ s₀) {known : LocalId → Prop} :
    (s : Stmt) → s.Covered site.machine.layout known pending →
    ∃ s', slottedStmt site.machine.layout false s =
      some s' ∧ ∀ frame, Echoes site σ known (after known s) pending s₀ frame
        (exec site call fuel s' frame) (s.perform σ fuel)
  | .expr info e, covered => by
    refine ⟨_, rfl, fun frame => Echoes.mono ?_ (known_of_after rfl)⟩
    unfold exec Stmt.perform
    exact echoes_bind (agree_eval call frame staged e covered) fun _ => echoes_next
  | .declare info x, covered => by
    refine ⟨.bind info.span x .absent, ?_, fun frame => Echoes.mono
      (echoes_declare call fuel staged covered.1 covered.2 info.span) fun y hy => ?_⟩
    · unfold slottedStmt
      simp only [covered.1]
    · exact hy.imp_right fun heq => congrArg Place.localVar (Option.some.inj heq)
  | .bind info x e, covered => by
    have writable : (Place.localVar x).Writable site.machine.layout pending := covered.1
    have hstore : ∀ frame, Echoes site σ known (after known (.bind info x e)) pending s₀ frame
        (exec site call fuel (.assign info.span (site.machine.layout.place (.localVar x))
          (slottedExpr site.machine.layout e)) frame)
            ((Stmt.bind info x e).perform σ fuel) := by
      intro frame
      refine Echoes.mono (echoes_store call fuel staged writable covered.2 info.span)
        fun y hy => ?_
      exact hy.imp_right fun heq => congrArg Place.localVar (Option.some.inj heq)
    unfold slottedStmt
    cases hslot : site.machine.layout.local? x with
    | some slot =>
      rw [SlotLayout.place_local hslot] at hstore
      exact ⟨_, rfl, hstore⟩
    | none =>
      -- Without a slot the local is introduced with the value, which has the effect of an
      -- assignment.
      rw [SlotLayout.place_local_of_none hslot] at hstore
      refine ⟨_, rfl, fun frame => ?_⟩
      rw [exec_bind_slottedExpr]
      exact hstore frame
  | .assign info target e, covered => by
    refine ⟨_, rfl, fun frame => Echoes.mono
      (echoes_store call fuel staged covered.1 covered.2 info.span) fun y hy => ?_⟩
    refine hy.imp_right fun heq => ?_
    cases target with
    | localVar x => exact congrArg Place.localVar (Option.some.inj heq)
    | param | field => cases heq
  | .branch info cond onTrue onFalse, covered => by
    refine ⟨_, rfl, fun frame => Echoes.mono ?_ (known_of_after rfl)⟩
    unfold exec Stmt.perform
    exact echoes_bind (agree_eval call frame staged cond covered.1) fun _ =>
      echoes_bind (agree_require _ _) fun _ =>
        echoes_ite (echoes_execBlock staged onTrue covered.2.1 frame)
          (echoes_execBlock staged onFalse covered.2.2 frame)
  | .loop info cond body, covered => by
    refine ⟨_, rfl, fun frame => Echoes.mono ?_ (known_of_after rfl)⟩
    unfold exec Stmt.perform
    refine echoes_repeatWhile (fun frame => ?_)
      (fun frame => echoes_execBlock staged body covered.2 frame) fuel frame
    exact agree_bind (agree_eval call frame staged cond covered.1) fun _ => agree_require _ _
  | .breakLoop info, _ => by
    refine ⟨_, rfl, fun frame s a r s' mirrors hret => ?_⟩
    obtain ⟨rfl, rfl⟩ := returns_pure.mp (hret : Returns (pure _) s r s')
    exact ⟨_, a, returns_pure.mpr ⟨rfl, rfl⟩, .breakLoop mirrors⟩
  | .continueLoop info, _ => by
    refine ⟨_, rfl, fun frame s a r s' mirrors hret => ?_⟩
    obtain ⟨rfl, rfl⟩ := returns_pure.mp (hret : Returns (pure _) s r s')
    exact ⟨_, a, returns_pure.mpr ⟨rfl, rfl⟩, .continueLoop mirrors⟩
  | .leave info, _ => by
    refine ⟨_, rfl, fun frame => ?_⟩
    have hfinish : Echoes site σ known known pending s₀ frame _ _ := echoes_finish none
    exact hfinish.mono (known_of_after rfl)
  | .ret info e, covered => by
    refine ⟨_, rfl, fun frame => Echoes.mono ?_ (known_of_after rfl)⟩
    unfold exec Stmt.perform
    -- To return is to finish with the value, which is there.
    rw [eval?_slottedExpr, ← bind_pure_comp, bind_assoc]
    refine echoes_bind (agree_eval call frame staged e covered) fun v => ?_
    exact echoes_finish (some v)

/-- **Covered lists of statements have the effects of their sources.** -/
theorem echoes_execBlock (staged : Staged site σ s₀) {known : LocalId → Prop} :
    (stmts : List Stmt) → Bound.CoveredBlock site.machine.layout known
      pending stmts → ∀ frame,
      Echoes site σ known known pending s₀ frame
        (execBlock site call fuel (slottedBlock site.machine.layout false stmts) frame)
          (performAll σ fuel stmts)
  | [], _ => by
    intro frame
    unfold slottedBlock execBlock performAll
    exact echoes_next
  | s :: rest, covered => by
    intro frame
    obtain ⟨s', hslotted, hfirst⟩ := echoes_exec staged s covered.1
    unfold slottedBlock
    rw [hslotted]
    exact echoes_cons call fuel (hfirst frame) fun frame =>
      echoes_execBlock staged rest covered.2 frame

end

end

end Resumable
