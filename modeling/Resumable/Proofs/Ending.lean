import Resumable.Host.Basic

/-!
# How runs end

Runs of machines, operations of a host and the direct meaning of a procedure are all functions
on a state that end with a value or with a reason to stop, built from a few primitives by
sequencing.  This module opens such functions once, so that no later proof unfolds the monad.

## Main definitions

* `Ends x s r s'`: the run `x`, started in `s`, ends in `s'` with `r`, a value
  or a reason to stop.
* `Returns x s a s'`: it ends with the value `a`.
* `SameEnd x s y t`: started in `s`, the run `x` ends as `y` does from `t`.
* `Within e R x`: each end of `x` that `e` covers is related by `R` to its start.
* `Upholds I E x`: started in a state with `I`, the run `x` returns in one, or stops with `E`.

## Design notes

`Returns` is what a statement about successful runs speaks of: `returns_bind` splits a
successful sequence into two successful parts, and the lemma of each primitive says what that
primitive did.  `Within` is for the other direction, from the parts to the whole.  A relation
that is reflexive and transitive and holds of the parts holds of the sequence, and it does not
matter there whether the run ends with a value or is stopped on the way; `Ending` keeps the
two readings in one statement.
-/

namespace Resumable

variable {c : Prop} {I : HostState → Prop} {E : Halt → HostState → Prop}

/-- Which ends of a run a statement is about. -/
inductive Ending where
  /-- The ends with a value. -/
  | returned
  | any
  deriving DecidableEq

section Generic

variable {ε σ α β : Type}

/-- Is the statement about this end? -/
def Ending.Covers : Ending → Except ε α → Prop
  | .any, _ => True
  | .returned, .ok _ => True
  | .returned, .error _ => False

/-- Every ending covers a value. -/
@[simp] theorem Ending.covers_ok (e : Ending) (a : α) : e.Covers (.ok a : Except ε α) := by
  cases e <;> trivial

/-- An end without a value is covered for one type of values exactly when
it is for another. -/
theorem Ending.covers_error {h : ε} {e : Ending}
    (covered : e.Covers (.error h : Except ε α)) : e.Covers (.error h : Except ε β) := by
  cases e with
  | returned => exact covered.elim
  | any => trivial

/-- The run, started in `s`, ends in `s'` with `r`. -/
def Ends (x : ExceptT ε (StateM σ) α) (s : σ) (r : Except ε α) (s' : σ) : Prop :=
  (show Except ε α × σ from x s) = (r, s')

/-- The run, started in `s`, ends in `s'` with the value `a`. -/
def Returns (x : ExceptT ε (StateM σ) α) (s : σ) (a : α) (s' : σ) : Prop :=
  Ends x s (.ok a) s'

variable {x y : ExceptT ε (StateM σ) α} {f : α → ExceptT ε (StateM σ) β} {s s' s'' t : σ}
  {g : σ → σ} {h : ε} {a : α} {r : Except ε β}

/-- A run that ends well, as the pair it returns. -/
theorem eq_mk_ok_of_isOk [Inhabited α] {r : Except ε α × σ} (h : r.1.isOk = true) :
    r = (.ok (r.1.toOption.getD default), r.2) := by
  obtain ⟨_ | a, t⟩ := r
  · cases h
  · rfl

/-- A run whose end is a value returns it. -/
theorem exists_returns_of_isOk (h : (show Except ε α × σ from x s).1.isOk = true) :
    ∃ a s', Returns x s a s' := by
  cases hrun : (show Except ε α × σ from x s) with
  | mk r s' =>
    rw [hrun] at h
    cases r with
    | error why => cases h
    | ok a => exact ⟨a, s', hrun⟩

theorem returns_of_toOption (h : (show Except ε α × σ from x s).1.toOption = some a) :
    Returns x s a (show Except ε α × σ from x s).2 := by
  refine Prod.ext ?_ rfl
  cases hrun : (show Except ε α × σ from x s).1 with
  | error why =>
    rw [hrun] at h
    cases h
  | ok b =>
    rw [hrun] at h
    exact congrArg Except.ok (Option.some.inj h)

/-- Why a run stopped. -/
def stopped? : Except ε α → Option ε
  | .error halt => some halt
  | .ok _ => none

/-- A run that stopped, as one that ended so. -/
theorem ends_of_stopped? {halt : ε}
    (h : stopped? (show Except ε α × σ from x s).1 = some halt) :
    Ends x s (.error halt) (show Except ε α × σ from x s).2 := by
  refine Prod.ext ?_ rfl
  cases hrun : (show Except ε α × σ from x s).1 with
  | ok a =>
    rw [hrun] at h
    cases h
  | error why =>
    rw [hrun] at h
    exact congrArg Except.error (Option.some.inj h)

/-- A run has one end. -/
theorem Ends.unique {r₁ r₂ : Except ε α} {s₁ s₂ : σ} (h₁ : Ends x s r₁ s₁)
    (h₂ : Ends x s r₂ s₂) : r₁ = r₂ ∧ s₁ = s₂ := by
  unfold Ends at h₁ h₂
  rw [h₁] at h₂
  exact Prod.mk.inj h₂

theorem Returns.unique {a₁ a₂ : α} {s₁ s₂ : σ} (h₁ : Returns x s a₁ s₁)
    (h₂ : Returns x s a₂ s₂) : a₁ = a₂ ∧ s₁ = s₂ := by
  obtain ⟨ha, hs⟩ := Ends.unique h₁ h₂
  exact ⟨Except.ok.inj ha, hs⟩

/-! ### Sequencing -/

private theorem bind_eq (x : ExceptT ε (StateM σ) α)
    (f : α → ExceptT ε (StateM σ) β) (s : σ) :
    (show Except ε β × σ from (x >>= f) s) = match (show Except ε α × σ from x s) with
      | (.ok a, s') => f a s'
      | (.error h, s') => (.error h, s') := by
  show (ExceptT.bind x f) s = _
  unfold ExceptT.bind ExceptT.mk ExceptT.bindCont
  show (StateT.bind x _) s = _
  unfold StateT.bind
  rcases x s with ⟨h | a, s'⟩ <;> rfl

/-- **The two ways a sequence ends**: the first part is stopped, or it returns and the second
part goes on from there. -/
theorem ends_bind : Ends (x >>= f) s r s'' ↔ (∃ h, Ends x s (.error h) s'' ∧ r = .error h) ∨
        ∃ a s', Returns x s a s' ∧ Ends (f a) s' r s'' := by
  unfold Returns Ends
  rw [bind_eq]
  rcases hx : (show Except ε α × σ from x s) with ⟨h | a, s'⟩
  · constructor
    · intro heq
      obtain ⟨rfl, rfl⟩ := Prod.mk.inj heq
      exact Or.inl ⟨h, rfl, rfl⟩
    · rintro (⟨h', heq, rfl⟩ | ⟨a, mid, heq, -⟩)
      · obtain ⟨hh, rfl⟩ := Prod.mk.inj heq
        rw [Except.error.inj hh]
      · cases (Prod.mk.inj heq).1
  · constructor
    · intro heq
      exact Or.inr ⟨a, s', rfl, heq⟩
    · rintro (⟨h', heq, -⟩ | ⟨a', mid, heq, hf⟩)
      · cases (Prod.mk.inj heq).1
      · obtain ⟨ha, rfl⟩ := Prod.mk.inj heq
        rw [Except.ok.inj ha]
        exact hf

/-- **A sequence that returns** does so through both of its parts. -/
theorem returns_bind {b : β} :
    Returns (x >>= f) s b s'' ↔ ∃ a s', Returns x s a s' ∧ Returns (f a) s' b s'' := by
  unfold Returns
  rw [ends_bind]
  constructor
  · rintro (⟨h, -, heq⟩ | hr)
    · cases heq
    · exact hr
  · exact Or.inr

/-- A sequence goes on from where its first part returned. -/
theorem Returns.ends_bind (h : Returns x s a s') :
    Ends (x >>= f) s r s'' ↔ Ends (f a) s' r s'' := by
  rw [Resumable.ends_bind]
  constructor
  · rintro (⟨halt, hhalt, -⟩ | ⟨a', mid, hret, hend⟩)
    · cases (Ends.unique h hhalt).1
    · obtain ⟨rfl, rfl⟩ := Returns.unique h hret
      exact hend
  · intro hend
    exact Or.inr ⟨a, s', h, hend⟩

/-- Started in `s`, the run `x` ends exactly as `y` does when it is started in `t`. -/
def SameEnd (x : ExceptT ε (StateM σ) α) (s : σ) (y : ExceptT ε (StateM σ) α)
    (t : σ) : Prop :=
  ∀ r s', Ends x s r s' ↔ Ends y t r s'

theorem SameEnd.trans {y z : ExceptT ε (StateM σ) α} {t u : σ} (h₁ : SameEnd x s y t)
    (h₂ : SameEnd y t z u) : SameEnd x s z u :=
  fun r s' => (h₁ r s').trans (h₂ r s')

/-- Runs that end alike go on alike. -/
theorem SameEnd.bind (h : SameEnd x s y t) : SameEnd (x >>= f) s (y >>= f) t := by
  intro r s'
  simp only [Resumable.ends_bind, Returns, h _ _]

/-- A pure run gives its value and touches nothing. -/
theorem returns_pure {b : α} :
    Returns (pure a : ExceptT ε (StateM σ) α) s b s' ↔ b = a ∧ s' = s := by
  constructor
  · intro heq
    obtain ⟨ha, hs⟩ := Prod.mk.inj (heq : ((Except.ok a : Except ε α), s) = (.ok b, s'))
    exact ⟨(Except.ok.inj ha).symm, hs.symm⟩
  · rintro ⟨rfl, rfl⟩
    rfl

/-- A run that is followed by a value made from its own. -/
theorem returns_bind_pure {g : α → β} {b : β} :
    Returns (x >>= fun a => pure (g a)) s b s' ↔ ∃ a, Returns x s a s' ∧ b = g a := by
  rw [returns_bind]
  simp only [returns_pure]
  constructor
  · rintro ⟨a, _, hx, hb, rfl⟩
    exact ⟨a, hx, hb⟩
  · rintro ⟨a, hx, hb⟩
    exact ⟨a, s', hx, hb, rfl⟩

/-- A choice returns what the branch taken returns. -/
theorem returns_ite [Decidable c] :
    Returns (if c then x else y) s a s' ↔ (c ∧ Returns x s a s') ∨
    (¬ c ∧ Returns y s a s') := by
  by_cases hc : c <;> simp [hc]

/-! ### Primitives -/

/-- Looking at the state returns it. -/
theorem returns_get : Returns (get : ExceptT ε (StateM σ) σ) s t s' ↔ t = s ∧ s' = s :=
  returns_pure (a := s)

theorem returns_set {u : PUnit} :
    Returns (set t : ExceptT ε (StateM σ) PUnit) s u s' ↔ s' = t :=
  ⟨fun heq => (Prod.mk.inj (heq : ((Except.ok ⟨⟩ : Except ε PUnit), t) = (.ok u, s'))).2.symm,
    fun heq => heq ▸ rfl⟩

/-- What a change of the state leaves. -/
theorem returns_modify {u : PUnit} :
    Returns (modify g : ExceptT ε (StateM σ) PUnit) s u s' ↔ s' = g s :=
  returns_set (s := s)

/-- Looking at the state goes on with what is seen. -/
theorem ends_get_bind {f : σ → ExceptT ε (StateM σ) β} :
    Ends (get >>= f) s r s' ↔ Ends (f s) s r s' :=
  Iff.rfl

theorem ends_set_bind {f : PUnit → ExceptT ε (StateM σ) β} :
    Ends (set t >>= f) s r s' ↔ Ends (f ⟨⟩) t r s' :=
  Iff.rfl

/-- Changing the state goes on in the changed state. -/
theorem ends_modify_bind {f : PUnit → ExceptT ε (StateM σ) β} :
    Ends (modify g >>= f) s r s' ↔ Ends (f ⟨⟩) (g s) r s' := Iff.rfl

/-- How a halt ends. -/
theorem ends_throw {r : Except ε α} :
    Ends (throw h : ExceptT ε (StateM σ) α) s r s' ↔ r = .error h ∧ s' = s := by
  constructor
  · intro heq
    obtain ⟨rfl, rfl⟩ := Prod.mk.inj (heq : ((Except.error h : Except ε α), s) = (r, s'))
    exact ⟨rfl, rfl⟩
  · rintro ⟨rfl, rfl⟩
    rfl

/-- A halt gives no value. -/
theorem not_returns_throw : ¬ Returns (throw h : ExceptT ε (StateM σ) α) s a s' := by
  intro heq
  cases (ends_throw.mp heq).1

/-! ### Relations between start and end -/

/-- Each end of the run that `e` covers is related to its start. -/
def Within (e : Ending) (R : σ → σ → Prop) (x : ExceptT ε (StateM σ) α) : Prop :=
  ∀ ⦃s r s'⦄, Ends x s r s' → e.Covers r → R s s'

variable {e : Ending} {R : σ → σ → Prop}

/-- What holds of a run that returned. -/
theorem Within.of_returns (hx : Within e R x) (h : Returns x s a s') : R s s' :=
  hx h (e.covers_ok a)

/-- Runs within a transitive relation are so in sequence. -/
theorem within_bind (trans : ∀ {a b c}, R a b → R b c → R a c) (hx : Within e R x)
    (hf : ∀ a, Within e R (f a)) : Within e R (x >>= f) := by
  intro s r s'' h covered
  rcases ends_bind.mp h with ⟨halt, hhalt, rfl⟩ | ⟨a, s', hret, hend⟩
  · exact hx hhalt (Ending.covers_error covered)
  · exact trans (hx.of_returns hret) (hf a hend covered)

/-- A change within the relation stays within it. -/
theorem within_modify (hg : ∀ s, R s (g s)) :
    Within e R (modify g : ExceptT ε (StateM σ) PUnit) := by
  intro s r s' h _
  rw [← (Prod.mk.inj (h : ((Except.ok ⟨⟩ : Except ε PUnit), g s) = (r, s'))).2]
  exact hg s

/-- A choice keeps within what both branches keep within. -/
theorem within_ite [Decidable c] (hx : Within e R x) (hy : Within e R y) :
    Within e R (if c then x else y) :=
  iteInduction (fun _ => hx) fun _ => hy

/-- The run leaves the state alone. -/
def Silent (x : ExceptT ε (StateM σ) α) : Prop := ∀ ⦃s r s'⦄, Ends x s r s' → s' = s

/-- A silent run keeps within any reflexive relation. -/
theorem Silent.within (hx : Silent x) (refl : ∀ a, R a a) : Within e R x := by
  intro s r s' h _
  rw [hx h]
  exact refl s

/-- To return a value touches nothing. -/
theorem silent_pure (a : α) : Silent (pure a : ExceptT ε (StateM σ) α) := by
  intro s r s' h
  exact (Prod.mk.inj (h : ((Except.ok a : Except ε α), s) = (r, s'))).2.symm

/-- A halt touches nothing. -/
theorem silent_throw (h : ε) : Silent (throw h : ExceptT ε (StateM σ) α) :=
  fun _ _ _ heq => (ends_throw.mp heq).2

/-- Looking at the state touches nothing. -/
theorem silent_get : Silent (get : ExceptT ε (StateM σ) σ) := by
  intro s r s' h
  exact (Prod.mk.inj (h : ((Except.ok s : Except ε σ), s) = (r, s'))).2.symm

/-- Silent runs in sequence are silent. -/
theorem silent_bind (hx : Silent x) (hf : ∀ a, Silent (f a)) : Silent (x >>= f) := by
  intro s r s'' h
  rcases ends_bind.mp h with ⟨halt, hhalt, -⟩ | ⟨a, s', hret, hend⟩
  · exact hx hhalt
  · rw [hf a hend, hx hret]

/-! ### Properties of ends -/

/-- How a run ends that upholds `I` or stops with `E`. -/
def Landed (I : σ → Prop) (E : ε → σ → Prop) : Except ε α → σ → Prop
  | .ok _, s => I s
  | .error halt, s => E halt s

/-- Started in a state with `I`, the run returns in one, or stops with `E`. -/
def Upholds (I : σ → Prop) (E : ε → σ → Prop) (x : ExceptT ε (StateM σ) α) : Prop :=
  ∀ ⦃s r s'⦄, Ends x s r s' → I s → Landed I E r s'

variable {I : σ → Prop} {E : ε → σ → Prop}

/-- Runs that uphold an invariant do so in sequence. -/
theorem upholds_bind (hx : Upholds I E x) (hf : ∀ a, Upholds I E (f a)) :
    Upholds I E (x >>= f) := by
  intro s r s'' h hs
  rcases ends_bind.mp h with ⟨halt, hhalt, rfl⟩ | ⟨a, s', hret, hend⟩
  · exact hx hhalt hs
  · exact hf a hend (hx hret hs)

/-- A pure run upholds everything. -/
theorem upholds_pure (a : α) : Upholds I E (pure a : ExceptT ε (StateM σ) α) := by
  intro s r s' h hs
  obtain ⟨rfl, rfl⟩ := Ends.unique h (returns_pure.mpr ⟨rfl, rfl⟩)
  exact hs

/-- Looking at the state upholds everything. -/
theorem upholds_get : Upholds I E (get : ExceptT ε (StateM σ) σ) := by
  intro s r s' h hs
  obtain ⟨rfl, rfl⟩ := Ends.unique h (returns_get.mpr ⟨rfl, rfl⟩)
  exact hs

/-- A change that keeps the invariant upholds it. -/
theorem upholds_modify (hg : ∀ s, I s → I (g s)) :
    Upholds I E (modify g : ExceptT ε (StateM σ) PUnit) := by
  intro s r s' h hs
  obtain ⟨rfl, rfl⟩ := Ends.unique h ((returns_modify (u := ⟨⟩)).mpr rfl)
  exact hg s hs

/-- A halt that the invariant allows upholds it. -/
theorem upholds_throw {halt : ε} (h : ∀ s, I s → E halt s) :
    Upholds I E (throw halt : ExceptT ε (StateM σ) α) := by
  intro s r s' hend hs
  obtain ⟨rfl, rfl⟩ := ends_throw.mp hend
  exact h _ hs

/-- A choice upholds what both branches uphold. -/
theorem upholds_ite [Decidable c] (hx : Upholds I E x) (hy : Upholds I E y) :
    Upholds I E (if c then x else y) :=
  iteInduction (fun _ => hx) fun _ => hy

end Generic

/-! ### Primitives of machine runs -/

namespace Run

variable {α : Type} {s s' : HostState} {why : HostError} {a : α} {v : Value}

/-- A failure gives no value. -/
theorem not_returns_fail : ¬ Returns (fail why : Run α) s a s' :=
  not_returns_throw

/-- A requirement passes on what is there. -/
theorem returns_require {o : Option α} :
    Returns (require why o) s a s' ↔ o = some a ∧ s' = s := by
  cases o with
  | none => exact ⟨fun h => (not_returns_fail h).elim, fun h => by cases h.1⟩
  | some b =>
    show Returns (pure b : Run α) s a s' ↔ _
    rw [returns_pure, Option.some.injEq, eq_comm]

/-- An answer known in advance is the answer. -/
theorem returns_ofExcept {r : Except HostError α} :
    Returns (ofExcept r) s a s' ↔ r = .ok a ∧ s' = s := by
  cases r with
  | error why => exact ⟨fun h => (not_returns_fail h).elim, fun h => by cases h.1⟩
  | ok b =>
    show Returns (pure b : Run α) s a s' ↔ _
    rw [returns_pure, Except.ok.injEq, eq_comm]

theorem returns_expectBool {b : Bool} :
    Returns (expectBool v) s b s' ↔ v = .bool b ∧ s' = s := by
  unfold expectBool
  rw [returns_require]
  cases v <;> simp [Value.bool?]

theorem returns_expectInt {n : Int64} :
    Returns (expectInt v) s n s' ↔ v = .int n ∧ s' = s := by
  unfold expectInt
  rw [returns_require]
  cases v <;> simp [Value.int?]

theorem returns_expectTask {id : TaskId} :
    Returns (expectTask v) s id s' ↔ v = .task id ∧ s' = s := by
  unfold expectTask
  rw [returns_require]
  cases v <;> simp [Value.task?]

/-- A failure touches nothing. -/
theorem silent_fail (why : HostError) : Silent (fail why : Run α) := silent_throw _

/-- To require a value touches nothing. -/
theorem silent_require (why : HostError) (o : Option α) : Silent (require why o) := by
  cases o with
  | none => exact silent_fail why
  | some a => exact silent_pure a

/-- An answer known in advance touches nothing. -/
theorem silent_ofExcept (r : Except HostError α) : Silent (ofExcept r) := by
  cases r with
  | error why => exact silent_fail why
  | ok a => exact silent_pure a

theorem silent_theInstance (owner : InstanceId) : Silent (theInstance owner) :=
  silent_bind silent_get fun _ => silent_require _ _

theorem silent_storage (owner : InstanceId) (program : Nat) (m : Machine) :
    Silent (storage owner program m) :=
  silent_bind (silent_theInstance owner) fun _ => silent_pure _

theorem upholds_require (h : ∀ s, I s → E (.error why) s) (o : Option α) :
    Upholds I E (require why o) := by
  cases o with
  | none => exact upholds_throw h
  | some a => exact upholds_pure a

theorem upholds_ofExcept {result : Except HostError α}
    (h : ∀ why s, result = .error why → I s → E (.error why) s) :
    Upholds I E (ofExcept result) := by
  cases result with
  | error why => exact upholds_throw fun s => h why s rfl
  | ok a => exact upholds_pure a

end Run

/-! ### Values -/

/-- What reads as a number is one. -/
theorem eq_some_int {o : Option Value} {n : Int64} (h : o.bind Value.int? = some n) :
    o = some (.int n) := by
  obtain ⟨v, rfl, hv⟩ := Option.bind_eq_some_iff.mp h
  cases v with
  | int m => exact congrArg (fun n => some (Value.int n)) (Option.some.inj hv)
  | unit | bool | float | str | array | task | token | closure => cases hv

end Resumable
