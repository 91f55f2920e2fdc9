import Resumable.Proofs.Ending

/-!
# Runs that end alike

A statement about two runs compares how they end.  **Two runs end alike** when both return,
with results and states that are related, or both stop for the same reason, in states that are
related.  That one of them returns and the other stops is excluded, so a statement of this
kind also covers failure.

## Main definitions

* `EndsAlike Q E`: two ends that are alike.
* `Alike x s y t Q E`: started in `s` and `t`, the runs `x` and `y` end alike.
* `InStep W E x y`: started in states related by `W`, the runs return the same, and `W` still
  holds; where they stop, it is for a reason in `E`.

## Main statements

* `Alike.bind`, `InStep.bind`: runs that end alike go on alike.
* `inStep_self`: a run is in step with itself where it keeps a property of the state.

## Design notes

The judgement is about two given states, so that what is known of them stays in the context of
a proof and does not have to be packed into a precondition.  `InStep` is the special case that
needs no such knowledge.  A property that one run keeps is the case of a run beside itself,
which makes a lemma about two hosts serve for one host as well.
-/

namespace Resumable

variable {ε σ α β : Type} {why : HostError}

section

variable {τ γ δ : Type}

/-- Two ends that are alike: both are values, or both have the same reason. -/
def EndsAlike (Q : α → β → σ → τ → Prop) (E : ε → σ → τ → Prop) :
    Except ε α → σ → Except ε β → τ → Prop
  | .ok a, s, .ok b, t => Q a b s t
  | .error h, s, .error h', t => h = h' ∧ E h s t
  | .ok _, _, .error _, _ | .error _, _, .ok _, _ => False

/-- Started in `s` and `t`, the runs end alike. -/
def Alike (x : ExceptT ε (StateM σ) α) (s : σ) (y : ExceptT ε (StateM τ) β) (t : τ)
    (Q : α → β → σ → τ → Prop) (E : ε → σ → τ → Prop) : Prop :=
  ∀ ⦃r s' r' t'⦄, Ends x s r s' → Ends y t r' t' → EndsAlike Q E r s' r' t'

variable {x : ExceptT ε (StateM σ) α} {y : ExceptT ε (StateM τ) β}
  {f : α → ExceptT ε (StateM σ) γ} {g : β → ExceptT ε (StateM τ) δ} {s s' : σ} {t t' : τ}
  {Q : α → β → σ → τ → Prop} {R : γ → δ → σ → τ → Prop} {E : ε → σ → τ → Prop}

/-- Two pure runs are alike when their values are. -/
theorem alike_pure {a : α} {b : β} (h : Q a b s t) :
    Alike (pure a : ExceptT ε (StateM σ) α) s (pure b : ExceptT ε (StateM τ) β) t Q E := by
  intro r s' r' t' hx hy
  obtain ⟨rfl, rfl⟩ := Prod.mk.inj (hx : ((Except.ok a : Except ε α), s) = (r, s'))
  obtain ⟨rfl, rfl⟩ := Prod.mk.inj (hy : ((Except.ok b : Except ε β), t) = (r', t'))
  exact h

/-- Stopping on one halt is alike on both sides. -/
theorem alike_throw {halt : ε} (h : E halt s t) :
    Alike (throw halt : ExceptT ε (StateM σ) α) s
      (throw halt : ExceptT ε (StateM τ) β) t Q E := by
  intro r s' r' t' hx hy
  obtain ⟨rfl, rfl⟩ := Prod.mk.inj (hx : ((Except.error halt : Except ε α), s) = (r, s'))
  obtain ⟨rfl, rfl⟩ := Prod.mk.inj (hy : ((Except.error halt : Except ε β), t) = (r', t'))
  exact ⟨rfl, h⟩

/-- Runs that return are alike when their results are. -/
theorem Returns.alike {a : α} {b : β} (hx : Returns x s a s') (hy : Returns y t b t')
    (h : Q a b s' t') : Alike x s y t Q E := by
  intro r s'' r' t'' hends hends'
  obtain ⟨rfl, rfl⟩ := Ends.unique hx hends
  obtain ⟨rfl, rfl⟩ := Ends.unique hy hends'
  exact h

/-- **Runs that end alike go on alike.** -/
theorem Alike.bind (hx : Alike x s y t Q E)
    (hf : ∀ a b s' t', Q a b s' t' → Alike (f a) s' (g b) t' R E) :
    Alike (x >>= f) s (y >>= g) t R E := by
  intro r s'' r' t'' hends hends'
  rcases ends_bind.mp hends with ⟨halt, hhalt, rfl⟩ | ⟨a, s', hret, hrest⟩
  · rcases ends_bind.mp hends' with ⟨halt', hhalt', rfl⟩ | ⟨b, t', hret', -⟩
    · exact hx hhalt hhalt'
    · exact (hx hhalt hret').elim
  · rcases ends_bind.mp hends' with ⟨halt', hhalt', rfl⟩ | ⟨b, t', hret', hrest'⟩
    · exact (hx hret hhalt').elim
    · exact hf a b s' t' (hx hret hret') hrest hrest'

/-- What two runs have in common may be said more weakly. -/
theorem Alike.mono {Q' : α → β → σ → τ → Prop} {E' : ε → σ → τ → Prop}
    (hx : Alike x s y t Q E) (hQ : ∀ a b s' t', Q a b s' t' → Q' a b s' t')
    (hE : ∀ h s' t', E h s' t' → E' h s' t') : Alike x s y t Q' E' := by
  intro r s' r' t' hends hends'
  have halike := hx hends hends'
  cases r with
  | ok a =>
    cases r' with
    | ok b => exact hQ a b s' t' halike
    | error _ => exact halike
  | error h =>
    cases r' with
    | ok b => exact halike
    | error h' => exact ⟨halike.1, hE h s' t' halike.2⟩

/-- What two runs return with, they return with. -/
theorem Alike.returns (hx : Alike x s y t Q E) :
    Alike x s y t (fun a b s' t' => Q a b s' t' ∧ Returns x s a s' ∧ Returns y t b t') E := by
  intro r s' r' t' hends hends'
  have halike := hx hends hends'
  cases r with
  | ok a =>
    cases r' with
    | ok b => exact ⟨halike, hends, hends'⟩
    | error _ => exact halike
  | error h =>
    cases r' with
    | ok b => exact halike
    | error h' => exact halike

/-- What returns on both sides may be left out. -/
theorem Returns.alike_bind {a : α} {b : β} (hx : Returns x s a s') (hy : Returns y t b t')
    (hf : Alike (f a) s' (g b) t' R E) : Alike (x >>= f) s (y >>= g) t R E :=
  fun _ _ _ _ hends hends' => hf (hx.ends_bind.mp hends) (hy.ends_bind.mp hends')

/-- Looking at the states goes on with what is seen. -/
theorem alike_get_bind {f : σ → ExceptT ε (StateM σ) γ} {g : τ → ExceptT ε (StateM τ) δ}
    (h : Alike (f s) s (g t) t R E) : Alike (get >>= f) s (get >>= g) t R E :=
  fun _ _ _ _ hends hends' => h (ends_get_bind.mp hends) (ends_get_bind.mp hends')

theorem alike_set_bind {f : PUnit → ExceptT ε (StateM σ) γ}
    {g : PUnit → ExceptT ε (StateM τ) δ} (h : Alike (f ⟨⟩) s' (g ⟨⟩) t' R E) :
    Alike (set s' >>= f) s (set t' >>= g) t R E :=
  Returns.alike_bind (a := ⟨⟩) (b := ⟨⟩) (returns_set.mpr rfl) (returns_set.mpr rfl) h

theorem alike_modify {u : σ → σ} {v : τ → τ} {Q : PUnit → PUnit → σ → τ → Prop}
    (h : Q ⟨⟩ ⟨⟩ (u s) (v t)) :
    Alike (modify u : ExceptT ε (StateM σ) PUnit) s
      (modify v : ExceptT ε (StateM τ) PUnit) t Q E :=
  Returns.alike (returns_modify.mpr rfl) (returns_modify.mpr rfl) h

/-- Two choices that go the same way are alike. -/
theorem alike_ite {c d : Prop} [Decidable c] [Decidable d] {x' : ExceptT ε (StateM σ) α}
    {y' : ExceptT ε (StateM τ) β} (hcd : c ↔ d) (htrue : c → Alike x s y t Q E)
    (hfalse : ¬ c → Alike x' s y' t Q E) :
    Alike (if c then x else x') s (if d then y else y') t Q E := by
  by_cases hc : c
  · rw [if_pos hc, if_pos (hcd.mp hc)]
    exact htrue hc
  · rw [if_neg hc, if_neg fun hd => hc (hcd.mpr hd)]
    exact hfalse hc

/-- A run beside itself: what counts is each of its ends. -/
theorem alike_self {x : ExceptT ε (StateM σ) α} {Q : α → α → σ → σ → Prop}
    {E : ε → σ → σ → Prop} (hret : ∀ a s', Returns x s a s' → Q a a s' s')
    (hhalt : ∀ h s', Ends x s (.error h) s' → E h s' s') : Alike x s x s Q E := by
  intro r s' r' t' hends hends'
  obtain ⟨rfl, rfl⟩ := Ends.unique hends hends'
  cases r with
  | ok a => exact hret a s' hends
  | error h => exact ⟨rfl, hhalt h s' hends⟩

end

/-! ### Runs in step -/

section

/-- Started in related states, the runs return the same or stop for the same reason, and the
states are still related. -/
def InStep (W : σ → σ → Prop) (E : ε → Prop) (x y : ExceptT ε (StateM σ) α) : Prop :=
  ∀ ⦃s t⦄, W s t →
    Alike x s y t (fun a b s' t' => a = b ∧ W s' t') (fun h s' t' => E h ∧ W s' t')

variable {W : σ → σ → Prop} {E : ε → Prop} {x y : ExceptT ε (StateM σ) α}
  {f g : α → ExceptT ε (StateM σ) β}

/-- Returning one value keeps two states in step. -/
theorem inStep_pure (a : α) : InStep W E (pure a : ExceptT ε (StateM σ) α) (pure a) :=
  fun _ _ h => alike_pure ⟨rfl, h⟩

theorem inStep_throw {halt : ε} (h : E halt) :
    InStep W E (throw halt : ExceptT ε (StateM σ) α) (throw halt) :=
  fun _ _ hw => alike_throw ⟨h, hw⟩

/-- **Runs in step go on in step.** -/
theorem InStep.bind (hx : InStep W E x y) (hf : ∀ a, InStep W E (f a) (g a)) :
    InStep W E (x >>= f) (y >>= g) := by
  intro s t h
  refine (hx h).bind ?_
  rintro a _ s' t' ⟨rfl, h'⟩
  exact hf a h'

/-- Changes that keep two states in step. -/
theorem inStep_modify {u v : σ → σ} (h : ∀ s t, W s t → W (u s) (v t)) :
    InStep W E (modify u : ExceptT ε (StateM σ) PUnit) (modify v) :=
  fun s t hw => alike_modify ⟨rfl, h s t hw⟩

/-- **A run is in step with itself** where each of its ends keeps a property of the state. -/
theorem inStep_self {I : σ → Prop} (h : Within .any (fun s s' => I s → I s') x) :
    InStep (fun s t => s = t ∧ I s) (fun _ : ε => True) x x := by
  rintro s _ ⟨rfl, hs⟩
  exact alike_self (fun a s' hret => ⟨rfl, rfl, h hret trivial hs⟩)
    fun halt s' hend => ⟨trivial, rfl, h hend trivial hs⟩

end

/-! ### Primitives of machine runs -/

namespace Run

variable {W : HostState → HostState → Prop} {E : Halt → Prop}

/-- An error that is allowed keeps two states in step. -/
theorem inStep_fail (h : E (.error why)) : InStep W E (fail why : Run α) (fail why) :=
  inStep_throw h

/-- A requirement met on both sides or on neither. -/
theorem inStep_require (o : Option α) (h : o = none → E (.error why)) :
    InStep W E (require why o) (require why o) := by
  cases o with
  | none => exact inStep_fail (h rfl)
  | some a => exact inStep_pure a

theorem inStep_ofExcept {r : Except HostError α}
    (h : ∀ why, r = .error why → E (.error why)) : InStep W E (ofExcept r) (ofExcept r) := by
  cases r with
  | error why => exact inStep_fail (h why rfl)
  | ok a => exact inStep_pure a

end Run

end Resumable
