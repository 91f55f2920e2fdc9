import Mathlib.Logic.Relation
import Resumable.Proofs.Upholding

/-!
# What any code does

Code runs on one instance, and so does whatever it calls.  **Each act of code is one of ten**,
and where it touches an instance, a call back or a line of the log, these belong to the
instance it runs on.  This holds of the code of every machine, whoever wrote it, and of runs
that stop half-way as well as of those that return.

## Main definitions

* `Acts owner`: any number of acts of code on an instance, in turn.
* `Confined owner x`: however the run ends, it has done acts of code on the
  instance and nothing else.

## Main statements

* `stable_acts`: having been reached by acts of code is upheld by code.
* `confined_runProcedure`, `acts_of_runClosure`: procedures and closures are confined, with
  everything they call.
* `Acts.invariant`: what each act keeps, acts keep.
-/

namespace Resumable

variable {owner : InstanceId} {a b s s' : HostState} {image : Image} {id : ClosureId}
  {r : Except Halt Value}

/-- Any number of acts on an instance in turn. -/
def Acts (owner : InstanceId) : HostState → HostState → Prop :=
  Relation.ReflTransGen fun s s' => ∃ site : Site, site.owner = owner ∧ Act site s s'

theorem Acts.refl (s : HostState) : Acts owner s s := Relation.ReflTransGen.refl

/-- **What each act keeps, acts keep.** -/
theorem Acts.invariant {I : HostState → Prop}
    (step : ∀ {site : Site} {a b}, site.owner = owner → Act site a b → I a → I b)
    (h : Acts owner a b) (ha : I a) : I b := by
  induction h with
  | refl => exact ha
  | tail _ hstep ih =>
    obtain ⟨site, hsite, act⟩ := hstep
    exact step hsite act ih

/-- However the run ends, it has done acts of code on the instance and nothing else. -/
abbrev Confined {α : Type} (owner : InstanceId) (x : Run α) : Prop :=
  Within .any (Acts owner) x

section

variable {α β : Type} {x : Run α}

/-- A confined run is a sequence of acts. -/
theorem Confined.acts (hx : Confined owner x) {r : Except Halt α} (h : Ends x s r s') :
    Acts owner s s' := hx h trivial

theorem Confined.bind {f : α → Run β} (hx : Confined owner x)
    (hf : ∀ a, Confined owner (f a)) :
    Confined owner (x >>= f) := within_bind .trans hx hf

theorem confined_pure (a : α) : Confined owner (pure a : Run α) :=
  (silent_pure a).within Acts.refl

/-- What is upheld from every start relates the start and the end. -/
theorem acts_of_upholds {r : Except Halt α}
    (hx : Upholds (Acts owner s) (fun _ => Acts owner s) x) (h : Ends x s r s') :
    Acts owner s s' := by
  have hlanded := hx h (.refl s)
  cases r with
  | ok a => exact hlanded
  | error halt => exact hlanded

end

/-- **Having been reached by acts of code** is upheld by code. -/
theorem stable_acts (site : Site) (start : HostState) :
    Stable site (Acts site.owner start) fun _ => Acts site.owner start where
  ordinary _ _ _ hs := hs
  acts act _ hs := hs.tail ⟨site, rfl, act⟩
  answer own _ hs := hs.tail ⟨site, rfl, .answer _ _ _ own⟩
  closure _ _ _ hs := hs.tail ⟨site, rfl, .closure _ _ rfl⟩
  slots _ _ := Or.inr fun _ _ hs => hs
  machine _ _ _ _ hs := hs

theorem upholds_acts (image : Image) (fuel : Nat) (owner : InstanceId) (start : HostState)
    (index : ProcIndex) (args : List Value) :
    Upholds (Acts owner start) (fun _ => Acts owner start)
      (runProcedure image fuel index owner args) :=
  upholds_runProcedure (fun _ _ _ hs => hs) (fun _ => stable_acts _ start) fuel index args

/-- **Calling a procedure on an instance** is confined to the instance, with
whatever it calls. -/
theorem confined_runProcedure (image : Image) (fuel : Nat) (index : ProcIndex)
    (owner : InstanceId) (args : List Value) :
    Confined owner (runProcedure image fuel index owner args) :=
  fun s _ _ hend _ => acts_of_upholds (upholds_acts image fuel owner s index args) hend

/-- **Calling a closure** is confined to the instance on which it was made. -/
theorem acts_of_runClosure {fuel : Nat} {c : Closure} (found : s.closures[id]? = some c)
    (h : Ends (runClosure image fuel id) s r s') : Acts c.owner s s' := by
  unfold runClosure at h
  rw [ends_get_bind] at h
  cases loaded : image.programs[c.program]? with
  | none =>
    simp only [found, loaded] at h
    rw [silent_throw _ h]
    exact .refl s
  | some program =>
    simp only [found, loaded] at h
    have hblock := (stable_acts ⟨image, c.program, program, c.owner⟩ s).execBlock
      (upholds_acts image fuel c.owner s) fuel c.body
        (fun _ _ _ _ hs => hs) ⟨c.params, c.locals⟩
    exact acts_of_upholds (upholds_bind hblock fun _ =>
      Ordinary.returned (fun _ _ _ hs => hs) _) h

/-- Without a closure to call nothing is done. -/
theorem eq_of_runClosure {fuel : Nat} (missing : s.closures[id]? = none)
    (h : Ends (runClosure image fuel id) s r s') : s' = s := by
  unfold runClosure at h
  rw [ends_get_bind] at h
  simp only [missing] at h
  exact Run.silent_fail _ h

end Resumable
