import Resumable.Proofs.Soundness

/-!
# Names of loaded procedures

A machine brings the names of its two procedures into an image.  Loading compares both
with the names that are there, so **no name is used by two machines**, whatever was loaded
in whatever order.  It does not compare them with each other: of a machine with one name
for both, the entry cannot be called.  Nor does it look at the name of the source
procedure, under which a handle is asked for: of two machines with the same one, only the
first can be resumed by it.

## Main definitions

* `Image.Distinct`: no name is used by two machines.
* `Host.loadEach`: the host after machines were loaded, each of them if it could be.

## Main statements

* `Host.distinct_loadEach`: no name is used by two machines that were loaded.
* `names_after_loading`: what names and handles stand for, after any loads.
* `namesake_loaded`: a machine with one name for both of its procedures.
-/

namespace Resumable

variable {program : Program} {host : Host}

/-- The names of the procedures of a program. -/
def Program.procNames (program : Program) : List Name :=
  [program.machine.entry.name, program.machine.dispatch.name]

/-- No name is used by two machines. -/
def Image.Distinct (image : Image) : Prop :=
  ∀ ⦃i j : Nat⦄ ⦃P Q : Program⦄ ⦃name : Name⦄, image.programs[i]? = some P →
    image.programs[j]? = some Q →
    name ∈ P.procNames → name ∈ Q.procNames → i = j

/-- The host after machines were loaded in turn.  What cannot be loaded is left out. -/
def Host.loadEach (host : Host) (machines : List Machine) : Host :=
  machines.foldl (fun host m => (Host.load m host).2) host

section

variable {image : Image} {k : Nat} {name : Name}

/-- A program is found by a key where no other one before it has the key. -/
theorem findIdx?_programs_iff {α : Type} [BEq α] [LawfulBEq α] (key : Program → α)
    (h : image.programs[k]? = some program) :
    image.programs.findIdx? (fun p => key p == key program) = some k ↔
      ∀ j other, j < k → image.programs[j]? = some other → key other ≠ key program := by
  obtain ⟨hlt, rfl⟩ := Array.getElem?_eq_some_iff.mp h
  rw [Array.findIdx?_eq_some_iff_getElem]
  constructor
  · rintro ⟨_, _, hbefore⟩ j other hj hother heq
    obtain ⟨_, rfl⟩ := Array.getElem?_eq_some_iff.mp hother
    exact hbefore j hj (beq_iff_eq.mpr heq)
  · exact fun hbefore => ⟨hlt, beq_self_eq_true _,
      fun j hj hsame => hbefore j _ hj (Array.getElem?_eq_getElem _) (eq_of_beq hsame)⟩

theorem not_mem_procNames (free : (image.procedure? name).isSome = false)
    (h : image.programs[k]? = some program) : name ∉ program.procNames := by
  have hmem := Array.mem_of_getElem? h
  unfold Image.procedure? at free
  split at free
  case h_1 => cases free
  case h_2 hdispatch =>
    rw [Option.isSome_map, Option.isSome_eq_false_iff, Option.isNone_iff_eq_none] at free
    have hentry := Array.findIdx?_eq_none_iff.mp free program hmem
    have hdispatch := Array.findIdx?_eq_none_iff.mp hdispatch program hmem
    simp only [beq_eq_false_iff_ne] at hentry hdispatch
    simp [Program.procNames, Ne.symm hentry, Ne.symm hdispatch]

/-- **Loading keeps names distinct.** -/
theorem Host.distinct_load (distinct : host.image.Distinct) (m : Machine) :
    (Host.load m host).2.image.Distinct := by
  rcases Host.load_cases host m with ⟨why, hload, -⟩ | ⟨-, hfree, text, hload⟩ <;> rw [hload]
  · exact distinct
  intro i j P Q name hi hj hP hQ
  have hsize : ∀ {k : Nat} {R : Program}, (host.image.programs.push ⟨text, m⟩)[k]? = some R →
      host.image.programs[k]? = none → k = host.image.programs.size := by
    intro k R hk hnone
    have hlt := (Array.getElem?_eq_some_iff.mp hk).1
    rw [Array.size_push] at hlt
    exact Nat.le_antisymm (Nat.le_of_lt_succ hlt) (Array.getElem?_eq_none_iff.mp hnone)
  rcases getElem?_push_cases hi with holdi | ⟨hnonei, rfl⟩ <;>
    rcases getElem?_push_cases hj with holdj | ⟨hnonej, rfl⟩
  · exact distinct holdi holdj hP hQ
  · exact absurd hP (not_mem_procNames (hfree name hQ) holdi)
  · exact absurd hQ (not_mem_procNames (hfree name hP) holdj)
  · rw [hsize hi hnonei, hsize hj hnonej]

/-- **Whatever was loaded, no name is used by two machines.** -/
theorem Host.distinct_loadEach (none : host.image.programs = #[]) (machines : List Machine) :
    (host.loadEach machines).image.Distinct := by
  have hstep : ∀ host : Host, host.image.Distinct →
    (host.loadEach machines).image.Distinct := by
    induction machines with
    | nil => exact fun host distinct => distinct
    | cons m rest ih => exact fun host distinct => ih _ (distinct_load distinct m)
  refine hstep host fun i j P Q name hi => ?_
  rw [none] at hi
  cases hi

variable (distinct : image.Distinct) (h : image.programs[k]? = some program)

include distinct h

/-- **The name of a dispatch** stands for it. -/
theorem procedure?_dispatch :
    image.procedure? program.machine.dispatch.name = some (procIndex k .dispatch) := by
  have hindex : image.programs.findIdx? (fun p =>
    p.machine.dispatch.name == program.machine.dispatch.name) = some k := by
    refine (findIdx?_programs_iff (·.machine.dispatch.name) h).mpr fun j Q hj hQ heq =>
      Nat.ne_of_lt hj ?_
    exact distinct hQ h (heq ▸ List.mem_cons_of_mem _ List.mem_cons_self)
      (List.mem_cons_of_mem _ List.mem_cons_self)
  rw [Image.procedure?, hindex]

/-- **The name of an entry** stands for it, unless the dispatch of the machine
has the same name. -/
theorem procedure?_entry
    (differ : program.machine.entry.name ≠ program.machine.dispatch.name) :
    image.procedure? program.machine.entry.name = some (procIndex k .entry) := by
  have hentry : program.machine.entry.name ∈ program.procNames := List.mem_cons_self
  have hindex : image.programs.findIdx? (fun p =>
    p.machine.entry.name == program.machine.entry.name) = some k := by
    refine (findIdx?_programs_iff (·.machine.entry.name) h).mpr fun j Q hj hQ heq =>
      Nat.ne_of_lt hj ?_
    exact distinct hQ h (heq ▸ List.mem_cons_self) hentry
  have hnone : image.programs.findIdx? (fun p =>
    p.machine.dispatch.name == program.machine.entry.name) = none := by
    refine Array.findIdx?_eq_none_iff.mpr fun Q hQ => beq_eq_false_iff_ne.mpr fun heq => ?_
    obtain ⟨j, hj⟩ := Array.getElem?_of_mem hQ
    obtain rfl := distinct hj h (heq ▸ List.mem_cons_of_mem _ List.mem_cons_self) hentry
    obtain rfl := Option.some.inj (hj.symm.trans h)
    exact differ heq.symm
  rw [Image.procedure?, hnone, hindex]
  rfl

end

/-- **What names and handles stand for**, after machines were loaded into a host without
machines.  The name of a dispatch stands for it, and that of an entry for the entry exactly if
the two differ; the machine's own code finds its dispatch; no name is used by two machines;
and the name of the source procedure stands for the first machine that was made from a
procedure of this name. -/
theorem names_after_loading (none : host.image.programs = #[]) (machines : List Machine)
    {k : Nat} (loaded : (host.loadEach machines).image.programs[k]? = some program) :
    let image := (host.loadEach machines).image
    image.procedure? program.machine.dispatch.name = some (procIndex k .dispatch) ∧
      (image.procedure? program.machine.entry.name = some (procIndex k .entry) ↔
        program.machine.entry.name ≠ program.machine.dispatch.name) ∧
      (∀ role, image.proc? (procIndex k role) = some (k, program, role)) ∧
      (∀ owner, Site.ownDispatch ⟨image, k, program, owner⟩ program.machine.dispatch.name =
        return procIndex k .dispatch) ∧
      (∀ j other name, image.programs[j]? = some other → name ∈ program.procNames →
        name ∈ other.procNames → j = k) ∧
      (image.program program.name = .ok k ↔ ∀ j other, j < k →
        image.programs[j]? = some other →
        other.name ≠ program.name) := by
  have distinct := Host.distinct_loadEach none machines
  have hdispatch := procedure?_dispatch distinct loaded
  refine ⟨hdispatch, ⟨fun hentry heq => ?_, procedure?_entry distinct loaded⟩,
    proc?_procIndex loaded, fun owner => if_pos rfl, fun j other name hj hname hother =>
      distinct hj loaded hother hname, ?_⟩
  · rw [heq, hdispatch] at hentry
    have hindex : 2 * k + 1 = 2 * k := Option.some.inj hentry
    omega
  · rw [← findIdx?_programs_iff Program.name loaded, Image.program]
    cases hfound : (host.loadEach machines).image.programs.findIdx? fun p =>
      p.name == program.name <;> simp

/-- A machine with one name for both of its procedures. -/
def namesake : Machine :=
  { Handmade.machine with entry := { Handmade.machine.entry with name := ⟨2⟩ } }

/-- **A machine with one name for both** is loaded, and its entry cannot be called. -/
theorem namesake_loaded : let image :=
  ((Host.new Handmade.names ⟨1.0, 10⟩).loadEach [namesake]).image
    image.programs.map Program.name = #["Hand"] ∧
      image.procedure? namesake.entry.name = some (procIndex 0 .dispatch) := by
  decide +kernel

end Resumable
