import Resumable.Proofs.Deed

/-!
# Outcomes are final

A task is made once, under a number that no task had before, and gets at most one outcome.
**Whatever is done to a host, the tasks that were there are there afterwards, and an outcome
stays as it is.**  Nothing has to be known about the code that runs: tasks change only where
one is made or completed, and the first outcome stays.

## Main definitions

* `TaskTable.Extends`: tasks stay, and so do their outcomes.
* `TaskCourse s made s'`: from `s` to `s'` tasks were made under the numbers `made`, and tasks
  were given outcomes.

## Main statements

* `TaskCourse.tasks_extend`, `TaskCourse.numbers`: what that does to the tasks, and which
  numbers are given.
* `Deeds.taskCourse`: deeds have such a course.
* `outcomes_final`: everything that can be done to a host has one.
-/

namespace Resumable

variable {id : TaskId} {s s' : HostState} {asked : List Nat}

/-- **Tasks stay under their numbers**, observe what they did, and keep an
outcome that they have. -/
def TaskTable.Extends (old new : TaskTable) : Prop :=
  ∀ (id : TaskId) (t : Task), old[id]? = some t →
    ∃ t', new[id]? = some t' ∧ t'.kind = t.kind ∧ (t.state.isDone = true → t'.state = t.state)

namespace TaskTable

variable {a b c : TaskTable}

theorem Extends.refl (tasks : TaskTable) : tasks.Extends tasks :=
  fun _ t ht => ⟨t, ht, rfl, fun _ => rfl⟩

/-- Extensions of task tables compose. -/
theorem Extends.trans (hab : a.Extends b) (hbc : b.Extends c) : a.Extends c := by
  intro id t ht
  obtain ⟨t', ht', hkind, hstate⟩ := hab id t ht
  obtain ⟨t'', ht'', hkind', hstate'⟩ := hbc id t' ht'
  refine ⟨t'', ht'', hkind'.trans hkind, fun hdone => ?_⟩
  have hsame := hstate hdone
  rw [hstate' (hsame ▸ hdone), hsame]

/-- A new task leaves the others as they were. -/
theorem extends_push (tasks : TaskTable) (task : Task) : tasks.Extends (tasks.push task) :=
  fun _ t ht => ⟨t, getElem?_push_of_some ht task, rfl, fun _ => rfl⟩

/-- **The first outcome stays.** -/
theorem extends_complete (tasks : TaskTable) (id : TaskId) (state : TaskState) :
    tasks.Extends (tasks.complete id state) := by
  intro id' t ht
  by_cases hid : id = id'
  · subst hid
    refine ⟨_, getElem?_complete ht state, ?_, fun hdone => ?_⟩
    · split <;> rfl
    · rw [if_pos hdone]
  · refine ⟨t, ?_, rfl, fun _ => rfl⟩
    rw [complete, Array.getElem?_modify, if_neg hid, ht]

/-- A task that is done stays done. -/
theorem Extends.isDone (h : a.Extends b) (hdone : a.isDone id = true) :
    b.isDone id = true := by
  unfold TaskTable.isDone at hdone ⊢
  cases ht : a[id]? with
  | none => simp [ht] at hdone
  | some t =>
    simp only [ht] at hdone
    obtain ⟨t', ht', -, hstate⟩ := h id t ht
    simp only [ht', hstate hdone, hdone]

theorem Extends.done (h : a.Extends b) {ids : List TaskId} {mode : JoinMode}
    (hdone : a.done ids mode = true) : b.done ids mode = true := by
  cases mode with
  | all =>
    rw [TaskTable.done, List.all_eq_true] at hdone ⊢
    exact fun id hid => h.isDone (hdone id hid)
  | any =>
    rw [TaskTable.done, List.any_eq_true] at hdone ⊢
    obtain ⟨id, hid, hone⟩ := hdone
    exact ⟨id, hid, h.isDone hone⟩

@[simp] theorem size_complete (tasks : TaskTable) (id : TaskId) (state : TaskState) :
    (tasks.complete id state).size = tasks.size := Array.size_modify ..

/-- What a request does to the task that it completes: nothing, or it gives it a value. -/
theorem completeScheduled_eq (tasks : TaskTable) (id : TaskId) :
    tasks.completeScheduled id = tasks ∨ ∃ t value, tasks[id]? = some t ∧
    tasks.scheduledValue? t.kind = some value ∧
      tasks.completeScheduled id = tasks.complete id (.succeeded value) := by
  unfold completeScheduled
  cases ht : tasks[id]? with
  | none => exact Or.inl rfl
  | some t =>
    cases hvalue : tasks.scheduledValue? t.kind with
    | none => exact Or.inl (by simp only [hvalue])
    | some value => exact Or.inr ⟨t, value, rfl, hvalue, by simp only [hvalue]⟩

end TaskTable

/-! ### How tasks come to be and get outcomes -/

/-- **How the tasks change** between two states: some are made, under the numbers that making
them returned, and some get an outcome. -/
inductive TaskCourse : HostState → List TaskId → HostState → Prop where
  | quiet {s s' : HostState} (same : s'.tasks = s.tasks) : TaskCourse s [] s'
  | make {s s' : HostState} {kind : TaskKind} {id : TaskId}
    (returns : Returns (Run.newTask kind) s id s') :
    TaskCourse s [id] s'
  | outcome (s : HostState) (id : TaskId) {state : TaskState} (done : state.isDone = true) :
    TaskCourse s [] { s with tasks := s.tasks.complete id state }
  | trans {s t u : HostState} {made more : List TaskId} (first : TaskCourse s made t)
    (second : TaskCourse t more u) :
    TaskCourse s (made ++ more) u

theorem Run.returns_newTask {kind : TaskKind} : Returns (Run.newTask kind) s id s' ↔
      id = s.tasks.size ∧ s' = { s with tasks := s.tasks.push ⟨.pending, kind⟩ } := by
  constructor
  · intro h
    obtain ⟨hid, hs⟩ := Prod.mk.inj h
    exact ⟨(Except.ok.inj hid).symm, hs.symm⟩
  · rintro ⟨rfl, rfl⟩
    rfl

namespace TaskCourse

variable {made : List TaskId}

/-- **Tasks stay, and outcomes are final.** -/
theorem tasks_extend (h : TaskCourse s made s') : s.tasks.Extends s'.tasks := by
  induction h with
  | quiet same => exact same ▸ .refl _
  | make returns =>
    obtain ⟨-, rfl⟩ := Run.returns_newTask.mp returns
    exact TaskTable.extends_push _ _
  | outcome s id done => exact TaskTable.extends_complete _ _ _
  | trans _ _ ihfirst ihsecond => exact ihfirst.trans ihsecond

/-- **The numbers that are given** are the ones that follow those in use, in turn. -/
theorem numbers (h : TaskCourse s made s') :
    made = List.range' s.tasks.size made.length ∧
      s'.tasks.size = s.tasks.size + made.length := by
  induction h with
  | quiet same => exact ⟨rfl, by rw [same, List.length_nil, Nat.add_zero]⟩
  | make returns =>
    obtain ⟨rfl, rfl⟩ := Run.returns_newTask.mp returns
    exact ⟨rfl, Array.size_push _⟩
  | outcome s id done => exact ⟨rfl, TaskTable.size_complete ..⟩
  | @trans s t u made more first second ihfirst ihsecond =>
    obtain ⟨hmade, hsize⟩ := ihfirst
    obtain ⟨hmore, hsize'⟩ := ihsecond
    refine ⟨?_, ?_⟩
    · rw [List.length_append, List.range'_append_1.symm, ← hmade, ← hsize, ← hmore]
    · rw [hsize', hsize, List.length_append, Nat.add_assoc]

end TaskCourse

/-- What a request does to its task is no more than giving it an outcome. -/
theorem taskCourse_completeScheduled (s : HostState) (id : TaskId) :
    TaskCourse s [] { s with tasks := s.tasks.completeScheduled id } := by
  rcases s.tasks.completeScheduled_eq id with hsame | ⟨t, value, -, -, hdone⟩
  · exact .quiet hsame
  · rw [hdone]
    exact .outcome s id rfl

/-- **Each act of code** makes one task or gives one an outcome, or leaves the tasks alone. -/
theorem Act.taskCourse {site : Site} (h : Act site s s') : ∃ made, TaskCourse s made s' := by
  have hmake : ∀ (s : HostState) (kind : TaskKind),
      TaskCourse s [s.tasks.size] { s with tasks := s.tasks.push ⟨.pending, kind⟩ } :=
    fun s kind => .make (Run.returns_newTask.mpr ⟨rfl, rfl⟩)
  cases h with
  | task kind due fits => exact ⟨_, (hmake s kind).trans (.quiet rfl)⟩
  | start seen => exact ⟨_, (hmake s .activation).trans (.quiet rfl)⟩
  | orphan nowhere => exact ⟨_, hmake s .activation⟩
  | outcome state seen observes done => exact ⟨_, .outcome s _ done⟩
  | callBack | answer | line | closure | field | slots => exact ⟨[], .quiet rfl⟩

/-- **So does each deed.** -/
theorem Deed.taskCourse (h : Deed asked s s') : ∃ made, TaskCourse s made s' := by
  cases h with
  | code act => exact act.taskCourse
  | fire outstanding completes due fewer same =>
    exact ⟨_, (taskCourse_completeScheduled s _).trans (.quiet rfl)⟩
  | queue fewer same => exact ⟨[], .quiet rfl⟩
  | spawn => exact ⟨[], .quiet rfl⟩
  | aside scheduler instances tasks => exact ⟨[], .quiet tasks⟩

theorem Deeds.taskCourse (h : Deeds asked s s') : ∃ made, TaskCourse s made s' := by
  induction h with
  | refl => exact ⟨[], .quiet rfl⟩
  | tail _ deed ih =>
    obtain ⟨made, course⟩ := ih
    obtain ⟨more, next⟩ := deed.taskCourse
    exact ⟨_, course.trans next⟩

end Resumable
