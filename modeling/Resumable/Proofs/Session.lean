import Resumable.Proofs.Command
import Resumable.Proofs.Lockstep

/-!
# Sessions with a host

What a user of a host can do: perform commands and ask questions, in any order, whatever
the answers are.  An operation that fails leaves what it did before, and the session
goes on from there.

## Main definitions

* `Query`: the operations that look at a host.
* `Reply`: what operations return.
* `Command.reply`, `Query.answer`: performing a command or a query, with what it returns.
* `Operation`, `Host.after`: the host after operations, those that failed included.
* `HostError.isStructural`: the errors of code that is not well put together.

## Main statements

* `Query.silent_answer`: a query changes nothing.
* `alike_run`, `alike_look`: operations on two hosts, from what they do to the states.
-/

namespace Resumable

open Machine (TaskStatus)

/-! ### Operations -/

/-- An operation that looks at a host. -/
inductive Query where
  | config
  | resumeHandle (owner : InstanceId) (procedure : String)
  | field (owner : InstanceId) (field : String)
  | slotValue (owner : InstanceId) (procedure slot : String)
  | stateIndex (owner : InstanceId) (procedure : String)
  | status (owner : InstanceId) (procedure : String)
  | taskState (task : Value)
  | messages
  | messagesOf (owner : InstanceId)

/-- What an operation returns. -/
inductive Reply where
  | done
  | spawned (id : InstanceId)
  | value (v : Value)
  | fired (count : Nat)
  | handle (handle : ResumeHandle)
  | content (v : Option Value)
  | state (number : Int64)
  | status (status : Option TaskStatus)
  | task (state : Option TaskState)
  | lines (lines : List String)
  | config (config : HostConfig)

/-- Ask a query. -/
def Query.answer : Query → Hosted Reply
  | .config => Host.look fun host => .ok (.config host.state.config)
  | .resumeHandle owner procedure => do return .handle (← Host.resumeHandle owner procedure)
  | .field owner name => do return .content (← Host.field owner name)
  | .slotValue owner procedure slot =>
    do return .value (← Host.slotValue owner procedure slot)
  | .stateIndex owner procedure => do return .state (← Host.stateIndex owner procedure)
  | .status owner procedure => do return .status (← Host.status owner procedure)
  | .taskState task => Host.look fun host => .ok (.task (host.taskState task))
  | .messages => Host.look fun host => .ok (.lines host.messages)
  | .messagesOf owner => Host.look fun host => .ok (.lines (host.messagesOf owner))

/-- Perform a command, with what it returns. -/
def Command.reply (fuel : Nat) : Command → Hosted Reply
  | .load m => do
    Host.load m
    return .done
  | .spawn => do return .spawned (← Host.spawn)
  | .register name answer => do
    Host.register name answer
    return .done
  | .call owner procedure args => do return .value (← Host.call fuel owner procedure args)
  | .resume handle => do
    Host.resume fuel handle
    return .done
  | .callClosure closure => do return .value (← Host.callClosure fuel closure)
  | .newToken => do return .value (← Host.newToken)
  | .cancel token => do
    Host.cancel token
    return .done
  | .setField owner field value => do
    Host.setField owner field value
    return .done
  | .advanceFrame => do return .fired (← Host.advanceFrame fuel)
  | .advanceSeconds seconds => do return .fired (← Host.advanceSeconds fuel seconds)
  | .firePending index => do
    Host.firePending fuel index
    return .done
  | .fireTimers => do return .fired (← Host.fireTimers fuel)
  | .runUntilIdle => do return .fired (← Host.runUntilIdle fuel)

/-- An operation of a session.  A command has its own bound on the depth of calls and the
length of loops. -/
inductive Operation where
  | perform (fuel : Nat) (command : Command)
  | ask (query : Query)

/-- Perform an operation. -/
def Operation.run : Operation → Hosted Reply
  | .perform fuel command => command.reply fuel
  | .ask query => query.answer

/-- The host after an operation, whether it returned or failed. -/
def Operation.after (operation : Operation) (host : Host) : Host :=
  (show Except Halt Reply × Host from operation.run host).2

/-- The host after operations, those that failed included. -/
def Host.after (host : Host) (operations : List Operation) : Host :=
  operations.foldl (fun host operation => operation.after host) host

theorem Operation.ends_after (operation : Operation) (host : Host) :
    ∃ r, Ends operation.run host r (operation.after host) := ⟨_, rfl⟩

/-! ### Errors -/

/-- Does the error say that code is not well put together?  Such an error names something that
the code refers to and that is not there, and is not the fault of a value. -/
def HostError.isStructural : HostError → Bool
  | .missingParam _ | .uninitializedLocal | .strayLoopControl | .foreignDispatch ..
  | .unknownSlot .. | .errorNode | .taskNotDone => true
  | .invalidMachine .. | .duplicateProcedure _ | .unknownProcedure _ | .unknownFunction _
  | .unknownInstance _ | .unknownField _ | .arityMismatch .. | .typeMismatch ..
  | .divisionByZero | .runawaySchedule _ | .neverIdle _ | .noPendingRequest _
  | .function .. => false

/-- Does the run end because code is not well put together? -/
def Halt.isStructural : Halt → Bool
  | .error why => why.isStructural
  | .absentNode => true
  | .outOfFuel => false

variable {op : BinaryOp} {why : HostError} {a b : Value}

/-- An operator fails because of its operands only. -/
theorem isStructural_intOp {a b : Int64} (h : intOp op a b = .error why) :
    why.isStructural = false := by
  unfold intOp at h
  cases op
  case div | rem =>
    dsimp only at h
    split at h
    · rw [← Except.error.inj h]
      rfl
    · cases h
  case and | or =>
    rw [← Except.error.inj h]
    rfl
  all_goals cases h

theorem isStructural_floatOp {a b : Float} (h : floatOp op a b = .error why) :
    why.isStructural = false := by
  unfold floatOp at h
  cases op
  case and | or =>
    rw [← Except.error.inj h]
    rfl
  all_goals cases h

theorem isStructural_mixedOp (h : mixedOp op a b = .error why) :
    why.isStructural = false := by
  unfold mixedOp at h
  split at h
  · exact isStructural_floatOp h
  all_goals
    rw [← Except.error.inj h]
    rfl

theorem isStructural_logicOp {combine : Bool → Bool → Bool}
    (h : logicOp combine a b = .error why) : why.isStructural = false := by
  unfold logicOp at h
  split at h
  · cases h
  all_goals
    rw [← Except.error.inj h]
    rfl

/-- That an operator fails is the fault of a value. -/
theorem isStructural_binaryOp (h : binaryOp op a b = .error why) :
    why.isStructural = false := by
  unfold binaryOp at h
  split at h
  case h_3 | h_4 => exact isStructural_logicOp h
  case h_5 => exact isStructural_intOp h
  case h_7 => exact isStructural_mixedOp h
  all_goals cases h

theorem isStructural_unaryOp {op : UnaryOp} {v : Value} (h : unaryOp op v = .error why) :
    why.isStructural = false := by
  unfold unaryOp at h
  split at h
  case h_4 | h_5 =>
    rw [← Except.error.inj h]
    rfl
  all_goals cases h

/-! ### Queries change nothing -/

section

variable {α : Type}

theorem silent_look (view : Host → Except HostError α) : Silent (Host.look view) := by
  intro host r host' h
  unfold Host.look Ends at h
  cases hview : view host with
  | ok a =>
    simp only [hview] at h
    exact (Prod.mk.inj h).2.symm
  | error why =>
    simp only [hview] at h
    exact (Prod.mk.inj h).2.symm

theorem silent_run {action : Image → Run α} (h : ∀ image, Silent (action image)) :
    Silent (Host.run action) := by
  rintro ⟨image, s⟩ r host' hend
  have hpair : ((action image s).1, Host.mk image (action image s).2) = (r, host') := hend
  obtain ⟨-, rfl⟩ := Prod.mk.inj hpair
  exact congrArg (Host.mk image) (h image (r := (action image s).1) rfl)

/-- Looking up a program touches nothing. -/
theorem silent_programOf (image : Image) (procedure : String) :
    Silent (Host.programOf image procedure) := by
  refine silent_bind (Run.silent_ofExcept _) fun position => ?_
  cases image.programs[position]? with
  | some program => exact silent_pure _
  | none => exact Run.silent_fail _

/-- **A query changes nothing.** -/
theorem Query.silent_answer (query : Query) : Silent query.answer := by
  have hcontent : ∀ owner position program slot,
      Silent (Host.slotContent owner position program slot) :=
        fun owner position program slot =>
    silent_bind (Run.silent_storage _ _ _) fun _ => silent_pure _
  cases query with
  | config | taskState | messages | messagesOf =>
    unfold Query.answer
    exact silent_look _
  | resumeHandle owner procedure => exact silent_bind (silent_look _) fun _ => silent_pure _
  | field owner field =>
    refine silent_bind (silent_run fun image => ?_) fun _ => silent_pure _
    exact silent_bind (Run.silent_theInstance owner) fun _ => silent_pure _
  | slotValue owner procedure slot =>
    refine silent_bind (silent_run fun image => ?_) fun _ => silent_pure _
    exact silent_bind (silent_programOf image procedure) fun _ =>
      silent_bind (Run.silent_require _ _) fun _ => hcontent _ _ _ _
  | stateIndex owner procedure =>
    refine silent_bind (silent_run fun image => ?_) fun _ => silent_pure _
    exact silent_bind (silent_programOf image procedure) fun _ =>
      silent_bind (hcontent _ _ _ _) fun _ => Run.silent_require _ _
  | status owner procedure =>
    refine silent_bind (silent_run fun image => ?_) fun _ => silent_pure _
    exact silent_bind (silent_programOf image procedure) fun _ =>
      silent_bind (hcontent _ _ _ _) fun _ => silent_pure _

end

/-! ### Operations on two hosts -/

section

variable {α β : Type} {left right : Host} {Q : α → β → Host → Host → Prop}
  {E : Halt → Host → Host → Prop}

/-- **Runs on two hosts** end alike when they do so on the states. -/
theorem alike_run {x : Image → Run α} {y : Image → Run β}
    (h : Alike (x left.image) left.state (y right.image) right.state
      (fun a b s t => Q a b ⟨left.image, s⟩ ⟨right.image, t⟩)
        (fun halt s t => E halt ⟨left.image, s⟩ ⟨right.image, t⟩)) :
    Alike (Host.run x) left (Host.run y) right Q E := by
  obtain ⟨image, s⟩ := left
  obtain ⟨image', t⟩ := right
  intro r host r' host' hends hends'
  have hpair : ((x image s).1, Host.mk image (x image s).2) = (r, host) := hends
  have hpair' : ((y image' t).1, Host.mk image' (y image' t).2) = (r', host') := hends'
  obtain ⟨rfl, rfl⟩ := Prod.mk.inj hpair
  obtain ⟨rfl, rfl⟩ := Prod.mk.inj hpair'
  have halike := @h (x image s).1 _ (y image' t).1 _ rfl rfl
  generalize (x image s).1 = r at halike ⊢
  generalize (y image' t).1 = r' at halike ⊢
  cases r <;> cases r' <;> exact halike

/-- Looks at two hosts that see the same end alike. -/
theorem alike_look {view view' : Host → Except HostError α} (hview : view left = view' right)
    {Q : α → α → Host → Host → Prop} (hok : ∀ a, view left = .ok a → Q a a left right)
    (herror : ∀ why, view left = .error why → E (.error why) left right) :
    Alike (Host.look view) left (Host.look view') right Q E := by
  have hleft : ∀ (view : Host → Except HostError α) host a, view host = .ok a →
      Returns (Host.look view) host a host :=
        fun view host a h => Host.returns_look.mpr ⟨h, rfl⟩
  have hstop : ∀ (view : Host → Except HostError α) host why, view host = .error why →
      Ends (Host.look view) host (.error (.error why)) host := by
    intro view host why h
    unfold Ends Host.look
    simp only [h]
  cases hv : view left with
  | ok a =>
    exact Returns.alike (hleft _ _ a hv) (hleft _ _ a (hview.symm.trans hv)) (hok a hv)
  | error why =>
    intro r host r' host' hends hends'
    obtain ⟨rfl, rfl⟩ := Ends.unique (hstop _ _ why hv) hends
    obtain ⟨rfl, rfl⟩ := Ends.unique (hstop _ _ why (hview.symm.trans hv)) hends'
    exact ⟨rfl, herror why hv⟩

end

end Resumable
