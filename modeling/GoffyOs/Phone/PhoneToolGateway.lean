import GoffyOs.Lib.Holding
import GoffyOs.Lib.Machine
import GoffyOs.Phone.PhoneTools

/-!
# The gateway to the phone's own tools (`phone/PhoneToolGateway.kt`)

`DefaultPhoneToolGateway.invoke` is a cold flow: every collection of it goes through the authorization
again. A tool that needs a confirmation is executed for a single-use `Approved` object, and for a task
id that was not used before.

* `Collection` is one collection of the flow and `FlowStage` the place it has reached. A step of it is
  what happens between two points at which other collections can come in: the clock, the
  `compareAndSet` of the approval and the `add` to the task ids are steps of their own;
* the events of a run are what each collection did: clock readings, executions and emitted events;
* `executions_authorized`: in any interleaving, executions are authorized, and an approval or the task
  id of a confirmed tool leads to at most one. `safe_tool_repeats`: a safe tool is executed by every
  collection.
-/

namespace GoffyPhone

open Kotlin
open Python (UUID)

/-- `PhoneToolAuthorization.Approved`. -/
structure Approved where
  taskId : UUID
  toolName : Str
  arguments : ToolArguments
  expiresAtEpochMillis : ℤ
  consumed : Bool := false

/-- The comparisons of `consumeFor`. -/
def Approved.fits (a : Approved) (taskId : UUID) (plan : GoffyExecutionPlan) (now : ℤ) : Bool :=
  a.taskId = taskId && a.toolName = plan.toolName && a.arguments = plan.arguments &&
    now < a.expiresAtEpochMillis

/-- A `PhoneToolAuthorization`, where an `Approved` is a reference to the object: the same object may
be passed to several calls. -/
inductive AuthorizationRef
  | safe
  | approved (object : ℕ)
  deriving DecidableEq

/-- How `execute` ends. A `CancellationException` is the cancellation of the collection. -/
inductive SourceOutcome
  | value (content : PhoneContent)
  | timeout
  | exception

/-- What a collection does. -/
inductive Note
  | clock (now : ℤ)
  | execute (call : SourceCall)
  | emit (event : ExecutionEvent PhoneContent)

def unauthorizedError : ExecutionEvent PhoneContent :=
  .error (lit "phone_tool_unauthorized")
    (lit "The requested phone tool is unavailable or unauthorized") false

namespace PhoneToolOperation

/-- The progress of an operation. -/
def progress (op : PhoneToolOperation) (stage : String) (sequence : Int32) (message : Str) :
    ExecutionEvent PhoneContent :=
  .progress ⟨op.toolName, .phone, lit stage, sequence, message⟩

/-- The events before the execution. -/
def announce (op : PhoneToolOperation) : List (ExecutionEvent PhoneContent) :=
  [.starting 1, .ready, op.progress "accepted" 0 op.acceptedMessage]

/-- The events after the execution. -/
def conclude (op : PhoneToolOperation) : SourceOutcome → List (ExecutionEvent PhoneContent)
  | .timeout => [.error (lit "phone_tool_timeout")
      (lit "The local phone tool did not respond before the timeout") false]
  | .exception => [.error (lit "phone_tool_failed") op.failureMessage false]
  | .value content =>
    if op.validate content then
      [op.progress "completed" 1 op.completedMessage, .result op.toolName .phone content,
        op.verification.toEvent]
    else [.error (lit "invalid_tool_output")
      (lit "The local phone tool failed output validation") false]

end PhoneToolOperation

/-- Where a collection is: before the authorization, after the comparisons of its approval, after the
approval was consumed, allowed, after the first events, while the tool is executed, or at its end. -/
inductive FlowStage
  | called
  | compared (tool : PhoneTool) (object : ℕ)
  | consumed (tool : PhoneTool)
  | allowed (op : PhoneToolOperation)
  | announced (op : PhoneToolOperation)
  | executing (op : PhoneToolOperation)
  | finished (op : PhoneToolOperation) (outcome : SourceOutcome)
  | denied
  | cancelled (before : FlowStage)

/-- The collection has come to its end. -/
def FlowStage.ended : FlowStage → Bool
  | .finished _ _ | .denied | .cancelled _ => true
  | _ => false

/-- The collection has come to its end and was not cut off. -/
def FlowStage.completed : FlowStage → Bool
  | .finished _ _ | .denied => true
  | _ => false

/-- The reference is one to an approval that exists. -/
def AuthorizationRef.exists (count : ℕ) : AuthorizationRef → Bool
  | .safe => true
  | .approved object => object < count

/-- A collection of the flow of `invoke`; `clock` is the time its approval was compared with. -/
structure Collection where
  taskId : UUID
  plan : GoffyExecutionPlan
  authorization : AuthorizationRef
  clock : Option ℤ := none
  stage : FlowStage := .called

/-- The gateway, the approvals that were created, and the collections of its flows. -/
structure PhoneToolGateway where
  approvals : List Approved := []
  consumedConfirmTaskIds : List UUID := []
  collections : List Collection := []

/-- What can happen: an approval is created, a collection begins, takes its next step (at a time and
with an outcome, where it needs them) or is cancelled, and the gateway is closed. -/
inductive PhoneGatewayAction
  | approve (taskId : UUID) (toolName : Str) (arguments : ToolArguments) (expiresAtEpochMillis : ℤ)
  | collect (taskId : UUID) (plan : GoffyExecutionPlan) (authorization : AuthorizationRef)
  | advance (collection : ℕ) (now : ℤ) (outcome : SourceOutcome)
  | cancel (collection : ℕ)
  | close

namespace PhoneToolGateway

/-- A collection reaches its next stage. -/
def put (s : PhoneToolGateway) (c : ℕ) (x : Collection) (stage : FlowStage) (notes : List Note) :
    PhoneToolGateway × List (ℕ × Note) :=
  ({ s with collections := s.collections.set c { x with stage := stage } }, notes.map (c, ·))

/-- `toAllowedOperation` returned `null`. -/
def deny (s : PhoneToolGateway) (c : ℕ) (x : Collection) (notes : List Note) :
    PhoneToolGateway × List (ℕ × Note) :=
  s.put c x .denied (notes ++ [.emit unauthorizedError])

/-- The last part of `toAllowedOperation`. -/
def allow (s : PhoneToolGateway) (c : ℕ) (x : Collection) (tool : PhoneTool) :
    PhoneToolGateway × List (ℕ × Note) :=
  match operation tool x.plan.arguments with
  | none => s.deny c x []
  | some op => s.put c x (.allowed op) []

/-- The first part of `toAllowedOperation`, up to the `compareAndSet` of the approval. -/
def authorize (s : PhoneToolGateway) (c : ℕ) (x : Collection) (now : ℤ) :
    PhoneToolGateway × List (ℕ × Note) :=
  match matchCapability x.plan with
  | none => s.deny c x []
  | some tool =>
    match tool.permission, x.authorization with
    | .safe, .safe => s.allow c x tool
    | .confirm, .approved object =>
      let timed := { x with clock := some now }
      if (s.approvals[object]?).any (·.fits x.taskId x.plan now) then
        s.put c timed (.compared tool object) [.clock now]
      else s.deny c timed [.clock now]
    | _, _ => s.deny c x []

/-- `consumed.compareAndSet(false, true)`. -/
def consume (s : PhoneToolGateway) (c : ℕ) (x : Collection) (tool : PhoneTool) (object : ℕ) :
    PhoneToolGateway × List (ℕ × Note) :=
  match s.approvals[object]? with
  | none => s.deny c x []
  | some a =>
    if a.consumed then s.deny c x []
    else { s with approvals := s.approvals.set object { a with consumed := true } }.put c x
      (.consumed tool) []

/-- `consumedConfirmTaskIds.add(taskId)`. -/
def addTaskId (s : PhoneToolGateway) (c : ℕ) (x : Collection) (tool : PhoneTool) :
    PhoneToolGateway × List (ℕ × Note) :=
  if x.taskId ∈ s.consumedConfirmTaskIds then s.deny c x []
  else { s with consumedConfirmTaskIds := x.taskId :: s.consumedConfirmTaskIds }.allow c x tool

/-- The next step of a collection. -/
def advance (s : PhoneToolGateway) (c : ℕ) (x : Collection) (now : ℤ) (outcome : SourceOutcome) :
    Option (PhoneToolGateway × List (ℕ × Note)) :=
  match x.stage with
  | .called => some (s.authorize c x now)
  | .compared tool object => some (s.consume c x tool object)
  | .consumed tool => some (s.addTaskId c x tool)
  | .allowed op => some (s.put c x (.announced op) (op.announce.map .emit))
  | .announced op => some (s.put c x (.executing op) [.execute op.execute])
  | .executing op => some (s.put c x (.finished op outcome) ((op.conclude outcome).map .emit))
  | .finished _ _ | .denied | .cancelled _ => none

/-- One step. A reference to an approval is a reference to one that exists. -/
def step (s : PhoneToolGateway) :
    PhoneGatewayAction → Option (PhoneToolGateway × List (ℕ × Note))
  | .approve taskId toolName arguments expiresAtEpochMillis =>
    some ({ s with approvals := s.approvals ++
      [⟨taskId, toolName, arguments, expiresAtEpochMillis, false⟩] }, [])
  | .collect taskId plan authorization =>
    if authorization.exists s.approvals.length then
      some ({ s with collections := s.collections ++ [⟨taskId, plan, authorization, none, .called⟩] },
        [])
    else none
  | .advance c now outcome =>
    match s.collections[c]? with
    | none => none
    | some x => s.advance c x now outcome
  | .cancel c =>
    match s.collections[c]? with
    | none => none
    | some x => if x.stage.ended then none else some (s.put c x (.cancelled x.stage) [])
  | .close => some ({ s with consumedConfirmTaskIds := [] }, [])

end PhoneToolGateway

/-! ### The transitions of a collection -/

/-- What a collection has done up to a stage, its clock reading apart. -/
def FlowStage.notes : FlowStage → List Note
  | .called | .compared _ _ | .consumed _ | .allowed _ => []
  | .announced op => op.announce.map .emit
  | .executing op => op.announce.map .emit ++ [.execute op.execute]
  | .finished op outcome =>
    op.announce.map .emit ++ [.execute op.execute] ++ (op.conclude outcome).map .emit
  | .denied => [.emit unauthorizedError]
  | .cancelled before => before.notes

/-- What a collection has done. -/
def Collection.notes (x : Collection) : List Note := x.clock.toList.map .clock ++ x.stage.notes

/-- The approval that a collection refers to fits it, at the time it was compared. -/
def Collection.Compared (approvals : List Approved) (x : Collection) (tool : PhoneTool)
    (object : ℕ) : Prop :=
  matchCapability x.plan = some tool ∧ tool.permission = .confirm ∧
    x.authorization = .approved object ∧
    ∃ a now, approvals[object]? = some a ∧ x.clock = some now ∧ a.fits x.taskId x.plan now = true

/-- The transitions of a collection, with what they do to the rest of the gateway. -/
inductive Moves (s : PhoneToolGateway) (x : Collection) :
    PhoneToolGateway → Collection → List Note → Prop
  | denied (clock : Option ℤ) {taskIds : List UUID}
      (hstage : x.stage = .called ∨ clock = none ∧
        ((∃ tool object, x.stage = .compared tool object) ∨ ∃ tool, x.stage = .consumed tool))
      (htaskIds : ∀ taskId ∈ s.consumedConfirmTaskIds, taskId ∈ taskIds) :
      Moves s x { s with consumedConfirmTaskIds := taskIds }
        { x with clock := clock <|> x.clock, stage := .denied }
        (clock.toList.map .clock ++ [.emit unauthorizedError])
  | allowedSafe {tool : PhoneTool} {op : PhoneToolOperation} (hstage : x.stage = .called)
      (hmatch : matchCapability x.plan = some tool) (hsafe : tool.permission = .safe)
      (hauthorization : x.authorization = .safe) (hop : operation tool x.plan.arguments = some op) :
      Moves s x s { x with stage := .allowed op } []
  | compared {tool : PhoneTool} {object : ℕ} {now : ℤ} (hstage : x.stage = .called)
      (hcompared : Collection.Compared s.approvals { x with clock := some now } tool object) :
      Moves s x s { x with clock := some now, stage := .compared tool object } [.clock now]
  | consumed {tool : PhoneTool} {object : ℕ} {a : Approved}
      (hstage : x.stage = .compared tool object) (ha : s.approvals[object]? = some a)
      (hfree : a.consumed = false) :
      Moves s x { s with approvals := s.approvals.set object { a with consumed := true } }
        { x with stage := .consumed tool } []
  | allowedConfirm {tool : PhoneTool} {op : PhoneToolOperation} (hstage : x.stage = .consumed tool)
      (hfree : x.taskId ∉ s.consumedConfirmTaskIds)
      (hop : operation tool x.plan.arguments = some op) :
      Moves s x { s with consumedConfirmTaskIds := x.taskId :: s.consumedConfirmTaskIds }
        { x with stage := .allowed op } []
  | announced {op : PhoneToolOperation} (hstage : x.stage = .allowed op) :
      Moves s x s { x with stage := .announced op } (op.announce.map .emit)
  | executing {op : PhoneToolOperation} (hstage : x.stage = .announced op) :
      Moves s x s { x with stage := .executing op } [.execute op.execute]
  | finished {op : PhoneToolOperation} {outcome : SourceOutcome}
      (hstage : x.stage = .executing op) :
      Moves s x s { x with stage := .finished op outcome } ((op.conclude outcome).map .emit)

section Steps

variable {s s' : PhoneToolGateway} {c : ℕ} {x : Collection} {out : List (ℕ × Note)}

/-- The step of a collection is one of its transitions. -/
def Advanced (s : PhoneToolGateway) (c : ℕ) (x : Collection)
    (next : PhoneToolGateway × List (ℕ × Note)) : Prop :=
  ∃ s₁ x' notes, Moves s x s₁ x' notes ∧
    next = ({ s₁ with collections := s.collections.set c x' }, notes.map (c, ·))

theorem advanced_deny
    (hstage : x.stage = .called ∨
      ((∃ tool object, x.stage = .compared tool object) ∨ ∃ tool, x.stage = .consumed tool)) :
    Advanced s c x (s.deny c x []) :=
  ⟨_, _, _, .denied none (hstage.imp id fun h => ⟨rfl, h⟩) fun _ h => h, rfl⟩

theorem advanced_authorize {now : ℤ} (hstage : x.stage = .called) :
    Advanced s c x (s.authorize c x now) := by
  unfold PhoneToolGateway.authorize
  split
  · exact advanced_deny (Or.inl hstage)
  next tool hmatch =>
  split
  · next hsafe hauthorization =>
    unfold PhoneToolGateway.allow
    split
    · exact advanced_deny (Or.inl hstage)
    · next op hop => exact ⟨_, _, _, .allowedSafe hstage hmatch hsafe hauthorization hop, rfl⟩
  · next object hconfirm hauthorization =>
    dsimp only
    split
    · next hfits =>
      cases ha : s.approvals[object]? with
      | none => simp [ha] at hfits
      | some a =>
      rw [ha, Option.any_some] at hfits
      exact ⟨_, _, _, .compared hstage ⟨hmatch, hconfirm, hauthorization, a, now, ha, rfl, hfits⟩,
        rfl⟩
    · exact ⟨_, _, _, .denied (some now) (Or.inl hstage) fun _ h => h, rfl⟩
  · exact advanced_deny (Or.inl hstage)

theorem advanced_consume {tool : PhoneTool} {object : ℕ} (hstage : x.stage = .compared tool object) :
    Advanced s c x (s.consume c x tool object) := by
  have hdeny : Advanced s c x (s.deny c x []) :=
    advanced_deny (Or.inr (Or.inl ⟨tool, object, hstage⟩))
  unfold PhoneToolGateway.consume
  split
  · exact hdeny
  next a ha =>
  split
  · exact hdeny
  · next hfree =>
    exact ⟨_, _, _, .consumed hstage ha (Bool.not_eq_true _ ▸ hfree), rfl⟩

theorem advanced_addTaskId {tool : PhoneTool} (hstage : x.stage = .consumed tool) :
    Advanced s c x (s.addTaskId c x tool) := by
  unfold PhoneToolGateway.addTaskId
  split
  · exact advanced_deny (Or.inr (Or.inr ⟨tool, hstage⟩))
  next hfree =>
  unfold PhoneToolGateway.allow
  split
  · exact ⟨_, _, _, .denied none (Or.inr ⟨rfl, Or.inr ⟨tool, hstage⟩⟩)
      fun _ h => List.mem_cons_of_mem x.taskId h, rfl⟩
  · next op hop => exact ⟨_, _, _, .allowedConfirm hstage hfree hop, rfl⟩

/-- **The step of a collection is one of its transitions.** -/
theorem advanced_of_advance {now : ℤ} {outcome : SourceOutcome}
    (h : s.advance c x now outcome = some (s', out)) : Advanced s c x (s', out) := by
  unfold PhoneToolGateway.advance at h
  split at h
  · next hstage =>
    rw [← Option.some.inj h]
    exact advanced_authorize hstage
  · next hstage =>
    rw [← Option.some.inj h]
    exact advanced_consume hstage
  · next hstage =>
    rw [← Option.some.inj h]
    exact advanced_addTaskId hstage
  · next hstage =>
    rw [← Option.some.inj h]
    exact ⟨_, _, _, .announced hstage, rfl⟩
  · next hstage =>
    rw [← Option.some.inj h]
    exact ⟨_, _, _, .executing hstage, rfl⟩
  · next hstage =>
    rw [← Option.some.inj h]
    exact ⟨_, _, _, .finished hstage, rfl⟩
  · cases h
  · cases h
  · cases h

/-- How many steps a collection has before it, at most. -/
def FlowStage.remaining : FlowStage → ℕ
  | .called => 6
  | .compared _ _ => 5
  | .consumed _ => 4
  | .allowed _ => 3
  | .announced _ => 2
  | .executing _ => 1
  | .finished _ _ | .denied | .cancelled _ => 0

theorem remaining_of_moves {s₁ : PhoneToolGateway} {x' : Collection} {notes : List Note}
    (h : Moves s x s₁ x' notes) : x'.stage.remaining < x.stage.remaining := by
  cases h with
  | denied clock hstage _ =>
    rcases hstage with hstage | ⟨-, ⟨tool, object, hstage⟩ | ⟨tool, hstage⟩⟩ <;>
      simp [FlowStage.remaining, hstage]
  | allowedSafe hstage _ _ _ _ => simp [FlowStage.remaining, hstage]
  | compared hstage _ => simp [FlowStage.remaining, hstage]
  | consumed hstage _ _ => simp [FlowStage.remaining, hstage]
  | allowedConfirm hstage _ _ => simp [FlowStage.remaining, hstage]
  | announced hstage => simp [FlowStage.remaining, hstage]
  | executing hstage => simp [FlowStage.remaining, hstage]
  | finished hstage => simp [FlowStage.remaining, hstage]

theorem not_cancelled_of_moves {s₁ : PhoneToolGateway} {x' : Collection} {notes : List Note}
    (h : Moves s x s₁ x' notes) (before : FlowStage) : x'.stage ≠ .cancelled before := by
  cases h <;> exact FlowStage.noConfusion

/-- A collection that has not come to its end can go on. -/
theorem advance_isSome (hended : x.stage.ended = false) (now : ℤ) (outcome : SourceOutcome) :
    ∃ next, s.advance c x now outcome = some next := by
  unfold PhoneToolGateway.advance
  cases hstage : x.stage with
  | finished _ _ | denied | cancelled _ =>
    rw [hstage] at hended
    cases hended
  | _ => exact ⟨_, rfl⟩

/-- A collection that is not cancelled comes to its end, whatever its source answers. -/
theorem collection_completes {n : ℕ} (hx : s.collections[c]? = some x)
    (hn : x.stage.remaining ≤ n) (hnot : ∀ before, x.stage ≠ .cancelled before) (now : ℤ)
    (outcome : SourceOutcome) : ∃ k s' es' x', k ≤ n ∧
      Machine.run PhoneToolGateway.step s (List.replicate k (.advance c now outcome)) =
        some (s', es') ∧
      s'.collections[c]? = some x' ∧ x'.stage.completed = true := by
  induction n generalizing s x with
  | zero =>
    refine ⟨0, s, [], x, le_rfl, rfl, hx, ?_⟩
    cases hstage : x.stage with
    | cancelled before => exact (hnot before hstage).elim
    | finished _ _ | denied => rfl
    | _ => simp [FlowStage.remaining, hstage] at hn
  | succ n ih =>
    by_cases hended : x.stage.ended = true
    · refine ⟨0, s, [], x, Nat.zero_le _, rfl, hx, ?_⟩
      cases hstage : x.stage with
      | cancelled before => exact (hnot before hstage).elim
      | finished _ _ | denied => rfl
      | _ => rw [hstage] at hended; cases hended
    obtain ⟨⟨s', out⟩, hs⟩ := advance_isSome (s := s) (c := c) (Bool.not_eq_true _ ▸ hended) now
      outcome
    obtain ⟨s₁, x', notes, hmoves, hnext⟩ := advanced_of_advance hs
    cases hnext
    have hlt := (List.getElem?_eq_some_iff.1 hx).1
    have hless := remaining_of_moves hmoves
    have hx' : ({ s₁ with collections := s.collections.set c x' } :
        PhoneToolGateway).collections[c]? = some x' := List.getElem?_set_self hlt
    obtain ⟨k, s₂, es₂, x₂, hk, hrun, hx₂, hcompleted⟩ :=
      ih hx' (by omega) (not_cancelled_of_moves hmoves)
    refine ⟨k + 1, s₂, notes.map (c, ·) ++ es₂, x₂, by omega, ?_, hx₂, hcompleted⟩
    have hstep : s.step (.advance c now outcome) = s.advance c x now outcome := by
      simp only [PhoneToolGateway.step, hx]
    rw [List.replicate_succ, Machine.run, hstep, hs]
    simp only [Option.bind_eq_bind, Option.bind_some, hrun]
    rfl

end Steps

/-! ### Authorized executions -/

/-- The approval was consumed for the collection. -/
def FlowStage.claimed : FlowStage → Bool
  | .consumed _ | .allowed _ | .announced _ | .executing _ | .finished _ _ => true
  | .called | .compared _ _ | .denied => false
  | .cancelled before => before.claimed

/-- The collection has passed the authorization. -/
def FlowStage.passed : FlowStage → Bool
  | .allowed _ | .announced _ | .executing _ | .finished _ _ => true
  | .called | .compared _ _ | .consumed _ | .denied => false
  | .cancelled before => before.passed

/-- The tool of a collection is a safe one, and needs no approval. -/
def Collection.IsSafe (x : Collection) (tool : PhoneTool) : Prop :=
  matchCapability x.plan = some tool ∧ tool.permission = .safe ∧ x.authorization = .safe

/-- What is known of a collection at a stage. -/
def Collection.Authorized (approvals : List Approved) (x : Collection) : FlowStage → Prop
  | .called => x.clock = none
  | .compared tool object => x.Compared approvals tool object
  | .consumed tool => ∃ object, x.Compared approvals tool object
  | .allowed op | .announced op | .executing op | .finished op _ => ∃ tool,
      operation tool x.plan.arguments = some op ∧
      (x.IsSafe tool ∨ ∃ object, x.Compared approvals tool object)
  | .denied => True
  | .cancelled before => x.Authorized approvals before

/-- The collection holds its approval. -/
def Collection.Holds (x : Collection) (object : ℕ) : Prop :=
  x.authorization = .approved object ∧ x.stage.claimed = true

/-- The collection of a tool that needs a confirmation holds its task id. -/
def Collection.HoldsTask (x : Collection) (taskId : UUID) : Prop :=
  (∃ object, x.authorization = .approved object) ∧ x.stage.passed = true ∧ x.taskId = taskId

/-- The approval is used up. -/
def IsConsumed (approvals : List Approved) (object : ℕ) : Prop :=
  ∃ a, approvals[object]? = some a ∧ a.consumed = true

/-- What a collection did in a run. -/
def notesOf (c : ℕ) (es : List (ℕ × Note)) : List Note :=
  (es.filter (·.1 = c)).map Prod.snd

/-- The events are those of the collections, and every collection is where its authorization allows it
to be. -/
structure Traced (s : PhoneToolGateway) (es : List (ℕ × Note)) : Prop where
  notes : ∀ c, notesOf c es = (s.collections[c]?.map Collection.notes).getD []
  authorized : ∀ {c : ℕ} {x : Collection}, s.collections[c]? = some x →
    x.Authorized s.approvals x.stage

/-- While the gateway stays open, approvals and task ids are held once. -/
structure Guarded (s : PhoneToolGateway) (es : List (ℕ × Note)) : Prop extends Traced s es where
  objects : Held Collection.Holds (IsConsumed s.approvals) s.collections
  tasks : Held Collection.HoldsTask (· ∈ s.consumedConfirmTaskIds) s.collections

section Invariant

variable {s s' : PhoneToolGateway} {es out : List (ℕ × Note)} {c : ℕ} {x x' : Collection}
  {approvals approvals' : List Approved}

/-- The approvals that exist stay, and only `consumed` changes. -/
def Grows (approvals approvals' : List Approved) : Prop :=
  ∀ (object : ℕ) (a : Approved), approvals[object]? = some a →
    ∃ b : Approved, approvals'[object]? = some b ∧ b = { a with consumed := b.consumed } ∧
      (a.consumed = true → b.consumed = true)

theorem grows_refl : Grows approvals approvals := fun _ a ha => ⟨a, ha, rfl, id⟩

theorem grows_append {a : Approved} : Grows approvals (approvals ++ [a]) := by
  intro object b hb
  have hlt := (List.getElem?_eq_some_iff.1 hb).1
  exact ⟨b, by rwa [List.getElem?_append_left hlt], rfl, id⟩

theorem grows_set {object : ℕ} {a : Approved} (ha : approvals[object]? = some a) :
    Grows approvals (approvals.set object { a with consumed := true }) := by
  intro object' b hb
  have hlt := (List.getElem?_eq_some_iff.1 ha).1
  rw [List.getElem?_set]
  by_cases h : object = object'
  · subst h
    rw [ha] at hb
    cases hb
    exact ⟨_, by rw [if_pos rfl, if_pos hlt], rfl, fun _ => rfl⟩
  · exact ⟨b, by rw [if_neg h, hb], rfl, id⟩

theorem Grows.isConsumed (h : Grows approvals approvals') (object : ℕ) :
    IsConsumed approvals object → IsConsumed approvals' object := by
  rintro ⟨a, ha, hconsumed⟩
  obtain ⟨b, hb, -, hb'⟩ := h object a ha
  exact ⟨b, hb, hb' hconsumed⟩

theorem Collection.Compared.grows {tool : PhoneTool} {object : ℕ}
    (h : x.Compared approvals tool object) (hgrows : Grows approvals approvals') :
    x.Compared approvals' tool object := by
  obtain ⟨hmatch, hconfirm, hauthorization, a, now, ha, hclock, hfits⟩ := h
  obtain ⟨b, hb, hba, -⟩ := hgrows object a ha
  refine ⟨hmatch, hconfirm, hauthorization, b, now, hb, hclock, ?_⟩
  rw [hba]
  exact hfits

theorem Collection.Authorized.grows {stage : FlowStage} (h : x.Authorized approvals stage)
    (hgrows : Grows approvals approvals') : x.Authorized approvals' stage := by
  induction stage with
  | called => exact h
  | compared tool object => exact Compared.grows h hgrows
  | consumed tool =>
    obtain ⟨object, h⟩ := h
    exact ⟨object, h.grows hgrows⟩
  | allowed op | announced op | executing op | finished op outcome =>
    obtain ⟨tool, hop, h⟩ := h
    refine ⟨tool, hop, h.imp id ?_⟩
    rintro ⟨object, h⟩
    exact ⟨object, h.grows hgrows⟩
  | denied => trivial
  | cancelled before ih => exact ih h

/-- What is known at a stage does not depend on the stage that is stored. -/
theorem Collection.Authorized.withStage {stage : FlowStage} (stored : FlowStage)
    (h : x.Authorized approvals stage) :
    Collection.Authorized approvals { x with stage := stored } stage := by
  induction stage with
  | cancelled before ih => exact ih h
  | _ => exact h

/-- A transition keeps what is known of its collection. -/
theorem authorized_of_moves {notes : List Note} (hmoves : Moves s x s' x' notes)
    (h : x.Authorized s.approvals x.stage) : x'.Authorized s'.approvals x'.stage := by
  cases hmoves with
  | denied _ _ _ => trivial
  | allowedSafe _ hmatch hsafe hauthorization hop =>
    exact ⟨_, hop, Or.inl ⟨hmatch, hsafe, hauthorization⟩⟩
  | compared _ hcompared => exact hcompared
  | consumed hstage ha _ =>
    rw [hstage] at h
    exact ⟨_, Collection.Compared.grows h (grows_set ha)⟩
  | allowedConfirm hstage _ hop =>
    rw [hstage] at h
    exact ⟨_, hop, Or.inr h⟩
  | announced hstage =>
    rw [hstage] at h
    exact h
  | executing hstage =>
    rw [hstage] at h
    exact h
  | finished hstage =>
    rw [hstage] at h
    exact h

theorem grows_of_moves {notes : List Note} (hmoves : Moves s x s' x' notes) :
    Grows s.approvals s'.approvals := by
  cases hmoves with
  | consumed _ ha _ => exact grows_set ha
  | _ => exact grows_refl

/-- The events of a transition are what the collection has done since. -/
theorem notes_of_moves {notes : List Note} (hmoves : Moves s x s' x' notes)
    (h : x.Authorized s.approvals x.stage) : x'.notes = x.notes ++ notes := by
  cases hmoves with
  | denied clock hstage _ =>
    rcases hstage with hstage | ⟨rfl, ⟨tool, object, hstage⟩ | ⟨tool, hstage⟩⟩
    · rw [hstage] at h
      have hclock : x.clock = none := h
      cases clock <;> simp [Collection.notes, FlowStage.notes, hstage, hclock]
    · simp [Collection.notes, FlowStage.notes, hstage]
    · simp [Collection.notes, FlowStage.notes, hstage]
  | compared hstage _ =>
    rw [hstage] at h
    have hclock : x.clock = none := h
    simp [Collection.notes, FlowStage.notes, hstage, hclock]
  | allowedSafe hstage _ _ _ _ => simp [Collection.notes, FlowStage.notes, hstage]
  | consumed hstage _ _ => simp [Collection.notes, FlowStage.notes, hstage]
  | allowedConfirm hstage _ _ => simp [Collection.notes, FlowStage.notes, hstage]
  | announced hstage => simp [Collection.notes, FlowStage.notes, hstage]
  | executing hstage => simp [Collection.notes, FlowStage.notes, hstage]
  | finished hstage => simp [Collection.notes, FlowStage.notes, hstage]

/-- A transition takes a free approval, or none. -/
theorem holds_of_moves {notes : List Note} (hmoves : Moves s x s' x' notes)
    (h : x.Authorized s.approvals x.stage) {object : ℕ} (hholds : x'.Holds object) :
    x.Holds object ∨ IsConsumed s'.approvals object ∧ ¬ IsConsumed s.approvals object := by
  obtain ⟨hauthorization, hclaimed⟩ := hholds
  cases hmoves with
  | denied _ _ _ => cases hclaimed
  | allowedSafe _ _ _ hsafe _ =>
    rw [hsafe] at hauthorization
    cases hauthorization
  | compared _ _ => cases hclaimed
  | @consumed tool object' a hstage ha hfree =>
    rw [hstage] at h
    have hobject : object' = object := by
      have := h.2.2.1.symm.trans hauthorization
      cases this
      rfl
    subst hobject
    have hlt := (List.getElem?_eq_some_iff.1 ha).1
    refine Or.inr ⟨⟨_, List.getElem?_set_self hlt, rfl⟩, ?_⟩
    rintro ⟨b, hb, hconsumed⟩
    rw [ha] at hb
    cases hb
    rw [hfree] at hconsumed
    cases hconsumed
  | allowedConfirm hstage _ _ => exact Or.inl ⟨hauthorization, by rw [hstage]; rfl⟩
  | announced hstage => exact Or.inl ⟨hauthorization, by rw [hstage]; rfl⟩
  | executing hstage => exact Or.inl ⟨hauthorization, by rw [hstage]; rfl⟩
  | finished hstage => exact Or.inl ⟨hauthorization, by rw [hstage]; rfl⟩

/-- A transition takes a free task id, or none. -/
theorem holdsTask_of_moves {notes : List Note} (hmoves : Moves s x s' x' notes) {taskId : UUID}
    (hholds : x'.HoldsTask taskId) :
    x.HoldsTask taskId ∨
      taskId ∈ s'.consumedConfirmTaskIds ∧ taskId ∉ s.consumedConfirmTaskIds := by
  obtain ⟨⟨object, hauthorization⟩, hpassed, htask⟩ := hholds
  cases hmoves with
  | denied _ _ _ => cases hpassed
  | allowedSafe _ _ _ hsafe _ =>
    rw [hsafe] at hauthorization
    cases hauthorization
  | compared _ _ => cases hpassed
  | consumed _ _ _ => cases hpassed
  | allowedConfirm _ hfree _ =>
    rw [← htask]
    exact Or.inr ⟨List.mem_cons_self, hfree⟩
  | announced hstage => exact Or.inl ⟨⟨object, hauthorization⟩, by rw [hstage]; rfl, htask⟩
  | executing hstage => exact Or.inl ⟨⟨object, hauthorization⟩, by rw [hstage]; rfl, htask⟩
  | finished hstage => exact Or.inl ⟨⟨object, hauthorization⟩, by rw [hstage]; rfl, htask⟩

theorem taskIds_of_moves {notes : List Note} (hmoves : Moves s x s' x' notes) :
    ∀ taskId, taskId ∈ s.consumedConfirmTaskIds → taskId ∈ s'.consumedConfirmTaskIds := by
  intro taskId h
  cases hmoves with
  | denied _ _ htaskIds => exact htaskIds taskId h
  | allowedConfirm _ _ _ => exact List.mem_cons_of_mem _ h
  | _ => exact h

/-! ### Runs -/

theorem notesOf_append (c : ℕ) (es out : List (ℕ × Note)) :
    notesOf c (es ++ out) = notesOf c es ++ notesOf c out := by
  simp [notesOf]

theorem notesOf_map (c c' : ℕ) (notes : List Note) :
    notesOf c (notes.map (c', ·)) = if c' = c then notes else [] := by
  unfold notesOf
  by_cases h : c' = c
  · simp [h, List.filter_map, Function.comp_def]
  · simp [h, List.filter_map, Function.comp_def]

/-- The collections after one of them has changed. -/
theorem Traced.set {approvals : List Approved} {taskIds : List UUID} {notes : List Note}
    (h : Traced s es) (hx : s.collections[c]? = some x) (hgrows : Grows s.approvals approvals)
    (hauthorized : x'.Authorized approvals x'.stage) (hnotes : x'.notes = x.notes ++ notes) :
    Traced ⟨approvals, taskIds, s.collections.set c x'⟩ (es ++ notes.map (c, ·)) where
  notes c' := by
    have hlt := (List.getElem?_eq_some_iff.1 hx).1
    rw [notesOf_append, notesOf_map, h.notes c', List.getElem?_set]
    by_cases hc : c = c'
    · subst hc
      rw [if_pos rfl, if_pos rfl, if_pos hlt, hx]
      exact hnotes.symm
    · rw [if_neg hc, if_neg hc, List.append_nil]
  authorized {c' y} hy := by
    have hlt := (List.getElem?_eq_some_iff.1 hx).1
    rw [List.getElem?_set] at hy
    by_cases hc : c = c'
    · rw [if_pos hc, if_pos hlt] at hy
      cases hy
      exact hauthorized
    · rw [if_neg hc] at hy
      exact (h.authorized hy).grows hgrows

theorem traced_collect (h : Traced s es) (taskId : UUID) (plan : GoffyExecutionPlan)
    (authorization : AuthorizationRef) :
    Traced { s with collections :=
      s.collections ++ [⟨taskId, plan, authorization, none, .called⟩] } es where
  notes c := by
    rw [h.notes c]
    rcases lt_trichotomy c s.collections.length with hc | hc | hc
    · rw [List.getElem?_append_left hc]
    · simp [hc, Collection.notes, FlowStage.notes]
    · simp [List.getElem?_eq_none hc.le, List.getElem?_append_right hc.le,
        show c - s.collections.length ≠ 0 by omega]
  authorized {c x} hx := by
    by_cases hc : c < s.collections.length
    · rw [List.getElem?_append_left hc] at hx
      exact h.authorized hx
    · rw [List.getElem?_append_right (by omega)] at hx
      have hx' := List.mem_of_getElem? hx
      rw [List.mem_singleton] at hx'
      rw [hx']
      rfl

/-- What a step does: an approval is added, a collection is added, one is changed by a transition or
cancelled, or the task ids are forgotten. -/
inductive GatewayStep (s : PhoneToolGateway) :
    PhoneGatewayAction → PhoneToolGateway → List (ℕ × Note) → Prop
  | approve {taskId : UUID} {toolName : Str} {arguments : ToolArguments} {expires : ℤ}
      (a : Approved) : GatewayStep s (.approve taskId toolName arguments expires)
        { s with approvals := s.approvals ++ [a] } []
  | collect {taskId : UUID} {plan : GoffyExecutionPlan} {authorization : AuthorizationRef} :
      GatewayStep s (.collect taskId plan authorization) { s with collections :=
        s.collections ++ [⟨taskId, plan, authorization, none, .called⟩] } []
  | advance {c : ℕ} {now : ℤ} {outcome : SourceOutcome} {x x' : Collection}
      {s₁ : PhoneToolGateway} {notes : List Note} (hx : s.collections[c]? = some x)
      (hmoves : Moves s x s₁ x' notes) : GatewayStep s (.advance c now outcome)
        { s₁ with collections := s.collections.set c x' } (notes.map (c, ·))
  | cancel {c : ℕ} {x : Collection} (hx : s.collections[c]? = some x) :
      GatewayStep s (.cancel c)
        { s with collections := s.collections.set c { x with stage := .cancelled x.stage } } []
  | close : GatewayStep s .close { s with consumedConfirmTaskIds := [] } []

theorem gatewayStep_of_step {action : PhoneGatewayAction} (hs : s.step action = some (s', out)) :
    GatewayStep s action s' out := by
  cases action with
  | approve taskId toolName arguments expiresAtEpochMillis =>
    cases hs
    exact .approve _
  | collect taskId plan authorization =>
    simp only [PhoneToolGateway.step] at hs
    split at hs
    · cases hs
      exact .collect
    · cases hs
  | advance c now outcome =>
    simp only [PhoneToolGateway.step] at hs
    split at hs
    · cases hs
    · next x hx =>
      obtain ⟨s₁, x', notes, hmoves, hnext⟩ := advanced_of_advance hs
      cases hnext
      exact .advance hx hmoves
  | cancel c =>
    simp only [PhoneToolGateway.step] at hs
    split at hs
    · cases hs
    · next x hx =>
      split at hs
      · cases hs
      · cases hs
        exact .cancel hx
  | close =>
    cases hs
    exact .close

theorem traced_step {action : PhoneGatewayAction} (h : Traced s es)
    (hs : GatewayStep s action s' out) : Traced s' (es ++ out) := by
  cases hs with
  | approve a =>
    rw [List.append_nil]
    exact ⟨h.notes, fun hx => (h.authorized hx).grows grows_append⟩
  | collect =>
    rw [List.append_nil]
    exact traced_collect h _ _ _
  | advance hx hmoves =>
    have hauthorized := h.authorized hx
    exact h.set hx (grows_of_moves hmoves) (authorized_of_moves hmoves hauthorized)
      (notes_of_moves hmoves hauthorized)
  | @cancel c x hx =>
    have hauthorized : Collection.Authorized s.approvals { x with stage := .cancelled x.stage }
        (.cancelled x.stage) := (h.authorized hx).withStage (.cancelled x.stage)
    exact h.set hx grows_refl hauthorized (List.append_nil _).symm
  | close =>
    rw [List.append_nil]
    exact ⟨h.notes, h.authorized⟩

theorem traced_of_reaches {s₀ : PhoneToolGateway} (h₀ : s₀.collections = [])
    (h : Machine.Reaches PhoneToolGateway.step Machine.anyStep s₀ s es) : Traced s es := by
  refine h.invariant ⟨?_, ?_⟩ ?_
  · intro c
    simp [h₀, notesOf]
  · intro c x hx
    simp [h₀] at hx
  · intro s es action s' out hs _ hstep
    exact traced_step hs (gatewayStep_of_step hstep)

/-- The gateway stays open. -/
def StaysOpen : PhoneGatewayAction → Prop
  | .close => False
  | _ => True

instance : DecidablePred StaysOpen
  | .close => isFalse not_false
  | .approve _ _ _ _ | .collect _ _ _ | .advance _ _ _ | .cancel _ => isTrue trivial

theorem guarded_step {action : PhoneGatewayAction} (h : Guarded s es) (hopen : StaysOpen action)
    (hs : GatewayStep s action s' out) : Guarded s' (es ++ out) := by
  refine ⟨traced_step h.toTraced hs, ?_, ?_⟩
  · cases hs with
    | approve a => exact h.objects.mono grows_append.isConsumed
    | collect => exact h.objects.append fun _ hholds => by cases hholds.2
    | advance hx hmoves =>
      have hgrows := grows_of_moves hmoves
      refine h.objects.set hx (hgrows.isConsumed ·) fun object hholds => ?_
      rcases holds_of_moves hmoves (h.authorized hx) hholds with hold | ⟨hnow, hfree⟩
      · exact ⟨hgrows.isConsumed object (h.objects.isTaken hx hold), Or.inl hold⟩
      · exact ⟨hnow, Or.inr hfree⟩
    | cancel hx =>
      exact h.objects.set hx (fun _ => id) fun object hholds =>
        ⟨h.objects.isTaken hx hholds, Or.inl hholds⟩
    | close => exact hopen.elim
  · cases hs with
    | approve a => exact h.tasks
    | collect => exact h.tasks.append fun _ hholds => by cases hholds.2.1
    | advance hx hmoves =>
      have hkeep := taskIds_of_moves hmoves
      refine h.tasks.set hx hkeep fun taskId hholds => ?_
      rcases holdsTask_of_moves hmoves hholds with hold | ⟨hnow, hfree⟩
      · exact ⟨hkeep taskId (h.tasks.isTaken hx hold), Or.inl hold⟩
      · exact ⟨hnow, Or.inr hfree⟩
    | cancel hx =>
      exact h.tasks.set hx (fun _ => id) fun taskId hholds =>
        ⟨h.tasks.isTaken hx hholds, Or.inl hholds⟩
    | close => exact hopen.elim

/-- The approvals and task ids that were used before do not matter. -/
theorem guarded_of_reaches {s₀ : PhoneToolGateway} (h₀ : s₀.collections = [])
    (h : Machine.Reaches PhoneToolGateway.step (fun _ _ a => StaysOpen a) s₀ s es) :
    Guarded s es := by
  have hstart : Guarded s₀ [] := by
    refine ⟨⟨fun c => ?_, fun hx => ?_⟩, ?_, ?_⟩
    · simp [h₀, notesOf]
    · simp [h₀] at hx
    · rw [h₀]
      exact Held.nil
    · rw [h₀]
      exact Held.nil
  refine h.invariant hstart ?_
  intro s es action s' out hs hopen hstep
  exact guarded_step hs hopen (gatewayStep_of_step hstep)

/-! ### Executions -/

def Note.isExecution : Note → Bool
  | .execute _ => true
  | _ => false

def Note.event? : Note → Option (ExecutionEvent PhoneContent)
  | .emit event => some event
  | _ => none

/-- The events that a collection emitted. -/
def emittedBy (c : ℕ) (es : List (ℕ × Note)) : List (ExecutionEvent PhoneContent) :=
  (notesOf c es).filterMap Note.event?

/-- The executions by collections with a property. -/
def executions (s : PhoneToolGateway) (p : Collection → Bool) (es : List (ℕ × Note)) : ℕ :=
  es.countP fun e => e.2.isExecution && (s.collections[e.1]?).any p

/-- The tool of the collection needs a confirmation. -/
def Collection.needsConfirmation (x : Collection) : Bool :=
  (matchCapability x.plan).any (·.permission = .confirm)

theorem mem_notesOf {note : Note} : note ∈ notesOf c es ↔ (c, note) ∈ es := by
  simp [notesOf]

theorem notesOf_eq (h : Traced s es) (hx : s.collections[c]? = some x) :
    notesOf c es = x.notes := by
  rw [h.notes c, hx]
  rfl

theorem countP_conclude (op : PhoneToolOperation) (outcome : SourceOutcome) :
    ((op.conclude outcome).map Note.emit).countP Note.isExecution = 0 := by
  rw [List.countP_eq_zero]
  intro note hnote
  obtain ⟨event, -, rfl⟩ := List.mem_map.1 hnote
  exact Bool.false_ne_true

/-- A collection executes its tool at most once, and only after it passed the authorization. -/
theorem countP_notes (stage : FlowStage) :
    stage.notes.countP Note.isExecution ≤ if stage.passed then 1 else 0 := by
  induction stage with
  | finished op outcome =>
    simp only [FlowStage.notes, List.countP_append, countP_conclude]
    exact le_refl 1
  | cancelled before ih => exact ih
  | allowed _ | announced _ => exact zero_le_one
  | executing _ => exact le_refl 1
  | called | compared _ _ | consumed _ | denied => exact le_refl 0

theorem countP_clock (clock : Option ℤ) :
    (clock.toList.map Note.clock).countP Note.isExecution = 0 := by
  cases clock <;> rfl

/-- Who executes its tool has passed the authorization. -/
theorem passed_of_execute (h : Traced s es) {call : SourceCall} (hexecute : (c, .execute call) ∈ es) :
    ∃ x, s.collections[c]? = some x ∧ x.stage.passed = true ∧ .execute call ∈ x.stage.notes := by
  have hmem : Note.execute call ∈ notesOf c es := mem_notesOf.2 hexecute
  cases hx : s.collections[c]? with
  | none =>
    rw [h.notes c, hx] at hmem
    cases hmem
  | some x =>
    rw [notesOf_eq h hx, Collection.notes, List.mem_append] at hmem
    have hnotes : Note.execute call ∈ x.stage.notes := by
      refine hmem.resolve_left ?_
      intro hclock
      obtain ⟨_, _, h⟩ := List.mem_map.1 hclock
      cases h
    refine ⟨x, rfl, ?_, hnotes⟩
    have hpos : 0 < x.stage.notes.countP Note.isExecution := List.countP_pos_iff.2 ⟨_, hnotes, rfl⟩
    by_contra hnot
    have := countP_notes x.stage
    rw [if_neg hnot] at this
    omega

/-- Executions that all are those of one collection. -/
theorem executions_le_one (h : Traced s es) {p : Collection → Bool}
    (hone : ∀ (c c' : ℕ) (x x' : Collection), s.collections[c]? = some x → s.collections[c']? = some x' →
      x.stage.passed = true → x'.stage.passed = true → p x = true → p x' = true → c = c') :
    executions s p es ≤ 1 := by
  unfold executions
  by_cases hnone : ∀ e ∈ es, ¬ (e.2.isExecution && (s.collections[e.1]?).any p) = true
  · rw [List.countP_eq_zero.2 hnone]
    exact zero_le_one
  push Not at hnone
  obtain ⟨⟨c, note⟩, hmem, hexecution⟩ := hnone
  -- an execution, by the collection that passed
  have hexecutor : ∀ e ∈ es, (e.2.isExecution && (s.collections[e.1]?).any p) = true →
      ∃ x, s.collections[e.1]? = some x ∧ x.stage.passed = true ∧ p x = true := by
    rintro ⟨c', note'⟩ hmem' h'
    rw [Bool.and_eq_true] at h'
    cases note' with
    | execute call =>
      obtain ⟨x, hx, hpassed, -⟩ := passed_of_execute h hmem'
      refine ⟨x, hx, hpassed, ?_⟩
      simpa [hx] using h'.2
    | clock _ => cases h'.1
    | emit _ => cases h'.1
  obtain ⟨x, hx, hpassed, hp⟩ := hexecutor _ hmem hexecution
  calc es.countP (fun e => e.2.isExecution && (s.collections[e.1]?).any p)
      ≤ es.countP (fun e => e.2.isExecution && decide (e.1 = c)) := by
        refine List.countP_mono_left fun e he h' => ?_
        obtain ⟨x', hx', hpassed', hp'⟩ := hexecutor e he h'
        rw [Bool.and_eq_true] at h' ⊢
        exact ⟨h'.1, decide_eq_true (hone _ _ _ _ hx' hx hpassed' hpassed hp' hp)⟩
    _ = (notesOf c es).countP Note.isExecution := by
        simp [notesOf, List.countP_map, List.countP_filter, Function.comp_def]
    _ ≤ 1 := by
        rw [notesOf_eq h hx, Collection.notes, List.countP_append, countP_clock, Nat.zero_add]
        refine (countP_notes x.stage).trans ?_
        rw [if_pos hpassed]

theorem claimed_of_passed {stage : FlowStage} (h : stage.passed = true) : stage.claimed = true := by
  induction stage with
  | cancelled before ih => exact ih h
  | allowed _ | announced _ | executing _ | finished _ _ => rfl
  | called | compared _ _ | consumed _ | denied => cases h

/-- Who has passed the authorization was authorized. -/
theorem Collection.Authorized.of_passed {stage : FlowStage} (h : x.Authorized approvals stage)
    (hpassed : stage.passed = true) : ∃ tool op, operation tool x.plan.arguments = some op ∧
      (∀ call, .execute call ∈ stage.notes → call = op.execute) ∧
      (x.IsSafe tool ∨ ∃ object, x.Compared approvals tool object) := by
  have hemit : ∀ (events : List (ExecutionEvent PhoneContent)) (call : SourceCall),
      Note.execute call ∉ events.map .emit := by
    intro events call hmem
    obtain ⟨_, _, h⟩ := List.mem_map.1 hmem
    cases h
  induction stage with
  | cancelled before ih => exact ih h hpassed
  | allowed op =>
    obtain ⟨tool, hop, h⟩ := h
    exact ⟨tool, op, hop, fun call hmem => (List.not_mem_nil hmem).elim, h⟩
  | announced op =>
    obtain ⟨tool, hop, h⟩ := h
    exact ⟨tool, op, hop, fun call hmem => (hemit _ call hmem).elim, h⟩
  | executing op =>
    obtain ⟨tool, hop, h⟩ := h
    refine ⟨tool, op, hop, fun call hmem => ?_, h⟩
    rcases List.mem_append.1 hmem with hmem | hmem
    · exact (hemit _ call hmem).elim
    · cases List.mem_singleton.1 hmem
      rfl
  | finished op outcome =>
    obtain ⟨tool, hop, h⟩ := h
    refine ⟨tool, op, hop, fun call hmem => ?_, h⟩
    rcases List.mem_append.1 hmem with hmem | hmem
    · rcases List.mem_append.1 hmem with hmem | hmem
      · exact (hemit _ call hmem).elim
      · cases List.mem_singleton.1 hmem
        rfl
    · exact (hemit _ call hmem).elim
  | called | compared _ _ | consumed _ | denied => cases hpassed

/-- The execution of a tool that needs a confirmation: the approval is one for this task, tool and
arguments, and had not expired when the clock was read. -/
structure Confirmed (s : PhoneToolGateway) (es : List (ℕ × Note)) (c : ℕ) (x : Collection)
    (tool : PhoneTool) : Prop where
  isMatch : matchCapability x.plan = some tool
  permission : tool.permission = .confirm
  approval : ∃ object a now, x.authorization = .approved object ∧ s.approvals[object]? = some a ∧
    a.taskId = x.taskId ∧ a.toolName = x.plan.toolName ∧ a.arguments = x.plan.arguments ∧
    (c, .clock now) ∈ es ∧ now < a.expiresAtEpochMillis

theorem confirmed_of_compared (h : Traced s es) (hx : s.collections[c]? = some x)
    {tool : PhoneTool} {object : ℕ} (hcompared : x.Compared s.approvals tool object) :
    Confirmed s es c x tool := by
  obtain ⟨hmatch, hconfirm, hauthorization, a, now, ha, hclock, hfits⟩ := hcompared
  simp only [Approved.fits, Bool.and_eq_true, decide_eq_true_eq] at hfits
  obtain ⟨⟨⟨htask, htool⟩, harguments⟩, hexpires⟩ := hfits
  refine ⟨hmatch, hconfirm, object, a, now, hauthorization, ha, htask, htool, harguments, ?_,
    hexpires⟩
  rw [← mem_notesOf, notesOf_eq h hx, Collection.notes, hclock]
  exact List.mem_append_left _ (List.mem_singleton.2 rfl)

/-- What one collection that ran to its end has done: it executed its tool once, or it emitted one
error and nothing else. -/
theorem completed_notes (h : Traced s es) (hx : s.collections[c]? = some x)
    (hcompleted : x.stage.completed = true) :
    (notesOf c es).countP Note.isExecution = 1 ∨
      ((notesOf c es).countP Note.isExecution = 0 ∧ emittedBy c es = [unauthorizedError]) := by
  have hclock : (x.clock.toList.map Note.clock).filterMap Note.event? = [] := by
    cases x.clock <;> rfl
  unfold emittedBy
  rw [notesOf_eq h hx, Collection.notes, List.countP_append, countP_clock, Nat.zero_add,
    List.filterMap_append, hclock]
  cases hstage : x.stage with
  | finished op outcome =>
    left
    simp only [FlowStage.notes, List.countP_append, countP_conclude]
    rfl
  | denied => exact Or.inr ⟨rfl, rfl⟩
  | _ =>
    rw [hstage] at hcompleted
    cases hcompleted

/-- **Executions are authorized**, in any interleaving of collections while the gateway stays open. -/
theorem executions_authorized {s₀ : PhoneToolGateway} (h₀ : s₀.collections = [])
    (h : Machine.Reaches PhoneToolGateway.step (fun _ _ a => StaysOpen a) s₀ s es) :
    (∀ c call, (c, .execute call) ∈ es → ∃ x tool op, s.collections[c]? = some x ∧
      operation tool x.plan.arguments = some op ∧ call = op.execute ∧
      (x.IsSafe tool ∨ Confirmed s es c x tool)) ∧
    (∀ object, executions s (·.authorization = .approved object) es ≤ 1) ∧
    (∀ taskId, executions s (fun x => x.needsConfirmation && x.taskId = taskId) es ≤ 1) ∧
    (∀ c x, s.collections[c]? = some x → x.stage.completed = true →
      (notesOf c es).countP Note.isExecution = 1 ∨
      ((notesOf c es).countP Note.isExecution = 0 ∧ emittedBy c es = [unauthorizedError])) := by
  have hguarded := guarded_of_reaches h₀ h
  have htraced := hguarded.toTraced
  refine ⟨?_, ?_, ?_, fun c x hx => completed_notes htraced hx⟩
  · intro c call hexecute
    obtain ⟨x, hx, hpassed, hnotes⟩ := passed_of_execute htraced hexecute
    obtain ⟨tool, op, hop, hcall, hauthorized⟩ := (hguarded.authorized hx).of_passed hpassed
    refine ⟨x, tool, op, hx, hop, hcall call hnotes, hauthorized.imp id ?_⟩
    rintro ⟨object, hcompared⟩
    exact confirmed_of_compared htraced hx hcompared
  · intro object
    refine executions_le_one htraced fun c c' x x' hx hx' hpassed hpassed' hp hp' => ?_
    rw [decide_eq_true_eq] at hp hp'
    exact hguarded.objects.unique hx hx' ⟨hp, claimed_of_passed hpassed⟩
      ⟨hp', claimed_of_passed hpassed'⟩
  · intro taskId
    have hholds : ∀ {c : ℕ} {x : Collection}, s.collections[c]? = some x → x.stage.passed = true →
        (x.needsConfirmation && decide (x.taskId = taskId)) = true → x.HoldsTask taskId := by
      intro c x hx hpassed hp
      rw [Bool.and_eq_true, decide_eq_true_eq] at hp
      obtain ⟨hconfirm, htask⟩ := hp
      obtain ⟨tool, op, _, _, hsafe | ⟨object, hcompared⟩⟩ :=
        (hguarded.authorized hx).of_passed hpassed
      · simp [Collection.needsConfirmation, hsafe.1, hsafe.2.1] at hconfirm
      · exact ⟨⟨object, hcompared.2.2.1⟩, hpassed, htask⟩
    refine executions_le_one htraced fun c c' x x' hx hx' hpassed hpassed' hp hp' => ?_
    exact hguarded.tasks.unique hx hx' (hholds hx hpassed hp) (hholds hx' hpassed' hp')

section Example

def flashlightPlan : GoffyExecutionPlan where
  command := lit "turn on the flashlight"
  executionTarget := .phone
  toolName := lit "phone.flashlight.set"
  permission := .confirm
  arguments := .phoneFlashlightSet true

def batteryPlan : GoffyExecutionPlan where
  command := lit "battery"
  executionTarget := .phone
  toolName := lit "phone.battery.status"
  permission := .safe

/-- One approval and two collections of the same flow. -/
def flashlightTwice : List PhoneGatewayAction :=
  [.approve 1 (lit "phone.flashlight.set") (.phoneFlashlightSet true) 61000,
    .collect 1 flashlightPlan (.approved 0), .collect 1 flashlightPlan (.approved 0),
    .advance 0 1000 .timeout, .advance 1 1000 .timeout, .advance 0 1000 .timeout,
    .advance 1 1000 .timeout, .advance 0 1000 .timeout, .advance 0 1000 .timeout,
    .advance 0 1000 .timeout]

theorem flashlight_executed_once : ∃ s es,
    Machine.Reaches PhoneToolGateway.step (fun _ _ a => StaysOpen a) {} s es ∧
    executions s (·.authorization = .approved 0) es = 1 ∧
    emittedBy 1 es = [unauthorizedError] ∧
    ∃ x tool op, s.collections[0]? = some x ∧ operation tool x.plan.arguments = some op ∧
      SourceCall.setFlashlight true = op.execute ∧
      (x.IsSafe tool ∨ Confirmed s es 0 x tool) := by
  have hrun : Machine.run PhoneToolGateway.step {} flashlightTwice = some (_, _) := rfl
  have hreach := Machine.reaches_of_run
    (Machine.allowed_of_forall (by decide : ∀ a ∈ flashlightTwice, StaysOpen a)) hrun
  refine ⟨_, _, hreach, rfl, rfl, (executions_authorized rfl hreach).1 0 _ ?_⟩
  simp [PhoneToolOperation.announce]

/-- Two collections of the flow of a safe tool. -/
def batteryTwice : List PhoneGatewayAction :=
  [.collect 1 batteryPlan .safe, .collect 1 batteryPlan .safe,
    .advance 0 0 .timeout, .advance 0 0 .timeout, .advance 0 0 .timeout,
    .advance 1 0 .timeout, .advance 1 0 .timeout, .advance 1 0 .timeout]

/-- The task id of a safe tool leads to as many executions as there are collections. -/
theorem safe_tool_repeats : ∃ s es,
    Machine.Reaches PhoneToolGateway.step (fun _ _ a => StaysOpen a) {} s es ∧
    executions s (·.taskId = 1) es = 2 := by
  have hrun : Machine.run PhoneToolGateway.step {} batteryTwice = some (_, _) := rfl
  exact ⟨_, _, Machine.reaches_of_run
    (Machine.allowed_of_forall (by decide : ∀ a ∈ batteryTwice, StaysOpen a)) hrun, rfl⟩

end Example

end Invariant

end GoffyPhone
