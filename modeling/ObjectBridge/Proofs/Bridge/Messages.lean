import ObjectBridge.Proofs.Bridge.Callbacks
import ObjectBridge.Proofs.Bridge.Uses

namespace ObjectBridge

namespace Bridge

variable {b : Bridge} {receiver : Receiver} {selector : String} {id : ClassId} {onClass : Bool}

-- Where a message is looked up: an instance answers with the methods of its class, a class with its own.
inductive Answerer (b : Bridge) : Receiver → ClassId → Bool → Prop where
  | instance {a : Address} {i : Instance} (lives : b.heap.get? a = some i) : Answerer b (.instance a) i.cls false
  | classObject (id : ClassId) : Answerer b (.classObject id) id true

-- What a receiver that does not answer is called in the error.
inductive Called (b : Bridge) : Receiver → String → Prop where
  | answerer {receiver : Receiver} {id : ClassId} {onClass : Bool} (answerer : b.Answerer receiver id onClass) :
      Called b receiver (b.natives.describe id onClass)
  | nobody : Called b .none "nil"

-- What becomes of a message, by the receiver, the methods there and the number of arguments.
inductive Delivery (b : Bridge) (selector : String) (args : List NativeValue) : Receiver → Except CallError Routine → Prop where
  | answered {receiver : Receiver} {id : ClassId} {onClass : Bool} {body : Routine} (answerer : b.Answerer receiver id onClass)
      (found : b.natives.lookup id selector onClass = some body) (counted : args.length = selectorArity selector) :
      Delivery b selector args receiver (.ok body)
  | miscounted {receiver : Receiver} {id : ClassId} {onClass : Bool} {body : Routine} (answerer : b.Answerer receiver id onClass)
      (found : b.natives.lookup id selector onClass = some body) (differ : args.length ≠ selectorArity selector) :
      Delivery b selector args receiver (.error (.argCountMismatch (selectorArity selector) args.length))
  | unrecognized {receiver : Receiver} {id : ClassId} {onClass : Bool} (answerer : b.Answerer receiver id onClass)
      (absent : b.natives.lookup id selector onClass = none) :
      Delivery b selector args receiver (.error (.unrecognizedSelector (b.natives.describe id onClass) selector))
  | dead {a : Address} (gone : b.heap.get? a = none) : Delivery b selector args (.instance a) (.error (.deadReceiver a))
  | nobody : Delivery b selector args .none (.error (.unrecognizedSelector "nil" selector))

theorem answerer_or_not (b : Bridge) (receiver : Receiver) :
    (∃ id onClass, b.Answerer receiver id onClass) ∨ (∃ a, receiver = .instance a ∧ b.heap.get? a = none) ∨
      receiver = .none := by
  cases receiver with
  | «instance» a =>
    cases lives : b.heap.get? a with
    | some i => exact .inl ⟨_,_,.instance lives⟩
    | none => exact .inr (.inl ⟨a,rfl,lives⟩)
  | classObject id => exact .inl ⟨_,_,.classObject id⟩
  | none => exact .inr (.inr rfl)

theorem isLive_false {a : Address} : b.heap.isLive a = false ↔ b.heap.get? a = none :=
  Option.isSome_eq_false_iff.trans Option.isNone_iff_eq_none

theorem Answerer.respondsTo (answerer : b.Answerer receiver id onClass) :
    b.respondsTo receiver selector = (b.natives.lookup id selector onClass).isSome := by
  cases answerer with
  | «instance» lives => rw [Bridge.respondsTo,Heap.classOf?,lives]; rfl
  | classObject => rfl

theorem Answerer.messageTarget (answerer : b.Answerer receiver id onClass) :
    b.messageTarget receiver selector = match b.natives.lookup id selector onClass with
      | some body => .ok body
      | none => .error (.unrecognizedSelector (b.natives.describe id onClass) selector) := by
  cases answerer with
  | «instance» lives => rw [Bridge.messageTarget,Heap.classOf?,lives]; rfl
  | classObject => rfl

theorem respondsTo_dead {a : Address} (gone : b.heap.get? a = none) : b.respondsTo (.instance a) selector = false := by
  rw [respondsTo,Heap.classOf?,gone]
  rfl

theorem respondsTo_iff : b.respondsTo receiver selector = true ↔
    ∃ id onClass body, b.Answerer receiver id onClass ∧ b.natives.lookup id selector onClass = some body := by
  constructor
  · intro responds
    rcases b.answerer_or_not receiver with ⟨id,onClass,answerer⟩ | ⟨a,rfl,gone⟩ | rfl
    · rw [answerer.respondsTo,Option.isSome_iff_exists] at responds
      obtain ⟨body,found⟩ := responds
      exact ⟨id,onClass,body,answerer,found⟩
    · cases responds.symm.trans (respondsTo_dead gone)
    · cases responds
  · rintro ⟨id,onClass,body,answerer,found⟩
    rw [answerer.respondsTo,found]
    rfl

theorem Delivery.exists (b : Bridge) (receiver : Receiver) (selector : String) (args : List NativeValue) :
    ∃ outcome, b.Delivery selector args receiver outcome := by
  rcases b.answerer_or_not receiver with ⟨id,onClass,answerer⟩ | ⟨a,rfl,gone⟩ | rfl
  · cases found : b.natives.lookup id selector onClass with
    | none => exact ⟨_,.unrecognized answerer found⟩
    | some body =>
      by_cases counted : args.length = selectorArity selector
      · exact ⟨_,.answered answerer found counted⟩
      · exact ⟨_,.miscounted answerer found counted⟩
  · exact ⟨_,.dead gone⟩
  · exact ⟨_,.nobody⟩

end Bridge

variable {σ : Type} {w : World σ} {receiver : Receiver} {selector : String} {args : List NativeValue} {body other : Routine}
  {e : CallError}

-- Whatever native code does, sending the message is to run this routine once, with the receiver and the
-- arguments as they were given, and to answer what it answers.
def World.MessageRuns (w : World σ) (receiver : Receiver) (selector : String) (args : List NativeValue) (body : Routine) : Prop :=
  ∀ host : Host σ, host.send receiver selector args w =
    (host.perform body ⟨receiver,selector,args⟩ w).map (Prod.map .ok id)

-- No native code is run, and everything stays as it was.
def World.MessageFails (w : World σ) (receiver : Receiver) (selector : String) (args : List NativeValue) (e : CallError) : Prop :=
  ∀ host : Host σ, host.send receiver selector args w = some (.error e,w)

theorem Bridge.Delivery.runs (delivered : w.bridge.Delivery selector args receiver (.ok body)) :
    w.MessageRuns receiver selector args body := by
  cases delivered with
  | answered answerer found counted =>
    intro host
    rw [Host.send,readBridge_then,answerer.messageTarget,found]
    dsimp only
    rw [Host.enter,if_pos counted,Run.bind_run]
    cases host.perform body ⟨receiver,selector,args⟩ w <;> rfl

theorem Bridge.Delivery.fails (delivered : w.bridge.Delivery selector args receiver (.error e)) :
    w.MessageFails receiver selector args e := by
  intro host
  rw [Host.send,readBridge_then]
  cases delivered with
  | miscounted answerer found differ =>
    rw [answerer.messageTarget,found]
    dsimp only
    rw [Host.enter,if_neg differ]
    rfl
  | unrecognized answerer absent =>
    rw [answerer.messageTarget,absent]
    rfl
  | dead gone =>
    rw [Bridge.messageTarget,Heap.classOf?,gone]
    rfl
  | nobody => rfl

namespace World

-- Native code that never comes back from one routine.
def stuckIn (body : Routine) : Host σ := ⟨fun r _ w => if r = body then none else some (.void,w),fun _ _ _ => none⟩

theorem MessageRuns.unique (runs : w.MessageRuns receiver selector args body)
    (again : w.MessageRuns receiver selector args other) : body = other := by
  have same := (runs (stuckIn body)).symm.trans (again (stuckIn body))
  by_contra different
  simp [stuckIn,Ne.symm different] at same

theorem MessageRuns.not_fails (runs : w.MessageRuns receiver selector args body)
    (fails : w.MessageFails receiver selector args e) : False := by
  have same := (runs (stuckIn body)).symm.trans (fails (stuckIn body))
  simp [stuckIn] at same

theorem MessageRuns.delivered (runs : w.MessageRuns receiver selector args body) :
    w.bridge.Delivery selector args receiver (.ok body) := by
  obtain ⟨outcome,delivered⟩ := Bridge.Delivery.exists w.bridge receiver selector args
  cases outcome with
  | error e => exact (runs.not_fails delivered.fails).elim
  | ok routine => exact runs.unique delivered.runs ▸ delivered

-- An error of the message itself comes before any native code.
theorem failing_message_untouched {host : Host σ} {after : World σ}
    (failed : host.send receiver selector args w = some (.error e,after)) :
    after = w ∧ w.MessageFails receiver selector args e := by
  obtain ⟨outcome,delivered⟩ := Bridge.Delivery.exists w.bridge receiver selector args
  cases outcome with
  | error e' =>
    cases (delivered.fails host).symm.trans failed
    exact ⟨rfl,delivered.fails⟩
  | ok body =>
    rw [delivered.runs host] at failed
    cases does : host.perform body ⟨receiver,selector,args⟩ w <;> rw [does] at failed <;> cases failed

theorem respondsTo_predicts_send (w : World σ) (receiver : Receiver) (selector : String) (args : List NativeValue) :
    (∀ body, w.MessageRuns receiver selector args body ↔
      w.bridge.respondsTo receiver selector = true ∧ args.length = selector.toList.count ':' ∧
        ∃ id onClass, w.bridge.Answerer receiver id onClass ∧ w.bridge.natives.lookup id selector onClass = some body) ∧
    ((∃! body, w.MessageRuns receiver selector args body) ↔
      w.bridge.respondsTo receiver selector = true ∧ args.length = selector.toList.count ':') ∧
    (w.bridge.respondsTo receiver selector = true → args.length ≠ selector.toList.count ':' →
      w.MessageFails receiver selector args (.argCountMismatch (selector.toList.count ':') args.length)) ∧
    (∀ a, receiver = .instance a → w.bridge.heap.isLive a = false →
      w.bridge.respondsTo receiver selector = false ∧ w.MessageFails receiver selector args (.deadReceiver a)) ∧
    (w.bridge.respondsTo receiver selector = false → (∀ a, receiver = .instance a → w.bridge.heap.isLive a = true) →
      ∃ called, w.bridge.Called receiver called ∧
        w.MessageFails receiver selector args (.unrecognizedSelector called selector)) ∧
    ∀ (host : Host σ) (e : CallError) (after : World σ), host.send receiver selector args w = some (.error e,after) →
      after = w ∧ w.MessageFails receiver selector args e := by
  have runs : ∀ body, w.MessageRuns receiver selector args body ↔
      w.bridge.respondsTo receiver selector = true ∧ args.length = selector.toList.count ':' ∧
        ∃ id onClass, w.bridge.Answerer receiver id onClass ∧ w.bridge.natives.lookup id selector onClass = some body := by
    intro body
    constructor
    · intro runs
      cases runs.delivered with
      | answered answerer found counted =>
        exact ⟨Bridge.respondsTo_iff.mpr ⟨_,_,_,answerer,found⟩,counted,_,_,answerer,found⟩
    · rintro ⟨_,counted,_,_,answerer,found⟩
      exact (Bridge.Delivery.answered answerer found counted).runs
  refine ⟨runs,⟨?_,?_⟩,?_,?_,?_,fun _ _ _ => failing_message_untouched⟩
  · rintro ⟨body,does,_⟩
    exact ⟨((runs body).mp does).1,((runs body).mp does).2.1⟩
  · rintro ⟨responds,counted⟩
    obtain ⟨id,onClass,body,answerer,found⟩ := Bridge.respondsTo_iff.mp responds
    have does := (runs body).mpr ⟨responds,counted,id,onClass,answerer,found⟩
    exact ⟨body,does,fun other another => another.unique does⟩
  · intro responds differ
    obtain ⟨id,onClass,body,answerer,found⟩ := Bridge.respondsTo_iff.mp responds
    exact (Bridge.Delivery.miscounted answerer found differ).fails
  · rintro a rfl dead
    have gone := Bridge.isLive_false.mp dead
    exact ⟨Bridge.respondsTo_dead gone,(Bridge.Delivery.dead gone).fails⟩
  · intro silent lives
    rcases w.bridge.answerer_or_not receiver with ⟨id,onClass,answerer⟩ | ⟨a,rfl,gone⟩ | rfl
    · rw [answerer.respondsTo,Option.isSome_eq_false_iff,Option.isNone_iff_eq_none] at silent
      exact ⟨_,.answerer answerer,(Bridge.Delivery.unrecognized answerer silent).fails⟩
    · cases (lives a rfl).symm.trans (Bridge.isLive_false.mpr gone)
    · exact ⟨_,.nobody,Bridge.Delivery.nobody.fails⟩

end World

end ObjectBridge
