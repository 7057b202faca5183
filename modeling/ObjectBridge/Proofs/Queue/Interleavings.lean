import Mathlib.Logic.Function.Basic
import ObjectBridge.Proofs.Queue.Wakes

namespace ObjectBridge

-- A push looks whether the queue is terminated, enqueues, disarms the wake, and wakes if it was armed. That the
-- wake is a section of its own only adds to what may come in between.
inductive QueueSection (ρ μ : Type) where
  | check (producer : ρ) (message : μ)
  | enqueue (producer : ρ)
  | disarm (producer : ρ)
  | wake (producer : ρ)
  | arm
  | take

-- How far a producer is with its push.
inductive PushStage (μ : Type) where
  | idle
  | admitted (message : μ)
  | queued
  | waking

structure Traffic (ρ μ ω : Type) where
  queue : Queue (ρ × μ) ω
  stages : ρ → PushStage μ
  draining : Bool
  log : List (QueueEvent ρ μ ω)

variable {ρ μ ω : Type}

@[simp] def QueueSection.calls : QueueSection ρ μ → List (ρ × μ)
  | .check producer message => [(producer,message)]
  | _ => []

namespace Traffic

def start (coalescing : Bool) (target : ω) : Traffic ρ μ ω :=
  ⟨(Queue.empty coalescing).attach target,fun _ => .idle,false,[]⟩

-- Nobody is between two sections.
def Quiet (t : Traffic ρ μ ω) : Prop := (∀ producer, t.stages producer = .idle) ∧ t.draining = false

def delivered (t : Traffic ρ μ ω) : List (ρ × μ) := t.log.flatMap QueueEvent.delivers

-- What a producer has called to push and not yet enqueued.
def underway (t : Traffic ρ μ ω) (producer : ρ) : List (ρ × μ) :=
  match t.stages producer with
  | .admitted message => [(producer,message)]
  | _ => []

theorem Quiet.underway {t : Traffic ρ μ ω} (quiet : t.Quiet) (producer : ρ) : t.underway producer = [] := by
  rw [Traffic.underway,quiet.1 producer]

variable [DecidableEq ρ]

def enter (t : Traffic ρ μ ω) (producer : ρ) (stage : PushStage μ) : Traffic ρ μ ω :=
  { t with stages := Function.update t.stages producer stage }

-- No one begins a section out of turn.
def advance (t : Traffic ρ μ ω) : QueueSection ρ μ → Option (Traffic ρ μ ω)
  | .check producer message =>
    match t.stages producer with
    | .idle =>
      if t.queue.terminated then some { t with log := t.log ++ [.pushed producer message false] }
      else some (t.enter producer (.admitted message))
    | _ => none
  | .enqueue producer =>
    match t.stages producer with
    | .admitted message =>
      some { t.enter producer .queued with
        queue := t.queue.enqueue (producer,message)
        log := t.log ++ [.pushed producer message true] }
    | _ => none
  | .disarm producer =>
    match t.stages producer with
    | .queued =>
      let (wakes,queue) := t.queue.disarm
      some { t.enter producer (if wakes then .waking else .idle) with queue }
    | _ => none
  | .wake producer =>
    match t.stages producer with
    | .waking => some { t.enter producer .idle with log := t.log ++ t.queue.target.toList.map .woke }
    | _ => none
  | .arm =>
    if t.draining then none else some { t with queue := t.queue.arm, draining := true, log := t.log ++ [.armed] }
  | .take =>
    if t.draining then
      let (batch,queue) := t.queue.takeMessages
      some { t with queue, draining := false, log := t.log ++ [.drained batch] }
    else none

def run (t : Traffic ρ μ ω) (sections : List (QueueSection ρ μ)) : Option (Traffic ρ μ ω) := sections.foldlM advance t

variable {t t' : Traffic ρ μ ω} {done : List (QueueSection ρ μ)} {part : QueueSection ρ μ} {target : ω}

inductive Step (t : Traffic ρ μ ω) : QueueSection ρ μ → Traffic ρ μ ω → Prop where
  | accept {producer : ρ} (message : μ) (idle : t.stages producer = .idle) (running : t.queue.terminated = false) :
      Step t (.check producer message) (t.enter producer (.admitted message))
  | refuse {producer : ρ} (message : μ) (idle : t.stages producer = .idle) (stopped : t.queue.terminated = true) :
      Step t (.check producer message) { t with log := t.log ++ [.pushed producer message false] }
  | enqueue {producer : ρ} {message : μ} (admitted : t.stages producer = .admitted message) :
      Step t (.enqueue producer) { t.enter producer .queued with
        queue := t.queue.enqueue (producer,message)
        log := t.log ++ [.pushed producer message true] }
  | spend {producer : ρ} (queued : t.stages producer = .queued) :
      Step t (.disarm producer) { t.enter producer .waking with
        queue := { t.queue with armed := t.queue.armed && !t.queue.coalescing } }
  | pass {producer : ρ} (queued : t.stages producer = .queued) (spent : t.queue.armed = false) :
      Step t (.disarm producer) (t.enter producer .idle)
  | wake {producer : ρ} (waking : t.stages producer = .waking) :
      Step t (.wake producer) { t.enter producer .idle with log := t.log ++ t.queue.target.toList.map .woke }
  | arm (free : t.draining = false) :
      Step t .arm { t with queue := t.queue.arm, draining := true, log := t.log ++ [.armed] }
  | take (draining : t.draining = true) :
      Step t .take { t with
        queue := { t.queue with messages := [] }
        draining := false
        log := t.log ++ [.drained t.queue.messages] }

theorem disarm_step {producer : ρ} (queued : t.stages producer = .queued) :
    Step t (.disarm producer)
      { t.enter producer (if t.queue.disarm.1 then .waking else .idle) with queue := t.queue.disarm.2 } := by
  obtain ⟨⟨messages,target,armed,terminated,coalescing⟩,stages,draining,log⟩ := t
  cases coalescing with
  | false =>
    have step := Step.spend queued
    cases armed <;> exact step
  | true =>
    cases armed with
    | true => exact .spend queued
    | false => exact .pass queued rfl

theorem advance_step (advanced : t.advance part = some t') : Step t part t' := by
  cases part with
  | check producer message =>
    rw [advance] at advanced
    split at advanced
    · next idle =>
      split at advanced <;> cases advanced
      · next stopped => exact .refuse message idle stopped
      · next running => exact .accept message idle (Bool.not_eq_true _ ▸ running)
    · cases advanced
  | enqueue producer =>
    rw [advance] at advanced
    split at advanced <;> cases advanced
    next message admitted => exact .enqueue admitted
  | disarm producer =>
    rw [advance] at advanced
    split at advanced <;> cases advanced
    next queued => exact disarm_step queued
  | wake producer =>
    rw [advance] at advanced
    split at advanced <;> cases advanced
    next waking => exact .wake waking
  | arm =>
    rw [advance] at advanced
    split at advanced <;> cases advanced
    next free => exact .arm (Bool.not_eq_true _ ▸ free)
  | take =>
    rw [advance] at advanced
    split at advanced <;> cases advanced
    next draining => exact .take draining

-- What holds at the start and is kept by every section holds after any interleaving.
theorem run_induct {motive : List (QueueSection ρ μ) → Traffic ρ μ ω → Prop} {t₀ : Traffic ρ μ ω} (start : motive [] t₀)
    (next : ∀ done t part t', motive done t → Step t part t' → motive (done ++ [part]) t')
    {sections : List (QueueSection ρ μ)} (runs : t₀.run sections = some t) : motive sections t := by
  induction sections using List.reverseRecOn generalizing t with
  | nil => cases runs; exact start
  | append_singleton done last ih =>
    rw [run,List.foldlM_append] at runs
    obtain ⟨before,earlier,advanced⟩ := Option.bind_eq_some_iff.mp runs
    have step : before.advance last = some t := by simpa using advanced
    exact next done before last t (ih earlier) (advance_step step)

-- The target has been woken since the last drain set out, or somebody is about to wake it.
def Promised (t : Traffic ρ μ ω) (target : ω) : Prop :=
  .woke target ∈ sinceArmed t.log ∨ ∃ producer, t.stages producer = .waking

-- Whoever found the wake armed wakes, whoever finds it spent can rely on that, and whatever waits without a wake
-- will be seen by its own push or by a drain that has armed the wake and not yet taken.
structure Watchful (target : ω) (t : Traffic ρ μ ω) : Prop where
  attached : t.queue.target = some target
  running : t.queue.terminated = false
  spent : t.queue.armed = false → t.Promised target
  waiting : t.queue.messages ≠ [] → t.Promised target ∨ t.draining = true ∨ ∃ producer, t.stages producer = .queued

theorem enter_self (t : Traffic ρ μ ω) (producer : ρ) (stage : PushStage μ) :
    (t.enter producer stage).stages producer = stage := Function.update_self ..

-- Who stands at another stage than the one that moves stays there.
theorem enter_others {producer other : ρ} {stage : PushStage μ} (there : t.stages other = stage)
    (moves : t.stages producer ≠ stage) (entered : PushStage μ) : (t.enter producer entered).stages other = stage := by
  have different : other ≠ producer := fun same => moves (same ▸ there)
  exact (Function.update_of_ne different ..).trans there

-- Only a drain that sets out makes room for a new promise.
theorem Step.promised (step : Step t part t') (attached : t.queue.target = some target) (stays : part ≠ .arm)
    (promised : t.Promised target) : t'.Promised target := by
  cases step with
  | arm => exact (stays rfl).elim
  | wake waking =>
    refine .inl ?_
    rw [sinceArmed_append wakes_arm_nothing]
    simp [attached]
  | accept message idle =>
    exact promised.imp_right fun ⟨other,waking⟩ => ⟨other,enter_others waking (by simp [idle]) _⟩
  | spend queued | pass queued =>
    exact promised.imp_right fun ⟨other,waking⟩ => ⟨other,enter_others waking (by simp [queued]) _⟩
  | refuse | take => exact promised.imp_left fun woken => mem_sinceArmed_append woken (by simp [QueueEvent.arms])
  | enqueue admitted =>
    exact promised.imp (fun woken => mem_sinceArmed_append woken (by simp [QueueEvent.arms]))
      fun ⟨other,waking⟩ => ⟨other,enter_others waking (by simp [admitted]) _⟩

theorem Step.watchful (step : Step t part t') (before : Watchful target t) : Watchful target t' := by
  obtain ⟨attached,running,spent,waiting⟩ := before
  have keeps : part ≠ .arm → t.Promised target → t'.Promised target := step.promised attached
  cases step with
  | accept message idle =>
    refine ⟨attached,running,fun unarmed => keeps nofun (spent unarmed),fun nonempty => ?_⟩
    rcases waiting nonempty with promised | draining | ⟨other,queued⟩
    · exact .inl (keeps nofun promised)
    · exact .inr (.inl draining)
    · exact .inr (.inr ⟨other,enter_others queued (by simp [idle]) _⟩)
  | refuse message idle stopped => cases running.symm.trans stopped
  | enqueue admitted =>
    exact ⟨attached,running,fun unarmed => keeps nofun (spent unarmed),fun _ => .inr (.inr ⟨_,enter_self ..⟩)⟩
  | @spend producer queued =>
    have waking := enter_self t producer .waking
    exact ⟨attached,running,fun _ => .inr ⟨producer,waking⟩,fun _ => .inl (.inr ⟨producer,waking⟩)⟩
  | pass queued unarmed =>
    have promised := keeps nofun (spent unarmed)
    exact ⟨attached,running,fun _ => promised,fun _ => .inl promised⟩
  | wake waking =>
    have promised := keeps nofun (.inr ⟨_,waking⟩)
    exact ⟨attached,running,fun _ => promised,fun _ => .inl promised⟩
  -- What is queued when a drain sets out is excused until the drain takes it, and by then none of it is left.
  | arm free => exact ⟨attached,running,fun unarmed => (nomatch unarmed),fun _ => .inr (.inl rfl)⟩
  | take draining =>
    exact ⟨attached,running,fun unarmed => keeps nofun (spent unarmed),fun nonempty => (nonempty rfl).elim⟩

-- What a producer has called to push has come out, is queued, or is on its way, in this order.
def Accounted (done : List (QueueSection ρ μ)) (t : Traffic ρ μ ω) : Prop :=
  ∀ producer, (t.delivered ++ t.queue.messages ++ t.underway producer).filter (·.1 = producer) =
    (done.flatMap QueueSection.calls).filter (·.1 = producer)

theorem Step.accounted (step : Step t part t') (running : t.queue.terminated = false) (before : Accounted done t) :
    Accounted (done ++ [part]) t' := by
  intro other
  have account := before other
  simp only [List.flatMap_append,List.filter_append,← account]
  cases step with
  | refuse message idle stopped => cases running.symm.trans stopped
  | arm free => simp [delivered,underway,Queue.arm]
  | take draining => simp [delivered,underway]
  | @accept producer message idle =>
    by_cases own : other = producer
    · simp [own,delivered,underway,enter,idle]
    · simp [own,Ne.symm own,delivered,underway,enter]
  | @enqueue producer message admitted =>
    by_cases own : other = producer
    · simp [own,delivered,underway,enter,admitted,Queue.enqueue]
    · simp [own,Ne.symm own,delivered,underway,enter,Queue.enqueue]
  | @spend producer queued | @pass producer queued =>
    by_cases own : other = producer
    · simp [own,delivered,underway,enter,queued]
    · simp [own,delivered,underway,enter]
  | @wake producer waking =>
    have delivers := (@Course.wakes_enter_nothing ρ μ ω t.queue.target.toList).2.1
    by_cases own : other = producer
    · simp [own,delivered,underway,enter,waking,delivers]
    · simp [own,delivered,underway,enter,delivers]

theorem run_sound {coalescing : Bool} {sections : List (QueueSection ρ μ)}
    (runs : (start coalescing target).run sections = some t) : Watchful target t ∧ Accounted sections t := by
  refine run_induct (motive := fun done t => Watchful target t ∧ Accounted done t) ?_ ?_ runs
  · exact ⟨⟨rfl,rfl,fun unarmed => (nomatch unarmed),fun nonempty => (nonempty rfl).elim⟩,fun _ => rfl⟩
  · intro done t part t' before step
    obtain ⟨watchful,accounted⟩ := before
    exact ⟨step.watchful watchful,step.accounted watchful.running accounted⟩

-- A drain that nothing interrupts.
theorem run_drain (t : Traffic ρ μ ω) (free : t.draining = false) :
    ∃ t', t.run [.arm,.take] = some t' ∧ t'.delivered = t.delivered ++ t.queue.messages ∧ t'.queue.messages = [] := by
  refine ⟨{ t with
    queue := { t.queue with messages := [], armed := true }
    draining := false
    log := t.log ++ [.armed] ++ [.drained t.queue.messages] },?_,?_,rfl⟩
  · simp [run,advance,free,Queue.arm,Queue.takeMessages]
  · simp [delivered]

-- Whenever nobody is between two sections and messages wait, the consumer has been woken since its last drain set
-- out. Of what each producer has called to push nothing is lost, seen twice or out of order, and one more drain
-- brings out the rest.
theorem push_never_stranded {coalescing : Bool} {sections : List (QueueSection ρ μ)}
    (runs : (start coalescing target).run sections = some t) :
    (t.Quiet → t.queue.messages ≠ [] → .woke target ∈ sinceArmed t.log) ∧
    (∀ producer, (t.delivered ++ t.queue.messages ++ t.underway producer).filter (·.1 = producer) =
      (sections.flatMap QueueSection.calls).filter (·.1 = producer)) ∧
    (t.Quiet → ∃ t', t.run [.arm,.take] = some t' ∧ t'.queue.messages = [] ∧
      ∀ producer, t'.delivered.filter (·.1 = producer) =
        (sections.flatMap QueueSection.calls).filter (·.1 = producer)) := by
  obtain ⟨watchful,accounted⟩ := run_sound runs
  refine ⟨fun ⟨idle,free⟩ nonempty => ?_,accounted,fun quiet => ?_⟩
  · rcases watchful.waiting nonempty with (woken | ⟨producer,waking⟩) | draining | ⟨producer,queued⟩
    · exact woken
    · cases (idle producer).symm.trans waking
    · cases free.symm.trans draining
    · cases (idle producer).symm.trans queued
  · obtain ⟨t',drained,brought,empty⟩ := run_drain t quiet.2
    refine ⟨t',drained,empty,fun producer => ?_⟩
    rw [brought,← accounted producer,quiet.underway producer,List.append_nil]

-- A drain comes in between a push and its wake, which then leaves the wake spent for the next push.
theorem push_after_spurious_wake :
    let sections : List (QueueSection Bool Nat) := [.check false 1,.enqueue false,.arm,.take,.disarm false,.wake false,
      .check true 2,.enqueue true,.disarm true]
    ∃ t, (start true ()).run sections = some t ∧ t.queue.messages = [(true,2)] ∧ .woke () ∈ sinceArmed t.log := by
  intro sections
  have runs : (start true ()).run sections = some _ := rfl
  refine ⟨_,runs,rfl,(push_never_stranded runs).1 ⟨fun producer => ?_,rfl⟩ nofun⟩
  cases producer <;> rfl

-- The queue as a history of whole operations leaves it, with nobody between two sections.
def settled (c : Course ρ μ ω) : Traffic ρ μ ω := ⟨c.queue,fun _ => .idle,false,c.log⟩

-- The sections of an operation on a queue, if nothing comes in between. Attaching and shutting down are not part of
-- the traffic.
def sectionsOf (q : Queue (ρ × μ) ω) : QueueAct ρ μ ω → List (QueueSection ρ μ)
  | .push producer message =>
    .check producer message :: if q.terminated then [] else
      .enqueue producer :: .disarm producer :: if q.disarm.1 then [.wake producer] else []
  | .popAll => [.arm,.take]
  | .attach _ | .terminate => []

def Passes : QueueAct ρ μ ω → Prop
  | .push _ _ | .popAll => True
  | .attach _ | .terminate => False

theorem run_sectionsOf (c : Course ρ μ ω) {act : QueueAct ρ μ ω} (passes : Passes act) :
    (settled c).run (sectionsOf c.queue act) = some (settled (c.advance act)) := by
  cases act with
  | attach | terminate => exact passes.elim
  | popAll =>
    simp [run,advance,sectionsOf,settled,Course.advance,Queue.perform,Queue.popAll,Queue.takeMessages,Queue.arm]
  | push producer message =>
    obtain ⟨⟨messages,target,armed,terminated,coalescing⟩,log⟩ := c
    cases terminated <;> cases coalescing <;> cases armed <;>
      simp [run,advance,sectionsOf,settled,enter,Course.advance,Queue.perform,Queue.push,Queue.enqueue,Queue.disarm]

-- Nobody ever has to wait for another to go on.
theorem everyone_goes_on (t : Traffic ρ μ ω) :
    (∀ producer message, ∃ part ∈ [.check producer message,.enqueue producer,.disarm producer,.wake producer],
      (t.advance part).isSome) ∧ ((t.advance .arm).isSome ∨ (t.advance .take).isSome) := by
  constructor
  · intro producer message
    cases stage : t.stages producer with
    | idle =>
      refine ⟨.check producer message,by simp,?_⟩
      simp only [advance,stage]
      split <;> rfl
    | admitted => exact ⟨.enqueue producer,by simp,by simp [advance,stage]⟩
    | queued => exact ⟨.disarm producer,by simp,by simp [advance,stage]⟩
    | waking => exact ⟨.wake producer,by simp,by simp [advance,stage]⟩
  · cases draining : t.draining with
    | false => exact .inl (by simp [advance,draining])
    | true => exact .inr (by simp [advance,draining])

-- A history of whole pushes and drains is one of the interleavings.
theorem history_runs (c : Course ρ μ ω) (acts : List (QueueAct ρ μ ω)) (passes : ∀ act ∈ acts, Passes act) :
    ∃ sections, (settled c).run sections = some (settled (c.run acts)) := by
  induction acts generalizing c with
  | nil => exact ⟨[],rfl⟩
  | cons act rest ih =>
    obtain ⟨first,others⟩ := List.forall_mem_cons.mp passes
    obtain ⟨sections,runs⟩ := ih (c.advance act) others
    refine ⟨sectionsOf c.queue act ++ sections,?_⟩
    rw [run,List.foldlM_append]
    exact Option.bind_eq_some_iff.mpr ⟨_,run_sectionsOf c first,runs⟩

end Traffic

end ObjectBridge
