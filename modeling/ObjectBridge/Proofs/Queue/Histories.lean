import Mathlib.Data.List.Infix
import ObjectBridge.Queue.Queue

namespace ObjectBridge

-- `ρ` are producers; every message bears who pushed it.
inductive QueueAct (ρ μ ω : Type) where
  | attach (target : ω)
  | push (producer : ρ) (message : μ)
  | popAll
  | terminate

-- What the acts of a history did, in the order in which it happened. A shutdown notes what it discards.
inductive QueueEvent (ρ μ ω : Type) where
  | attached (target : ω)
  | pushed (producer : ρ) (message : μ) (accepted : Bool)
  | woke (target : ω)
  | armed
  | drained (batch : List (ρ × μ))
  | terminated (discarded : List (ρ × μ))

variable {ρ μ ω : Type}

@[simp] def QueueAct.pushes : QueueAct ρ μ ω → List (ρ × μ)
  | .push producer message => [(producer,message)]
  | _ => []

namespace QueueEvent

@[simp] def accepts : QueueEvent ρ μ ω → List (ρ × μ)
  | .pushed producer message true => [(producer,message)]
  | _ => []

@[simp] def delivers : QueueEvent ρ μ ω → List (ρ × μ)
  | .drained batch => batch
  | _ => []

@[simp] def discards : QueueEvent ρ μ ω → List (ρ × μ)
  | .terminated discarded => discarded
  | _ => []

-- From here on the next push wakes again.
def arms : QueueEvent ρ μ ω → Bool
  | .attached _ | .armed => true
  | _ => false

-- Nothing is accepted, woken or handed over.
def Idle : QueueEvent ρ μ ω → Prop
  | .pushed _ _ accepted => accepted = false
  | .woke _ => False
  | .drained batch => batch = []
  | .attached _ | .armed | .terminated _ => True

end QueueEvent

-- All that a push does to the wake.
theorem Queue.disarm_rest (q : Queue μ ω) : q.disarm.2 = { q with armed := q.armed && !q.coalescing } := by
  obtain ⟨messages,target,armed,terminated,coalescing⟩ := q
  cases coalescing <;> cases armed <;> rfl

def Queue.perform (q : Queue (ρ × μ) ω) : QueueAct ρ μ ω → List (QueueEvent ρ μ ω) × Queue (ρ × μ) ω
  | .attach target => ([.attached target],q.attach target)
  | .push producer message =>
    let p := q.push (producer,message)
    (.pushed producer message p.accepted :: p.woken.toList.map .woke,p.queue)
  | .popAll =>
    let (batch,q) := q.popAll
    ([.armed,.drained batch],q)
  | .terminate => ([.terminated q.messages],q.terminate)

structure Course (ρ μ ω : Type) where
  queue : Queue (ρ × μ) ω
  log : List (QueueEvent ρ μ ω)

namespace Course

def start (coalescing : Bool) : Course ρ μ ω := ⟨.empty coalescing,[]⟩

def advance (c : Course ρ μ ω) (act : QueueAct ρ μ ω) : Course ρ μ ω :=
  ⟨(c.queue.perform act).2,c.log ++ (c.queue.perform act).1⟩

def run (c : Course ρ μ ω) (acts : List (QueueAct ρ μ ω)) : Course ρ μ ω := acts.foldl advance c

def after (coalescing : Bool) (acts : List (QueueAct ρ μ ω)) : Course ρ μ ω := (start coalescing).run acts

def accepted (c : Course ρ μ ω) : List (ρ × μ) := c.log.flatMap QueueEvent.accepts

def delivered (c : Course ρ μ ω) : List (ρ × μ) := c.log.flatMap QueueEvent.delivers

def discarded (c : Course ρ μ ω) : List (ρ × μ) := c.log.flatMap QueueEvent.discards

variable {c c' : Course ρ μ ω} {acts : List (QueueAct ρ μ ω)} {act : QueueAct ρ μ ω}

theorem run_next (c : Course ρ μ ω) (acts : List (QueueAct ρ μ ω)) (act : QueueAct ρ μ ω) :
    c.run (acts ++ [act]) = (c.run acts).advance act := by
  rw [run,List.foldl_append]
  rfl

theorem after_next (coalescing : Bool) (acts : List (QueueAct ρ μ ω)) (act : QueueAct ρ μ ω) :
    after coalescing (acts ++ [act]) = (after coalescing acts).advance act := run_next _ acts act

-- What holds at the start and is kept by every act holds after any history.
theorem after_induct {motive : List (QueueAct ρ μ ω) → Course ρ μ ω → Prop} {coalescing : Bool}
    (start : motive [] (start coalescing))
    (next : ∀ acts c act, motive acts c → motive (acts ++ [act]) (c.advance act)) (acts : List (QueueAct ρ μ ω)) :
    motive acts (after coalescing acts) := by
  induction acts using List.reverseRecOn with
  | nil => exact start
  | append_singleton acts act ih =>
    rw [after_next]
    exact next acts _ act ih

-- Whom an accepted push wakes.
def wakes (q : Queue (ρ × μ) ω) : List ω := if q.coalescing && !q.armed then [] else q.target.toList

inductive Step (c : Course ρ μ ω) : QueueAct ρ μ ω → Course ρ μ ω → Prop where
  | attach (target : ω) :
      Step c (.attach target) ⟨{ c.queue with target := some target, armed := true },c.log ++ [.attached target]⟩
  | push (producer : ρ) (message : μ) (running : c.queue.terminated = false) :
      Step c (.push producer message)
        ⟨{ c.queue with
            messages := c.queue.messages ++ [(producer,message)]
            armed := c.queue.armed && !c.queue.coalescing },
          c.log ++ .pushed producer message true :: (wakes c.queue).map .woke⟩
  | refuse (producer : ρ) (message : μ) (stopped : c.queue.terminated = true) :
      Step c (.push producer message) ⟨c.queue,c.log ++ [.pushed producer message false]⟩
  | popAll :
      Step c .popAll ⟨{ c.queue with messages := [], armed := true },c.log ++ [.armed,.drained c.queue.messages]⟩
  | terminate :
      Step c .terminate ⟨{ c.queue with messages := [], target := none, terminated := true },
        c.log ++ [.terminated c.queue.messages]⟩

theorem perform_push (q : Queue (ρ × μ) ω) (producer : ρ) (message : μ) (running : q.terminated = false) :
    q.perform (.push producer message) = (.pushed producer message true :: (wakes q).map .woke,
      { q with messages := q.messages ++ [(producer,message)], armed := q.armed && !q.coalescing }) := by
  obtain ⟨messages,target,armed,terminated,coalescing⟩ := q
  cases running
  cases coalescing <;> cases armed <;> rfl

theorem perform_refused (q : Queue (ρ × μ) ω) (producer : ρ) (message : μ) (stopped : q.terminated = true) :
    q.perform (.push producer message) = ([.pushed producer message false],q) := by
  rw [Queue.perform,Queue.push,if_pos stopped]
  rfl

theorem advance_step (c : Course ρ μ ω) (act : QueueAct ρ μ ω) : Step c act (c.advance act) := by
  cases act with
  | attach target => exact .attach target
  | popAll => exact .popAll
  | terminate => exact .terminate
  | push producer message =>
    cases running : c.queue.terminated with
    | true =>
      rw [advance,perform_refused c.queue producer message running]
      exact .refuse producer message running
    | false =>
      rw [advance,perform_push c.queue producer message running]
      exact .push producer message running

-- Wakes enter nothing into the accounts of messages.
theorem wakes_enter_nothing (woken : List ω) :
    (woken.map .woke : List (QueueEvent ρ μ ω)).flatMap QueueEvent.accepts = [] ∧
      (woken.map .woke : List (QueueEvent ρ μ ω)).flatMap QueueEvent.delivers = [] ∧
      (woken.map .woke : List (QueueEvent ρ μ ω)).flatMap QueueEvent.discards = [] := by
  induction woken with
  | nil => exact ⟨rfl,rfl,rfl⟩
  | cons _ _ ih => exact ih

theorem terminated_iff (coalescing : Bool) (acts : List (QueueAct ρ μ ω)) :
    (after coalescing acts).queue.terminated = true ↔ .terminate ∈ acts := by
  refine after_induct (motive := fun acts c => c.queue.terminated = true ↔ .terminate ∈ acts) ?_ ?_ acts
  · exact ⟨fun stopped => (nomatch stopped),fun none => (nomatch none)⟩
  · intro acts c act known
    have step := advance_step c act
    generalize c.advance act = c' at step ⊢
    cases step <;> simp [known]

-- Of what was accepted, part has come out, part is queued, and part was queued at a shutdown.
structure Balanced (c : Course ρ μ ω) : Prop where
  balance : c.delivered ++ c.queue.messages ++ c.discarded = c.accepted
  stopped : c.queue.terminated = true → c.queue.messages = []
  running : c.queue.terminated = false → c.discarded = []

theorem Step.balanced (step : Step c act c') (before : Balanced c) : Balanced c' := by
  obtain ⟨balance,stopped,running⟩ := before
  obtain ⟨accepts,delivers,discards⟩ := @wakes_enter_nothing ρ μ ω (wakes c.queue)
  simp only [accepted,delivered,discarded,List.append_assoc] at balance running
  cases step with
  | attach | refuse =>
    refine ⟨?_,stopped,?_⟩ <;> simpa [accepted,delivered,discarded,-List.flatMap_eq_nil_iff]
  | push producer message open' =>
    have kept := running open'
    refine ⟨?_,fun shut => (nomatch open'.symm.trans shut),fun _ => ?_⟩
    · simp [accepted,delivered,discarded,accepts,delivers,discards,kept,← balance]
    · simp [discarded,discards,kept,-List.flatMap_eq_nil_iff]
  | popAll =>
    refine ⟨?_,fun _ => rfl,?_⟩ <;> simpa [accepted,delivered,discarded,-List.flatMap_eq_nil_iff]
  | terminate =>
    refine ⟨?_,fun _ => rfl,fun running => (nomatch running)⟩
    -- Either nothing has been discarded so far or nothing is queued, so that the order does not matter.
    cases shut : c.queue.terminated with
    | true => simp [accepted,delivered,discarded,stopped shut,← balance]
    | false => simp [accepted,delivered,discarded,running shut,← balance]

theorem after_balanced (coalescing : Bool) (acts : List (QueueAct ρ μ ω)) : Balanced (after coalescing acts) :=
  after_induct (motive := fun _ => Balanced) ⟨rfl,fun _ => rfl,fun _ => rfl⟩
    (fun _ c act before => (advance_step c act).balanced before) acts

-- Up to the first shutdown everything that is pushed is accepted, and nothing after it.
theorem accepted_pushed (coalescing : Bool) (acts : List (QueueAct ρ μ ω)) :
    (after coalescing acts).accepted <+: acts.flatMap QueueAct.pushes ∧
      ((after coalescing acts).queue.terminated = false →
        (after coalescing acts).accepted = acts.flatMap QueueAct.pushes) := by
  refine after_induct (motive := fun acts c => c.accepted <+: acts.flatMap QueueAct.pushes ∧
    (c.queue.terminated = false → c.accepted = acts.flatMap QueueAct.pushes)) ⟨List.prefix_rfl,fun _ => rfl⟩ ?_ acts
  intro acts c act known
  obtain ⟨inOrder,all⟩ := known
  have later : c.accepted <+: acts.flatMap QueueAct.pushes ++ act.pushes := inOrder.trans (List.prefix_append _ _)
  have accepts := (@wakes_enter_nothing ρ μ ω (wakes c.queue)).1
  simp only [accepted] at all later ⊢
  have step := advance_step c act
  generalize c.advance act = c' at step ⊢
  cases step with
  | attach | popAll => simpa using And.intro later all
  | terminate => simpa using later
  | refuse producer message shut => simpa [shut] using later
  | push producer message open' => simp [accepts,all open']

-- Shut down, and nothing queued.
def Shut (c : Course ρ μ ω) : Prop := c.queue.terminated = true ∧ c.queue.messages = []

theorem Step.shut (step : Step c act c') (shut : Shut c) :
    Shut c' ∧ ∃ seen, c'.log = c.log ++ seen ∧ ∀ e ∈ seen, e.Idle := by
  obtain ⟨stopped,empty⟩ := shut
  cases step with
  | attach target => exact ⟨⟨stopped,empty⟩,_,rfl,by simp [QueueEvent.Idle]⟩
  | push producer message running => cases running.symm.trans stopped
  | refuse producer message => exact ⟨⟨stopped,empty⟩,_,rfl,by simp [QueueEvent.Idle]⟩
  | popAll => exact ⟨⟨stopped,rfl⟩,_,rfl,by simp [QueueEvent.Idle,empty]⟩
  | terminate => exact ⟨⟨rfl,rfl⟩,_,rfl,by simp [QueueEvent.Idle]⟩

theorem Shut.run (shut : Shut c) (acts : List (QueueAct ρ μ ω)) :
    Shut (c.run acts) ∧ ∃ later, (c.run acts).log = c.log ++ later ∧ ∀ e ∈ later, e.Idle := by
  induction acts generalizing c with
  | nil => exact ⟨shut,[],(List.append_nil _).symm,fun e none => (nomatch none)⟩
  | cons act rest ih =>
    obtain ⟨still,seen,grown,idle⟩ := (advance_step c act).shut shut
    obtain ⟨last,later,further,idle'⟩ := ih still
    refine ⟨last,seen ++ later,?_,fun e member => (List.mem_append.mp member).elim (idle e) (idle' e)⟩
    rw [← List.append_assoc,← grown]
    exact further

theorem push_accepted (q : Queue μ ω) (message : μ) : (q.push message).accepted = true ↔ q.terminated = false := by
  unfold Queue.push
  cases q.terminated <;> simp

-- What came out of the queue, what it holds and what a shutdown found in it are, one behind the other, the messages
-- that it accepted, and a queue that has been shut down stays empty and silent whatever is asked of it.
theorem nothing_lost_or_reordered [DecidableEq ρ] (coalescing : Bool) (acts : List (QueueAct ρ μ ω)) :
    let c := after coalescing acts
    (∀ producer message, (c.queue.push (producer,message)).accepted = true ↔ .terminate ∉ acts) ∧
    c.delivered ++ c.queue.messages ++ c.discarded = c.accepted ∧
    (∀ producer, (c.delivered ++ c.queue.messages).filter (·.1 = producer) <+:
      (acts.flatMap QueueAct.pushes).filter (·.1 = producer)) ∧
    (c.advance .popAll).queue.messages = [] ∧
    ∀ more, let ended := c.advance .terminate
      (ended.run more).queue.messages = [] ∧
        ∃ later, (ended.run more).log = ended.log ++ later ∧ ∀ e ∈ later, e.Idle := by
  intro c
  have balance := (after_balanced coalescing acts).balance
  refine ⟨fun producer message => ?_,balance,fun producer => ?_,rfl,fun more => ?_⟩
  · rw [push_accepted,← terminated_iff coalescing acts,Bool.not_eq_true]
  · have first : c.delivered ++ c.queue.messages <+: c.accepted := ⟨c.discarded,balance⟩
    exact (first.trans (accepted_pushed coalescing acts).1).filter _
  · have shut : Shut (c.advance .terminate) := ⟨rfl,rfl⟩
    obtain ⟨still,later,grown,idle⟩ := shut.run more
    exact ⟨still.2,later,grown,idle⟩

end Course

end ObjectBridge
