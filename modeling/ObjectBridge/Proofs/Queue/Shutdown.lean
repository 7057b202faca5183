import Mathlib.Data.List.Nodup
import Mathlib.Logic.Function.Basic
import ObjectBridge.Proofs.Queue.Histories

namespace ObjectBridge

-- A push looks whether the queue is terminated, enqueues, disarms the wake, fetches the target if the wake was armed,
-- and wakes it. A shutdown refuses further pushes, takes the target away, and discards what is queued. It can come in
-- between fetch and wake, so that these are two sections here; a drain takes place at once.
inductive ShutdownSection (ρ μ : Type) where
  | check (producer : ρ) (message : μ)
  | enqueue (producer : ρ)
  | disarm (producer : ρ)
  | fetch (producer : ρ)
  | wake (producer : ρ)
  | popAll
  | refuse
  | detach
  | discard

-- How far a producer is with its push.
inductive PushPoint (μ ω : Type) where
  | idle
  | admitted (message : μ)
  | queued
  | signalling
  | waking (target : ω)

inductive ShutdownPoint where
  | running
  | refused
  | detached
  | ended

-- The log says of every wake who woke whom.
structure Contest (ρ μ ω : Type) where
  queue : Queue (ρ × μ) ω
  pushes : ρ → PushPoint μ ω
  shutdown : ShutdownPoint
  log : List (QueueEvent ρ μ (ρ × ω))

variable {ρ μ ω : Type}

@[simp] def QueueEvent.tells : QueueEvent ρ μ ω → List ω
  | .woke target => [target]
  | _ => []

namespace Contest

open QueueEvent (accepts delivers discards tells)

def start (coalescing : Bool) (target : Option ω) : Contest ρ μ ω :=
  ⟨{ (Queue.empty coalescing : Queue (ρ × μ) ω) with target },fun _ => .idle,.running,[]⟩

-- Nobody has anything left to enqueue or to wake.
def Calm (t : Contest ρ μ ω) : Prop :=
  ∀ producer, (∀ message, t.pushes producer ≠ .admitted message) ∧ ∀ target, t.pushes producer ≠ .waking target

theorem idle_of_silent {log : List (QueueEvent ρ μ ω)} (accepted : log.flatMap accepts = [])
    (delivered : log.flatMap delivers = []) (told : log.flatMap tells = []) : ∀ e ∈ log, e.Idle := by
  intro e member
  have accepted := List.flatMap_eq_nil_iff.mp accepted e member
  have delivered := List.flatMap_eq_nil_iff.mp delivered e member
  have told := List.flatMap_eq_nil_iff.mp told e member
  cases e with
  | pushed producer message taken => cases taken <;> simp_all [QueueEvent.Idle]
  | woke target => cases told
  | drained batch => exact delivered
  | attached | armed | terminated => trivial

-- What producers have in hand at first, which they use up and do not get anew.
structure Spent {α : Type} (point : α → PushPoint μ ω) (first now : ρ → PushPoint μ ω) (used : List (ρ × α)) :
    Prop where
  had : ∀ producer item, (producer,item) ∈ used → first producer = point item
  has : ∀ producer item, now producer = point item → first producer = point item ∧ producer ∉ used.map Prod.fst
  once : (used.map Prod.fst).Nodup

section Spent

variable {α : Type} {point : α → PushPoint μ ω} {first now : ρ → PushPoint μ ω} {used : List (ρ × α)} {producer : ρ}
  {entered : PushPoint μ ω}

theorem Spent.none (point : α → PushPoint μ ω) (first : ρ → PushPoint μ ω) : Spent point first first [] :=
  ⟨nofun,fun _ _ stands => ⟨stands,List.not_mem_nil⟩,List.nodup_nil⟩

theorem Spent.empty (spent : Spent point first now used) (nothing : ∀ producer item, first producer ≠ point item) :
    used = [] :=
  List.eq_nil_iff_forall_not_mem.mpr fun ⟨producer,item⟩ member =>
    nothing producer item (spent.had producer item member)

variable [DecidableEq ρ]

-- Who stands where something is in hand is not the one that has just gone on to where nothing is.
theorem stands_elsewhere (empty : ∀ item, entered ≠ point item) {other : ρ} {item : α}
    (stands : Function.update now producer entered other = point item) : other ≠ producer ∧ now other = point item := by
  by_cases own : other = producer
  · subst own
    rw [Function.update_self] at stands
    exact (empty item stands).elim
  · rw [Function.update_of_ne own] at stands
    exact ⟨own,stands⟩

theorem Spent.enter (before : Spent point first now used) (empty : ∀ item, entered ≠ point item) :
    Spent point first (Function.update now producer entered) used :=
  ⟨before.had,fun other item stands => before.has other item (stands_elsewhere empty stands).2,before.once⟩

theorem Spent.use {item : α} (before : Spent point first now used) (held : now producer = point item)
    (empty : ∀ item, entered ≠ point item) :
    Spent point first (Function.update now producer entered) (used ++ [(producer,item)]) := by
  obtain ⟨had,unused⟩ := before.has producer item held
  constructor
  · intro other item' member
    rcases List.mem_append.mp member with earlier | last
    · exact before.had other item' earlier
    · cases List.mem_singleton.mp last
      exact had
  · intro other item' stands
    obtain ⟨different,stood⟩ := stands_elsewhere empty stands
    obtain ⟨had',unused'⟩ := before.has other item' stood
    exact ⟨had',by simpa [different] using unused'⟩
  · rw [List.map_append,List.nodup_append_comm]
    exact List.nodup_cons.mpr ⟨unused,before.once⟩

end Spent

variable [DecidableEq ρ]

inductive Step (t : Contest ρ μ ω) : ShutdownSection ρ μ → Contest ρ μ ω → Prop where
  | letIn {producer : ρ} (message : μ) (idle : t.pushes producer = .idle) (running : t.queue.terminated = false) :
      Step t (.check producer message) { t with pushes := Function.update t.pushes producer (.admitted message) }
  | turnAway {producer : ρ} (message : μ) (idle : t.pushes producer = .idle) (stopped : t.queue.terminated = true) :
      Step t (.check producer message) { t with log := t.log ++ [.pushed producer message false] }
  | enqueue {producer : ρ} {message : μ} (admitted : t.pushes producer = .admitted message) :
      Step t (.enqueue producer) { t with
        queue := t.queue.enqueue (producer,message)
        pushes := Function.update t.pushes producer .queued
        log := t.log ++ [.pushed producer message true] }
  | disarm {producer : ρ} (queued : t.pushes producer = .queued) :
      Step t (.disarm producer) { t with
        queue := t.queue.disarm.2
        pushes := Function.update t.pushes producer (if t.queue.disarm.1 then .signalling else .idle) }
  | fetch {producer : ρ} (signalling : t.pushes producer = .signalling) :
      Step t (.fetch producer) { t with
        pushes := Function.update t.pushes producer (t.queue.target.elim .idle .waking) }
  | wake {producer : ρ} {target : ω} (waking : t.pushes producer = .waking target) :
      Step t (.wake producer) { t with
        pushes := Function.update t.pushes producer .idle
        log := t.log ++ [.woke (producer,target)] }
  | popAll :
      Step t .popAll { t with queue := t.queue.popAll.2, log := t.log ++ [.armed,.drained t.queue.popAll.1] }
  | refuse (running : t.shutdown = .running) :
      Step t .refuse { t with queue := t.queue.refuse, shutdown := .refused }
  | detach (refused : t.shutdown = .refused) :
      Step t .detach { t with queue := t.queue.detach, shutdown := .detached }
  | discard (detached : t.shutdown = .detached) :
      Step t .discard { t with
        queue := t.queue.takeMessages.2
        shutdown := .ended
        log := t.log ++ [.terminated t.queue.takeMessages.1] }

inductive Run : Contest ρ μ ω → List (ShutdownSection ρ μ) → Contest ρ μ ω → Prop where
  | nil {t : Contest ρ μ ω} : Run t [] t
  | cons {t t' t'' : Contest ρ μ ω} {part : ShutdownSection ρ μ} {rest : List (ShutdownSection ρ μ)}
      (step : Step t part t') (run : Run t' rest t'') : Run t (part :: rest) t''

variable {t t' t₀ : Contest ρ μ ω} {part : ShutdownSection ρ μ} {parts : List (ShutdownSection ρ μ)}

-- What every section keeps a run keeps.
theorem Run.keeps {motive : Contest ρ μ ω → Prop} (step : ∀ t part t', Step t part t' → motive t → motive t')
    (run : Run t parts t') (kept : motive t) : motive t' := by
  induction run with
  | nil => exact kept
  | cons taken _ ih => exact ih (step _ _ _ taken kept)

theorem Run.append {before after : List (ShutdownSection ρ μ)} {t'' : Contest ρ μ ω} (first : Run t before t')
    (second : Run t' after t'') : Run t (before ++ after) t'' := by
  induction first with
  | nil => exact second
  | cons step _ ih => exact .cons step (ih second)

-- An admitted push up to where it knows whether it is the one to wake.
theorem run_admitted (t : Contest ρ μ ω) (producer : ρ) (message : μ) (idle : t.pushes producer = .idle)
    (running : t.queue.terminated = false) :
    let disarmed := (t.queue.enqueue (producer,message)).disarm
    ∃ t', Run t [.check producer message,.enqueue producer,.disarm producer] t' ∧ t'.queue = disarmed.2 ∧
      t'.pushes = Function.update t.pushes producer (if disarmed.1 then .signalling else .idle) ∧
      t'.log = t.log ++ [.pushed producer message true] := by
  refine ⟨_,.cons (.letIn message idle running) (.cons (.enqueue (Function.update_self ..))
    (.cons (.disarm (Function.update_self ..)) .nil)),rfl,?_,rfl⟩
  simp only [Function.update_idem]

-- What is left of a push that is the one to wake.
theorem run_signal (t : Contest ρ μ ω) (producer : ρ) (signalling : t.pushes producer = .signalling) :
    ∃ parts t', Run t parts t' ∧ t'.queue = t.queue ∧ t'.pushes = Function.update t.pushes producer .idle ∧
      t'.log = t.log ++ t.queue.target.toList.map fun target => .woke (producer,target) := by
  have fetch := Step.fetch signalling
  cases there : t.queue.target with
  | none =>
    rw [there] at fetch
    exact ⟨_,_,.cons fetch .nil,rfl,rfl,(List.append_nil _).symm⟩
  | some target =>
    rw [there] at fetch
    refine ⟨_,_,.cons fetch (.cons (.wake (Function.update_self ..)) .nil),rfl,?_,rfl⟩
    exact Function.update_idem ..

theorem run_push (t : Contest ρ μ ω) (producer : ρ) (message : μ) (idle : t.pushes producer = .idle) :
    let p := t.queue.push (producer,message)
    ∃ parts t', Run t parts t' ∧ t'.queue = p.queue ∧ t'.pushes = t.pushes ∧ t'.log = t.log ++
      .pushed producer message p.accepted :: p.woken.toList.map fun target => .woke (producer,target) := by
  cases stopped : t.queue.terminated with
  | true =>
    refine ⟨_,_,.cons (.turnAway message idle stopped) .nil,?_,rfl,?_⟩ <;> simp [Queue.push,stopped]
  | false =>
    obtain ⟨t',run,queue,pushes,log⟩ := run_admitted t producer message idle stopped
    cases wakes : (t.queue.enqueue (producer,message)).disarm.1 with
    | false =>
      refine ⟨_,t',run,?_,?_,?_⟩
      · simp [Queue.push,stopped,queue]
      · simp [pushes,wakes,← idle]
      · simp [Queue.push,stopped,wakes,log]
    | true =>
      have signalling : t'.pushes producer = .signalling := by simp [pushes,wakes]
      obtain ⟨rest,last,signal,same,done,told⟩ := run_signal t' producer signalling
      refine ⟨_,last,run.append signal,?_,?_,?_⟩
      · simp [Queue.push,stopped,same,queue]
      · simp [done,pushes,Function.update_idem,← idle]
      · simp [Queue.push,stopped,wakes,told,log,queue]

theorem run_shutdown (t : Contest ρ μ ω) (running : t.shutdown = .running) :
    ∃ t', Run t [.refuse,.detach,.discard] t' ∧ t'.queue = t.queue.terminate :=
  ⟨_,.cons (.refuse running) (.cons (.detach rfl) (.cons (.discard rfl) .nil)),rfl⟩

structure Orderly (t : Contest ρ μ ω) : Prop where
  refused : t.shutdown ≠ .running → t.queue.terminated = true
  detached : t.shutdown = .detached → t.queue.target = none
  kept : t.shutdown ≠ .ended → t.log.flatMap discards = []
  balance : t.shutdown ≠ .ended → t.log.flatMap delivers ++ t.queue.messages = t.log.flatMap accepts

theorem Step.orderly (step : Step t part t') (before : Orderly t) : Orderly t' := by
  obtain ⟨refused,detached,kept,balance⟩ := before
  cases step with
  | letIn message idle running => exact ⟨refused,detached,kept,balance⟩
  | fetch signalling => exact ⟨refused,detached,kept,balance⟩
  | disarm queued =>
    rw [Queue.disarm_rest]
    exact ⟨refused,detached,kept,balance⟩
  | turnAway | wake =>
    refine ⟨refused,detached,fun going => ?_,fun going => ?_⟩
    · simp [kept going,-List.flatMap_eq_nil_iff]
    · simp [balance going]
  | enqueue admitted =>
    refine ⟨refused,detached,fun going => ?_,fun going => ?_⟩
    · simp [kept going,-List.flatMap_eq_nil_iff]
    · simp [Queue.enqueue,← balance going]
  | popAll =>
    refine ⟨refused,detached,fun going => ?_,fun going => ?_⟩
    · simp [kept going,-List.flatMap_eq_nil_iff]
    · simp [Queue.popAll,Queue.arm,Queue.takeMessages,balance going]
  | refuse running =>
    exact ⟨fun _ => rfl,nofun,fun _ => kept (by simp [running]),fun _ => balance (by simp [running])⟩
  | detach waits =>
    refine ⟨fun _ => refused ?_,fun _ => rfl,fun _ => kept ?_,fun _ => balance ?_⟩ <;> simp [waits]
  | discard waits =>
    exact ⟨fun _ => refused (by simp [waits]),nofun,fun going => (going rfl).elim,fun going => (going rfl).elim⟩

-- What has happened since the shutdown was over.
structure Trailing (t : Contest ρ μ ω) (later : List (QueueEvent ρ μ (ρ × ω))) (t' : Contest ρ μ ω) : Prop where
  log : t'.log = t.log ++ later
  terminated : t'.queue.terminated = true
  target : t'.queue.target = none
  ended : t'.shutdown = .ended
  balance : later.flatMap delivers ++ t'.queue.messages = later.flatMap accepts
  admitted : Spent .admitted t.pushes t'.pushes (later.flatMap accepts)
  waking : Spent .waking t.pushes t'.pushes (later.flatMap tells)

theorem Step.trailing {t'' : Contest ρ μ ω} {later : List (QueueEvent ρ μ (ρ × ω))} (step : Step t' part t'')
    (before : Trailing t later t') : ∃ later, Trailing t later t'' := by
  obtain ⟨log,terminated,target,ended,balance,admitted,waking⟩ := before
  cases step with
  | letIn message idle running => exact nomatch running.symm.trans terminated
  | refuse running => exact nomatch running.symm.trans ended
  | detach refused => exact nomatch refused.symm.trans ended
  | discard detached => exact nomatch detached.symm.trans ended
  | @turnAway producer message idle stopped =>
    refine ⟨later ++ [.pushed producer message false],by rw [log,List.append_assoc],terminated,target,ended,?_,?_,?_⟩
    · simpa using balance
    · simpa using admitted
    · simpa using waking
  | popAll =>
    have grown : t'.log ++ [.armed,.drained t'.queue.messages] = t.log ++ (later ++ [.armed,.drained t'.queue.messages]) := by
      rw [log,List.append_assoc]
    refine ⟨_,grown,terminated,target,ended,?_,?_,?_⟩
    · simpa [Queue.popAll,Queue.arm,Queue.takeMessages] using balance
    · simpa using admitted
    · simpa using waking
  | @enqueue producer message held =>
    have used : Spent .admitted t.pushes (Function.update t'.pushes producer .queued) _ := admitted.use held nofun
    have stays : Spent .waking t.pushes (Function.update t'.pushes producer .queued) _ := waking.enter nofun
    refine ⟨later ++ [.pushed producer message true],by rw [log,List.append_assoc],terminated,target,ended,?_,?_,?_⟩
    · simp [Queue.enqueue,← balance]
    · simpa using used
    · simpa using stays
  | @disarm producer queued =>
    rw [Queue.disarm_rest]
    refine ⟨later,log,terminated,target,ended,balance,admitted.enter ?_,waking.enter ?_⟩ <;> split <;> nofun
  -- There is no target left to fetch.
  | @fetch producer signalling =>
    rw [target]
    exact ⟨later,log,terminated,target,ended,balance,admitted.enter nofun,waking.enter nofun⟩
  | @wake producer woken held =>
    have stays : Spent .admitted t.pushes (Function.update t'.pushes producer .idle) _ := admitted.enter nofun
    have used : Spent .waking t.pushes (Function.update t'.pushes producer .idle) _ := waking.use held nofun
    refine ⟨later ++ [.woke (producer,woken)],by rw [log,List.append_assoc],terminated,target,ended,?_,?_,?_⟩
    · simpa using balance
    · simpa using stays
    · simpa using used

theorem Run.trailing {later : List (QueueEvent ρ μ (ρ × ω))} {t'' : Contest ρ μ ω} (run : Run t' parts t'')
    (before : Trailing t later t') : ∃ later, Trailing t later t'' :=
  run.keeps (motive := fun t' => ∃ later, Trailing t later t') (fun _ _ _ step ⟨_,before⟩ => step.trailing before)
    ⟨_,before⟩

-- Nothing that has been accepted is queued any more when the shutdown is over.
theorem Run.shut {coalescing : Bool} {target : Option ω} (run : Run (start coalescing target) parts t)
    (ends : Step t .discard t') : t'.log.flatMap delivers ++ t'.log.flatMap discards = t'.log.flatMap accepts ∧
      t'.queue.messages = [] ∧ Trailing t' [] t' := by
  have begun : Orderly (start coalescing target : Contest ρ μ ω) :=
    ⟨fun going => (going rfl).elim,nofun,fun _ => rfl,fun _ => rfl⟩
  have orderly : Orderly t := run.keeps (fun _ _ _ => Step.orderly) begun
  cases ends with
  | discard waits =>
    have going : t.shutdown ≠ .ended := by simp [waits]
    have terminated : t.queue.terminated = true := orderly.refused (by simp [waits])
    have none : t.queue.target = none := orderly.detached waits
    refine ⟨?_,rfl,(List.append_nil _).symm,terminated,none,rfl,rfl,.none ..,.none ..⟩
    simp [orderly.kept going,← orderly.balance going,Queue.takeMessages,-List.flatMap_eq_nil_iff]

-- Of what was accepted before the shutdown was over, all had been drained or is discarded. Behind it messages are
-- accepted, queued and drained of producers alone that had been admitted by then, one of each, and the target is woken
-- by producers alone that had it in hand by then, once by each; and each of these can happen.
theorem shutdown_spares_pushes_under_way {coalescing : Bool} {target : Option ω} {t₀ : Contest ρ μ ω}
    {more : List (ShutdownSection ρ μ)} (run : Run (start coalescing target) parts t₀) (ends : Step t₀ .discard t)
    (goes : Run t more t') :
    t.queue.messages = [] ∧ t.log.flatMap delivers ++ t.log.flatMap discards = t.log.flatMap accepts ∧
    (∃ later, t'.log = t.log ++ later ∧
      later.flatMap delivers ++ t'.queue.messages = later.flatMap accepts ∧
      Spent .admitted t.pushes t'.pushes (later.flatMap accepts) ∧
      Spent .waking t.pushes t'.pushes (later.flatMap tells) ∧
      (t.Calm → t'.queue.messages = [] ∧ ∀ e ∈ later, e.Idle)) ∧
    (∀ producer message, t.pushes producer = .admitted message →
      ∃ t', Run t [.enqueue producer] t' ∧ t'.queue.messages = [(producer,message)]) ∧
    ∀ producer target, t.pushes producer = .waking target →
      ∃ t', Run t [.wake producer] t' ∧ t'.log = t.log ++ [.woke (producer,target)] := by
  obtain ⟨settled,empty,ended⟩ := run.shut ends
  obtain ⟨later,trailing⟩ := goes.trailing ended
  refine ⟨empty,settled,⟨later,trailing.log,trailing.balance,trailing.admitted,trailing.waking,fun calm => ?_⟩,
    fun producer message admitted => ?_,fun producer target waking => ?_⟩
  · have accepted := trailing.admitted.empty fun producer message => (calm producer).1 message
    have told := trailing.waking.empty fun producer target => (calm producer).2 target
    obtain ⟨delivered,queued⟩ := List.append_eq_nil_iff.mp (trailing.balance.trans accepted)
    exact ⟨queued,idle_of_silent accepted delivered told⟩
  · exact ⟨_,.cons (.enqueue admitted) .nil,by simp [Queue.enqueue,empty]⟩
  · exact ⟨_,.cons (.wake waking) .nil,rfl⟩

theorem admitted_push_accounted : ∃ t₀ t t' : Contest Unit Nat Unit,
    Run (start true none) [.check () 1,.refuse,.detach] t₀ ∧ Step t₀ .discard t ∧ Run t [.enqueue (),.popAll] t' ∧
      ∃ later, t'.log = t.log ++ later ∧ later.flatMap delivers ++ t'.queue.messages = later.flatMap accepts ∧
        Spent .admitted t.pushes t'.pushes (later.flatMap accepts) := by
  have run : Run (start true none : Contest Unit Nat Unit) [.check () 1,.refuse,.detach] _ :=
    .cons (.letIn 1 rfl rfl) (.cons (.refuse rfl) (.cons (.detach rfl) .nil))
  refine ⟨_,_,_,run,.discard rfl,.cons (.enqueue rfl) (.cons .popAll .nil),?_⟩
  obtain ⟨-,-,⟨later,log,balance,spent,-⟩,-⟩ := shutdown_spares_pushes_under_way run (.discard rfl)
    (.cons (.enqueue rfl) (.cons .popAll .nil) : Run _ [.enqueue (),.popAll] _)
  exact ⟨later,log,balance,spent⟩

-- A push that the shutdown overtakes is accepted behind it, and what it pushed is neither drained before nor
-- discarded; one that has the target in hand wakes it behind the shutdown.
theorem push_outlives_shutdown : ∃ before more, ∃ t₀ t t' : Contest Bool Nat Unit,
    Run (start true (some ())) before t₀ ∧ Step t₀ .discard t ∧ Run t more t' ∧
      (∀ producer, t'.pushes producer = .idle) ∧
      t'.log = t.log ++ [.pushed false 1 true,.woke (true,()),.armed,.drained [(false,1)]] ∧
      (false,1) ∉ t.log.flatMap delivers ++ t.log.flatMap discards := by
  have before : Run (start true (some ()) : Contest Bool Nat Unit)
      [.check false 1,.check true 2,.enqueue true,.disarm true,.fetch true,.refuse,.detach] _ :=
    .cons (.letIn 1 rfl rfl) (.cons (.letIn 2 rfl rfl) (.cons (.enqueue rfl) (.cons (.disarm rfl)
      (.cons (.fetch rfl) (.cons (.refuse rfl) (.cons (.detach rfl) .nil))))))
  refine ⟨_,[.enqueue false,.disarm false,.wake true,.popAll],_,_,_,before,.discard rfl,
    .cons (.enqueue rfl) (.cons (.disarm rfl) (.cons (.wake rfl) (.cons .popAll .nil))),?_,rfl,by decide⟩
  intro producer
  cases producer <;> rfl

end Contest

end ObjectBridge
