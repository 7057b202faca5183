import Mathlib.Data.List.Pairwise
import ObjectBridge.Proofs.Queue.Histories
import ObjectBridge.Queue.Workbench

namespace ObjectBridge

inductive DispatchCall where
  | execute (thread : Nat)
  | runPending
  | terminate
  deriving DecidableEq

inductive DispatchReply where
  | executed (accepted : Bool)
  | ran (count : Nat)
  | terminated
  deriving DecidableEq

-- What a call answered and the tasks that ran in its course.
structure DispatchEntry where
  reply : DispatchReply
  ran : List Nat
  deriving DecidableEq

structure Duty where
  bench : Workbench Nat
  log : List DispatchEntry

namespace Workbench

variable {μ : Type}

@[simp] theorem wake_dispatcher (b : Workbench μ) (woken : Option WakeTarget) :
    (b.wake woken).dispatcher = b.dispatcher := by
  rcases woken with _ | _ | _ <;> rfl

@[simp] theorem wake_ran (b : Workbench μ) (woken : Option WakeTarget) : (b.wake woken).ran = b.ran := by
  rcases woken with _ | _ | _ <;> rfl

def answer (b : Workbench Nat) (task : Nat) : DispatchCall → Option (DispatchReply × Workbench Nat)
  | .execute thread => (b.execute thread task).map fun (answer,b) => (.executed answer.2,b)
  | .runPending => b.runPending.map fun (count,b) => (.ran count,b)
  | .terminate => some (.terminated,b.stopDispatcher)

end Workbench

namespace Duty

def start (coalescing : Bool) (owner : Nat) : Duty := ⟨(Workbench.initial coalescing).createDispatcher owner,[]⟩

def serve (d : Duty) (call : DispatchCall) : Option Duty :=
  (d.bench.answer d.log.length call).map fun (reply,bench) =>
    ⟨bench,d.log ++ [⟨reply,bench.ran.drop d.bench.ran.length⟩]⟩

def after (coalescing : Bool) (owner : Nat) (calls : List DispatchCall) : Option Duty :=
  calls.foldlM serve (start coalescing owner)

-- The `i`-th call gives a task from another thread than the owner.
def Foreign (owner : Nat) (calls : List DispatchCall) (i : Nat) : Prop :=
  ∃ thread, calls[i]? = some (.execute thread) ∧ thread ≠ owner

-- The task of the `i`-th call has been accepted from another thread, and has neither been drained nor discarded.
structure Waits (owner : Nat) (calls : List DispatchCall) (i : Nat) : Prop where
  foreign : Foreign owner calls i
  undrained : .runPending ∉ calls.drop (i+1)
  running : .terminate ∉ calls

-- The task of the `i`-th call is to run in the course of the `k`-th.
inductive Due (owner : Nat) (calls : List DispatchCall) (i : Nat) : Nat → Prop where
  | atOnce (own : calls[i]? = some (.execute owner)) : Due owner calls i i
  | drained {k : Nat} (waits : Waits owner (calls.take k) i) (drains : calls[k]? = some .runPending) :
      Due owner calls i k

section Due

variable {owner i j k l : Nat} {calls : List DispatchCall} {call : DispatchCall}

theorem Foreign.known (foreign : Foreign owner calls i) : i < calls.length := by
  obtain ⟨thread,given,_⟩ := foreign
  exact (List.getElem?_eq_some_iff.mp given).1

theorem foreign_append : Foreign owner (calls ++ [call]) i ↔
    Foreign owner calls i ∨ i = calls.length ∧ ∃ thread, call = .execute thread ∧ thread ≠ owner := by
  rcases Nat.lt_trichotomy i calls.length with earlier | rfl | later
  · have different : i ≠ calls.length := Nat.ne_of_lt earlier
    simp [Foreign,List.getElem?_append_left earlier,different]
  · simp [Foreign]
  · have beyond : ¬ i < (calls ++ [call]).length := by simp; omega
    constructor
    · exact fun foreign => (beyond foreign.known).elim
    · rintro (foreign | ⟨rfl,_⟩)
      · exact (Nat.lt_asymm later foreign.known).elim
      · exact (Nat.lt_irrefl _ later).elim

theorem waits_append : Waits owner (calls ++ [call]) i ↔ call ≠ .runPending ∧ call ≠ .terminate ∧
    (Waits owner calls i ∨
      i = calls.length ∧ .terminate ∉ calls ∧ ∃ thread, call = .execute thread ∧ thread ≠ owner) := by
  constructor
  · rintro ⟨foreign,undrained,running⟩
    rw [List.mem_append,not_or,List.mem_singleton] at running
    rcases foreign_append.mp foreign with before | ⟨rfl,thread,rfl,other⟩
    · rw [List.drop_append_of_le_length before.known,List.mem_append,not_or,List.mem_singleton] at undrained
      exact ⟨Ne.symm undrained.2,Ne.symm running.2,.inl ⟨before,undrained.1,running.1⟩⟩
    · exact ⟨nofun,nofun,.inr ⟨rfl,running.1,thread,rfl,other⟩⟩
  · rintro ⟨drains,stops,waits | ⟨rfl,running,thread,rfl,other⟩⟩
    · refine ⟨foreign_append.mpr (.inl waits.foreign),?_,?_⟩
      · rw [List.drop_append_of_le_length waits.foreign.known]
        simpa [waits.undrained] using drains.symm
      · simpa [waits.running] using stops.symm
    · exact ⟨foreign_append.mpr (.inr ⟨rfl,thread,rfl,other⟩),by simp,by simpa using running⟩

-- What comes behind the calls does not matter to what was due before.
theorem due_append (earlier : k < calls.length) : Due owner (calls ++ [call]) i k ↔ Due owner calls i k := by
  have same : (calls ++ [call])[k]? = calls[k]? := List.getElem?_append_left earlier
  have before : (calls ++ [call]).take k = calls.take k := List.take_append_of_le_length (Nat.le_of_lt earlier)
  constructor
  · intro due
    cases due with
    | atOnce own => exact .atOnce (same ▸ own)
    | drained waits drains => exact .drained (before ▸ waits) (same ▸ drains)
  · intro due
    cases due with
    | atOnce own => exact .atOnce (same.trans own)
    | drained waits drains => exact .drained (before.symm ▸ waits) (same.trans drains)

theorem due_last : Due owner (calls ++ [call]) i calls.length ↔
    call = .execute owner ∧ i = calls.length ∨ call = .runPending ∧ Waits owner calls i := by
  have last : (calls ++ [call])[calls.length]? = some call := List.getElem?_concat_length
  have before : (calls ++ [call]).take calls.length = calls := List.take_left
  constructor
  · intro due
    cases due with
    | atOnce own => exact .inl ⟨Option.some.inj (last.symm.trans own),rfl⟩
    | drained waits drains => exact .inr ⟨Option.some.inj (last.symm.trans drains),before ▸ waits⟩
  · rintro (⟨rfl,rfl⟩ | ⟨rfl,waits⟩)
    · exact .atOnce last
    · exact .drained (before.symm ▸ waits) last

theorem Foreign.of_take (foreign : Foreign owner (calls.take k) i) : Foreign owner calls i ∧ i < k := by
  have known := foreign.known
  rw [List.length_take] at known
  obtain ⟨thread,given,other⟩ := foreign
  have before : i < k := by omega
  exact ⟨⟨thread,(List.getElem?_take_of_lt before).symm.trans given,other⟩,before⟩

-- A task waits no longer than up to the next call that runs what is pending.
theorem Waits.ends (waits : Waits owner (calls.take l) i) (drains : calls[k]? = some .runPending) (later : i < k) :
    l ≤ k := by
  by_contra beyond
  refine waits.undrained (List.mem_of_getElem? (i := k-(i+1)) ?_)
  rw [List.getElem?_drop,Nat.add_sub_cancel' later,List.getElem?_take_of_lt (by omega)]
  exact drains

theorem Foreign.not_own (foreign : Foreign owner calls i) (own : calls[i]? = some (.execute owner)) : False := by
  obtain ⟨thread,given,other⟩ := foreign
  cases given.symm.trans own
  exact other rfl

-- Only what was accepted falls due.
theorem Due.accepted (due : Due owner calls i k) :
    ∃ thread, calls[i]? = some (.execute thread) ∧ (thread = owner ∨ .terminate ∉ calls.take i) := by
  cases due with
  | atOnce own => exact ⟨owner,own,.inl rfl⟩
  | drained waits drains =>
    obtain ⟨⟨thread,given,_⟩,before⟩ := waits.foreign.of_take
    exact ⟨thread,given,.inr fun shut => waits.running (List.take_subset_take_left calls (Nat.le_of_lt before) shut)⟩

theorem Due.unique (one : Due owner calls i k) (other : Due owner calls i l) : k = l := by
  cases one with
  | atOnce own =>
    cases other with
    | atOnce => rfl
    | drained waits => exact (waits.foreign.of_take.1.not_own own).elim
  | drained waits drains =>
    cases other with
    | atOnce own => exact (waits.foreign.of_take.1.not_own own).elim
    | drained waits' drains' =>
      exact Nat.le_antisymm (waits.ends drains' waits'.foreign.of_take.2) (waits'.ends drains waits.foreign.of_take.2)

-- Of the tasks of other threads, what runs later was given later.
theorem Due.ordered (one : Due owner calls i k) (other : Due owner calls j l) (earlier : k < l)
    (foreign : Foreign owner calls i) (foreign' : Foreign owner calls j) : i < j := by
  cases one with
  | atOnce own => exact (foreign.not_own own).elim
  | drained waits drains =>
    cases other with
    | atOnce own => exact (foreign'.not_own own).elim
    | drained waits' drains' =>
      by_contra before
      have under : j < k := Nat.lt_of_le_of_lt (Nat.le_of_not_lt before) waits.foreign.of_take.2
      exact Nat.not_le_of_lt earlier (waits'.ends drains under)

end Due

-- What a call does with a queue of tasks, given its own task, what it answers, and which tasks it runs.
inductive Answered (owner task : Nat) (q q' : Queue Nat WakeTarget) :
    DispatchCall → DispatchReply → List Nat → Prop where
  | atOnce (same : q' = q) : Answered owner task q q' (.execute owner) (.executed true) [task]
  | queued {thread : Nat} (other : thread ≠ owner) (running : q.terminated = false) (still : q'.terminated = false)
      (added : q'.messages = q.messages ++ [task]) : Answered owner task q q' (.execute thread) (.executed true) []
  | refused {thread : Nat} (other : thread ≠ owner) (stopped : q.terminated = true) (same : q' = q) :
      Answered owner task q q' (.execute thread) (.executed false) []
  | drained (same : q'.terminated = q.terminated) (none : q'.messages = []) :
      Answered owner task q q' .runPending (.ran q.messages.length) q.messages
  | stopped (stops : q'.terminated = true) (none : q'.messages = []) :
      Answered owner task q q' .terminate .terminated []

theorem push_queues {μ ω : Type} (q : Queue μ ω) (message : μ) (running : q.terminated = false) :
    (q.push message).accepted = true ∧ (q.push message).queue.messages = q.messages ++ [message] ∧
      (q.push message).queue.terminated = false := by
  rw [Queue.push,if_neg (by simp [running])]
  exact ⟨rfl,by simp only [Queue.disarm_rest]; rfl,by simp only [Queue.disarm_rest]; exact running⟩

theorem execute_own (owner task : Nat) (q : Queue Nat WakeTarget) :
    (⟨owner,q⟩ : Dispatcher Nat WakeTarget).execute owner task = ⟨true,[task],none,⟨owner,q⟩⟩ := by
  simp [Dispatcher.execute,Dispatcher.isOwner]

theorem execute_other {thread owner : Nat} (other : thread ≠ owner) (task : Nat) (q : Queue Nat WakeTarget) :
    (⟨owner,q⟩ : Dispatcher Nat WakeTarget).execute thread task =
      ⟨(q.push task).accepted,[],(q.push task).woken,⟨owner,(q.push task).queue⟩⟩ := by
  simp [Dispatcher.execute,Dispatcher.isOwner,other]

theorem bench_answers {b : Workbench Nat} {owner : Nat} {q : Queue Nat WakeTarget}
    (manned : b.dispatcher = some ⟨owner,q⟩) (task : Nat) (call : DispatchCall) : ∃ reply b' q' ran, b.answer task call = some (reply,b') ∧
      b'.dispatcher = some ⟨owner,q'⟩ ∧ b'.ran = b.ran ++ ran ∧ Answered owner task q q' call reply ran := by
  cases call with
  | runPending =>
    have drained : b.answer task .runPending = some (.ran q.messages.length,
        { b with dispatcher := some ⟨owner,q.popAll.2⟩, ran := b.ran ++ q.messages }) := by
      rw [Workbench.answer,Workbench.runPending,manned]
      rfl
    exact ⟨_,_,_,_,drained,rfl,rfl,.drained rfl rfl⟩
  | terminate =>
    have stopped : b.stopDispatcher.dispatcher = some ⟨owner,q.terminate⟩ := by
      rw [Workbench.stopDispatcher,manned]
      rfl
    exact ⟨_,_,_,_,rfl,stopped,(List.append_nil _).symm,.stopped rfl rfl⟩
  | execute thread =>
    rw [Workbench.answer,Workbench.execute,manned]
    by_cases own : thread = owner
    · subst own
      refine ⟨_,_,q,[task],rfl,?_,?_,?_⟩ <;> simp only [execute_own,Workbench.wake_dispatcher,Workbench.wake_ran]
      exact .atOnce rfl
    · refine ⟨_,_,(q.push task).queue,[],rfl,?_,?_,?_⟩ <;>
        simp only [execute_other own,Workbench.wake_dispatcher,Workbench.wake_ran]
      cases stopped : q.terminated with
      | true =>
        rw [Queue.push,if_pos stopped]
        exact .refused own stopped rfl
      | false =>
        obtain ⟨accepted,added,still⟩ := push_queues q task stopped
        rw [accepted]
        exact .queued own stopped still added

variable {owner : Nat} {q q' : Queue Nat WakeTarget} {calls : List DispatchCall} {call : DispatchCall} {d d' : Duty}

theorem serve_answers (manned : d.bench.dispatcher = some ⟨owner,q⟩) (call : DispatchCall) :
    ∃ d' q' reply ran, d.serve call = some d' ∧ d'.bench.dispatcher = some ⟨owner,q'⟩ ∧
      d'.bench.ran = d.bench.ran ++ ran ∧ d'.log = d.log ++ [⟨reply,ran⟩] ∧
      Answered owner d.log.length q q' call reply ran := by
  obtain ⟨reply,b,q',ran,answers,manned',ran',answered⟩ := bench_answers manned d.log.length call
  have serves : d.serve call = some ⟨b,d.log ++ [⟨reply,ran⟩]⟩ := by
    simp [serve,answers,ran']
  exact ⟨_,q',reply,ran,serves,manned',ran',rfl,answered⟩

-- What a call is to answer and which tasks it is to run, given the calls before it.
def reply (owner : Nat) (earlier : List DispatchCall) (ran : List Nat) : DispatchCall → DispatchReply
  | .execute thread => .executed (thread = owner ∨ .terminate ∉ earlier)
  | .runPending => .ran ran.length
  | .terminate => .terminated

structure Accurate (owner : Nat) (calls : List DispatchCall) (k : Nat) (entry : DispatchEntry) : Prop where
  due : ∀ i, i ∈ entry.ran ↔ Due owner calls i k
  ordered : entry.ran.Pairwise (· < ·)
  answers : ∀ call, calls[k]? = some call → entry.reply = reply owner (calls.take k) entry.ran call

-- What the queue holds behind the calls.
structure Holds (owner : Nat) (calls : List DispatchCall) (q : Queue Nat WakeTarget) : Prop where
  stopped : q.terminated = true ↔ .terminate ∈ calls
  waiting : ∀ i, i ∈ q.messages ↔ Waits owner calls i
  ordered : q.messages.Pairwise (· < ·)

theorem Answered.holds {told : DispatchReply} {ran : List Nat}
    (answered : Answered owner calls.length q q' call told ran) (before : Holds owner calls q) : Holds owner (calls ++ [call]) q' := by
  obtain ⟨stopped,waiting,ordered⟩ := before
  cases answered with
  | atOnce same =>
    subst same
    exact ⟨by simp [stopped],fun i => by simp [waiting,waits_append],ordered⟩
  | queued other running still added =>
    have open' : .terminate ∉ calls := fun shut => nomatch running.symm.trans (stopped.mpr shut)
    refine ⟨by simp [still,open'],fun i => ?_,?_⟩
    · simp [added,waiting,waits_append,open',other]
    · rw [added,List.pairwise_append]
      refine ⟨ordered,List.pairwise_singleton ..,fun i member task last => ?_⟩
      rw [List.mem_singleton.mp last]
      exact ((waiting i).mp member).foreign.known
  | refused other stopped' same =>
    subst same
    have shut := stopped.mp stopped'
    exact ⟨by simp [stopped',shut],fun i => by simp [waiting,waits_append,shut],ordered⟩
  | drained same none => exact ⟨by simp [same,stopped],fun i => by simp [none,waits_append],none ▸ .nil⟩
  | stopped stops none => exact ⟨by simp [stops],fun i => by simp [none,waits_append],none ▸ .nil⟩

theorem Answered.accurate {told : DispatchReply} {ran : List Nat}
    (answered : Answered owner calls.length q q' call told ran) (before : Holds owner calls q) : Accurate owner (calls ++ [call]) calls.length ⟨told,ran⟩ := by
  have last : (calls ++ [call])[calls.length]? = some call := List.getElem?_concat_length
  have earlier : (calls ++ [call]).take calls.length = calls := List.take_left
  have reply' : told = reply owner calls ran call := by
    cases answered with
    | atOnce => simp [reply]
    | queued other running =>
      have open' : .terminate ∉ calls := fun shut => nomatch running.symm.trans (before.stopped.mpr shut)
      simp [reply,open']
    | refused other stopped => simp [reply,other,before.stopped.mp stopped]
    | drained => rfl
    | stopped => rfl
  refine ⟨fun i => ?_,?_,fun given same => ?_⟩
  · rw [due_last]
    cases answered with
    | atOnce => simp
    | queued other | refused other => simp [other]
    | drained => simp [before.waiting]
    | stopped => simp
  · cases answered with
    | drained => exact before.ordered
    | atOnce | queued | refused | stopped => simp
  · rw [earlier]
    exact Option.some.inj (last.symm.trans same) ▸ reply'

structure Kept (owner : Nat) (calls : List DispatchCall) (d : Duty) (q : Queue Nat WakeTarget) : Prop where
  manned : d.bench.dispatcher = some ⟨owner,q⟩
  holds : Holds owner calls q
  length : d.log.length = calls.length
  ran : d.bench.ran = d.log.flatMap DispatchEntry.ran
  accurate : ∀ k entry, d.log[k]? = some entry → Accurate owner calls k entry

theorem Accurate.append {k : Nat} {entry : DispatchEntry} (accurate : Accurate owner calls k entry)
    (earlier : k < calls.length) (call : DispatchCall) : Accurate owner (calls ++ [call]) k entry where
  due i := (accurate.due i).trans (due_append earlier).symm
  ordered := accurate.ordered
  answers call given := by
    rw [List.take_append_of_le_length (Nat.le_of_lt earlier)]
    exact accurate.answers call ((List.getElem?_append_left earlier).symm.trans given)

theorem Kept.next (kept : Kept owner calls d q) (call : DispatchCall) :
    ∃ d' q', d.serve call = some d' ∧ Kept owner (calls ++ [call]) d' q' := by
  obtain ⟨manned,holds,length,ran,accurate⟩ := kept
  obtain ⟨d',q',told,ran₁,serves,manned',ran',log,answered⟩ := serve_answers manned call
  rw [length] at answered
  refine ⟨d',q',serves,manned',answered.holds holds,?_,?_,fun k entry found => ?_⟩
  · rw [log,List.length_append,List.length_append,length]
    rfl
  · rw [ran',log,List.flatMap_append,ran]
    simp
  · rw [log] at found
    rcases Nat.lt_or_ge k d.log.length with earlier | last
    · rw [List.getElem?_append_left earlier] at found
      exact (accurate k entry found).append (length ▸ earlier) call
    · rw [List.getElem?_append_right last,List.getElem?_singleton] at found
      split at found
      · cases found
        have here : k = calls.length := by omega
        exact here ▸ answered.accurate holds
      · cases found

theorem after_kept (coalescing : Bool) (owner : Nat) (calls : List DispatchCall) :
    ∃ d q, after coalescing owner calls = some d ∧ Kept owner calls d q := by
  induction calls using List.reverseRecOn with
  | nil =>
    refine ⟨_,_,rfl,rfl,⟨⟨nofun,nofun⟩,fun i => ⟨nofun,fun waits => ?_⟩,.nil⟩,rfl,rfl,nofun⟩
    exact nomatch waits.foreign.known
  | append_singleton calls call ih =>
    obtain ⟨d,q,reached,kept⟩ := ih
    obtain ⟨d',q',serves,kept'⟩ := kept.next call
    refine ⟨d',q',?_,kept'⟩
    rw [after,List.foldlM_append,← after,reached]
    simpa using serves

theorem Kept.ran_when_due (kept : Kept owner calls d q) (i : Nat) : i ∈ d.bench.ran ↔ ∃ k, Due owner calls i k := by
  rw [kept.ran,List.mem_flatMap]
  constructor
  · rintro ⟨entry,member,ran⟩
    obtain ⟨k,found⟩ := List.mem_iff_getElem?.mp member
    exact ⟨k,((kept.accurate k entry found).due i).mp ran⟩
  · rintro ⟨k,due⟩
    have known : k < d.log.length := by
      rw [kept.length]
      cases due with
      | atOnce own => exact (List.getElem?_eq_some_iff.mp own).1
      | drained waits drains => exact (List.getElem?_eq_some_iff.mp drains).1
    exact ⟨d.log[k],List.getElem_mem known,((kept.accurate k _ (List.getElem?_eq_getElem known)).due i).mpr due⟩

theorem Kept.ran_in_order (kept : Kept owner calls d q) :
    d.bench.ran.Pairwise fun i j => i ≠ j ∧ (Foreign owner calls i → Foreign owner calls j → i < j) := by
  rw [kept.ran,List.pairwise_flatMap]
  constructor
  · intro entry member
    obtain ⟨k,found⟩ := List.mem_iff_getElem?.mp member
    exact (kept.accurate k entry found).ordered.imp fun earlier => ⟨Nat.ne_of_lt earlier,fun _ _ => earlier⟩
  · rw [List.pairwise_iff_getElem]
    intro k l known known' earlier i ran j ran'
    have due := ((kept.accurate k _ (List.getElem?_eq_getElem known)).due i).mp ran
    have due' := ((kept.accurate l _ (List.getElem?_eq_getElem known')).due j).mp ran'
    refine ⟨?_,due.ordered due' earlier⟩
    rintro rfl
    exact Nat.ne_of_lt earlier (due.unique due')

theorem Kept.refused_never_ran (kept : Kept owner calls d q) {i : Nat} {entry : DispatchEntry}
    (found : d.log[i]? = some entry) (refused : entry.reply = .executed false) : i ∉ d.bench.ran := by
  intro ran
  obtain ⟨k,due⟩ := (kept.ran_when_due i).mp ran
  obtain ⟨thread,given,accepted⟩ := due.accepted
  have told := refused.symm.trans ((kept.accurate i entry found).answers _ given)
  simp [reply,accepted] at told

-- Every call runs the tasks that are due with it, in the order in which they were given, and answers accordingly. A
-- task runs exactly if it is ever due, never twice, and not if it was refused; those of other threads run in the order
-- in which they were given.
theorem tasks_run_once_in_order (coalescing : Bool) (owner : Nat) (calls : List DispatchCall) :
    ∃ d, after coalescing owner calls = some d ∧ d.log.length = calls.length ∧
      (∀ k entry, d.log[k]? = some entry → Accurate owner calls k entry) ∧
      d.bench.ran = d.log.flatMap DispatchEntry.ran ∧
      (∀ i, i ∈ d.bench.ran ↔ ∃ k, Due owner calls i k) ∧
      (∀ i entry, d.log[i]? = some entry → entry.reply = .executed false → i ∉ d.bench.ran) ∧
      d.bench.ran.Pairwise fun i j => i ≠ j ∧ (Foreign owner calls i → Foreign owner calls j → i < j) := by
  obtain ⟨d,q,reached,kept⟩ := after_kept coalescing owner calls
  exact ⟨d,reached,kept.length,kept.accurate,kept.ran,kept.ran_when_due,fun _ _ => kept.refused_never_ran,
    kept.ran_in_order⟩

-- The owner is served out of turn, and what the shutdown finds waiting is dropped.
example : (after true 7 [.execute 8,.execute 7,.runPending,.execute 8,.terminate,.execute 8,.runPending]).map
    (·.bench.ran) = some [1,0] := by decide

end Duty

end ObjectBridge
