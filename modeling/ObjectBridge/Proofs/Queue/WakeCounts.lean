import Mathlib.Data.List.SplitBy
import ObjectBridge.Proofs.Queue.Wakes

namespace ObjectBridge

variable {ρ μ ω : Type}

namespace QueueEvent

def attaches : QueueEvent ρ μ ω → Bool
  | .attached _ => true
  | _ => false

def isAccepted : QueueEvent ρ μ ω → Bool
  | .pushed _ _ accepted => accepted
  | _ => false

def isWake : QueueEvent ρ μ ω → Bool
  | .woke _ => true
  | _ => false

end QueueEvent

def wakesIn (events : List (QueueEvent ρ μ ω)) : Nat := events.countP QueueEvent.isWake

-- From the first attachment on, each attachment and each drain begins an interval, which lasts to the next.
def intervals (log : List (QueueEvent ρ μ ω)) : List (List (QueueEvent ρ μ ω)) :=
  (log.dropWhile (!·.attaches)).splitBy fun _ e => !e.arms

-- The accepted pushes that find a target attached, which is so from an attachment to a shutdown.
def heard : Bool → List (QueueEvent ρ μ ω) → Nat
  | _, [] => 0
  | _, .attached _ :: rest => heard true rest
  | _, .terminated _ :: rest => heard false rest
  | attached, e :: rest => heard attached rest + if attached && e.isAccepted then 1 else 0

-- Whether a target is attached behind the events, given whether one was attached before them.
def stillAttached : Bool → List (QueueEvent ρ μ ω) → Bool
  | attached, [] => attached
  | _, .attached _ :: rest => stillAttached true rest
  | _, .terminated _ :: rest => stillAttached false rest
  | attached, _ :: rest => stillAttached attached rest

section Logs

variable {log events : List (QueueEvent ρ μ ω)} {e : QueueEvent ρ μ ω}

theorem wakesIn_append (log events : List (QueueEvent ρ μ ω)) : wakesIn (log ++ events) = wakesIn log+wakesIn events :=
  List.countP_append

theorem wakesIn_woken (woken : List ω) : wakesIn (woken.map .woke : List (QueueEvent ρ μ ω)) = woken.length := by
  rw [wakesIn,List.countP_map,List.countP_eq_length]
  exact fun _ _ => rfl

theorem heard_append (attached : Bool) (log events : List (QueueEvent ρ μ ω)) :
    heard attached (log ++ events) = heard attached log+heard (stillAttached attached log) events := by
  induction log generalizing attached with
  | nil => simp [heard,stillAttached]
  | cons e rest ih =>
    rw [List.cons_append]
    cases e with
    | attached | terminated => exact ih _
    | pushed | woke | armed | drained =>
      simp only [heard,stillAttached,ih]
      omega

theorem stillAttached_append (attached : Bool) (log events : List (QueueEvent ρ μ ω)) :
    stillAttached attached (log ++ events) = stillAttached (stillAttached attached log) events := by
  induction log generalizing attached with
  | nil => rfl
  | cons e rest ih => cases e <;> exact ih _

theorem heard_pushed (attached : Bool) (producer : ρ) (message : μ) (rest : List (QueueEvent ρ μ ω)) :
    heard attached (.pushed producer message true :: rest) = heard attached rest+if attached then 1 else 0 := by
  simp [heard,QueueEvent.isAccepted]

theorem woken_unheard (attached : Bool) (woken : List ω) :
    heard attached (woken.map .woke : List (QueueEvent ρ μ ω)) = 0 ∧
      stillAttached attached (woken.map .woke : List (QueueEvent ρ μ ω)) = attached := by
  induction woken with
  | nil => exact ⟨rfl,rfl⟩
  | cons _ _ ih => simpa [heard,stillAttached,QueueEvent.isAccepted] using ih

theorem QueueEvent.not_attaches (quiet : e.arms = false) : e.attaches = false := by
  cases e <;> first | rfl | cases quiet

theorem intervals_unattached (unattached : ∀ e ∈ log, e.attaches = false) : intervals log = [] := by
  have none : log.dropWhile (!·.attaches) = [] :=
    List.dropWhile_eq_nil_iff.mpr fun e member => by simp [unattached e member]
  rw [intervals,none,List.splitBy_nil]

-- The last interval runs from where the wake was armed last.
theorem intervals_arming (arms : e.arms = true) (quiet : ∀ e ∈ events, e.arms = false)
    (begun : ∃ a ∈ log ++ [e], a.attaches = true) :
    intervals (log ++ e :: events) = intervals log ++ [e :: events] := by
  have dropped : (log ++ e :: events).dropWhile (!·.attaches) = log.dropWhile (!·.attaches) ++ e :: events := by
    rw [List.dropWhile_append]
    split
    · rename_i none
      have first : e.attaches = true := by
        obtain ⟨a,member,attaches⟩ := begun
        rcases List.mem_append.mp member with before | last
        · have later := List.dropWhile_eq_nil_iff.mp (List.isEmpty_iff.mp none) a before
          simp [attaches] at later
        · exact List.mem_singleton.mp last ▸ attaches
      rw [List.isEmpty_iff.mp none,List.dropWhile_cons_of_neg (by simp [first]),List.nil_append]
    · rfl
  have chain : (e :: events).IsChain fun _ e => !e.arms := by
    clear dropped begun arms
    induction events generalizing e with
    | nil => exact .singleton e
    | cons next rest ih =>
      obtain ⟨first,others⟩ := List.forall_mem_cons.mp quiet
      exact .cons_cons (by simp [first]) (ih others)
  rw [intervals,dropped,List.splitBy_append_cons _ (by simp [arms]),List.splitBy_of_isChain (List.cons_ne_nil _ _) chain]
  rfl

end Logs

-- The target is woken once in the interval if a push was accepted in it, and else not at all.
def Told (interval : List (QueueEvent ρ μ ω)) : Prop :=
  wakesIn interval = if interval.any QueueEvent.isAccepted then 1 else 0

structure Reckoned (log : List (QueueEvent ρ μ ω)) : Prop where
  told : ∀ interval ∈ intervals log, Told interval
  total : wakesIn log = (intervals log).countP (·.any QueueEvent.isAccepted)

-- A log whose last interval has begun, and whether a push has been accepted in that.
structure Open (log : List (QueueEvent ρ μ ω)) (accepted : Bool) (earlier since : List (QueueEvent ρ μ ω))
    (e : QueueEvent ρ μ ω) : Prop where
  split : log = earlier ++ e :: since
  arms : e.arms = true
  quiet : ∀ e ∈ since, e.arms = false
  begun : ∃ a ∈ earlier ++ [e], a.attaches = true
  before : Reckoned earlier
  now : Told (e :: since)
  accepted : (e :: since).any QueueEvent.isAccepted = accepted

section Intervals

variable {log events earlier since : List (QueueEvent ρ μ ω)} {e : QueueEvent ρ μ ω} {accepted : Bool}

theorem Open.reckoned (last : Open log accepted earlier since e) : Reckoned log := by
  have cut : intervals log = intervals earlier ++ [e :: since] :=
    last.split ▸ intervals_arming last.arms last.quiet last.begun
  constructor
  · rw [cut]
    exact List.forall_mem_append.mpr ⟨last.before.told,List.forall_mem_singleton.mpr last.now⟩
  · have now := last.now
    rw [Told] at now
    rw [cut,last.split,wakesIn_append,last.before.total,now,List.countP_append,List.countP_singleton]

theorem Open.extend (last : Open log accepted earlier since e) (quiet : ∀ e ∈ events, e.arms = false)
    (tells : wakesIn events = if !accepted && events.any QueueEvent.isAccepted then 1 else 0) :
    Open (log ++ events) (accepted || events.any QueueEvent.isAccepted) earlier (since ++ events) e where
  split := by rw [last.split,List.append_assoc,List.cons_append]
  arms := last.arms
  quiet := List.forall_mem_append.mpr ⟨last.quiet,quiet⟩
  begun := last.begun
  before := last.before
  now := by
    have now := last.now
    rw [Told,last.accepted] at now
    rw [Told,← List.cons_append,wakesIn_append,List.any_append,last.accepted,now,tells]
    cases accepted <;> cases events.any QueueEvent.isAccepted <;> rfl
  accepted := by rw [← List.cons_append,List.any_append,last.accepted]

theorem Reckoned.begin (before : Reckoned log) (arms : e.arms = true) (quiet : ∀ e ∈ events, e.arms = false)
    (begun : ∃ a ∈ log ++ [e], a.attaches = true) (silent : wakesIn (e :: events) = 0)
    (none : (e :: events).any QueueEvent.isAccepted = false) : Open (log ++ e :: events) false log events e where
  split := rfl
  arms := arms
  quiet := quiet
  begun := begun
  before := before
  now := by rw [Told,silent,none]; rfl
  accepted := none

theorem reckoned_unattached (unattached : ∀ e ∈ log, e.attaches = false) (silent : wakesIn log = 0) : Reckoned log := by
  have none := intervals_unattached unattached
  constructor
  · rw [none]
    exact fun _ member => nomatch member
  · rw [none,silent,List.countP_nil]

end Intervals

namespace Course

variable {acts : List (QueueAct ρ μ ω)} {act : QueueAct ρ μ ω} {c c' : Course ρ μ ω}

-- Until a target is attached nobody is woken. From then on, as long as the queue runs, the wake is armed exactly if
-- no push has been accepted in the interval that is open.
inductive Announced (c : Course ρ μ ω) : Prop where
  | unattached (never : ∀ e ∈ c.log, e.attaches = false) (silent : wakesIn c.log = 0) (free : c.queue.target = none)
  | attached {accepted : Bool} {earlier since : List (QueueEvent ρ μ ω)} {e : QueueEvent ρ μ ω}
      (last : Open c.log accepted earlier since e)
      (armed : c.queue.terminated = false → c.queue.target.isSome ∧ c.queue.armed = !accepted)

theorem Announced.reckoned (announced : Announced c) : Reckoned c.log := by
  cases announced with
  | unattached never silent _ => exact reckoned_unattached never silent
  | attached last _ => exact last.reckoned

-- An arming point begins an interval once a target has been attached, here or earlier.
theorem Announced.arming (before : Announced c) {e : QueueEvent ρ μ ω} {events : List (QueueEvent ρ μ ω)}
    (arms : e.arms = true) (quiet : ∀ e ∈ events, e.arms = false) (silent : wakesIn (e :: events) = 0)
    (none : (e :: events).any QueueEvent.isAccepted = false) (log : c'.log = c.log ++ e :: events)
    (begun : ∃ a ∈ c.log ++ [e], a.attaches = true)
    (armed : c'.queue.terminated = false → c'.queue.target.isSome ∧ c'.queue.armed = true) : Announced c' := by
  have last : Open c'.log false c.log events e := log ▸ before.reckoned.begin arms quiet begun silent none
  exact .attached last armed

-- What is neither a push that is accepted nor a wake goes by without a trace.
theorem Announced.pass (before : Announced c) {e : QueueEvent ρ μ ω} (quiet : e.arms = false) (wakes : e.isWake = false)
    (accepts : e.isAccepted = false) (log : c'.log = c.log ++ [e])
    (queue : c'.queue.terminated = false → c'.queue = c.queue)
    (target : c.queue.target = none → c'.queue.target = none) : Announced c' := by
  cases before with
  | unattached never silent free =>
    refine .unattached ?_ ?_ (target free)
    · rw [log]
      exact List.forall_mem_append.mpr ⟨never,List.forall_mem_singleton.mpr (QueueEvent.not_attaches quiet)⟩
    · rw [log,wakesIn_append,silent]
      simp [wakesIn,wakes]
  | @attached accepted earlier since first last armed =>
    have further : Open c'.log _ earlier (since ++ [e]) first := log ▸
      last.extend (List.forall_mem_singleton.mpr quiet) (by simp [wakesIn,wakes,accepts])
    refine .attached further fun running => ?_
    have same := queue running
    rw [same] at running ⊢
    simpa [accepts] using armed running

theorem Step.coalescing (step : Step c act c') : c'.queue.coalescing = c.queue.coalescing := by
  cases step <;> rfl

theorem Step.announced (step : Step c act c') (coalescing : c.queue.coalescing = true) (before : Announced c) :
    Announced c' := by
  cases step with
  | attach target =>
    have quiet : ∀ e ∈ ([] : List (QueueEvent ρ μ ω)), e.arms = false := nofun
    exact before.arming rfl quiet rfl rfl rfl ⟨.attached target,by simp,rfl⟩ fun _ => ⟨rfl,rfl⟩
  | refuse producer message stopped =>
    exact before.pass (e := .pushed producer message false) rfl rfl rfl rfl (fun _ => rfl) id
  | terminate =>
    exact before.pass (e := .terminated c.queue.messages) rfl rfl rfl rfl (fun running => nomatch running) fun _ => rfl
  | popAll =>
    have quiet : ∀ e ∈ ([.drained c.queue.messages] : List (QueueEvent ρ μ ω)), e.arms = false := by
      simp [QueueEvent.arms]
    cases before with
    | unattached never silent free =>
      refine .unattached ?_ ?_ free
      · exact List.forall_mem_append.mpr ⟨never,by simp [QueueEvent.attaches]⟩
      · rw [wakesIn_append,silent]
        rfl
    | attached last armed =>
      obtain ⟨a,member,attaches⟩ := last.begun
      have earlier : a ∈ c.log := by
        rw [last.split,List.append_cons]
        exact List.mem_append_left _ member
      refine Announced.arming (.attached last armed) (e := .armed) rfl quiet rfl rfl rfl
        ⟨a,List.mem_append_left _ earlier,attaches⟩ fun running => ⟨(armed running).1,rfl⟩
  | push producer message running =>
    have quiet : ∀ e ∈ (.pushed producer message true :: (wakes c.queue).map .woke : List (QueueEvent ρ μ ω)),
      e.arms = false := List.forall_mem_cons.mpr ⟨rfl,wakes_arm_nothing⟩
    cases before with
    | unattached never silent free =>
      have none : wakes c.queue = [] := by simp [wakes,free]
      refine .unattached ?_ ?_ free
      · exact List.forall_mem_append.mpr ⟨never,fun e member => QueueEvent.not_attaches (quiet e member)⟩
      · rw [wakesIn_append,silent,none]
        rfl
    | @attached accepted earlier since first last armed =>
      obtain ⟨target,spent⟩ := armed running
      -- The wake is there for the first push of the interval alone.
      have woken : wakesIn (.pushed producer message true :: (wakes c.queue).map .woke : List (QueueEvent ρ μ ω)) =
          if accepted then 0 else 1 := by
        obtain ⟨w,there⟩ := Option.isSome_iff_exists.mp target
        cases accepted <;> simp [wakes,coalescing,spent,there,wakesIn,QueueEvent.isWake]
      have further := last.extend quiet (by rw [woken]; cases accepted <;> rfl)
      exact .attached further fun _ => ⟨target,by simp [coalescing,QueueEvent.isAccepted]⟩

theorem after_announced (acts : List (QueueAct ρ μ ω)) : Announced (after true acts) := by
  refine (after_induct (motive := fun _ c => c.queue.coalescing = true ∧ Announced c) ?_ ?_ acts).2
  · exact ⟨rfl,.unattached nofun rfl rfl⟩
  · intro acts c act before
    have step := advance_step c act
    exact ⟨step.coalescing.trans before.1,step.announced before.1 before.2⟩

-- The target hears of every accepted push.
structure Heard (c : Course ρ μ ω) : Prop where
  attached : stillAttached false c.log = c.queue.target.isSome
  told : wakesIn c.log = heard false c.log

theorem Heard.extend (before : Heard c) {events : List (QueueEvent ρ μ ω)} (log : c'.log = c.log ++ events)
    (attached : stillAttached c.queue.target.isSome events = c'.queue.target.isSome)
    (told : wakesIn events = heard c.queue.target.isSome events) : Heard c' where
  attached := by rw [log,stillAttached_append,before.attached,attached]
  told := by rw [log,wakesIn_append,heard_append,before.told,before.attached,told]

theorem Step.heard (step : Step c act c') (plain : c.queue.coalescing = false) (before : Heard c) : Heard c' := by
  cases step with
  | attach | refuse | popAll | terminate =>
    exact before.extend rfl rfl (by simp [wakesIn,ObjectBridge.heard,QueueEvent.isWake,QueueEvent.isAccepted])
  | push producer message running =>
    obtain ⟨unheard,unmoved⟩ := @woken_unheard ρ μ ω c.queue.target.isSome (wakes c.queue)
    refine before.extend rfl unmoved ?_
    have woken : wakesIn ((wakes c.queue).map .woke : List (QueueEvent ρ μ ω)) = (wakes c.queue).length :=
      wakesIn_woken _
    rw [heard_pushed,unheard,← List.singleton_append,wakesIn_append,woken]
    cases there : c.queue.target <;> simp [wakes,plain,there,wakesIn,QueueEvent.isWake]

theorem after_heard (acts : List (QueueAct ρ μ ω)) : Heard (after false acts) := by
  refine (after_induct (motive := fun _ c => c.queue.coalescing = false ∧ Heard c) ?_ ?_ acts).2
  · exact ⟨rfl,rfl,rfl⟩
  · intro acts c act before
    have step := advance_step c act
    exact ⟨step.coalescing.trans before.1,step.heard before.1 before.2⟩

-- Without coalescing the target is woken as often as a push is accepted while it is attached, and with coalescing
-- as often as an interval sees a push accepted, which is at most once in each.
theorem wakes_accounted (acts : List (QueueAct ρ μ ω)) :
    wakesIn (after false acts).log = heard false (after false acts).log ∧
    wakesIn (after true acts).log = (intervals (after true acts).log).countP (·.any QueueEvent.isAccepted) ∧
    ∀ interval ∈ intervals (after true acts).log, wakesIn interval ≤ 1 := by
  obtain ⟨told,total⟩ := (after_announced acts).reckoned
  refine ⟨(after_heard acts).told,total,fun interval member => ?_⟩
  rw [told interval member]
  split <;> decide

-- What is pushed before the consumer comes is not told to it, and does not use up the wake that it arms.
example : (intervals (after true ([.push () 1,.attach (),.push () 2,.push () 3,.popAll,.popAll,.push () 4] :
    List (QueueAct Unit Nat Unit))).log).map wakesIn = [1,0,1] := by decide

end Course

end ObjectBridge
