import Mathlib.Data.List.DropRight
import ObjectBridge.Proofs.Queue.Histories

namespace ObjectBridge

variable {ρ μ ω : Type}

-- What has happened since a target was attached and since the last drain began.
def sinceArmed (log : List (QueueEvent ρ μ ω)) : List (QueueEvent ρ μ ω) := log.rtakeWhile (!·.arms)

section Since

variable {log events : List (QueueEvent ρ μ ω)} {e : QueueEvent ρ μ ω}

theorem sinceArmed_append (quiet : ∀ e ∈ events, e.arms = false) :
    sinceArmed (log ++ events) = sinceArmed log ++ events := by
  induction events using List.reverseRecOn with
  | nil => rw [List.append_nil,List.append_nil]
  | append_singleton events e ih =>
    have last : e.arms = false := quiet e (by simp)
    rw [← List.append_assoc,sinceArmed,List.rtakeWhile_concat_pos _ _ _ (by rw [last]; rfl),← List.append_assoc]
    exact congrArg (· ++ [e]) (ih fun e member => quiet e (List.mem_append_left _ member))

theorem mem_sinceArmed_append (since : e ∈ sinceArmed log) (quiet : ∀ e ∈ events, e.arms = false) :
    e ∈ sinceArmed (log ++ events) := by
  rw [sinceArmed_append quiet]
  exact List.mem_append_left _ since

theorem sinceArmed_arms (arms : e.arms = true) (quiet : ∀ e ∈ events, e.arms = false) :
    sinceArmed (log ++ e :: events) = events := by
  have none : sinceArmed (log ++ [e]) = [] := List.rtakeWhile_concat_neg _ _ _ (by simp [arms])
  rw [List.append_cons,sinceArmed_append quiet,none,List.nil_append]

end Since

theorem wakes_arm_nothing {woken : List ω} : ∀ e ∈ (woken.map .woke : List (QueueEvent ρ μ ω)), e.arms = false := by
  intro e member
  obtain ⟨_,_,rfl⟩ := List.mem_map.mp member
  rfl

namespace Course

variable {coalescing : Bool} {acts : List (QueueAct ρ μ ω)} {act : QueueAct ρ μ ω} {c c' : Course ρ μ ω}

-- The target, if there is one, has been woken since the wake was last armed.
def Noticed (c : Course ρ μ ω) : Prop := ∀ target, c.queue.target = some target → .woke target ∈ sinceArmed c.log

-- A wake that is no longer armed has been spent on the target, and only an attachment leaves messages unnoticed.
structure Attentive (acts : List (QueueAct ρ μ ω)) (c : Course ρ μ ω) : Prop where
  running : c.queue.terminated = false
  spent : c.queue.armed = false → c.Noticed
  waiting : c.queue.messages ≠ [] → (∃ earlier target, acts = earlier ++ [.attach target]) ∨ c.Noticed

-- An accepted push finds the wake spent on the target or wakes the target itself.
theorem Attentive.push_noticed (before : Attentive acts c) (producer : ρ) (message : μ) (target : ω)
    (attached : c.queue.target = some target) :
    .woke target ∈ sinceArmed (c.log ++ .pushed producer message true :: (wakes c.queue).map .woke) := by
  have quiet : ∀ e ∈ (.pushed producer message true :: (wakes c.queue).map .woke : List (QueueEvent ρ μ ω)),
      e.arms = false := List.forall_mem_cons.mpr ⟨rfl,wakes_arm_nothing⟩
  rw [sinceArmed_append quiet]
  cases held : c.queue.coalescing && !c.queue.armed with
  | true =>
    have unarmed : c.queue.armed = false := by simpa using (Bool.and_eq_true_iff.mp held).2
    exact List.mem_append_left _ (before.spent unarmed target attached)
  | false => simp [wakes,held,attached]

theorem Step.attentive (step : Step c act c') (before : Attentive acts c) (lasts : act ≠ .terminate) :
    Attentive (acts ++ [act]) c' := by
  cases step with
  | attach target => exact ⟨before.running,fun unarmed => (nomatch unarmed),fun _ => .inl ⟨acts,target,rfl⟩⟩
  | popAll => exact ⟨before.running,fun unarmed => (nomatch unarmed),fun waiting => (waiting rfl).elim⟩
  | terminate => exact (lasts rfl).elim
  | refuse producer message stopped => exact nomatch before.running.symm.trans stopped
  | push producer message running =>
    have noticed := before.push_noticed producer message
    exact ⟨running,fun _ => noticed,fun _ => .inr noticed⟩

theorem after_attentive (coalescing : Bool) (acts : List (QueueAct ρ μ ω)) (running : .terminate ∉ acts) :
    Attentive acts (after coalescing acts) := by
  revert running
  refine after_induct (motive := fun acts c => .terminate ∉ acts → Attentive acts c) ?_ ?_ acts
  · exact fun _ => ⟨rfl,fun unarmed => (nomatch unarmed),fun waiting => (waiting rfl).elim⟩
  · intro acts c act known running
    rw [List.mem_append,not_or,List.mem_singleton] at running
    exact (advance_step c act).attentive (known running.1) (Ne.symm running.2)

-- An attachment tells the target nothing.
theorem attached_unnoticed (coalescing : Bool) (earlier : List (QueueAct ρ μ ω)) (target : ω) :
    sinceArmed (after coalescing (earlier ++ [.attach target])).log = [] := by
  rw [after_next]
  exact sinceArmed_arms rfl fun e none => (nomatch none)

-- While the queue runs, only messages that waited when the target was attached can wait without its having
-- been woken, and only until the next act.
theorem woken_unless_just_attached (coalescing : Bool) (acts : List (QueueAct ρ μ ω)) (target : ω)
    (running : .terminate ∉ acts) (attached : (after coalescing acts).queue.target = some target)
    (waiting : (after coalescing acts).queue.messages ≠ []) :
    .woke target ∈ sinceArmed (after coalescing acts).log ↔ ∀ earlier, acts ≠ earlier ++ [.attach target] := by
  constructor
  · rintro woken earlier rfl
    rw [attached_unnoticed] at woken
    cases woken
  · intro others
    rcases (after_attentive coalescing acts running).waiting waiting with ⟨earlier,last,rfl⟩ | noticed
    · rw [after_next] at attached
      have same : last = target := Option.some.inj attached
      exact (others earlier (by rw [same])).elim
    · exact noticed target attached

theorem woken_for_later_push :
    let acts : List (QueueAct Unit Nat Unit) := [.push () 1,.attach (),.push () 2]
    .woke () ∈ sinceArmed (after true acts).log :=
  (woken_unless_just_attached true _ () (fun shut => by simp at shut) rfl (by decide)).mpr fun earlier same => by
    have last := congrArg List.getLast? same
    simp at last

-- A message that waits for its consumer wakes it neither when it is pushed nor when the consumer comes.
theorem backlog_unannounced :
    ¬∀ (coalescing : Bool) (acts : List (QueueAct Unit Nat Unit)) (target : Unit), .terminate ∉ acts →
      (after coalescing acts).queue.target = some target → (after coalescing acts).queue.messages ≠ [] →
      .woke target ∈ sinceArmed (after coalescing acts).log := by
  intro always
  have woken := always true ([.push () 1] ++ [.attach ()]) () (fun shut => by simp at shut) rfl (by decide)
  rw [attached_unnoticed] at woken
  cases woken

end Course

end ObjectBridge
