import ObjectBridge.Proofs.Bridge.Callbacks
import ObjectBridge.Proofs.Bridge.Rejections
import ObjectBridge.Proofs.Bridge.Results

namespace ObjectBridge

-- A count that has come round to zero stands for one reference more than the greatest word says.
def Instance.references (i : Instance) : Nat := if i.count = 0 then UInt32.size else i.count

theorem Instance.references_counted {i : Instance} (positive : 0 < i.count) : i.references = i.count :=
  if_neg (Nat.ne_of_gt positive)

theorem Instance.references_pos (i : Instance) : 0 < i.references := by
  unfold references
  split
  · exact Nat.succ_pos _
  · rename_i some
    exact Nat.pos_of_ne_zero some

namespace Heap

variable {h after : Heap} {a : Address} {n : Nat} {i : Instance}

-- How many references there are to an instance, told by its address and serial. None once it is gone.
def references (h : Heap) (a : Address) (n : Nat) : Nat := ((h.get? a).filter (·.serial = n)).elim 0 (·.references)

theorem references_vacant (vacant : h.get? a = none) (n : Nat) : h.references a n = 0 := by
  rw [references,vacant]
  rfl

theorem references_here (found : h.get? a = some i) : h.references a i.serial = i.references := by
  rw [references,found,Option.filter_some,if_pos (decide_eq_true rfl)]
  rfl

theorem references_other (found : h.get? a = some i) (other : i.serial ≠ n) : h.references a n = 0 := by
  rw [references,found,Option.filter_some,if_neg (by simpa using other)]
  rfl

theorem references_eq_zero : h.references a n = 0 ↔ h.serial? a ≠ some n := by
  cases found : h.get? a with
  | none => simp [references_vacant found,serial?,found]
  | some i =>
    by_cases same : i.serial = n
    · subst same
      simp [references_here found,serial?,found,Nat.ne_of_gt i.references_pos]
    · simp [references_other found same,serial?,found,same]

theorem Shrinks.references {returned : List Nat} (shrinks : Shrinks h after returned) (a : Address) (n : Nat) :
    after.references a n = h.references a n-returned.count n := by
  cases found : h.get? a with
  | none => rw [references_vacant found,references_vacant (shrinks.vacant a found),Nat.zero_sub]
  | some i =>
    rcases shrinks.fate a i found with ⟨j,there,same,count,lives⟩ | ⟨gone,count,all⟩
    · by_cases here : i.serial = n
      · subst here
        rw [references_here found,← same,references_here there,same,Instance.references,Instance.references]
        split <;> split <;> omega
      · rw [references_other found here,references_other there (same ▸ here),Nat.zero_sub]
    · rw [references_vacant gone]
      by_cases here : i.serial = n
      · subst here
        rw [references_here found,Instance.references_counted all]
        omega
      · rw [references_other found here,Nat.zero_sub]

end Heap

namespace Holdings

variable {s : Holdings}

theorem settle_references_le (sound : s.heap.Sound) (pending : List Nat) (a : Address) (n : Nat) :
    (s.settle pending).heap.references a n ≤ s.heap.references a n := by
  obtain ⟨_,returned,shrinks⟩ := settleWith_shrinks (pending.length+s.keptCount) pending sound
  exact (shrinks.references a n).trans_le (Nat.sub_le _ _)

-- An instance is gone if all its references came with what was not converted.
theorem Traceless.gone {r : Nat} {t : Holdings} {returned freed : List Nat} {a : Address} {n : Nat}
    (traceless : Traceless r s returned freed t) (all : s.heap.references a n ≤ returned.count n) :
    (t.settle freed).heap.serial? a ≠ some n := by
  have settled := settle_references_le traceless.heap.sound freed a n
  rw [traceless.heap.shrinks.references,Nat.sub_eq_zero_of_le all] at settled
  exact Heap.references_eq_zero.mp (Nat.le_zero.mp settled)

end Holdings

variable {σ : Type}

-- The world as an initializer finds it, with an instance that has one reference.
def World.allotted (w : World σ) (native : ClassId) : World σ :=
  { w with bridge := { w.bridge with
      nativeCalls := w.bridge.nativeCalls+1
      holdings := { w.bridge.holdings with heap := (w.bridge.heap.allocate native none).2 } } }

-- Where that instance lives.
def Bridge.allotment (b : Bridge) : Address := b.heap.nextAddress none

namespace Call

variable {first : Call σ α} {rest : α → Call σ β} {w : World σ}

theorem bind_passes {a : α} {middle : World σ} (passes : first.run w = some (.ok a,middle)) :
    (first >>= rest).run w = (rest a).run middle := by
  rw [bind_run,passes]
  rfl

end Call

namespace Host

variable {host : Host σ} {c : SynthesizedClass} {init : MethodEntry} {args : List ScriptValue} {w after : World σ}
  {e : BridgeError}

-- What is left to do once the message has been sent.
def conclude (c : SynthesizedClass) (init : MethodEntry) (a : Address) : Except CallError NativeValue → Call σ Wrapper
  | .error e => do
    ExceptT.lift (Run.onBridge fun b => ((),{ b with holdings := (b.holdings.releaseAddress a).2 }))
    Call.fail (.native e)
  | .ok result => do
    let made := (result.toAddress?).getD .null
    if made.isNull then
      ExceptT.lift (Run.dropNative result)
      Call.fail (.constructionFailed c.name init.selector)
    else
      let value ← Call.located init.selector none (Call.ofEffect
        (Effect.toScriptingOwned (.object made) (.object (some c.id)) true))
      match value with
      | .object w => return w
      | other =>
        ExceptT.lift (Run.onBridge fun b => ((),{ b with holdings := (b.holdings.releaseAddress made).2 }))
        Call.fail ((BridgeError.mismatch c.name other.describeKind).located init.selector none)

theorem constructWith_eq {native : ClassId} (interface : c.kind = .interface) (known : c.native = some native) :
    host.constructWith c init args = (do
      checkArity init args
      let frame ← Call.ofEffect (Effect.frame init.selector init.signature.params args)
      let a ← Call.ofNative (allocate native none)
      Call.noteNativeCall
      conclude c init a (← ExceptT.lift (host.send (.instance a) init.selector frame))) := by
  unfold constructWith
  rw [interface,known]
  refine bind_congr fun _ => bind_congr fun frame => bind_congr fun a => bind_congr fun _ => bind_congr fun result => ?_
  cases result <;> rfl

theorem frame_run (member : String) (params : List TypeEncoding) (args : List ScriptValue) (w : World σ) :
    (∃ slots, List.Forall₂ (fun pair n => w.bridge.slot pair.1 pair.2 = .ok n) (args.zip params) slots ∧
      (Call.ofEffect (Effect.frame member params args)).run w = some (.ok slots,w)) ∨
      ∃ e, (Call.ofEffect (Effect.frame member params args)).run w =
        some (.error e,{ w with bridge := w.bridge.noteConversionError }) := by
  rw [Call.ofEffect_run]
  rcases run : Effect.frame member params args w.bridge with ⟨e | slots,b⟩
  · obtain ⟨rfl,_⟩ := Effect.frame_error run
    exact .inr ⟨e,rfl⟩
  · obtain ⟨rfl,converted⟩ := Effect.frame_ok run
    exact .inl ⟨slots,converted,rfl⟩

-- Either it fails before there is an instance, or the initializer is sent to one.
theorem constructWith_error (fails : (host.constructWith c init args).run w = some (.error e,after)) :
    (after.host = w.host ∧ after.bridge.holdings = w.bridge.holdings) ∨
      ∃ native name slots, c.native = some native ∧ w.bridge.natives.name? native = some name ∧
        w.bridge.Fills init.signature.params args slots ∧
        (host.send (.instance w.bridge.allotment) init.selector slots >>= fun result =>
          (conclude c init w.bridge.allotment result).run) (w.allotted native) = some (.error e,after) := by
  by_cases instantiable : c.kind = .interface ∧ c.native.isSome = true
  · obtain ⟨interface,backed⟩ := instantiable
    obtain ⟨native,known⟩ := Option.isSome_iff_exists.mp backed
    rw [constructWith_eq interface known] at fails
    rcases checkArity_run init args w with ⟨counted,passes⟩ | ⟨failure,miscounts⟩
    · rw [Call.bind_passes passes] at fails
      rcases frame_run init.selector init.signature.params args w with ⟨slots,converted,fits⟩ | ⟨failure,unfit⟩
      · rw [Call.bind_passes fits] at fails
        rcases allocate_run native none w with ⟨name,named,allocates⟩ | ⟨failure,unknown⟩
        · rw [Call.bind_passes allocates,Call.bind_passes rfl,ExceptT.run_bind_lift] at fails
          exact .inr ⟨native,name,slots,known,named,⟨counted,converted⟩,fails⟩
        · rw [bind_fails unknown] at fails
          cases fails
          exact .inl ⟨rfl,rfl⟩
      · rw [bind_fails unfit] at fails
        cases fails
        exact .inl ⟨rfl,rfl⟩
    · rw [bind_fails miscounts] at fails
      cases fails
      exact .inl ⟨rfl,rfl⟩
  · rw [Use.constructWith_forbidden instantiable] at fails
    cases fails
    exact .inl ⟨rfl,rfl⟩

-- A message that is not understood runs no code and changes nothing.
theorem send_run (host : Host σ) (receiver : Receiver) (selector : String) (slots : List NativeValue) (w : World σ) :
    (∃ e, host.send receiver selector slots w = some (.error e,w)) ∨
      ∃ body, w.bridge.messageTarget receiver selector = .ok body ∧ host.send receiver selector slots w =
        (host.perform body ⟨receiver,selector,slots⟩ w).bind fun (result,last) => some (.ok result,last) := by
  unfold send
  rw [readBridge_then]
  cases target : w.bridge.messageTarget receiver selector with
  | error e => exact .inl ⟨e,rfl⟩
  | ok body =>
    dsimp only
    unfold enter
    by_cases counted : slots.length = selectorArity selector
    · rw [if_pos counted]
      exact .inr ⟨body,rfl,rfl⟩
    · rw [if_neg counted]
      exact .inl ⟨_,rfl⟩

end Host

theorem NativeValue.object_of_toAddress? (result : NativeValue) (answered : result.toAddress?.isSome = true) :
    ∃ p, result = .object p := by
  cases result with
  | object p => exact ⟨p,rfl⟩
  | _ => cases answered

-- Nil, or another instance than the receiver, be it one that lives where the receiver lived.
def NativeValue.Replaces (result : NativeValue) (after : Heap) (a : Address) (n : Nat) : Prop :=
  ∃ p, result = .object p ∧ ¬(p = a ∧ after.serial? p = some n)

-- What is asked of an initializer: it gives its receiver up if it answers something else for it, and otherwise, also
-- if it answers no instance at all, it leaves the receiver the references that it had.
structure Tidy (before : Heap) (result : NativeValue) (after : Heap) (a : Address) (n : Nat) : Prop where
  replaced : result.Replaces after a n → after.references a n+1 = before.references a n
  kept : ¬result.Replaces after a n → after.references a n = before.references a n

namespace Host

-- The code that is found for the initializer's selector runs on the arguments, and ends.
inductive Initializes (host : Host σ) (c : SynthesizedClass) (init : MethodEntry) (args : List ScriptValue)
    (w : World σ) : World σ → NativeValue → World σ → Prop where
  | runs {native : ClassId} {body : Routine} {slots : List NativeValue} {result : NativeValue} {last : World σ}
      (known : c.native = some native) (found : w.bridge.natives.lookup native init.selector false = some body)
      (fills : w.bridge.Fills init.signature.params args slots)
      (does : host.perform body ⟨.instance w.bridge.allotment,init.selector,slots⟩ (w.allotted native) =
        some (result,last)) :
      Initializes host c init args w (w.allotted native) result last

end Host

section Allotment

variable {w : World σ}

theorem allotment_pointer (sound : w.bridge.heap.Sound) : w.bridge.allotment.isNull = false := by
  have positive := sound.numbered
  have apart : 0x1000*w.bridge.heap.nextSerial ≠ 0 := by omega
  exact decide_eq_false apart

theorem allotted_get? (native : ClassId) (p : Address) : (w.allotted native).bridge.heap.get? p =
    if p = w.bridge.allotment then some ⟨native,w.bridge.heap.nextSerial,1,.empty,[]⟩ else w.bridge.heap.get? p :=
  Heap.get?_allocate native none p

theorem allotted_here (native : ClassId) : (w.allotted native).bridge.heap.get? w.bridge.allotment =
    some ⟨native,w.bridge.heap.nextSerial,1,.empty,[]⟩ :=
  (allotted_get? native _).trans (if_pos rfl)

theorem allotted_references (native : ClassId) :
    (w.allotted native).bridge.heap.references w.bridge.allotment w.bridge.heap.nextSerial = 1 :=
  Heap.references_here (allotted_here native)

theorem allotted_lived {native : ClassId} {name : String} (lived : w.bridge.Lived)
    (named : w.bridge.natives.name? native = some name) : (w.allotted native).bridge.Lived := by
  obtain ⟨metadata,registries,functions,acts⟩ := lived
  exact ⟨metadata,registries,functions,(acts.tail (.allocate named none)).tail (.aside .countNativeCall rfl)⟩

theorem allotted_target {native : ClassId} {selector : String} {body : Routine}
    (target : (w.allotted native).bridge.messageTarget (.instance w.bridge.allotment) selector = .ok body) :
    w.bridge.natives.lookup native selector false = some body := by
  have cls : (w.allotted native).bridge.heap.classOf? w.bridge.allotment = some native := by
    rw [Heap.classOf?,allotted_here]
    rfl
  unfold Bridge.messageTarget at target
  simp only [cls] at target
  split at target
  · rename_i found
    cases target
    exact found
  · cases target

-- Given back at once, it leaves the heap with the instances that were there.
theorem allotment_returned (sound : w.bridge.heap.Sound) (native : ClassId) :
    ∃ heap, ((w.allotted native).bridge.holdings.releaseAddress w.bridge.allotment).2 =
      { w.bridge.holdings with heap := heap } ∧ ∀ p, heap.get? p = w.bridge.heap.get? p := by
  have released : (w.allotted native).bridge.holdings.heap.release w.bridge.allotment =
      ⟨.destroyed,[],(w.allotted native).bridge.heap.without w.bridge.allotment⟩ := by
    rw [Heap.release,show (w.allotted native).bridge.holdings.heap.get? w.bridge.allotment = _ from allotted_here native]
    rfl
  refine ⟨(w.allotted native).bridge.heap.without w.bridge.allotment,?_,fun p => ?_⟩
  · rw [Holdings.releaseAddress,released]
    exact Holdings.settle_nil _
  · rw [Heap.get?_without,allotted_get?]
    split
    · rename_i here
      rw [here]
      exact (Heap.nextAddress_free sound none).1.symm
    · rfl

end Allotment

namespace Host

open Bridge (registryNumber)

variable {host : Host σ} {c : SynthesizedClass} {init : MethodEntry} {args : List ScriptValue}
  {w last after : World σ} {a : Address} {result : NativeValue} {e : BridgeError}

-- What an instance is converted to is a wrapper of it.
theorem wrapped_object {p : Address} {v : ScriptValue} {ty : TypeEncoding} {b after : Bridge} (filed : b.holdings.Filed)
    (pointer : p.isNull = false) (converts : Effect.toScriptingOwned (.object p) ty true b = (.ok v,after)) :
    ∃ x, v = .object x := by
  rcases Effect.scripting_instance filed pointer true ty with ⟨failure,memo,refused⟩ | ⟨cls,memo,serial,_,wraps⟩
  · cases refused.symm.trans (Effect.owned_ok converts)
  · cases wraps.symm.trans (Effect.owned_ok converts)
    exact ⟨_,rfl⟩

-- Nil and what is no instance end it at once, and go; an instance, whichever it is, is wrapped or given back.
theorem conclude_error (lived : last.bridge.Lived) (opened : last.bridge.isOpen = true)
    (fails : (conclude c init a (.ok result)).run last = some (.error e,after)) :
    after.host = last.host ∧ (result.toAddress? = none → after.bridge = last.bridge.dropNative result) ∧
      ∃ freed t, after.bridge.holdings = result.wrappers.foldl Holdings.drop (t.settle freed) ∧
        Holdings.Traceless registryNumber last.bridge.holdings (last.bridge.brought result true) freed t := by
  have standing := lived.reached.standing opened
  unfold conclude at fails
  dsimp only at fails
  split at fails
  · rename_i null
    cases fails
    have nothing : last.bridge.brought result true = [] := by
      cases result with
      | object p => exact if_neg (by rw [show p.isNull = true from null]; decide)
      | _ => rfl
    refine ⟨rfl,fun _ => rfl,[],last.bridge.holdings,?_,?_⟩
    · rw [Holdings.settle_nil]
      rfl
    · rw [nothing]
      exact (Holdings.Lends.refl registryNumber lived.filed).traceless standing.heap
  · rename_i pointer
    obtain ⟨p,rfl⟩ : ∃ p, result = .object p := by
      cases result with
      | object p => exact ⟨p,rfl⟩
      | _ => exact absurd rfl pointer
    have runs := Call.located_run init.selector none
      (Call.ofEffect (Effect.toScriptingOwned (.object p) (.object (some c.id)) true)) last
    rw [Call.ofEffect_run] at runs
    rcases run : Effect.toScriptingOwned (.object p) (.object (some c.id)) true last.bridge with ⟨failure | v,b⟩
    · rw [run] at runs
      cases fails.symm.trans (bind_fails runs)
      refine ⟨rfl,by rintro ⟨⟩,?_⟩
      exact Effect.owned_error lived.filed standing.heap standing.opened (fun _ none => absurd none List.not_mem_nil) run
    · rw [run] at runs
      obtain ⟨x,rfl⟩ := wrapped_object lived.filed (Bool.eq_false_iff.mpr pointer) run
      cases fails.symm.trans (Call.bind_passes runs)

-- What there is after a construction has failed. The instance that was allocated is gone, unless the answer was none at
-- all, neither an instance nor nil. Then it stays, and nobody holds its reference. Such an answer is dropped, and with it
-- the handles that code in it has captured.
inductive Unmade (host : Host σ) (c : SynthesizedClass) (init : MethodEntry) (args : List ScriptValue)
    (w after : World σ) : Prop where
  | early (host : after.host = w.host) (same : after.bridge.holdings = w.bridge.holdings)
  | unsent (host : after.host = w.host) (same : ∀ p, after.bridge.heap.get? p = w.bridge.heap.get? p)
      (rest : after.bridge.holdings = { w.bridge.holdings with heap := after.bridge.heap })
  | answered {now last : World σ} {result : NativeValue} (answers : host.Initializes c init args w now result last)
      (host : after.host = last.host)
      (left : ∃ freed t, after.bridge.holdings = result.wrappers.foldl Holdings.drop (t.settle freed) ∧
        Holdings.Traceless registryNumber last.bridge.holdings (last.bridge.brought result true) freed t)
      (gone : result.toAddress?.isSome = true →
        after.bridge.heap.serial? w.bridge.allotment ≠ some w.bridge.heap.nextSerial)
      (stays : result.toAddress? = none → last.bridge.holdings.Spares result.handles →
        after.bridge.heap.references w.bridge.allotment w.bridge.heap.nextSerial = 1)

theorem Unmade.returned (sound : w.bridge.heap.Sound) (native : ClassId) : host.Unmade c init args w
    { w.allotted native with bridge := { (w.allotted native).bridge with
        holdings := ((w.allotted native).bridge.holdings.releaseAddress w.bridge.allotment).2 } } := by
  obtain ⟨heap,returned,same⟩ := allotment_returned sound native
  rw [returned]
  exact .unsent rfl same rfl

-- An answer that is an instance, or nil, brings all the references that are left to the receiver.
theorem receiver_brought {before : Heap} {n : Nat} {p : Address} {b : Bridge} (pointer : a.isNull = false)
    (one : before.references a n = 1) (tidy : Tidy before (.object p) b.heap a n) :
    b.heap.references a n ≤ (b.brought (.object p) true).count n := by
  by_cases receiver : p = a ∧ b.heap.serial? p = some n
  · have kept := tidy.kept fun ⟨q,same,other⟩ => by cases same; exact other receiver
    have brought : b.brought (.object p) true = [n] := by
      obtain ⟨i,found,rfl⟩ := Heap.serial?_eq.mp receiver.2
      have count := (Heap.references_here (receiver.1 ▸ found)).symm.trans (kept.trans one)
      have some : i.count ≠ 0 := by
        intro none
        rw [Instance.references,if_pos none] at count
        cases count
      rw [Bridge.brought,receiver.1,pointer]
      change b.heap.loses a = [i.serial]
      rw [Heap.loses,← receiver.1,found]
      exact Instance.loses_counted (Nat.pos_of_ne_zero some)
    rw [brought,List.count_singleton_self]
    exact Nat.le_of_eq (kept.trans one)
  · have gone := tidy.replaced ⟨p,rfl,receiver⟩
    omega

theorem Unmade.concluded {now : World σ} (sound : w.bridge.heap.Sound) (lived : last.bridge.Lived)
    (opened : last.bridge.isOpen = true) (answers : host.Initializes c init args w now result last)
    (tidy : Tidy now.bridge.heap result last.bridge.heap w.bridge.allotment w.bridge.heap.nextSerial)
    (fails : (conclude c init w.bridge.allotment (.ok result)).run last = some (.error e,after)) :
    host.Unmade c init args w after := by
  have one : now.bridge.heap.references w.bridge.allotment w.bridge.heap.nextSerial = 1 := by
    cases answers
    exact allotted_references _
  obtain ⟨same,plainly,freed,t,left,traceless⟩ := conclude_error lived opened fails
  refine .answered answers same ⟨freed,t,left,traceless⟩ ?_ ?_
  · intro answered
    obtain ⟨p,rfl⟩ := result.object_of_toAddress? answered
    rw [Bridge.heap,left]
    exact traceless.gone (receiver_brought (allotment_pointer sound) one tidy)
  · intro plain spared
    have sheds := Holdings.drops_shed lived.filed result.wrappers spared
    rw [Bridge.heap,plainly plain,show (last.bridge.dropNative result).holdings.heap = _ from sheds.heap]
    refine (tidy.kept ?_).trans one
    rintro ⟨p,rfl,_⟩
    cases plain

-- Nothing is left to be cleaned up after a failure, but where an initializer that did not answer left its receiver to
-- its caller. Native code may do to the bridge whatever its life consists of, but not close it under the call.
theorem failed_construction_accounted (lived : w.bridge.Lived) (opened : w.bridge.isOpen = true)
    (keeps : host.Preserves fun b => b.Lived ∧ b.isOpen = true)
    (tidy : ∀ now result last, host.Initializes c init args w now result last →
      Tidy now.bridge.heap result last.bridge.heap w.bridge.allotment w.bridge.heap.nextSerial)
    (fails : (host.constructWith c init args).run w = some (.error e,after)) : host.Unmade c init args w after := by
  have sound := lived.reached.heap_sound
  rcases constructWith_error fails with ⟨same,holdings⟩ | ⟨native,name,slots,known,named,fills,sent⟩
  · exact .early same holdings
  · obtain ⟨⟨outcome,last⟩,runs,concludes⟩ := Option.bind_eq_some_iff.mp sent
    rcases send_run host (.instance w.bridge.allotment) init.selector slots (w.allotted native) with
      ⟨failure,refused⟩ | ⟨body,target,enters⟩
    · cases refused.symm.trans runs
      cases concludes
      exact .returned sound native
    · obtain ⟨⟨result,left⟩,does,ended⟩ := Option.bind_eq_some_iff.mp (enters.symm.trans runs)
      cases ended
      have answers := Initializes.runs known (allotted_target target) fills does
      have stays := keeps.perform body _ _ _ _ ⟨allotted_lived lived named,opened⟩ does
      exact .concluded sound stays.1 stays.2 answers (tidy _ _ _ answers) concludes

-- A program with the root class alone, whose initializer the host performs.
def fresh : World Unit := ⟨.opened default [] .empty,()⟩

def plainInit : MethodEntry := .rootInit "Object"

theorem fresh_lived : fresh.bridge.Lived := ⟨default,[],.empty,.refl⟩

-- Native code that gives its receiver up and answers nil.
def declining : Host Unit where
  perform _ frame w := some (.object .null,
    { w with bridge := { w.bridge with holdings := (w.bridge.holdings.releaseAddress frame.this).2 } })
  written _ _ := fun _ => none

theorem declining_keeps : declining.Preserves fun b => b.Lived ∧ b.isOpen = true where
  perform body frame := by
    rintro w _ _ ⟨⟨metadata,registries,functions,acts⟩,opened⟩ ⟨⟩
    exact ⟨⟨metadata,registries,functions,acts.tail (.deed (.releaseAddress frame.this))⟩,opened⟩
  written body args := fun _ _ _ _ ends => nomatch ends

theorem declined_construction_accounted : ∃ e after,
    (declining.constructWith Scene.bareClass plainInit []).run fresh = some (.error e,after) ∧
      after.bridge.heap.isLive ⟨0x1000⟩ = false ∧ declining.Unmade Scene.bareClass plainInit [] fresh after := by
  refine ⟨_,_,rfl,rfl,failed_construction_accounted fresh_lived rfl declining_keeps ?_ rfl⟩
  rintro _ _ _ ⟨known,found,fills,does⟩
  cases known
  cases does
  exact ⟨fun _ => rfl,fun other => absurd ⟨.null,rfl,fun here => absurd here.1 (by decide)⟩ other⟩

-- Native code that answers nothing leaves its receiver as it was, and so does the construction.
theorem mute_construction_leaks : fresh.bridge.Lived ∧ fresh.bridge.isOpen = true ∧
    Use.mute.Preserves (fun b => b.Lived ∧ b.isOpen = true) ∧
    (∀ now result last, Use.mute.Initializes Scene.bareClass plainInit [] fresh now result last →
      Tidy now.bridge.heap result last.bridge.heap fresh.bridge.allotment fresh.bridge.heap.nextSerial) ∧
    ∃ after, (Use.mute.constructWith Scene.bareClass plainInit []).run fresh =
        some (.error (.constructionFailed "Object" "init"),after) ∧
      after.bridge.heap.serial? fresh.bridge.allotment = some fresh.bridge.heap.nextSerial := by
  refine ⟨fresh_lived,rfl,⟨?_,?_⟩,?_,_,rfl,rfl⟩
  · rintro body frame w _ _ holds ⟨⟩
    exact holds
  · exact fun body args _ _ _ _ ends => nomatch ends
  · rintro _ _ _ ⟨known,found,fills,does⟩
    cases known
    cases does
    refine ⟨?_,fun _ => rfl⟩
    rintro ⟨_,⟨⟩,_⟩

end Host
end ObjectBridge
