import Mathlib.Data.List.Forall2

namespace ObjectBridge.Outcome

theorem bind_ok {x : Except ε α} {f : α → Except ε β} {b : β} :
    (x >>= f) = .ok b ↔ ∃ a, x = .ok a ∧ f a = .ok b := by
  cases x <;> simp [bind, Except.bind]

theorem map_ok {x : Except ε α} {f : α → β} {b : β} :
    x.map f = .ok b ↔ ∃ a, x = .ok a ∧ f a = b := by
  cases x <;> simp [Except.map]

theorem pure_ok {a b : α} : (pure a : Except ε α) = .ok b ↔ a = b := by
  simp [pure, Except.pure]

theorem throw_ok {e : ε} {b : α} : (throw e : Except ε α) = .ok b ↔ False := by
  simp [throw, throwThe, MonadExceptOf.throw]

-- A check in front of the rest passed, and the rest went on.
theorem guard_ok {p : Prop} [Decidable p] {e : ε} {rest : PUnit → Except ε α} {b : α} :
    (if p then throw e >>= rest else rest ⟨⟩) = .ok b ↔ ¬ p ∧ rest ⟨⟩ = .ok b := by
  by_cases failed : p <;> simp [failed,bind_ok,throw_ok]

theorem mapM_ok {f : α → Except ε β} {items : List α} {results : List β} :
    items.mapM f = .ok results ↔ List.Forall₂ (fun a b => f a = .ok b) items results := by
  induction items generalizing results with
  | nil =>
    rw [List.mapM_nil,pure_ok]
    constructor
    · rintro rfl; exact .nil
    · rintro ⟨⟩; rfl
  | cons item rest ih =>
    rw [List.mapM_cons,bind_ok]
    constructor
    · rintro ⟨first,one,others⟩
      obtain ⟨tail,many,joined⟩ := bind_ok.mp others
      obtain rfl := pure_ok.mp joined
      exact .cons one (ih.mp many)
    · rintro (_ | ⟨one,many⟩)
      exact ⟨_,one,bind_ok.mpr ⟨_,ih.mpr many,rfl⟩⟩

theorem option_mapM_ok {f : α → Except ε β} {item : Option α} {result : Option β} :
    item.mapM f = .ok result ↔ Option.Rel (fun a b => f a = .ok b) item result := by
  cases item with
  | none =>
    rw [show (none : Option α).mapM f = pure none from rfl,pure_ok]
    constructor
    · rintro rfl; exact .none
    · rintro ⟨⟩; rfl
  | some a =>
    rw [show (some a).mapM f = some <$> f a from rfl]
    change (f a).map some = .ok result ↔ _
    rw [map_ok]
    constructor
    · rintro ⟨b,one,rfl⟩; exact .some one
    · intro related
      cases related with
      | some one => exact ⟨_,one,rfl⟩

-- It succeeds where there is no fault; where there is one, it fails and reports one.
inductive Judged (fault : ε → Prop) : Except ε α → Prop where
  | sound {a : α} (faultless : ∀ e, ¬fault e) : Judged fault (.ok a)
  | faulty {e : ε} (found : fault e) : Judged fault (.error e)

namespace Judged

variable {fault other : ε → Prop} {x : Except ε α}

theorem succeeds_iff (judged : Judged fault x) : (∃ a, x = .ok a) ↔ ∀ e, ¬fault e := by
  cases judged with
  | sound faultless => exact ⟨fun _ => faultless,fun _ => ⟨_,rfl⟩⟩
  | faulty found => exact ⟨fun ⟨_,same⟩ => (nomatch same),fun faultless => (faultless _ found).elim⟩

theorem reports (judged : Judged fault x) (present : ∃ e, fault e) : ∃ e, x = .error e ∧ fault e := by
  cases judged with
  | sound faultless =>
    obtain ⟨e,found⟩ := present
    exact (faultless e found).elim
  | faulty found => exact ⟨_,rfl,found⟩

theorem congr (judged : Judged fault x) (same : ∀ e, fault e ↔ other e) : Judged other x := by
  cases judged with
  | sound faultless => exact .sound fun e found => faultless e ((same e).mpr found)
  | faulty found => exact .faulty ((same _).mp found)

theorem map (judged : Judged fault x) (f : α → β) : Judged fault (x.map f) := by
  cases judged with
  | sound faultless => exact .sound faultless
  | faulty found => exact .faulty found

theorem bind {next : α → Except ε β} (first : Judged fault x) (rest : ∀ a, Judged other (next a)) :
    Judged (fun e => fault e ∨ other e) (x >>= next) := by
  cases first with
  | @sound a faultless =>
    refine (rest a).congr fun e => ⟨.inr,?_⟩
    rintro (found | found)
    · exact (faultless e found).elim
    · exact found
  | faulty found => exact .faulty (.inl found)

-- Nothing can fail behind the first part.
theorem followed (first : Judged fault x) (f : α → β) : Judged fault (x >>= fun a => pure (f a)) := by
  cases first with
  | sound faultless => exact .sound faultless
  | faulty found => exact .faulty found

theorem guard {p : Prop} [Decidable p] {e : ε} {rest : PUnit → Except ε α} (judged : Judged other (rest ⟨⟩)) :
    Judged (fun e' => p ∧ e' = e ∨ other e') (if p then throw e >>= rest else rest ⟨⟩) := by
  by_cases failed : p
  · rw [if_pos failed]
    exact .faulty (.inl ⟨failed,rfl⟩)
  · rw [if_neg failed]
    exact judged.congr fun e' => ⟨.inr,fun found => found.resolve_left fun first => failed first.1⟩

theorem each {fault : α → ε → Prop} {f : α → Except ε β} {items : List α} (one : ∀ a ∈ items, Judged (fault a) (f a)) :
    Judged (fun e => ∃ a ∈ items, fault a e) (items.mapM f) := by
  induction items with
  | nil => exact .sound fun e found => nomatch found
  | cons first rest ih =>
    rw [List.mapM_cons]
    have later := ih fun a member => one a (List.mem_cons_of_mem _ member)
    refine ((one first List.mem_cons_self).bind fun b => later.followed _).congr fun e => ?_
    exact (List.exists_mem_cons_iff (fault · e) first rest).symm

theorem all {fault : α → ε → Prop} {f : α → Except ε PUnit} {items : List α} (one : ∀ a, Judged (fault a) (f a)) :
    Judged (fun e => ∃ a ∈ items, fault a e) (items.forM f) := by
  induction items with
  | nil => exact .sound fun e found => nomatch found
  | cons first rest ih =>
    exact ((one first).bind fun _ => ih).congr fun e => (List.exists_mem_cons_iff (fault · e) first rest).symm

end Judged

-- Each item on the right comes from one on the left.
theorem related_left {R : α → β → Prop} {items : List α} {results : List β} (related : List.Forall₂ R items results)
    {b : β} (member : b ∈ results) : ∃ a ∈ items, R a b := by
  induction related with
  | nil => cases member
  | cons one _ ih =>
    rcases List.mem_cons.mp member with rfl | later
    · exact ⟨_,List.mem_cons_self,one⟩
    · obtain ⟨a,among,other⟩ := ih later
      exact ⟨a,List.mem_cons_of_mem _ among,other⟩

theorem related_right {R : α → β → Prop} {items : List α} {results : List β} (related : List.Forall₂ R items results)
    {a : α} (member : a ∈ items) : ∃ b ∈ results, R a b :=
  related_left related.flip member

theorem related_at {R : α → β → Prop} {items : List α} {results : List β} (related : List.Forall₂ R items results)
    {i : Nat} {a : α} (placed : items[i]? = some a) : ∃ b, results[i]? = some b ∧ R a b := by
  induction related generalizing i with
  | nil => cases placed
  | cons one _ ih =>
    cases i with
    | zero => cases placed; exact ⟨_,rfl,one⟩
    | succ i => exact ih placed

theorem related_same {f : α → γ} {g : β → γ} {items : List α} {results : List β}
    (related : List.Forall₂ (fun a b => f a = g b) items results) : items.map f = results.map g := by
  rw [← List.forall₂_eq_eq_eq,List.forall₂_map_left_iff,List.forall₂_map_right_iff]
  exact related

-- Where no item is there twice, what became of them is a matter of the item alone.
theorem related_map [Inhabited β] {R : α → β → Prop} {items : List α} {results : List β}
    (distinct : items.Nodup) (related : List.Forall₂ R items results) :
    ∃ f : α → β, results = items.map f ∧ ∀ a ∈ items, R a (f a) := by
  classical
  induction related with
  | nil => exact ⟨fun _ => default,rfl,fun _ none => nomatch none⟩
  | @cons a b rest others one _ ih =>
    obtain ⟨fresh,distinct⟩ := List.nodup_cons.mp distinct
    obtain ⟨f,rfl,each⟩ := ih distinct
    have elsewhere (x : α) (later : x ∈ rest) : Function.update f a b x = f x := by
      apply Function.update_of_ne
      rintro rfl
      exact fresh later
    refine ⟨Function.update f a b,?_,?_⟩
    · rw [List.map_cons,Function.update_self]
      exact congrArg _ (List.map_congr_left fun x later => (elsewhere x later).symm)
    · intro x member
      rcases List.mem_cons.mp member with rfl | later
      · rwa [Function.update_self]
      · rw [elsewhere x later]
        exact each x later

end ObjectBridge.Outcome
