import ObjectBridge.Metadata.Resolved
import ObjectBridge.Proofs.Metadata.TypeTokens

namespace ObjectBridge.TypeText

variable {stop : Nat} {ts rest : List Token} {ss tail : List Symbol} {t : TypeRef} {w : String}

mutual

inductive Derives : List Symbol → TypeRef → Prop where
  | scalar (s : Scalar) : Derives [.word s.name] (.scalar s)
  | object : Derives [.word "id"] (.object none)
  | target (name : String) : Derives [.word "id",.mark '<',.word name,.mark '>'] (.object (some name))
  | struct (name : String) : Derives [.word "struct",.mark '<',.word name,.mark '>'] (.struct name)
  | block {ss row : List Symbol} {result : TypeRef} {params : List TypeRef} (derives : Derives ss result)
      (listed : Row row params) :
      Derives (.word "block" :: .mark '<' :: (ss ++ .mark '(' :: (row ++ [.mark ')',.mark '>']))) (.block result params)

-- What stands between the parentheses of a block.
inductive Row : List Symbol → List TypeRef → Prop where
  | none : Row [] []
  | last {ss : List Symbol} {t : TypeRef} (derives : Derives ss t) : Row ss [t]
  | more {ss row : List Symbol} {t u : TypeRef} {types : List TypeRef} (derives : Derives ss t)
      (others : Row row (u :: types)) :
      Row (ss ++ .mark ',' :: row) (t :: u :: types)

end

def Keyword (w : String) : Prop := (∃ s : Scalar, s.name = w) ∨ w = "id" ∨ w = "struct" ∨ w = "block"

-- Types of a row, each with the comma behind it.
inductive Earlier : List Symbol → Prop where
  | none : Earlier []
  | more {ss before : List Symbol} {t : TypeRef} (derives : Derives ss t) (earlier : Earlier before) :
      Earlier (ss ++ .mark ',' :: before)

-- Nothing is wrong so far, and what comes next has to be a type.
inductive TypeNext : List Symbol → Prop where
  | here : TypeNext []
  | result {before : List Symbol} (next : TypeNext before) : TypeNext (.word "block" :: .mark '<' :: before)
  | param {ss earlier before : List Symbol} {result : TypeRef} (derives : Derives ss result) (listed : Earlier earlier)
      (next : TypeNext before) : TypeNext (.word "block" :: .mark '<' :: (ss ++ .mark '(' :: (earlier ++ before)))

theorem ofName?_name (s : Scalar) : Scalar.ofName? s.name = some s := by
  cases s with
  | int kind => cases kind <;> decide
  | _ => decide

theorem ofName?_eq {s : Scalar} (named : Scalar.ofName? w = some s) : s.name = w := by
  simpa using List.find?_some named

theorem not_keyword : ¬Keyword w ↔ Scalar.ofName? w = none ∧ w ≠ "id" ∧ w ≠ "struct" ∧ w ≠ "block" := by
  have scalar : (∃ s : Scalar, s.name = w) ↔ Scalar.ofName? w ≠ none := by
    constructor
    · rintro ⟨s,rfl⟩
      rw [ofName?_name]
      exact Option.some_ne_none s
    · intro named
      obtain ⟨s,found⟩ := Option.ne_none_iff_exists'.mp named
      exact ⟨s,ofName?_eq found⟩
  rw [Keyword,scalar,not_or,not_or,not_or,not_not]

theorem readWord_ok {shorter : rest.length < ts.length} (read : readWord stop ts = .ok (w,⟨rest,shorter⟩)) :
    ∃ start, ts = .word w start :: rest := by
  unfold readWord at read
  split at read
  · cases read
    exact ⟨_,rfl⟩
  · cases read

theorem readWord_error {e : TypeTextError} (read : readWord stop ts = .error e) :
    e = .malformed .expectedName (column stop ts) := by
  unfold readWord at read
  split at read
  · cases read
  · cases read
    rfl

theorem readMark_ok {mark : Char} {shorter : rest.length < ts.length} (read : readMark stop mark ts = .ok ⟨rest,shorter⟩) :
    ∃ start, ts = .mark mark start :: rest := by
  unfold readMark at read
  split at read
  · split at read
    · rename_i same
      cases read
      exact ⟨_,by rw [same]⟩
    · cases read
  · cases read

theorem readMark_error {mark : Char} {e : TypeTextError} (read : readMark stop mark ts = .error e) :
    e = .malformed (.expectedMark mark) (column stop ts) := by
  unfold readMark at read
  split at read
  · split at read
    · cases read
    · cases read
      rfl
  · cases read
    rfl

theorem readMark_eq (stop : Nat) (mark : Char) (start : Nat) (rest : List Token) :
    readMark stop mark (.mark mark start :: rest) = .ok ⟨rest,Nat.lt_succ_self _⟩ := by
  rw [readMark,if_pos rfl]

theorem opensWith_iff {mark : Char} : opensWith mark ts = true ↔ ∃ start rest, ts = .mark mark start :: rest := by
  cases ts with
  | nil => simp [opensWith]
  | cons token rest => cases token <;> simp [opensWith]

theorem symbols_word (shown : symbols ts = .word w :: tail) :
    ∃ start rest, ts = .word w start :: rest ∧ symbols rest = tail := by
  cases ts with
  | nil => cases shown
  | cons token rest =>
    obtain ⟨first,others⟩ := List.cons.inj shown
    cases token with
    | word text start => cases first; exact ⟨start,rest,rfl,others⟩
    | mark c start => cases first

theorem symbols_mark {c : Char} (shown : symbols ts = .mark c :: tail) :
    ∃ start rest, ts = .mark c start :: rest ∧ symbols rest = tail := by
  cases ts with
  | nil => cases shown
  | cons token rest =>
    obtain ⟨first,others⟩ := List.cons.inj shown
    cases token with
    | word text start => cases first
    | mark x start => cases first; exact ⟨start,rest,rfl,others⟩

section Words

variable (stop start : Nat) (ts : List Token)

theorem readType_scalar {s : Scalar} (named : Scalar.ofName? w = some s) :
    readType stop (.word w start :: ts) = .ok (.scalar s,⟨ts,Nat.lt_succ_self _⟩) := by
  rw [readType]
  dsimp only [readWord]
  rw [named]

theorem readType_id : readType stop (.word "id" start :: ts) =
    if opensWith '<' ts then
      match readTarget stop ts with
      | .error e => .error e
      | .ok (name,rest) => .ok (.object (some name),⟨rest.val,Nat.lt_succ_of_lt rest.property⟩)
    else .ok (.object none,⟨ts,Nat.lt_succ_self _⟩) := by
  have scalar : Scalar.ofName? "id" = none := by decide
  rw [readType]
  dsimp only [readWord]
  rw [scalar]
  dsimp only
  exact if_pos rfl

theorem readType_struct : readType stop (.word "struct" start :: ts) =
    match readTarget stop ts with
    | .error e => .error e
    | .ok (name,rest) => .ok (.struct name,⟨rest.val,Nat.lt_succ_of_lt rest.property⟩) := by
  have scalar : Scalar.ofName? "struct" = none := by decide
  rw [readType]
  dsimp only [readWord]
  rw [scalar]
  dsimp only
  rw [if_neg (by decide)]
  exact if_pos rfl

theorem readType_block : readType stop (.word "block" start :: ts) =
    (readMark stop '<' ts).bind fun opened =>
    (readType stop opened.val).bind fun result =>
    (readMark stop '(' result.2.val).bind fun inner =>
    (readParams stop inner.val).bind fun params =>
    (readMark stop '>' params.2.val).bind fun closed =>
      .ok (.block result.1 params.1,⟨closed.val,Nat.lt_succ_of_lt <| closed.property.trans <|
        params.2.property.trans <| inner.property.trans <| result.2.property.trans opened.property⟩) := by
  have scalar : Scalar.ofName? "block" = none := by decide
  rw [readType]
  dsimp only [readWord]
  rw [scalar]
  dsimp only
  rw [if_neg (by decide),if_neg (by decide)]
  refine (if_pos rfl).trans ?_
  rcases readMark stop '<' ts with e | ⟨ts₂,h₂⟩
  · rfl
  dsimp only [Except.bind]
  rcases readType stop ts₂ with e | ⟨result,⟨ts₃,h₃⟩⟩
  · rfl
  dsimp only
  rcases readMark stop '(' ts₃ with e | ⟨ts₄,h₄⟩
  · rfl
  dsimp only
  rcases readParams stop ts₄ with e | ⟨params,⟨ts₅,h₅⟩⟩
  · rfl
  dsimp only
  rcases readMark stop '>' ts₅ with e | ⟨ts₆,h₆⟩ <;> rfl

theorem readType_strange (strange : ¬Keyword w) : readType stop (.word w start :: ts) = .error (.unknownWord w) := by
  obtain ⟨scalar,id,struct,block⟩ := not_keyword.mp strange
  rw [readType]
  dsimp only [readWord]
  rw [scalar]
  dsimp only
  rw [if_neg id,if_neg struct,if_neg block]

end Words

-- How reading may end: with what `part` derives and the rest, at a strange word where a type has to
-- come, or at some token where the grammar does not go on.
inductive Reads {α : Type} (stop : Nat) (ts : List Token) (part : List Symbol → α → Prop) (next : List Symbol → Prop) :
    Except TypeTextError (α × Rest ts) → Prop where
  | done {x : α} {rest : Rest ts} {ss : List Symbol} (derived : part ss x) (shown : symbols ts = ss ++ symbols rest.val)
      (behind : rest.val <:+ ts) : Reads stop ts part next (.ok (x,rest))
  | unknown {w : String} {before behind : List Symbol} (expected : next before) (strange : ¬Keyword w)
      (shown : symbols ts = before ++ .word w :: behind) : Reads stop ts part next (.error (.unknownWord w))
  | malformed {fault : TypeFault} {rest : List Token} (behind : rest <:+ ts) :
      Reads stop ts part next (.error (.malformed fault (column stop rest)))

-- An error after the first tokens, seen from the start.
theorem Reads.fail {α β : Type} {us : List Token} {part : List Symbol → α → Prop} {part' : List Symbol → β → Prop}
    {next next' : List Symbol → Prop} {e : TypeTextError} (fails : Reads stop us part next (.error e)) (first : List Symbol)
    (shown : symbols ts = first ++ symbols us) (behind : us <:+ ts)
    (goesOn : ∀ before, next before → next' (first ++ before)) : Reads stop ts part' next' (.error e) := by
  cases fails with
  | @unknown w before more expected strange inside =>
    have joined : symbols ts = (first ++ before) ++ .word w :: more := by rw [shown,inside,List.append_assoc]
    exact .unknown (goesOn before expected) strange joined
  | malformed further => exact .malformed (further.trans behind)

theorem symbols_cons (t : Token) (rest : List Token) : symbols (t :: rest) = [t.symbol] ++ symbols rest := rfl

theorem readTarget_reads (stop : Nat) (ts : List Token) :
    Reads stop ts (fun ss name => ss = [.mark '<',.word name,.mark '>']) (fun _ => False) (readTarget stop ts) := by
  unfold readTarget
  rcases opens : readMark stop '<' ts with e | ⟨ts₁,h₁⟩
  · rw [readMark_error opens]
    exact .malformed List.suffix_rfl
  obtain ⟨start,rfl⟩ := readMark_ok opens
  dsimp only [bind,Except.bind]
  rcases named : readWord stop ts₁ with e | ⟨name,⟨ts₂,h₂⟩⟩
  · rw [readWord_error named]
    exact .malformed (List.suffix_cons _ _)
  obtain ⟨start',rfl⟩ := readWord_ok named
  dsimp only
  rcases closes : readMark stop '>' ts₂ with e | ⟨ts₃,h₃⟩
  · rw [readMark_error closes]
    exact .malformed (List.suffix_append [_,_] _)
  obtain ⟨start'',rfl⟩ := readMark_ok closes
  exact .done rfl rfl (List.suffix_append [_,_,_] _)

-- A row through its closing parenthesis, and a row that has at least one type.
def ClosedRow (ss : List Symbol) (types : List TypeRef) : Prop := ∃ row, ss = row ++ [.mark ')'] ∧ Row row types

def ClosedItems (ss : List Symbol) (types : List TypeRef) : Prop := ClosedRow ss types ∧ types ≠ []

def ItemNext (before : List Symbol) : Prop := ∃ earlier inner, before = earlier ++ inner ∧ Earlier earlier ∧ TypeNext inner

-- A keyword with a name in angles behind it.
theorem named_reads {keyword : String} {named : String → TypeRef} (start : Nat)
    (derives : ∀ name, Derives [.word keyword,.mark '<',.word name,.mark '>'] (named name)) :
    Reads stop (.word keyword start :: ts) Derives TypeNext
      (match readTarget stop ts with
      | .error e => .error e
      | .ok (name,rest) => .ok (named name,⟨rest.val,Nat.lt_succ_of_lt rest.property⟩)) := by
  have target := readTarget_reads stop ts
  rcases read : readTarget stop ts with e | ⟨name,rest⟩ <;> rw [read] at target
  · exact target.fail [.word keyword] rfl (List.suffix_cons _ _) fun _ never => never.elim
  · cases target with
    | done derived shown behind =>
      subst derived
      refine .done (derives name) ?_ (behind.trans (List.suffix_cons _ _))
      rw [symbols_cons,shown]
      rfl

theorem readId_reads (stop start : Nat) (ts : List Token) :
    Reads stop (.word "id" start :: ts) Derives TypeNext (readType stop (.word "id" start :: ts)) := by
  rw [readType_id]
  split
  · exact named_reads start .target
  · exact .done .object rfl (List.suffix_cons _ _)

-- A block, if what is inside it is accounted for.
theorem readBlock_reads (start : Nat)
    (types : ∀ us : List Token, us.length < ts.length → Reads stop us Derives TypeNext (readType stop us))
    (rows : ∀ us : List Token, us.length < ts.length → Reads stop us ClosedRow ItemNext (readParams stop us)) :
    Reads stop (.word "block" start :: ts) Derives TypeNext (readType stop (.word "block" start :: ts)) := by
  rw [readType_block]
  dsimp only [Except.bind]
  rcases opens : readMark stop '<' ts with e | ⟨ts₂,h₂⟩
  · rw [readMark_error opens]
    exact .malformed (List.suffix_cons _ _)
  obtain ⟨start₁,rfl⟩ := readMark_ok opens
  dsimp only
  have first := types ts₂ h₂
  rcases read : readType stop ts₂ with e | ⟨result,⟨ts₃,h₃⟩⟩ <;> rw [read] at first
  · exact first.fail [.word "block",.mark '<'] rfl (List.suffix_append [_,_] _) fun _ => .result
  obtain @⟨_,_,ss,derives,shown,behind⟩ := first
  dsimp only
  rcases opens' : readMark stop '(' ts₃ with e | ⟨ts₄,h₄⟩
  · rw [readMark_error opens']
    exact .malformed (behind.trans (List.suffix_append [_,_] _))
  obtain ⟨start₃,rfl⟩ := readMark_ok opens'
  dsimp only
  have inside : symbols (.word "block" start :: .mark '<' start₁ :: ts₂) =
      (.word "block" :: .mark '<' :: (ss ++ [.mark '('])) ++ symbols ts₄ := by
    rw [symbols_cons,symbols_cons,shown,symbols_cons,← List.append_assoc ss]
    rfl
  have later : ts₄ <:+ .word "block" start :: .mark '<' start₁ :: ts₂ :=
    ((List.suffix_cons _ _).trans behind).trans (List.suffix_append [_,_] _)
  have listed := rows ts₄ (by simp only [List.length_cons] at h₃ ⊢; omega)
  rcases read' : readParams stop ts₄ with e | ⟨params,⟨ts₅,h₅⟩⟩ <;> rw [read'] at listed
  · refine listed.fail _ inside later ?_
    rintro before ⟨earlier,inner,rfl,listed,next⟩
    have param := TypeNext.param derives listed next
    simpa using param
  obtain @⟨_,_,_,⟨row,rfl,listed⟩,shown',behind'⟩ := listed
  dsimp only
  rcases closes : readMark stop '>' ts₅ with e | ⟨ts₆,h₆⟩
  · rw [readMark_error closes]
    exact .malformed (behind'.trans later)
  obtain ⟨start₅,rfl⟩ := readMark_ok closes
  refine .done (.block derives listed) ?_ (((List.suffix_cons _ _).trans behind').trans later)
  rw [inside,shown']
  simp [symbols_cons,Token.symbol]

mutual

theorem readType_reads (stop : Nat) (ts : List Token) : Reads stop ts Derives TypeNext (readType stop ts) := by
  cases ts with
  | nil =>
    rw [readType]
    exact .malformed List.suffix_rfl
  | cons token ts =>
    cases token with
    | mark c start =>
      rw [readType]
      exact .malformed List.suffix_rfl
    | word w start =>
      by_cases keyword : Keyword w
      · rcases keyword with ⟨s,rfl⟩ | rfl | rfl | rfl
        · rw [readType_scalar stop start ts (ofName?_name s)]
          exact .done (.scalar s) rfl (List.suffix_cons _ _)
        · exact readId_reads stop start ts
        · rw [readType_struct]
          exact named_reads start .struct
        · exact readBlock_reads start (fun us shorter => readType_reads stop us) fun us shorter => readParams_reads stop us
      · rw [readType_strange stop start ts keyword]
        exact .unknown .here keyword rfl
  termination_by (ts.length,0)

theorem readParams_reads (stop : Nat) (ts : List Token) : Reads stop ts ClosedRow ItemNext (readParams stop ts) := by
  rw [readParams]
  by_cases closes : opensWith ')' ts = true
  · obtain ⟨start,rest,rfl⟩ := opensWith_iff.mp closes
    rw [if_pos closes,readMark_eq]
    exact .done ⟨[],rfl,.none⟩ rfl (List.suffix_cons _ _)
  · rw [if_neg closes]
    have items := readItems_reads stop ts
    rcases read : readItems stop ts with e | ⟨types,rest⟩ <;> rw [read] at items
    · exact items.fail [] rfl List.suffix_rfl fun _ next => next
    · cases items with
      | done listed shown behind => exact .done listed.1 shown behind
  termination_by (ts.length,2)

theorem readItems_reads (stop : Nat) (ts : List Token) : Reads stop ts ClosedItems ItemNext (readItems stop ts) := by
  rw [readItems]
  have first := readType_reads stop ts
  rcases read : readType stop ts with e | ⟨t,⟨ts₁,h₁⟩⟩ <;> rw [read] at first
  · exact first.fail [] rfl List.suffix_rfl fun before next => ⟨[],before,rfl,.none,next⟩
  obtain @⟨_,_,ss,derives,shown,behind⟩ := first
  dsimp only
  by_cases closes : opensWith ')' ts₁ = true
  · obtain ⟨start,rest,rfl⟩ := opensWith_iff.mp closes
    rw [if_pos closes,readMark_eq]
    refine .done ⟨⟨ss,rfl,.last derives⟩,List.cons_ne_nil _ _⟩ ?_ ((List.suffix_cons _ _).trans behind)
    rw [shown,symbols_cons,List.append_assoc]
    rfl
  rw [if_neg closes]
  rcases comma : readMark stop ',' ts₁ with e | ⟨ts₂,h₂⟩
  · rw [readMark_error comma]
    exact .malformed behind
  obtain ⟨start,rfl⟩ := readMark_ok comma
  dsimp only
  have inside : symbols ts = (ss ++ [.mark ',']) ++ symbols ts₂ := by
    rw [shown,symbols_cons,List.append_assoc]
    rfl
  have later : ts₂ <:+ ts := (List.suffix_cons _ _).trans behind
  have others := readItems_reads stop ts₂
  rcases read' : readItems stop ts₂ with e | ⟨types,⟨ts₃,h₃⟩⟩ <;> rw [read'] at others
  · refine others.fail _ inside later ?_
    rintro before ⟨earlier,inner,rfl,listed,next⟩
    exact ⟨ss ++ .mark ',' :: earlier,inner,by simp,.more derives listed,next⟩
  obtain @⟨_,_,_,⟨⟨row,rfl,listed⟩,present⟩,shown',behind'⟩ := others
  obtain ⟨u,more,rfl⟩ := List.exists_cons_of_ne_nil present
  refine .done ⟨⟨ss ++ .mark ',' :: row,rfl,.more derives listed⟩,List.cons_ne_nil _ _⟩ ?_ (behind'.trans later)
  rw [inside,shown']
  simp
  termination_by (ts.length,1)

end

theorem Derives.opens (derives : Derives ss t) : ∃ w more, ss = .word w :: more := by
  cases derives with
  | scalar => exact ⟨_,_,rfl⟩
  | object => exact ⟨_,_,rfl⟩
  | target => exact ⟨_,_,rfl⟩
  | struct => exact ⟨_,_,rfl⟩
  | block => exact ⟨_,_,rfl⟩

theorem Row.opens {row : List Symbol} {types : List TypeRef} (listed : Row row types) (present : types ≠ []) :
    ∃ w more, row = .word w :: more := by
  cases listed with
  | none => exact absurd rfl present
  | last derives => exact derives.opens
  | more derives =>
    obtain ⟨w,more,rfl⟩ := derives.opens
    exact ⟨w,_,rfl⟩

theorem TypeNext.opens {before : List Symbol} (next : TypeNext before) (w : String) (behind : List Symbol) :
    ∃ x more, before ++ .word w :: behind = .word x :: more := by
  cases next with
  | here => exact ⟨_,_,rfl⟩
  | result => exact ⟨_,_,rfl⟩
  | param => exact ⟨_,_,rfl⟩

theorem not_opensWith_word {mark : Char} (shown : symbols ts = .word w :: tail) : ¬opensWith mark ts = true := by
  obtain ⟨start,rest,rfl,_⟩ := symbols_word shown
  exact Bool.false_ne_true

theorem readTarget_shown {name : String} (stop : Nat) (shown : symbols ts = .mark '<' :: .word name :: .mark '>' :: tail) :
    ∃ rest, ∃ shorter : rest.length < ts.length, readTarget stop ts = .ok (name,⟨rest,shorter⟩) ∧ symbols rest = tail := by
  obtain ⟨_,ts₁,rfl,named⟩ := symbols_mark shown
  obtain ⟨_,ts₂,rfl,closed⟩ := symbols_word named
  obtain ⟨_,ts₃,rfl,left⟩ := symbols_mark closed
  refine ⟨ts₃,by simp only [List.length_cons]; omega,?_,left⟩
  unfold readTarget
  rw [readMark_eq]
  dsimp only [bind,Except.bind,readWord]
  rw [readMark_eq]
  rfl

section Blocks

variable {start opening middle : Nat} {inside : List Token} {result : TypeRef} {e : TypeTextError}

theorem readBlock_result (fails : readType stop ts = .error e) :
    readType stop (.word "block" start :: .mark '<' opening :: ts) = .error e := by
  rw [readType_block,readMark_eq]
  dsimp only [Except.bind]
  rw [fails]

theorem readBlock_row {shorter : (.mark '(' middle :: inside).length < ts.length}
    (read : readType stop ts = .ok (result,⟨.mark '(' middle :: inside,shorter⟩))
    (fails : readParams stop inside = .error e) :
    readType stop (.word "block" start :: .mark '<' opening :: ts) = .error e := by
  rw [readType_block,readMark_eq]
  dsimp only [Except.bind]
  rw [read]
  dsimp only
  rw [readMark_eq]
  dsimp only
  rw [fails]

theorem readBlock_closed {closing : Nat} {params : List TypeRef}
    {shorter : (.mark '(' middle :: inside).length < ts.length}
    {shorter' : (.mark '>' closing :: rest).length < inside.length}
    (read : readType stop ts = .ok (result,⟨.mark '(' middle :: inside,shorter⟩))
    (listed : readParams stop inside = .ok (params,⟨.mark '>' closing :: rest,shorter'⟩)) :
    ∃ less : rest.length < (Token.word "block" start :: .mark '<' opening :: ts).length,
      readType stop (.word "block" start :: .mark '<' opening :: ts) = .ok (.block result params,⟨rest,less⟩) := by
  refine ⟨by simp only [List.length_cons] at shorter shorter' ⊢; omega,?_⟩
  rw [readType_block,readMark_eq]
  dsimp only [Except.bind]
  rw [read]
  dsimp only
  rw [readMark_eq]
  dsimp only
  rw [listed]
  dsimp only
  rw [readMark_eq]

end Blocks

mutual

-- No type is followed by an opening angle, which `id` would take for its own.
theorem derives_read (stop : Nat) (ss : List Symbol) (t : TypeRef) (derives : Derives ss t) (ts : List Token)
    (tail : List Symbol) (shown : symbols ts = ss ++ tail) (apart : tail.head? ≠ some (.mark '<')) :
    ∃ rest, ∃ shorter : rest.length < ts.length, readType stop ts = .ok (t,⟨rest,shorter⟩) ∧ symbols rest = tail := by
  cases derives with
  | scalar s =>
    obtain ⟨start,rest,rfl,left⟩ := symbols_word shown
    exact ⟨rest,Nat.lt_succ_self _,readType_scalar stop start rest (ofName?_name s),left⟩
  | object =>
    obtain ⟨start,rest,rfl,left⟩ := symbols_word shown
    have other : ¬opensWith '<' rest = true := by
      intro opens
      obtain ⟨_,more,rfl⟩ := opensWith_iff.mp opens
      exact apart (congrArg List.head? left).symm
    refine ⟨rest,Nat.lt_succ_self _,?_,left⟩
    rw [readType_id,if_neg other]
  | target name =>
    obtain ⟨start,ts₁,rfl,named⟩ := symbols_word shown
    obtain ⟨_,_,same,_⟩ := symbols_mark named
    have opens : opensWith '<' ts₁ = true := opensWith_iff.mpr ⟨_,_,same⟩
    obtain ⟨rest,shorter,read,left⟩ := readTarget_shown stop named
    refine ⟨rest,Nat.lt_succ_of_lt shorter,?_,left⟩
    rw [readType_id,if_pos opens,read]
  | struct name =>
    obtain ⟨start,ts₁,rfl,named⟩ := symbols_word shown
    obtain ⟨rest,shorter,read,left⟩ := readTarget_shown stop named
    refine ⟨rest,Nat.lt_succ_of_lt shorter,?_,left⟩
    rw [readType_struct,read]
  | @block ss row result params derives listed =>
    simp only [List.cons_append,List.append_assoc,List.nil_append] at shown
    obtain ⟨start,ts₁,rfl,opens⟩ := symbols_word shown
    obtain ⟨opening,ts₂,rfl,inside⟩ := symbols_mark opens
    obtain ⟨ts₃,_,read,left⟩ := derives_read stop ss result derives ts₂ _ inside (by simp)
    obtain ⟨middle,ts₄,rfl,behind⟩ := symbols_mark left
    have listing : ∃ ts₅, ∃ shorter : ts₅.length < ts₄.length, readParams stop ts₄ = .ok (params,⟨ts₅,shorter⟩) ∧
        symbols ts₅ = .mark '>' :: tail := by
      by_cases empty : params = []
      · subst empty
        cases listed
        obtain ⟨_,ts₅,rfl,closed⟩ := symbols_mark behind
        refine ⟨ts₅,Nat.lt_succ_self _,?_,closed⟩
        rw [readParams,if_pos (opensWith_iff.mpr ⟨_,_,rfl⟩),readMark_eq]
      · obtain ⟨w,more,same⟩ := listed.opens empty
        rw [readParams,if_neg (not_opensWith_word (by rw [behind,same]; rfl))]
        exact row_read stop row params listed empty ts₄ _ behind
    obtain ⟨ts₅,_,listing,closed⟩ := listing
    obtain ⟨closing,rest,rfl,finish⟩ := symbols_mark closed
    obtain ⟨less,done⟩ := readBlock_closed read listing
    exact ⟨rest,less,done,finish⟩
  termination_by sizeOf t

theorem row_read (stop : Nat) (row : List Symbol) (types : List TypeRef) (listed : Row row types) (present : types ≠ [])
    (ts : List Token) (tail : List Symbol) (shown : symbols ts = row ++ .mark ')' :: tail) :
    ∃ rest, ∃ shorter : rest.length < ts.length, readItems stop ts = .ok (types,⟨rest,shorter⟩) ∧ symbols rest = tail := by
  cases listed with
  | none => exact absurd rfl present
  | @last _ t derives =>
    obtain ⟨ts₁,shorter,read,left⟩ := derives_read stop row t derives ts _ shown (by simp)
    obtain ⟨_,rest,rfl,closed⟩ := symbols_mark left
    refine ⟨rest,Nat.lt_of_succ_lt shorter,?_,closed⟩
    rw [readItems,read]
    dsimp only
    rw [if_pos (opensWith_iff.mpr ⟨_,_,rfl⟩),readMark_eq]
    rfl
  | @more ss row t u types derives others =>
    simp only [List.cons_append,List.append_assoc] at shown
    obtain ⟨ts₁,shorter,read,left⟩ := derives_read stop ss t derives ts _ shown (by simp)
    obtain ⟨_,ts₂,rfl,behind⟩ := symbols_mark left
    obtain ⟨rest,shorter',read',closed⟩ := row_read stop row (u :: types) others (List.cons_ne_nil _ _) ts₂ tail behind
    refine ⟨rest,by simp only [List.length_cons] at shorter; omega,?_,closed⟩
    rw [readItems,read]
    dsimp only
    rw [if_neg (by simp [opensWith]),readMark_eq]
    dsimp only
    rw [read']
  termination_by sizeOf types

end

theorem earlier_unknown {e : TypeTextError} {earlier after : List Symbol} (listed : Earlier earlier)
    (fails : ∀ ts, symbols ts = after → readType stop ts = .error e) (ts : List Token)
    (shown : symbols ts = earlier ++ after) : readItems stop ts = .error e := by
  induction listed generalizing ts with
  | none => rw [readItems,fails ts shown]
  | more derives _ ih =>
    rw [List.append_assoc,List.cons_append] at shown
    obtain ⟨ts₁,_,read,left⟩ := derives_read stop _ _ derives ts _ shown (by simp)
    obtain ⟨_,ts₂,rfl,behind⟩ := symbols_mark left
    rw [readItems,read]
    dsimp only
    rw [if_neg (by simp [opensWith]),readMark_eq]
    dsimp only
    rw [ih ts₂ behind]

theorem Earlier.opens {earlier after : List Symbol} (listed : Earlier earlier)
    (opens : ∃ x more, after = .word x :: more) : ∃ x more, earlier ++ after = .word x :: more := by
  cases listed with
  | none => exact opens
  | more derives =>
    obtain ⟨x,more,rfl⟩ := derives.opens
    exact ⟨x,_,rfl⟩

theorem next_unknown {before behind : List Symbol} (next : TypeNext before) (strange : ¬Keyword w) (ts : List Token)
    (shown : symbols ts = before ++ .word w :: behind) : readType stop ts = .error (.unknownWord w) := by
  induction next generalizing ts with
  | here =>
    obtain ⟨start,rest,rfl,_⟩ := symbols_word shown
    exact readType_strange stop start rest strange
  | result _ ih =>
    obtain ⟨_,_,rfl,opens⟩ := symbols_word shown
    obtain ⟨_,ts₂,rfl,inside⟩ := symbols_mark opens
    exact readBlock_result (ih ts₂ inside)
  | @param ss earlier before result derives listed next ih =>
    simp only [List.cons_append,List.append_assoc] at shown
    obtain ⟨_,_,rfl,opens⟩ := symbols_word shown
    obtain ⟨_,ts₂,rfl,inside⟩ := symbols_mark opens
    obtain ⟨ts₃,_,read,left⟩ := derives_read stop ss result derives ts₂ _ inside (by simp)
    obtain ⟨_,ts₄,rfl,row⟩ := symbols_mark left
    obtain ⟨x,more,first⟩ := listed.opens (next.opens w behind)
    refine readBlock_row read ?_
    rw [readParams,if_neg (not_opensWith_word (row.trans first))]
    exact earlier_unknown listed ih ts₄ row

-- The text is written by the grammar for this type.
def Writes (s : String) (t : TypeRef) : Prop := ∃ ss, Shows ss s.toList ∧ Derives ss t

-- The first thing wrong with the text is that this word, which is no keyword, stands where a type has to come.
def NamesUnknown (s : String) (w : String) : Prop :=
  ∃ before behind, Shows (before ++ .word w :: behind) s.toList ∧ TypeNext before ∧ ¬Keyword w

theorem parse_accounts (s : String) :
    (∃ t, TypeRef.parse s = .ok t ∧ Writes s t) ∨ (∃ w, TypeRef.parse s = .error (.unknownWord w) ∧ NamesUnknown s w) ∨
    ∃ fault rest, TypeRef.parse s = .error (.malformed fault (column s.utf8ByteSize rest)) ∧
      rest <:+ tokens 0 s.toList := by
  have reads := readType_reads s.utf8ByteSize (tokens 0 s.toList)
  unfold TypeRef.parse
  dsimp only
  generalize readType s.utf8ByteSize (tokens 0 s.toList) = out at reads
  cases reads with
  | @done t rest ss derives shown behind =>
    obtain ⟨rest,shorter⟩ := rest
    cases rest with
    | nil => exact .inl ⟨t,rfl,ss,(shows_iff 0).mpr (by rw [shown]; exact List.append_nil _),derives⟩
    | cons token more => exact .inr (.inr ⟨.trailing,token :: more,rfl,behind⟩)
  | @unknown w before behind next strange shown =>
    exact .inr (.inl ⟨w,rfl,before,behind,(shows_iff 0).mpr shown,next,strange⟩)
  | @malformed fault rest behind => exact .inr (.inr ⟨fault,rest,rfl,behind⟩)

theorem parse_written {s : String} (writes : Writes s t) : TypeRef.parse s = .ok t := by
  obtain ⟨ss,shows,derives⟩ := writes
  have shown := (shows_iff 0).mp shows
  obtain ⟨rest,_,read,left⟩ :=
    derives_read s.utf8ByteSize ss t derives _ [] (shown.trans (List.append_nil _).symm) (by simp)
  obtain rfl := List.map_eq_nil_iff.mp left
  unfold TypeRef.parse
  dsimp only
  rw [read]

theorem parse_unknown {s : String} (names : NamesUnknown s w) : TypeRef.parse s = .error (.unknownWord w) := by
  obtain ⟨before,behind,shows,next,strange⟩ := names
  unfold TypeRef.parse
  dsimp only
  rw [next_unknown next strange _ ((shows_iff 0).mp shows)]

-- A column is one more than the place of a token or of the end, so that it never parts a character.
theorem column_inside {s : String} (behind : rest <:+ tokens 0 s.toList) : ∃ before after : String,
    s = before ++ after ∧ column s.utf8ByteSize rest = before.utf8ByteSize+1 := by
  cases rest with
  | nil => exact ⟨s,"",by simp,rfl⟩
  | cons token more =>
    obtain ⟨before,after,split,place⟩ := tokens_pieces 0 s.toList token (behind.subset List.mem_cons_self)
    rw [String.ofList_toList,String.append_assoc] at split
    exact ⟨before,token.text ++ after,split,by rw [column,place,Nat.zero_add]⟩

theorem types_read_by_grammar (s : String) :
    (∀ t, readTypeText s = .ok t ↔ Writes s t) ∧
    (∀ t u, Writes s t → Writes s u → t = u) ∧
    (∀ w, readTypeText s = .error (.unknownType w) ↔ NamesUnknown s w) ∧
    ((∀ t, ¬Writes s t) → (∀ w, ¬NamesUnknown s w) → ∃ fault column, readTypeText s = .error (.badType s fault column)) ∧
    (∀ text fault column, readTypeText s = .error (.badType text fault column) →
      text = s ∧ 1 ≤ column ∧ column ≤ s.utf8ByteSize+1 ∧ String.Pos.Raw.IsValid s ⟨column-1⟩) ∧
    ∀ token ∈ tokens 0 s.toList, ∃ before after : String,
      s = before ++ token.text ++ after ∧ token.start = before.utf8ByteSize := by
  have accounts := parse_accounts s
  have unique (t u) (one : Writes s t) (other : Writes s u) : t = u :=
    Except.ok.inj ((parse_written one).symm.trans (parse_written other))
  refine ⟨fun t => ⟨fun read => ?_,fun writes => ?_⟩,unique,fun w => ⟨fun read => ?_,fun names => ?_⟩,?_,?_,?_⟩
  · rcases accounts with ⟨u,parsed,writes⟩ | ⟨w,parsed,_⟩ | ⟨fault,rest,parsed,_⟩ <;> rw [readTypeText,parsed] at read
    · cases read
      exact writes
    · cases read
    · cases read
  · rw [readTypeText,parse_written writes]
  · rcases accounts with ⟨u,parsed,_⟩ | ⟨x,parsed,names⟩ | ⟨fault,rest,parsed,_⟩ <;> rw [readTypeText,parsed] at read
    · cases read
    · cases read
      exact names
    · cases read
  · rw [readTypeText,parse_unknown names]
    rfl
  · intro unwritten known
    rcases accounts with ⟨t,_,writes⟩ | ⟨w,_,names⟩ | ⟨fault,rest,parsed,_⟩
    · exact absurd writes (unwritten t)
    · exact absurd names (known w)
    · refine ⟨fault,column s.utf8ByteSize rest,?_⟩
      rw [readTypeText,parsed]
      rfl
  · intro text fault place read
    rcases accounts with ⟨t,parsed,_⟩ | ⟨w,parsed,_⟩ | ⟨fault,rest,parsed,behind⟩ <;> rw [readTypeText,parsed] at read
    · cases read
    · cases read
    · cases read
      obtain ⟨before,after,split,same⟩ := column_inside behind
      have size : s.utf8ByteSize = before.utf8ByteSize+after.utf8ByteSize := by rw [split,String.utf8ByteSize_append]
      refine ⟨rfl,by omega,by omega,String.Pos.Raw.isValid_iff_exists_append.mpr ⟨before,after,split,?_⟩⟩
      rw [same]
      rfl
  · intro token among
    obtain ⟨before,after,split,place⟩ := tokens_pieces 0 s.toList token among
    rw [String.ofList_toList] at split
    exact ⟨before,after,split,by rw [place,Nat.zero_add]⟩

end ObjectBridge.TypeText
