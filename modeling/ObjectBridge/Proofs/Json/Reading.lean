import Mathlib.Data.List.Basic
import ObjectBridge.Json.Reader

namespace ObjectBridge.Json

theorem padded_control : ∀ n, n < 32 →
    (Hex.padded 4 n).toList = ['0','0',Nat.digitChar (n/16),Nat.digitChar (n%16)] ∧
      hex4? '0' '0' (Nat.digitChar (n/16)) (Nat.digitChar (n%16)) = some n := by
  decide

-- What a reader puts in front of the units that follow.
theorem unit_in_front {u : Unit16} {read : Option (List Unit16 × List Char)} :
    (do let (units,rest) ← read; return (u :: units,rest)) = read.map (Prod.map (u :: ·) id) := by
  cases read <;> rfl

theorem readUnits_plain {c : Char} (unclosed : c ≠ '"') (unescaped : c ≠ '\\') (visible : ¬c.toNat < 0x20)
    (rest : List Char) : readUnits (c :: rest) = (readUnits rest).map (Prod.map (.char c :: ·) id) := by
  rw [readUnits.eq_def]
  split
  · simp_all
  · simp_all
  · simp_all
  · simp_all
  · rename_i same
    cases same
    rw [if_neg (by simp [visible,unescaped])]
    exact unit_in_front

theorem readUnits_code {a b c d : Char} {n : Nat} (hex : hex4? a b c d = some n) (rest : List Char) :
    readUnits ('\\' :: 'u' :: a :: b :: c :: d :: rest) = (readUnits rest).map (Prod.map (.code n :: ·) id) := by
  rw [readUnits,hex]
  exact unit_in_front

theorem joinUnits_char (c : Char) (us : List Unit16) : joinUnits (.char c :: us) = (joinUnits us).map (c :: ·) := rfl

theorem joinUnits_code {n : Nat} (ascii : n < 128) (us : List Unit16) :
    joinUnits (.code n :: us) = (joinUnits us).map (Char.ofNat n :: ·) := by
  have low : isLow n = false := by
    simp [isLow]
    omega
  have high : isHigh n = false := by
    simp [isHigh]
    omega
  rw [joinUnits.eq_def]
  simp only [low,high]
  rfl

-- Whatever a character is escaped to is read as one unit, which stands for the character on its own.
theorem readUnits_escape (c : Char) (rest : List Char) :
    ∃ u, readUnits ((escape c).toList ++ rest) = (readUnits rest).map (Prod.map (u :: ·) id) ∧
      ∀ us, joinUnits (u :: us) = (joinUnits us).map (c :: ·) := by
  by_cases short : c ∈ ['"','\\','\x08','\t','\n','\x0c','\r']
  · simp only [List.mem_cons,List.not_mem_nil,or_false] at short
    rcases short with rfl | rfl | rfl | rfl | rfl | rfl | rfl <;> exact ⟨.char _,unit_in_front,joinUnits_char _⟩
  · simp only [List.mem_cons,List.not_mem_nil,or_false,not_or] at short
    obtain ⟨quotes,backslash,backspace,tab,newline,feed,carriage⟩ := short
    rw [escape,if_neg quotes,if_neg backslash,if_neg backspace,if_neg tab,if_neg newline,if_neg feed,if_neg carriage]
    split
    · rename_i control
      obtain ⟨digits,value⟩ := padded_control c.toNat control
      refine ⟨.code c.toNat,?_,?_⟩
      · rw [String.toList_append,digits]
        exact readUnits_code value rest
      · intro us
        rw [joinUnits_code (by omega),Char.ofNat_toNat]
    · rename_i visible
      refine ⟨.char c,?_,joinUnits_char c⟩
      rw [Char.toString_eq_singleton,String.toList_singleton]
      exact readUnits_plain quotes backslash visible rest

theorem readUnits_escaped (cs rest : List Char) : ∃ us,
    readUnits (cs.flatMap (fun c => (escape c).toList) ++ '"' :: rest) = some (us,rest) ∧ joinUnits us = some cs := by
  induction cs with
  | nil => exact ⟨[],rfl,rfl⟩
  | cons c cs ih =>
    obtain ⟨us,read,joined⟩ := ih
    obtain ⟨u,first,stands⟩ := readUnits_escape c (cs.flatMap (fun c => (escape c).toList) ++ '"' :: rest)
    refine ⟨u :: us,?_,?_⟩
    · rw [List.flatMap_cons,List.append_assoc,first,read]
      rfl
    · rw [stands,joined]
      rfl

theorem quote_reads (text : String) (rest : List Char) :
    ∃ body, (quote text).toList ++ rest = '"' :: body ∧ readString body = some (some text,rest) := by
  obtain ⟨us,read,joined⟩ := readUnits_escaped text.toList rest
  have escaped : (String.join (text.toList.map escape)).toList = text.toList.flatMap fun c => (escape c).toList := by
    rw [String.toList_join,List.flatMap_map]
  refine ⟨text.toList.flatMap (fun c => (escape c).toList) ++ '"' :: rest,?_,?_⟩
  · rw [quote,String.toList_append,String.toList_append,escaped]
    simp
  · rw [readString,read]
    simp [joined]

-- No numbers, whose literals have a grammar of their own, and nothing that names no text.
inductive Worded : Json → Prop where
  | null : Worded .null
  | bool (b : Bool) : Worded (.bool b)
  | string (text : String) : Worded (.string text)
  | array {items : List Json} (each : ∀ item ∈ items, Worded item) : Worded (.array items)
  | object {members : List (String × Json)} (each : ∀ member ∈ members, Worded member.2) : Worded (.object members)

theorem skipBlanks_visible {c : Char} (visible : isBlank c = false) (rest : List Char) :
    skipBlanks (c :: rest) = c :: rest := by
  rw [skipBlanks,List.dropWhile_cons_of_neg (by simp [visible])]

theorem readValue_string (fuel : Nat) (text : String) (rest : List Char) :
    readValue (fuel+1) ((quote text).toList ++ rest) = some (.string text,rest) := by
  obtain ⟨body,shape,read⟩ := quote_reads text rest
  rw [shape]
  change (readString body).map _ = _
  rw [read]
  rfl

-- The reader finds the value at the front of the text; each character is worth one step of fuel.
def ReadsBack (j : Json) : Prop :=
  ∀ fuel rest, j.compact.toList.length ≤ fuel → readValue fuel (j.compact.toList ++ rest) = some (j,rest)

def memberText (m : String × Json) : List Char := (quote m.1).toList ++ ':' :: m.2.compact.toList

theorem toList_items (items : List Json) :
    (",".intercalate (compactItems items)).toList = [','].intercalate (items.map (·.compact.toList)) := by
  have each : compactItems items = items.map compact := by
    induction items with
    | nil => rfl
    | cons item rest ih => rw [compactItems,ih,List.map_cons]
  rw [String.toList_intercalate,each,List.map_map]
  rfl

theorem toList_members (members : List (String × Json)) :
    (",".intercalate (compactMembers members)).toList = [','].intercalate (members.map memberText) := by
  have each : (compactMembers members).map String.toList = members.map memberText := by
    induction members with
    | nil => rfl
    | cons m rest ih =>
      rw [compactMembers,List.map_cons,List.map_cons,ih]
      simp [memberText]
  rw [String.toList_intercalate,each]
  rfl

-- A row with commas, be it of items or of members, from what the reader does with one of them.
theorem row_reads {α β : Type} (read : Nat → List Char → Option (List β × List Char)) (closing : Char)
    (text : α → List Char) (made : α → β) {a : α} {row : List α}
    (last : ∀ x ∈ a :: row, ∀ fuel rest, (text x).length ≤ fuel →
      read (fuel+1) (text x ++ closing :: rest) = some ([made x],rest))
    (next : ∀ x ∈ a :: row, ∀ fuel others cs rest, (text x).length ≤ fuel → read fuel cs = some (others,rest) →
      read (fuel+1) (text x ++ ',' :: cs) = some (made x :: others,rest))
    (fuel : Nat) (rest : List Char) (enough : ([','].intercalate ((a :: row).map text)).length < fuel) :
    read fuel ([','].intercalate ((a :: row).map text) ++ closing :: rest) = some ((a :: row).map made,rest) := by
  induction row generalizing a fuel with
  | nil =>
    cases fuel with
    | zero => cases enough
    | succ fuel =>
      simp only [List.map_cons,List.map_nil,List.intercalate_singleton] at enough ⊢
      exact last a List.mem_cons_self fuel rest (Nat.le_of_lt_succ enough)
  | cons b more ih =>
    cases fuel with
    | zero => cases enough
    | succ fuel =>
      rw [List.map_cons,List.map_cons,List.intercalate_cons_cons,← List.map_cons] at enough ⊢
      simp only [List.length_append,List.length_singleton] at enough
      have later := ih (fun x member => last x (List.mem_cons_of_mem a member))
        (fun x member => next x (List.mem_cons_of_mem a member)) fuel (by omega)
      rw [List.append_assoc,List.append_assoc]
      exact next a List.mem_cons_self fuel _ _ rest (by omega) later

theorem readItems_compact {item : Json} {items : List Json} (each : ∀ j ∈ item :: items, j.ReadsBack) (fuel : Nat)
    (rest : List Char) (enough : ([','].intercalate ((item :: items).map (·.compact.toList))).length < fuel) :
    readItems fuel ([','].intercalate ((item :: items).map (·.compact.toList)) ++ ']' :: rest) = some (item :: items,rest) := by
  have row := row_reads readItems ']' (·.compact.toList) id ?_ ?_ fuel rest enough
  · rw [List.map_id] at row
    exact row
  · intro j member fuel rest enough
    rw [readItems,each j member fuel _ enough]
    rfl
  · intro j member fuel others cs rest enough behind
    rw [readItems,each j member fuel _ enough]
    change (readItems fuel cs).bind _ = _
    rw [behind]
    rfl

theorem readMembers_last {body cs rest : List Char} {key : Option String} {value : Json} {fuel : Nat}
    (named : readString body = some (key,':' :: cs)) (valued : readValue fuel cs = some (value,'\x7d' :: rest)) :
    readMembers (fuel+1) ('"' :: body) = some ([(key,value)],rest) := by
  rw [readMembers]
  change (readString body).bind _ = _
  rw [named]
  change (readValue fuel cs).bind _ = _
  rw [valued]
  rfl

theorem readMembers_next {body cs later rest : List Char} {key : Option String} {value : Json} {fuel : Nat}
    {others : List (Option String × Json)} (named : readString body = some (key,':' :: cs))
    (valued : readValue fuel cs = some (value,',' :: later)) (behind : readMembers fuel later = some (others,rest)) :
    readMembers (fuel+1) ('"' :: body) = some ((key,value) :: others,rest) := by
  rw [readMembers]
  change (readString body).bind _ = _
  rw [named]
  change (readValue fuel cs).bind _ = _
  rw [valued]
  change (readMembers fuel later).bind _ = _
  rw [behind]
  rfl

theorem member_reads {m : String × Json} (reads : m.2.ReadsBack) {fuel : Nat} (rest : List Char)
    (enough : (memberText m).length ≤ fuel) : ∃ body,
    memberText m ++ rest = '"' :: body ∧ readString body = some (some m.1,':' :: (m.2.compact.toList ++ rest)) ∧
      readValue fuel (m.2.compact.toList ++ rest) = some (m.2,rest) := by
  obtain ⟨body,shape,read⟩ := quote_reads m.1 (':' :: (m.2.compact.toList ++ rest))
  simp only [memberText,List.length_append,List.length_cons] at enough
  refine ⟨body,?_,read,reads fuel rest (by omega)⟩
  rw [memberText,List.append_assoc]
  exact shape

theorem readMembers_compact {member : String × Json} {members : List (String × Json)}
    (each : ∀ m ∈ member :: members, m.2.ReadsBack) (fuel : Nat) (rest : List Char)
    (enough : ([','].intercalate ((member :: members).map memberText)).length < fuel) :
    readMembers fuel ([','].intercalate ((member :: members).map memberText) ++ '\x7d' :: rest) =
      some ((member :: members).map fun m => (some m.1,m.2),rest) := by
  refine row_reads readMembers '\x7d' memberText (fun m => (some m.1,m.2)) ?_ ?_ fuel rest enough
  · intro m among fuel rest enough
    obtain ⟨body,shape,named,valued⟩ := member_reads (each m among) ('\x7d' :: rest) enough
    rw [shape]
    exact readMembers_last named valued
  · intro m among fuel others cs rest enough behind
    obtain ⟨body,shape,named,valued⟩ := member_reads (each m among) (',' :: cs) enough
    rw [shape]
    exact readMembers_next named valued behind

theorem mapM_found {read : α → Option β} (found : α → β) {row : List α} (each : ∀ a ∈ row, read a = some (found a)) :
    row.mapM read = some (row.map found) := by
  induction row with
  | nil => rfl
  | cons a row ih =>
    rw [List.mapM_cons,each a List.mem_cons_self,ih fun b among => each b (List.mem_cons_of_mem a among)]
    rfl

theorem objectOf_named (members : List (String × Json)) :
    objectOf (members.map fun m => (some m.1,m.2)) = .object members := by
  rw [objectOf,List.mapM_map,mapM_found id ?_,List.map_id]
  intro _ _
  rfl

-- No blanks are passed over at the beginning of a value, and none is taken for the end of a row.
theorem Worded.opens {j : Json} (worded : j.Worded) :
    ∃ c cs, j.compact.toList = c :: cs ∧ isBlank c = false ∧ c ≠ ']' := by
  cases worded with
  | null => exact ⟨_,_,rfl,rfl,by decide⟩
  | bool b => cases b <;> exact ⟨_,_,rfl,rfl,by decide⟩
  | string text =>
    obtain ⟨body,shape,_⟩ := quote_reads text []
    rw [List.append_nil] at shape
    exact ⟨'"',body,shape,rfl,by decide⟩
  | @array items =>
    refine ⟨'[',(",".intercalate (compactItems items)).toList ++ [']'],?_,rfl,by decide⟩
    simp [compact]
  | @object members =>
    refine ⟨'\x7b',(",".intercalate (compactMembers members)).toList ++ ['\x7d'],?_,rfl,by decide⟩
    simp [compact]

theorem Worded.fueled {j : Json} (worded : j.Worded) (reads : ∀ fuel rest, j.compact.toList.length ≤ fuel+1 →
    readValue (fuel+1) (j.compact.toList ++ rest) = some (j,rest)) : j.ReadsBack := by
  intro fuel rest enough
  cases fuel with
  | zero =>
    obtain ⟨c,cs,text,_⟩ := worded.opens
    rw [text] at enough
    cases enough
  | succ fuel => exact reads fuel rest enough

theorem readValue_items {c : Char} (visible : isBlank c = false) (inside : c ≠ ']') (fuel : Nat) (cs : List Char) :
    readValue (fuel+1) ('[' :: c :: cs) = (readItems fuel (c :: cs)).map fun (items,rest) => (.array items,rest) := by
  have bracket : skipBlanks ('[' :: c :: cs) = '[' :: c :: cs := skipBlanks_visible rfl _
  simp only [readValue,bracket]
  rw [skipBlanks_visible visible]
  split
  · simp_all
  · rfl

theorem readValue_members (fuel : Nat) (cs : List Char) : readValue (fuel+1) ('\x7b' :: '"' :: cs) =
    (readMembers fuel ('"' :: cs)).map fun (members,rest) => (objectOf members,rest) := rfl

theorem Worded.reads {j : Json} (worded : j.Worded) : j.ReadsBack := by
  induction worded with
  | null => exact Worded.null.fueled fun fuel rest _ => rfl
  | bool b =>
    apply (Worded.bool b).fueled
    intro fuel rest _
    cases b <;> rfl
  | string text => exact (Worded.string text).fueled fun fuel rest _ => readValue_string fuel text rest
  | @array items each ih =>
    apply (Worded.array each).fueled
    intro fuel rest enough
    have text : (Json.array items).compact.toList = '[' :: ([','].intercalate (items.map (·.compact.toList)) ++ [']']) := by
      rw [← toList_items]
      simp [compact]
    rw [text] at enough ⊢
    cases items with
    | nil => rfl
    | cons item more =>
      have row := readItems_compact ih fuel rest (Nat.lt_of_succ_le (by simpa using enough))
      obtain ⟨c,cs,first,visible,inside⟩ := (each item List.mem_cons_self).opens
      have opens : ∃ cs, [','].intercalate ((item :: more).map (·.compact.toList)) ++ ']' :: rest = c :: cs := by
        cases more <;> simp [first]
      obtain ⟨cs,opens⟩ := opens
      rw [opens] at row
      rw [List.cons_append,List.append_assoc,List.singleton_append,opens,readValue_items visible inside,row]
      rfl
  | @object members each ih =>
    apply (Worded.object each).fueled
    intro fuel rest enough
    have text : (Json.object members).compact.toList = '\x7b' :: ([','].intercalate (members.map memberText) ++ ['\x7d']) := by
      rw [← toList_members]
      simp [compact]
    rw [text] at enough ⊢
    cases members with
    | nil => rfl
    | cons m more =>
      have row := readMembers_compact ih fuel rest (Nat.lt_of_succ_le (by simpa using enough))
      have opens : ∃ cs, [','].intercalate ((m :: more).map memberText) ++ '\x7d' :: rest = '"' :: cs := by
        obtain ⟨body,first,_⟩ := quote_reads m.1 []
        rw [List.append_nil] at first
        cases more <;> simp [memberText,first]
      obtain ⟨cs,opens⟩ := opens
      rw [opens] at row
      rw [List.cons_append,List.append_assoc,List.singleton_append,opens,readValue_members,row,← objectOf_named]
      rfl

-- Nothing but the value is left of the text.
theorem Worded.parsed {j : Json} (worded : j.Worded) : parse? j.compact = some j := by
  have whole := worded.reads (2*j.compact.toList.length+2) [] (by omega)
  rw [List.append_nil] at whole
  rw [parse?]
  change (readValue (2*j.compact.toList.length+2) j.compact.toList).bind _ = _
  rw [whole]
  rfl

end ObjectBridge.Json
