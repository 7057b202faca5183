import Mathlib
import ObjectBridge.Metadata.TypeText

namespace ObjectBridge.TypeText

-- A token without its place.
inductive Symbol where
  | word (text : String)
  | mark (c : Char)
  deriving DecidableEq, Repr

def Token.symbol : Token → Symbol
  | .word text _ => .word text
  | .mark c _ => .mark c

def Token.text : Token → String
  | .word text _ => text
  | .mark c _ => c.toString

def symbols (ts : List Token) : List Symbol := ts.map Token.symbol

inductive Shows : List Symbol → List Char → Prop where
  | nothing : Shows [] []
  | blank {c : Char} {ss : List Symbol} {cs : List Char} (blank : Text.isBlank c = true) (behind : Shows ss cs) :
      Shows ss (c :: cs)
  | mark {c : Char} {ss : List Symbol} {cs : List Char} (visible : Text.isBlank c = false) (apart : isWordChar c = false)
      (behind : Shows ss cs) : Shows (.mark c :: ss) (c :: cs)
  | word {letters : List Char} {ss : List Symbol} {cs : List Char} (present : letters ≠ [])
      (each : ∀ c ∈ letters, isWordChar c = true) (maximal : ∀ c, cs.head? = some c → isWordChar c = false)
      (behind : Shows ss cs) : Shows (.word (String.ofList letters) :: ss) (letters ++ cs)

theorem isBlank_of_isWordChar {c : Char} (letter : isWordChar c = true) : Text.isBlank c = false := by
  have range : 48 ≤ c.toNat ∧ c.toNat ≤ 122 := by
    simp only [isWordChar,Char.isAlphanum,Char.isAlpha,Char.isUpper,Char.isLower,Char.isDigit,Bool.or_eq_true,
      Bool.and_eq_true,decide_eq_true_eq,ge_iff_le,UInt32.le_iff_toNat_le] at letter
    change 48 ≤ c.val.toNat ∧ c.val.toNat ≤ 122
    rcases letter with ((⟨low,high⟩ | ⟨low,high⟩) | ⟨low,high⟩) | rfl
    · exact ⟨Nat.le_trans (by decide) low,Nat.le_trans high (by decide)⟩
    · exact ⟨Nat.le_trans (by decide) low,Nat.le_trans high (by decide)⟩
    · exact ⟨Nat.le_trans (by decide) low,Nat.le_trans high (by decide)⟩
    · decide
  simp only [Text.isBlank,Bool.or_eq_false_iff,Bool.and_eq_false_iff,decide_eq_false_iff_not]
  omega

theorem Shows.tokens {ss : List Symbol} {cs : List Char} (shows : Shows ss cs) (start : Nat) :
    symbols (tokens start cs) = ss := by
  induction shows generalizing start with
  | nothing => rw [TypeText.tokens]; rfl
  | blank blank _ ih => rw [TypeText.tokens,if_pos blank]; exact ih _
  | mark visible apart _ ih =>
    rw [TypeText.tokens,if_neg (by simp [visible]),if_neg (by simp [apart])]
    exact congrArg _ (ih _)
  | @word letters ss cs present each maximal _ ih =>
    obtain ⟨c,more,rfl⟩ := List.exists_cons_of_ne_nil present
    have letter := each c List.mem_cons_self
    have others : ∀ x ∈ more, isWordChar x = true := fun x member => each x (List.mem_cons_of_mem _ member)
    have stops : cs.takeWhile isWordChar = [] := by
      cases cs with
      | nil => rfl
      | cons x rest => exact List.takeWhile_cons_of_neg (by simp [maximal x rfl])
    have word : (more ++ cs).takeWhile isWordChar = more := by
      rw [List.takeWhile_append_of_pos others,stops,List.append_nil]
    have behind : (more ++ cs).dropWhile isWordChar = cs := by
      have both := List.takeWhile_append_dropWhile (p := isWordChar) (l := more ++ cs)
      rw [word] at both
      exact List.append_cancel_left both
    rw [List.cons_append,TypeText.tokens,if_neg (by simp [isBlank_of_isWordChar letter]),if_pos letter]
    dsimp only
    rw [word,behind]
    exact congrArg _ (ih _)

theorem tokens_show (start : Nat) (cs : List Char) : Shows (symbols (tokens start cs)) cs := by
  fun_induction TypeText.tokens start cs with
  | case1 => exact .nothing
  | case2 start c rest blank ih => exact .blank blank ih
  | case3 start c rest visible letter tail ih =>
    have split : c :: rest = (c :: tail) ++ rest.dropWhile isWordChar := by
      rw [List.cons_append,List.takeWhile_append_dropWhile]
    rw [split]
    refine .word (List.cons_ne_nil _ _) ?_ ?_ ih
    · intro x member
      rcases List.mem_cons.mp member with rfl | later
      · exact letter
      · exact List.mem_takeWhile_imp later
    · intro x first
      have stops := List.head?_dropWhile_not isWordChar rest
      rw [first] at stops
      exact stops
  | case4 start c rest visible apart ih =>
    exact .mark (Bool.eq_false_iff.mpr visible) (Bool.eq_false_iff.mpr apart) ih

-- A word and a mark behind it, with no blank in between.
theorem Shows.word_mark {letters : List Char} {mark : Char} {ss : List Symbol} {cs : List Char}
    (present : letters ≠ []) (each : letters.all isWordChar = true) (visible : Text.isBlank mark = false)
    (apart : isWordChar mark = false) (behind : Shows ss cs) :
    Shows (.word (String.ofList letters) :: .mark mark :: ss) (letters ++ mark :: cs) := by
  refine .word present (List.all_eq_true.mp each) ?_ (.mark visible apart behind)
  rintro _ ⟨⟩
  exact apart

theorem shows_iff {ss : List Symbol} {cs : List Char} (start : Nat) : Shows ss cs ↔ symbols (tokens start cs) = ss :=
  ⟨fun shows => shows.tokens start,fun same => same ▸ tokens_show start cs⟩

theorem byteLength_eq (cs : List Char) : byteLength cs = (String.ofList cs).utf8ByteSize := by
  rw [String.utf8ByteSize_ofList]
  induction cs with
  | nil => rfl
  | cons c rest ih =>
    rw [String.utf8Len_cons,← ih,Nat.add_comm]
    rfl

-- The token is a piece of the text, which begins at byte `start`.
def Piece (start : Nat) (cs : List Char) (t : Token) : Prop :=
  ∃ before behind : String, String.ofList cs = before ++ t.text ++ behind ∧ t.start = start+before.utf8ByteSize

theorem Piece.later {start : Nat} {cs : List Char} {t : Token} (first : List Char)
    (piece : Piece (start+byteLength first) cs t) : Piece start (first ++ cs) t := by
  obtain ⟨before,behind,split,place⟩ := piece
  refine ⟨String.ofList first ++ before,behind,?_,?_⟩
  · rw [String.ofList_append,split,String.append_assoc,String.append_assoc,String.append_assoc]
  · rw [place,String.utf8ByteSize_append,byteLength_eq,Nat.add_assoc]

theorem tokens_pieces (start : Nat) (cs : List Char) : ∀ t ∈ tokens start cs, Piece start cs t := by
  fun_induction TypeText.tokens start cs with
  | case1 => exact fun t member => nomatch member
  | case2 start c rest blank ih => exact fun t member => (ih t member).later [c]
  | case3 start c rest visible letter tail ih =>
    have split : c :: rest = (c :: tail) ++ rest.dropWhile isWordChar := by
      rw [List.cons_append,List.takeWhile_append_dropWhile]
    rw [split]
    intro t member
    rcases List.mem_cons.mp member with rfl | later
    · refine ⟨"",String.ofList (rest.dropWhile isWordChar),?_,rfl⟩
      rw [String.ofList_append,String.empty_append]
      rfl
    · exact (ih t later).later (c :: tail)
  | case4 start c rest visible apart ih =>
    intro t member
    rcases List.mem_cons.mp member with rfl | later
    · exact ⟨"",String.ofList rest,by simp [Token.text],rfl⟩
    · exact (ih t later).later [c]

end ObjectBridge.TypeText
