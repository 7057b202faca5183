import ObjectBridge.Proofs.Metadata.TypeGrammar

namespace ObjectBridge.TypeText

variable {ss row tail : List Symbol} {cs : List Char} {t : TypeRef} {w : String}

def Symbol.chars : Symbol → List Char
  | .word text => text.toList
  | .mark c => [c]

-- The characters that the symbols are made of.
def spelling (ss : List Symbol) : List Char := ss.flatMap Symbol.chars

@[simp] theorem spelling_nil : spelling [] = [] := rfl

@[simp] theorem spelling_word : spelling (.word w :: ss) = w.toList ++ spelling ss := rfl

@[simp] theorem spelling_mark {c : Char} : spelling (.mark c :: ss) = c :: spelling ss := rfl

@[simp] theorem spelling_append : spelling (ss ++ row) = spelling ss ++ spelling row := List.flatMap_append

def visible (s : String) : List Char := s.toList.filter (!Text.isBlank ·)

theorem Shows.visible (shows : Shows ss cs) : cs.filter (!Text.isBlank ·) = spelling ss := by
  induction shows with
  | nothing => rfl
  | blank blank _ ih => simpa [blank] using ih
  | mark visible _ _ ih => simpa [visible] using ih
  | @word letters _ _ _ each _ _ ih =>
    have letters : ∀ c ∈ letters, (!Text.isBlank c) = true := by
      intro c member
      simp [isBlank_of_isWordChar (each c member)]
    rw [List.filter_append,List.filter_eq_self.mpr letters,ih,spelling_word,String.toList_ofList]

def IsWord (w : String) : Prop := w.toList ≠ [] ∧ ∀ c ∈ w.toList, isWordChar c = true

-- All words that a text shows are words.
theorem Shows.words (shows : Shows ss cs) : ∀ w, .word w ∈ ss → IsWord w := by
  induction shows with
  | nothing => exact fun w member => nomatch member
  | blank _ _ ih => exact ih
  | mark _ _ _ ih =>
    intro w member
    rcases List.mem_cons.mp member with same | later
    · cases same
    · exact ih w later
  | word present each _ _ ih =>
    intro w member
    rcases List.mem_cons.mp member with same | later
    · cases same
      rw [IsWord,String.toList_ofList]
      exact ⟨present,each⟩
    · exact ih w later

theorem IsWord.shows (isWord : IsWord w) (apart : ∀ c, cs.head? = some c → isWordChar c = false)
    (behind : Shows ss cs) : Shows (.word w :: ss) (w.toList ++ cs) := by
  have shown := Shows.word isWord.1 isWord.2 apart behind
  rwa [String.ofList_toList] at shown

theorem IsWord.shows_mark {c : Char} (isWord : IsWord w) (visible : Text.isBlank c = false) (apart : isWordChar c = false)
    (behind : Shows ss cs) : Shows (.word w :: .mark c :: ss) (w.toList ++ c :: cs) := by
  have shown := Shows.word_mark isWord.1 (List.all_eq_true.mpr isWord.2) visible apart behind
  rwa [String.ofList_toList] at shown

-- One blank behind each comma.
def spaced (cs : List Char) : List Char := cs.flatMap fun c => if c = ',' then [',',' '] else [c]

@[simp] theorem spaced_append (first second : List Char) : spaced (first ++ second) = spaced first ++ spaced second :=
  List.flatMap_append

@[simp] theorem spaced_nil : spaced [] = [] := rfl

@[simp] theorem spaced_comma : spaced (',' :: cs) = ',' :: ' ' :: spaced cs := rfl

@[simp] theorem spaced_cons {c : Char} (other : c ≠ ',') : spaced (c :: cs) = c :: spaced cs := by
  simp [spaced,other]

theorem IsWord.spaced (isWord : IsWord w) : spaced w.toList = w.toList := by
  have each : ∀ c ∈ w.toList, (if c = ',' then [',',' '] else [c]) = [c] := by
    intro c member
    have letter := isWord.2 c member
    rw [if_neg]
    rintro rfl
    exact absurd letter (by decide)
  rw [TypeText.spaced,List.flatMap_congr each]
  simp

def printed (t : TypeRef) : List Char := (t.text id).toList

def printedRow (types : List TypeRef) : List Char := (", ".intercalate (TypeExpr.texts id types)).toList

@[simp] theorem printed_scalar (s : Scalar) : printed (.scalar s) = s.name.toList := rfl

@[simp] theorem printed_object : printed (.object none) = "id".toList := rfl

@[simp] theorem printed_target (name : String) :
    printed (.object (some name)) = "id".toList ++ '<' :: (name.toList ++ ['>']) := by
  simp [printed,TypeExpr.text]

@[simp] theorem printed_struct (name : String) :
    printed (.struct name) = "struct".toList ++ '<' :: (name.toList ++ ['>']) := by
  simp [printed,TypeExpr.text]

@[simp] theorem printed_block (result : TypeRef) (params : List TypeRef) : printed (.block result params) =
    "block".toList ++ '<' :: (printed result ++ '(' :: (printedRow params ++ [')','>'])) := by
  simp [printed,printedRow,TypeExpr.text]

@[simp] theorem printedRow_one (t : TypeRef) : printedRow [t] = printed t := by
  simp [printedRow,printed,TypeExpr.texts]

@[simp] theorem printedRow_more (t u : TypeRef) (rest : List TypeRef) :
    printedRow (t :: u :: rest) = printed t ++ ',' :: ' ' :: printedRow (u :: rest) := by
  simp [printedRow,printed,TypeExpr.texts,String.intercalate_cons_cons]

def AllWords (ss : List Symbol) : Prop := ∀ w, .word w ∈ ss → IsWord w

namespace AllWords

variable {s : Symbol}

theorem left (words : AllWords (ss ++ row)) : AllWords ss := fun w member => words w (List.mem_append_left _ member)

theorem right (words : AllWords (ss ++ row)) : AllWords row := fun w member => words w (List.mem_append_right _ member)

theorem behind (words : AllWords (s :: ss)) : AllWords ss := fun w member => words w (List.mem_cons_of_mem _ member)

theorem first (words : AllWords (.word w :: ss)) : IsWord w := words w List.mem_cons_self

end AllWords

mutual

-- The blanks of the printed text are those behind the commas, which stand in no name.
theorem Derives.prints {ss : List Symbol} {t : TypeRef} (derives : Derives ss t) (words : AllWords ss) :
    printed t = spaced (spelling ss) := by
  cases derives with
  | scalar => simp [words.first.spaced]
  | object => simp
  | target name => simp [words.behind.behind.first.spaced]
  | struct name => simp [words.behind.behind.first.spaced]
  | block derives listed =>
    have inside := words.behind.behind
    have result := derives.prints inside.left
    have params := listed.prints inside.right.behind.left
    simp [result,params]

theorem Row.prints {row : List Symbol} {types : List TypeRef} (listed : Row row types) (words : AllWords row) :
    printedRow types = spaced (spelling row) := by
  cases listed with
  | none => rfl
  | last derives => simpa using derives.prints words
  | more derives others =>
    have first := derives.prints words.left
    have rest := others.prints words.right.behind
    simp [first,rest]

end

-- A keyword with a name in angles behind it, as it is printed.
theorem target_shown {keyword name : String} (words : AllWords [.word keyword,.mark '<',.word name,.mark '>'])
    (behind : Shows tail cs) : Shows ([.word keyword,.mark '<',.word name,.mark '>'] ++ tail)
      (keyword.toList ++ '<' :: (name.toList ++ ['>']) ++ cs) := by
  have shown := words.first.shows_mark (c := '<') (by decide) (by decide)
    (words.behind.behind.first.shows_mark (c := '>') (by decide) (by decide) behind)
  simpa using shown

mutual

-- The printed text shows the symbols that it was read from, whatever mark comes behind it.
theorem Derives.shown {ss tail : List Symbol} {cs : List Char} {t : TypeRef} (derives : Derives ss t)
    (words : AllWords ss) (behind : Shows tail cs) (apart : ∀ c, cs.head? = some c → isWordChar c = false) :
    Shows (ss ++ tail) (printed t ++ cs) := by
  cases derives with
  | scalar s => exact words.first.shows apart behind
  | object => exact words.first.shows apart behind
  | target name =>
    rw [printed_target]
    exact target_shown words behind
  | struct name =>
    rw [printed_struct]
    exact target_shown words behind
  | block derives listed =>
    have inside := words.behind.behind
    have closed : Shows (.mark '>' :: tail) ('>' :: cs) := .mark (by decide) (by decide) behind
    have params := listed.shown inside.right.behind.left closed
    have result := derives.shown inside.left (.mark (c := '(') (by decide) (by decide) params) (by rintro _ ⟨⟩; decide)
    have shown := words.first.shows_mark (c := '<') (by decide) (by decide) result
    simpa using shown

theorem Row.shown {row tail : List Symbol} {cs : List Char} {types : List TypeRef} (listed : Row row types)
    (words : AllWords row) (behind : Shows tail cs) :
    Shows (row ++ .mark ')' :: tail) (printedRow types ++ ')' :: cs) := by
  have closed : Shows (.mark ')' :: tail) (')' :: cs) := .mark (by decide) (by decide) behind
  cases listed with
  | none => exact closed
  | last derives =>
    rw [printedRow_one]
    exact derives.shown words closed (by rintro _ ⟨⟩; decide)
  | more derives others =>
    have rest := others.shown words.right.behind behind
    have spacedRest := Shows.blank (c := ' ') (by decide) rest
    have first := derives.shown words.left (.mark (c := ',') (by decide) (by decide) spacedRest) (by rintro _ ⟨⟩; decide)
    simpa using first

end

theorem parse_writes {s : String} (parsed : TypeRef.parse s = .ok t) : Writes s t := by
  rcases parse_accounts s with ⟨u,read,writes⟩ | ⟨w,read,_⟩ | ⟨fault,rest,read,_⟩
  · cases read.symm.trans parsed
    exact writes
  · cases read.symm.trans parsed
  · cases read.symm.trans parsed

theorem parse_printed {s : String} (parsed : TypeRef.parse s = .ok t) : TypeRef.parse (t.text id) = .ok t := by
  obtain ⟨ss,shows,derives⟩ := parse_writes parsed
  have shown := derives.shown shows.words .nothing (by simp)
  rw [List.append_nil,List.append_nil] at shown
  exact parse_written ⟨ss,shown,derives⟩

-- The text without its blanks, with one behind each comma.
def respaced (s : String) : String := String.ofList (spaced (visible s))

-- What is printed is what was visible, so texts that differ in their blanks alone are printed the same.
theorem printed_visible {s : String} (parsed : TypeRef.parse s = .ok t) : t.text id = respaced s := by
  obtain ⟨ss,shows,derives⟩ := parse_writes parsed
  have same : printed t = spaced (visible s) := by
    rw [visible,shows.visible]
    exact derives.prints shows.words
  rw [respaced,← same,printed,String.ofList_toList]

end ObjectBridge.TypeText
