import ObjectBridge.Proofs.Metadata.Declarations
import ObjectBridge.Proofs.Metadata.FileBytes

namespace ObjectBridge
open Layout Outcome

theorem texts_short {texts : List String} (checked : texts.forM checkText = .ok ()) :
    ∀ text ∈ texts, text.utf8ByteSize ≤ textLimit := by
  induction texts with
  | nil => intro text member; cases member
  | cons first rest ih =>
    obtain ⟨_,one,others⟩ := bind_ok.mp checked
    intro text member
    rcases List.mem_cons.mp member with rfl | later
    · unfold checkText at one
      split at one
      · rename_i short; exact short
      · cases one
    · exact ih others text later

theorem firstRepeated?_none {seen names : List String} (none : firstRepeated? seen names = none) :
    (∀ name ∈ names, name ∉ seen) ∧ names.Nodup := by
  induction names generalizing seen with
  | nil => exact ⟨fun name member => (nomatch member),List.nodup_nil⟩
  | cons first rest ih =>
    unfold firstRepeated? at none
    split at none
    · cases none
    · rename_i fresh
      obtain ⟨apart,distinct⟩ := ih none
      refine ⟨fun name member => ?_,List.nodup_cons.mpr ⟨fun again => ?_,distinct⟩⟩
      · rcases List.mem_cons.mp member with rfl | later
        · exact fresh
        · exact fun old => apart name later (List.mem_cons_of_mem _ old)
      · exact apart first again List.mem_cons_self

-- A declaration and its descriptor stand at the same place.
def Describes (scope : Scope) (p : DescriptorId × Declaration) (q : DescriptorId × Descriptor) : Prop :=
  q.1 = p.1 ∧ scope.describe p.2 = .ok q.2

structure Resolved (u : Universe) (placed : List (DescriptorId × Descriptor)) : Prop where
  short : ∀ text ∈ u.texts, text.utf8ByteSize ≤ textLimit
  distinct : (u.declarations.map (·.name)).Nodup
  described : List.Forall₂ (Describes (Scope.of (placeDeclarations (descriptorStart u) u.declarations)))
    (placeDeclarations (descriptorStart u) u.declarations) placed

theorem resolve_ok {u : Universe} {placed : List (DescriptorId × Descriptor)} (resolved : u.resolve = .ok placed) :
    Resolved u placed := by
  obtain ⟨_,checked,rest⟩ := bind_ok.mp resolved
  split at rest
  · exact (throw_ok.mp rest).elim
  · rename_i none
    refine ⟨texts_short checked,(firstRepeated?_none none).2,(mapM_ok.mp rest).imp ?_⟩
    intro p q one
    obtain ⟨d,described,joined⟩ := bind_ok.mp one
    obtain rfl := pure_ok.mp joined
    exact ⟨rfl,described⟩

theorem declarations_placed (start : Nat) (decls : List Declaration) :
    (placeDeclarations start decls).map (·.2) = decls := by
  induction decls generalizing start with
  | nil => rfl
  | cons d rest ih =>
    rw [placeDeclarations,List.map_cons,ih]

theorem describe_kind {scope : Scope} {decl : Declaration} {d : Descriptor} (described : scope.describe decl = .ok d) :
    d.name = decl.name ∧ d.kind = decl.kind := by
  have presents : Presents (fun _ _ _ => True) decl d := describe_presents (fun _ _ _ _ => trivial) described
  exact ⟨presents.name_eq,presents.kind_eq⟩

theorem described_consecutive {scope : Scope} {start : Nat} {decls : List Declaration}
    {placed : List (DescriptorId × Descriptor)}
    (described : List.Forall₂ (Describes scope) (placeDeclarations start decls) placed) :
    Blob.Consecutive start placed := by
  induction decls generalizing start placed with
  | nil => cases described; trivial
  | cons decl rest ih =>
    cases described with
    | cons one others =>
      refine ⟨congrArg DescriptorId.offset one.1,?_⟩
      rw [(describe_kind one.2).2]
      exact ih others

theorem consecutive_below {start : Nat} {placed : List (DescriptorId × Descriptor)}
    (consecutive : Blob.Consecutive start placed) :
    ∀ p ∈ placed, p.1.offset+p.2.kind.recordSize ≤ start+recordsSize placed := by
  induction placed generalizing start with
  | nil => intro p member; cases member
  | cons first rest ih =>
    have size : recordsSize (first :: rest) = first.2.kind.recordSize+recordsSize rest := rfl
    obtain ⟨here,later⟩ := consecutive
    intro p member
    rcases List.mem_cons.mp member with rfl | old
    · omega
    · have below := ih later p old
      omega

-- Which name stands for which of the descriptors.
def Among (placed : List (DescriptorId × Descriptor)) : Meaning := fun name id kind =>
  ∃ d, (id,d) ∈ placed ∧ d.name = name ∧ d.kind = kind

theorem lookup_placed {placed : List (DescriptorId × Declaration)} {name : String} {id : DescriptorId}
    {kind : DescriptorKind} (found : (Scope.of placed).lookup name = some (id,kind)) :
    ∃ decl, (id,decl) ∈ placed ∧ decl.name = name ∧ decl.kind = kind := by
  obtain ⟨before,behind,split,_⟩ := List.lookup_eq_some_iff.mp found
  have member : (name,id,kind) ∈ Scope.of placed := by rw [split]; simp
  obtain ⟨⟨_,decl⟩,among,same⟩ := List.mem_map.mp member
  cases same
  exact ⟨decl,among,rfl,rfl⟩

theorem described_knows {scope : Scope} {source : List (DescriptorId × Declaration)}
    {placed : List (DescriptorId × Descriptor)} (described : List.Forall₂ (Describes scope) source placed) :
    (Scope.of source).Knows (Among placed) := by
  intro name id kind found
  obtain ⟨decl,member,rfl,rfl⟩ := lookup_placed found
  obtain ⟨⟨_,d⟩,among,same,one⟩ := related_right described member
  obtain ⟨nameIs,kindIs⟩ := describe_kind one
  cases same
  exact ⟨d,among,nameIs,kindIs⟩

theorem described_names {scope : Scope} {source : List (DescriptorId × Declaration)}
    {placed : List (DescriptorId × Descriptor)} (described : List.Forall₂ (Describes scope) source placed) :
    placed.map (·.2.name) = source.map (·.2.name) := by
  have same : List.Forall₂ (fun p q => p.2.name = q.2.name) source placed :=
    described.imp fun p q one => (describe_kind one.2).1.symm
  exact (related_same same).symm

-- A record is part of the file, so that four bytes are enough for its place.
theorem among_bounded {texts : List String} {placed : List (DescriptorId × Descriptor)}
    (consecutive : Blob.Consecutive (Blob.descriptorsStart texts placed) placed)
    (small : (fileBytes texts placed).length < 2^32) :
    ∀ name id kind, Among placed name id kind → id.offset < nowhere := by
  rintro name id kind ⟨d,among,_⟩
  have below := consecutive_below consecutive _ among
  have head := Blob.headSize_le d.kind
  have records : (Blob.rows texts placed).1.length = recordsSize placed := Blob.length_records texts _ placed
  have length := Blob.length_fileBytes texts placed
  rw [records] at length
  simp only [descriptorHeadSize,nowhere] at head ⊢
  dsimp only at below
  omega

-- The type texts of a universe.
def Universe.typeTexts (u : Universe) : List String := u.declarations.flatMap (·.typeTexts)

theorem resolved_presents {u : Universe} {placed : List (DescriptorId × Descriptor)} (resolved : Resolved u placed) :
    ∀ p ∈ placed, ∃ decl ∈ u.declarations, Presents (Among placed) decl p.2 := by
  have described := resolved.described
  have knows := described_knows described
  have sources := declarations_placed (descriptorStart u) u.declarations
  generalize placeDeclarations (descriptorStart u) u.declarations = source at described knows sources
  intro p member
  obtain ⟨⟨_,decl⟩,among,_,one⟩ := related_left described member
  refine ⟨decl,?_,describe_presents knows one⟩
  rw [← sources]
  exact List.mem_map.mpr ⟨_,among,rfl⟩

-- Each declaration has its descriptor, for whatever a name stands for that is one of the descriptors.
theorem resolved_declared {u : Universe} {placed : List (DescriptorId × Descriptor)} {stands : Meaning}
    (resolved : Resolved u placed) (knows : ∀ name id kind, Among placed name id kind → stands name id kind) :
    ∀ decl ∈ u.declarations, ∃ p ∈ placed, p.2.name = decl.name ∧ Presents stands decl p.2 := by
  have described := resolved.described
  have known := described_knows described
  have sources := declarations_placed (descriptorStart u) u.declarations
  generalize placeDeclarations (descriptorStart u) u.declarations = source at described known sources
  intro decl member
  rw [← sources] at member
  obtain ⟨p,among,rfl⟩ := List.mem_map.mp member
  obtain ⟨q,there,_,one⟩ := related_right described among
  have presents := describe_presents (fun name id kind found => knows name id kind (known name id kind found)) one
  exact ⟨q,there,(describe_kind one).1,presents⟩

theorem resolved_consecutive {u : Universe} {placed : List (DescriptorId × Descriptor)} (resolved : Resolved u placed) :
    Blob.Consecutive (Blob.descriptorsStart u.texts placed) placed := by
  have sources := declarations_placed (descriptorStart u) u.declarations
  have count : placed.length = u.declarations.length := by
    rw [← resolved.described.length_eq,← List.length_map,sources]
  have start : Blob.descriptorsStart u.texts placed = descriptorStart u := by
    unfold Blob.descriptorsStart
    rw [count]
    rfl
  rw [start]
  exact described_consecutive resolved.described

theorem resolved_names {u : Universe} {placed : List (DescriptorId × Descriptor)} (resolved : Resolved u placed) :
    placed.map (·.2.name) = u.declarations.map (·.name) := by
  have sources := declarations_placed (descriptorStart u) u.declarations
  have described := resolved.described
  generalize placeDeclarations (descriptorStart u) u.declarations = source at described sources
  have names : source.map (·.2.name) = (source.map (·.2)).map (·.name) := by rw [List.map_map]; rfl
  rw [described_names described,names,sources]

-- The descriptors fit in whatever sense the types that are spelled do.
theorem resolved_fits {u : Universe} {placed : List (DescriptorId × Descriptor)} (Good : TypeEncoding → Prop)
    (resolved : Resolved u placed) (small : (fileBytes u.texts placed).length < 2^32) (void : Good .void)
    (good : ∀ text ∈ u.typeTexts, ∀ ty, Spelled (Among placed) text ty → Good ty) :
    ∀ p ∈ placed, Blob.DescriptorFits Good u.texts p.2 := by
  have bounded := among_bounded (resolved_consecutive resolved) small
  intro p member
  obtain ⟨decl,among,one⟩ := resolved_presents resolved p member
  refine one.fits void bounded (fun text part => ?_) (fun text part => good text ?_)
  · exact List.mem_eraseDups.mpr (List.mem_flatMap.mpr ⟨decl,among,part⟩)
  · exact List.mem_flatMap.mpr ⟨decl,among,part⟩

theorem resolved_arranged {u : Universe} {placed : List (DescriptorId × Descriptor)} (resolved : Resolved u placed)
    (small : (fileBytes u.texts placed).length < 2^32) (nested : ∀ text ∈ u.typeTexts, Nested text) :
    Metadata.Arranged u.texts placed := by
  have consecutive := resolved_consecutive resolved
  have bounded := among_bounded consecutive small
  have void : Blob.Readable .void := ⟨trivial,fun target member => nomatch member⟩
  refine ⟨resolved.short,?_,consecutive,?_,?_⟩
  · exact resolved_fits Blob.Readable resolved small void fun text member ty spelled => spelled.readable bounded (nested text member)
  · rw [resolved_names resolved]
    exact resolved.distinct
  · intro p member target refers
    obtain ⟨decl,_,one⟩ := resolved_presents resolved p member
    have known : ∀ name id kind, Among placed name id kind → ∃ d, (id,d) ∈ placed := by
      rintro name id kind ⟨d,among,_⟩
      exact ⟨d,among⟩
    exact one.references known target refers

theorem resolved_laid {u : Universe} {placed : List (DescriptorId × Descriptor)} (resolved : Resolved u placed)
    (small : (fileBytes u.texts placed).length < 2^32) (shallow : ∀ text ∈ u.typeTexts, Shallow text) :
    Metadata.Laid u.texts placed where
  toArranged := resolved_arranged resolved small fun text member t parsed => (shallow text member t parsed).nests
  whole p member := by
    have fits := resolved_fits (fun ty => ty.kept = ty) resolved small rfl fun text member ty spelled =>
      spelled.whole (shallow text member)
    exact (fits p member).kept fun _ same => same

-- What a name stands for in a loaded file.
def Metadata.Declares (m : Metadata) : Meaning := fun name id kind =>
  ∃ d, m.resolve? name = some (id,d) ∧ d.name = name ∧ d.kind = kind

-- The named descriptors are the declarations of the universe: under each of the names stands what was
-- declared with that name.
structure Metadata.Reproduces (m : Metadata) (u : Universe) : Prop where
  names : (m.named.map (·.2.name)).Perm (u.declarations.map (·.name))
  presents : ∀ decl ∈ u.declarations, ∃ id d, (id,d) ∈ m.named ∧ m.resolve? decl.name = some (id,d) ∧
    Presents m.Declares decl d

theorem Universe.loaded_reproduces {u : Universe} {file : Array UInt8} (compiled : u.compile = .ok file)
    (small : file.size < 2^32) (shallow : ∀ text ∈ u.typeTexts, Shallow text) :
    ∃ m, Metadata.ofBytes file = .ok m ∧ m.Reproduces u := by
  obtain ⟨placed,resolved,joined⟩ := bind_ok.mp compiled
  obtain rfl := pure_ok.mp joined
  have checked := resolve_ok resolved
  obtain ⟨m,loaded,resolves,perm⟩ := Metadata.file_loads (resolved_laid checked small shallow) small
  have described := checked.described
  have sources := declarations_placed (descriptorStart u) u.declarations
  generalize placeDeclarations (descriptorStart u) u.declarations = source at described sources
  have knows : (Scope.of source).Knows m.Declares := by
    intro name id kind found
    obtain ⟨d,among,rfl,rfl⟩ := described_knows described name id kind found
    exact ⟨d,resolves _ among,rfl,rfl⟩
  refine ⟨m,loaded,?_,?_⟩
  · have names : source.map (·.2.name) = (source.map (·.2)).map (·.name) := by rw [List.map_map]; rfl
    rw [← sources,← names,← described_names described]
    exact perm.map _
  · intro decl member
    rw [← sources] at member
    obtain ⟨p,among,rfl⟩ := List.mem_map.mp member
    obtain ⟨⟨id,d⟩,there,_,one⟩ := related_right described among
    refine ⟨id,d,perm.mem_iff.mpr there,?_,describe_presents knows one⟩
    rw [← (describe_kind one).1]
    exact resolves _ there

-- A text spells the type that is read when all of its tokens are.
theorem parse_tokens {text : String} (ts : List TypeText.Token) {t : TypeRef} (cut : TypeText.tokens 0 text.toList = ts)
    (read : (TypeText.readType text.utf8ByteSize ts).map (fun r => (r.1,r.2.val)) = .ok (t,[])) :
    TypeRef.parse text = .ok t := by
  subst cut
  obtain ⟨⟨_,rest,_⟩,readType,same⟩ := map_ok.mp read
  cases same
  unfold TypeRef.parse
  dsimp only
  rw [readType]

theorem readType_parsed {scope : Scope} {text : String} {t : TypeRef} (parsed : TypeRef.parse text = .ok t) :
    scope.readType text = scope.resolve t := by
  unfold Scope.readType readTypeText
  rw [parsed]
  rfl

-- A class that refers to itself, also from within a block, with texts that several declarations share.
def nodes : Universe where
  interfaces := [⟨"Node",none,["Listed"],
    [⟨"each","each:",["block<void(id<Node>)>"],"void",false,false,false,true⟩],
    [⟨"next","id<Node>",false,false,none,some "follow:"⟩]⟩]
  protocols := [⟨"Listed",[],[],[⟨"count","u32",false,true,none,none⟩]⟩]
  structs := [⟨"Pair",[⟨"next","id<Node>"⟩,⟨"count","u32"⟩]⟩]
  functions := []

theorem nodes_types : TypeRef.parse "void" = .ok .void ∧ TypeRef.parse "u32" = .ok (.scalar (.int .u32)) ∧
    TypeRef.parse "id<Node>" = .ok (.object (some "Node")) ∧
    TypeRef.parse "block<void(id<Node>)>" = .ok (.block .void [.object (some "Node")]) := by
  refine ⟨parse_tokens [.word "void" 0] (by decide +kernel) (by cbv),
    parse_tokens [.word "u32" 0] (by decide +kernel) (by cbv),
    parse_tokens [.word "id" 0,.mark '<' 2,.word "Node" 3,.mark '>' 7] (by decide +kernel) (by cbv),
    parse_tokens [.word "block" 0,.mark '<' 5,.word "void" 6,.mark '(' 10,.word "id" 11,.mark '<' 13,.word "Node" 14,
      .mark '>' 18,.mark ')' 19,.mark '>' 20] (by decide +kernel) (by cbv)⟩

theorem nodes_compiled : nodes.compile.map (·.size) = .ok 368 := by
  obtain ⟨void,u32,node,block⟩ := nodes_types
  have declarations : nodes.declarations = [.interface _,.protocol _,.struct _] := rfl
  unfold Universe.compile Universe.resolve
  simp only [declarations,List.map_cons,List.map_nil,placeDeclarations,List.mapM_cons,List.mapM_nil,Scope.describe,
    Scope.readMembers,Scope.readMethod,Scope.readSignature,Scope.readProperty,readType_parsed void,
    readType_parsed u32,readType_parsed node,readType_parsed block]
  cbv

theorem nodes_reproduced : ∃ file m, nodes.compile = .ok file ∧ file.size < 2^32 ∧
    (∀ text ∈ nodes.typeTexts, Shallow text) ∧ Metadata.ofBytes file = .ok m ∧ m.Reproduces nodes := by
  obtain ⟨file,compiled,size⟩ := map_ok.mp nodes_compiled
  have small : file.size < 2^32 := by rw [size]; decide
  have shallow : ∀ text ∈ nodes.typeTexts, Shallow text := by
    obtain ⟨void,u32,node,block⟩ := nodes_types
    have texts : nodes.typeTexts = ["void","block<void(id<Node>)>","id<Node>","u32","id<Node>","u32"] := rfl
    intro text member t parsed
    rw [texts] at member
    simp only [List.mem_cons,List.not_mem_nil,or_false] at member
    rcases member with rfl | rfl | rfl | rfl | rfl | rfl
    · cases void.symm.trans parsed; trivial
    · cases block.symm.trans parsed; exact ⟨by decide,trivial,trivial,trivial⟩
    · cases node.symm.trans parsed; trivial
    · cases u32.symm.trans parsed; trivial
    · cases node.symm.trans parsed; trivial
    · cases u32.symm.trans parsed; trivial
  obtain ⟨m,loaded,reproduces⟩ := Universe.loaded_reproduces compiled small shallow
  exact ⟨file,m,compiled,small,shallow,loaded,reproduces⟩

end ObjectBridge
