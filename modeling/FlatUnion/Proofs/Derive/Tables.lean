import FlatUnion.Proofs.Derive.Reading

/-!
# The tables of derived code

For each of its tables derived code has one branch for each variant, in their order. What such a
branch should be is said by an arm (`Variant.textArm`, `Variant.tagArm`, `Variant.writeArm`,
`Variant.readArm`), and what is printed for the variant is this arm (`IsArm`). So a choice between
printed branches is a table of arms (`trees?_choice`), from which the arms can be read again
(`readAll_of_isArm`).

Then the tables are put in their places : the list of tags and their texts in the methods of the
enum of tags, the search for a tag in its visitor, and one table each in the implementations that
write, read and describe.
-/

namespace FlatUnion.Derive

open Code
open Soundness (Sound)

/-! ## Tables of a declaration -/

/-- The trees of a choice between the arms of a table. -/
def choiceTrees (value : String) (table : List Tree) : List Tree :=
  [.leaf "match", .leaf value, .group .brace table]

/-- The trees of a result that is a value. -/
def successTrees (value : List Tree) : List Tree :=
  leaves ": : core : : result : : Result : : Ok" ++ [Tree.group .parenthesis value]

/-- The trees of a result that is an error. -/
def failureTrees (value : List Tree) : List Tree :=
  leaves ": : core : : result : : Result : : Err" ++ [Tree.group .parenthesis value]

namespace Variant

variable (v : Variant)

/-- A variant as it is taken apart and built. -/
def constructor : Pattern :=
  match v.field with
  | none => .tuple "Self" v.name payloadName
  | some field => .record "Self" v.name field payloadName

/-- The trees of the payload's type. -/
def payloadTrees : List Tree := treesOf (printPieces v.payload)

/-- The arm that gives the text of the variant's tag. -/
def textArm : Arm := ⟨.member "Self" v.name, [.leaf (quoted v.tag)]⟩

/-- The arm that finds the variant's tag by its text. -/
def tagArm (tagEnum : String) : Arm :=
  ⟨.text v.tag, successTrees (Pattern.member tagEnum v.name).trees⟩

/-- The arm that writes the variant, first its tag and then its payload. -/
def writeArm (root : Piece) (tagEnum : String) : Arm where
  pattern := v.constructor
  result :=
    [.group .brace
      (treesOf (codecPath root ["ser", "SerializeMap", "serialize_entry"]).printed ++
        [.group .parenthesis
          (leaves "& mut map , __FLAT_TAG_FIELD , &" ++ (Pattern.member tagEnum v.name).trees)] ++
        leaves "? ;" ++
        (treesOf (codecPath root ["Serialize", "serialize"]).printed ++
          [.group .parenthesis
            (leaves "payload ," ++
              treesOf (internalPath root ["FlatMapSerializer", "new"]).printed ++
              [.group .parenthesis (leaves "& mut map")])] ++
          leaves "? ;"))]

/-- The arm that reads the variant's payload by its type and builds the variant. -/
def readArm (tagEnum : String) : Arm where
  pattern := .member tagEnum v.name
  result :=
    [.group .brace
      (leaves "let payload = content . decode_payload : : <" ++ v.payloadTrees ++
        (leaves ", D : : Error >" ++ .group .parenthesis [] :: leaves "? ;") ++
        successTrees v.constructor.trees)]

/-- The statement that adds the schema of the variant. -/
def schemaTrees (root : Piece) : List Tree :=
  leaves "variants . push" ++
    [Tree.group .parenthesis
      (treesOf (internalPath root ["variant_subschema"]).printed ++
        [Tree.group .parenthesis
          (.leaf (quoted tagField) :: .leaf "," :: .leaf (quoted v.tag) :: .leaf "," ::
            (leaves "generator . subschema_for : : <" ++ v.payloadTrees ++
              Tree.leaf ">" :: Tree.group .parenthesis [] :: [Tree.leaf ","]))])]

end Variant

/-- The arm for a text that is no tag. -/
def unknownArm (tagEnum : String) : Arm where
  pattern := .any "value"
  result :=
    failureTrees
      ((Pattern.member "E" "unknown_variant").trees ++
        [.group .parenthesis (leaves "value ," ++ (Pattern.member tagEnum tagTable).trees)])

namespace Declaration

variable (d : Declaration)

/-- The arms that give the texts of tags. -/
def textArms : List Arm := d.variants.map fun v => v.textArm

/-- The arms that find tags by their texts. -/
def tagArms : List Arm := d.variants.map (fun v => v.tagArm d.tagEnum) ++ [unknownArm d.tagEnum]

/-- The arms that write variants. -/
def writeArms (root : Piece) : List Arm := d.variants.map fun v => v.writeArm root d.tagEnum

/-- The arms that read variants. -/
def readArms : List Arm := d.variants.map fun v => v.readArm d.tagEnum

/-- The statement that makes room for the schemas of variants. -/
def schemaStart : List Tree :=
  leaves "let mut variants = : : std : : vec : : Vec : : with_capacity" ++
    [Tree.group .parenthesis [Tree.leaf (toString d.variants.length ++ "usize")], Tree.leaf ";"]

end Declaration

/-- The schema that is made of a list of tags and the schemas of variants. -/
def schemaFinish (root : Piece) (texts : List Tree) : List Tree :=
  treesOf (internalPath root ["flat_enum_schema"]).printed ++
    [Tree.group .parenthesis
      (Tree.leaf (quoted tagField) :: leaves ", &" ++ [Tree.group .bracket texts] ++
        leaves ", variants")]

/-! ## Trees of the tables -/

section Trees

variable {root : Piece} {d : Declaration} {v : Variant}

theorem trees?_member {type name : String} (htype : IsLeaf type) (hname : IsLeaf name) :
    trees? (memberOf type name) = some (Pattern.member type name).trees := by
  have hcolon : IsLeaf ":" := by decide
  exact trees?_cons htype (trees?_cons hcolon (trees?_cons hcolon (trees?_leaf hname)))

theorem trees?_constructor (hv : Sound v) :
    trees? (v.pattern payloadName) = some v.constructor.trees := by
  have hpath : trees? ["Self", ":", ":", v.name] = some (Pattern.member "Self" v.name).trees :=
    trees?_member (by decide) hv.1.isLeaf
  have hpayload : trees? [payloadName] = some [.leaf payloadName] := rfl
  rw [Variant.pattern, Variant.constructor]
  cases hfield : v.field with
  | none => exact trees?_append hpath (trees?_parenthesized hpayload)
  | some field =>
    have hname : IsLeaf field := IsWord.isLeaf (hv.2.1 field hfield)
    have hbound : trees? [field, ":", payloadName] =
        some [.leaf field, .leaf ":", .leaf payloadName] :=
      trees?_cons hname rfl
    exact trees?_append hpath (trees?_braced hbound)

theorem trees?_success {p : Printed} {ts : List Tree} (h : trees? p = some ts) :
    trees? (success p) = some (successTrees ts) := by
  have hfront : trees? (phrase ": : core : : result : : Result : : Ok") =
      some (leaves ": : core : : result : : Result : : Ok") := rfl
  exact trees?_append hfront (trees?_parenthesized h)

theorem trees?_failure {p : Printed} {ts : List Tree} (h : trees? p = some ts) :
    trees? (failure p) = some (failureTrees ts) := by
  have hfront : trees? (phrase ": : core : : result : : Result : : Err") =
      some (leaves ": : core : : result : : Result : : Err") := rfl
  exact trees?_append hfront (trees?_parenthesized h)

theorem trees?_branch {front result : Printed} {a : Arm}
    (hfront : trees? front = some a.pattern.trees) (hresult : trees? result = some a.result) :
    trees? (branch front result) = some (a.trees ++ [Tree.leaf ","]) := by
  have harrow : trees? ["=", ">"] = some [.leaf "=", .leaf ">"] := rfl
  have hcomma : trees? [","] = some [.leaf ","] := rfl
  have h := trees?_append (trees?_append (trees?_append hfront harrow) hresult) hcomma
  simpa [branch, Arm.trees] using h

/-- A printed branch is an arm. -/
def IsArm (p : Printed) (a : Arm) : Prop := trees? p = some (a.trees ++ [Tree.leaf ","]) ∧ a.IsPlain

/-- A choice between branches that are arms. -/
theorem trees?_choice (value : String) (hvalue : IsLeaf value) {branches : List Printed}
    {arms : List Arm} (h : List.Forall₂ IsArm branches arms) :
    trees? (choice value branches) = some (choiceTrees value (Arm.tableOf arms)) := by
  have htable : trees? branches.flatten = some (Arm.tableOf arms) := by
    induction h with
    | nil => rfl
    | cons ha _ ih => exact trees?_append ha.1 ih
  exact trees?_cons (by decide) (trees?_cons hvalue (trees?_braced htable))

/-- The arms that branches are, are read from their table. -/
theorem readAll_of_isArm {branches : List Printed} {arms : List Arm}
    (h : List.Forall₂ IsArm branches arms) : Arm.readAll (Arm.tableOf arms) = some arms := by
  refine Arm.readAll_tableOf ?_
  induction h with
  | nil => exact nofun
  | cons ha _ ih => exact List.forall_mem_cons.2 ⟨ha.2, ih⟩

/-- The branches for the members of a list are arms, one for each. -/
theorem forall₂_isArm {α : Type} {xs : List α} {f : α → Printed} {g : α → Arm}
    (h : ∀ x ∈ xs, IsArm (f x) (g x)) : List.Forall₂ IsArm (xs.map f) (xs.map g) :=
  List.forall₂_map_left_iff.2 (List.forall₂_map_right_iff.2 (List.forall₂_same.2 h))

theorem trees?_quoted (s : String) : trees? [quoted s] = some [.leaf (quoted s)] :=
  trees?_leaf (isLeaf_quoted s)

theorem lacks_comma_quoted (s : String) : Lacks "," [.leaf (quoted s)] := by
  have hne : quoted s ≠ "," := Pattern.quoted_ne (by decide)
  simp [Tree.isText, hne]

theorem lacks_comma_group (d : Delimiter) (ts : List Tree) : Lacks "," [.group d ts] := by
  simp [Tree.isText]

theorem lacks_comma_result : Lacks "," (leaves ": : core : : result : : Result : : Ok") ∧
    Lacks "," (leaves ": : core : : result : : Result : : Err") := by
  simp [leaves, phrase, wordsBehind, Tree.isText]

theorem isPlain_constructor (hv : Sound v) : v.constructor.IsPlain := by
  have hself : IsWord "Self" := by decide
  rw [Variant.constructor]
  cases v.field <;> exact ⟨hself, hv.1⟩

theorem isArm_text (hd : Sound d) : List.Forall₂ IsArm (tagWriteBranches d) d.textArms :=
  forall₂_isArm fun v hv =>
    have hname : IsWord v.name := (hd.2.2.2 v hv).1
    have hself : IsWord "Self" := by decide
    ⟨trees?_branch (trees?_member hself.isLeaf hname.isLeaf) (trees?_quoted v.tag),
      ⟨⟨hself, hname⟩, lacks_comma_quoted v.tag⟩⟩

theorem isArm_unknown (d : Declaration) : IsArm (unknownTagBranch d) (unknownArm d.tagEnum) := by
  have htable : trees? (memberOf d.tagEnum tagTable) =
      some (Pattern.member d.tagEnum tagTable).trees :=
    trees?_member (isWord_tagEnum d).isLeaf (by decide)
  have hunknown : trees? (memberOf "E" "unknown_variant") =
      some (Pattern.member "E" "unknown_variant").trees := rfl
  have hvalue : trees? ["value", ","] = some (leaves "value ,") := rfl
  have hinside := trees?_append hunknown (trees?_parenthesized (trees?_append hvalue htable))
  exact ⟨trees?_branch rfl (trees?_failure hinside),
    ⟨show IsWord "value" by decide,
      lacks_append.2 ⟨lacks_comma_result.2, lacks_comma_group _ _⟩⟩⟩

theorem isArm_tag (hd : Sound d) :
    List.Forall₂ IsArm (tagReadBranches d ++ [unknownTagBranch d]) d.tagArms := by
  refine List.rel_append (forall₂_isArm fun v hv => ?_) (.cons (isArm_unknown d) .nil)
  have hname : IsWord v.name := (hd.2.2.2 v hv).1
  exact ⟨trees?_branch (trees?_quoted v.tag)
      (trees?_success (trees?_member (isWord_tagEnum d).isLeaf hname.isLeaf)),
    ⟨trivial, lacks_append.2 ⟨lacks_comma_result.1, lacks_comma_group _ _⟩⟩⟩

theorem isArm_write (hroot : Sound root) (hd : Sound d) :
    List.Forall₂ IsArm (writeBranches root d) (d.writeArms root) := by
  refine forall₂_isArm fun v hv => ?_
  have hsound : Sound v := hd.2.2.2 v hv
  have hentry : Readable (codecPath root ["ser", "SerializeMap", "serialize_entry"]).printed :=
    .piece (sound_codecPath hroot (by decide))
  have hserialize : Readable (codecPath root ["Serialize", "serialize"]).printed :=
    .piece (sound_codecPath hroot (by decide))
  have hnew : Readable (internalPath root ["FlatMapSerializer", "new"]).printed :=
    .piece (sound_internalPath hroot (by decide))
  have hmember := trees?_member (isWord_tagEnum d).isLeaf (IsWord.isLeaf hsound.1)
  have hend : trees? ["?", ";"] = some (leaves "? ;") := rfl
  have hfield : trees? (phrase "& mut map ," ++ [tagFieldName, ",", "&"]) =
      some (leaves "& mut map , __FLAT_TAG_FIELD , &") := rfl
  have hbound : trees? [payloadName, ","] = some (leaves "payload ,") := rfl
  have hmap : trees? (phrase "& mut map") = some (leaves "& mut map") := rfl
  have htag := trees?_append (trees?_append hentry.trees?
    (trees?_parenthesized (trees?_append hfield hmember))) hend
  have hpayload := trees?_append (trees?_append hserialize.trees? (trees?_parenthesized
    (trees?_append (trees?_append hbound hnew.trees?) (trees?_parenthesized hmap)))) hend
  exact ⟨trees?_branch (trees?_constructor hsound) (trees?_braced (trees?_append htag hpayload)),
    ⟨isPlain_constructor hsound, lacks_comma_group _ _⟩⟩

theorem isArm_read (hd : Sound d) : List.Forall₂ IsArm (readBranches d) d.readArms := by
  refine forall₂_isArm fun v hv => ?_
  have hsound : Sound v := hd.2.2.2 v hv
  have hpayload : Readable (printPieces v.payload) := .pieces hsound.2.2
  have hfront : trees? (["let", payloadName] ++ phrase "= content . decode_payload : : <") =
      some (leaves "let payload = content . decode_payload : : <") := rfl
  have hback : trees? ("," :: memberOf readerParameter "Error" ++ phrase "> ( ) ? ;") =
      some (leaves ", D : : Error >" ++ .group .parenthesis [] :: leaves "? ;") := rfl
  have hbody := trees?_append (trees?_append (trees?_append hfront hpayload.trees?) hback)
    (trees?_success (trees?_constructor hsound))
  refine ⟨trees?_branch (trees?_member (isWord_tagEnum d).isLeaf (IsWord.isLeaf hsound.1)) ?_,
    ⟨⟨isWord_tagEnum d, hsound.1⟩, lacks_comma_group _ _⟩⟩
  rw [List.append_assoc _ (_ :: _)]
  exact trees?_braced hbody

end Trees

/-! ## Tables in their places -/

section Places

variable {root : Piece} {d : Declaration}

theorem shows_members (hd : Sound d) :
    ∃ table, Shows [.leaf "enum", .leaf d.tagEnum, .group .brace table] (tagDeclaration d) ∧
      entries "," table = d.variants.map fun v => [.leaf v.name] := by
  have hcomma : IsLeaf "," := by decide
  have htable : trees? (tagMembers d).flatten =
      some ((d.variants.map fun v => [.leaf v.name]).map (· ++ [.leaf ","])).flatten := by
    rw [List.map_map]
    exact trees?_flatten_map fun v hv =>
      trees?_cons (IsWord.isLeaf (hd.2.2.2 v hv).1) (trees?_leaf hcomma)
  have henum : trees? (["enum", d.tagEnum] ++ braced (tagMembers d).flatten) = some _ :=
    trees?_cons (by decide) (trees?_cons (isWord_tagEnum d).isLeaf (trees?_braced htable))
  have hmark : Readable ("#" :: bracketed ("derive" :: parenthesized ["Clone", ",", "Copy"])) :=
    ⟨_, rfl⟩
  refine ⟨_, ?_, entries_flatten (List.forall_mem_map.2 fun v hv => ?_)⟩
  · rw [tagDeclaration, List.append_assoc]
    exact (Shows.of_trees henum).append_left hmark
  · have hne : v.name ≠ "," := IsWord.ne (hd.2.2.2 v hv).1 (by decide +kernel)
    simp [Tree.isText, hne]

/-- The entries between commas. -/
theorem exists_entries (texts : List String) :
    ∃ table, trees? (commaBetween (texts.map fun s => [quoted s])) = some table ∧
      entries "," table = texts.map fun s => [.leaf (quoted s)] := by
  induction texts with
  | nil => exact ⟨[], rfl, rfl⟩
  | cons s texts ih =>
    obtain ⟨table, htable, hentries⟩ := ih
    cases texts with
    | nil =>
      exact ⟨_, trees?_quoted s, entries_last (lacks_comma_quoted s) (List.cons_ne_nil _ _)⟩
    | cons s' texts =>
      refine ⟨_, trees?_append (trees?_quoted s) (trees?_cons (by decide) htable), ?_⟩
      rw [entries_mark (lacks_comma_quoted s), hentries]
      rfl

theorem exists_tagTexts (d : Declaration) :
    ∃ table, trees? (commaBetween (tagTexts d)) = some table ∧
      entries "," table = d.tags.map fun s => [.leaf (quoted s)] := by
  have htexts : tagTexts d = d.tags.map fun s => [quoted s] := by
    rw [Declaration.tags, List.map_map]
    rfl
  rw [htexts]
  exact exists_entries d.tags

/-- The implementation of the enum of tags itself : the list of all tags, and their texts. -/
theorem within_tagMethods (hd : Sound d) :
    (∃ type table,
      Within "impl" d.tagEnum
        (Tree.leaf "const" :: Tree.leaf tagTable :: type ++ leaves "= &" ++
          [Tree.group .bracket table])
        (tagMethods d) ∧
      entries "," table = d.tags.map fun s => [.leaf (quoted s)]) ∧
    ∃ signature,
      Within "impl" d.tagEnum
        (methodTrees "as_str" signature (choiceTrees "self" (Arm.tableOf d.textArms)))
        (tagMethods d) := by
  obtain ⟨texts, htexts, hentries⟩ := exists_tagTexts d
  have htable := trees?_choice "self" (by decide) (isArm_text hd)
  let type : List Code.Tree :=
    leaves ": & 'static" ++
      [Tree.group .bracket (leaves "& 'static : : core : : primitive : : str")]
  have hfront : trees? ("const" :: tagTable :: phrase ": & 'static [ & 'static" ++ textType ++
      phrase "] = &") =
        some (Tree.leaf "const" :: Tree.leaf tagTable :: type ++ leaves "= &") := rfl
  have hend : trees? [";"] = some [.leaf ";"] := rfl
  have hconst := trees?_append (trees?_append hfront
    (trees?_enclosed .bracket htexts)) hend
  have hmethod : IsMethod "as_str" [] (choice "self" (tagWriteBranches d))
      (phrase "fn as_str ( self ) - > & 'static" ++ textType ++
        braced (choice "self" (tagWriteBranches d))) :=
    ⟨phrase "( self ) - > & 'static" ++ textType, ⟨_, rfl⟩, rfl⟩
  obtain ⟨signature, htext⟩ := hmethod.trees? (by decide) rfl htable
  have hword : IsLeaf "const" := by decide
  have hitems := trees?_append hconst (trees?_cons hword htext)
  refine ⟨⟨type, texts, within_impl (isWord_tagEnum d).isLeaf ⟨_, hitems, ?_⟩, hentries⟩,
    signature, within_impl (isWord_tagEnum d).isLeaf ⟨_, hitems, ?_⟩⟩
  · exact ((Holds.refl _).append_right _).append_right _
  · exact ((Holds.refl _).append_left [.leaf "const"]).append_left _

theorem readable_tagWriting (hroot : Sound root) (d : Declaration) :
    Readable (tagWriting root d) := by
  have hpath : Readable (codecPath root ["Serializer", "serialize_str"]).printed :=
    .piece (sound_codecPath hroot (by decide))
  have harguments : Readable (parenthesized (phrase "serializer , self . as_str ( )")) := ⟨_, rfl⟩
  have hmark : Readable generatedMark := ⟨_, rfl⟩
  exact hmark.append (readable_implementation .nil (sound_codecPath hroot (by decide))
    (isWord_tagEnum d).isLeaf .nil .nil
    ((isMethod_writeMethod hroot _).readable (by decide) ⟨_, rfl⟩ (hpath.append harguments)))

/-- The method that says which tags there are. -/
theorem isMethod_expecting (text : String) :
    IsMethod "expecting" [] (phrase "f . write_str" ++ parenthesized [quoted text])
      (phrase "fn expecting ( & self , f : & mut : : core : : fmt : : Formatter ) - >" ++
        phrase ": : core : : fmt : : Result" ++
        braced (phrase "f . write_str" ++ parenthesized [quoted text])) :=
  ⟨phrase "( & self , f : & mut : : core : : fmt : : Formatter ) - >" ++
    phrase ": : core : : fmt : : Result", ⟨_, rfl⟩, rfl⟩

/-- The method that finds a tag by its text. -/
theorem isMethod_visitText (hroot : Sound root) (body : Printed) :
    IsMethod "visit_str" (parameterFront "E") body
      (phrase "fn visit_str < E :" ++ (codecPath root ["de", "Error"]).printed ++
        phrase "> ( self , value : &" ++ textType ++ phrase ") - >" ++
        resultType (memberOf "Self" "Value") ["E"] ++ braced body) := by
  have hpath : Readable (codecPath root ["de", "Error"]).printed :=
    .piece (sound_codecPath hroot (by decide))
  have hback : Readable (phrase "> ( self , value : &" ++ textType ++ phrase ") - >" ++
      resultType (memberOf "Self" "Value") ["E"]) := ⟨_, rfl⟩
  refine ⟨_, .append hpath hback, ?_⟩
  simp only [List.append_assoc]
  rfl

/-- What finds a tag by its text. -/
theorem within_tagVisitor (hroot : Sound root) (hd : Sound d) :
    ∃ signature,
      Within "for" "Visitor"
        (methodTrees "visit_str" signature (choiceTrees "value" (Arm.tableOf d.tagArms)))
        (tagVisitor root d) := by
  have htable := trees?_choice "value" (by decide) (isArm_tag hd)
  obtain ⟨_, hvisit⟩ := (isMethod_visitText hroot _).trees? (by decide) rfl htable
  have hexpecting := (isMethod_expecting (describeAccepted "one of" d.tags)).readable (by decide)
    .nil (.append ⟨_, rfl⟩ (.enclosed _ (.leaf (isLeaf_quoted _))))
  have htype : Readable (phrase "type Value =") := ⟨_, rfl⟩
  have hend : IsLeaf ";" := by decide
  have hfront := htype.append (.cons (isWord_tagEnum d).isLeaf (.cons hend hexpecting))
  have hlasting : Sound (lasting (codecPath root ["de", "Visitor"]) "de") :=
    sound_lasting (sound_codecPath hroot (by decide)) (by decide)
  have hstruct : Readable (phrase "struct Visitor ;") := ⟨_, rfl⟩
  have hhead : Readable (phrase "< 'de >") := ⟨_, rfl⟩
  exact ⟨_, .mono (fun _ h => h.append_left hstruct)
    (within_implementation hhead hlasting (by decide) .nil .nil
      ((Shows.of_trees hvisit).append_left hfront))⟩

theorem within_tagReading (hroot : Sound root) (hd : Sound d) :
    ∃ signature,
      Within "for" "Visitor"
        (methodTrees "visit_str" signature (choiceTrees "value" (Arm.tableOf d.tagArms)))
        (tagReading root d) := by
  obtain ⟨signature, hvisitor⟩ := within_tagVisitor hroot hd
  refine ⟨signature, hvisitor.mono fun part h => ?_⟩
  have hpath : Readable (codecPath root ["Deserializer", "deserialize_str"]).printed :=
    .piece (sound_codecPath hroot (by decide))
  have harguments : Readable (parenthesized (phrase "deserializer , Visitor")) := ⟨_, rfl⟩
  have hmark : Readable generatedMark := ⟨_, rfl⟩
  have hhead : Readable (phrase "< 'de >") := ⟨_, rfl⟩
  have hlife : Sound "de" := by decide
  have hmethod := (isMethod_readMethod hroot hlife _).shows (by decide) ⟨_, rfl⟩
    ((h.append_right hpath).append_right harguments)
  exact (shows_implementation hhead
    (sound_lasting (sound_codecPath hroot (by decide)) hlife)
    (isWord_tagEnum d).isLeaf .nil .nil hmethod).append_left hmark

/-- The implementation that writes. -/
theorem within_writing (hroot : Sound root) (hd : Sound d) {p : Printed}
    (hp : writing root d = .ok p) :
    ∃ rest start finish,
      Within "for" d.name
        (methodTrees "serialize" (.leaf "<" :: .leaf writerParameter :: .leaf ":" :: rest)
          (start ++ choiceTrees "self" (Arm.tableOf (d.writeArms root)) ++ finish)) p := by
  obtain ⟨clause, hclause, rfl⟩ := map_eq_ok.1 hp
  have htable := trees?_choice "self" (by decide) (isArm_write hroot hd)
  have hmap : Readable (codecPath root ["Serializer", "serialize_map"]).printed :=
    .piece (sound_codecPath hroot (by decide))
  have hend : Readable (codecPath root ["ser", "SerializeMap", "end"]).printed :=
    .piece (sound_codecPath hroot (by decide))
  have hstart : Readable (phrase "let mut map =" ++
      (codecPath root ["Serializer", "serialize_map"]).printed ++
      parenthesized (phrase "serializer , : : core : : option : : Option : : None") ++
      ["?", ";"]) :=
    .append (.append (.append ⟨_, rfl⟩ hmap) ⟨_, rfl⟩) ⟨_, rfl⟩
  have hfinish : Readable ((codecPath root ["ser", "SerializeMap", "end"]).printed ++
      parenthesized ["map"]) := .append hend ⟨_, rfl⟩
  have hmark : Readable generatedMark := ⟨_, rfl⟩
  have hbody := trees?_append (trees?_append hstart.trees? htable) hfinish.trees?
  obtain ⟨rest, hmethod⟩ := (isMethod_writeMethod hroot _).trees? (by decide)
    (trees?_parameterFront (by decide)) hbody
  have htrait : Sound (codecPath root ["Serialize"]) := sound_codecPath hroot (by decide)
  exact ⟨rest, _, _, .mono (fun _ h => h.append_left hmark)
    (within_implementation (readable_printedHead hd.2.1) htrait (IsWord.isLeaf hd.1)
      (readable_printedArguments hd.2.1) (readable_clause (sound_boundClause hd htrait hclause))
      (.of_trees hmethod))⟩

/-- The implementation that reads, with the lifetime that is added for what is read. -/
theorem implements_reading (hroot : Sound root) (hd : Sound d) {p : Printed}
    (hp : reading root d = .ok p) :
    ∃ rest start,
      Implements [.leaf "<", .leaf (lifetimeText (readGenerics d).2)] d.name
        (methodTrees "deserialize" (.leaf "<" :: .leaf readerParameter :: .leaf ":" :: rest)
          (start ++ choiceTrees "tag" (Arm.tableOf d.readArms))) p := by
  obtain ⟨clause, hclause, rfl⟩ := map_eq_ok.1 hp
  have htable := trees?_choice "tag" (by decide) (isArm_read hd)
  have hkept : Readable (internalPath root ["FlatContent"]).printed :=
    .piece (sound_internalPath hroot (by decide))
  have hread : Readable (codecPath root ["Deserialize"]).printed :=
    .piece (sound_codecPath hroot (by decide))
  have hback : Readable (phrase "> : : deserialize ( deserializer ) ? ;") := ⟨_, rfl⟩
  have hcontent : Readable (phrase "let content = <" ++
      (internalPath root ["FlatContent"]).printed ++
      "as" :: (codecPath root ["Deserialize"]).printed ++
      phrase "> : : deserialize ( deserializer ) ? ;") :=
    .append (.append (.append ⟨_, rfl⟩ hkept) (.cons (by decide) hread)) hback
  have hname : Readable ["let", "tag", ":", d.tagEnum] :=
    .append (p := ["let", "tag", ":"]) ⟨_, rfl⟩ (.leaf (isWord_tagEnum d).isLeaf)
  have htag : Readable (["let", "tag", ":", d.tagEnum] ++
      phrase "= content . decode_tag : : < _ ," ++ memberOf readerParameter "Error" ++
      ">" :: parenthesized [tagFieldName] ++ ["?", ";"]) :=
    .append (.append (.append (.append hname ⟨_, rfl⟩) ⟨_, rfl⟩) ⟨_, rfl⟩) ⟨_, rfl⟩
  have hmark : Readable generatedMark := ⟨_, rfl⟩
  have hlife := sound_readLife d
  have hbody := trees?_append (hcontent.append htag).trees? htable
  obtain ⟨rest, hmethod⟩ := (isMethod_readMethod hroot hlife _).trees? (by decide)
    (trees?_parameterFront (by decide)) hbody
  have htrait : Sound (lasting (codecPath root ["Deserialize"]) (readGenerics d).2) :=
    sound_lasting (sound_codecPath hroot (by decide)) hlife
  exact ⟨rest, _, .mono (fun _ h => h.append_left hmark)
    (implements_implementation (trees?_readHead hd) htrait
      (IsWord.isLeaf hd.1) (readable_printedArguments hd.2.1)
      (readable_clause (sound_boundClause hd htrait hclause)) (.of_trees hmethod))⟩

/-- The parts of what is derived for reading and writing. -/
def codecParts (root : Piece) (d : Declaration) (written read : Printed) : List Printed :=
  [["const", tagFieldName, ":", "&"] ++ textType ++ ["=", quoted tagField, ";"],
    tagDeclaration d, tagMethods d, tagWriting root d, tagReading root d, written, read]

theorem codecItems_eq_ok {p : Printed} (hp : codecItems root d = .ok p) :
    ∃ written read, writing root d = .ok written ∧ reading root d = .ok read ∧
      p = codecItemsOf root d written read := by
  obtain ⟨written, hwritten, hp⟩ := bind_eq_ok.1 hp
  obtain ⟨read, hread, hp⟩ := bind_eq_ok.1 hp
  exact ⟨written, read, hwritten, hread, (pure_eq_ok.1 hp).symm⟩

section Parts

variable {written read : Printed} (hwritten : writing root d = .ok written)
  (hread : reading root d = .ok read)
include hwritten hread

theorem readable_codecParts (hroot : Sound root) (hd : Sound d) :
    ∀ p ∈ codecParts root d written read, Readable p := by
  obtain ⟨members, hmembers, -⟩ := shows_members hd
  obtain ⟨⟨type, texts, htexts, -⟩, -⟩ := within_tagMethods hd
  obtain ⟨_, hreading⟩ := within_tagReading hroot hd
  obtain ⟨_, _, _, hwrites⟩ := within_writing hroot hd hwritten
  obtain ⟨_, _, hreads⟩ := implements_reading hroot hd hread
  have hfield : Readable (["const", tagFieldName, ":", "&"] ++ textType ++
      ["=", quoted tagField, ";"]) := ⟨_, rfl⟩
  simp only [codecParts, List.forall_mem_cons, List.not_mem_nil, false_imp_iff, implies_true,
    and_true]
  exact ⟨hfield, hmembers.readable, htexts.readable, readable_tagWriting hroot d,
    hreading.readable, hwrites.readable, hreads.within.readable⟩

omit hwritten hread in
theorem flatten_codecParts (root : Piece) (d : Declaration) (written read : Printed) :
    ["const", tagFieldName, ":", "&"] ++ textType ++ ["=", quoted tagField, ";"] ++
      tagItems root d ++ written ++ read = (codecParts root d written read).flatten := by
  simp [codecParts, tagItems]

/-- What one of its parts shows, all that is derived for reading and writing shows. -/
theorem shows_codecItems (hroot : Sound root) (hd : Sound d) {p : Printed}
    (hp : p ∈ codecParts root d written read) {part : List Code.Tree} (h : Shows part p) :
    Shows part (codecItemsOf root d written read) := by
  have hmarks : Readable ("#" :: bracketed (phrase "doc ( hidden )") ++
      "#" :: bracketed ("allow" :: parenthesized
        (phrase "non_camel_case_types , non_upper_case_globals , unused_qualifications ," ++
          phrase "clippy : : all"))) := ⟨_, rfl⟩
  have hconst : Readable (phrase "const _ : ( ) =") := ⟨_, rfl⟩
  have hmark : Readable generatedMark := ⟨_, rfl⟩
  have hconformance : Readable (";" :: conformance root d) :=
    .cons (by decide) (hmark.append
      (readable_implementation (readable_printedHead hd.2.1) (sound_extend hroot (by decide))
        (IsWord.isLeaf hd.1) (readable_printedArguments hd.2.1) (readable_clause hd.2.2.1) .nil))
  have hinside :=
    (Shows.flatten (readable_codecParts hwritten hread hroot hd) hp h).enclosed .brace
  rw [← flatten_codecParts] at hinside
  exact (hinside.append_left (hmarks.append hconst)).append_right hconformance

end Parts

/-! ## Schemas -/

theorem trees?_schemaSteps (hroot : Sound root) (hd : Sound d) :
    trees? (schemaSteps root d).flatten =
      some ((d.variants.map fun v => v.schemaTrees root).map (· ++ [.leaf ";"])).flatten := by
  rw [List.map_map]
  refine trees?_flatten_map fun v hv => ?_
  have hsubschema : Readable (internalPath root ["variant_subschema"]).printed :=
    .piece (sound_internalPath hroot (by decide))
  have hpayload : Readable (printPieces v.payload) := .pieces (hd.2.2.2 v hv).2.2
  have htag : trees? [quoted tagField, ",", quoted v.tag, ","] =
      some [.leaf (quoted tagField), .leaf ",", .leaf (quoted v.tag), .leaf ","] :=
    trees?_cons (by decide) (trees?_cons (by decide) (trees?_cons (isLeaf_quoted _) rfl))
  have hfor : trees? (phrase "generator . subschema_for : : <") =
      some (leaves "generator . subschema_for : : <") := rfl
  have hback : trees? (phrase "> ( ) ,") =
      some [.leaf ">", .group .parenthesis [], .leaf ","] := rfl
  have hpush : trees? (phrase "variants . push") = some (leaves "variants . push") := rfl
  have hend : trees? [";"] = some [.leaf ";"] := rfl
  have hcall := trees?_append hsubschema.trees? (trees?_parenthesized
    (trees?_append htag (trees?_append (trees?_append hfor hpayload.trees?) hback)))
  exact trees?_append (trees?_append hpush (trees?_parenthesized hcall)) hend

/-- A text that is longer than one character is no delimiter. -/
theorem isLeaf_of_length {text : String} (h : text.length ≠ 1) : IsLeaf text := by
  have hone : ∀ s ∈ delimiterTexts, s.length = 1 := by decide
  exact fun hmem => h (hone text hmem)

theorem trees?_schemaStart (d : Declaration) :
    trees? (phrase "let mut variants = : : std : : vec : : Vec : : with_capacity" ++
      parenthesized [toString d.variants.length ++ "usize"] ++ [";"]) = some d.schemaStart := by
  have hlet : trees? (phrase "let mut variants = : : std : : vec : : Vec : : with_capacity") =
      some (leaves "let mut variants = : : std : : vec : : Vec : : with_capacity") := rfl
  have hlength : IsLeaf (toString d.variants.length ++ "usize") := by
    have husize : "usize".length = 5 := rfl
    exact isLeaf_of_length (by rw [String.length_append, husize]; omega)
  have hend : trees? [";"] = some [.leaf ";"] := rfl
  have h := trees?_append (trees?_append hlet (trees?_parenthesized (trees?_leaf hlength))) hend
  rwa [List.append_assoc] at h

theorem trees?_schemaFinish (hroot : Sound root) {p : Printed} {texts : List Tree}
    (htexts : trees? p = some texts) :
    trees? ((internalPath root ["flat_enum_schema"]).printed ++
      parenthesized ([quoted tagField, ",", "&"] ++ bracketed p ++ [",", "variants"])) =
        some (schemaFinish root texts) := by
  have hschema : Readable (internalPath root ["flat_enum_schema"]).printed :=
    .piece (sound_internalPath hroot (by decide))
  have hfield : trees? [quoted tagField, ",", "&"] =
      some (.leaf (quoted tagField) :: leaves ", &") := rfl
  have hvariants : trees? [",", "variants"] = some (leaves ", variants") := rfl
  exact trees?_append hschema.trees? (trees?_parenthesized (trees?_append
    (trees?_append hfield (trees?_enclosed .bracket htexts)) hvariants))

theorem isMethod_schemaMethod (hroot : Sound root) (d : Declaration) :
    IsMethod "json_schema" []
      (phrase "let mut variants = : : std : : vec : : Vec : : with_capacity" ++
        parenthesized [toString d.variants.length ++ "usize"] ++ [";"] ++
        (schemaSteps root d).flatten ++
        ((internalPath root ["flat_enum_schema"]).printed ++
          parenthesized ([quoted tagField, ",", "&"] ++ bracketed (commaBetween (tagTexts d)) ++
            [",", "variants"])))
      (schemaMethod root d) := by
  have hgenerator : Readable (schemaPath root ["gen", "SchemaGenerator"]).printed :=
    .piece (sound_schemaPath hroot (by decide))
  have hresult : Readable (schemaPath root ["schema", "Schema"]).printed :=
    .piece (sound_schemaPath hroot (by decide))
  have hargument : Readable (phrase "generator : & mut" ++
      (schemaPath root ["gen", "SchemaGenerator"]).printed) := .append ⟨_, rfl⟩ hgenerator
  have harrow : Readable (phrase "- >") := ⟨_, rfl⟩
  refine ⟨_, .append (.append (.enclosed .parenthesis hargument) harrow) hresult, ?_⟩
  simp only [schemaMethod, List.append_assoc]
  rfl

theorem trees?_schemaMethod (hroot : Sound root) (hd : Sound d) :
    ∃ signature table texts,
      trees? (schemaMethod root d) =
        some (methodTrees "json_schema" signature
          (d.schemaStart ++ table ++ schemaFinish root texts)) ∧
      entries ";" table = (d.variants.map fun v => v.schemaTrees root) ∧
      entries "," texts = d.tags.map fun s => [.leaf (quoted s)] := by
  obtain ⟨texts, htexts, hentries⟩ := exists_tagTexts d
  have hlacks : ∀ ts ∈ d.variants.map fun v => v.schemaTrees root, Lacks ";" ts := by
    rw [List.forall_mem_map]
    intro v _
    simp [Variant.schemaTrees, leaves, phrase, wordsBehind, Tree.isText]
  have hbody := trees?_append
    (trees?_append (trees?_schemaStart d) (trees?_schemaSteps hroot hd))
    (trees?_schemaFinish hroot htexts)
  obtain ⟨signature, htrees⟩ := (isMethod_schemaMethod hroot d).trees? (by decide) rfl hbody
  exact ⟨signature, _, texts, htrees, entries_flatten hlacks, hentries⟩

/-- The implementation that describes. -/
theorem within_describing (hroot : Sound root) (hd : Sound d) {p : Printed}
    (hp : describing root d = .ok p) :
    ∃ signature table texts,
      Within "for" d.name
        (methodTrees "json_schema" signature (d.schemaStart ++ table ++ schemaFinish root texts))
        p ∧
      entries ";" table = (d.variants.map fun v => v.schemaTrees root) ∧
      entries "," texts = d.tags.map fun s => [.leaf (quoted s)] := by
  obtain ⟨clause, hclause, rfl⟩ := map_eq_ok.1 hp
  obtain ⟨signature, table, texts, hmethod, htable, htexts⟩ := trees?_schemaMethod hroot hd
  have hname : IsMethod "schema_name" []
      ((internalPath root ["string"]).printed ++ parenthesized [quoted d.name])
      (schemaName root d) :=
    ⟨phrase "( ) - > : : std : : string : : String", ⟨_, rfl⟩, rfl⟩
  have hnameBody : Readable ((internalPath root ["string"]).printed ++
      parenthesized [quoted d.name]) :=
    .append (.piece (sound_internalPath hroot (by decide)))
      (.enclosed _ (.leaf (isLeaf_quoted _)))
  have hidentity : Readable schemaIdentity := ⟨_, rfl⟩
  have hmark : Readable generatedMark := ⟨_, rfl⟩
  have htrait : Sound (schemaPath root ["JsonSchema"]) := sound_schemaPath hroot (by decide)
  exact ⟨signature, table, texts, .mono (fun _ h => h.append_left hmark)
    (within_implementation (readable_printedHead hd.2.1) htrait (IsWord.isLeaf hd.1)
      (readable_printedArguments hd.2.1) (readable_clause (sound_boundClause hd htrait hclause))
      ((Shows.of_trees hmethod).append_left
        ((hname.readable (by decide) .nil hnameBody).append hidentity))), htable, htexts⟩

end Places

end FlatUnion.Derive
