import FlatUnion.Type.Visit

/-!
# Variants of enums

The readers of enums, one for each way in which the variant is told. A variant's content has one
of four forms, and a reader for each (`VariantReader`), of which the one of its form is used.

Where the variant is told by a field, the content is set aside until the variant is known, and
then read from the content that was kept. The external form needs nothing to be kept.
-/

namespace FlatUnion

variable {σ : Type}

/-- How a variant of an enum is read from one kind of source. -/
structure VariantReader (σ : Type) where
  name : String
  form : Form
  read : σ → Except Fault Datum
  items : List (σ → Except Fault Datum)
  fields : List (FieldReader σ)
  /-- Whether a missing content is an empty option. -/
  optional : Bool

/-- The fields of a struct variant as they are written. -/
def VariantReader.written (r : VariantReader σ) (values : List Datum) :
    List (String × Option Datum) :=
  List.zipWith Field.written (r.fields.map (·.field)) values

/-- The content of a variant as it was read. -/
inductive VariantContent
  | unit
  | newtype (d : Datum)
  | tuple (ds : List Datum)
  | struct (fields : List (String × Option Datum))

namespace Visit

/-! ## The external form -/

/-- The content of a variant in the external form, or none if there is a bare name. -/
def externalContent [Source σ] (enum : String) (r : VariantReader σ) :
    Option σ → Except Fault VariantContent
  | none =>
    match r.form with
    | .unit => .ok .unit
    | .newtype => .error (.invalidType .unitVariant "newtype variant")
    | .tuple => .error (.invalidType .unitVariant "tuple variant")
    | .struct => .error (.invalidType .unitVariant "struct variant")
  | some s =>
    match r.form with
    | .unit => do
      let _ ← consult .unit s unit
      return .unit
    | .newtype => do return .newtype (← r.read s)
    | .tuple => do
      let what := "tuple variant " ++ enum ++ "::" ++ r.name
      return .tuple (← consult .tupleVariant s
        (items what (what ++ " with " ++ countElements r.items.length) r.items))
    | .struct => do
      return .struct (r.written (← consult .structVariant s
        (struct ("struct variant " ++ enum ++ "::" ++ r.name) false r.fields)))

/-- An enum in the external form. -/
def externalEnum [Source σ] (enum : String) (readers : List (VariantReader σ)) :
    Call σ → Outcome Datum
  | .enum v content => .plain do
    let i ← consult .identifier v (variant (readers.map (·.name)))
    let r ← pick readers i
    let name : VariantName := ⟨enum, i, r.name⟩
    match ← externalContent enum r content with
    | .unit => return .unitVariant name
    | .newtype d => return .newtypeVariant name d
    | .tuple ds => return .tupleVariant name ds
    | .struct fields => return .structVariant name fields
  | c => refuse ("enum " ++ enum) c

/-- A success or a failure. -/
def resultEnum [Source σ] (readOk readError : σ → Except Fault Datum) : Call σ → Outcome Datum
  | .enum v content => .plain do
    let i ← consult .identifier v outcome
    match content with
    | none => .error (.invalidType .unitVariant "newtype variant")
    | some s =>
      if i = 0 then return .newtypeVariant ⟨"Result", 0, "Ok"⟩ (← readOk s)
      else return .newtypeVariant ⟨"Result", 1, "Err"⟩ (← readError s)
  | c => refuse "enum Result" c

/-! ## Content on its own -/

/-- The content of a unit variant that stands on its own. -/
def bareUnit (enum name : String) : Call σ → Outcome VariantContent
  | .unit | .none => .plain (.ok .unit)
  | c => refuse ("unit variant " ++ enum ++ "::" ++ name) c

/-- The content of a variant that stands on its own, the variant being known. -/
def bareContent [Source σ] (enum : String) (r : VariantReader σ) (s : σ) :
    Except Fault VariantContent :=
  match r.form with
  | .unit => consult .any s (bareUnit enum r.name)
  | .newtype => do return .newtype (← r.read s)
  | .tuple => do
    let what := "tuple variant " ++ enum ++ "::" ++ r.name
    return .tuple (← consult .any s
      (items what (what ++ " with " ++ countElements r.items.length) r.items))
  | .struct => do
    return .struct (r.written (← consult .any s
      (struct ("struct variant " ++ enum ++ "::" ++ r.name) false r.fields)))

/-- A content as it is written where its variant is not told, or told beside it. -/
def bareDatum (name : String) : VariantContent → Datum
  | .unit => .unit
  | .newtype d => d
  | .tuple ds => .tuple ds
  | .struct fields => .struct name fields

/-- The first of the variants that the content can be read as. -/
def untaggedEnum (enum : String) (readers : List (VariantReader Exacting)) (c : Snapshot) :
    Except Fault Datum :=
  match readers with
  | [] => .error (.custom ("data did not match any variant of untagged enum " ++ enum))
  | r :: rest =>
    match bareContent enum r ⟨c⟩ with
    | .ok content => .ok (bareDatum r.name content)
    | .error _ => untaggedEnum enum rest c

/-! ## The internal form -/

/-- Whether a key is the tag. -/
def isTag (tag : String) : Offer → Bool
  | .scalar (.text _ s) => s = tag
  | .scalar (.bytes _ bs) => utf8Bytes tag = bs
  | _ => false

/-- Sets a key aside that is not the tag. -/
def setAsideKey (tag : String) : Offer → Except Fault Snapshot
  | .scalar (.int w n) =>
    if w.isWide then
      .error (.invalidType (Scalar.int w n).unexpected
        ("a type tag `" ++ tag ++ "` or any other value"))
    else .ok (.int w n)
  | offer => Snapshot.ofOffer offer.settable

/-- Divides the entries of a map into the tag, which must stand there once, and the content. -/
def taggedEntries [Source σ] (tag : String) (readTag : σ → Except Fault Nat) :
    (done : Nat) → Option Nat → List (Snapshot × Snapshot) → List (σ × σ) →
    Outcome (Nat × Snapshot)
  | done, none, _, [] => ⟨{ whole := done }, .error (.missingField tag)⟩
  | done, some i, rest, [] => ⟨{ whole := done }, .ok (i, .map rest)⟩
  | done, found, left, (k, v) :: rest =>
    if isTag tag (Source.offer k) then
      match found with
      | some _ => ⟨{ whole := done, keyTaken := true }, .error (.duplicateField tag)⟩
      | none =>
        match readTag v with
        | .error f => ⟨{ whole := done + 1 }, .error f⟩
        | .ok i => taggedEntries tag readTag (done + 1) (some i) left rest
    else
      match setAsideKey tag (Source.offer k) with
      | .error f => ⟨{ whole := done, keyTaken := true }, .error f⟩
      | .ok key =>
        match setAside v with
        | .error f => ⟨{ whole := done + 1 }, .error f⟩
        | .ok value => taggedEntries tag readTag (done + 1) found (left ++ [(key, value)]) rest

/-- The tag and the content of an enum in the internal form. In a sequence the tag is the first
element. -/
def tagged [Source σ] (enum tag : String) (readTag : σ → Except Fault Nat) :
    Call σ → Outcome (Nat × Snapshot)
  | .map entries _ => taggedEntries tag readTag 0 none [] entries
  | .seq [] _ => ⟨{}, .error (.missingField tag)⟩
  | .seq (s :: rest) _ =>
    match readTag s with
    | .error f => ⟨{ whole := 1 }, .error f⟩
    | .ok i => (readItems setAside none 1 rest).map fun cs => (i, .seq cs)
  | c => refuse ("internally tagged enum " ++ enum) c

/-- A unit variant in the internal form takes whatever stands beside the tag. -/
def taggedUnit (enum name : String) : Call Exacting → Outcome VariantContent
  | .map entries _ => ⟨{ whole := entries.length }, .ok .unit⟩
  | .seq items _ => ⟨{ whole := items.length }, .ok .unit⟩
  | c => refuse ("unit variant " ++ enum ++ "::" ++ name) c

/-- The content of a variant in the internal form. -/
def taggedContent (enum : String) (r : VariantReader Exacting) (c : Snapshot) :
    Except Fault VariantContent :=
  match r.form with
  | .unit => consult .any (⟨c⟩ : Exacting) (taggedUnit enum r.name)
  | _ => bareContent enum r ⟨c⟩

/-- A content as it is written behind its tag. -/
def taggedDatum (enum tag name : String) : VariantContent → Datum
  | .unit => .struct enum [(tag, some (.text name))]
  | .struct fields => .struct enum ((tag, some (.text name)) :: fields)
  | .newtype (.struct inner fields) => .struct inner ((tag, some (.text name)) :: fields)
  | .newtype (.map items) => .map (.entry (.text tag) (.text name) :: items)
  | _ => .fail (.custom ("cannot serialize tagged newtype variant " ++ enum ++ "::" ++ name))

/-- An enum in the internal form. -/
def internalEnum [Source σ] (enum tag : String) (readers : List (VariantReader Exacting)) (s : σ) :
    Except Fault Datum := do
  let readTag := fun v => consult .identifier v (variant (readers.map (·.name)))
  let (i, c) ← consult .any s (tagged enum tag readTag)
  let r ← pick readers i
  return taggedDatum enum tag r.name (← taggedContent enum r c)

/-! ## The adjacent form -/

/-- A key of an enum in the adjacent form. -/
inductive AdjacentKey
  | tag
  | content
  | other

def adjacentKey (tag content : String) (c : Call σ) : Outcome AdjacentKey :=
  match name? c with
  | none =>
    refuse (quoted tag ++ ", " ++ quoted content ++ ", or other ignored fields") c
  | some n =>
    match n.find? [[tag], [content]] with
    | some 0 => .plain (.ok .tag)
    | some _ => .plain (.ok .content)
    | none => .plain (.ok .other)

/-- The tag of an enum in the adjacent form, which is a bare variant. -/
def adjacentTag [Source σ] (enum : String) (names : List String) : Call σ → Outcome Nat
  | .enum v content => .plain do
    let i ← consult .identifier v (variant names)
    match content with
    | none => return i
    | some s =>
      let _ ← consult .unit s unit
      return i
  | c => refuse ("variant of enum " ++ enum) c

/-- What has been found of an enum in the adjacent form. -/
inductive Adjacent
  | nothing
  | tag (i : Nat)
  | content (c : Snapshot)
  | both (i : Nat) (content : VariantContent)

/-- The content of a variant that has no entry for it. -/
def withoutContent (content : String) (r : VariantReader σ) : Except Fault VariantContent :=
  match r.form with
  | .unit => .ok .unit
  | .newtype => if r.optional then .ok (.newtype .none) else .error (.missingField content)
  | _ => .error (.missingField content)

/-- Finds the tag and the content among the entries of a map, in either order. -/
def adjacentEntries [Source σ] (enum tag content : String) (readers : List (VariantReader σ))
    (kept : List (VariantReader Exacting)) : (done : Nat) → Adjacent → List (σ × σ) →
    Outcome (Nat × VariantContent)
  | done, found, [] =>
    ⟨{ whole := done },
      match found with
      | .nothing | .content _ => .error (.missingField tag)
      | .tag i => do return (i, ← withoutContent content (← pick readers i))
      | .both i c => .ok (i, c)⟩
  | done, found, (k, v) :: rest =>
    let readTag := fun v => consult .enum v (adjacentTag enum (readers.map (·.name)))
    let go := fun (found : Except Fault Adjacent) =>
      match found with
      | .error f => ⟨{ whole := done + 1 }, .error f⟩
      | .ok found => adjacentEntries enum tag content readers kept (done + 1) found rest
    match consult .identifier k (adjacentKey tag content) with
    | .error f => ⟨{ whole := done, keyTaken := true }, .error f⟩
    | .ok .other => go ((Source.skip v).map fun _ => found)
    | .ok .tag =>
      match found with
      | .tag _ | .both .. => ⟨{ whole := done, keyTaken := true }, .error (.duplicateField tag)⟩
      | .nothing => go ((readTag v).map .tag)
      | .content c =>
        go do
          let i ← readTag v
          let r ← pick kept i
          return .both i (← bareContent enum r ⟨c⟩)
    | .ok .content =>
      match found with
      | .content _ | .both .. =>
        ⟨{ whole := done, keyTaken := true }, .error (.duplicateField content)⟩
      | .nothing => go ((setAside v).map .content)
      | .tag i =>
        go do
          let r ← pick readers i
          return .both i (← bareContent enum r v)

/-- An enum in the adjacent form. In a sequence the tag comes first and the content second. -/
def adjacentEnum [Source σ] (enum tag content : String) (readers : List (VariantReader σ))
    (kept : List (VariantReader Exacting)) : Call σ → Outcome (Nat × VariantContent)
  | .map entries _ => adjacentEntries enum tag content readers kept 0 .nothing entries
  | .seq items _ =>
    let what := "adjacently tagged enum " ++ enum
    match items with
    | [] => ⟨{}, .error (.invalidLength 0 what)⟩
    | s :: rest =>
      match consult .enum s (adjacentTag enum (readers.map (·.name))), rest with
      | .error f, _ => ⟨{ whole := 1 }, .error f⟩
      | .ok _, [] => ⟨{ whole := 1 }, .error (.invalidLength 1 what)⟩
      | .ok i, s :: _ =>
        ⟨{ whole := 2 }, do return (i, ← bareContent enum (← pick readers i) s)⟩
  | c => refuse ("adjacently tagged enum " ++ enum) c

/-- A variant as it is written with its content beside it. -/
def adjacentDatum (tag content : String) (variant : VariantName) : VariantContent → Datum
  | .unit => .struct variant.enum [(tag, some (.unitVariant variant))]
  | c =>
    .struct variant.enum
      [(tag, some (.unitVariant variant)), (content, some (bareDatum variant.name c))]

end Visit

end FlatUnion
