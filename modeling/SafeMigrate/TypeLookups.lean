import SafeMigrate.WrittenTypes

/-! The lookup of a written type: how it is spelled, the built-ins of the system
catalog, and search paths that are known in part. -/

namespace SafeMigrate

open TypeReference

namespace AnalysisState

variable (s : AnalysisState)

/-- A present type, or the row type of a present relation. -/
def holdsType (id : ObjectId) : Bool := s.typeIsPresent id || s.relationIsPresent id

/-- The schema of a path entry, if it holds the name. -/
def holdingSchema (name : String) (entry : SearchPathEntry) : Option String :=
  entry.searchedSchema.filter fun schema => s.holdsType ⟨schema, name⟩

/-- The schema in which a type of the name is found. -/
def typeSchema (schema : Option String) (name : String) : Option String :=
  match schema with
  | some schema => if s.holdsType ⟨schema, name⟩ then some schema else none
  | none => s.relationSearchPath.findSome? (s.holdingSchema name)

/-- The type, or its array type. -/
def typeIdentity (isArray : Bool) (name schema : String) : ObjectId :=
  ⟨schema, if isArray then name ++ "[]" else name⟩

/-- `resolve_type_reference` on a text, as it is parsed. -/
def resolveTypeText (letters : LetterCase) (text : SqlText) (raw : String) : Option ObjectId :=
  s.resolveTypeReference { text with parseTypeReference := parse letters } raw

/-- The schemas that the path names behind the first one of that name. -/
def listedAfter (path : List SearchPathEntry) (schema later : String) : Bool :=
  ((path.dropWhile fun entry => entry.searchedSchema != some schema).drop 1).any fun entry =>
    entry.searchedSchema == some later

variable {s} {letters : LetterCase} {text : SqlText}

theorem resolveTypeText_eq (raw : String) : s.resolveTypeText letters text raw =
    (parse letters raw).bind fun read =>
      (s.typeSchema read.1 read.2.1).map (typeIdentity read.2.2 read.2.1) := by
  unfold resolveTypeText resolveTypeReference
  show (parse letters raw).bind _ = _
  refine congrArg (Option.bind _) (funext fun read => ?_)
  obtain ⟨schema, name, isArray⟩ := read
  have hidentity (schema : String) : (if isArray = true then (⟨schema, name ++ "[]"⟩ : ObjectId)
      else ⟨schema, name⟩) = typeIdentity isArray name schema := by
    cases isArray <;> rfl
  cases schema with
  | some schema =>
    unfold typeSchema
    simp only [hidentity]
    by_cases hholds : s.holdsType ⟨schema, name⟩ = true
    · have hfound : (s.typeIsPresent ⟨schema, name⟩ || s.relationIsPresent ⟨schema, name⟩) = true :=
        hholds
      rw [if_pos hholds, if_pos hfound, Option.map_some]
    · have hfound : ¬(s.typeIsPresent ⟨schema, name⟩ || s.relationIsPresent ⟨schema, name⟩) = true :=
        hholds
      rw [if_neg hholds, if_neg hfound, Option.map_none]
  | none =>
    unfold typeSchema
    rw [List.map_findSome?]
    refine congrArg (List.findSome? · _) (funext fun entry => ?_)
    cases entry with
    | unresolved other => rfl
    | schema other =>
      simp only [hidentity]
      by_cases hholds : s.holdsType ⟨other, name⟩ = true
      · have hfound : (s.typeIsPresent ⟨other, name⟩ || s.relationIsPresent ⟨other, name⟩) = true :=
          hholds
        refine (if_pos hfound).trans ?_
        simp [holdingSchema, SearchPathEntry.searchedSchema, Option.filter, hholds]
      · have hfound : ¬(s.typeIsPresent ⟨other, name⟩ || s.relationIsPresent ⟨other, name⟩) = true :=
          hholds
        refine (if_neg hfound).trans ?_
        simp [holdingSchema, SearchPathEntry.searchedSchema, Option.filter, hholds]

end AnalysisState

/-- A walk that is not shadowed: no entry before the first hit is unresolved. -/
theorem resolveEntries_eq_some_iff {α : Type} {lookup : String → Option α}
    {path : List SearchPathEntry} {x : α}
    (hfound : (path.findSome? fun entry => entry.searchedSchema.bind lookup) = some x) :
    resolveEntries lookup false path = some x ↔
      (path.takeWhile fun entry => (entry.searchedSchema.bind lookup).isNone).all
        (·.searchedSchema.isSome) = true := by
  induction path with
  | nil => cases hfound
  | cons entry path ih =>
    cases entry with
    | unresolved name =>
      rw [resolveEntries, resolveEntries_shadowed, List.takeWhile_cons_of_pos rfl, List.all_cons]
      simp [SearchPathEntry.searchedSchema]
    | schema schema =>
      have hentry : (SearchPathEntry.schema schema).searchedSchema.bind lookup = lookup schema := rfl
      rw [List.findSome?_cons, hentry] at hfound
      rw [resolveEntries]
      cases hschema : lookup schema with
      | some found =>
        rw [hschema] at hfound
        rw [List.takeWhile_cons_of_neg (by simp [hentry, hschema])]
        simpa using hfound
      | none =>
        rw [hschema] at hfound
        rw [List.takeWhile_cons_of_pos (by simp [hentry, hschema]), List.all_cons]
        simpa [SearchPathEntry.searchedSchema] using ih hfound

/-- Every completion finds what the walk finds exactly if the three-valued
resolution does. -/
theorem completions_iff {α : Type} [Nontrivial α] {lookup : String → Option α}
    {path : List SearchPathEntry} {x : α}
    (hfound : (path.findSome? fun entry => entry.searchedSchema.bind lookup) = some x) :
    (∀ completed, Completes standsUnresolved lookup path completed →
        firstMatch lookup completed = some x) ↔ resolveUnqualified lookup path = some x := by
  obtain ⟨hsound, hunsure⟩ := resolveUnqualified_sound lookup path
  constructor
  · intro hall
    cases hresolved : resolveUnqualified lookup path with
    | some y =>
      obtain ⟨completed, hcompletes⟩ := @exists_completes _ standsUnresolved lookup path
      rw [← hall completed hcompletes, hsound y hresolved completed hcompletes]
    | none =>
      obtain ⟨entry, hentry, hlookup⟩ := List.exists_of_findSome?_eq_some hfound
      obtain ⟨schema, hschema, hx⟩ := Option.bind_eq_some_iff.mp hlookup
      have hmem : .schema schema ∈ path := by
        cases entry with
        | schema other => exact Option.some.inj hschema ▸ hentry
        | unresolved other => cases hschema
      obtain ⟨y, hy⟩ := exists_ne x
      obtain ⟨completed, hcompletes, hmatch⟩ := hunsure hresolved schema x hmem hx y
      rw [hall completed hcompletes] at hmatch
      exact absurd (Option.some.inj hmatch).symm hy
  · exact fun hresolved => hsound x hresolved

theorem resolveUnqualified_eq_some_iff {α : Type} {lookup : String → Option α}
    {path : List SearchPathEntry} {x : α}
    (hfound : (path.findSome? fun entry => entry.searchedSchema.bind lookup) = some x) :
    resolveUnqualified lookup path = some x ↔
      if namesSystemCatalog path = true ∨ lookup systemCatalogSchema = none then
        (path.takeWhile fun entry => (entry.searchedSchema.bind lookup).isNone).all
          (·.searchedSchema.isSome) = true
      else lookup systemCatalogSchema = some x := by
  unfold resolveUnqualified
  by_cases hnamed : namesSystemCatalog path = true
  · rw [if_pos hnamed, if_pos (Or.inl hnamed)]
    exact resolveEntries_eq_some_iff hfound
  · rw [if_neg hnamed]
    cases hcatalog : lookup systemCatalogSchema with
    | some found => simp [hnamed]
    | none =>
      rw [if_pos (Or.inr rfl)]
      exact resolveEntries_eq_some_iff hfound

namespace WrittenType

variable (s : AnalysisState) (letters : LetterCase) (text : SqlText) (builtin : String → Bool)
  (w : WrittenType)

open AnalysisState

/-- What a schema holds for the name that was written. -/
def heldIdentity (schema : String) : Option ObjectId :=
  if s.holdsType ⟨schema, w.typeName letters⟩ then
    some (typeIdentity w.isArray (w.typeName letters) schema)
  else none

/-- A written type stands for the type of its name: however it is spelled, never
for a user type in place of a built-in, and whatever the unresolved entries are. -/
structure ReadsSoundly : Prop where
  spelling : s.resolveTypeText letters text w.text =
    (s.resolveTypeText letters text (w.bareText letters)).map fun id =>
      if w.isArray then arrayTypeId id else id
  builtins : w.schema = none → builtin (w.typeName letters) = true →
    ∀ id, s.resolveTypeText letters text w.text = some id → id.schema ≠ systemCatalogSchema →
      listedAfter s.relationSearchPath id.schema systemCatalogSchema = true
  lookups : w.schema = none → ∀ id, s.resolveTypeText letters text w.text = some id →
    resolveUnqualified (w.heldIdentity s letters) s.relationSearchPath = some id ∧
      ∀ completed, Completes standsUnresolved (w.heldIdentity s letters) s.relationSearchPath
        completed → firstMatch (w.heldIdentity s letters) completed = some id

/-- The spelling is plain, or comes to the same. -/
def SpellingClear : Prop :=
  w.isPlain = true ∨
    (s.typeSchema (w.schemaName letters) (w.typeName letters) = none ∧
      ∀ read, parse letters w.text = some read → s.typeSchema read.1 read.2.1 = none) ∨
    (w.isArray = true ∧
      parse letters w.text = some (w.schemaName letters, w.typeName letters ++ "[]", false) ∧
      s.typeSchema (w.schemaName letters) (w.typeName letters ++ "[]") =
        s.typeSchema (w.schemaName letters) (w.typeName letters))

/-- No user type of a built-in's name is met on the path before the catalog. -/
def BuiltinsClear : Prop :=
  w.schema = none → builtin (w.typeName letters) = true →
    ∀ schema, s.typeSchema none (w.typeName letters) = some schema →
      schema ≠ systemCatalogSchema →
        listedAfter s.relationSearchPath schema systemCatalogSchema = true

/-- Where the name is found, no unresolved entry stands before it, and the catalog
holds no such name ahead of the path. -/
def PathClear : Prop :=
  w.schema = none → (s.typeSchema none (w.typeName letters)).isSome = true →
    (s.relationSearchPath.takeWhile fun entry =>
      (s.holdingSchema (w.typeName letters) entry).isNone).all (·.searchedSchema.isSome) = true ∧
    (namesSystemCatalog s.relationSearchPath = true ∨
      s.holdsType ⟨systemCatalogSchema, w.typeName letters⟩ = false)

end WrittenType

instance : Nontrivial ObjectId := ⟨⟨⟨"", ""⟩, ⟨"public", ""⟩, by decide⟩⟩

namespace AnalysisState

variable {s : AnalysisState} {letters : LetterCase} {text : SqlText} {w : WrittenType}

open WrittenType

theorem resolveTypeText_bareText : s.resolveTypeText letters text (w.bareText letters) =
    (s.typeSchema (w.schemaName letters) (w.typeName letters)).map
      (typeIdentity false (w.typeName letters)) := by
  rw [resolveTypeText_eq, parse_bareText]
  rfl

/-- The identity that the name and the brackets ask for. -/
theorem bareText_identity : ((s.resolveTypeText letters text (w.bareText letters)).map fun id =>
      if w.isArray then arrayTypeId id else id) =
    (s.typeSchema (w.schemaName letters) (w.typeName letters)).map
      (typeIdentity w.isArray (w.typeName letters)) := by
  rw [resolveTypeText_bareText, Option.map_map]
  refine congrArg (Option.map · _) (funext fun schema => ?_)
  cases w.isArray <;> rfl

theorem spelling_iff : s.resolveTypeText letters text w.text =
      (s.typeSchema (w.schemaName letters) (w.typeName letters)).map
        (typeIdentity w.isArray (w.typeName letters)) ↔ w.SpellingClear s letters := by
  unfold SpellingClear
  cases hplain : w.isPlain with
  | true =>
    refine iff_of_true ?_ (Or.inl rfl)
    rw [resolveTypeText_eq, parse_plain hplain]
    rfl
  | false =>
    obtain ⟨glued, isArray, hparse, hother, harray⟩ := @parse_glued letters _ hplain
    have hleft : s.resolveTypeText letters text w.text =
        (s.typeSchema (w.schemaName letters) glued).map (typeIdentity isArray glued) := by
      rw [resolveTypeText_eq, hparse]
      rfl
    have hread (read : Option String × String × Bool) :
        some (w.schemaName letters, glued, isArray) = some read ↔
          read = (w.schemaName letters, glued, isArray) := by
      rw [Option.some.injEq, eq_comm]
    rw [hleft, hparse]
    simp only [hread, forall_eq, Bool.false_eq_true, false_or]
    constructor
    · intro hsame
      cases hglued : s.typeSchema (w.schemaName letters) glued with
      | none =>
        rw [hglued, Option.map_none] at hsame
        exact Or.inl ⟨Option.map_eq_none_iff.mp hsame.symm, rfl⟩
      | some schema =>
        rw [hglued, Option.map_some] at hsame
        obtain ⟨schema', hname, hidentity⟩ := Option.map_eq_some_iff.mp hsame.symm
        obtain ⟨rfl, hnames⟩ := ObjectId.mk.inj hidentity
        refine Or.inr ?_
        cases isArray with
        | true =>
          rw [harray rfl] at hnames
          have hequal : w.typeName letters = glued := (String.append_left_inj "[]").mp hnames
          exact absurd hequal.symm hother
        | false =>
          cases hbrackets : w.isArray with
          | false =>
            rw [hbrackets] at hnames
            exact absurd hnames.symm hother
          | true =>
            rw [hbrackets] at hnames
            have hbracketed : glued = w.typeName letters ++ "[]" := hnames.symm
            rw [← hbracketed, hglued, hname]
            exact ⟨rfl, rfl, rfl⟩
    · rintro (⟨hname, hglued⟩ | ⟨hbrackets, hnames, hschemas⟩)
      · rw [hname, hglued, Option.map_none, Option.map_none]
      · cases hnames
        rw [hschemas, hbrackets]
        rfl

theorem heldIdentity_path (name : String) (entry : SearchPathEntry) (hname : w.typeName letters = name) :
    entry.searchedSchema.bind (w.heldIdentity s letters) =
      (s.holdingSchema name entry).map (typeIdentity w.isArray name) := by
  subst hname
  cases entry with
  | unresolved other => rfl
  | schema other =>
    by_cases hholds : s.holdsType ⟨other, w.typeName letters⟩ = true
    · simp [heldIdentity, holdingSchema, SearchPathEntry.searchedSchema, Option.filter, hholds]
    · simp [heldIdentity, holdingSchema, SearchPathEntry.searchedSchema, Option.filter, hholds]

/-- The first hit on the path, as the walks of the path see it. -/
theorem findSome?_heldIdentity : (s.relationSearchPath.findSome? fun entry =>
      entry.searchedSchema.bind (w.heldIdentity s letters)) =
    (s.typeSchema none (w.typeName letters)).map (typeIdentity w.isArray (w.typeName letters)) := by
  unfold typeSchema
  rw [List.map_findSome?]
  exact congrArg (List.findSome? · _) (funext fun entry => heldIdentity_path _ entry rfl)

theorem mem_path_of_typeSchema {name schema : String} (h : s.typeSchema none name = some schema) :
    .schema schema ∈ s.relationSearchPath := by
  obtain ⟨entry, hentry, hheld⟩ := List.exists_of_findSome?_eq_some h
  unfold holdingSchema at hheld
  rw [Option.filter_eq_some_iff] at hheld
  cases entry with
  | unresolved other => cases hheld.1
  | schema other => exact Option.some.inj hheld.1 ▸ hentry

theorem resolveUnqualified_iff {schema : String}
    (hfound : s.typeSchema none (w.typeName letters) = some schema) :
    resolveUnqualified (w.heldIdentity s letters) s.relationSearchPath =
        some (typeIdentity w.isArray (w.typeName letters) schema) ↔
      (s.relationSearchPath.takeWhile fun entry =>
        (s.holdingSchema (w.typeName letters) entry).isNone).all (·.searchedSchema.isSome) = true ∧
      (namesSystemCatalog s.relationSearchPath = true ∨
        s.holdsType ⟨systemCatalogSchema, w.typeName letters⟩ = false) := by
  have hwalk : (s.relationSearchPath.findSome? fun entry =>
      entry.searchedSchema.bind (w.heldIdentity s letters)) =
        some (typeIdentity w.isArray (w.typeName letters) schema) := by
    rw [findSome?_heldIdentity, hfound, Option.map_some]
  have hnone (entry : SearchPathEntry) : (entry.searchedSchema.bind (w.heldIdentity s letters)).isNone =
      (s.holdingSchema (w.typeName letters) entry).isNone := by
    rw [heldIdentity_path _ entry rfl, Option.isNone_map]
  have hcatalog : w.heldIdentity s letters systemCatalogSchema = none ↔
      s.holdsType ⟨systemCatalogSchema, w.typeName letters⟩ = false := by
    unfold heldIdentity
    simp
  rw [resolveUnqualified_eq_some_iff hwalk]
  simp only [hnone, hcatalog]
  split
  · rename_i hclear
    simp [hclear]
  · rename_i hshadowed
    -- the catalog holds the name, and the path has found it elsewhere
    refine iff_of_false (fun hsame => ?_) fun h => hshadowed h.2
    unfold heldIdentity at hsame
    split at hsame
    · have hschema : systemCatalogSchema = schema :=
        congrArg ObjectId.schema (Option.some.inj hsame)
      refine hshadowed (Or.inl (List.any_eq_true.mpr ⟨_, mem_path_of_typeSchema hfound, ?_⟩))
      rw [← hschema]
      decide
    · cases hsame

end AnalysisState

namespace WrittenType

open AnalysisState

/-- A written type is looked up soundly exactly if its spelling is clear, no user type
stands for a built-in, and nothing unknown is passed on the path. -/
theorem readsSoundly_iff (s : AnalysisState) (letters : LetterCase) (text : SqlText)
    (builtin : String → Bool) (w : WrittenType) :
    w.ReadsSoundly s letters text builtin ↔
      w.SpellingClear s letters ∧ w.BuiltinsClear s letters builtin ∧ w.PathClear s letters := by
  have hspelling : s.resolveTypeText letters text w.text =
      ((s.resolveTypeText letters text (w.bareText letters)).map fun id =>
        if w.isArray then arrayTypeId id else id) ↔ w.SpellingClear s letters := by
    rw [bareText_identity]
    exact spelling_iff
  have hunqualified (hschema : w.schema = none) : w.schemaName letters = none := by
    rw [schemaName, hschema]
    rfl
  constructor
  · intro h
    have hclear := hspelling.mp h.spelling
    have hresolved : s.resolveTypeText letters text w.text = _ := spelling_iff.mpr hclear
    refine ⟨hclear, fun hschema hbuiltin schema hfound => ?_, fun hschema hfound => ?_⟩
    · refine h.builtins hschema hbuiltin (typeIdentity w.isArray (w.typeName letters) schema) ?_
      rw [hresolved, hunqualified hschema, hfound, Option.map_some]
    · obtain ⟨schema, hfound⟩ := Option.isSome_iff_exists.mp hfound
      refine (resolveUnqualified_iff hfound).mp (h.lookups hschema _ ?_).1
      rw [hresolved, hunqualified hschema, hfound, Option.map_some]
  · rintro ⟨hclear, hbuiltins, hpath⟩
    have hresolved : s.resolveTypeText letters text w.text = _ := spelling_iff.mpr hclear
    have hfound {id : ObjectId} (hschema : w.schema = none)
        (hid : s.resolveTypeText letters text w.text = some id) :
        ∃ schema, s.typeSchema none (w.typeName letters) = some schema ∧
          typeIdentity w.isArray (w.typeName letters) schema = id := by
      rw [hresolved, hunqualified hschema] at hid
      exact Option.map_eq_some_iff.mp hid
    refine ⟨hspelling.mpr hclear, fun hschema hbuiltin id hid hcatalog => ?_, fun hschema id hid => ?_⟩
    · obtain ⟨schema, hschemaFound, rfl⟩ := hfound hschema hid
      exact hbuiltins hschema hbuiltin schema hschemaFound hcatalog
    · obtain ⟨schema, hschemaFound, rfl⟩ := hfound hschema hid
      have hunshadowed : resolveUnqualified (w.heldIdentity s letters) s.relationSearchPath =
          some (typeIdentity w.isArray (w.typeName letters) schema) :=
        (resolveUnqualified_iff hschemaFound).mpr (hpath hschema (by rw [hschemaFound]; rfl))
      refine ⟨hunshadowed, (completions_iff ?_).mpr hunshadowed⟩
      rw [findSome?_heldIdentity, hschemaFound, Option.map_some]

end WrittenType

section Samples

open AnalysisState

def noBlanks : Blanks := ⟨[], by simp⟩

def unquoted (text : String) (h : text ≠ "")
    (hbare : ∀ c ∈ text.toList, isOrdinary c = true ∧ c ∉ ['(', ')', '[', ']']) :
    WrittenIdentifier :=
  ⟨text, false, h, fun _ => hbare⟩

/-- One user type, under a path. -/
def holdingType (name : String) (path : List SearchPathEntry) : AnalysisState :=
  { types := AList.singleton ⟨"public", name⟩
      (.present ⟨⟨"public", name⟩, 0, ⟨"", "app"⟩, .enum []⟩)
    searchPath := path }

/-- `geometry(Point,4326)` -/
def pointGeometry : WrittenType :=
  { before := noBlanks, schema := none, name := unquoted "geometry" (by decide) (by simp [isOrdinary, isWhitespace])
    suffixes := [(noBlanks, ⟨false, "Point,4326", by simp⟩)], after := noBlanks }

def writtenInt4 : WrittenType :=
  { before := noBlanks, schema := none, name := unquoted "int4" (by decide) (by simp [isOrdinary, isWhitespace])
    suffixes := [], after := noBlanks }

def writtenMood : WrittenType :=
  { before := noBlanks, schema := none, name := unquoted "mood" (by decide) (by simp [isOrdinary, isWhitespace])
    suffixes := [], after := noBlanks }

/-- A modifier hides a type, a user type is taken for a built-in, and an entry that
may hold anything is passed over. -/
theorem readsUnsoundly :
    ¬pointGeometry.ReadsSoundly (holdingType "geometry" [.schema "public"]) asciiLetters textless
        (· == "int4") ∧
    ¬writtenInt4.ReadsSoundly (holdingType "int4" [.schema "public"]) asciiLetters textless
        (· == "int4") ∧
    ¬writtenMood.ReadsSoundly (holdingType "mood" [.unresolved none, .schema "public"]) asciiLetters
        textless (· == "int4") := by
  refine ⟨fun h => ?_, fun h => ?_, fun h => ?_⟩
  · have hspelling := h.spelling
    revert hspelling
    decide +kernel
  · have hlisted := h.builtins rfl (by decide) ⟨"public", "int4"⟩ (by decide +kernel) (by decide)
    revert hlisted
    decide +kernel
  · have hlookup := (h.lookups rfl ⟨"public", "mood"⟩ (by decide +kernel)).1
    revert hlookup
    decide +kernel

end Samples

end SafeMigrate
