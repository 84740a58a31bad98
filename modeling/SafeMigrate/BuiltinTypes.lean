import SafeMigrate.DataTypes
import Mathlib.Data.List.Forall2
import Mathlib.Data.String.Basic

/-! The built-in types that are always there, and the names that reach them. -/

namespace SafeMigrate

/-- The snapshot that stands in for a server's catalogue, in the order of the names. -/
def fallbackTypes : List BuiltinType :=
    [⟨"aclitem", "aclitem", .user, some 128⟩, ⟨"bit", "bit", .bitString, none⟩,
      ⟨"bool", "boolean", .boolean, some 8⟩, ⟨"box", "box", .geometric, some 256⟩,
      ⟨"bpchar", "character", .string, none⟩, ⟨"bytea", "bytea", .user, none⟩,
      ⟨"char", "\"char\"", .internal, some 8⟩, ⟨"cid", "cid", .user, some 32⟩,
      ⟨"cidr", "cidr", .network, none⟩, ⟨"circle", "circle", .geometric, some 192⟩,
      ⟨"date", "date", .dateTime, some 32⟩, ⟨"datemultirange", "datemultirange", .range, none⟩,
      ⟨"daterange", "daterange", .range, none⟩, ⟨"float4", "real", .numeric, some 32⟩,
      ⟨"float8", "double precision", .numeric, some 64⟩, ⟨"gtsvector", "gtsvector", .user, none⟩,
      ⟨"inet", "inet", .network, none⟩, ⟨"int2", "smallint", .numeric, some 16⟩,
      ⟨"int4", "integer", .numeric, some 32⟩, ⟨"int4multirange", "int4multirange", .range, none⟩,
      ⟨"int4range", "int4range", .range, none⟩, ⟨"int8", "bigint", .numeric, some 64⟩,
      ⟨"int8multirange", "int8multirange", .range, none⟩, ⟨"int8range", "int8range", .range, none⟩,
      ⟨"interval", "interval", .timespan, some 128⟩, ⟨"json", "json", .user, none⟩,
      ⟨"jsonb", "jsonb", .user, none⟩, ⟨"jsonpath", "jsonpath", .user, none⟩,
      ⟨"line", "line", .geometric, some 192⟩, ⟨"lseg", "lseg", .geometric, some 256⟩,
      ⟨"macaddr", "macaddr", .user, some 48⟩, ⟨"macaddr8", "macaddr8", .user, some 64⟩,
      ⟨"money", "money", .numeric, some 64⟩, ⟨"name", "name", .string, some 512⟩,
      ⟨"numeric", "numeric", .numeric, none⟩, ⟨"nummultirange", "nummultirange", .range, none⟩,
      ⟨"numrange", "numrange", .range, none⟩, ⟨"oid", "oid", .numeric, some 32⟩,
      ⟨"path", "path", .geometric, none⟩,
      ⟨"pg_brin_bloom_summary", "pg_brin_bloom_summary", .internal, none⟩,
      ⟨"pg_brin_minmax_multi_summary", "pg_brin_minmax_multi_summary", .internal, none⟩,
      ⟨"pg_dependencies", "pg_dependencies", .internal, none⟩,
      ⟨"pg_lsn", "pg_lsn", .user, some 64⟩, ⟨"pg_mcv_list", "pg_mcv_list", .internal, none⟩,
      ⟨"pg_ndistinct", "pg_ndistinct", .internal, none⟩,
      ⟨"pg_node_tree", "pg_node_tree", .internal, none⟩,
      ⟨"pg_snapshot", "pg_snapshot", .user, none⟩, ⟨"point", "point", .geometric, some 128⟩,
      ⟨"polygon", "polygon", .geometric, none⟩, ⟨"refcursor", "refcursor", .user, none⟩,
      ⟨"regclass", "regclass", .numeric, some 32⟩,
      ⟨"regcollation", "regcollation", .numeric, some 32⟩,
      ⟨"regconfig", "regconfig", .numeric, some 32⟩,
      ⟨"regdictionary", "regdictionary", .numeric, some 32⟩,
      ⟨"regnamespace", "regnamespace", .numeric, some 32⟩,
      ⟨"regoper", "regoper", .numeric, some 32⟩, ⟨"regoperator", "regoperator", .numeric, some 32⟩,
      ⟨"regproc", "regproc", .numeric, some 32⟩,
      ⟨"regprocedure", "regprocedure", .numeric, some 32⟩,
      ⟨"regrole", "regrole", .numeric, some 32⟩, ⟨"regtype", "regtype", .numeric, some 32⟩,
      ⟨"text", "text", .string, none⟩, ⟨"tid", "tid", .user, some 48⟩,
      ⟨"time", "time without time zone", .dateTime, some 64⟩,
      ⟨"timestamp", "timestamp without time zone", .dateTime, some 64⟩,
      ⟨"timestamptz", "timestamp with time zone", .dateTime, some 64⟩,
      ⟨"timetz", "time with time zone", .dateTime, some 96⟩,
      ⟨"tsmultirange", "tsmultirange", .range, none⟩, ⟨"tsquery", "tsquery", .user, none⟩,
      ⟨"tsrange", "tsrange", .range, none⟩, ⟨"tstzmultirange", "tstzmultirange", .range, none⟩,
      ⟨"tstzrange", "tstzrange", .range, none⟩, ⟨"tsvector", "tsvector", .user, none⟩,
      ⟨"txid_snapshot", "txid_snapshot", .user, none⟩, ⟨"uuid", "uuid", .user, some 128⟩,
      ⟨"varbit", "bit varying", .bitString, none⟩, ⟨"varchar", "character varying", .string, none⟩,
      ⟨"xid", "xid", .user, some 32⟩, ⟨"xid8", "xid8", .user, some 64⟩,
      ⟨"xml", "xml", .user, none⟩]

/-- Strings and their letters, on which facts about tables of names are decided. -/
def Spells (names : List String) (letters : List (List Char)) : Prop :=
  List.Forall₂ (fun name text => name = String.ofList text) names letters

section Letters

variable {names : List String} {letters : List (List Char)}

theorem Spells.mem (h : Spells names letters) {name : String} (hname : name ∈ names) :
    ∃ text ∈ letters, name = String.ofList text := by
  induction h with
  | nil => cases hname
  | cons hhead _ ih =>
    rcases List.mem_cons.mp hname with rfl | hname
    · exact ⟨_, List.mem_cons_self, hhead⟩
    · obtain ⟨text, htext, heq⟩ := ih hname
      exact ⟨text, List.mem_cons_of_mem _ htext, heq⟩

theorem Spells.eq_map (h : Spells names letters) : names = letters.map String.ofList := by
  induction h with
  | nil => rfl
  | cons hhead _ ih => rw [hhead, ih, List.map_cons]

theorem Spells.nodup (h : Spells names letters) (hsorted : letters.IsChain (· < ·)) :
    names.Nodup := by
  have hpairs : letters.Pairwise (· < ·) := List.isChain_iff_pairwise.mp hsorted
  have hnodup : letters.Nodup := hpairs.imp ne_of_lt
  rw [h.eq_map]
  exact hnodup.map fun _ _ heq => String.ofList_injective heq

end Letters

section Fallback

/-- The types whose canonical spelling is not their name. -/
def respelledTypes : List (String × String) :=
  [("bool", "boolean"), ("bpchar", "character"), ("char", "\"char\""), ("float4", "real"),
    ("float8", "double precision"), ("int2", "smallint"), ("int4", "integer"), ("int8", "bigint"),
    ("time", "time without time zone"), ("timestamp", "timestamp without time zone"),
    ("timestamptz", "timestamp with time zone"), ("timetz", "time with time zone"),
    ("varbit", "bit varying"), ("varchar", "character varying")]

theorem fallbackTypes_letters : ∃ typnames canonicals aliases : List (List Char),
    Spells (fallbackTypes.map (·.typname)) typnames ∧
    Spells (respelledTypes.map (·.2)) canonicals ∧ Spells (typeAliases.map (·.1)) aliases ∧
    typnames.IsChain (· < ·) ∧ (∀ text ∈ canonicals, text ∉ typnames) ∧ canonicals.Nodup ∧
    (∀ text ∈ typnames, text ∈ aliases → text = ['c', 'h', 'a', 'r']) := by
  apply Exists.intro
  apply Exists.intro
  apply Exists.intro
  refine ⟨?_, ?_, ?_, ?_⟩
  · simp only [fallbackTypes, List.map_cons, List.map_nil]
    repeat first | exact .nil | (apply List.Forall₂.cons; exact Eq.refl _)
  · simp only [respelledTypes, List.map_cons, List.map_nil]
    repeat first | exact .nil | (apply List.Forall₂.cons; exact Eq.refl _)
  · simp only [typeAliases, List.map_cons, List.map_nil]
    repeat first | exact .nil | (apply List.Forall₂.cons; exact Eq.refl _)
  · decide +kernel

theorem canonical_or_respelled : ∀ entry ∈ fallbackTypes, entry.canonical = entry.typname ∨
    (entry.typname, entry.canonical) ∈ respelledTypes := by
  decide +kernel

theorem respelled_mem : ∀ pair ∈ respelledTypes, ∃ entry ∈ fallbackTypes,
    entry.typname = pair.1 ∧ entry.canonical = pair.2 := by
  decide +kernel

theorem fallbackTypes_nodup : (fallbackTypes.map (·.typname)).Nodup := by
  obtain ⟨_, _, _, htypnames, -, -, hsorted, -⟩ := fallbackTypes_letters
  exact htypnames.nodup hsorted

theorem fallbackTypes_eq {a b : BuiltinType} (ha : a ∈ fallbackTypes) (hb : b ∈ fallbackTypes)
    (h : a.typname = b.typname) : a = b :=
  List.inj_on_of_nodup_map fallbackTypes_nodup ha hb h

/-- A spelling that is not the type's name is not the name of another. -/
theorem respelled_ne_typname {pair : String × String} (hpair : pair ∈ respelledTypes)
    {entry : BuiltinType} (hentry : entry ∈ fallbackTypes) : pair.2 ≠ entry.typname := by
  obtain ⟨_, _, _, htypnames, hcanonicals, -, -, happart, -⟩ := fallbackTypes_letters
  obtain ⟨text, htext, heq⟩ := hcanonicals.mem (List.mem_map_of_mem hpair)
  obtain ⟨other, hother, hname⟩ := htypnames.mem (List.mem_map_of_mem hentry)
  intro hsame
  have hletters : text = other := by
    apply String.ofList_injective
    exact heq.symm.trans (hsame.trans hname)
  exact happart text htext (hletters ▸ hother)

theorem respelled_inj {a b : String × String} (ha : a ∈ respelledTypes) (hb : b ∈ respelledTypes)
    (h : a.2 = b.2) : a = b := by
  obtain ⟨_, _, _, -, hcanonicals, -, -, -, hnodup, -⟩ := fallbackTypes_letters
  have hnames : (respelledTypes.map (·.2)).Nodup := by
    rw [hcanonicals.eq_map]
    exact hnodup.map fun _ _ heq => String.ofList_injective heq
  exact List.inj_on_of_nodup_map hnames ha hb h

/-- A spelling belongs to one type. -/
theorem spelling_unique {entry other : BuiltinType} (hentry : entry ∈ fallbackTypes)
    (hother : other ∈ fallbackTypes)
    (h : other.typname = entry.canonical ∨ other.canonical = entry.canonical) :
    other.typname = entry.typname := by
  rcases canonical_or_respelled entry hentry with hsame | hrespelled
  · rcases h with h | h
    · exact h.trans hsame
    · rcases canonical_or_respelled other hother with hsame' | hrespelled'
      · exact hsame'.symm.trans (h.trans hsame)
      · exact absurd (h.trans hsame) (respelled_ne_typname hrespelled' hentry)
  · rcases h with h | h
    · exact absurd h.symm (respelled_ne_typname hrespelled hother)
    · rcases canonical_or_respelled other hother with hsame' | hrespelled'
      · exact absurd (h.symm.trans hsame') (respelled_ne_typname hrespelled hother)
      · exact (Prod.mk.inj (respelled_inj hrespelled' hrespelled h)).1

end Fallback

def BuiltinTypeCatalogue.fallback : BuiltinTypeCatalogue where
  types := fallbackTypes
  distinct := fallbackTypes_nodup

/-- The standard types, and none with another name that has the spelling of one. -/
structure BuiltinTypeCatalogue.HoldsStandard (catalogue : BuiltinTypeCatalogue) : Prop where
  holds : ∀ entry ∈ fallbackTypes, ∃ own ∈ catalogue.types,
    own.typname = entry.typname ∧ own.canonical = entry.canonical
  own : ∀ entry ∈ fallbackTypes, ∀ other ∈ catalogue.types,
    other.typname = entry.canonical ∨ other.canonical = entry.canonical →
      other.typname = entry.typname

theorem BuiltinTypeCatalogue.fallback_holdsStandard :
    BuiltinTypeCatalogue.fallback.HoldsStandard where
  holds entry hentry := ⟨entry, hentry, rfl, rfl⟩
  own _ hentry _ hother := spelling_unique hentry hother

section Names

/-- `interval`, restricted to some of its fields. -/
def intervalNames : List String :=
  ["interval year", "interval month", "interval day", "interval hour", "interval minute",
    "interval second", "interval year to month", "interval day to hour", "interval day to minute",
    "interval day to second", "interval hour to minute", "interval hour to second",
    "interval minute to second"]

/-- Type names, canonical spellings and aliases. -/
def builtinNames : List String :=
  fallbackTypes.map (·.typname) ++ fallbackTypes.map (·.canonical) ++ typeAliases.map (·.1)

/-- What PostgreSQL takes a name for; behind `pg_catalog.` a type name is itself. -/
def serverType (qualified : Bool) (name : String) : Option String :=
  if qualified && (fallbackTypes.map (·.typname)).contains name then some name
  else
    match typeAliases.lookup name with
    | some typname => some typname
    | none =>
      (fallbackTypes.find? fun entry => entry.typname = name || entry.canonical = name).map
        (·.typname)

theorem alias_typname {entry : BuiltinType} (hentry : entry ∈ fallbackTypes)
    (hchar : entry.typname ≠ "char") : typeAliases.lookup entry.typname = none := by
  obtain ⟨_, _, _, htypnames, -, haliases, -, -, -, happart⟩ := fallbackTypes_letters
  obtain ⟨text, htext, hname⟩ := htypnames.mem (List.mem_map_of_mem hentry)
  apply List.lookup_eq_none_iff.mpr
  intro pair hpair
  obtain ⟨other, hother, heq⟩ := haliases.mem (List.mem_map_of_mem hpair)
  have hne : entry.typname ≠ pair.1 := by
    intro hsame
    have hletters : text = other := by
      apply String.ofList_injective
      exact hname.symm.trans (hsame.trans heq)
    apply hchar
    rw [hname, happart text htext (hletters ▸ hother)]
  simpa using hne

theorem alias_respelled : ∀ pair ∈ respelledTypes,
    typeAliases.lookup pair.2 = some pair.1 ∨ typeAliases.lookup pair.2 = none := by
  decide +kernel

theorem alias_self : ∀ pair ∈ typeAliases, typeAliases.lookup pair.1 = some pair.2 ∧
    ∃ entry ∈ fallbackTypes, entry.typname = pair.2 := by
  decide +kernel

theorem find_spelled {entry : BuiltinType} (hentry : entry ∈ fallbackTypes) {name : String}
    (hname : name = entry.typname ∨ name = entry.canonical) :
    (fallbackTypes.find? fun entry => entry.typname = name || entry.canonical = name).map
      (·.typname) = some entry.typname := by
  cases hfind : fallbackTypes.find? fun entry => entry.typname = name || entry.canonical = name with
  | none =>
    have habsent := List.find?_eq_none.mp hfind entry hentry
    rcases hname with rfl | rfl <;> simp at habsent
  | some found =>
    have hmem := List.mem_of_find?_eq_some hfind
    have hfound : found.typname = name ∨ found.canonical = name := by
      simpa using List.find?_some hfind
    have hsame : found.typname = entry.typname := by
      rcases hname with rfl | rfl
      · rcases hfound with h | h
        · exact h
        · exact (spelling_unique hmem hentry (Or.inl h.symm)).symm
      · exact spelling_unique hentry hmem hfound
    rw [Option.map_some, hsame]

theorem serverType_of_lookup {name : String} (hlookup : typeAliases.lookup name = none)
    {entry : BuiltinType} (hentry : entry ∈ fallbackTypes)
    (hname : name = entry.typname ∨ name = entry.canonical) :
    serverType false name = some entry.typname ∧ grammarAlias name = name := by
  constructor
  · rw [serverType, Bool.false_and, if_neg (by decide), hlookup]
    exact find_spelled hentry hname
  · rw [grammarAlias, hlookup]
    rfl

theorem serverType_of_alias {name typname : String}
    (hlookup : typeAliases.lookup name = some typname) :
    serverType false name = some typname ∧ grammarAlias name = typname := by
  constructor
  · rw [serverType, Bool.false_and, if_neg (by decide), hlookup]
  · rw [grammarAlias, hlookup]
    rfl

theorem serverType_canonical {entry : BuiltinType} (hentry : entry ∈ fallbackTypes) :
    serverType false entry.canonical = some entry.typname ∧
      (grammarAlias entry.canonical = entry.typname ∨
        grammarAlias entry.canonical = entry.canonical) := by
  rcases canonical_or_respelled entry hentry with hsame | hrespelled
  · by_cases hchar : entry.typname = "char"
    · obtain ⟨own, hown, htypname, hcanonical⟩ :=
        respelled_mem ("char", "\"char\"") (by decide)
      have heq : own = entry := fallbackTypes_eq hown hentry (htypname.trans hchar.symm)
      rw [heq, hsame, hchar] at hcanonical
      exact absurd hcanonical (by decide)
    · rw [hsame]
      have hplain := serverType_of_lookup (alias_typname hentry hchar) hentry (Or.inl rfl)
      exact ⟨hplain.1, Or.inl hplain.2⟩
  · rcases alias_respelled _ hrespelled with hlookup | hlookup
    · have halias := serverType_of_alias hlookup
      exact ⟨halias.1, Or.inl halias.2⟩
    · have hplain := serverType_of_lookup hlookup hentry (Or.inr rfl)
      exact ⟨hplain.1, Or.inr hplain.2⟩

theorem serverType_grammarAlias {name : String} (hname : name ∈ builtinNames) :
    ∃ entry ∈ fallbackTypes, serverType false name = some entry.typname ∧
      (grammarAlias name = entry.typname ∨ grammarAlias name = name ∧ name = entry.canonical) := by
  have halias {pair : String × String} (hpair : pair ∈ typeAliases) :
      ∃ entry ∈ fallbackTypes, serverType false pair.1 = some entry.typname ∧
        grammarAlias pair.1 = entry.typname := by
    obtain ⟨hlookup, entry, hentry, htypname⟩ := alias_self pair hpair
    exact ⟨entry, hentry, htypname ▸ serverType_of_alias hlookup⟩
  simp only [builtinNames, List.mem_append, List.mem_map] at hname
  rcases hname with (⟨entry, hentry, rfl⟩ | ⟨entry, hentry, rfl⟩) | ⟨pair, hpair, rfl⟩
  · by_cases hchar : entry.typname = "char"
    · obtain ⟨own, hown, hserver, hgrammar⟩ := halias (by decide : ("char", "bpchar") ∈ typeAliases)
      exact ⟨own, hown, hchar ▸ hserver, Or.inl (hchar ▸ hgrammar)⟩
    · have hplain := serverType_of_lookup (alias_typname hentry hchar) hentry (Or.inl rfl)
      exact ⟨entry, hentry, hplain.1, Or.inl hplain.2⟩
  · obtain ⟨hserver, hgrammar⟩ := serverType_canonical hentry
    exact ⟨entry, hentry, hserver, hgrammar.imp_right fun h => ⟨h, rfl⟩⟩
  · obtain ⟨entry, hentry, hserver, hgrammar⟩ := halias hpair
    exact ⟨entry, hentry, hserver, Or.inl hgrammar⟩

/-- A qualifier changes the type of one name, the one that is also an alias of another type. -/
theorem serverType_qualified {name : String} (hchar : name ≠ "char") :
    serverType true name = serverType false name := by
  by_cases hmem : name ∈ fallbackTypes.map (·.typname)
  · obtain ⟨entry, hentry, rfl⟩ := List.mem_map.mp hmem
    rw [(serverType_of_lookup (alias_typname hentry hchar) hentry (Or.inl rfl)).1]
    simp [serverType, hmem]
  · simp [serverType, hmem]

end Names

namespace BuiltinTypeCatalogue

variable {catalogue : BuiltinTypeCatalogue}

theorem eq_of_typname {a b : BuiltinType} (ha : a ∈ catalogue.types) (hb : b ∈ catalogue.types)
    (h : a.typname = b.typname) : a = b :=
  List.inj_on_of_nodup_map catalogue.distinct ha hb h

/-- A standard name reaches the entry of the type it stands for. -/
theorem HoldsStandard.resolve (hstandard : catalogue.HoldsStandard) {name : String}
    (hname : name ∈ builtinNames) : ∃ entry ∈ fallbackTypes, ∃ own,
      catalogue.resolve name = some own ∧ own.typname = entry.typname ∧
        own.canonical = entry.canonical ∧ serverType false name = some entry.typname := by
  obtain ⟨entry, hentry, hserver, halias⟩ := serverType_grammarAlias hname
  obtain ⟨own, hown, htypname, hcanonical⟩ := hstandard.holds entry hentry
  have hfound : ∃ found, catalogue.resolve name = some found ∧ found.typname = entry.typname := by
    unfold BuiltinTypeCatalogue.resolve
    cases hfind : catalogue.types.find? fun candidate => candidate.typname = grammarAlias name with
    | some found =>
      have hmem := List.mem_of_find?_eq_some hfind
      have hfound : found.typname = grammarAlias name := by simpa using List.find?_some hfind
      refine ⟨found, rfl, ?_⟩
      rcases halias with halias | ⟨halias, hspelled⟩
      · exact hfound.trans halias
      · exact hstandard.own entry hentry found hmem
          (Or.inl (hfound.trans (halias.trans hspelled)))
    | none =>
      rcases halias with halias | ⟨-, hspelled⟩
      · have habsent := List.find?_eq_none.mp hfind own hown
        simp [htypname, halias] at habsent
      · cases hsecond : catalogue.types.find? fun candidate => candidate.canonical = name with
        | some found =>
          have hfound : found.canonical = name := by simpa using List.find?_some hsecond
          exact ⟨found, rfl, hstandard.own entry hentry found
            (List.mem_of_find?_eq_some hsecond) (Or.inr (hfound.trans hspelled))⟩
        | none =>
          have habsent := List.find?_eq_none.mp hsecond own hown
          simp [hcanonical, hspelled] at habsent
  obtain ⟨found, hresolve, hfound⟩ := hfound
  have hsame : found = own :=
    eq_of_typname (mem_of_resolve hresolve) hown (hfound.trans htypname.symm)
  exact ⟨entry, hentry, found, hresolve, hfound, hsame ▸ hcanonical, hserver⟩

end BuiltinTypeCatalogue

end SafeMigrate
