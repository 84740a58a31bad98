import SafeMigrate.TypeDeclarations

/-! When a declaration of a built-in type is read as PostgreSQL reads it. -/

namespace SafeMigrate

open ArraySyntax Trimming DeclarationText

namespace Declaration

variable {d : Declaration} {typname raw : String} {catalogue : BuiltinTypeCatalogue}

theorem toText_wellFormed (h : d.Accepted typname) : d.toText.WellFormed where
  qualifier := h.qualifier
  name := h.name
  before p hp := by
    obtain ⟨m, hm, rfl⟩ := Option.mem_map.mp hp
    exact fun c hc => isWhitespace_of_isSpace (h.before m hm c hc)
  behind p hp := by
    obtain ⟨m, hm, rfl⟩ := Option.mem_map.mp hp
    exact fun c hc => isWhitespace_of_isSpace (h.behind m hm c hc)
  zone p hp := by
    obtain ⟨m, hm, rfl⟩ := Option.mem_map.mp hp
    exact h.zone m hm
  arrays blanks hblanks c hc := isWhitespace_of_isSpace (h.arrays blanks hblanks c hc)

theorem isWhitespace_toLower (c : Char) : isWhitespace c.toLower = isWhitespace c := by
  unfold Char.toLower
  split
  · next hupper =>
    have hlow : 65 ≤ c.toNat := hupper.1
    have hhigh : c.toNat ≤ 90 := hupper.2
    have hplain (d : Char) (hd : 65 ≤ d.toNat ∧ d.toNat ≤ 122) : isWhitespace d = false := by
      simp only [isWhitespace, Bool.or_eq_false_iff, Bool.and_eq_false_iff,
        decide_eq_false_iff_not, List.contains_eq_mem, List.mem_cons, List.not_mem_nil, or_false]
      omega
    rw [hplain c ⟨hlow, by omega⟩]
    apply hplain
    have hval : (c.val + 32).toNat = c.toNat + 32 := by
      have hcode : c.val.toNat ≤ 90 := hhigh
      have hgap : (32 : UInt32).toNat = 32 := rfl
      rw [UInt32.toNat_add, hgap]
      exact Nat.mod_eq_of_lt (by omega)
    have hbounds : 65 ≤ (c.val + 32).toNat ∧ (c.val + 32).toNat ≤ 122 := by omega
    exact hbounds
  · rfl

theorem blanks_lowerOutsideQuotes (inside : Bool) (text : List Char) :
    List.Forall₂ (fun c d => isWhitespace c = isWhitespace d) text
      (lowerOutsideQuotes inside text) := by
  induction text generalizing inside with
  | nil => exact .nil
  | cons c text ih =>
    unfold lowerOutsideQuotes
    split
    · exact .cons rfl (ih _)
    · refine .cons ?_ (ih _)
      cases inside with
      | true => rfl
      | false => exact (isWhitespace_toLower c).symm

/-- Capital letters and blanks around it are all that a written declaration adds. -/
theorem fold_raw (letters : LetterCase) (h : d.Accepted typname) (hraw : d.IsWrittenAs raw) :
    foldUnquotedIdentifierCase letters false (trimWhitespace raw.toList) = d.toText.text := by
  obtain ⟨lead, core, trail, hsplit, hlead, htrail, hascii, hcore⟩ := hraw
  obtain ⟨hne, htrimmed, -⟩ := base_plain (toText_wellFormed h)
  have htext : Trimmed isWhitespace core := by
    apply trimmed_of_forall₂ (blanks_lowerOutsideQuotes false core)
    rw [hcore]
    exact trimmed_brackets hne htrimmed _
  have htrim : trimWhitespace raw.toList = core := by
    rw [hsplit]
    exact trim_surrounded (fun c hc => isWhitespace_of_isSpace (hlead c hc))
      (fun c hc => isWhitespace_of_isSpace (htrail c hc)) htext
  rw [htrim, foldUnquotedIdentifierCase_ascii letters false hascii, hcore]

theorem typmods_toText (d : Declaration) :
    d.toText.typmods = d.modifier.map DeclaredModifier.kept := by
  cases hm : d.modifier <;> simp [toText, typmods, hm, DeclaredModifier.kept,
    DeclaredModifier.parentheses]

theorem toText_written (h : d.modifier = none) : d.toText.written = d.name := by
  simp [toText, written, h]

/-- Another name than `float` is kept with its modifier. -/
theorem expandFloat_toText (h : d.modifier = none ∨ d.name ≠ "float") (hacc : d.Accepted typname) :
    expandFloat d.toText.written d.toText.typmods = (d.toText.written, d.toText.typmods) := by
  unfold expandFloat
  split
  · next raw hwritten hmods =>
    exfalso
    rw [typmods_toText] at hmods
    obtain ⟨m, hm, -⟩ := Option.map_eq_some_iff.mp hmods
    rcases h with hnone | hname
    · rw [hnone] at hm
      cases hm
    · have hzoned : d.toText.written = if m.zone = "" then d.name else d.name ++ " " ++ m.zone := by
        simp [toText, written, hm, DeclaredModifier.parentheses]
      rcases hacc.zone m hm with ⟨hzone, -⟩ | ⟨hname', hzone⟩
      · rw [hzoned, if_pos hzone] at hwritten
        exact hname hwritten
      · have hne : m.zone ≠ "" := by
          intro hempty
          rw [hempty] at hzone
          exact absurd hzone (by decide)
        rw [hzoned, if_neg hne] at hwritten
        have hnot : ∀ name ∈ ["time", "timestamp"],
            ∀ zone ∈ ["with time zone", "without time zone"], name ++ " " ++ zone ≠ "float" := by
          simp
        exact hnot d.name hname' m.zone hzone hwritten
  · rfl

theorem typname_float {m : DeclaredModifier} (hm : d.modifier = some m) (hname : d.name = "float")
    (hacc : d.Accepted typname) : typname = if m.first.value ≤ 24 then "float4" else "float8" := by
  have hdenoted := hacc.denoted
  have hfields : "float" ∉ intervalNames := by simp [intervalNames]
  simp only [Declaration.typname, hm, hname, if_neg hfields, if_true] at hdenoted
  exact (Option.some_inj.mp hdenoted).symm

theorem expandFloat_float {m : DeclaredModifier} (hm : d.modifier = some m)
    (hname : d.name = "float") (hacc : d.Accepted typname) :
    expandFloat d.toText.written d.toText.typmods =
      (if m.first.value ≤ 24 then "real" else "double precision", none) := by
  have haccepts := hacc.modifier m hm
  have htypname := typname_float hm hname hacc
  have hsecond : m.second = none := by
    cases hsecond : m.second with
    | none => rfl
    | some scale =>
      simp only [accepts, hsecond] at haccepts
      have hnumeric := htypname.symm.trans haccepts.1
      split at hnumeric <;> simp at hnumeric
  have hrange : 1 ≤ m.first.value ∧ m.first.value ≤ 53 := by
    simpa [accepts, hsecond, hname] using haccepts
  have hwritten : d.toText.written = "float" := by
    rcases hacc.zone m hm with ⟨hzone, -⟩ | ⟨hzoned, -⟩
    · simp [toText, written, hm, DeclaredModifier.parentheses, hzone, hname]
    · rw [hname] at hzoned
      exact absurd hzoned (by decide)
  have hbits : parseInteger 0 4294967295 (trimmed m.kept) = some m.first.value := by
    rw [DeclaredModifier.kept_single hsecond, DeclaredModifier.trimmed_numeral,
      TypmodArgument.parseInteger_numeral, if_pos (by omega)]
  have hprecision : floatPrecision m.kept =
      some (if m.first.value ≤ 24 then "real" else "double precision") := by
    unfold floatPrecision
    rw [hbits]
    dsimp only
    by_cases hreal : m.first.value ≤ 24
    · rw [if_pos ⟨hrange.1, hreal⟩, if_pos hreal]
    · rw [if_neg (by omega), if_pos (by omega), if_neg hreal]
  unfold expandFloat
  simp [hwritten, typmods_toText, hm, hprecision]

theorem isFolded_of_mem_text (a : TypmodArgument) {c : Char} (hc : c ∈ a.text) :
    isFolded c = true := by
  apply isFolded_of_toNat_lt
  rcases List.mem_append.mp hc with hc | hc
  · rcases List.mem_append.mp hc with hc | hc
    · have hcode := toNat_of_isSpace (a.leadingBlank c hc)
      omega
    · rcases a.mem_numeral hc with rfl | hdigit
      · decide
      · have hcode := (toNat_of_isAsciiDigit hdigit).2
        omega
  · have hcode := toNat_of_isSpace (a.trailingBlank c hc)
    omega

theorem kept_plain (m : DeclaredModifier) :
    Trimmed isWhitespace m.kept.toList ∧ ∀ c ∈ m.kept.toList, isFolded c = true := by
  rw [DeclaredModifier.kept, String.toList_ofList]
  refine ⟨trimmed_trim m.inside, fun c hc => ?_⟩
  have hmem : c ∈ m.inside := mem_of_mem_trim hc
  rcases List.mem_append.mp hmem with hmem | hmem
  · exact isFolded_of_mem_text m.first hmem
  · cases hsecond : m.second with
    | none => simp [hsecond] at hmem
    | some a =>
      have hmem' : c = ',' ∨ c ∈ a.text := by simpa [hsecond] using hmem
      rcases hmem' with rfl | hmem'
      · decide
      · exact isFolded_of_mem_text a hmem'

/-- The text of a standard type is read back, so only its type and its modifier can go wrong. -/
theorem readAs_iff (letters : LetterCase) (hcatalogue : catalogue.HoldsStandard)
    {t : ParsedDataType catalogue} {b : BuiltinType} (hb : t.builtin = some b)
    (hstandard : ParsedDataType.IsStandard b)
    (hmods : ∀ mods ∈ t.rawTypmods, Trimmed isWhitespace mods.toList ∧
      ∀ c ∈ mods.toList, isFolded c = true) :
    d.ReadAs typname t (ParsedDataType.parse letters catalogue t.display) ↔ b.typname = typname ∧
      (typname ∉ precisionTypes → t.atttypmod = d.serverTypmod typname) := by
  obtain ⟨hbuiltin, htypmod, hdimensions⟩ :=
    ParsedDataType.parse_display letters hcatalogue hb hstandard hmods
  constructor
  · intro h
    obtain ⟨own, -, htypname, hown⟩ := h.builtin
    obtain rfl := Option.some_inj.mp (hb.symm.trans hown)
    exact ⟨htypname, h.atttypmod⟩
  · rintro ⟨htypname, hatttypmod⟩
    exact ⟨⟨b, ParsedDataType.builtin_mem hb, htypname, hb⟩, hatttypmod, hbuiltin,
      congrArg TypeTypmod.atttypmod htypmod, hdimensions⟩

/-- An interval restricted to some of its fields is not read as one. -/
theorem resolve_intervalNames (hcatalogue : catalogue.HoldsStandard) {name : String}
    (hname : name ∈ intervalNames) {b : BuiltinType} (hb : catalogue.resolve name = some b) :
    b.typname ≠ "interval" := by
  have hplain : ∀ name ∈ intervalNames, name ≠ "interval" ∧ grammarAlias name = name := by
    decide
  obtain ⟨hne, halias⟩ := hplain name hname
  intro htypname
  have hmem := BuiltinTypeCatalogue.mem_of_resolve hb
  unfold BuiltinTypeCatalogue.resolve at hb
  rw [halias] at hb
  split at hb
  · next found hfound =>
    cases hb
    have hown : b.typname = name := by simpa using List.find?_some hfound
    exact hne (hown.symm.trans htypname)
  · have hcanonical : b.canonical = name := by simpa using List.find?_some hb
    obtain ⟨own, hown, hownTypname, hownCanonical⟩ := hcatalogue.holds
      ⟨"interval", "interval", .timespan, some 128⟩ (by simp [fallbackTypes])
    have hsame : own = b :=
      BuiltinTypeCatalogue.eq_of_typname hown hmem (hownTypname.trans htypname.symm)
    rw [← hsame] at hcanonical
    exact hne (hcanonical.symm.trans hownCanonical)

theorem mem_lengthOneNames {name : String} :
    name ∈ lengthOneNames ↔ name ∈ implicitLengthOne ∨ name ∈ nationalNames := by
  simp only [lengthOneNames, implicitLengthOne, nationalNames, List.mem_cons, List.not_mem_nil,
    or_false]
  tauto

section Typmods

variable {b : BuiltinType}

theorem classifyTypmod_bare (hbpchar : b.typname ≠ "bpchar") (hbit : b.typname ≠ "bit")
    (name : String) : (classifyTypmod (some b) name none).atttypmod = none := by
  have hnumeric : classifyNumeric none = .unbounded := rfl
  cases hkind : typmodKind b.typname <;>
    simp [classifyTypmod, hkind, classifyLength_none, hnumeric, hbpchar, hbit, TypeTypmod.atttypmod]

theorem classifyTypmod_length (h : b.typname ∈ ["bit", "bpchar", "varbit", "varchar"])
    (written : String) (raw : Option String) :
    classifyTypmod (some b) written raw = classifyLength b.typname written raw := by
  have hkinds : ∀ typname ∈ ["bit", "bpchar", "varbit", "varchar"],
      typmodKind typname = .characterLength ∨ typmodKind typname = .bitLength := by
    simp [typmodKind, typmodRules, List.lookup_cons]
  rcases hkinds b.typname h with hkind | hkind <;> simp only [classifyTypmod, hkind]

theorem classifyTypmod_numeric (h : b.typname = "numeric") (written : String)
    (raw : Option String) : classifyTypmod (some b) written raw = classifyNumeric raw := by
  have hkind : typmodKind b.typname = .numeric := by
    simp [h, typmodKind, typmodRules, List.lookup_cons]
  simp only [classifyTypmod, hkind]

/-- Without a modifier, a bit string and the national characters are read differently. -/
theorem bare_typmod (hm : d.modifier = none) (hb : b.typname = typname)
    (hbit : typname = "bit" → d.name = "bit") :
    (classifyTypmod (some b) d.name none).atttypmod = d.serverTypmod typname ↔
      typname ≠ "bit" ∧ (typname = "bpchar" → d.name ∉ nationalNames) := by
  subst hb
  by_cases hbpchar : b.typname = "bpchar"
  · rw [classifyTypmod_length (by simp [hbpchar])]
    by_cases himplicit : d.name ∈ implicitLengthOne
    · have hnot : d.name ∉ nationalNames := by
        have hapart : ∀ name ∈ implicitLengthOne, name ∉ nationalNames := by decide
        exact hapart d.name himplicit
      simp [classifyLength_none, hbpchar, himplicit, serverTypmod, hm, hnot, mem_lengthOneNames,
        TypeTypmod.atttypmod, CharLength.atttypmod, CharLength.implicit]
    · by_cases hnational : d.name ∈ nationalNames <;>
        simp [classifyLength_none, hbpchar, himplicit, serverTypmod, hm, hnational,
          mem_lengthOneNames, TypeTypmod.atttypmod]
  · by_cases hbits : b.typname = "bit"
    · have himplicit : "bit" ∈ implicitLengthOne := by decide
      rw [classifyTypmod_length (by simp [hbits])]
      simp [classifyLength_none, hbits, hbit hbits, himplicit, serverTypmod, hm, mem_lengthOneNames,
        TypeTypmod.atttypmod, CharLength.atttypmod, CharLength.implicit]
    · simp [classifyTypmod_bare hbpchar hbits, serverTypmod, hm, hbpchar, hbits]

/-- A length of bits is stored as a length of characters. -/
theorem modified_typmod {m : DeclaredModifier} (hm : d.modifier = some m)
    (haccepts : accepts d.name typname m) (hfloat : d.name ≠ "float")
    (hprecision : typname ∉ precisionTypes) (hb : b.typname = typname) (written : String) :
    (classifyTypmod (some b) written (some m.kept)).atttypmod = d.serverTypmod typname ↔
      typname ≠ "bit" ∧ typname ≠ "varbit" := by
  subst hb
  by_cases hnumeric : b.typname = "numeric"
  · have hrange : 1 ≤ m.first.value ∧ m.first.value ≤ 1000 ∧
        ∀ scale ∈ m.second, -1000 ≤ scale.value ∧ scale.value ≤ 1000 := by
      cases hsecond : m.second with
      | none =>
        have hsingle : 1 ≤ m.first.value ∧ m.first.value ≤ 1000 := by
          simpa [accepts, hsecond, hfloat, hnumeric] using haccepts
        exact ⟨hsingle.1, hsingle.2, by simp⟩
      | some scale =>
        have hpair := haccepts
        simp only [accepts, hsecond] at hpair
        refine ⟨hpair.2.1, hpair.2.2.1, fun other hother => ?_⟩
        obtain rfl := Option.some_inj.mp hother
        exact hpair.2.2.2
    rw [classifyTypmod_numeric hnumeric,
      DeclaredModifier.classifyNumeric_kept hrange.1 hrange.2.1 hrange.2.2]
    simp [serverTypmod, hm, hnumeric]
  · have hsecond : m.second = none := by
      cases hsecond : m.second with
      | none => rfl
      | some scale =>
        simp only [accepts, hsecond] at haccepts
        exact absurd haccepts.1 hnumeric
    by_cases hcharacter : b.typname = "bpchar" ∨ b.typname = "varchar"
    · have hrange : 1 ≤ m.first.value ∧ m.first.value ≤ 10485760 := by
        simpa [accepts, hsecond, hfloat, hcharacter] using haccepts
      have hbits : b.typname ≠ "bit" ∧ b.typname ≠ "varbit" := by
        rcases hcharacter with hname | hname <;> rw [hname] <;> decide
      rw [classifyTypmod_length (by rcases hcharacter with hname | hname <;> simp [hname]),
        DeclaredModifier.classifyLength_kept hsecond hrange.1 (by omega), if_pos hrange.2]
      simp [serverTypmod, hm, hcharacter, hbits]
    · by_cases hbits : b.typname = "bit" ∨ b.typname = "varbit"
      · have hrange : 1 ≤ m.first.value ∧ m.first.value ≤ 83886080 := by
          simpa [accepts, hsecond, hfloat, hcharacter, hbits] using haccepts
        have hserver : d.serverTypmod b.typname = some m.first.value := by
          simp [serverTypmod, hm, hcharacter, hbits]
        have hne : ¬(b.typname ≠ "bit" ∧ b.typname ≠ "varbit") := by tauto
        rw [hserver, iff_false_right hne,
          classifyTypmod_length (by rcases hbits with hname | hname <;> simp [hname]),
          DeclaredModifier.classifyLength_kept hsecond hrange.1 hrange.2]
        by_cases hlimit : m.first.value ≤ 10485760
        · rw [if_pos hlimit]
          intro heq
          have hvalue := Option.some_inj.mp heq
          omega
        · simp [hlimit]
      · exfalso
        simp only [accepts, hsecond, hfloat, if_false, if_neg hcharacter, if_neg hbits,
          if_neg hnumeric] at haccepts
        exact hprecision haccepts.1

end Typmods

theorem serverType_national : ∀ name ∈ nationalNames,
    serverType true name = some "bpchar" ∧ serverType false name = some "bpchar" := by
  decide

theorem intervalNames_unzoned : ∀ name ∈ intervalNames, name ∉ ["time", "timestamp"] := by
  simp [intervalNames]

theorem isStandard_of_resolve (hcatalogue : catalogue.HoldsStandard) {name : String}
    (hname : name ∈ builtinNames) : ∃ own, catalogue.resolve name = some own ∧
      ParsedDataType.IsStandard own ∧ serverType false name = some own.typname := by
  obtain ⟨entry, hentry, own, hresolve, htypname, hcanonical, hserver⟩ := hcatalogue.resolve hname
  exact ⟨own, hresolve, ⟨entry, hentry, htypname, hcanonical⟩, htypname ▸ hserver⟩

/-- A precision chooses between two types and leaves nothing to be stored. -/
theorem readAs_float (letters : LetterCase) (hcatalogue : catalogue.HoldsStandard)
    {m : DeclaredModifier} (hm : d.modifier = some m) (hname : d.name = "float")
    (hacc : d.Accepted typname) (hraw : d.IsWrittenAs raw) :
    d.ReadAs typname (ParsedDataType.parse letters catalogue raw)
      (ParsedDataType.parse letters catalogue
        (ParsedDataType.parse letters catalogue raw).display) := by
  obtain ⟨written, typmods, hexpand, hbuiltin, hmods, -, htypmod⟩ :=
    parse_text letters catalogue (toText_wellFormed hacc) (fold_raw letters hacc hraw)
  obtain ⟨rfl, rfl⟩ := Prod.mk.inj ((expandFloat_float hm hname hacc).symm.trans hexpand)
  have hwidth : (if m.first.value ≤ 24 then "real" else "double precision") ∈ builtinNames ∧
      serverType false (if m.first.value ≤ 24 then "real" else "double precision") =
        some typname ∧ typname ∈ ["float4", "float8"] := by
    rw [typname_float hm hname hacc]
    by_cases hreal : m.first.value ≤ 24
    · rw [if_pos hreal, if_pos hreal]
      decide
    · rw [if_neg hreal, if_neg hreal]
      decide
  obtain ⟨hmem, hserver, hfloats⟩ := hwidth
  obtain ⟨own, hresolve, hstandard, hown⟩ := isStandard_of_resolve hcatalogue hmem
  have htypname : own.typname = typname := Option.some_inj.mp (hown.symm.trans hserver)
  have hkind : ∀ name ∈ ["float4", "float8"], name ≠ "bpchar" ∧ name ≠ "varchar" ∧ name ≠ "bit" ∧
      name ≠ "varbit" ∧ name ≠ "numeric" := by
    decide
  obtain ⟨hbpchar, hvarchar, hbit, hvarbit, hnumeric⟩ := hkind typname hfloats
  apply (readAs_iff letters hcatalogue (hbuiltin.trans hresolve) hstandard (by simp [hmods])).mpr
  refine ⟨htypname, fun _ => ?_⟩
  rw [ParsedDataType.atttypmod, htypmod, hresolve,
    classifyTypmod_bare (htypname ▸ hbpchar) (htypname ▸ hbit)]
  simp [serverTypmod, hm, hbpchar, hvarchar, hbit, hvarbit, hnumeric]

theorem written_zoned (hacc : d.Accepted typname) : d.toText.written = d.name ∨
    d.name ∈ ["time", "timestamp"] ∧ d.toText.written ∈ builtinNames ∧
      d.toText.written ≠ "char" := by
  cases hm : d.modifier with
  | none => exact Or.inl (toText_written hm)
  | some m =>
    have hzoned : d.toText.written = if m.zone = "" then d.name else d.name ++ " " ++ m.zone := by
      simp [toText, written, hm, DeclaredModifier.parentheses]
    rcases hacc.zone m hm with ⟨hzone, -⟩ | ⟨hname, hzone⟩
    · exact Or.inl (by rw [hzoned, if_pos hzone])
    · have hjoined : ∀ name ∈ ["time", "timestamp"],
          ∀ zone ∈ ["with time zone", "without time zone"], zone ≠ "" ∧
            name ++ " " ++ zone ≠ "char" := by
        simp
      obtain ⟨hne, hchar⟩ := hjoined d.name hname m.zone hzone
      rw [hzoned, if_neg hne]
      exact Or.inr ⟨hname, (zoned_names d.name hname).2 m.zone hzone, hchar⟩

theorem typname_written (hfields : d.name ∉ intervalNames)
    (hfloat : d.modifier = none ∨ d.name ≠ "float") (hacc : d.Accepted typname) :
    serverType (decide (d.qualifier ≠ "")) d.toText.written = some typname := by
  have hdenoted := hacc.denoted
  cases hm : d.modifier with
  | none =>
    rw [toText_written hm]
    simpa [Declaration.typname, hm, hfields] using hdenoted
  | some m =>
    rcases hfloat with hnone | hname
    · rw [hm] at hnone
      cases hnone
    · simpa [Declaration.typname, hm, hname, hfields] using hdenoted

/-- The modifier of a declaration of the type that its name stands for. -/
theorem typmod_iff {b : BuiltinType} (hfields : d.name ∉ intervalNames)
    (hfloat : d.modifier = none ∨ d.name ≠ "float") (hacc : d.Accepted typname) (hb : b.typname = typname)
    (hbit : typname = "bit" → d.modifier = none → d.name = "bit") :
    (typname ∉ precisionTypes →
      (classifyTypmod (some b) d.toText.written d.toText.typmods).atttypmod =
        d.serverTypmod typname) ↔
    typname ≠ "bit" ∧ (typname = "varbit" → d.modifier = none) ∧
      (d.modifier = none → d.name ∉ nationalNames) := by
  have hprecise : typname ∈ precisionTypes → typname ≠ "bit" ∧ typname ≠ "varbit" ∧
      typname ≠ "bpchar" := by
    have hnames : ∀ name ∈ precisionTypes, name ≠ "bit" ∧ name ≠ "varbit" ∧ name ≠ "bpchar" := by
      decide
    exact hnames typname
  have hnational (hm : d.modifier = none) (hname : d.name ∈ nationalNames) :
      typname = "bpchar" := by
    have hserver := typname_written hfields hfloat hacc
    rw [toText_written hm] at hserver
    obtain ⟨hqualified, hplain⟩ := serverType_national d.name hname
    cases hq : decide (d.qualifier ≠ "") with
    | true =>
      rw [hq, hqualified] at hserver
      exact (Option.some_inj.mp hserver).symm
    | false =>
      rw [hq, hplain] at hserver
      exact (Option.some_inj.mp hserver).symm
  rw [typmods_toText]
  cases hm : d.modifier with
  | none =>
    rw [toText_written hm, Option.map_none, bare_typmod hm hb fun h => hbit h hm]
    constructor
    · intro h
      by_cases hprecision : typname ∈ precisionTypes
      · obtain ⟨hne, -, hbpchar⟩ := hprecise hprecision
        exact ⟨hne, fun _ => rfl, fun _ hname => hbpchar (hnational hm hname)⟩
      · obtain ⟨hne, hname⟩ := h hprecision
        exact ⟨hne, fun _ => rfl, fun _ hmem => hname (hnational hm hmem) hmem⟩
    · rintro ⟨hne, -, hname⟩ -
      exact ⟨hne, fun _ => hname rfl⟩
  | some m =>
    have hname : d.name ≠ "float" := by
      rcases hfloat with hnone | hname
      · rw [hm] at hnone
        cases hnone
      · exact hname
    rw [Option.map_some]
    constructor
    · intro h
      by_cases hprecision : typname ∈ precisionTypes
      · obtain ⟨hne, hvarbit, -⟩ := hprecise hprecision
        exact ⟨hne, fun heq => absurd heq hvarbit, nofun⟩
      · obtain ⟨hne, hvarbit⟩ :=
          (modified_typmod hm (hacc.modifier m hm) hname hprecision hb _).mp (h hprecision)
        exact ⟨hne, fun heq => absurd heq hvarbit, nofun⟩
    · rintro ⟨hne, hvarbit, -⟩ hprecision
      exact (modified_typmod hm (hacc.modifier m hm) hname hprecision hb _).mpr
        ⟨hne, fun heq => nomatch hvarbit heq⟩

section Samples

def digitArgument (digits : List Char) (h : digits ≠ [] ∧ ∀ c ∈ digits, isAsciiDigit c = true) :
    TypmodArgument where
  leading := []
  negative := false
  digits
  trailing := []
  nonempty := h.1
  decimal := h.2
  leadingBlank := by simp
  trailingBlank := by simp

/-- `bit(3)`. -/
def threeBits : Declaration where
  qualifier := ""
  name := "bit"
  modifier := some ⟨[], digitArgument ['3'] (by simp [isAsciiDigit]), none, [], ""⟩
  arrays := []

/-- `pg_catalog.numeric (10,-2)[]`, with the scale's sign. -/
def tenDigits : Declaration where
  qualifier := "pg_catalog."
  name := "numeric"
  modifier := some ⟨[' '], digitArgument ['1', '0'] (by simp [isAsciiDigit]),
    some { digitArgument ['2'] (by simp [isAsciiDigit]) with negative := true }, [], ""⟩
  arrays := [[]]

def readFallback (raw : String) : ParsedDataType BuiltinTypeCatalogue.fallback :=
  ParsedDataType.parse TypeReference.asciiLetters BuiltinTypeCatalogue.fallback raw

end Samples

end Declaration

end SafeMigrate
