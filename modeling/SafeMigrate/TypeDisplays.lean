import SafeMigrate.TypeTexts

/-! Reading back the text that is displayed of a type. -/

namespace SafeMigrate

open Trimming

section Letters

/-- Small letters for the capital ones that are not between double quotes. -/
def lowerOutsideQuotes : Bool → List Char → List Char
  | _, [] => []
  | inside, c :: rest =>
    if c = '"' then c :: lowerOutsideQuotes (!inside) rest
    else (if inside then c else c.toLower) :: lowerOutsideQuotes inside rest

theorem lowercase_singleton (letters : LetterCase) {c : Char} (h : c.toNat < 128) :
    (letters.toLowercase (String.singleton c)).toList = [c.toLower] := by
  have hall : ∀ d ∈ (String.singleton c).toList, d.toNat < 128 := by
    intro d hd
    rw [String.toList_singleton, List.mem_singleton] at hd
    exact hd ▸ h
  rw [letters.ascii _ hall]
  simp [toAsciiLowercase]

theorem foldUnquotedIdentifierCase_ascii (letters : LetterCase) (inside : Bool) {text : List Char}
    (h : ∀ c ∈ text, c.toNat < 128) :
    foldUnquotedIdentifierCase letters inside text = lowerOutsideQuotes inside text := by
  fun_induction foldUnquotedIdentifierCase letters inside text with
  | case1 inside => rfl
  | case2 rest ih => simp [lowerOutsideQuotes, ih fun c hc => h c (by simp [hc])]
  | case3 inside rest _ ih => simp [lowerOutsideQuotes, ih fun c hc => h c (by simp [hc])]
  | case4 c rest hquote _ ih =>
    simp [lowerOutsideQuotes, hquote, ih fun c hc => h c (by simp [hc])]
  | case5 inside c rest _ hquote hinside ih =>
    obtain rfl : inside = false := by simpa using hinside
    simp [lowerOutsideQuotes, hquote, lowercase_singleton letters (h c (by simp)),
      ih fun c hc => h c (by simp [hc])]

/-- A character that has no other case. -/
def isFolded (c : Char) : Bool := c.toNat < 128 && c.toLower == c

theorem lowerOutsideQuotes_folded (inside : Bool) {text : List Char}
    (h : ∀ c ∈ text, isFolded c = true) : lowerOutsideQuotes inside text = text := by
  induction text generalizing inside with
  | nil => rfl
  | cons c text ih =>
    have hc : c.toLower = c := by
      have hfolded := h c (by simp)
      simp only [isFolded, Bool.and_eq_true, beq_iff_eq] at hfolded
      exact hfolded.2
    have hrest := fun inside => ih inside fun d hd => h d (by simp [hd])
    simp [lowerOutsideQuotes, hc, hrest]

theorem foldUnquotedIdentifierCase_folded (letters : LetterCase) {text : List Char}
    (h : ∀ c ∈ text, isFolded c = true) :
    foldUnquotedIdentifierCase letters false text = text := by
  have hascii : ∀ c ∈ text, c.toNat < 128 := by
    intro c hc
    have hfolded := h c hc
    simp only [isFolded, Bool.and_eq_true, decide_eq_true_eq] at hfolded
    exact hfolded.1
  rw [foldUnquotedIdentifierCase_ascii letters false hascii, lowerOutsideQuotes_folded false h]

end Letters

section Standard

variable {catalogue : BuiltinTypeCatalogue}

theorem BuiltinTypeCatalogue.HoldsStandard.resolve_eq (hstandard : catalogue.HoldsStandard)
    {name : String} {b : BuiltinType} (hb : b ∈ catalogue.types) (hname : name ∈ builtinNames)
    (h : serverType false name = some b.typname) : catalogue.resolve name = some b := by
  obtain ⟨entry, -, own, hresolve, htypname, -, hserver⟩ := hstandard.resolve hname
  have hsame : own.typname = b.typname :=
    htypname.trans (Option.some_inj.mp (hserver.symm.trans h))
  rw [hresolve, BuiltinTypeCatalogue.eq_of_typname
    (BuiltinTypeCatalogue.mem_of_resolve hresolve) hb hsame]

theorem typnames_folded : ∃ letters : List (List Char),
    Spells (fallbackTypes.map (·.typname)) letters ∧
      ∀ text ∈ letters, text.all isFolded = true ∧ ' ' ∉ text ∧
        text ≠ ['f', 'l', 'o', 'a', 't'] := by
  apply Exists.intro
  apply And.intro
  · simp only [fallbackTypes, List.map_cons, List.map_nil]
    repeat first | exact .nil | (apply List.Forall₂.cons; exact Eq.refl _)
  · decide +kernel

theorem splitTzSuffix_of_unspaced {text : List Char} (h : ' ' ∉ text) :
    ParsedDataType.splitTzSuffix (String.ofList text) = (String.ofList text, "") := by
  have hsuffix {suffix : String} (hspace : ' ' ∈ suffix.toList) :
      ParsedDataType.stripSuffix (String.ofList text) suffix = none := by
    unfold ParsedDataType.stripSuffix
    rw [if_neg]
    intro hsuffix
    have hmem := (List.isSuffixOf_iff_suffix.mp hsuffix).subset hspace
    rw [String.toList_ofList] at hmem
    exact h hmem
  have hwithout := @hsuffix " without time zone" (by simp)
  have hwith := @hsuffix " with time zone" (by simp)
  unfold ParsedDataType.splitTzSuffix
  simp only [hwithout, hwith]

theorem respelled_spelling : ∀ pair ∈ respelledTypes, pair.2 ≠ "float" ∧
    pair.2.toList.all isFolded = true ∧
      (ParsedDataType.splitTzSuffix pair.2 = (pair.2, "") ∨
        ∃ base ∈ ["time", "timestamp"], ∃ zone ∈ ["with time zone", "without time zone"],
          ParsedDataType.splitTzSuffix pair.2 = (base, " " ++ zone) ∧
            pair.2 = base ++ " " ++ zone) := by
  decide +kernel

/-- A canonical spelling splits before a time zone. -/
theorem canonical_spelling {entry : BuiltinType} (hentry : entry ∈ fallbackTypes) :
    entry.canonical ≠ "float" ∧ entry.canonical.toList.all isFolded = true ∧
      (ParsedDataType.splitTzSuffix entry.canonical = (entry.canonical, "") ∨
        ∃ base ∈ ["time", "timestamp"], ∃ zone ∈ ["with time zone", "without time zone"],
          ParsedDataType.splitTzSuffix entry.canonical = (base, " " ++ zone) ∧
            entry.canonical = base ++ " " ++ zone) := by
  rcases canonical_or_respelled entry hentry with hsame | hrespelled
  · obtain ⟨_, hletters, hfolded⟩ := typnames_folded
    obtain ⟨text, htext, hname⟩ := hletters.mem (List.mem_map_of_mem hentry)
    obtain ⟨hall, hspace, hfloat⟩ := hfolded text htext
    refine ⟨?_, ?_, Or.inl ?_⟩
    · rw [hsame, hname]
      exact fun heq => hfloat (String.ofList_injective heq)
    · rw [hsame, hname, String.toList_ofList]
      exact hall
    · rw [hsame, hname]
      exact splitTzSuffix_of_unspaced hspace
  · exact respelled_spelling _ hrespelled

end Standard

section Displays

open DeclarationText

/-- A name with a modifier and a time zone, as it is displayed. -/
def displayText (base zone : String) (mods : Option String) (dimensions : Nat) :
    DeclarationText where
  qualifier := ""
  name := if mods.isSome ∨ zone = "" then base else base ++ " " ++ zone
  modifier := mods.map fun mods =>
    { before := []
      inside := mods.toList
      behind := if zone = "" then [] else [' ']
      zone }
  arrays := List.replicate dimensions []

variable {base zone : String} {mods : Option String} {dimensions : Nat}

theorem brackets_replicate (dimensions : Nat) :
    (String.join (List.replicate dimensions "[]")).toList =
      (List.replicate dimensions []).flatMap brackets := by
  induction dimensions with
  | zero => rfl
  | succ dimensions ih => simp [List.replicate_succ, ih, brackets]

theorem displayText_text : (displayText base zone mods dimensions).text =
    (base ++ (mods.map fun mods => "(" ++ mods ++ ")").getD "" ++
      (if zone = "" then "" else " " ++ zone) ++
        String.join (List.replicate dimensions "[]")).toList := by
  have hbrackets := brackets_replicate dimensions
  cases mods with
  | none => by_cases hzone : zone = "" <;>
      simp [displayText, text, DeclarationText.base, hzone, hbrackets]
  | some mods => by_cases hzone : zone = "" <;>
      simp [displayText, text, DeclarationText.base, Parentheses.text, hzone, hbrackets]

theorem displayText_written : (displayText base zone mods dimensions).written =
      if zone = "" then base else base ++ " " ++ zone := by
  cases mods <;> by_cases hzone : zone = "" <;> simp [displayText, written, hzone]

theorem displayText_wellFormed
    (h : zone = "" ∧ base ∈ names ∨
      base ∈ ["time", "timestamp"] ∧ zone ∈ ["with time zone", "without time zone"]) :
    (displayText base zone mods dimensions).WellFormed where
  qualifier := by simp [displayText, qualifiers]
  name := by
    rcases h with ⟨hzone, hbase⟩ | ⟨hbase, hzone⟩
    · simpa [displayText, hzone] using hbase
    · cases mods with
      | some mods =>
        exact List.mem_append_left _ (zoned_names base hbase).1
      | none =>
        have hne : zone ≠ "" := by
          rintro rfl
          exact absurd hzone (by decide)
        have hjoined := (zoned_names base hbase).2 zone hzone
        simpa [displayText, names, hne] using Or.inl hjoined
  before := by simp [displayText]
  behind m hm := by
    obtain ⟨mods, -, rfl⟩ := Option.mem_map.mp hm
    intro c hc
    by_cases hzone : zone = ""
    · simp [hzone] at hc
    · obtain rfl : c = ' ' := by simpa [hzone] using hc
      decide
  zone m hm := by
    obtain ⟨mods, hmods, rfl⟩ := Option.mem_map.mp hm
    rcases h with ⟨hzone, -⟩ | ⟨hbase, hzone⟩
    · exact Or.inl (by simp [hzone])
    · refine Or.inr ⟨?_, hzone⟩
      simpa [displayText, Option.mem_def.mp hmods] using hbase
  arrays blanks hblanks := by
    obtain rfl : blanks = [] := (List.mem_replicate.mp hblanks).2
    simp

theorem displayText_folded (hbase : ∀ c ∈ base.toList, isFolded c = true)
    (hzone : ∀ c ∈ zone.toList, isFolded c = true)
    (hmods : ∀ text ∈ mods, ∀ c ∈ text.toList, isFolded c = true) :
    ∀ c ∈ (displayText base zone mods dimensions).text, isFolded c = true := by
  have hbrackets : ∀ c ∈ (String.join (List.replicate dimensions "[]")).toList,
      isFolded c = true := by
    intro c hc
    rw [brackets_replicate] at hc
    obtain ⟨blanks, hblanks, hc⟩ := List.mem_flatMap.mp hc
    obtain rfl : blanks = [] := (List.mem_replicate.mp hblanks).2
    have hshape : ∀ c ∈ brackets [], isFolded c = true := by simp [brackets, isFolded]
    exact hshape c hc
  have hspaced : ∀ c ∈ (if zone = "" then "" else " " ++ zone).toList, isFolded c = true := by
    intro c hc
    by_cases hempty : zone = ""
    · simp [hempty] at hc
    · have hc' : c = ' ' ∨ c ∈ zone.toList := by simpa [hempty] using hc
      rcases hc' with rfl | hc'
      · decide
      · exact hzone c hc'
  have hmodifier : ∀ c ∈ ((mods.map fun mods => "(" ++ mods ++ ")").getD "").toList,
      isFolded c = true := by
    intro c hc
    cases mods with
    | none => simp at hc
    | some mods =>
      have hc' : c = '(' ∨ c ∈ mods.toList ∨ c = ')' := by simpa using hc
      rcases hc' with rfl | hc' | rfl
      · decide
      · exact hmods mods rfl c hc'
      · decide
  intro c hc
  rw [displayText_text] at hc
  simp only [String.toList_append, List.mem_append] at hc
  rcases hc with ((hc | hc) | hc) | hc
  · exact hbase c hc
  · exact hmodifier c hc
  · exact hspaced c hc
  · exact hbrackets c hc

end Displays

namespace ParsedDataType

variable {catalogue : BuiltinTypeCatalogue} {t : ParsedDataType catalogue} {b : BuiltinType}

/-- An implicit length is displayed as one. -/
def displayedTypmods (t : ParsedDataType catalogue) : Option String :=
  match t.rawTypmods with
  | some mods => some mods
  | none => if t.typmod = .characterLength .implicit then some "1" else none

theorem grammarAlias_bit {written : String} (h : grammarAlias written = "bit") :
    written = "bit" := by
  unfold grammarAlias at h
  cases hlookup : typeAliases.lookup written with
  | none =>
    rw [hlookup] at h
    exact h
  | some typname =>
    rw [hlookup] at h
    have htargets : ∀ pair ∈ typeAliases, pair.2 ≠ "bit" := by simp [typeAliases]
    obtain ⟨before, after, hsplit, -⟩ := List.lookup_eq_some_iff.mp hlookup
    exact absurd h (htargets (written, typname) (by simp [hsplit]))

/-- `bit` is reached by its name alone, which has a length. -/
theorem bit_written {written : String} (hresolve : catalogue.resolve written = some b)
    (htypname : b.typname = "bit") (hcanonical : b.canonical = "bit") : written = "bit" := by
  unfold BuiltinTypeCatalogue.resolve at hresolve
  split at hresolve
  · next found hfound =>
    cases hresolve
    have halias : b.typname = grammarAlias written := by simpa using List.find?_some hfound
    exact grammarAlias_bit (halias.symm.trans htypname)
  · have halias : b.canonical = written := by simpa using List.find?_some hresolve
    exact halias.symm.trans hcanonical

theorem canonical_bit : ∀ entry ∈ fallbackTypes,
    entry.typname = "bit" → entry.canonical = "bit" := by
  decide +kernel

theorem classifyLength_one (typname written : String) :
    classifyLength typname written (some "1") = .characterLength .implicit := by
  have hone : (i32FromStr (trimmed "1")).bind CharLength.new = some .implicit := by
    decide
  simp [classifyLength_some, hone]

/-- The entry of a standard type. -/
def IsStandard (b : BuiltinType) : Prop :=
  ∃ entry ∈ fallbackTypes,
    b.typname = entry.typname ∧ b.canonical = entry.canonical

def displayedName (t : ParsedDataType catalogue) (b : BuiltinType) : String :=
  if b.typname = "bpchar" ∧ t.typmod = .unbounded then "bpchar" else b.canonical

theorem bpchar_own : "bpchar" ∈ builtinNames ∧ serverType false "bpchar" = some "bpchar" ∧
    "bpchar" ≠ "float" ∧ ∀ c ∈ "bpchar".toList, isFolded c = true := by
  refine ⟨by decide +kernel, by decide +kernel, by simp, ?_⟩
  simp [isFolded]

/-- The displayed name is one of the type's own. -/
theorem displayedName_own (t : ParsedDataType catalogue) (hstandard : IsStandard b) :
    t.displayedName b ∈ builtinNames ∧ serverType false (t.displayedName b) = some b.typname ∧
      t.displayedName b ≠ "float" ∧ ∀ c ∈ (t.displayedName b).toList, isFolded c = true := by
  obtain ⟨entry, hentry, htypname, hcanonical⟩ := hstandard
  obtain ⟨hfloat, hfolded, -⟩ := canonical_spelling hentry
  obtain ⟨hserver, -⟩ := serverType_canonical hentry
  unfold displayedName
  by_cases hbare : b.typname = "bpchar" ∧ t.typmod = .unbounded
  · rw [if_pos hbare, hbare.1]
    exact bpchar_own
  · rw [if_neg hbare, hcanonical, htypname]
    refine ⟨?_, hserver, hfloat, List.all_eq_true.mp hfolded⟩
    simp only [builtinNames, List.mem_append, List.mem_map]
    exact Or.inl (Or.inr ⟨entry, hentry, rfl⟩)

/-- The name that a type is displayed with, and the time zone behind it. -/
theorem display_name (hb : t.builtin = some b) (hstandard : IsStandard b) :
    ∃ base zone, t.display = String.ofList
        (displayText base zone t.displayedTypmods t.arrayDimensions).text ∧
      (zone = "" ∧ base ∈ builtinNames ∨
        base ∈ ["time", "timestamp"] ∧ zone ∈ ["with time zone", "without time zone"]) ∧
      (if zone = "" then base else base ++ " " ++ zone) = t.displayedName b := by
  unfold displayedName
  obtain ⟨entry, hentry, htypname, hcanonical⟩ := hstandard
  obtain ⟨-, -, hsplit⟩ := canonical_spelling hentry
  have hname : t.canonicalName = entry.canonical := by simp [canonicalName, hb, hcanonical]
  have hmods : t.displayModifier =
      (t.displayedTypmods.map fun mods => "(" ++ mods ++ ")").getD "" := by
    unfold displayModifier displayedTypmods
    cases t.rawTypmods with
    | some mods => rfl
    | none => by_cases h : t.typmod = .characterLength .implicit <;> simp [h]
  have hchosen : t.displayName = if b.typname = "bpchar" ∧ t.typmod = .unbounded then
      ("bpchar", "") else splitTzSuffix entry.canonical := by
    simp [displayName, isNamed, hb, canonicalAndTzSuffix, hname]
  by_cases hbare : b.typname = "bpchar" ∧ t.typmod = .unbounded
  · refine ⟨"bpchar", "", ?_, Or.inl ⟨rfl, bpchar_own.1⟩, by rw [if_pos hbare]; rfl⟩
    rw [displayText_text, String.ofList_toList, display, hchosen, if_pos hbare, hmods]
    rfl
  · have hdisplay : t.display = (splitTzSuffix entry.canonical).1 ++
        (t.displayedTypmods.map fun mods => "(" ++ mods ++ ")").getD "" ++
          (splitTzSuffix entry.canonical).2 ++
            String.join (List.replicate t.arrayDimensions "[]") := by
      rw [display, hchosen, if_neg hbare, hmods]
    rcases hsplit with hsplit | ⟨base, hbase, zone, hzone, hsplit, hjoined⟩
    · refine ⟨entry.canonical, "", ?_, Or.inl ⟨rfl, ?_⟩, by simp [hbare, hcanonical]⟩
      · rw [displayText_text, String.ofList_toList, hdisplay, hsplit]
        rfl
      · simp only [builtinNames, List.mem_append, List.mem_map]
        exact Or.inl (Or.inr ⟨entry, hentry, rfl⟩)
    · have hne : zone ≠ "" := by
        rintro rfl
        exact absurd hzone (by decide)
      refine ⟨base, zone, ?_, Or.inr ⟨hbase, hzone⟩, ?_⟩
      · rw [displayText_text, String.ofList_toList, hdisplay, hsplit, if_neg hne]
      · rw [if_neg hne, if_neg hbare, hcanonical, hjoined]

/-- A modifier that is displayed means what the type has. -/
theorem classifyTypmod_displayed (hb : t.builtin = some b) (hstandard : IsStandard b) :
    classifyTypmod (some b) (t.displayedName b) t.displayedTypmods = t.typmod := by
  unfold displayedName
  obtain ⟨original, hresolve, htypmod⟩ := t.parsed
  rw [hb] at hresolve htypmod
  cases hraw : t.rawTypmods with
  | some mods =>
    rw [hraw] at htypmod
    rw [displayedTypmods, hraw, htypmod]
    exact classifyTypmod_some rfl _ _ _
  | none =>
    rw [hraw] at htypmod
    have hlengths (h : typmodKind b.typname = .characterLength ∨
        typmodKind b.typname = .bitLength) (name : String) (raw : Option String) :
        classifyTypmod (some b) name raw = classifyLength b.typname name raw := by
      rcases h with h | h <;> simp [classifyTypmod, h]
    by_cases himplicit : t.typmod = .characterLength .implicit
    · have hkind : typmodKind b.typname = .characterLength ∨
          typmodKind b.typname = .bitLength := by
        rw [himplicit] at htypmod
        unfold classifyTypmod at htypmod
        simp only at htypmod
        split at htypmod
        · exact Or.inl ‹_›
        · exact Or.inr ‹_›
        all_goals cases htypmod
      have hmods : t.displayedTypmods = some "1" := by
        rw [displayedTypmods, hraw]
        exact if_pos himplicit
      rw [hmods, hlengths hkind, classifyLength_one, himplicit]
    · have hmods : t.displayedTypmods = none := by
        rw [displayedTypmods, hraw]
        exact if_neg himplicit
      rw [hmods]
      by_cases hkind : typmodKind b.typname = .characterLength ∨
          typmodKind b.typname = .bitLength
      · rw [hlengths hkind] at htypmod ⊢
        have hunbounded : t.typmod = .unbounded := by
          unfold classifyLength at htypmod
          simp only at htypmod
          split at htypmod
          · exact absurd htypmod himplicit
          · exact htypmod
        by_cases hbpchar : b.typname = "bpchar"
        · have hnot : "bpchar" ∉ implicitLengthOne := by decide
          rw [if_pos ⟨hbpchar, hunbounded⟩, hunbounded]
          exact if_neg fun h => hnot h.2
        · have hbit : b.typname ≠ "bit" := by
            intro hbit
            have hcanonical : b.canonical = "bit" := by
              obtain ⟨entry, hentry, htypname, hcanonical⟩ := hstandard
              rw [hcanonical]
              exact canonical_bit entry hentry (htypname.symm.trans hbit)
            rw [bit_written hresolve.symm hbit hcanonical, hbit] at htypmod
            exact himplicit htypmod
          rw [if_neg fun h => hbpchar h.1, hunbounded]
          exact if_neg fun h => h.1.elim hbpchar hbit
      · rw [htypmod]
        cases hother : typmodKind b.typname with
        | characterLength => exact absurd (Or.inl hother) hkind
        | bitLength => exact absurd (Or.inr hother) hkind
        | _ => simp [classifyTypmod, hother]

/-- A standard type is read back from what is displayed of it. -/
theorem parse_display (letters : LetterCase) (hcatalogue : catalogue.HoldsStandard)
    (hb : t.builtin = some b) (hstandard : IsStandard b)
    (hmods : ∀ mods ∈ t.rawTypmods, Trimmed isWhitespace mods.toList ∧
      ∀ c ∈ mods.toList, isFolded c = true) :
    (parse letters catalogue t.display).builtin = t.builtin ∧
      (parse letters catalogue t.display).typmod = t.typmod ∧
      (parse letters catalogue t.display).arrayDimensions = t.arrayDimensions := by
  obtain ⟨base, zone, hdisplay, hform, hname⟩ := display_name hb hstandard
  have hwell : (displayText base zone t.displayedTypmods t.arrayDimensions).WellFormed := by
    apply displayText_wellFormed
    rcases hform with ⟨hzone, hbase⟩ | hzoned
    · exact Or.inl ⟨hzone, List.mem_append_left _ hbase⟩
    · exact Or.inr hzoned
  obtain ⟨hmem, hserver, hfloat, hletters⟩ := displayedName_own t hstandard
  have hmods' : ∀ mods ∈ t.displayedTypmods, Trimmed isWhitespace mods.toList ∧
      ∀ c ∈ mods.toList, isFolded c = true := by
    intro mods hdisplayed
    unfold displayedTypmods at hdisplayed
    cases hraw : t.rawTypmods with
    | some raw =>
      rw [hraw] at hdisplayed
      exact Option.some_inj.mp hdisplayed ▸ hmods raw hraw
    | none =>
      by_cases himplicit : t.typmod = .characterLength .implicit
      · obtain rfl : "1" = mods := by simpa [hraw, himplicit] using hdisplayed
        exact ⟨⟨by simp [isWhitespace], by simp [isWhitespace]⟩, by simp [isFolded]⟩
      · simp [hraw, himplicit] at hdisplayed
  have hfolded : ∀ c ∈ (displayText base zone t.displayedTypmods t.arrayDimensions).text,
      isFolded c = true := by
    rw [← hname] at hletters
    apply displayText_folded
    · intro c hc
      apply hletters c
      by_cases hzone : zone = "" <;> simp [hzone, hc]
    · intro c hc
      apply hletters c
      by_cases hzone : zone = ""
      · simp [hzone] at hc
      · simp [hzone, hc]
    · exact fun mods h => (hmods' mods h).2
  have hraw : foldUnquotedIdentifierCase letters false (trimWhitespace t.display.toList) =
      (displayText base zone t.displayedTypmods t.arrayDimensions).text := by
    obtain ⟨hne, htrimmed, -⟩ := DeclarationText.base_plain hwell
    have htrim : trimWhitespace
        (displayText base zone t.displayedTypmods t.arrayDimensions).text =
        (displayText base zone t.displayedTypmods t.arrayDimensions).text :=
      trim_of_trimmed (DeclarationText.trimmed_brackets hne htrimmed _)
    rw [hdisplay, String.toList_ofList, htrim]
    exact foldUnquotedIdentifierCase_folded letters hfolded
  have hkept : (displayText base zone t.displayedTypmods t.arrayDimensions).typmods =
      t.displayedTypmods := by
    cases hdisplayed : t.displayedTypmods with
    | none => rfl
    | some mods =>
      have htrim : trimWhitespace mods.toList = mods.toList :=
        trim_of_trimmed (hmods' mods hdisplayed).1
      simp [displayText, DeclarationText.typmods, htrim]
  obtain ⟨written, typmods, hexpand, hbuiltin, -, hdimensions, htypmod⟩ :=
    DeclarationText.parse_text letters catalogue hwell hraw
  rw [displayText_written, hname, hkept] at hexpand
  have hplain : expandFloat (t.displayedName b) t.displayedTypmods =
      (t.displayedName b, t.displayedTypmods) := by
    unfold expandFloat
    split
    · next heq _ => exact absurd heq hfloat
    · rfl
  obtain ⟨rfl, rfl⟩ := Prod.mk.inj (hplain.symm.trans hexpand)
  have hresolve := hcatalogue.resolve_eq (builtin_mem hb) hmem hserver
  refine ⟨?_, ?_, ?_⟩
  · rw [hbuiltin, hresolve, hb]
  · rw [htypmod, hresolve, classifyTypmod_displayed hb hstandard]
  · rw [hdimensions]
    simp [displayText]

end ParsedDataType

end SafeMigrate
