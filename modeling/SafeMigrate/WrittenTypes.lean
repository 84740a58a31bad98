import SafeMigrate.PathCompletion
import SafeMigrate.TypeReferences

/-! Type names as a statement writes them: quoted or folded identifiers, blanks, a
modifier and array bounds, and what a lookup comes to for each of them. -/

namespace SafeMigrate

open TypeReference

/-- An identifier that is quoted, or of characters that need no quotes. -/
structure WrittenIdentifier where
  text : String
  quoted : Bool
  nonempty : text ≠ ""
  bare : quoted = false → ∀ c ∈ text.toList, isOrdinary c = true ∧ c ∉ ['(', ')', '[', ']']

/-- A modifier such as `(4,2)`, or the brackets of an array with or without a bound. -/
structure TypeSuffix where
  isArray : Bool
  inside : String
  plain : ∀ c ∈ inside.toList, c ∉ ['"', '.', '(', ')', '[', ']']

structure Blanks where
  characters : List Char
  blank : ∀ c ∈ characters, isWhitespace c = true

/-- `before schema . name (modifier) [bound] … after`, with blanks between. -/
structure WrittenType where
  before : Blanks
  schema : Option (WrittenIdentifier × Blanks × Blanks)
  name : WrittenIdentifier
  suffixes : List (Blanks × TypeSuffix)
  after : Blanks

namespace WrittenIdentifier

def denoted (letters : LetterCase) (identifier : WrittenIdentifier) : String :=
  if identifier.quoted then identifier.text else letters.toLowercase identifier.text

def written (identifier : WrittenIdentifier) : List Char :=
  if identifier.quoted then
    '"' :: (identifier.text.toList.flatMap fun c => if c = quotationMark then [c, c] else [c]) ++ ['"']
  else identifier.text.toList

end WrittenIdentifier

def TypeSuffix.written (suffix : TypeSuffix) : List Char :=
  (if suffix.isArray then '[' else '(') :: suffix.inside.toList ++
    [if suffix.isArray then ']' else ')']

namespace WrittenType

def schemaText (w : WrittenType) : List Char :=
  (w.schema.map fun part =>
    part.1.written ++ part.2.1.characters ++ '.' :: part.2.2.characters).getD []

def suffixText (w : WrittenType) : List Char :=
  (w.suffixes.flatMap fun suffix => suffix.1.characters ++ suffix.2.written) ++ w.after.characters

def text (w : WrittenType) : String :=
  String.ofList (w.before.characters ++ (w.schemaText ++ w.name.written ++ w.suffixText))

/-- An array was written, of whatever bounds. -/
def isArray (w : WrittenType) : Bool := w.suffixes.any (·.2.isArray)

/-- No modifier, and no bound or blank inside the brackets. -/
def isPlain (w : WrittenType) : Bool :=
  w.suffixes.all fun suffix => suffix.2.isArray && suffix.2.inside.isEmpty

variable (letters : LetterCase)

def schemaName (w : WrittenType) : Option String := w.schema.map (·.1.denoted letters)

def typeName (w : WrittenType) : String := w.name.denoted letters

/-- The name alone, printed with quotes where it needs them. -/
def bareText (w : WrittenType) : String :=
  typeReferenceName ⟨(w.schemaName letters).getD "", w.typeName letters⟩ w.schema.isSome

end WrittenType

section Reading

variable {letters : LetterCase} {partIsQuoted : Bool} {current rest : List Char}

theorem readParts_blanks {blanks : List Char} (h : ∀ c ∈ blanks, isWhitespace c = true) :
    readParts letters false partIsQuoted current (blanks ++ rest) =
      readParts letters false partIsQuoted current rest := by
  induction blanks with
  | nil => rfl
  | cons c blanks ih =>
    rw [List.cons_append, readParts_blank (h c List.mem_cons_self)]
    exact ih fun d hd => h d (List.mem_cons_of_mem _ hd)

/-- Text without quotes and dots is glued to the part, blanks left out. -/
theorem readParts_glued {text : List Char} (h : ∀ c ∈ text, c ≠ '"' ∧ c ≠ '.') :
    readParts letters false partIsQuoted current text =
      (resolveTypeIdentifier letters (current ++ text.filter fun c => !isWhitespace c)
        partIsQuoted).map fun part => [part] := by
  induction text generalizing current with
  | nil =>
    rw [readParts, List.filter_nil, List.append_nil]
    rfl
  | cons c text ih =>
    have hrest : ∀ d ∈ text, d ≠ '"' ∧ d ≠ '.' := fun d hd => h d (List.mem_cons_of_mem _ hd)
    obtain ⟨hquote, hdot⟩ := h c List.mem_cons_self
    by_cases hblank : isWhitespace c = true
    · rw [readParts_blank hblank, ih hrest]
      simp [hblank]
    · have hordinary : isOrdinary c = true := by simp [isOrdinary, hquote, hdot, hblank]
      rw [readParts_ordinary hordinary, ih hrest]
      simp [hblank]

theorem readParts_written (identifier : WrittenIdentifier) (hrest : rest.head? ≠ some '"') :
    readParts letters false false [] (identifier.written ++ rest) =
      readParts letters false identifier.quoted identifier.text.toList rest := by
  unfold WrittenIdentifier.written
  cases hquoted : identifier.quoted with
  | true =>
    have hopen (inner : List Char) : readParts letters false false [] ('"' :: inner) =
        readParts letters true true [] inner := readParts_quote fun h => by cases h
    have hread := (hopen _).trans (readParts_doubled identifier.text.toList hrest)
    simpa using hread
  | false =>
    have hordinary : ∀ c ∈ identifier.text.toList, isOrdinary c = true := fun c hc =>
      (identifier.bare hquoted c hc).1
    exact readParts_ordinaries hordinary

theorem resolveTypeIdentifier_denoted (identifier : WrittenIdentifier) :
    resolveTypeIdentifier letters identifier.text.toList identifier.quoted =
      some (identifier.denoted letters) := by
  have hne : identifier.text.toList.isEmpty = false := by
    rw [List.isEmpty_eq_false_iff]
    exact fun hnil => identifier.nonempty (String.toList_eq_nil_iff.mp hnil)
  unfold resolveTypeIdentifier WrittenIdentifier.denoted
  rw [hne, String.ofList_toList]
  cases identifier.quoted <;> rfl

theorem written_first (identifier : WrittenIdentifier) :
    ∃ c rest, identifier.written = c :: rest ∧ isWhitespace c = false := by
  unfold WrittenIdentifier.written
  cases hquoted : identifier.quoted with
  | true => exact ⟨'"', _, rfl, by decide⟩
  | false =>
    cases hlist : identifier.text.toList with
    | nil => exact absurd (String.toList_eq_nil_iff.mp hlist) identifier.nonempty
    | cons c rest =>
      have hordinary := (identifier.bare hquoted c (by simp [hlist])).1
      simp only [isOrdinary, Bool.and_eq_true, Bool.not_eq_true'] at hordinary
      exact ⟨c, rest, rfl, hordinary.2⟩

theorem written_last (identifier : WrittenIdentifier) :
    ∃ before c, identifier.written = before ++ [c] ∧ isWhitespace c = false ∧ c ≠ '[' ∧ c ≠ ']' := by
  unfold WrittenIdentifier.written
  cases hquoted : identifier.quoted with
  | true => exact ⟨_, '"', rfl, by decide⟩
  | false =>
    rcases List.eq_nil_or_concat' identifier.text.toList with hlist | ⟨before, c, hlist⟩
    · exact absurd (String.toList_eq_nil_iff.mp hlist) identifier.nonempty
    · obtain ⟨hordinary, hbracket⟩ := identifier.bare hquoted c (by simp [hlist])
      simp only [isOrdinary, Bool.and_eq_true, Bool.not_eq_true'] at hordinary
      refine ⟨before, c, hlist, hordinary.2, ?_, ?_⟩
      · rintro rfl
        simp at hbracket
      · rintro rfl
        simp at hbracket

theorem denoted_nonempty (letters : LetterCase) (identifier : WrittenIdentifier) :
    identifier.denoted letters ≠ "" := by
  unfold WrittenIdentifier.denoted
  cases identifier.quoted with
  | true => exact identifier.nonempty
  | false => exact letters.nonempty _ identifier.nonempty

theorem head_blanks {blanks : List Char} (h : ∀ c ∈ blanks, isWhitespace c = true)
    (hrest : rest.head? ≠ some '"') : (blanks ++ rest).head? ≠ some '"' := by
  cases blanks with
  | nil => exact hrest
  | cons c blanks =>
    intro hhead
    have hc : c = '"' := by simpa using hhead
    have hblank := h c List.mem_cons_self
    rw [hc] at hblank
    cases hblank

theorem token_blanks {blanks text : List Char} (h : ∀ c ∈ blanks, isWhitespace c = true) :
    token (blanks ++ text) = token text := by
  have hdrop : (blanks ++ text).dropWhile isWhitespace = text.dropWhile isWhitespace := by
    rw [List.dropWhile_append, List.dropWhile_eq_nil_iff.mpr h]
    rfl
  unfold token
  rw [hdrop]

/-- The parts of a written name, with what is glued to it. -/
theorem readParts_core (w : WrittenType) {kept : List Char}
    (h : ∀ c ∈ kept, c ≠ '"' ∧ c ≠ '.') :
    readParts letters false false [] (w.schemaText ++ w.name.written ++ kept) =
      (resolveTypeIdentifier letters (w.name.text.toList ++ kept.filter fun c => !isWhitespace c)
        w.name.quoted).map fun part => (w.schemaName letters).toList ++ [part] := by
  have hkept : kept.head? ≠ some '"' := fun hhead => (h _ (List.mem_of_head? hhead)).1 rfl
  have hname : readParts letters false false [] (w.name.written ++ kept) =
      (resolveTypeIdentifier letters (w.name.text.toList ++ kept.filter fun c => !isWhitespace c)
        w.name.quoted).map fun part => [part] := by
    rw [readParts_written w.name hkept, readParts_glued h]
  unfold WrittenType.schemaText WrittenType.schemaName
  cases w.schema with
  | none => simpa using hname
  | some part =>
    obtain ⟨schema, before, after⟩ := part
    have hdot : ('.' :: after.characters ++ w.name.written ++ kept).head? ≠ some '"' := by simp
    have hread := @readParts_written letters
      (before.characters ++ ('.' :: after.characters ++ w.name.written ++ kept)) schema
      (head_blanks before.blank hdot)
    have hassoc : schema.written ++ before.characters ++ '.' :: after.characters ++
        w.name.written ++ kept = schema.written ++ (before.characters ++
          ('.' :: after.characters ++ w.name.written ++ kept)) := by simp
    rw [Option.map_some, Option.getD_some, hassoc, hread, readParts_blanks before.blank,
      List.cons_append, List.cons_append, readParts_dot, resolveTypeIdentifier_denoted,
      Option.bind_some, List.append_assoc, readParts_blanks after.blank, hname, Option.map_map]
    rfl

end Reading

namespace WrittenType

theorem suffixText_characters (w : WrittenType) : ∀ c ∈ w.suffixText, c ≠ '"' ∧ c ≠ '.' := by
  have hblanks (blanks : Blanks) : ∀ c ∈ blanks.characters, c ≠ '"' ∧ c ≠ '.' := by
    intro c hc
    have hblank := blanks.blank c hc
    constructor
    · rintro rfl
      cases hblank
    · rintro rfl
      cases hblank
  intro c hc
  rcases List.mem_append.mp hc with hc | hc
  · obtain ⟨⟨blanks, suffix⟩, -, hc⟩ := List.mem_flatMap.mp hc
    rcases List.mem_append.mp hc with hc | hc
    · exact hblanks blanks c hc
    · obtain ⟨isArray, inside, hplain⟩ := suffix
      rcases List.mem_cons.mp hc with hc | hc
      · rw [hc]
        cases isArray <;> simp
      · rcases List.mem_append.mp hc with hc | hc
        · have hother := hplain c hc
          simp only [List.mem_cons, not_or] at hother
          exact ⟨hother.1, hother.2.1⟩
        · rw [List.mem_singleton.mp hc]
          cases isArray <;> simp
  · exact hblanks w.after c hc

/-- Plain suffixes are what the code takes for an array suffix. -/
theorem isArraySuffix_suffixText (w : WrittenType) : isArraySuffix w.suffixText = w.isPlain := by
  unfold suffixText isPlain
  induction w.suffixes with
  | nil => exact isArraySuffix_blanks w.after.blank
  | cons suffix suffixes ih =>
    obtain ⟨blanks, suffix⟩ := suffix
    rw [List.flatMap_cons, List.append_assoc, List.append_assoc,
      isArraySuffix_append (isArraySuffix_blanks blanks.blank), List.all_cons, ← ih]
    generalize (suffixes.flatMap fun suffix => suffix.1.characters ++ suffix.2.written) ++
      w.after.characters = rest
    obtain ⟨isArray, inside, hplain⟩ := suffix
    cases isArray with
    | false =>
      show isArraySuffix ('(' :: _) = false
      rw [isArraySuffix]
      · rfl
      · exact fun _ h => absurd h (by decide)
    | true =>
      simp only [TypeSuffix.written, if_true, Bool.true_and]
      cases hinside : inside.toList with
      | nil =>
        rw [String.toList_eq_nil_iff.mp hinside]
        rfl
      | cons c more =>
        have hnonempty : inside.isEmpty = false := by
          rw [Bool.eq_false_iff]
          intro hempty
          rw [String.isEmpty_iff.mp hempty] at hinside
          cases hinside
        have hc : c ≠ ']' := by
          have hother := hplain c (by simp [hinside])
          simp only [List.mem_cons, not_or] at hother
          exact hother.2.2.2.2.2.1
        rw [hnonempty]
        show isArraySuffix ('[' :: c :: (more ++ [']'] ++ rest)) = false
        rw [isArraySuffix]
        · rfl
        · rintro rest' - hrest
          exact hc (List.cons.inj hrest).1

theorem mem_suffixText (w : WrittenType) : '[' ∈ w.suffixText ↔ w.isArray = true := by
  have hblanks (blanks : Blanks) : '[' ∉ blanks.characters := by
    intro h
    have hblank := blanks.blank _ h
    cases hblank
  have hwritten (suffix : TypeSuffix) : '[' ∈ suffix.written ↔ suffix.isArray = true := by
    obtain ⟨isArray, inside, hplain⟩ := suffix
    have hinside : '[' ∉ inside.toList := fun h => absurd (hplain _ h) (by decide)
    cases isArray <;> simp [TypeSuffix.written, hinside]
  unfold suffixText isArray
  rw [List.mem_append, or_iff_left (hblanks w.after), List.mem_flatMap, List.any_eq_true]
  constructor
  · rintro ⟨suffix, hsuffix, hmem⟩
    rw [List.mem_append, or_iff_right (hblanks suffix.1), hwritten] at hmem
    exact ⟨suffix, hsuffix, hmem⟩
  · rintro ⟨suffix, hsuffix, harray⟩
    refine ⟨suffix, hsuffix, ?_⟩
    rw [List.mem_append, hwritten]
    exact Or.inr harray

variable {letters : LetterCase}

/-- How a written name is read: a part of what is behind the name is glued to it,
and the rest is taken for an array suffix. -/
theorem parse_text (letters : LetterCase) (w : WrittenType) :
    ∃ kept cut, w.suffixText = kept ++ cut ∧ isArraySuffix cut = true ∧
      EndsBare (w.schemaText ++ w.name.written ++ kept) ∧
      parse letters w.text = (resolveTypeIdentifier letters
          (w.name.text.toList ++ kept.filter fun c => !isWhitespace c) w.name.quoted).map
        fun part => (w.schemaName letters, part, decide ('[' ∈ cut)) := by
  have hfirst : ∃ c rest, w.schemaText ++ w.name.written = c :: rest ∧ isWhitespace c = false := by
    unfold schemaText
    cases w.schema with
    | none => simpa using written_first w.name
    | some part =>
      obtain ⟨c, rest, heq, hc⟩ := written_first part.1
      refine ⟨c, rest ++ part.2.1.characters ++ '.' :: part.2.2.characters ++ w.name.written, ?_, hc⟩
      simp [heq]
  have hlast : ∃ before c, w.schemaText ++ w.name.written = before ++ [c] ∧
      isWhitespace c = false ∧ c ≠ '[' ∧ c ≠ ']' := by
    obtain ⟨before, c, heq, hc⟩ := written_last w.name
    rw [heq, ← List.append_assoc]
    exact ⟨_, c, rfl, hc⟩
  obtain ⟨kept, cut, htoken, hsplit, hcut, harray, hbare⟩ :=
    @token_append _ w.suffixText hfirst hlast
  have hkept : ∀ c ∈ kept, c ≠ '"' ∧ c ≠ '.' := fun c hc =>
    w.suffixText_characters c (hsplit ▸ List.mem_append_left _ hc)
  have hflag : (token (w.schemaText ++ w.name.written ++ w.suffixText)).2 = decide ('[' ∈ cut) := by
    rw [Bool.eq_iff_iff, harray, decide_eq_true_iff]
  refine ⟨kept, cut, hsplit, hcut, hbare, ?_⟩
  unfold parse text
  rw [String.toList_ofList, token_blanks w.before.blank, htoken, readParts_core w hkept, hflag]
  generalize resolveTypeIdentifier letters _ _ = part
  cases part with
  | none => rfl
  | some part => cases w.schemaName letters <;> rfl

theorem parse_plain {w : WrittenType} (h : w.isPlain = true) :
    parse letters w.text = some (w.schemaName letters, w.typeName letters, w.isArray) := by
  obtain ⟨kept, cut, hsplit, hcut, hbare, hparse⟩ := parse_text letters w
  rw [← w.isArraySuffix_suffixText, hsplit] at h
  have hnone : kept = [] := eq_nil_of_endsBare hbare (isArraySuffix_of_append hcut h)
  subst hnone
  have harray : decide ('[' ∈ cut) = w.isArray := by
    rw [Bool.eq_iff_iff, decide_eq_true_iff, ← w.mem_suffixText, hsplit]
    rfl
  rw [hparse, List.filter_nil, List.append_nil, resolveTypeIdentifier_denoted, harray]
  rfl

/-- An opening bracket behind the name that is kept spoils it. -/
theorem ne_typeName {w : WrittenType} {kept : List Char} {c : Char} (hc : c ∈ kept)
    (hopen : c = '(' ∨ c = '[') {part : String}
    (hpart : resolveTypeIdentifier letters (w.name.text.toList ++ kept) w.name.quoted = some part) :
    part ≠ w.typeName letters := by
  have hnonempty : (w.name.text.toList ++ kept).isEmpty = false := by
    rw [List.isEmpty_eq_false_iff]
    exact List.append_ne_nil_of_right_ne_nil _ (List.ne_nil_of_mem hc)
  have hplain : c.toNat < 128 ∧ c.isAlpha = false := by
    rcases hopen with rfl | rfl <;> decide
  unfold typeName WrittenIdentifier.denoted
  rw [resolveTypeIdentifier, hnonempty] at hpart
  cases hquoted : w.name.quoted with
  | true =>
    rw [hquoted] at hpart
    have hsame : String.ofList (w.name.text.toList ++ kept) = part := Option.some.inj hpart
    rintro rfl
    have hlength := congrArg (fun text : String => text.toList.length) hsame
    have hnone : kept = [] := by simpa using hlength
    exact List.ne_nil_of_mem hc hnone
  | false =>
    rw [hquoted] at hpart
    have hsame : letters.toLowercase (String.ofList (w.name.text.toList ++ kept)) = part :=
      Option.some.inj hpart
    rintro rfl
    have hmem : c ∈ (letters.toLowercase (String.ofList (w.name.text.toList ++ kept))).toList := by
      rw [letters.caseless _ c hplain.1 hplain.2]
      simp [hc]
    rw [hsame] at hmem
    have hname : c ∈ w.name.text.toList := (letters.caseless _ c hplain.1 hplain.2).mp hmem
    have hother := (w.name.bare hquoted c hname).2
    rcases hopen with rfl | rfl
    · simp at hother
    · simp at hother

theorem parse_glued {w : WrittenType} (h : w.isPlain = false) :
    ∃ glued isArray, parse letters w.text = some (w.schemaName letters, glued, isArray) ∧
      glued ≠ w.typeName letters ∧ (isArray = true → w.isArray = true) := by
  obtain ⟨kept, cut, hsplit, hcut, hbare, hparse⟩ := parse_text letters w
  have hkept : kept ≠ [] := by
    rintro rfl
    rw [← w.isArraySuffix_suffixText, hsplit, List.nil_append, hcut] at h
    cases h
  obtain ⟨inner, d, hlast⟩ := (List.eq_nil_or_concat' kept).resolve_left hkept
  have hd : isWhitespace d = false :=
    hbare.1 (w.schemaText ++ w.name.written ++ inner) d (by simp [hlast])
  -- the text behind the name opens with blanks and a bracket
  have hopens : ∃ (blanks : Blanks) (c : Char) (more : List Char),
      w.suffixText = blanks.characters ++ c :: more ∧ (c = '(' ∨ c = '[') := by
    unfold suffixText
    cases hsuffixes : w.suffixes with
    | nil =>
      unfold isPlain at h
      rw [hsuffixes] at h
      cases h
    | cons suffix suffixes =>
      obtain ⟨blanks, isArray, inside, hplain⟩ := suffix
      rw [List.flatMap_cons, List.append_assoc, List.append_assoc]
      cases isArray with
      | true => exact ⟨blanks, '[', _, rfl, Or.inr rfl⟩
      | false => exact ⟨blanks, '(', _, rfl, Or.inl rfl⟩
  obtain ⟨blanks, c, more, htext, hopen⟩ := hopens
  have hmem : c ∈ kept := by
    rw [hsplit, List.append_eq_append_iff] at htext
    have houtside : d ∉ blanks.characters := fun hmem => by
      rw [blanks.blank d hmem] at hd
      cases hd
    rcases htext with ⟨others, hblanks, -⟩ | ⟨others, heq, hrest⟩
    · refine absurd ?_ houtside
      rw [hblanks, hlast]
      simp
    · cases others with
      | nil =>
        rw [List.append_nil] at heq
        refine absurd ?_ houtside
        rw [← heq, hlast]
        simp
      | cons e others =>
        rw [heq, (List.cons.inj hrest).1]
        simp
  have hnonblank : isWhitespace c = false := by
    rcases hopen with rfl | rfl <;> decide
  have hfilter : c ∈ kept.filter fun c => !isWhitespace c :=
    List.mem_filter.mpr ⟨hmem, by simp [hnonblank]⟩
  obtain ⟨part, hpart⟩ : ∃ part, resolveTypeIdentifier letters
      (w.name.text.toList ++ kept.filter fun c => !isWhitespace c) w.name.quoted = some part := by
    have hnonempty : (w.name.text.toList ++ kept.filter fun c => !isWhitespace c).isEmpty = false := by
      rw [List.isEmpty_eq_false_iff]
      exact List.append_ne_nil_of_right_ne_nil _ (List.ne_nil_of_mem hfilter)
    unfold resolveTypeIdentifier
    rw [hnonempty]
    cases w.name.quoted with
    | true => exact ⟨_, rfl⟩
    | false => exact ⟨_, rfl⟩
  refine ⟨part, decide ('[' ∈ cut), by rw [hparse, hpart]; rfl, ne_typeName hfilter hopen hpart, ?_⟩
  intro harray
  rw [decide_eq_true_iff] at harray
  rw [← w.mem_suffixText, hsplit]
  exact List.mem_append_right _ harray

theorem parse_bareText (w : WrittenType) :
    parse letters (w.bareText letters) =
      some (w.schemaName letters, w.typeName letters, false) := by
  have hschema : ∀ schema, w.schemaName letters = some schema → schema ≠ "" := by
    unfold schemaName
    cases w.schema with
    | none =>
      rintro schema ⟨⟩
    | some part =>
      rintro schema ⟨⟩
      exact denoted_nonempty letters part.1
  have hname : w.typeName letters ≠ "" := denoted_nonempty letters w.name
  have hsome : w.schema.isSome = (w.schemaName letters).isSome := (Option.isSome_map).symm
  unfold bareText
  rw [hsome]
  generalize w.schemaName letters = schema at hschema
  generalize w.typeName letters = name at hname
  -- an unqualified name is printed alone, whatever schema stands beside it
  have hprinted : typeReferenceName ⟨schema.getD "", name⟩ schema.isSome =
      typeReferenceName ⟨schema.getD "public", name⟩ schema.isSome := by
    cases schema <;> rfl
  have hnonempty : schema.getD "public" ≠ "" := by
    cases schema with
    | none => decide
    | some schema => exact hschema schema rfl
  have hsame : ∀ other, schema = some other → other = schema.getD "public" := by
    rintro other rfl
    rfl
  rw [hprinted]
  generalize schema.getD "public" = printed at hnonempty hsame
  obtain ⟨kept, cut, htoken, hsplit, -, harray, -⟩ := @token_append _ []
    (typeReferenceName_first hnonempty hname schema.isSome)
    (@typeReferenceName_last ⟨printed, name⟩ hname schema.isSome)
  obtain ⟨rfl, rfl⟩ := List.append_eq_nil_iff.mp hsplit.symm
  rw [List.append_nil] at htoken harray
  have hread := @readParts_typeReferenceName letters ⟨printed, name⟩ hnonempty schema.isSome []
  rw [List.append_nil, List.append_nil, readParts_printed hname] at hread
  rw [parse_eq_some, htoken, hread]
  refine ⟨?_, Bool.eq_false_iff.mpr fun h => by simpa using harray.mp h⟩
  cases schema with
  | none => rfl
  | some other => rw [hsame other rfl]; rfl

end WrittenType

end SafeMigrate
