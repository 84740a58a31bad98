import SafeMigrate.BuiltinTypes
import SafeMigrate.Trimming
import SafeMigrate.TypeChanges

/-! Declared types as texts: what parsing takes from one, and what is displayed of that. -/

namespace SafeMigrate

open Trimming

def i32CheckedAdd (left right : Int) : Option Int :=
  if -2147483648 ≤ left + right ∧ left + right ≤ 2147483647 then some (left + right) else none

def CharLength.atttypmod (length : CharLength) : Int := length.get + 4

/-- Nothing for a type without a modifier or one that the server rejects. -/
def TypeTypmod.atttypmod : TypeTypmod → Option Int
  | .characterLength length => some length.atttypmod
  | .numeric precision scale =>
    let scale := (scale.map (·.get)).getD 0
    let encoded : BitVec 32 :=
      (BitVec.ofInt 32 precision.get <<< 16) ||| (BitVec.ofInt 32 scale &&& 0x7ff#32)
    i32CheckedAdd encoded.toInt 4
  | .notApplicable | .unbounded | .outOfRange => none

namespace ParsedDataType

variable {catalogue : BuiltinTypeCatalogue}

def atttypmod (t : ParsedDataType catalogue) : Option Int := t.typmod.atttypmod

/-- `str::strip_suffix`. -/
def stripSuffix (text suffix : String) : Option String :=
  if suffix.toList.isSuffixOf text.toList then
    some (String.ofList (text.toList.take (text.toList.length - suffix.toList.length)))
  else none

def splitTzSuffix (canonical : String) : String × String :=
  match stripSuffix canonical " without time zone" with
  | some base => (base, " without time zone")
  | none =>
    match stripSuffix canonical " with time zone" with
    | some base => (base, " with time zone")
    | none => (canonical, "")

def canonicalAndTzSuffix (t : ParsedDataType catalogue) : String × String :=
  splitTzSuffix t.canonicalName

/-- A `bpchar` without a length keeps its name, which `character` does not mean. -/
def displayName (t : ParsedDataType catalogue) : String × String :=
  if t.isNamed "bpchar" ∧ t.typmod = .unbounded then ("bpchar", "") else t.canonicalAndTzSuffix

def displayModifier (t : ParsedDataType catalogue) : String :=
  match t.rawTypmods with
  | some mods => "(" ++ mods ++ ")"
  | none => if t.typmod = .characterLength .implicit then "(1)" else ""

/-- The text of `to_string`. -/
def display (t : ParsedDataType catalogue) : String :=
  t.displayName.1 ++ t.displayModifier ++ t.displayName.2 ++
    String.join (List.replicate t.arrayDimensions "[]")

end ParsedDataType

/-- A modifier in parentheses, the blanks around those, and a time zone behind them. -/
structure Parentheses where
  before : List Char
  inside : List Char
  behind : List Char
  zone : String

structure DeclarationText where
  qualifier : String
  name : String
  modifier : Option Parentheses
  /-- The blanks before each pair of brackets. -/
  arrays : List (List Char)

def Parentheses.text (m : Parentheses) : List Char :=
  m.before ++ '(' :: (m.inside ++ ')' :: (m.behind ++ m.zone.toList))

namespace DeclarationText

def qualifiers : List String := ["", "pg_catalog.", "\"pg_catalog\"."]

def names : List String := builtinNames ++ intervalNames

def base (w : DeclarationText) : List Char :=
  w.qualifier.toList ++ w.name.toList ++ (w.modifier.map Parentheses.text).getD []

def brackets (blanks : List Char) : List Char := blanks ++ ['[', ']']

def text (w : DeclarationText) : List Char := w.base ++ w.arrays.flatMap brackets

/-- The name together with the time zone. -/
def written (w : DeclarationText) : String :=
  match w.modifier with
  | some m => if m.zone = "" then w.name else w.name ++ " " ++ m.zone
  | none => w.name

def typmods (w : DeclarationText) : Option String :=
  w.modifier.map fun m => String.ofList (trimWhitespace m.inside)

structure WellFormed (w : DeclarationText) : Prop where
  qualifier : w.qualifier ∈ qualifiers
  name : w.name ∈ names
  before : ∀ m ∈ w.modifier, ∀ c ∈ m.before, isWhitespace c = true
  behind : ∀ m ∈ w.modifier, ∀ c ∈ m.behind, isWhitespace c = true
  zone : ∀ m ∈ w.modifier, m.zone = "" ∧ m.behind = [] ∨
    w.name ∈ ["time", "timestamp"] ∧ m.zone ∈ ["with time zone", "without time zone"]
  arrays : ∀ blanks ∈ w.arrays, ∀ c ∈ blanks, isWhitespace c = true

section Strip

variable {base text : List Char}

theorem last_brackets (blanks : List Char) : (brackets blanks).getLast? = some ']' := by
  simp [brackets]

theorem trimmed_brackets (hne : base ≠ []) (h : Trimmed isWhitespace base)
    (arrays : List (List Char)) : Trimmed isWhitespace (base ++ arrays.flatMap brackets) where
  head c hc := by
    rw [List.head?_append_of_ne_nil _ hne] at hc
    exact h.head c hc
  last c hc := by
    induction arrays using List.reverseRecOn with
    | nil =>
      apply h.last
      simpa using hc
    | append_singleton arrays blanks _ =>
      have hlast : some ']' = some c := by
        simpa [last_brackets] using hc
      obtain rfl := Option.some_inj.mp hlast
      decide

/-- The brackets come off with the blanks before them. -/
theorem stripArrayDimensions_brackets (hne : base ≠ []) (h : Trimmed isWhitespace base)
    (hlast : base.getLast? ≠ some ']') {arrays : List (List Char)}
    (hblanks : ∀ blanks ∈ arrays, ∀ c ∈ blanks, isWhitespace c = true) {fuel : Nat}
    (hfuel : arrays.length ≤ fuel) :
    stripArrayDimensions fuel (base ++ arrays.flatMap brackets) = (arrays.length, base) := by
  induction arrays using List.reverseRecOn generalizing fuel with
  | nil =>
    cases fuel with
    | zero => simp [stripArrayDimensions]
    | succ fuel =>
      cases hreverse : base.reverse with
      | nil => exact absurd (List.reverse_eq_nil_iff.mp hreverse) hne
      | cons c rest =>
        have hc : c ≠ ']' := by
          rintro rfl
          apply hlast
          rw [← List.head?_reverse, hreverse]
          rfl
        simp only [List.flatMap_nil, List.append_nil, List.length_nil]
        unfold stripArrayDimensions
        rw [hreverse]
        split
        · next hmatch => exact absurd (List.cons.inj hmatch).1 hc
        · rfl
  | append_singleton arrays blanks ih =>
    cases fuel with
    | zero => simp at hfuel
    | succ fuel =>
      have hinner := trimmed_brackets hne h arrays
      have htrim : trimWhitespace (base ++ arrays.flatMap brackets ++ blanks) =
          base ++ arrays.flatMap brackets := by
        have hright : trimWhitespace (base ++ arrays.flatMap brackets ++ blanks) =
            trimWhitespace (base ++ arrays.flatMap brackets) :=
          trim_append_right (hblanks blanks (by simp))
        exact hright.trans (trim_of_trimmed hinner)
      have hrest : stripArrayDimensions fuel (base ++ arrays.flatMap brackets) =
          (arrays.length, base) := by
        apply ih
        · exact fun b hb => hblanks b (by simp [hb])
        · simpa using hfuel
      have hreverse : (base ++ (arrays ++ [blanks]).flatMap brackets).reverse =
          ']' :: '[' :: (base ++ arrays.flatMap brackets ++ blanks).reverse := by
        simp [brackets]
      unfold stripArrayDimensions
      rw [hreverse]
      simp only [List.reverse_reverse, htrim, hrest, List.length_append, List.length_singleton]

theorem splitTypmods_none (h : '(' ∉ text) : splitTypmods text = none := by
  have hdrop : text.dropWhile (· ≠ '(') = [] := by
    apply List.dropWhile_eq_nil_iff.mpr
    intro c hc
    simpa using fun heq : c = '(' => h (heq ▸ hc)
  unfold splitTypmods
  rw [hdrop]

theorem splitTypmods_parentheses {before inside behind : List Char} (hbefore : '(' ∉ before)
    (hbehind : ')' ∉ behind) : splitTypmods (before ++ '(' :: (inside ++ ')' :: behind)) =
      some (before, inside, behind) := by
  have hopen : ∀ c ∈ before, decide (c ≠ '(') = true := by
    intro c hc
    simpa using fun heq : c = '(' => hbefore (heq ▸ hc)
  have hclose : ∀ c ∈ behind.reverse, decide (c ≠ ')') = true := by
    intro c hc
    simpa using fun heq : c = ')' => hbehind (heq ▸ List.mem_reverse.mp hc)
  have hreverse : (inside ++ ')' :: behind).reverse = behind.reverse ++ ')' :: inside.reverse := by
    simp
  unfold splitTypmods
  rw [List.dropWhile_append_of_pos hopen, List.dropWhile_cons_of_neg (by simp)]
  simp only [hreverse]
  rw [List.dropWhile_append_of_pos hclose, List.takeWhile_append_of_pos hclose,
    List.takeWhile_append_of_pos hopen]
  simp

end Strip

section Names

theorem qualifier_characters : ∀ qualifier ∈ qualifiers,
    '(' ∉ qualifier.toList ∧ ∀ c ∈ qualifier.toList.head?, isWhitespace c = false := by
  simp [qualifiers, isWhitespace]

/-- Nothing in a name is taken for a modifier, brackets or a qualifier. -/
def isPlainName (text : List Char) : Bool :=
  !text.isEmpty && !text.contains '(' && (text.head?.all fun c => !isWhitespace c) &&
    (text.getLast?.all fun c => !isWhitespace c && c != ']') &&
    !"pg_catalog.".toList.isPrefixOf text && !"\"pg_catalog\".".toList.isPrefixOf text

def serialNames : List String :=
  ["serial", "serial4", "bigserial", "serial8", "smallserial", "serial2"]

def serialLetters : List (List Char) :=
  [['s', 'e', 'r', 'i', 'a', 'l'], ['s', 'e', 'r', 'i', 'a', 'l', '4'],
    ['b', 'i', 'g', 's', 'e', 'r', 'i', 'a', 'l'], ['s', 'e', 'r', 'i', 'a', 'l', '8'],
    ['s', 'm', 'a', 'l', 'l', 's', 'e', 'r', 'i', 'a', 'l'],
    ['s', 'e', 'r', 'i', 'a', 'l', '2']]

theorem spells_serialNames : Spells serialNames serialLetters := by
  unfold serialNames serialLetters
  repeat first | exact .nil | (apply List.Forall₂.cons; exact Eq.refl _)

/-- Names that are plain and not those of a sequence, by their letters. -/
def PlainNames (names : List String) : Prop :=
  ∃ letters : List (List Char), Spells names letters ∧
    ∀ text ∈ letters, isPlainName text = true ∧ text ∉ serialLetters

theorem plainNames_names : PlainNames names := by
  apply Exists.intro
  apply And.intro
  · unfold names
    repeat first | exact .nil | (apply List.Forall₂.cons; exact Eq.refl _)
  · decide +kernel

theorem names_plain {name : String} (hname : name ∈ names) : isPlainName name.toList = true := by
  obtain ⟨letters, hletters, hplain⟩ := plainNames_names
  obtain ⟨text, htext, rfl⟩ := hletters.mem hname
  rw [String.toList_ofList]
  exact (hplain text htext).1

theorem serialInteger_name {name : String} (hname : name ∈ names) : serialInteger name = name := by
  have hserial : name ∉ serialNames := by
    intro hserial
    obtain ⟨letters, hletters, hplain⟩ := plainNames_names
    obtain ⟨text, htext, heq⟩ := hletters.mem hname
    obtain ⟨other, hother, heq'⟩ := spells_serialNames.mem hserial
    obtain rfl : text = other := String.ofList_injective (heq.symm.trans heq')
    exact (hplain text htext).2 hother
  simp only [serialNames, List.mem_cons, List.not_mem_nil, or_false, not_or] at hserial
  obtain ⟨h, h4, hbig, h8, hsmall, h2⟩ := hserial
  simp [serialInteger, h, h4, hbig, h8, hsmall, h2]

theorem zone_characters : ∀ zone ∈ ["with time zone", "without time zone"],
    zone.toList ≠ [] ∧ ')' ∉ zone.toList ∧
    (∀ c ∈ zone.toList.head?, isWhitespace c = false) ∧
    ∀ c ∈ zone.toList.getLast?, isWhitespace c = false ∧ c ≠ ']' := by
  simp [isWhitespace]

theorem zoned_names : ∀ name ∈ ["time", "timestamp"], name ∈ builtinNames ∧
    ∀ zone ∈ ["with time zone", "without time zone"], name ++ " " ++ zone ∈ builtinNames := by
  decide +kernel

theorem stripPgCatalogQualifier_append {name : String}
    (hplain : ¬"pg_catalog.".toList <+: name.toList)
    (hquoted : ¬"\"pg_catalog\".".toList <+: name.toList) :
    ∀ qualifier ∈ qualifiers, stripPgCatalogQualifier (qualifier ++ name) = name := by
  intro qualifier hqualifier
  simp only [qualifiers, List.mem_cons, List.not_mem_nil, or_false] at hqualifier
  unfold stripPgCatalogQualifier
  rcases hqualifier with rfl | rfl | rfl
  · rw [String.empty_append, if_neg (by simpa using hplain), if_neg (by simpa using hquoted)]
  · rw [if_pos (by simp)]
    apply String.toList_inj.mp
    simp only [String.Slice.toString_eq, String.toList_copy_drop, String.toList_append]
    rfl
  · rw [if_neg (by simp), if_pos (by simp)]
    apply String.toList_inj.mp
    simp only [String.Slice.toString_eq, String.toList_copy_drop, String.toList_append]
    rfl

end Names

section Base

variable {w : DeclarationText}

theorem plain_name {text : List Char} (h : isPlainName text = true) :
    text ≠ [] ∧ '(' ∉ text ∧ (∀ c ∈ text.head?, isWhitespace c = false) ∧
      (∀ c ∈ text.getLast?, isWhitespace c = false) ∧ text.getLast? ≠ some ']' ∧
      ¬"pg_catalog.".toList <+: text ∧ ¬"\"pg_catalog\".".toList <+: text := by
  simp only [isPlainName, Bool.and_eq_true, Bool.not_eq_true'] at h
  obtain ⟨⟨⟨⟨⟨hne, hopen⟩, hhead⟩, hlast⟩, hplain⟩, hquoted⟩ := h
  have hends : ∀ c ∈ text.getLast?, isWhitespace c = false ∧ c ≠ ']' := by
    intro c hc
    rw [Option.mem_def.mp hc] at hlast
    simpa using hlast
  refine ⟨by simpa using hne, by simpa using hopen, ?_, fun c hc => (hends c hc).1,
    fun hc => (hends ']' hc).2 rfl, ?_, ?_⟩
  · intro c hc
    rw [Option.mem_def.mp hc] at hhead
    simpa using hhead
  · intro hprefix
    rw [List.isPrefixOf_iff_prefix.mpr hprefix] at hplain
    cases hplain
  · intro hprefix
    rw [List.isPrefixOf_iff_prefix.mpr hprefix] at hquoted
    cases hquoted

/-- The name and what stands before it. -/
def stem (w : DeclarationText) : List Char := w.qualifier.toList ++ w.name.toList

theorem stem_plain (h : w.WellFormed) : w.stem ≠ [] ∧ '(' ∉ w.stem ∧
    Trimmed isWhitespace w.stem ∧ w.stem.getLast? ≠ some ']' := by
  obtain ⟨hopen, hhead⟩ := qualifier_characters w.qualifier h.qualifier
  obtain ⟨hne, hnopen, hnhead, hnlast, hbracket, -⟩ := plain_name (names_plain h.name)
  have hlast : w.stem.getLast? = w.name.toList.getLast? := List.getLast?_append_of_ne_nil _ hne
  refine ⟨by simp [stem, hne], by simp [stem, hopen, hnopen], ⟨?_, ?_⟩, hlast ▸ hbracket⟩
  · intro c hc
    cases hq : w.qualifier.toList with
    | nil =>
      apply hnhead
      simpa [stem, hq] using hc
    | cons d rest =>
      apply hhead
      simpa [stem, hq] using hc
  · intro c hc
    exact hnlast c (hlast ▸ hc)

theorem base_eq (w : DeclarationText) :
    w.base = w.stem ++ (w.modifier.map Parentheses.text).getD [] := rfl

/-- The last character of a modifier is its parenthesis or that of the time zone. -/
theorem last_modifier (h : w.WellFormed) {m : Parentheses} (hm : w.modifier = some m) :
    ∃ c, m.text.getLast? = some c ∧ isWhitespace c = false ∧ c ≠ ']' := by
  rcases h.zone m hm with ⟨hzone, hbehind⟩ | ⟨-, hzone⟩
  · have htext : m.text = (m.before ++ '(' :: m.inside) ++ [')'] := by
      simp [Parentheses.text, hzone, hbehind]
    exact ⟨')', by rw [htext, List.getLast?_concat], by decide, by decide⟩
  · obtain ⟨hne, -, -, hlast⟩ := zone_characters m.zone hzone
    have htext : m.text.getLast? = m.zone.toList.getLast? := by
      have hsplit : m.text =
          (m.before ++ '(' :: (m.inside ++ ')' :: m.behind)) ++ m.zone.toList := by
        simp [Parentheses.text]
      rw [hsplit, List.getLast?_append_of_ne_nil _ hne]
    cases hc : m.zone.toList.getLast? with
    | none => exact absurd (List.getLast?_eq_none_iff.mp hc) hne
    | some c => exact ⟨c, htext.trans hc, hlast c hc⟩

theorem base_plain (h : w.WellFormed) : w.base ≠ [] ∧ Trimmed isWhitespace w.base ∧
    w.base.getLast? ≠ some ']' := by
  obtain ⟨hne, -, htrimmed, hbracket⟩ := stem_plain h
  cases hm : w.modifier with
  | none =>
    have hbase : w.base = w.stem := by simp [base_eq, hm]
    exact hbase ▸ ⟨hne, htrimmed, hbracket⟩
  | some m =>
    have hbase : w.base = w.stem ++ m.text := by simp [base_eq, hm]
    obtain ⟨c, hc, hblank, hplain⟩ := last_modifier h hm
    have hlast : w.base.getLast? = some c := by
      rw [hbase, List.getLast?_append, hc]
      rfl
    refine ⟨by simp [hbase, hne], ⟨?_, ?_⟩, ?_⟩
    · intro d hd
      rw [hbase, List.head?_append_of_ne_nil _ hne] at hd
      exact htrimmed.head d hd
    · intro d hd
      rw [hlast] at hd
      exact Option.some_inj.mp hd ▸ hblank
    · rw [hlast]
      exact fun heq => hplain (Option.some_inj.mp heq)

theorem written_mem (h : w.WellFormed) : w.written ∈ names := by
  unfold written
  cases hm : w.modifier with
  | none => exact h.name
  | some m =>
    rcases h.zone m hm with ⟨hzone, -⟩ | ⟨hname, hzone⟩
    · simpa [hzone] using h.name
    · have hne : m.zone ≠ "" := by
        intro hempty
        rw [hempty] at hzone
        exact absurd hzone (by decide)
      have hjoined := (zoned_names w.name hname).2 m.zone hzone
      simpa [names, hne] using Or.inl hjoined

/-- A declaration falls into its name with the time zone, without it, and its modifier. -/
theorem splitDeclaration_base (h : w.WellFormed) : splitDeclaration w.base =
    (w.qualifier ++ w.written, w.qualifier ++ w.name, w.typmods) := by
  obtain ⟨-, hopen, htrimmed, -⟩ := stem_plain h
  have hstem : String.ofList w.stem = w.qualifier ++ w.name := by
    apply String.toList_inj.mp
    simp [stem]
  cases hm : w.modifier with
  | none =>
    have hbase : w.base = w.stem := by simp [base_eq, hm]
    have hnone := splitTypmods_none hopen
    simp [splitDeclaration, hbase, hnone, written, typmods, hm, hstem]
  | some m =>
    have hbefore : '(' ∉ w.stem ++ m.before := by
      intro hmem
      rcases List.mem_append.mp hmem with hmem | hmem
      · exact hopen hmem
      · exact absurd (h.before m hm _ hmem) (by decide)
    have htrim : trimWhitespace (w.stem ++ m.before) = w.stem :=
      (trim_append_right (h.before m hm)).trans (trim_of_trimmed htrimmed)
    have hbehind : ')' ∉ m.behind ++ m.zone.toList ∧
        trimWhitespace (m.behind ++ m.zone.toList) = m.zone.toList := by
      rcases h.zone m hm with ⟨hzone, hbehind⟩ | ⟨-, hzone⟩
      · rw [hzone, hbehind]
        exact ⟨by simp, rfl⟩
      · obtain ⟨-, hclose, hhead, hlast⟩ := zone_characters m.zone hzone
        refine ⟨fun hmem => ?_, ?_⟩
        · rcases List.mem_append.mp hmem with hmem | hmem
          · exact absurd (h.behind m hm _ hmem) (by decide)
          · exact hclose hmem
        · exact (trim_append_left (h.behind m hm)).trans
            (trim_of_trimmed ⟨hhead, fun c hc => (hlast c hc).1⟩)
    have hbase : w.base = (w.stem ++ m.before) ++
        '(' :: (m.inside ++ ')' :: (m.behind ++ m.zone.toList)) := by
      simp [base_eq, hm, Parentheses.text]
    have hsplit : splitTypmods w.base =
        some (w.stem ++ m.before, m.inside, m.behind ++ m.zone.toList) := by
      rw [hbase]
      exact splitTypmods_parentheses hbefore hbehind.1
    simp only [splitDeclaration, hsplit, htrim, hbehind.2, hstem, written, typmods, hm,
      Option.map_some]
    by_cases hzone : m.zone = ""
    · simp [hzone, hstem]
    · have hne : m.zone.toList ≠ [] := by simpa using hzone
      have hjoined : String.ofList (w.stem ++ ' ' :: m.zone.toList) =
          w.qualifier ++ (w.name ++ " " ++ m.zone) := by
        apply String.toList_inj.mp
        simp [stem]
      simp [hzone, hne, hjoined]

/-- What parsing makes of a declaration that is written this way. -/
theorem parse_text (letters : LetterCase) (catalogue : BuiltinTypeCatalogue) {raw : String}
    (h : w.WellFormed)
    (hraw : foldUnquotedIdentifierCase letters false (trimWhitespace raw.toList) = w.text) :
    ∃ written typmods, expandFloat w.written w.typmods = (written, typmods) ∧
      (ParsedDataType.parse letters catalogue raw).builtin = catalogue.resolve written ∧
      (ParsedDataType.parse letters catalogue raw).rawTypmods = typmods ∧
      (ParsedDataType.parse letters catalogue raw).arrayDimensions = w.arrays.length ∧
      (ParsedDataType.parse letters catalogue raw).typmod =
        classifyTypmod (catalogue.resolve written) written typmods := by
  obtain ⟨hne, htrimmed, hbracket⟩ := base_plain h
  have hlength : w.arrays.length ≤ w.text.length := by
    have hbrackets : w.arrays.length ≤ (w.arrays.flatMap brackets).length := by
      induction w.arrays with
      | nil => simp
      | cons blanks arrays ih =>
        simp only [List.flatMap_cons, brackets, List.length_append, List.length_cons] at ih ⊢
        omega
    simp only [text, List.length_append]
    omega
  have hstrip : stripArrayDimensions w.text.length w.text = (w.arrays.length, w.base) :=
    stripArrayDimensions_brackets hne htrimmed hbracket h.arrays hlength
  have hmem := written_mem h
  obtain ⟨-, -, -, -, -, hplain, hquoted⟩ := plain_name (names_plain hmem)
  have hqualifier := stripPgCatalogQualifier_append hplain hquoted w.qualifier h.qualifier
  have hserial : serialInteger (expandFloat w.written w.typmods).1 =
      (expandFloat w.written w.typmods).1 := by
    unfold expandFloat
    split
    · split
      · next width hwidth =>
        unfold floatPrecision at hwidth
        split at hwidth
        · cases hwidth
        · split_ifs at hwidth <;> cases hwidth <;> decide
      · exact serialInteger_name hmem
    · exact serialInteger_name hmem
  refine ⟨_, _, rfl, ?_⟩
  simp only [ParsedDataType.parse, hraw, hstrip, splitDeclaration_base h, hqualifier, hserial]
  exact ⟨rfl, rfl, trivial, rfl⟩

end Base

end DeclarationText

end SafeMigrate
