import SafeMigrate.TypeDisplays

/-! Declarations of built-in types as PostgreSQL reads them. -/

namespace SafeMigrate

open ArraySyntax Trimming

/-- One integer of a modifier, with the blanks around it. -/
structure TypmodArgument where
  leading : List Char
  negative : Bool
  digits : List Char
  trailing : List Char
  nonempty : digits ≠ []
  decimal : ∀ c ∈ digits, isAsciiDigit c = true
  leadingBlank : ∀ c ∈ leading, isSpace c = true
  trailingBlank : ∀ c ∈ trailing, isSpace c = true

namespace TypmodArgument

def magnitude (a : TypmodArgument) : Int :=
  a.digits.foldl (fun n d => 10 * n + (d.toNat - '0'.toNat : Nat)) 0

def value (a : TypmodArgument) : Int := if a.negative then -a.magnitude else a.magnitude

def numeral (a : TypmodArgument) : List Char := if a.negative then '-' :: a.digits else a.digits

def text (a : TypmodArgument) : List Char := a.leading ++ a.numeral ++ a.trailing

end TypmodArgument

structure DeclaredModifier where
  before : List Char
  first : TypmodArgument
  second : Option TypmodArgument
  behind : List Char
  zone : String

/-- A declaration of a built-in type, in small letters. -/
structure Declaration where
  qualifier : String
  name : String
  modifier : Option DeclaredModifier
  arrays : List (List Char)

namespace DeclaredModifier

def inside (m : DeclaredModifier) : List Char :=
  m.first.text ++ (m.second.map fun a => ',' :: a.text).getD []

def parentheses (m : DeclaredModifier) : Parentheses := ⟨m.before, m.inside, m.behind, m.zone⟩

end DeclaredModifier

/-- Types whose modifier says how values are rounded or which fields they have. -/
def precisionTypes : List String := ["interval", "time", "timestamp", "timestamptz", "timetz"]

/-- Spellings that mean one character or bit where no length is written. -/
def lengthOneNames : List String :=
  ["char", "character", "nchar", "national character", "national char", "bit"]

/-- Those of them that are not read so. -/
def nationalNames : List String := ["nchar", "national character", "national char"]

namespace Declaration

def toText (d : Declaration) : DeclarationText :=
  ⟨d.qualifier, d.name, d.modifier.map (·.parentheses), d.arrays⟩

/-- The type; the precision of a `float` chooses between two. -/
def typname (d : Declaration) : Option String :=
  if d.name ∈ intervalNames then some "interval"
  else
    match d.modifier with
    | some m =>
      if d.name = "float" then some (if m.first.value ≤ 24 then "float4" else "float8")
      else serverType (d.qualifier ≠ "") d.toText.written
    | none => serverType (d.qualifier ≠ "") d.name

/-- The modifiers that the server accepts for a type. -/
def accepts (name typname : String) (m : DeclaredModifier) : Prop :=
  let n := m.first.value
  match m.second with
  | some scale => typname = "numeric" ∧ 1 ≤ n ∧ n ≤ 1000 ∧ -1000 ≤ scale.value ∧ scale.value ≤ 1000
  | none =>
    if name = "float" then 1 ≤ n ∧ n ≤ 53
    else if typname = "bpchar" ∨ typname = "varchar" then 1 ≤ n ∧ n ≤ 10485760
    else if typname = "bit" ∨ typname = "varbit" then 1 ≤ n ∧ n ≤ 83886080
    else if typname = "numeric" then 1 ≤ n ∧ n ≤ 1000
    else typname ∈ precisionTypes ∧ m.first.negative = false ∧ n ≤ 2147483647 ∧
      (name ∈ intervalNames → name.endsWith "second" = true)

/-- `atttypmod` as PostgreSQL stores it. -/
def serverTypmod (d : Declaration) (typname : String) : Option Int :=
  match d.modifier with
  | none =>
    if d.name ∈ lengthOneNames then
      if typname = "bpchar" then some 5 else if typname = "bit" then some 1 else none
    else none
  | some m =>
    let n := m.first.value
    if typname = "bpchar" ∨ typname = "varchar" then some (n + 4)
    else if typname = "bit" ∨ typname = "varbit" then some n
    else if typname = "numeric" then
      some (n * 2 ^ 16 + ((m.second.map (·.value)).getD 0) % 2 ^ 11 + 4)
    else none

/-- A declaration of this type that the server accepts. -/
structure Accepted (d : Declaration) (typname : String) : Prop where
  qualifier : d.qualifier ∈ DeclarationText.qualifiers
  name : d.name ∈ DeclarationText.names
  denoted : d.typname = some typname
  modifier : ∀ m ∈ d.modifier, accepts d.name typname m
  before : ∀ m ∈ d.modifier, ∀ c ∈ m.before, isSpace c = true
  behind : ∀ m ∈ d.modifier, ∀ c ∈ m.behind, isSpace c = true
  zone : ∀ m ∈ d.modifier, m.zone = "" ∧ m.behind = [] ∨
    d.name ∈ ["time", "timestamp"] ∧ m.zone ∈ ["with time zone", "without time zone"]
  arrays : ∀ blanks ∈ d.arrays, ∀ c ∈ blanks, isSpace c = true

/-- In any letters, and with any blanks around it. -/
def IsWrittenAs (d : Declaration) (raw : String) : Prop :=
  ∃ lead core trail, raw.toList = lead ++ core ++ trail ∧ (∀ c ∈ lead, isSpace c = true) ∧
    (∀ c ∈ trail, isSpace c = true) ∧ (∀ c ∈ core, c.toNat < 128) ∧
    lowerOutsideQuotes false core = d.toText.text

/-- A reading of the declaration, and a second one of its text, as PostgreSQL takes it. -/
structure ReadAs (d : Declaration) {catalogue : BuiltinTypeCatalogue} (typname : String)
    (t again : ParsedDataType catalogue) : Prop where
  builtin : ∃ b ∈ catalogue.types, b.typname = typname ∧ t.builtin = some b
  atttypmod : typname ∉ precisionTypes → t.atttypmod = d.serverTypmod typname
  againBuiltin : again.builtin = t.builtin
  againTypmod : again.atttypmod = t.atttypmod
  againDimensions : again.arrayDimensions = t.arrayDimensions

/-- No restriction to fields, no length of bits, no implicit length of a national character, and
not the type that only a qualifier tells from `character`. -/
structure Settled (d : Declaration) (typname : String) : Prop where
  fields : d.name ∉ intervalNames
  bit : typname ≠ "bit"
  varbit : typname = "varbit" → d.modifier = none
  national : d.modifier = none → d.name ∉ nationalNames
  char : d.qualifier ≠ "" → d.name ≠ "char"

end Declaration

section Characters

theorem not_isWhitespace_of_isAsciiDigit {c : Char} (h : isAsciiDigit c = true) :
    isWhitespace c = false := by
  obtain ⟨hlow, hhigh⟩ := toNat_of_isAsciiDigit h
  simp only [isWhitespace, Bool.or_eq_false_iff, Bool.and_eq_false_iff, decide_eq_false_iff_not,
    List.contains_eq_mem, List.mem_cons, List.not_mem_nil, or_false]
  omega

theorem isFolded_of_toNat_lt {c : Char} (h : c.toNat < 65) : isFolded c = true := by
  have hlower : c.toLower = c := by
    unfold Char.toLower
    split
    · next hupper =>
      have hlow : 65 ≤ c.toNat := hupper.1
      omega
    · rfl
  simp only [isFolded, hlower, beq_self_eq_true, Bool.and_true, decide_eq_true_eq]
  omega

theorem toNat_of_isSpace {c : Char} (h : isSpace c = true) : c.toNat ≤ 32 := by
  simp only [isSpace, Bool.or_eq_true, beq_iff_eq, Bool.and_eq_true, decide_eq_true_eq] at h
  rcases h with rfl | h
  · decide
  · omega

end Characters

namespace TypmodArgument

variable (a : TypmodArgument)

theorem mem_numeral {c : Char} (hc : c ∈ a.numeral) : c = '-' ∨ isAsciiDigit c = true := by
  unfold numeral at hc
  split at hc
  · rcases List.mem_cons.mp hc with rfl | hc
    · exact Or.inl rfl
    · exact Or.inr (a.decimal c hc)
  · exact Or.inr (a.decimal c hc)

theorem numeral_ne_nil : a.numeral ≠ [] := by
  unfold numeral
  split
  · simp
  · exact a.nonempty

theorem not_isWhitespace_of_mem_numeral {c : Char} (hc : c ∈ a.numeral) :
    isWhitespace c = false := by
  rcases a.mem_numeral hc with rfl | hdigit
  · decide
  · exact not_isWhitespace_of_isAsciiDigit hdigit

theorem trimmed_numeral : Trimmed isWhitespace a.numeral where
  head _ hc := a.not_isWhitespace_of_mem_numeral (List.mem_of_head? hc)
  last _ hc := a.not_isWhitespace_of_mem_numeral (List.mem_of_getLast? hc)

theorem comma_notMem_numeral : ',' ∉ a.numeral := by
  intro hc
  rcases a.mem_numeral hc with heq | hdigit
  · cases heq
  · cases hdigit

theorem trim_text : trimWhitespace a.text = a.numeral :=
  trim_surrounded (fun c hc => isWhitespace_of_isSpace (a.leadingBlank c hc))
    (fun c hc => isWhitespace_of_isSpace (a.trailingBlank c hc)) a.trimmed_numeral

theorem parseInteger_numeral (low high : Int) : parseInteger low high (String.ofList a.numeral) =
    if low ≤ a.value ∧ a.value ≤ high then some a.value else none := by
  have hdigits : ¬(a.digits = [] ∨ a.digits.all isAsciiDigit = false) := by
    rintro (hnil | hall)
    · exact a.nonempty hnil
    · have htrue : a.digits.all isAsciiDigit = true := List.all_eq_true.mpr a.decimal
      rw [htrue] at hall
      cases hall
  unfold parseInteger numeral value magnitude
  rw [String.toList_ofList]
  cases hnegative : a.negative with
  | true =>
    simp only [if_true]
    rw [if_neg hdigits]
  | false =>
    cases hsplit : a.digits with
    | nil => exact absurd hsplit a.nonempty
    | cons d rest =>
      have hd : isAsciiDigit d = true := a.decimal d (by simp [hsplit])
      have hminus : d ≠ '-' := by
        rintro rfl
        cases hd
      have hplus : d ≠ '+' := by
        rintro rfl
        cases hd
      rw [hsplit] at hdigits
      simp only [Bool.false_eq_true, if_false]
      split
      · next heq => exact absurd (List.cons.inj heq).1 hminus
      · next heq => exact absurd (List.cons.inj heq).1 hplus
      · rw [if_neg hdigits]
        rfl

theorem i32FromStr_numeral (hlow : -2147483648 ≤ a.value) (hhigh : a.value ≤ 2147483647) :
    i32FromStr (String.ofList a.numeral) = some a.value := by
  rw [i32FromStr, parseInteger_numeral, if_pos ⟨hlow, hhigh⟩]

end TypmodArgument

section Encoding

theorem encoded_toNat {p : ℕ} (hp : p ≤ 1000) (s : Int) :
    ((BitVec.ofInt 32 p <<< 16) ||| (BitVec.ofInt 32 s &&& 0x7ff#32)).toNat =
      p * 2 ^ 16 + (s % 2 ^ 11).toNat := by
  have hscale : (BitVec.ofInt 32 s &&& 0x7ff#32).toNat = (s % 2 ^ 11).toNat := by
    have hmask : (0x7ff#32).toNat = 2 ^ 11 - 1 := rfl
    rw [BitVec.toNat_and, hmask, Nat.and_two_pow_sub_one_eq_mod, BitVec.toNat_ofInt]
    omega
  have hprecision : (BitVec.ofInt 32 p <<< 16).toNat = p <<< 16 := by
    rw [BitVec.toNat_shiftLeft, BitVec.toNat_ofInt, Nat.shiftLeft_eq, Nat.shiftLeft_eq]
    omega
  have hlow : (s % 2 ^ 11).toNat < 2 ^ 16 := by omega
  rw [BitVec.toNat_or, hprecision, hscale, ← Nat.shiftLeft_add_eq_or_of_lt hlow, Nat.shiftLeft_eq]

theorem encoded_numeric {p : Int} (hlow : 1 ≤ p) (hhigh : p ≤ 1000) (s : Int) :
    i32CheckedAdd ((BitVec.ofInt 32 p <<< 16) ||| (BitVec.ofInt 32 s &&& 0x7ff#32)).toInt 4 =
      some (p * 2 ^ 16 + s % 2 ^ 11 + 4) := by
  obtain ⟨n, rfl⟩ := Int.eq_ofNat_of_zero_le (by omega : 0 ≤ p)
  have hnat := encoded_toNat (p := n) (by omega) s
  have hint : ((BitVec.ofInt 32 n <<< 16) ||| (BitVec.ofInt 32 s &&& 0x7ff#32)).toInt =
      (n : Int) * 2 ^ 16 + s % 2 ^ 11 := by
    rw [BitVec.toInt_eq_toNat_of_lt (by rw [hnat]; omega), hnat]
    omega
  rw [hint, i32CheckedAdd, if_pos (by omega)]

end Encoding

namespace DeclaredModifier

variable {m : DeclaredModifier}

/-- The modifier as it is kept. -/
def kept (m : DeclaredModifier) : String := String.ofList (trimWhitespace m.inside)

theorem kept_single (h : m.second = none) : m.kept = String.ofList m.first.numeral := by
  simp [kept, inside, h, m.first.trim_text]

theorem kept_pair {a : TypmodArgument} (h : m.second = some a) : m.kept =
    String.ofList ((m.first.numeral ++ m.first.trailing) ++ ',' :: (a.leading ++ a.numeral)) := by
  have hsplit : m.inside = m.first.leading ++
      ((m.first.numeral ++ m.first.trailing) ++ ',' :: (a.leading ++ a.numeral)) ++ a.trailing := by
    simp [inside, h, TypmodArgument.text]
  have hmiddle : Trimmed isWhitespace
      ((m.first.numeral ++ m.first.trailing) ++ ',' :: (a.leading ++ a.numeral)) := by
    constructor
    · intro c hc
      rw [List.append_assoc, List.head?_append_of_ne_nil _ m.first.numeral_ne_nil] at hc
      exact m.first.trimmed_numeral.head c hc
    · intro c hc
      rw [← List.cons_append, ← List.append_assoc,
        List.getLast?_append_of_ne_nil _ a.numeral_ne_nil] at hc
      exact a.trimmed_numeral.last c hc
  rw [kept, hsplit]
  exact congrArg String.ofList (trim_surrounded
    (fun c hc => isWhitespace_of_isSpace (m.first.leadingBlank c hc))
    (fun c hc => isWhitespace_of_isSpace (a.trailingBlank c hc)) hmiddle)

theorem trimmed_numeral_trailing (a : TypmodArgument) :
    trimmed (String.ofList (a.numeral ++ a.trailing)) = String.ofList a.numeral := by
  have htrim : trimWhitespace (a.numeral ++ a.trailing) = a.numeral :=
    (trim_append_right fun c hc => isWhitespace_of_isSpace (a.trailingBlank c hc)).trans
      (trim_of_trimmed a.trimmed_numeral)
  rw [trimmed, String.toList_ofList, htrim]

theorem trimmed_leading_numeral (a : TypmodArgument) :
    trimmed (String.ofList (a.leading ++ a.numeral)) = String.ofList a.numeral := by
  have htrim : trimWhitespace (a.leading ++ a.numeral) = a.numeral :=
    (trim_append_left fun c hc => isWhitespace_of_isSpace (a.leadingBlank c hc)).trans
      (trim_of_trimmed a.trimmed_numeral)
  rw [trimmed, String.toList_ofList, htrim]

theorem trimmed_numeral (a : TypmodArgument) :
    trimmed (String.ofList a.numeral) = String.ofList a.numeral := by
  have htrim : trimWhitespace a.numeral = a.numeral := trim_of_trimmed a.trimmed_numeral
  rw [trimmed, String.toList_ofList, htrim]

theorem splitAtComma_none {text : List Char} (h : ',' ∉ text) :
    splitAtComma (String.ofList text) = (String.ofList text, none) := by
  have hall : ∀ c ∈ text, decide (c ≠ ',') = true := by
    intro c hc
    simpa using fun heq : c = ',' => h (heq ▸ hc)
  rw [splitAtComma, String.toList_ofList, List.dropWhile_eq_nil_iff.mpr hall,
    List.takeWhile_eq_self_iff.mpr hall]

theorem splitAtComma_some {left right : List Char} (h : ',' ∉ left) :
    splitAtComma (String.ofList (left ++ ',' :: right)) =
      (String.ofList left, some (String.ofList right)) := by
  have hall : ∀ c ∈ left, decide (c ≠ ',') = true := by
    intro c hc
    simpa using fun heq : c = ',' => h (heq ▸ hc)
  rw [splitAtComma, String.toList_ofList, List.dropWhile_append_of_pos hall,
    List.takeWhile_append_of_pos hall]
  simp

/-- A length is kept up to the longest one of characters. -/
theorem classifyLength_kept (h : m.second = none) (hlow : 1 ≤ m.first.value)
    (hhigh : m.first.value ≤ 83886080) (typname written : String) :
    (classifyLength typname written (some m.kept)).atttypmod =
      if m.first.value ≤ 10485760 then some (m.first.value + 4) else none := by
  have hparse : i32FromStr (trimmed m.kept) = some m.first.value := by
    rw [kept_single h, trimmed_numeral]
    exact m.first.i32FromStr_numeral (by omega) (by omega)
  by_cases hlimit : m.first.value ≤ 10485760
  · have hnew : CharLength.new m.first.value = some ⟨m.first.value, hlow, hlimit⟩ :=
      dif_pos ⟨hlow, hlimit⟩
    simp [classifyLength_some, hparse, hnew, TypeTypmod.atttypmod, CharLength.atttypmod, hlimit]
  · have hnew : CharLength.new m.first.value = none := dif_neg fun h => hlimit h.2
    simp [classifyLength_some, hparse, hnew, TypeTypmod.atttypmod, hlimit]

theorem classifyNumeric_kept (hlow : 1 ≤ m.first.value) (hhigh : m.first.value ≤ 1000)
    (hscale : ∀ scale ∈ m.second, -1000 ≤ scale.value ∧ scale.value ≤ 1000) :
    (classifyNumeric (some m.kept)).atttypmod =
      some (m.first.value * 2 ^ 16 + ((m.second.map (·.value)).getD 0) % 2 ^ 11 + 4) := by
  have hparse := m.first.i32FromStr_numeral (by omega) (by omega)
  have hnew : NumericPrecision.new m.first.value = some ⟨m.first.value, hlow, hhigh⟩ :=
    dif_pos ⟨hlow, hhigh⟩
  cases hsecond : m.second with
  | none =>
    have hsplit := splitAtComma_none m.first.comma_notMem_numeral
    rw [← kept_single hsecond] at hsplit
    have hfirst : trimmed m.kept = String.ofList m.first.numeral := by
      rw [kept_single hsecond, trimmed_numeral]
    unfold classifyNumeric
    simp only [hsplit, hfirst, hparse, Option.bind_some, hnew, TypeTypmod.atttypmod]
    exact encoded_numeric hlow hhigh 0
  | some scale =>
    obtain ⟨hslow, hshigh⟩ := hscale scale hsecond
    have hcomma : ',' ∉ m.first.numeral ++ m.first.trailing := by
      intro hmem
      rcases List.mem_append.mp hmem with hmem | hmem
      · exact m.first.comma_notMem_numeral hmem
      · exact absurd (m.first.trailingBlank _ hmem) (by decide)
    have hsplit : splitAtComma m.kept =
        (String.ofList (m.first.numeral ++ m.first.trailing),
          some (String.ofList (scale.leading ++ scale.numeral))) := by
      rw [kept_pair hsecond]
      exact splitAtComma_some hcomma
    have hparse' := scale.i32FromStr_numeral (by omega) (by omega)
    have hnew' : NumericScale.new scale.value = some ⟨scale.value, hslow, hshigh⟩ :=
      dif_pos ⟨hslow, hshigh⟩
    unfold classifyNumeric
    simp only [hsplit, trimmed_numeral_trailing, hparse, Option.bind_some, hnew,
      trimmed_leading_numeral, hparse', hnew', TypeTypmod.atttypmod]
    exact encoded_numeric hlow hhigh scale.value

end DeclaredModifier

end SafeMigrate
