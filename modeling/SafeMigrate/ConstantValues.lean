import SafeMigrate.PartitionClauses

/-! The values of the constants of a bound, and of the literals that the clauses render
them as. A constant that is written plainly keeps its value. -/

namespace SafeMigrate

section Spelling

/-- The content of a string constant, from behind its first quote, and what follows it. -/
def stringConstant : List Char → Option (List Char × List Char)
  | '\'' :: '\'' :: cs => (stringConstant cs).map fun read => ('\'' :: read.1, read.2)
  | '\'' :: cs => some ([], cs)
  | c :: cs => (stringConstant cs).map fun read => (c :: read.1, read.2)
  | [] => none

/-- The content of a text that is one string constant. -/
def quotedContent (raw : String) : Option String :=
  match raw.toList with
  | '\'' :: cs =>
    match stringConstant cs with
    | some (content, []) => some (String.ofList content)
    | _ => none
  | _ => none

/-- Digits, signs, points and exponents. -/
def isNumberChar (c : Char) : Bool := isAsciiDigit c || ['.', 'e', 'E', '+', '-'].contains c

def isNumberText (text : String) : Bool := !text.toList.isEmpty && text.toList.all isNumberChar

def isTruthWord (text : String) : Bool :=
  eqIgnoreAsciiCase text "true" || eqIgnoreAsciiCase text "false"

/-- The type of a number or a truth value without quotes and cast. -/
def wordType (text : String) : String :=
  if text = "true" ∨ text = "false" then "boolean"
  else if text.toList.any fun c => c == '.' || c == 'e' || c == 'E' then "numeric"
  else "integer"

end Spelling

namespace PartitionKey

variable (key : PartitionKey)

/-- The name of its type in the clauses. -/
def clauseType : String :=
  match key.ty.typname with
  | some "bool" => "boolean"
  | some "int2" => "smallint"
  | some "int4" => "integer"
  | some "int8" => "bigint"
  | some "numeric" => if key.ty.hasTypmod then key.dataType else "numeric"
  | some "float4" | some "float8" => key.dataType
  | some "date" => "date"
  | some "uuid" => "uuid"
  | _ => key.ty.display

def isInteger : Bool := [some "int2", some "int4", some "int8"].contains key.ty.typname

def isDecimal : Bool := [some "numeric", some "float4", some "float8"].contains key.ty.typname

/-- A string constant, in which a decimal type finds a number, or a number or truth value for a
column of such a type, without a cast. -/
def isPlain (raw : String) : Bool :=
  match quotedContent raw with
  | some content => !key.isDecimal || isNumberText content
  | none => ((key.isInteger || key.isDecimal) && isNumberText raw) ||
      (key.ty.isNamed "bool" && isTruthWord raw)

end PartitionKey

/-- The values that the types of PostgreSQL give to texts. -/
structure TypeInput (V : Type) where
  /-- What the type of this name reads from a text. -/
  input : String → String → V
  /-- The value of a constant of a bound that is not written plainly, for a column of this
  type. -/
  converted : String → String → V
  isTrue : V → Bool

namespace TypeInput

variable {V : Type} (T : TypeInput V)

def constant (key : PartitionKey) (raw : String) : V :=
  if key.isPlain raw then T.input key.dataType ((quotedContent raw).getD raw)
  else T.converted key.dataType raw

/-- What an expression reads from a literal: a string with its type, or a word, of which a cast
or the spelling tells the type. -/
def literal (text : String) : V :=
  match text.toList with
  | '\'' :: cs =>
    match stringConstant cs with
    | some (content, ':' :: ':' :: type) => T.input (String.ofList type) (String.ofList content)
    | _ => T.converted "" text
  | cs =>
    if beforeCast cs = cs then T.input (wordType text) text
    else T.input (String.ofList (cs.drop ((beforeCast cs).length + 2)))
      (String.ofList (beforeCast cs))

def reading : SqlReading V := { literal := T.literal, element := T.input, isTrue := T.isTrue }

/-- What the types do with the texts of constants. -/
structure Follows (key : PartitionKey) : Prop where
  /-- The name of the type in the clauses is a name of the column's type. -/
  sameType : T.input key.clauseType = T.input key.dataType
  truthWord : key.ty.isNamed "bool" = true → ∀ text word, eqIgnoreAsciiCase text word = true →
    T.input key.dataType text = T.input key.dataType word
  /-- Integers do not depend on a plus sign or leading zeros. -/
  integer : key.isInteger = true → ∀ low high text value, parseInteger low high text = some value →
    T.input key.dataType text = T.input key.dataType (toString value)
  /-- A number does not change with zeros after its point. -/
  padded : key.ty.isNamed "numeric" = true → ∀ text scale, isPlainInteger text = true →
    T.input key.dataType (text ++ "." ++ zeros scale) = T.input key.dataType text

end TypeInput

section Decoding

theorem stringConstant_cons {c : Char} (hc : c ≠ '\'') (cs : List Char) :
    stringConstant (c :: cs) = (stringConstant cs).map fun read => (c :: read.1, read.2) := by
  simp [stringConstant, hc]

theorem stringConstant_doubled (content rest : List Char) (hrest : rest.head? ≠ some '\'') :
    stringConstant ((content.flatMap fun c => if c = '\'' then ['\'', '\''] else [c]) ++
      '\'' :: rest) = some (content, rest) := by
  induction content with
  | nil =>
    cases rest with
    | nil => rfl
    | cons c rest =>
      have hc : c ≠ '\'' := fun heq => hrest (congrArg some heq)
      simp [stringConstant, hc]
  | cons c content ih =>
    by_cases hc : c = '\''
    · subst hc
      simp [stringConstant, ih]
    · simp [stringConstant, hc, ih]

/-- A text that is cut off before some character other than a quote has the same content, if it
is still closed. -/
theorem readQuoted_of_stringConstant {before after content content' : List Char}
    (h : stringConstant (before ++ after) = some (content, []))
    (hafter : after.head? ≠ some '\'') (hread : readQuoted before = some content') :
    content' = content := by
  induction before using readQuoted.induct generalizing content content' with
  | case1 cs ih =>
    rw [readQuoted] at hread
    obtain ⟨inner, hinner, rfl⟩ := Option.map_eq_some_iff.mp hread
    simp only [List.cons_append, stringConstant] at h
    obtain ⟨⟨outer, rest⟩, houter, heq⟩ := Option.map_eq_some_iff.mp h
    cases heq
    rw [ih houter hinner]
  | case2 tail htail =>
    have hclosed : readQuoted ('\'' :: tail) = some [] := by
      cases tail with
      | nil => rfl
      | cons c tail =>
        have hc : c ≠ '\'' := fun heq => htail tail (by rw [heq])
        exact readQuoted.eq_2 (c :: tail) fun rest heq => hc (List.cons.inj heq).1
    have hopen : stringConstant (('\'' :: tail) ++ after) = some ([], tail ++ after) := by
      cases hrest : tail ++ after with
      | nil => simp [hrest, stringConstant]
      | cons c rest =>
        have hc : c ≠ '\'' := by
          rintro rfl
          cases tail with
          | nil => exact hafter (by rw [← List.nil_append after, hrest]; rfl)
          | cons d tail =>
            cases hrest
            exact htail tail rfl
        simp [hrest, stringConstant, hc]
    rw [hclosed] at hread
    rw [hopen] at h
    exact (Option.some.inj hread).symm.trans (Prod.mk.inj (Option.some.inj h)).1
  | case3 c cs hdoubled hc ih =>
    have hplain : c ≠ '\'' := fun heq => hc heq
    simp only [readQuoted] at hread
    obtain ⟨inner, hinner, rfl⟩ := Option.map_eq_some_iff.mp hread
    rw [List.cons_append, stringConstant_cons hplain] at h
    obtain ⟨⟨outer, rest⟩, houter, heq⟩ := Option.map_eq_some_iff.mp h
    cases heq
    rw [ih houter hinner]
  | case4 => cases hread

theorem beforeCast_append (text : List Char) : ∃ after, text = beforeCast text ++ after ∧
    (after = [] ∨ ∃ rest, after = ':' :: ':' :: rest) := by
  induction text using beforeCast.induct with
  | case1 => exact ⟨[], rfl, Or.inl rfl⟩
  | case2 c => exact ⟨[], rfl, Or.inl rfl⟩
  | case3 c d rest h =>
    obtain ⟨rfl, rfl⟩ := h
    exact ⟨':' :: ':' :: rest, by simp [beforeCast], Or.inr ⟨rest, rfl⟩⟩
  | case4 c d rest h ih =>
    obtain ⟨after, hsplit, hafter⟩ := ih
    exact ⟨after, by rw [beforeCast, if_neg h, List.cons_append, ← hsplit], hafter⟩

theorem beforeCast_of_no_colon {text : List Char} (h : ':' ∉ text) : beforeCast text = text := by
  obtain ⟨after, hsplit, rfl | ⟨rest, rfl⟩⟩ := beforeCast_append text
  · simpa using hsplit.symm
  · exact absurd (hsplit ▸ by simp) h

theorem beforeCast_cast {text : List Char} (h : ':' ∉ text) (type : List Char) :
    beforeCast (text ++ ':' :: ':' :: type) = text := by
  induction text with
  | nil => simp [beforeCast]
  | cons c text ih =>
    have hc : c ≠ ':' := fun heq => h (by simp [heq])
    have hrest := ih fun hmem => h (List.mem_cons_of_mem c hmem)
    cases text with
    | nil =>
      simp only [List.nil_append, List.cons_append] at hrest ⊢
      rw [beforeCast, if_neg (by simp [hc]), hrest]
    | cons d text =>
      simp only [List.cons_append] at hrest ⊢
      rw [beforeCast, if_neg (by simp [hc]), hrest]

theorem trimWhitespace_eq_self {text : List Char} (hhead : ∀ c ∈ text.head?, isWhitespace c = false)
    (hlast : ∀ c ∈ text.getLast?, isWhitespace c = false) : trimWhitespace text = text := by
  have hdrop : ∀ cs : List Char, (∀ c ∈ cs.head?, isWhitespace c = false) →
      cs.dropWhile isWhitespace = cs := by
    intro cs h
    cases cs with
    | nil => rfl
    | cons c cs => simp [h c rfl]
  rw [trimWhitespace, hdrop text hhead, hdrop text.reverse (by simpa using hlast),
    List.reverse_reverse]

/-- Trimming the text behind a quote takes white space from its end only. -/
theorem trimWhitespace_quote (cs : List Char) : ∃ before after,
    trimWhitespace ('\'' :: cs) = '\'' :: before ∧ cs = before ++ after ∧
      after.head? ≠ some '\'' := by
  refine ⟨(cs.reverse.dropWhile isWhitespace).reverse, (cs.reverse.takeWhile isWhitespace).reverse,
    ?_, ?_, ?_⟩
  · have hquote : isWhitespace '\'' = false := by decide
    rw [trimWhitespace, List.dropWhile_cons_of_neg (by simp [hquote]), List.reverse_cons,
      List.dropWhile_append]
    cases hrest : cs.reverse.dropWhile isWhitespace with
    | nil => simp [hquote]
    | cons c rest => simp
  · rw [← List.reverse_append, List.takeWhile_append_dropWhile, List.reverse_reverse]
  · intro hhead
    have hmem : '\'' ∈ cs.reverse.takeWhile isWhitespace :=
      List.mem_reverse.mp (List.mem_of_mem_head? hhead)
    exact absurd (List.mem_takeWhile_imp hmem) (by decide)

theorem head?_append_ne {before after : List Char} {c : Char} (hbefore : before.head? ≠ some c)
    (hafter : after.head? ≠ some c) : (before ++ after).head? ≠ some c := by
  cases before with
  | nil => exact hafter
  | cons d before => exact hbefore

theorem beforeCast_quote (cs : List Char) : ∃ before after,
    beforeCast ('\'' :: cs) = '\'' :: before ∧ cs = before ++ after ∧
      after.head? ≠ some '\'' := by
  obtain ⟨after, hsplit, hafter⟩ := beforeCast_append ('\'' :: cs)
  have hhead : after.head? ≠ some '\'' := by
    rcases hafter with rfl | ⟨rest, rfl⟩ <;> simp
  cases hbefore : beforeCast ('\'' :: cs) with
  | nil =>
    rw [hbefore] at hsplit
    exact absurd (congrArg List.head? hsplit).symm hhead
  | cons c before =>
    rw [hbefore] at hsplit
    obtain ⟨rfl, hcs⟩ := List.cons.inj hsplit
    exact ⟨before, after, rfl, hcs, hhead⟩

/-- A string constant is decoded to its content, if it is decoded at all. -/
theorem decode_quoted {raw content decoded : String} (h : quotedContent raw = some content)
    (hdecoded : decodeSqlLiteral raw = some decoded) : decoded = content := by
  unfold quotedContent at h
  split at h
  · rename_i cs hraw
    split at h
    · rename_i inner hinner
      cases h
      obtain ⟨first, a, hfirst, rfl, ha⟩ := trimWhitespace_quote cs
      obtain ⟨second, b, hsecond, rfl, hb⟩ := beforeCast_quote first
      obtain ⟨third, c, hthird, rfl, hc⟩ := trimWhitespace_quote second
      unfold decodeSqlLiteral at hdecoded
      simp only [hraw, hfirst, hsecond, hthird, if_neg (List.cons_ne_nil _ _)] at hdecoded
      obtain ⟨read, hread, rfl⟩ := Option.map_eq_some_iff.mp hdecoded
      rw [List.append_assoc, List.append_assoc] at hinner
      rw [readQuoted_of_stringConstant hinner (head?_append_ne hc (head?_append_ne hb ha)) hread]
    · cases h
  · cases h

/-- The characters at which a text is trimmed, cut or given up. -/
def isBreak (c : Char) : Bool := isWhitespace c || [':', '\'', '(', ')'].contains c

theorem decode_word {raw decoded : String} (h : ∀ c ∈ raw.toList, isBreak c = false)
    (hdecoded : decodeSqlLiteral raw = some decoded) : decoded = raw := by
  have hspace : ∀ c ∈ raw.toList, isWhitespace c = false := fun c hc =>
    (Bool.or_eq_false_iff.mp (h c hc)).1
  have hplain : ∀ c ∈ raw.toList, c ∉ [':', '\'', '(', ')'] := fun c hc =>
    by simpa using (Bool.or_eq_false_iff.mp (h c hc)).2
  have htrim : trimWhitespace raw.toList = raw.toList :=
    trimWhitespace_eq_self (fun c hc => hspace c (List.mem_of_mem_head? hc))
      fun c hc => hspace c (List.mem_of_getLast? hc)
  have hcolon : ':' ∉ raw.toList := fun hmem => hplain _ hmem (by simp)
  unfold decodeSqlLiteral at hdecoded
  simp only [htrim, beforeCast_of_no_colon hcolon] at hdecoded
  split at hdecoded
  · cases hdecoded
  · split at hdecoded
    · rename_i inner hraw
      exact absurd (hplain '\'' (by simp [hraw])) (by simp)
    · split at hdecoded
      · cases hdecoded
      · simpa using hdecoded.symm

theorem isBreak_of_range {c : Char}
    (h : 42 < c.toNat ∧ c.toNat < 58 ∨ 64 < c.toNat ∧ c.toNat < 133) : isBreak c = false := by
  have hspace : isWhitespace c = false := by
    simp only [isWhitespace, List.contains_cons, List.contains_nil, Bool.or_false,
      Bool.or_eq_false_iff, Bool.and_eq_false_iff, beq_eq_false_iff_ne, decide_eq_false_iff_not]
    omega
  have hplain : c ∉ [':', '\'', '(', ')'] := by
    intro hmem
    have hnat := List.mem_map_of_mem (f := Char.toNat) hmem
    simp at hnat
    omega
  simpa [isBreak, hspace] using hplain

theorem isBreak_of_any {cs : List Char} (h : cs.any isBreak = false) :
    ∀ c ∈ cs, isBreak c = false := by
  simpa using h

theorem isBreak_of_number {c : Char} (h : isNumberChar c = true) : isBreak c = false := by
  rcases Bool.or_eq_true_iff.mp h with hdigit | hsign
  · have hrange := toNat_of_isAsciiDigit hdigit
    exact isBreak_of_range (by omega)
  · have hall : ['.', 'e', 'E', '+', '-'].any isBreak = false := by decide
    exact isBreak_of_any hall c (by simpa using hsign)

theorem toLower_of_isBreak {c : Char} (h : isBreak c = true) : c.toLower = c := by
  unfold Char.toLower
  refine dif_neg fun hupper => ?_
  have hrange : 65 ≤ c.toNat ∧ c.toNat ≤ 90 := by
    simpa [UInt32.le_iff_toNat_le] using hupper
  rw [isBreak_of_range (by omega)] at h
  cases h

theorem isBreak_of_truthWord {text : String} (h : isTruthWord text = true) :
    ∀ c ∈ text.toList, isBreak c = false := by
  intro c hc
  by_contra hbreak
  have hsame := toLower_of_isBreak (by simpa using hbreak)
  have hmem : c ∈ (toAsciiLowercase text).toList := by
    rw [toAsciiLowercase, String.toList_ofList]
    exact hsame ▸ List.mem_map_of_mem hc
  have hletters : ("true".toList ++ "false".toList).any isBreak = false := by decide
  refine hbreak (isBreak_of_any hletters c (List.mem_append.mpr ?_))
  rcases Bool.or_eq_true_iff.mp h with hword | hword
  · rw [eq_of_beq hword] at hmem
    exact Or.inl hmem
  · rw [eq_of_beq hword] at hmem
    exact Or.inr hmem

/-- A constant that is written plainly is decoded to what is written. -/
theorem decode_plain {key : PartitionKey} {raw decoded : String} (h : key.isPlain raw = true)
    (hdecoded : decodeSqlLiteral raw = some decoded) :
    decoded = (quotedContent raw).getD raw := by
  unfold PartitionKey.isPlain at h
  cases hquoted : quotedContent raw with
  | some content => exact decode_quoted hquoted hdecoded
  | none =>
    rw [hquoted] at h
    refine decode_word ?_ hdecoded
    rcases Bool.or_eq_true_iff.mp h with hnumber | htruth
    · have hchars := (Bool.and_eq_true_iff.mp (Bool.and_eq_true_iff.mp hnumber).2).2
      exact fun c hc => isBreak_of_number (List.all_eq_true.mp hchars c hc)
    · exact isBreak_of_truthWord (Bool.and_eq_true_iff.mp htruth).2

end Decoding

section Literals

variable {V : Type} {T : TypeInput V}

theorem literal_quoted (content type : String) :
    T.literal ("'" ++ doubleQuotes content ++ "'::" ++ type) = T.input type content := by
  have htext : ("'" ++ doubleQuotes content ++ "'::" ++ type).toList = '\'' ::
      ((content.toList.flatMap fun c => if c = '\'' then ['\'', '\''] else [c]) ++
        '\'' :: ':' :: ':' :: type.toList) := by
    simp [doubleQuotes]
  unfold TypeInput.literal
  rw [htext]
  simp only [stringConstant_doubled content.toList (':' :: ':' :: type.toList) (by simp),
    String.ofList_toList]

theorem doubleQuotes_eq_self {content : String} (h : ∀ c ∈ content.toList, isBreak c = false) :
    doubleQuotes content = content := by
  have hflat : (content.toList.flatMap fun c => if c = '\'' then ['\'', '\''] else [c]) =
      content.toList.flatMap fun c => [c] := by
    refine List.flatMap_congr fun c hc => if_neg ?_
    rintro rfl
    exact absurd (h _ hc) (by decide)
  rw [doubleQuotes, hflat, List.flatMap_singleton', String.ofList_toList]

theorem literal_word {text : String} (h : ∀ c ∈ text.toList, isBreak c = false) :
    T.literal text = T.input (wordType text) text := by
  have hcolon : ':' ∉ text.toList := fun hmem => absurd (h _ hmem) (by decide)
  unfold TypeInput.literal
  split
  · rename_i cs htext
    exact absurd (h '\'' (by simp [htext])) (by decide)
  · rw [if_pos (beforeCast_of_no_colon hcolon)]

theorem literal_cast {text : String} (h : ∀ c ∈ text.toList, isBreak c = false) (hne : text ≠ "")
    (type : String) : T.literal (text ++ "::" ++ type) = T.input type text := by
  have hcolon : ':' ∉ text.toList := fun hmem => absurd (h _ hmem) (by decide)
  have hlist : (text ++ "::" ++ type).toList = text.toList ++ ':' :: ':' :: type.toList := by simp
  have hbefore := beforeCast_cast hcolon type.toList
  unfold TypeInput.literal
  rw [hlist]
  split
  · rename_i cs htext
    cases hchars : text.toList with
    | nil => exact absurd (String.toList_injective (by simpa using hchars)) hne
    | cons c rest =>
      rw [hchars] at htext
      cases htext
      exact absurd (h '\'' (by simp [hchars])) (by decide)
  · rw [hbefore, if_neg (by simp)]
    simp

end Literals

section Numbers

theorem isBreak_of_numberText {text : String} (h : isNumberText text = true) :
    ∀ c ∈ text.toList, isBreak c = false := fun c hc =>
  isBreak_of_number (List.all_eq_true.mp (Bool.and_eq_true_iff.mp h).2 c hc)

theorem ne_empty_of_numberText {text : String} (h : isNumberText text = true) : text ≠ "" := by
  rintro rfl
  cases h

theorem isNumberText_append {text tail : String} (h : isNumberText text = true)
    (htail : tail.toList.all isNumberChar = true) : isNumberText (text ++ tail) = true := by
  obtain ⟨hne, hall⟩ := Bool.and_eq_true_iff.mp h
  simp only [isNumberText, String.toList_append, List.all_append, hall, htail, Bool.and_true]
  simpa using fun hnil => absurd hnil (by simpa using hne)

theorem isAsciiDigit_toString {n : Nat} : ∀ c ∈ (toString n).toList, isAsciiDigit c = true := by
  intro c hc
  rw [Nat.toString_eq_ofList_toDigits, String.toList_ofList] at hc
  have hdigit := Nat.isDigit_of_mem_toDigits (by omega) (by omega) hc
  simpa [Char.isDigit, isAsciiDigit, Char.le_def] using hdigit

theorem isNumberText_toString (value : Int) : isNumberText (toString value) = true := by
  have hnat : ∀ n : Nat, isNumberText (toString n) = true := by
    intro n
    simp only [isNumberText, Bool.and_eq_true]
    refine ⟨by simp, List.all_eq_true.mpr fun c hc => ?_⟩
    rw [isNumberChar, isAsciiDigit_toString c hc, Bool.true_or]
  cases value with
  | ofNat n => exact hnat n
  | negSucc n =>
    have hsucc := Bool.and_eq_true_iff.mp (hnat (n + 1))
    show isNumberText ("-" ++ toString (n + 1)) = true
    simp only [isNumberText, String.toList_append, List.all_append, hsucc.2, Bool.and_true]
    rfl

theorem wordType_toString {value : Int} (h : 0 ≤ value) : wordType (toString value) = "integer" := by
  obtain ⟨n, rfl⟩ := Int.eq_ofNat_of_zero_le h
  have hdigit : ∀ c ∈ (toString (n : Int)).toList, isAsciiDigit c = true :=
    isAsciiDigit_toString (n := n)
  have hword : ∀ word ∈ ["true", "false"], toString (n : Int) ≠ word := by
    intro word hword heq
    have hletter : ∀ word ∈ ["true", "false"], word.toList.all isAsciiDigit = false := by decide
    have hnot := hletter word hword
    rw [← heq, List.all_eq_true.mpr hdigit] at hnot
    cases hnot
  have hpoint : (toString (n : Int)).toList.any (fun c => c == '.' || c == 'e' || c == 'E') =
      false := by
    rw [List.any_eq_false]
    intro c hc hmem
    have hno : ['.', 'e', 'E'].any isAsciiDigit = false := by decide
    have hcase : c ∈ ['.', 'e', 'E'] := by simpa [or_assoc] using hmem
    exact List.any_eq_false.mp hno c hcase (hdigit c hc)
  unfold wordType
  rw [if_neg (by simpa using hword), hpoint]
  rfl

theorem wordType_of_floatLike {text : String} (h : isNumberText text = true)
    (hfloat : numericFloatLike text = true) : wordType text = "numeric" := by
  have hword : ¬(text = "true" ∨ text = "false") := by
    rintro (rfl | rfl) <;> exact absurd h (by decide)
  unfold numericFloatLike at hfloat
  unfold wordType
  cases htext : text.toList with
  | nil =>
    rw [htext] at hfloat
    cases hfloat
  | cons first rest =>
    rw [htext] at hfloat
    have hpoint := (Bool.and_eq_true_iff.mp hfloat).2
    rw [if_neg hword, if_pos (by rw [List.any_cons, hpoint, Bool.or_true])]

end Numbers

section Plain

variable {V : Type} {T : TypeInput V} {key : PartitionKey} {raw literal : String}

theorem isNumberText_of_plain (h : key.isPlain raw = true) (hdecimal : key.isDecimal = true) :
    isNumberText ((quotedContent raw).getD raw) = true := by
  unfold PartitionKey.isPlain at h
  cases hquoted : quotedContent raw with
  | some content =>
    rw [hquoted] at h
    simpa [hdecimal] using h
  | none =>
    rw [hquoted] at h
    have hbool : key.ty.isNamed "bool" = false := by
      have htype : key.ty.typname = some "numeric" ∨ key.ty.typname = some "float4" ∨
          key.ty.typname = some "float8" := by
        simpa [PartitionKey.isDecimal] using hdecimal
      rcases htype with htype | htype | htype <;> simp [ColumnType.isNamed, htype]
    simpa [hdecimal, hbool] using h

theorem literal_unquoted (hT : T.Follows key) {cast decoded : String}
    (hcast : cast = "'::" ++ key.clauseType) (hchars : ∀ c ∈ decoded.toList, isBreak c = false) :
    T.literal ("'" ++ decoded ++ cast) = T.input key.dataType decoded := by
  have hquoted := literal_quoted (T := T) decoded key.clauseType
  rw [doubleQuotes_eq_self hchars, String.append_assoc, ← hcast] at hquoted
  rw [hquoted, hT.sameType]

/-- An integer is rendered as the number that it was parsed to. -/
theorem literal_integer (hT : T.Follows key) (hinteger : key.isInteger = true)
    {cast : String} (hcast : cast = "'::" ++ key.clauseType) {low high value : Int}
    {decoded : String} (hparsed : parseInteger low high decoded = some value) :
    T.literal ("'" ++ toString value ++ cast) = T.input key.dataType decoded := by
  rw [literal_unquoted hT hcast (isBreak_of_numberText (isNumberText_toString value)),
    hT.integer hinteger low high decoded value hparsed]

theorem literal_nat (hT : T.Follows key) (hinteger : key.isInteger = true)
    (hclause : key.clauseType = "integer") {low high value : Int} {decoded : String}
    (hparsed : parseInteger low high decoded = some value) (hnonneg : 0 ≤ value) :
    T.literal (toString value) = T.input key.dataType decoded := by
  rw [literal_word (isBreak_of_numberText (isNumberText_toString value)),
    wordType_toString hnonneg, ← hclause, hT.sameType,
    hT.integer hinteger low high decoded value hparsed]

theorem literal_truthWord (hT : T.Follows key) (htype : key.ty.typname = some "bool")
    {decoded word : String} (hword : word ∈ ["true", "false"])
    (hsame : eqIgnoreAsciiCase decoded word = true) :
    T.literal word = T.input key.dataType decoded := by
  have hclause : key.clauseType = "boolean" := by simp [PartitionKey.clauseType, htype]
  have hnamed : key.ty.isNamed "bool" = true := by simp [ColumnType.isNamed, htype]
  have hliteral : ∀ word ∈ ["true", "false"],
      word.toList.any isBreak = false ∧ wordType word = "boolean" := by decide
  rw [literal_word (isBreak_of_any (hliteral word hword).1), (hliteral word hword).2, ← hclause, hT.sameType,
    hT.truthWord hnamed decoded word hsame]

/-- A number with the scale of its column. -/
theorem literal_scaled (hT : T.Follows key) (htype : key.ty.typname = some "numeric")
    {decoded : String} (hnumber : isNumberText decoded = true) (scale : Nat) :
    T.literal ((if isPlainInteger decoded ∧ 0 < scale then decoded ++ "." ++ zeros scale
      else decoded) ++ "::" ++ key.dataType) = T.input key.dataType decoded := by
  by_cases hpad : isPlainInteger decoded ∧ 0 < scale
  · have hnamed : key.ty.isNamed "numeric" = true := by simp [ColumnType.isNamed, htype]
    have hzeros : ("." ++ zeros scale).toList.all isNumberChar = true := by
      have hzero : isNumberChar '0' = true := by decide
      have hpoint : isNumberChar '.' = true := by decide
      simp [zeros, hzero, hpoint]
    have hscaled : isNumberText (decoded ++ "." ++ zeros scale) = true := by
      rw [String.append_assoc]
      exact isNumberText_append hnumber hzeros
    rw [if_pos hpad, literal_cast (isBreak_of_numberText hscaled)
      (ne_empty_of_numberText hscaled), hT.padded hnamed decoded scale hpad.1]
  · rw [if_neg hpad, literal_cast (isBreak_of_numberText hnumber) (ne_empty_of_numberText hnumber)]

theorem isBreak_of_isoDate {text : String} (h : isIsoDate text = true) :
    ∀ c ∈ text.toList, isBreak c = false := by
  intro c hc
  simp only [isIsoDate, Bool.and_eq_true, beq_iff_eq, List.all_eq_true] at h
  obtain ⟨⟨⟨-, hfourth⟩, hseventh⟩, hall⟩ := h
  obtain ⟨i, hi, rfl⟩ := List.getElem_of_mem hc
  have hplace := hall (text.toList[i], i) (List.mk_mem_zipIdx_iff_getElem?.mpr (by simp [hi]))
  simp only [Bool.or_eq_true, beq_iff_eq] at hplace
  rcases hplace with (rfl | rfl) | hdigit
  · rw [List.getElem?_eq_getElem hi] at hfourth
    rw [Option.some.inj hfourth]
    decide
  · rw [List.getElem?_eq_getElem hi] at hseventh
    rw [Option.some.inj hseventh]
    decide
  · have hrange := toNat_of_isAsciiDigit hdigit
    exact isBreak_of_range (by omega)

theorem isBreak_of_uuid {text : String} (h : isUuid text = true) :
    ∀ c ∈ text.toList, isBreak c = false := by
  intro c hc
  have hchar := List.all_eq_true.mp (Bool.and_eq_true_iff.mp h).2 c hc
  simp only [isAsciiHexdigit, Bool.or_eq_true, beq_iff_eq, Bool.and_eq_true, decide_eq_true_eq,
    Char.le_def, UInt32.le_iff_toNat_le] at hchar
  rcases hchar with ((hdigit | hlower) | hupper) | rfl
  · have hrange := toNat_of_isAsciiDigit hdigit
    exact isBreak_of_range (by omega)
  · have hrange : 97 ≤ c.toNat ∧ c.toNat ≤ 102 := by simpa using hlower
    exact isBreak_of_range (by omega)
  · have hrange : 65 ≤ c.toNat ∧ c.toNat ≤ 70 := by simpa using hupper
    exact isBreak_of_range (by omega)
  · decide

/-- A constant that is written plainly is rendered with its value. -/
theorem literal_of_plain (hT : T.Follows key) (hplain : key.isPlain raw = true)
    (h : deparsePartitionLiteral key.ty key.dataType raw = some literal) :
    T.literal literal = T.constant key raw := by
  obtain ⟨decoded, hdecoded, h⟩ := Option.bind_eq_some_iff.mp h
  obtain ⟨typname, htype, h⟩ := Option.bind_eq_some_iff.mp h
  have hwritten := decode_plain hplain hdecoded
  have hvalue : T.constant key raw = T.input key.dataType decoded := by
    rw [TypeInput.constant, if_pos hplain, hwritten]
  have hnumber : key.isDecimal = true → isNumberText decoded = true := fun hdecimal =>
    hwritten ▸ isNumberText_of_plain hplain hdecimal
  rw [hvalue]
  dsimp only at h
  split at h
  · rename_i hname
    rw [hname] at htype
    split at h
    · cases h
      exact literal_truthWord hT htype (by simp) (by assumption)
    · split at h
      · cases h
        exact literal_truthWord hT htype (by simp) (by assumption)
      · cases h
  split at h
  · rename_i hname
    rw [hname] at htype
    have hclause : key.clauseType = "integer" := by simp [PartitionKey.clauseType, htype]
    have hinteger : key.isInteger = true := by simp [PartitionKey.isInteger, htype]
    obtain ⟨value, hparsed, h⟩ := Option.bind_eq_some_iff.mp h
    split at h
    · split at h
      · cases h
        exact literal_nat hT hinteger hclause hparsed (by assumption)
      · cases h
        exact literal_integer hT hinteger (by rw [hclause]; rfl) hparsed
    · cases h
  split at h
  · rename_i hname
    rw [hname] at htype
    obtain ⟨value, hparsed, h⟩ := Option.bind_eq_some_iff.mp h
    cases h
    have hinteger : key.isInteger = true := by simp [PartitionKey.isInteger, htype]
    exact literal_integer hT hinteger (by simp [PartitionKey.clauseType, htype]) hparsed
  split at h
  · rename_i hname
    rw [hname] at htype
    obtain ⟨value, hparsed, h⟩ := Option.bind_eq_some_iff.mp h
    cases h
    have hinteger : key.isInteger = true := by simp [PartitionKey.isInteger, htype]
    exact literal_integer hT hinteger (by simp [PartitionKey.clauseType, htype]) hparsed
  split at h
  · rename_i hname
    rw [hname] at htype
    have hdecimal := hnumber (by simp [PartitionKey.isDecimal, htype])
    split at h
    · cases h
      exact literal_scaled hT htype hdecimal _
    · rename_i htypmod
      have hclause : key.clauseType = "numeric" := by
        simp [PartitionKey.clauseType, htype, htypmod]
      split at h
      · cases h
        rw [literal_word (isBreak_of_numberText hdecimal),
          wordType_of_floatLike hdecimal (by assumption), ← hclause, hT.sameType]
      · cases h
        exact literal_unquoted hT (by rw [hclause]; rfl) (isBreak_of_numberText hdecimal)
  split at h
  · rename_i hname
    have htype : key.ty.typname = some "float4" ∨ key.ty.typname = some "float8" := by
      rcases hname with hname | hname <;> simp [htype, hname]
    split at h
    · cases h
      have hdecimal := hnumber (by rcases htype with h | h <;> simp [PartitionKey.isDecimal, h])
      rw [String.append_assoc]
      exact literal_unquoted hT
        (by rcases htype with h | h <;> simp [PartitionKey.clauseType, h])
        (isBreak_of_numberText hdecimal)
    · cases h
  split at h
  · rename_i hname
    rw [hname] at htype
    split at h
    · cases h
      exact literal_unquoted hT (by simp [PartitionKey.clauseType, htype])
        (isBreak_of_isoDate (by assumption))
    · cases h
  split at h
  · rename_i hname
    rw [hname] at htype
    split at h
    · cases h
      exact literal_unquoted hT (by simp [PartitionKey.clauseType, htype])
        (isBreak_of_uuid (by assumption))
    · cases h
  split at h
  · rename_i hname
    have hclause : key.clauseType = key.ty.display := by
      simp only [List.mem_cons, List.not_mem_nil, or_false] at hname
      rcases hname with rfl | rfl | rfl | rfl | rfl <;> simp [PartitionKey.clauseType, htype]
    cases h
    rw [literal_quoted, ← hclause, hT.sameType]
  · cases h

end Plain

end SafeMigrate
