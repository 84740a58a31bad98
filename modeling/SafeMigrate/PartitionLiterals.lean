import SafeMigrate.ArraySyntax
import SafeMigrate.Statement

/-! Constants of partition bounds as SQL text. -/

namespace SafeMigrate

open ArraySyntax

/-- `char::is_whitespace`, the Unicode property. -/
def isWhitespace (c : Char) : Bool :=
  (9 ≤ c.toNat && c.toNat ≤ 13) || [0x20, 0x85, 0xA0, 0x1680, 0x2028, 0x2029, 0x202F, 0x205F,
    0x3000].contains c.toNat || (0x2000 ≤ c.toNat && c.toNat ≤ 0x200A)

/-- `text.replace('\'', "''")`. -/
def doubleQuotes (text : String) : String :=
  String.ofList (text.toList.flatMap fun c => if c = '\'' then ['\'', '\''] else [c])

def isArraySpecial (value : String) : Bool :=
  value.isEmpty || value.toList.any (fun c => [',', '"', '\\', '{', '}'].contains c) ||
    value.toList.any isWhitespace

/-- One element, quoted if it has to be. -/
def arrayToken (value : String) : String :=
  if isArraySpecial value then
    "\"" ++ String.ofList (value.toList.flatMap fun c =>
      if c = '"' ∨ c = '\\' then ['\\', c] else [c]) ++ "\""
  else value

/-- The text of an array literal, for use inside single quotes. -/
def serializeArrayLiteral (values : List String) : String :=
  "\x7b" ++ ",".intercalate (values.map fun value => doubleQuotes (arrayToken value)) ++ "\x7d"

/-- The value of a string literal with this text between its quotes. -/
def undoubleQuotes : List Char → List Char
  | '\'' :: '\'' :: cs => '\'' :: undoubleQuotes cs
  | c :: cs => c :: undoubleQuotes cs
  | [] => []

/-- What PostgreSQL reads from an array literal. -/
def readArrayLiteral (text : String) : Option (List (Option String)) :=
  (arrayIn (undoubleQuotes text.toList)).map fun elements =>
    elements.map fun element => element.map String.ofList

section Quotes

theorem undoubleQuotes_cons {c : Char} (hc : c ≠ '\'') (cs : List Char) :
    undoubleQuotes (c :: cs) = c :: undoubleQuotes cs := by
  conv_lhs => unfold undoubleQuotes
  split <;> simp_all

theorem undoubleQuotes_double (text : List Char) :
    undoubleQuotes (text.flatMap fun c => if c = '\'' then ['\'', '\''] else [c]) = text := by
  induction text with
  | nil => rfl
  | cons c text ih =>
    by_cases hc : c = '\''
    · subst hc
      simpa [undoubleQuotes] using ih
    · rw [List.flatMap_cons, if_neg hc, List.singleton_append, undoubleQuotes_cons hc, ih]

end Quotes

section Tokens

theorem isWhitespace_of_isSpace {c : Char} (h : isSpace c = true) : isWhitespace c = true := by
  unfold isSpace at h
  rcases Bool.or_eq_true_iff.mp h with hspace | hcontrol
  · rw [eq_of_beq hspace]
    decide
  · simp [isWhitespace, hcontrol]

theorem isPlain_of_not_special {value : String} (h : isArraySpecial value = false) :
    ∀ c ∈ value.toList, isPlain c = true := by
  intro c hc
  simp only [isArraySpecial, Bool.or_eq_false_iff, List.any_eq_false] at h
  obtain ⟨⟨-, hspecial⟩, hspace⟩ := h
  have hnot := hspecial c hc
  have hblank : isSpace c = false := by
    cases hs : isSpace c with
    | false => rfl
    | true => exact absurd (isWhitespace_of_isSpace hs) (hspace c hc)
  refine isPlain_iff.mpr ⟨hblank, ?_⟩
  simpa using hnot

theorem letter_of_toLower {c : Char} (h : c.toLower ∈ ['n', 'u', 'l', 'l']) :
    c ∈ ['n', 'N', 'u', 'U', 'l', 'L'] := by
  unfold Char.toLower at h
  split at h
  · simp only [List.mem_cons, Char.ext_iff, List.not_mem_nil, or_false] at h ⊢
    -- the lower case of an upper-case letter is 32 code points up
    rcases h with h | h | h | h
    all_goals
      have hback := congrArg (· - 32) h
      simp at hback
      simp [hback]
  · simp at h ⊢
    grind

/-- The word for a null needs no quotes. -/
theorem not_special_of_isNullWord {value : String} (h : isNullWord value.toList = true) :
    isArraySpecial value = false := by
  have hmap : value.toList.map Char.toLower = ['n', 'u', 'l', 'l'] := by
    simpa [isNullWord] using h
  have hne : value.isEmpty = false := by
    rw [Bool.eq_false_iff]
    intro hempty
    rw [String.isEmpty_iff.mp hempty] at hmap
    cases hmap
  have hletter (c : Char) (hc : c ∈ value.toList) : c ∈ ['n', 'N', 'u', 'U', 'l', 'L'] := by
    refine letter_of_toLower ?_
    rw [← hmap]
    exact List.mem_map_of_mem hc
  have hplain : ∀ c ∈ ['n', 'N', 'u', 'U', 'l', 'L'],
      [',', '"', '\\', '{', '}'].contains c = false ∧ isWhitespace c = false := by
    intro c hc
    simp only [List.mem_cons, List.not_mem_nil, or_false] at hc
    rcases hc with rfl | rfl | rfl | rfl | rfl | rfl
    all_goals exact ⟨rfl, rfl⟩
  have hspecial : value.toList.any (fun c => [',', '"', '\\', '{', '}'].contains c) = false :=
    List.any_eq_false.mpr fun c hc => by simp only [(hplain c (hletter c hc)).1]; simp
  have hspace : value.toList.any isWhitespace = false :=
    List.any_eq_false.mpr fun c hc => by simp only [(hplain c (hletter c hc)).2]; simp
  rw [isArraySpecial, hne, hspecial, hspace]
  rfl

/-- A token is read as its element, unless that is the bare word for a null. -/
theorem reads_arrayToken (value : String) : Reads (arrayToken value).toList
    (if isNullWord value.toList = true then none else some value.toList) := by
  unfold arrayToken
  cases hspecial : isArraySpecial value with
  | true =>
    have hword : ¬isNullWord value.toList = true := fun hnull => by
      simp [not_special_of_isNullWord hnull] at hspecial
    rw [if_neg hword, if_pos rfl]
    have hread := reads_quoted (fun c => if c = '"' ∨ c = '\\' then ['\\', c] else [c])
      (fun c => ?_) value.toList
    · simpa using hread
    · by_cases hc : c = '"' ∨ c = '\\'
      · exact Or.inl (if_pos hc)
      · exact Or.inr ⟨if_neg hc, not_or.mp hc⟩
  | false =>
    have hne : value.toList ≠ [] := by
      intro hnil
      have hempty : value = "" := String.toList_injective (by simpa using hnil)
      rw [hempty] at hspecial
      cases hspecial
    exact reads_bare hne (isPlain_of_not_special hspecial)

end Tokens

section Arrays

theorem doubleQuotes_toList (text : String) : (doubleQuotes text).toList =
    text.toList.flatMap fun c => if c = '\'' then ['\'', '\''] else [c] := String.toList_ofList

theorem toList_intercalate (separator : String) (texts : List String) :
    (separator.intercalate texts).toList =
      separator.toList.intercalate (texts.map String.toList) := by
  induction texts with
  | nil => simp
  | cons text texts ih =>
    cases texts with
    | nil => simp
    | cons next texts =>
      rw [String.intercalate_cons_cons, String.toList_append, String.toList_append, ih]
      simp

/-- Between its quotes the literal is the tokens between braces. -/
theorem undoubleQuotes_serialize (values : List String) :
    undoubleQuotes (serializeArrayLiteral values).toList =
      '{' :: ([','].intercalate (values.map fun value => (arrayToken value).toList) ++ ['}']) := by
  let double (c : Char) : List Char := if c = '\'' then ['\'', '\''] else [c]
  have hdouble (tokens : List (List Char)) :
      [','].intercalate (tokens.map fun token => token.flatMap double) =
        ([','].intercalate tokens).flatMap double := by
    induction tokens with
    | nil => rfl
    | cons token tokens ih =>
      cases tokens with
      | nil => simp
      | cons next tokens =>
        rw [List.map_cons, List.map_cons, List.intercalate_cons_cons, ← List.map_cons, ih,
          List.intercalate_cons_cons, List.flatMap_append, List.flatMap_append]
        rfl
  have htext : (serializeArrayLiteral values).toList =
      ('{' :: ([','].intercalate (values.map fun value => (arrayToken value).toList) ++
        ['}'])).flatMap double := by
    have hinner := hdouble (values.map fun value => (arrayToken value).toList)
    rw [List.map_map] at hinner
    rw [serializeArrayLiteral, String.toList_append, String.toList_append, toList_intercalate,
      List.map_map, List.flatMap_cons, List.flatMap_append, ← hinner]
    have hmap : (values.map (String.toList ∘ fun value => doubleQuotes (arrayToken value))) =
        values.map ((fun token => token.flatMap double) ∘ fun value => (arrayToken value).toList) :=
      List.map_congr_left fun value _ => doubleQuotes_toList _
    rw [hmap]
    rfl
  rw [htext]
  exact undoubleQuotes_double _

theorem readArrayLiteral_serialize (values : List String) :
    readArrayLiteral (serializeArrayLiteral values) =
      some (values.map fun value => if isNullWord value.toList = true then none else some value) := by
  have hread := arrayIn_intercalate values fun value _ => reads_arrayToken value
  rw [readArrayLiteral, undoubleQuotes_serialize, hread, Option.map_some, List.map_map]
  refine congrArg some (List.map_congr_left fun value _ => ?_)
  by_cases hnull : isNullWord value.toList = true
  · simp [hnull]
  · simp [hnull]

/-- An array literal has its values as elements, in order, if and only if none
of them is the word for a null. -/
theorem arrayLiteral_reads_back_iff (values : List String) :
    readArrayLiteral (serializeArrayLiteral values) = some (values.map some) ↔
      ∀ value ∈ values, isNullWord value.toList = false := by
  rw [readArrayLiteral_serialize, Option.some_inj, List.map_inj_left]
  refine forall_congr' fun value => imp_congr_right fun _ => ?_
  cases isNullWord value.toList <;> simp

/-- Of two text values of a partition bound, one is read as a null. -/
theorem nullWord_lost : readArrayLiteral (serializeArrayLiteral ["open", "null"]) ≠
    some (["open", "null"].map some) := by
  decide +kernel

end Arrays

end SafeMigrate
