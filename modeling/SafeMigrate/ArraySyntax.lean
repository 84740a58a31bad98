import Mathlib.Data.List.TakeWhile

/-! The text form of an array: elements between braces, quoted or bare. Reading
one takes the text a character at a time. -/

namespace SafeMigrate.ArraySyntax

/-- What the reader is in the middle of. A bare element keeps, last character
first, which of its characters were escaped. -/
inductive Mode
  | start
  | quoted (read : List Char)
  | quotedEscape (read : List Char)
  | closed (element : Option (List Char))
  | bare (read : List (Char × Bool))
  | bareEscape (read : List (Char × Bool))
  | finished

def isSpace (c : Char) : Bool := c == ' ' || (9 ≤ c.toNat && c.toNat ≤ 13)

def isNullWord (word : List Char) : Bool := word.map Char.toLower == ['n', 'u', 'l', 'l']

/-- A bare element, without the blanks after it. -/
def bareElement (read : List (Char × Bool)) : Option (List Char) :=
  let kept := (read.dropWhile fun c => !c.2 && isSpace c.1).reverse
  if isNullWord (kept.map (·.1)) = true ∧ kept.all (fun c => !c.2) = true then none
  else some (kept.map (·.1))

/-- The elements of an array behind its opening brace; `none` as an element is
a null. -/
def scan : Mode → List Char → Option (List (Option (List Char)))
  | .finished, [] => some []
  | _, [] => none
  | .finished, c :: cs => if isSpace c then scan .finished cs else none
  | .start, c :: cs =>
    if isSpace c then scan .start cs
    else if c = '"' then scan (.quoted []) cs
    else if c = '\\' then scan (.bareEscape []) cs
    else if c = ',' ∨ c = '{' ∨ c = '}' then none
    else scan (.bare [(c, false)]) cs
  | .quoted read, c :: cs =>
    if c = '"' then scan (.closed (some read.reverse)) cs
    else if c = '\\' then scan (.quotedEscape read) cs
    else scan (.quoted (c :: read)) cs
  | .quotedEscape read, c :: cs => scan (.quoted (c :: read)) cs
  | .closed element, c :: cs =>
    if isSpace c then scan (.closed element) cs
    else if c = ',' then (scan .start cs).map (element :: ·)
    else if c = '}' then (scan .finished cs).map (element :: ·)
    else none
  | .bare read, c :: cs =>
    if c = ',' then (scan .start cs).map (bareElement read :: ·)
    else if c = '}' then (scan .finished cs).map (bareElement read :: ·)
    else if c = '\\' then scan (.bareEscape read) cs
    else if c = '"' ∨ c = '{' then none
    else scan (.bare ((c, false) :: read)) cs
  | .bareEscape read, c :: cs => scan (.bare ((c, true) :: read)) cs

def closesAtOnce (text : List Char) : Bool :=
  match text.dropWhile isSpace with
  | '}' :: rest => rest.all isSpace
  | _ => false

def arrayIn (text : List Char) : Option (List (Option (List Char))) :=
  match text.dropWhile isSpace with
  | '{' :: rest => if closesAtOnce rest then some [] else scan .start rest
  | _ => none

/-- The characters that a bare element may consist of. -/
def isPlain (c : Char) : Bool :=
  !isSpace c && !(c == ',' || c == '"' || c == '\\' || c == '{' || c == '}')

theorem isPlain_iff {c : Char} : isPlain c = true ↔ isSpace c = false ∧ c ≠ ',' ∧ c ≠ '"' ∧
    c ≠ '\\' ∧ c ≠ '{' ∧ c ≠ '}' := by
  simp [isPlain, and_assoc]

section Elements

variable {word read rest : List Char}

theorem scan_quoted (escape : Char → List Char) (hescape : ∀ c, escape c = ['\\', c] ∨
      escape c = [c] ∧ c ≠ '"' ∧ c ≠ '\\') :
    scan (.quoted read) (word.flatMap escape ++ '"' :: rest) =
      scan (.closed (some (read.reverse ++ word))) rest := by
  induction word generalizing read with
  | nil => simp [scan]
  | cons c word ih =>
    have hrest := @ih (c :: read)
    rw [List.reverse_cons, List.append_assoc] at hrest
    rcases hescape c with hc | ⟨hc, hquote, hslash⟩
    · simpa [hc, scan] using hrest
    · simpa [hc, scan, hquote, hslash] using hrest

theorem scan_bare (hword : ∀ c ∈ word, isPlain c = true) (read : List (Char × Bool)) :
    scan (.bare read) (word ++ rest) =
      scan (.bare ((word.map fun c => (c, false)).reverse ++ read)) rest := by
  induction word generalizing read with
  | nil => rfl
  | cons c word ih =>
    obtain ⟨hspace, hcomma, hquote, hslash, hopen, hclose⟩ :=
      isPlain_iff.mp (hword c List.mem_cons_self)
    have hrest := ih (fun d hd => hword d (List.mem_cons_of_mem c hd)) ((c, false) :: read)
    simpa [scan, hcomma, hquote, hslash, hopen, hclose] using hrest

/-- A bare word is read as it stands, unless it is the word for a null. -/
theorem bareElement_word (hword : ∀ c ∈ word, isPlain c = true) :
    bareElement (word.map fun c => (c, false)).reverse =
      if isNullWord word = true then none else some word := by
  have hkept : (word.map fun c => (c, false)).reverse.dropWhile (fun c => !c.2 && isSpace c.1) =
      (word.map fun c => (c, false)).reverse := by
    refine List.dropWhile_eq_self_iff.mpr fun hlength => ?_
    have hmem := List.getElem_mem hlength
    obtain ⟨c, hc, heq⟩ := List.mem_map.mp (List.mem_reverse.mp hmem)
    have hspace := (isPlain_iff.mp (hword c hc)).1
    rw [← heq]
    simp [hspace]
  have hall : (word.map fun c => (c, false)).all (fun c => !c.2) = true := by simp
  have hfst : (word.map fun c => (c, false)).map (·.1) = word := by
    rw [List.map_map]
    exact List.map_id word
  unfold bareElement
  rw [hkept, List.reverse_reverse]
  simp only [hfst, hall, and_true]

end Elements

/-- A token that is read as this element wherever it stands. -/
structure Reads (token : List Char) (element : Option (List Char)) : Prop where
  before_comma (rest : List Char) :
    scan .start (token ++ ',' :: rest) = (scan .start rest).map (element :: ·)
  before_brace : scan .start (token ++ ['}']) = some [element]

theorem reads_quoted (escape : Char → List Char) (hescape : ∀ c, escape c = ['\\', c] ∨
      escape c = [c] ∧ c ≠ '"' ∧ c ≠ '\\') (word : List Char) :
    Reads ('"' :: (word.flatMap escape ++ ['"'])) (some word) := by
  have hstart (rest : List Char) : scan .start ('"' :: (word.flatMap escape ++ ['"']) ++ rest) =
      scan (.closed (some word)) rest := by
    have hquoted := @scan_quoted word [] rest escape hescape
    simpa [scan, isSpace] using hquoted
  constructor
  · intro rest
    rw [hstart]
    simp [scan, isSpace]
  · rw [hstart]
    simp [scan, isSpace]

theorem reads_bare {word : List Char} (hne : word ≠ []) (hword : ∀ c ∈ word, isPlain c = true) :
    Reads word (if isNullWord word = true then none else some word) := by
  have hstart (rest : List Char) : scan .start (word ++ rest) =
      scan (.bare (word.map fun c => (c, false)).reverse) rest := by
    cases word with
    | nil => exact absurd rfl hne
    | cons c word =>
      obtain ⟨hspace, hcomma, hquote, hslash, hopen, hclose⟩ :=
        isPlain_iff.mp (hword c List.mem_cons_self)
      have hrest := @scan_bare _ rest
        (fun d hd => hword d (List.mem_cons_of_mem c hd)) [(c, false)]
      simpa [scan, hspace, hcomma, hquote, hslash, hopen, hclose] using hrest
  constructor
  · intro rest
    rw [hstart, ← bareElement_word hword]
    simp [scan]
  · rw [hstart, ← bareElement_word hword]
    simp [scan]

/-- Tokens joined by commas are read one after the other. -/
theorem scan_intercalate {α : Type} {token : α → List Char} {element : α → Option (List Char)}
    (values : List α) (hne : values ≠ []) (h : ∀ v ∈ values, Reads (token v) (element v)) :
    scan .start ([','].intercalate (values.map token) ++ ['}']) = some (values.map element) := by
  induction values with
  | nil => exact absurd rfl hne
  | cons v values ih =>
    have hv := h v List.mem_cons_self
    cases values with
    | nil => simpa using hv.before_brace
    | cons w values =>
      have hrest := ih (List.cons_ne_nil w values) fun u hu => h u (List.mem_cons_of_mem v hu)
      rw [List.map_cons, List.map_cons, List.intercalate_cons_cons, List.append_assoc,
        List.append_assoc, List.singleton_append, hv.before_comma, ← List.map_cons, hrest]
      rfl

theorem scan_of_closesAtOnce {text : List Char} (h : closesAtOnce text = true) :
    scan .start text = none := by
  induction text with
  | nil => rfl
  | cons c text ih =>
    by_cases hspace : isSpace c = true
    · have hrest : closesAtOnce text = true := by
        simpa [closesAtOnce, hspace] using h
      simpa [scan, hspace] using ih hrest
    · have hbrace : c = '}' := by
        simp only [closesAtOnce, List.dropWhile_cons, hspace, Bool.false_eq_true, if_false] at h
        split at h
        · rename_i heq
          exact (List.cons.inj heq).1
        · cases h
      rw [hbrace]
      simp [scan, isSpace]

/-- An array of joined tokens is the list of their elements. -/
theorem arrayIn_intercalate {α : Type} {token : α → List Char} {element : α → Option (List Char)}
    (values : List α) (h : ∀ v ∈ values, Reads (token v) (element v)) :
    arrayIn ('{' :: ([','].intercalate (values.map token) ++ ['}'])) =
      some (values.map element) := by
  by_cases hne : values = []
  · subst hne
    rfl
  · have hscan := scan_intercalate values hne h
    have hopen : closesAtOnce ([','].intercalate (values.map token) ++ ['}']) = false := by
      cases hclose : closesAtOnce ([','].intercalate (values.map token) ++ ['}']) with
      | false => rfl
      | true =>
        rw [scan_of_closesAtOnce hclose] at hscan
        cases hscan
    simpa [arrayIn, isSpace, hopen] using hscan

end SafeMigrate.ArraySyntax
