import SafeMigrate.LiveAliases
import SafeMigrate.PartitionLiterals
import SafeMigrate.TypeRename

/-! The written name of a type: array brackets come off its end, and the rest is
read a character at a time. -/

namespace SafeMigrate

/-- `str::to_lowercase`: the ASCII letters, and any way to fold the others that
leaves the rest of ASCII alone. -/
structure LetterCase where
  toLowercase : String → String
  nonempty : ∀ text : String, text ≠ "" → toLowercase text ≠ ""
  ascii : ∀ text : String, (∀ c ∈ text.toList, c.toNat < 128) →
    toLowercase text = toAsciiLowercase text
  caseless : ∀ (text : String) (c : Char), c.toNat < 128 → c.isAlpha = false →
    (c ∈ (toLowercase text).toList ↔ c ∈ text.toList)

namespace TypeReference

/-- Array brackets off the end, on the characters in reverse. -/
def stripArrays : Nat → List Char → List Char × Bool
  | 0, reversed => (reversed, false)
  | fuel + 1, reversed =>
    match reversed with
    | ']' :: '[' :: rest => ((stripArrays fuel (rest.dropWhile isWhitespace)).1, true)
    | _ => (reversed, false)

/-- The text without blanks around it and brackets after it, and whether it had those. -/
def token (raw : List Char) : List Char × Bool :=
  let trimmed := (raw.dropWhile isWhitespace).reverse.dropWhile isWhitespace
  let stripped := stripArrays trimmed.length trimmed
  (stripped.1.reverse, stripped.2)

section Reader

variable (letters : LetterCase)

def resolveTypeIdentifier (identifier : List Char) (quoted : Bool) : Option String :=
  if identifier.isEmpty then none
  else if quoted then some (String.ofList identifier)
  else some (letters.toLowercase (String.ofList identifier))

/-- The parts between the dots; `partIsQuoted` is set by a quote anywhere in the part. -/
def readParts (quoted partIsQuoted : Bool) (current : List Char) :
    List Char → Option (List String)
  | [] =>
    if quoted then none
    else (resolveTypeIdentifier letters current partIsQuoted).map fun part => [part]
  | character :: rest =>
    match quoted, character, rest with
    | true, '"', '"' :: rest => readParts true partIsQuoted (current ++ ['"']) rest
    | quoted, character, rest =>
      if character = '"' then readParts (!quoted) true current rest
      else if quoted then readParts quoted partIsQuoted (current ++ [character]) rest
      else if character = '.' then
        match resolveTypeIdentifier letters current partIsQuoted with
        | some part => (readParts false false [] rest).map (part :: ·)
        | none => none
      else if isWhitespace character then readParts quoted partIsQuoted current rest
      else readParts quoted partIsQuoted (current ++ [character]) rest

/-- `parse_type_reference`: the schema, the name, and whether it is an array. -/
def parse (raw : String) : Option (Option String × String × Bool) :=
  match readParts letters false false [] (token raw.toList).1 with
  | some [name] => some (none, name, (token raw.toList).2)
  | some [schema, name] => some (some schema, name, (token raw.toList).2)
  | _ => none

end Reader

/-- Nothing but array brackets and blanks between them. -/
def isArraySuffix : List Char → Bool
  | [] => true
  | '[' :: ']' :: rest => isArraySuffix rest
  | character :: rest => isWhitespace character && isArraySuffix rest

section Suffixes

variable {left right text : List Char}

attribute [local simp] isArraySuffix in
theorem isArraySuffix_cons_blank {c : Char} (hc : isWhitespace c = true) :
    isArraySuffix (c :: text) = isArraySuffix text := by
  cases text with
  | nil => simp [isArraySuffix, hc]
  | cons d text =>
    by_cases hopen : c = '['
    · rw [hopen] at hc
      exact absurd hc (by decide)
    · rw [isArraySuffix, hc, Bool.true_and]
      rintro rest rfl
      exact absurd rfl hopen

theorem isArraySuffix_blanks (h : ∀ c ∈ text, isWhitespace c = true) :
    isArraySuffix text = true := by
  induction text with
  | nil => rfl
  | cons c text ih =>
    rw [isArraySuffix_cons_blank (h c List.mem_cons_self)]
    exact ih fun d hd => h d (List.mem_cons_of_mem _ hd)

theorem isArraySuffix_append (hleft : isArraySuffix left = true) :
    isArraySuffix (left ++ right) = isArraySuffix right := by
  induction left using isArraySuffix.induct with
  | case1 => rfl
  | case2 rest ih => exact ih hleft
  | case3 c rest hne ih =>
    rw [isArraySuffix, Bool.and_eq_true] at hleft
    · rw [List.cons_append, isArraySuffix_cons_blank hleft.1]
      exact ih hleft.2
    · exact hne

theorem mem_isArraySuffix (h : isArraySuffix text = true) {c : Char} (hc : c ∈ text) :
    isWhitespace c = true ∨ c = '[' ∨ c = ']' := by
  induction text using isArraySuffix.induct with
  | case1 => cases hc
  | case2 rest ih =>
    rcases List.mem_cons.mp hc with rfl | hc
    · exact Or.inr (Or.inl rfl)
    · rcases List.mem_cons.mp hc with rfl | hc
      · exact Or.inr (Or.inr rfl)
      · exact ih h hc
  | case3 d rest hne ih =>
    rw [isArraySuffix, Bool.and_eq_true] at h
    · rcases List.mem_cons.mp hc with rfl | hc
      · exact Or.inl h.1
      · exact ih h.2 hc
    · exact hne

/-- What is before an array suffix is one as well, if the whole is. -/
theorem isArraySuffix_of_append (hright : isArraySuffix right = true)
    (h : isArraySuffix (left ++ right) = true) : isArraySuffix left = true := by
  induction left using isArraySuffix.induct with
  | case1 => rfl
  | case2 rest ih => exact ih h
  | case3 c rest hne ih =>
    by_cases hblank : isWhitespace c = true
    · rw [List.cons_append, isArraySuffix_cons_blank hblank] at h
      rw [isArraySuffix_cons_blank hblank]
      exact ih h
    · -- an opening bracket is closed at once, and not by a suffix
      rw [List.cons_append] at h
      cases rest with
      | cons d rest =>
        rw [List.cons_append, isArraySuffix, Bool.and_eq_true] at h
        · exact absurd h.1 hblank
        · rintro rest' rfl hd
          cases hd
          exact hne rest rfl rfl
      | nil =>
        rw [List.nil_append] at h
        cases right with
        | nil => simp [isArraySuffix, hblank] at h
        | cons d right =>
          rw [isArraySuffix, Bool.and_eq_true] at h
          · exact absurd h.1 hblank
          · rintro rest' rfl hd
            cases hd
            rw [isArraySuffix, Bool.and_eq_true] at hright
            · exact absurd hright.1 (by decide)
            · rintro _ h'
              cases h'

/-- An array suffix ends in a blank or in closed brackets. -/
theorem isArraySuffix_ends (h : isArraySuffix text = true) (hne : text ≠ []) :
    (∃ before c, text = before ++ [c] ∧ isWhitespace c = true) ∨
      ∃ before, text = before ++ ['[', ']'] := by
  induction text using isArraySuffix.induct with
  | case1 => exact absurd rfl hne
  | case2 rest ih =>
    by_cases hrest : rest = []
    · exact Or.inr ⟨[], by rw [hrest]; rfl⟩
    · rcases ih h hrest with ⟨before, c, heq, hc⟩ | ⟨before, heq⟩
      · exact Or.inl ⟨'[' :: ']' :: before, c, by rw [heq]; rfl, hc⟩
      · exact Or.inr ⟨'[' :: ']' :: before, by rw [heq]; rfl⟩
  | case3 c rest hne' ih =>
    rw [isArraySuffix, Bool.and_eq_true] at h
    · by_cases hrest : rest = []
      · exact Or.inl ⟨[], c, by rw [hrest]; rfl, h.1⟩
      · rcases ih h.2 hrest with ⟨before, d, heq, hd⟩ | ⟨before, heq⟩
        · exact Or.inl ⟨c :: before, d, by rw [heq]; rfl, hd⟩
        · exact Or.inr ⟨c :: before, by rw [heq]; rfl⟩
    · exact hne'

end Suffixes

section Tokens

/-- The text ends in no blank and in no closed brackets. -/
def EndsBare (text : List Char) : Prop :=
  (∀ before c, text = before ++ [c] → isWhitespace c = false) ∧
    ∀ before, text ≠ before ++ ['[', ']']

theorem eq_nil_of_endsBare {before suffix : List Char} (hbare : EndsBare (before ++ suffix))
    (hsuffix : isArraySuffix suffix = true) : suffix = [] := by
  by_contra hne
  rcases isArraySuffix_ends hsuffix hne with ⟨inner, c, rfl, hc⟩ | ⟨inner, rfl⟩
  · have hblank : isWhitespace c = false := hbare.1 (before ++ inner) c (by simp)
    rw [hc] at hblank
    cases hblank
  · exact hbare.2 (before ++ inner) (by simp)

/-- What dropping leaves begins with a character to keep. -/
theorem head_dropWhile {p : Char → Bool} {l rest : List Char} {c : Char}
    (h : l.dropWhile p = c :: rest) : p c = false := by
  have hhead := List.head?_dropWhile_not p l
  rw [h] at hhead
  simpa using hhead

theorem stripArrays_spec {fuel : Nat} {reversed : List Char} (hfuel : reversed.length ≤ fuel)
    (hhead : ∀ c rest, reversed = c :: rest → isWhitespace c = false) :
    ∃ suffix, reversed.reverse = (stripArrays fuel reversed).1.reverse ++ suffix ∧
      isArraySuffix suffix = true ∧ ((stripArrays fuel reversed).2 = true ↔ '[' ∈ suffix) ∧
      EndsBare (stripArrays fuel reversed).1.reverse := by
  induction fuel generalizing reversed with
  | zero =>
    have hnil : reversed = [] := by simpa using hfuel
    rw [hnil]
    exact ⟨[], rfl, rfl, by simp [stripArrays], by simp [stripArrays, EndsBare]⟩
  | succ fuel ih =>
    unfold stripArrays
    split
    · rename_i rest
      have hrest : rest = rest.takeWhile isWhitespace ++ rest.dropWhile isWhitespace :=
        List.takeWhile_append_dropWhile.symm
      have hlength : (rest.dropWhile isWhitespace).length ≤ fuel := by
        have hle : (rest.dropWhile isWhitespace).length ≤ rest.length := List.length_dropWhile_le _ _
        simp only [List.length_cons] at hfuel
        omega
      obtain ⟨suffix, heq, hsuffix, -, hbare⟩ := ih hlength fun c _ hc => head_dropWhile hc
      refine ⟨suffix ++ (rest.takeWhile isWhitespace).reverse ++ ['[', ']'], ?_, ?_, by simp, hbare⟩
      · rw [← List.append_assoc, ← List.append_assoc, ← heq, ← List.reverse_append, ← hrest]
        simp
      · have hblanks : ∀ c ∈ (rest.takeWhile isWhitespace).reverse, isWhitespace c = true :=
          fun c hc => List.mem_takeWhile_imp (List.mem_reverse.mp hc)
        rw [List.append_assoc, isArraySuffix_append hsuffix,
          isArraySuffix_append (isArraySuffix_blanks hblanks)]
        rfl
    · rename_i hopen
      refine ⟨[], by simp, rfl, by simp, fun before c heq => ?_, fun before heq => ?_⟩
      · have hreversed := congrArg List.reverse heq
        rw [List.reverse_reverse, List.reverse_append] at hreversed
        exact hhead c before.reverse hreversed
      · have hreversed := congrArg List.reverse heq
        rw [List.reverse_reverse, List.reverse_append] at hreversed
        exact hopen before.reverse hreversed

theorem token_spec (raw : List Char) :
    ∃ suffix, raw.dropWhile isWhitespace = (token raw).1 ++ suffix ∧ isArraySuffix suffix = true ∧
      ((token raw).2 = true ↔ '[' ∈ suffix) ∧ EndsBare (token raw).1 := by
  have hreverse : (raw.dropWhile isWhitespace).reverse =
      (raw.dropWhile isWhitespace).reverse.takeWhile isWhitespace ++
        (raw.dropWhile isWhitespace).reverse.dropWhile isWhitespace :=
    List.takeWhile_append_dropWhile.symm
  obtain ⟨suffix, heq, hsuffix, harray, hbare⟩ :=
    stripArrays_spec (Nat.le_refl ((raw.dropWhile isWhitespace).reverse.dropWhile isWhitespace).length)
      fun c _ hc => head_dropWhile hc
  have hblanks : ∀ c ∈ ((raw.dropWhile isWhitespace).reverse.takeWhile isWhitespace).reverse,
      isWhitespace c = true := fun c hc => List.mem_takeWhile_imp (List.mem_reverse.mp hc)
  refine ⟨suffix ++ ((raw.dropWhile isWhitespace).reverse.takeWhile isWhitespace).reverse, ?_, ?_, ?_,
    hbare⟩
  · have hraw := congrArg List.reverse hreverse
    rw [List.reverse_reverse, List.reverse_append, heq, List.append_assoc] at hraw
    exact hraw
  · rw [isArraySuffix_append hsuffix]
    exact isArraySuffix_blanks hblanks
  · refine harray.trans ?_
    rw [List.mem_append]
    refine ⟨Or.inl, fun h => h.resolve_right fun hopen => ?_⟩
    exact absurd (hblanks '[' hopen) (by decide)

/-- A text that ends in neither a blank nor a bracket keeps its end. -/
theorem token_append {text suffix : List Char}
    (hfirst : ∃ c rest, text = c :: rest ∧ isWhitespace c = false)
    (hlast : ∃ before c, text = before ++ [c] ∧ isWhitespace c = false ∧ c ≠ '[' ∧ c ≠ ']') :
    ∃ kept cut, (token (text ++ suffix)).1 = text ++ kept ∧ suffix = kept ++ cut ∧
      isArraySuffix cut = true ∧ ((token (text ++ suffix)).2 = true ↔ '[' ∈ cut) ∧
      EndsBare (text ++ kept) := by
  obtain ⟨cut, heq, hcut, harray, hbare⟩ := token_spec (text ++ suffix)
  have hkept : (text ++ suffix).dropWhile isWhitespace = text ++ suffix := by
    obtain ⟨c, rest, rfl, hc⟩ := hfirst
    exact List.dropWhile_cons_of_neg (by simp [hc])
  rw [hkept, List.append_eq_append_iff] at heq
  rcases heq with ⟨kept, htoken, hsuffix⟩ | ⟨lost, htext, hcut'⟩
  · exact ⟨kept, cut, htoken, hsuffix, hcut, harray, htoken ▸ hbare⟩
  · have hnone : lost = [] := by
      by_contra hne
      obtain ⟨before, c, rfl, hblank, hopen, hclose⟩ := hlast
      have hmem : c ∈ cut := by
        obtain ⟨inner, d, rfl⟩ := (List.eq_nil_or_concat' lost).resolve_left hne
        rw [← List.append_assoc] at htext
        have hlastChar := (List.append_inj' htext rfl).2
        rw [hcut']
        simp_all
      rcases mem_isArraySuffix hcut hmem with h | h | h
      · rw [hblank] at h
        cases h
      · exact hopen h
      · exact hclose h
    subst hnone
    rw [List.append_nil] at htext
    rw [List.nil_append] at hcut'
    refine ⟨[], cut, ?_, hcut'.symm, hcut, harray, ?_⟩
    · rw [List.append_nil]
      exact htext.symm
    · rw [List.append_nil]
      exact htext.symm ▸ hbare

/-- The brackets after the first one decide whether the type is an array. -/
theorem token_isArray {raw : List Char}
    (hsuffix : isArraySuffix (raw.dropWhile (· != '[')) = true) :
    (token raw).2 = true ↔ '[' ∈ raw.dropWhile (· != '[') := by
  obtain ⟨cut, heq, hcut, harray, hbare⟩ := token_spec raw
  rw [harray]
  have hraw : raw = raw.takeWhile (· != '[') ++ raw.dropWhile (· != '[') :=
    List.takeWhile_append_dropWhile.symm
  have hbefore : '[' ∉ raw.takeWhile (· != '[') := fun h => by
    simpa using List.mem_takeWhile_imp h
  have hafter : (raw.dropWhile (· != '[')).dropWhile isWhitespace = raw.dropWhile (· != '[') := by
    cases hrest : raw.dropWhile (· != '[') with
    | nil => rfl
    | cons c rest =>
      have hc : c = '[' := by simpa using head_dropWhile hrest
      exact List.dropWhile_cons_of_neg (by rw [hc]; decide)
  have hsplit : raw.dropWhile isWhitespace =
      (raw.takeWhile (· != '[')).dropWhile isWhitespace ++ raw.dropWhile (· != '[') := by
    conv_lhs => rw [hraw, List.dropWhile_append, hafter]
    split
    · rename_i hempty
      rw [List.isEmpty_iff.mp hempty, List.nil_append]
    · rfl
  generalize raw.dropWhile (· != '[') = suffix at hsuffix hraw hsplit ⊢
  generalize hblanks : (raw.takeWhile (· != '[')).dropWhile isWhitespace = before at hsplit
  have hopen : '[' ∉ before := fun h =>
    hbefore ((List.dropWhile_suffix isWhitespace).subset (hblanks ▸ h))
  rw [hsplit, List.append_eq_append_iff] at heq
  rcases heq with ⟨kept, htoken, hkept⟩ | ⟨lost, hlost, hcut'⟩
  · rw [htoken] at hbare
    have hnone : kept = [] := eq_nil_of_endsBare hbare (isArraySuffix_of_append hcut (hkept ▸ hsuffix))
    rw [hkept, hnone, List.nil_append]
  · rw [hcut', List.mem_append]
    refine ⟨fun h => h.resolve_left fun hmem => hopen ?_, Or.inr⟩
    rw [hlost]
    exact List.mem_append_right _ hmem

end Tokens

section Identifiers

variable {letters : LetterCase} {quoted partIsQuoted : Bool} {current rest : List Char}

attribute [local simp] readParts in
theorem readParts_quote (h : quoted = true → rest.head? ≠ some '"') :
    readParts letters quoted partIsQuoted current ('"' :: rest) =
      readParts letters (!quoted) true current rest := by
  rw [readParts, if_pos rfl]
  rintro rest' hquoted - rfl
  exact h hquoted rfl

/-- Inside quotes every other character stands for itself. -/
theorem readParts_inside {c : Char} (hc : c ≠ '"') :
    readParts letters true partIsQuoted current (c :: rest) =
      readParts letters true partIsQuoted (current ++ [c]) rest := by
  rw [readParts, if_neg hc, if_pos rfl]
  exact fun _ _ hquote => absurd hquote hc

def isOrdinary (c : Char) : Bool := c != '"' && c != '.' && !isWhitespace c

theorem readParts_ordinary {c : Char} (hc : isOrdinary c = true) :
    readParts letters quoted partIsQuoted current (c :: rest) =
      readParts letters quoted partIsQuoted (current ++ [c]) rest := by
  simp only [isOrdinary, Bool.and_eq_true, bne_iff_ne, Bool.not_eq_true'] at hc
  obtain ⟨⟨hquote, hdot⟩, hblank⟩ := hc
  rw [readParts]
  · cases quoted with
    | true => rw [if_neg hquote, if_pos rfl]
    | false => simp [hquote, hdot, hblank]
  · exact fun _ _ h => absurd h hquote

theorem readParts_ordinaries {text : List Char} (h : ∀ c ∈ text, isOrdinary c = true) :
    readParts letters quoted partIsQuoted current (text ++ rest) =
      readParts letters quoted partIsQuoted (current ++ text) rest := by
  induction text generalizing current with
  | nil => simp
  | cons c text ih =>
    rw [List.cons_append, readParts_ordinary (h c List.mem_cons_self),
      ih fun d hd => h d (List.mem_cons_of_mem _ hd)]
    simp

theorem readParts_dot : readParts letters false partIsQuoted current ('.' :: rest) =
    (resolveTypeIdentifier letters current partIsQuoted).bind fun part =>
      (readParts letters false false [] rest).map (part :: ·) := by
  rw [readParts]
  · cases resolveTypeIdentifier letters current partIsQuoted <;> simp
  · exact fun _ h => absurd h (by simp)

theorem readParts_blank {c : Char} (hc : isWhitespace c = true) :
    readParts letters false partIsQuoted current (c :: rest) =
      readParts letters false partIsQuoted current rest := by
  have hquote : c ≠ '"' := by
    rintro rfl
    cases hc
  have hdot : c ≠ '.' := by
    rintro rfl
    cases hc
  rw [readParts]
  · simp [hquote, hdot, hc]
  · exact fun _ h => absurd h (by simp)

/-- Quoted text is read back with its doubled quotes undone. -/
theorem readParts_doubled (text : List Char) (hrest : rest.head? ≠ some '"') :
    readParts letters true partIsQuoted current ((text.flatMap fun c =>
        if c = quotationMark then [c, c] else [c]) ++ '"' :: rest) =
      readParts letters false true (current ++ text) rest := by
  induction text generalizing current with
  | nil =>
    rw [List.flatMap_nil, List.nil_append, List.append_nil]
    exact readParts_quote fun _ => hrest
  | cons c text ih =>
    rw [List.flatMap_cons, List.append_assoc]
    by_cases hc : c = quotationMark
    · rw [if_pos hc, hc]
      show readParts letters true partIsQuoted current ('"' :: '"' :: (text.flatMap _ ++ _)) = _
      rw [readParts, ih]
      simp [quotationMark]
    · have hquote : c ≠ '"' := hc
      rw [if_neg hc, List.cons_append, List.nil_append, readParts_inside hquote, ih]
      simp

def isPlainCharacter (c : Char) : Bool := c.isLower || c.isDigit || c == '_' || c == '$'

theorem ascii_of_plain {c : Char} (h : isPlainCharacter c = true) : c.toNat < 128 := by
  have hlower : c.isLower = (decide (c.val ≥ 'a'.val) && decide (c.val ≤ 'z'.val)) := rfl
  simp only [isPlainCharacter, hlower, Char.isDigit, Bool.or_eq_true, Bool.and_eq_true,
    decide_eq_true_eq, beq_iff_eq, UInt32.le_iff_toNat_le] at h
  rcases h with ((⟨-, h⟩ | ⟨-, h⟩) | rfl) | rfl
  · exact Nat.lt_of_le_of_lt h (by decide)
  · exact Nat.lt_of_le_of_lt h (by decide)
  · decide
  · decide

theorem plain_characters : ∀ n < 128, isPlainCharacter (Char.ofNat n) = true →
    (isOrdinary (Char.ofNat n) && (Char.ofNat n).toLower == Char.ofNat n &&
      !(['[', ']'].contains (Char.ofNat n))) = true := by
  decide +kernel

theorem of_plain {c : Char} (h : isPlainCharacter c = true) :
    isOrdinary c = true ∧ c.toLower = c ∧ c ≠ '[' ∧ c ≠ ']' := by
  have hall := plain_characters c.toNat (ascii_of_plain h)
  rw [Char.ofNat_toNat] at hall
  simpa [and_assoc] using hall h

theorem plain_of_isPlainIdentifier {name : String} (h : isPlainIdentifier name = true) :
    ∀ c ∈ name.toList, isPlainCharacter c = true := by
  unfold isPlainIdentifier at h
  split at h
  · rename_i hname
    simp [hname]
  · rename_i first rest hname
    rw [Bool.and_eq_true, Bool.or_eq_true, List.all_eq_true] at h
    rw [hname]
    intro c hc
    rcases List.mem_cons.mp hc with rfl | hc
    · rcases h.1 with hfirst | hfirst <;> simp [isPlainCharacter, hfirst]
    · exact h.2 c hc

/-- A printed identifier is read as one part, up to what follows it. -/
theorem readParts_quoteIdentifier (name : String) (hrest : rest.head? ≠ some '"') :
    readParts letters false false [] ((quoteIdentifier name).toList ++ rest) =
      readParts letters false (!isPlainIdentifier name) name.toList rest := by
  unfold quoteIdentifier
  by_cases hplain : isPlainIdentifier name = true
  · have hordinary : ∀ c ∈ name.toList, isOrdinary c = true := fun c hc =>
      (of_plain (plain_of_isPlainIdentifier hplain c hc)).1
    rw [if_pos hplain, readParts_ordinaries hordinary, hplain, List.nil_append]
    rfl
  · have hlist (inner : List Char) : quotationMark :: inner ++ [quotationMark] ++ rest =
        '"' :: (inner ++ '"' :: rest) := by
      simp [quotationMark]
    rw [if_neg hplain, String.toList_ofList, hlist]
    have hopen (inner : List Char) : readParts letters false false [] ('"' :: inner) =
        readParts letters true true [] inner := readParts_quote fun h => by cases h
    refine (hopen _).trans ((readParts_doubled name.toList hrest).trans ?_)
    rw [List.nil_append, Bool.eq_false_iff.mpr hplain]
    rfl

theorem resolveTypeIdentifier_printed {name : String} (hname : name ≠ "") :
    resolveTypeIdentifier letters name.toList (!isPlainIdentifier name) = some name := by
  have hne : name.toList.isEmpty = false := by
    rw [List.isEmpty_eq_false_iff]
    intro hnil
    exact hname (String.toList_eq_nil_iff.mp hnil)
  unfold resolveTypeIdentifier
  rw [hne, String.ofList_toList]
  by_cases hplain : isPlainIdentifier name = true
  · have hcharacters := plain_of_isPlainIdentifier hplain
    have hfold : letters.toLowercase name = name := by
      rw [letters.ascii name fun c hc => ascii_of_plain (hcharacters c hc), toAsciiLowercase]
      have hmap : name.toList.map Char.toLower = name.toList := by
        conv_rhs => rw [← List.map_id name.toList]
        exact List.map_congr_left fun c hc => (of_plain (hcharacters c hc)).2.1
      rw [hmap, String.ofList_toList]
    rw [hplain, hfold]
    rfl
  · rw [Bool.eq_false_iff.mpr hplain]
    rfl

theorem readParts_printed {name : String} (hname : name ≠ "") :
    readParts letters false false [] (quoteIdentifier name).toList = some [name] := by
  have hread := @readParts_quoteIdentifier letters [] name (by simp)
  rw [List.append_nil] at hread
  rw [hread, readParts, if_neg (by simp), resolveTypeIdentifier_printed hname]
  rfl

/-- A qualified name is the schema, and what the rest is read as. -/
theorem readParts_qualified {schema : String} (hschema : schema ≠ "") :
    readParts letters false false [] ((quoteIdentifier schema).toList ++ '.' :: rest) =
      (readParts letters false false [] rest).map (schema :: ·) := by
  rw [readParts_quoteIdentifier schema (by simp), readParts_dot,
    resolveTypeIdentifier_printed hschema, Option.bind_some]

/-- The first of the parts begins with `current`, and is quoted if that was. -/
def BeginsWith (letters : LetterCase) (partIsQuoted : Bool) (current : List Char)
    (parts : List String) : Prop :=
  ∃ more isQuoted part others, parts = part :: others ∧ (partIsQuoted = true → isQuoted = true) ∧
    resolveTypeIdentifier letters (current ++ more) isQuoted = some part

theorem BeginsWith.of_append {read : List Char} {parts : List String}
    (h : BeginsWith letters partIsQuoted (current ++ read) parts) :
    BeginsWith letters partIsQuoted current parts := by
  obtain ⟨more, isQuoted, part, others, hparts, hquoted, hpart⟩ := h
  rw [List.append_assoc] at hpart
  exact ⟨read ++ more, isQuoted, part, others, hparts, hquoted, hpart⟩

theorem BeginsWith.of_quoted {parts : List String} (h : BeginsWith letters true current parts) :
    BeginsWith letters partIsQuoted current parts := by
  obtain ⟨more, isQuoted, part, others, hparts, hquoted, hpart⟩ := h
  exact ⟨more, isQuoted, part, others, hparts, fun _ => hquoted rfl, hpart⟩

theorem beginsWith_of_readParts {text : List Char} {parts : List String}
    (h : readParts letters quoted partIsQuoted current text = some parts) :
    BeginsWith letters partIsQuoted current parts := by
  have hsame {partIsQuoted : Bool} {current : List Char} {part : String} {others : List String}
      (hpart : resolveTypeIdentifier letters current partIsQuoted = some part) :
      BeginsWith letters partIsQuoted current (part :: others) :=
    ⟨[], partIsQuoted, part, others, rfl, id, by rwa [List.append_nil]⟩
  induction quoted, partIsQuoted, current, text using readParts.induct letters generalizing parts with
  | case1 => cases h
  | case2 quoted partIsQuoted current hquoted =>
    rw [readParts, if_neg hquoted, Option.map_eq_some_iff] at h
    obtain ⟨part, hpart, rfl⟩ := h
    exact hsame hpart
  | case3 partIsQuoted current rest ih =>
    rw [readParts] at h
    exact (ih h).of_append
  | case4 partIsQuoted current quoted rest hfirst ih =>
    rw [readParts_quote] at h
    · exact (ih h).of_quoted
    · intro hquoted hhead
      obtain ⟨rest', rfl⟩ := List.head?_eq_some_iff.mp hhead
      exact hfirst rest' hquoted rfl rfl
  | case5 partIsQuoted current character rest hquote hfirst ih =>
    rw [readParts_inside hquote] at h
    exact (ih h).of_append
  | case6 partIsQuoted current quoted rest hquoted part hpart =>
    rw [Bool.not_eq_true] at hquoted
    rw [hquoted, readParts_dot, hpart, Option.bind_some, Option.map_eq_some_iff] at h
    obtain ⟨others, -, rfl⟩ := h
    exact hsame hpart
  | case7 partIsQuoted current quoted rest hquoted hnone =>
    rw [Bool.not_eq_true] at hquoted
    rw [hquoted, readParts_dot, hnone] at h
    cases h
  | case8 partIsQuoted current quoted character rest hfirst hquote hquoted hdot hblank ih =>
    rw [Bool.not_eq_true] at hquoted
    subst hquoted
    rw [readParts_blank hblank] at h
    exact ih h
  | case9 partIsQuoted current quoted character rest hfirst hquote hquoted hdot hblank ih =>
    have hordinary : isOrdinary character = true := by simp [isOrdinary, hquote, hdot, hblank]
    rw [readParts_ordinary hordinary] at h
    exact (ih h).of_append

/-- With a bracket behind a printed name, another name is read. -/
theorem ne_of_beginsWith {name part : String} {others : List String}
    (h : BeginsWith letters (!isPlainIdentifier name) (name.toList ++ ['[']) (part :: others)) :
    part ≠ name := by
  obtain ⟨more, isQuoted, part', others', hparts, hquoted, hpart⟩ := h
  cases hparts
  rintro rfl
  have hnonempty : (part.toList ++ ['['] ++ more).isEmpty = false := by simp
  rw [resolveTypeIdentifier, hnonempty] at hpart
  cases isQuoted with
  | true =>
    have hlength := congrArg (Option.map fun text : String => text.toList.length) hpart
    simp at hlength
  | false =>
    have hplain : isPlainIdentifier part = true := by
      by_contra hplain
      rw [Bool.not_eq_true] at hplain
      rw [hplain] at hquoted
      cases hquoted rfl
    have hfold : letters.toLowercase (String.ofList (part.toList ++ ['['] ++ more)) = part :=
      Option.some.inj hpart
    have hbracket : '[' ∈ (letters.toLowercase
        (String.ofList (part.toList ++ ['['] ++ more))).toList := by
      rw [letters.caseless _ _ (by decide) (by decide)]
      simp
    rw [hfold] at hbracket
    exact (of_plain (plain_of_isPlainIdentifier hplain '[' hbracket)).2.2.1 rfl

theorem quoteIdentifier_first {name : String} (hname : name ≠ "") :
    ∃ c rest, (quoteIdentifier name).toList = c :: rest ∧ isWhitespace c = false := by
  unfold quoteIdentifier
  by_cases hplain : isPlainIdentifier name = true
  · rw [if_pos hplain]
    cases hlist : name.toList with
    | nil => exact absurd (String.toList_eq_nil_iff.mp hlist) hname
    | cons c rest =>
      have hordinary := (of_plain (plain_of_isPlainIdentifier hplain c (by simp [hlist]))).1
      simp only [isOrdinary, Bool.and_eq_true, Bool.not_eq_true'] at hordinary
      exact ⟨c, rest, rfl, hordinary.2⟩
  · rw [if_neg hplain, String.toList_ofList]
    exact ⟨quotationMark, _, rfl, by decide⟩

theorem quoteIdentifier_last {name : String} (hname : name ≠ "") :
    ∃ before c, (quoteIdentifier name).toList = before ++ [c] ∧ isWhitespace c = false ∧ c ≠ '[' ∧
      c ≠ ']' := by
  unfold quoteIdentifier
  by_cases hplain : isPlainIdentifier name = true
  · rw [if_pos hplain]
    rcases List.eq_nil_or_concat' name.toList with hlist | ⟨before, c, hlist⟩
    · exact absurd (String.toList_eq_nil_iff.mp hlist) hname
    · obtain ⟨hordinary, -, hopen, hclose⟩ :=
        of_plain (plain_of_isPlainIdentifier hplain c (by simp [hlist]))
      simp only [isOrdinary, Bool.and_eq_true, Bool.not_eq_true'] at hordinary
      exact ⟨before, c, hlist, hordinary.2, hopen, hclose⟩
  · rw [if_neg hplain, String.toList_ofList]
    exact ⟨_, quotationMark, rfl, by decide⟩

end Identifiers

section RoundTrip

variable {letters : LetterCase} {id : ObjectId}

theorem typeReferenceName_toList (id : ObjectId) (qualified : Bool) :
    (typeReferenceName id qualified).toList =
      (if qualified then (quoteIdentifier id.schema).toList ++ ['.'] else []) ++
        (quoteIdentifier id.name).toList := by
  cases qualified with
  | true => simp [typeReferenceName]
  | false => rfl

theorem typeReferenceName_first (hschema : id.schema ≠ "") (hname : id.name ≠ "")
    (qualified : Bool) : ∃ c rest, (typeReferenceName id qualified).toList = c :: rest ∧
      isWhitespace c = false := by
  rw [typeReferenceName_toList]
  cases qualified with
  | true =>
    obtain ⟨c, rest, heq, hc⟩ := quoteIdentifier_first hschema
    exact ⟨c, _, by rw [heq]; rfl, hc⟩
  | false => exact quoteIdentifier_first hname

theorem typeReferenceName_last (hname : id.name ≠ "") (qualified : Bool) :
    ∃ before c, (typeReferenceName id qualified).toList = before ++ [c] ∧ isWhitespace c = false ∧
      c ≠ '[' ∧ c ≠ ']' := by
  obtain ⟨before, c, heq, hc⟩ := quoteIdentifier_last hname
  rw [typeReferenceName_toList, heq, ← List.append_assoc]
  exact ⟨_, c, rfl, hc⟩

/-- What is read of a printed name and the text behind it. -/
theorem readParts_typeReferenceName (hschema : id.schema ≠ "") (qualified : Bool)
    (rest : List Char) : readParts letters false false []
        ((typeReferenceName id qualified).toList ++ rest) =
      (readParts letters false false [] ((quoteIdentifier id.name).toList ++ rest)).map
        ((if qualified then [id.schema] else []) ++ ·) := by
  rw [typeReferenceName_toList]
  cases qualified with
  | true =>
    have hread := @readParts_qualified letters ((quoteIdentifier id.name).toList ++ rest) _ hschema
    simpa using hread
  | false => simp

theorem parse_eq_some {raw : String} {schema : Option String} {name : String} {isArray : Bool} :
    parse letters raw = some (schema, name, isArray) ↔
      readParts letters false false [] (token raw.toList).1 = some (schema.toList ++ [name]) ∧
        (token raw.toList).2 = isArray := by
  unfold parse
  split
  · rename_i part hparts
    cases schema <;> simp [hparts]
  · rename_i first second hparts
    cases schema <;> simp [hparts, and_assoc]
  · rename_i hone htwo
    refine iff_of_false (by simp) fun h => ?_
    cases schema with
    | none => exact hone _ h.1
    | some schema => exact htwo _ _ h.1

/-- A bracket behind the printed name spoils it. -/
theorem readParts_bracket (hschema : id.schema ≠ "") {schema : Option String}
    (hqualified : ∀ written, schema = some written → written = id.schema) (rest : List Char) :
    readParts letters false false [] ((typeReferenceName id schema.isSome).toList ++ '[' :: rest) ≠
      some (schema.toList ++ [id.name]) := by
  rw [readParts_typeReferenceName hschema, readParts_quoteIdentifier id.name (by simp),
    readParts_ordinary (by decide)]
  intro hread
  obtain ⟨parts, hparts, heq⟩ := Option.map_eq_some_iff.mp hread
  have hbegins := beginsWith_of_readParts hparts
  have hnames : parts = [id.name] := by
    cases schema with
    | none => exact heq
    | some written =>
      rw [hqualified written rfl] at heq
      exact List.append_cancel_left heq
  rw [hnames] at hbegins
  exact ne_of_beginsWith hbegins rfl

/-- The rewritten reference is read as the new name exactly if the text behind the
first bracket of the old one was its array suffix. -/
theorem parse_remappedTypeDisplay_iff (letters : LetterCase) (text : SqlText) {raw : String}
    {schema : Option String} {name : String} {isArray : Bool}
    (h : parse letters raw = some (schema, name, isArray)) {newId : ObjectId}
    (hschema : newId.schema ≠ "") (hname : newId.name ≠ "") (schemaChanged : Bool) :
    parse letters (remappedTypeDisplay { text with parseTypeReference := parse letters } raw newId
        schemaChanged) =
      some (if schema.isSome || schemaChanged then some newId.schema else none, newId.name,
        isArray) ↔
    isArraySuffix (raw.toList.dropWhile (· != '[')) = true := by
  generalize hwritten : (if schema.isSome || schemaChanged then some newId.schema else none) = written
  have hqualified : written.isSome = (schema.isSome || schemaChanged) := by
    rw [← hwritten]
    cases schema.isSome || schemaChanged <;> rfl
  have hsame : ∀ other, written = some other → other = newId.schema := by
    rintro other rfl
    split at hwritten
    · exact (Option.some.inj hwritten).symm
    · cases hwritten
  have hdisplay : (remappedTypeDisplay { text with parseTypeReference := parse letters } raw newId
      schemaChanged).toList =
        (typeReferenceName newId written.isSome).toList ++ raw.toList.dropWhile (· != '[') := by
    simp only [remappedTypeDisplay, h, Option.any_some, String.toList_append, String.toList_ofList,
      hqualified]
  obtain ⟨kept, cut, htoken, hsplit, hcut, harray, hbare⟩ :=
    @token_append _ (raw.toList.dropWhile (· != '['))
      (typeReferenceName_first hschema hname written.isSome) (typeReferenceName_last hname _)
  rw [parse_eq_some, hdisplay, htoken]
  constructor
  · rintro ⟨hparts, -⟩
    cases kept with
    | nil => exact hsplit ▸ hcut
    | cons c rest =>
      have hc : c = '[' := by simpa using head_dropWhile hsplit
      exact absurd (hc ▸ hparts) (readParts_bracket hschema hsame rest)
  · intro hsuffix
    have hnone : kept = [] :=
      eq_nil_of_endsBare hbare (isArraySuffix_of_append hcut (hsplit ▸ hsuffix))
    subst hnone
    constructor
    · rw [readParts_typeReferenceName hschema, List.append_nil, readParts_printed hname]
      cases written with
      | none => rfl
      | some other => rw [hsame other rfl]; rfl
    · have hbrackets := token_isArray hsuffix
      rw [(parse_eq_some.mp h).2, hsplit, List.nil_append] at hbrackets
      exact Bool.eq_iff_iff.mpr (harray.trans hbrackets.symm)

end RoundTrip

section Bracketed

theorem toLower_letter : ∀ n < 128, (Char.ofNat n).toLower = Char.ofNat n ∨
    (Char.ofNat n).toLower.isAlpha = true ∧ (Char.ofNat n).isAlpha = true := by
  decide +kernel

theorem toLower_caseless {c : Char} (hletter : c.isAlpha = false) (d : Char) :
    d.toLower = c ↔ d = c := by
  by_cases hd : d.toNat < 128
  · have hcheck := toLower_letter d.toNat hd
    rw [Char.ofNat_toNat] at hcheck
    rcases hcheck with hsame | ⟨hlower, hupper⟩
    · rw [hsame]
    · refine iff_of_false ?_ ?_
      · rintro rfl
        rw [hlower] at hletter
        cases hletter
      · rintro rfl
        rw [hupper] at hletter
        cases hletter
  · have hupper : ¬(d.val ≥ 'A'.val ∧ d.val ≤ 'Z'.val) := fun h =>
      hd (Nat.lt_of_le_of_lt (UInt32.le_iff_toNat_le.mp h.2) (by decide))
    have hlower : d.toLower = d := dif_neg hupper
    rw [hlower]

def asciiLetters : LetterCase where
  toLowercase := toAsciiLowercase
  nonempty text h hempty := by
    have hlist := congrArg String.toList hempty
    simp [toAsciiLowercase] at hlist
    exact h hlist
  ascii _ _ := rfl
  caseless text c _ hletter := by
    simp [toAsciiLowercase, toLower_caseless hletter]

/-- A plain array type, which moves to another schema. -/
theorem parse_moved_array : parse asciiLetters "status[]" = some (none, "status", true) ∧
    (parse asciiLetters (remappedTypeDisplay
        { textless with parseTypeReference := parse asciiLetters } "status[]"
        ⟨"app", "Order Status"⟩ true) =
      some (if (none : Option String).isSome || true then some "app" else none, "Order Status",
        true) ↔
    isArraySuffix ("status[]".toList.dropWhile (· != '[')) = true) :=
  have hparse : parse asciiLetters "status[]" = some (none, "status", true) := by decide +kernel
  ⟨hparse, parse_remappedTypeDisplay_iff asciiLetters textless hparse (by decide) (by decide) true⟩

/-- A quoted name with a bracket in it leaves its end behind the new name. -/
theorem bracketedName_unread : parse asciiLetters "\"a[b\"" = some (none, "a[b", false) ∧
    remappedTypeDisplay { textless with parseTypeReference := parse asciiLetters } "\"a[b\""
      ⟨"public", "c"⟩ false = "c[b\"" ∧
    parse asciiLetters (remappedTypeDisplay
      { textless with parseTypeReference := parse asciiLetters } "\"a[b\"" ⟨"public", "c"⟩ false) ≠
      some (none, "c", false) := by
  decide +kernel

end Bracketed

end TypeReference

end SafeMigrate
