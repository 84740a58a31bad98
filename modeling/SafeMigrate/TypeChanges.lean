import SafeMigrate.LossyNarrowing

/-! Changing a column's type without a rewrite of the table. -/

namespace SafeMigrate

/-- A type as the catalog compares it. -/
structure TypeIdentity where
  canonical : String
  /-- One array type per element type, however many brackets are written. -/
  arrayDimensions : Nat
  resolved : Bool
deriving DecidableEq

def TypeIdentity.render (i : TypeIdentity) : String :=
  i.canonical ++ String.join (List.replicate i.arrayDimensions "[]")

namespace ParsedDataType

variable {catalogue : BuiltinTypeCatalogue}

def identity (t : ParsedDataType catalogue) : TypeIdentity :=
  ⟨t.canonicalName, if t.arrayDimensions > 0 then 1 else 0, t.isBuiltin⟩

def isNamed (t : ParsedDataType catalogue) (typname : String) : Bool :=
  t.builtin.any fun b => decide (b.typname = typname)

/-- Two spellings of one catalog type with one modifier. -/
def sameSpelling (old new : ParsedDataType catalogue) : Bool :=
  old.identity.render == new.identity.render && old.rawTypmods == new.rawTypmods

/-- A variable-length target without a smaller limit. -/
def lengthens (old new : ParsedDataType catalogue) : Bool :=
  old.isTextLike && new.isTextLike && !old.isNamed "bpchar" && !new.isNamed "bpchar" &&
    (new.isNamed "text" || new.rawTypmods.isNone ||
      match old.characterLimit, new.characterLimit with
      | some oldLimit, some newLimit => decide (oldLimit ≤ newLimit)
      | _, _ => false)

/-- More digits at the same scale, or no constraint at all. -/
def addsDigits (old new : ParsedDataType catalogue) : Bool :=
  old.isExactNumeric && new.isExactNumeric &&
    match old.numericParams, new.numericParams with
    | _, none => true
    | some (oldP, oldS), some (newP, newS) => decide (oldP ≤ newP) && decide (newS = oldS)
    | none, some _ => false

end ParsedDataType

open ParsedDataType

def isTypeChangeSafe (letters : LetterCase) (oldType newType : String) (pgVersion : Nat)
    (catalogue : BuiltinTypeCatalogue) : Bool :=
  let old := parse letters catalogue oldType
  let new := parse letters catalogue newType
  old.sameSpelling new || old.lengthens new ||
    (decide (120000 ≤ pgVersion) && old.addsDigits new)

namespace ParsedDataType

variable {catalogue : BuiltinTypeCatalogue} {old new : ParsedDataType catalogue}

/-- What a declaration says beyond the name of its type. -/
inductive EstablishedModifier
  | none
  | length (limit : Int)
  | digits (precision scale : Int)
  | written (raw : String)
deriving DecidableEq

def established (t : ParsedDataType catalogue) : EstablishedModifier :=
  match t.typmod with
  | .characterLength length => .length length.get
  | .numeric precision scale => .digits precision.get ((scale.map (·.get)).getD 0)
  | _ => match t.rawTypmods with
    | some raw => .written raw
    | none => .none

def isVarying (t : ParsedDataType catalogue) : Bool := t.isNamed "varchar" || t.isNamed "text"

/-- The same type with the same modifier; or scalars, `varchar` and `text` with no smaller
limit, or `numeric` without a constraint, or with the scale and no smaller precision. -/
inductive SameOrWider (old new : ParsedDataType catalogue) : Prop
  | same (type : old.canonicalName = new.canonicalName)
    (modifier : old.established = new.established)
  | text (scalar : old.arrayDimensions = 0) (scalarNew : new.arrayDimensions = 0)
    (varying : old.isVarying = true) (varyingNew : new.isVarying = true)
    (limit : ∀ limit' ∈ new.characterLimit, ∃ limit ∈ old.characterLimit, limit ≤ limit')
  | numeric (scalar : old.arrayDimensions = 0) (scalarNew : new.arrayDimensions = 0)
    (decimal : old.isExactNumeric = true) (decimalNew : new.isExactNumeric = true)
    (digits : ∀ p' s', new.numericParams = some (p', s') →
      ∃ p, old.numericParams = some (p, s') ∧ p ≤ p')

/-- Nothing is rewritten and nothing is lost. -/
structure Harmless (old new : ParsedDataType catalogue) : Prop where
  arrays : old.arrayDimensions = 0 ↔ new.arrayDimensions = 0
  keeps : old.isLossyNarrowingTo new = false
  wider : SameOrWider old new

/-- The new type is of a fixed width, and the old one of a larger. -/
def LosesWidth (old new : ParsedDataType catalogue) : Prop :=
  ∃ oldBits newBits, old.fixedBits = some oldBits ∧ new.fixedBits = some newBits ∧ newBits < oldBits

theorem arrayDimensions_of_keeps (h : old.isLossyNarrowingTo new = false) :
    old.arrayDimensions = new.arrayDimensions := by
  unfold isLossyNarrowingTo at h
  split at h
  · next halike => exact halike.2.2.2.2
  · split at h
    · cases h
    · next hdims => exact not_not.mp hdims

theorem keeps_of_numeric (hdims : old.arrayDimensions = new.arrayDimensions)
    (h : old.isExactNumeric = true) (h' : new.isExactNumeric = true)
    (hdigits : ∀ p' s', new.numericParams = some (p', s') →
      ∃ p, old.numericParams = some (p, s') ∧ p ≤ p') : old.isLossyNarrowingTo new = false := by
  by_cases halike : Alike old new
  · exact isLossyNarrowingTo_of_alike halike
  rw [isLossyNarrowingTo, if_neg halike, if_neg (not_not.mpr hdims), if_pos ⟨h, h'⟩]
  cases hnew : new.numericParams with
  | none => rfl
  | some digits =>
    obtain ⟨p, hold, hle⟩ := hdigits digits.1 digits.2 hnew
    rw [hold]
    simpa using hle

theorem keeps_of_text (hdims : old.arrayDimensions = new.arrayDimensions)
    (h : old.isTextLike = true) (h' : new.isTextLike = true)
    (hnumeric : new.numericParams = none) (hwidth : ¬LosesWidth old new)
    (hlimit : ∀ limit' ∈ new.characterLimit, ∃ limit ∈ old.characterLimit, limit ≤ limit') :
    old.isLossyNarrowingTo new = false := by
  by_cases halike : Alike old new
  · exact isLossyNarrowingTo_of_alike halike
  rw [isLossyNarrowingTo, if_neg halike, if_neg (not_not.mpr hdims)]
  split
  · rw [hnumeric]
  cases hold : old.fixedBits with
  | some oldBits =>
    cases hnew : new.fixedBits with
    | some newBits =>
      have hle : ¬newBits < oldBits := fun hlt => hwidth ⟨oldBits, newBits, hold, hnew, hlt⟩
      simpa using hle
    | none =>
      simp only [h, h', and_self, if_true]
      cases hlimit' : new.characterLimit with
      | none => cases old.characterLimit <;> rfl
      | some limit' =>
        obtain ⟨limit, hlimit, hle⟩ := hlimit limit' hlimit'
        rw [Option.mem_def.mp hlimit]
        simpa using hle
  | none =>
    simp only [h, h', and_self, if_true]
    cases hlimit' : new.characterLimit with
    | none => cases old.characterLimit <;> rfl
    | some limit' =>
      obtain ⟨limit, hlimit, hle⟩ := hlimit limit' hlimit'
      rw [Option.mem_def.mp hlimit]
      simpa using hle

theorem not_losesWidth_of_keeps (halike : ¬Alike old new)
    (hnumeric : ¬(old.isExactNumeric = true ∧ new.isExactNumeric = true))
    (h : old.isLossyNarrowingTo new = false) : ¬LosesWidth old new := by
  rintro ⟨oldBits, newBits, hold, hnew, hlt⟩
  have hdims := arrayDimensions_of_keeps h
  rw [isLossyNarrowingTo, if_neg halike, if_neg (not_not.mpr hdims), if_neg hnumeric, hold,
    hnew] at h
  simp only [decide_eq_false_iff_not] at h
  exact h hlt

section Modifiers

variable {t : ParsedDataType catalogue}

theorem established_eq (t : ParsedDataType catalogue) : t.established =
    ((t.characterLimit.map .length).or ((t.numericParams.map fun digits =>
      .digits digits.1 digits.2).or (t.rawTypmods.map .written))).getD .none := by
  unfold established characterLimit numericParams
  cases t.typmod <;> cases t.rawTypmods <;> rfl

theorem characterLimit_of_established (h : old.established = new.established) :
    old.characterLimit = new.characterLimit := by
  have hlimit (t : ParsedDataType catalogue) (limit : Int) :
      t.characterLimit = some limit ↔ t.established = .length limit := by
    unfold established characterLimit
    cases t.typmod <;> cases t.rawTypmods <;> simp
  ext limit
  rw [hlimit, hlimit, h]

theorem numericParams_of_established (h : old.established = new.established) :
    old.numericParams = new.numericParams := by
  have hdigits (t : ParsedDataType catalogue) (digits : Int × Int) :
      t.numericParams = some digits ↔ t.established = .digits digits.1 digits.2 := by
    unfold established numericParams
    cases t.typmod <;> cases t.rawTypmods <;> simp [Prod.ext_iff]
  ext digits
  rw [hdigits, hdigits, h]

theorem rawTypmods_of_established (h : old.established = new.established)
    (hlimit : old.characterLimit = none) (hdigits : old.numericParams = none) :
    old.rawTypmods = new.rawTypmods := by
  have hlimit' := characterLimit_of_established h
  have hdigits' := numericParams_of_established h
  rw [established_eq, established_eq, ← hlimit', ← hdigits', hlimit, hdigits] at h
  cases hold : old.rawTypmods <;> cases hnew : new.rawTypmods <;> simp_all

theorem builtin_of_isNamed {typname : String} (h : t.isNamed typname = true) :
    ∃ b, t.builtin = some b ∧ b.typname = typname := by
  cases hbuiltin : t.builtin with
  | none => simp [isNamed, hbuiltin] at h
  | some b => exact ⟨b, rfl, by simpa [isNamed, hbuiltin] using h⟩

theorem isExactNumeric_eq : t.isExactNumeric = t.isNamed "numeric" := rfl

/-- A type has one name. -/
theorem not_isNamed {typname other : String} (h : t.isNamed typname = true)
    (hne : typname ≠ other) : t.isNamed other = false := by
  obtain ⟨b, hbuiltin, hname⟩ := builtin_of_isNamed h
  simp [isNamed, hbuiltin, hname, hne]

/-- `text` takes no modifier. -/
theorem text_modifier (h : t.isNamed "text" = true) (hvalid : t.isValidDeclaration = true) :
    t.rawTypmods = none ∧ t.typmod = .notApplicable := by
  obtain ⟨b, hbuiltin, hname⟩ := builtin_of_isNamed h
  obtain ⟨written, -, htypmod⟩ := t.parsed
  have hkind : typmodKind b.typname = .none := by
    rw [hname]
    rfl
  rw [hbuiltin] at htypmod
  simp only [classifyTypmod, hkind] at htypmod
  cases hraw : t.rawTypmods with
  | none => simpa [hraw] using htypmod
  | some raw => simp [isValidDeclaration, htypmod, hraw] at hvalid

/-- A `varchar` without a modifier has no limit. -/
theorem varchar_modifier (h : t.isNamed "varchar" = true) (hraw : t.rawTypmods = none) :
    t.typmod = .unbounded := by
  obtain ⟨b, hbuiltin, hname⟩ := builtin_of_isNamed h
  obtain ⟨written, -, htypmod⟩ := t.parsed
  have hkind : typmodKind b.typname = .characterLength := by
    rw [hname]
    rfl
  have hplain : ¬((b.typname = "bpchar" ∨ b.typname = "bit") ∧ written ∈ implicitLengthOne) := by
    rw [hname]
    simp
  rw [hbuiltin, hraw] at htypmod
  simpa only [classifyTypmod, hkind, classifyLength_none, if_neg hplain] using htypmod

theorem isNamed_of_isVarying (h : t.isVarying = true) :
    t.isNamed "varchar" = true ∨ t.isNamed "text" = true := Bool.or_eq_true_iff.mp h

theorem not_isExactNumeric_of_varying (h : t.isVarying = true) : t.isExactNumeric = false := by
  rw [isExactNumeric_eq]
  rcases isNamed_of_isVarying h with hname | hname
  · exact not_isNamed hname (by decide)
  · exact not_isNamed hname (by decide)

theorem numericParams_of_not_numeric (h : t.isExactNumeric = false) : t.numericParams = none := by
  cases hparams : t.numericParams with
  | none => rfl
  | some digits =>
    rw [isExactNumeric_of_params hparams] at h
    cases h

theorem classifyNumeric_cases (raw : Option String) :
    raw = none ∧ classifyNumeric raw = .unbounded ∨ classifyNumeric raw = .outOfRange ∨
      ∃ precision scale, classifyNumeric raw = .numeric precision scale := by
  unfold classifyNumeric
  split
  · exact Or.inl ⟨rfl, rfl⟩
  · split
    · exact Or.inr (Or.inl rfl)
    · split
      · exact Or.inr (Or.inr ⟨_, _, rfl⟩)
      · split
        · exact Or.inr (Or.inr ⟨_, _, rfl⟩)
        · exact Or.inr (Or.inl rfl)

/-- An accepted modifier of `numeric` is about digits. -/
theorem numeric_modifier (h : t.isExactNumeric = true) (hvalid : t.isValidDeclaration = true) :
    t.characterLimit = none ∧ (t.numericParams = none → t.rawTypmods = none) := by
  have haccepted : t.typmod ≠ .outOfRange := of_decide_eq_true hvalid
  have htypmod := numeric_typmod h
  rcases classifyNumeric_cases t.rawTypmods with ⟨hraw, hclass⟩ | hclass | ⟨p, sc, hclass⟩
  · exact ⟨by simp [characterLimit, htypmod, hclass], fun _ => hraw⟩
  · exact absurd (htypmod.trans hclass) haccepted
  · exact ⟨by simp [characterLimit, htypmod, hclass], fun hnone => by
      simp [numericParams, htypmod, hclass] at hnone⟩

theorem limit_of_unmodified (h : t.isVarying = true) (hvalid : t.isValidDeclaration = true)
    (hraw : t.rawTypmods = none) : t.characterLimit = none := by
  rcases isNamed_of_isVarying h with hname | hname
  · simp [characterLimit, varchar_modifier hname hraw]
  · simp [characterLimit, (text_modifier hname hvalid).2]

/-- One modifier text of one type has one meaning. -/
theorem typmod_of_written {typname raw : String} (h : old.isNamed typname = true)
    (h' : new.isNamed typname = true) (hraw : old.rawTypmods = some raw)
    (hraw' : new.rawTypmods = some raw) : old.typmod = new.typmod := by
  obtain ⟨b, hold, hname⟩ := builtin_of_isNamed h
  obtain ⟨b', hnew, hname'⟩ := builtin_of_isNamed h'
  have hsame := typmod_of_alike hold hnew (hname.trans hname'.symm) (hraw.trans hraw'.symm)
  rcases hsame with heq | ⟨hnone, -⟩
  · exact heq
  · rw [hraw] at hnone
    cases hnone

theorem canonicalName_of_name {typname : String} (h : old.isNamed typname = true)
    (h' : new.isNamed typname = true) : old.canonicalName = new.canonicalName := by
  obtain ⟨b, hold, hname⟩ := builtin_of_isNamed h
  obtain ⟨b', hnew, hname'⟩ := builtin_of_isNamed h'
  have hsame : b = b' := by
    have hinj := List.inj_on_of_nodup_map catalogue.distinct
    exact hinj (builtin_mem hold) (builtin_mem hnew) (hname.trans hname'.symm)
  simp [canonicalName, hold, hnew, hsame]

/-- With the same brackets, the same rendering is the same type. -/
theorem canonicalName_of_render (h : old.identity.render = new.identity.render)
    (hdims : old.arrayDimensions = new.arrayDimensions) :
    old.canonicalName = new.canonicalName := by
  have hlist := congrArg String.toList h
  simp only [TypeIdentity.render, identity, hdims, String.toList_append] at hlist
  exact String.toList_inj.mp (List.append_cancel_right hlist)

theorem sameSpelling_iff : old.sameSpelling new = true ↔
    old.identity.render = new.identity.render ∧ old.rawTypmods = new.rawTypmods := by
  simp [sameSpelling]

theorem sameSpelling_of_alike (h : Alike old new) : old.sameSpelling new = true := by
  obtain ⟨hbuiltin, hbuiltin', hname, hraw, hdims⟩ := h
  refine sameSpelling_iff.mpr ⟨?_, hraw⟩
  simp only [TypeIdentity.render, identity, hname, hdims]

theorem addsDigits_iff : old.addsDigits new = true ↔
    old.isExactNumeric = true ∧ new.isExactNumeric = true ∧
      ∀ p' s', new.numericParams = some (p', s') →
        ∃ p, old.numericParams = some (p, s') ∧ p ≤ p' := by
  unfold addsDigits
  rw [Bool.and_eq_true, Bool.and_eq_true, and_assoc]
  refine and_congr_right fun _ => and_congr_right fun _ => ?_
  cases old.numericParams with
  | none =>
    cases new.numericParams with
    | none => simp
    | some digits' =>
      refine iff_of_false Bool.false_ne_true fun h => ?_
      obtain ⟨_, hnone, -⟩ := h digits'.1 digits'.2 rfl
      cases hnone
  | some digits =>
    cases new.numericParams with
    | none => simp
    | some digits' =>
      obtain ⟨p, sc⟩ := digits
      obtain ⟨p', sc'⟩ := digits'
      constructor
      · simp only [Bool.and_eq_true, decide_eq_true_eq]
        rintro ⟨hp, rfl⟩ _ _ heq
        cases heq
        exact ⟨p, rfl, hp⟩
      · intro h
        obtain ⟨_, heq, hle⟩ := h p' sc' rfl
        cases heq
        simp [hle]

end Modifiers

section Rules

/-- Where each rule is about the declarations it was written for: the same brackets and no
implied length for one spelling; scalars, or equal digits, for more digits; scalar
`varchar` and `text` of no fixed width, or equal limits of one type, for more length. -/
def RulesFit (old new : ParsedDataType catalogue) : Prop :=
  if old.sameSpelling new = true then
    old.arrayDimensions = new.arrayDimensions ∧ old.characterLimit = new.characterLimit ∧
      old.numericParams = new.numericParams
  else if old.addsDigits new = true then
    old.arrayDimensions = new.arrayDimensions ∧
      (old.arrayDimensions = 0 ∨ old.numericParams = new.numericParams)
  else
    old.lengthens new = true → old.arrayDimensions = new.arrayDimensions ∧ ¬LosesWidth old new ∧
      (old.canonicalName = new.canonicalName ∧
          (∃ limit, old.characterLimit = some limit ∧ new.characterLimit = some limit) ∨
        old.arrayDimensions = 0 ∧ old.isVarying = true ∧ new.isVarying = true)

theorem scalar_iff (h : old.arrayDimensions = new.arrayDimensions) :
    old.arrayDimensions = 0 ↔ new.arrayDimensions = 0 := by rw [h]

theorem harmless_iff_of_sameSpelling (hbuiltin : old.isBuiltin = true)
    (hbuiltin' : new.isBuiltin = true) (hvalid : old.isValidDeclaration = true)
    (hvalid' : new.isValidDeclaration = true) (h : old.sameSpelling new = true) :
    Harmless old new ↔ old.arrayDimensions = new.arrayDimensions ∧
      old.characterLimit = new.characterLimit ∧ old.numericParams = new.numericParams := by
  obtain ⟨hrender, hraw⟩ := sameSpelling_iff.mp h
  constructor
  · rintro ⟨-, hkeeps, hwider⟩
    refine ⟨arrayDimensions_of_keeps hkeeps, ?_⟩
    cases hwider with
    | same _ hmodifier =>
      exact ⟨characterLimit_of_established hmodifier, numericParams_of_established hmodifier⟩
    | text _ _ hvarying hvarying' _ =>
      have hnumeric := numericParams_of_not_numeric (not_isExactNumeric_of_varying hvarying)
      have hnumeric' := numericParams_of_not_numeric (not_isExactNumeric_of_varying hvarying')
      refine ⟨?_, hnumeric.trans hnumeric'.symm⟩
      cases hwritten : old.rawTypmods with
      | none =>
        rw [limit_of_unmodified hvarying hvalid hwritten,
          limit_of_unmodified hvarying' hvalid' (hraw ▸ hwritten)]
      | some raw =>
        have hnamed {t : ParsedDataType catalogue} (ht : t.isVarying = true)
            (htvalid : t.isValidDeclaration = true) (htraw : t.rawTypmods = some raw) :
            t.isNamed "varchar" = true := by
          refine (isNamed_of_isVarying ht).resolve_right fun htext => ?_
          rw [(text_modifier htext htvalid).1] at htraw
          cases htraw
        have heq := typmod_of_written (hnamed hvarying hvalid hwritten)
          (hnamed hvarying' hvalid' (hraw ▸ hwritten)) hwritten (hraw ▸ hwritten)
        simp [characterLimit, heq]
    | numeric _ _ hexact hexact' _ =>
      have heq : old.typmod = new.typmod := by
        rw [numeric_typmod hexact, numeric_typmod hexact', hraw]
      simp [characterLimit, numericParams, heq]
  · rintro ⟨hdims, hlimit, hdigits⟩
    have hname := canonicalName_of_render hrender hdims
    refine ⟨scalar_iff hdims, ?_, .same hname ?_⟩
    · exact isLossyNarrowingTo_of_alike ⟨hbuiltin, hbuiltin', hname, hraw, hdims⟩
    · rw [established_eq, established_eq, hlimit, hdigits, hraw]

theorem harmless_iff_of_addsDigits (hvalid : old.isValidDeclaration = true)
    (hvalid' : new.isValidDeclaration = true) (h : old.addsDigits new = true) :
    Harmless old new ↔ old.arrayDimensions = new.arrayDimensions ∧
      (old.arrayDimensions = 0 ∨ old.numericParams = new.numericParams) := by
  obtain ⟨hexact, hexact', hdigits⟩ := addsDigits_iff.mp h
  constructor
  · rintro ⟨-, hkeeps, hwider⟩
    refine ⟨arrayDimensions_of_keeps hkeeps, ?_⟩
    cases hwider with
    | same _ hmodifier => exact Or.inr (numericParams_of_established hmodifier)
    | text hscalar _ _ _ _ => exact Or.inl hscalar
    | numeric hscalar _ _ _ _ => exact Or.inl hscalar
  · rintro ⟨hdims, hcase⟩
    refine ⟨scalar_iff hdims, keeps_of_numeric hdims hexact hexact' hdigits, ?_⟩
    rcases hcase with hscalar | hsame
    · exact .numeric hscalar (hdims ▸ hscalar) hexact hexact' hdigits
    · refine .same (canonicalName_of_name hexact hexact') ?_
      obtain ⟨hlimit, hraw⟩ := numeric_modifier hexact hvalid
      obtain ⟨hlimit', hraw'⟩ := numeric_modifier hexact' hvalid'
      rw [established_eq, established_eq, hlimit, hlimit', ← hsame]
      cases hold : old.numericParams with
      | some digits => rfl
      | none => rw [hraw hold, hraw' (hsame ▸ hold)]

theorem limits_of_lengthens (hvalid' : new.isValidDeclaration = true)
    (h : old.lengthens new = true) (hvarying' : new.isVarying = true) :
    ∀ limit' ∈ new.characterLimit, ∃ limit ∈ old.characterLimit, limit ≤ limit' := by
  intro limit' hlimit'
  simp only [lengthens, Bool.and_eq_true, Bool.or_eq_true] at h
  rcases h.2 with (htext | hraw) | hlimits
  · rw [limit_of_unmodified hvarying' hvalid' (text_modifier htext hvalid').1] at hlimit'
    cases hlimit'
  · rw [limit_of_unmodified hvarying' hvalid' (Option.isNone_iff_eq_none.mp hraw)] at hlimit'
    cases hlimit'
  · rw [Option.mem_def] at hlimit'
    cases hlimit : old.characterLimit with
    | none => simp [hlimit] at hlimits
    | some limit =>
      rw [hlimit, hlimit', decide_eq_true_eq] at hlimits
      exact ⟨limit, rfl, hlimits⟩

theorem harmless_iff_of_lengthens (hbuiltin : old.isBuiltin = true)
    (hbuiltin' : new.isBuiltin = true) (hvalid' : new.isValidDeclaration = true)
    (hspelling : ¬old.sameSpelling new = true) (hdigits : ¬old.addsDigits new = true)
    (h : old.lengthens new = true) :
    Harmless old new ↔ old.arrayDimensions = new.arrayDimensions ∧ ¬LosesWidth old new ∧
      (old.canonicalName = new.canonicalName ∧
          (∃ limit, old.characterLimit = some limit ∧ new.characterLimit = some limit) ∨
        old.arrayDimensions = 0 ∧ old.isVarying = true ∧ new.isVarying = true) := by
  have hlike : old.isTextLike = true ∧ new.isTextLike = true := by
    simp only [lengthens, Bool.and_eq_true] at h
    exact ⟨h.1.1.1.1, h.1.1.1.2⟩
  have halike : ¬Alike old new := fun halike => hspelling (sameSpelling_of_alike halike)
  constructor
  · rintro ⟨-, hkeeps, hwider⟩
    have hdims := arrayDimensions_of_keeps hkeeps
    refine ⟨hdims, ?_, ?_⟩
    · cases hwider with
      | same hname hmodifier =>
        by_cases hboth : old.isExactNumeric = true ∧ new.isExactNumeric = true
        · refine absurd (addsDigits_iff.mpr ⟨hboth.1, hboth.2, fun p' s' hnew => ?_⟩) hdigits
          exact ⟨p', (numericParams_of_established hmodifier).trans hnew, Int.le_refl _⟩
        · exact not_losesWidth_of_keeps halike hboth hkeeps
      | text _ _ hvarying _ _ =>
        have hnot := not_isExactNumeric_of_varying hvarying
        exact not_losesWidth_of_keeps halike (by simp [hnot]) hkeeps
      | numeric _ _ hexact hexact' hmore =>
        exact absurd (addsDigits_iff.mpr ⟨hexact, hexact', hmore⟩) hdigits
    · cases hwider with
      | same hname hmodifier =>
        refine Or.inl ⟨hname, ?_⟩
        have hlimit := characterLimit_of_established hmodifier
        have hparams := numericParams_of_established hmodifier
        cases hold : old.characterLimit with
        | some limit => exact ⟨limit, rfl, hlimit ▸ hold⟩
        | none =>
          cases hnumeric : old.numericParams with
          | some digits =>
            refine absurd (addsDigits_iff.mpr ⟨isExactNumeric_of_params hnumeric,
              isExactNumeric_of_params (hparams ▸ hnumeric), fun p' s' hnew => ?_⟩) hdigits
            exact ⟨p', hparams.trans hnew, Int.le_refl _⟩
          | none =>
            have hraw := rawTypmods_of_established hmodifier hold hnumeric
            exact absurd ⟨hbuiltin, hbuiltin', hname, hraw, hdims⟩ halike
      | text hscalar _ hvarying hvarying' _ => exact Or.inr ⟨hscalar, hvarying, hvarying'⟩
      | numeric _ _ hexact hexact' hmore =>
        exact absurd (addsDigits_iff.mpr ⟨hexact, hexact', hmore⟩) hdigits
  · rintro ⟨hdims, hwidth, ⟨hname, limit, hlimit, hlimit'⟩ | ⟨hscalar, hvarying, hvarying'⟩⟩
    · have hdigits' : new.numericParams = none := by
        cases htypmod : new.typmod <;> simp_all [characterLimit, numericParams]
      refine ⟨scalar_iff hdims, ?_, .same hname ?_⟩
      · refine keeps_of_text hdims hlike.1 hlike.2 hdigits' hwidth fun limit'' hmem => ?_
        rw [hlimit', Option.mem_some] at hmem
        exact ⟨limit, hlimit, Int.le_of_eq hmem⟩
      · rw [established_eq, established_eq, hlimit, hlimit']
        rfl
    · have hlimits := limits_of_lengthens hvalid' h hvarying'
      have hnumeric := numericParams_of_not_numeric (not_isExactNumeric_of_varying hvarying')
      exact ⟨scalar_iff hdims, keeps_of_text hdims hlike.1 hlike.2 hnumeric hwidth hlimits,
        .text hscalar (hdims ▸ hscalar) hvarying hvarying' hlimits⟩

end Rules

end ParsedDataType

/-- A change that is called safe is harmless, exactly where each rule is about the
declarations it was written for. -/
theorem isTypeChangeSafe_harmless_iff (letters : LetterCase) (catalogue : BuiltinTypeCatalogue)
    {pgVersion : Nat} (hversion : 120000 ≤ pgVersion) (oldType newType : String)
    (hbuiltin : (parse letters catalogue oldType).isBuiltin = true)
    (hbuiltin' : (parse letters catalogue newType).isBuiltin = true)
    (hvalid : (parse letters catalogue oldType).isValidDeclaration = true)
    (hvalid' : (parse letters catalogue newType).isValidDeclaration = true) :
    (isTypeChangeSafe letters oldType newType pgVersion catalogue = true →
        Harmless (parse letters catalogue oldType) (parse letters catalogue newType)) ↔
      RulesFit (parse letters catalogue oldType) (parse letters catalogue newType) := by
  unfold isTypeChangeSafe RulesFit
  dsimp only
  generalize parse letters catalogue oldType = old at *
  generalize parse letters catalogue newType = new at *
  by_cases hspelling : old.sameSpelling new = true
  · rw [if_pos hspelling,
      ← harmless_iff_of_sameSpelling hbuiltin hbuiltin' hvalid hvalid' hspelling]
    simp [hspelling]
  by_cases hdigits : old.addsDigits new = true
  · rw [if_neg hspelling, if_pos hdigits,
      ← harmless_iff_of_addsDigits hvalid hvalid' hdigits]
    simp [hversion, hdigits]
  rw [if_neg hspelling, if_neg hdigits]
  by_cases hlength : old.lengthens new = true
  · rw [← harmless_iff_of_lengthens hbuiltin hbuiltin' hvalid' hspelling hdigits hlength]
    simp [hlength]
  · simp [hspelling, hdigits, hlength]

section Changes

def safeChange (oldType newType : String) : Bool :=
  isTypeChangeSafe TypeReference.asciiLetters oldType newType 160000 serverTypes

theorem safeChange_readings :
    (∀ raw ∈ ["varchar[]", "text", "numeric(5,2)[]", "numeric", "int4[]", "int4[][]", "bpchar",
      "char"], (declared raw).isBuiltin = true ∧ (declared raw).isValidDeclaration = true) ∧
    (∀ change ∈ [("varchar[]", "text"), ("numeric(5,2)[]", "numeric"), ("int4[]", "int4[][]"),
      ("bpchar", "char")], safeChange change.1 change.2 = true) ∧
    (∀ raw ∈ ["varchar[]", "numeric(5,2)[]"], (declared raw).arrayDimensions = 1) ∧
    (∀ raw ∈ ["text", "numeric"], (declared raw).arrayDimensions = 0) ∧
    (declared "int4[]").isLossyNarrowingTo (declared "int4[][]") = true ∧
    (declared "bpchar").established ≠ (declared "char").established ∧
    (declared "bpchar").isVarying = false ∧ (declared "bpchar").isExactNumeric = false := by
  decide +kernel

/-- An array becomes a scalar, brackets are added, and a `bpchar` gets a length of one. -/
theorem safeChange_harms :
    (∀ raw ∈ ["varchar[]", "text", "numeric(5,2)[]", "numeric", "int4[]", "int4[][]", "bpchar",
      "char"], (declared raw).isBuiltin = true ∧ (declared raw).isValidDeclaration = true) ∧
    (safeChange "varchar[]" "text" = true ∧ ¬Harmless (declared "varchar[]") (declared "text")) ∧
    (safeChange "numeric(5,2)[]" "numeric" = true ∧
      ¬Harmless (declared "numeric(5,2)[]") (declared "numeric")) ∧
    (safeChange "int4[]" "int4[][]" = true ∧
      ¬Harmless (declared "int4[]") (declared "int4[][]")) ∧
    safeChange "bpchar" "char" = true ∧ ¬Harmless (declared "bpchar") (declared "char") := by
  obtain ⟨haccepted, hsafe, harray, hscalar, hlossy, hmodified, hvarying, hexact⟩ :=
    safeChange_readings
  have hharms : ∀ {old new : String}, (declared old).arrayDimensions = 1 →
      (declared new).arrayDimensions = 0 → ¬Harmless (declared old) (declared new) :=
    fun hold hnew h => Nat.one_ne_zero (hold.symm.trans (h.arrays.mpr hnew))
  refine ⟨haccepted,
    ⟨hsafe ("varchar[]", "text") (by simp), hharms (harray _ (by simp)) (hscalar _ (by simp))⟩,
    ⟨hsafe ("numeric(5,2)[]", "numeric") (by simp),
      hharms (harray _ (by simp)) (hscalar _ (by simp))⟩,
    ⟨hsafe ("int4[]", "int4[][]") (by simp), fun h => ?_⟩,
    hsafe ("bpchar", "char") (by simp), fun h => ?_⟩
  · exact Bool.false_ne_true (h.keeps.symm.trans hlossy)
  · cases h.wider with
    | same _ hmodifier => exact hmodified hmodifier
    | text _ _ hvarying' _ _ => exact Bool.false_ne_true (hvarying.symm.trans hvarying')
    | numeric _ _ hexact' _ _ => exact Bool.false_ne_true (hexact.symm.trans hexact')

theorem safeChange_varchar :
    (∀ raw ∈ ["varchar(10)", "varchar(20)"],
      (declared raw).isBuiltin = true ∧ (declared raw).isValidDeclaration = true ∧
        (declared raw).arrayDimensions = 0 ∧ (declared raw).isVarying = true) ∧
    safeChange "varchar(10)" "varchar(20)" = true ∧
    (declared "varchar(10)").sameSpelling (declared "varchar(20)") = false ∧
    (declared "varchar(10)").addsDigits (declared "varchar(20)") = false ∧
    (declared "varchar(10)").fixedBits = none := by
  decide +kernel

/-- A longer `varchar` is one of the changes that the rules are for. -/
theorem safeChange_lengthened :
    safeChange "varchar(10)" "varchar(20)" = true ∧
      Harmless (declared "varchar(10)") (declared "varchar(20)") := by
  obtain ⟨haccepted, hsafe, hspelling, hdigits, hnone⟩ := safeChange_varchar
  obtain ⟨hbuiltin, hvalid, hscalar, hvarying⟩ := haccepted "varchar(10)" (by simp)
  obtain ⟨hbuiltin', hvalid', hscalar', hvarying'⟩ := haccepted "varchar(20)" (by simp)
  have hwidth : ¬LosesWidth (declared "varchar(10)") (declared "varchar(20)") := by
    rintro ⟨oldBits, newBits, hold, -, -⟩
    rw [hnone] at hold
    cases hold
  have hfit : RulesFit (declared "varchar(10)") (declared "varchar(20)") := by
    rw [RulesFit, hspelling, hdigits, if_neg Bool.false_ne_true, if_neg Bool.false_ne_true]
    exact fun _ => ⟨hscalar.trans hscalar'.symm, hwidth, Or.inr ⟨hscalar, hvarying, hvarying'⟩⟩
  exact ⟨hsafe, (isTypeChangeSafe_harmless_iff TypeReference.asciiLetters serverTypes (by decide)
    "varchar(10)" "varchar(20)" hbuiltin hbuiltin' hvalid hvalid').mpr hfit hsafe⟩

end Changes

end SafeMigrate
