import SafeMigrate.Statement

/-! The names generated for implicit objects are free: candidates with different
numbers differ, and there are more of them than names in use. -/

namespace SafeMigrate

/-- Among more candidates than names in use, the first free one is free. -/
theorem firstFree_free {α : Type} [DecidableEq α] {taken : α → Bool} {candidate : Nat → α}
    (hinj : Function.Injective candidate) (fuel : Nat) (suffix : Nat) (names : List α)
    (hnames : ∀ k, suffix ≤ k → taken (candidate k) = true → candidate k ∈ names)
    (hfuel : names.length ≤ fuel) : taken (firstFree taken candidate fuel suffix) = false := by
  induction fuel generalizing suffix names with
  | zero =>
    have hnil : names = [] := List.length_eq_zero_iff.mp (by omega)
    rw [firstFree, Bool.eq_false_iff]
    intro htaken
    have hmem := hnames suffix (Nat.le_refl suffix) htaken
    simp [hnil] at hmem
  | succ fuel ih =>
    rw [firstFree]
    split
    · rename_i htaken
      have hmem := hnames suffix (Nat.le_refl suffix) htaken
      refine ih (suffix + 1) (names.erase (candidate suffix)) (fun k hk hused => ?_) ?_
      · have hne : candidate k ≠ candidate suffix := fun heq => by
          have := hinj heq
          omega
        exact (List.mem_erase_of_ne hne).mpr (hnames k (by omega) hused)
      · rw [List.length_erase_of_mem hmem]
        omega
    · rename_i htaken
      simpa using htaken

/-- The search goes through the candidates in turn, and past none that is free. -/
theorem firstFree_stops {α : Type} (taken : α → Bool) (candidate : Nat → α) (fuel suffix : Nat) :
    ∃ k, k ≤ suffix + fuel ∧ firstFree taken candidate fuel suffix = candidate k ∧
      ∀ j, suffix ≤ j → j < k → taken (candidate j) = true := by
  induction fuel generalizing suffix with
  | zero => exact ⟨suffix, by omega, rfl, fun j hj hk => absurd hk (by omega)⟩
  | succ fuel ih =>
    rw [firstFree]
    split
    · rename_i htaken
      obtain ⟨k, hk, heq, hbefore⟩ := ih (suffix + 1)
      refine ⟨k, by omega, heq, fun j hj hlt => ?_⟩
      rcases Nat.eq_or_lt_of_le hj with rfl | hlater
      · exact htaken
      · exact hbefore j hlater hlt
    · exact ⟨suffix, by omega, rfl, fun j hj hk => absurd hk (by omega)⟩

/-- The digits that a text ends in, last first. -/
def trailingDigits (text : String) : List Char := text.toList.reverse.takeWhile Char.isDigit

theorem trailingDigits_suffixedLabel {text label : String} {before : List Char} {last : Char}
    (hlabel : label.toList = before ++ [last]) (hlast : last.isDigit = false) (suffix : Nat)
    {start : List Char} (htext : text.toList = start ++ (suffixedLabel label suffix).toList) :
    trailingDigits text = if suffix = 0 then [] else (toString suffix).toList.reverse := by
  unfold trailingDigits
  rw [htext, suffixedLabel]
  by_cases hzero : suffix = 0
  · simp [hzero, hlabel, hlast]
  · have hdigits : ∀ c ∈ (toString suffix).toList.reverse, c.isDigit = true := by
      intro c hc
      rw [List.mem_reverse, Nat.toString_eq_ofList_toDigits, String.toList_ofList] at hc
      exact Nat.isDigit_of_mem_toDigits (by omega) (by omega) hc
    rw [if_neg hzero, if_neg hzero, String.toList_append, List.reverse_append, List.reverse_append,
      List.append_assoc, List.takeWhile_append_of_pos hdigits, hlabel]
    simp [hlast]

theorem postgresObjectName_toList (name1 : String) (name2 : Option String) (label : String) :
    ∃ start, (postgresObjectName name1 name2 label).toList = start ++ '_' :: label.toList := by
  unfold postgresObjectName
  cases name2 with
  | none =>
    exact ⟨_, by
      rw [String.toList_append, String.toList_append, List.append_assoc]
      rfl⟩
  | some name2 =>
    exact ⟨_, by
      rw [String.toList_append, String.toList_append, List.append_assoc]
      rfl⟩

/-- Behind one text, digits at the end tell two texts apart, whatever stands in
front: the text is not of digits alone. -/
theorem digits_cancel {start start' body digits digits' : List Char}
    (hbody : ∃ c ∈ body, c.isDigit = false) (hdigits : ∀ c ∈ digits, c.isDigit = true)
    (hdigits' : ∀ c ∈ digits', c.isDigit = true)
    (h : start ++ (body ++ digits) = start' ++ (body ++ digits')) : digits = digits' := by
  have hread {start digits : List Char} (hdigits : ∀ c ∈ digits, c.isDigit = true) :
      (start ++ (body ++ digits)).reverse.takeWhile Char.isDigit =
        digits.reverse ++ body.reverse.takeWhile Char.isDigit := by
    have hstops : (body.reverse.takeWhile Char.isDigit).length ≠ body.reverse.length := by
      intro hlength
      obtain ⟨c, hc, hnot⟩ := hbody
      have hall : body.reverse.takeWhile Char.isDigit = body.reverse :=
        (List.takeWhile_prefix _).eq_of_length hlength
      have hdigit := List.mem_takeWhile_imp (hall ▸ List.mem_reverse.mpr hc)
      simp [hnot] at hdigit
    rw [List.reverse_append, List.reverse_append, List.append_assoc,
      List.takeWhile_append_of_pos fun c hc => hdigits c (List.mem_reverse.mp hc),
      List.takeWhile_append, if_neg hstops]
  have hboth := congrArg (fun text => text.reverse.takeWhile Char.isDigit) h
  simp only [hread hdigits, hread hdigits'] at hboth
  exact List.reverse_inj.mp (List.append_cancel_right hboth)

/-- What a suffix adds to the label. -/
def suffixDigits (suffix : Nat) : List Char := if suffix = 0 then [] else (toString suffix).toList

theorem suffixedLabel_toList (label : String) (suffix : Nat) :
    (suffixedLabel label suffix).toList = label.toList ++ suffixDigits suffix := by
  unfold suffixedLabel suffixDigits
  split <;> simp

theorem isDigit_of_mem_suffixDigits {suffix : Nat} :
    ∀ c ∈ suffixDigits suffix, c.isDigit = true := by
  intro c hc
  unfold suffixDigits at hc
  split at hc
  · simp at hc
  · rw [Nat.toString_eq_ofList_toDigits, String.toList_ofList] at hc
    exact Nat.isDigit_of_mem_toDigits (by omega) (by omega) hc

theorem suffixDigits_injective : Function.Injective suffixDigits := by
  intro k k' heq
  have hne (n : Nat) : (toString n).toList ≠ [] := by simp [toString, Nat.repr]
  unfold suffixDigits at heq
  by_cases hzero : k = 0
  · by_cases hzero' : k' = 0
    · rw [hzero, hzero']
    · rw [if_pos hzero, if_neg hzero'] at heq
      exact absurd heq.symm (hne k')
  · by_cases hzero' : k' = 0
    · rw [if_neg hzero, if_pos hzero'] at heq
      exact absurd heq (hne k)
    · rw [if_neg hzero, if_neg hzero', Nat.toString_eq_ofList_toDigits,
        Nat.toString_eq_ofList_toDigits, String.toList_ofList, String.toList_ofList] at heq
      have hread := congrArg (Nat.ofDigitChars 10 · 0) heq
      simpa using hread

/-- The underscore in front of the label keeps the digits of the suffix apart,
however much a longer suffix takes off the name parts. -/
theorem suffixed_injective (name1 : String) (name2 : Option String) (label : String) :
    Function.Injective fun suffix =>
      postgresObjectName name1 name2 (suffixedLabel label suffix) := by
  intro k k' heq
  have hparts (suffix : Nat) : ∃ start,
      (postgresObjectName name1 name2 (suffixedLabel label suffix)).toList =
        start ++ (('_' :: label.toList) ++ suffixDigits suffix) := by
    obtain ⟨start, hstart⟩ :=
      postgresObjectName_toList name1 name2 (suffixedLabel label suffix)
    exact ⟨start, by rw [hstart, suffixedLabel_toList, List.cons_append]⟩
  obtain ⟨start, hstart⟩ := hparts k
  obtain ⟨start', hstart'⟩ := hparts k'
  apply suffixDigits_injective
  apply digits_cancel ⟨'_', List.mem_cons_self, rfl⟩ isDigit_of_mem_suffixDigits
    isDigit_of_mem_suffixDigits
  rw [← hstart, ← hstart']
  exact congrArg String.toList heq

namespace AnalysisState

theorem key_of_present {α : Type} {m : KeyedMap ObjectId (Overlay α)} {id : ObjectId}
    (h : (m.lookup id).any Overlay.isPresent = true) : id ∈ m.keys := by
  refine AList.mem_keys.mp (AList.lookup_isSome.mp ?_)
  cases hlookup : m.lookup id with
  | none => simp [hlookup] at h
  | some _ => rfl

/-- A generated constraint name is not reserved, and no constraint of the schema has it. -/
theorem nextGeneratedConstraintName_fresh (s : AnalysisState) (table : ObjectId) (name1 : String)
    (name2 : Option String) (label : String) (reserved : List String) :
    s.nextGeneratedConstraintNameAvoiding table name1 name2 label reserved ∉ reserved ∧
      s.constraintNameIsTaken table.schema
        (s.nextGeneratedConstraintNameAvoiding table name1 name2 label reserved) = false := by
  let taken (name : String) : Bool :=
    decide (name ∈ reserved) || s.constraintNameIsTaken table.schema name
  have hfree : taken (s.nextGeneratedConstraintNameAvoiding table name1 name2 label reserved) =
      false := by
    refine firstFree_free (suffixed_injective name1 name2 label) _ 0
      (reserved ++ s.constraints.keys.map (·.2)) (fun k _ htaken => ?_) ?_
    · rcases Bool.or_eq_true_iff.mp htaken with hreserved | hused
      · exact List.mem_append_left _ (of_decide_eq_true hreserved)
      · simp only [constraintNameIsTaken, List.any_eq_true, Bool.and_eq_true, beq_iff_eq] at hused
        obtain ⟨key, hkey, -, hname⟩ := hused
        exact List.mem_append_right _ (List.mem_map.mpr ⟨key, hkey, hname⟩)
    · simp only [List.length_append, List.length_map, nameFuel]
      omega
  simpa [taken] using hfree

/-- A generated relation name is not reserved, and nothing in the name space has it. -/
theorem nextGeneratedRelationName_fresh (s : AnalysisState) (schema name1 : String)
    (name2 : Option String) (label : String) (reserved : List ObjectId) :
    s.nextGeneratedRelationNameAvoiding schema name1 name2 label reserved ∉ reserved ∧
      s.relationNamespaceIsTaken
        (s.nextGeneratedRelationNameAvoiding schema name1 name2 label reserved) = false := by
  have hinj : Function.Injective fun suffix =>
      (⟨schema, postgresObjectName name1 name2 (suffixedLabel label suffix)⟩ : ObjectId) :=
    fun k k' heq => suffixed_injective name1 name2 label (congrArg ObjectId.name heq)
  let taken (id : ObjectId) : Bool := decide (id ∈ reserved) || s.relationNamespaceIsTaken id
  have hfree : taken (s.nextGeneratedRelationNameAvoiding schema name1 name2 label reserved) =
      false := by
    refine firstFree_free hinj _ 0 (reserved ++ (s.relations.keys ++ s.sequences.keys ++
      s.types.keys ++ s.graph.edges.map (·.dependent))) (fun k _ htaken => ?_) ?_
    · rcases Bool.or_eq_true_iff.mp htaken with hreserved | hused
      · exact List.mem_append_left _ (of_decide_eq_true hreserved)
      refine List.mem_append_right _ ?_
      simp only [relationNamespaceIsTaken, relationNamespaceObjectIsPresent, Bool.or_eq_true]
        at hused
      simp only [List.mem_append]
      rcases hused with ((hrelation | hsequence) | hindex) | htype
      · exact Or.inl (Or.inl (Or.inl (key_of_present hrelation)))
      · exact Or.inl (Or.inl (Or.inr (key_of_present hsequence)))
      · simp only [indexIsPresent, List.any_eq_true, Bool.and_eq_true, beq_iff_eq] at hindex
        obtain ⟨e, he, -, hdependent⟩ := hindex
        exact Or.inr (List.mem_map.mpr ⟨e, he, hdependent⟩)
      · exact Or.inl (Or.inr (key_of_present htype))
    · simp only [List.length_append, List.length_map, nameFuel]
      omega
  simpa [taken] using hfree

end AnalysisState

end SafeMigrate
