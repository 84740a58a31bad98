import Mathlib.Data.String.Basic
import SafeMigrate.GeneratedNames

/-! Generated names fit into an identifier, and are made of the parts they were
given. -/

namespace SafeMigrate

theorem utf8Len_takeBytes_le (budget : Nat) (text : List Char) :
    String.utf8Len (takeBytes budget text) ≤ budget := by
  induction text generalizing budget with
  | nil => simp [takeBytes]
  | cons c text ih =>
    rw [takeBytes]
    split
    · rename_i hfits
      have hrest := ih (budget - c.utf8Size)
      rw [String.utf8Len_cons]
      omega
    · simp

theorem takeBytes_prefix (budget : Nat) (text : List Char) : takeBytes budget text <+: text := by
  induction text generalizing budget with
  | nil => simp [takeBytes]
  | cons c text ih =>
    rw [takeBytes]
    split
    · exact (List.prefix_cons_inj c).mpr (ih _)
    · exact List.nil_prefix

theorem utf8ByteSize_truncateBytes_le (value : String) (maxBytes : Nat) :
    (truncateBytes value maxBytes).utf8ByteSize ≤ maxBytes := by
  rw [truncateBytes, String.utf8ByteSize_ofList]
  exact utf8Len_takeBytes_le maxBytes value.toList

theorem truncateBytes_prefix (value : String) (maxBytes : Nat) :
    (truncateBytes value maxBytes).toList <+: value.toList := by
  rw [truncateBytes, String.toList_ofList]
  exact takeBytes_prefix maxBytes value.toList

/-- Every round of the loop takes a byte off one of the parts, so that as many
rounds as there are bytes are enough. -/
theorem fitNames_le {available fuel name1 name2 : Nat} (hfuel : name1 + name2 ≤ fuel) :
    (fitNames available fuel name1 name2).1 + (fitNames available fuel name1 name2).2 ≤
      available := by
  induction fuel generalizing name1 name2 with
  | zero =>
    rw [fitNames]
    omega
  | succ fuel ih =>
    rw [fitNames]
    split
    · assumption
    · rename_i hlong
      split
      · exact ih (by omega)
      · exact ih (by omega)

/-- Cuts of the two given names with the label and the number behind them. -/
def IsNamedAfter (name1 : String) (name2 : Option String) (label : String) (suffix : Nat)
    (name : String) : Prop :=
  ∃ cut1, cut1.toList <+: name1.toList ∧
    match name2 with
    | none => name = cut1 ++ "_" ++ suffixedLabel label suffix
    | some name2 => ∃ cut2, cut2.toList <+: name2.toList ∧
        name = cut1 ++ "_" ++ cut2 ++ "_" ++ suffixedLabel label suffix

theorem postgresObjectName_namedAfter (name1 : String) (name2 : Option String) (label : String)
    (suffix : Nat) : IsNamedAfter name1 name2 label suffix
      (postgresObjectName name1 name2 (suffixedLabel label suffix)) := by
  unfold IsNamedAfter postgresObjectName
  cases name2 with
  | none => exact ⟨_, truncateBytes_prefix name1 _, rfl⟩
  | some name2 => exact ⟨_, truncateBytes_prefix name1 _, _, truncateBytes_prefix name2 _, rfl⟩

/-- A label that leaves room for the separators leaves the rest to the names. -/
theorem postgresObjectName_size_le (name1 : String) (name2 : Option String) {label : String}
    (hlabel : label.utf8ByteSize + 2 ≤ maxIdentifierBytes) :
    (postgresObjectName name1 name2 label).utf8ByteSize ≤ maxIdentifierBytes := by
  have hunderscore : "_".utf8ByteSize = 1 := rfl
  unfold postgresObjectName
  cases name2 with
  | none =>
    simp only [Option.isSome_none, Bool.false_eq_true, if_false, Option.map_none,
      Option.getD_none, Nat.add_zero, Nat.zero_add]
    generalize hfit : fitNames _ _ _ 0 = fit
    have hle := @fitNames_le (maxIdentifierBytes - (label.utf8ByteSize + 1)) _ name1.utf8ByteSize 0
      (Nat.le_refl name1.utf8ByteSize)
    rw [hfit] at hle
    have hcut := utf8ByteSize_truncateBytes_le name1 fit.1
    simp only [String.utf8ByteSize_append, hunderscore]
    omega
  | some name2 =>
    simp only [Option.isSome_some, if_true, Option.map_some, Option.getD_some]
    generalize hfit : fitNames _ _ _ _ = fit
    have hle := @fitNames_le (maxIdentifierBytes - (label.utf8ByteSize + (1 + 1))) _ _ _
      (Nat.le_refl (name1.utf8ByteSize + name2.utf8ByteSize))
    rw [hfit] at hle
    have hcut1 := utf8ByteSize_truncateBytes_le name1 fit.1
    have hcut2 := utf8ByteSize_truncateBytes_le name2 fit.2
    simp only [String.utf8ByteSize_append, hunderscore]
    omega

theorem utf8Len_digits {digits : List Char} (h : ∀ c ∈ digits, c.isDigit = true) :
    String.utf8Len digits = digits.length := by
  induction digits with
  | nil => rfl
  | cons c digits ih =>
    have hone : c.utf8Size = 1 := by
      have hc := h c List.mem_cons_self
      simp only [Char.isDigit, Bool.and_eq_true, decide_eq_true_eq] at hc
      have hle : c.val ≤ 127 := UInt32.le_trans hc.2 (by decide)
      simp [Char.utf8Size, hle]
    rw [String.utf8Len_cons, ih fun c hc => h c (List.mem_cons_of_mem _ hc), hone,
      List.length_cons]

theorem suffixedLabel_size_le (label : String) {suffix count : Nat} (hcount : 0 < count)
    (h : suffix < 10 ^ count) :
    (suffixedLabel label suffix).utf8ByteSize ≤ label.utf8ByteSize + count := by
  have hsize : (suffixedLabel label suffix).utf8ByteSize =
      label.utf8ByteSize + (suffixDigits suffix).length := by
    have hlist := congrArg String.ofList (suffixedLabel_toList label suffix)
    rw [String.ofList_toList, String.ofList_append, String.ofList_toList] at hlist
    rw [hlist, String.utf8ByteSize_append, String.utf8ByteSize_ofList,
      utf8Len_digits isDigit_of_mem_suffixDigits]
  have hlength : (suffixDigits suffix).length ≤ count := by
    unfold suffixDigits
    split
    · simp
    · exact (Nat.length_repr_le_iff hcount).mpr h
  omega

/-- The name at which the search over the suffixes ends. -/
structure EndsSearch (name1 : String) (name2 : Option String) (label : String)
    (inUse : String → Bool) (suffix : Nat) (name : String) : Prop where
  tried : name = postgresObjectName name1 name2 (suffixedLabel label suffix)
  earlier : ∀ k < suffix,
    inUse (postgresObjectName name1 name2 (suffixedLabel label k)) = true
  free : inUse name = false

/-- A text of the given parts that fits into an identifier. The number behind them is
at most that of the names in use, and so an `i32` while those can be counted in one. -/
structure IsFreshName (name1 : String) (name2 : Option String) (label : String)
    (inUse : String → Bool) (names : Nat) (name : String) : Prop where
  search : ∃ suffix ≤ names, EndsSearch name1 name2 label inUse suffix name ∧
    IsNamedAfter name1 name2 label suffix name
  bounded : name.utf8ByteSize ≤ maxIdentifierBytes

theorem isFreshName_of_search {name1 : String} {name2 : Option String} {label name : String}
    {inUse : String → Bool} {names suffix : Nat} (hlabel : label.utf8ByteSize ≤ 40)
    (hnames : names < 10 ^ 21) (hsuffix : suffix ≤ names)
    (h : EndsSearch name1 name2 label inUse suffix name) :
    IsFreshName name1 name2 label inUse names name := by
  have hsize := suffixedLabel_size_le label (by omega) (Nat.lt_of_le_of_lt hsuffix hnames)
  refine ⟨⟨suffix, hsuffix, h, ?_⟩, ?_⟩
  · rw [h.tried]
    exact postgresObjectName_namedAfter name1 name2 label suffix
  · rw [h.tried]
    apply postgresObjectName_size_le
    unfold maxIdentifierBytes
    omega

namespace AnalysisState

/-- The source counts the entries of a collection in a `usize`. -/
structure FitsMemory (s : AnalysisState) : Prop where
  relations : s.relations.keys.length < 2 ^ 64
  sequences : s.sequences.keys.length < 2 ^ 64
  types : s.types.keys.length < 2 ^ 64
  edges : s.graph.edges.length < 2 ^ 64
  constraints : s.constraints.keys.length < 2 ^ 64

theorem FitsMemory.nameFuel_lt {s : AnalysisState} (h : s.FitsMemory) {reserved : Nat}
    (hreserved : reserved < 2 ^ 64) : reserved + s.nameFuel < 10 ^ 21 := by
  obtain ⟨hrelations, hsequences, htypes, hedges, hconstraints⟩ := h
  unfold nameFuel
  omega

theorem constraintName_isFresh (s : AnalysisState) (hs : s.FitsMemory) (table : ObjectId)
    (name1 : String) (name2 : Option String) {label : String} (hlabel : label.utf8ByteSize ≤ 40)
    {reserved : List String} (hreserved : reserved.length < 2 ^ 64) :
    IsFreshName name1 name2 label
      (fun name => decide (name ∈ reserved) || s.constraintNameIsTaken table.schema name)
      (reserved.length + s.nameFuel) (s.nextGeneratedConstraintNameAvoiding table name1 name2 label reserved) := by
  have hfresh := s.nextGeneratedConstraintName_fresh table name1 name2 label reserved
  obtain ⟨suffix, hle, hname, hearlier⟩ := firstFree_stops
    (fun name => decide (name ∈ reserved) || s.constraintNameIsTaken table.schema name)
    (fun suffix => postgresObjectName name1 name2 (suffixedLabel label suffix))
    (reserved.length + s.nameFuel) 0
  have hfuel := hs.nameFuel_lt hreserved
  apply isFreshName_of_search hlabel hfuel (show suffix ≤ _ by omega)
  exact ⟨hname, fun k hk => hearlier k (Nat.zero_le k) hk, by simp [hfresh.1, hfresh.2]⟩

theorem relationName_isFresh (s : AnalysisState) (hs : s.FitsMemory) (schema name1 : String)
    (name2 : Option String) {label : String} (hlabel : label.utf8ByteSize ≤ 40)
    {reserved : List ObjectId} (hreserved : reserved.length < 2 ^ 64) :
    (s.nextGeneratedRelationNameAvoiding schema name1 name2 label reserved).schema = schema ∧
      IsFreshName name1 name2 label
        (fun name => decide ((⟨schema, name⟩ : ObjectId) ∈ reserved) ||
          s.relationNamespaceIsTaken ⟨schema, name⟩) (reserved.length + s.nameFuel)
        (s.nextGeneratedRelationNameAvoiding schema name1 name2 label reserved).name := by
  have hfresh := s.nextGeneratedRelationName_fresh schema name1 name2 label reserved
  obtain ⟨suffix, hle, hname, hearlier⟩ := firstFree_stops
    (fun id => decide (id ∈ reserved) || s.relationNamespaceIsTaken id)
    (fun suffix =>
      (⟨schema, postgresObjectName name1 name2 (suffixedLabel label suffix)⟩ : ObjectId))
    (reserved.length + s.nameFuel) 0
  have hid : s.nextGeneratedRelationNameAvoiding schema name1 name2 label reserved =
      ⟨schema, postgresObjectName name1 name2 (suffixedLabel label suffix)⟩ := hname
  rw [hid] at hfresh ⊢
  have hfuel := hs.nameFuel_lt hreserved
  refine ⟨rfl, isFreshName_of_search hlabel hfuel (show suffix ≤ _ by omega) ?_⟩
  exact ⟨rfl, fun k hk => hearlier k (Nat.zero_le k) hk, by simp [hfresh.1, hfresh.2]⟩

/-- Generated names are new, fit into an identifier, and are made of the given parts. -/
theorem generatedNames_fresh (s : AnalysisState) (hs : s.FitsMemory) :
    (∀ (table : ObjectId) (name1 : String) (name2 : Option String) (label : String)
      (reserved : List String), label.utf8ByteSize ≤ 40 → reserved.length < 2 ^ 64 →
      let name := s.nextGeneratedConstraintNameAvoiding table name1 name2 label reserved
      name ∉ reserved ∧ s.constraintNameIsTaken table.schema name = false ∧
        IsFreshName name1 name2 label
          (fun name => decide (name ∈ reserved) || s.constraintNameIsTaken table.schema name)
          (reserved.length + s.nameFuel) name) ∧
    (∀ (schema name1 : String) (name2 : Option String) (label : String)
      (reserved : List ObjectId), label.utf8ByteSize ≤ 40 → reserved.length < 2 ^ 64 →
      let id := s.nextGeneratedRelationNameAvoiding schema name1 name2 label reserved
      id ∉ reserved ∧ s.relationNamespaceIsTaken id = false ∧ id.schema = schema ∧
        IsFreshName name1 name2 label
          (fun name => decide ((⟨schema, name⟩ : ObjectId) ∈ reserved) ||
            s.relationNamespaceIsTaken ⟨schema, name⟩) (reserved.length + s.nameFuel) id.name) ∧
    ∀ (table : ObjectId) (column : String) (reserved : List ObjectId),
      reserved.length < 2 ^ 64 →
      let id := s.nextImplicitSequenceId table column reserved
      id ∉ reserved ∧ s.relationNamespaceIsTaken id = false ∧ id.schema = table.schema ∧
        IsFreshName table.name (some column) "seq"
          (fun name => decide ((⟨table.schema, name⟩ : ObjectId) ∈ reserved) ||
            s.relationNamespaceIsTaken ⟨table.schema, name⟩) (reserved.length + s.nameFuel)
          id.name := by
  have hrelation (schema name1 : String) (name2 : Option String) (label : String)
      (reserved : List ObjectId) (hlabel : label.utf8ByteSize ≤ 40)
      (hreserved : reserved.length < 2 ^ 64) :=
    And.intro (s.nextGeneratedRelationName_fresh schema name1 name2 label reserved)
      (s.relationName_isFresh hs schema name1 name2 hlabel hreserved)
  refine ⟨fun table name1 name2 label reserved hlabel hreserved => ?_,
    fun schema name1 name2 label reserved hlabel hreserved => ?_,
    fun table column reserved hreserved => ?_⟩
  · have hfresh := s.nextGeneratedConstraintName_fresh table name1 name2 label reserved
    exact ⟨hfresh.1, hfresh.2, s.constraintName_isFresh hs table name1 name2 hlabel hreserved⟩
  · obtain ⟨hfresh, hshape⟩ := hrelation schema name1 name2 label reserved hlabel hreserved
    exact ⟨hfresh.1, hfresh.2, hshape⟩
  · obtain ⟨hfresh, hshape⟩ :=
      hrelation table.schema table.name (some column) "seq" reserved (by decide) hreserved
    exact ⟨hfresh.1, hfresh.2, hshape⟩

/-- The second sequence of a column takes the next number. -/
theorem implicitSequence_fresh :
    let id := ({} : AnalysisState).nextImplicitSequenceId ⟨"public", "accounts"⟩ "id"
      [⟨"public", "accounts_id_seq"⟩]
    id = ⟨"public", "accounts_id_seq1"⟩ ∧ id ∉ [(⟨"public", "accounts_id_seq"⟩ : ObjectId)] ∧
      IsFreshName "accounts" (some "id") "seq"
        (fun name => decide ((⟨"public", name⟩ : ObjectId) ∈
          [(⟨"public", "accounts_id_seq"⟩ : ObjectId)]) ||
            ({} : AnalysisState).relationNamespaceIsTaken ⟨"public", name⟩) 1 id.name := by
  have hempty : ({} : AnalysisState).FitsMemory :=
    ⟨by decide, by decide, by decide, by decide, by decide⟩
  obtain ⟨-, -, hsequences⟩ := generatedNames_fresh {} hempty
  have hfresh := hsequences ⟨"public", "accounts"⟩ "id" [⟨"public", "accounts_id_seq"⟩] (by decide)
  exact ⟨by decide +kernel, hfresh.1, hfresh.2.2.2⟩

end AnalysisState

end SafeMigrate
