import SafeMigrate.LiveAliases
import SafeMigrate.PartitionFamilies
import SafeMigrate.RangePredicates

/-! The predicate of a default partition against those of its siblings. -/

namespace SafeMigrate

open ThreeValued ArraySyntax

/-- The clauses of each sibling, of which none may hold. -/
structure DefaultPredicate where
  siblings : List (List PartitionClause)

def siblingText : List String → String
  | first :: second :: rest =>
    "(" ++ first ++ " AND (" ++ " AND ".intercalate (second :: rest) ++ "))"
  | clauses => "(" ++ clauses.headD "" ++ ")"

def DefaultPredicate.text (p : DefaultPredicate) : String :=
  match p.siblings.map fun clauses => siblingText (clauses.map PartitionClause.text) with
  | [predicate] => "(NOT " ++ predicate ++ ")"
  | predicates => "(NOT (" ++ " OR ".intercalate predicates ++ "))"

def DefaultPredicate.truth {V : Type} [LinearOrder V] (reading : SqlReading V) (t : List (Option V))
    (p : DefaultPredicate) : Truth :=
  negate (any (p.siblings.map (clausesTruth reading t)))

/-- The readings of a statement, with the clauses rendered from these bounds. -/
def BoundText.rendering (bounds : BoundText) (text : SqlText) : SqlText :=
  { text with
    partitionCheckClauses := fun strategy bound keys child =>
      (synthesizePartitionCheckClauses bounds strategy bound keys child).map fun clauses =>
        clauses.map PartitionClause.text }

/-- The clauses of a partition read nothing of it but its columns. -/
theorem BoundText.readsColumns (bounds : BoundText) (text : SqlText) :
    (bounds.rendering text).ReadsColumns fun strategy bound keys columns =>
      (synthesizePartitionCheckClauses bounds strategy bound keys
        { RelationState.new ⟨"", ""⟩ ⟨"", ""⟩ 0 none .table .permanent 0 with columns }).map
          fun clauses => clauses.map PartitionClause.text :=
  fun _ _ _ _ => rfl

namespace AnalysisState

variable (s : AnalysisState) (text : SqlText) (bounds : BoundText) (parent : ObjectId)
  (strategy : String) (keys : List (String × String))

def siblingClauses (e : DependencyEdge) : Option (List PartitionClause) := do
  let child ← s.presentRelation e.dependent
  let bound ← child.partitionBound
  if isDefaultBound bound then none
  else synthesizePartitionCheckClauses bounds strategy bound keys child

def partitionEdges : List DependencyEdge :=
  s.graph.edges.filter fun e => e.referenced == parent && e.kind.isPartitionOf

/-- `synthesize_default_partition_constraint`, before the text is joined. -/
def defaultPredicate : Option DefaultPredicate := do
  let relation ← s.presentRelation parent
  let strategy ← relation.partitionType
  let keys ← s.partitionKeyColumns text parent
  match (s.partitionEdges parent).filterMap (s.siblingClauses bounds strategy keys) with
  | [] => none
  | siblings => some ⟨siblings⟩

theorem siblingPredicate_rendering (e : DependencyEdge) :
    s.siblingPredicate (bounds.rendering text) strategy keys e =
      (s.siblingClauses bounds strategy keys e).map fun clauses =>
        siblingText (clauses.map PartitionClause.text) := by
  unfold siblingPredicate siblingClauses
  cases s.presentRelation e.dependent with
  | none => rfl
  | some child =>
    cases hbound : child.partitionBound with
    | none => simp [hbound]
    | some bound =>
      simp only [Option.bind_eq_bind, Option.bind_some, hbound]
      split
      · rfl
      · show Option.bind (Option.map _ (synthesizePartitionCheckClauses bounds strategy bound keys child))
          _ = _
        rcases synthesizePartitionCheckClauses bounds strategy bound keys child with
          _ | _ | ⟨first, _ | ⟨second, rest⟩⟩
        all_goals rfl

/-- The text of the predicate is what the constraint of the source says. -/
theorem synthesizeDefaultPartitionConstraint_rendering :
    s.synthesizeDefaultPartitionConstraint (bounds.rendering text) parent =
      (s.defaultPredicate text bounds parent).map DefaultPredicate.text := by
  unfold synthesizeDefaultPartitionConstraint defaultPredicate
  cases s.presentRelation parent with
  | none => rfl
  | some relation =>
    cases hstrategy : relation.partitionType with
    | none => simp [hstrategy]
    | some strategy =>
      have hkeys : s.partitionKeyColumns (bounds.rendering text) parent =
          s.partitionKeyColumns text parent := rfl
      simp only [Option.bind_eq_bind, Option.bind_some, hstrategy, hkeys]
      cases s.partitionKeyColumns text parent with
      | none => rfl
      | some keys =>
        have hmap : (s.partitionEdges parent).filterMap
            (s.siblingPredicate (bounds.rendering text) strategy keys) =
            ((s.partitionEdges parent).filterMap (s.siblingClauses bounds strategy keys)).map
              fun clauses => siblingText (clauses.map PartitionClause.text) := by
          rw [List.map_filterMap]
          exact List.filterMap_congr fun e _ => s.siblingPredicate_rendering text bounds strategy keys e
        unfold partitionEdges at hmap ⊢
        simp only [Option.bind_some, hmap]
        rcases (List.filter _ s.graph.edges).filterMap (s.siblingClauses bounds strategy keys) with
          _ | ⟨clauses, _ | ⟨clauses', siblings⟩⟩
        all_goals rfl

end AnalysisState

section Unknown

variable {V : Type} [LinearOrder V] {reading : SqlReading V} {t : List (Option V)}

theorem truth_ne_none {c : Comparison} (h : keyValue t c.index ≠ none) :
    c.truth reading t ≠ none := by
  unfold Comparison.truth
  rw [ne_eq, Option.map_eq_none_iff]
  exact h

theorem mem_of_mapM {α β : Type} {f : α → Option β} {l : List α} {l' : List β}
    (h : l.mapM f = some l') {b : β} (hb : b ∈ l') : ∃ a ∈ l, f a = some b := by
  have hmem : some b ∈ l'.map some := List.mem_map_of_mem hb
  rw [← map_eq_of_mapM h] at hmem
  exact List.mem_map.mp hmem

theorem index_of_comparison {op : CompareOp} {part : PartitionKey × BoundDatum} {c : Comparison}
    (h : comparison op part = some c) : c.index = part.1.index := by
  obtain ⟨literal, -, rfl⟩ := Option.map_eq_some_iff.mp h
  rfl

/-- The clause of a bound is about the keys of the bound. -/
theorem index_of_boundRows {op last : CompareOp} {before parts : List (PartitionKey × BoundDatum)}
    {rows : List (List Comparison)} (h : boundRows op last before parts = some rows) :
    ∀ row ∈ rows, ∀ c ∈ row, ∃ part ∈ before ++ parts, c.index = part.1.index := by
  induction parts generalizing before rows with
  | nil =>
    rw [boundRows] at h
    cases h
    exact fun row hrow => absurd hrow List.not_mem_nil
  | cons part parts ih =>
    rw [boundRows] at h
    obtain ⟨agree, hagree, h⟩ := Option.bind_eq_some_iff.mp h
    obtain ⟨next, hnext, h⟩ := Option.bind_eq_some_iff.mp h
    obtain ⟨rest, hrest, h⟩ := Option.bind_eq_some_iff.mp h
    cases h
    intro row hrow c hc
    rcases List.mem_cons.mp hrow with rfl | hrow
    · rcases List.mem_append.mp hc with hc | hc
      · obtain ⟨earlier, hearlier, hcomparison⟩ := mem_of_mapM hagree hc
        exact ⟨earlier, List.mem_append_left _ hearlier, index_of_comparison hcomparison⟩
      · rw [List.mem_singleton.mp hc]
        exact ⟨part, List.mem_append_right _ List.mem_cons_self, index_of_comparison hnext⟩
    · have hlater := ih hrest row hrow c hc
      rwa [List.append_assoc, List.singleton_append] at hlater

theorem index_of_boundClause {op last : CompareOp} {parts : List (PartitionKey × BoundDatum)}
    {clauses : List PartitionClause} (h : boundClause op last parts = some clauses)
    {clause : PartitionClause} (hclause : clause ∈ clauses) :
    ∃ rows, clause = .rows rows ∧
      ∀ row ∈ rows, ∀ c ∈ row, ∃ part ∈ parts, c.index = part.1.index := by
  unfold boundClause at h
  split at h
  · cases h
    exact absurd hclause List.not_mem_nil
  · obtain ⟨rows, hrows, rfl⟩ := Option.map_eq_some_iff.mp h
    rw [List.mem_singleton.mp hclause]
    exact ⟨rows, rfl, index_of_boundRows hrows⟩

theorem truth_rows_ne_none {rows : List (List Comparison)}
    (h : ∀ row ∈ rows, ∀ c ∈ row, keyValue t c.index ≠ none) :
    (PartitionClause.rows rows).truth reading t ≠ none := by
  refine any_ne_none fun x hx => ?_
  obtain ⟨row, hrow, rfl⟩ := List.mem_map.mp hx
  refine all_ne_none fun y hy => ?_
  obtain ⟨c, hc, rfl⟩ := List.mem_map.mp hy
  exact truth_ne_none (h row hrow c hc)

/-- A range is never unknown: with a null key its first clauses are false. -/
theorem rangeTruth_ne_none {columns : List PartitionKey} {lower upper : List BoundDatum}
    {clauses : List PartitionClause} (h : rangePartitionClauses columns lower upper = some clauses) :
    clausesTruth reading t clauses ≠ none := by
  obtain ⟨-, -, lowerClause, upperClause, hlower, hupper, rfl⟩ := rangeClauses_eq_some h
  unfold clausesTruth
  intro hnone
  obtain ⟨hmem, hfalse⟩ := all_eq_none.mp hnone
  have hkeys : ∀ key ∈ columns, keyValue t key.index ≠ none := by
    intro key hkey hnull
    refine hfalse _ (List.mem_map_of_mem (List.mem_append_left _ (List.mem_append_left _
      (List.mem_map_of_mem hkey)))) ?_
    simp [PartitionClause.truth, hnull]
  have hrows (op last : CompareOp) (datums : List BoundDatum) (bound : List PartitionClause)
      (hbound : boundClause op last (columns.zip datums) = some bound) :
      ∀ clause ∈ bound, clause.truth reading t ≠ none := by
    intro clause hclause
    obtain ⟨rows, rfl, hindex⟩ := index_of_boundClause hbound hclause
    refine truth_rows_ne_none fun row hrow c hc => ?_
    obtain ⟨part, hpart, heq⟩ := hindex row hrow c hc
    rw [heq]
    exact hkeys _ (List.of_mem_zip hpart).1
  obtain ⟨clause, hclause, hunknown⟩ := List.mem_map.mp hmem
  rcases List.mem_append.mp hclause with hclause | hclause
  · rcases List.mem_append.mp hclause with hclause | hclause
    · obtain ⟨key, -, rfl⟩ := List.mem_map.mp hclause
      cases hunknown
    · exact hrows _ _ _ _ hlower clause hclause hunknown
  · exact hrows _ _ _ _ hupper clause hclause hunknown

end Unknown

section Lists

variable {V : Type} [LinearOrder V] {reading : SqlReading V}

/-- The word for a null stands for a value among others. -/
def NullWordAmong (datums : List BoundDatum) : Prop :=
  2 ≤ datums.length ∧
    ∃ datum ∈ datums, ∃ word, decodeSqlLiteral datum.text = some word ∧ isNullWord word.toList = true

theorem isNullWord_of_eqIgnoreAsciiCase {value word : String} (h : eqIgnoreAsciiCase value word = true) :
    isNullWord value.toList = isNullWord word.toList := by
  have hlower : toAsciiLowercase value = toAsciiLowercase word := eq_of_beq h
  have hmap : value.toList.map Char.toLower = word.toList.map Char.toLower :=
    String.ofList_injective hlower
  rw [isNullWord, isNullWord, hmap]

theorem not_nullWord_of_mem {value : String} {c : Char} (hc : c ∈ value.toList)
    (hletter : c ∉ ['n', 'N', 'u', 'U', 'l', 'L']) : isNullWord value.toList = false := by
  rw [Bool.eq_false_iff]
  intro hnull
  have hmap : value.toList.map Char.toLower = ['n', 'u', 'l', 'l'] := by
    simpa [isNullWord] using hnull
  refine hletter (letter_of_toLower ?_)
  rw [← hmap]
  exact List.mem_map_of_mem hc

theorem not_nullWord_of_isPlainInteger {value : String} (h : isPlainInteger value = true) :
    isNullWord value.toList = false := by
  have hdigit {c : Char} (hc : isAsciiDigit c = true) : c ∉ ['n', 'N', 'u', 'U', 'l', 'L'] := by
    intro hmem
    simp only [List.mem_cons, List.not_mem_nil, or_false] at hmem
    rcases hmem with rfl | rfl | rfl | rfl | rfl | rfl
    all_goals cases hc
  unfold isPlainInteger at h
  dsimp only at h
  split at h
  · rename_i digits heq
    exact @not_nullWord_of_mem _ '+' (heq ▸ List.mem_cons_self) (by decide)
  · rename_i digits heq
    exact @not_nullWord_of_mem _ '-' (heq ▸ List.mem_cons_self) (by decide)
  · rw [Bool.and_eq_true] at h
    cases hdigits : value.toList with
    | nil => simp [hdigits] at h
    | cons c digits =>
      rw [hdigits] at h
      have hc : isAsciiDigit c = true := List.all_eq_true.mp h.2 c List.mem_cons_self
      rw [← hdigits]
      exact @not_nullWord_of_mem _ c (hdigits ▸ List.mem_cons_self) (hdigit hc)

/-- The elements keep the words for a null that the values have. -/
theorem nullWord_elements_iff {ty : ColumnType} {values mapped : List String}
    (h : elementsForArray ty values = some mapped) :
    (∃ element ∈ mapped, isNullWord element.toList = true) ↔
      ∃ value ∈ values, isNullWord value.toList = true := by
  unfold elementsForArray at h
  obtain ⟨typname, -, h⟩ := Option.bind_eq_some_iff.mp h
  split at h
  · have hnone : ∀ value element, (if eqIgnoreAsciiCase value "true" = true then some "t"
        else if eqIgnoreAsciiCase value "false" = true then some "f" else none) = some element →
        isNullWord value.toList = false ∧ isNullWord element.toList = false := by
      intro value element helement
      split at helement
      · rename_i htrue
        cases helement
        exact ⟨isNullWord_of_eqIgnoreAsciiCase htrue, rfl⟩
      · split at helement
        · rename_i hfalse
          cases helement
          exact ⟨isNullWord_of_eqIgnoreAsciiCase hfalse, rfl⟩
        · cases helement
    have hmap := map_eq_of_mapM h
    constructor
    · rintro ⟨element, helement, hnull⟩
      obtain ⟨value, hvalue, heq⟩ := mem_of_mapM h helement
      rw [(hnone value element heq).2] at hnull
      cases hnull
    · rintro ⟨value, hvalue, hnull⟩
      have hmem := List.mem_map_of_mem (f := fun value =>
        if eqIgnoreAsciiCase value "true" = true then some "t"
        else if eqIgnoreAsciiCase value "false" = true then some "f" else none) hvalue
      rw [hmap] at hmem
      obtain ⟨element, -, heq⟩ := List.mem_map.mp hmem
      rw [(hnone value element heq.symm).1] at hnull
      cases hnull
  · split at h
    · cases h
      simp only [List.mem_map, exists_exists_and_eq_and]
      refine exists_congr fun value => and_congr_right fun _ => ?_
      cases ty.zeroPadding with
      | none => exact Iff.rfl
      | some scale =>
        dsimp only
        split
        · rename_i hplain
          rw [not_nullWord_of_isPlainInteger hplain, @not_nullWord_of_mem _ '.' (by simp) (by decide)]
        · exact Iff.rfl
    · split at h
      · cases h
        exact Iff.rfl
      · cases h

theorem any_map_eq_none {α : Type} {f : α → Truth} {l : List α} :
    any (l.map f) = none ↔ (∃ a ∈ l, f a = none) ∧ any (l.map f) ≠ some true := by
  rw [any_eq_none, ne_eq, any_eq_true, List.mem_map, not_exists]
  simp only [not_and, ne_eq]

/-- Equality with one of several is unknown when one of them is null and none
is equal. -/
theorem anyEqual_eq_none {v : V} {elements : List (Option V)} :
    anyEqual (some v) elements = none ↔
      none ∈ elements ∧ anyEqual (some v) elements ≠ some true := by
  unfold anyEqual
  rw [any_map_eq_none]
  refine and_congr_left' ⟨?_, fun hnull => ⟨none, hnull, rfl⟩⟩
  rintro ⟨element, helement, hunknown⟩
  cases element with
  | none => exact helement
  | some w => cases hunknown

theorem nullWord_decoded_iff {datums : List BoundDatum} {values : List String}
    (h : datums.mapM (fun datum => decodeSqlLiteral datum.text) = some values) :
    (∃ value ∈ values, isNullWord value.toList = true) ↔
      ∃ datum ∈ datums, ∃ word, decodeSqlLiteral datum.text = some word ∧
        isNullWord word.toList = true := by
  have hmap := map_eq_of_mapM h
  constructor
  · rintro ⟨value, hvalue, hnull⟩
    obtain ⟨datum, hdatum, heq⟩ := mem_of_mapM h hvalue
    exact ⟨datum, hdatum, value, heq, hnull⟩
  · rintro ⟨datum, hdatum, word, heq, hnull⟩
    have hmem := List.mem_map_of_mem (f := fun datum : BoundDatum => decodeSqlLiteral datum.text) hdatum
    rw [hmap, heq, List.mem_map] at hmem
    obtain ⟨value, hvalue, hsame⟩ := hmem
    cases hsame
    exact ⟨word, hvalue, hnull⟩

/-- What is asked of a key that is not null is unknown only where the word for
a null stands among several values, and none of them is the key. -/
theorem checkTruth_eq_none {key : PartitionKey} {datums : List BoundDatum} {check : ValueCheck}
    (h : listValueCheck key datums = some check) {t : List (Option V)} {v : V}
    (hv : keyValue t key.index = some v) :
    check.truth reading t = none ↔ NullWordAmong datums ∧ check.truth reading t ≠ some true := by
  have hknown (hlength : datums.length < 2) (htruth : check.truth reading t ≠ none) :
      check.truth reading t = none ↔ NullWordAmong datums ∧ check.truth reading t ≠ some true := by
    refine ⟨fun hnone => absurd hnone htruth, fun hnull => ?_⟩
    exact absurd hnull.1.1 (by omega)
  rcases datums with _ | ⟨datum, _ | ⟨next, datums⟩⟩
  · cases h
  · refine hknown (by simp) ?_
    obtain ⟨literal, -, h⟩ := Option.bind_eq_some_iff.mp h
    split at h
    · split at h
      · cases h
        simp [ValueCheck.truth, hv]
      · split at h
        · cases h
          simp [ValueCheck.truth, negate, hv]
        · cases h
    · cases h
      exact truth_ne_none (by simp [hv])
  · obtain ⟨values, hvalues, h⟩ := Option.bind_eq_some_iff.mp h
    obtain ⟨mapped, hmapped, h⟩ := Option.bind_eq_some_iff.mp h
    have hwords : NullWordAmong (datum :: next :: datums) ↔
        ∃ element ∈ mapped, isNullWord element.toList = true := by
      rw [nullWord_elements_iff hmapped, nullWord_decoded_iff hvalues]
      exact and_iff_right (by simp)
    have hnull (read : String → V) : none ∈ (mapped.map fun value =>
          if isNullWord value.toList = true then none else some (read value)) ↔
        ∃ element ∈ mapped, isNullWord element.toList = true := by
      rw [List.mem_map]
      refine exists_congr fun element => and_congr_right fun _ => ?_
      by_cases hword : isNullWord element.toList = true
      all_goals simp [hword]
    split at h
    · cases h
      rw [ValueCheck.truth, hv, anyEqual_eq_none, hwords, hnull]
    · cases h
      have hread : readArrayLiteral (serializeArrayLiteral mapped) = some (mapped.map fun value =>
          if isNullWord value.toList = true then none else some value) :=
        readArrayLiteral_serialize mapped
      have helements : (mapped.map fun value =>
            if isNullWord value.toList = true then none else some value).map
          (fun element => element.map (reading.element key.ty.display)) =
          mapped.map fun value => if isNullWord value.toList = true then none
            else some (reading.element key.ty.display value) := by
        rw [List.map_map]
        refine List.map_congr_left fun value _ => ?_
        by_cases hword : isNullWord value.toList = true
        all_goals simp [hword]
      have htruth : (ValueCheck.anyOfArray key.index key.comparisonLeft
          (serializeArrayLiteral mapped) key.ty.display).truth reading t =
          anyEqual (some v) (mapped.map fun value => if isNullWord value.toList = true then none
            else some (reading.element key.ty.display value)) := by
        rw [ValueCheck.truth, hread, hv, Option.bind_eq_bind, Option.bind_some, helements]
      rw [htruth, anyEqual_eq_none, hwords, hnull]

end Lists

section Siblings

variable {V : Type} [LinearOrder V] {reading : SqlReading V} {t : List (Option V)}

/-- The values of a list, with the word for a null among them. -/
def NullWordListed (bounds : BoundText) (bound : String) : Prop :=
  ∃ datums, bounds.typedBound bound = some (.inList datums) ∧
    NullWordAmong (datums.filter fun datum => datum.kind != .null)

theorem listTruth_null {key : PartitionKey} {datums : List BoundDatum} {clauses : List PartitionClause}
    (h : listPartitionClauses [key] datums = some clauses) (hnull : keyValue t key.index = none) :
    clausesTruth reading t clauses ≠ none := by
  unfold listPartitionClauses at h
  dsimp only at h
  split at h
  · split at h
    · cases h
      simp [clausesTruth, all, PartitionClause.truth]
    · cases h
  · obtain ⟨check, -, h⟩ := Option.bind_eq_some_iff.mp h
    split at h
    · cases h
      simp [clausesTruth, all, PartitionClause.truth, hnull]
    · cases h
      simp [clausesTruth, all, PartitionClause.truth, hnull]

theorem listTruth_value {key : PartitionKey} {datums : List BoundDatum}
    {clauses : List PartitionClause} (h : listPartitionClauses [key] datums = some clauses) {v : V}
    (hv : keyValue t key.index = some v) :
    clausesTruth reading t clauses = none ↔
      NullWordAmong (datums.filter fun datum => datum.kind != .null) ∧
        clausesTruth reading t clauses ≠ some true := by
  unfold listPartitionClauses at h
  dsimp only at h
  split at h
  · rename_i hvalues
    split at h
    · cases h
      rw [hvalues]
      simp [clausesTruth, all, PartitionClause.truth, NullWordAmong]
    · cases h
  · obtain ⟨check, hcheck, h⟩ := Option.bind_eq_some_iff.mp h
    have htruth : clausesTruth reading t clauses = check.truth reading t := by
      split at h
      · cases h
        simp [clausesTruth, all, PartitionClause.truth, hv]
      · cases h
        simp [clausesTruth, all, PartitionClause.truth, hv]
    rw [htruth]
    exact checkTruth_eq_none hcheck hv

theorem exists_key_of_list {columns : List PartitionKey} {datums : List BoundDatum}
    {clauses : List PartitionClause} (h : listPartitionClauses columns datums = some clauses) :
    ∃ key, columns = [key] := by
  rcases columns with _ | ⟨key, _ | ⟨next, columns⟩⟩
  · cases h
  · exact ⟨key, rfl⟩
  · cases h

/-- Which tuples the clauses of a partition are unknown for. -/
theorem clausesTruth_eq_none {bounds : BoundText} {strategy bound : String}
    {keys : List (String × String)} {child : RelationState} {clauses : List PartitionClause}
    (h : synthesizePartitionCheckClauses bounds strategy bound keys child = some clauses)
    (ht : t.length = keys.length) :
    clausesTruth reading t clauses = none ↔
      NullWordListed bounds bound ∧ (∃ v, t = [some v]) ∧ clausesTruth reading t clauses ≠ some true := by
  unfold synthesizePartitionCheckClauses at h
  split at h
  · cases h
  · obtain ⟨columns, hcolumns, h⟩ := Option.bind_eq_some_iff.mp h
    obtain ⟨typedBound, hbound, h⟩ := Option.bind_eq_some_iff.mp h
    have hindex := index_of_partitionKeys hcolumns
    split at h
    · cases typedBound with
      | fromTo lower upper =>
        refine ⟨fun hnone => absurd hnone (rangeTruth_ne_none h), ?_⟩
        rintro ⟨⟨datums, hlist, -⟩, -⟩
        rw [hbound] at hlist
        cases hlist
      | default => cases h
      | inList datums => cases h
      | withModulus modulus remainder => cases h
    · split at h
      · cases typedBound with
        | inList datums =>
          have hlisted : NullWordListed bounds bound ↔
              NullWordAmong (datums.filter fun datum => datum.kind != .null) := by
            refine ⟨?_, fun hnull => ⟨datums, hbound, hnull⟩⟩
            rintro ⟨others, hothers, hnull⟩
            rw [hbound] at hothers
            cases hothers
            exact hnull
          obtain ⟨key, rfl⟩ := exists_key_of_list h
          have hlength : keys.length = 1 := by simpa [eq_comm] using congrArg List.length hindex
          rw [hlength] at hindex ht
          have hkey : key.index = 0 := by simpa using hindex
          obtain ⟨x, rfl⟩ := List.length_eq_one_iff.mp ht
          cases x with
          | none =>
            have hnull : keyValue ([none] : List (Option V)) key.index = none := by
              rw [hkey]
              rfl
            refine ⟨fun hnone => absurd hnone (listTruth_null h hnull), ?_⟩
            rintro ⟨-, ⟨v, hv⟩, -⟩
            cases hv
          | some v =>
            have hv : keyValue [some v] key.index = some v := by
              rw [hkey]
              rfl
            rw [listTruth_value h hv, hlisted]
            exact and_congr_right fun _ => (and_iff_right ⟨v, rfl⟩).symm
        | default => cases h
        | fromTo lower upper => cases h
        | withModulus modulus remainder => cases h
      · cases h

theorem length_of_nullWordListed {bounds : BoundText} {strategy bound : String}
    {keys : List (String × String)} {child : RelationState} {clauses : List PartitionClause}
    (h : synthesizePartitionCheckClauses bounds strategy bound keys child = some clauses)
    (hlisted : NullWordListed bounds bound) : keys.length = 1 := by
  obtain ⟨datums, hbound, -⟩ := hlisted
  unfold synthesizePartitionCheckClauses at h
  split at h
  · cases h
  · obtain ⟨columns, hcolumns, h⟩ := Option.bind_eq_some_iff.mp h
    rw [hbound, Option.bind_eq_bind, Option.bind_some] at h
    split at h
    · cases h
    · split at h
      · obtain ⟨key, rfl⟩ := exists_key_of_list h
        simpa [eq_comm] using congrArg List.length (index_of_partitionKeys hcolumns)
      · cases h

end Siblings

namespace AnalysisState

variable (s : AnalysisState) (text : SqlText) (bounds : BoundText) (parent : ObjectId)
  (strategy : String) (keys : List (String × String))

structure PartitionedBy : Prop where
  strategy : ∃ relation, s.presentRelation parent = some relation ∧
    relation.partitionType = some strategy
  keys : s.partitionKeyColumns text parent = some keys

/-- A present partition with a bound of its own. -/
def IsSibling (bound : String) (child : RelationState) : Prop :=
  ∃ e ∈ s.partitionEdges parent, s.presentRelation e.dependent = some child ∧
    child.partitionBound = some bound ∧ isDefaultBound bound = false

variable {V : Type} [LinearOrder V] (reading : SqlReading V)

/-- The constraint of the default partition holds where no sibling's predicate
does, and there is none if a sibling has no predicate. -/
structure ExcludesSiblings : Prop where
  unrendered : ∀ bound child, s.IsSibling parent bound child →
    synthesizePartitionCheckClauses bounds strategy bound keys child = none →
      s.synthesizeDefaultPartitionConstraint (bounds.rendering text) parent = none
  excludes : ∀ c, s.synthesizeDefaultPartitionConstraint (bounds.rendering text) parent = some c →
    ∃ p, s.defaultPredicate text bounds parent = some p ∧ p.text = c ∧
      ∀ t : List (Option V), t.length = keys.length →
        (p.truth reading t = some true ↔ ∀ bound child clauses, s.IsSibling parent bound child →
          synthesizePartitionCheckClauses bounds strategy bound keys child = some clauses →
            clausesTruth reading t clauses ≠ some true)

structure RendersSiblings : Prop where
  all_or_none : (∀ bound child, s.IsSibling parent bound child →
      synthesizePartitionCheckClauses bounds strategy bound keys child ≠ none) ∨
    ∀ bound child, s.IsSibling parent bound child →
      synthesizePartitionCheckClauses bounds strategy bound keys child = none
  /-- The word for a null stands in a list of values only if each value of the
  key is in some sibling. -/
  nullWord : ∀ bound child clauses, s.IsSibling parent bound child →
    synthesizePartitionCheckClauses bounds strategy bound keys child = some clauses →
      NullWordListed bounds bound → ∀ v : V, ∃ bound' child' clauses',
        s.IsSibling parent bound' child' ∧
          synthesizePartitionCheckClauses bounds strategy bound' keys child' = some clauses' ∧
            clausesTruth reading [some v] clauses' = some true

variable {s text bounds parent strategy keys reading}

theorem mem_siblings {clauses : List PartitionClause} :
    clauses ∈ (s.partitionEdges parent).filterMap (s.siblingClauses bounds strategy keys) ↔
      ∃ bound child, s.IsSibling parent bound child ∧
        synthesizePartitionCheckClauses bounds strategy bound keys child = some clauses := by
  rw [List.mem_filterMap]
  constructor
  · rintro ⟨e, he, hclauses⟩
    obtain ⟨child, hchild, hclauses⟩ := Option.bind_eq_some_iff.mp hclauses
    obtain ⟨bound, hbound, hclauses⟩ := Option.bind_eq_some_iff.mp hclauses
    split at hclauses
    · cases hclauses
    · rename_i hdefault
      exact ⟨bound, child, ⟨e, he, hchild, hbound, Bool.eq_false_iff.mpr hdefault⟩, hclauses⟩
  · rintro ⟨bound, child, ⟨e, he, hchild, hbound, hdefault⟩, hclauses⟩
    refine ⟨e, he, ?_⟩
    rw [siblingClauses, hchild, Option.bind_eq_bind, Option.bind_some, hbound, Option.bind_eq_bind,
      Option.bind_some, hdefault]
    exact hclauses

/-- The predicate has the siblings that can be rendered, if there are any. -/
theorem defaultPredicate_eq_some_iff (hparent : s.PartitionedBy text parent strategy keys)
    {p : DefaultPredicate} : s.defaultPredicate text bounds parent = some p ↔
      p.siblings ≠ [] ∧
        p.siblings = (s.partitionEdges parent).filterMap (s.siblingClauses bounds strategy keys) := by
  obtain ⟨relation, hrelation, hstrategy⟩ := hparent.strategy
  rw [defaultPredicate, hrelation, Option.bind_eq_bind, Option.bind_some, hstrategy,
    Option.bind_eq_bind, Option.bind_some, hparent.keys, Option.bind_eq_bind, Option.bind_some]
  cases (s.partitionEdges parent).filterMap (s.siblingClauses bounds strategy keys) with
  | nil => simp
  | cons clauses siblings =>
    constructor
    · intro h
      cases h
      simp
    · rintro ⟨-, h⟩
      obtain ⟨_⟩ := p
      cases h
      rfl

theorem constraint_eq_some_iff {c : String} :
    s.synthesizeDefaultPartitionConstraint (bounds.rendering text) parent = some c ↔
      ∃ p, s.defaultPredicate text bounds parent = some p ∧ p.text = c := by
  rw [synthesizeDefaultPartitionConstraint_rendering, Option.map_eq_some_iff]

theorem constraint_eq_none_iff (hparent : s.PartitionedBy text parent strategy keys) :
    s.synthesizeDefaultPartitionConstraint (bounds.rendering text) parent = none ↔
      ∀ bound child, s.IsSibling parent bound child →
        synthesizePartitionCheckClauses bounds strategy bound keys child = none := by
  rw [synthesizeDefaultPartitionConstraint_rendering, Option.map_eq_none_iff]
  constructor
  · intro hnone bound child hsibling
    cases hclauses : synthesizePartitionCheckClauses bounds strategy bound keys child with
    | none => rfl
    | some clauses =>
      have hmem := mem_siblings.mpr ⟨bound, child, hsibling, hclauses⟩
      have hsome := (@defaultPredicate_eq_some_iff s text bounds parent strategy keys hparent
        ⟨(s.partitionEdges parent).filterMap (s.siblingClauses bounds strategy keys)⟩).mpr
        ⟨List.ne_nil_of_mem hmem, rfl⟩
      rw [hnone] at hsome
      cases hsome
  · intro hall
    rw [Option.eq_none_iff_forall_ne_some]
    intro p hp
    obtain ⟨hne, heq⟩ := (defaultPredicate_eq_some_iff hparent).mp hp
    obtain ⟨clauses, hclauses⟩ := List.exists_mem_of_ne_nil _ hne
    rw [heq] at hclauses
    obtain ⟨bound, child, hsibling, hsome⟩ := mem_siblings.mp hclauses
    rw [hall bound child hsibling] at hsome
    cases hsome

/-- The negation holds where every sibling is false. -/
theorem truth_defaultPredicate (hparent : s.PartitionedBy text parent strategy keys)
    {p : DefaultPredicate} (hp : s.defaultPredicate text bounds parent = some p)
    {t : List (Option V)} :
    p.truth reading t = some true ↔ ∀ bound child clauses, s.IsSibling parent bound child →
      synthesizePartitionCheckClauses bounds strategy bound keys child = some clauses →
        clausesTruth reading t clauses = some false := by
  rw [DefaultPredicate.truth, negate_eq_true, any_eq_false,
    ((defaultPredicate_eq_some_iff hparent).mp hp).2, List.forall_mem_map]
  constructor
  · intro hfalse bound child clauses hsibling hclauses
    exact hfalse clauses (mem_siblings.mpr ⟨bound, child, hsibling, hclauses⟩)
  · intro hfalse clauses hclauses
    obtain ⟨bound, child, hsibling, hsome⟩ := mem_siblings.mp hclauses
    exact hfalse bound child clauses hsibling hsome

theorem RendersSiblings.of_excludesSiblings (hparent : s.PartitionedBy text parent strategy keys)
    (h : s.ExcludesSiblings text bounds parent strategy keys reading) :
    s.RendersSiblings bounds parent strategy keys reading where
  all_or_none := by
    by_cases hall : ∀ bound child, s.IsSibling parent bound child →
        synthesizePartitionCheckClauses bounds strategy bound keys child ≠ none
    · exact .inl hall
    · simp only [not_forall, ne_eq, not_not] at hall
      obtain ⟨bound, child, hsibling, hnone⟩ := hall
      exact .inr ((constraint_eq_none_iff hparent).mp (h.unrendered bound child hsibling hnone))
  nullWord := by
    intro bound child clauses hsibling hclauses hlisted v
    have hlength := length_of_nullWordListed hclauses hlisted
    by_contra hnot
    have huncovered : ∀ bound child clauses, s.IsSibling parent bound child →
        synthesizePartitionCheckClauses bounds strategy bound keys child = some clauses →
          clausesTruth reading [some v] clauses ≠ some true :=
      fun bound child clauses hsibling hclauses htrue =>
        hnot ⟨bound, child, clauses, hsibling, hclauses, htrue⟩
    cases hconstraint : s.synthesizeDefaultPartitionConstraint (bounds.rendering text) parent with
    | none =>
      rw [(constraint_eq_none_iff hparent).mp hconstraint bound child hsibling] at hclauses
      cases hclauses
    | some c =>
      obtain ⟨p, hp, -, hexcludes⟩ := h.excludes c hconstraint
      have htrue := (hexcludes [some v] hlength.symm).mpr huncovered
      have hfalse := (truth_defaultPredicate hparent hp).mp htrue bound child clauses hsibling hclauses
      -- the sibling with the word for a null is not false of a value that it does not list
      have htuple : [some v].length = keys.length := hlength.symm
      have hunknown : clausesTruth reading [some v] clauses = none :=
        (clausesTruth_eq_none hclauses htuple).mpr
          ⟨hlisted, ⟨v, rfl⟩, huncovered bound child clauses hsibling hclauses⟩
      rw [hunknown] at hfalse
      cases hfalse

theorem ExcludesSiblings.of_rendersSiblings (hparent : s.PartitionedBy text parent strategy keys)
    (h : s.RendersSiblings bounds parent strategy keys reading) :
    s.ExcludesSiblings text bounds parent strategy keys reading where
  unrendered := by
    intro bound child hsibling hnone
    rcases h.all_or_none with hall | hall
    · exact absurd hnone (hall bound child hsibling)
    · exact (constraint_eq_none_iff hparent).mpr hall
  excludes := by
    intro c hc
    obtain ⟨p, hp, htext⟩ := constraint_eq_some_iff.mp hc
    refine ⟨p, hp, htext, fun t ht => ?_⟩
    rw [truth_defaultPredicate hparent hp]
    constructor
    · intro hfalse bound child clauses hsibling hclauses
      rw [hfalse bound child clauses hsibling hclauses]
      decide
    · intro hnot bound child clauses hsibling hclauses
      cases htruth : clausesTruth reading t clauses with
      | some value =>
        cases value with
        | true => exact absurd htruth (hnot bound child clauses hsibling hclauses)
        | false => rfl
      | none =>
        obtain ⟨hlisted, ⟨v, rfl⟩, -⟩ := (clausesTruth_eq_none hclauses ht).mp htruth
        obtain ⟨bound', child', clauses', hsibling', hclauses', htrue⟩ :=
          h.nullWord bound child clauses hsibling hclauses hlisted v
        exact absurd htrue (hnot bound' child' clauses' hsibling' hclauses')

/-- The default partition's constraint excludes the siblings if and only if all
of them are rendered or none is, and no list of values says null. -/
theorem excludesSiblings_iff (hparent : s.PartitionedBy text parent strategy keys) :
    s.ExcludesSiblings text bounds parent strategy keys reading ↔
      s.RendersSiblings bounds parent strategy keys reading :=
  ⟨.of_excludesSiblings hparent, .of_rendersSiblings hparent⟩

end AnalysisState

section Samples

def markets : ObjectId := ⟨"public", "markets"⟩

def marketPartition (name bound : String) : RelationState :=
  { RelationState.new ⟨"public", name⟩ ⟨"", "postgres"⟩ 0 none .table .permanent 0 with
    columns := [.migrationCreated "code" (some "integer") true none]
    partitionBound := some bound }

/-- A table that is partitioned by a number, with two partitions. -/
def marketState (firstBound secondBound : String) : AnalysisState :=
  { relations := (((∅ : KeyedMap ObjectId RelationOverlay).insert markets
      (.present { RelationState.new markets ⟨"", "postgres"⟩ 0 none .table .permanent 0 with
        columns := [.migrationCreated "code" (some "integer") true none]
        partitionType := some "LIST"
        partitionKeys := [("code", "code")] })).insert ⟨"public", "first"⟩
      (.present (marketPartition "first" firstBound))).insert ⟨"public", "second"⟩
      (.present (marketPartition "second" secondBound))
    graph := (DependencyGraph.empty.addEdge ⟨⟨"public", "first"⟩, markets, .partitionOf⟩).addEdge
      ⟨⟨"public", "second"⟩, markets, .partitionOf⟩ }

/-- A sum is no constant of a bound. -/
def marketBounds : BoundText where
  columnType _ :=
    { typname := some "int4", hasTypmod := false, zeroPadding := none, display := "integer" }
  typedBound bound :=
    if bound = "FOR VALUES IN (1)" then some (.inList [⟨.const, "1"⟩])
    else if bound = "FOR VALUES IN (2)" then some (.inList [⟨.const, "2"⟩])
    else none

def intReading : SqlReading Int where
  literal text := (i64FromStr text).getD 0
  element _ text := (i64FromStr text).getD 0
  isTrue _ := false

def plainMarkets : AnalysisState := marketState "FOR VALUES IN (1)" "FOR VALUES IN (2)"

def sumMarkets : AnalysisState := marketState "FOR VALUES IN (1)" "FOR VALUES IN (1 + 1)"

theorem marketState_partitionedBy (firstBound secondBound : String) :
    (marketState firstBound secondBound).PartitionedBy textless markets "LIST" [("code", "code")] where
  strategy := ⟨_, rfl, rfl⟩
  keys := rfl

theorem marketState_siblings {firstBound secondBound bound : String} {child : RelationState}
    (h : (marketState firstBound secondBound).IsSibling markets bound child) :
    bound = firstBound ∧ child = marketPartition "first" firstBound ∨
      bound = secondBound ∧ child = marketPartition "second" secondBound := by
  obtain ⟨e, he, hchild, hbound, -⟩ := h
  have hedges : (marketState firstBound secondBound).partitionEdges markets =
      [⟨⟨"public", "first"⟩, markets, .partitionOf⟩, ⟨⟨"public", "second"⟩, markets, .partitionOf⟩] := by
    rfl
  rw [hedges] at he
  rcases List.mem_pair.mp he with rfl | rfl
  · left
    cases hchild
    cases hbound
    exact ⟨rfl, rfl⟩
  · right
    cases hchild
    cases hbound
    exact ⟨rfl, rfl⟩

theorem plainMarkets_excludesSiblings : plainMarkets.ExcludesSiblings textless marketBounds markets
    "LIST" [("code", "code")] intReading := by
  refine (AnalysisState.excludesSiblings_iff (marketState_partitionedBy _ _)).mpr ⟨.inl ?_, ?_⟩
  · intro bound child hsibling
    rcases marketState_siblings hsibling with ⟨rfl, rfl⟩ | ⟨rfl, rfl⟩
    · decide +kernel
    · decide +kernel
  · intro bound child clauses hsibling hclauses hlisted
    obtain ⟨datums, hbound, hlength, -⟩ := hlisted
    rcases marketState_siblings hsibling with ⟨rfl, -⟩ | ⟨rfl, -⟩
    · have hread : marketBounds.typedBound "FOR VALUES IN (1)" = some (.inList [⟨.const, "1"⟩]) := rfl
      cases hread.symm.trans hbound
      exact absurd hlength (by decide)
    · have hread : marketBounds.typedBound "FOR VALUES IN (2)" = some (.inList [⟨.const, "2"⟩]) := rfl
      cases hread.symm.trans hbound
      exact absurd hlength (by decide)

/-- The partition whose bound is a sum is left out of the constraint. -/
theorem sumMarkets_omits : ¬∀ (s : AnalysisState) (text : SqlText) (bounds : BoundText)
    (parent : ObjectId) (strategy : String) (keys : List (String × String)),
    s.PartitionedBy text parent strategy keys →
      s.ExcludesSiblings text bounds parent strategy keys intReading := by
  intro hall
  have hexcludes := hall sumMarkets textless marketBounds markets "LIST" [("code", "code")]
    (marketState_partitionedBy _ _)
  have hsecond : sumMarkets.IsSibling markets "FOR VALUES IN (1 + 1)"
      (marketPartition "second" "FOR VALUES IN (1 + 1)") :=
    ⟨⟨⟨"public", "second"⟩, markets, .partitionOf⟩, by decide +kernel, rfl, rfl, by decide +kernel⟩
  have hnone := hexcludes.unrendered _ _ hsecond (by decide +kernel)
  have hsome : sumMarkets.synthesizeDefaultPartitionConstraint (marketBounds.rendering textless)
      markets = some "(NOT ((code IS NOT NULL) AND ((code = 1))))" := by
    decide +kernel
  rw [hnone] at hsome
  cases hsome

end Samples

end SafeMigrate
