import Mathlib.Data.String.Basic
import SafeMigrate.ConstantValues
import SafeMigrate.LexBounds

/-! The predicate of a `RANGE` partition against the range of its bound. -/

namespace SafeMigrate

open ThreeValued LexBounds

theorem map_eq_of_mapM {α β : Type} {f : α → Option β} {l : List α} {l' : List β}
    (h : l.mapM f = some l') : l.map f = l'.map some := by
  induction l generalizing l' with
  | nil =>
    rw [List.mapM_nil] at h
    cases h
    rfl
  | cons a l ih =>
    rw [List.mapM_cons] at h
    obtain ⟨b, hb, h⟩ := Option.bind_eq_some_iff.mp h
    obtain ⟨bs, hbs, h⟩ := Option.bind_eq_some_iff.mp h
    cases h
    rw [List.map_cons, List.map_cons, hb, ih hbs]

section Rows

variable {V : Type} [LinearOrder V] (reading : SqlReading V) {t : List (Option V)}

/-- The value of the literal that a constant is rendered as. -/
def litValue (part : PartitionKey × BoundDatum) : V :=
  reading.literal ((deparsePartitionLiteral part.1.ty part.1.dataType part.2.text).getD "")

variable {reading} {u : Nat → V}

theorem truth_comparison {op : CompareOp} {part : PartitionKey × BoundDatum} {c : Comparison}
    (h : comparison op part = some c) (hu : keyValue t part.1.index = some (u part.1.index)) :
    c.truth reading t = some (op.holds (u part.1.index) (litValue reading part)) := by
  unfold comparison at h
  obtain ⟨literal, hliteral, rfl⟩ := Option.map_eq_some_iff.mp h
  unfold Comparison.truth litValue
  rw [hu, hliteral]
  rfl

theorem truth_agree {parts : List (PartitionKey × BoundDatum)} {agree : List Comparison}
    (h : parts.mapM (comparison .eq) = some agree)
    (hu : ∀ part ∈ parts, keyValue t part.1.index = some (u part.1.index)) :
    agree.map (Comparison.truth reading t) =
      parts.map fun part => some (decide (u part.1.index = litValue reading part)) := by
  have hmap := map_eq_of_mapM h
  clear h
  induction parts generalizing agree with
  | nil =>
    cases agree with
    | nil => rfl
    | cons c agree => cases hmap
  | cons part parts ih =>
    cases agree with
    | nil => cases hmap
    | cons c agree =>
      rw [List.map_cons, List.map_cons, List.cons.injEq] at hmap
      rw [List.map_cons, List.map_cons, ih (fun p hp => hu p (List.mem_cons_of_mem _ hp)) hmap.2,
        truth_comparison hmap.1 (hu part List.mem_cons_self)]
      rfl

/-- The disjuncts say that the key lies beyond the bound. -/
theorem truth_boundRows {op last : CompareOp} {before parts : List (PartitionKey × BoundDatum)}
    {rows : List (List Comparison)} (h : boundRows op last before parts = some rows)
    (hu : ∀ part ∈ before ++ parts, keyValue t part.1.index = some (u part.1.index)) :
    any (rows.map fun comparisons => all (comparisons.map (Comparison.truth reading t))) = some true ↔
      (∀ part ∈ before, u part.1.index = litValue reading part) ∧
        Beyond (fun a b => op.holds a b = true) (fun a b => last.holds a b = true)
          (parts.map fun part => (u part.1.index, litValue reading part)) := by
  induction parts generalizing before rows with
  | nil =>
    rw [boundRows] at h
    cases h
    simp [Beyond, any]
  | cons part parts ih =>
    rw [boundRows] at h
    obtain ⟨agree, hagree, h⟩ := Option.bind_eq_some_iff.mp h
    obtain ⟨next, hnext, h⟩ := Option.bind_eq_some_iff.mp h
    obtain ⟨rest, hrest, h⟩ := Option.bind_eq_some_iff.mp h
    cases h
    have hpart := hu part (List.mem_append_right _ List.mem_cons_self)
    have hbefore : agree.map (Comparison.truth reading t) =
        before.map fun part => some (decide (u part.1.index = litValue reading part)) :=
      truth_agree hagree fun p hp => hu p (List.mem_append_left _ hp)
    have hthen := ih hrest (by simpa using hu)
    have hhead : all ((agree ++ [next]).map (Comparison.truth reading t)) = some true ↔
        (∀ part ∈ before, u part.1.index = litValue reading part) ∧
          (if parts.isEmpty then last else op).holds (u part.1.index) (litValue reading part) =
            true := by
      rw [List.map_append, hbefore, List.map_cons, List.map_nil, truth_comparison hnext hpart,
        all_eq_true, List.forall_mem_append, List.forall_mem_map, List.forall_mem_singleton]
      simp only [Option.some_inj, decide_eq_true_eq]
    rw [List.map_cons, any, List.foldr_cons, either_eq_true, ← any, hthen, hhead]
    cases parts with
    | nil => simp [Beyond]
    | cons part' parts =>
      simp only [List.isEmpty_cons, Bool.false_eq_true, if_false, List.forall_mem_append,
        List.forall_mem_singleton, List.map_cons, Beyond]
      tauto

end Rows

section Clauses

variable {V : Type} [LinearOrder V] {reading : SqlReading V} {t : List (Option V)} {u : Nat → V}
  {parts : List (PartitionKey × BoundDatum)} {clauses : List PartitionClause}

/-- The key values at the places of a bound. -/
def keyValues (u : Nat → V) (parts : List (PartitionKey × BoundDatum)) : List V :=
  parts.map fun part => u part.1.index

def litValues (reading : SqlReading V) (parts : List (PartitionKey × BoundDatum)) : List V :=
  parts.map (litValue reading)

theorem truth_boundClause {op last : CompareOp} (h : boundClause op last parts = some clauses)
    (hu : ∀ part ∈ parts, keyValue t part.1.index = some (u part.1.index)) :
    clausesTruth reading t clauses = some true ↔ parts = [] ∨
      Beyond (fun a b => op.holds a b = true) (fun a b => last.holds a b = true)
        ((keyValues u parts).zip (litValues reading parts)) := by
  unfold boundClause at h
  by_cases hempty : parts.isEmpty = true
  · rw [if_pos hempty] at h
    cases h
    simp [clausesTruth, all, List.isEmpty_iff.mp hempty]
  · rw [if_neg hempty] at h
    obtain ⟨rows, hrows, rfl⟩ := Option.map_eq_some_iff.mp h
    have hne : parts ≠ [] := fun hnil => hempty (List.isEmpty_iff.mpr hnil)
    have htruth := @truth_boundRows V _ reading t u op last [] parts rows hrows (by simpa using hu)
    rw [clausesTruth, List.map_singleton, all_eq_true, List.forall_mem_singleton,
      PartitionClause.truth, htruth, keyValues, litValues, List.zip_map']
    simp [hne]

/-- A lower bound's clause: the key is not below the constants. -/
theorem truth_lowerClause (h : boundClause .gt .ge parts = some clauses)
    (hu : ∀ part ∈ parts, keyValue t part.1.index = some (u part.1.index)) :
    clausesTruth reading t clauses = some true ↔
      ¬keyValues u parts < litValues reading parts := by
  have hlength : (litValues reading parts).length = (keyValues u parts).length := by
    simp [keyValues, litValues]
  rw [truth_boundClause h hu]
  by_cases hempty : parts = []
  · simp [hempty, keyValues, litValues]
  · have hne : litValues reading parts ≠ [] := by simpa [litValues] using hempty
    rw [← lt_or_eq_iff_not_lt, ← beyond_le_iff hlength hne, ← beyond_swap]
    simp [hempty, CompareOp.holds]

theorem truth_upperClause (h : boundClause .lt .lt parts = some clauses) (hne : parts ≠ [])
    (hu : ∀ part ∈ parts, keyValue t part.1.index = some (u part.1.index)) :
    clausesTruth reading t clauses = some true ↔ keyValues u parts < litValues reading parts := by
  have hlength : (keyValues u parts).length = (litValues reading parts).length := by
    simp [keyValues, litValues]
  rw [truth_boundClause h hu, ← beyond_lt_iff hlength]
  simp [hne, CompareOp.holds]

theorem truth_maxClause (h : boundClause .lt .le parts = some clauses)
    (hu : ∀ part ∈ parts, keyValue t part.1.index = some (u part.1.index)) :
    clausesTruth reading t clauses = some true ↔
      keyValues u parts < litValues reading parts ∨ keyValues u parts = litValues reading parts := by
  have hlength : (keyValues u parts).length = (litValues reading parts).length := by
    simp [keyValues, litValues]
  rw [truth_boundClause h hu]
  by_cases hempty : parts = []
  · simp [hempty, keyValues, litValues]
  · have hkeys : keyValues u parts ≠ [] := by simpa [keyValues] using hempty
    rw [← beyond_le_iff hlength hkeys]
    simp [hempty, CompareOp.holds]

theorem exists_literal_of_boundRows {op last : CompareOp}
    {before parts : List (PartitionKey × BoundDatum)} {rows : List (List Comparison)}
    (h : boundRows op last before parts = some rows) : ∀ part ∈ parts,
      ∃ literal, deparsePartitionLiteral part.1.ty part.1.dataType part.2.text = some literal := by
  induction parts generalizing before rows with
  | nil => exact fun part hpart => absurd hpart List.not_mem_nil
  | cons part parts ih =>
    rw [boundRows] at h
    obtain ⟨agree, -, h⟩ := Option.bind_eq_some_iff.mp h
    obtain ⟨next, hnext, h⟩ := Option.bind_eq_some_iff.mp h
    obtain ⟨rest, hrest, -⟩ := Option.bind_eq_some_iff.mp h
    intro part' hpart
    rcases List.mem_cons.mp hpart with rfl | hpart
    · obtain ⟨literal, hliteral, -⟩ := Option.map_eq_some_iff.mp hnext
      exact ⟨literal, hliteral⟩
    · exact ih hrest part' hpart

theorem exists_literal {op last : CompareOp} (h : boundClause op last parts = some clauses) :
    ∀ part ∈ parts,
      ∃ literal, deparsePartitionLiteral part.1.ty part.1.dataType part.2.text = some literal := by
  unfold boundClause at h
  by_cases hempty : parts.isEmpty = true
  · rw [List.isEmpty_iff.mp hempty]
    exact fun part hpart => absurd hpart List.not_mem_nil
  · rw [if_neg hempty] at h
    obtain ⟨rows, hrows, -⟩ := Option.map_eq_some_iff.mp h
    exact exists_literal_of_boundRows hrows

end Clauses

section Bounds

variable {V : Type} [LinearOrder V] (constant : PartitionKey → String → V) (reading : SqlReading V)

def boundValue (part : PartitionKey × BoundDatum) : Bound V :=
  match part.2.kind with
  | .unboundedMin => ⊥
  | .unboundedMax => ⊤
  | _ => point (constant part.1 part.2.text)

/-- The values of a bound, as PostgreSQL compares tuples with them. -/
def boundValues (columns : List PartitionKey) (datums : List BoundDatum) : List (Bound V) :=
  (columns.zip datums).map (boundValue constant)

/-- After the first sentinel come its repeats only. -/
def SentinelsRepeat (datums : List BoundDatum) : Prop :=
  ∀ before datum after, datums = before ++ datum :: after → isUnbounded datum = true →
    ∀ later ∈ after, later.kind = datum.kind

/-- What PostgreSQL asks of the bounds of a range partition. -/
structure AcceptedRange (columns : List PartitionKey) (lower upper : List BoundDatum) : Prop where
  lower_ne_null : ∀ datum ∈ lower, datum.kind ≠ .null
  upper_ne_null : ∀ datum ∈ upper, datum.kind ≠ .null
  lower_repeats : SentinelsRepeat lower
  upper_repeats : SentinelsRepeat upper
  ordered : boundValues constant columns lower < boundValues constant columns upper

/-- The literals of the constants have the values of the constants. -/
def Rendered (columns : List PartitionKey) (datums : List BoundDatum) : Prop :=
  ∀ part ∈ columns.zip datums, part.2.kind = .const → ∀ literal,
    deparsePartitionLiteral part.1.ty part.1.dataType part.2.text = some literal →
      reading.literal literal = constant part.1 part.2.text

variable {constant reading} {u : Nat → V} {P R : List (PartitionKey × BoundDatum)}

omit [LinearOrder V] in
theorem boundValue_of_const {part : PartitionKey × BoundDatum} (h : part.2.kind = .const) :
    boundValue constant part = point (constant part.1 part.2.text) := by
  rw [boundValue, h]

omit [LinearOrder V] in
/-- The places before the first sentinel have the values of their literals. -/
theorem boundValues_of_rendered (hliterals : ∀ part ∈ P,
      ∃ literal, deparsePartitionLiteral part.1.ty part.1.dataType part.2.text = some literal)
    (hconst : ∀ part ∈ P, part.2.kind = .const)
    (hrendered : ∀ part ∈ P, part.2.kind = .const → ∀ literal,
      deparsePartitionLiteral part.1.ty part.1.dataType part.2.text = some literal →
        reading.literal literal = constant part.1 part.2.text) :
    P.map (boundValue constant) = (litValues reading P).map point := by
  rw [litValues, List.map_map]
  refine List.map_congr_left fun part hpart => ?_
  obtain ⟨literal, hliteral⟩ := hliterals part hpart
  have hvalue := hrendered part hpart (hconst part hpart) literal hliteral
  rw [boundValue_of_const (hconst part hpart), Function.comp, litValue, hliteral, Option.getD_some,
    hvalue]

omit [LinearOrder V] in
theorem keyValues_append : keyValues u (P ++ R) = keyValues u P ++ keyValues u R := List.map_append

/-- A bound without sentinel, or with one after some values. -/
theorem below_iff {vs : List V} (hlength : P.length = vs.length) :
    (keyValues u (P ++ R)).map point < vs.map point ++ R.map (boundValue constant) ↔
      keyValues u P < vs ∨ keyValues u P = vs ∧
        (keyValues u R).map point < R.map (boundValue constant) := by
  rw [keyValues_append]
  exact map_point_lt_append (by simpa [keyValues] using hlength)

theorem not_below_nil : ¬(keyValues u []).map point < ([] : List (PartitionKey × BoundDatum)).map
    (boundValue constant) := by
  simp [keyValues]

theorem not_below_min {part : PartitionKey × BoundDatum} (h : part.2.kind = .unboundedMin) :
    ¬(keyValues u (part :: R)).map point < (part :: R).map (boundValue constant) := by
  have hbot : boundValue constant part = ⊥ := by rw [boundValue, h]
  simp only [keyValues, List.map_cons, hbot, List.cons_lt_cons_iff]
  rintro (hlt | ⟨heq, -⟩)
  · exact not_lt_bot hlt
  · exact (bot_lt_point (u part.1.index)).ne' heq

theorem below_max {part : PartitionKey × BoundDatum} (h : part.2.kind = .unboundedMax) :
    (keyValues u (part :: R)).map point < (part :: R).map (boundValue constant) := by
  have htop : boundValue constant part = ⊤ := by rw [boundValue, h]
  simp only [keyValues, List.map_cons, htop, List.cons_lt_cons_iff]
  exact .inl (point_lt_top _)

theorem not_lt_of_all_bot {xs ys : List (Bound V)} (hlength : xs.length = ys.length)
    (hbot : ∀ y ∈ ys, y = ⊥) : ¬xs < ys := by
  induction xs generalizing ys with
  | nil =>
    have hnil : ys = [] := by simpa [eq_comm] using hlength
    simp [hnil]
  | cons x xs ih =>
    cases ys with
    | nil => simp
    | cons y ys =>
      rw [List.cons_lt_cons_iff, hbot y List.mem_cons_self]
      rintro (hlt | ⟨-, hrest⟩)
      · exact not_lt_bot hlt
      · exact ih (Nat.succ.inj hlength) (fun z hz => hbot z (List.mem_cons_of_mem y hz)) hrest

end Bounds

section Halves

variable {V : Type} [LinearOrder V] {constant : PartitionKey → String → V} {reading : SqlReading V}
  {t : List (Option V)} {u : Nat → V} {columns : List PartitionKey} {lower upper : List BoundDatum}
  {clauses : List PartitionClause}

theorem zip_takeWhile (p : BoundDatum → Bool) (columns : List PartitionKey) (datums : List BoundDatum) :
    columns.zip (datums.takeWhile p) = (columns.zip datums).takeWhile fun part => p part.2 := by
  induction columns generalizing datums with
  | nil => simp
  | cons column columns ih =>
    cases datums with
    | nil => simp
    | cons datum datums =>
      by_cases hp : p datum = true
      · simp [hp, ih]
      · simp [hp]

theorem const_of_kind {datum : BoundDatum} (hmin : datum.kind ≠ .unboundedMin)
    (hmax : datum.kind ≠ .unboundedMax) (hnull : datum.kind ≠ .null) : datum.kind = .const := by
  cases hkind : datum.kind with
  | const => rfl
  | unboundedMin => exact absurd hkind hmin
  | unboundedMax => exact absurd hkind hmax
  | null => exact absurd hkind hnull

/-- Without a `MAXVALUE` the lower clause is the lower bound. -/
theorem truth_lower (hnull : ∀ datum ∈ lower, datum.kind ≠ .null)
    (hmax : ∀ datum ∈ lower, datum.kind ≠ .unboundedMax)
    (hrendered : Rendered constant reading columns lower)
    (h : boundClause .gt .ge (columns.zip (lower.takeWhile fun datum => !isUnboundedMin datum)) =
      some clauses)
    (hu : ∀ part ∈ columns.zip lower, keyValue t part.1.index = some (u part.1.index)) :
    clausesTruth reading t clauses = some true ↔
      boundValues constant columns lower ≤ (keyValues u (columns.zip lower)).map point := by
  rw [zip_takeWhile] at h
  have hparts := (columns.zip lower).takeWhile_append_dropWhile (p := fun part => !isUnboundedMin part.2)
  have hP : ∀ part ∈ (columns.zip lower).takeWhile (fun part => !isUnboundedMin part.2),
      part ∈ columns.zip lower ∧ part.2.kind = .const := by
    intro part hpart
    have hmem := (List.takeWhile_sublist _).mem hpart
    have hlower : part.2 ∈ lower := (List.of_mem_zip hmem).2
    refine ⟨hmem, const_of_kind ?_ (hmax _ hlower) (hnull _ hlower)⟩
    have hnot := List.mem_takeWhile_imp hpart
    simpa [isUnboundedMin] using hnot
  have hR : ∀ part rest, (columns.zip lower).dropWhile (fun part => !isUnboundedMin part.2) =
      part :: rest → part.2.kind = .unboundedMin := by
    intro part rest hdrop
    have hhead := List.head?_dropWhile_not (fun part => !isUnboundedMin part.2) (columns.zip lower)
    rw [hdrop] at hhead
    simpa [isUnboundedMin] using hhead
  revert h hP hR hparts
  generalize (columns.zip lower).takeWhile (fun part => !isUnboundedMin part.2) = P
  generalize (columns.zip lower).dropWhile (fun part => !isUnboundedMin part.2) = R
  intro h hparts hP hR
  have hvalues := boundValues_of_rendered (exists_literal h) (fun part hpart => (hP part hpart).2)
    fun part hpart => hrendered part (hP part hpart).1
  rw [truth_lowerClause h fun part hpart => hu part (hP part hpart).1, boundValues, ← hparts,
    List.map_append, hvalues, ← not_lt, below_iff (by simp [litValues])]
  refine not_congr (or_iff_left_of_imp ?_).symm
  rintro ⟨-, hrest⟩
  cases R with
  | nil => exact absurd hrest not_below_nil
  | cons part rest => exact absurd hrest (not_below_min (hR part rest rfl))

/-- The upper clause is the upper bound, unless all of that is `MINVALUE`. -/
theorem truth_upper (hnull : ∀ datum ∈ upper, datum.kind ≠ .null)
    (hrendered : Rendered constant reading columns upper)
    (hlength : columns.length = upper.length)
    (hbot : (∀ datum ∈ upper, datum.kind = .unboundedMin) → upper = [])
    (hne : upper ≠ []) (hrepeats : SentinelsRepeat upper)
    (h : boundClause .lt (if ((upper.find? isUnbounded).any fun datum =>
        datum.kind == .unboundedMax) = true then .le else .lt)
      (columns.zip (upper.takeWhile fun datum => !isUnbounded datum)) = some clauses)
    (hu : ∀ part ∈ columns.zip upper, keyValue t part.1.index = some (u part.1.index)) :
    clausesTruth reading t clauses = some true ↔
      (keyValues u (columns.zip upper)).map point < boundValues constant columns upper := by
  have hfind : (columns.zip upper).find? (fun part => isUnbounded part.2) =
      ((columns.zip upper).dropWhile fun part => !isUnbounded part.2).head? := by
    rw [List.find?_eq_head?_dropWhile_not]
  have hsnd : (upper.find? isUnbounded) =
      ((columns.zip upper).find? fun part => isUnbounded part.2).map Prod.snd := by
    have hmap : (columns.zip upper).map Prod.snd = upper := List.map_snd_zip (le_of_eq hlength.symm)
    conv_lhs => rw [← hmap, List.find?_map]
    rfl
  rw [hsnd, hfind, zip_takeWhile] at h
  have hparts := (columns.zip upper).takeWhile_append_dropWhile (p := fun part => !isUnbounded part.2)
  have hP : ∀ part ∈ (columns.zip upper).takeWhile (fun part => !isUnbounded part.2),
      part ∈ columns.zip upper ∧ part.2.kind = .const := by
    intro part hpart
    have hmem := (List.takeWhile_sublist _).mem hpart
    have hnot := List.mem_takeWhile_imp hpart
    simp only [isUnbounded, Bool.not_eq_true', Bool.or_eq_false_iff, beq_eq_false_iff_ne] at hnot
    exact ⟨hmem, const_of_kind hnot.2 hnot.1 (hnull _ (List.of_mem_zip hmem).2)⟩
  have hR : ∀ part rest, (columns.zip upper).dropWhile (fun part => !isUnbounded part.2) =
      part :: rest → isUnbounded part.2 = true := by
    intro part rest hdrop
    have hhead := List.head?_dropWhile_not (fun part => !isUnbounded part.2) (columns.zip upper)
    rw [hdrop] at hhead
    simpa using hhead
  revert h hP hR hparts
  generalize (columns.zip upper).takeWhile (fun part => !isUnbounded part.2) = P
  generalize (columns.zip upper).dropWhile (fun part => !isUnbounded part.2) = R
  intro h hparts hP hR
  have hvalues := boundValues_of_rendered (exists_literal h) (fun part hpart => (hP part hpart).2)
    fun part hpart => hrendered part (hP part hpart).1
  have huP := fun part hpart => hu part (hP part hpart).1
  rw [boundValues, ← hparts, List.map_append, hvalues, below_iff (by simp [litValues])]
  cases R with
  | nil =>
    have hPne : P ≠ [] := by
      intro hnil
      have hzip : (columns.zip upper).length = 0 := by rw [← hparts, hnil]; rfl
      rw [List.length_zip, hlength, min_self] at hzip
      exact hne (List.length_eq_zero_iff.mp hzip)
    rw [truth_upperClause h hPne huP]
    exact (or_iff_left fun hrest => not_below_nil hrest.2).symm
  | cons part rest =>
    rcases Bool.or_eq_true_iff.mp (hR part rest rfl) with hkind | hkind
    · have hmax : part.2.kind = .unboundedMax := eq_of_beq hkind
      have hlast : ((List.head? (part :: rest)).map Prod.snd).any (fun datum =>
          datum.kind == .unboundedMax) = true := hkind
      rw [if_pos hlast] at h
      rw [truth_maxClause h huP]
      exact or_congr_right (and_iff_left (below_max hmax)).symm
    · have hmin : part.2.kind = .unboundedMin := eq_of_beq hkind
      have hlast : ¬((List.head? (part :: rest)).map Prod.snd).any (fun datum =>
          datum.kind == .unboundedMax) = true := by
        show ¬(part.2.kind == .unboundedMax) = true
        rw [hmin]
        decide
      rw [if_neg hlast] at h
      have hPne : P ≠ [] := by
        intro hnil
        have hupper : upper = part.2 :: rest.map Prod.snd := by
          rw [← List.map_cons (f := Prod.snd), ← List.nil_append (part :: rest), ← hnil, hparts,
            List.map_snd_zip (le_of_eq hlength.symm)]
        refine hne (hbot fun datum hdatum => ?_)
        rw [hupper] at hdatum
        rcases List.mem_cons.mp hdatum with rfl | hdatum
        · exact hmin
        · exact (hrepeats [] part.2 (rest.map Prod.snd) hupper (hR part rest rfl) datum hdatum).trans hmin
      rw [truth_upperClause h hPne huP]
      exact (or_iff_left fun hrest => not_below_min hmin hrest.2).symm

end Halves

section Ranges

variable {V : Type} [LinearOrder V] {constant : PartitionKey → String → V} {reading : SqlReading V}
  {columns : List PartitionKey} {lower upper : List BoundDatum} {clauses : List PartitionClause}

theorem index_of_partitionKeys {text : BoundText} {relation : RelationState}
    {keys : List (String × String)} (h : keys.zipIdx.mapM (partitionKey text relation) = some columns) :
    columns.map PartitionKey.index = List.range keys.length := by
  have hmap := map_eq_of_mapM h
  have hindex (key : (String × String) × Nat) (column : PartitionKey)
      (hcolumn : partitionKey text relation key = some column) : column.index = key.2 := by
    unfold partitionKey at hcolumn
    obtain ⟨found, -, hcolumn⟩ := Option.bind_eq_some_iff.mp hcolumn
    obtain ⟨dataType, -, hcolumn⟩ := Option.bind_eq_some_iff.mp hcolumn
    dsimp only at hcolumn
    split at hcolumn
    · cases hcolumn
      rfl
    · cases hcolumn
  have hall : keys.zipIdx.map Prod.snd = columns.map PartitionKey.index := by
    generalize keys.zipIdx = l at hmap
    clear h
    induction l generalizing columns with
    | nil =>
      cases columns with
      | nil => rfl
      | cons column columns => cases hmap
    | cons key l ih =>
      cases columns with
      | nil => cases hmap
      | cons column columns =>
        rw [List.map_cons, List.map_cons, List.cons.injEq] at hmap
        rw [List.map_cons, List.map_cons, ih hmap.2, hindex key column hmap.1]
  rw [← hall, List.zipIdx_map_snd, List.range_eq_range']

theorem clausesTruth_append (t : List (Option V)) (before after : List PartitionClause) :
    clausesTruth reading t (before ++ after) = some true ↔
      clausesTruth reading t before = some true ∧ clausesTruth reading t after = some true := by
  simp only [clausesTruth, List.map_append, all_eq_true, List.forall_mem_append]

theorem rangeClauses_eq_some (h : rangePartitionClauses columns lower upper = some clauses) :
    lower.length = columns.length ∧ upper.length = columns.length ∧
    ∃ lowerClause upperClause,
      boundClause .gt .ge (columns.zip (lower.takeWhile fun datum => !isUnboundedMin datum)) =
        some lowerClause ∧
      boundClause .lt (if ((upper.find? isUnbounded).any fun datum =>
          datum.kind == .unboundedMax) = true then .le else .lt)
        (columns.zip (upper.takeWhile fun datum => !isUnbounded datum)) = some upperClause ∧
      clauses = (columns.map fun key => .isNotNull key.index key.key) ++ lowerClause ++ upperClause := by
  unfold rangePartitionClauses at h
  split at h
  · cases h
  · rename_i hlengths
    obtain ⟨hupper, hlower⟩ := not_or.mp hlengths
    rw [not_not] at hupper hlower
    dsimp only at h
    obtain ⟨lowerClause, hlc, h⟩ := Option.bind_eq_some_iff.mp h
    obtain ⟨upperClause, huc, h⟩ := Option.bind_eq_some_iff.mp h
    cases h
    exact ⟨hlower, hupper ▸ hlower, lowerClause, upperClause, hlc, huc, rfl⟩

omit [LinearOrder V] in
/-- A tuple without nulls, by the places of its values. -/
theorem exists_values {t : List (Option V)} {n : Nat} (hlength : t.length = n)
    (hvalues : ∀ i < n, (keyValue t i).isSome = true) : ∃ ts : List V, t = ts.map some := by
  have hall : ∀ v ∈ t, v.isSome = true := by
    intro v hv
    obtain ⟨i, hi, rfl⟩ := List.getElem_of_mem hv
    have hsome := hvalues i (hlength ▸ hi)
    rwa [keyValue, List.getElem?_eq_getElem hi, Option.join_some] at hsome
  clear hvalues hlength
  induction t with
  | nil => exact ⟨[], rfl⟩
  | cons v t ih =>
    obtain ⟨ts, rfl⟩ := ih fun w hw => hall w (List.mem_cons_of_mem v hw)
    obtain ⟨a, rfl⟩ := Option.isSome_iff_exists.mp (hall v List.mem_cons_self)
    exact ⟨a :: ts, rfl⟩

theorem truth_notNull (t : List (Option V)) (columns : List PartitionKey) :
    clausesTruth reading t (columns.map fun key => .isNotNull key.index key.key) = some true ↔
      ∀ key ∈ columns, (keyValue t key.index).isSome = true := by
  simp only [clausesTruth, List.map_map, all_eq_true, List.forall_mem_map, Function.comp,
    PartitionClause.truth, Option.some_inj]

omit [LinearOrder V] in
theorem exists_places {ts : List V} (hne : ts ≠ []) : ∃ u : Nat → V,
    (∀ i < ts.length, keyValue (ts.map some) i = some (u i)) ∧ (List.range ts.length).map u = ts := by
  refine ⟨fun i => (ts[i]?).getD (ts.head hne), fun i hi => ?_, ?_⟩
  · simp [keyValue, hi]
  · refine List.ext_getElem (by simp) fun i hi hi' => ?_
    rw [List.getElem_map, List.getElem_range, List.getElem?_eq_getElem hi', Option.getD_some]

omit [LinearOrder V] in
theorem keyValues_zip {u : Nat → V} {datums : List BoundDatum}
    (hlength : datums.length = columns.length) :
    keyValues u (columns.zip datums) = (columns.map PartitionKey.index).map u := by
  have hfst : (columns.zip datums).map Prod.fst = columns := List.map_fst_zip (le_of_eq hlength.symm)
  conv_rhs => rw [← hfst]
  rw [List.map_map, List.map_map]
  rfl

/-- The places of a tuple, for the clauses of one bound. -/
structure Places (columns : List PartitionKey) (ts : List V) (u : Nat → V) : Prop where
  keyValue_eq : ∀ key ∈ columns, keyValue (ts.map some) key.index = some (u key.index)
  keyValues_eq : ∀ datums : List BoundDatum, datums.length = columns.length →
    keyValues u (columns.zip datums) = ts

omit [LinearOrder V] in
theorem exists_placed (hindex : columns.map PartitionKey.index = List.range columns.length)
    (hne : columns ≠ []) {ts : List V} (hlength : ts.length = columns.length) :
    ∃ u : Nat → V, Places columns ts u := by
  have htuple : ts ≠ [] := by
    intro hnil
    rw [hnil] at hlength
    exact hne (List.length_eq_zero_iff.mp hlength.symm)
  obtain ⟨u, hvalue, hrange⟩ := exists_places htuple
  refine ⟨u, fun key hkey => hvalue _ ?_, fun datums hdatums => ?_⟩
  · have hmem : key.index ∈ columns.map PartitionKey.index := List.mem_map_of_mem hkey
    rw [hindex, List.mem_range] at hmem
    omega
  · rw [keyValues_zip hdatums, hindex, ← hlength, hrange]

/-- An accepted upper bound is not `MINVALUE` throughout. -/
theorem AcceptedRange.upper_eq_nil (h : AcceptedRange constant columns lower upper)
    (hlength : lower.length = upper.length) (hmin : ∀ datum ∈ upper, datum.kind = .unboundedMin) :
    upper = [] := by
  by_contra
  refine not_lt_of_all_bot ?_ ?_ h.ordered
  · simp [boundValues, hlength]
  · intro value hvalue
    obtain ⟨part, hpart, rfl⟩ := List.mem_map.mp hvalue
    rw [boundValue, hmin _ (List.of_mem_zip hpart).2]

theorem SentinelsRepeat.ne_min {datums : List BoundDatum} (h : SentinelsRepeat datums)
    {datum : BoundDatum} (hmem : datum ∈ datums) (hmax : datum.kind = .unboundedMax) :
    ∀ other ∈ datums, other.kind ≠ .unboundedMin := by
  intro other hother hmin
  have hkinds : datum.kind ≠ other.kind := by
    rw [hmax, hmin]
    decide
  obtain ⟨before, after, rfl⟩ := List.append_of_mem hmem
  rcases List.mem_append.mp hother with hbefore | hafter
  · obtain ⟨first, between, rfl⟩ := List.append_of_mem hbefore
    refine hkinds (h first other (between ++ datum :: after) (by simp) ?_ datum (by simp))
    simp [isUnbounded, hmin]
  · rcases List.mem_cons.mp hafter with rfl | hafter
    · exact hkinds rfl
    · refine hkinds (h before datum after rfl ?_ other hafter).symm
      simp [isUnbounded, hmax]

/-- The literals that a `MAXVALUE` is rendered with lie below it. -/
theorem litValues_lt_of_max (hlength : columns.length = lower.length)
    (hnull : ∀ datum ∈ lower, datum.kind ≠ .null) (hmin : ∀ datum ∈ lower, datum.kind ≠ .unboundedMin)
    (hmax : ∃ datum ∈ lower, datum.kind = .unboundedMax)
    (hrendered : Rendered constant reading columns lower)
    (hliterals : ∀ part ∈ columns.zip lower,
      ∃ literal, deparsePartitionLiteral part.1.ty part.1.dataType part.2.text = some literal) :
    (litValues reading (columns.zip lower)).map point < boundValues constant columns lower := by
  have hparts := (columns.zip lower).takeWhile_append_dropWhile (p := fun part => !isUnbounded part.2)
  have hP : ∀ part ∈ (columns.zip lower).takeWhile (fun part => !isUnbounded part.2),
      part ∈ columns.zip lower ∧ part.2.kind = .const := by
    intro part hpart
    have hmem := (List.takeWhile_sublist _).mem hpart
    have hnot := List.mem_takeWhile_imp hpart
    simp only [isUnbounded, Bool.not_eq_true', Bool.or_eq_false_iff, beq_eq_false_iff_ne] at hnot
    exact ⟨hmem, const_of_kind hnot.2 hnot.1 (hnull _ (List.of_mem_zip hmem).2)⟩
  have hR : ∃ part rest, (columns.zip lower).dropWhile (fun part => !isUnbounded part.2) =
      part :: rest ∧ part.2.kind = .unboundedMax := by
    have hhead := List.head?_dropWhile_not (fun part => !isUnbounded part.2) (columns.zip lower)
    cases hdrop : (columns.zip lower).dropWhile (fun part => !isUnbounded part.2) with
    | nil =>
      obtain ⟨datum, hdatum, hkind⟩ := hmax
      rw [← List.map_snd_zip (le_of_eq hlength.symm), List.mem_map] at hdatum
      obtain ⟨part, hpart, rfl⟩ := hdatum
      have hnone := List.dropWhile_eq_nil_iff.mp hdrop part hpart
      simp [isUnbounded, hkind] at hnone
    | cons part rest =>
      rw [hdrop] at hhead
      have hmem : part ∈ columns.zip lower :=
        (List.dropWhile_sublist _).mem (hdrop ▸ List.mem_cons_self)
      refine ⟨part, rest, rfl, ?_⟩
      have hkind : isUnbounded part.2 = true := by simpa using hhead
      rcases Bool.or_eq_true_iff.mp hkind with hkind | hkind
      · exact eq_of_beq hkind
      · exact absurd (eq_of_beq hkind) (hmin _ (List.of_mem_zip hmem).2)
  revert hP hR hparts
  generalize (columns.zip lower).takeWhile (fun part => !isUnbounded part.2) = P
  generalize (columns.zip lower).dropWhile (fun part => !isUnbounded part.2) = R
  intro hparts hP hR
  obtain ⟨part, rest, rfl, hpart⟩ := hR
  have hvalues := boundValues_of_rendered (fun part hpart => hliterals part (hP part hpart).1)
    (fun part hpart => (hP part hpart).2) fun part hpart => hrendered part (hP part hpart).1
  have htop : boundValue constant part = ⊤ := by rw [boundValue, hpart]
  rw [boundValues, ← hparts, litValues, List.map_append, List.map_append (f := boundValue constant),
    hvalues, ← litValues, map_point_lt_append rfl, List.map_cons, List.map_cons, List.map_cons, htop,
    List.cons_lt_cons_iff]
  exact .inr ⟨rfl, .inl (point_lt_top _)⟩

section Accepted

variable (hclauses : rangePartitionClauses columns lower upper = some clauses)
  (hindex : columns.map PartitionKey.index = List.range columns.length) (hne : columns ≠ [])
  (haccepted : AcceptedRange constant columns lower upper)
  (hupper : Rendered constant reading columns upper)

include hclauses hindex hne haccepted hupper

/-- What the clauses say of a tuple without nulls, by the lower clause. -/
theorem exists_lowerClause : ∃ lowerClause,
    boundClause .gt .ge (columns.zip (lower.takeWhile fun datum => !isUnboundedMin datum)) =
      some lowerClause ∧
    ∀ ts : List V, ts.length = columns.length →
      (clausesTruth reading (ts.map some) clauses = some true ↔
        clausesTruth reading (ts.map some) lowerClause = some true ∧
          ts.map point < boundValues constant columns upper) := by
  obtain ⟨hl, hu, lowerClause, upperClause, hlc, huc, rfl⟩ := rangeClauses_eq_some hclauses
  refine ⟨lowerClause, hlc, fun ts hlength => ?_⟩
  obtain ⟨u, hplaces⟩ := exists_placed hindex hne hlength
  have hupperNe : upper ≠ [] := by
    intro hnil
    rw [hnil] at hu
    exact hne (List.length_eq_zero_iff.mp hu.symm)
  have huc' := truth_upper haccepted.upper_ne_null hupper hu.symm
    (haccepted.upper_eq_nil (hl.trans hu.symm)) hupperNe haccepted.upper_repeats huc
    fun part hpart => hplaces.keyValue_eq _ (List.of_mem_zip hpart).1
  rw [clausesTruth_append, clausesTruth_append, huc', hplaces.keyValues_eq upper hu, truth_notNull]
  refine and_congr_left' (and_iff_right fun key hkey => ?_)
  rw [hplaces.keyValue_eq key hkey]
  rfl

/-- Without a `MAXVALUE` below, the clauses are the range. -/
theorem truth_rangeClauses (hlower : Rendered constant reading columns lower)
    (hmax : ∀ datum ∈ lower, datum.kind ≠ .unboundedMax) {ts : List V}
    (hlength : ts.length = columns.length) :
    clausesTruth reading (ts.map some) clauses = some true ↔
      Within (boundValues constant columns lower) (boundValues constant columns upper) ts := by
  obtain ⟨lowerClause, hlc, htruth⟩ :=
    @exists_lowerClause V _ constant reading columns lower upper clauses hclauses hindex hne
      haccepted hupper
  obtain ⟨u, hplaces⟩ := exists_placed hindex hne hlength
  rw [htruth ts hlength, truth_lower haccepted.lower_ne_null hmax hlower hlc
    fun part hpart => hplaces.keyValue_eq _ (List.of_mem_zip hpart).1,
    hplaces.keyValues_eq lower (rangeClauses_eq_some hclauses).1]
  exact Iff.rfl

/-- With one, they hold of a tuple below the range. -/
theorem exists_below_of_max (hlower : Rendered constant reading columns lower)
    (hmax : ∃ datum ∈ lower, datum.kind = .unboundedMax) :
    ∃ ts : List V, ts.length = columns.length ∧
      clausesTruth reading (ts.map some) clauses = some true ∧
      ¬Within (boundValues constant columns lower) (boundValues constant columns upper) ts := by
  obtain ⟨lowerClause, hlc, htruth⟩ :=
    @exists_lowerClause V _ constant reading columns lower upper clauses hclauses hindex hne
      haccepted hupper
  have hl := (rangeClauses_eq_some hclauses).1
  have hmin : ∀ datum ∈ lower, datum.kind ≠ .unboundedMin := by
    obtain ⟨datum, hdatum, hkind⟩ := hmax
    exact haccepted.lower_repeats.ne_min hdatum hkind
  -- no place is left out, and each has a literal
  have hall : lower.takeWhile (fun datum => !isUnboundedMin datum) = lower := by
    rw [List.takeWhile_eq_self_iff]
    intro datum hdatum
    simpa [isUnboundedMin] using hmin datum hdatum
  rw [hall] at hlc
  have hlength : (litValues reading (columns.zip lower)).length = columns.length := by
    rw [litValues, List.length_map, List.length_zip, hl, min_self]
  obtain ⟨u, hplaces⟩ := exists_placed hindex hne hlength
  have hbelow := litValues_lt_of_max hl.symm haccepted.lower_ne_null hmin hmax hlower
    (exists_literal hlc)
  refine ⟨litValues reading (columns.zip lower), hlength, ?_, fun hwithin => ?_⟩
  · rw [htruth _ hlength, truth_lowerClause hlc
      fun part hpart => hplaces.keyValue_eq _ (List.of_mem_zip hpart).1,
      hplaces.keyValues_eq lower hl]
    exact ⟨lt_irrefl _, hbelow.trans haccepted.ordered⟩
  · exact not_lt_of_ge hwithin.1 hbelow

end Accepted

end Ranges

/-- The predicate of a range partition, and what is read from its bound. -/
structure RangePartition (V : Type) where
  text : BoundText
  /-- The values that PostgreSQL gives to the texts of constants. -/
  types : TypeInput V
  strategy : String
  bound : String
  keys : List (String × String)
  relation : RelationState
  columns : List PartitionKey
  lower : List BoundDatum
  upper : List BoundDatum

namespace RangePartition

variable {V : Type} (p : RangePartition V)

/-- The bound is one from values to values, over these key columns. -/
structure Reads : Prop where
  strategy : eqIgnoreAsciiCase p.strategy "RANGE" = true
  bound : p.text.typedBound p.bound = some (.fromTo p.lower p.upper)
  keys : p.keys.zipIdx.mapM (partitionKey p.text p.relation) = some p.columns

def lowerValues : List (Bound V) := boundValues p.types.constant p.columns p.lower

def upperValues : List (Bound V) := boundValues p.types.constant p.columns p.upper

/-- The constants of the bound are written plainly. -/
def PlainConstants : Prop :=
  ∀ part ∈ p.columns.zip p.lower ++ p.columns.zip p.upper, part.2.kind = .const →
    part.1.isPlain part.2.text = true

/-- The literals of the clauses have the values of the constants that they render. -/
def KeepsValues : Prop :=
  Rendered p.types.constant p.types.reading p.columns p.lower ∧
    Rendered p.types.constant p.types.reading p.columns p.upper

/-- There is no MINVALUE and no MAXVALUE in the bound. -/
def ConstantsOnly : Prop := ∀ datum ∈ p.lower ++ p.upper, datum.kind = .const

variable [LinearOrder V]

/-- PostgreSQL accepts the bound, and its types read constants as they do. -/
structure Lawful : Prop where
  accepted : AcceptedRange p.types.constant p.columns p.lower p.upper
  types : ∀ key ∈ p.columns, p.types.Follows key

/-- The clauses hold of the tuples in the range, and of no tuple with a null. -/
def MeansRange (clauses : List PartitionClause) : Prop :=
  ∀ t : List (Option V), t.length = p.keys.length →
    (clausesTruth p.types.reading t clauses = some true ↔ ∃ ts, t = ts.map some ∧
      Within p.lowerValues p.upperValues ts)

variable {p} {clauses : List PartitionClause}

omit [LinearOrder V] in
theorem Reads.rangePartitionClauses (h : p.Reads)
    (hclauses : synthesizePartitionCheckClauses p.text p.strategy
    p.bound p.keys p.relation = some clauses) :
    p.columns ≠ [] ∧ p.keys.length = p.columns.length ∧
      rangePartitionClauses p.columns p.lower p.upper = some clauses := by
  have hlength : p.keys.length = p.columns.length := by
    have hmap := congrArg List.length (map_eq_of_mapM h.keys)
    simpa using hmap
  unfold synthesizePartitionCheckClauses at hclauses
  split at hclauses
  · cases hclauses
  · rename_i hkeys
    rw [h.keys, h.bound] at hclauses
    simp only [Option.bind_eq_bind, Option.bind_some, h.strategy, if_true] at hclauses
    refine ⟨fun hnil => hkeys ?_, hlength, hclauses⟩
    rw [hnil, List.length_nil] at hlength
    exact List.isEmpty_iff.mpr (List.length_eq_zero_iff.mp hlength)

omit [LinearOrder V] in
theorem Reads.index_eq (h : p.Reads)
    (hclauses : synthesizePartitionCheckClauses p.text p.strategy
    p.bound p.keys p.relation = some clauses) :
    p.columns.map PartitionKey.index = List.range p.columns.length := by
  rw [index_of_partitionKeys h.keys, (h.rangePartitionClauses hclauses).2.1]

omit [LinearOrder V] in
theorem PlainConstants.keepsValues (hplain : p.PlainConstants)
    (htypes : ∀ key ∈ p.columns, p.types.Follows key) : p.KeepsValues := by
  constructor
  · intro part hpart hkind literal hliteral
    exact literal_of_plain (htypes _ (List.of_mem_zip hpart).1)
      (hplain part (List.mem_append_left _ hpart) hkind) hliteral
  · intro part hpart hkind literal hliteral
    exact literal_of_plain (htypes _ (List.of_mem_zip hpart).1)
      (hplain part (List.mem_append_right _ hpart) hkind) hliteral

/-- Where the constants keep their values, the predicate is the range if and only if the lower
bound has no `MAXVALUE`. -/
theorem KeepsValues.meansRange_iff_no_max (hvalues : p.KeepsValues) (hreads : p.Reads)
    (haccepted : AcceptedRange p.types.constant p.columns p.lower p.upper)
    (hclauses : synthesizePartitionCheckClauses p.text p.strategy p.bound p.keys p.relation =
      some clauses) :
    p.MeansRange clauses ↔ ∀ datum ∈ p.lower, datum.kind ≠ .unboundedMax := by
  obtain ⟨hne, hlength, hrange⟩ := hreads.rangePartitionClauses hclauses
  have hindex := hreads.index_eq hclauses
  constructor
  · intro hmeans datum hdatum hmax
    obtain ⟨ts, hts, htrue, hnot⟩ := exists_below_of_max hrange hindex hne haccepted
      hvalues.2 hvalues.1 ⟨datum, hdatum, hmax⟩
    obtain ⟨ts', hsame, hwithin⟩ := (hmeans (ts.map some) (by simp [hts, hlength])).mp htrue
    rw [List.map_injective_iff.mpr (Option.some_injective V) hsame] at hnot
    exact hnot hwithin
  · intro hmax t ht
    constructor
    · intro htrue
      obtain ⟨-, -, lowerClause, upperClause, -, -, hall⟩ := rangeClauses_eq_some hrange
      have hnotNull : ∀ key ∈ p.columns, (keyValue t key.index).isSome = true := by
        rw [hall, clausesTruth_append, clausesTruth_append] at htrue
        exact (truth_notNull t p.columns).mp htrue.1.1
      obtain ⟨ts, rfl⟩ := exists_values (ht.trans hlength) fun i hi => by
        have hmem : i ∈ p.columns.map PartitionKey.index := by
          rw [hindex]
          exact List.mem_range.mpr hi
        obtain ⟨key, hkey, rfl⟩ := List.mem_map.mp hmem
        exact hnotNull key hkey
      have hts : ts.length = p.columns.length := by simpa [hlength] using ht
      exact ⟨ts, rfl, (truth_rangeClauses hrange hindex hne haccepted hvalues.2
        hvalues.1 hmax hts).mp htrue⟩
    · rintro ⟨ts, rfl, hwithin⟩
      have hts : ts.length = p.columns.length := by simpa [hlength] using ht
      exact (truth_rangeClauses hrange hindex hne haccepted hvalues.2
        hvalues.1 hmax hts).mpr hwithin

section ConstantsOnly

variable {columns : List PartitionKey} {datums : List BoundDatum}

omit [LinearOrder V] in
theorem takeWhile_of_const {stop : BoundDatum → Bool} (hstop : ∀ text, stop ⟨.const, text⟩ = false)
    (hconst : ∀ datum ∈ datums, datum.kind = .const) :
    datums.takeWhile (fun datum => !stop datum) = datums := by
  rw [List.takeWhile_eq_self_iff]
  rintro ⟨kind, text⟩ hdatum
  obtain rfl : kind = .const := hconst _ hdatum
  simp [hstop]

/-- The values of the constants of a bound. -/
def constantValues (types : TypeInput V) (columns : List PartitionKey) (datums : List BoundDatum) :
    List V :=
  (columns.zip datums).map fun part => types.constant part.1 part.2.text

omit [LinearOrder V] in
theorem boundValues_of_const {types : TypeInput V} (hconst : ∀ datum ∈ datums, datum.kind = .const) :
    boundValues types.constant columns datums = (constantValues types columns datums).map point := by
  rw [boundValues, constantValues, List.map_map]
  exact List.map_congr_left fun part hpart =>
    boundValue_of_const (hconst _ (List.of_mem_zip hpart).2)

omit [LinearOrder V] in
theorem rendered_of_litValues {types : TypeInput V}
    (h : litValues types.reading (columns.zip datums) = constantValues types columns datums) :
    Rendered types.constant types.reading columns datums := by
  intro part hpart _ literal hliteral
  have hvalue := List.map_inj_left.mp h part hpart
  rwa [litValue, hliteral, Option.getD_some] at hvalue

/-- Without sentinels, the clauses compare with the literals from first to last. -/
theorem truth_of_constantsOnly (hconst : p.ConstantsOnly) (hreads : p.Reads)
    (hclauses : synthesizePartitionCheckClauses p.text p.strategy p.bound p.keys p.relation =
      some clauses) {ts : List V} (hlength : ts.length = p.columns.length) :
    clausesTruth p.types.reading (ts.map some) clauses = some true ↔
      litValues p.types.reading (p.columns.zip p.lower) ≤ ts ∧
        ts < litValues p.types.reading (p.columns.zip p.upper) := by
  obtain ⟨hne, -, hrange⟩ := hreads.rangePartitionClauses hclauses
  obtain ⟨hl, hu, lowerClause, upperClause, hlc, huc, rfl⟩ := rangeClauses_eq_some hrange
  have hlower : ∀ datum ∈ p.lower, datum.kind = .const := fun datum hdatum =>
    hconst datum (List.mem_append_left _ hdatum)
  have hupper : ∀ datum ∈ p.upper, datum.kind = .const := fun datum hdatum =>
    hconst datum (List.mem_append_right _ hdatum)
  have hfind : p.upper.find? isUnbounded = none := by
    rw [List.find?_eq_none]
    intro datum hdatum
    simp [isUnbounded, hupper datum hdatum]
  rw [takeWhile_of_const (fun _ => rfl) hlower] at hlc
  rw [takeWhile_of_const (fun _ => rfl) hupper, hfind] at huc
  obtain ⟨u, hplaces⟩ := exists_placed (hreads.index_eq hclauses) hne hlength
  have hplace : ∀ datums : List BoundDatum, ∀ part ∈ p.columns.zip datums,
      keyValue (ts.map some) part.1.index = some (u part.1.index) := fun datums part hpart =>
    hplaces.keyValue_eq _ (List.of_mem_zip hpart).1
  have hzip : p.columns.zip p.upper ≠ [] := by
    intro hnil
    have hzero : (p.columns.zip p.upper).length = 0 := by rw [hnil]; rfl
    rw [List.length_zip, hu, min_self] at hzero
    exact hne (List.length_eq_zero_iff.mp hzero)
  rw [clausesTruth_append, clausesTruth_append, truth_notNull,
    truth_lowerClause hlc (hplace p.lower), truth_upperClause huc hzip (hplace p.upper),
    hplaces.keyValues_eq p.lower hl, hplaces.keyValues_eq p.upper hu, not_lt]
  refine and_congr_left' (and_iff_right fun key hkey => ?_)
  rw [hplaces.keyValue_eq key hkey]
  rfl

/-- Without sentinels, the predicate is the range if and only if the literals have the values
of the constants. -/
theorem ConstantsOnly.meansRange_iff_keeps (hconst : p.ConstantsOnly) (hreads : p.Reads)
    (haccepted : AcceptedRange p.types.constant p.columns p.lower p.upper)
    (hclauses : synthesizePartitionCheckClauses p.text p.strategy p.bound p.keys p.relation =
      some clauses) :
    p.MeansRange clauses ↔ p.KeepsValues := by
  have hlower : ∀ datum ∈ p.lower, datum.kind = .const := fun datum hdatum =>
    hconst datum (List.mem_append_left _ hdatum)
  have hupper : ∀ datum ∈ p.upper, datum.kind = .const := fun datum hdatum =>
    hconst datum (List.mem_append_right _ hdatum)
  obtain ⟨hne, hkeys, hrange⟩ := hreads.rangePartitionClauses hclauses
  obtain ⟨hl, hu, -⟩ := rangeClauses_eq_some hrange
  constructor
  · intro hmeans
    have hordered : constantValues p.types p.columns p.lower <
        constantValues p.types p.columns p.upper := by
      have hbounds := haccepted.ordered
      rwa [boundValues_of_const hlower, boundValues_of_const hupper, map_point_lt] at hbounds
    have hranges : ∀ ts : List V, ts.length = p.columns.length →
        (litValues p.types.reading (p.columns.zip p.lower) ≤ ts ∧
            ts < litValues p.types.reading (p.columns.zip p.upper) ↔
          constantValues p.types p.columns p.lower ≤ ts ∧
            ts < constantValues p.types p.columns p.upper) := by
      intro ts hts
      rw [← truth_of_constantsOnly hconst hreads hclauses hts,
        hmeans (ts.map some) (by simp [hts, hkeys])]
      constructor
      · rintro ⟨ts', hsame, hwithin⟩
        obtain rfl := List.map_injective_iff.mpr (Option.some_injective V) hsame
        rwa [Within, lowerValues, upperValues, boundValues_of_const hlower,
          boundValues_of_const hupper, map_point_lt, ← not_lt, map_point_lt, not_lt] at hwithin
      · intro hwithin
        refine ⟨ts, rfl, ?_⟩
        rwa [Within, lowerValues, upperValues, boundValues_of_const hlower,
          boundValues_of_const hupper, map_point_lt, ← not_lt, map_point_lt, not_lt]
    have hlengths : ∀ datums : List BoundDatum, datums.length = p.columns.length →
        (p.columns.zip datums).length = p.columns.length := fun datums hdatums => by
      rw [List.length_zip, hdatums, min_self]
    obtain ⟨hlow, hhigh⟩ := ends_eq (P := fun ts : List V => ts.length = p.columns.length)
      (by rw [constantValues, List.length_map, hlengths _ hl])
      (by rw [litValues, List.length_map, hlengths _ hl])
      (by rw [constantValues, List.length_map, hlengths _ hu])
      (by rw [litValues, List.length_map, hlengths _ hu]) hordered hranges
    exact ⟨rendered_of_litValues hlow, rendered_of_litValues hhigh⟩
  · intro hvalues
    refine (hvalues.meansRange_iff_no_max hreads haccepted hclauses).mpr fun datum hdatum => ?_
    rw [hlower datum hdatum]
    decide

end ConstantsOnly

end RangePartition

section Samples

def textColumn : ColumnType :=
  { typname := some "text", hasTypmod := false, zeroPadding := none, display := "text" }

/-- A cast in the bound takes part in its value, but not in its literal. -/
example : deparsePartitionLiteral textColumn "text" "'bcd'::char(1)" = some "'bcd'::text" := by
  decide +kernel

/-- Texts in the order of their code points. -/
def textInput : TypeInput String :=
  { input := fun _ text => text, converted := fun _ _ => "", isTrue := fun _ => false }

def streets : RelationState :=
  { RelationState.new ⟨"public", "streets"⟩ ⟨"", "postgres"⟩ 0 none .table .permanent 0 with
    columns := [.migrationCreated "city" (some "text") true none,
                .migrationCreated "name" (some "text") true none] }

/-- A partition of `streets` by city and name. -/
def streetRange (bound : String) (lower upper : List BoundDatum) : RangePartition String where
  text := { columnType := fun _ => textColumn
            typedBound := fun _ => some (.fromTo lower upper) }
  types := textInput
  strategy := "RANGE"
  bound := bound
  keys := [("city", "city"), ("name", "name")]
  relation := streets
  columns := [⟨0, "city", "text", textColumn, "city"⟩, ⟨1, "name", "text", textColumn, "name"⟩]
  lower := lower
  upper := upper

def wholeCities : RangePartition String :=
  streetRange "FOR VALUES FROM ('a', MINVALUE) TO ('m', MINVALUE)"
    [⟨.const, "'a'"⟩, ⟨.unboundedMin, "MINVALUE"⟩] [⟨.const, "'m'"⟩, ⟨.unboundedMin, "MINVALUE"⟩]

def laterCities : RangePartition String :=
  streetRange "FOR VALUES FROM ('a', MAXVALUE) TO ('m', MAXVALUE)"
    [⟨.const, "'a'"⟩, ⟨.unboundedMax, "MAXVALUE"⟩] [⟨.const, "'m'"⟩, ⟨.unboundedMax, "MAXVALUE"⟩]

theorem sentinelsRepeat_pair {datum sentinel : BoundDatum} (h : isUnbounded datum = false) :
    SentinelsRepeat [datum, sentinel] := by
  intro before first after hsplit hfirst later hlater
  rcases before with _ | ⟨_, _ | ⟨_, before⟩⟩
  · cases hsplit
    rw [h] at hfirst
    cases hfirst
  · cases hsplit
    cases hlater
  · simp at hsplit

theorem textColumn_plain (index : Nat) (key : String) : ∀ raw ∈ ["'a'", "'m'"],
    PartitionKey.isPlain ⟨index, key, "text", textColumn, key⟩ raw = true := by
  intro raw hraw
  rcases List.mem_pair.mp hraw with rfl | rfl <;> rfl

theorem textColumn_follows (index : Nat) (key : String) :
    textInput.Follows ⟨index, key, "text", textColumn, key⟩ where
  sameType := rfl
  truthWord h := absurd h (by simp [textColumn, ColumnType.isNamed])
  integer h := absurd h (by simp [textColumn, PartitionKey.isInteger])
  padded h := absurd h (by simp [textColumn, ColumnType.isNamed])

theorem a_lt_m : textInput.constant ⟨0, "city", "text", textColumn, "city"⟩ "'a'" <
    textInput.constant ⟨0, "city", "text", textColumn, "city"⟩ "'m'" := by
  decide +kernel

/-- Both bounds go from city `a` to city `m`. -/
theorem streetRange_lawful {sentinel : BoundDatum} (bound : String) (hnull : sentinel.kind ≠ .null) :
    (streetRange bound [⟨.const, "'a'"⟩, sentinel] [⟨.const, "'m'"⟩, sentinel]).Lawful where
  accepted :=
    { lower_ne_null := by
        intro datum hdatum
        rcases List.mem_pair.mp hdatum with rfl | rfl
        · decide
        · exact hnull
      upper_ne_null := by
        intro datum hdatum
        rcases List.mem_pair.mp hdatum with rfl | rfl
        · decide
        · exact hnull
      lower_repeats := sentinelsRepeat_pair rfl
      upper_repeats := sentinelsRepeat_pair rfl
      ordered := List.Lex.rel (point_lt_point.mpr a_lt_m) }
  types := by
    intro key hkey
    rcases List.mem_pair.mp hkey with rfl | rfl <;> exact textColumn_follows _ _

theorem streetRange_plain {sentinel : BoundDatum} (bound : String) (hconst : sentinel.kind ≠ .const) :
    (streetRange bound [⟨.const, "'a'"⟩, sentinel]
      [⟨.const, "'m'"⟩, sentinel]).PlainConstants := by
  intro part hpart hkind
  simp only [streetRange, List.zip_cons_cons, List.zip_nil_right, List.mem_append, List.mem_pair]
    at hpart
  rcases hpart with (rfl | rfl) | rfl | rfl
  · exact textColumn_plain _ _ _ (by simp)
  · exact absurd hkind hconst
  · exact textColumn_plain _ _ _ (by simp)
  · exact absurd hkind hconst

theorem streetRange_reads (bound : String) (lower upper : List BoundDatum) :
    (streetRange bound lower upper).Reads where
  strategy := by
    exact beq_self_eq_true _
  bound := rfl
  keys := by
    show [("city", "city"), ("name", "name")].zipIdx.mapM (partitionKey _ streets) = _
    rfl

/-- `MAXVALUE` below is compared as a text. -/
def laterClauses : List PartitionClause :=
  [.isNotNull 0 "city", .isNotNull 1 "name",
    .rows [[⟨0, "city", .gt, "'a'::text"⟩],
      [⟨0, "city", .eq, "'a'::text"⟩, ⟨1, "name", .ge, "'MAXVALUE'::text"⟩]],
    .rows [[⟨0, "city", .le, "'m'::text"⟩]]]

theorem laterCities_clauses : synthesizePartitionCheckClauses laterCities.text laterCities.strategy
    laterCities.bound laterCities.keys laterCities.relation = some laterClauses := by
  decide +kernel

end Samples

end SafeMigrate
