import SafeMigrate.ExprVisitor
import SafeMigrate.IndexTopology
import SafeMigrate.DropSchema

/-! `CREATE INDEX` statements, the index definitions they build, and what the verdict
of the attachment comparison says of two statements. -/

namespace SafeMigrate

open ExprVisitor

/-- An identifier as its token spells it. -/
def identifierFromToken (text : String) : Ident :=
  match text.toList with
  | c :: rest =>
    if c = doubleQuote ∧ rest.getLast? = some doubleQuote then
      ⟨String.ofList (undoubled rest.dropLast), true⟩
    else ⟨text, false⟩
  | [] => ⟨text, false⟩
where
  undoubled : List Char → List Char
  | c :: d :: rest =>
    if c = doubleQuote ∧ d = doubleQuote then doubleQuote :: undoubled rest
    else c :: undoubled (d :: rest)
  | rest => rest

def resolveIdentifierToken (text : String) : String := (identifierFromToken text).resolve

structure IndexItem where
  expr : SyntaxExpr
  sortDesc : Bool
  nullsFirst : Option Bool

namespace IndexItem

variable (item : IndexItem)

/-- Saying nothing means `ASC NULLS LAST`, and a bare `DESC` is its reverse. -/
def order : IndexOrder :=
  match item.sortDesc, item.nullsFirst.getD item.sortDesc with
  | false, false | true, true => .default
  | true, false => .descNullsLast
  | false, true => .ascNullsFirst

def stripIndexKeyWrappers : SyntaxExpr → SyntaxExpr
  | .parenExpr expr => stripIndexKeyWrappers expr
  | .collate expr _ => stripIndexKeyWrappers expr
  | expr => expr

/-- The key without the COLLATE clause that ends it. -/
def keyExpr : SyntaxExpr :=
  match item.expr with
  | .collate expr _ => expr
  | expr => expr

/-- The column that the key is, where it is one. -/
def column : Option String :=
  match stripIndexKeyWrappers item.keyExpr with
  | .nameRef text => some (resolveIdentifierToken text)
  | _ => none

def expression : Option ExprIr :=
  match stripIndexKeyWrappers item.keyExpr with
  | .nameRef _ => none
  | expr => some (convert expr)

end IndexItem

/-- The parts of a `CREATE INDEX` that describe the index. -/
structure CreateIndexNode where
  usingMethod : Option String
  predicate : Option SyntaxExpr
  unique : Bool
  nullsNotDistinct : Bool
  items : List IndexItem
  included : List SyntaxExpr

namespace CreateIndexNode

variable (node : CreateIndexNode)

def accessMethod : String := node.usingMethod.getD "btree"

def includedColumns : List String := node.included.filterMap fun
  | .nameRef text => some (resolveIdentifierToken text)
  | _ => none

def keyColumns : List String := node.items.filterMap IndexItem.column

def keyExpressions : List (Option ExprIr) := node.items.map IndexItem.expression

def indexPredicate : IndexPredicate :=
  match node.predicate with
  | none => .none
  | some expr => .parsed (convert expr)

end CreateIndexNode

/-- The keys of a statement, from the key at `position` on. Column keys take their names in
turn. -/
def statementIndexKeys (orders : List IndexOrder) (opclasses : List KeyOpclass)
    (collations : List KeyCollation) (position : Nat) :
    List String → List (Option ExprIr) → List IndexKey
  | _, [] => []
  | columns, expression :: expressions =>
    { kind := match expression with
        | some ir => .expression (some ir)
        | none => .column (columns.head?.getD "")
      opclass := opclasses[position]?.getD (.default none)
      collation := collations[position]?.getD .derived
      order := orders[position]?.getD .default } ::
    statementIndexKeys orders opclasses collations (position + 1)
      (if expression.isSome then columns else columns.tail) expressions

/-- A statement with what the state resolved the operator classes and collations of its keys
to, and whether partitions are missing under it. -/
structure BuiltIndex where
  node : CreateIndexNode
  opclasses : List KeyOpclass
  collations : List KeyCollation
  declined : Bool

def BuiltIndex.definition (index : BuiltIndex) : IndexDefinition :=
  let node := index.node
  { method := some node.accessMethod
    keys := statementIndexKeys (node.items.map IndexItem.order) index.opclasses index.collations 0
      node.keyColumns node.keyExpressions
    included := indexKeys node.includedColumns
    expressionKeys := node.keyExpressions.countP Option.isSome
    unique := node.unique
    nullsNotDistinct := some node.nullsNotDistinct
    predicate := node.indexPredicate
    unestablished := false
    valid := !index.declined
    ready := true
    live := true }

section Verdict

theorem IndexEquivalence.and_comm (a b : IndexEquivalence) : a.and b = b.and a := by
  cases a <;> cases b <;> rfl

theorem IndexEquivalence.and_eq_identical_iff {a b : IndexEquivalence} :
    a.and b = .identical ↔ a = .identical ∧ b = .identical := by
  cases a <;> cases b <;> simp [IndexEquivalence.and]

theorem IndexEquivalence.and_eq_different_iff {a b : IndexEquivalence} :
    a.and b = .different ↔ a = .different ∨ b = .different := by
  cases a <;> cases b <;> simp [IndexEquivalence.and]

theorem IndexEquivalence.fromEqual_eq_identical_iff {b : Bool} :
    IndexEquivalence.fromEqual b = .identical ↔ b = true := by
  cases b <;> simp [IndexEquivalence.fromEqual]

theorem compareKeyKinds_comm (left right : IndexKeyKind) :
    compareKeyKinds left right = compareKeyKinds right left := by
  rcases left with left | (_ | left) <;> rcases right with right | (_ | right) <;>
    simp [compareKeyKinds, BEq.comm, eq_comm]

theorem compareOpclasses_comm (left right : KeyOpclass) :
    compareOpclasses left right = compareOpclasses right left := by
  rcases left with (_ | left) | left | _ <;> rcases right with (_ | right) | right | _ <;>
    simp [compareOpclasses, eq_comm]

theorem compareCollations_comm (left right : KeyCollation) :
    compareCollations left right = compareCollations right left := by
  cases left <;> cases right <;> simp [compareCollations, eq_comm]

theorem compareKeys_comm (left right : IndexKey) :
    compareKeys left right = compareKeys right left := by
  unfold compareKeys
  rw [compareKeyKinds_comm, compareOpclasses_comm, compareCollations_comm]

theorem comparePredicates_comm (left right : IndexPredicate) :
    comparePredicates left right = comparePredicates right left := by
  cases left <;> cases right <;> simp [comparePredicates, eq_comm]

theorem foldl_compareKeys_comm (left right : List IndexKey) (verdict : IndexEquivalence) :
    (left.zip right).foldl (fun verdict keys => verdict.and (compareKeys keys.1 keys.2)) verdict =
      (right.zip left).foldl (fun verdict keys => verdict.and (compareKeys keys.1 keys.2))
        verdict := by
  induction left generalizing right verdict with
  | nil => cases right <;> rfl
  | cons key left ih =>
    cases right with
    | nil => rfl
    | cons key' right =>
      simp only [List.zip_cons_cons, List.foldl_cons]
      rw [compareKeys_comm key key', ih]

theorem compareKeyLists_comm (verdict : IndexEquivalence) (left right : List IndexKey) :
    compareKeyLists verdict left right = compareKeyLists verdict right left := by
  unfold compareKeyLists
  by_cases hlength : left.length = right.length
  · rw [if_pos hlength, if_pos hlength.symm, foldl_compareKeys_comm]
  · rw [if_neg hlength, if_neg (Ne.symm hlength)]

theorem compareKeyLists_eq_identical_iff {verdict : IndexEquivalence} {left right : List IndexKey}
    (hlength : left.length = right.length) :
    compareKeyLists verdict left right = .identical ↔ verdict = .identical ∧
      List.Forall₂ (fun key key' => compareKeys key key' = .identical) left right := by
  rw [compareKeyLists, if_pos hlength]
  induction left generalizing right verdict with
  | nil =>
    cases right with
    | nil => simp
    | cons key' right => cases hlength
  | cons key left ih =>
    cases right with
    | nil => cases hlength
    | cons key' right =>
      have htail : left.length = right.length := by simpa using hlength
      rw [List.zip_cons_cons, List.foldl_cons, ih htail, IndexEquivalence.and_eq_identical_iff,
        List.forall₂_cons, and_assoc]

namespace IndexDefinition

variable (d other : IndexDefinition)

def compareMethods : Option String → Option String → IndexEquivalence
  | some left, some right => .fromEqual (left == right)
  | none, none => .identical
  | _, _ => .unknown

def compareNulls : Option Bool → Option Bool → IndexEquivalence
  | some left, some right => .fromEqual (left == right)
  | _, _ => .unknown

/-- The verdict on everything but the keys and the predicate. -/
def compareShapes : IndexEquivalence :=
  ((((compareMethods d.method other.method).and (.fromEqual (d.unique == other.unique))).and
    (compareNulls d.nullsNotDistinct other.nullsNotDistinct)).and (.fromEqual
      (d.keys.length == other.keys.length && d.included.length == other.included.length))).and
    (.fromEqual (d.expressionKeys == other.expressionKeys))

theorem attachEquivalence_eq : d.attachEquivalence other =
    if d.unestablished || other.unestablished then .unknown
    else if d.compareShapes other = .different then .different
    else (compareKeyLists (compareKeyLists (d.compareShapes other) d.keys other.keys)
      d.included other.included).and (comparePredicates d.predicate other.predicate) := by
  have hshape : d.attachEquivalence other =
      if d.unestablished || other.unestablished then .unknown
      else if d.compareShapes other = .different then d.compareShapes other
      else (compareKeyLists (compareKeyLists (d.compareShapes other) d.keys other.keys)
        d.included other.included).and (comparePredicates d.predicate other.predicate) := rfl
  rw [hshape]
  by_cases hdifferent : d.compareShapes other = .different <;> simp [hdifferent]

theorem compareMethods_comm (left right : Option String) :
    compareMethods left right = compareMethods right left := by
  cases left <;> cases right <;> simp [compareMethods, BEq.comm]

theorem compareNulls_comm (left right : Option Bool) :
    compareNulls left right = compareNulls right left := by
  cases left <;> cases right <;> simp [compareNulls, BEq.comm]

theorem compareShapes_comm : d.compareShapes other = other.compareShapes d := by
  have hlengths : (d.keys.length == other.keys.length &&
        d.included.length == other.included.length) =
      (other.keys.length == d.keys.length && other.included.length == d.included.length) := by
    rw [BEq.comm, BEq.comm (a := d.included.length)]
  unfold compareShapes
  rw [compareMethods_comm, compareNulls_comm, hlengths, BEq.comm (a := d.unique),
    BEq.comm (a := d.expressionKeys)]

/-- The verdict does not depend on which of the two is asked. -/
theorem attachEquivalence_comm : d.attachEquivalence other = other.attachEquivalence d := by
  rw [attachEquivalence_eq, attachEquivalence_eq, compareShapes_comm, Bool.or_comm,
    compareKeyLists_comm _ d.keys, compareKeyLists_comm _ d.included, comparePredicates_comm]

/-- What the verdict that nothing tells two definitions apart amounts to. -/
structure Alike (d other : IndexDefinition) : Prop where
  established : d.unestablished = false ∧ other.unestablished = false
  method : d.method = other.method
  unique : d.unique = other.unique
  nulls : d.nullsNotDistinct = other.nullsNotDistinct ∧ d.nullsNotDistinct ≠ none
  expressionKeys : d.expressionKeys = other.expressionKeys
  keys : List.Forall₂ (fun key key' => compareKeys key key' = .identical) d.keys other.keys
  included : List.Forall₂ (fun key key' => compareKeys key key' = .identical)
    d.included other.included
  predicate : comparePredicates d.predicate other.predicate = .identical

theorem compareMethods_eq_identical_iff {left right : Option String} :
    compareMethods left right = .identical ↔ left = right := by
  cases left <;> cases right <;>
    simp [compareMethods, IndexEquivalence.fromEqual_eq_identical_iff]

theorem compareNulls_eq_identical_iff {left right : Option Bool} :
    compareNulls left right = .identical ↔ left = right ∧ left ≠ none := by
  cases left <;> cases right <;>
    simp [compareNulls, IndexEquivalence.fromEqual_eq_identical_iff]

theorem compareShapes_eq_identical_iff : d.compareShapes other = .identical ↔
    d.method = other.method ∧ d.unique = other.unique ∧
      (d.nullsNotDistinct = other.nullsNotDistinct ∧ d.nullsNotDistinct ≠ none) ∧
      (d.keys.length = other.keys.length ∧ d.included.length = other.included.length) ∧
      d.expressionKeys = other.expressionKeys := by
  simp only [compareShapes, IndexEquivalence.and_eq_identical_iff, compareMethods_eq_identical_iff,
    compareNulls_eq_identical_iff, IndexEquivalence.fromEqual_eq_identical_iff, beq_iff_eq,
    Bool.and_eq_true, and_assoc]

theorem lengths_of_compareShapes (h : d.compareShapes other ≠ .different) :
    d.keys.length = other.keys.length ∧ d.included.length = other.included.length := by
  by_contra hlengths
  have hequal : IndexEquivalence.fromEqual (d.keys.length == other.keys.length &&
      d.included.length == other.included.length) = .different := by
    have hfalse : (d.keys.length == other.keys.length &&
        d.included.length == other.included.length) = false := by
      simpa using hlengths
    rw [hfalse]
    rfl
  refine h ?_
  unfold compareShapes
  simp only [IndexEquivalence.and_eq_different_iff, hequal, true_or, or_true]

theorem attachEquivalence_eq_identical_iff :
    d.attachEquivalence other = .identical ↔ d.Alike other := by
  rw [attachEquivalence_eq]
  constructor
  · intro h
    by_cases hunestablished : (d.unestablished || other.unestablished) = true
    · rw [if_pos hunestablished] at h
      cases h
    · by_cases hdifferent : d.compareShapes other = .different
      · rw [if_neg hunestablished, if_pos hdifferent] at h
        cases h
      · obtain ⟨hkeys, hincluded⟩ := lengths_of_compareShapes d other hdifferent
        rw [if_neg hunestablished, if_neg hdifferent, IndexEquivalence.and_eq_identical_iff,
          compareKeyLists_eq_identical_iff hincluded, compareKeyLists_eq_identical_iff hkeys,
          compareShapes_eq_identical_iff] at h
        obtain ⟨⟨⟨⟨hmethod, hunique, hnulls, -, hexpressions⟩, hkeys⟩, hincluded⟩, hpredicate⟩ := h
        exact ⟨by simpa using hunestablished, hmethod, hunique, hnulls, hexpressions, hkeys,
          hincluded, hpredicate⟩
  · intro h
    have hestablished : ¬(d.unestablished || other.unestablished) = true := by
      simp [h.established]
    have hkeys := h.keys.length_eq
    have hincluded := h.included.length_eq
    have hshape : d.compareShapes other = .identical :=
      (compareShapes_eq_identical_iff d other).mpr
        ⟨h.method, h.unique, h.nulls, ⟨hkeys, hincluded⟩, h.expressionKeys⟩
    rw [if_neg hestablished, hshape, if_neg (by simp), IndexEquivalence.and_eq_identical_iff,
      compareKeyLists_eq_identical_iff hincluded, compareKeyLists_eq_identical_iff hkeys]
    exact ⟨⟨⟨rfl, h.keys⟩, h.included⟩, h.predicate⟩

end IndexDefinition

end Verdict

section Wrappers

variable {fold : String → String}

open IndexItem (stripIndexKeyWrappers)

/-- The collations that go with the wrappers of a key. -/
def nestedCollations (fold : String → String) : SyntaxExpr → List String
  | .parenExpr expr => nestedCollations fold expr
  | .collate expr collation => fold collation :: nestedCollations fold expr
  | _ => []

def SyntaxExpr.IsCollate : SyntaxExpr → Prop
  | .collate _ _ => True
  | _ => False

theorem canonical_eq_wrapped (e : SyntaxExpr) :
    e.canonical fold = (nestedCollations fold e).foldr
      (fun collation expr => .collate expr collation)
      ((stripIndexKeyWrappers e).canonical fold) := by
  induction e using SyntaxExpr.inductionOn with
  | parenExpr expr ih => exact ih
  | collate expr collation ih =>
    unfold SyntaxExpr.canonical at ih ⊢
    simp only [SyntaxExpr.rewrite, nestedCollations, stripIndexKeyWrappers, List.foldr_cons, ih]
  | _ => rfl

theorem leftOut_canonical_strip (e : SyntaxExpr) :
    ((stripIndexKeyWrappers e).canonical fold).leftOut = (e.canonical fold).leftOut := by
  induction e using SyntaxExpr.inductionOn with
  | parenExpr expr ih => exact ih
  | collate expr collation ih => exact ih
  | _ => rfl

theorem not_isCollate_strip (e : SyntaxExpr) :
    ¬((stripIndexKeyWrappers e).canonical fold).IsCollate := by
  induction e using SyntaxExpr.inductionOn with
  | parenExpr expr ih => exact ih
  | collate expr collation ih => exact ih
  | _ => exact fun h => h

theorem foldr_collate_inj {collations collations' : List String} {e e' : SyntaxExpr}
    (he : ¬e.IsCollate) (he' : ¬e'.IsCollate) :
    collations.foldr (fun collation expr => SyntaxExpr.collate expr collation) e =
      collations'.foldr (fun collation expr => SyntaxExpr.collate expr collation) e' ↔
    collations = collations' ∧ e = e' := by
  induction collations generalizing collations' with
  | nil =>
    cases collations' with
    | nil => simp
    | cons collation' collations' =>
      constructor
      · intro h
        rw [List.foldr_nil, List.foldr_cons] at h
        rw [h] at he
        exact absurd trivial he
      · rintro ⟨h, -⟩
        cases h
  | cons collation collations ih =>
    cases collations' with
    | nil =>
      constructor
      · intro h
        rw [List.foldr_nil, List.foldr_cons] at h
        rw [← h] at he'
        exact absurd trivial he'
      · rintro ⟨h, -⟩
        cases h
    | cons collation' collations' =>
      rw [List.foldr_cons, List.foldr_cons, SyntaxExpr.collate.injEq, ih, List.cons.injEq]
      constructor
      · rintro ⟨⟨hrest, he⟩, hfirst⟩
        exact ⟨⟨hfirst, hrest⟩, he⟩
      · rintro ⟨⟨hfirst, hrest⟩, he⟩
        exact ⟨⟨hrest, he⟩, hfirst⟩

/-- Keys that convert alike are the same expression exactly if the same collations are
stripped from both and the conversion leaves the same out of them. -/
theorem canonical_eq_iff_of_strip {e e' : SyntaxExpr}
    (h : convert (stripIndexKeyWrappers e) = convert (stripIndexKeyWrappers e')) :
    e.canonical fold = e'.canonical fold ↔
      nestedCollations fold e = nestedCollations fold e' ∧
        (e.canonical fold).leftOut = (e'.canonical fold).leftOut := by
  rw [canonical_eq_wrapped e, canonical_eq_wrapped e',
    foldr_collate_inj (not_isCollate_strip e) (not_isCollate_strip e'),
    canonical_eq_iff_leftOut_eq h, leftOut_canonical_strip, leftOut_canonical_strip,
    ← canonical_eq_wrapped, ← canonical_eq_wrapped]

end Wrappers

namespace IndexItem

variable (fold : String → String) (item other : IndexItem)

/-- Both keys are the same column, or expressions that are the same but for the case of
identifiers, parentheses and spaces. -/
def SameKey : Prop :=
  (∃ name, item.column = some name ∧ other.column = some name) ∨
    (item.column = none ∧ other.column = none ∧
      item.keyExpr.canonical fold = other.keyExpr.canonical fold)

/-- What the definition of the index keeps no trace of. -/
def leftOut : List String × List (Form × String) :=
  if item.column.isSome then ([], [])
  else (nestedCollations fold item.keyExpr, (item.keyExpr.canonical fold).leftOut)

def kind : IndexKeyKind :=
  match item.expression with
  | some ir => .expression (some ir)
  | none => .column (item.column.getD "")

variable {fold item other}

theorem expression_eq : item.expression =
    if item.column.isSome then none else some (convert (stripIndexKeyWrappers item.keyExpr)) := by
  unfold expression column
  cases stripIndexKeyWrappers item.keyExpr <;> rfl

/-- Nothing that the definition keeps tells the two keys apart. -/
structure Lookalike (item other : IndexItem) : Prop where
  column : item.column = other.column
  skeleton : item.column = none → (stripIndexKeyWrappers item.keyExpr).skeleton =
    (stripIndexKeyWrappers other.keyExpr).skeleton

theorem compareKeyKinds_eq_identical_iff :
    compareKeyKinds item.kind other.kind = .identical ↔ item.Lookalike other := by
  have hiff : item.Lookalike other ↔ item.column = other.column ∧
      (item.column = none → convert (stripIndexKeyWrappers item.keyExpr) =
        convert (stripIndexKeyWrappers other.keyExpr)) :=
    ⟨fun h => ⟨h.column, fun hnone => convert_eq_iff.mpr (h.skeleton hnone)⟩,
      fun h => ⟨h.1, fun hnone => convert_eq_iff.mp (h.2 hnone)⟩⟩
  rw [hiff]
  unfold kind
  rw [expression_eq, expression_eq]
  cases hcolumn : item.column <;> cases hcolumn' : other.column <;>
    simp [compareKeyKinds, IndexEquivalence.fromEqual_eq_identical_iff]

theorem Lookalike.sameKey_iff (h : item.Lookalike other) :
    item.SameKey fold other ↔ item.leftOut fold = other.leftOut fold := by
  have hcolumn' := h.column
  cases hcolumn : item.column with
  | some name =>
    rw [hcolumn] at hcolumn'
    simp [SameKey, leftOut, hcolumn, ← hcolumn']
  | none =>
    have hconvert := convert_eq_iff.mpr (h.skeleton hcolumn)
    rw [hcolumn] at hcolumn'
    simp [SameKey, leftOut, hcolumn, ← hcolumn', canonical_eq_iff_of_strip hconvert]

/-- The key that the item becomes, with the class, the collation and the order that stand at
its place in the lists. -/
def key (orders : List IndexOrder) (opclasses : List KeyOpclass) (collations : List KeyCollation)
    (item : IndexItem) (position : Nat) : IndexKey :=
  { kind := item.kind
    opclass := opclasses[position]?.getD (.default none)
    collation := collations[position]?.getD .derived
    order := orders[position]?.getD .default }

end IndexItem

theorem statementIndexKeys_eq (orders : List IndexOrder) (opclasses : List KeyOpclass)
    (collations : List KeyCollation) (position : Nat) (items : List IndexItem) :
    statementIndexKeys orders opclasses collations position (items.filterMap IndexItem.column)
        (items.map IndexItem.expression) =
      (items.zipIdx position).map fun item =>
        item.1.key orders opclasses collations item.2 := by
  induction items generalizing position with
  | nil => rfl
  | cons item items ih =>
    have hexpression := item.expression_eq
    cases hcolumn : item.column <;> rw [hcolumn] at hexpression <;>
      simp [statementIndexKeys, hcolumn, hexpression, IndexItem.kind, IndexItem.key, ih]

namespace CreateIndexNode

variable (fold : String → String) (node other : CreateIndexNode)

/-- The two statements describe the same index, as far as uniqueness, columns, key
expressions and the predicate go. -/
structure SameIndex : Prop where
  unique : node.unique = other.unique
  keys : List.Forall₂ (IndexItem.SameKey fold) node.items other.items
  included : node.includedColumns = other.includedColumns
  predicate : node.predicate.map (SyntaxExpr.canonical fold) =
    other.predicate.map (SyntaxExpr.canonical fold)

def leftOut : List (List String × List (Form × String)) × Option (List (Form × String)) :=
  (node.items.map (IndexItem.leftOut fold),
    node.predicate.map fun expr => (expr.canonical fold).leftOut)

/-- The key expressions of the index, and its predicate. -/
def expressions : List SyntaxExpr :=
  (node.items.filter fun item => item.column.isNone).map IndexItem.keyExpr ++
    node.predicate.toList

/-- None of the expressions has a part that the conversion cannot represent. -/
def Represented : Prop := ∀ expr ∈ node.expressions, ∀ text, (Form.complex, text) ∉ expr.leftOut

end CreateIndexNode

section Places

def KeyOpclass.name : KeyOpclass → Option ResolvedName
  | .default family => family
  | .explicit family => some family
  | .unresolved => none

def KeyOpclass.Omitted : KeyOpclass → Prop
  | .default _ => True
  | _ => False

/-- Both are the same class, or both are left out and one of the two is not resolved. -/
def KeyOpclass.Same (left right : KeyOpclass) : Prop :=
  (∃ family, left.name = some family ∧ right.name = some family) ∨
    (left.Omitted ∧ right.Omitted ∧ (left.name = none ∨ right.name = none))

def KeyCollation.Uncollated : KeyCollation → Prop
  | .notCollatable => True
  | .derived => True
  | _ => False

/-- Both are the same collation, or neither key names one. -/
def KeyCollation.Same (left right : KeyCollation) : Prop :=
  (∃ name, left = .resolved name ∧ right = .resolved name) ∨
    (left.Uncollated ∧ right.Uncollated)

theorem compareOpclasses_eq_identical_iff {left right : KeyOpclass} :
    compareOpclasses left right = .identical ↔ left.Same right := by
  rcases left with (_ | left) | left | _ <;> rcases right with (_ | right) | right | _ <;>
    simp [compareOpclasses, KeyOpclass.Same, KeyOpclass.name, KeyOpclass.Omitted,
      IndexEquivalence.fromEqual_eq_identical_iff]
  all_goals exact eq_comm

theorem compareCollations_eq_identical_iff {left right : KeyCollation} :
    compareCollations left right = .identical ↔ left.Same right := by
  cases left <;> cases right <;>
    simp [compareCollations, KeyCollation.Same, KeyCollation.Uncollated,
      IndexEquivalence.fromEqual_eq_identical_iff]
  exact eq_comm

end Places

namespace BuiltIndex

variable (index : BuiltIndex)

def opclassAt (position : Nat) : KeyOpclass := index.opclasses[position]?.getD (.default none)

def collationAt (position : Nat) : KeyCollation := index.collations[position]?.getD .derived

theorem definition_keys : index.definition.keys = index.node.items.zipIdx.map fun item =>
    item.1.key (index.node.items.map IndexItem.order) index.opclasses index.collations item.2 :=
  statementIndexKeys_eq _ _ _ _ _

theorem definition_expressionKeys : index.definition.expressionKeys =
    (index.node.items.map IndexItem.column).countP Option.isNone := by
  change (index.node.items.map IndexItem.expression).countP Option.isSome = _
  rw [List.countP_map, List.countP_map]
  refine List.countP_congr fun item _ => ?_
  cases hcolumn : item.column <;> simp [IndexItem.expression_eq, hcolumn]

end BuiltIndex

section Sound

variable (fold : String → String) (a b : BuiltIndex)

/-- The verdict on two built indexes does not depend on the order, and where it is that
nothing tells them apart, the statements describe the same index and nothing in them is
beyond the conversion. -/
structure SoundVerdict : Prop where
  comm : a.definition.attachEquivalence b.definition = b.definition.attachEquivalence a.definition
  same : a.definition.attachEquivalence b.definition = .identical →
    a.node.SameIndex fold b.node
  represented : a.definition.attachEquivalence b.definition = .identical →
    a.node.Represented ∧ b.node.Represented

/-- A part that the definitions keep tells the two statements apart. -/
inductive ToldApart : Prop
  | method (h : a.node.accessMethod ≠ b.node.accessMethod)
  | unique (h : a.node.unique ≠ b.node.unique)
  | nulls (h : a.node.nullsNotDistinct ≠ b.node.nullsNotDistinct)
  | keyCount (h : a.node.items.length ≠ b.node.items.length)
  | key (i : Nat) (hi : i < a.node.items.length) (hi' : i < b.node.items.length)
      (h : ¬a.node.items[i].Lookalike b.node.items[i])
  | opclass (i : Nat) (hi : i < a.node.items.length) (h : ¬(a.opclassAt i).Same (b.opclassAt i))
  | collation (i : Nat) (hi : i < a.node.items.length)
      (h : ¬(a.collationAt i).Same (b.collationAt i))
  | included (h : a.node.includedColumns ≠ b.node.includedColumns)
  | predicate (h : a.node.predicate.map SyntaxExpr.skeleton ≠
      b.node.predicate.map SyntaxExpr.skeleton)

/-- The two statements have the same in the parts that the definitions leave out, and nothing
in them is beyond the conversion. -/
structure NothingHidden : Prop where
  leftOut : a.node.leftOut fold = b.node.leftOut fold
  represented : a.node.Represented ∧ b.node.Represented

variable {fold a b}

theorem keys_identical_iff :
    List.Forall₂ (fun key key' => compareKeys key key' = .identical)
        a.definition.keys b.definition.keys ↔
      a.node.items.length = b.node.items.length ∧
        ∀ i (hi : i < a.node.items.length) (hi' : i < b.node.items.length),
          a.node.items[i].Lookalike b.node.items[i] ∧ (a.opclassAt i).Same (b.opclassAt i) ∧
            (a.collationAt i).Same (b.collationAt i) := by
  rw [a.definition_keys, b.definition_keys, List.forall₂_iff_get]
  simp [compareKeys, IndexEquivalence.and_eq_identical_iff, IndexItem.key,
    IndexItem.compareKeyKinds_eq_identical_iff, compareOpclasses_eq_identical_iff,
    compareCollations_eq_identical_iff, BuiltIndex.opclassAt, BuiltIndex.collationAt, and_assoc]

theorem included_identical_iff {names names' : List String} :
    List.Forall₂ (fun key key' => compareKeys key key' = .identical)
      (indexKeys names) (indexKeys names') ↔ names = names' := by
  rw [indexKeys, indexKeys, List.forall₂_map_left_iff, List.forall₂_map_right_iff,
    ← List.forall₂_eq_eq_eq]
  have hkey : ∀ name name', compareKeys (IndexKey.column name) (IndexKey.column name') =
      .identical ↔ name = name' := by
    intro name name'
    simp [compareKeys, IndexKey.column, compareKeyKinds, compareOpclasses, compareCollations,
      IndexEquivalence.and_eq_identical_iff, IndexEquivalence.fromEqual_eq_identical_iff]
  simp only [hkey]

theorem predicates_identical_iff :
    comparePredicates a.node.indexPredicate b.node.indexPredicate = .identical ↔
      a.node.predicate.map SyntaxExpr.skeleton = b.node.predicate.map SyntaxExpr.skeleton := by
  unfold CreateIndexNode.indexPredicate
  cases a.node.predicate <;> cases b.node.predicate <;>
    simp [comparePredicates, IndexEquivalence.fromEqual_eq_identical_iff, convert_eq_iff]

theorem map_column_eq (hlength : a.node.items.length = b.node.items.length)
    (h : ∀ i (hi : i < a.node.items.length) (hi' : i < b.node.items.length),
      a.node.items[i].Lookalike b.node.items[i]) :
    a.node.items.map IndexItem.column = b.node.items.map IndexItem.column := by
  refine List.ext_getElem (by simpa using hlength) fun i hi hi' => ?_
  have hcolumn := (h i (by simpa using hi) (by simpa using hi')).column
  simpa using hcolumn

theorem alike_iff_not_toldApart : a.definition.Alike b.definition ↔ ¬ToldApart a b := by
  constructor
  · intro h happart
    obtain ⟨hlength, hkeys⟩ := keys_identical_iff.mp h.keys
    cases happart with
    | method hne => exact hne (Option.some.inj h.method)
    | unique hne => exact hne h.unique
    | nulls hne => exact hne (Option.some.inj h.nulls.1)
    | keyCount hne => exact hne hlength
    | key i hi hi' hne => exact hne (hkeys i hi hi').1
    | opclass i hi hne => exact hne (hkeys i hi (hlength ▸ hi)).2.1
    | collation i hi hne => exact hne (hkeys i hi (hlength ▸ hi)).2.2
    | included hne => exact hne (included_identical_iff.mp h.included)
    | predicate hne => exact hne (predicates_identical_iff.mp h.predicate)
  · intro h
    have hlength : a.node.items.length = b.node.items.length := by
      by_contra hne
      exact h (.keyCount hne)
    have hkeys : ∀ i (hi : i < a.node.items.length) (hi' : i < b.node.items.length),
        a.node.items[i].Lookalike b.node.items[i] ∧ (a.opclassAt i).Same (b.opclassAt i) ∧
          (a.collationAt i).Same (b.collationAt i) := by
      intro i hi hi'
      refine ⟨?_, ?_, ?_⟩
      · by_contra hne
        exact h (.key i hi hi' hne)
      · by_contra hne
        exact h (.opclass i hi hne)
      · by_contra hne
        exact h (.collation i hi hne)
    refine ⟨⟨rfl, rfl⟩, ?_, ?_, ⟨?_, by simp [BuiltIndex.definition]⟩, ?_,
      keys_identical_iff.mpr ⟨hlength, hkeys⟩, ?_, ?_⟩
    · by_contra hne
      exact h (.method fun heq => hne (congrArg some heq))
    · by_contra hne
      exact h (.unique hne)
    · by_contra hne
      exact h (.nulls fun heq => hne (congrArg some heq))
    · rw [a.definition_expressionKeys, b.definition_expressionKeys,
        map_column_eq hlength fun i hi hi' => (hkeys i hi hi').1]
    · by_contra hne
      exact h (.included fun heq => hne (included_identical_iff.mpr heq))
    · by_contra hne
      exact h (.predicate fun heq => hne (predicates_identical_iff.mpr heq))

theorem forall₂_iff_of {α : Type} {R S T : α → α → Prop} {l l' : List α}
    (h : List.Forall₂ R l l') (hiff : ∀ x y, R x y → (S x y ↔ T x y)) :
    List.Forall₂ S l l' ↔ List.Forall₂ T l l' := by
  induction h with
  | nil => simp
  | cons hxy _ ih => rw [List.forall₂_cons, List.forall₂_cons, hiff _ _ hxy, ih]

theorem sameKeys_iff_leftOut_eq (h : ¬ToldApart a b) :
    List.Forall₂ (IndexItem.SameKey fold) a.node.items b.node.items ↔
      a.node.items.map (IndexItem.leftOut fold) = b.node.items.map (IndexItem.leftOut fold) := by
  obtain ⟨hlength, hkeys⟩ := keys_identical_iff.mp (alike_iff_not_toldApart.mpr h).keys
  have halike : List.Forall₂ IndexItem.Lookalike a.node.items b.node.items :=
    List.forall₂_iff_get.mpr ⟨hlength, fun i hi hi' => (hkeys i hi hi').1⟩
  rw [← List.forall₂_eq_eq_eq, List.forall₂_map_left_iff, List.forall₂_map_right_iff]
  exact forall₂_iff_of halike fun _ _ hkey => hkey.sameKey_iff

theorem samePredicate_iff_leftOut_eq (h : ¬ToldApart a b) :
    a.node.predicate.map (SyntaxExpr.canonical fold) =
        b.node.predicate.map (SyntaxExpr.canonical fold) ↔
      (a.node.predicate.map fun expr => (expr.canonical fold).leftOut) =
        b.node.predicate.map fun expr => (expr.canonical fold).leftOut := by
  have hskeleton : a.node.predicate.map SyntaxExpr.skeleton =
      b.node.predicate.map SyntaxExpr.skeleton := by
    by_contra hne
    exact h (.predicate hne)
  cases ha : a.node.predicate with
  | none =>
    rw [ha] at hskeleton
    simp [Option.map_eq_none_iff.mp hskeleton.symm]
  | some expr =>
    rw [ha] at hskeleton
    obtain ⟨expr', hb, hexpr⟩ := Option.map_eq_some_iff.mp hskeleton.symm
    simp [hb, canonical_eq_iff_leftOut_eq (convert_eq_iff.mpr hexpr.symm)]

theorem sameIndex_iff_leftOut_eq (h : ¬ToldApart a b) :
    a.node.SameIndex fold b.node ↔ a.node.leftOut fold = b.node.leftOut fold := by
  unfold CreateIndexNode.leftOut
  rw [Prod.mk.injEq, ← sameKeys_iff_leftOut_eq h, ← samePredicate_iff_leftOut_eq h]
  constructor
  · exact fun hsame => ⟨hsame.keys, hsame.predicate⟩
  · rintro ⟨hkeys, hpredicate⟩
    have halike := alike_iff_not_toldApart.mpr h
    exact ⟨halike.unique, hkeys, included_identical_iff.mp halike.included, hpredicate⟩

/-- The verdict is sound for two statements exactly if they are told apart by a part that the
definitions keep, or have the same in those that the definitions leave out. -/
theorem attachEquivalence_sound_iff (fold : String → String) (a b : BuiltIndex) :
    SoundVerdict fold a b ↔ ToldApart a b ∨ NothingHidden fold a b := by
  have hverdict : a.definition.attachEquivalence b.definition = .identical ↔ ¬ToldApart a b :=
    (IndexDefinition.attachEquivalence_eq_identical_iff _ _).trans alike_iff_not_toldApart
  constructor
  · intro h
    by_cases happart : ToldApart a b
    · exact Or.inl happart
    · have hidentical := hverdict.mpr happart
      exact Or.inr ⟨(sameIndex_iff_leftOut_eq happart).mp (h.same hidentical),
        h.represented hidentical⟩
  · intro h
    refine ⟨IndexDefinition.attachEquivalence_comm _ _, fun hidentical => ?_,
      fun hidentical => ?_⟩
    · have happart := hverdict.mp hidentical
      have hhidden := h.resolve_left happart
      exact (sameIndex_iff_leftOut_eq happart).mpr hhidden.leftOut
    · exact (h.resolve_left (hverdict.mp hidentical)).represented

end Sound

section NullTests

/-- `CREATE INDEX ON t ((a <test>))`, with ISNULL or NOTNULL for the test. -/
def nullTest (test : String) : BuiltIndex :=
  { node :=
      { usingMethod := none, predicate := none, unique := false, nullsNotDistinct := false,
        items := [⟨.parenExpr (.postfixExpr (.nameRef "a") test), false, none⟩], included := [] }
    opclasses := [.default none], collations := [.derived], declined := false }

/-- The conversion drops the operator that follows its operand, so an index on `a ISNULL` passes
for one on `a NOTNULL`. -/
theorem nullTest_unsound :
    (nullTest "ISNULL").definition.attachEquivalence (nullTest "NOTNULL").definition =
        .identical ∧
      ¬SoundVerdict toAsciiLowercase (nullTest "ISNULL") (nullTest "NOTNULL") := by
  have hidentical : (nullTest "ISNULL").definition.attachEquivalence
      (nullTest "NOTNULL").definition = .identical := by
    decide +kernel
  refine ⟨hidentical, fun h => ?_⟩
  have hkey := List.forall₂_cons.mp (h.same hidentical).keys
  rcases hkey.1 with ⟨name, hname, -⟩ | ⟨-, -, hsame⟩
  · cases hname
  · have hop : toAsciiLowercase "ISNULL" = toAsciiLowercase "NOTNULL" :=
      (SyntaxExpr.postfixExpr.inj hsame).2
    exact absurd hop (by decide +kernel)

end NullTests

end SafeMigrate
