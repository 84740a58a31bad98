import SafeMigrate.ColumnCommands
import SafeMigrate.DropSequence

/-! The column defaults that use a sequence, those that `DROP SEQUENCE ... CASCADE`
clears, and when the two are the same. -/

namespace SafeMigrate

open Command

namespace ExprIr

/-- An expression and its parts. -/
inductive Within : ExprIr → ExprIr → Prop
  | refl (e : ExprIr) : Within e e
  | arg {e arg : ExprIr} {name : String} {args : List ExprIr} (h : Within e arg)
      (harg : arg ∈ args) : Within e (.functionCall name args)
  | left {e left right : ExprIr} {op : String} (h : Within e left) :
      Within e (.binaryOp left op right)
  | right {e left right : ExprIr} {op : String} (h : Within e right) :
      Within e (.binaryOp left op right)
  | cast {e operand : ExprIr} {targetType : String} (h : Within e operand) :
      Within e (.cast operand targetType)
  | unaryOp {e operand : ExprIr} {op : String} (h : Within e operand) :
      Within e (.unaryOp op operand)

def beneathCasts : ExprIr → ExprIr
  | cast expr _ => expr.beneathCasts
  | e => e

end ExprIr

section Regclass

/-- The identifier, as the text of a `regclass` value may hold it. -/
def Ident.WrittenAs (ident : Ident) (text : String) : Prop :=
  if ident.quoted then text = quoteAlways ident.text
  else text = ident.text ∧ text ≠ "" ∧ text.toList.head? ≠ some doubleQuote ∧
    ∀ c ∈ text.toList, c ≠ '.' ∧ c.isWhitespace = false

def QualifiedName.WrittenAs (name : QualifiedName) (text : String) : Prop :=
  match name.schema with
  | none => name.name.WrittenAs text
  | some schema => ∃ before after, text = before ++ "." ++ after ∧ schema.WrittenAs before ∧
      name.name.WrittenAs after

/-- The value of a `regclass` literal names the relation, along the search path where it is
unqualified. -/
def AnalysisState.RegclassDenotes (s : AnalysisState) (id : ObjectId) (text : String) : Prop :=
  ∃ name : QualifiedName, name.WrittenAs text ∧ (s.resolveRelationId name).id = id

/-- A literal of an expression is the text of a string literal, or the name that the engine
itself put into the default of a serial column. -/
def AnalysisState.LiteralDenotes (s : AnalysisState) (id : ObjectId) (raw : String) : Prop :=
  raw = id.schema ++ "." ++ id.name ∨
    ∃ rest, (trimText raw).toList = singleQuote :: rest ∧
      s.RegclassDenotes id (String.ofList (literalText rest))

def isSequenceFunction (name : String) : Bool :=
  ["nextval", "currval", "setval"].any
    (eqIgnoreAsciiCase (((rsplitOnce '.' name).map (·.2)).getD name))

/-- Some part of the expression calls a sequence function on the sequence. -/
def AnalysisState.CallsSequence (s : AnalysisState) (sequence : ObjectId) (e : ExprIr) : Prop :=
  ∃ name arg args raw, ExprIr.Within (.functionCall name (arg :: args)) e ∧
    isSequenceFunction name = true ∧ arg.beneathCasts = .literal raw ∧ s.LiteralDenotes sequence raw

end Regclass

namespace Column

def HasDefault (column : Column) : Prop :=
  column.default.isSome = true ∨ column.defaultExprText.isSome = true

def withoutDefault (column : Column) : Column :=
  { column with default := none, defaultExprText := none }

/-- The expression is the column's default, or what its catalog text stands for. -/
def DefaultIs (reads : String → Option ExprIr) (column : Column) (e : ExprIr) : Prop :=
  column.default = some e ∨ ∃ text, column.defaultExprText = some text ∧ reads text = some e

/-- The default holds a text that the engine takes for the sequence's name. -/
def Spells (column : Column) (sequence : ObjectId) : Prop :=
  column.default.any (expressionReferencesSequence sequence) = true ∨
    column.defaultExprText.any (rawDefaultReferencesSequence · sequence) = true

@[simp] theorem withoutDefault_name (column : Column) :
    column.withoutDefault.name = column.name := rfl

theorem withoutDefault_eq_self {column : Column} (h : ¬column.HasDefault) :
    column.withoutDefault = column := by
  have hdefault : column.default = none := by
    have := not_or.mp h
    simpa using this.1
  have htext : column.defaultExprText = none := by
    have := not_or.mp h
    simpa using this.2
  unfold withoutDefault
  rw [← hdefault, ← htext]

theorem withoutDefault_ne_self {column : Column} (h : column.HasDefault) :
    column.withoutDefault ≠ column := by
  intro heq
  rcases h with hdefault | htext
  · rw [← heq] at hdefault
    simp [withoutDefault] at hdefault
  · rw [← heq] at htext
    simp [withoutDefault] at htext

end Column

namespace AnalysisState

section Clearing

variable {s : AnalysisState}

theorem clearDefault_cons (name : String) (column : Column) (columns : List Column) :
    clearDefault name (column :: columns) =
      if column.name = name then column.withoutDefault :: columns
      else column :: clearDefault name columns := by
  unfold clearDefault
  rw [List.findIdx?_cons]
  by_cases hname : column.name = name
  · simp [hname, Column.withoutDefault]
  · cases List.findIdx? (·.name == name) columns <;> simp [hname]

theorem clearDefault_eq_map (name : String) {columns : List Column}
    (hnames : (columns.map (·.name)).Nodup) :
    clearDefault name columns =
      columns.map fun column => if column.name = name then column.withoutDefault else column := by
  induction columns with
  | nil => rfl
  | cons column columns ih =>
    have hcons := List.nodup_cons.mp hnames
    rw [clearDefault_cons, List.map_cons, ih hcons.2]
    by_cases hname : column.name = name
    · have hrest : ∀ other ∈ columns, other.name ≠ name := by
        intro other hother heq
        exact hcons.1 (List.mem_map.mpr ⟨other, hother, heq.trans hname.symm⟩)
      have hsame : columns.map (fun other => if other.name = name then other.withoutDefault
          else other) = columns := by
        conv_rhs => rw [← List.map_id columns]
        exact List.map_congr_left fun other hother => by simp [hrest other hother]
      simp [hname, hsame]
    · simp [hname]

/-- Every relation the state holds has each column name once. -/
def DistinctColumns (s : AnalysisState) : Prop :=
  ∀ id relation, s.relations.lookup id = some (.present relation) →
    (relation.columns.map (·.name)).Nodup

/-- What becomes of a column of the relation once the listed columns lost their defaults. -/
def clearing (keys : List (ObjectId × String)) (id : ObjectId) (column : Column) : Column :=
  if keys.contains (id, column.name) then column.withoutDefault else column

@[simp] theorem clearing_name (keys : List (ObjectId × String)) (id : ObjectId)
    (column : Column) : (clearing keys id column).name = column.name := by
  by_cases hkey : (id, column.name) ∈ keys <;> simp [clearing, hkey]

theorem clearing_cons (key : ObjectId × String) (keys : List (ObjectId × String)) (id : ObjectId)
    (column : Column) :
    clearing keys id (clearing [key] id column) = clearing (key :: keys) id column := by
  by_cases hkey : (id, column.name) = key
  · simp [clearing, hkey, Column.withoutDefault]
  · simp [clearing, hkey]

theorem clearColumnDefault_lookup_of_ne (s : AnalysisState) {key : ObjectId × String}
    {id : ObjectId} (h : id ≠ key.1) :
    (s.clearColumnDefault key).relations.lookup id = s.relations.lookup id := by
  have hsnapshot : (s.snapshotRelation key.1).relations = s.relations := pushUndo_relations _ _
  unfold clearColumnDefault
  simp only [hsnapshot]
  split
  · exact AList.lookup_insert_ne h
  · rw [hsnapshot]

theorem clearColumnDefault_lookup (hs : s.DistinctColumns) (key : ObjectId × String)
    {id : ObjectId} {relation : RelationState}
    (h : s.relations.lookup id = some (.present relation)) :
    (s.clearColumnDefault key).relations.lookup id =
      some (.present { relation with columns := relation.columns.map (clearing [key] id) }) := by
  by_cases hid : id = key.1
  · rw [hid] at h ⊢
    have hsnapshot : (s.snapshotRelation key.1).relations = s.relations := pushUndo_relations _ _
    have hmap : clearDefault key.2 relation.columns =
        relation.columns.map (clearing [key] key.1) := by
      rw [clearDefault_eq_map _ (hs _ _ h)]
      exact List.map_congr_left fun column _ => by simp [clearing, Prod.ext_iff]
    unfold clearColumnDefault
    simp only [hsnapshot, h, hmap]
    exact AList.lookup_insert _
  · have hsame : relation.columns.map (clearing [key] id) = relation.columns := by
      conv_rhs => rw [← List.map_id relation.columns]
      exact List.map_congr_left fun column _ => by simp [clearing, Prod.ext_iff, hid]
    rw [clearColumnDefault_lookup_of_ne s hid, h, hsame]

theorem clearColumnDefault_dropped (s : AnalysisState) (key : ObjectId × String) {id : ObjectId}
    (h : ∀ relation, s.relations.lookup id ≠ some (.present relation)) :
    (s.clearColumnDefault key).relations.lookup id = s.relations.lookup id := by
  by_cases hid : id = key.1
  · subst hid
    have hsnapshot : (s.snapshotRelation key.1).relations = s.relations := pushUndo_relations _ _
    unfold clearColumnDefault
    simp only [hsnapshot]
  · exact clearColumnDefault_lookup_of_ne s hid

theorem DistinctColumns.clearColumnDefault (hs : s.DistinctColumns) (key : ObjectId × String) :
    (s.clearColumnDefault key).DistinctColumns := by
  intro id relation hlookup
  by_cases hpresent : ∃ old, s.relations.lookup id = some (.present old)
  · obtain ⟨old, hold⟩ := hpresent
    rw [clearColumnDefault_lookup hs key hold] at hlookup
    cases hlookup
    have hnames : ((old.columns.map (clearing [key] id)).map (·.name)) =
        old.columns.map (·.name) := by simp
    rw [hnames]
    exact hs _ _ hold
  · rw [clearColumnDefault_dropped s key (by simpa using hpresent)] at hlookup
    exact absurd ⟨relation, hlookup⟩ hpresent

theorem foldl_clearColumnDefault_lookup (keys : List (ObjectId × String))
    (hs : s.DistinctColumns) {id : ObjectId} {relation : RelationState}
    (h : s.relations.lookup id = some (.present relation)) :
    (keys.foldl clearColumnDefault s).relations.lookup id =
      some (.present { relation with columns := relation.columns.map (clearing keys id) }) := by
  induction keys generalizing s relation with
  | nil =>
    have hsame : relation.columns.map (clearing [] id) = relation.columns :=
      (List.map_congr_left fun column _ => by simp [clearing]).trans (List.map_id _)
    rw [hsame]
    exact h
  | cons key keys ih =>
    have hcolumns : (relation.columns.map (clearing [key] id)).map (clearing keys id) =
        relation.columns.map (clearing (key :: keys) id) := by
      rw [List.map_map]
      exact List.map_congr_left fun column _ => clearing_cons key keys id column
    rw [List.foldl_cons, ih (hs.clearColumnDefault key) (clearColumnDefault_lookup hs key h),
      ← hcolumns]

/-- The columns of an entry whose defaults go with the sequence. -/
def columnsOfEntry (s : AnalysisState) (sequence : ObjectId) (kind : SequenceKind)
    (ownedBy : Option (ObjectId × String)) (entry : Sigma fun _ : ObjectId => RelationOverlay) :
    List (ObjectId × String) :=
  match entry.2 with
  | .present relation => (relation.columns.filter
      (s.defaultDependsOnSequence sequence kind ownedBy entry.1)).map ((entry.1, ·.name))
  | .dropped => []

theorem mem_columnsToClear_iff (hs : s.DistinctColumns) (sequence : ObjectId)
    (kind : SequenceKind) (ownedBy : Option (ObjectId × String)) {id : ObjectId}
    {relation : RelationState} (h : s.relations.lookup id = some (.present relation))
    {column : Column} (hcolumn : column ∈ relation.columns) :
    (id, column.name) ∈ s.relations.entries.flatMap (s.columnsOfEntry sequence kind ownedBy) ↔
      s.defaultDependsOnSequence sequence kind ownedBy id column = true := by
  constructor
  · intro hmem
    obtain ⟨⟨id', overlay⟩, hentry, hkey⟩ := List.mem_flatMap.mp hmem
    have hlookup : s.relations.lookup id' = some overlay := AList.mem_lookup_iff.mpr hentry
    cases overlay with
    | dropped => simp [columnsOfEntry] at hkey
    | present relation' =>
      obtain ⟨column', hmem', heq⟩ := List.mem_map.mp hkey
      obtain ⟨rfl, hname⟩ := Prod.ext_iff.mp heq
      obtain ⟨hcolumn', hdepends⟩ := List.mem_filter.mp hmem'
      rw [h] at hlookup
      cases hlookup
      have hsame : column' = column := by
        exact List.inj_on_of_nodup_map (hs _ _ h) hcolumn' hcolumn hname
      rwa [hsame] at hdepends
  · intro hdepends
    have hentry : (⟨id, .present relation⟩ : Sigma fun _ : ObjectId => RelationOverlay) ∈
        s.relations.entries := AList.mem_lookup_iff.mp h
    refine List.mem_flatMap.mpr ⟨_, hentry, ?_⟩
    exact List.mem_map.mpr ⟨column, List.mem_filter.mpr ⟨hcolumn, hdepends⟩, rfl⟩

/-- A cascading drop of one sequence clears the defaults that its test picks. -/
theorem clearSequenceDefaultsOnCascade_lookup (hs : s.DistinctColumns) (sequence : ObjectId)
    (kind : SequenceKind) (ownedBy : Option (ObjectId × String)) {id : ObjectId}
    {relation : RelationState} (h : s.relations.lookup id = some (.present relation)) :
    (s.clearSequenceDefaultsOnCascade sequence kind ownedBy).relations.lookup id =
      some (.present { relation with columns := relation.columns.map fun column =>
        if s.defaultDependsOnSequence sequence kind ownedBy id column = true then
          column.withoutDefault
        else column }) := by
  have hfold : s.clearSequenceDefaultsOnCascade sequence kind ownedBy =
      (s.relations.entries.flatMap (s.columnsOfEntry sequence kind ownedBy)).foldl
        AnalysisState.clearColumnDefault s := rfl
  rw [hfold, foldl_clearColumnDefault_lookup _ hs h]
  have hmap : relation.columns.map (clearing
        (s.relations.entries.flatMap (s.columnsOfEntry sequence kind ownedBy)) id) =
      relation.columns.map fun column =>
        if s.defaultDependsOnSequence sequence kind ownedBy id column = true then
          column.withoutDefault
        else column := by
    refine List.map_congr_left fun column hcolumn => ?_
    unfold clearing
    simp only [List.contains_iff_mem, mem_columnsToClear_iff hs sequence kind ownedBy h hcolumn]
  rw [hmap]

end Clearing

end AnalysisState

namespace DropSequence

variable {drop : DropSequence} {s t : AnalysisState} {r : ObjectRef}

theorem isCheck_checkMember (r : ObjectRef) : IsCheck (checkMember r) := by
  refine IsCheck.bind IsCheck.get fun s => ?_
  split
  · exact IsCheck.throw _
  · exact IsCheck.pure _

theorem isCheck_checkTarget (r : ObjectRef) : IsCheck (drop.checkTarget r) := by
  refine IsCheck.bind IsCheck.get fun s => ?_
  split
  · exact IsCheck.pure _
  · exact isCheck_refuseIf _ _
  · exact isCheck_refuseIf _ _
  · exact isCheck_leaveUnresolved _

theorem declines_checkMember (r : ObjectRef) : Declines (checkMember r) := by
  refine Declines.bind declines_get fun s => ?_
  split
  · rename_i result hresult
    refine Throws.throw ?_
    obtain ⟨extension, -, rfl⟩ := Option.map_eq_some_iff.mp hresult
    simp [MutationResult.rejected]
  · exact declines_pure _

theorem declines_checkTarget (r : ObjectRef) : Declines (drop.checkTarget r) := by
  refine Declines.bind declines_get fun s => ?_
  split
  · exact declines_pure _
  · exact declines_refuseIf _ _
  · exact declines_refuseIf _ _
  · exact declines_leaveUnresolved _

theorem declines_targets : Declines drop.targets := by
  refine Declines.bind (Throws.forM _ declines_checkMember) fun _ =>
    Declines.bind (Throws.forM _ declines_checkTarget) fun _ =>
      Declines.bind declines_get fun s => ?_
  exact Throws.ite (fun _ => Declines.bind (Throws.throw (by simp)) fun _ =>
      Declines.bind (declines_leaveUnresolvedIf _ _) fun _ => declines_pure _)
    fun _ => Declines.bind (declines_leaveUnresolvedIf _ _) fun _ => declines_pure _

theorem declines_checkDependents (r : ObjectRef) : Declines (drop.checkDependents r) := by
  refine Declines.bind declines_get fun s => ?_
  split
  · exact declines_pure _
  · exact Declines.bind (declines_refuseIf _ _) fun _ => declines_refuseIf _ _

theorem declines_command : Declines drop.command :=
  Declines.bind declines_targets fun _ =>
    Declines.bind (Throws.forM _ declines_checkDependents) fun _ =>
      Declines.bind (declines_modify _) fun _ => declines_pure _

/-- The checks of a single listed sequence leave the state alone and find it present. -/
theorem targets_ok {present : List ObjectRef} (hids : drop.ids = [r])
    (h : drop.targets.run.run s = (.ok present, t)) :
    t = s ∧ present = [r] ∧ s.sequenceIsPresent r.id = true := by
  unfold targets at h
  obtain ⟨_, u, hmember, hrest⟩ := exists_run_of_bind h
  have hu : u = s := IsCheck.forM _ isCheck_checkMember s _ u hmember
  obtain ⟨_, v, htarget, hlast⟩ := exists_run_of_bind hrest
  have hv : v = u := IsCheck.forM _ isCheck_checkTarget u _ v htarget
  subst hv hu
  obtain ⟨_, w, hget, hpick⟩ := exists_run_of_bind hlast
  cases hget
  rw [hids] at hpick
  by_cases hpresent : v.sequenceIsPresent r.id = true
  · have hfilter : [r].filter (fun r => v.sequenceIsPresent r.id) = [r] := by simp [hpresent]
    rw [hfilter] at hpick
    obtain ⟨_, w, hcover, hpure⟩ := exists_run_of_bind hpick
    obtain ⟨rfl, -⟩ := leaveUnresolvedIf_ok hcover
    cases hpure
    exact ⟨rfl, rfl, hpresent⟩
  · have hfilter : [r].filter (fun r => v.sequenceIsPresent r.id) = [] := by simp [hpresent]
    rw [hfilter] at hpick
    cases hpick

/-- Something still uses the sequence, as far as RESTRICT looks. -/
def StillUsed (s : AnalysisState) (sequence : SequenceState) (id : ObjectId) : Prop :=
  sequence.kind = .serialLike ∨ s.hasDefaultDependencies id = true

instance (s : AnalysisState) (sequence : SequenceState) (id : ObjectId) :
    Decidable (StillUsed s sequence id) :=
  inferInstanceAs (Decidable (_ ∨ _))

theorem checkDependents_ok {sequence : SequenceState}
    (hsequence : s.presentSequence r.id = some sequence)
    (h : (drop.checkDependents r).run.run s = (.ok (), t)) :
    t = s ∧ sequence.kind ≠ .identity ∧ (StillUsed s sequence r.id → drop.cascade = true) := by
  unfold checkDependents at h
  obtain ⟨_, u, hget, hrest⟩ := exists_run_of_bind h
  cases hget
  simp only [hsequence] at hrest
  obtain ⟨_, u, hidentity, hlast⟩ := exists_run_of_bind hrest
  obtain ⟨rfl, hkind⟩ := refuseIf_ok hidentity
  obtain ⟨rfl, huse⟩ := refuseIf_ok hlast
  refine ⟨rfl, hkind, fun hused => ?_⟩
  by_contra hcascade
  exact huse ⟨hused, by simpa using hcascade⟩

/-- Without CASCADE the sequence is refused exactly if something still uses it. -/
theorem checkDependents_restrict {sequence : SequenceState}
    (hsequence : s.presentSequence r.id = some sequence) (hkind : sequence.kind ≠ .identity) :
    (DropSequence.checkDependents { drop with cascade := false } r).run.run s =
      if StillUsed s sequence r.id then
        (.error (.rejected ("sequence '" ++ r.display ++ "' still has dependent defaults")), s)
      else (.ok (), s) := by
  have hget : (get : Statement AnalysisState).run.run s = (.ok s, s) := rfl
  have hidentity : (refuseIf (sequence.kind = .identity)
      ("cannot drop identity sequence '" ++ r.display ++ "' independently")).run.run s =
        (.ok (), s) := by
    rw [refuseIf, if_neg hkind]
    rfl
  unfold checkDependents
  rw [run_bind_of_ok hget]
  simp only [hsequence]
  rw [run_bind_of_ok hidentity]
  by_cases hused : StillUsed s sequence r.id
  · rw [refuseIf, if_pos ⟨hused, rfl⟩, if_pos hused]
    rfl
  · rw [refuseIf, if_neg fun h => hused h.1, if_neg hused]
    rfl

theorem exists_presentSequence {id : ObjectId} (h : s.sequenceIsPresent id = true) :
    ∃ sequence, s.presentSequence id = some sequence := by
  rcases hlookup : s.sequences.lookup id with _ | sequence | _
  · simp [AnalysisState.sequenceIsPresent, hlookup] at h
  · exact ⟨sequence, by simp [AnalysisState.presentSequence, hlookup]⟩
  · simp [AnalysisState.sequenceIsPresent, hlookup, Overlay.isPresent] at h

theorem command_ok (hids : drop.ids = [r]) (h : s.applyDropSequence drop = (.applied, t)) :
    ∃ sequence, s.presentSequence r.id = some sequence ∧ sequence.kind ≠ .identity ∧
      drop.targets.run.run s = (.ok [r], s) ∧ t = drop.write [r.id] s := by
  have hrun := ran_of_outcome declines_command h
  unfold command at hrun
  obtain ⟨present, u, htargets, hrest⟩ := exists_run_of_bind hrun
  obtain ⟨rfl, rfl, hpresent⟩ := targets_ok hids htargets
  obtain ⟨_, v, hdependents, hlast⟩ := exists_run_of_bind hrest
  have hcheck : (drop.checkDependents r).run.run u = (.ok (), v) := by
    obtain ⟨_, w, hcheck, hnil⟩ := exists_run_of_bind (hdependents :
      (drop.checkDependents r >>= fun _ => [].forM drop.checkDependents).run.run u = _)
    cases hnil
    exact hcheck
  obtain ⟨sequence, hsequence⟩ := exists_presentSequence hpresent
  obtain ⟨rfl, hkind, -⟩ := checkDependents_ok hsequence hcheck
  cases hlast
  exact ⟨sequence, hsequence, hkind, htargets, rfl⟩

/-- With RESTRICT the same drop is refused exactly if something still uses the sequence. -/
theorem restrict_rejected_iff (hids : drop.ids = [r])
    (h : s.applyDropSequence drop = (.applied, t)) {sequence : SequenceState}
    (hsequence : s.presentSequence r.id = some sequence) :
    (∃ reason u, s.applyDropSequence { drop with cascade := false } = (.rejected reason, u)) ↔
      StillUsed s sequence r.id := by
  obtain ⟨_, hpresent, hkind, htargets, -⟩ := command_ok hids h
  cases hsequence.symm.trans hpresent
  have hcheck := @checkDependents_restrict drop _ _ _ hsequence hkind
  have hrun : (DropSequence.command { drop with cascade := false }).run.run s =
      (([r].forM (DropSequence.checkDependents { drop with cascade := false }) >>= fun _ =>
        modify (DropSequence.write { drop with cascade := false } [r.id]) >>= fun _ =>
          pure .applied : Statement MutationResult)).run.run s :=
    run_bind_of_ok htargets _
  unfold AnalysisState.applyDropSequence outcome
  rw [hrun]
  by_cases hused : StillUsed s sequence r.id
  · rw [if_pos hused] at hcheck
    rw [run_bind]
    have hloop : ([r].forM (DropSequence.checkDependents { drop with cascade := false }) :
        Statement Unit).run.run s = _ := (run_bind _ _ s).trans (by rw [hcheck])
    rw [hloop]
    simp [hused]
  · rw [if_neg hused] at hcheck
    rw [run_bind]
    have hloop : ([r].forM (DropSequence.checkDependents { drop with cascade := false }) :
        Statement Unit).run.run s = _ := (run_bind _ _ s).trans (by rw [hcheck])
    rw [hloop]
    constructor
    · rintro ⟨reason, u, hrejected⟩
      cases hrejected
    · exact fun h => absurd h hused

theorem write_relations (id : ObjectId) {sequence : SequenceState} (hcascade : drop.cascade = true)
    (hsequence : s.presentSequence id = some sequence) :
    (drop.write [id] s).relations =
      (s.clearSequenceDefaultsOnCascade id sequence.kind sequence.ownedBy).relations := by
  have hclear : clearDefaults [id] s =
      s.clearSequenceDefaultsOnCascade id sequence.kind sequence.ownedBy := by
    simp [clearDefaults, hsequence]
  unfold write
  simp only [hcascade, if_true, hclear, List.foldl_cons, List.foldl_nil]
  exact (AnalysisState.pushUndo_relations _ _).trans (AnalysisState.pushUndo_relations _ _)

theorem applied_relations (hids : drop.ids = [r]) (hcascade : drop.cascade = true)
    (h : s.applyDropSequence drop = (.applied, t)) {sequence : SequenceState}
    (hsequence : s.presentSequence r.id = some sequence) :
    t.relations =
      (s.clearSequenceDefaultsOnCascade r.id sequence.kind sequence.ownedBy).relations := by
  obtain ⟨_, -, -, -, rfl⟩ := command_ok hids h
  exact write_relations r.id hcascade hsequence

end DropSequence

namespace AnalysisState

/-- Of every column of a relation that the state holds. -/
def EveryColumn (s : AnalysisState) (P : ObjectId → Column → Prop) : Prop :=
  ∀ id relation, s.relations.lookup id = some (.present relation) →
    ∀ column ∈ relation.columns, P id column

/-- A recorded dependency of the column's default, and one on this sequence. -/
def Recorded (s : AnalysisState) (id : ObjectId) (column : Column) : Prop :=
  (id, column.name) ∈ s.defaultDependencyColumns none

def RecordedOn (s : AnalysisState) (sequence id : ObjectId) (column : Column) : Prop :=
  (id, column.name) ∈ s.defaultDependencyColumns (some sequence)

theorem RecordedOn.recorded {s : AnalysisState} {sequence id : ObjectId} {column : Column}
    (h : s.RecordedOn sequence id column) : s.Recorded id column := by
  obtain ⟨edge, hedge, hkey⟩ := List.mem_filterMap.mp h
  refine List.mem_filterMap.mpr ⟨edge, hedge, ?_⟩
  split at hkey
  · split at hkey
    · exact hkey
    · cases hkey
  · cases hkey

end AnalysisState

/-- The column for which a serial column's sequence was made, or that took it over. -/
def SequenceState.ServesColumn (sequence : SequenceState) (id : ObjectId) (column : Column) :
    Prop :=
  sequence.kind = .serialLike ∧ sequence.ownedBy = some (id, column.name)

section Uses

variable (reads : String → Option ExprIr) (s : AnalysisState) (sequence : ObjectId)

/-- An expression that the default is, or that its catalog text stands for, calls a sequence
function on the sequence. -/
def DefaultCalls (column : Column) : Prop :=
  ∃ e, column.DefaultIs reads e ∧ s.CallsSequence sequence e

def ColumnUses (id : ObjectId) (column : Column) : Prop :=
  s.RecordedOn sequence id column ∨ DefaultCalls reads s sequence column

def SomeColumnUses : Prop :=
  ∃ id relation, s.relations.lookup id = some (.present relation) ∧
    ∃ column ∈ relation.columns, ColumnUses reads s sequence id column

/-- The columns that use the sequence lose their defaults, and the others are as they were. -/
def ClearsUses (t : AnalysisState) : Prop :=
  ∀ id relation, s.relations.lookup id = some (.present relation) →
    ∃ columns, t.relations.lookup id = some (.present { relation with columns }) ∧
      List.Forall₂ (fun column column' =>
        (ColumnUses reads s sequence id column → column' = column.withoutDefault) ∧
          (¬ColumnUses reads s sequence id column → column' = column)) relation.columns columns

/-- What the engine goes by where it looks for the uses of a sequence leads to them. -/
structure SignsOfUse (state : SequenceState) : Prop where
  /-- A text that is spelled like the sequence stands where a sequence function is called. -/
  spelled : s.EveryColumn fun id column => ¬s.Recorded id column → column.Spells sequence →
    DefaultCalls reads s sequence column
  /-- A call names the sequence as it is spelled, unless the sequence serves the column. -/
  calls : s.EveryColumn fun id column => ¬s.Recorded id column →
    DefaultCalls reads s sequence column →
      column.Spells sequence ∨ state.ServesColumn id column
  /-- Nor does a default call this sequence where another one is recorded. -/
  recorded : s.EveryColumn fun id column => s.Recorded id column →
    ¬s.RecordedOn sequence id column → DefaultCalls reads s sequence column →
      state.ServesColumn id column
  /-- The column that the sequence serves still has a default that uses it. -/
  serves : s.EveryColumn fun id column => column.HasDefault → state.ServesColumn id column →
    ColumnUses reads s sequence id column
  /-- A sequence of a serial column, and one with a recorded dependency, is used. -/
  used : DropSequence.StillUsed s state sequence → SomeColumnUses reads s sequence
  /-- A sequence that a default uses is one of these. -/
  seen : SomeColumnUses reads s sequence → DropSequence.StillUsed s state sequence

end Uses

section Exactly

variable {reads : String → Option ExprIr} {s t : AnalysisState} {sequence : ObjectId}
  {state : SequenceState}

theorem DefaultCalls.hasDefault {column : Column}
    (h : DefaultCalls reads s sequence column) : column.HasDefault := by
  obtain ⟨e, hdefault | ⟨text, htext, -⟩, -⟩ := h
  · exact Or.inl (by simp [hdefault])
  · exact Or.inr (by simp [htext])

theorem Column.Spells.hasDefault {column : Column} (h : column.Spells sequence) :
    column.HasDefault := by
  rcases h with hdefault | htext
  · left
    cases hnone : column.default <;> simp_all
  · right
    cases hnone : column.defaultExprText <;> simp_all

theorem defaultDependsOnSequence_iff (id : ObjectId) (column : Column) :
    s.defaultDependsOnSequence sequence state.kind state.ownedBy id column = true ↔
      state.ServesColumn id column ∨ s.RecordedOn sequence id column ∨
        ¬s.Recorded id column ∧ column.Spells sequence := by
  simp [AnalysisState.defaultDependsOnSequence, SequenceState.ServesColumn,
    AnalysisState.RecordedOn, AnalysisState.Recorded, Column.Spells, or_assoc]

/-- Column by column, the engine's test against the use. -/
theorem clearsUses_iff (hs : s.DistinctColumns)
    (ht : t.relations =
      (s.clearSequenceDefaultsOnCascade sequence state.kind state.ownedBy).relations) :
    ClearsUses reads s sequence t ↔ s.EveryColumn fun id column => column.HasDefault →
      (s.defaultDependsOnSequence sequence state.kind state.ownedBy id column = true ↔
        ColumnUses reads s sequence id column) := by
  constructor
  · intro h id relation hlookup column hcolumn hdefault
    obtain ⟨columns, hafter, hcolumns⟩ := h id relation hlookup
    rw [ht, AnalysisState.clearSequenceDefaultsOnCascade_lookup hs _ _ _ hlookup] at hafter
    have hmap : (relation.columns.map fun column =>
        if s.defaultDependsOnSequence sequence state.kind state.ownedBy id column = true then
          column.withoutDefault
        else column) = columns :=
      congrArg RelationState.columns (Overlay.present.inj (Option.some.inj hafter))
    rw [← hmap, List.forall₂_map_right_iff, List.forall₂_same] at hcolumns
    obtain ⟨huses, hidle⟩ := hcolumns column hcolumn
    constructor
    · intro hdepends
      by_contra hno
      have hsame := hidle hno
      rw [if_pos hdepends] at hsame
      exact Column.withoutDefault_ne_self hdefault hsame
    · intro hyes
      by_contra hdepends
      have hcleared := huses hyes
      rw [if_neg hdepends] at hcleared
      exact Column.withoutDefault_ne_self hdefault hcleared.symm
  · intro h id relation hlookup
    refine ⟨_, by rw [ht, AnalysisState.clearSequenceDefaultsOnCascade_lookup hs _ _ _ hlookup], ?_⟩
    rw [List.forall₂_map_right_iff, List.forall₂_same]
    intro column hcolumn
    by_cases hdefault : column.HasDefault
    · have hiff := h id relation hlookup column hcolumn hdefault
      exact ⟨fun hyes => if_pos (hiff.mpr hyes), fun hno => if_neg fun hd => hno (hiff.mp hd)⟩
    · have hsame := Column.withoutDefault_eq_self hdefault
      simp [hsame]

theorem everyColumn_iff_signs :
    (s.EveryColumn fun id column => column.HasDefault →
      (s.defaultDependsOnSequence sequence state.kind state.ownedBy id column = true ↔
        ColumnUses reads s sequence id column)) ↔
    (s.EveryColumn fun id column => ¬s.Recorded id column → column.Spells sequence →
        DefaultCalls reads s sequence column) ∧
      (s.EveryColumn fun id column => ¬s.Recorded id column →
        DefaultCalls reads s sequence column →
          column.Spells sequence ∨ state.ServesColumn id column) ∧
      (s.EveryColumn fun id column => s.Recorded id column →
        ¬s.RecordedOn sequence id column → DefaultCalls reads s sequence column →
          state.ServesColumn id column) ∧
      s.EveryColumn fun id column => column.HasDefault → state.ServesColumn id column →
        ColumnUses reads s sequence id column := by
  simp only [defaultDependsOnSequence_iff]
  constructor
  · intro h
    refine ⟨fun id relation hlookup column hcolumn hno hspells => ?_,
      fun id relation hlookup column hcolumn hno hcalls => ?_,
      fun id relation hlookup column hcolumn _ hon hcalls => ?_,
      fun id relation hlookup column hcolumn hdefault hserves =>
        (h id relation hlookup column hcolumn hdefault).mp (Or.inl hserves)⟩
    · have hiff := h id relation hlookup column hcolumn hspells.hasDefault
      rcases hiff.mp (Or.inr (Or.inr ⟨hno, hspells⟩)) with hon | hcalls
      · exact absurd hon.recorded hno
      · exact hcalls
    · have hiff := h id relation hlookup column hcolumn hcalls.hasDefault
      rcases hiff.mpr (Or.inr hcalls) with hserves | hon | ⟨-, hspells⟩
      · exact Or.inr hserves
      · exact absurd hon.recorded hno
      · exact Or.inl hspells
    · have hiff := h id relation hlookup column hcolumn hcalls.hasDefault
      rcases hiff.mpr (Or.inr hcalls) with hserves | hon' | ⟨hno, -⟩
      · exact hserves
      · exact absurd hon' hon
      · contradiction
  · rintro ⟨hspelled, hcalls, hrecorded, hserves⟩ id relation hlookup column hcolumn hdefault
    constructor
    · rintro (hserved | hon | ⟨hno, hspells⟩)
      · exact hserves id relation hlookup column hcolumn hdefault hserved
      · exact Or.inl hon
      · exact Or.inr (hspelled id relation hlookup column hcolumn hno hspells)
    · rintro (hon | hcall)
      · exact Or.inr (Or.inl hon)
      · by_cases hrec : s.Recorded id column
        · by_cases hon : s.RecordedOn sequence id column
          · exact Or.inr (Or.inl hon)
          · exact Or.inl (hrecorded id relation hlookup column hcolumn hrec hon hcall)
        · rcases hcalls id relation hlookup column hcolumn hrec hcall with hspells | hserved
          · exact Or.inr (Or.inr ⟨hrec, hspells⟩)
          · exact Or.inl hserved

/-- A cascading drop of a sequence clears the defaults that use it and no others, and with
RESTRICT the drop is refused where there is such a default, exactly if the engine's signs of
use lead to the uses. -/
theorem dropSequence_clears_uses_iff (reads : String → Option ExprIr) {drop : DropSequence}
    {r : ObjectRef} (hs : s.DistinctColumns) (hids : drop.ids = [r])
    (hcascade : drop.cascade = true) (h : s.applyDropSequence drop = (.applied, t))
    (hstate : s.presentSequence r.id = some state) :
    (ClearsUses reads s r.id t ∧
      ((∃ reason u, s.applyDropSequence { drop with cascade := false } = (.rejected reason, u)) ↔
        SomeColumnUses reads s r.id)) ↔ SignsOfUse reads s r.id state := by
  rw [clearsUses_iff hs (DropSequence.applied_relations hids hcascade h hstate),
    everyColumn_iff_signs, DropSequence.restrict_rejected_iff hids h hstate]
  constructor
  · rintro ⟨⟨hspelled, hcalls, hrecorded, hserves⟩, hused⟩
    exact ⟨hspelled, hcalls, hrecorded, hserves, hused.mp, hused.mpr⟩
  · intro hsigns
    exact ⟨⟨hsigns.spelled, hsigns.calls, hsigns.recorded, hsigns.serves⟩,
      hsigns.used, hsigns.seen⟩

end Exactly

section Tickets

def tickets : ObjectId := ⟨"public", "tickets"⟩

def ticketsIdSeq : ObjectId := ⟨"public", "tickets_id_seq"⟩

def ticketsSequence : SequenceState :=
  { id := ticketsIdSeq, owner := ⟨"", "postgres"⟩, ownedBy := some (tickets, "id"),
    kind := .serialLike, parameters := {}, runtime := .fresh 1, runtimeExact := true,
    generation := 0 }

/-- A table with a serial column, and a text column with this default. -/
def ticketColumns (label : String) : List Column :=
  [{ Column.migrationCreated "id" (some "integer") true (some (sequenceNextvalDefault ticketsIdSeq))
      with defaultExprText := some "nextval('public.tickets_id_seq'::regclass)" },
    .migrationCreated "label" (some "text") true (some (.literal label))]

def ticketsState (label : String) : AnalysisState :=
  { relations := AList.singleton tickets (.present
      { RelationState.new tickets ⟨"", "postgres"⟩ 0 none .table .permanent 0 with
        columns := ticketColumns label })
    sequences := AList.singleton ticketsIdSeq (.present ticketsSequence) }

def dropTickets : DropSequence :=
  { ids := [⟨ticketsIdSeq, false⟩], ifExists := false, cascade := true }

variable {label : String}

theorem ticketsState_relation {id : ObjectId} {relation : RelationState}
    (h : (ticketsState label).relations.lookup id = some (.present relation)) :
    id = tickets ∧ relation.columns = ticketColumns label := by
  by_cases hid : id = tickets
  · rw [hid] at h
    have hlookup : (ticketsState label).relations.lookup tickets = some (.present
        { RelationState.new tickets ⟨"", "postgres"⟩ 0 none .table .permanent 0 with
          columns := ticketColumns label }) := rfl
    cases hlookup.symm.trans h
    exact ⟨hid, rfl⟩
  · have hnone : (ticketsState label).relations.lookup id = none :=
      AList.lookup_eq_none.mpr fun hmem => hid (List.mem_singleton.mp hmem)
    cases hnone.symm.trans h

theorem ticketsState_distinct : (ticketsState label).DistinctColumns := by
  intro id relation h
  rw [(ticketsState_relation h).2]
  exact (by decide : ["id", "label"].Nodup)

theorem ticketsState_not_recorded (id : ObjectId) (column : Column) :
    ¬(ticketsState label).Recorded id column := List.not_mem_nil

theorem not_calls_literal (s : AnalysisState) (sequence : ObjectId) (raw : String) :
    ¬s.CallsSequence sequence (.literal raw) := by
  rintro ⟨name, arg, args, raw', hwithin, -⟩
  cases hwithin

/-- A text that happens to be the name of the sequence is lost with it. -/
theorem tickets_label_cleared :
    (ticketsState "'tickets_id_seq'").DistinctColumns ∧
    ((ticketsState "'tickets_id_seq'").applyDropSequence dropTickets).1 = .applied ∧
    ¬ClearsUses (fun _ => none) (ticketsState "'tickets_id_seq'") ticketsIdSeq
      ((ticketsState "'tickets_id_seq'").applyDropSequence dropTickets).2 := by
  have happlied :
      ((ticketsState "'tickets_id_seq'").applyDropSequence dropTickets).1 = .applied := by
    decide +kernel
  have hstate : (ticketsState "'tickets_id_seq'").presentSequence ticketsIdSeq =
      some ticketsSequence := rfl
  refine ⟨ticketsState_distinct, happlied, fun h => ?_⟩
  have hrelations := DropSequence.applied_relations rfl rfl (Prod.ext happlied rfl) hstate
  have hiff := (clearsUses_iff ticketsState_distinct hrelations).mp h tickets _ rfl
    (.migrationCreated "label" (some "text") true (some (.literal "'tickets_id_seq'")))
    (by simp [ticketColumns]) (Or.inl rfl)
  rcases hiff.mp (by decide +kernel) with hrecorded | ⟨e, hdefault | ⟨text, htext, -⟩, hcalls⟩
  · exact ticketsState_not_recorded _ _ hrecorded.recorded
  · cases hdefault
    exact not_calls_literal _ _ _ hcalls
  · cases htext

/-- With another text in the column the drop takes the one default that uses the sequence. -/
theorem tickets_label_kept :
    ClearsUses (fun _ => none) (ticketsState "'new'") ticketsIdSeq
      ((ticketsState "'new'").applyDropSequence dropTickets).2 ∧
    ((∃ reason u, (ticketsState "'new'").applyDropSequence { dropTickets with cascade := false } =
        (.rejected reason, u)) ↔
      SomeColumnUses (fun _ => none) (ticketsState "'new'") ticketsIdSeq) := by
  have happlied : ((ticketsState "'new'").applyDropSequence dropTickets).1 = .applied := by
    decide +kernel
  have hstate : (ticketsState "'new'").presentSequence ticketsIdSeq = some ticketsSequence := rfl
  refine (dropSequence_clears_uses_iff (fun _ => none) (r := ⟨ticketsIdSeq, false⟩)
    ticketsState_distinct rfl rfl (Prod.ext happlied rfl) hstate).mpr ?_
  have hid : DefaultCalls (fun _ => none) (ticketsState "'new'") ticketsIdSeq
      { Column.migrationCreated "id" (some "integer") true
          (some (sequenceNextvalDefault ticketsIdSeq)) with
        defaultExprText := some "nextval('public.tickets_id_seq'::regclass)" } :=
    ⟨_, Or.inl rfl, "nextval", .literal _, [], _, .refl _, by decide +kernel, rfl, Or.inl rfl⟩
  have huse : SomeColumnUses (fun _ => none) (ticketsState "'new'") ticketsIdSeq :=
    ⟨tickets, _, rfl, _, List.mem_cons_self, Or.inr hid⟩
  constructor
  · intro id relation hlookup column hcolumn hno hspells
    obtain ⟨rfl, hcolumns⟩ := ticketsState_relation hlookup
    rw [hcolumns] at hcolumn
    rcases List.mem_cons.mp hcolumn with rfl | hlabel
    · exact hid
    · obtain rfl := List.mem_singleton.mp hlabel
      have hspelled : expressionReferencesSequence ticketsIdSeq (.literal "'new'") = false := by
        decide +kernel
      rcases hspells with hdefault | htext
      · exact absurd hdefault (by simpa [Column.migrationCreated] using hspelled)
      · cases htext
  · intro id relation hlookup column hcolumn _ hcalls
    obtain ⟨rfl, hcolumns⟩ := ticketsState_relation hlookup
    rw [hcolumns] at hcolumn
    rcases List.mem_cons.mp hcolumn with rfl | hlabel
    · exact Or.inr ⟨rfl, rfl⟩
    · obtain rfl := List.mem_singleton.mp hlabel
      obtain ⟨e, hdefault | ⟨text, htext, -⟩, hcall⟩ := hcalls
      · cases hdefault
        exact absurd hcall (not_calls_literal _ _ _)
      · cases htext
  · intro id relation _ column _ hrecorded
    exact absurd hrecorded (ticketsState_not_recorded id column)
  · intro id relation hlookup column hcolumn _ hserves
    obtain ⟨rfl, hcolumns⟩ := ticketsState_relation hlookup
    rw [hcolumns] at hcolumn
    rcases List.mem_cons.mp hcolumn with rfl | hlabel
    · exact Or.inr hid
    · obtain rfl := List.mem_singleton.mp hlabel
      exact absurd hserves.2 (by decide)
  · exact fun _ => huse
  · exact fun _ => Or.inl rfl

end Tickets

end SafeMigrate
