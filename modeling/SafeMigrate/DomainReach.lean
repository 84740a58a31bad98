import SafeMigrate.DomainContainers
import SafeMigrate.VisitedSearch

/-! The columns that store a domain inside other values, as reachability in the graph
of types: arrays, composite fields, ranges and multiranges, and bases of domains. -/

namespace SafeMigrate

open VisitedSearch

section Brackets

theorem dropBrackets_dropBrackets (reversed : List Char) :
    dropBrackets (dropBrackets reversed) = dropBrackets reversed := by
  induction reversed using dropBrackets.induct with
  | case1 rest ih => exact ih
  | case2 reversed hbare =>
    have hsame : dropBrackets reversed = reversed := by
      rw [dropBrackets]
      exact hbare
    rw [hsame, hsame]

theorem length_dropBrackets_le (reversed : List Char) :
    (dropBrackets reversed).length ≤ reversed.length := by
  induction reversed using dropBrackets.induct with
  | case1 rest ih =>
    have hlength : (']' :: '[' :: rest).length = rest.length + 2 := rfl
    rw [dropBrackets, hlength]
    omega
  | case2 reversed hbare =>
    rw [dropBrackets]
    exact hbare

theorem dropBrackets_eq_of_length {reversed : List Char}
    (h : ¬(dropBrackets reversed).length < reversed.length) : dropBrackets reversed = reversed := by
  induction reversed using dropBrackets.induct with
  | case1 rest ih =>
    have hle := length_dropBrackets_le rest
    have hlength : (']' :: '[' :: rest).length = rest.length + 2 := rfl
    rw [dropBrackets, hlength] at h
    omega
  | case2 reversed hbare =>
    rw [dropBrackets]
    exact hbare

/-- What is no array is its own element. -/
theorem strip_of_not_array {id : ObjectId} (h : (stripArrayTypeId id).2 = false) :
    (stripArrayTypeId id).1 = id := by
  unfold stripArrayTypeId at h ⊢
  have hsame := dropBrackets_eq_of_length (of_decide_eq_false h)
  dsimp only
  rw [hsame, List.reverse_reverse, String.ofList_toList]

/-- An element is no array. -/
theorem strip_element (id : ObjectId) :
    stripArrayTypeId (stripArrayTypeId id).1 = ((stripArrayTypeId id).1, false) := by
  unfold stripArrayTypeId
  simp only [String.toList_ofList, List.reverse_reverse, dropBrackets_dropBrackets, Nat.lt_irrefl,
    decide_false]

end Brackets

namespace AnalysisState

variable (s : AnalysisState)

/-- `b` is the element, a field, the subtype or the range of `a`. -/
def ContainsType (a b : ObjectId) : Prop :=
  ((stripArrayTypeId a).2 = true ∧ b = (stripArrayTypeId a).1) ∨
    ((stripArrayTypeId a).2 = false ∧ b ∈ s.partsOf a)

/-- `b` is the base of the domain `a`. -/
def HasBase (a b : ObjectId) : Prop :=
  ∃ overlay record d, s.types.lookup a = some overlay ∧
    TypeOverlay.domain overlay = some (record, d) ∧ d.baseTypeId = some b

def TypeStep (a b : ObjectId) : Prop := s.ContainsType a b ∨ s.HasBase a b

/-- The domain is reached from the type over a container, besides bases of domains. -/
def StoresDomain (id domain : ObjectId) : Prop :=
  ∃ a b, Relation.ReflTransGen s.TypeStep id a ∧ s.ContainsType a b ∧
    Relation.ReflTransGen s.TypeStep b domain

/-- The domain, or one over it, is reached by containers alone. -/
def StoresDirectly (id domain : ObjectId) : Prop :=
  ∃ stored, Relation.TransGen s.ContainsType id stored ∧ s.OverDomain domain stored ∧
    (stripArrayTypeId stored).2 = false

/-- A column of a present relation. -/
def HasColumnOf (relation : RelationState) (id : ObjectId) : Prop :=
  (∃ key, s.relations.lookup key = some (.present relation)) ∧
    ∃ column ∈ relation.columns, column.typeId = some id

/-- `relations_using_domain` -/
def relationsUsingDomain (domain : ObjectId) : List RelationState :=
  s.relations.entries.filterMap fun entry =>
    match entry.2 with
    | .present relation =>
      if relation.columns.any fun column => column.typeId.any fun id =>
          !(stripArrayTypeId id).2 && decide ((stripArrayTypeId id).1 ∈ s.domainClosure domain) then
        some relation
      else none
    | .dropped => none

/-- The elements of the parts, which the check goes on to. -/
def elementsOf (id : ObjectId) : List ObjectId :=
  if (stripArrayTypeId id).2 then [(stripArrayTypeId id).1]
  else (s.partsOf id).map fun part => (stripArrayTypeId part).1

variable {s} {domain : ObjectId}

theorem typeStoresDomain_eq_search (domains : Finset ObjectId) (fuel : Nat) (id : ObjectId)
    (visiting : Finset ObjectId) : s.typeStoresDomain domains fuel id visiting =
      search s.elementsOf (fun id => decide (id ∈ domains)) fuel id visiting := by
  induction fuel generalizing id visiting with
  | zero => rfl
  | succ fuel ih =>
    rw [typeStoresDomain, search]
    split
    · rfl
    · by_cases harray : (stripArrayTypeId id).2 = true
      · have helements : s.elementsOf id = [(stripArrayTypeId id).1] := if_pos harray
        rw [if_pos harray, helements, List.foldl_cons, List.foldl_nil]
        simp only [strip_element, visit, ih, decide_eq_true_eq]
      · have helements : s.elementsOf id = (s.partsOf id).map fun part => (stripArrayTypeId part).1 :=
          if_neg harray
        rw [if_neg harray, helements, List.foldl_map]
        simp only [visit, ih, decide_eq_true_eq]

/-- More fuel than present types is enough. -/
theorem columnStoresDomain_iff (column : Column) : s.columnStoresDomain domain column = true ↔
    ∃ id stored, column.typeId = some id ∧ Relation.TransGen (Step s.elementsOf) id stored ∧
      s.OverDomain domain stored := by
  have hnodes (x y : ObjectId) (hy : y ∈ s.elementsOf x)
      (hmiss : decide (y ∈ s.domainClosure domain) = false)
      (hout : y ∉ (s.types.erase domain).keys.toFinset) : s.elementsOf y = [] := by
    have hbare : (stripArrayTypeId y).2 = false := by
      unfold elementsOf at hy
      split at hy
      · rw [List.mem_singleton.mp hy, strip_element]
      · obtain ⟨part, -, rfl⟩ := List.mem_map.mp hy
        rw [strip_element]
    have hother : y ≠ domain := by
      rintro rfl
      exact of_decide_eq_false hmiss (mem_domainClosure.mpr .self)
    have hnone : s.types.lookup y = none := by
      rw [← AList.lookup_erase_ne hother, AList.lookup_eq_none]
      exact fun hmem => hout (List.mem_toFinset.mpr hmem)
    unfold elementsOf partsOf
    rw [hbare, hnone]
    rfl
  have hcard : (s.types.erase domain).keys.toFinset.card < (s.types.erase domain).entries.length + 2 := by
    have hkeys := List.toFinset_card_le (s.types.erase domain).keys
    have hlength : (s.types.erase domain).keys.length = (s.types.erase domain).entries.length :=
      List.length_map _
    omega
  have hsearch (id : ObjectId) : (s.typeStoresDomain (s.domainClosure domain) (s.containerFuel domain)
      id ∅).1 = true ↔ ∃ stored, Relation.TransGen (Step s.elementsOf) id stored ∧
        s.OverDomain domain stored := by
    rw [typeStoresDomain_eq_search]
    refine (search_iff hnodes hcard id).trans (exists_congr fun stored => ?_)
    rw [decide_eq_true_iff, mem_domainClosure]
  unfold columnStoresDomain
  rw [Option.any_eq_true]
  constructor
  · rintro ⟨id, hid, hstores⟩
    obtain ⟨stored, hreach, hover⟩ := (hsearch id).mp hstores
    exact ⟨id, stored, hid, hreach, hover⟩
  · rintro ⟨id, stored, hid, hreach, hover⟩
    exact ⟨id, hid, (hsearch id).mpr ⟨stored, hreach, hover⟩⟩

theorem transGen_containsType_of_elementsOf {a b : ObjectId} (h : b ∈ s.elementsOf a) :
    Relation.TransGen s.ContainsType a b ∧ (stripArrayTypeId b).2 = false := by
  unfold elementsOf at h
  split at h
  · rename_i harray
    rw [List.mem_singleton.mp h]
    exact ⟨.single (Or.inl ⟨harray, rfl⟩), by rw [strip_element]⟩
  · rename_i hbare
    rw [Bool.not_eq_true] at hbare
    obtain ⟨part, hpart, rfl⟩ := List.mem_map.mp h
    refine ⟨?_, by rw [strip_element]⟩
    have hstep : s.ContainsType a part := Or.inr ⟨hbare, hpart⟩
    cases harray : (stripArrayTypeId part).2 with
    | true => exact .tail (.single hstep) (Or.inl ⟨harray, rfl⟩)
    | false =>
      rw [strip_of_not_array harray]
      exact .single hstep

/-- One step to a part, and from an array to its element. -/
theorem transGen_elementsOf_iff {a b : ObjectId} :
    Relation.TransGen (Step s.elementsOf) a b ↔
      Relation.TransGen s.ContainsType a b ∧ (stripArrayTypeId b).2 = false := by
  constructor
  · intro h
    induction h with
    | single hstep => exact transGen_containsType_of_elementsOf hstep
    | tail _ hstep ih =>
      obtain ⟨hmore, hbare⟩ := transGen_containsType_of_elementsOf hstep
      exact ⟨ih.1.trans hmore, hbare⟩
  · rintro ⟨h, hbare⟩
    induction h using Relation.TransGen.head_induction_on with
    | single hstep =>
      rename_i c
      refine .single ?_
      show b ∈ s.elementsOf c
      unfold elementsOf
      rcases hstep with ⟨harray, rfl⟩ | ⟨hplain, hpart⟩
      · rw [if_pos harray]
        exact List.mem_singleton_self _
      · rw [if_neg (by rw [hplain]; exact Bool.false_ne_true)]
        exact List.mem_map.mpr ⟨b, hpart, strip_of_not_array hbare⟩
    | head hstep hrest ih =>
      rename_i c d
      rcases hstep with ⟨harray, rfl⟩ | ⟨hplain, hpart⟩
      · refine .head ?_ ih
        show _ ∈ s.elementsOf c
        unfold elementsOf
        rw [if_pos harray]
        exact List.mem_singleton_self _
      · have hmember : (stripArrayTypeId d).1 ∈ s.elementsOf c := by
          unfold elementsOf
          rw [if_neg (by rw [hplain]; exact Bool.false_ne_true)]
          exact List.mem_map.mpr ⟨d, hpart, rfl⟩
        cases harray : (stripArrayTypeId d).2 with
        | false =>
          rw [strip_of_not_array harray] at hmember
          exact .head hmember ih
        | true =>
          -- an array leads to its element only, which the step has reached
          have honly : s.elementsOf d = [(stripArrayTypeId d).1] := if_pos harray
          rcases Relation.TransGen.head'_iff.mp ih with ⟨e, he, hreach⟩
          have hsame : e = (stripArrayTypeId d).1 := by
            have hmem : e ∈ s.elementsOf d := he
            rw [honly] at hmem
            exact List.mem_singleton.mp hmem
          rw [hsame] at hreach
          exact Relation.TransGen.head' hmember hreach

theorem storesDirectly_iff {id : ObjectId} : s.StoresDirectly id domain ↔
    ∃ stored, Relation.TransGen (Step s.elementsOf) id stored ∧ s.OverDomain domain stored := by
  refine exists_congr fun stored => ?_
  rw [transGen_elementsOf_iff]
  exact ⟨fun ⟨hreach, hover, hbare⟩ => ⟨⟨hreach, hbare⟩, hover⟩,
    fun ⟨⟨hreach, hbare⟩, hover⟩ => ⟨hreach, hover, hbare⟩⟩

/-- The check finds a column that reaches the domain by containers alone, if there is one. -/
theorem containerConflict_iff (shown : String) :
    (s.domainContainerValidationConflict domain shown).isSome = true ↔
      ∃ relation id, s.HasColumnOf relation id ∧ s.StoresDirectly id domain := by
  unfold domainContainerValidationConflict
  rw [List.findSome?_isSome_iff]
  constructor
  · rintro ⟨⟨key, overlay⟩, hentry, hsome⟩
    cases overlay with
    | dropped => cases hsome
    | present relation =>
      rw [Option.isSome_map, List.find?_isSome] at hsome
      obtain ⟨column, hcolumn, hstores⟩ := hsome
      obtain ⟨id, stored, hid, hreach⟩ := (columnStoresDomain_iff column).mp hstores
      exact ⟨relation, id, ⟨⟨key, AList.mem_lookup_iff.mpr hentry⟩, column, hcolumn, hid⟩,
        storesDirectly_iff.mpr ⟨stored, hreach⟩⟩
  · rintro ⟨relation, id, ⟨⟨key, hlookup⟩, column, hcolumn, hid⟩, hstores⟩
    obtain ⟨stored, hreach⟩ := storesDirectly_iff.mp hstores
    refine ⟨⟨key, .present relation⟩, AList.mem_lookup_iff.mp hlookup, ?_⟩
    rw [Option.isSome_map, List.find?_isSome]
    exact ⟨column, hcolumn, (columnStoresDomain_iff column).mpr ⟨id, stored, hid, hreach⟩⟩

theorem mem_relationsUsingDomain {relation : RelationState} :
    relation ∈ s.relationsUsingDomain domain ↔
      ∃ id, s.HasColumnOf relation id ∧ s.OverDomain domain id ∧ (stripArrayTypeId id).2 = false := by
  have hcolumn : (relation.columns.any fun column => column.typeId.any fun id =>
      !(stripArrayTypeId id).2 && decide ((stripArrayTypeId id).1 ∈ s.domainClosure domain)) = true ↔
      ∃ id, (∃ column ∈ relation.columns, column.typeId = some id) ∧ s.OverDomain domain id ∧
        (stripArrayTypeId id).2 = false := by
    simp only [List.any_eq_true, Option.any_eq_true, Bool.and_eq_true, Bool.not_eq_true',
      decide_eq_true_eq, mem_domainClosure]
    constructor
    · rintro ⟨column, hmem, id, hid, hbare, hover⟩
      rw [strip_of_not_array hbare] at hover
      exact ⟨id, ⟨column, hmem, hid⟩, hover, hbare⟩
    · rintro ⟨id, ⟨column, hmem, hid⟩, hover, hbare⟩
      rw [← strip_of_not_array hbare] at hover
      exact ⟨column, hmem, id, hid, hbare, hover⟩
  unfold relationsUsingDomain HasColumnOf
  rw [List.mem_filterMap]
  constructor
  · rintro ⟨⟨key, overlay⟩, hentry, hsome⟩
    cases overlay with
    | dropped => cases hsome
    | present found =>
      dsimp only at hsome
      split at hsome
      · rename_i huses
        cases hsome
        obtain ⟨id, hid, hover⟩ := hcolumn.mp huses
        exact ⟨id, ⟨⟨key, AList.mem_lookup_iff.mpr hentry⟩, hid⟩, hover⟩
      · cases hsome
  · rintro ⟨id, ⟨⟨key, hlookup⟩, hid⟩, hover⟩
    exact ⟨⟨key, .present relation⟩, AList.mem_lookup_iff.mp hlookup,
      if_pos (hcolumn.mpr ⟨id, hid, hover⟩)⟩

theorem reflTransGen_of_overDomain {id : ObjectId} (h : s.OverDomain domain id) :
    Relation.ReflTransGen s.TypeStep id domain := by
  induction h with
  | self => exact .refl
  | above hlookup hdomain hbase _ ih =>
    exact .head (Or.inr ⟨_, _, _, hlookup, hdomain, hbase⟩) ih

theorem StoresDirectly.storesDomain {id : ObjectId} (h : s.StoresDirectly id domain) :
    s.StoresDomain id domain := by
  obtain ⟨stored, hreach, hover, -⟩ := h
  obtain ⟨last, hbefore, hstep⟩ := Relation.TransGen.tail'_iff.mp hreach
  exact ⟨last, stored, Relation.ReflTransGen.mono (fun _ _ => Or.inl) _ _ hbefore, hstep, reflTransGen_of_overDomain hover⟩

/-- The conflict is reported exactly for the columns that store the domain, and the
relations listed are exactly those with a column of it. -/
structure ContainersExact (s : AnalysisState) (domain : ObjectId) (shown : String) : Prop where
  conflict : (s.domainContainerValidationConflict domain shown).isSome = true ↔
    ∃ relation id, s.HasColumnOf relation id ∧ s.StoresDomain id domain
  relations : ∀ relation, relation ∈ s.relationsUsingDomain domain ↔
    ∃ id, s.HasColumnOf relation id ∧ s.OverDomain domain id

/-- A column that stores the domain does not do so only through a domain over a
container, and no relation uses the domain only under a name that reads as an array's. -/
structure ContainersClear (s : AnalysisState) (domain : ObjectId) : Prop where
  containers : ∀ relation id, s.HasColumnOf relation id → s.StoresDomain id domain →
    ∃ relation' id', s.HasColumnOf relation' id' ∧ s.StoresDirectly id' domain
  names : ∀ relation id, s.HasColumnOf relation id → s.OverDomain domain id →
    ∃ id', s.HasColumnOf relation id' ∧ s.OverDomain domain id' ∧ (stripArrayTypeId id').2 = false

theorem containersExact_iff (s : AnalysisState) (domain : ObjectId) (shown : String) :
    s.ContainersExact domain shown ↔ s.ContainersClear domain := by
  constructor
  · intro h
    refine ⟨fun relation id hcolumn hstores => ?_, fun relation id hcolumn hover => ?_⟩
    · exact (containerConflict_iff shown).mp (h.conflict.mpr ⟨relation, id, hcolumn, hstores⟩)
    · exact mem_relationsUsingDomain.mp ((h.relations relation).mpr ⟨id, hcolumn, hover⟩)
  · intro h
    refine ⟨(containerConflict_iff shown).trans ⟨?_, ?_⟩, fun relation =>
      mem_relationsUsingDomain.trans ⟨?_, ?_⟩⟩
    · rintro ⟨relation, id, hcolumn, hstores⟩
      exact ⟨relation, id, hcolumn, hstores.storesDomain⟩
    · rintro ⟨relation, id, hcolumn, hstores⟩
      exact h.containers relation id hcolumn hstores
    · rintro ⟨id, hcolumn, hover, -⟩
      exact ⟨id, hcolumn, hover⟩
    · rintro ⟨id, hcolumn, hover⟩
      exact h.names relation id hcolumn hover

end AnalysisState

section Wrapped

def publicId (name : String) : ObjectId := ⟨"public", name⟩

def typeEntry (name : String) (kind : TypeKind) : Sigma fun _ : ObjectId => TypeOverlay :=
  ⟨publicId name, .present ⟨publicId name, 0, ⟨"", "app"⟩, kind⟩⟩

def domainOver (base : String) (baseId : Option ObjectId) : TypeKind :=
  .domain ⟨base, baseId, none, none, none, none, false, none, ∅⟩

/-- A domain `d`, a composite `c` with a field of it, a domain `w` over the composite,
and a table with a column of that. -/
def wrappedDomain : AnalysisState :=
  { types := [typeEntry "d" (domainOver "integer" none),
      typeEntry "c" (.composite [⟨"x", "d", some (publicId "d"), none, none⟩]),
      typeEntry "w" (domainOver "c" (some (publicId "c")))].toAList
    relations := AList.singleton (publicId "t") (.present
      { id := publicId "t", owner := ⟨"", "app"⟩, generation := 0, estimatedRows := none,
        kind := .table, persistence := .permanent, createdAtTxDepth := 0,
        columns := [{ Column.migrationCreated "a" (some "w") true none with
          typeId := some (publicId "w") }] }) }

/-- The column stores the domain, and no conflict is found. -/
theorem wrappedDomain_unfound : ¬wrappedDomain.ContainersExact (publicId "d") "public.d" := by
  intro h
  have hnone : (wrappedDomain.domainContainerValidationConflict (publicId "d") "public.d").isSome =
      false := by decide +kernel
  refine Bool.false_ne_true (hnone.symm.trans (h.conflict.mpr ?_))
  refine ⟨_, publicId "w", ⟨⟨publicId "t", rfl⟩, _, List.mem_singleton_self _, rfl⟩, publicId "c",
    publicId "d", .single (Or.inr ?_), Or.inr ?_, .refl⟩
  · exact ⟨_, publicId "w", _, rfl, rfl, rfl⟩
  · exact ⟨by decide +kernel, by decide +kernel⟩

end Wrapped

end SafeMigrate
