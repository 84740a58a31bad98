import SafeMigrate.Delegation
import SafeMigrate.PrivilegeRuns

/-! `REVOKE … CASCADE` as a walk over the delegations of a privilege: the grants
left by it, and when each of them has a grantor with the option. -/

namespace SafeMigrate

open MapRebuild MapEdits Delegation

namespace PrivilegeMatrix

/-- The delegations of each privilege. An option for all privileges is fixed: no
cascade takes it away. -/
def ledger (m : PrivilegeMatrix) : Ledger (ObjectId × Privilege) where
  grants g a := g.2 = a.2 ∧ g.1 ∈ m.sources a
  options g a := g.2 = a.2 ∧ g.1 ∈ m.optionSources a
  held a := a.2 ∈ m.options a.1
  fixed a := a.2 ≠ .all ∧ .all ∈ m.options a.1

variable {m : PrivilegeMatrix}

theorem holds_ledger (a : ObjectId × Privilege) :
    m.ledger.holds a ↔ m.hasGrantOption a.1 a.2 = true := by
  show (a.2 ≠ .all ∧ .all ∈ m.options a.1) ∨ a.2 ∈ m.options a.1 ↔ _
  unfold hasGrantOption options
  cases m.grantOptions.lookup a.1 with
  | none => simp
  | some options => simp [or_comm]

theorem recorded_iff : m.ledger.Recorded ↔ ∀ role privilege, privilege ∈ m.options role →
    (m.optionSources (role, privilege)).Nonempty := by
  constructor
  · intro h role privilege hoption
    obtain ⟨g, -, hsource⟩ := h (role, privilege) hoption
    exact ⟨g.1, hsource⟩
  · rintro h ⟨role, privilege⟩ hoption
    obtain ⟨g, hsource⟩ := h role privilege hoption
    exact ⟨(g, privilege), rfl, hsource⟩

section Steps

variable (order : PrivilegeOrder) (role grantor : ObjectId)

/-- A privilege revoked as granted by one grantor is struck from the ledger. -/
theorem ledger_revokeSource (h : m.ledger.Recorded) {privilege : Privilege}
    (hall : privilege ≠ .all) :
    (revokeSource role grantor m privilege).ledger =
      m.ledger.strike fun g a => a = (role, privilege) ∧ g.1 = grantor := by
  rw [recorded_iff] at h
  have hstruck (s : Finset ObjectId) (g a : ObjectId × Privilege) :
      (g.1 ∈ if a = (role, privilege) then s.erase grantor else s) ↔
        g.1 ∈ s ∧ ¬(a = (role, privilege) ∧ g.1 = grantor) := by
    split
    · rename_i hkey
      simp [hkey, and_comm]
    · rename_i hkey
      simp [hkey]
  unfold ledger Ledger.strike
  congr 1
  · funext g a
    rw [sources_revokeSource, hstruck, and_assoc]
  · funext g a
    rw [optionSources_revokeSource, hstruck, and_assoc]
  · funext a
    rw [mem_options_revokeSource role grantor privilege a.1 a.2 (h a.1 a.2), eq_iff_iff]
    refine and_congr_right fun hoption => ?_
    obtain ⟨source, hsource⟩ := h a.1 a.2 hoption
    by_cases hkey : a = (role, privilege)
    · simp only [hkey, true_and]
      rw [← Finset.not_nonempty_iff_eq_empty, not_not]
      constructor
      · rintro ⟨g, hleft⟩
        obtain ⟨hother, hmem⟩ := Finset.mem_erase.mp hleft
        exact ⟨(g, privilege), ⟨rfl, hmem⟩, hother⟩
      · rintro ⟨g, ⟨-, hmem⟩, hother⟩
        exact ⟨g.1, Finset.mem_erase.mpr ⟨hother, hmem⟩⟩
    · simp only [hkey, false_and, not_false_iff, true_iff]
      exact ⟨(source, a.2), ⟨rfl, hsource⟩, trivial⟩
  · funext a
    rw [mem_options_revokeSource role grantor privilege a.1 .all (h a.1 .all), eq_iff_iff]
    have hother : (a.1, Privilege.all) ≠ (role, privilege) := fun heq => hall (Prod.ext_iff.mp heq).2.symm
    simp [hother]

theorem ledger_revokeSources (l : List Privilege) (hall : .all ∉ l) {m : PrivilegeMatrix}
    (h : m.ledger.Recorded) :
    (l.foldl (revokeSource role grantor) m).ledger =
      m.ledger.strike fun g a => a.1 = role ∧ a.2 ∈ l ∧ g.1 = grantor := by
  induction l generalizing m with
  | nil => exact (Ledger.strike_none h fun _ _ hstruck => List.not_mem_nil hstruck.2.1).symm
  | cons privilege l ih =>
    have hhead : privilege ≠ .all := fun heq => hall (heq ▸ List.mem_cons_self)
    have hone := ledger_revokeSource role grantor h hhead
    rw [List.foldl_cons, ih (fun hmem => hall (List.mem_cons_of_mem _ hmem))
      (hone ▸ Ledger.recorded_strike), hone, Ledger.strike_strike]
    refine Ledger.strike_congr fun g a _ => ?_
    simp only [Prod.ext_iff, List.mem_cons]
    tauto

theorem ledger_revokeFrom {privileges : Finset Privilege} (hall : .all ∉ privileges)
    (h : m.ledger.Recorded) :
    (m.revokeFrom order role privileges (some grantor)).ledger =
      m.ledger.strike fun g a => a.1 = role ∧ a.2 ∈ privileges ∧ g.1 = grantor := by
  have hlist : .all ∉ order.list (m.expandPrivileges role privileges) := by
    rw [order.mem_list, expandPrivileges, if_neg hall]
    exact hall
  have hrevoked := ledger_revokeSources role grantor _ hlist h
  simp only [order.mem_list, expandPrivileges, if_neg hall] at hrevoked
  unfold PrivilegeMatrix.revokeFrom
  simp only [expandPrivileges, if_neg hall]
  exact hrevoked

theorem ledger_revokeAll (l : List ObjectId) {privilege : Privilege} (hall : privilege ≠ .all)
    {m : PrivilegeMatrix} (h : m.ledger.Recorded) :
    (l.foldl (fun m grantee => m.revokeFrom order grantee {privilege} (some grantor)) m).ledger =
      m.ledger.strike fun g a => a.1 ∈ l ∧ a.2 = privilege ∧ g.1 = grantor := by
  have hsingle : .all ∉ ({privilege} : Finset Privilege) := by
    rw [Finset.mem_singleton]
    exact hall.symm
  induction l generalizing m with
  | nil => exact (Ledger.strike_none h fun _ _ hstruck => List.not_mem_nil hstruck.1).symm
  | cons grantee l ih =>
    have hone := ledger_revokeFrom order grantee grantor hsingle h
    rw [List.foldl_cons, ih (hone ▸ Ledger.recorded_strike), hone, Ledger.strike_strike]
    refine Ledger.strike_congr fun g a _ => ?_
    simp only [Finset.mem_singleton, List.mem_cons]
    tauto

theorem mem_granteesOf (grantee : ObjectId) (privilege : Privilege) :
    grantee ∈ m.granteesOf grantor privilege ↔ grantor ∈ m.sources (grantee, privilege) := by
  unfold granteesOf sources
  rw [List.mem_filterMap]
  constructor
  · rintro ⟨⟨key, found⟩, hmem, hentry⟩
    dsimp only at hentry
    split at hentry
    · rename_i hsource
      cases hentry
      have hkey : key = (key.1, privilege) := Prod.ext rfl hsource.1
      rw [← hkey, mem_entries_iff.mp hmem]
      exact hsource.2
    · cases hentry
  · intro hsource
    cases hlookup : m.grantors.lookup (grantee, privilege) with
    | none => simp [hlookup] at hsource
    | some found =>
      rw [hlookup, Option.getD_some] at hsource
      exact ⟨⟨(grantee, privilege), found⟩, mem_entries_iff.mpr hlookup, by simp [hsource]⟩

end Steps

section Cost

variable (order : PrivilegeOrder) (grantor : ObjectId)

theorem card_without (found : Finset ObjectId) :
    (GrantSources.without grantor found).elim 0 Finset.card ≤ found.card := by
  unfold GrantSources.without
  split
  · exact Nat.zero_le _
  · exact Finset.card_le_card (Finset.erase_subset _ _)

theorem card_without_lt {found : Finset ObjectId} (h : grantor ∈ found) :
    (GrantSources.without grantor found).elim 0 Finset.card < found.card := by
  unfold GrantSources.without
  split
  · exact Finset.card_pos.mpr ⟨grantor, h⟩
  · exact Finset.card_erase_lt_of_mem h

theorem grantors_revokeFrom (role : ObjectId) {privilege : Privilege} (hall : privilege ≠ .all) :
    (m.revokeFrom order role {privilege} (some grantor)).grantors =
      GrantSources.withdraw m.grantors (role, privilege) grantor := by
  have hsingle : order.list {privilege} = [privilege] := by
    refine List.perm_singleton.mp ((List.perm_ext_iff_of_nodup (order.nodup _)
      (List.nodup_singleton _)).mpr fun p => ?_)
    rw [order.mem_list, Finset.mem_singleton, List.mem_singleton]
  have hnamed : .all ∉ ({privilege} : Finset Privilege) := by
    rw [Finset.mem_singleton]
    exact hall.symm
  unfold PrivilegeMatrix.revokeFrom
  dsimp only
  rw [expandPrivileges, if_neg hnamed, hsingle, List.foldl_cons, List.foldl_nil]
  unfold PrivilegeMatrix.revokeSource
  dsimp only
  split <;> rfl

/-- Each grantee loses a source. -/
theorem sourceCount_revokeAll {l : List ObjectId} (hnodup : l.Nodup) {privilege : Privilege}
    (hall : privilege ≠ .all) {m : PrivilegeMatrix}
    (hsource : ∀ grantee ∈ l, grantor ∈ m.sources (grantee, privilege)) :
    l.length + (l.foldl (fun m grantee => m.revokeFrom order grantee {privilege} (some grantor))
      m).sourceCount ≤ m.sourceCount := by
  induction l generalizing m with
  | nil => simp
  | cons grantee l ih =>
    obtain ⟨hhead, htail⟩ := List.nodup_cons.mp hnodup
    have hgrantors := grantors_revokeFrom order grantor (m := m) grantee hall
    have hrest := ih (m := m.revokeFrom order grantee {privilege} (some grantor)) htail
      fun other hmem => by
        have hother : (other, privilege) ≠ (grantee, privilege) := by
          intro heq
          have hsame : other = grantee := (Prod.ext_iff.mp heq).1
          exact hhead (hsame ▸ hmem)
        rw [sources, hgrantors, getD_withdraw, if_neg hother]
        exact hsource other (List.mem_cons_of_mem _ hmem)
    have hmem := hsource grantee List.mem_cons_self
    have hless : (m.revokeFrom order grantee {privilege} (some grantor)).sourceCount <
        m.sourceCount := by
      cases hlookup : m.grantors.lookup (grantee, privilege) with
      | none => simp [sources, hlookup] at hmem
      | some found =>
        rw [sources, hlookup, Option.getD_some] at hmem
        unfold sourceCount
        rw [hgrantors]
        exact weight_editAt_lt (card_without grantor) hlookup (card_without_lt grantor hmem)
    rw [List.foldl_cons, List.length_cons]
    omega

theorem granteesOf_nodup (m : PrivilegeMatrix) (privilege : Privilege) :
    (m.granteesOf grantor privilege).Nodup := by
  unfold granteesOf
  rw [List.Nodup, List.pairwise_filterMap]
  refine (List.nodupKeys_iff_pairwise.mp m.grantors.nodupKeys).imp fun {e e'} hkeys role he role' he' hsame => ?_
  have hentry : ∀ e : Sigma fun _ : ObjectId × Privilege => Finset ObjectId, ∀ role,
      (if e.1.2 = privilege ∧ grantor ∈ e.2 then some e.1.1 else none) = some role →
        e.1 = (role, privilege) := by
    intro e role he
    split at he
    · rename_i hsource
      cases he
      exact Prod.ext rfl hsource.1
    · cases he
  exact hkeys ((hentry e role he).trans (hsame ▸ (hentry e' role' he').symm))

end Cost

section Cascades

variable (order : PrivilegeOrder) (role grantor owner : ObjectId) (privileges : Finset Privilege)

/-- Grants and grant options have a grantor on record, and whoever is not the
owner grants by an option. -/
structure CompleteProvenance (m : PrivilegeMatrix) (owner : ObjectId) : Prop where
  granted : ∀ role privilege, privilege ∈ m.granted role → (m.sources (role, privilege)).Nonempty
  options : ∀ role privilege, privilege ∈ m.options role →
    (m.optionSources (role, privilege)).Nonempty
  grantors : ∀ g role privilege,
    g ∈ m.sources (role, privilege) ∨ g ∈ m.optionSources (role, privilege) →
      g ≠ owner → m.hasGrantOption g privilege = true

/-- No grant is left without a grantor that has the option. -/
def Grounded (m : PrivilegeMatrix) (owner : ObjectId) : Prop :=
  ∀ g role privilege, g ∈ m.sources (role, privilege) ∨ g ∈ m.optionSources (role, privilege) →
    g ≠ owner → m.hasGrantOption g privilege = true

/-- The delegations once the named role has lost what the grantor gave it. -/
def struckLedger (m : PrivilegeMatrix) : Ledger (ObjectId × Privilege) :=
  m.ledger.strike fun g a => a.1 = role ∧ a.2 ∈ m.expandPrivileges role privileges ∧ g.1 = grantor

/-- Where the cascade starts. -/
def Struck (m : PrivilegeMatrix) (a : ObjectId × Privilege) : Prop :=
  a.1 = role ∧ a.2 ∈ m.expandPrivileges role privileges

/-- No role that loses its option by the cascade, and has granted by it, has
grantors of which one is lost while another still stands. -/
def OrderlyCascade (m : PrivilegeMatrix) : Prop :=
  Orderly (m.struckLedger role grantor privileges) (m.Struck role privileges) fun a => a.1 = owner

theorem all_notMem_expand : .all ∉ m.expandPrivileges role privileges := by
  unfold expandPrivileges
  split
  · exact Finset.notMem_erase _ _
  · rename_i hall
    exact hall

theorem cascadeStep_of_option {a : ObjectId × Privilege} (h : m.hasGrantOption a.1 a.2 = true) :
    cascadeStep order m a = ([], m) := by
  rw [cascadeStep, if_pos h]

/-- Without an option, everyone granted to is looked at next. -/
theorem mem_cascadeStep {a : ObjectId × Privilege} (h : ¬m.hasGrantOption a.1 a.2 = true)
    (b : ObjectId × Privilege) : b ∈ (cascadeStep order m a).1 ↔ m.ledger.grants a b := by
  rw [cascadeStep, if_neg h]
  show b ∈ (m.granteesOf a.1 a.2).map (fun grantee => (grantee, a.2)) ↔ a.2 = b.2 ∧ a.1 ∈ m.sources b
  rw [List.mem_map]
  constructor
  · rintro ⟨grantee, hgrantee, rfl⟩
    exact ⟨rfl, (mem_granteesOf a.1 grantee a.2).mp hgrantee⟩
  · rintro ⟨hsame, hsource⟩
    have hb : (b.1, a.2) = b := Prod.ext rfl hsame
    refine ⟨b.1, (mem_granteesOf a.1 b.1 a.2).mpr ?_, hb⟩
    rw [hb]
    exact hsource

theorem ledger_cascadeStep {a : ObjectId × Privilege} (hall : a.2 ≠ .all)
    (hrecorded : m.ledger.Recorded) (h : ¬m.hasGrantOption a.1 a.2 = true) :
    (cascadeStep order m a).2.ledger =
      m.ledger.strike fun g b => g = a ∧ m.ledger.grants g b := by
  rw [cascadeStep, if_neg h]
  dsimp only
  rw [ledger_revokeAll order a.1 _ hall hrecorded]
  refine Ledger.strike_congr fun g b hgranted => ?_
  have hsame : g.2 = b.2 := hgranted.elim And.left And.left
  rw [mem_granteesOf]
  constructor
  · rintro ⟨hsource, hprivilege, hgrantor⟩
    have hga : g = a := Prod.ext hgrantor (hsame.trans hprivilege)
    have hb : (b.1, a.2) = b := Prod.ext rfl hprivilege.symm
    rw [hb, ← hgrantor] at hsource
    exact ⟨hga, hsame, hsource⟩
  · rintro ⟨rfl, -, hsource⟩
    have hb : (b.1, g.2) = b := Prod.ext rfl hsame
    rw [hb]
    exact ⟨hsource, hsame.symm, rfl⟩

/-- One round of the walk. -/
theorem cascadeStep_walked {L : Ledger (ObjectId × Privilege)} {start : ObjectId × Privilege → Prop}
    (hrecorded : L.Recorded) {visited pending : List (ObjectId × Privilege)}
    {a : ObjectId × Privilege} (hall : a.2 ≠ .all) {Q : ObjectId × Privilege → Prop}
    (hwalked : Walked L start visited (a :: pending) Q) (hunseen : a ∉ visited)
    (hledger : m.ledger = L.without Q) :
    ∃ Q', Walked L start (a :: visited) ((cascadeStep order m a).1.reverse ++ pending) Q' ∧
      (cascadeStep order m a).2.ledger = L.without Q' ∧
      (∀ x, Q' x → Q x ∨ x = a) ∧ (∀ b ∈ (cascadeStep order m a).1, b.2 = a.2) ∧
      (cascadeStep order m a).1.length + (cascadeStep order m a).2.sourceCount ≤ m.sourceCount := by
  have hholds : m.hasGrantOption a.1 a.2 = true ↔ (L.without Q).holds a := by
    rw [← holds_ledger, hledger]
  by_cases hoption : m.hasGrantOption a.1 a.2 = true
  · rw [cascadeStep_of_option order hoption]
    exact ⟨Q, hwalked.keep (hholds.mp hoption), hledger, fun _ hx => .inl hx,
      fun b hb => absurd hb List.not_mem_nil, by simp⟩
  · have hgone : ¬Q a := fun hgone => hunseen (hwalked.visited_of_gone a hgone)
    refine ⟨fun g => g = a ∨ Q g, ?_, ?_, fun _ hx => hx.symm, fun b hb => ?_, ?_⟩
    · refine hwalked.withdraw hrecorded (fun h => hoption (hholds.mpr h)) fun b => ?_
      rw [List.mem_reverse, mem_cascadeStep order hoption, hledger, Ledger.grants_without]
      exact and_iff_left hgone
    · rw [ledger_cascadeStep order hall (hledger ▸ Ledger.recorded_strike) hoption, hledger,
        Ledger.without_without]
    · exact ((mem_cascadeStep order hoption b).mp hb).1.symm
    · rw [cascadeStep, if_neg hoption, List.length_map]
      exact sourceCount_revokeAll order a.1 (granteesOf_nodup a.1 m a.2) hall fun grantee hgrantee =>
        (mem_granteesOf a.1 grantee a.2).mp hgrantee

/-- The walk ends, and who was visited and kept its option is not withdrawn. -/
theorem exists_walked_drain {L : Ledger (ObjectId × Privilege)}
    {start : ObjectId × Privilege → Prop} (hrecorded : L.Recorded)
    {visited pending : List (ObjectId × Privilege)} (hall : ∀ a ∈ pending, a.2 ≠ .all)
    {Q : ObjectId × Privilege → Prop} (hwalked : Walked L start visited pending Q)
    (hledger : m.ledger = L.without Q) {fuel : Nat} (hfuel : pending.length + m.sourceCount ≤ fuel) :
    ∃ visited' Q', Walked L start visited' [] Q' ∧
      (Worklist.drain (cascadeStep order) fuel visited pending m).2.ledger = L.without Q' ∧
      ∀ x ∈ visited, ¬Q x → ¬Q' x := by
  let walked (visited' pending : List (ObjectId × Privilege)) (m : PrivilegeMatrix) : Prop :=
    (∀ a ∈ pending, a.2 ≠ .all) ∧ visited ⊆ visited' ∧ ∃ Q', Walked L start visited' pending Q' ∧
      m.ledger = L.without Q' ∧ ∀ x ∈ visited, ¬Q x → ¬Q' x
  have hend := Worklist.drain_run_of_measure (P := walked) sourceCount (cascadeStep order) visited
    pending m ?_ ?_ hfuel ⟨hall, List.Subset.refl _, Q, hwalked, hledger, fun _ _ h => h⟩
  · obtain ⟨-, -, Q', hwalked, hleft, hkept⟩ := hend
    exact ⟨_, Q', hwalked, hleft, hkept⟩
  · rintro visited' a pending m hseen ⟨hpending, hsubset, Q', hwalked, hleft, hkept⟩
    exact ⟨fun b hb => hpending b (List.mem_cons_of_mem a hb), hsubset, Q', hwalked.skip hseen,
      hleft, hkept⟩
  · rintro visited' a pending m hunseen ⟨hpending, hsubset, Q', hwalked, hleft, hkept⟩
    have ha : a.2 ≠ .all := hpending a List.mem_cons_self
    obtain ⟨Q'', hwalked', hleft', hgone, hsame, hcost⟩ :=
      cascadeStep_walked order hrecorded ha hwalked hunseen hleft
    refine ⟨⟨fun b hb => ?_, fun x hx => List.mem_cons_of_mem a (hsubset hx), Q'', hwalked', hleft',
      fun x hx hnot hnow => ?_⟩, hcost⟩
    · rcases List.mem_append.mp hb with hb | hb
      · rw [hsame b (List.mem_reverse.mp hb)]
        exact ha
      · exact hpending b (List.mem_cons_of_mem a hb)
    · rcases hgone x hnow with hnow | rfl
      · exact hkept x hx hnot hnow
      · exact hunseen (hsubset hx)

/-- The stack that a cascade starts with. -/
def struckPending (m : PrivilegeMatrix) : List (ObjectId × Privilege) :=
  ((order.list (m.expandPrivileges role privileges)).map fun privilege => (role, privilege)).reverse

theorem mem_struckPending (a : ObjectId × Privilege) :
    a ∈ m.struckPending order role privileges ↔ m.Struck role privileges a := by
  unfold struckPending
  rw [List.mem_reverse, List.mem_map]
  constructor
  · rintro ⟨privilege, hprivilege, rfl⟩
    exact ⟨rfl, (order.mem_list _ _).mp hprivilege⟩
  · intro ha
    exact ⟨a.2, (order.mem_list _ _).mpr ha.2, Prod.ext ha.1.symm rfl⟩

theorem ne_all_of_mem_struckPending {a : ObjectId × Privilege}
    (ha : a ∈ m.struckPending order role privileges) : a.2 ≠ .all := fun heq =>
  all_notMem_expand role privileges (heq ▸ ((mem_struckPending order role privileges a).mp ha).2)

theorem walked_struckPending : Walked (m.struckLedger role grantor privileges)
    (m.Struck role privileges) [] (m.struckPending order role privileges) fun _ => False :=
  Walked.init (fun a ha => (mem_struckPending order role privileges a).mpr ha)
    fun a ha => (mem_struckPending order role privileges a).mp ha

theorem ledger_revokeFrom_expand (hrecorded : m.ledger.Recorded) :
    (m.revokeFrom order role (m.expandPrivileges role privileges) (some grantor)).ledger =
      (m.struckLedger role grantor privileges).without fun _ => False := by
  have hstruck : (m.struckLedger role grantor privileges).Recorded := Ledger.recorded_strike
  rw [ledger_revokeFrom order role grantor (all_notMem_expand role privileges) hrecorded,
    Ledger.without_none hstruck]
  rfl

theorem revokeFromCascade_eq (m : PrivilegeMatrix) :
    m.revokeFromCascade order role privileges (some grantor) true =
      (Worklist.drain (cascadeStep order) ((m.struckPending order role privileges).length +
        (m.revokeFrom order role (m.expandPrivileges role privileges) (some grantor)).sourceCount)
        [] (m.struckPending order role privileges)
        (m.revokeFrom order role (m.expandPrivileges role privileges) (some grantor))).2 := by
  unfold PrivilegeMatrix.revokeFromCascade struckPending
  rw [List.length_reverse]
  rfl

/-- The cascade is a walk over the delegations of the struck privileges. -/
theorem exists_walked_revokeFromCascade (hrecorded : m.ledger.Recorded) :
    ∃ visited Q, Walked (m.struckLedger role grantor privileges) (m.Struck role privileges)
        visited [] Q ∧
      (m.revokeFromCascade order role privileges (some grantor) true).ledger =
        (m.struckLedger role grantor privileges).without Q := by
  rw [revokeFromCascade_eq]
  obtain ⟨visited, Q, hwalked, hleft, -⟩ := exists_walked_drain order Ledger.recorded_strike
    (fun a ha => ne_all_of_mem_struckPending order role privileges ha)
    (walked_struckPending order role grantor privileges)
    (ledger_revokeFrom_expand order role grantor privileges hrecorded) (Nat.le_refl _)
  exact ⟨visited, Q, hwalked, hleft⟩

/-- Those who lose an option lose it for a privilege that was struck. -/
theorem exists_start_of_lost {L : Ledger (ObjectId × Privilege)}
    {start spared : ObjectId × Privilege → Prop}
    (hgrants : ∀ g a, L.grants g a ∨ L.options g a → g.2 = a.2) {a : ObjectId × Privilege}
    (h : Lost L start spared a) : ∃ b, b.2 = a.2 ∧ start b ∧ ¬L.holds b := by
  induction h with
  | start hstart hholds _ => exact ⟨_, rfl, hstart, hholds⟩
  | unheld _ hgrant _ _ ih =>
    obtain ⟨b, hsame, hb⟩ := ih
    exact ⟨b, hsame.trans (hgrants _ _ (.inl hgrant)), hb⟩
  | exhausted hoption _ _ _ _ ih =>
    obtain ⟨b, hsame, hb⟩ := ih _ hoption
    exact ⟨b, hsame.trans (hgrants _ _ (.inr hoption)), hb⟩

/-- An orderly cascade leaves no grant without a grantor that has the option. -/
theorem grounded_of_orderly (hcomplete : m.CompleteProvenance owner)
    (horderly : m.OrderlyCascade role grantor owner privileges) :
    (m.revokeFromCascade order role privileges (some grantor) true).Grounded owner := by
  have hrecorded : m.ledger.Recorded := recorded_iff.mpr hcomplete.options
  obtain ⟨visited, Q, hwalked, hleft⟩ :=
    exists_walked_revokeFromCascade order role grantor privileges hrecorded
  have hgrants (g a : ObjectId × Privilege)
      (h : (m.struckLedger role grantor privileges).grants g a ∨
        (m.struckLedger role grantor privileges).options g a) : g.2 = a.2 :=
    h.elim (fun h => h.1.1) (fun h => h.1.1)
  intro g role' privilege hsource hother
  rw [← holds_ledger (g, privilege), hleft]
  refine hwalked.holds_of_orderly (a := (role', privilege)) Ledger.recorded_strike horderly ?_ ?_
    hother ?_
  · intro a hstart hholds hlost
    -- the struck role is the only start for its privilege
    obtain ⟨b, hsame, hb, hnot⟩ := exists_start_of_lost hgrants hlost
    have hstruck : b = a := Prod.ext (hb.1.trans hstart.1.symm) hsame
    exact hnot (hstruck ▸ hholds)
  · intro g a hgranted hexempt
    have hheld : m.ledger.holds g := by
      rw [holds_ledger, hgrants g a hgranted]
      exact hcomplete.grantors g.1 a.1 a.2 (hgranted.imp (fun h => h.1.2) (fun h => h.1.2)) hexempt
    by_cases hstart : m.Struck role privileges g
    · exact .inr hstart
    · refine .inl (hheld.imp id fun hheld => ⟨hheld, ?_⟩)
      obtain ⟨c, hoption⟩ := hrecorded g hheld
      exact ⟨c, hoption, fun hstruck => hstart ⟨hstruck.1, hstruck.2.1⟩⟩
  · rw [← hleft]
    exact hsource.imp (fun h => ⟨rfl, h⟩) (fun h => ⟨rfl, h⟩)

end Cascades

end PrivilegeMatrix

end SafeMigrate
