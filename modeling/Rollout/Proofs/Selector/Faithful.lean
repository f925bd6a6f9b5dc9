import Mathlib.Data.Multiset.MapFold
import Rollout.Proofs.Selector.Reading

/-!
# Queries that stand for their selectors

A selector asks for labels and makes demands on others by expressions. In which order it does so
means nothing, nor does the order of the values of an expression, so that what it says is a
multiset of demands (`Selector.LabelSelector.demands`). The query says the same. It is sorted,
by the keys and then by the texts of the requirements, and both depend on the demand alone
(`Requirement.keyed_demand`): equal demands give equal queries. And since queries are read back,
equal queries come of equal demands (`Selector.queries_are_faithful`).
-/

namespace Rollout

open Outcome (bind_eq_ok_iff)

/-- **What a selector demands** of a label. The values of a set are in no order. -/
inductive Demand where
  | equals (key value : Text)
  | among (key : Text) (values : Multiset Text)
  | notAmong (key : Text) (values : Multiset Text)
  | present (key : Text)
  | absent (key : Text)

namespace Demand

/-- The values of a set as they are written. -/
def valueList (values : Multiset Text) : Text :=
  Quot.liftOn values Requirement.valueList fun _ _ h =>
    congrArg (("," : Text).intercalate ·) (sortedTexts_of_perm h)

/-- **The key and the text of the requirement** that makes a demand. -/
def keyed : Demand → Text × Text
  | equals k v => (k, k ++ "=" ++ v)
  | among k vs => (k, k ++ " in (" ++ valueList vs ++ ")")
  | notAmong k vs => (k, k ++ " notin (" ++ valueList vs ++ ")")
  | present k => (k, k)
  | absent k => (k, "!" ++ k)

end Demand

namespace Requirement

variable {rs rs' : List Requirement}

/-- The demand that a requirement makes. -/
def demand : Requirement → Demand
  | equals k v => .equals k v
  | among k vs => .among k vs
  | notAmong k vs => .notAmong k vs
  | present k => .present k
  | absent k => .absent k

/-- What a query is sorted by. -/
def keyed (r : Requirement) : Text × Text :=
  (r.key, r.text)

/-- **Key and text of a requirement depend on its demand alone.** -/
theorem keyed_demand (r : Requirement) : r.demand.keyed = r.keyed := by
  cases r <;> rfl

/-- To put the values in order changes no demand. -/
theorem demand_arranged (r : Requirement) : r.arranged.demand = r.demand := by
  have hvalues : ∀ vs : List Text, (sortedTexts vs : Multiset Text) = vs := fun vs =>
    Multiset.coe_eq_coe.mpr (List.mergeSort_perm vs Text.le)
  cases r with
  | among k vs => exact congrArg (Demand.among k) (hvalues vs)
  | notAmong k vs => exact congrArg (Demand.notAmong k) (hvalues vs)
  | _ => rfl

/-! ## The order of a query -/

/-- The order of keys and texts in which a query is sorted: by key, then by text. -/
def keyedBefore (p q : Text × Text) : Bool :=
  if p.1 = q.1 then p.2.le q.2 else p.1.le q.1

variable {p q u : Text × Text}

theorem keyedBefore_trans (hpq : keyedBefore p q = true) (hqu : keyedBefore q u = true) :
    keyedBefore p u = true := by
  unfold keyedBefore at hpq hqu ⊢
  by_cases hkey : p.1 = q.1
  · rw [if_pos hkey] at hpq
    by_cases hkey' : q.1 = u.1
    · rw [if_pos hkey'] at hqu
      rw [if_pos (hkey.trans hkey')]
      exact Text.le_trans hpq hqu
    · rw [if_neg hkey'] at hqu
      rw [hkey, if_neg hkey']
      exact hqu
  · rw [if_neg hkey] at hpq
    by_cases hkey' : q.1 = u.1
    · rw [← hkey', if_neg hkey]
      exact hpq
    · rw [if_neg hkey'] at hqu
      have hne : p.1 ≠ u.1 := fun h => hkey (Text.le_antisymm hpq (h ▸ hqu))
      rw [if_neg hne]
      exact Text.le_trans hpq hqu

theorem keyedBefore_total (p q : Text × Text) : (keyedBefore p q || keyedBefore q p) = true := by
  unfold keyedBefore
  by_cases hkey : p.1 = q.1
  · rw [if_pos hkey, if_pos hkey.symm]
    exact Text.le_total _ _
  · rw [if_neg hkey, if_neg (Ne.symm hkey)]
    exact Text.le_total _ _

theorem keyedBefore_antisymm (hpq : keyedBefore p q = true) (hqp : keyedBefore q p = true) :
    p = q := by
  unfold keyedBefore at hpq hqp
  by_cases hkey : p.1 = q.1
  · rw [if_pos hkey] at hpq
    rw [if_pos hkey.symm] at hqp
    exact Prod.ext hkey (Text.le_antisymm hpq hqp)
  · rw [if_neg hkey] at hpq
    rw [if_neg (Ne.symm hkey)] at hqp
    exact absurd (Text.le_antisymm hpq hqp) hkey

/-- **Requirements in order.** -/
def sorted (rs : List Requirement) : List Requirement :=
  rs.mergeSort before

theorem sorted_perm (rs : List Requirement) : (sorted rs).Perm rs :=
  List.mergeSort_perm rs before

/-- **Requirements of the same keys and texts** are written alike in order. -/
theorem map_keyed_sorted (h : (rs.map keyed).Perm (rs'.map keyed)) :
    (sorted rs).map keyed = (sorted rs').map keyed := by
  have hsorted : ∀ rs : List Requirement,
      ((sorted rs).map keyed).Pairwise fun p q => keyedBefore p q = true := by
    intro rs
    refine List.pairwise_map.mpr (List.pairwise_mergeSort (fun a b c => ?_) (fun a b => ?_) rs)
    · exact keyedBefore_trans
    · exact keyedBefore_total a.keyed b.keyed
  have hperm := ((sorted_perm rs).map keyed).trans (h.trans ((sorted_perm rs').map keyed).symm)
  exact hperm.eq_of_pairwise (fun _ _ _ _ => keyedBefore_antisymm) (hsorted rs) (hsorted rs')

/-- The line of a query. -/
def line (rs : List Requirement) : Text :=
  ("," : Text).intercalate ((sorted rs).map text)

/-- **Equal lines are of equal demands.** -/
theorem line_eq_iff (hne : rs ≠ []) (hne' : rs' ≠ []) (hrs : ∀ r ∈ rs, IsLegible r)
    (hrs' : ∀ r ∈ rs', IsLegible r) :
    line rs = line rs' ↔ (rs.map demand : Multiset Demand) = (rs'.map demand : List Demand) := by
  constructor
  · intro h
    have hnonempty : ∀ {rs : List Requirement}, rs ≠ [] → sorted rs ≠ [] := fun hne heq =>
      hne (List.nil_perm.mp (heq ▸ sorted_perm _))
    have hlegible : ∀ {rs : List Requirement}, (∀ r ∈ rs, IsLegible r) →
        ∀ r ∈ sorted rs, IsLegible r := fun hrs r hr => hrs r ((sorted_perm _).mem_iff.mp hr)
    have harranged := map_arranged_eq_of_intercalate_eq (hnonempty hne) (hnonempty hne')
      (hlegible hrs) (hlegible hrs') h
    have hdemand := congrArg (List.map demand) harranged
    simp only [List.map_map, Function.comp_def, demand_arranged] at hdemand
    rw [Multiset.coe_eq_coe]
    exact ((sorted_perm rs).map demand).symm.trans
      (hdemand ▸ (sorted_perm rs').map demand)
  · intro h
    have hkeyed : (rs.map keyed).Perm (rs'.map keyed) := by
      have hmap := (Multiset.coe_eq_coe.mp h).map Demand.keyed
      simpa only [List.map_map, Function.comp_def, keyed_demand] using hmap
    have htexts := congrArg (List.map Prod.snd) (map_keyed_sorted hkeyed)
    rw [List.map_map, List.map_map] at htexts
    exact congrArg (("," : Text).intercalate ·) htexts

end Requirement

namespace Selector

/-! ## Selectors -/

/-- **An expression of a selector**; one without values has an empty list of them. -/
structure Expression where
  key : Text
  operator : Text
  values : List Text

/-- **A selector**: the labels that must match, and expressions. A part that is absent is
empty. -/
structure LabelSelector where
  labels : Fields Text
  expressions : List Expression

/-- The demand of an expression; an operator that is none demands nothing. -/
def Expression.demand? (e : Expression) : Option Demand :=
  if e.operator = "In" then some (.among e.key e.values)
  else if e.operator = "NotIn" then some (.notAmong e.key e.values)
  else if e.operator = "Exists" then some (.present e.key)
  else if e.operator = "DoesNotExist" then some (.absent e.key)
  else none

/-- **What a selector demands**, in no order. -/
def LabelSelector.demands (s : LabelSelector) : Multiset Demand :=
  ((s.labels.map fun l => Demand.equals l.1 l.2) ++ s.expressions.filterMap Expression.demand? :
    List Demand)

/-- A document holds a part, or leaves it out if it is empty. -/
def Holds (fs : Fields Json) (name : Text) (part : Json) : Prop :=
  Fields.get? fs name = some part
    ∨ Json.isNull (Fields.get? fs name) = true ∧ part.truthy = false

/-- The document of an expression. -/
structure Expression.IsWritten (e : Expression) (fs : Fields Json) : Prop where
  key : Fields.get? fs "key" = some (.str e.key)
  operator : Fields.get? fs "operator" = some (.str e.operator)
  values : Holds fs "values" (.arr (e.values.map .str))

/-- **The document of a selector.** -/
structure LabelSelector.IsWritten (s : LabelSelector) (fs : Fields Json) : Prop where
  labels : Holds fs "matchLabels" (.obj (s.labels.map fun l => (l.1, .str l.2)))
  expressions : ∃ items, List.Forall₂ Expression.IsWritten s.expressions items
    ∧ Holds fs "matchExpressions" (.arr (items.map .obj))

/-- An expression as a document. -/
def Expression.document (e : Expression) : Fields Json :=
  [("key", .str e.key), ("operator", .str e.operator), ("values", .arr (e.values.map .str))]

/-- A selector as a document. -/
def LabelSelector.document (s : LabelSelector) : Fields Json :=
  [("matchLabels", .obj (s.labels.map fun l => (l.1, .str l.2))),
    ("matchExpressions", .arr ((s.expressions.map Expression.document).map .obj))]

/-- **Every selector can be written.** -/
theorem isWritten_document (s : LabelSelector) : s.IsWritten s.document := by
  have hexpression : ∀ e : Expression, e.IsWritten e.document := fun _ => ⟨rfl, rfl, .inl rfl⟩
  refine ⟨.inl rfl, s.expressions.map Expression.document, ?_, .inl rfl⟩
  exact List.forall₂_map_right_iff.mpr (List.forall₂_same.mpr fun e _ => hexpression e)

variable {fs gs : Fields Json} {name : Text} {items : List Json} {s t : LabelSelector}
  {e : Expression}

/-- What a document holds is given unless it is empty. -/
theorem Holds.given?_eq {part : Json} (h : Holds fs name part) :
    Fields.given? fs name = if part.truthy then some part else none := by
  rw [Fields.given?]
  obtain h | ⟨hnull, hempty⟩ := h
  · rw [h]
    rfl
  · rw [hempty, if_neg Bool.false_ne_true]
    match Fields.get? fs name, hnull with
    | none, _ => rfl
    | some .null, _ => rfl

theorem Holds.section? (h : Holds fs name (.obj gs)) : Fields.section? fs name = .ok gs := by
  rw [Fields.section?, h.given?_eq]
  cases gs <;> rfl

theorem Holds.list (h : Holds fs name (.arr items)) : Fields.list fs name = .ok items := by
  rw [Fields.list, h.given?_eq]
  cases items <;> rfl

theorem Holds.valueItems (h : Holds fs "values" (.arr items)) :
    valueItems fs = some items := by
  rw [Selector.valueItems, h.given?_eq]
  cases items <;> rfl

/-! ## Selectors as requirements -/

open Requirement (IsLegible demand)

theorem key_eq_ok {k k' : Text} (h : key (.str k) = .ok k') :
    (k ≠ [] ∧ IsWord k) ∧ k' = k := by
  by_cases hkey : Label.isKey k = true
  · rw [key, if_pos hkey] at h
    cases h
    exact ⟨isWord_of_isKey hkey, rfl⟩
  · rw [key, if_neg hkey] at h
    cases h

theorem value_eq_ok {v v' : Text} (h : value (.str v) = .ok v') : IsWord v ∧ v' = v := by
  by_cases hvalue : Label.isValue v = true
  · rw [value, if_pos hvalue] at h
    cases h
    exact ⟨isWord_of_isValue hvalue, rfl⟩
  · rw [value, if_neg hvalue] at h
    cases h

theorem mapM_value_eq_ok {vs vs' : List Text} (h : (vs.map Json.str).mapM value = .ok vs') :
    (∀ v ∈ vs, IsWord v) ∧ vs' = vs := by
  induction vs generalizing vs' with
  | nil =>
    cases h
    exact ⟨nofun, rfl⟩
  | cons v vs ih =>
    rw [List.map_cons, List.mapM_cons] at h
    obtain ⟨_, hv, h⟩ := bind_eq_ok_iff.mp h
    obtain ⟨_, hvs, h⟩ := bind_eq_ok_iff.mp h
    cases h
    obtain ⟨hword, rfl⟩ := value_eq_ok hv
    obtain ⟨hwords, rfl⟩ := ih hvs
    exact ⟨List.forall_mem_cons.mpr ⟨hword, hwords⟩, rfl⟩

/-- **A set of values** is a requirement if there are any. -/
theorem setRequirement_eq_ok {make : Text → List Text → Requirement} {operator k : Text}
    {vs : List Text} {r : Requirement}
    (h : setRequirement make operator k (some (vs.map .str)) = .ok r) :
    vs ≠ [] ∧ (∀ v ∈ vs, IsWord v) ∧ r = make k vs := by
  cases vs with
  | nil => cases h
  | cons v vs =>
    obtain ⟨_, hvs, h⟩ := bind_eq_ok_iff.mp h
    cases h
    obtain ⟨hwords, rfl⟩ := @mapM_value_eq_ok (v :: vs) _ hvs
    exact ⟨List.cons_ne_nil v vs, hwords, rfl⟩

theorem bareRequirement_eq_ok {make : Text → Requirement} {operator k : Text} {vs : List Text}
    {r : Requirement} (h : bareRequirement make operator k (some (vs.map .str)) = .ok r) :
    r = make k := by
  cases vs with
  | nil =>
    cases h
    rfl
  | cons v vs => cases h

/-- **The requirement of an expression** makes its demand. -/
theorem Expression.IsWritten.expression_eq_ok (he : e.IsWritten fs) {r : Requirement}
    (h : expression (.obj fs) = .ok r) : e.demand? = some r.demand ∧ IsLegible r := by
  unfold expression at h
  obtain ⟨_, ⟨⟩, h⟩ := bind_eq_ok_iff.mp h
  obtain ⟨k, hk, h⟩ := bind_eq_ok_iff.mp h
  rw [Fields.getD, he.key] at hk
  obtain ⟨⟨hne, hword⟩, rfl⟩ := key_eq_ok hk
  rw [Fields.getD, he.operator, he.values.valueItems] at h
  simp only [Option.getD_some] at h
  unfold Expression.demand?
  split_ifs at h ⊢
  · obtain ⟨hvs, hwords, rfl⟩ := setRequirement_eq_ok h
    exact ⟨rfl, .among hne hword hvs hwords⟩
  · obtain ⟨hvs, hwords, rfl⟩ := setRequirement_eq_ok h
    exact ⟨rfl, .notAmong hne hword hvs hwords⟩
  · obtain rfl := bareRequirement_eq_ok h
    exact ⟨rfl, .present hne hword⟩
  · obtain rfl := bareRequirement_eq_ok h
    exact ⟨rfl, .absent hne hword⟩
  · cases h

/-- **Labels that must match** are requirements one by one. -/
theorem demands_of_matchLabels {labels : Fields Text} {rs : List Requirement}
    (hlabels : Holds fs "matchLabels" (.obj (labels.map fun l => (l.1, .str l.2))))
    (h : matchLabels fs = .ok rs) :
    (rs.map demand = labels.map fun l => .equals l.1 l.2) ∧ ∀ r ∈ rs, IsLegible r := by
  rw [matchLabels, hlabels.section?] at h
  replace h : List.mapM _ (labels.map fun l => (l.1, Json.str l.2)) = Except.ok rs := h
  clear hlabels
  induction labels generalizing rs with
  | nil =>
    cases h
    exact ⟨rfl, nofun⟩
  | cons l labels ih =>
    rw [List.map_cons, List.mapM_cons] at h
    obtain ⟨r, hr, h⟩ := bind_eq_ok_iff.mp h
    obtain ⟨rest, hrest, h⟩ := bind_eq_ok_iff.mp h
    obtain ⟨k, hk, hr⟩ := bind_eq_ok_iff.mp hr
    obtain ⟨v, hv, hr⟩ := bind_eq_ok_iff.mp hr
    cases h
    cases hr
    obtain ⟨⟨hne, hword⟩, rfl⟩ := key_eq_ok hk
    obtain ⟨hvalue, rfl⟩ := value_eq_ok hv
    obtain ⟨hdemands, hlegible⟩ := ih hrest
    refine ⟨?_, List.forall_mem_cons.mpr ⟨.equals hne hword hvalue, hlegible⟩⟩
    rw [List.map_cons, List.map_cons, hdemands]
    rfl

/-- **Expressions** are requirements one by one. -/
theorem demands_of_expressions {es : List Expression} {docs : List (Fields Json)}
    {rs : List Requirement} (hes : List.Forall₂ Expression.IsWritten es docs)
    (h : (docs.map Json.obj).mapM expression = .ok rs) :
    rs.map demand = es.filterMap Expression.demand? ∧ ∀ r ∈ rs, IsLegible r := by
  induction hes generalizing rs with
  | nil =>
    cases h
    exact ⟨rfl, nofun⟩
  | cons he _ ih =>
    rw [List.map_cons, List.mapM_cons] at h
    obtain ⟨r, hr, h⟩ := bind_eq_ok_iff.mp h
    obtain ⟨rest, hrest, h⟩ := bind_eq_ok_iff.mp h
    cases h
    obtain ⟨hdemand, hr⟩ := he.expression_eq_ok hr
    obtain ⟨hdemands, hlegible⟩ := ih hrest
    refine ⟨?_, List.forall_mem_cons.mpr ⟨hr, hlegible⟩⟩
    rw [List.map_cons, List.filterMap_cons_some hdemand, hdemands]

/-- **The query of a selector** is the line of requirements that make its demands. -/
theorem exists_line_of_query (hs : s.IsWritten fs) {q : Text} (h : query (.obj fs) = .ok q) :
    ∃ rs, rs ≠ [] ∧ (∀ r ∈ rs, IsLegible r) ∧ (rs.map demand : List Demand) = s.demands
      ∧ q = Requirement.line rs := by
  obtain ⟨docs, hdocs, hexpressions⟩ := hs.expressions
  obtain ⟨rs, hrs, h⟩ := bind_eq_ok_iff.mp h
  obtain ⟨labels, hlabels, hrs⟩ := bind_eq_ok_iff.mp hrs
  rw [hexpressions.list] at hrs
  obtain ⟨_, ⟨⟩, hrs⟩ := bind_eq_ok_iff.mp hrs
  obtain ⟨others, hothers, hrs⟩ := bind_eq_ok_iff.mp hrs
  cases hrs
  obtain ⟨hequals, hlegible⟩ := demands_of_matchLabels hs.labels hlabels
  obtain ⟨hdemands, hlegible'⟩ := demands_of_expressions hdocs hothers
  split at h
  · cases h
  · rename_i hne
    cases h
    refine ⟨labels ++ others, hne, List.forall_mem_append.mpr ⟨hlegible, hlegible'⟩, ?_, rfl⟩
    rw [List.map_append, hequals, hdemands]
    rfl

/-- **Queries are faithful.** Two selectors have the same query just if they demand the same, in
whatever order they say it. -/
theorem queries_are_faithful {q q' : Text} (hs : s.IsWritten fs) (ht : t.IsWritten gs)
    (hq : query (.obj fs) = .ok q) (hq' : query (.obj gs) = .ok q') :
    q = q' ↔ s.demands = t.demands := by
  obtain ⟨rs, hne, hrs, hdemands, rfl⟩ := exists_line_of_query hs hq
  obtain ⟨rs', hne', hrs', hdemands', rfl⟩ := exists_line_of_query ht hq'
  rw [← hdemands, ← hdemands']
  exact Requirement.line_eq_iff hne hne' hrs hrs'

/-- Two labels, an expression with values and one without. -/
def frontEnd : LabelSelector :=
  ⟨[("tier", "front"), ("app", "web")],
    [⟨"env", "In", ["prod", "dev"]⟩, ⟨"old", "DoesNotExist", []⟩]⟩

/-- The same in another order. -/
def frontEndTurnedRound : LabelSelector :=
  ⟨[("app", "web"), ("tier", "front")],
    [⟨"old", "DoesNotExist", []⟩, ⟨"env", "In", ["dev", "prod"]⟩]⟩

theorem queries_are_faithful_frontEnd :
    ∃ q, query (.obj frontEnd.document) = .ok q
      ∧ query (.obj frontEndTurnedRound.document) = .ok q := by
  have haccepted : ∀ s ∈ [frontEnd, frontEndTurnedRound],
      (query (.obj s.document)).toOption.isSome = true := by decide +kernel
  obtain ⟨q, hq⟩ := Option.isSome_iff_exists.mp (haccepted frontEnd (by simp))
  obtain ⟨q', hq'⟩ := Option.isSome_iff_exists.mp (haccepted frontEndTurnedRound (by simp))
  replace hq := Outcome.eq_ok_of_toOption hq
  replace hq' := Outcome.eq_ok_of_toOption hq'
  have hvalues : (↑(["prod", "dev"] : List Text) : Multiset Text) = (["dev", "prod"] : List Text) :=
    Multiset.coe_eq_coe.mpr (.swap _ _ _)
  have hdemands : frontEnd.demands = frontEndTurnedRound.demands := by
    show (([.equals "tier" "front", .equals "app" "web", .among "env" (["prod", "dev"] : List Text),
      .absent "old"] : List Demand) : Multiset Demand) = _
    rw [hvalues]
    exact Multiset.coe_eq_coe.mpr ((List.Perm.swap _ _ _).trans (.cons _ (.cons _ (.swap _ _ _))))
  obtain rfl := (queries_are_faithful (isWritten_document _) (isWritten_document _) hq hq').mpr
    hdemands
  exact ⟨q, hq, hq'⟩

end Selector

end Rollout
