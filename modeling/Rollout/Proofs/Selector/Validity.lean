import Rollout.Proofs.Selector.Faithful
import Rollout.Proofs.Selector.Grammar

/-!
# Selectors that can be sent

A selector is valid if it requires something, its keys are qualified names, its values are empty
or names, and every expression has as many values as its operator wants. Whether it can be sent
is decided step by step, and the first step that does not like what it sees refuses the whole:
so each step, and then the whole, either succeeds and what it asks for holds, or refuses the
selector and it does not hold (`Selector.Decides`). There is no third way to end for a selector
that is written as one.

What the steps ask for is not quite what is valid. A key or value counts up to the end of a line,
so that one that ends in a line feed passes, with the line feed
(`Selector.exists_line_feed_sent`). This is all: a selector can be sent just if it is valid up to
the ends of lines, and where none of its texts ends in a line feed, just if it is valid
(`Selector.sent_iff_valid_to_line_ends`).
-/

namespace Rollout
namespace Selector

open Label (InWhole IsQualifiedName IsValue ToLineEnd keyChars keyPattern nameChars valuePattern)

/-! ## Valid selectors -/

/-- **An expression that meets a standard**: its key does, and with a set operator it has values
that do, with another operator none. -/
structure Expression.Meets (key value : Text → Prop) (e : Expression) : Prop where
  key : key e.key
  operand : (e.operator = "In" ∨ e.operator = "NotIn") ∧ e.values ≠ [] ∧ (∀ v ∈ e.values, value v)
    ∨ (e.operator = "Exists" ∨ e.operator = "DoesNotExist") ∧ e.values = []

/-- **A selector that meets a standard** for keys and values. -/
structure LabelSelector.Meets (key value : Text → Prop) (s : LabelSelector) : Prop where
  labels : ∀ l ∈ s.labels, key l.1 ∧ value l.2
  expressions : ∀ e ∈ s.expressions, e.Meets key value
  ne_nil : s.labels ≠ [] ∨ s.expressions ≠ []

/-- **A valid selector**: its keys are qualified names in whole, and its values are in whole
empty or names. -/
abbrev LabelSelector.IsValid (s : LabelSelector) : Prop :=
  s.Meets (InWhole IsQualifiedName) (InWhole IsValue)

/-- The keys of a selector. -/
def LabelSelector.keys (s : LabelSelector) : List Text :=
  s.labels.map Prod.fst ++ s.expressions.map Expression.key

/-- The values of a selector. -/
def LabelSelector.values (s : LabelSelector) : List Text :=
  s.labels.map Prod.snd ++ s.expressions.flatMap Expression.values

variable {s : LabelSelector} {e : Expression} {K K' V V' : Text → Prop}

theorem Expression.Meets.mono (h : e.Meets K V) (hkey : K e.key → K' e.key)
    (hvalue : ∀ v ∈ e.values, V v → V' v) : e.Meets K' V' :=
  ⟨hkey h.key, h.operand.imp_left fun ⟨hin, hne, hvs⟩ => ⟨hin, hne, fun v hv => hvalue v hv (hvs v hv)⟩⟩

/-- What meets a standard meets another that its keys and values meet if they meet the one. -/
theorem LabelSelector.Meets.mono (h : s.Meets K V) (hkey : ∀ k ∈ s.keys, K k → K' k)
    (hvalue : ∀ v ∈ s.values, V v → V' v) : s.Meets K' V' := by
  refine ⟨fun l hl => ?_, fun e he => ?_, h.ne_nil⟩
  · have hk : l.1 ∈ s.keys := List.mem_append_left _ (List.mem_map_of_mem hl)
    have hv : l.2 ∈ s.values := List.mem_append_left _ (List.mem_map_of_mem hl)
    exact ⟨hkey _ hk (h.labels l hl).1, hvalue _ hv (h.labels l hl).2⟩
  · have hk : e.key ∈ s.keys := List.mem_append_right _ (List.mem_map_of_mem he)
    refine (h.expressions e he).mono (hkey _ hk) fun v hv => hvalue v ?_
    exact List.mem_append_right _ (List.mem_flatMap.mpr ⟨e, he, hv⟩)

/-- The keys of what meets a standard meet it. -/
theorem LabelSelector.Meets.key_of_mem (h : s.Meets K V) {k : Text} (hk : k ∈ s.keys) : K k := by
  obtain hk | hk := List.mem_append.mp hk
  · obtain ⟨l, hl, rfl⟩ := List.mem_map.mp hk
    exact (h.labels l hl).1
  · obtain ⟨e, he, rfl⟩ := List.mem_map.mp hk
    exact (h.expressions e he).key

theorem LabelSelector.Meets.value_of_mem (h : s.Meets K V) {v : Text} (hv : v ∈ s.values) :
    V v := by
  obtain hv | hv := List.mem_append.mp hv
  · obtain ⟨l, hl, rfl⟩ := List.mem_map.mp hv
    exact (h.labels l hl).2
  · obtain ⟨e, he, hv⟩ := List.mem_flatMap.mp hv
    obtain ⟨-, -, hvs⟩ | ⟨-, hnone⟩ := (h.expressions e he).operand
    · exact hvs v hv
    · rw [hnone] at hv
      cases hv

/-! ## Decisions -/

section Decides

variable {α β : Type} {P Q : Prop} {x : Outcome α}

/-- **A step decides** whether `P`: it succeeds and `P` holds, or it refuses the selector and `P`
does not hold. -/
def Decides (P : Prop) (x : Outcome α) : Prop :=
  (P ∧ ∃ a, x = .ok a) ∨ (¬P ∧ ∃ e, x = refuse e)

theorem decides_ok (h : P) (a : α) : Decides P (.ok a : Outcome α) :=
  .inl ⟨h, a, rfl⟩

theorem decides_refuse (h : ¬P) (e : SelectorError) : Decides P (refuse e : Outcome α) :=
  .inr ⟨h, e, rfl⟩

theorem Decides.congr (h : Decides P x) (hPQ : P ↔ Q) : Decides Q x :=
  propext hPQ ▸ h

theorem Decides.bind (h : Decides P x) {f : α → Outcome β}
    (hf : ∀ a, x = .ok a → Decides Q (f a)) : Decides (P ∧ Q) (x >>= f) := by
  obtain ⟨hP, a, rfl⟩ | ⟨hP, e, rfl⟩ := h
  · exact (hf a rfl).congr (and_iff_right hP).symm
  · exact decides_refuse (fun hPQ => hP hPQ.1) e

/-- A step that is followed by another that never refuses. -/
theorem Decides.andThen (h : Decides P x) (f : α → β) :
    Decides P (x >>= fun a => pure (f a)) :=
  (h.bind fun a _ => decides_ok trivial (f a)).congr (and_iff_left trivial)

/-- **Steps for each element** decide whether all are as they are asked for. -/
theorem decides_mapM {f : α → Outcome β} {p : α → Prop} {xs : List α}
    (h : ∀ x ∈ xs, Decides (p x) (f x)) : Decides (∀ x ∈ xs, p x) (xs.mapM f) := by
  induction xs with
  | nil => exact decides_ok nofun []
  | cons x xs ih =>
    obtain ⟨hx, hxs⟩ := List.forall_mem_cons.mp h
    rw [List.mapM_cons]
    exact (hx.bind fun y _ => (ih hxs).andThen (y :: ·)).congr List.forall_mem_cons.symm

/-- Steps for each element give something just if there are elements. -/
theorem eq_nil_iff_of_mapM {f : α → Outcome β} {xs : List α} {ys : List β}
    (h : xs.mapM f = .ok ys) : ys = [] ↔ xs = [] := by
  cases xs with
  | nil =>
    cases h
    exact iff_of_true rfl rfl
  | cons x xs =>
    rw [List.mapM_cons] at h
    obtain ⟨y, -, h⟩ := Outcome.bind_eq_ok_iff.mp h
    obtain ⟨ys, -, h⟩ := Outcome.bind_eq_ok_iff.mp h
    cases h
    exact iff_of_false (List.cons_ne_nil y ys) (List.cons_ne_nil x xs)

theorem Decides.ok_iff (h : Decides P x) : (∃ a, x = .ok a) ↔ P := by
  obtain ⟨hP, hok⟩ | ⟨hP, e, rfl⟩ := h
  · exact iff_of_true hok hP
  · exact iff_of_false (fun ⟨_, h⟩ => by cases h) hP

theorem Decides.refused_iff (h : Decides P x) : (∃ e, x = refuse e) ↔ ¬P := by
  obtain ⟨hP, a, rfl⟩ | ⟨hP, hrefused⟩ := h
  · exact iff_of_false (fun ⟨_, h⟩ => by cases h) (not_not_intro hP)
  · exact iff_of_true hrefused hP

end Decides

/-! ## What is asked for -/

/-- What is asked for of a key: to be a qualified name up to the end of a line. -/
abbrev IsKeyLine : Text → Prop :=
  ToLineEnd IsQualifiedName

/-- What is asked for of a value. -/
abbrev IsValueLine : Text → Prop :=
  ToLineEnd IsValue

variable {fs : Fields Json}

theorem decides_key (k : Text) : Decides (IsKeyLine k) (key (.str k)) := by
  rw [key]
  split
  · rename_i h
    exact decides_ok (Label.isKey_iff.mp h) k
  · rename_i h
    exact decides_refuse (mt Label.isKey_iff.mpr h) _

theorem decides_value (v : Text) : Decides (IsValueLine v) (value (.str v)) := by
  rw [value]
  split
  · rename_i h
    exact decides_ok (Label.isValue_iff.mp h) v
  · rename_i h
    exact decides_refuse (mt Label.isValue_iff.mpr h) _

theorem decides_setRequirement (make : Text → List Text → Requirement) (operator k : Text)
    (vs : List Text) : Decides (vs ≠ [] ∧ ∀ v ∈ vs, IsValueLine v)
      (setRequirement make operator k (some (vs.map .str))) := by
  cases vs with
  | nil => exact decides_refuse (fun h => h.1 rfl) _
  | cons v vs =>
    have hvalues : Decides (∀ t ∈ v :: vs, IsValueLine t) (((v :: vs).map .str).mapM value) := by
      rw [List.mapM_map]
      exact decides_mapM fun t _ => decides_value t
    exact (hvalues.andThen (make k)).congr (and_iff_right (List.cons_ne_nil v vs)).symm

theorem decides_bareRequirement (make : Text → Requirement) (operator k : Text) (vs : List Text) :
    Decides (vs = []) (bareRequirement make operator k (some (vs.map .str))) := by
  cases vs with
  | nil => exact decides_ok rfl _
  | cons v vs => exact decides_refuse (List.cons_ne_nil v vs) _

/-- **An expression** is a requirement just if it meets what is asked for. -/
theorem decides_expression (he : e.IsWritten fs) :
    Decides (e.Meets IsKeyLine IsValueLine) (expression (.obj fs)) := by
  have hkey : Fields.getD fs "key" (.str "") = .str e.key := by
    rw [Fields.getD, he.key, Option.getD_some]
  have hoperator : Fields.getD fs "operator" (.str "") = .str e.operator := by
    rw [Fields.getD, he.operator, Option.getD_some]
  have hmeets : IsKeyLine e.key ∧ _ ↔ e.Meets IsKeyLine IsValueLine :=
    ⟨fun h => ⟨h.1, h.2⟩, fun h => ⟨h.key, h.operand⟩⟩
  show Decides _ (key (Fields.getD fs "key" (.str "")) >>= _)
  rw [hkey]
  refine ((decides_key e.key).bind fun k _ => ?_).congr hmeets
  rw [hoperator, he.values.valueItems]
  simp only
  split_ifs with hin hnotIn hexists hdoesNotExist
  · exact (decides_setRequirement _ _ _ _).congr (by simp [hin])
  · exact (decides_setRequirement _ _ _ _).congr (by simp [hnotIn])
  · exact (decides_bareRequirement _ _ _ _).congr (by simp [hexists])
  · exact (decides_bareRequirement _ _ _ _).congr (by simp [hdoesNotExist])
  · exact decides_refuse (by simp [hin, hnotIn, hexists, hdoesNotExist]) _

/-- The labels of a document are read one by one. -/
theorem matchLabels_eq {labels : Fields Text}
    (hlabels : Holds fs "matchLabels" (.obj (labels.map fun l => (l.1, .str l.2)))) :
    matchLabels fs = labels.mapM fun l => do
      let k ← key (.str l.1)
      let v ← value (.str l.2)
      return .equals k v := by
  rw [matchLabels, hlabels.section?]
  exact List.mapM_map

theorem decides_labels (labels : Fields Text) :
    Decides (∀ l ∈ labels, IsKeyLine l.1 ∧ IsValueLine l.2) (labels.mapM fun l => do
      let k ← key (.str l.1)
      let v ← value (.str l.2)
      return Requirement.equals k v) :=
  decides_mapM fun l _ => (decides_key l.1).bind fun _ _ => (decides_value l.2).andThen _

theorem decides_expressions {es : List Expression} {docs : List (Fields Json)}
    (hes : List.Forall₂ Expression.IsWritten es docs) :
    Decides (∀ e ∈ es, e.Meets IsKeyLine IsValueLine) ((docs.map Json.obj).mapM expression) := by
  induction hes with
  | nil => exact decides_ok nofun []
  | cons he _ ih =>
    rw [List.map_cons, List.mapM_cons]
    refine ((decides_expression he).bind fun r _ => ih.andThen (r :: ·)).congr ?_
    exact List.forall_mem_cons.symm

/-- **A selector** can be sent just if it meets what is asked for, and is refused otherwise. -/
theorem decides_query (hs : s.IsWritten fs) :
    Decides (s.Meets IsKeyLine IsValueLine) (query (.obj fs)) := by
  obtain ⟨docs, hdocs, hexpressions⟩ := hs.expressions
  have hmeets : (∀ l ∈ s.labels, IsKeyLine l.1 ∧ IsValueLine l.2)
      ∧ (∀ e ∈ s.expressions, e.Meets IsKeyLine IsValueLine)
      ∧ (s.labels ≠ [] ∨ s.expressions ≠ []) ↔ s.Meets IsKeyLine IsValueLine :=
    ⟨fun h => ⟨h.1, h.2.1, h.2.2⟩, fun h => ⟨h.labels, h.expressions, h.ne_nil⟩⟩
  rw [query, requirements, matchLabels_eq hs.labels, hexpressions.list]
  simp only [bind_assoc]
  refine ((decides_labels s.labels).bind fun labels hlabels => ?_).congr hmeets
  refine (decides_expressions hdocs).bind fun others hothers => ?_
  have hnone : labels ++ others = [] ↔ s.labels = [] ∧ s.expressions = [] := by
    rw [List.append_eq_nil_iff, eq_nil_iff_of_mapM hlabels, eq_nil_iff_of_mapM hothers,
      List.map_eq_nil_iff, ← List.length_eq_zero_iff (l := docs), ← hdocs.length_eq,
      List.length_eq_zero_iff]
  rw [pure_bind]
  generalize labels ++ others = all at hnone ⊢
  cases all with
  | nil => exact decides_refuse (by simpa only [not_or, not_not] using hnone.mp rfl) _
  | cons r rest => exact decides_ok (not_and_or.mp (mt hnone.mpr (List.cons_ne_nil r rest))) _

/-! ## What is sent -/

/-- **A selector is sent just if it is valid up to the ends of lines**: its keys are qualified
names, and its values are empty or names, where a line feed at the end is not looked at; otherwise
it is refused. Where no key or value ends in a line feed, it is sent just if it is valid. What is
sent holds no character but those of its class, and that line feed. Qualified names and values
are what the patterns of keys and values spell. -/
theorem sent_iff_valid_to_line_ends (hs : s.IsWritten fs) :
    ((∃ q, query (.obj fs) = .ok q) ↔ s.Meets (ToLineEnd IsQualifiedName) (ToLineEnd IsValue))
      ∧ ((∃ e, query (.obj fs) = Outcome.fail (.selector e))
        ↔ ¬s.Meets (ToLineEnd IsQualifiedName) (ToLineEnd IsValue))
      ∧ ((∀ t ∈ s.keys ++ s.values, t.getLast? ≠ some (.char '\n')) →
        ((∃ q, query (.obj fs) = .ok q) ↔ s.IsValid)
        ∧ ((∃ e, query (.obj fs) = Outcome.fail (.selector e)) ↔ ¬s.IsValid))
      ∧ (∀ q, query (.obj fs) = .ok q →
        (∀ k ∈ s.keys, ToLineEnd (fun cs => ∀ c ∈ cs, c ∈ keyChars) k)
        ∧ ∀ v ∈ s.values, ToLineEnd (fun cs => ∀ c ∈ cs, c ∈ nameChars) v)
      ∧ (∀ cs, IsQualifiedName cs ↔ cs ∈ keyPattern) ∧ ∀ cs, IsValue cs ↔ cs ∈ valuePattern := by
  have hquery := decides_query hs
  refine ⟨hquery.ok_iff, hquery.refused_iff, fun hend => ?_, fun q hq => ⟨fun k hk => ?_, ?_⟩,
    fun _ => Label.mem_keyPattern_iff.symm, fun _ => Label.mem_valuePattern_iff.symm⟩
  · obtain ⟨hkeys, hvalues⟩ := List.forall_mem_append.mp hend
    have hvalid : s.Meets (ToLineEnd IsQualifiedName) (ToLineEnd IsValue) ↔ s.IsValid :=
      ⟨fun h => h.mono (fun k hk hline => hline.inWhole (hkeys k hk))
          fun v hv hline => hline.inWhole (hvalues v hv),
        fun h => h.mono (fun _ _ => InWhole.toLineEnd) fun _ _ => InWhole.toLineEnd⟩
    exact ⟨(hquery.congr hvalid).ok_iff, (hquery.congr hvalid).refused_iff⟩
  · obtain ⟨cs, hcs, h⟩ := (hquery.ok_iff.mp ⟨q, hq⟩).key_of_mem hk
    exact ⟨cs, hcs.mem, h⟩
  · intro v hv
    obtain ⟨cs, hcs, h⟩ := (hquery.ok_iff.mp ⟨q, hq⟩).value_of_mem hv
    exact ⟨cs, hcs.mem, h⟩

/-- A label with a prefix, a set that holds the empty value, and a key that must not be there. -/
def qualified : LabelSelector :=
  ⟨[("app.kubernetes.io/name", "web")], [⟨"env", "In", ["prod", ""]⟩, ⟨"old", "DoesNotExist", []⟩]⟩

/-- An empty set. -/
def emptySet : LabelSelector :=
  ⟨[], [⟨"env", "In", []⟩]⟩

theorem sent_iff_valid_to_line_ends_qualified :
    qualified.IsValid ∧ ¬emptySet.IsValid
      ∧ ∃ e, query (.obj emptySet.document) = Outcome.fail (.selector e) := by
  have hsent : (query (.obj qualified.document)).toOption.isSome = true := by decide +kernel
  obtain ⟨q, hq⟩ := Option.isSome_iff_exists.mp hsent
  have hempty : ¬emptySet.IsValid := by
    intro h
    obtain ⟨-, hne, -⟩ | ⟨hbare, -⟩ := (h.expressions ⟨"env", "In", []⟩ (by simp [emptySet])).operand
    · exact hne rfl
    · exact absurd hbare (by decide)
  obtain ⟨-, -, hqualified, -⟩ := sent_iff_valid_to_line_ends (isWritten_document qualified)
  obtain ⟨-, -, hrefused, -⟩ := sent_iff_valid_to_line_ends (isWritten_document emptySet)
  exact ⟨(hqualified (by decide)).1.mp ⟨q, Outcome.eq_ok_of_toOption hq⟩, hempty,
    (hrefused (by decide)).2.mpr hempty⟩

/-- **A line feed gets through**: at the end of a value it is sent with it. -/
theorem exists_line_feed_sent :
    ∃ s : LabelSelector, query (.obj s.document) = .ok "app=web\n" ∧ ¬s.IsValid := by
  refine ⟨⟨[("app", "web\n")], []⟩, Outcome.eq_ok_of_toOption (by decide +kernel), fun h => ?_⟩
  obtain ⟨cs, hcs, heq⟩ := (h.labels _ List.mem_cons_self).2
  have hmem : '\n' ∈ cs := Text.ofChars_inj.mp heq ▸ (by decide : '\n' ∈ "web\n".toList)
  exact Label.lineFeed_notMem (.inl (hcs.mem _ hmem))

end Selector
end Rollout
