import Rollout.Proofs.Text.Folding
import Rollout.Proofs.Text.Pieces
import Rollout.Rollback.Basic

/-!
# Spellings of a kind

A kind is spelled by an alias, alone or with the group that serves it, before it with a slash or
behind it with a dot. The two ways to give a group are told apart by different rules: a slash is
looked for from the end and the group ends at the first one, while a dot is looked for from the
beginning. They still agree on every group and every word (`Kind.parse?_slash_eq_parse?_dot`).
Where the two texts hold no further dots both rules find the same parts. A further dot ends up in
the word or in the group, depending on the rule, and no alias and no group holds one
(`Kind.inGroup?_of_mem`).

Blanks around a spelling and the case of its letters make no difference. Rollbackers and viewers
are registered apart, but for the same kinds and each for its own (`rollbackerFor_spelling`,
`viewerFor_spelling`), so that a spelling finds both or neither (`Kind.spellings_are_equivalent`).
-/

namespace Rollout
namespace Kind

variable {group word s t : Text}

/-! ## Groups -/

/-- What holds a dot still holds it in small letters. -/
theorem mem_asciiLower_of_mem (h : .char '.' ∈ t) : .char '.' ∈ asciiLower t :=
  List.mem_map.mpr ⟨_, h, rfl⟩

/-- No alias holds a dot. -/
theorem ofAlias?_of_mem (h : .char '.' ∈ word) : ofAlias? word = none := by
  have haliases : ∀ a ∈ aliases, .char '.' ∉ a.1 := by decide +kernel
  refine Option.eq_none_iff_forall_ne_some.mpr fun k hk => ?_
  obtain ⟨front, rest, hmem, -⟩ := List.lookup_eq_some_iff.mp hk
  exact haliases (asciiLower word, k) (hmem ▸ List.mem_append_right _ List.mem_cons_self)
    (mem_asciiLower_of_mem h)

/-- **With a dot in the group or in the word** no kind is named. -/
theorem inGroup?_of_mem (h : .char '.' ∈ group ∨ .char '.' ∈ word) :
    inGroup? group word = none := by
  have hgroups : ∀ k : Kind, ∀ g ∈ k.groups, .char '.' ∉ g := by rintro (_ | _ | _) <;> decide
  rcases h with hgroup | hword
  · refine Option.filter_eq_none_iff.mpr fun k _ hk => ?_
    exact hgroups k _ (List.contains_iff_mem.mp hk) (mem_asciiLower_of_mem hgroup)
  · rw [inGroup?, ofAlias?_of_mem hword]
    rfl

/-- A group before a word. -/
theorem ofWord?_slash (hgroup : .char '/' ∉ group) (hword : .char '/' ∉ word) :
    ofWord? (group ++ .char '/' :: word) = inGroup? group word := by
  rw [ofWord?, cutLast?_append group hword]
  show inGroup? (upToSlash group) word = inGroup? group word
  rw [upToSlash, cut?_eq_none hgroup]

/-- **A group behind a word.** -/
theorem ofWord?_dot (hgroup : .char '/' ∉ group) (hword : .char '/' ∉ word) :
    ofWord? (word ++ .char '.' :: group) = inGroup? group word := by
  have hslash : .char '/' ∉ word ++ .char '.' :: group := by
    simp [hgroup, hword]
  rw [ofWord?, cutLast?_eq_none hslash]
  by_cases hdot : .char '.' ∈ word
  · -- The word ends at its own dot, and what is left of it goes to the group.
    obtain ⟨front, rest, rfl, hfront⟩ := List.eq_append_cons_of_mem hdot
    rw [List.append_assoc, List.cons_append, cut?_append hfront]
    show inGroup? (rest ++ .char '.' :: group) front = _
    rw [inGroup?_of_mem (.inr hdot)]
    exact inGroup?_of_mem (.inl (List.mem_append_right _ List.mem_cons_self))
  · rw [cut?_append hdot]

/-- **A group can be given before the word or behind it.** -/
theorem parse?_slash_eq_parse?_dot (hgroup : .char '/' ∉ group) (hword : .char '/' ∉ word)
    (hg : trim group = group) (hw : trim word = word) :
    parse? (group ++ .char '/' :: word) = parse? (word ++ .char '.' :: group) := by
  rw [parse?, parse?, trim_append_cons hg rfl hw, trim_append_cons hw rfl hg,
    ofWord?_slash hgroup hword, ofWord?_dot hgroup hword]

/-! ## Case -/

theorem inGroup?_asciiLower (group word : Text) :
    inGroup? (asciiLower group) (asciiLower word) = inGroup? group word := by
  rw [inGroup?, inGroup?, ofAlias?, ofAlias?, asciiLower_asciiLower, asciiLower_asciiLower]

theorem lookup_congr {α : Type} {l : List (Text × α)} (h : ∀ a ∈ l, (s = a.1 ↔ t = a.1)) :
    l.lookup s = l.lookup t := by
  induction l with
  | nil => rfl
  | cons a l ih =>
    obtain ⟨ha, hl⟩ := List.forall_mem_cons.mp h
    have hbeq : (s == a.1) = (t == a.1) := by rw [Bool.eq_iff_iff, beq_iff_eq, beq_iff_eq, ha]
    rw [List.lookup_cons, List.lookup_cons, hbeq, ih hl]

/-- **A spelling is folded like any text**: aliases and groups are plain words. -/
theorem inGroup?_eq_of_lowerCase (group word : Text) :
    inGroup? group word = (aliases.lookup (lowerCase word)).filter
      (fun k => k.groups.contains (lowerCase group)) := by
  have haliases : ∀ a ∈ aliases, IsPlainWord a.1 := by decide +kernel
  have hgroups : ∀ k : Kind, ∀ g ∈ k.groups, IsPlainWord g := by
    rintro (_ | _ | _) <;> decide +kernel
  rw [inGroup?, ofAlias?, lookup_congr fun a ha => lowerCase_eq_iff (haliases a ha)]
  congr 1
  funext k
  rw [Bool.eq_iff_iff, List.contains_iff_mem, List.contains_iff_mem]
  constructor
  · exact fun hmem => ((lowerCase_eq_iff (hgroups k _ hmem)).mpr rfl).symm ▸ hmem
  · exact fun hmem => ((lowerCase_eq_iff (hgroups k _ hmem)).mp rfl).symm ▸ hmem

theorem cut?_asciiLower {c : Char} (hc : c.toNat < 65) (t : Text) :
    cut? (.char c) (asciiLower t) = (cut? (.char c) t).map (Prod.map asciiLower asciiLower) :=
  cut?_map (map_toLower_eq_char_iff hc) t

theorem upToSlash_asciiLower (t : Text) : upToSlash (asciiLower t) = asciiLower (upToSlash t) := by
  rw [upToSlash, upToSlash, cut?_asciiLower (by decide)]
  cases cut? (.char '/') t <;> rfl

theorem ofWord?_asciiLower (t : Text) : ofWord? (asciiLower t) = ofWord? t := by
  have hslash : cutLast? (.char '/') (asciiLower t)
      = (cutLast? (.char '/') t).map (Prod.map asciiLower asciiLower) :=
    cutLast?_map (map_toLower_eq_char_iff (by decide)) t
  rw [ofWord?, ofWord?, hslash, cut?_asciiLower (by decide)]
  cases cutLast? (.char '/') t with
  | some p =>
    show inGroup? (upToSlash (asciiLower p.1)) (asciiLower p.2) = _
    rw [upToSlash_asciiLower, inGroup?_asciiLower]
  | none =>
    cases cut? (.char '.') t with
    | some p => exact inGroup?_asciiLower p.2 p.1
    | none => exact inGroup?_asciiLower [] t

/-- **A spelling in small letters** names what the spelling names. -/
theorem parse?_asciiLower (t : Text) : parse? (asciiLower t) = parse? t := by
  rw [parse?, parse?, trim_asciiLower, ofWord?_asciiLower]

end Kind

/-! ## Who is found by a spelling -/

/-- **A spelling finds who is registered** for the kind that it names. -/
theorem registered_spelling {α : Type} {capability : Capability} {registry : List (Kind × α)}
    {ofKind : Kind → α} (h : ∀ k, registered capability registry (.kind k) = .ok (ofKind k))
    (t : Text) :
    registered capability registry (.spelling t) =
      match Kind.parse? t with
      | some k => .ok (ofKind k)
      | none => Outcome.fail (.unsupportedKind capability t) := by
  unfold registered
  show (match Kind.parse? t with
    | some k => Outcome.ofOption (registry.lookup k)
    | none => Outcome.fail (.unsupportedKind capability t)) = _
  cases Kind.parse? t with
  | some k => exact h k
  | none => rfl

theorem Rollback.rollbackerFor_spelling (t : Text) :
    rollbackerFor (.spelling t) =
      match Kind.parse? t with
      | some k => .ok (.ofKind k)
      | none => Outcome.fail (.unsupportedKind .rollback t) :=
  registered_spelling rollbackerFor_kind t

theorem History.viewerFor_spelling (t key : Text) :
    viewerFor (.spelling t) key =
      match Kind.parse? t with
      | some k => .ok (.ofKind k key)
      | none => Outcome.fail (.unsupportedKind .history t) := by
  have hviewers : ∀ k, registered .history viewers (.kind k) = .ok (Viewer.ofKind k) := by
    rintro (_ | _ | _) <;> rfl
  rw [viewerFor, registered_spelling hviewers t]
  cases Kind.parse? t <;> rfl

namespace Kind

/-! ## Spellings that are equivalent -/

/-- **Spellings of a kind that are equivalent.** A group can be given before the word with a slash
or behind it with a dot, if neither holds a slash or begins or ends with a blank; letters can be
of either case, and blanks can stand around. A spelling finds the rollbacker and the viewer of the
kind that it names, which are the rollback and the view of that kind, and if it names none it is
refused by both. -/
theorem spellings_are_equivalent :
    (∀ group word : Text, .char '/' ∉ group → .char '/' ∉ word →
        trim group = group → trim word = word →
        parse? (group ++ .char '/' :: word) = parse? (word ++ .char '.' :: group))
      ∧ (∀ s t, asciiLower s = asciiLower t → parse? s = parse? t)
      ∧ (∀ b t e : Text, (∀ c ∈ b, c.is isBlank) → (∀ c ∈ e, c.is isBlank) →
        parse? (b ++ t ++ e) = parse? t)
      ∧ ∀ t,
        (∃ k, parse? t = some k
          ∧ Rollback.rollbackerFor (.spelling t) = .ok ⟨k, Rollback.rollBack k⟩
          ∧ ∀ key, History.viewerFor (.spelling t) key = .ok ⟨k, History.view k key⟩)
        ∨ parse? t = none
          ∧ Rollback.rollbackerFor (.spelling t) = Outcome.fail (.unsupportedKind .rollback t)
          ∧ ∀ key, History.viewerFor (.spelling t) key
            = Outcome.fail (.unsupportedKind .history t) := by
  refine ⟨fun _ _ => parse?_slash_eq_parse?_dot, fun s t h => ?_, fun b t e hb he => ?_,
    fun t => ?_⟩
  · rw [← parse?_asciiLower s, h, parse?_asciiLower]
  · rw [parse?, trim_append_blanks hb he, parse?]
  · cases hk : parse? t with
    | some k =>
      refine .inl ⟨k, rfl, ?_, fun key => ?_⟩
      · rw [Rollback.rollbackerFor_spelling, hk]
        rfl
      · rw [History.viewerFor_spelling, hk]
        rfl
    | none =>
      refine .inr ⟨rfl, ?_, fun key => ?_⟩
      · rw [Rollback.rollbackerFor_spelling, hk]
      · rw [History.viewerFor_spelling, hk]

theorem spellings_are_equivalent_apps :
    parse? "apps/Deployment" = parse? "Deployment.apps"
      ∧ parse? "v1.apps/ds" = parse? "ds.v1.apps"
      ∧ parse? "DaemonSet" = parse? "daemonSET"
      ∧ parse? "\t sts \n" = parse? "sts"
      ∧ Rollback.rollbackerFor (.spelling "sts")
        = .ok ⟨.statefulSet, Rollback.rollBack .statefulSet⟩
      ∧ History.viewerFor (.spelling "sts") changeCauseKey
        = .ok ⟨.statefulSet, History.view .statefulSet changeCauseKey⟩ := by
  obtain ⟨hgroup, hcase, hblank, hfound⟩ := spellings_are_equivalent
  have hsts : parse? "sts" = some .statefulSet := by decide +kernel
  refine ⟨hgroup "apps" "Deployment" (by decide) (by decide) (by decide) (by decide),
    hgroup "v1.apps" "ds" (by decide) (by decide) (by decide) (by decide),
    hcase "DaemonSet" "daemonSET" (by decide +kernel),
    hblank "\t " "sts" " \n" (by decide) (by decide), ?_⟩
  obtain ⟨k, hk, hrollbacker, hviewer⟩ | ⟨hnone, -⟩ := hfound "sts"
  · rw [hsts] at hk
    cases hk
    exact ⟨hrollbacker, hviewer changeCauseKey⟩
  · rw [hsts] at hnone
    cases hnone

end Kind
end Rollout
