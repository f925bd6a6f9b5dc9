import Mathlib.Data.List.Find
import Mathlib.Data.List.Permutation
import Rollout.Patch.Order
import Rollout.Proofs.Json.Sameness

/-!
# An order sorts and does not shuffle

An order gives places to identities, the last place to one that it lists more than once
(`Patch.IsLastPlace`). Elements are put at the places of their identities. The listed ones
therefore come in the sequence of the order, and since sorting is stable, neither elements of
one identity nor elements that are not listed change places among themselves. All of this holds
of every order that can be carried out (`Patch.IsPutInOrder`).

Where the elements that are not listed stand as a whole is another matter. They are put at the
place behind as many identities as there are. Without repetitions this is behind the last entry,
and they follow all that are listed (`Patch.order_is_stable`). A repetition leaves the entries
behind it where they are and lowers the number of identities, so that the last entries may stand
at that place or behind it, and what is not listed before what is
(`Patch.exists_unlisted_before_listed`).
-/

namespace Rollout
namespace Patch

open Json (WellFormed)

/-! ## Places -/

/-- **The last place at which an identity is listed.** -/
def IsLastPlace (identities : List Json) (i : Json) (n : Nat) : Prop :=
  (∃ e, identities[n]? = some e ∧ i.same e = true)
    ∧ ∀ m e, n < m → identities[m]? = some e → i.same e = false

variable {i j : Json} {identities : List Json}

theorem isIn_eq_false_iff : i.isIn identities = false ↔ ∀ e ∈ identities, i.same e = false := by
  simp [Json.isIn]

/-- What is the same is listed alike. -/
theorem isIn_congr (hi : WellFormed i) (hj : WellFormed j) (hids : ∀ e ∈ identities, WellFormed e)
    (h : i.same j = true) : i.isIn identities = j.isIn identities := by
  rw [Bool.eq_iff_iff, Json.isIn, Json.isIn, List.any_eq_true, List.any_eq_true]
  refine exists_congr fun e => and_congr_right fun he => ?_
  rw [Json.same_congr hi hj (hids e he) h]

theorem IsLastPlace.isIn {n : Nat} (h : IsLastPlace identities i n) :
    i.isIn identities = true := by
  obtain ⟨e, he, hi⟩ := h.1
  exact List.any_eq_true.mpr ⟨e, List.mem_of_getElem? he, hi⟩

theorem IsLastPlace.lt_length {n : Nat} (h : IsLastPlace identities i n) :
    n < identities.length := by
  obtain ⟨e, he, -⟩ := h.1
  exact (List.getElem?_eq_some_iff.mp he).1

/-- The first entry is the last one that lists an identity if no entry behind it does. -/
theorem isLastPlace_zero_iff {e : Json} :
    IsLastPlace (e :: identities) i 0 ↔ i.same e = true ∧ i.isIn identities = false := by
  rw [isIn_eq_false_iff]
  constructor
  · rintro ⟨⟨e', he', hi⟩, hlast⟩
    cases he'
    refine ⟨hi, fun e' he' => ?_⟩
    obtain ⟨m, hm⟩ := List.mem_iff_getElem?.mp he'
    exact hlast (m + 1) e' (Nat.succ_pos m) hm
  · rintro ⟨hi, hlast⟩
    refine ⟨⟨e, rfl, hi⟩, fun m e' hm he' => ?_⟩
    obtain ⟨m, rfl⟩ := Nat.exists_eq_add_one_of_ne_zero hm.ne'
    exact hlast e' (List.mem_of_getElem? he')

theorem isLastPlace_succ_iff {e : Json} {n : Nat} :
    IsLastPlace (e :: identities) i (n + 1) ↔ IsLastPlace identities i n := by
  refine and_congr Iff.rfl ⟨fun h m e' hm he' => ?_, fun h m e' hm he' => ?_⟩
  · exact h (m + 1) e' (Nat.succ_lt_succ hm) he'
  · obtain ⟨m, rfl⟩ := Nat.exists_eq_add_one_of_ne_zero (Nat.ne_zero_of_lt hm)
    exact h m e' (Nat.lt_of_succ_lt_succ hm) he'

/-- An identity that is listed has a last place. -/
theorem exists_isLastPlace (h : i.isIn identities = true) : ∃ n, IsLastPlace identities i n := by
  induction identities with
  | nil => cases h
  | cons e identities ih =>
    cases hrest : i.isIn identities with
    | true => exact (ih hrest).imp' (· + 1) fun n hn => isLastPlace_succ_iff.mpr hn
    | false =>
      have he : (i.same e || i.isIn identities) = true := h
      rw [hrest, Bool.or_false] at he
      exact ⟨0, isLastPlace_zero_iff.mpr ⟨he, hrest⟩⟩

/-- An identity that is listed is found at its last place. -/
theorem exists_find?_lastPlaces (hi : WellFormed i) (hids : ∀ e ∈ identities, WellFormed e)
    {n : Nat} (h : IsLastPlace identities i n) (k : Nat) :
    ∃ e, (lastPlaces identities k).find? (fun p => i.same p.1) = some (e, k + n) := by
  induction identities generalizing n k with
  | nil => cases h.isIn
  | cons e identities ih =>
    obtain ⟨he, hids⟩ := List.forall_mem_cons.mp hids
    rw [lastPlaces]
    cases n with
    | zero =>
      obtain ⟨hie, hlast⟩ := isLastPlace_zero_iff.mp h
      rw [← isIn_congr hi he hids hie, hlast]
      exact ⟨e, List.find?_cons_of_pos hie⟩
    | succ n =>
      have hrest := isLastPlace_succ_iff.mp h
      obtain ⟨e', hfound⟩ := ih hids hrest (k + 1)
      rw [Nat.add_right_comm] at hfound
      refine ⟨e', ?_⟩
      cases hagain : e.isIn identities with
      | true => exact hfound
      | false =>
        -- an entry that is not listed again is not the one whose last place comes later
        have hie : ¬i.same e = true := by
          intro hie
          rw [← isIn_congr hi he hids hie, hrest.isIn] at hagain
          cases hagain
        exact (List.find?_cons_of_neg (p := fun p : Json × Nat => i.same p.1) hie).trans hfound

/-- **A listed identity has its last place.** -/
theorem place_of_isLastPlace (hi : WellFormed i) (hids : ∀ e ∈ identities, WellFormed e)
    {n : Nat} (h : IsLastPlace identities i n) : place (lastPlaces identities 0) i = n := by
  obtain ⟨e, he⟩ := exists_find?_lastPlaces hi hids h 0
  rw [place, he]
  exact Nat.zero_add n

theorem mem_of_mem_lastPlaces {k : Nat} {p : Json × Nat} (h : p ∈ lastPlaces identities k) :
    p.1 ∈ identities := by
  induction identities generalizing k with
  | nil => cases h
  | cons e identities ih =>
    rw [lastPlaces] at h
    split at h
    · exact List.mem_cons_of_mem e (ih h)
    · rcases List.mem_cons.mp h with rfl | h
      · exact List.mem_cons_self
      · exact List.mem_cons_of_mem e (ih h)

/-- **What is not listed has the place behind as many identities as there are.** -/
theorem place_of_not_isIn (h : i.isIn identities = false) :
    place (lastPlaces identities 0) i = (lastPlaces identities 0).length := by
  have hnone : (lastPlaces identities 0).find? (fun p => i.same p.1) = none := by
    refine List.find?_eq_none.mpr fun p hp => ?_
    exact Bool.eq_false_iff.mp (isIn_eq_false_iff.mp h p.1 (mem_of_mem_lastPlaces hp))
  rw [place, hnone]

/-- Identities that are the same have the same place. -/
theorem place_congr (hi : WellFormed i) (hj : WellFormed j)
    (hids : ∀ e ∈ identities, WellFormed e) (h : i.same j = true) :
    place (lastPlaces identities 0) i = place (lastPlaces identities 0) j := by
  have hfind : (lastPlaces identities 0).find? (fun p => i.same p.1)
      = (lastPlaces identities 0).find? (fun p => j.same p.1) :=
    List.find?_congr fun p hp =>
      Json.same_congr hi hj (hids p.1 (mem_of_mem_lastPlaces hp)) h
  rw [place, place, hfind]

/-- Without repetitions there are as many identities as entries. -/
theorem length_lastPlaces (h : identities.Pairwise (fun a b => a.same b = false)) (k : Nat) :
    (lastPlaces identities k).length = identities.length := by
  induction identities generalizing k with
  | nil => rfl
  | cons e identities ih =>
    obtain ⟨he, hids⟩ := List.pairwise_cons.mp h
    rw [lastPlaces, if_neg (Bool.eq_false_iff.mp (isIn_eq_false_iff.mpr he)), List.length_cons,
      ih hids, List.length_cons]

/-! ## Sorting by places -/

/-- **What stands at one place is not moved by sorting**: it keeps its order. -/
theorem filter_mergeSort {α : Type} (f : α → Nat) {items : List α} {p : α → Bool}
    (h : ∀ a ∈ items, ∀ b ∈ items, p a = true → p b = true → f a = f b) :
    (items.mergeSort (fun a b => f a ≤ f b)).filter p = items.filter p := by
  have hp : (items.filter p).Pairwise (fun a b => decide (f a ≤ f b) = true) :=
    List.pairwise_of_forall_mem_list fun a ha b hb => by
      obtain ⟨ha, hpa⟩ := List.mem_filter.mp ha
      obtain ⟨hb, hpb⟩ := List.mem_filter.mp hb
      exact decide_eq_true (h a ha b hb hpa hpb).le
  have hsub : (items.filter p).Sublist (items.mergeSort (fun a b => f a ≤ f b)) :=
    List.sublist_mergeSort (fun a b c => by simpa using le_trans)
      (fun a b => by simpa using le_total (f a) (f b)) hp List.filter_sublist
  have hfilter := hsub.filter p
  rw [List.filter_filter] at hfilter
  simp only [Bool.and_self] at hfilter
  exact (hfilter.eq_of_length ((List.mergeSort_perm items _).filter p).length_eq.symm).symm

/-- Identities are parts of the elements. -/
theorem wellFormed_identity {x : Json} (hx : WellFormed x) (key? : Option Text) :
    WellFormed (identity key? x) := by
  unfold identity
  split
  · rename_i key fs
    rw [Fields.getD]
    cases hv : Fields.get? fs key with
    | none => exact rfl
    | some v => exact hx.get? hv
  · exact hx

/-- The order lists the identity of an element. -/
def isOrdered (key? : Option Text) (entries : List Json) (x : Json) : Bool :=
  (identity key? x).isIn (entries.map (identity key?))

/-- The last place at which the order lists the identity of an element. -/
def HasPlace (key? : Option Text) (entries : List Json) (x : Json) (n : Nat) : Prop :=
  IsLastPlace (entries.map (identity key?)) (identity key? x) n

/-- The number of identities that the order lists. -/
def identityCount (key? : Option Text) (entries : List Json) : Nat :=
  (lastPlaces (entries.map (identity key?)) 0).length

/-- **The elements of a list were put in an order**: they are the same elements. Those that the
order lists stand in the sequence of their last places, and those of one identity as they stood
before. So do those that it does not list; and one of them stands before a listed one only if
the place of that is no longer before the number of identities. -/
structure IsPutInOrder (key? : Option Text) (entries items sorted : List Json) : Prop where
  perm : sorted.Perm items
  sequence : sorted.Pairwise fun a b => ∀ m n, HasPlace key? entries a m →
    HasPlace key? entries b n → m ≤ n
  stable : ∀ x ∈ items, sorted.filter (fun a => (identity key? a).same (identity key? x))
    = items.filter (fun a => (identity key? a).same (identity key? x))
  others : sorted.filter (fun a => !isOrdered key? entries a)
    = items.filter (fun a => !isOrdered key? entries a)
  behind : sorted.Pairwise fun a b => isOrdered key? entries a = false →
    ∀ n, HasPlace key? entries b n → identityCount key? entries ≤ n

/-- **A list is put in order by every order that can be carried out.** -/
theorem isPutInOrder {key? : Option Text} {path : Text} {items entries sorted : List Json}
    (hitems : ∀ x ∈ items, WellFormed x) (hentries : ∀ x ∈ entries, WellFormed x)
    (h : inOrder key? path items (.arr entries) = .ok sorted) :
    IsPutInOrder key? entries items sorted := by
  have hids : ∀ e ∈ entries.map (identity key?), WellFormed e := by
    intro e he
    obtain ⟨x, hx, rfl⟩ := List.mem_map.mp he
    exact wellFormed_identity (hentries x hx) key?
  have hidentity : ∀ x ∈ items, WellFormed (identity key? x) := fun x hx =>
    wellFormed_identity (hitems x hx) key?
  rw [inOrder] at h
  split at h
  · set placeOf := fun x => place (lastPlaces (entries.map (identity key?)) 0) (identity key? x)
    obtain rfl := Except.ok.inj h
    have hmem : ∀ {x}, x ∈ items.mergeSort (fun a b => placeOf a ≤ placeOf b) → x ∈ items :=
      List.mem_mergeSort.mp
    have hplace : ∀ {x n}, x ∈ items → HasPlace key? entries x n → placeOf x = n :=
      fun hx hn => place_of_isLastPlace (hidentity _ hx) hids hn
    have hcount : ∀ {x}, isOrdered key? entries x = false → placeOf x = identityCount key? entries :=
      fun hx => place_of_not_isIn hx
    have hsorted : (items.mergeSort (fun a b => placeOf a ≤ placeOf b)).Pairwise
        (fun a b => placeOf a ≤ placeOf b) :=
      (List.pairwise_mergeSort (fun a b c => by simpa using le_trans)
        (fun a b => by simpa using le_total (placeOf a) (placeOf b)) items).imp of_decide_eq_true
    refine ⟨List.mergeSort_perm _ _, ?_, fun x hx => ?_, ?_, ?_⟩
    · refine hsorted.imp_of_mem fun ha hb hab m n hm hn => ?_
      rwa [hplace (hmem ha) hm, hplace (hmem hb) hn] at hab
    · refine filter_mergeSort placeOf fun a ha b hb hax hbx => ?_
      exact (place_congr (hidentity a ha) (hidentity x hx) hids hax).trans
        (place_congr (hidentity b hb) (hidentity x hx) hids hbx).symm
    · refine filter_mergeSort placeOf fun a ha b hb hax hbx => ?_
      rw [Bool.not_eq_true'] at hax hbx
      rw [hcount hax, hcount hbx]
    · refine hsorted.imp_of_mem fun ha hb hab ha' n hn => ?_
      rwa [hcount ha', hplace (hmem hb) hn] at hab
  · cases h

/-- Without repetitions there are as many identities as entries. -/
theorem identityCount_eq_length {key? : Option Text} {entries : List Json}
    (h : entries.Pairwise (fun a b => (identity key? a).same (identity key? b) = false)) :
    identityCount key? entries = entries.length := by
  rw [identityCount, length_lastPlaces (List.pairwise_map.mpr h), List.length_map]

/-- **An order is stable, and what it does not list comes last** – unless it lists an identity
twice. -/
theorem order_is_stable {field path : Text} {items entries sorted : List Json}
    (hitems : ∀ x ∈ items, WellFormed x) (hentries : ∀ x ∈ entries, WellFormed x)
    (h : inOrder (mergeKey? field) path items (.arr entries) = .ok sorted) :
    IsPutInOrder (mergeKey? field) entries items sorted
      ∧ (entries.Pairwise (fun a b =>
            (identity (mergeKey? field) a).same (identity (mergeKey? field) b) = false) →
          sorted.Pairwise fun a b => isOrdered (mergeKey? field) entries b = true →
            isOrdered (mergeKey? field) entries a = true) := by
  have hput := isPutInOrder hitems hentries h
  refine ⟨hput, fun hdistinct => hput.behind.imp fun {a b} hbehind hb => ?_⟩
  by_contra ha
  obtain ⟨n, hn⟩ := exists_isLastPlace hb
  have hle := hbehind (Bool.eq_false_iff.mpr ha) n hn
  have hlt := hn.lt_length
  rw [identityCount_eq_length hdistinct] at hle
  rw [List.length_map] at hlt
  exact absurd hlt hle.not_gt

/-- Two containers of one name among others. -/
def scatteredContainers : List Json :=
  [.obj [("name", .str "log"), ("image", .str "log:1")], .obj [("name", .str "proxy")],
    .obj [("name", .str "web")], .obj [("name", .str "cache")],
    .obj [("name", .str "log"), ("image", .str "log:2")]]

/-- An order that lists a container by an element and another one by its name. -/
def webThenLog : List Json := [.obj [("name", .str "web")], .str "log"]

/-- The containers in that order. -/
def gatheredContainers : List Json :=
  [.obj [("name", .str "web")], .obj [("name", .str "log"), ("image", .str "log:1")],
    .obj [("name", .str "log"), ("image", .str "log:2")], .obj [("name", .str "proxy")],
    .obj [("name", .str "cache")]]

theorem order_is_stable_webThenLog :
    inOrder (mergeKey? "containers") "containers" scatteredContainers (.arr webThenLog)
        = .ok gatheredContainers
      ∧ IsPutInOrder (mergeKey? "containers") webThenLog scatteredContainers gatheredContainers
      ∧ gatheredContainers.Pairwise fun a b =>
          isOrdered (mergeKey? "containers") webThenLog b = true →
            isOrdered (mergeKey? "containers") webThenLog a = true := by
  have h : inOrder (mergeKey? "containers") "containers" scatteredContainers (.arr webThenLog)
      = .ok gatheredContainers := by
    rw [show mergeKey? "containers" = some "name" from rfl]
    cbv
  obtain ⟨hput, hfirst⟩ := order_is_stable (by decide) (by decide) h
  exact ⟨h, hput, hfirst (by decide)⟩

/-! ### An order with a repetition -/

/-- **What is not listed may come before what is**, where an order lists an identity twice. -/
theorem exists_unlisted_before_listed :
    ¬∀ (field path : Text) (items entries sorted : List Json),
      (∀ x ∈ items, WellFormed x) → (∀ x ∈ entries, WellFormed x) →
      inOrder (mergeKey? field) path items (.arr entries) = .ok sorted →
        sorted.Pairwise fun a b => isOrdered (mergeKey? field) entries b = true →
          isOrdered (mergeKey? field) entries a = true := by
  intro h
  have hkept : inOrder (mergeKey? "containers") "containers"
      [.obj [("name", .str "log")], .obj [("name", .str "web")]]
      (.arr [.str "proxy", .str "proxy", .str "web"])
      = .ok [.obj [("name", .str "log")], .obj [("name", .str "web")]] := by
    rw [show mergeKey? "containers" = some "name" from rfl]
    cbv
  have hpair := h "containers" "containers" _ _ _ (by decide) (by decide) hkept
  have hfirst := List.rel_of_pairwise_cons hpair (List.mem_singleton.mpr rfl) (by decide)
  cases hfirst

end Patch
end Rollout
