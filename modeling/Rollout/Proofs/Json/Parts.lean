import Rollout.Proofs.Json.Everywhere

/-!
# The parts of a document

What is done to a document at every depth is hard to tell from the document as a whole, since
what is done to a part is out of sight behind what is done around it. Here a document is laid
out flat: its parts in the order in which they are written (`Json.parts`), each with the steps
that lead to it. A step into a list does not count the items, so that a part keeps its steps
when others in front of it go.

The outline (`Json.outline`) shows of each part no more than what it is apart from what stands
in it. That is enough, because the parts inside are listed themselves: documents of one outline
are equal (`Json.outline_inj`).

Lists and objects need not be told apart for any of this. Both are a shell with children, and
that is how induction goes here (`Json.induction_children`).
-/

namespace Rollout
namespace Json

/-- A step into a document: to the value of a field, or to an item of a list. -/
inductive Step where
  | field (name : Text)
  | item
deriving DecidableEq, Repr

/-! ## Children -/

/-- **What stands directly in a document**, with the steps that lead there. -/
def children : Json → List (Step × Json)
  | arr items => items.map fun x => (.item, x)
  | obj fs => fs.map fun f => (.field f.1, f.2)
  | _ => []

/-- What a document is apart from what stands in it. -/
def shell : Json → Json
  | arr _ => arr []
  | obj _ => obj []
  | j => j

/-- A document is its shell with its children. -/
theorem eq_of_shell_of_children {a b : Json} (hshell : a.shell = b.shell)
    (hchildren : a.children = b.children) : a = b := by
  cases a with
  | arr xs =>
    cases b with
    | arr ys =>
      have hinj : Function.Injective fun x : Json => (Step.item, x) := fun _ _ h =>
        (Prod.mk.inj h).2
      exact congrArg arr (hinj.list_map hchildren)
    | _ => cases hshell
  | obj fs =>
    cases b with
    | obj gs =>
      have hinj : Function.Injective fun f : Text × Json => (Step.field f.1, f.2) := fun f g h =>
        Prod.ext (Step.field.inj (Prod.mk.inj h).1) (Prod.mk.inj h).2
      exact congrArg obj (hinj.list_map hchildren)
    | _ => cases hshell
  | _ =>
    cases b with
    | arr ys => cases hshell
    | obj gs => cases hshell
    | _ => exact hshell

/-- **Induction on documents** by what stands in them. -/
@[elab_as_elim]
theorem induction_children {motive : Json → Prop}
    (step : ∀ j, (∀ c ∈ j.children, motive c.2) → motive j) (j : Json) : motive j := by
  induction j using Json.induction with
  | arr items ih =>
    refine step _ fun c hc => ?_
    obtain ⟨x, hx, rfl⟩ := List.mem_map.mp hc
    exact ih x hx
  | obj fs ih =>
    refine step _ fun c hc => ?_
    obtain ⟨f, hf, rfl⟩ := List.mem_map.mp hc
    exact ih f hf
  | _ => exact step _ fun c hc => absurd hc List.not_mem_nil

/-! ## Parts -/

/-- A part of what a step leads to, as a part of the whole. -/
def behind (s : Step) (p : List Step × Json) : List Step × Json :=
  (s :: p.1, p.2)

theorem behind_injective (s : Step) : Function.Injective (behind s) := fun _ _ h =>
  Prod.ext (List.cons.inj (Prod.mk.inj h).1).2 (Prod.mk.inj h).2

mutual

/-- **The parts of a document** in the order in which they are written, each with the steps
that lead to it. The document itself is the first. -/
def parts : Json → List (List Step × Json)
  | arr items => ([], arr items) :: itemParts items
  | obj fs => ([], obj fs) :: fieldParts fs
  | j => [([], j)]

/-- The parts of the items of a list. -/
def itemParts : List Json → List (List Step × Json)
  | [] => []
  | x :: xs => (parts x).map (behind .item) ++ itemParts xs

/-- The parts of the values of an object. -/
def fieldParts : List (Text × Json) → List (List Step × Json)
  | [] => []
  | (k, v) :: fs => (parts v).map (behind (.field k)) ++ fieldParts fs

end

/-- **The parts of a document are itself and the parts of its children.** -/
theorem parts_eq (j : Json) :
    j.parts = ([], j) :: j.children.flatMap fun c => c.2.parts.map (behind c.1) := by
  have hitems : ∀ items : List Json,
      itemParts items = (arr items).children.flatMap fun c => c.2.parts.map (behind c.1) := by
    intro items
    induction items with
    | nil => rfl
    | cons x xs ih =>
      rw [itemParts, ih]
      rfl
  have hfields : ∀ fs : List (Text × Json),
      fieldParts fs = (obj fs).children.flatMap fun c => c.2.parts.map (behind c.1) := by
    intro fs
    induction fs with
    | nil => rfl
    | cons f fs ih =>
      rw [fieldParts, ih]
      rfl
  cases j with
  | arr items => rw [parts, hitems]
  | obj fs => rw [parts, hfields]
  | _ => rfl

/-- What no step leads to is the document itself. -/
theorem eq_of_nil_mem_parts {j x : Json} (h : ([], x) ∈ j.parts) : x = j := by
  rw [parts_eq] at h
  rcases List.mem_cons.mp h with h | h
  · exact (Prod.mk.inj h).2
  · obtain ⟨c, -, hc⟩ := List.mem_flatMap.mp h
    obtain ⟨p, -, hp⟩ := List.mem_map.mp hc
    cases hp

/-- The first step leads to a child. -/
theorem exists_child_of_cons_mem_parts {j x : Json} {s : Step} {path : List Step}
    (h : (s :: path, x) ∈ j.parts) : ∃ c ∈ j.children, c.1 = s ∧ (path, x) ∈ c.2.parts := by
  rw [parts_eq] at h
  rcases List.mem_cons.mp h with h | h
  · cases h
  · obtain ⟨c, hc, hparts⟩ := List.mem_flatMap.mp h
    obtain ⟨p, hp, heq⟩ := List.mem_map.mp hparts
    cases heq
    exact ⟨c, hc, rfl, hp⟩

/-! ## Outlines -/

/-- What is shown of a part. -/
def outlined (p : List Step × Json) : List Step × Json :=
  (p.1, p.2.shell)

/-- **The outline of a document**: what its parts are, apart from what stands in them. -/
def outline (j : Json) : List (List Step × Json) :=
  j.parts.map outlined

theorem outline_eq (j : Json) :
    j.outline = ([], j.shell) :: j.children.flatMap fun c => c.2.outline.map (behind c.1) := by
  rw [outline, parts_eq, List.map_cons, List.map_flatMap]
  refine congrArg _ (List.flatMap_congr fun c _ => ?_)
  rw [outline, List.map_map, List.map_map]
  rfl

/-- What lies deeper than the children of a document. -/
def isDeep (p : List Step × Json) : Bool :=
  1 < p.1.length

/-- A child's outline in that of the whole starts with the child, and goes on deeper. -/
theorem exists_outline_eq_cons (c : Step × Json) :
    ∃ deep, c.2.outline.map (behind c.1) = ([c.1], c.2.shell) :: deep
      ∧ ∀ p ∈ deep, isDeep p = true := by
  refine ⟨_, by rw [outline_eq, List.map_cons]; rfl, fun p hp => ?_⟩
  obtain ⟨q, hq, rfl⟩ := List.mem_map.mp hp
  obtain ⟨d, -, hd⟩ := List.mem_flatMap.mp hq
  obtain ⟨r, -, rfl⟩ := List.mem_map.mp hd
  exact decide_eq_true (Nat.succ_lt_succ (Nat.succ_pos r.1.length))

/-- Deeper parts end where the next child starts. -/
theorem takeWhile_deep_append {deep : List (List Step × Json)} (h : ∀ p ∈ deep, isDeep p = true)
    (cs : List (Step × Json)) :
    (deep ++ cs.flatMap fun c => c.2.outline.map (behind c.1)).takeWhile isDeep = deep := by
  rw [List.takeWhile_append_of_pos h]
  cases cs with
  | nil => exact List.append_nil deep
  | cons c cs =>
    obtain ⟨rest, hrest, -⟩ := exists_outline_eq_cons c
    rw [List.flatMap_cons, hrest]
    exact List.append_nil deep

/-- Children of one outline are equal if each of them is told by its own. -/
theorem children_inj {cs ds : List (Step × Json)}
    (hcs : ∀ c ∈ cs, ∀ b : Json, c.2.outline = b.outline → c.2 = b)
    (h : (cs.flatMap fun c => c.2.outline.map (behind c.1))
      = ds.flatMap fun c => c.2.outline.map (behind c.1)) : cs = ds := by
  induction cs generalizing ds with
  | nil =>
    cases ds with
    | nil => rfl
    | cons d ds =>
      rw [List.flatMap_cons, outline_eq] at h
      cases h
  | cons c cs ih =>
    cases ds with
    | nil =>
      rw [List.flatMap_cons, outline_eq] at h
      cases h
    | cons d ds =>
      obtain ⟨hc, hcs⟩ := List.forall_mem_cons.mp hcs
      obtain ⟨deep, hdeep, hpast⟩ := exists_outline_eq_cons c
      obtain ⟨deep', hdeep', hpast'⟩ := exists_outline_eq_cons d
      rw [List.flatMap_cons, List.flatMap_cons, hdeep, hdeep', List.cons_append,
        List.cons_append] at h
      obtain ⟨hhead, htail⟩ := List.cons.inj h
      have hstep : c.1 = d.1 := (List.cons.inj (Prod.mk.inj hhead).1).1
      have heq : deep = deep' := by
        rw [← takeWhile_deep_append hpast cs, htail, takeWhile_deep_append hpast']
      subst heq
      have houtline : c.2.outline = d.2.outline := by
        refine (behind_injective c.1).list_map ?_
        rw [hdeep, hhead, ← hdeep', hstep]
      exact congrArg₂ List.cons (Prod.ext hstep (hc d.2 houtline))
        (ih hcs (List.append_cancel_left htail))

/-- **A document is told by its outline.** -/
theorem outline_inj {a b : Json} (h : a.outline = b.outline) : a = b := by
  induction a using Json.induction_children generalizing b with
  | step a ih =>
    rw [outline_eq, outline_eq] at h
    obtain ⟨hhead, htail⟩ := List.cons.inj h
    exact eq_of_shell_of_children (Prod.mk.inj hhead).2
      (children_inj (fun c hc b => ih c hc) htail)

end Json
end Rollout
