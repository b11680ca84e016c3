/-
Location paths and the nodes they lead to.

* `Tree`, `Address`: a document and its nodes. Below the root every node is an
  element.
* `Tree.IsChild`, `Tree.IsDescendant`: how nodes are placed;
  `Tree.isDescendant_root_iff`: the elements are the descendants of the root.
* `Tree.move`, `Tree.walk`: from nodes along an axis, and along steps one after
  the other; `Tree.mem_move_iff` and `Tree.mem_walk_iff` say it with single
  nodes.
* `Location.read`: the steps of a written path; `Location.read_of_pieces`: they
  are the steps that were written.
* `Tree.evaluate`: the nodes that a written path leads to from the root.
-/
import Mathlib.Data.List.Induction
import Mathlib.Data.Set.Insert
import Mathlib.Logic.Relation
import SelectorPath.Proofs.XPath.Pieces

namespace SelectorPath.XPath

/-! ### Documents -/

/-- A document, or the part of one below a node. -/
inductive Tree where
  /-- A node, with its children in order. -/
  | node (children : List Tree)

/-- A node of a document: the way to it from the root, as the places among the
children. -/
abbrev Address := List Nat

namespace Tree

/-- The part of a document below an address, if there is a node. -/
def at? : Tree → Address → Option Tree
  | t, [] => some t
  | .node children, i :: rest => (children[i]?).bind fun child => child.at? rest

/-- There is a node at an address. -/
def Has (t : Tree) (a : Address) : Prop := (t.at? a).isSome

/-- An element is a node other than the root. -/
def IsElement (t : Tree) (a : Address) : Prop := a ≠ [] ∧ t.Has a

/-- `b` is a child of `a`. -/
def IsChild (t : Tree) (a b : Address) : Prop := ∃ i, b = a ++ [i] ∧ t.Has b

/-- `b` is a proper descendant of `a`. -/
def IsDescendant (t : Tree) : Address → Address → Prop := Relation.TransGen t.IsChild

lemma at?_append (t : Tree) (a b : Address) : t.at? (a ++ b) = (t.at? a).bind (·.at? b) := by
  induction a generalizing t with
  | nil => simp [at?]
  | cons i a ih =>
      obtain ⟨children⟩ := t
      rw [List.cons_append, at?, at?, Option.bind_assoc]
      exact congrArg _ (funext fun child => ih child)

/-- Everything above a node is there too. -/
lemma Has.of_append {t : Tree} {a b : Address} (h : t.Has (a ++ b)) : t.Has a := by
  rw [Has, at?_append] at h
  cases hat : t.at? a with
  | none => simp [hat] at h
  | some below => simp [Has, hat]

lemma IsChild.isElement {t : Tree} {a b : Address} (h : t.IsChild a b) : t.IsElement b := by
  obtain ⟨i, rfl, hb⟩ := h
  exact ⟨by simp, hb⟩

lemma IsDescendant.isElement {t : Tree} {a b : Address} (h : t.IsDescendant a b) :
    t.IsElement b := by
  obtain ⟨c, -, hcb⟩ := Relation.TransGen.tail'_iff.mp h
  exact hcb.isElement

/-- The elements are the proper descendants of the root. -/
theorem isDescendant_root_iff {t : Tree} {a : Address} : t.IsDescendant [] a ↔ t.IsElement a := by
  refine ⟨IsDescendant.isElement, ?_⟩
  induction a using List.reverseRecOn with
  | nil => exact fun h => absurd rfl h.1
  | append_singleton a i ih =>
      rintro ⟨-, hhas⟩
      have hchild : t.IsChild a (a ++ [i]) := ⟨i, rfl, hhas⟩
      by_cases hroot : a = []
      · subst hroot
        exact .single hchild
      · exact (ih ⟨hroot, hhas.of_append⟩).tail hchild

/-! ### Moving along steps -/

/-- The nodes that one step looks at. A single slash moves to the children of
the current nodes, and a double slash to the children of the current nodes and
of all their descendants. -/
def move (t : Tree) (nodes : Set Address) : Axis → Set Address
  | .child => {b | ∃ a ∈ nodes, t.IsChild a b}
  | .descendant => {b | ∃ a ∈ nodes, ∃ c, (c = a ∨ t.IsDescendant a c) ∧ t.IsChild c b}

/-- The nodes at the end of some steps. Each step keeps the nodes in the set
that its text stands for. -/
def walk (t : Tree) (sets : String → Set Address) (nodes : Set Address)
    (steps : List (Axis × String)) : Set Address :=
  steps.foldl (fun nodes step => t.move nodes step.1 ∩ sets step.2) nodes

/-- How a step along an axis relates two nodes. -/
def Along (t : Tree) : Axis → Address → Address → Prop
  | .child => t.IsChild
  | .descendant => t.IsDescendant

/-- Both axes lead to elements only. -/
lemma Along.isElement {t : Tree} {axis : Axis} {a b : Address} (h : t.Along axis a b) :
    t.IsElement b := by
  cases axis with
  | child => exact IsChild.isElement h
  | descendant => exact IsDescendant.isElement h

/-- A step leads to the children, or to the proper descendants. -/
lemma mem_move_iff {t : Tree} {nodes : Set Address} {axis : Axis} {b : Address} :
    b ∈ t.move nodes axis ↔ ∃ a ∈ nodes, t.Along axis a b := by
  cases axis with
  | child => exact Iff.rfl
  | descendant =>
      refine exists_congr fun a => and_congr_right fun _ => ?_
      rw [Along, IsDescendant, Relation.TransGen.tail'_iff]
      refine exists_congr fun c => and_congr_left fun _ => ?_
      exact Relation.reflTransGen_iff_eq_or_transGen.symm

/-- The nodes that steps are taken to one after the other, beginning at a
node. -/
def Linked (t : Tree) (sets : String → Set Address) :
    Address → List (Axis × String) → List Address → Prop
  | _, [], es => es = []
  | _, _ :: _, [] => False
  | a, step :: steps, e :: es => t.Along step.1 a e ∧ e ∈ sets step.2 ∧ Linked t sets e steps es

/-- Steps lead to a node when there are nodes to take them to, one for each
step, of which it is the last. -/
theorem mem_walk_iff {t : Tree} {sets : String → Set Address} {nodes : Set Address}
    {steps : List (Axis × String)} {b : Address} :
    b ∈ t.walk sets nodes steps ↔
      ∃ a ∈ nodes, ∃ es, t.Linked sets a steps es ∧ (a :: es).getLast? = some b := by
  induction steps generalizing nodes with
  | nil => simp [walk, Linked]
  | cons step steps ih =>
      have hstep : t.walk sets nodes (step :: steps) =
        t.walk sets (t.move nodes step.1 ∩ sets step.2) steps := rfl
      rw [hstep, ih]
      constructor
      · rintro ⟨e, ⟨hmove, hset⟩, es, hlinked, hlast⟩
        obtain ⟨a, ha, halong⟩ := mem_move_iff.mp hmove
        exact ⟨a, ha, e :: es, ⟨halong, hset, hlinked⟩, by rwa [List.getLast?_cons_cons]⟩
      · rintro ⟨a, ha, es, hlinked, hlast⟩
        cases es with
        | nil => exact hlinked.elim
        | cons e es =>
            obtain ⟨halong, hset, hlinked⟩ := hlinked
            rw [List.getLast?_cons_cons] at hlast
            exact ⟨e, ⟨mem_move_iff.mpr ⟨a, ha, halong⟩, hset⟩, es, hlinked, hlast⟩

end Tree

/-! ### Written paths -/

namespace Location

/-- The steps in the pieces between the slashes of a path. An empty piece is
inside a double slash, and a step has a text. -/
def ofPieces : List (List Char) → Option (List (Axis × String))
  | [] => some []
  | (c :: text) :: more => (ofPieces more).map ((.child, String.ofList (c :: text)) :: ·)
  | [] :: (c :: text) :: more =>
    (ofPieces more).map ((.descendant, String.ofList (c :: text)) :: ·)
  | [[]] | [] :: [] :: _ => none

/-- The steps of a path from the root. Slashes in brackets and quotations do
not count. -/
def read (path : String) : Option (List (Axis × String)) :=
  match Text.splitTopLevel '/' path.toList with
  | some ([] :: pieces) => ofPieces pieces
  | _ => none

/-- Steps are found again in their pieces. -/
lemma ofPieces_stepPieces {steps : List (Axis × String)} (h : ∀ step ∈ steps, step.2 ≠ "") :
    ofPieces ((steps.flatMap fun step => Outline.stepPieces step.1 step.2).map String.toList) =
      some steps := by
  induction steps with
  | nil => rfl
  | cons step steps ih =>
      obtain ⟨axis, text⟩ := step
      have hrest := ih fun s hs => h s (List.mem_cons_of_mem _ hs)
      obtain ⟨c, cs, htext⟩ : ∃ c cs, text.toList = c :: cs := by
        refine List.exists_cons_of_ne_nil fun hnil => ?_
        exact h (axis, text) List.mem_cons_self (by simpa using hnil)
      obtain rfl : text = String.ofList (c :: cs) := by rw [← htext, String.ofList_toList]
      rw [List.flatMap_cons, List.map_append]
      cases axis with
      | descendant => simpa [Outline.stepPieces, ofPieces] using hrest
      | child => simpa [Outline.stepPieces, ofPieces] using hrest

/-- Reading a written path gives its steps. -/
theorem read_of_pieces {o : Outline} {path : String}
    (hpath : Text.splitTopLevel '/' path.toList = some (o.pieces.map String.toList))
    (hproperty : o.property = none) (h : ∀ step ∈ o.steps, step.2 ≠ "") :
    read path = some o.steps := by
  have hpieces : o.pieces.map String.toList =
      [] :: (o.steps.flatMap fun step => Outline.stepPieces step.1 step.2).map String.toList := by
    simp [Outline.pieces, hproperty]
  rw [read, hpath, hpieces]
  exact ofPieces_stepPieces h

end Location

/-- The nodes that a path leads to from the root, if it is a path. -/
def Tree.evaluate (t : Tree) (sets : String → Set Address) (path : String) :
    Option (Set Address) :=
  (Location.read path).map (t.walk sets {[]})

end SelectorPath.XPath
