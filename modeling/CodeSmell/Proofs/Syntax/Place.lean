import CodeSmell.Facts.Contribution
import Mathlib.Data.List.Basic

/-!
# Places in a tree

* `Node.parts_induction` : what holds of a node whenever it holds of its parts holds of every node;
* `Place` : a node with the nodes around it; `Node.places` lists those of a tree from left to
  right, each before the places inside it. They are the same wherever the tree stands, but for what is
  around it (`placesFrom_eq_map`);
* `Place.within`, `Place.inside` : the places of the tree that stands at a place, with and without
  the place itself (`within_subset_placesFrom`, `mem_ancestors_of_mem_inside`);
* `Place.path` : the way from a place to the root, which leads through the places that it is within
  (`mem_of_path_suffix`, `exists_place_of_mem_ancestors`);
* `Node.isClosed`, `Node.visible` : the nodes whose parts are never looked at, and the places that
  are inside none of them (`visibleFrom_eq`), which stand together for each tree in a visible place
  (`visibleFrom_split`).
-/

namespace CodeSmell.Syntax

namespace Node

theorem size_le_sizes {c : Node} {ns : List Node} (h : c ∈ ns) : c.size ≤ sizes ns := by
  induction ns with
  | nil => exact absurd h List.not_mem_nil
  | cons n rest ih =>
    rw [sizes]
    rcases List.mem_cons.mp h with rfl | h
    · omega
    · have := ih h
      omega

theorem size_lt_of_mem_children {n c : Node} (h : c ∈ n.children) : c.size < n.size := by
  have := size_le_sizes h
  rw [n.size_eq]
  omega

/-- Induction over trees. -/
theorem parts_induction {P : Node → Prop} (step : ∀ n : Node, (∀ c ∈ n.children, P c) → P n)
    (n : Node) : P n :=
  step n fun c _ => parts_induction step c
termination_by n.size
decreasing_by exact size_lt_of_mem_children ‹_›

end Node

/-- A node and the nodes around it, the nearest first. -/
structure Place where
  node : Node
  ancestors : List Node

namespace Node

mutual

/-- The places of a tree that stands inside the nodes `around`. -/
def placesFrom (around : List Node) : Node → List Place
  | n@⟨_, _, _, _, _, _, _, children⟩ => ⟨n, around⟩ :: placesAmong (n :: around) children

def placesAmong (around : List Node) : List Node → List Place
  | [] => []
  | n :: rest => n.placesFrom around ++ placesAmong around rest

end

theorem placesAmong_eq (around : List Node) (ns : List Node) :
    placesAmong around ns = ns.flatMap (placesFrom around) := by
  induction ns with
  | nil => rfl
  | cons n rest ih => rw [placesAmong, ih, List.flatMap_cons]

theorem placesFrom_eq (n : Node) (around : List Node) :
    n.placesFrom around = ⟨n, around⟩ :: n.children.flatMap (placesFrom (n :: around)) := by
  rw [← placesAmong_eq]
  cases n
  rfl

/-- The places of a tree, each before those inside it. -/
def places (root : Node) : List Place :=
  root.placesFrom []

theorem self_mem_placesFrom (n : Node) (around : List Node) :
    ⟨n, around⟩ ∈ n.placesFrom around := by
  rw [placesFrom_eq]
  exact List.mem_cons_self

theorem mem_placesFrom {n : Node} {around : List Node} {v : Place} :
    v ∈ n.placesFrom around ↔
      v = ⟨n, around⟩ ∨ ∃ c ∈ n.children, v ∈ c.placesFrom (n :: around) := by
  rw [placesFrom_eq, List.mem_cons, List.mem_flatMap]

/-- The places of a tree, with what is around the tree behind what is around them in it. -/
theorem placesFrom_eq_map (n : Node) (around : List Node) :
    n.placesFrom around = n.places.map fun v => ⟨v.node, v.ancestors ++ around⟩ := by
  have hmore : ∀ inner, n.placesFrom (inner ++ around) =
      (n.placesFrom inner).map fun v => ⟨v.node, v.ancestors ++ around⟩ := by
    induction n using parts_induction with
    | step n ih =>
      intro inner
      rw [placesFrom_eq, placesFrom_eq, List.map_cons, List.map_flatMap]
      refine congrArg (_ :: ·) (List.flatMap_congr fun c hc => ?_)
      exact ih c hc (n :: inner)
  exact hmore []

/-- What is around a tree is around each of its places. -/
theorem suffix_ancestors {n : Node} {around : List Node} {v : Place}
    (h : v ∈ n.placesFrom around) : around <:+ v.ancestors := by
  induction n using parts_induction generalizing around with
  | step n ih =>
    rcases mem_placesFrom.mp h with rfl | ⟨c, hc, hv⟩
    · exact List.suffix_refl around
    · exact (List.suffix_cons n around).trans (ih c hc hv)

end Node

namespace Place

/-- The places of the tree that stands at a place. -/
def within (v : Place) : List Place :=
  v.node.placesFrom v.ancestors

def inside (v : Place) : List Place :=
  v.node.children.flatMap (Node.placesFrom (v.node :: v.ancestors))

def part (v : Place) (c : Node) : Place :=
  ⟨c, v.node :: v.ancestors⟩

theorem within_eq (v : Place) : v.within = v :: v.inside :=
  v.node.placesFrom_eq v.ancestors

theorem self_mem_within (v : Place) : v ∈ v.within := by
  rw [within_eq]
  exact List.mem_cons_self

theorem inside_subset_within (v : Place) : v.inside ⊆ v.within := by
  rw [within_eq]
  exact List.subset_cons_self v v.inside

theorem mem_inside {v w : Place} : w ∈ v.inside ↔ ∃ c ∈ v.node.children, w ∈ (v.part c).within :=
  List.mem_flatMap

theorem part_mem_inside {v : Place} {c : Node} (h : c ∈ v.node.children) :
    v.part c ∈ v.inside :=
  mem_inside.mpr ⟨c, h, self_mem_within _⟩

/-- A node and the nodes around it: the way from a place to the root. -/
def path (v : Place) : List Node :=
  v.node :: v.ancestors

theorem eq_of_path_eq {v w : Place} (h : v.path = w.path) : v = w := by
  obtain ⟨n, around⟩ := v
  obtain ⟨m, around'⟩ := w
  obtain ⟨rfl, rfl⟩ := List.cons.inj h
  rfl

theorem path_suffix_of_mem_inside {v w : Place} (h : w ∈ v.inside) : v.path <:+ w.ancestors := by
  obtain ⟨c, -, hw⟩ := mem_inside.mp h
  exact Node.suffix_ancestors hw

theorem path_suffix_of_mem_within {v w : Place} (h : w ∈ v.within) : v.path <:+ w.path := by
  rw [within_eq] at h
  rcases List.mem_cons.mp h with rfl | h
  · exact List.suffix_refl _
  · exact (path_suffix_of_mem_inside h).trans (List.suffix_cons _ _)

theorem mem_ancestors_of_mem_inside {v w : Place} (h : w ∈ v.inside) :
    v.node ∈ w.ancestors :=
  (path_suffix_of_mem_inside h).subset List.mem_cons_self

end Place

namespace Node

theorem within_subset_placesFrom {n : Node} {around : List Node} {v : Place}
    (h : v ∈ n.placesFrom around) : v.within ⊆ n.placesFrom around := by
  induction n using parts_induction generalizing around with
  | step n ih =>
    rcases mem_placesFrom.mp h with rfl | ⟨c, hc, hv⟩
    · exact List.Subset.refl _
    · intro w hw
      exact mem_placesFrom.mpr (.inr ⟨c, hc, ih c hc hv hw⟩)

theorem part_mem_places {root : Node} {v : Place} {c : Node} (hv : v ∈ root.places)
    (hc : c ∈ v.node.children) : v.part c ∈ root.places :=
  within_subset_placesFrom hv (Place.inside_subset_within v (Place.part_mem_inside hc))

/-- The way from a place to the root leads through just the places that it is within. -/
theorem mem_of_path_suffix {n : Node} {around : List Node} {v w : Place}
    (hw : w ∈ n.placesFrom around) (hlength : around.length < v.path.length)
    (h : v.path <:+ w.path) : v ∈ n.placesFrom around ∧ w ∈ v.within := by
  induction n using parts_induction generalizing around with
  | step n ih =>
    by_cases hhere : v.path.length = around.length + 1
    · have hroot : (Place.mk n around).path <:+ w.path :=
        Place.path_suffix_of_mem_within (v := ⟨n, around⟩) hw
      have heq : v.path = (Place.mk n around).path :=
        (List.suffix_of_suffix_length_le h hroot (Nat.le_of_eq hhere)).eq_of_length hhere
      obtain rfl := Place.eq_of_path_eq heq
      exact ⟨self_mem_placesFrom n around, hw⟩
    · rcases mem_placesFrom.mp hw with rfl | ⟨c, hc, hwc⟩
      · have hle : v.path.length ≤ around.length + 1 := h.length_le
        omega
      · have hinner : (n :: around).length < v.path.length := by
          rw [List.length_cons]
          omega
        obtain ⟨hv, hwv⟩ := ih c hc hwc hinner
        exact ⟨mem_placesFrom.mpr (.inr ⟨c, hc, hv⟩), hwv⟩

/-- What is around a place stands at a place itself, which the other one is inside. -/
theorem exists_place_of_mem_ancestors {root a : Node} {v : Place} (hv : v ∈ root.places)
    (ha : a ∈ v.ancestors) : ∃ u ∈ root.places, u.node = a ∧ v ∈ u.inside := by
  obtain ⟨near, far, hsplit⟩ := List.append_of_mem ha
  have hpath : (Place.mk a far).path <:+ v.path := by
    refine ⟨v.node :: near, ?_⟩
    rw [Place.path, Place.path, hsplit]
    rfl
  obtain ⟨hu, hwithin⟩ := mem_of_path_suffix hv (Nat.succ_pos _) hpath
  refine ⟨⟨a, far⟩, hu, rfl, ?_⟩
  rw [Place.within_eq] at hwithin
  rcases List.mem_cons.mp hwithin with rfl | hinside
  · have hlength : far.length = (near ++ a :: far).length := congrArg List.length hsplit
    rw [List.length_append, List.length_cons] at hlength
    omega
  · exact hinside

/-! ## What is looked at -/

/-- Whether the parts of a node are never looked at: those of a directive, of a type parameter, of
a lambda's parameter without a type, of an identifier and of a number, with or without a sign. -/
def isClosed (n : Node) : Bool :=
  match n.construct with
  | .usingDirective | .typeParameter | .bareParameter | .identifier | .number => true
  | .prefixed => n.negated?.isSome
  | _ => false

end Node

/-- Whether a place is inside no closed node. -/
def Place.isVisible (v : Place) : Bool :=
  v.ancestors.all fun a => !a.isClosed

namespace Node

/-- The visible places of a tree that stands inside the nodes `around`. -/
def visibleFrom (around : List Node) (n : Node) : List Place :=
  (n.placesFrom around).filter (·.isVisible)

/-- The places of a tree that are inside no closed node, from left to right. -/
def visible (root : Node) : List Place :=
  root.visibleFrom []

theorem mem_visible {root : Node} {v : Place} :
    v ∈ root.visible ↔ v ∈ root.places ∧ ∀ a ∈ v.ancestors, a.isClosed = false := by
  simp only [visible, visibleFrom, places, List.mem_filter, Place.isVisible, List.all_eq_true,
    Bool.not_eq_true']

/-- What a visible place is within is visible. -/
theorem mem_visible_of_path_suffix {root : Node} {v w : Place} (hw : w ∈ root.visible)
    (h : v.path <:+ w.path) : v ∈ root.visible ∧ w ∈ v.within := by
  obtain ⟨hplace, hopen⟩ := mem_visible.mp hw
  obtain ⟨hv, hwithin⟩ := mem_of_path_suffix hplace (Nat.succ_pos _) h
  have haround : v.ancestors ⊆ w.ancestors := by
    rcases List.suffix_cons_iff.mp h with heq | hinside
    · exact (List.cons.inj heq).2 ▸ List.Subset.refl _
    · exact fun a ha => hinside.subset (List.mem_cons_of_mem _ ha)
  exact ⟨mem_visible.mpr ⟨hv, fun a ha => hopen a (haround ha)⟩, hwithin⟩

theorem visibleFrom_eq_nil {n : Node} {around : List Node}
    (h : ∃ a ∈ around, a.isClosed = true) : n.visibleFrom around = [] := by
  obtain ⟨a, ha, hclosed⟩ := h
  apply List.filter_eq_nil_iff.mpr
  intro v hv hvisible
  have hopen := List.all_eq_true.mp hvisible a ((suffix_ancestors hv).subset ha)
  rw [hclosed] at hopen
  exact absurd hopen (by decide)

/-- The visible places of a tree that is visible itself: the root, and what is visible of its
parts unless it is closed. -/
theorem visibleFrom_eq {n : Node} {around : List Node} (h : ∀ a ∈ around, a.isClosed = false) :
    n.visibleFrom around =
      ⟨n, around⟩ :: if n.isClosed then [] else n.children.flatMap (visibleFrom (n :: around)) := by
  have hself : (Place.mk n around).isVisible = true :=
    List.all_eq_true.mpr fun a ha => by rw [h a ha]; rfl
  rw [visibleFrom, placesFrom_eq, List.filter_cons_of_pos hself, List.filter_flatMap]
  congr 1
  split
  · next hclosed =>
    apply List.flatMap_eq_nil_iff.mpr
    intro c _
    exact visibleFrom_eq_nil ⟨n, List.mem_cons_self, hclosed⟩
  · rfl

/-- What is visible of a tree in a visible place stands together. -/
theorem visibleFrom_split {n : Node} {around : List Node} {v : Place}
    (hopen : ∀ a ∈ around, a.isClosed = false) (hv : v ∈ n.visibleFrom around) :
    ∃ before after,
      n.visibleFrom around = before ++ v.node.visibleFrom v.ancestors ++ after := by
  induction n using parts_induction generalizing around with
  | step n ih =>
    rw [visibleFrom_eq hopen] at hv
    rcases List.mem_cons.mp hv with rfl | hinside
    · exact ⟨[], [], (List.append_nil _).symm⟩
    · cases hclosed : n.isClosed with
      | true => simp [hclosed] at hinside
      | false =>
        rw [hclosed, if_neg (by decide)] at hinside
        obtain ⟨c, hc, hvc⟩ := List.mem_flatMap.mp hinside
        have hopen' : ∀ a ∈ n :: around, a.isClosed = false :=
          List.forall_mem_cons.mpr ⟨hclosed, hopen⟩
        obtain ⟨before, after, hsplit⟩ := ih c hc hopen' hvc
        obtain ⟨left, right, hchildren⟩ := List.append_of_mem hc
        refine ⟨⟨n, around⟩ :: left.flatMap (visibleFrom (n :: around)) ++ before,
          after ++ right.flatMap (visibleFrom (n :: around)), ?_⟩
        rw [visibleFrom_eq hopen, hclosed, if_neg (by decide), hchildren, List.flatMap_append,
          List.flatMap_cons, hsplit]
        simp only [List.append_assoc, List.cons_append]

end Node

end CodeSmell.Syntax
