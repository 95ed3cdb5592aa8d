import CodeSmell.Proofs.Syntax.Place

/-!
# Well-formed trees

* `Node.PartsInOrder`, `Node.Ordered` : the parts of each node stand one behind the other between its
  ends;
* `Node.Regular`, `Node.WellFormed` : more than that, tokens without a name have no parts, and
  identifiers are named and not empty. Nothing is said of the parts of an identifier, which may hold
  the keyword that it is spelled with;
* `Place.Precedes` : of two places, the second is inside the first or begins where that has ended.
  The places of an ordered tree are in this order (`Ordered.pairwise_precedes`);
* `WellFormed.identifiers_increasing` : visible identifiers begin one behind the other, so that no
  more than one begins at a byte (`filter_start`);
* `declaring`, `importing` : two small files, one of which uses the other.
-/

namespace CodeSmell.Syntax

/-- The parts of a node stand one behind the other between its ends. -/
structure Node.PartsInOrder (n : Node) : Prop where
  inOrder : n.children.Pairwise fun a b => a.stop ≤ b.start
  between : ∀ c ∈ n.children, n.start ≤ c.start ∧ c.start ≤ c.stop ∧ c.stop ≤ n.stop

instance (n : Node) : Decidable n.PartsInOrder :=
  decidable_of_iff
    ((n.children.Pairwise fun a b => a.stop ≤ b.start) ∧
      ∀ c ∈ n.children, n.start ≤ c.start ∧ c.start ≤ c.stop ∧ c.stop ≤ n.stop)
    ⟨fun ⟨h₁, h₂⟩ => ⟨h₁, h₂⟩, fun ⟨h₁, h₂⟩ => ⟨h₁, h₂⟩⟩

/-- A tree in which the parts of every node are in order. -/
def Node.Ordered (root : Node) : Prop :=
  ∀ v ∈ root.places, v.node.PartsInOrder

instance (root : Node) : Decidable root.Ordered :=
  inferInstanceAs (Decidable (∀ v ∈ root.places, v.node.PartsInOrder))

/-- What a grammar promises of a single node. -/
structure Node.Regular (n : Node) : Prop where
  parts_inOrder : n.children.Pairwise fun a b => a.stop ≤ b.start
  parts_between : ∀ c ∈ n.children, n.start ≤ c.start ∧ c.start ≤ c.stop ∧ c.stop ≤ n.stop
  no_parts_of_unnamed : n.named = false → n.children = []
  named_of_identifier : n.isIdentifier = true → n.named = true
  nonempty_of_identifier : n.isIdentifier = true → n.start < n.stop

instance (n : Node) : Decidable n.Regular :=
  decidable_of_iff
    ((n.children.Pairwise fun a b => a.stop ≤ b.start) ∧
      (∀ c ∈ n.children, n.start ≤ c.start ∧ c.start ≤ c.stop ∧ c.stop ≤ n.stop) ∧
      (n.named = false → n.children = []) ∧
      (n.isIdentifier = true → n.named = true) ∧ (n.isIdentifier = true → n.start < n.stop))
    ⟨fun ⟨h₁, h₂, h₃, h₄, h₅⟩ => ⟨h₁, h₂, h₃, h₄, h₅⟩,
      fun ⟨h₁, h₂, h₃, h₄, h₅⟩ => ⟨h₁, h₂, h₃, h₄, h₅⟩⟩

theorem Node.Regular.partsInOrder {n : Node} (h : n.Regular) : n.PartsInOrder :=
  ⟨h.parts_inOrder, h.parts_between⟩

def Node.WellFormed (root : Node) : Prop :=
  ∀ v ∈ root.places, v.node.Regular

instance (root : Node) : Decidable root.WellFormed :=
  inferInstanceAs (Decidable (∀ v ∈ root.places, v.node.Regular))

theorem Node.WellFormed.ordered {root : Node} (h : root.WellFormed) : root.Ordered :=
  fun v hv => (h v hv).partsInOrder

namespace Place

/-- A place inside another one, or behind its end. -/
def Precedes (v w : Place) : Prop :=
  w ∈ v.inside ∨ v.node.stop ≤ w.node.start

theorem not_precedes_self {v : Place} (h : v.node.start < v.node.stop) :
    ¬ v.Precedes v := by
  rintro (hinside | hbehind)
  · exact absurd (path_suffix_of_mem_inside hinside).length_le (Nat.not_succ_le_self _)
  · omega

/-- A tree lies between the ends of its root. -/
theorem between_of_mem_within {v w : Place} (h : ∀ u ∈ v.within, u.node.PartsInOrder)
    (hw : w ∈ v.within) : v.node.start ≤ w.node.start ∧ w.node.stop ≤ v.node.stop := by
  obtain ⟨n, around⟩ := v
  change w ∈ n.placesFrom around at hw
  induction n using Node.parts_induction generalizing around with
  | step n ih =>
    rcases Node.mem_placesFrom.mp hw with rfl | ⟨c, hc, hw⟩
    · exact ⟨Nat.le_refl _, Nat.le_refl _⟩
    · have hpart : ∀ u ∈ c.placesFrom (n :: around), u.node.PartsInOrder := fun u hu =>
        h u (Node.mem_placesFrom.mpr (.inr ⟨c, hc, hu⟩))
      obtain ⟨hstart, hstop⟩ := ih c hc (n :: around) hpart hw
      obtain ⟨hfrom, -, hto⟩ := (h _ (self_mem_within _)).between c hc
      exact ⟨Nat.le_trans hfrom hstart, Nat.le_trans hstop hto⟩

/-- Whatever is inside a place begins before it ends. -/
theorem start_le_stop_of_mem_inside {v w : Place} (h : ∀ u ∈ v.within, u.node.PartsInOrder)
    (hw : w ∈ v.inside) : w.node.start ≤ w.node.stop := by
  obtain ⟨n, around⟩ := v
  induction n using Node.parts_induction generalizing around with
  | step n ih =>
    obtain ⟨c, hc, hwc⟩ := mem_inside.mp hw
    rw [within_eq] at hwc
    rcases List.mem_cons.mp hwc with rfl | hinside
    · exact ((h _ (self_mem_within _)).between c hc).2.1
    · refine ih c hc (n :: around) (fun u hu => h u ?_) hinside
      exact Node.mem_placesFrom.mpr (.inr ⟨c, hc, hu⟩)

end Place

namespace Node

/-- Of the places of a tree, each comes with those inside it and before those behind it. -/
theorem pairwise_inside_or_behind {n : Node} {around : List Node}
    (h : ∀ v ∈ n.placesFrom around, v.node.PartsInOrder) :
    (n.placesFrom around).Pairwise fun v w =>
      w ∈ v.inside ∨ v.node.start ≤ v.node.stop ∧ v.node.stop ≤ w.node.start := by
  induction n using parts_induction generalizing around with
  | step n ih =>
    have hparts : ∀ c ∈ n.children, ∀ u ∈ c.placesFrom (n :: around), u.node.PartsInOrder :=
      fun c hc u hu => h u (mem_placesFrom.mpr (.inr ⟨c, hc, hu⟩))
    rw [placesFrom_eq, List.pairwise_cons]
    constructor
    · intro w hw
      exact .inl hw
    · refine List.pairwise_flatMap.mpr ⟨fun c hc => ih c hc (hparts c hc), ?_⟩
      refine (h _ (self_mem_placesFrom n around)).inOrder.imp_of_mem ?_
      intro a b ha hb hab v hv w hw
      -- whatever is in the earlier part ends before the later part begins
      have hv' := (Place.between_of_mem_within (v := ⟨a, n :: around⟩) (hparts a ha) hv).2
      have hw' := (Place.between_of_mem_within (v := ⟨b, n :: around⟩) (hparts b hb) hw).1
      have hinside : v ∈ (Place.mk n around).inside := Place.mem_inside.mpr ⟨a, ha, hv⟩
      exact .inr ⟨Place.start_le_stop_of_mem_inside (v := ⟨n, around⟩) h hinside,
        Nat.le_trans hv' (Nat.le_trans hab hw')⟩

namespace Ordered

variable {root : Node} (h : root.Ordered)
include h

theorem pairwise_inside_or_behind : root.places.Pairwise fun v w =>
    w ∈ v.inside ∨ v.node.start ≤ v.node.stop ∧ v.node.stop ≤ w.node.start :=
  Node.pairwise_inside_or_behind h

theorem pairwise_precedes : root.places.Pairwise Place.Precedes :=
  h.pairwise_inside_or_behind.imp fun hvw => hvw.imp_right And.right

theorem within {v : Place} (hv : v ∈ root.places) : ∀ w ∈ v.within, w.node.PartsInOrder :=
  fun w hw => h w (within_subset_placesFrom hv hw)

theorem between {v w : Place} (hv : v ∈ root.places) (hw : w ∈ v.within) :
    v.node.start ≤ w.node.start ∧ w.node.stop ≤ v.node.stop :=
  Place.between_of_mem_within (h.within hv) hw

end Ordered

/-- Of two members of a list, one comes before the other unless they are the same. -/
theorem eq_or_of_pairwise {α : Type} {R : α → α → Prop} {l : List α} (h : l.Pairwise R) {a b : α}
    (ha : a ∈ l) (hb : b ∈ l) : a = b ∨ R a b ∨ R b a :=
  List.Pairwise.forall_of_forall_of_flip (R := fun a b => a = b ∨ R a b ∨ R b a)
    (fun _ _ => .inl rfl) (h.imp fun hab => .inr (.inl hab)) (h.imp fun hab => .inr (.inr hab)) ha hb

namespace WellFormed

variable {root : Node}

theorem pairwise_precedes (h : root.WellFormed) : root.places.Pairwise Place.Precedes :=
  h.ordered.pairwise_precedes

theorem visible_pairwise_precedes (h : root.WellFormed) :
    root.visible.Pairwise Place.Precedes :=
  h.pairwise_precedes.filter _

/-- Of two places, one comes before the other. -/
theorem comparable (h : root.WellFormed) {v w : Place} (hv : v ∈ root.places)
    (hw : w ∈ root.places) : v = w ∨ v.Precedes w ∨ w.Precedes v :=
  eq_or_of_pairwise h.pairwise_precedes hv hw

theorem regular (h : root.WellFormed) {v : Place} (hv : v ∈ root.places) : v.node.Regular :=
  h v hv

theorem regular_within (h : root.WellFormed) {v : Place} (hv : v ∈ root.places) :
    ∀ w ∈ v.within, w.node.Regular :=
  fun w hw => h w (within_subset_placesFrom hv hw)

theorem between (h : root.WellFormed) {v w : Place} (hv : v ∈ root.places) (hw : w ∈ v.within) :
    v.node.start ≤ w.node.start ∧ w.node.stop ≤ v.node.stop :=
  h.ordered.between hv hw

end WellFormed

/-! ## Visible places -/

theorem mem_places_of_mem_visible {root : Node} {v : Place} (h : v ∈ root.visible) :
    v ∈ root.places :=
  (mem_visible.mp h).1

/-- Nothing inside a closed node is visible. -/
theorem not_mem_inside_of_isClosed {root : Node} {v w : Place} (hw : w ∈ root.visible)
    (hclosed : v.node.isClosed = true) : w ∉ v.inside := by
  intro hinside
  have hopen := (mem_visible.mp hw).2 _ (Place.mem_ancestors_of_mem_inside hinside)
  rw [hclosed] at hopen
  exact absurd hopen (by decide)

/-- What follows a closed node begins behind its end. -/
theorem stop_le_start_of_isClosed {root : Node} {v w : Place} (hw : w ∈ root.visible)
    (hclosed : v.node.isClosed = true) (h : v.Precedes w) : v.node.stop ≤ w.node.start :=
  h.resolve_left (not_mem_inside_of_isClosed hw hclosed)

/-- Closed nodes that are visible stand one behind the other. -/
theorem Ordered.closed_apart {root : Node} (h : root.Ordered) {p : Node → Bool}
    (hp : ∀ n : Node, p n = true → n.isClosed = true) :
    ((root.visible.map (·.node)).filter p).Pairwise fun a b => a.stop ≤ b.start := by
  rw [List.pairwise_filter, List.pairwise_map]
  refine (h.pairwise_precedes.filter _).imp_of_mem fun {v w} _ hw hvw hclosed _ => ?_
  exact stop_le_start_of_isClosed hw (hp v.node hclosed) hvw

theorem construct_of_isIdentifier {n : Node} (h : n.isIdentifier = true) :
    n.construct = .identifier := by
  have hkind : n.kind = "identifier" := eq_of_beq h
  rw [construct, hkind]
  rfl

theorem isIdentifier_of_construct {n : Node} (h : n.construct = .identifier) :
    n.isIdentifier = true := by
  unfold construct Construct.ofKind at h
  split at h <;> cases h
  next hkind => exact beq_iff_eq.mpr hkind

theorem isClosed_of_isIdentifier {n : Node} (h : n.isIdentifier = true) : n.isClosed = true := by
  rw [isClosed, construct_of_isIdentifier h]

theorem not_isIdentifier_of_mem_ancestors {root a : Node} {v : Place} (hv : v ∈ root.visible)
    (ha : a ∈ v.ancestors) : a.isIdentifier = false := by
  rw [← Bool.not_eq_true]
  intro hid
  have hopen := (mem_visible.mp hv).2 a ha
  rw [isClosed_of_isIdentifier hid] at hopen
  cases hopen

/-- The visible identifiers, from left to right. -/
def identifiers (root : Node) : List Node :=
  (root.visible.map (·.node)).filter (·.isIdentifier)

/-- Each visible identifier begins behind those before it: no two of them begin at one byte. -/
theorem WellFormed.identifiers_increasing {root : Node} (h : root.WellFormed) :
    root.identifiers.Pairwise fun a b => a.start < b.start := by
  refine (h.ordered.closed_apart fun _ => isClosed_of_isIdentifier).imp_of_mem ?_
  intro a b ha _ hab
  obtain ⟨hvisible, hid⟩ := List.mem_filter.mp ha
  obtain ⟨v, hv, rfl⟩ := List.mem_map.mp hvisible
  have hlt := (h.regular (mem_places_of_mem_visible hv)).nonempty_of_identifier hid
  exact Nat.lt_of_lt_of_le hlt hab

/-- Of nodes that begin one behind the other, one alone begins at its byte. -/
theorem filter_start {l : List Node} {m : Node} (h : l.Pairwise fun a b => a.start < b.start)
    (hm : m ∈ l) : l.filter (·.start == m.start) = [m] := by
  obtain ⟨before, after, rfl⟩ := List.append_of_mem hm
  obtain ⟨-, hafter, hbefore⟩ := List.pairwise_append.mp h
  have hleft : before.filter (·.start == m.start) = [] := List.filter_eq_nil_iff.mpr fun a ha heq =>
    absurd (eq_of_beq heq) (Nat.ne_of_lt (hbefore a ha m List.mem_cons_self))
  have hright : after.filter (·.start == m.start) = [] := List.filter_eq_nil_iff.mpr fun a ha heq =>
    absurd (eq_of_beq heq) (Nat.ne_of_gt ((List.pairwise_cons.mp hafter).1 a ha))
  rw [List.filter_append, List.filter_cons_of_pos (by simp), hleft, hright, List.nil_append]

/-! ## Two small files -/

/-- What some nodes spell from an offset on, with blanks between them. -/
def spelled (start : Nat) : List Node → String
  | [] => ""
  | n :: rest =>
    String.ofList (List.replicate (n.start - start) ' ') ++ n.text ++ spelled n.stop rest

/-- A node with parts on the first line. -/
def phrase (kind : String) (field : Option String) (parts : List Node) : Node :=
  let start := (parts.head?.map (·.start)).getD 0
  let stop := (parts.getLast?.map (·.stop)).getD 0
  ⟨kind, true, field, start, stop, 1, spelled start parts, parts⟩

/-- An identifier on the first line. -/
def word (field : Option String) (start : Nat) (text : String) : Node :=
  ⟨"identifier", true, field, start, start + text.length, 1, text, []⟩

/-- A type that the language has a word for, on the first line. -/
def predefinedType (field : String) (start : Nat) (text : String) : Node :=
  ⟨"predefined_type", true, some field, start, start + text.length, 1, text, []⟩

/-- Punctuation or a keyword on the first line. -/
def token (start : Nat) (text : String) : Node :=
  ⟨text, false, none, start, start + text.length, 1, text, []⟩

def dottedName (field : Option String) (start : Nat) : Node :=
  phrase "qualified_name" field
    [word (some "qualifier") start "N", token (start + 1) ".", word (some "name") (start + 2) "M"]

/-- The field `A x;` of a one-letter name. -/
def fieldOfA (start : Nat) (name : String) : Node :=
  phrase "field_declaration" none
    [phrase "variable_declaration" none
      [word (some "type") start "A",
        phrase "variable_declarator" none [word (some "name") (start + 2) name]],
      token (start + 3) ";"]

/-- Declarations between braces. -/
def body (start : Nat) (parts : List Node) (stop : Nat) : Node :=
  phrase "declaration_list" (some "body") (token start "\x7b" :: parts ++ [token stop "\x7d"])

/-- A file that declares a class in a namespace: a class `@A` with a field `A b;`, in `N.M`. -/
def declaring : Node :=
  phrase "compilation_unit" none
    [phrase "namespace_declaration" none
      [token 0 "namespace", dottedName (some "name") 10,
        body 14
          [phrase "class_declaration" none
            [token 16 "class", word (some "name") 22 "@A", body 25 [fieldOfA 27 "b"] 32]]
          34]]

/-- A file that imports `N.M` and uses the class: a class `B` with an attribute `Help` and a field
`A a;`. -/
def importing : Node :=
  phrase "compilation_unit" none
    [phrase "using_directive" none [token 0 "using", dottedName none 6, token 9 ";"],
      phrase "class_declaration" none
        [phrase "attribute_list" none
          [token 11 "[", phrase "attribute" none [word (some "name") 12 "Help"], token 16 "]"],
          token 18 "class", word (some "name") 24 "B", body 26 [fieldOfA 28 "a"] 33]]

theorem importing_wellFormed : importing.WellFormed := by decide

end Node

end CodeSmell.Syntax
