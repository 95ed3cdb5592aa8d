import CodeSmell.Proofs.Facts.Callables
import CodeSmell.Proofs.Facts.PatternVariables
import CodeSmell.Proofs.Facts.Positions
import CodeSmell.Proofs.Facts.Variables

/-!
# The order of declarations

* `Place.names_eq` : the nodes that name what a place declares, by the kind of the place; they stand one
  behind the other (`WellFormed.names_inOrder`);
* `Node.NamesLead` : the names of a place stand in front of those of all places inside it. This is when
  the declarations of a file are in the order of its text (`increasing_iff_namesLead`);
* `Node.OwnNamesLead`, `Node.OnlyLastDeclares` : a name stands in front of what is declared inside its
  own declarator or inside the node that it names; in a group of variables, nothing is declared in front
  of the last name. Together they say the same (`OwnNamesLead.namesLead_iff`);
* `declarations_in_source_order` : these together, and the naming violations of a file. With
  `f = X => X, G = Y => Y` they are out of order (`lambdaFields_out_of_order`).
-/

namespace CodeSmell

open Syntax

namespace Syntax

/-! ## Names of a place -/

namespace Place

theorem map_site_named (n : Node) (kind : DeclarationKind) (sites : List Node) :
    (sites.map (Introduction.named n kind)).map (·.site) = sites := by
  rw [List.map_map]
  exact List.map_id _

/-- The names of a place, by its kind. -/
theorem names_eq (v : Place) : v.names =
    match v.node.construct with
    | .typeDeclaration _ | .declaration _ | .namespaceBlock | .fileNamespace =>
      (v.node.childByField? "name").toList
    | .variableGroup => v.node.variableNames
    | .operator | .conversion => (v.node.childOfKind? "operator").toList
    | .accessor =>
      (v.node.childByField? "name" <|>
        v.node.children.find? (Node.accessorWords.contains ·.kind)).toList
    | .pattern => v.node.designation?.toList.flatMap Node.designated
    | .loop =>
      if (v.node.childByField? "type").isSome then
        (v.node.childByField? "left").toList.flatMap Node.designated
      else []
    | .lambda => v.node.loneParameter?.toList
    | .bareParameter => [v.node]
    | _ => [] := by
  unfold names Node.introduced Node.namespaceName?
  cases v.node.construct with
  | typeDeclaration | declaration | lambda =>
    exact (List.append_nil _).trans (map_site_named _ _ _)
  | pattern =>
    dsimp only
    rw [Node.patternVariables_eq]
    exact (List.append_nil _).trans (map_site_named _ _ _)
  | variableGroup => exact (List.append_nil _).trans (map_site_named _ _ _)
  | operator | conversion =>
    dsimp only
    rw [v.node.operator_eq, List.map_map]
    exact (List.append_nil _).trans (List.map_id _)
  | accessor =>
    dsimp only
    rw [v.node.accessor_eq, List.map_map]
    exact (List.append_nil _).trans (List.map_id _)
  | loop =>
    dsimp only
    rw [Node.loopVariables_eq]
    split
    · exact (List.append_nil _).trans (map_site_named _ _ _)
    · rfl
  | _ => rfl

theorem names_of_isLink {v : Place} (h : v.node.isLink = true) : v.names = [] := by
  rw [names_eq, Node.construct_of_isLink h]

end Place

namespace Node

theorem pairwise_toList {α : Type} {R : α → α → Prop} (o : Option α) : o.toList.Pairwise R := by
  cases o with
  | none => exact .nil
  | some a => exact List.pairwise_singleton R a

section

variable {root : Node} (h : root.WellFormed) {v : Place} (hv : v ∈ root.visible)
include h hv

theorem WellFormed.designated_inOrder (hopen : v.node.isClosed = false) {d : Option Node}
    (hd : ∀ n, d = some n → n ∈ v.node.children) :
    (d.toList.flatMap designated).Pairwise fun a b => a.start ≤ b.start := by
  cases d with
  | none => exact .nil
  | some n =>
    have hpart : v.part n ∈ root.visible := mem_visible_of_leadsTo hv hopen (.part (hd n rfl))
    rw [Option.toList_some, List.flatMap_singleton]
    exact (h.designated_increasing hpart).imp Nat.le_of_lt

/-- The names of a place stand one behind the other. -/
theorem WellFormed.names_inOrder : v.names.Pairwise fun a b => a.start ≤ b.start := by
  have hplace := mem_places_of_mem_visible hv
  rw [v.names_eq]
  cases hconstruct : v.node.construct with
  | variableGroup =>
    refine (h.variableNames_apart hplace).imp_of_mem fun {m _} hm _ hmm' => ?_
    obtain ⟨d, hd, -, hmd⟩ := mem_variableNames hm
    have hwidth := ((h.regular (part_mem_places hplace hd)).parts_between m hmd).2.1
    exact Nat.le_trans hwidth hmm'
  | pattern =>
    have hopen : v.node.isClosed = false := by rw [isClosed, hconstruct]
    exact h.designated_inOrder hv hopen fun _ => mem_children_of_designation?
  | loop =>
    have hopen : v.node.isClosed = false := by rw [isClosed, hconstruct]
    dsimp only
    split
    · exact h.designated_inOrder hv hopen fun _ => mem_children_of_childByField?
    · exact .nil
  | bareParameter => exact List.pairwise_singleton _ _
  | operator | conversion | accessor | typeDeclaration | declaration | namespaceBlock
  | fileNamespace | lambda => exact pairwise_toList _
  | _ => exact .nil

end

end Node

/-! ## Names inside a place -/

/-- The names of one place stand in front of those of another. -/
def Place.Leads (v w : Place) : Prop :=
  ∀ m ∈ v.names, ∀ n ∈ w.names, m.start ≤ n.start

instance (v w : Place) : Decidable (v.Leads w) :=
  inferInstanceAs (Decidable (∀ m ∈ v.names, _))

namespace Node

/-- The names of each place stand in front of those of all places inside it. -/
def NamesLead (root : Node) : Prop :=
  ∀ v ∈ root.visible, ∀ w ∈ v.inside, w.isVisible = true → v.Leads w

instance (root : Node) : Decidable root.NamesLead :=
  inferInstanceAs (Decidable (∀ v ∈ root.visible, _))

theorem mem_visible_of_mem_within {root : Node} {v w : Place} (hv : v ∈ root.visible)
    (hw : w ∈ v.within) (hvisible : w.isVisible = true) : w ∈ root.visible :=
  List.mem_filter.mpr
    ⟨within_subset_placesFrom (mem_places_of_mem_visible hv) hw, hvisible⟩

namespace Ordered

variable {root : Node} (h : root.Ordered)
include h

/-- Of two places that come one behind the other, the first has its names in front. -/
theorem leads_of_stop_le {v w : Place} (hv : v ∈ root.places) (hw : w ∈ root.places)
    (hwidth : v.node.start ≤ v.node.stop) (hvw : v.node.stop ≤ w.node.start) : v.Leads w := by
  intro m hm n hn
  obtain ⟨u, hu, rfl⟩ := Place.holds_of_mem_names hm
  obtain ⟨u', hu', rfl⟩ := Place.holds_of_mem_names hn
  obtain ⟨hbehind, -⟩ := h.between hw hu'
  have hfront : u.node.start ≤ v.node.stop := by
    rw [Place.within_eq] at hu
    rcases List.mem_cons.mp hu with rfl | hinside
    · exact hwidth
    · have hthin := Place.start_le_stop_of_mem_inside (h.within hv) hinside
      exact Nat.le_trans hthin (h.between hv (v.inside_subset_within hinside)).2
  exact Nat.le_trans hfront (Nat.le_trans hvw hbehind)

/-- Visible places have their names one behind the other just when each has them in front of those
inside it. -/
theorem pairwise_leads_iff : root.visible.Pairwise Place.Leads ↔ root.NamesLead := by
  constructor
  · intro hpair v hv w hw hvisible
    obtain ⟨before, after, hsplit⟩ := visibleFrom_split (List.forall_mem_nil _) hv
    have hself : v.isVisible = true := (List.mem_filter.mp hv).2
    -- a place and what is visible inside it stand together among the visible places
    have htree : v.node.visibleFrom v.ancestors = v :: v.inside.filter (·.isVisible) := by
      rw [visibleFrom, ← Place.within, v.within_eq, List.filter_cons_of_pos hself]
    rw [visible, hsplit, htree] at hpair
    have htogether := (List.pairwise_append.mp (List.pairwise_append.mp hpair).1).2.1
    exact List.rel_of_pairwise_cons htogether (List.mem_filter.mpr ⟨hw, hvisible⟩)
  · intro hlead
    refine (h.pairwise_inside_or_behind.filter _).imp_of_mem ?_
    rintro v w hv hw (hinside | ⟨hwidth, hbehind⟩)
    · exact hlead v hv w hinside (List.mem_filter.mp hw).2
    · exact h.leads_of_stop_le (List.mem_of_mem_filter hv) (List.mem_of_mem_filter hw) hwidth hbehind

end Ordered

/-! ## Names of their own -/

/-- A declarator that names a variable. -/
def declaresVariable (d : Node) : Bool :=
  d.named && d.kind == "variable_declarator" && d.variableName?.isSome

/-- Each name stands in front of the names that are declared inside its own declarator, or, if it is no
variable of a group, inside the node that it names, as in its parameter list and its body. -/
structure OwnNamesLead (root : Node) : Prop where
  node : ∀ v ∈ root.visible, v.node.construct ≠ .variableGroup →
    ∀ w ∈ v.inside, w.isVisible = true → v.Leads w
  declarator : ∀ v ∈ root.visible, v.node.construct = .variableGroup →
    ∀ d ∈ v.node.declarators, ∀ m ∈ d.variableName?.toList,
      ∀ w ∈ (v.part d).inside, w.isVisible = true → ∀ n ∈ w.names, m.start ≤ n.start

instance (root : Node) : Decidable root.OwnNamesLead :=
  decidable_of_iff
    ((∀ v ∈ root.visible, v.node.construct ≠ .variableGroup →
        ∀ w ∈ v.inside, w.isVisible = true → v.Leads w) ∧
      ∀ v ∈ root.visible, v.node.construct = .variableGroup →
        ∀ d ∈ v.node.declarators, ∀ m ∈ d.variableName?.toList,
          ∀ w ∈ (v.part d).inside, w.isVisible = true → ∀ n ∈ w.names, m.start ≤ n.start)
    ⟨fun ⟨h₁, h₂⟩ => ⟨h₁, h₂⟩, fun ⟨h₁, h₂⟩ => ⟨h₁, h₂⟩⟩

/-- In a group of variables, nothing in front of a declarator that names one declares anything. -/
def OnlyLastDeclares (root : Node) : Prop :=
  ∀ v ∈ root.visible, v.node.construct = .variableGroup →
    v.node.children.Pairwise fun c d => d.declaresVariable = true →
      ∀ w ∈ (v.part c).within, w.isVisible = true → w.names = []

instance (root : Node) : Decidable root.OnlyLastDeclares :=
  inferInstanceAs (Decidable (∀ v ∈ root.visible, _))

def NoEmptyNames (root : Node) : Prop :=
  ∀ v ∈ root.visible, ∀ n ∈ v.names, n.start < n.stop

instance (root : Node) : Decidable root.NoEmptyNames :=
  inferInstanceAs (Decidable (∀ v ∈ root.visible, _))

theorem names_of_variableGroup {v : Place} (hgroup : v.node.construct = .variableGroup) :
    v.names = v.node.variableNames := by
  rw [v.names_eq, hgroup]

section

variable {root : Node} (h : root.WellFormed) {v : Place} (hv : v ∈ root.visible)
  (hgroup : v.node.construct = .variableGroup)
include h hv hgroup

/-- What names a variable stands inside its declarator. -/
theorem exists_declarator {m : Node} (hm : m ∈ v.names) :
    ∃ d ∈ v.node.declarators, d.variableName? = some m ∧ d.declaresVariable = true ∧
      d.start ≤ m.start ∧ m.start ≤ d.stop := by
  rw [names_of_variableGroup hgroup, variableNames_eq] at hm
  obtain ⟨d, hd, hname⟩ := List.mem_filterMap.mp hm
  obtain ⟨hnamed, hkind⟩ := List.mem_filter.mp hd
  have hdeclares : d.declaresVariable = true := by
    rw [declaresVariable, (List.mem_filter.mp hnamed).2, hkind, hname]
    rfl
  have hplace := part_mem_places (mem_places_of_mem_visible hv) (mem_declarators hd).1
  obtain ⟨hstart, hthin, hstop⟩ :=
    (h.regular hplace).parts_between m (mem_children_of_variableName? hname)
  exact ⟨d, hd, hname, hdeclares, hstart, Nat.le_trans hthin hstop⟩

theorem mem_names_of_declaresVariable {d : Node} (hd : d ∈ v.node.children)
    (hdeclares : d.declaresVariable = true) :
    ∃ m ∈ v.names, d.start ≤ m.start := by
  unfold declaresVariable at hdeclares
  rw [Bool.and_eq_true, Bool.and_eq_true] at hdeclares
  obtain ⟨⟨hnamed, hkind⟩, hname⟩ := hdeclares
  obtain ⟨m, hm⟩ := Option.isSome_iff_exists.mp hname
  have hmem : d ∈ v.node.declarators :=
    List.mem_filter.mpr ⟨List.mem_filter.mpr ⟨hd, hnamed⟩, hkind⟩
  have hplace := part_mem_places (mem_places_of_mem_visible hv) hd
  refine ⟨m, ?_, ((h.regular hplace).parts_between m (mem_children_of_variableName? hm)).1⟩
  rw [names_of_variableGroup hgroup, variableNames_eq]
  exact List.mem_filterMap.mpr ⟨d, hmem, hm⟩

/-- A group whose names stand in front of what their own declarators declare has them in front of
everything, if nothing else is declared in front of the last. -/
theorem leads_of_onlyLastDeclares (hown : root.OwnNamesLead) (hlast : root.OnlyLastDeclares)
    {w : Place} (hw : w ∈ v.inside) (hvisible : w.isVisible = true) : v.Leads w := by
  intro m hm n hn
  obtain ⟨d, hd, hname, hdeclares, hfrom, hto⟩ := exists_declarator h hv hgroup hm
  have hdpart := (mem_declarators hd).1
  obtain ⟨c, hc, hwc⟩ := Place.mem_inside.mp hw
  have hplace := mem_places_of_mem_visible hv
  have hbehind : c.start ≤ n.start := by
    obtain ⟨u, hu, rfl⟩ := Place.holds_of_mem_names hn
    have hwithin := within_subset_placesFrom (part_mem_places hplace hc) hwc
    exact Nat.le_trans (h.between (part_mem_places hplace hc) hwc).1 (h.between hwithin hu).1
  -- the part with the other name is the declarator itself, in front of it, or behind it
  let Before (a b : Node) : Prop := a.stop ≤ b.start ∧ (b.declaresVariable = true →
    ∀ u ∈ (v.part a).within, u.isVisible = true → u.names = [])
  have hpair : v.node.children.Pairwise Before :=
    (h.regular hplace).parts_inOrder.and (hlast v hv hgroup)
  rcases eq_or_of_pairwise hpair hc hdpart with rfl | ⟨-, hquiet⟩ | ⟨hdc, -⟩
  · rw [Place.within_eq] at hwc
    rcases List.mem_cons.mp hwc with rfl | hinside
    · rw [Place.names_of_isLink (v := v.part c) (mem_declarators hd).2] at hn
      cases hn
    · exact hown.declarator v hv hgroup c hd m (Option.mem_toList.mpr hname) w hinside hvisible n hn
  · rw [hquiet hdeclares w hwc hvisible] at hn
    cases hn
  · exact Nat.le_trans hto (Nat.le_trans hdc hbehind)

end

namespace OwnNamesLead

variable {root : Node} (hown : root.OwnNamesLead) (h : root.WellFormed)
include hown h

theorem namesLead (hlast : root.OnlyLastDeclares) : root.NamesLead := by
  intro v hv w hw hvisible
  by_cases hgroup : v.node.construct = .variableGroup
  · exact leads_of_onlyLastDeclares h hv hgroup hown hlast hw hvisible
  · exact hown.node v hv hgroup w hw hvisible

/-- Where names stand in front of what their own declarators and nodes declare, all of them do just when
groups of variables declare nothing in front of their last names. -/
theorem namesLead_iff (hfilled : root.NoEmptyNames) : root.NamesLead ↔ root.OnlyLastDeclares := by
  refine ⟨fun hlead v hv hgroup => ?_, hown.namesLead h⟩
  have hplace := mem_places_of_mem_visible hv
  refine (h.regular hplace).parts_inOrder.imp_of_mem ?_
  intro c d hc hd hcd hdeclares w hw hvisible
  refine List.eq_nil_iff_forall_not_mem.mpr fun n hn => ?_
  obtain ⟨m, hm, hstart⟩ := mem_names_of_declaresVariable h hv hgroup hd hdeclares
  have hinside : w ∈ v.inside := Place.mem_inside.mpr ⟨c, hc, hw⟩
  have hmn := hlead v hv w hinside hvisible m hm n hn
  have hwidth := hfilled w
    (mem_visible_of_mem_within hv (v.inside_subset_within hinside) hvisible) n hn
  -- what is declared in the part in front ends before the name behind it begins
  obtain ⟨u, hu, rfl⟩ := Place.holds_of_mem_names hn
  have hcplace := part_mem_places hplace hc
  have hu' := (h.between (within_subset_placesFrom hcplace hw) hu).2
  have hw' : w.node.stop ≤ c.stop := (h.between hcplace hw).2
  omega

end OwnNamesLead

end Node

end Syntax

/-! ## Declarations of a file -/

namespace Facts

variable (path : String) {tree : Tree}

/-- The declarations of a file come in the order of its text just when names stand in front of what is
declared inside the places that they name. -/
theorem increasing_iff_namesLead (h : tree.root.WellFormed) :
    (ofTree path tree).declarations.Pairwise (·.position.byte ≤ ·.position.byte) ↔
      tree.root.NamesLead := by
  have hpositions : (ofTree path tree).declarations.map (·.position) =
      tree.root.visible.flatMap fun v => v.names.map (·.position) := Findings.walk_positions tree.root
  have hmap : (ofTree path tree).declarations.Pairwise (·.position.byte ≤ ·.position.byte) ↔
      ((ofTree path tree).declarations.map (·.position)).Pairwise (·.byte ≤ ·.byte) :=
    (List.pairwise_map (f := Declaration.position) (R := fun p q => p.byte ≤ q.byte)).symm
  rw [hmap, hpositions, List.pairwise_flatMap, ← h.ordered.pairwise_leads_iff]
  refine (and_iff_right fun v hv => ?_).trans (iff_of_eq (congrArg (tree.root.visible.Pairwise ·) ?_))
  · exact List.pairwise_map.mpr (h.names_inOrder hv)
  · funext v w
    simp only [List.forall_mem_map]
    rfl

/-- The naming violations of a file are one for each of some declarations, in their order. -/
theorem exists_violating (f : Facts) : ∃ ds : List Declaration, ds.Sublist f.declarations ∧
    ds.map (·.namingViolation? f.path) = f.namingViolations.map some := by
  refine ⟨f.declarations.filter fun d => (d.namingViolation? f.path).isSome,
    List.filter_sublist, ?_⟩
  unfold namingViolations
  induction f.declarations with
  | nil => rfl
  | cons d rest ih =>
    rw [List.filter_cons, List.filterMap_cons]
    cases hviolation : d.namingViolation? f.path with
    | none => exact ih
    | some x =>
      rw [if_pos Option.isSome_some, List.map_cons, ih, hviolation]
      rfl

theorem line_of_namingViolation? {d : Declaration} {file : String} {x : NamingViolation}
    (h : d.namingViolation? file = some x) : x.line = d.position.line := by
  obtain ⟨type, -, hx⟩ := Option.bind_eq_some_iff.mp h
  split at hx
  · cases hx
  · rw [← Option.some.inj hx]

/-- Where declarations come in the order of the text, naming violations come line by line. -/
theorem namingViolations_lines {text : String} (hlines : tree.root.HasLinesOf text)
    (hordered : (ofTree path tree).declarations.Pairwise (·.position.byte ≤ ·.position.byte)) :
    (ofTree path tree).namingViolations.Pairwise (·.line ≤ ·.line) := by
  refine List.pairwise_filterMap.mpr (hordered.imp_of_mem ?_)
  intro d e hd he hbyte x hx y hy
  rw [line_of_namingViolation? hx, line_of_namingViolation? hy]
  exact Position.IsIn.line_le (declarations_isIn path hlines d hd)
    (declarations_isIn path hlines e he) hbyte

end Facts

/-- **Declarations in source order.** The declarations of a file are in the order of its text if and
only if each name stands in front of all names that are declared inside the node that gives it. Where
each stands in front of those in its own declarator or node, this is so if and only if groups of
variables declare nothing in front of the last of their names. Then the naming violations are one for
each of some declarations, in their order and from line to line. -/
theorem declarations_in_source_order (path : String) (tree : Tree) (text : String)
    (h : tree.root.WellFormed) (hlines : tree.root.HasLinesOf text) :
    let f := Facts.ofTree path tree
    let InOrder := f.declarations.Pairwise (·.position.byte ≤ ·.position.byte)
    (InOrder ↔ tree.root.NamesLead) ∧
      (tree.root.OwnNamesLead →
        (tree.root.OnlyLastDeclares → InOrder) ∧
        (tree.root.NoEmptyNames → InOrder → tree.root.OnlyLastDeclares)) ∧
      (∃ ds : List Declaration, ds.Sublist f.declarations ∧
        ds.map (·.namingViolation? path) = f.namingViolations.map some) ∧
      (InOrder → f.namingViolations.Pairwise (·.line ≤ ·.line)) := by
  intro f InOrder
  have hiff : InOrder ↔ tree.root.NamesLead := Facts.increasing_iff_namesLead path h
  refine ⟨hiff, fun hown => ⟨fun hlast => hiff.mpr (hown.namesLead h hlast), ?_⟩,
    f.exists_violating, Facts.namingViolations_lines path hlines⟩
  exact fun hfilled hordered => (hown.namesLead_iff h hfilled).mp (hiff.mp hordered)

/-- The fields `f` and `G = Y => Y` on two lines. -/
def lambdaFieldText : String :=
  "class C \x7b F f,\n G = Y => Y; \x7d"

def lambdaField : Tree :=
  (Tree.ofPreorder? lambdaFieldText false
    [⟨0, "compilation_unit", true, none, 0, 29⟩,
      ⟨1, "class_declaration", true, none, 0, 29⟩,
        ⟨2, "class", false, none, 0, 5⟩,
        ⟨2, "identifier", true, some "name", 6, 7⟩,
        ⟨2, "declaration_list", true, some "body", 8, 29⟩,
          ⟨3, "\x7b", false, none, 8, 9⟩,
          ⟨3, "field_declaration", true, none, 10, 27⟩,
            ⟨4, "variable_declaration", true, none, 10, 26⟩,
              ⟨5, "identifier", true, some "type", 10, 11⟩,
              ⟨5, "variable_declarator", true, none, 12, 13⟩,
                ⟨6, "identifier", true, some "name", 12, 13⟩,
              ⟨5, ",", false, none, 13, 14⟩,
              ⟨5, "variable_declarator", true, none, 16, 26⟩,
                ⟨6, "identifier", true, some "name", 16, 17⟩,
                ⟨6, "=", false, none, 18, 19⟩,
                ⟨6, "lambda_expression", true, none, 20, 26⟩,
                  ⟨7, "implicit_parameter", true, some "parameters", 20, 21⟩,
                  ⟨7, "=>", false, none, 22, 24⟩,
                  ⟨7, "identifier", true, some "body", 25, 26⟩,
            ⟨4, ";", false, none, 26, 27⟩,
          ⟨3, "\x7d", false, none, 28, 29⟩]).getD Tree.unrecognizable

/-- Only the last of these fields declares a parameter, and so they are in order. -/
theorem lambdaField_in_order :
    (lambdaField.root.WellFormed ∧ lambdaField.root.HasLinesOf lambdaFieldText) ∧
      ((Facts.ofTree "A.cs" lambdaField).declarations.map fun d => (d.name, d.position.line)) =
        [("C", 1), ("f", 1), ("G", 2), ("Y", 2)] ∧
      (Facts.ofTree "A.cs" lambdaField).declarations.Pairwise
        (·.position.byte ≤ ·.position.byte) ∧
      (Facts.ofTree "A.cs" lambdaField).namingViolations.Pairwise (·.line ≤ ·.line) := by
  have hwf : lambdaField.root.WellFormed := by decide +kernel
  have hlines : lambdaField.root.HasLinesOf lambdaFieldText := by decide +kernel
  obtain ⟨-, hown, -, hviolations⟩ :=
    declarations_in_source_order "A.cs" lambdaField lambdaFieldText hwf hlines
  have hordered := (hown (by decide +kernel)).1 (by decide +kernel)
  exact ⟨⟨hwf, hlines⟩, by decide +kernel, hordered, hviolations hordered⟩

/-- The fields `f = X => X` and `G = Y => Y` on two lines. -/
def lambdaFieldsText : String :=
  "class C \x7b F f = X => X,\n G = Y => Y; \x7d"

def lambdaFields : Tree :=
  (Tree.ofPreorder? lambdaFieldsText false
    [⟨0, "compilation_unit", true, none, 0, 38⟩,
      ⟨1, "class_declaration", true, none, 0, 38⟩,
        ⟨2, "class", false, none, 0, 5⟩,
        ⟨2, "identifier", true, some "name", 6, 7⟩,
        ⟨2, "declaration_list", true, some "body", 8, 38⟩,
          ⟨3, "\x7b", false, none, 8, 9⟩,
          ⟨3, "field_declaration", true, none, 10, 36⟩,
            ⟨4, "variable_declaration", true, none, 10, 35⟩,
              ⟨5, "identifier", true, some "type", 10, 11⟩,
              ⟨5, "variable_declarator", true, none, 12, 22⟩,
                ⟨6, "identifier", true, some "name", 12, 13⟩,
                ⟨6, "=", false, none, 14, 15⟩,
                ⟨6, "lambda_expression", true, none, 16, 22⟩,
                  ⟨7, "implicit_parameter", true, some "parameters", 16, 17⟩,
                  ⟨7, "=>", false, none, 18, 20⟩,
                  ⟨7, "identifier", true, some "body", 21, 22⟩,
              ⟨5, ",", false, none, 22, 23⟩,
              ⟨5, "variable_declarator", true, none, 25, 35⟩,
                ⟨6, "identifier", true, some "name", 25, 26⟩,
                ⟨6, "=", false, none, 27, 28⟩,
                ⟨6, "lambda_expression", true, none, 29, 35⟩,
                  ⟨7, "implicit_parameter", true, some "parameters", 29, 30⟩,
                  ⟨7, "=>", false, none, 31, 33⟩,
                  ⟨7, "identifier", true, some "body", 34, 35⟩,
            ⟨4, ";", false, none, 35, 36⟩,
          ⟨3, "\x7d", false, none, 37, 38⟩]).getD Tree.unrecognizable

/-- The second field is recorded in front of the parameter of the first, although each name stands in
front of what its own declarator declares. -/
theorem lambdaFields_out_of_order :
    lambdaFields.root.WellFormed ∧ lambdaFields.root.HasLinesOf lambdaFieldsText ∧
      lambdaFields.root.OwnNamesLead ∧
      ((Facts.ofTree "A.cs" lambdaFields).declarations.map fun d => (d.name, d.position.line)) =
        [("C", 1), ("f", 1), ("G", 2), ("X", 1), ("Y", 2)] ∧
      ¬ (Facts.ofTree "A.cs" lambdaFields).declarations.Pairwise
        (·.position.byte ≤ ·.position.byte) ∧
      ((Facts.ofTree "A.cs" lambdaFields).namingViolations.map fun x =>
        (x.identifierName, x.line)) = [("G", 2), ("X", 1), ("Y", 2)] ∧
      ¬ (Facts.ofTree "A.cs" lambdaFields).namingViolations.Pairwise (·.line ≤ ·.line) := by
  refine ⟨?_, ?_, ?_, ?_, ?_, ?_, ?_⟩ <;> decide +kernel

end CodeSmell
