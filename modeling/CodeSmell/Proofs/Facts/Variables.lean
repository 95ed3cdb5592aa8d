import CodeSmell.Proofs.Facts.Declarers
import CodeSmell.Proofs.Facts.Remarks

/-!
# The variables of declarators

* `Node.bound` : the identifiers that stand in front of the equals sign of a declarator: its name, or
  else those of a tuple;
* `Node.NamesVariable`, `Node.variableName?` : a declarator with a name in front of the equals sign; the
  identifier that is taken for its name in any case;
* `eq_part_of_declares` : what a group of variables declares are these;
* `variables_recorded` : each variable that is named is recorded once, and what is behind the equals
  sign is left alone. A declarator without a name declares the first identifier in it, and the
  identifiers of its tuple are recorded as references (`deconstruction_declares_source`).
-/

namespace CodeSmell

open Syntax

namespace Syntax

namespace Node

/-! ## Declarators -/

def declarators (n : Node) : List Node :=
  n.namedChildren.filter (·.kind == "variable_declarator")

/-- The parts in front of the equals sign. -/
def targetParts (d : Node) : List Node :=
  d.children.takeWhile (·.kind != "=")

/-- The parts behind the equals sign. -/
def sourceParts (d : Node) : List Node :=
  (d.children.dropWhile (·.kind != "=")).tail

/-- The identifiers that a declarator binds: its name, or else those of a tuple in front of the equals
sign. -/
def bound (d : Node) : List Node :=
  match d.childByField? "name" with
  | some name => [name]
  | none => (d.targetParts.filter (·.kind == "tuple_pattern")).flatMap designated

/-- A declarator names its variable in front of the equals sign. -/
structure NamesVariable (d name : Node) : Prop where
  field : d.childByField? "name" = some name
  front : name ∈ d.targetParts
  word : name.isIdentifier = true

/-- What is taken for the name of a declarator: the first identifier in it if it has none. -/
def variableName? (d : Node) : Option Node :=
  d.childByField? "name" <|> d.namedChildOfKind? "identifier"

theorem variableNames_eq (n : Node) : n.variableNames = n.declarators.filterMap variableName? :=
  rfl

theorem NamesVariable.variableName?_eq {d name : Node} (h : d.NamesVariable name) :
    d.variableName? = some name := by
  rw [variableName?, h.field]
  rfl

theorem mem_declarators {n d : Node} (h : d ∈ n.declarators) :
    d ∈ n.children ∧ d.isLink = true := by
  obtain ⟨hnamed, hkind⟩ := List.mem_filter.mp h
  refine ⟨mem_children_of_mem_namedChildren hnamed, ?_⟩
  rw [isLink, eq_of_beq hkind]
  decide

theorem mem_children_of_variableName? {d m : Node} (h : d.variableName? = some m) :
    m ∈ d.children := by
  rcases some_or_some_of_orElse h with hname | hfirst
  · exact mem_children_of_childByField? hname
  · exact mem_children_of_namedChildOfKind? hfirst

theorem mem_children_of_mem_sourceParts {d e : Node} (h : e ∈ d.sourceParts) : e ∈ d.children :=
  (List.dropWhile_suffix _).subset (List.mem_of_mem_tail h)

/-- Whatever is in front of the equals sign ends before what is behind it begins. -/
theorem Regular.stop_le_start_of_source {d target source : Node} (h : d.Regular)
    (htarget : target ∈ d.targetParts) (hsource : source ∈ d.sourceParts) :
    target.stop ≤ source.start := by
  have hsplit := h.parts_inOrder
  rw [← List.takeWhile_append_dropWhile (p := (·.kind != "=")) (l := d.children)] at hsplit
  exact (List.pairwise_append.mp hsplit).2.2 target htarget source (List.mem_of_mem_tail hsource)

theorem NamesVariable.not_mem_sourceParts {d name : Node} (h : d.NamesVariable name)
    (hd : d.Regular) (hname : name.Regular) : name ∉ d.sourceParts := by
  intro hsource
  have hstop := hd.stop_le_start_of_source h.front hsource
  have hlt := hname.nonempty_of_identifier h.word
  omega

/-- Declarators with names bind these, and they are what the group takes for the names. -/
theorem flatMap_bound {n : Node} (h : ∀ d ∈ n.declarators, ∃ name, d.NamesVariable name) :
    n.declarators.flatMap bound = n.variableNames := by
  rw [variableNames_eq, List.filterMap_eq_flatMap_toList]
  refine List.flatMap_congr fun d hd => ?_
  obtain ⟨name, hname⟩ := h d hd
  rw [bound, hname.variableName?_eq, hname.field]
  rfl

/-- What is taken for the names of variables stands one behind the other, as their declarators do. -/
theorem WellFormed.variableNames_apart {root : Node} (h : root.WellFormed) {v : Place}
    (hv : v ∈ root.places) : v.node.variableNames.Pairwise fun a b => a.stop ≤ b.start := by
  have hordered : v.node.declarators.Pairwise fun a b => a.stop ≤ b.start :=
    ((h.regular hv).parts_inOrder.filter _).filter _
  rw [variableNames_eq, List.pairwise_filterMap]
  refine hordered.imp_of_mem ?_
  intro a b ha hb hab m hm m' hm'
  have hin {d : Node} (hd : d ∈ v.node.declarators) : d.Regular :=
    h.regular (part_mem_places hv (mem_declarators hd).1)
  obtain ⟨-, -, hstop⟩ := (hin ha).parts_between m (mem_children_of_variableName? hm)
  obtain ⟨hstart, -, -⟩ := (hin hb).parts_between m' (mem_children_of_variableName? hm')
  omega

theorem isIdentifier_of_variableName? {d m : Node} (hunnamed : d.childByField? "name" = none)
    (hm : d.variableName? = some m) : m.isIdentifier = true := by
  rw [variableName?, hunnamed] at hm
  exact List.find?_some hm

/-! ## What a group declares -/

theorem leadsTo_variableName {v : Place} {d m : Node} (hd : d ∈ v.node.declarators)
    (hm : d.variableName? = some m) : v.LeadsTo ((v.part d).part m) := by
  obtain ⟨hpart, hlink⟩ := mem_declarators hd
  exact .of_part hpart hlink (.part (v := v.part d) (mem_children_of_variableName? hm))

section

variable {v : Place} (hgroup : v.node.construct = .variableGroup)
include hgroup

/-- A group of variables introduces what is taken for their names, all by one node and of one kind. -/
theorem introduced_of_variableGroup :
    ∃ owner kind,
      v.node.introduced v.ancestors = v.node.variableNames.map (.named owner kind) := by
  rw [introduced, hgroup]
  exact ⟨_, _, rfl⟩

theorem isClosed_of_variableGroup : v.node.isClosed = false := by
  rw [isClosed, hgroup]

theorem not_isLink_of_variableGroup : v.node.isLink = false :=
  isLink_eq_false (by rw [hgroup]; exact nofun)

variable {root : Node} (h : root.WellFormed) (hplain : root.PlainNames) (hv : v ∈ root.visible)
include h hplain hv

/-- What is taken for the names of variables begins one behind the other. -/
theorem WellFormed.variableNames_increasing :
    v.node.variableNames.Pairwise fun a b => a.start < b.start := by
  have hplace := mem_places_of_mem_visible hv
  obtain ⟨owner, kind, hintroduced⟩ := introduced_of_variableGroup hgroup
  refine (h.variableNames_apart hplace).imp_of_mem ?_
  intro m m' hm _ hmm'
  have hnonempty : m.start < m.stop := by
    refine (hplain v hplace).nonempty (.named owner kind m) ?_
    rw [hintroduced]
    exact List.mem_map_of_mem hm
  exact Nat.lt_of_lt_of_le hnonempty hmm'

/-- A group of variables declares only what is taken for the name of one of its declarators. -/
theorem WellFormed.eq_part_of_declares {w : Place} (hw : w ∈ root.visible)
    (hid : w.node.isIdentifier = true) (hdeclares : v.Declares w) :
    ∃ d ∈ v.node.declarators, d.variableName? = some w.node ∧ w = (v.part d).part w.node := by
  cases hdeclares with
  | introduced i made site leads =>
    have hplaces := hplain v (mem_places_of_mem_visible hv)
    have hnonempty := hplaces.nonempty i made
    have hword := hplaces.word i made
    obtain ⟨owner, kind, hintroduced⟩ := introduced_of_variableGroup hgroup
    rw [hintroduced] at made
    obtain ⟨m, hm, rfl⟩ := List.mem_map.mp made
    obtain ⟨d, hd, hname⟩ := List.mem_filterMap.mp hm
    obtain rfl : m = w.node := site
    have hvisible := mem_visible_of_leadsTo hv (isClosed_of_variableGroup hgroup)
      (leadsTo_variableName hd hname)
    exact ⟨d, hd, hname, (h.eq_of_start_eq hvisible hw hid hnonempty hword rfl).symm⟩
  | space name made =>
    rw [namespaceName?, hgroup] at made
    cases made

/-- What is declared inside a part of a declarator is declared there or is its name. -/
theorem WellFormed.not_declares_of_within {d e : Node} {w : Place}
    (hother : d.variableName? ≠ some e) (hw : w ∈ root.visible) (hid : w.node.isIdentifier = true)
    (hwithin : w ∈ ((v.part d).part e).within) : ¬ v.Declares w := by
  intro hdeclares
  obtain ⟨d', -, hname, heq⟩ := h.eq_part_of_declares hgroup hplain hv hw hid hdeclares
  have hpath : e :: d :: v.path <:+ w.node :: d' :: v.path :=
    heq ▸ Place.path_suffix_of_mem_within hwithin
  obtain ⟨rfl, hrest⟩ := List.cons.inj (hpath.eq_of_length rfl)
  obtain ⟨rfl, -⟩ := List.cons.inj hrest
  exact hother hname

/-- Only what stands in a part of a declarator declares what is in this part and is not its name. -/
theorem WellFormed.mem_within_of_declares {d e : Node} {u w : Place}
    (hd : d ∈ v.node.declarators) (hother : d.variableName? ≠ some e)
    (hw : w ∈ root.visible) (hid : w.node.isIdentifier = true)
    (hwithin : w ∈ ((v.part d).part e).within) (hu : u.Declares w) :
    u ∈ ((v.part d).part e).within := by
  have hpart : e :: d :: v.path <:+ w.path := Place.path_suffix_of_mem_within hwithin
  have hupath : u.path <:+ w.path := hu.path_suffix.trans (List.suffix_cons _ _)
  rcases List.suffix_or_suffix_of_suffix hpart hupath with hinside | houtside
  · have huvisible := (mem_visible_of_path_suffix hw hupath).1
    exact (mem_visible_of_path_suffix (v := (v.part d).part e) huvisible hinside).2
  rcases List.suffix_cons_iff.mp houtside with heq | houtside
  · rw [Place.eq_of_path_eq (v := u) (w := (v.part d).part e) heq]
    exact Place.self_mem_within _
  rcases List.suffix_cons_iff.mp houtside with heq | houtside
  · -- a declarator itself declares nothing
    obtain rfl := Place.eq_of_path_eq (v := u) (w := v.part d) heq
    exact absurd (construct_of_isLink (mem_declarators hd).2) hu.construct_ne_other
  · have hinside : v.path <:+ w.ancestors := by
      refine List.suffix_of_suffix_length_le ((List.suffix_append [e, d] v.path).trans hpart)
        (List.suffix_cons _ _) ?_
      exact Nat.le_of_succ_le_succ ((Nat.le_succ _).trans hpart.length_le)
    have hvu := hu.path_suffix_of_not_isLink hplain hw hinside (not_isLink_of_variableGroup hgroup)
    obtain rfl := Place.eq_of_path_eq
      (houtside.eq_of_length (Nat.le_antisymm houtside.length_le hvu.length_le))
    exact absurd hu (h.not_declares_of_within hgroup hplain hv hother hw hid hwithin)

/-- The identifiers of a tuple in a declarator are visible, and nothing declares them unless the tuple
is the name. -/
theorem WellFormed.not_declares_of_tuple {d t m : Node} (hd : d ∈ v.node.declarators)
    (ht : t ∈ d.children) (htuple : t.kind = "tuple_pattern") (hother : d.variableName? ≠ some t)
    (hm : m ∈ t.designated) :
    ∃ w ∈ root.visible, w.node = m ∧ m.isIdentifier = true ∧ ∀ u : Place, ¬ u.Declares w := by
  have hnotid : t.isIdentifier = false := by rw [isIdentifier, htuple]; rfl
  have hisgroup : t.isGroup = true := by rw [isGroup, htuple]; rfl
  rw [designated_eq, hnotid, hisgroup, if_neg (by decide), if_pos rfl] at hm
  obtain ⟨c, hc, hmc⟩ := List.mem_flatMap.mp hm
  obtain ⟨hpart, hlink⟩ := mem_declarators hd
  obtain ⟨w, hleads, rfl, hid⟩ := Place.leadsTo_of_mem_designated (v := (v.part d).part t)
    (mem_children_of_mem_namedChildren hc) hmc
  have hleads' : v.LeadsTo w :=
    .of_part hpart hlink (.of_part (v := v.part d) ht (isLink_of_isGroup hisgroup) hleads)
  have hw := mem_visible_of_leadsTo hv (isClosed_of_variableGroup hgroup) hleads'
  have hwithin := Place.inside_subset_within _ hleads.inside
  refine ⟨w, hw, rfl, hid, fun u hu => ?_⟩
  obtain rfl := hleads'.eq_of_declares (not_isLink_of_variableGroup hgroup) hu hplain hw
  exact h.not_declares_of_within hgroup hplain hv hother hw hid hwithin hu

end

end Node

end Syntax

/-- What is taken for the name of a declarator is declared once, and refers to nothing. -/
theorem declaredOnce_of_variableName (path : String) {tree : Tree} (h : tree.root.WellFormed)
    (hplain : tree.root.PlainNames) {v : Place} (hv : v ∈ tree.root.visible)
    (hgroup : v.node.construct = .variableGroup) {d m : Node} (hd : d ∈ v.node.declarators)
    (hm : d.variableName? = some m) (hid : m.isIdentifier = true) :
    ∃ i ∈ v.node.introduced v.ancestors, i.site = m ∧ i.name = m.text ∧
      DeclaredOnce path tree i ((v.part d).part m) := by
  obtain ⟨owner, kind, hintroduced⟩ := Node.introduced_of_variableGroup hgroup
  have hname : m ∈ v.node.variableNames := List.mem_filterMap.mpr ⟨d, hd, hm⟩
  have hmade : .named owner kind m ∈ v.node.introduced v.ancestors := by
    rw [hintroduced]
    exact List.mem_map_of_mem hname
  have hleads := Node.leadsTo_variableName hd hm
  have hw := Node.mem_visible_of_leadsTo hv (Node.isClosed_of_variableGroup hgroup) hleads
  refine ⟨.named owner kind m, hmade, rfl, rfl, ?_⟩
  refine declaredOnce_of_declares path h hplain hw hid hv (.introduced _ hmade rfl hleads) ?_
  rw [hintroduced, List.filter_map]
  exact congrArg (List.map _)
    (Node.filter_start (h.variableNames_increasing hgroup hplain hv) hname)

/-- **The variables of declarators.** If each declarator of a visible group of variables has a name in
front of the equals sign, the group introduces just what they bind. Each name is one declaration and no
reference; an identifier behind the equals sign is not declared by the group, and if nothing there
declares it, it is a reference and no declaration. Of a declarator without a name, the first identifier
in it is one declaration and no reference, wherever it stands, and the identifiers of its tuple are
references and no declarations. -/
theorem variables_recorded (path : String) {tree : Tree} (h : tree.root.WellFormed)
    (hplain : tree.root.PlainNames) {v : Place} (hv : v ∈ tree.root.visible)
    (hgroup : v.node.construct = .variableGroup) :
    (Facts.ofTree path tree).references = tree.root.visible.flatMap tree.root.referencesIn ∧
      ((∀ d ∈ v.node.declarators, ∃ name, d.NamesVariable name) →
        (v.node.introduced v.ancestors).map (·.site) = v.node.declarators.flatMap Node.bound) ∧
      ∀ d ∈ v.node.declarators,
        (∀ name, d.NamesVariable name →
          (∃ i ∈ v.node.introduced v.ancestors, i.site = name ∧ i.name = name.text ∧
            DeclaredOnce path tree i ((v.part d).part name)) ∧
          ∀ e ∈ d.sourceParts, ∀ w ∈ tree.root.visible, w ∈ ((v.part d).part e).within →
            w.node.isIdentifier = true →
              ¬ v.Declares w ∧
                ((∀ u ∈ ((v.part d).part e).within, ¬ u.Declares w) →
                  MerelyMentioned path tree w)) ∧
        (d.childByField? "name" = none →
          (∀ first, d.namedChildOfKind? "identifier" = some first →
            ∃ i ∈ v.node.introduced v.ancestors, i.site = first ∧ i.name = first.text ∧
              DeclaredOnce path tree i ((v.part d).part first)) ∧
          ∀ t ∈ d.targetParts, t.kind = "tuple_pattern" → ∀ m ∈ t.designated,
            ∃ w ∈ tree.root.visible, w.node = m ∧ ¬ v.Declares w ∧
              MerelyMentioned path tree w) := by
  refine ⟨h.references_ofTree, fun hall => ?_, fun d hd => ⟨fun name hname => ⟨?_, ?_⟩,
    fun hunnamed => ⟨fun first hfirst => ?_, fun t ht htuple m hm => ?_⟩⟩⟩
  · obtain ⟨owner, kind, hintroduced⟩ := Node.introduced_of_variableGroup hgroup
    rw [Node.flatMap_bound hall, hintroduced, List.map_map]
    exact List.map_id _
  · exact declaredOnce_of_variableName path h hplain hv hgroup hd hname.variableName?_eq hname.word
  · intro e he w hw hwithin hid
    have hplace := Node.part_mem_places (Node.mem_places_of_mem_visible hv)
      (Node.mem_declarators hd).1
    have hother : d.variableName? ≠ some e := by
      intro heq
      obtain rfl := Option.some.inj (hname.variableName?_eq.symm.trans heq)
      refine hname.not_mem_sourceParts (h.regular hplace) ?_ he
      exact h.regular (Node.part_mem_places hplace (Node.mem_children_of_mem_sourceParts he))
    refine ⟨h.not_declares_of_within hgroup hplain hv hother hw hid hwithin, fun hnone => ?_⟩
    refine merelyMentioned_of_not_declares path h hplain hw hid fun u _ hu => ?_
    exact hnone u (h.mem_within_of_declares hgroup hplain hv hd hother hw hid hwithin hu) hu
  · have htaken : d.variableName? = some first := by rw [Node.variableName?, hunnamed, hfirst]; rfl
    exact declaredOnce_of_variableName path h hplain hv hgroup hd htaken
      (Node.isIdentifier_of_variableName? hunnamed htaken)
  · have hother : d.variableName? ≠ some t := by
      intro heq
      have hid := Node.isIdentifier_of_variableName? hunnamed heq
      rw [Node.isIdentifier, htuple] at hid
      cases hid
    obtain ⟨w, hw, hnode, hid, hnone⟩ := h.not_declares_of_tuple hgroup hplain hv hd
      ((List.takeWhile_prefix _).subset ht) htuple hother hm
    exact ⟨w, hw, hnode, hnone v,
      merelyMentioned_of_not_declares path h hplain hw (hnode ▸ hid) fun u _ => hnone u⟩

namespace Syntax.Node

/-- The declarator `… = t`. -/
def equalsT (target : Node) : Node :=
  phrase "variable_declarator" none
    [target, token (target.stop + 1) "=", word none (target.stop + 3) "t"]

/-- The group of variables `var … = t`. -/
def varFromT (target : Node) : Node :=
  phrase "variable_declaration" none
    [phrase "implicit_type" (some "type") [token 21 "var"], equalsT target]

/-- The file `class C { void M() { var … = t; } }`. -/
def localFromT (target : Node) : Node :=
  classOfMethod
    [phrase "local_declaration_statement" none [varFromT target, token (target.stop + 4) ";"]]
    (target.stop + 6)

theorem equalsT_mem_declarators (target : Node) : equalsT target ∈ (varFromT target).declarators :=
  List.mem_singleton_self _

def nameA : Node :=
  word (some "name") 25 "a"

/-- The tuple `(a, B)`. -/
def tupleAB : Node :=
  phrase "tuple_pattern" none
    [token 25 "(", word (some "name") 26 "a", token 27 ",", word (some "name") 29 "B", token 30 ")"]

theorem localFromA_plain : (localFromT nameA).WellFormed ∧ (localFromT nameA).PlainNames := by
  decide +kernel

theorem localFromAB_plain : (localFromT tupleAB).WellFormed ∧ (localFromT tupleAB).PlainNames := by
  decide +kernel

theorem exists_varFromT {target : Node} (h : target = nameA ∨ target = tupleAB) :
    ∃ v ∈ (localFromT target).visible, v.node = varFromT target := by
  rcases h with rfl | rfl
  · exact ⟨(localFromT nameA).visible[15], List.getElem_mem _, rfl⟩
  · exact ⟨(localFromT tupleAB).visible[15], List.getElem_mem _, rfl⟩

end Syntax.Node

/-- The first file declares its `a` and mentions the `t`; the second does not declare its `B`. -/
theorem locals_recorded :
    ((Node.localFromT Node.nameA).WellFormed ∧ (Node.localFromT Node.nameA).PlainNames) ∧
      (∃ v ∈ (Node.localFromT Node.nameA).visible, v.node.construct = .variableGroup ∧
        ∃ d ∈ v.node.declarators, d.NamesVariable Node.nameA ∧
          (v.node.introduced v.ancestors).map (·.site) = [Node.nameA]) ∧
      (Facts.ofTree "A.cs" ⟨Node.localFromT Node.nameA, false⟩).declaredAt 29 = [] ∧
      ((Node.localFromT Node.tupleAB).WellFormed ∧ (Node.localFromT Node.tupleAB).PlainNames) ∧
      (∃ v ∈ (Node.localFromT Node.tupleAB).visible, v.node.construct = .variableGroup ∧
        ∃ d ∈ v.node.declarators, d.childByField? "name" = none ∧
          .word (some "name") 29 "B" ∈ d.bound) ∧
      (Facts.ofTree "A.cs" ⟨Node.localFromT Node.tupleAB, false⟩).declaredAt 29 = [] := by
  obtain ⟨hwf, hplain⟩ := Node.localFromA_plain
  obtain ⟨hwf', hplain'⟩ := Node.localFromAB_plain
  have htree : (Tree.mk (Node.localFromT Node.nameA) false).root.WellFormed := hwf
  have htree' : (Tree.mk (Node.localFromT Node.tupleAB) false).root.WellFormed := hwf'
  obtain ⟨v, hv, hnode⟩ := Node.exists_varFromT (.inl rfl)
  obtain ⟨v', hv', hnode'⟩ := Node.exists_varFromT (.inr rfl)
  have hgroup : v.node.construct = .variableGroup := by rw [hnode]; rfl
  have hgroup' : v'.node.construct = .variableGroup := by rw [hnode']; rfl
  have hd : Node.equalsT Node.nameA ∈ v.node.declarators := hnode ▸ Node.equalsT_mem_declarators _
  have hd' : Node.equalsT Node.tupleAB ∈ v'.node.declarators :=
    hnode' ▸ Node.equalsT_mem_declarators _
  have hname : (Node.equalsT Node.nameA).NamesVariable Node.nameA :=
    ⟨rfl, List.mem_cons_self, by decide⟩
  obtain ⟨-, hexact, hall⟩ := variables_recorded "A.cs" htree hplain hv hgroup
  obtain ⟨-, -, hall'⟩ := variables_recorded "A.cs" htree' hplain' hv' hgroup'
  refine ⟨⟨hwf, hplain⟩, ⟨v, hv, hgroup, _, hd, hname, ?_⟩, ?_, ⟨hwf', hplain'⟩,
    ⟨v', hv', hgroup', _, hd', rfl, List.mem_cons_of_mem _ List.mem_cons_self⟩, ?_⟩
  · rw [hexact fun d hd => ?_, hnode]
    · rfl
    · rw [hnode] at hd
      rw [List.mem_singleton.mp hd]
      exact ⟨_, hname⟩
  · -- the `t` stands behind the equals sign
    obtain ⟨-, hsource⟩ := (hall _ hd).1 _ hname
    obtain ⟨hpart, hlink⟩ := Node.mem_declarators hd
    have ht : .word none 29 "t" ∈ (Node.equalsT Node.nameA).sourceParts := List.mem_singleton_self _
    have hw := Node.mem_visible_of_leadsTo hv (Node.isClosed_of_variableGroup hgroup)
      (.of_part hpart hlink (.part (v := v.part _) (Node.mem_children_of_mem_sourceParts ht)))
    have hid : (Node.word none 29 "t").isIdentifier = true := by decide
    obtain ⟨-, hmention⟩ := hsource _ ht _ hw (Place.self_mem_within _) hid
    refine (hmention fun u hu hdeclares => ?_).undeclared
    rw [List.mem_singleton.mp hu] at hdeclares
    exact absurd hdeclares.path_suffix.length_le (Nat.not_succ_le_self _)
  · obtain ⟨-, htuple⟩ := (hall' _ hd').2 rfl
    obtain ⟨w, -, hword, -, hmention⟩ := htuple Node.tupleAB List.mem_cons_self rfl
      (.word (some "name") 29 "B") (List.mem_cons_of_mem _ List.mem_cons_self)
    have hundeclared := hmention.undeclared
    rw [hword] at hundeclared
    exact hundeclared

/-- A tuple of new variables declares what it takes apart, and mentions the variables. -/
theorem deconstruction_declares_source :
    ((Node.localFromT Node.tupleAB).WellFormed ∧ (Node.localFromT Node.tupleAB).PlainNames) ∧
      (∃ v ∈ (Node.localFromT Node.tupleAB).visible, v.node.construct = .variableGroup ∧
        v.node.declarators.flatMap Node.bound =
            [.word (some "name") 26 "a", .word (some "name") 29 "B"] ∧
          v.node.variableNames = [.word none 34 "t"]) ∧
      (Facts.ofTree "A.cs" ⟨Node.localFromT Node.tupleAB, false⟩).declarations.map (·.name) =
        ["C", "M", "t"] ∧
      (Facts.ofTree "A.cs" ⟨Node.localFromT Node.tupleAB, false⟩).references =
        [⟨"a", 1⟩, ⟨"B", 1⟩] := by
  obtain ⟨v, hv, hnode⟩ := Node.exists_varFromT (.inr rfl)
  refine ⟨Node.localFromAB_plain, ⟨v, hv, ?_⟩, by decide +kernel, by decide +kernel⟩
  rw [hnode]
  exact ⟨rfl, rfl, rfl⟩

end CodeSmell
