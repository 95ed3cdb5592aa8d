import CodeSmell.Proofs.Facts.References

/-!
# What declares an identifier

* `Place.PlainlyNamed`, `Node.PlainNames` : what a grammar promises of names: a declaration is named by a
  single word, and a namespace by identifiers with dots between them;
* `Place.Declares` : a node declares the identifier at a place, as the name of a declaration or as a
  part of the name of a namespace. Between the two there are only links (`isLink_of_between`), so that
  no more than one node declares an identifier (`Declares.unique`);
* `declaresAt_iff_declares` : these are the identifiers that are taken to declare something;
* `Node.referencesIn` : what the identifier or the attribute at a place refers to, which gives the
  references of a file (`references_ofTree`);
* `Facts.declaredAt` : the declarations that begin at a byte. At an identifier these are the ones that
  its declarer makes there (`declaredAt_of_declares`);
* `DeclaredOnce`, `MerelyMentioned` : an identifier is one declaration and no reference, or it is a
  reference and no declaration.
-/

namespace CodeSmell

open Syntax

namespace Syntax

/-! ## Names -/

namespace Place

/-- What a grammar promises of the names that a node gives. -/
structure PlainlyNamed (v : Place) : Prop where
  nonempty : ∀ i ∈ v.node.introduced v.ancestors, i.site.start < i.site.stop
  word : ∀ i ∈ v.node.introduced v.ancestors, i.site.isClosed = true ∨ i.site.children = []
  qualified : ∀ name ∈ v.node.namespaceName?.toList, ∀ w ∈ (v.part name).within,
    w.node.children ≠ [] → w.node.kind = "qualified_name" ∨ w.node.isIdentifier = true

instance (v : Place) : Decidable v.PlainlyNamed :=
  decidable_of_iff
    ((∀ i ∈ v.node.introduced v.ancestors, i.site.start < i.site.stop) ∧
      (∀ i ∈ v.node.introduced v.ancestors, i.site.isClosed = true ∨ i.site.children = []) ∧
      ∀ name ∈ v.node.namespaceName?.toList, ∀ w ∈ (v.part name).within,
        w.node.children ≠ [] → w.node.kind = "qualified_name" ∨ w.node.isIdentifier = true)
    ⟨fun ⟨h₁, h₂, h₃⟩ => ⟨h₁, h₂, h₃⟩, fun ⟨h₁, h₂, h₃⟩ => ⟨h₁, h₂, h₃⟩⟩

end Place

def Node.PlainNames (root : Node) : Prop :=
  ∀ v ∈ root.places, v.PlainlyNamed

instance (root : Node) : Decidable root.PlainNames :=
  inferInstanceAs (Decidable (∀ v ∈ root.places, v.PlainlyNamed))

/-! ## Declarers -/

namespace Place

/-- A node declares what stands at a place. -/
inductive Declares (v w : Place) : Prop
  | introduced (i : Introduction) (made : i ∈ v.node.introduced v.ancestors)
      (site : i.site = w.node) (leads : v.LeadsTo w)
  | space (name : Node) (made : v.node.namespaceName? = some name)
      (inside : w ∈ (v.part name).within)

variable {root : Node} {v u w : Place}

namespace Declares

theorem mem_inside (h : v.Declares w) : w ∈ v.inside := by
  cases h with
  | introduced _ _ _ leads => exact leads.inside
  | space name made inside =>
    exact Place.mem_inside.mpr ⟨name, mem_children_of_namespaceName? made, inside⟩

theorem path_suffix (h : v.Declares w) : v.path <:+ w.ancestors :=
  path_suffix_of_mem_inside h.mem_inside

theorem construct_ne_other (h : v.Declares w) : v.node.construct ≠ .other := by
  intro hother
  cases h with
  | introduced i made => rw [Node.introduced, hother] at made; cases made
  | space name made => rw [Node.namespaceName?, hother] at made; cases made

/-- Whatever stands between a declarer and what it declares is a link. -/
theorem isLink_of_between (h : v.Declares w) (hplain : root.PlainNames) (hw : w ∈ root.visible)
    (hv : v.path <:+ u.ancestors) (hu : u.path <:+ w.ancestors) : u.node.isLink = true := by
  cases h with
  | introduced i made site leads =>
    exact leads.isLink_of_between hv hu
  | space name made inside =>
    have hpath : u.path <:+ w.path := hu.trans (List.suffix_cons _ _)
    obtain ⟨huvisible, hwithin⟩ := Node.mem_visible_of_path_suffix hw hpath
    have hvvisible := (Node.mem_visible_of_path_suffix huvisible
      (hv.trans (List.suffix_cons _ _))).1
    have hname : (v.part name).path <:+ u.path := by
      refine List.suffix_of_suffix_length_le (path_suffix_of_mem_within inside) hpath ?_
      exact Nat.succ_le_succ hv.length_le
    have hmem : u ∈ (v.part name).within :=
      (Node.mem_of_path_suffix (Node.mem_places_of_mem_visible huvisible) (Nat.succ_pos _) hname).2
    have hparts : u.node.children ≠ [] := by
      intro hnone
      rw [within_eq, Place.inside, hnone, List.flatMap_nil, List.mem_singleton] at hwithin
      exact absurd (hwithin ▸ hu).length_le (Nat.not_succ_le_self _)
    have hqualified := (hplain v (Node.mem_places_of_mem_visible hvvisible)).qualified name
      (Option.mem_toList.mpr made) u hmem hparts
    rcases hqualified with hkind | hid
    · rw [Node.isLink, hkind]
      decide
    · rw [Node.not_isIdentifier_of_mem_ancestors hw (hu.subset List.mem_cons_self)] at hid
      cases hid

/-- Nothing is declared from outside of what is no link. -/
theorem path_suffix_of_not_isLink (h : v.Declares w) (hplain : root.PlainNames)
    (hw : w ∈ root.visible) (hu : u.path <:+ w.ancestors) (hlink : u.node.isLink = false) :
    u.path <:+ v.path := by
  rcases List.suffix_or_suffix_of_suffix hu h.path_suffix with huv | hvu
  · exact huv
  · rcases List.suffix_cons_iff.mp hvu with heq | hbetween
    · exact heq ▸ List.suffix_refl _
    · rw [h.isLink_of_between hplain hw hbetween hu] at hlink
      cases hlink

/-- No two nodes declare what stands at one place. -/
theorem unique (hv : v.Declares w) (hu : u.Declares w) (hplain : root.PlainNames)
    (hw : w ∈ root.visible) : v = u := by
  have hvu := hu.path_suffix_of_not_isLink hplain hw hv.path_suffix
    (Node.isLink_eq_false hv.construct_ne_other)
  have huv := hv.path_suffix_of_not_isLink hplain hw hu.path_suffix
    (Node.isLink_eq_false hu.construct_ne_other)
  exact eq_of_path_eq (hvu.eq_of_length (Nat.le_antisymm hvu.length_le huv.length_le))

end Declares

/-- What a place leads to is declared by this place, or by none. -/
theorem LeadsTo.eq_of_declares (h : v.LeadsTo w) (hlink : v.node.isLink = false)
    (hu : u.Declares w) (hplain : root.PlainNames) (hw : w ∈ root.visible) : u = v := by
  have hvu := hu.path_suffix_of_not_isLink hplain hw (path_suffix_of_mem_inside h.inside) hlink
  rcases List.suffix_cons_iff.mp hvu with heq | hinside
  · exact (eq_of_path_eq heq).symm
  · have hother := Node.construct_of_isLink (h.isLink_of_between hinside hu.path_suffix)
    exact absurd hother hu.construct_ne_other

end Place

namespace Node

/-! ## Declared identifiers -/

/-- A closed node introduces nothing but itself. -/
theorem site_of_isClosed {v : Place} {i : Introduction} (hclosed : v.node.isClosed = true)
    (h : i ∈ v.node.introduced v.ancestors) : i.site = v.node := by
  unfold isClosed at hclosed
  unfold introduced at h
  cases hc : v.node.construct with
  | bareParameter =>
    rw [hc] at h
    rw [List.mem_singleton.mp h]
    rfl
  | usingDirective | typeParameter | identifier | number | prefixed =>
    rw [hc] at h
    exact absurd h List.not_mem_nil
  | _ =>
    rw [hc] at hclosed
    cases hclosed

theorem mem_visible_of_leadsTo {root : Node} {v w : Place} (hv : v ∈ root.visible)
    (hopen : v.node.isClosed = false) (h : v.LeadsTo w) : w ∈ root.visible := by
  obtain ⟨hplace, haround⟩ := mem_visible.mp hv
  obtain ⟨between, hpath, hlinks⟩ := h.links
  refine mem_visible.mpr
    ⟨within_subset_placesFrom hplace (Place.inside_subset_within v h.inside), ?_⟩
  rw [hpath]
  refine List.forall_mem_append.mpr
    ⟨fun a ha => ?_, List.forall_mem_cons.mpr ⟨hopen, haround⟩⟩
  rw [isClosed, construct_of_isLink (hlinks a ha)]

namespace WellFormed

variable {root : Node} (h : root.WellFormed)
include h

/-- A visible word that begins where an identifier does is this identifier. -/
theorem eq_of_start_eq {u w : Place} (hu : u ∈ root.visible) (hw : w ∈ root.visible)
    (hid : w.node.isIdentifier = true) (hnonempty : u.node.start < u.node.stop)
    (hword : u.node.isClosed = true ∨ u.node.children = [])
    (hstart : u.node.start = w.node.start) : u = w := by
  have hw' := mem_places_of_mem_visible hw
  have hlt := (h.regular hw').nonempty_of_identifier hid
  rcases h.comparable (mem_places_of_mem_visible hu) hw' with heq | huw | hwu
  · exact heq
  · rcases huw with hinside | hbehind
    · rcases hword with hclosed | hnone
      · exact absurd hinside (not_mem_inside_of_isClosed hw hclosed)
      · rw [Place.inside, hnone] at hinside
        cases hinside
    · omega
  · have := stop_le_start_of_isClosed hu (isClosed_of_isIdentifier hid) hwu
    omega

/-- A declaration that begins where an identifier does is named by it. -/
theorem declares_of_start_eq (hplain : root.PlainNames) {v w : Place} {i : Introduction}
    (hv : v ∈ root.visible) (hw : w ∈ root.visible) (hid : w.node.isIdentifier = true)
    (hi : i ∈ v.node.introduced v.ancestors) (hstart : i.site.start = w.node.start) :
    v.LeadsTo w ∧ i.site = w.node := by
  have hplaces := hplain v (mem_places_of_mem_visible hv)
  have hnonempty := hplaces.nonempty i hi
  have hword := hplaces.word i hi
  have hself : i.site ≠ v.node := by
    intro hself
    rw [hself] at hnonempty hword hstart
    obtain rfl := h.eq_of_start_eq hv hw hid hnonempty hword hstart
    rw [introduced, construct_of_isIdentifier hid] at hi
    cases hi
  have hopen : v.node.isClosed = false := by
    rw [← Bool.not_eq_true]
    exact fun hclosed => hself (site_of_isClosed hclosed hi)
  rcases (Place.site_and_kind hi).1 with ⟨heq, -⟩ | ⟨u, hleads, hnode⟩
  · exact absurd heq hself
  · rw [← hnode] at hnonempty hword hstart ⊢
    obtain rfl := h.eq_of_start_eq (mem_visible_of_leadsTo hv hopen hleads) hw hid hnonempty hword
      hstart
    exact ⟨hleads, rfl⟩

/-- An identifier is taken to declare something if and only if something visible declares it. -/
theorem declaresAt_iff_declares (hplain : root.PlainNames) {w : Place} (hw : w ∈ root.visible)
    (hid : w.node.isIdentifier = true) :
    root.declaresAt w.node.start = true ↔ ∃ v ∈ root.visible, v.Declares w := by
  rw [declaresAt_iff, Findings.exists_declaration_at]
  constructor
  · rintro (⟨v, hv, i, hi, hstart⟩ | ⟨v, hv, name, hname, hfrom, hto⟩)
    · obtain ⟨hleads, hsite⟩ := h.declares_of_start_eq hplain hv hw hid hi hstart
      exact ⟨v, hv, .introduced i hi hsite hleads⟩
    · exact ⟨v, hv, .space name hname (h.mem_within_of_between hw hid hv hname hfrom hto)⟩
  · rintro ⟨v, hv, hdeclares⟩
    cases hdeclares with
    | introduced i made site leads => exact .inl ⟨v, hv, i, made, congrArg Node.start site⟩
    | space name made inside =>
      have hpart := part_mem_places (mem_places_of_mem_visible hv)
        (Place.mem_children_of_namespaceName? made)
      obtain ⟨hfrom, hto⟩ := h.between hpart inside
      have hlt := (h.regular (mem_places_of_mem_visible hw)).nonempty_of_identifier hid
      exact .inr ⟨v, hv, name, made, hfrom, Nat.lt_of_lt_of_le hlt hto⟩

end WellFormed

/-! ## References -/

/-- What the identifier or the attribute at a place refers to. -/
def referencesIn (root : Node) (v : Place) : List Reference :=
  if v.node.isIdentifier then
    if root.declaresAt v.node.start then [] else [⟨symbolName v.node.text, v.node.line⟩]
  else v.node.attributeReference?.toList

theorem WellFormed.references_ofTree {path : String} {tree : Tree} (h : tree.root.WellFormed) :
    (Facts.ofTree path tree).references = tree.root.visible.flatMap tree.root.referencesIn :=
  h.walk_references_eq

namespace WellFormed

variable {root : Node} (h : root.WellFormed) (hplain : root.PlainNames) {w : Place}
  (hw : w ∈ root.visible) (hid : w.node.isIdentifier = true)
include h hplain hw hid

theorem referencesIn_of_declares {v : Place} (hv : v ∈ root.visible) (hdeclares : v.Declares w) :
    root.referencesIn w = [] := by
  rw [referencesIn, if_pos hid, (h.declaresAt_iff_declares hplain hw hid).mpr ⟨v, hv, hdeclares⟩,
    if_pos rfl]

theorem referencesIn_of_not_declares (hnone : ∀ v ∈ root.visible, ¬ v.Declares w) :
    root.referencesIn w = [⟨symbolName w.node.text, w.node.line⟩] := by
  have hnot : ¬ root.declaresAt w.node.start = true := by
    rw [h.declaresAt_iff_declares hplain hw hid]
    rintro ⟨v, hv, hdeclares⟩
    exact hnone v hv hdeclares
  rw [referencesIn, if_pos hid, if_neg hnot]

end WellFormed

end Node

end Syntax

/-! ## Declarations at a byte -/

/-- The declarations other than namespaces that begin at a byte, without what is around them. -/
def Facts.declaredAt (f : Facts) (byte : Nat) : List Declaration :=
  (f.declarations.filter fun d => d.kind != .namespaceName && d.position.byte == byte).map
    Declaration.unplaced

theorem Facts.declaredAt_ofTree (path : String) (tree : Tree) (byte : Nat) :
    (ofTree path tree).declaredAt byte =
      tree.root.visible.flatMap fun v =>
        ((v.node.introduced v.ancestors).filter (·.site.start == byte)).map (·.declaration {}) := by
  have hall := congrArg (List.filter (·.position.byte == byte)) (Findings.walk_unplaced tree.root)
  rw [List.filter_map, List.filter_filter, List.filter_flatMap] at hall
  simp only [List.filter_map] at hall
  refine Eq.trans ?_ hall
  refine congrArg (List.map _) (List.filter_congr fun d _ => ?_)
  exact Bool.and_comm _ _

theorem declaredAt_of_not_declares (path : String) {tree : Tree} (h : tree.root.WellFormed)
    (hplain : tree.root.PlainNames) {w : Place} (hw : w ∈ tree.root.visible)
    (hid : w.node.isIdentifier = true) (hnone : ∀ v ∈ tree.root.visible, ¬ v.Declares w) :
    (Facts.ofTree path tree).declaredAt w.node.start = [] := by
  rw [Facts.declaredAt_ofTree, List.flatMap_eq_nil_iff]
  intro v hv
  rw [List.map_eq_nil_iff, List.filter_eq_nil_iff]
  intro i hi hbyte
  obtain ⟨hleads, hsite⟩ := h.declares_of_start_eq hplain hv hw hid hi (eq_of_beq hbyte)
  exact hnone v hv (.introduced i hi hsite hleads)

/-- A list in which one element alone gives something gives what this element does. -/
theorem flatMap_eq_of_unique {α β : Type} {l : List α} {f : α → List β} {a : α} (ha : a ∈ l)
    (honce : l.Pairwise fun b c => ¬ (b = a ∧ c = a)) (h : ∀ b ∈ l, b ≠ a → f b = []) :
    l.flatMap f = f a := by
  obtain ⟨before, after, rfl⟩ := List.append_of_mem ha
  obtain ⟨-, hafter, hbefore⟩ := List.pairwise_append.mp honce
  obtain ⟨hafter, -⟩ := List.pairwise_cons.mp hafter
  have hleft : before.flatMap f = [] := List.flatMap_eq_nil_iff.mpr fun b hb =>
    h b (List.mem_append_left _ hb) fun heq => hbefore b hb a List.mem_cons_self ⟨heq, rfl⟩
  have hright : after.flatMap f = [] := List.flatMap_eq_nil_iff.mpr fun c hc =>
    h c (List.mem_append_right _ (List.mem_cons_of_mem a hc)) fun heq => hafter c hc ⟨rfl, heq⟩
  rw [List.flatMap_append, List.flatMap_cons, hleft, hright, List.nil_append, List.append_nil]

/-- The declarations that begin at an identifier are the ones that its declarer makes there. -/
theorem declaredAt_of_declares (path : String) {tree : Tree} (h : tree.root.WellFormed)
    (hplain : tree.root.PlainNames) {v w : Place} (hv : v ∈ tree.root.visible)
    (hw : w ∈ tree.root.visible) (hid : w.node.isIdentifier = true) (hdeclares : v.Declares w) :
    (Facts.ofTree path tree).declaredAt w.node.start =
      ((v.node.introduced v.ancestors).filter (·.site.start == w.node.start)).map
        (·.declaration {}) := by
  rw [Facts.declaredAt_ofTree]
  have hlt := (h.regular (Node.mem_places_of_mem_visible hw)).nonempty_of_identifier hid
  obtain ⟨hstart, hstop⟩ := h.between (Node.mem_places_of_mem_visible hv)
    (Place.inside_subset_within v hdeclares.mem_inside)
  refine flatMap_eq_of_unique hv (h.visible_pairwise_precedes.imp ?_) fun u hu hne => ?_
  · rintro a b hab ⟨rfl, rfl⟩
    exact Place.not_precedes_self (by omega) hab
  · rw [List.map_eq_nil_iff, List.filter_eq_nil_iff]
    intro i hi hbyte
    obtain ⟨hleads, hsite⟩ := h.declares_of_start_eq hplain hu hw hid hi (eq_of_beq hbyte)
    exact hne (Place.Declares.unique (.introduced i hi hsite hleads) hdeclares hplain hw)

/-- One declaration begins at the identifier at a place, and it refers to nothing. -/
structure DeclaredOnce (path : String) (tree : Tree) (i : Introduction) (w : Place) : Prop where
  declared : (Facts.ofTree path tree).declaredAt w.node.start = [i.declaration {}]
  unreferenced : tree.root.referencesIn w = []

/-- No declaration begins at the identifier at a place, and it refers to its name. -/
structure MerelyMentioned (path : String) (tree : Tree) (w : Place) : Prop where
  undeclared : (Facts.ofTree path tree).declaredAt w.node.start = []
  referenced : tree.root.referencesIn w = [⟨symbolName w.node.text, w.node.line⟩]

section

variable (path : String) {tree : Tree} (h : tree.root.WellFormed) (hplain : tree.root.PlainNames)
  {w : Place} (hw : w ∈ tree.root.visible) (hid : w.node.isIdentifier = true)
include h hplain hw hid

theorem declaredOnce_of_declares {v : Place} {i : Introduction} (hv : v ∈ tree.root.visible)
    (hdeclares : v.Declares w)
    (honce : (v.node.introduced v.ancestors).filter (·.site.start == w.node.start) = [i]) :
    DeclaredOnce path tree i w where
  declared := by
    rw [declaredAt_of_declares path h hplain hv hw hid hdeclares, honce, List.map_singleton]
  unreferenced := h.referencesIn_of_declares hplain hw hid hv hdeclares

theorem merelyMentioned_of_not_declares (hnone : ∀ v ∈ tree.root.visible, ¬ v.Declares w) :
    MerelyMentioned path tree w where
  undeclared := declaredAt_of_not_declares path h hplain hw hid hnone
  referenced := h.referencesIn_of_not_declares hplain hw hid hnone

end

end CodeSmell
