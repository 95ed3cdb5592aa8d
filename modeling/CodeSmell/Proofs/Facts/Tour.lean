import CodeSmell.Facts.Walk
import CodeSmell.Proofs.Facts.Sites

/-!
# The walk as a recursion

* `Findings.tour` : visits a node and then its parts, from left to right; `walk_eq_tour` says that
  the walk with its list of pending nodes does the same;
* `tour_eq_foldl` : a tour visits the visible places, each once and in their order, and in a scope of
  which holds what a walk keeps (`Keeps`);
* `Place.declarations`, `Place.referencesAt` : what one visit adds, by the scope it is made in and by
  the sites known before (`visit_declarations`, `visit_references`);
* `walk_eq_flatMap_of`, `walk_eq_flatMap` : what each visit adds by its place alone, if its scope is
  right and in any case; `walk_usings`, `mem_walk_sites`, `walk_unplaced`, `exists_declaration_at` :
  directives, sites and declarations of a walk.
-/

namespace CodeSmell

open Syntax

def Pending.place (p : Pending) : Place :=
  ⟨p.node, p.ancestors⟩

namespace Syntax

/-- The parts of a node are not visited if and only if it is closed. -/
theorem Node.innerScope?_eq_none_iff (n : Node) (scope : Scope) (outer : Option String) :
    n.innerScope? scope outer = none ↔ n.isClosed = true := by
  unfold innerScope? isClosed
  cases n.construct with
  | prefixed => cases n.negated? <;> simp
  | _ => simp

namespace Place

/-- The declarations that a node makes where the namespace and the types around it are `here`. -/
def declarations (v : Place) (here : Scope) : List Declaration :=
  (v.node.introduced v.ancestors).map (·.declaration here) ++
    (v.node.namespaceDeclaration? here.inNamespace).toList

theorem namespaceDeclaration?_kind {n : Node} {outer : Option String} :
    ∀ d ∈ n.namespaceDeclaration? outer, d.kind = .namespaceName := by
  unfold Node.namespaceDeclaration?
  intro d hd
  obtain ⟨name, -, rfl⟩ := Option.map_eq_some_iff.mp hd
  rfl

/-- What a node declares other than a namespace. -/
theorem declarations_without_namespace (v : Place) (here : Scope) :
    (v.declarations here).filter (·.kind != .namespaceName) =
      (v.node.introduced v.ancestors).map (·.declaration here) := by
  rw [declarations, List.filter_append, List.filter_eq_self.mpr, List.filter_eq_nil_iff.mpr,
    List.append_nil]
  · exact fun d hd => by rw [namespaceDeclaration?_kind d (Option.mem_toList.mp hd)]; decide
  · exact List.forall_mem_map.mpr fun i hi => bne_iff_ne.mpr (kind_ne_namespaceName hi)

/-- The namespace that a node declares. -/
theorem declarations_of_namespace (v : Place) (here : Scope) :
    (v.declarations here).filter (·.kind == .namespaceName) =
      (v.node.namespaceDeclaration? here.inNamespace).toList := by
  rw [declarations, List.filter_append, List.filter_eq_nil_iff.mpr, List.filter_eq_self.mpr,
    List.nil_append]
  · exact fun d hd => by rw [namespaceDeclaration?_kind d (Option.mem_toList.mp hd)]; decide
  · exact List.forall_mem_map.mpr fun i hi hkind =>
      kind_ne_namespaceName hi (beq_iff_eq.mp hkind)

/-- The references that a node makes where some sites are known. -/
def referencesAt (sites : List Nat) (v : Place) : List Reference :=
  if v.node.construct == .identifier then
    if sites.contains v.node.start then [] else [⟨symbolName v.node.text, v.node.line⟩]
  else v.node.attributeReference?.toList

end Place

end Syntax

namespace Findings

/-! ## One visit -/

/-- The scope in which a visit makes its declarations. -/
def here (f : Findings) (p : Pending) : Scope :=
  ⟨f.namespaceAt p.scope, p.scope.container⟩

theorem visit_declarations (f : Findings) (p : Pending) :
    (f.visit p).declarations.toList = f.declarations.toList ++ p.place.declarations (f.here p) := by
  simp [visit, Place.declarations, Pending.place, here]

theorem visit_references (f : Findings) (p : Pending) :
    (f.visit p).references.toList = f.references.toList ++ p.place.referencesAt f.sites := by
  simp [visit, Place.referencesAt, Pending.place, referencesOf]

theorem visit_sites (f : Findings) (p : Pending) :
    (f.visit p).sites = p.place.sites ++ f.sites :=
  rfl

theorem visit_usings (f : Findings) (p : Pending) :
    (f.visit p).usings.toList = f.usings.toList ++ p.node.using?.toList := by
  simp [visit]

/-! ## Tours -/

mutual

/-- Visits the root of a tree that stands inside the nodes `around`, and then its parts, unless
the root is closed. -/
def tour (f : Findings) (around : List Node) (scope : Scope) : Node → Findings
  | n@⟨_, _, _, _, _, _, _, children⟩ =>
    match n.innerScope? scope (f.namespaceAt scope) with
    | none => f.visit ⟨n, around, scope⟩
    | some inner => (f.visit ⟨n, around, scope⟩).tourAll (n :: around) inner children

def tourAll (f : Findings) (around : List Node) (scope : Scope) : List Node → Findings
  | [] => f
  | n :: rest => (f.tour around scope n).tourAll around scope rest

end

theorem tour_eq (f : Findings) (around : List Node) (scope : Scope) (n : Node) :
    f.tour around scope n =
      match n.innerScope? scope (f.namespaceAt scope) with
      | none => f.visit ⟨n, around, scope⟩
      | some inner => (f.visit ⟨n, around, scope⟩).tourAll (n :: around) inner n.children := by
  cases n
  rfl

theorem foldl_parts (f : Findings) (p : Pending) (scope : Scope) :
    (p.parts scope).foldl (fun f p => f.tour p.ancestors p.scope p.node) f =
      f.tourAll (p.node :: p.ancestors) scope p.node.children := by
  rw [Pending.parts, List.foldl_map]
  generalize p.node.children = ns
  induction ns generalizing f with
  | nil => rfl
  | cons n rest ih => rw [List.foldl_cons, ih, tourAll]

theorem sizes_parts (p : Pending) (scope : Scope) :
    Node.sizes ((p.parts scope).map (·.node)) + 1 = p.node.size := by
  have hnodes : (p.parts scope).map (·.node) = p.node.children := by
    rw [Pending.parts, List.map_map]
    exact List.map_id _
  rw [hnodes, p.node.size_eq]

/-- With fuel for all nodes, each pending node is toured in turn. -/
theorem run_eq_foldl (f : Findings) (fuel : Nat) (pending : List Pending)
    (h : Node.sizes (pending.map (·.node)) ≤ fuel) :
    f.run fuel pending = pending.foldl (fun f p => f.tour p.ancestors p.scope p.node) f := by
  induction fuel generalizing f pending with
  | zero =>
    cases pending with
    | nil => rfl
    | cons p rest =>
      rw [List.map_cons, Node.sizes] at h
      have := p.node.size_pos
      omega
  | succ fuel ih =>
    cases pending with
    | nil => rfl
    | cons p rest =>
      rw [List.map_cons, Node.sizes] at h
      rw [run, List.foldl_cons, tour_eq]
      cases hscope : p.node.innerScope? p.scope (f.namespaceAt p.scope) with
      | none =>
        have := p.node.size_pos
        exact ih (f.visit p) rest (by omega)
      | some scope =>
        have := sizes_parts p scope
        have hparts := ih (f.visit p) (p.parts scope ++ rest)
          (by rw [List.map_append, Node.sizes_append]; omega)
        rw [List.foldl_append, foldl_parts] at hparts
        exact hparts

theorem walk_eq_tour (root : Node) : walk root = ({} : Findings).tour [] {} root := by
  rw [walk, run_eq_foldl _ _ _ (Nat.le_refl root.size)]
  rfl

/-! ## A tour as a sequence of visits -/

/-- What holds of the scope at the root, and goes on to the scope for the parts of each node, is
kept by a walk. -/
structure Keeps (right : List Node → Scope → Prop) : Prop where
  root : right [] {}
  parts : ∀ {n : Node} {around : List Node} {scope inner : Scope} {outer : Option String},
    right around scope → n.innerScope? scope outer = some inner → right (n :: around) inner

theorem keeps_true : Keeps fun _ _ => True :=
  ⟨trivial, fun _ _ => trivial⟩

variable {right : List Node → Scope → Prop}

/-- A tour visits the visible places in their order, each in a scope that is right for it. -/
theorem tour_eq_foldl (hkeeps : Keeps right) (f : Findings) (around : List Node) (scope : Scope)
    (n : Node) (hscope : right around scope) (h : ∀ a ∈ around, a.isClosed = false) :
    ∃ ps : List Pending, ps.map Pending.place = n.visibleFrom around ∧
      f.tour around scope n = ps.foldl visit f ∧ ∀ p ∈ ps, right p.ancestors p.scope := by
  induction n using Node.parts_induction generalizing f around scope with
  | step n ih =>
    rw [tour_eq, Node.visibleFrom_eq h]
    cases hinner : n.innerScope? scope (f.namespaceAt scope) with
    | none =>
      rw [if_pos ((n.innerScope?_eq_none_iff _ _).mp hinner)]
      exact ⟨[⟨n, around, scope⟩], rfl, rfl, List.forall_mem_singleton.mpr hscope⟩
    | some inner =>
      have hopen : n.isClosed = false := by
        rw [← Bool.not_eq_true]
        intro hclosed
        rw [(n.innerScope?_eq_none_iff scope _).mpr hclosed] at hinner
        cases hinner
      have haround : ∀ a ∈ n :: around, a.isClosed = false :=
        List.forall_mem_cons.mpr ⟨hopen, h⟩
      -- the same for a row of parts, whatever has been found before them
      have hall : ∀ ns ⊆ n.children, ∀ f : Findings, ∃ ps : List Pending,
          ps.map Pending.place = ns.flatMap (Node.visibleFrom (n :: around)) ∧
            f.tourAll (n :: around) inner ns = ps.foldl visit f ∧
              ∀ p ∈ ps, right p.ancestors p.scope := by
        intro ns
        induction ns with
        | nil => exact fun _ f => ⟨[], rfl, rfl, List.forall_mem_nil _⟩
        | cons c rest ihrest =>
          intro hsub f
          obtain ⟨ps, hps, htour, hright⟩ := ih c (hsub List.mem_cons_self) f (n :: around) inner
            (hkeeps.parts hscope hinner) haround
          obtain ⟨qs, hqs, hrest, hrightRest⟩ :=
            ihrest (fun d hd => hsub (List.mem_cons_of_mem c hd)) (ps.foldl visit f)
          refine ⟨ps ++ qs, ?_, ?_, List.forall_mem_append.mpr ⟨hright, hrightRest⟩⟩
          · rw [List.map_append, hps, hqs, List.flatMap_cons]
          · rw [tourAll, htour, hrest, List.foldl_append]
      obtain ⟨ps, hps, htour, hright⟩ :=
        hall n.children (List.Subset.refl _) (f.visit ⟨n, around, scope⟩)
      rw [if_neg (by rw [hopen]; decide)]
      refine ⟨⟨n, around, scope⟩ :: ps, ?_, htour, List.forall_mem_cons.mpr ⟨hscope, hright⟩⟩
      rw [List.map_cons, hps]
      rfl

/-! ## What a walk finds -/

/-- A walk visits the visible places in their order, each in a scope that is right for it. -/
theorem walk_eq_foldl_of (hkeeps : Keeps right) (root : Node) :
    ∃ ps : List Pending, ps.map Pending.place = root.visible ∧
      walk root = ps.foldl visit {} ∧ ∀ p ∈ ps, right p.ancestors p.scope := by
  rw [walk_eq_tour]
  exact tour_eq_foldl hkeeps {} [] {} root hkeeps.root fun a ha => absurd ha List.not_mem_nil

theorem walk_eq_foldl (root : Node) :
    ∃ ps : List Pending, ps.map Pending.place = root.visible ∧
      walk root = ps.foldl visit {} := by
  obtain ⟨ps, hps, hwalk, -⟩ := walk_eq_foldl_of keeps_true root
  exact ⟨ps, hps, hwalk⟩

/-- Whatever each visit in a right scope adds to by the place alone is, after a walk, what the
visible places add from left to right. -/
theorem walk_eq_flatMap_of {α : Type} (hkeeps : Keeps right) (get : Findings → List α)
    (add : Place → List α) (hnone : get {} = [])
    (hvisit : ∀ f p, right p.ancestors p.scope → get (visit f p) = get f ++ add p.place)
    (root : Node) : get (walk root) = root.visible.flatMap add := by
  have hfold : ∀ (ps : List Pending) (f : Findings), (∀ p ∈ ps, right p.ancestors p.scope) →
      get (ps.foldl visit f) = get f ++ (ps.map Pending.place).flatMap add := by
    intro ps
    induction ps with
    | nil => intro f _; simp
    | cons p rest ih =>
      intro f hright
      obtain ⟨hp, hrest⟩ := List.forall_mem_cons.mp hright
      rw [List.foldl_cons, ih _ hrest, hvisit f p hp, List.map_cons, List.flatMap_cons,
        List.append_assoc]
  obtain ⟨ps, hps, hwalk, hright⟩ := walk_eq_foldl_of hkeeps root
  rw [hwalk, hfold ps {} hright, hnone, hps, List.nil_append]

theorem walk_eq_flatMap {α : Type} (get : Findings → List α) (add : Place → List α)
    (hnone : get {} = []) (hvisit : ∀ f p, get (visit f p) = get f ++ add p.place) (root : Node) :
    get (walk root) = root.visible.flatMap add :=
  walk_eq_flatMap_of keeps_true get add hnone (fun f p _ => hvisit f p) root

theorem walk_usings (root : Node) :
    (walk root).usings.toList = root.visible.flatMap (·.node.using?.toList) :=
  walk_eq_flatMap (·.usings.toList) (·.node.using?.toList) rfl visit_usings root

theorem mem_walk_sites {root : Node} {b : Nat} :
    b ∈ (walk root).sites ↔ ∃ v ∈ root.visible, b ∈ v.sites := by
  -- later sites stand in front
  have h := walk_eq_flatMap (·.sites.reverse) (·.sites.reverse) rfl
    (fun f p => by rw [visit_sites, List.reverse_append]) root
  rw [← List.mem_reverse, h, List.mem_flatMap]
  simp only [List.mem_reverse]

end Findings

/-- A declaration without what is around it. -/
def Declaration.unplaced (d : Declaration) : Declaration :=
  { d with inNamespace := none, container := none }

namespace Findings

theorem unplaced_declarations (v : Place) (here : Scope) :
    ((v.declarations here).filter (·.kind != .namespaceName)).map Declaration.unplaced =
      (v.node.introduced v.ancestors).map (·.declaration {}) := by
  rw [v.declarations_without_namespace, List.map_map]
  rfl

/-- Namespaces apart, a walk records what the visible places introduce, from left to right. -/
theorem walk_unplaced (root : Node) :
    ((walk root).declarations.toList.filter (·.kind != .namespaceName)).map Declaration.unplaced =
      root.visible.flatMap fun v => (v.node.introduced v.ancestors).map (·.declaration {}) := by
  refine walk_eq_flatMap
    (fun f => (f.declarations.toList.filter (·.kind != .namespaceName)).map Declaration.unplaced)
    _ rfl (fun f p => ?_) root
  rw [visit_declarations, List.filter_append, List.map_append, unplaced_declarations]

/-- A declaration other than a namespace begins at a byte if and only if something visible
introduces it there. -/
theorem exists_declaration_at {root : Node} {b : Nat} :
    (∃ d ∈ (walk root).declarations, d.kind ≠ .namespaceName ∧ d.position.byte = b) ↔
      ∃ v ∈ root.visible, ∃ i ∈ v.node.introduced v.ancestors, i.site.start = b := by
  have hbytes := congrArg (List.map (·.position.byte)) (walk_unplaced root)
  rw [List.map_map, List.map_flatMap] at hbytes
  have hmem := congrArg (b ∈ ·) hbytes
  simp only [List.map_map, List.mem_map, List.mem_filter, List.mem_flatMap, bne_iff_ne,
    Function.comp_apply, Array.mem_toList_iff, and_assoc] at hmem
  exact iff_of_eq hmem

end Findings

end CodeSmell
