import CodeSmell.Proofs.Facts.NamespaceForms
import CodeSmell.Proofs.Text.LastDot

/-!
# Namespaces with names without dots

* `Node.SingleNames` : all namespaces of a tree have names without dots;
* `Findings.Grounded` : whatever is around a namespace that has been found has been found as well. A visit
  keeps it so (`Grounded.visit`), and the scope that it passes on is known (`Grounded.knows_innerScope?`);
* `Findings.walk_grounded` : so it is with what a walk finds in such a tree.
-/

namespace CodeSmell

open Syntax

/-- All namespaces of a tree have names without dots. -/
def Syntax.Node.SingleNames (root : Node) : Prop :=
  ∀ v ∈ root.places, ∀ name ∈ v.node.namespaceName?.toList, '.' ∉ (Text.compact name.text).toList

instance (root : Node) : Decidable root.SingleNames :=
  inferInstanceAs (Decidable (∀ v ∈ root.places, _))

namespace Findings

def DeclaresSpace (f : Findings) (full : String) : Prop :=
  ∃ d ∈ f.declarations.toList, d.kind = .namespaceName ∧ d.name = full

/-- Whatever is around a namespace has been found with it, and so has the namespace of the file. -/
structure Grounded (f : Findings) : Prop where
  parents : ∀ d ∈ f.declarations.toList, d.kind = .namespaceName →
    ∀ parent name, splitLastDot? d.name = some (parent, name) → f.DeclaresSpace parent
  file : ∀ full, f.fileNamespace = some full → f.DeclaresSpace full

/-- The namespace of a scope has been found. -/
def Knows (f : Findings) (scope : Scope) : Prop :=
  ∀ full, scope.inNamespace = some full → f.DeclaresSpace full

variable {f : Findings}

theorem DeclaresSpace.visit {full : String} (h : f.DeclaresSpace full) (p : Pending) :
    (f.visit p).DeclaresSpace full := by
  obtain ⟨d, hd, hkind, hname⟩ := h
  refine ⟨d, ?_, hkind, hname⟩
  rw [visit_declarations]
  exact List.mem_append_left _ hd

/-- A visit finds a namespace that was known or the one that its node declares. -/
theorem mem_visit_declarations {p : Pending} {d : Declaration}
    (hd : d ∈ (f.visit p).declarations.toList) (hkind : d.kind = .namespaceName) :
    d ∈ f.declarations.toList ∨ p.node.namespaceDeclaration? (f.namespaceAt p.scope) = some d := by
  rw [visit_declarations] at hd
  refine (List.mem_append.mp hd).imp_right fun hnew => Option.mem_toList.mp ?_
  rw [← show (f.here p).inNamespace = f.namespaceAt p.scope from rfl]
  change d ∈ (p.place.node.namespaceDeclaration? (f.here p).inNamespace).toList
  rw [← p.place.declarations_of_namespace]
  exact List.mem_filter.mpr ⟨hnew, beq_iff_eq.mpr hkind⟩

namespace Grounded

variable (h : f.Grounded) {p : Pending} (hscope : f.Knows p.scope)
include h hscope

/-- The namespace that is in force has been found. -/
theorem declaresSpace_namespaceAt {full : String} (hfull : f.namespaceAt p.scope = some full) :
    f.DeclaresSpace full := by
  unfold namespaceAt at hfull
  rcases some_or_some_of_orElse hfull with hinner | hfile
  · exact hscope full hinner
  · exact h.file full hfile

theorem declaresSpace_opened (hnode : p.node.construct = .namespaceBlock ∨
      p.node.construct = .fileNamespace) {full : String}
    (hfull : p.node.openedNamespace (f.namespaceAt p.scope) = some full) :
    (f.visit p).DeclaresSpace full := by
  unfold Node.openedNamespace at hfull
  cases hname : p.node.childByField? "name" with
  | none =>
    rw [hname] at hfull
    exact (h.declaresSpace_namespaceAt hscope hfull).visit p
  | some name =>
    rw [hname] at hfull
    have hname' : p.node.namespaceName? = some name := by
      unfold Node.namespaceName?
      rcases hnode with hnode | hnode <;> rw [hnode] <;> exact hname
    have hnew : ∃ d, p.node.namespaceDeclaration? (f.namespaceAt p.scope) = some d ∧
        d.kind = .namespaceName ∧ some d.name = some full := by
      rw [Node.namespaceDeclaration?, hname', ← hfull]
      exact ⟨_, rfl, rfl, rfl⟩
    obtain ⟨d, hd, hkind, hfull⟩ := hnew
    refine ⟨d, ?_, hkind, Option.some.inj hfull⟩
    rw [visit_declarations]
    exact List.mem_append_right _ (List.mem_append_right _ (Option.mem_toList.mpr hd))

/-- A visit of a node whose name has no dots leaves it so. -/
theorem visit (hsingle : ∀ name ∈ p.node.namespaceName?.toList,
    '.' ∉ (Text.compact name.text).toList) : (f.visit p).Grounded where
  parents := by
    intro d hd hkind parent name hsplit
    rcases mem_visit_declarations hd hkind with hold | hnew
    · exact (h.parents d hold hkind parent name hsplit).visit p
    · obtain ⟨site, hsite, rfl⟩ := Option.map_eq_some_iff.mp hnew
      have hsimple := hsingle site (Option.mem_toList.mpr hsite)
      cases houter : f.namespaceAt p.scope with
      | none =>
        rw [houter] at hsplit
        have hdot := isSome_splitLastDot?_iff.mp (Option.isSome_of_eq_some hsplit)
        exact absurd hdot hsimple
      | some outer =>
        rw [houter] at hsplit
        have hparts : splitLastDot? (outer ++ "." ++ Text.compact site.text) =
            some (outer, Text.compact site.text) :=
          splitLastDot?_eq_some_iff.mpr ⟨rfl, hsimple⟩
        obtain ⟨rfl, -⟩ := Prod.mk.inj (Option.some.inj (hparts.symm.trans hsplit))
        exact (h.declaresSpace_namespaceAt hscope houter).visit p
  file := by
    intro full hfull
    have hfile : (f.visit p).fileNamespace = if p.node.construct == .fileNamespace then
        p.node.openedNamespace (f.namespaceAt p.scope) else f.fileNamespace := rfl
    rw [hfile] at hfull
    split at hfull
    · next hnode => exact h.declaresSpace_opened hscope (.inr (eq_of_beq hnode)) hfull
    · exact (h.file full hfull).visit p

/-- The scope for the parts of a node is known once the node has been visited. -/
theorem knows_innerScope? {inner : Scope}
    (hinner : p.node.innerScope? p.scope (f.namespaceAt p.scope) = some inner) :
    (f.visit p).Knows inner := by
  intro full hfull
  have hsame : inner = p.scope → (f.visit p).DeclaresSpace full := fun heq =>
    (hscope full (heq ▸ hfull)).visit p
  unfold Node.innerScope? at hinner
  cases hnode : p.node.construct with
  | typeDeclaration kind =>
    rw [hnode] at hinner
    obtain rfl := Option.some.inj hinner
    exact (h.declaresSpace_namespaceAt hscope hfull).visit p
  | namespaceBlock =>
    rw [hnode] at hinner
    obtain rfl := Option.some.inj hinner
    exact h.declaresSpace_opened hscope (.inl hnode) hfull
  | fileNamespace =>
    rw [hnode] at hinner
    obtain rfl := Option.some.inj hinner
    exact h.declaresSpace_opened hscope (.inr hnode) hfull
  | usingDirective | bareParameter | typeParameter | number | identifier =>
    rw [hnode] at hinner
    cases hinner
  | prefixed =>
    rw [hnode] at hinner
    dsimp only at hinner
    split at hinner
    · cases hinner
    · exact hsame (Option.some.inj hinner).symm
  | _ =>
    rw [hnode] at hinner
    exact hsame (Option.some.inj hinner).symm

end Grounded

/-- A tour of a tree whose namespaces have names without dots keeps what has been found grounded, and
forgets nothing of it. -/
theorem Grounded.tour {n : Node} (hsingle : n.SingleNames) (h : f.Grounded) (around : List Node)
    {scope : Scope} (hscope : f.Knows scope) :
    (f.tour around scope n).Grounded ∧
      ∀ full, f.DeclaresSpace full → (f.tour around scope n).DeclaresSpace full := by
  induction n using Node.parts_induction generalizing f around scope with
  | step n ih =>
    have hself := hsingle _ (n.self_mem_placesFrom [])
    have hvisit := h.visit (p := ⟨n, around, scope⟩) hscope hself
    have hkept := fun full (hfull : f.DeclaresSpace full) => hfull.visit ⟨n, around, scope⟩
    rw [tour_eq]
    cases hinner : n.innerScope? scope (f.namespaceAt scope) with
    | none => exact ⟨hvisit, hkept⟩
    | some inner =>
      have hparts : ∀ c ∈ n.children, c.SingleNames := fun c hc v hv =>
        hsingle ⟨v.node, v.ancestors ++ [n]⟩ (Node.mem_places_of_part hc hv)
      have hknows := h.knows_innerScope? (p := ⟨n, around, scope⟩) hscope hinner
      -- the same for a row of parts, whatever has been found before them
      have hall : ∀ ns ⊆ n.children, ∀ g : Findings, g.Grounded → g.Knows inner →
          (g.tourAll (n :: around) inner ns).Grounded ∧
            ∀ full, g.DeclaresSpace full → (g.tourAll (n :: around) inner ns).DeclaresSpace full := by
        intro ns
        induction ns with
        | nil => exact fun _ g hg _ => ⟨hg, fun _ hfull => hfull⟩
        | cons c rest ihrest =>
          intro hsub g hg hknown
          have hc := hsub List.mem_cons_self
          obtain ⟨hground, hmore⟩ := ih c hc (hparts c hc) hg (n :: around) hknown
          obtain ⟨hground', hmore'⟩ := ihrest (fun d hd => hsub (List.mem_cons_of_mem c hd)) _ hground
            fun full hfull => hmore full (hknown full hfull)
          exact ⟨hground', fun full hfull => hmore' full (hmore full hfull)⟩
      obtain ⟨hground, hmore⟩ := hall n.children (List.Subset.refl _) _ hvisit hknows
      exact ⟨hground, fun full hfull => hmore full (hkept full hfull)⟩

/-- A file whose namespaces have names without dots declares all that is around them. -/
theorem walk_grounded {root : Node} (h : root.SingleNames) : (walk root).Grounded := by
  rw [walk_eq_tour]
  have hnone : ∀ full, (none : Option String) = some full →
      ({} : Findings).DeclaresSpace full := nofun
  have hknown : ({} : Findings).Knows {} := hnone
  exact (Grounded.tour h ⟨fun d hd => absurd hd List.not_mem_nil, hnone⟩ [] hknown).1

end Findings

end CodeSmell
