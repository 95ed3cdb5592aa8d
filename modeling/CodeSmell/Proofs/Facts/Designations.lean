import CodeSmell.Facts.Contribution

/-!
# Designations taken apart

* `Node.designated` : the identifiers that a designation binds, by recursion over its groups;
* `Deconstruction.designated` : what a designation taken apart binds in the end. One turn of the loop
  leaves it as it is (`designated_next?`) and less to look at (`sizes_next?`);
* `Deconstruction.run_eq` : so the loop ends with just that, from any stack, and the identifiers found
  in a designation are those of the recursion (`bindings_eq_designated`).
-/

namespace CodeSmell

open Syntax

namespace Syntax.Node

mutual

/-- The identifiers that a designation binds, from left to right. -/
def designated : Node → List Node
  | n@⟨_, _, _, _, _, _, _, children⟩ =>
    if n.isIdentifier then [n] else if n.isGroup then designatedIn children else []

def designatedIn : List Node → List Node
  | [] => []
  | n :: rest => if n.named then designated n ++ designatedIn rest else designatedIn rest

end

theorem designatedIn_eq (ns : List Node) :
    designatedIn ns = (ns.filter (·.named)).flatMap designated := by
  induction ns with
  | nil => rfl
  | cons n rest ih =>
    rw [designatedIn, ih, List.filter_cons]
    split <;> rfl

theorem designated_eq (n : Node) :
    n.designated =
      if n.isIdentifier then [n] else if n.isGroup then n.namedChildren.flatMap designated else [] := by
  rw [namedChildren, ← designatedIn_eq]
  cases n
  rfl

end Syntax.Node

namespace Deconstruction

/-! ## One turn -/

/-- What has been found, and what the nodes on the stack bind. -/
def designated (d : Deconstruction) : List Node :=
  d.found.toList ++ d.stack.flatMap Node.designated

/-- The parts pushed last to first lie on the stack in their order. -/
theorem next?_cons (found : Array Node) (n : Node) (rest : List Node) :
    next? ⟨found, n :: rest⟩ =
      some (if n.isIdentifier then ⟨found.push n, rest⟩
        else if n.isGroup then ⟨found, n.namedChildren ++ rest⟩
        else ⟨found, rest⟩) := by
  unfold next?
  dsimp only
  rw [List.foldl_reverse, List.foldr_cons_eq_append']
  split
  · rfl
  · split <;> rfl

theorem next?_eq_none_iff {d : Deconstruction} : d.next? = none ↔ d.stack = [] := by
  obtain ⟨found, stack⟩ := d
  cases stack with
  | nil => exact iff_of_true rfl rfl
  | cons n rest =>
    rw [next?_cons]
    exact iff_of_false nofun nofun

/-- A turn does not change what is bound in the end. -/
theorem designated_next? {d e : Deconstruction} (h : d.next? = some e) :
    e.designated = d.designated := by
  obtain ⟨found, stack⟩ := d
  cases stack with
  | nil => cases h
  | cons n rest =>
    rw [next?_cons] at h
    obtain rfl := Option.some.inj h
    unfold designated
    rw [List.flatMap_cons, n.designated_eq]
    split
    · rw [Array.toList_push, List.append_assoc]
    · split
      · rw [List.flatMap_append]
      · rfl

/-- A turn leaves less to look at. -/
theorem sizes_next? {d e : Deconstruction} (h : d.next? = some e) :
    Node.sizes e.stack < Node.sizes d.stack := by
  obtain ⟨found, stack⟩ := d
  cases stack with
  | nil => cases h
  | cons n rest =>
    rw [next?_cons] at h
    obtain rfl := Option.some.inj h
    have hsize := n.size_pos
    rw [Node.sizes]
    split
    · show Node.sizes rest < _
      omega
    · split
      · have hparts := n.sizes_namedChildren_lt
        show Node.sizes (n.namedChildren ++ rest) < _
        rw [Node.sizes_append]
        omega
      · show Node.sizes rest < _
        omega

/-! ## The loop -/

/-- With fuel for all nodes the loop ends, and has found what the stack binds. -/
theorem run_eq (d : Deconstruction) (fuel : Nat) (h : Node.sizes d.stack ≤ fuel) :
    d.run fuel = ⟨d.designated.toArray, []⟩ := by
  induction fuel generalizing d with
  | zero =>
    obtain ⟨found, stack⟩ := d
    cases stack with
    | nil => simp [run, designated]
    | cons n rest =>
      have hsize := n.size_pos
      rw [Node.sizes] at h
      omega
  | succ fuel ih =>
    rw [run]
    cases hnext : d.next? with
    | none =>
      obtain ⟨found, stack⟩ := d
      obtain rfl : stack = [] := next?_eq_none_iff.mp hnext
      simp [designated]
    | some e =>
      have hless := sizes_next? hnext
      dsimp only
      rw [ih e (by omega), designated_next? hnext]

theorem run_start (n : Node) (fuel : Nat) (h : n.size ≤ fuel) :
    run { stack := [n] } fuel = ⟨n.designated.toArray, []⟩ := by
  rw [run_eq { stack := [n] } fuel h]
  simp [designated]

end Deconstruction

namespace Syntax.Node

theorem bindings_eq_designated (n : Node) : n.bindings = n.designated := by
  rw [bindings, Deconstruction.run_start n n.size (Nat.le_refl _)]

theorem patternVariables_eq (n : Node) :
    n.patternVariables =
      (n.designation?.toList.flatMap designated).map (.named n .localVariable) := by
  rw [patternVariables, funext bindings_eq_designated]

theorem loopVariables_eq (n : Node) :
    n.loopVariables =
      if (n.childByField? "type").isSome then
        ((n.childByField? "left").toList.flatMap designated).map (.named n .localVariable)
      else [] := by
  rw [loopVariables, funext bindings_eq_designated]

end Syntax.Node

end CodeSmell
