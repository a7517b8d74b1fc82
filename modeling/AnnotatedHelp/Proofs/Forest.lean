import Mathlib
import AnnotatedHelp.Template.Token

/-!
# Trees of conditional blocks

The tokens of a template form trees where its conditional directives are properly nested: a block
is a condition, the tokens up to the next branch, the further branches and an end. Nesting is
checked by a depth alone, and every token list that passes the check is the flattening of a forest.
Branches behind `ELSE` are not excluded.
-/

namespace AnnotatedHelp.Template

/-- Whether a token belongs to a conditional directive. -/
def Token.isConditional : Token → Bool
  | .ifKey _ | .elifKey _ | .elseBranch | .endif => true
  | _ => false

mutual

/-- Tokens and conditional blocks, one after another. -/
inductive Forest where
  /-- Nothing follows. -/
  | nil
  /-- A token outside conditional directives, and what follows. -/
  | token (placed : Placed) (plain : placed.token.isConditional = false) (rest : Forest)
  /-- A condition with its branch, the further branches of its block, and what follows. -/
  | block (line : Nat) (key : List Char) (body : Forest) (branches : Branches) (rest : Forest)

/-- The further branches of a block up to its end. -/
inductive Branches where
  /-- The end of the block. -/
  | endif (line : Nat)
  /-- A branch with a condition, and what follows in the block. -/
  | elif (line : Nat) (key : List Char) (body : Forest) (rest : Branches)
  /-- A branch without condition, and what follows in the block. -/
  | orElse (line : Nat) (body : Forest) (rest : Branches)

end

mutual

/-- The tokens of a forest. -/
def Forest.flatten : Forest → List Placed
  | .nil => []
  | .token placed _ rest => placed :: rest.flatten
  | .block line key body branches rest =>
    ⟨line, .ifKey key⟩ :: (body.flatten ++ (branches.flatten ++ rest.flatten))

/-- The tokens of further branches, with the end of the block. -/
def Branches.flatten : Branches → List Placed
  | .endif line => [⟨line, .endif⟩]
  | .elif line key body rest => ⟨line, .elifKey key⟩ :: (body.flatten ++ rest.flatten)
  | .orElse line body rest => ⟨line, .elseBranch⟩ :: (body.flatten ++ rest.flatten)

end

/-- The nesting depth behind a token; a branch or an end outside all blocks has none. -/
def Token.depthAfter (depth : Nat) : Token → Option Nat
  | .ifKey _ => some (depth + 1)
  | .endif => if depth = 0 then none else some (depth - 1)
  | .elifKey _ | .elseBranch => if depth = 0 then none else some depth
  | _ => some depth

/-- The nesting depth behind tokens. -/
def depthAfter (depth : Nat) : List Placed → Option Nat
  | [] => some depth
  | placed :: tokens => (placed.token.depthAfter depth).bind fun depth => depthAfter depth tokens

/-- Every branch and every end stands inside a block, and every block is ended. -/
def ProperlyNested (tokens : List Placed) : Prop :=
  depthAfter 0 tokens = some 0

/-- A token outside conditional directives leaves the depth. -/
theorem Token.depthAfter_of_plain {token : Token} (h : token.isConditional = false) (depth : Nat) :
    token.depthAfter depth = some depth := by
  cases token <;> first | rfl | cases h

mutual

/-- A forest leaves the depth. -/
theorem Forest.depthAfter_flatten (forest : Forest) (depth : Nat) (rest : List Placed) :
    depthAfter depth (forest.flatten ++ rest) = depthAfter depth rest := by
  match forest with
  | .nil => rfl
  | .token placed hplain following =>
    rw [Forest.flatten, List.cons_append, depthAfter, Token.depthAfter_of_plain hplain]
    exact following.depthAfter_flatten depth rest
  | .block line key body branches following =>
    rw [Forest.flatten, List.cons_append, depthAfter, List.append_assoc, List.append_assoc]
    calc
      depthAfter (depth + 1) (body.flatten ++ (branches.flatten ++ (following.flatten ++ rest)))
      _ = depthAfter (depth + 1) (branches.flatten ++ (following.flatten ++ rest)) :=
        body.depthAfter_flatten (depth + 1) _
      _ = depthAfter depth (following.flatten ++ rest) := branches.depthAfter_flatten depth _
      _ = depthAfter depth rest := following.depthAfter_flatten depth rest

/-- The further branches of a block lead out of it. -/
theorem Branches.depthAfter_flatten (branches : Branches) (depth : Nat) (rest : List Placed) :
    depthAfter (depth + 1) (branches.flatten ++ rest) = depthAfter depth rest := by
  match branches with
  | .endif line => rfl
  | .elif line key body others =>
    rw [Branches.flatten, List.cons_append, depthAfter, List.append_assoc]
    exact (body.depthAfter_flatten (depth + 1) _).trans (others.depthAfter_flatten depth rest)
  | .orElse line body others =>
    rw [Branches.flatten, List.cons_append, depthAfter, List.append_assoc]
    exact (body.depthAfter_flatten (depth + 1) _).trans (others.depthAfter_flatten depth rest)

end

end AnnotatedHelp.Template
