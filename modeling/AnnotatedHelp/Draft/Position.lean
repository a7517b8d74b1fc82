import AnnotatedHelp.Draft.Basic

/-!
# Positions of positional arguments

Every positional argument gets an index below their number. A declared index is kept; the others
take the indices that are left, in ascending order, as they were numbered.
-/

namespace AnnotatedHelp.Draft

open Text

/-- A positional argument in a list of drafts. -/
structure Positional where
  /-- Its number in the session. -/
  number : Nat
  /-- Its place in the list. -/
  place : Nat
  /-- Its draft. -/
  draft : Draft

/-- Puts a positional argument before the first one whose number is not smaller. -/
def Positional.insert (positional : Positional) : List Positional → List Positional
  | [] => [positional]
  | first :: rest =>
    if positional.number ≤ first.number then positional :: first :: rest
    else first :: insert positional rest

/-- The positional arguments in a list of drafts, sorted by their numbers. -/
def positionals (drafts : List Draft) : List Positional :=
  (drafts.zipIdx.filterMap fun (draft, place) =>
    draft.number.map fun number => ⟨number, place, draft⟩).foldr Positional.insert []

/-- Reads a declared index: an integer from zero up to, and without, the number of positional
arguments. -/
def readIndex (total : Nat) (text : String) : Except Problem Nat :=
  match integer64? (trim text.toList) with
  | none => .error (.unreadableIndex text)
  | some index =>
    if 0 ≤ index ∧ index < total then .ok index.toNat
    else .error (.indexOutOfRange total index)

/-- Collects the indices that positional arguments declare, with the lines that declare them, latest
first. The first fault is reported; a repeated index concerns both lines. -/
def claimIndices (total : Nat) (claims : List (Nat × Nat)) :
    List Draft → Except Diagnostic (List (Nat × Nat))
  | [] => .ok claims
  | draft :: drafts =>
    let line := draft.argument.lineNumber
    match draft.declaredIndex with
    | none => claimIndices total claims drafts
    | some text =>
      match readIndex total text with
      | .error problem => .error (problem.atLines [line])
      | .ok index =>
        match claims.lookup index with
        | some other => .error (Problem.duplicateIndex.atLines [other, line])
        | none => claimIndices total ((index, line) :: claims) drafts

/-- The indices that nothing claims, in ascending order. -/
def freeIndices (total : Nat) (claims : List (Nat × Nat)) : List Nat :=
  (List.range total).filter fun index => !(claims.map (·.1)).contains index

/-- The indices of positional arguments: the declared one of each, or the next free one. -/
def assignIndices (total : Nat) : (free : List Nat) → List Draft → List (Option Nat)
  | _, [] => []
  | free, draft :: drafts =>
    match draft.declaredIndex with
    | some text => (readIndex total text).toOption :: assignIndices total free drafts
    | none => free.head? :: assignIndices total free.tail drafts

/-- The draft with an index. -/
def withIndex (index : Option Nat) (draft : Draft) : Draft :=
  { draft with argument := { draft.argument with index := index } }

/-- Writes indices into the drafts at their places; the first draft has the place `first`. -/
def writeIndices (indices : List (Nat × Option Nat)) : (first : Nat) → List Draft → List Draft
  | _, [] => []
  | first, draft :: drafts =>
    let written := match indices.lookup first with
      | some index => draft.withIndex index
      | none => draft
    written :: writeIndices indices (first + 1) drafts

/-- Gives every positional argument an index. -/
def resolveIndices (drafts : List Draft) : Except Diagnostic (List Draft) :=
  let queue := positionals drafts
  let total := queue.length
  let queued := queue.map (·.draft)
  match claimIndices total [] queued with
  | .error diagnostic => .error diagnostic
  | .ok claims =>
    let indices := assignIndices total (freeIndices total claims) queued
    .ok (writeIndices ((queue.map (·.place)).zip indices) 0 drafts)

end AnnotatedHelp.Draft
