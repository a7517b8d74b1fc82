import AnnotatedHelp.Deduction.Inference
import AnnotatedHelp.Draft.Naming
import AnnotatedHelp.Draft.Position

/-!
# From blocks to members

Definitions are read in document order, and the first one that is refused ends the reading. The
drafts then get unique names and indices, are grouped by member name, and every group is deduced.
Members are sorted by name, and every argument is given the place of its member.
-/

namespace AnnotatedHelp

/-- Deduces the members of groups, in order; a failure concerns all lines of its group. -/
def Group.members (rule : DefaultRule) (groups : List Group) : Except Diagnostic (List Member) :=
  groups.mapM fun group =>
    (group.member rule).mapError fun problem => problem.atLines group.lineNumbers

namespace Member

/-- Sorts members by name. -/
def sortByName (members : List Member) : List Member :=
  members.mergeSort fun a b => a.name ≤ b.name

/-- The member with the place of the member written into its arguments. -/
def withPlace (place : Nat) (member : Member) : Member :=
  { member with arguments := member.arguments.map fun argument =>
      { argument with memberIndex := some place } }

/-- Checks that a help member exists where one is required. -/
def checkHelp (requireHelp : Bool) (members : List Member) : Except Diagnostic Unit :=
  if requireHelp && !members.any (·.kind == .help) then .error Problem.noHelp.diagnostic else .ok ()

/-- Deduces the members of drafts whose names and indices are settled. -/
def ofDrafts (settings : Settings) (drafts : List Draft) : Except Diagnostic (List Member) := do
  let groups ← Group.ofDrafts drafts
  let members ← Group.members settings.defaultRule groups
  checkHelp settings.requireHelp members
  .ok ((sortByName members).mapIdx withPlace)

end Member

namespace Draft

/-- Makes the drafts of blocks, the first of which has the given ordinal. The first block that is
refused ends the reading; it may have taken a number. -/
def ofBlocks (marks : Marks) (dialect : Dialect) (counters : Counters) (ordinal : Nat) :
    List Block → Except Diagnostic (List Draft) × Counters
  | [] => (.ok [], counters)
  | block :: blocks =>
    match Definition.ofBlock marks dialect counters block with
    | (.error problem, counters) => (.error (problem.atLines [block.line]), counters)
    | (.ok definition, counters) =>
      match Draft.ofDefinition ordinal definition with
      | .error problem => (.error (problem.atLines [block.line]), counters)
      | .ok draft =>
        match ofBlocks marks dialect counters (ordinal + 1) blocks with
        | (.error diagnostic, counters) => (.error diagnostic, counters)
        | (.ok drafts, counters) => (.ok (draft :: drafts), counters)

end Draft

/-- Deduces the members of drafts made from definitions. -/
def Member.deduce (settings : Settings) (drafts : List Draft) : Except Diagnostic (List Member) := do
  let drafts ← Draft.resolveIndices (Draft.uniqueNames drafts)
  Member.ofDrafts settings drafts

end AnnotatedHelp
