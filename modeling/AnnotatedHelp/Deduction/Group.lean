import AnnotatedHelp.Draft.Basic

/-!
# Groups of drafts

Drafts with one member name form a group. A group holds options only or positional arguments only,
and what its definitions declare about the member has to be the same wherever it is declared.
-/

namespace AnnotatedHelp

/-- The drafts of one member. -/
structure Group where
  /-- The member name. -/
  name : String
  /-- What the definitions declare about the member. -/
  properties : MemberProperties
  /-- The arguments, in document order. -/
  arguments : List Argument
  deriving DecidableEq, Repr

namespace Group

/-- The group of one draft. -/
def ofDraft (draft : Draft) : Group :=
  ⟨draft.argument.memberName, draft.member, [draft.argument]⟩

/-- The lines of the definitions in the group. -/
def lineNumbers (group : Group) : List Nat :=
  group.arguments.map (·.lineNumber)

/-- Joins two declarations of one property, either of which may be missing. -/
def mergeField {α : Type} [DecidableEq α] (member : String) (key : PropertyKey) (shown : α → String) :
    (current other : Option α) → Except Problem (Option α)
  | none, other => .ok other
  | some current, none => .ok (some current)
  | some current, some other =>
    if current = other then .ok (some current)
    else .error (.differingProperty member key (shown current) (shown other))

/-- Joins what two definitions declare about their member. The first property on which they differ
is reported. -/
def mergeProperties (member : String) (current other : MemberProperties) :
    Except Problem MemberProperties := do
  let default ← mergeField member .default ("|".intercalate ·) current.default other.default
  let extraInclude ← mergeField member .extraInclude id current.extraInclude other.extraInclude
  let kind ← mergeField member .kind Kind.name current.kind other.kind
  let values ← mergeField member .values (·.text) current.values other.values
  let valueType ← mergeField member .valueType ValueType.name current.valueType other.valueType
  .ok ⟨default, extraInclude, kind, values, valueType⟩

/-- Adds a draft to its group. -/
def add (group : Group) (draft : Draft) : Except Diagnostic Group :=
  let arguments := group.arguments ++ [draft.argument]
  let lines := arguments.map (·.lineNumber)
  if group.arguments.head?.any (·.isOption != draft.argument.isOption) then
    .error ((Problem.mixedMember group.name).atLines lines)
  else match mergeProperties group.name group.properties draft.member with
    | .error problem => .error (problem.atLines lines)
    | .ok properties => .ok ⟨group.name, properties, arguments⟩

/-- Adds a draft to the group of its member, or begins a new group behind the others. -/
def insert (draft : Draft) : List Group → Except Diagnostic (List Group)
  | [] => .ok [ofDraft draft]
  | group :: groups =>
    if group.name = draft.argument.memberName then do
      .ok ((← group.add draft) :: groups)
    else do
      .ok (group :: (← insert draft groups))

/-- Groups drafts by member name, in the order in which the names first appear. -/
def ofDrafts (drafts : List Draft) : Except Diagnostic (List Group) :=
  drafts.foldlM (fun groups draft => insert draft groups) []

end Group

end AnnotatedHelp
