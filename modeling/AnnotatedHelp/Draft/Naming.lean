import AnnotatedHelp.Draft.Basic

/-!
# Unique display names

Definitions of one document may make the same name. A later one then gets the least number behind
its name that makes it differ from all names before it.
-/

namespace AnnotatedHelp.Draft

/-- A name with a number behind it; zero leaves the name as it is. -/
def numbered (base : String) : Nat → String
  | 0 => base
  | n + 1 => base ++ (n + 1).repr

/-- The least number that makes a name differ from those taken. Among one more number than there
are names taken, one is free. -/
def freeNumber (taken : List String) (base : String) : Nat :=
  ((List.range (taken.length + 1)).find? fun n => !taken.contains (numbered base n)).getD 0

/-- Renames a draft so that its name is not taken. -/
def rename (taken : List String) (draft : Draft) : Draft :=
  let name := numbered draft.argument.name (freeNumber taken draft.argument.name)
  { draft with argument := { draft.argument with name := name } }

/-- Makes the names of drafts differ from each other and from those taken, in order. -/
def uniqueNamesFrom (taken : List String) : List Draft → List Draft
  | [] => []
  | draft :: drafts =>
    let renamed := rename taken draft
    renamed :: uniqueNamesFrom (renamed.argument.name :: taken) drafts

/-- Makes the names of drafts differ from each other. -/
def uniqueNames (drafts : List Draft) : List Draft :=
  uniqueNamesFrom [] drafts

end AnnotatedHelp.Draft
