import ConnectorKeeper.Json.Basic

/-!
# Merge patches

A patch that is an object changes the members it names: a null takes a member
away, an object is merged into the member, and anything else takes its place.
A patch that is no object takes the place of the whole.
-/

namespace ConnectorKeeper.Json

/-- The members of an object; none of any other value. -/
def members : Json → List (Option String × Json)
  | .object ms => ms
  | _ => []

/-- The members other than those of one key. -/
def eraseKey (key : Option String) (ms : List (Option String × Json)) :
    List (Option String × Json) :=
  ms.filter (·.1 != key)

/-- The value of a key among members, null if there is none. -/
def valueAt (key : Option String) (ms : List (Option String × Json)) : Json :=
  ((ms.find? (·.1 == key)).map (·.2)).getD .null

/-- Members with one set, in its old place or at the end. -/
def setKey (key : Option String) (v : Json) :
    List (Option String × Json) → List (Option String × Json)
  | [] => [(key, v)]
  | (k, w) :: rest => if k = key then (k, v) :: eraseKey key rest else (k, w) :: setKey key v rest

mutual
/-- A value after a patch. -/
def merge (target : Json) : Json → Json
  | .object changes => .object (mergeMembers (members target) changes)
  | patch => patch

/-- Members after the changes of a patch, in turn. -/
def mergeMembers (ms : List (Option String × Json)) :
    List (Option String × Json) → List (Option String × Json)
  | [] => ms
  | (key, .null) :: rest => mergeMembers (eraseKey key ms) rest
  | (key, change) :: rest =>
      mergeMembers (setKey key (merge (valueAt key ms) change) ms) rest
end

end ConnectorKeeper.Json
