import ComponentKinds.Binary64.Basic
import ComponentKinds.Keyed

/-!
# JSON trees

A tree keeps the members of an object as a list, so that it can show a text as it was
written: in that order, and with repeated keys. In the canonical form every object is
ordered by key and the last of several members with one key is kept; values that are
handed to readers of trees are canonical.
-/

namespace ComponentKinds

/-- A number of a JSON tree: whole numbers of 64 bits, signed or unsigned, stay exact. -/
inductive Json.Number where
  /-- A whole number from `-2 ^ 63` to below `2 ^ 64`. -/
  | int (value : Int)
  /-- Any other finite number. -/
  | float (value : Binary64)
  deriving DecidableEq, Repr

/-- A JSON value, with the members of its objects as a list. -/
inductive Json where
  | null
  | bool (value : Bool)
  | num (number : Json.Number)
  | str (text : String)
  | arr (items : List Json)
  | obj (members : List (String × Json))
  deriving Inhabited, Repr

namespace Json

mutual

/-- Equality of trees is decided node by node. -/
def decEq : (a b : Json) → Decidable (a = b)
  | .null, .null => isTrue rfl
  | .bool a, .bool b => decidable_of_iff (a = b) (by simp)
  | .num a, .num b => decidable_of_iff (a = b) (by simp)
  | .str a, .str b => decidable_of_iff (a = b) (by simp)
  | .arr a, .arr b => match decEqItems a b with
    | isTrue h => isTrue (h ▸ rfl)
    | isFalse h => isFalse (fun e => h (Json.arr.inj e))
  | .obj a, .obj b => match decEqMembers a b with
    | isTrue h => isTrue (h ▸ rfl)
    | isFalse h => isFalse (fun e => h (Json.obj.inj e))
  | .null, .bool _ | .null, .num _ | .null, .str _ | .null, .arr _ | .null, .obj _
  | .bool _, .null | .bool _, .num _ | .bool _, .str _ | .bool _, .arr _ | .bool _, .obj _
  | .num _, .null | .num _, .bool _ | .num _, .str _ | .num _, .arr _ | .num _, .obj _
  | .str _, .null | .str _, .bool _ | .str _, .num _ | .str _, .arr _ | .str _, .obj _
  | .arr _, .null | .arr _, .bool _ | .arr _, .num _ | .arr _, .str _ | .arr _, .obj _
  | .obj _, .null | .obj _, .bool _ | .obj _, .num _ | .obj _, .str _ | .obj _, .arr _ =>
    isFalse nofun

/-- Arrays are equal item by item. -/
def decEqItems : (a b : List Json) → Decidable (a = b)
  | [], [] => isTrue rfl
  | x :: xs, y :: ys => match decEq x y, decEqItems xs ys with
    | isTrue h, isTrue hs => isTrue (h ▸ hs ▸ rfl)
    | isFalse h, _ => isFalse (fun e => h (List.cons.inj e).1)
    | _, isFalse hs => isFalse (fun e => hs (List.cons.inj e).2)
  | [], _ :: _ | _ :: _, [] => isFalse nofun

/-- Objects are equal member by member, in the order of their lists. -/
def decEqMembers : (a b : List (String × Json)) → Decidable (a = b)
  | [], [] => isTrue rfl
  | (k, x) :: xs, (l, y) :: ys =>
    if hk : k = l then
      match decEq x y, decEqMembers xs ys with
      | isTrue h, isTrue hs => isTrue (hk ▸ h ▸ hs ▸ rfl)
      | isFalse h, _ => isFalse (fun e => h (Prod.mk.inj (List.cons.inj e).1).2)
      | _, isFalse hs => isFalse (fun e => hs (List.cons.inj e).2)
    else isFalse (fun e => hk (Prod.mk.inj (List.cons.inj e).1).1)
  | [], _ :: _ | _ :: _, [] => isFalse nofun

end

instance : DecidableEq Json := decEq

mutual

/-- The tree with every object in canonical form: members in key order, and of several
members with one key the last. -/
def canonical : Json → Json
  | .arr items => .arr (canonicalItems items)
  | .obj members => .obj (Entries.sort (canonicalMembers members))
  | leaf => leaf

/-- All items in canonical form. -/
def canonicalItems : List Json → List Json
  | [] => []
  | item :: rest => item.canonical :: canonicalItems rest

/-- All members with their values in canonical form, as many and in the order as before. -/
def canonicalMembers : List (String × Json) → List (String × Json)
  | [] => []
  | (key, value) :: rest => (key, value.canonical) :: canonicalMembers rest

end

mutual

/-- In a canonical tree the keys of every object increase strictly. -/
def isCanonical : Json → Bool
  | .arr items => itemsCanonical items
  | .obj members => decide (Entries.Sorted members) && membersCanonical members
  | _ => true

/-- Whether every item is canonical. -/
def itemsCanonical : List Json → Bool
  | [] => true
  | item :: rest => item.isCanonical && itemsCanonical rest

/-- Whether every member has a canonical value. -/
def membersCanonical : List (String × Json) → Bool
  | [] => true
  | (_, value) :: rest => value.isCanonical && membersCanonical rest

end

/-- A tree in which the keys of every object increase strictly. -/
def Canonical (j : Json) : Prop := j.isCanonical = true

instance (j : Json) : Decidable j.Canonical := inferInstanceAs (Decidable (_ = true))

end Json

end ComponentKinds
