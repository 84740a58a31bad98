import Mathlib.Data.List.AList
import Mathlib.Data.Finset.Image

/-! Resolved object identities, written names, and the parsed expressions
that columns, index keys and constraints carry. -/

namespace SafeMigrate

/-- Hash maps, with their entries in iteration order. -/
abbrev KeyedMap (α β : Type) := AList (fun _ : α => β)

/-- A fully resolved object. Equality and hashing of the source ignore its
`inferred_schema` mark, which `ObjectRef` carries where a lookup reads it. -/
structure ObjectId where
  schema : String
  name : String
deriving DecidableEq

def ObjectId.display (id : ObjectId) : String := id.schema ++ "." ++ id.name

/-- An identity as a statement resolved it. -/
structure ObjectRef where
  id : ObjectId
  inferredSchema : Bool
deriving DecidableEq

def ObjectRef.display (r : ObjectRef) : String :=
  if r.inferredSchema then r.id.display ++ " (inferred)" else r.id.display

structure Ident where
  text : String
  quoted : Bool
deriving DecidableEq

def maxIdentifierBytes : Nat := 63

/-- The longest prefix of at most `budget` UTF-8 bytes. -/
def takeBytes : Nat → List Char → List Char
  | _, [] => []
  | budget, c :: cs => if c.utf8Size ≤ budget then c :: takeBytes (budget - c.utf8Size) cs else []

def truncatePostgresIdentifier (value : String) : String :=
  String.ofList (takeBytes maxIdentifierBytes value.toList)

def toAsciiLowercase (value : String) : String := String.ofList (value.toList.map Char.toLower)

def Ident.resolve (ident : Ident) : String :=
  truncatePostgresIdentifier (if ident.quoted then ident.text else toAsciiLowercase ident.text)

structure QualifiedName where
  schema : Option Ident
  name : Ident
deriving DecidableEq

inductive ExprIr
  | literal (value : String)
  | columnRef (name : String)
  | functionCall (name : String) (args : List ExprIr)
  | binaryOp (left : ExprIr) (op : String) (right : ExprIr)
  | cast (expr : ExprIr) (targetType : String)
  | sentinel (value : String)
  | omitted
  | unaryOp (op : String) (expr : ExprIr)

namespace ExprIr

mutual

def decEq (a b : ExprIr) : Decidable (a = b) :=
  if h : a.ctorIdx = b.ctorIdx then
    match a, b, h with
    | .literal x, .literal y, _ => decidable_of_iff (x = y) (by simp)
    | .columnRef x, .columnRef y, _ => decidable_of_iff (x = y) (by simp)
    | .functionCall f xs, .functionCall g ys, _ =>
      have := decEqArgs xs ys
      decidable_of_iff (f = g ∧ xs = ys) (by simp)
    | .binaryOp l o r, .binaryOp l' o' r', _ =>
      have := decEq l l'
      have := decEq r r'
      decidable_of_iff (l = l' ∧ o = o' ∧ r = r') (by simp)
    | .cast e t, .cast e' t', _ =>
      have := decEq e e'
      decidable_of_iff (e = e' ∧ t = t') (by simp)
    | .sentinel x, .sentinel y, _ => decidable_of_iff (x = y) (by simp)
    | .omitted, .omitted, _ => isTrue rfl
    | .unaryOp o e, .unaryOp o' e', _ =>
      have := decEq e e'
      decidable_of_iff (o = o' ∧ e = e') (by simp)
  else isFalse (by rintro rfl; exact h rfl)

def decEqArgs : (xs ys : List ExprIr) → Decidable (xs = ys)
  | [], [] => isTrue rfl
  | [], _ :: _ => isFalse (by simp)
  | _ :: _, [] => isFalse (by simp)
  | x :: xs, y :: ys =>
    have := decEq x y
    have := decEqArgs xs ys
    decidable_of_iff (x = y ∧ xs = ys) (by simp)

end

instance : DecidableEq ExprIr := decEq

end ExprIr

end SafeMigrate
