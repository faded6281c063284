import ObjectEngine.Store.Predicate
import ObjectEngine.Text.Lowercase

/-!
# Equality and order of stored values

Numbers are equal and compare across their two kinds, as doubles; two integers compare as
integers. Texts are equal and compare after folding their case where the collation says so.
`Datum.compare?` is undefined between kinds; sorting falls back there to the rank of the kind.
-/

namespace ObjectEngine

/-- The text as the collation compares it. -/
def Collation.fold (c : Option Collation) (s : String) : String :=
  match c with
  | some c => if c.ignoresCase then Text.lower s else s
  | none => s

namespace Datum

mutual

/-- Equality under a collation: numbers as doubles, arrays item by item, and everything else
by kind and content. -/
def equalUnder (c : Option Collation) : Datum → Datum → Bool
  | .string a, .string b => Collation.fold c a = Collation.fold c b
  | .int a, .int b => (Double.ofInt a.toInt).same (Double.ofInt b.toInt)
  | .int a, .double b => (Double.ofInt a.toInt).same b
  | .double a, .int b => a.same (Double.ofInt b.toInt)
  | .array as, .array bs => equalItems c as bs
  | a, b => a.same b

/-- Equality under a collation of arrays. -/
def equalItems (c : Option Collation) : List Datum → List Datum → Bool
  | [], [] => true
  | a :: as, b :: bs => equalUnder c a b && equalItems c as bs
  | _, _ => false

end

/-- The order of two values of comparable kinds. -/
def compare? (c : Option Collation) : Datum → Datum → Option Ordering
  | .int a, .int b => some (compare a.toInt b.toInt)
  | .int a, .double b => (Double.ofInt a.toInt).compare? b
  | .double a, .int b => a.compare? (Double.ofInt b.toInt)
  | .double a, .double b => a.compare? b
  | .string a, .string b => some (compare (Collation.fold c a) (Collation.fold c b))
  | .date a, .date b => some (a.order b)
  | .bool a, .bool b => some (compare a.toNat b.toNat)
  | .null, .null => some .eq
  | _, _ => none

/-- The place of a kind among the others. -/
def rank : Datum → Nat
  | .null => 0
  | .int _ | .double _ => 1
  | .string _ => 2
  | .record _ => 3
  | .array _ => 4
  | .binary _ => 5
  | .bool _ => 6
  | .date _ => 7
  | .extended .. => 8

/-- The order for sorting: of the values, or of their kinds where they do not compare. -/
def sortOrder (c : Option Collation) (a b : Datum) : Ordering :=
  (compare? c a b).getD (compare a.rank b.rank)

end Datum

end ObjectEngine
