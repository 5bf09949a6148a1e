import Rollbook.Text.Quoted
import Rollbook.Timestamp

/-!
# Rollbook — values

What one column of one row holds: nothing, a whole number, a text or a moment.
-/

namespace Rollbook

/-- The content of one column in one row. -/
inductive Value where
  | null
  | int (n : Int)
  | text (s : String)
  | timestamp (t : Timestamp)
deriving DecidableEq, Repr, Inhabited

namespace Value

def isNull : Value → Bool
  | null => true
  | _ => false

@[simp] theorem isNull_iff {v : Value} : v.isNull = true ↔ v = null := by
  cases v <;> simp [isNull]

/-- The bare text of a value, as duplicate entries report it. -/
def display : Value → String
  | null => "NULL"
  | int n => toString n
  | text s => s
  | timestamp t => t.display

/-- The value with its kind, as decoding errors show it. -/
def describe : Value → String
  | null => "Null"
  | int n => s!"Int({n})"
  | text s => s!"Text({Text.quote s})"
  | timestamp t => s!"Timestamp({t.exact})"

/-- The moment in a column that holds one. -/
def timestamp? : Value → Option Timestamp
  | timestamp t => some t
  | _ => none

/-- The order of the kinds: nothing, numbers, texts, moments. -/
def rank : Value → Nat
  | null => 0
  | int _ => 1
  | text _ => 2
  | timestamp _ => 3

/-- Values of one kind by size, by code points or by time; values of two kinds by rank. -/
def compare : Value → Value → Ordering
  | int a, int b => Ord.compare a b
  | text a, text b => Ord.compare a b
  | timestamp a, timestamp b => a.compare b
  | a, b => Ord.compare a.rank b.rank

end Value

end Rollbook
