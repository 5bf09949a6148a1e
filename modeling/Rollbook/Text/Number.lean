/-!
# Rollbook — numbers in fixed places

Decimal numbers filled with zeros on the left up to a least number of places.
-/

namespace Rollbook.Text

/-- The decimal digits of `n`, with zeros in front until there are `places` of them. A longer
number keeps all its digits. -/
def padded (places n : Nat) : String :=
  let digits := Nat.toDigits 10 n
  String.ofList (List.replicate (places - digits.length) '0' ++ digits)

end Rollbook.Text
