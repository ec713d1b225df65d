import Pushdown.Number.Shortest

/-!
# Written forms of a double

Two forms are in use. The plain form never has an exponent and writes a whole number without a
point. The document form writes a whole number with `.0` and has an exponent outside the range from
`10 ^ -5` to `10 ^ 16`. Both have the fewest digits that read back.
-/

namespace Pushdown.Number

/-- Digits with a scale, laid out without an exponent; `whole` follows a whole number. -/
def layPlain (whole : List Char) (ds : List Char) (scale : Int) : List Char :=
  let point := ds.length + scale
  if 0 ≤ scale then ds ++ List.replicate scale.toNat '0' ++ whole
  else if 0 < point then ds.take point.toNat ++ '.' :: ds.drop point.toNat
  else '0' :: '.' :: List.replicate (-point).toNat '0' ++ ds

/-- Digits with a scale, laid out with one digit before the point and a signed exponent. -/
def layScientific (ds : List Char) (scale : Int) : List Char :=
  let exponent := ds.length + scale - 1
  let mantissa := match ds with
    | [] => []
    | [d] => [d]
    | d :: rest => d :: '.' :: rest
  mantissa ++ 'e' :: (if exponent < 0 then '-' else '+') :: digits exponent.natAbs

/-- A minus sign in front of a negative number. -/
def signed (negative : Bool) (s : List Char) : List Char :=
  if negative then '-' :: s else s

namespace Double

/-- The plain form. An exact tie between two shortest decimals goes up. -/
def plain : Double → List Char
  | .notANumber => ['N', 'a', 'N']
  | .infinite negative => signed negative ['i', 'n', 'f']
  | .finite negative exponent fraction =>
    let b := magnitude exponent fraction
    if b.significand = 0 then signed negative ['0']
    else
      let (ds, scale) := shortest .up b
      signed negative (layPlain [] ds scale)

/-- The form of a number in a JSON document; what is no finite number has none. An exact tie
between two shortest decimals goes to the even one. -/
def document? : Double → Option (List Char)
  | .finite negative exponent fraction =>
    let b := magnitude exponent fraction
    if b.significand = 0 then some (signed negative ['0', '.', '0'])
    else
      let (ds, scale) := shortest .toEven b
      let leading := ds.length + scale - 1
      some <| signed negative <|
        if -5 ≤ leading && leading < 16 then layPlain ['.', '0'] ds scale
        else layScientific ds scale
  | _ => none

end Double

end Pushdown.Number
