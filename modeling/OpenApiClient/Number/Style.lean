import OpenApiClient.Number.Shortest

/-!
How a floating-point number is written: its shortest digits, positionally or with an exponent.
-/

namespace OpenApiClient

-- The conventions of one way to write numbers. `positional` is asked with the exponent of the
-- leading digit.
structure NumberStyle where
  positional : Int → Bool
  keepsFraction : Bool
  plusInExponent : Bool
  tie : Binary64.Tie

namespace NumberStyle

-- The digits of `n`, with a point after the first and an exponent.
def scientific (style : NumberStyle) (digits : List Char) (exponent : Int) : List Char :=
  let mantissa :=
    match digits with
    | first :: second :: rest => first :: '.' :: second :: rest
    | digits => digits
  let sign := if exponent < 0 then ['-'] else if style.plusInExponent then ['+'] else []
  mantissa ++ 'e' :: sign ++ Nat.toDigits 10 exponent.natAbs

-- The digits with the point where the exponent of the last one says.
def positionalText (style : NumberStyle) (digits : List Char) (last : Int) : List Char :=
  if 0 ≤ last then
    digits ++ List.replicate last.toNat '0' ++ (if style.keepsFraction then ['.', '0'] else [])
  else
    let places := (-last).toNat
    let padded := List.replicate (places + 1 - digits.length) '0' ++ digits
    padded.take (padded.length - places) ++ '.' :: padded.drop (padded.length - places)

def write (style : NumberStyle) (x : Binary64) : List Char :=
  let d := x.shortest style.tie
  let digits := Nat.toDigits 10 d.digits
  let leading := d.exponent + (digits.length - 1)
  let text :=
    if x.isZero || style.positional leading then style.positionalText digits d.exponent
    else style.scientific digits leading
  if x.negative then '-' :: text else text

-- Numbers in JSON: positional from `1e-5` up to below `1e16`, always with a point or an
-- exponent.
def json : NumberStyle where
  positional e := -5 ≤ e && e < 16
  keepsFraction := true
  plusInExponent := true
  tie := .toEven

-- Numbers in program text: positional from `1e-4` up to below `1e16`.
def literal : NumberStyle where
  positional e := -4 ≤ e && e < 16
  keepsFraction := true
  plusInExponent := false
  tie := .up

-- Numbers for display: never with an exponent, and whole numbers without a point.
def plain : NumberStyle where
  positional _ := true
  keepsFraction := false
  plusInExponent := false
  tie := .up

end NumberStyle

end OpenApiClient
