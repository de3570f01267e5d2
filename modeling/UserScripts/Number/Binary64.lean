/-!
# Binary floating point

Numbers with a fraction are held as binary fractions of 53 bits, as configuration formats prescribe. A decimal numeral is read
by rounding it to the nearest such fraction, a tie going to the even one; what is too large becomes infinite. A fraction is
written with the fewest digits that read back as the same fraction.
-/

namespace UserScripts

/-- A binary fraction, or one of the values beyond them. -/
inductive Binary64 where
  /-- The number `mantissa * 2 ^ exponent`, with its sign. Numbers built by `Binary64.ofRatio` have a mantissa of at most 53
  bits, and of exactly 53 unless the exponent is the least one. -/
  | finite (negative : Bool) (mantissa : Nat) (exponent : Int)
  | infinite (negative : Bool)
  /-- The value that is no number. -/
  | undefined
deriving DecidableEq, Repr

namespace Binary64

/-- The quotient rounded to the nearest integer; a tie goes to the even one. -/
def divNearest (num den : Nat) : Nat :=
  let q := num / den
  let twice := 2 * (num % den)
  if twice < den then q else if den < twice then q + 1 else q + q % 2

/-- The rounded quotient of a fraction by a power of two. -/
def scaled (num den : Nat) (exponent : Int) : Nat :=
  divNearest (num * Nat.pow 2 (-exponent).toNat) (den * Nat.pow 2 exponent.toNat)

/-- The least exponent of a number. -/
def leastExponent : Int := -1074

/-- The greatest exponent of a number. -/
def greatestExponent : Int := 971

/-- The binary fraction nearest to `num / den`, infinite if that is too large. -/
def ofRatio (negative : Bool) (num den : Nat) : Binary64 :=
  if num = 0 then .finite negative 0 leastExponent
  else
    let rough : Int := (Nat.log2 num : Int) - (Nat.log2 den : Int) - 53
    let fine := if Nat.pow 2 53 ≤ (num * Nat.pow 2 (-rough).toNat) / (den * Nat.pow 2 rough.toNat) then rough + 1 else rough
    let exponent := max fine leastExponent
    let mantissa := scaled num den exponent
    let (mantissa, exponent) := if mantissa = Nat.pow 2 53 then (Nat.pow 2 52, exponent + 1) else (mantissa, exponent)
    if greatestExponent < exponent then .infinite negative else .finite negative mantissa exponent

/-- The binary fraction nearest to `digits * 10 ^ power`, infinite if that is too large. -/
def ofDecimal (negative : Bool) (digits : Nat) (power : Int) : Binary64 :=
  let size : Int := (Nat.toDigits 10 digits).length + power
  if digits = 0 || size < -330 then .finite negative 0 leastExponent
  else if 310 < size then .infinite negative
  else ofRatio negative (digits * Nat.pow 10 power.toNat) (Nat.pow 10 (-power).toNat)

/-- The numerator and the denominator of `mantissa * 2 ^ exponent`. -/
def ratio (mantissa : Nat) (exponent : Int) : Nat × Nat :=
  (mantissa * Nat.pow 2 exponent.toNat, Nat.pow 2 (-exponent).toNat)

/-- The number with the opposite sign. -/
def negate : Binary64 → Binary64
  | .finite negative mantissa exponent => .finite (!negative) mantissa exponent
  | .infinite negative => .infinite (!negative)
  | .undefined => .undefined

/-- The magnitude of a number as a fraction, if it is finite. -/
def magnitude? : Binary64 → Option (Nat × Nat)
  | .finite _ mantissa exponent => some (ratio mantissa exponent)
  | _ => none

/-- The sum of the magnitudes of two numbers. -/
def addMagnitudes (x y : Binary64) : Binary64 :=
  match x.magnitude?, y.magnitude? with
  | some (a, b), some (c, d) => ofRatio false (a * d + c * b) (b * d)
  | _, _ => .infinite false

/-- The product of the magnitude of a number and a factor. -/
def scaleMagnitude (x : Binary64) (factor : Nat) : Binary64 :=
  match x.magnitude?, (ofRatio false factor 1).magnitude? with
  | some (a, b), some (c, d) => ofRatio false (a * c) (b * d)
  | _, _ => .infinite false

/-- The integer that a number without fraction is. -/
def toInt? : Binary64 → Option Int
  | .finite negative mantissa exponent =>
    let (num, den) := ratio mantissa exponent
    if num % den = 0 then some (if negative then -((num / den : Nat) : Int) else (num / den : Nat)) else none
  | _ => none

/-- Whether a number is zero. -/
def isZero : Binary64 → Bool
  | .finite _ mantissa _ => mantissa == 0
  | _ => false

/-- The power of ten of the first digit of the positive fraction `num / den`. -/
def leadingPower (num den : Nat) : Int :=
  if den ≤ num then ((Nat.toDigits 10 (num / den)).length : Int) - 1
  else match (List.range 400).find? fun t => den ≤ num * Nat.pow 10 t with
    | some t => -(t : Int)
    | none => 0

/-- The point of the grid of step `10 ^ power` that lies nearest to `num / den` among those in the interval with the ends
`low / den` and `high / den`; the ends count if `closed`, and of two points at the same distance the even one is taken. -/
def gridPoint? (num low high den : Nat) (closed : Bool) (power : Int) : Option Nat :=
  let up := Nat.pow 10 (-power).toNat
  let down := den * Nat.pow 10 power.toNat
  let inside := fun n =>
    let x := n * down
    if closed then low * up ≤ x && x ≤ high * up else low * up < x && x < high * up
  let floor := num * up / down
  let nearest := divNearest (num * up) down
  [nearest, if nearest = floor then floor + 1 else floor].find? inside

/-- The shortest decimal that reads back as `mantissa * 2 ^ exponent`: its digits and the power of ten of the last one. -/
def shortest (mantissa : Nat) (exponent : Int) : Nat × Int :=
  let den := 4 * Nat.pow 2 (-exponent).toNat
  let unit := Nat.pow 2 exponent.toNat
  let num := 4 * mantissa * unit
  let below := if mantissa = Nat.pow 2 52 && leastExponent < exponent then 1 else 2
  let low := (4 * mantissa - below) * unit
  let high := (4 * mantissa + 2) * unit
  let lead := leadingPower num den
  let found := (List.range 17).findSome? fun (n : Nat) =>
    (gridPoint? num low high den (mantissa % 2 == 0) (lead - n)).map fun d => (d, lead - n)
  found.getD (0, 0)

/-- A positive decimal in text: positional if its first digit stands for a power of ten from -4 to 15, and always with a
fraction or an exponent. -/
def decimalText (digits : Nat) (power : Int) : List Char :=
  let all := Nat.toDigits 10 digits
  let lead : Int := (all.length : Int) - 1 + power
  if lead < -4 || 15 < lead then
    let stripped := (all.reverse.dropWhile (· == '0')).reverse
    let tail := stripped.drop 1
    let width := Nat.toDigits 10 lead.natAbs
    stripped.take 1 ++ (if tail.isEmpty then [] else '.' :: tail) ++ ['e', if lead < 0 then '-' else '+'] ++
      List.replicate (2 - width.length) '0' ++ width
  else if 0 ≤ power then all ++ List.replicate power.toNat '0' ++ ['.', '0']
  else if 0 ≤ lead then all.take (lead.toNat + 1) ++ '.' :: all.drop (lead.toNat + 1)
  else ['0', '.'] ++ List.replicate (-lead - 1).toNat '0' ++ all

/-- The text of a number: its shortest decimal, or a word. -/
def toText : Binary64 → String
  | .finite negative mantissa exponent =>
    let body := if mantissa = 0 then "0.0" else
      let (digits, power) := shortest mantissa exponent
      String.ofList (decimalText digits power)
    if negative then "-" ++ body else body
  | .infinite negative => if negative then "-Infinity" else "Infinity"
  | .undefined => "NaN"

end Binary64

end UserScripts
